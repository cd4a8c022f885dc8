import KgaGateway.ProcessRefinement

/-!
# Runs of the process

Any number of requests at a time, in any interleaving of what they ask, while
the environment changes and tokens are saved, by anybody, with failures and
kills: every request that ends gets the response, and leaves the record, that
the application computes at the settings read at boot and at a token that was
current while the request was in `load` (`process_refines`).
-/

namespace KgaGateway

open Dialogue

variable {Key : Type} {stores : String → TokenStore} {external : ℕ → External Key}
  {boot : AppSettings}

/-! ## The host keeps the agreement -/

/-- The caches hold what belongs there, and the settings are in theirs. -/
structure Process.Warm (boot : AppSettings) (s : Process) : Prop where
  settings : s.cells .settings = some boot
  cells : ∀ c v, s.cells c = some v → c.Holds boot v

/-- What an answer of the host rests on. -/
def Fact (external : ℕ → External Key) (s : Process) (id : ℕ) : Exchange (@Call.Ans Key) →
    Prop
  | ⟨.fetchKey url token, fetched⟩ => fetched = (external id).pyJWT.getSigningKeyFromJwt url token
  | ⟨.decode call, decoded⟩ => decoded = (external id).pyJWT.decode call
  | ⟨.send request, outcome⟩ => outcome = (external id).provider request
  | ⟨.endLoad path, result⟩ => (s.disk path).loads id = .done result
  | _ => True

/-- Facts are about the disk alone. -/
theorem Fact.congr {s s' : Process} (h : s'.disk = s.disk) {id : ℕ}
    {e : Exchange (@Call.Ans Key)} (hfact : Fact external s id e) :
    Fact external s' id e := by
  obtain ⟨call, a⟩ := e
  cases call with
  | endLoad path =>
    simp only [Fact] at hfact ⊢
    rwa [h]
  | _ => exact hfact

/-- A `load` that has ended stays so. -/
theorem step_done {store : TokenStore} {s s' : Sys} {e : StoreEvent} {id : ℕ} {result : LoadResult}
    (hstep : store.step s e = some s') (h : s.loads id = .done result) :
    s'.loads id = .done result := by
  cases e with
  | save id' op =>
    obtain ⟨p, -, rfl⟩ := Option.map_eq_some_iff.mp hstep
    exact h
  | load id' op =>
    obtain ⟨pc, hload, rfl⟩ := Option.map_eq_some_iff.mp hstep
    rcases eq_or_ne id id' with rfl | hne
    · rw [h] at hload
      cases op <;> cases hload
    · simpa only [Function.update_of_ne hne] using h
  | writeback | commit | commitDir =>
    cases hstep
    exact h

theorem Process.Warm.keep {s : Process} (h : s.Warm boot) {c : Cell} {v : c.Val}
    (hv : c.Holds boot v) : (s.keep c v).Warm boot := by
  rw [Process.keep]
  split
  · exact h
  · rename_i hfree
    refine ⟨?_, fun c' v' hv' => ?_⟩
    · rcases eq_or_ne .settings c with rfl | hne
      · -- the settings are there already
        simp [h.settings, Cell.keepsFirst] at hfree
      · simpa only [Function.update_of_ne hne] using h.settings
    · rcases eq_or_ne c' c with rfl | hne
      · simp only [Function.update_self] at hv'
        obtain rfl := Option.some.inj hv'
        exact hv
      · simp only [Function.update_of_ne hne] at hv'
        exact h.cells c' v' hv'

/-- **The host's part of the agreement.** -/
theorem handler_sound : (handler stores external).Sound (agreement boot) (Process.Warm boot)
    (Fact external) where
  serve {s s' id call a} hwarm hproper hserve := by
    cases call with
    | settings => exact hproper.elim
    | lookup c =>
      cases hserve
      refine ⟨hwarm, ?_, trivial, fun _ _ h => h⟩
      cases c with
      | settings => exact hwarm.settings
      | _ => exact hwarm.cells _
    | keep c v =>
      cases hserve
      have hdisk : (s.keep c v).disk = s.disk := by
        rw [Process.keep]
        split <;> rfl
      exact ⟨hwarm.keep hproper, trivial, trivial, fun _ _ => Fact.congr hdisk⟩
    | newObject =>
      cases hserve
      exact ⟨⟨hwarm.settings, hwarm.cells⟩, trivial, trivial, fun _ _ => Fact.congr rfl⟩
    | event | fetchKey | decode | send =>
      cases hserve
      first
        | exact ⟨hwarm, trivial, trivial, fun _ _ h => h⟩
        | exact ⟨hwarm, trivial, rfl, fun _ _ h => h⟩
    | beginLoad path =>
      cases hserve
      exact ⟨⟨hwarm.settings, hwarm.cells⟩, trivial, trivial, fun _ _ => Fact.congr rfl⟩
    | endLoad path =>
      obtain ⟨result, hresult, hp⟩ := Option.map_eq_some_iff.mp hserve
      cases hp
      refine ⟨hwarm, trivial, ?_, fun _ _ h => h⟩
      generalize hpc : (s.disk path).loads id = pc at hresult
      cases pc <;> cases hresult
      exact hpc
  move {s s' m} hwarm hmove := by
    cases m with
    | setEnv env =>
      cases hmove
      exact ⟨⟨hwarm.settings, hwarm.cells⟩, fun _ _ => Fact.congr rfl⟩
    | store path e =>
      obtain ⟨-, hmove⟩ := Option.ite_none_right_eq_some.mp hmove
      obtain ⟨sys, hstep, rfl⟩ := Option.map_eq_some_iff.mp hmove
      refine ⟨⟨hwarm.settings, hwarm.cells⟩, fun id e' hfact => ?_⟩
      obtain ⟨call, a⟩ := e'
      cases call with
      | endLoad path' =>
        simp only [Fact] at hfact ⊢
        rcases eq_or_ne path' path with rfl | hne
        · rw [Function.update_self]
          exact step_done hstep hfact
        · rwa [Function.update_of_ne hne]
      | _ => exact hfact

/-! ## Booting -/

/-- The settings are in the cache, and nothing else is. -/
def Process.booted (s : Process) (boot : AppSettings) : Process :=
  { s with cells := Function.update s.cells .settings (some boot) }

/-- Importing the application asks for the settings and for nothing else; it
fails if they do not validate, and then nothing is cached. -/
theorem runAlone_createApp (id : ℕ) (env : Except String AppSettings) (disk : String → Sys) :
    (handler stores external).runAlone id (Proc.createApp : Proc Key Exn AppSettings)
      (Process.fresh env disk) =
        some (match env with
          | .ok boot => (.ok boot, (Process.fresh env disk).booted boot)
          | .error _ => (.error (.unhandled "ValidationError"), Process.fresh env disk)) := by
  cases env <;> rfl

theorem warm_booted (env : Except String AppSettings) (disk : String → Sys) :
    ((Process.fresh env disk).booted boot).Warm boot where
  settings := by simp only [Process.booted, Function.update_self]
  cells c v hv := by
    rcases eq_or_ne c .settings with rfl | hne
    · simp only [Process.booted, Function.update_self] at hv
      exact (Option.some.inj hv).symm
    · simp only [Process.booted, Function.update_of_ne hne] at hv
      cases hv

/-- What has booted: a process of its own settings. -/
theorem booted_of_runAlone {id : ℕ} {env : Except String AppSettings} {disk : String → Sys}
    {process : Process} (h : (handler stores external).runAlone id
      (Proc.createApp : Proc Key Exn AppSettings) (Process.fresh env disk) =
        some (.ok boot, process)) :
    process = (Process.fresh env disk).booted boot := by
  rw [runAlone_createApp] at h
  cases env <;> cases h
  rfl

/-! ## The disk in a run -/

/-- What happened to the store at a path. -/
def storeEvents (path : String) (events : List (PoolEvent Move)) : List StoreEvent :=
  events.filterMap fun
    | .move (.store path' e) => if path' = path then some e else none
    | _ => none

theorem storeEvents_append (path : String) (events events' : List (PoolEvent Move)) :
    storeEvents path (events ++ events') = storeEvents path events ++ storeEvents path events' :=
  List.filterMap_append

section Run

variable {process : Process} {programs : ℕ → Proc Key Exn (List AuditRecord × Response)}

/-- A turn of a program leaves the disk alone. -/
theorem disk_of_serve {s s' : Process} {id : ℕ} {call : Call Key} {a : call.Ans}
    (h : (handler stores external).serve s id call = some (a, s')) : s'.disk = s.disk := by
  cases call with
  | endLoad path =>
    obtain ⟨result, -, hp⟩ := Option.map_eq_some_iff.mp h
    cases hp
    rfl
  | keep c v =>
    cases h
    rw [Process.keep]
    split <;> rfl
  | _ =>
    cases h
    rfl

/-- The events of a store are a run of it. -/
theorem run_disk (path : String) : ∀ events pool,
    (handler stores external).run (Pool.start process programs) events = some pool →
      (stores path).run (process.disk path) (storeEvents path events) =
        some (pool.shared.disk path) := by
  refine Host.run_induction rfl fun events pool pool' e _ hdisk hstep => ?_
  cases e with
  | turn id =>
    obtain ⟨call, k, a, s, -, hserve, rfl⟩ := Host.turn_eq_some hstep
    rw [storeEvents_append, disk_of_serve hserve]
    simpa [storeEvents] using hdisk
  | move m =>
    obtain ⟨s, hmove, rfl⟩ := Option.map_eq_some_iff.mp hstep
    rw [storeEvents_append]
    cases m with
    | setEnv env =>
      cases hmove
      simpa [storeEvents] using hdisk
    | store path' e =>
      obtain ⟨-, hmove⟩ := Option.ite_none_right_eq_some.mp hmove
      obtain ⟨sys, hstore, rfl⟩ := Option.map_eq_some_iff.mp hmove
      rcases eq_or_ne path' path with rfl | hne
      · have hone : storeEvents path' [.move (.store path' e)] = [e] := by simp [storeEvents]
        rw [hone, run_append_singleton]
        simp only [Function.update_self]
        exact ⟨_, hdisk, hstore⟩
      · have hnone : storeEvents path [.move (.store path' e)] = [] := by simp [storeEvents, hne]
        rw [hnone, List.append_nil]
        simpa only [Function.update_of_ne hne.symm] using hdisk

/-- The threads that are in `load`, or were: they have called it. -/
structure Loading (events : List (PoolEvent Move))
    (pool : Pool (@Call.Ans Key) Exn (List AuditRecord × Response) Process) : Prop where
  opened : ∀ path id, .load id .open ∈ storeEvents path events → pool.shared.loading path id = true
  called : ∀ path id, pool.shared.loading path id = true →
    ⟨.beginLoad path, ()⟩ ∈ (pool.thread id).history

theorem mem_storeEvents_append {path : String} {events : List (PoolEvent Move)}
    {e : PoolEvent Move} {e' : StoreEvent} (h : e' ∈ storeEvents path (events ++ [e])) :
    e' ∈ storeEvents path events ∨ e = .move (.store path e') := by
  rw [storeEvents_append, List.mem_append] at h
  refine h.imp_right fun h => ?_
  cases e with
  | turn id => simp [storeEvents] at h
  | move m =>
    cases m with
    | setEnv env => simp [storeEvents] at h
    | store path' e =>
      by_cases hpath : path' = path
      · simp only [storeEvents, List.filterMap_cons, hpath, if_true, List.filterMap_nil,
          List.mem_singleton] at h
        rw [h, hpath]
      · simp [storeEvents, hpath] at h

theorem mem_loading_beginLoad {s : Process} {path path' : String} {id id' : ℕ}
    (h : (s.beginLoad path id).loading path' id' = true) :
    s.loading path' id' = true ∨ path' = path ∧ id' = id := by
  simp only [Process.beginLoad] at h
  rcases eq_or_ne path' path with rfl | hpath
  · rw [Function.update_self] at h
    rcases eq_or_ne id' id with rfl | hid
    · exact Or.inr ⟨rfl, rfl⟩
    · rw [Function.update_of_ne hid] at h
      exact Or.inl h
  · rw [Function.update_of_ne hpath] at h
    exact Or.inl h

theorem loading_beginLoad {s : Process} {path path' : String} {id id' : ℕ}
    (h : s.loading path' id' = true) : (s.beginLoad path id).loading path' id' = true := by
  simp only [Process.beginLoad]
  rcases eq_or_ne path' path with rfl | hpath
  · rw [Function.update_self]
    rcases eq_or_ne id' id with rfl | hid
    · rw [Function.update_self]
    · rwa [Function.update_of_ne hid]
  · rwa [Function.update_of_ne hpath]

/-- A turn changes who is in `load` only by calling it. -/
theorem loading_of_serve {s s' : Process} {id : ℕ} {call : Call Key} {a : call.Ans}
    (h : (handler stores external).serve s id call = some (a, s')) :
    s'.loading = s.loading ∨ ∃ path, call = .beginLoad path ∧ s' = s.beginLoad path id := by
  cases call with
  | endLoad path =>
    obtain ⟨result, -, hp⟩ := Option.map_eq_some_iff.mp h
    cases hp
    exact Or.inl rfl
  | keep c v =>
    cases h
    rw [Process.keep]
    split <;> exact Or.inl rfl
  | beginLoad path =>
    cases h
    exact Or.inr ⟨path, rfl, rfl⟩
  | _ =>
    cases h
    exact Or.inl rfl

theorem Loading.turn {events : List (PoolEvent Move)}
    {pool pool' : Pool (@Call.Ans Key) Exn (List AuditRecord × Response) Process} {id : ℕ}
    (h : Loading events pool) (hturn : (handler stores external).turn pool id = some pool') :
    Loading (events ++ [.turn id]) pool' := by
  obtain ⟨call, k, a, s, -, hserve, rfl⟩ := Host.turn_eq_some hturn
  -- what was asked before is still in the history
  have hhistory : ∀ id' e, e ∈ (pool.thread id').history →
      e ∈ (Function.update pool.thread id
        ⟨(pool.thread id).history ++ [⟨call, a⟩], k a⟩ id').history := by
    intro id' e he
    rcases eq_or_ne id' id with rfl | hne
    · rw [Function.update_self]
      exact List.mem_append_left _ he
    · rwa [Function.update_of_ne hne]
  have hevents : ∀ path, storeEvents path (events ++ [.turn id]) = storeEvents path events := by
    intro path
    rw [storeEvents_append]
    simp [storeEvents]
  rcases loading_of_serve hserve with hsame | ⟨path, rfl, rfl⟩
  · refine ⟨fun path' id' hopen => ?_, fun path' id' hloading => ?_⟩
    · rw [hevents] at hopen
      exact (congrFun (congrFun hsame path') id').trans (h.opened path' id' hopen)
    · rw [hsame] at hloading
      exact hhistory _ _ (h.called path' id' hloading)
  · refine ⟨fun path' id' hopen => ?_, fun path' id' hloading => ?_⟩
    · rw [hevents] at hopen
      exact loading_beginLoad (h.opened path' id' hopen)
    · rcases mem_loading_beginLoad hloading with hloading | ⟨rfl, rfl⟩
      · exact hhistory _ _ (h.called path' id' hloading)
      · simp

theorem Loading.move {events : List (PoolEvent Move)}
    {pool : Pool (@Call.Ans Key) Exn (List AuditRecord × Response) Process} {m : Move}
    {s : Process} (h : Loading events pool)
    (hmove : (handler stores external).move pool.shared m = some s) :
    Loading (events ++ [.move m]) ⟨s, pool.thread⟩ := by
  cases m with
  | setEnv env =>
    cases hmove
    refine ⟨fun path id hopen => ?_, h.called⟩
    rcases mem_storeEvents_append hopen with hopen | he
    · exact h.opened path id hopen
    · cases he
  | store path e =>
    obtain ⟨hlets, hmove⟩ := Option.ite_none_right_eq_some.mp hmove
    obtain ⟨sys, -, rfl⟩ := Option.map_eq_some_iff.mp hmove
    refine ⟨fun path' id hopen => ?_, h.called⟩
    rcases mem_storeEvents_append hopen with hopen | he
    · exact h.opened path' id hopen
    · cases he
      exact hlets

/-- A `load` opens its file after it was called. -/
theorem loading_of_run (hloading : ∀ path id, process.loading path id = false) :
    ∀ events pool, (handler stores external).run (Pool.start process programs) events = some pool →
      Loading events pool := by
  refine Host.run_induction ⟨fun _ _ h => absurd h List.not_mem_nil, fun path id h => ?_⟩
    fun events pool pool' e _ h hstep => ?_
  · rw [Pool.start, hloading] at h
    cases h
  · cases e with
    | turn id => exact h.turn hstep
    | move m =>
      obtain ⟨s, hmove, rfl⟩ := Option.map_eq_some_iff.mp hstep
      exact h.move hmove

end Run

/-! ## What a request computes -/

/-- The token a request has loaded, if it has. -/
def seenToken (sys : Sys) (id : ℕ) : Option (List (String × Json)) :=
  match sys.loads id with
  | .done (.ok (some (.obj members))) => some members
  | _ => none

/-- A `load` that has ended returned the token current at its open. -/
theorem load_of_done {store : TokenStore} {start : Start store.name} {events : List StoreEvent}
    {s : Sys} (hrun : store.run start.sys events = some s) {id : ℕ} {result : LoadResult}
    (hdone : s.loads id = .done result) :
    result = .ok ((seenToken s id).map .obj) ∧ ∃ before, OpenedAfter events id before ∧
      seenToken s id = (store.last start before).map Token.members := by
  obtain ⟨r, hr⟩ := reached_of_run events hrun
  have hload := hr.loads id
  rw [hdone] at hload
  obtain ⟨before, hopen, rfl⟩ := hload
  have hseen : seenToken s id = (store.last start before).map Token.members := by
    rw [seenToken, hdone]
    cases store.last start before <;> rfl
  refine ⟨?_, before, hopen, hseen⟩
  rw [hseen]
  cases store.last start before <;> rfl

/-- What happened to a store before a request asked for anything, happened before
its `load` opened the file. -/
theorem prefix_of_unasked {process : Process}
    {programs : ℕ → Proc Key Exn (List AuditRecord × Response)}
    (hloading : ∀ path id, process.loading path id = false) {earlier later : List (PoolEvent Move)}
    {mid : Pool (@Call.Ans Key) Exn (List AuditRecord × Response) Process}
    (hmid : (handler stores external).run (Pool.start process programs) earlier = some mid)
    {id : ℕ} (hnone : (mid.thread id).history = []) {path : String} {before : List StoreEvent}
    (hopen : OpenedAfter (storeEvents path (earlier ++ later)) id before) :
    storeEvents path earlier <+: before := by
  rw [storeEvents_append] at hopen
  refine prefix_of_openedAfter hopen fun hmem => ?_
  have h := loading_of_run hloading earlier mid hmid
  have hcalled := h.called _ _ (h.opened _ _ hmem)
  rw [hnone] at hcalled
  cases hcalled

/-- The world that gave a thread its answers: what it meets outside, and the
token it has loaded. -/
theorem seesAll_of_keeps {X : Type} {Q : ℕ → List (Exchange (@Call.Ans Key)) → Except Exn X → Prop}
    {pool : Pool (@Call.Ans Key) Exn X Process}
    (hkeeps : Host.Keeps (agreement boot) (Process.Warm boot) (Fact external) Q pool) {id : ℕ}
    (hload : ∀ result, (pool.shared.disk boot.tokenStorePath).loads id = .done result →
      result = .ok ((seenToken (pool.shared.disk boot.tokenStorePath) id).map .obj)) :
    (agreement boot).SeesAll
      (⟨external id, seenToken (pool.shared.disk boot.tokenStorePath) id⟩ : View Key)
      (pool.thread id).history := by
  rintro ⟨call, a⟩ he
  obtain ⟨hproper, hfact⟩ := hkeeps.fact id _ he
  cases call with
  | endLoad path =>
    obtain rfl : path = boot.tokenStorePath := hproper
    exact hload a hfact
  | fetchKey | decode | send => exact hfact
  | _ => trivial

section Serving

variable (stores) (external) (start : (path : String) → Start (stores path).name)
  (framework : Framework) (printable : Char → Bool) (other : Request → Except Exn Response)

/-- Every request runs on a thread of its own. -/
def serving (boot : AppSettings) (requests : ℕ → Request) (id : ℕ) :
    Proc Key Exn (List AuditRecord × Response) :=
  Proc.serve framework printable other boot (requests id)

/-- The promise of a request: it refines the application. -/
def Promise (boot : AppSettings) (requests : ℕ → Request) (id : ℕ)
    (h : List (Exchange (@Call.Ans Key)))
    (r : Except Exn (List AuditRecord × Response)) : Prop :=
  ∀ view : View Key, (agreement boot).SeesAll view h →
    (agreement boot).actions h = (view.app boot framework printable other (requests id)).trace ∧
      r = .ok (serve framework (view.app boot framework printable other) (requests id))

variable {stores external start framework printable other}

/-- The agreement is kept in every run of a process that has booted. -/
theorem keeps_of_run {env : Except String AppSettings} {disk : String → Sys} {process : Process}
    (hboot : (handler stores external).runAlone 0 (Proc.createApp : Proc Key Exn AppSettings)
      (Process.fresh env disk) = some (.ok boot, process)) {requests : ℕ → Request}
    {events : List (PoolEvent Move)}
    {pool : Pool (@Call.Ans Key) Exn (List AuditRecord × Response) Process}
    (hrun : (handler stores external).run
      (Pool.start process (serving framework printable other boot requests)) events = some pool) :
    Host.Keeps (agreement boot) (Process.Warm boot) (Fact external)
      (Promise framework printable other boot requests) pool := by
  have hwarm : process.Warm boot := by
    rw [booted_of_runAlone hboot]
    exact warm_booted env disk
  exact (Host.Keeps.start hwarm fun id => serve_refines other (requests id)).run handler_sound
    events pool hrun

/-- **Configuration is read once.** In every run of a process that has booted,
no request makes new settings out of the environment, and everything cached and
everything sent to the identity library is that of the settings read at boot:
the keys come from its tenant, the claims are checked against its audience,
issuer and algorithms, and the token is loaded from its path. -/
theorem configuration_frozen (env : Except String AppSettings) (disk : String → Sys)
    (process : Process)
    (hboot : (handler stores external).runAlone 0 (Proc.createApp : Proc Key Exn AppSettings)
      (Process.fresh env disk) = some (.ok boot, process)) (requests : ℕ → Request)
    (events : List (PoolEvent Move))
    (pool : Pool (@Call.Ans Key) Exn (List AuditRecord × Response) Process)
    (hrun : (handler stores external).run
      (Pool.start process (serving framework printable other boot requests)) events = some pool) :
    (∀ id, ∀ e ∈ (pool.thread id).history, (agreement boot).proper e.1) ∧
      pool.shared.Warm boot := by
  have hkeeps := keeps_of_run hboot hrun
  exact ⟨fun id e he => (hkeeps.fact id e he).1, hkeeps.inv⟩

/-- **The process refines the application.** However the requests interleave,
whatever becomes of the environment, and whoever saves tokens, each request
that ends has the response, the record and the actions that the application
computes at the settings read at boot and at one token. If the request has
loaded a token, that is the one whose rename was the last one before its
`open`, and no rename that precedes the request comes after it. -/
theorem process_refines (env : Except String AppSettings) (process : Process)
    (hboot : (handler stores external).runAlone 0 (Proc.createApp : Proc Key Exn AppSettings)
      (Process.fresh env fun path => (start path).sys) = some (.ok boot, process))
    (requests : ℕ → Request) (events : List (PoolEvent Move))
    (pool : Pool (@Call.Ans Key) Exn (List AuditRecord × Response) Process)
    (hrun : (handler stores external).run
      (Pool.start process (serving framework printable other boot requests)) events = some pool)
    (id : ℕ) (r : Except Exn (List AuditRecord × Response))
    (hdone : (pool.thread id).rest = .done r) :
    ∃ (token : Option (List (String × Json))) (app : Request → App Response),
      createApp ((View.mk (external id) token).deployment boot framework printable)
        (fun req => Traced.lift (other req)) = .ok app ∧
      r = .ok (serve framework app (requests id)) ∧
      (agreement boot).actions (pool.thread id).history = (app (requests id)).trace ∧
      ∀ result, ⟨.endLoad boot.tokenStorePath, result⟩ ∈ (pool.thread id).history →
        ∃ before, OpenedAfter (storeEvents boot.tokenStorePath events) id before ∧
          token = ((stores boot.tokenStorePath).last (start boot.tokenStorePath) before).map
            Token.members ∧
          ∀ earlier later mid, events = earlier ++ later →
            (handler stores external).run
              (Pool.start process (serving framework printable other boot requests)) earlier =
                some mid →
            (mid.thread id).history = [] → storeEvents boot.tokenStorePath earlier <+: before := by
  have hkeeps := keeps_of_run hboot hrun
  have hprocess := booted_of_runAlone hboot
  have hstore := run_disk boot.tokenStorePath events pool hrun
  rw [hprocess] at hstore
  have hload := fun result => @load_of_done _ _ _ _ hstore id result
  obtain ⟨hactions, hr⟩ := hkeeps.of_done hdone _
    (seesAll_of_keeps hkeeps fun result hresult => (hload result hresult).1)
  refine ⟨_, _, createApp_eq _ _, hr, hactions, fun result hmem => ?_⟩
  obtain ⟨-, hfact⟩ := hkeeps.fact id _ hmem
  obtain ⟨-, before, hopen, hseen⟩ := hload result hfact
  refine ⟨before, hopen, hseen, fun earlier later mid hsplit hmid hnone => ?_⟩
  rw [hsplit] at hopen
  exact prefix_of_unasked (by rw [hprocess]; exact fun _ _ => rfl) hmid hnone hopen

end Serving

/-! ### A run -/

/-- A token is saved, then a request comes in; in between the environment gets
an API key, which the process does not notice. -/
def lateKey : List (PoolEvent Move) :=
  (saveAlone 0 "k" 100).map (fun e => .move (.store ".tokens/example_token.json" e)) ++
    [.move (.setEnv (.ok { apiKeys := "secret" })), .turn 0, .turn 0, .turn 0, .turn 0, .turn 0,
      .move (.store ".tokens/example_token.json" (.load 0 .open)),
      .move (.store ".tokens/example_token.json" (.load 0 (.read 100))),
      .move (.store ".tokens/example_token.json" (.load 0 .eof)), .turn 0, .turn 0, .turn 0]

/-- The world of that run: no keys, and a provider that cannot be reached. -/
def lateKeyExternal : External Unit :=
  ⟨⟨fun _ _ => .error .pyJWKClientError, fun _ => .ok []⟩, fun _ => .httpError⟩

/-- The settings of an empty environment. -/
def defaultSettings : AppSettings := {}

/-- The host of that run: the store is given one token. -/
def lateKeyHost : Host (Call Unit) Call.Ans Process Move :=
  handler (fun _ => .ofToken "t" (.ofRefresh "new")) fun _ => lateKeyExternal

/-- A client of the example surface, at a process with the default settings. -/
def lateKeyPool : Pool (@Call.Ans Unit) Exn (List AuditRecord × Response) Process :=
  Pool.start ((Process.fresh (.ok {}) fun _ => (Start.absent "t").sys).booted {})
    (serving .plain (fun _ => true)
      (fun _ => .error (.httpException 404 "Not Found" [])) {}
      fun _ => { path := apiPrefix ++ "/items" })

def lateKeyRun : Option (Pool (@Call.Ans Unit) Exn (List AuditRecord × Response) Process) :=
  lateKeyHost.run lateKeyPool lateKey

/-- How the request ended. -/
def lateKeyEnd : Option (Except Exn (List AuditRecord × Response)) :=
  lateKeyRun.bind fun pool =>
    match (pool.thread 0).rest with
    | .done r => some r
    | .ask _ _ => none

theorem lateKeyEnd_eq : ∃ pool r, lateKeyRun = some pool ∧ (pool.thread 0).rest = .done r := by
  have hends : lateKeyEnd.isSome = true := by decide +kernel
  obtain ⟨r, hr⟩ := Option.isSome_iff_exists.mp hends
  obtain ⟨pool, hrun, hdone⟩ := Option.bind_eq_some_iff.mp hr
  refine ⟨pool, r, hrun, ?_⟩
  generalize (pool.thread 0).rest = rest at hdone
  cases rest <;> cases hdone
  rfl

/-- The settings of that run stay the default ones. -/
theorem configuration_frozen_of_late_key :
    ∃ pool, lateKeyRun = some pool ∧ pool.shared.cells .settings = some {} := by
  obtain ⟨pool, r, hrun, -⟩ := lateKeyEnd_eq
  have hfrozen := @configuration_frozen Unit (fun _ => .ofToken "t" (.ofRefresh "new"))
    (fun _ => lateKeyExternal) {} .plain (fun _ => true)
    (fun _ => .error (.httpException 404 "Not Found" [])) (.ok {}) (fun _ => (Start.absent "t").sys)
    ((Process.fresh (.ok {}) fun _ => (Start.absent "t").sys).booted {})
    (runAlone_createApp 0 (.ok {}) _) (fun _ => { path := apiPrefix ++ "/items" }) lateKey pool hrun
  exact ⟨pool, hrun, hfrozen.2.settings⟩

/-- The request is admitted without a key, and answered as the application
answers it with some token. -/
theorem process_refines_of_late_key :
    ∃ pool r, lateKeyRun = some pool ∧ (pool.thread 0).rest = .done r ∧
      ∃ token app, createApp
        ((View.mk lateKeyExternal token).deployment {} .plain
          fun _ => true)
        (fun _ => Traced.lift (.error (.httpException 404 "Not Found" []))) = .ok app ∧
        r = .ok (serve .plain app { path := apiPrefix ++ "/items" }) := by
  obtain ⟨pool, r, hrun, hdone⟩ := lateKeyEnd_eq
  obtain ⟨token, app, happ, hserve, -⟩ :=
    @process_refines Unit (fun _ => .ofToken "t" (.ofRefresh "new")) (fun _ => lateKeyExternal) {}
      (fun _ => Start.absent "t") .plain (fun _ => true)
      (fun _ => .error (.httpException 404 "Not Found" [])) (.ok {})
      ((Process.fresh (.ok {}) fun _ => (Start.absent "t").sys).booted {})
      (runAlone_createApp 0 (.ok {}) _) (fun _ => { path := apiPrefix ++ "/items" }) lateKey pool
      hrun 0 r hdone
  exact ⟨pool, r, hrun, hdone, token, app, happ, hserve⟩

end KgaGateway
