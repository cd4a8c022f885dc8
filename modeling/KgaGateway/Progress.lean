import KgaGateway.ProcessRuns

/-!
# Requests come to an end

What `ProcessRuns` says of a request is said once it has ended. It does end: a
request asks at most 18 questions, whatever the answers are, and it never waits
for another one (`requests_finish`). The caches have no locks, and a `load`
reads whatever file it has opened to its end while others save.
-/

namespace KgaGateway

/-! ## How much a request asks -/

/-- The end of a `load` is asked for after its beginning. -/
def Call.needs {Key : Type} : Call Key → Option (Call Key)
  | endLoad path => some (beginLoad path)
  | _ => none

namespace Proc

open Dialogue

variable {Key Err : Type} {asked : Call Key → Prop}

/-- A miss costs a lookup and a question to keep the value. -/
theorem paced_cached {c : Cell} {compute : Proc Key Err c.Val} {n : ℕ}
    (h : compute.Paced Call.needs n asked) :
    (cached c compute).Paced Call.needs (1 + (n + (1 + 0))) asked := by
  refine (paced_question rfl).bind fun found => ?_
  cases found with
  | some v => exact paced_pure v
  | none => exact h.bind fun v => (paced_question rfl).bind fun _ => paced_pure v

theorem paced_getSettings : (getSettings : Proc Key Exn AppSettings).Paced Call.needs 3 asked := by
  refine paced_cached (n := 1) ((paced_question rfl).bind (m := 0) fun validated => ?_)
  cases validated with
  | ok settings => exact paced_pure settings
  | error _ => exact paced_done

theorem paced_getTokenStore : (getTokenStore : Proc Key Exn String).Paced Call.needs 5 asked :=
  paced_cached (n := 3) (paced_getSettings.bind (m := 0) fun _ => paced_pure _)

theorem paced_getProvider :
    (getProvider : Proc Key Exn ProviderObject).Paced Call.needs 9 asked := by
  refine paced_cached (n := 7) (paced_getSettings.bind (m := 4) fun settings => ?_)
  split
  · exact paced_getSettings.bind (m := 1) fun _ =>
      (paced_question rfl).bind (m := 0) fun _ => paced_pure _
  · exact paced_done

theorem paced_jwksClient (object : ProviderObject) :
    (jwksClient object : Proc Key Err String).Paced Call.needs 2 asked :=
  paced_cached (n := 0) (paced_pure _)

theorem paced_verify (printable : Char → Bool) (object : ProviderObject) (token : String) :
    (verify printable object token : Proc Key VerifyError Principal).Paced Call.needs 4 asked := by
  refine paced_done.bind (n := 0) (m := 4) fun _ => ?_
  refine (paced_jwksClient object).bind (m := 2) fun url => ?_
  refine (paced_question rfl).bind (m := 1) fun fetched => ?_
  refine paced_done.bind (n := 0) (m := 1) fun key => ?_
  refine (paced_question rfl).bind (m := 0) fun decoded => ?_
  exact paced_done.bind (n := 0) (m := 0) fun _ => paced_done

theorem paced_currentPrincipal (printable : Char → Bool) (authorization : Option String) :
    (currentPrincipal printable authorization : Proc Key Exn Principal).Paced Call.needs 14
      asked := by
  cases authorization with
  | none => exact paced_done
  | some header =>
    rw [currentPrincipal]
    split
    · exact paced_done
    · dsimp only
      split
      · exact paced_done
      · refine paced_getProvider.bind (m := 5) fun object => ?_
        refine (paced_question rfl).bind (m := 4) fun _ => ?_
        exact (paced_verify printable object _).attempt.bind (m := 0) fun _ => paced_done

theorem paced_requireApiKey (req : Request) :
    (requireApiKey req : Proc Key Exn Unit).Paced Call.needs 3 asked :=
  paced_getSettings.bind (m := 0) fun _ => paced_done

/-- A route asks what its parts ask. -/
theorem paced_runRoute {P A : Type} {decorators : Proc Key Exn Unit} {parameters : Proc Key Exn P}
    {arguments : Except (List FieldError) A} {endpoint : P → A → Proc Key Exn Response}
    {n m l : ℕ} (hd : decorators.Paced Call.needs n asked)
    (hp : parameters.Paced Call.needs m asked)
    (he : ∀ p a, (endpoint p a).Paced Call.needs l asked) :
    (runRoute decorators parameters arguments endpoint).Paced Call.needs (n + (m + l)) asked := by
  refine hd.bind fun _ => hp.bind fun p => ?_
  cases arguments with
  | error errors => exact paced_done
  | ok a => exact he p a

theorem paced_financeRoute (framework : Framework) (printable : Char → Bool) (route : Route)
    (req : Request) :
    (financeRoute framework printable route req : Proc Key Exn Response).Paced Call.needs 18
      asked :=
  paced_runRoute (m := 14) (l := 1) (paced_requireApiKey req)
    ((paced_currentPrincipal printable _).bind (m := 0) fun _ => paced_done)
    fun _ _ => (paced_question rfl).bind (m := 0) fun _ => paced_done

/-- The one place where a request waits: for its own `load`. -/
theorem paced_loadToken : (loadToken : Proc Key Exn (Option Json)).Paced Call.needs 7 asked := by
  refine paced_getTokenStore.bind (m := 2) fun path => ?_
  refine paced_question_bind (n := 1) (fun need hneed => by cases hneed) fun _ => ?_
  refine paced_question_bind (n := 0) (fun need hneed => ?_) fun result => ?_
  · exact Or.inr (Option.some.inj hneed).symm
  · cases result with
    | ok token => exact paced_done
    | error e =>
      cases e
      exact paced_done

theorem paced_ensureValidToken :
    (ensureValidToken : Proc Key Exn Unit).Paced Call.needs 7 asked := by
  refine paced_loadToken.bind (m := 0) fun token => ?_
  split
  · exact paced_pure _
  · exact paced_done

theorem paced_requireProviderAuth :
    (requireProviderAuth : Proc Key Exn ExampleService).Paced Call.needs 10 asked :=
  paced_ensureValidToken.bind (m := 3) fun _ =>
    paced_getSettings.bind (m := 0) fun _ => paced_pure _

theorem paced_exampleRoute (framework : Framework) (route : ExampleRoute) (req : Request) :
    (exampleRoute framework route req : Proc Key Exn Response).Paced Call.needs 14 asked := by
  refine paced_runRoute (m := 10) (l := 1) (paced_requireApiKey req) paced_requireProviderAuth ?_
  intro service arg
  refine Paced.bind (n := 1) (m := 0) ?_ fun _ => paced_done
  refine (paced_question rfl).bind (m := 0) fun outcome => ?_
  exact paced_done.bind (n := 0) (m := 0) fun _ => paced_pure _

/-- A request asks at most 18 questions. -/
theorem paced_serve (framework : Framework) (printable : Char → Bool)
    (other : Request → Except Exn Response) (boot : AppSettings) (req : Request) :
    (serve framework printable other boot req :
      Proc Key Exn (List AuditRecord × Response)).Paced Call.needs 18 asked := by
  have hhandle : (handle framework printable other boot req : Proc Key Exn Response).Paced
      Call.needs 18 asked := by
    rw [handle]
    split
    · exact (paced_exampleRoute framework _ req).mono (by decide) fun _ => id
    · split
      · exact paced_financeRoute framework printable _ req
      · split
        · exact paced_pure _
        · exact paced_done
  refine hhandle.attempt.bind (m := 0) fun result => ?_
  cases result with
  | ok response => exact paced_pure _
  | error e =>
    dsimp only
    split <;> exact paced_pure _

end Proc

/-! ## A load comes to an end -/

/-- Steps of one `load`, none of which kills it, and where they lead. -/
def LoadsTo (store : TokenStore) (id : ℕ) (s s' : Sys) : Prop :=
  ∃ ops : List LoadOp, (∀ op ∈ ops, op ≠ .kill) ∧ store.run s (ops.map (.load id)) = some s'

section LoadsTo

variable {store : TokenStore} {id : ℕ} {s s' : Sys}

theorem LoadsTo.refl : LoadsTo store id s s := ⟨[], fun _ h => absurd h List.not_mem_nil, rfl⟩

/-- One step, and what comes after it. -/
theorem LoadsTo.step {op : LoadOp} {pc : LoadPc} (hop : op ≠ .kill)
    (hstep : store.loadStep s.disk (s.loads id) op = some pc)
    (h : LoadsTo store id { s with loads := Function.update s.loads id pc } s') :
    LoadsTo store id s s' := by
  obtain ⟨ops, hops, hrun⟩ := h
  refine ⟨op :: ops, List.forall_mem_cons.mpr ⟨hop, hops⟩, ?_⟩
  rw [List.map_cons, TokenStore.run, List.foldlM_cons, TokenStore.step, hstep]
  exact hrun

/-- An open file is read to its end. -/
theorem reading_ends {ino : ℕ} {seen : List Char} (h : s.loads id = .reading ino seen) :
    ∃ s' result, LoadsTo store id s s' ∧ s'.loads id = .done result := by
  let all := seen ++ ((s.disk.data ino).drop seen.length).take (s.disk.data ino).length
  have hall : (s.disk.data ino).length ≤ all.length := by
    simp only [all, List.length_append, List.length_take, List.length_drop]
    omega
  have hread : store.loadStep s.disk (s.loads id) (.read (s.disk.data ino).length) =
      some (.reading ino all) := by rw [h]; rfl
  let opened : Sys := { s with loads := Function.update s.loads id (.reading ino all) }
  have heof : store.loadStep opened.disk (opened.loads id) .eof =
      some (.done (parseContent store.reader all)) := by
    simp only [opened, Function.update_self]
    exact if_pos hall
  have hends := LoadsTo.step (by decide) heof .refl
  exact ⟨_, _, .step (by simp) hread hends, Function.update_self ..⟩

/-- A `load` that was not killed comes to an end by its own steps, whatever
becomes of the target meanwhile. -/
theorem load_ends (h : s.loads id ≠ .killed) :
    ∃ s' result, LoadsTo store id s s' ∧ s'.loads id = .done result := by
  cases hpc : s.loads id with
  | idle =>
    cases hentry : if s.disk.isDir then s.disk.entries store.name else none with
    | none =>
      have hopen : store.loadStep s.disk (s.loads id) .open = some (.done (.ok none)) := by
        rw [hpc, TokenStore.loadStep, hentry]
      exact ⟨_, _, .step (by decide) hopen .refl, Function.update_self ..⟩
    | some ino =>
      have hopen : store.loadStep s.disk (s.loads id) .open = some (.reading ino []) := by
        rw [hpc, TokenStore.loadStep, hentry]
      obtain ⟨s', result, hto, hdone⟩ := @reading_ends store id
        { s with loads := Function.update s.loads id (.reading ino []) } ino []
        (Function.update_self ..)
      exact ⟨s', result, .step (by decide) hopen hto, hdone⟩
  | reading ino seen => exact reading_ends hpc
  | done result => exact ⟨s, result, .refl, hpc⟩
  | killed => exact absurd hpc h

end LoadsTo

/-! ## Requests come to an end -/

section Requests

variable {Key : Type} {stores : String → TokenStore} {external : ℕ → External Key}
  {process : Process}
  {pool pool' : Pool (@Call.Ans Key) Exn (List AuditRecord × Response) Process} {id : ℕ}

/-- A step of the `load` of a request. -/
def OwnLoad (id : ℕ) (m : Move) : Prop :=
  ∃ path op, op ≠ LoadOp.kill ∧ m = .store path (.load id op)

/-- A request that has called `load` may take its steps, and no `load` of it was
killed. -/
structure Awake (id : ℕ)
    (pool : Pool (@Call.Ans Key) Exn (List AuditRecord × Response) Process) : Prop where
  called : ∀ path a, ⟨.beginLoad path, a⟩ ∈ (pool.thread id).history →
    pool.shared.loading path id = true
  alive : ∀ path, (pool.shared.disk path).loads id ≠ .killed

/-- What was called is not forgotten. -/
theorem called_of_turn {id' : ℕ}
    (hcalled : ∀ path a, ⟨.beginLoad path, a⟩ ∈ (pool.thread id).history →
      pool.shared.loading path id = true)
    (hturn : (handler stores external).turn pool id' = some pool') :
    ∀ path a, ⟨.beginLoad path, a⟩ ∈ (pool'.thread id).history →
      pool'.shared.loading path id = true := by
  obtain ⟨call, k, a, s, -, hserve, rfl⟩ := Host.turn_eq_some hturn
  have hstays : ∀ path, pool.shared.loading path id = true → s.loading path id = true := by
    intro path hloading
    rcases loading_of_serve hserve with hsame | ⟨path', -, rfl⟩
    · rwa [hsame]
    · exact loading_beginLoad hloading
  intro path a' hmem
  dsimp only at hmem ⊢
  rcases eq_or_ne id id' with rfl | hne
  · rw [Function.update_self, List.mem_append, List.mem_singleton] at hmem
    rcases hmem with hmem | heq
    · exact hstays path (hcalled path a' hmem)
    · cases heq
      cases hserve
      simp only [Process.beginLoad, Function.update_self]
  · rw [Function.update_of_ne hne] at hmem
    exact hstays path (hcalled path a' hmem)

/-- In every run. -/
theorem called_of_run {programs : ℕ → Proc Key Exn (List AuditRecord × Response)} (id : ℕ) :
    ∀ events pool, (handler stores external).run (Pool.start process programs) events = some pool →
      ∀ path a, ⟨.beginLoad path, a⟩ ∈ (pool.thread id).history →
        pool.shared.loading path id = true := by
  refine Host.run_induction (fun _ _ h => absurd h List.not_mem_nil)
    fun _ pool pool' e _ hcalled hstep => ?_
  cases e with
  | turn id' => exact called_of_turn hcalled hstep
  | move m =>
    obtain ⟨s, hmove, rfl⟩ := Option.map_eq_some_iff.mp hstep
    have hloading : s.loading = pool.shared.loading := by
      cases m with
      | setEnv env =>
        cases hmove
        rfl
      | store path e =>
        obtain ⟨-, hmove⟩ := Option.ite_none_right_eq_some.mp hmove
        obtain ⟨sys, -, rfl⟩ := Option.map_eq_some_iff.mp hmove
        rfl
    intro path a hmem
    exact (congrFun (congrFun hloading path) id).trans (hcalled path a hmem)

theorem Awake.turn (h : Awake id pool)
    (hturn : (handler stores external).turn pool id = some pool') : Awake id pool' where
  called := called_of_turn h.called hturn
  alive := by
    obtain ⟨call, k, a, s, -, hserve, rfl⟩ := Host.turn_eq_some hturn
    dsimp only
    rw [disk_of_serve hserve]
    exact h.alive

/-- The process with another state of the store at a path. -/
def Process.withSys (s : Process) (path : String) (sys : Sys) : Process :=
  { s with disk := Function.update s.disk path sys }

/-- The steps of a `load` that was called are moves of the process. -/
theorem run_of_loads {path : String} {ops : List LoadOp} :
    ∀ {pool : Pool (@Call.Ans Key) Exn (List AuditRecord × Response) Process} {sys : Sys},
      pool.shared.loading path id = true →
      (stores path).run (pool.shared.disk path) (ops.map (.load id)) = some sys →
      (handler stores external).run pool
          ((ops.map fun op => Move.store path (.load id op)).map .move) =
        some ⟨pool.shared.withSys path sys, pool.thread⟩ := by
  induction ops with
  | nil =>
    intro pool sys _ hrun
    obtain rfl := Option.some.inj hrun
    rw [Process.withSys, Function.update_eq_self]
    rfl
  | cons op ops ih =>
    intro pool sys hloading hrun
    obtain ⟨mid, hstep, hrest⟩ := Option.bind_eq_some_iff.mp hrun
    have hmove : (handler stores external).step pool (.move (.store path (.load id op))) =
        some ⟨pool.shared.withSys path mid, pool.thread⟩ := by
      simp only [Host.step, handler, Process.lets, hloading, if_true, hstep, Option.map_some]
      rfl
    have htail := @ih ⟨pool.shared.withSys path mid, pool.thread⟩ sys hloading (by
      simp only [Process.withSys, Function.update_self]
      exact hrest)
    rw [Process.withSys, Process.withSys, Function.update_idem] at htail
    rw [List.map_cons, List.map_cons, Host.run, List.foldlM_cons, hmove]
    exact htail

/-- Any question of a request is answered, after steps of its own `load`. -/
theorem answered_of_awake (h : Awake id pool) {call : Call Key}
    (hcalled : ∀ need ∈ call.needs, ∃ a, ⟨need, a⟩ ∈ (pool.thread id).history) :
    ∃ (moves : List Move)
      (pool' : Pool (@Call.Ans Key) Exn (List AuditRecord × Response) Process),
      (∀ m ∈ moves, OwnLoad id m) ∧ (handler stores external).run pool (moves.map .move) =
        some pool' ∧ Awake id pool' ∧ pool'.thread = pool.thread ∧
        ((handler stores external).serve pool'.shared id call).isSome = true := by
  cases call with
  | endLoad path =>
    obtain ⟨a, ha⟩ := hcalled (.beginLoad path) rfl
    have hloading := h.called path a ha
    obtain ⟨sys, result, ⟨ops, hops, hrun⟩, hdone⟩ := @load_ends (stores path) id _ (h.alive path)
    refine ⟨_, _, ?_, run_of_loads hloading hrun, ⟨h.called, fun path' => ?_⟩, rfl, ?_⟩
    · intro m hm
      obtain ⟨op, hop, rfl⟩ := List.mem_map.mp hm
      exact ⟨path, op, hops op hop, rfl⟩
    · simp only [Process.withSys]
      rcases eq_or_ne path' path with rfl | hne
      · rw [Function.update_self, hdone]
        exact LoadPc.noConfusion
      · rw [Function.update_of_ne hne]
        exact h.alive path'
    · simp only [handler, Process.withSys, Function.update_self, hdone]
      rfl
  | _ => exact ⟨[], pool, fun _ hm => absurd hm List.not_mem_nil, rfl, h, rfl, rfl⟩

/-- **Requests come to an end.** In every run, however the requests interleave,
whatever becomes of the environment and whoever saves tokens, a request has
asked at most 18 questions. From every state that is reached, wherever the
others are, it can be finished by its own turns and the steps of its own `load`
alone, unless that `load` was killed. -/
theorem requests_finish (stores : String → TokenStore) (external : ℕ → External Key)
    (framework : Framework) (printable : Char → Bool) (other : Request → Except Exn Response)
    (boot : AppSettings) (process : Process) (requests : ℕ → Request)
    (events : List (PoolEvent Move))
    (pool : Pool (@Call.Ans Key) Exn (List AuditRecord × Response) Process)
    (hrun : (handler stores external).run
      (Pool.start process (serving framework printable other boot requests)) events = some pool)
    (id : ℕ) :
    (pool.thread id).history.length ≤ 18 ∧
      ((∀ path, (pool.shared.disk path).loads id ≠ .killed) →
        ∃ (more : List (PoolEvent Move))
          (pool' : Pool (@Call.Ans Key) Exn (List AuditRecord × Response) Process)
          (r : Except Exn (List AuditRecord × Response)),
          (∀ e ∈ more, Host.Own (OwnLoad id) id e) ∧
          (handler stores external).run pool more = some pool' ∧
          (pool'.thread id).rest = .done r) := by
  have hpaced := Host.paced_of_run
    (fun id => Proc.paced_serve framework printable other boot (requests id)) events pool hrun id
  refine ⟨hpaced.length, fun halive => ?_⟩
  exact Host.finishes Awake.turn (fun hawake _ hcalled => answered_of_awake hawake hcalled) _ pool
    ⟨called_of_run id events pool hrun, halive⟩ hpaced rfl

end Requests

/-- The environment changes, and the request runs until it has called `load`; no
token was saved. -/
def waitingRun : Option (Pool (@Call.Ans Unit) Exn (List AuditRecord × Response) Process) :=
  lateKeyHost.run lateKeyPool ((lateKey.drop 8).take 6)

/-- That request can be finished. -/
theorem requests_finish_of_waiting :
    ∃ pool, waitingRun = some pool ∧
      ∃ (more : List (PoolEvent Move))
        (pool' : Pool (@Call.Ans Unit) Exn (List AuditRecord × Response) Process)
        (r : Except Exn (List AuditRecord × Response)),
        lateKeyHost.run pool more = some pool' ∧ (pool'.thread 0).rest = .done r := by
  have hsome : waitingRun.isSome = true := by decide +kernel
  obtain ⟨pool, hrun⟩ := Option.isSome_iff_exists.mp hsome
  have halive : ∀ path, (pool.shared.disk path).loads 0 ≠ .killed := by
    intro path
    have hdisk := Option.some.inj (run_disk path _ pool hrun)
    rw [← hdisk]
    exact LoadPc.noConfusion
  obtain ⟨-, hfinish⟩ := requests_finish (fun _ => .ofToken "t" (.ofRefresh "new"))
    (fun _ => lateKeyExternal) .plain (fun _ => true)
    (fun _ => .error (.httpException 404 "Not Found" [])) {}
    ((Process.fresh (.ok {}) fun _ => (Start.absent "t").sys).booted {})
    (fun _ => { path := apiPrefix ++ "/items" }) _ pool hrun 0
  obtain ⟨more, pool', r, -, hmore, hdone⟩ := hfinish halive
  exact ⟨pool, hrun, more, pool', r, hmore, hdone⟩

end KgaGateway
