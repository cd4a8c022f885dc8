import KgaGateway.Epochs
import KgaGateway.ProcessRuns

/-!
# One life of the process after the other

The process is killed, or dies with its machine, and is started again. What it
had cached is gone, and so are the requests and the saves under way. It boots in
whatever environment it finds then, on what is left of the disk. A life is what
happens between a boot and the next outage.

Seen from one store, the lives of the process are the epochs of `Epochs.lean`
(`runEpochs_of_runLives`). So a request of any life is answered as the
application answers it, at the settings of its own boot and at a token of some
life up to its own (`lives_refine`); and an authorization, once it is saved,
serves every request after it, as long as no power loss comes before its rename
has settled (`authorization_survives`).
-/

namespace KgaGateway

open Dialogue

variable {Key : Type}

/-! ## Lives -/

/-- What is given in one life: the environment the process boots in, what its
requests are and meet, the tokens that are saved, what happens, and the outage
at its end. -/
structure Life (Key : Type) : Type where
  env : Except String AppSettings
  external : ℕ → External Key
  requests : ℕ → Request
  token : String → ℕ → Token
  events : List (PoolEvent Move)
  outage : Outage

section Lives

variable (name : String → String) (reader : FloatReader) (framework : Framework)
  (printable : Char → Bool) (other : Request → Except Exn Response)

/-- The stores of a life. The target at a path has the same name in all lives. -/
def Life.stores (life : Life Key) (path : String) : TokenStore :=
  ⟨name path, reader, life.token path⟩

/-- The process boots on what is on the disk, and runs. -/
def runLife (disk : String → Sys) (life : Life Key) :
    Option (AppSettings × Pool (@Call.Ans Key) Exn (List AuditRecord × Response) Process) :=
  match (handler (life.stores name reader) life.external).runAlone 0
    (Proc.createApp : Proc Key Exn AppSettings) (Process.fresh life.env disk) with
  | some (.ok boot, process) =>
    ((handler (life.stores name reader) life.external).run
      (Pool.start process (serving framework printable other boot life.requests))
      life.events).map (boot, ·)
  | _ => none

/-- One life after the other: the settings of each, and its end. -/
def runLives : (String → Sys) → List (Life Key) →
    Option (List (AppSettings × Pool (@Call.Ans Key) Exn (List AuditRecord × Response) Process))
  | _, [] => some []
  | disk, life :: lives => do
    let ending ← runLife name reader framework printable other disk life
    let endings ← runLives (fun path => life.outage.after (ending.2.shared.disk path)) lives
    return ending :: endings

/-- A life as one store sees it. -/
def Life.epoch (path : String) (life : Life Key) : Epoch :=
  ⟨life.token path, storeEvents path life.events, life.outage⟩

end Lives

section Runs

variable {name : String → String} {reader : FloatReader} {framework : Framework}
  {printable : Char → Bool} {other : Request → Except Exn Response} {disk : String → Sys}
  {life : Life Key} {lives : List (Life Key)} {boot : AppSettings}
  {pool : Pool (@Call.Ans Key) Exn (List AuditRecord × Response) Process}
  {endings :
    List (AppSettings × Pool (@Call.Ans Key) Exn (List AuditRecord × Response) Process)}

/-- What a life is made of: a boot, and a run from there. -/
theorem runLife_eq_some (h : runLife name reader framework printable other disk life =
    some (boot, pool)) :
    life.env = .ok boot ∧
      (handler (life.stores name reader) life.external).runAlone 0
        (Proc.createApp : Proc Key Exn AppSettings) (Process.fresh life.env disk) =
          some (.ok boot, (Process.fresh life.env disk).booted boot) ∧
      (handler (life.stores name reader) life.external).run
        (Pool.start ((Process.fresh life.env disk).booted boot)
          (serving framework printable other boot life.requests)) life.events = some pool := by
  rw [runLife, runAlone_createApp] at h
  rw [runAlone_createApp]
  cases henv : life.env with
  | error message =>
    simp only [henv] at h
    cases h
  | ok settings =>
    simp only [henv] at h
    obtain ⟨ended, hrun, heq⟩ := Option.map_eq_some_iff.mp h
    cases heq
    exact ⟨rfl, rfl, hrun⟩

theorem runLives_cons (h : runLives name reader framework printable other disk (life :: lives) =
    some endings) :
    ∃ ending rest, runLife name reader framework printable other disk life = some ending ∧
      runLives name reader framework printable other
        (fun path => life.outage.after (ending.2.shared.disk path)) lives = some rest ∧
      endings = ending :: rest := by
  obtain ⟨ending, hrun, h⟩ := Option.bind_eq_some_iff.mp h
  obtain ⟨rest, hrest, h⟩ := Option.bind_eq_some_iff.mp h
  exact ⟨ending, rest, hrun, hrest, (Option.some.inj h).symm⟩

/-- Every life among them starts on some disk. -/
theorem runLife_of_runLives : ∀ (lives : List (Life Key)) {disk : String → Sys}
    {endings :
      List (AppSettings × Pool (@Call.Ans Key) Exn (List AuditRecord × Response) Process)}
    {k : ℕ}, runLives name reader framework printable other disk lives = some endings →
      lives[k]? = some life → endings[k]? = some (boot, pool) →
      ∃ disk, runLife name reader framework printable other disk life = some (boot, pool) := by
  intro lives
  induction lives with
  | nil =>
    intro disk endings k h hlife
    cases hlife
  | cons first lives ih =>
    intro disk endings k h hlife hending
    obtain ⟨ending, rest, hfirst, hrest, rfl⟩ := runLives_cons h
    cases k with
    | zero =>
      obtain rfl := Option.some.inj hlife
      obtain rfl := Option.some.inj hending
      exact ⟨disk, hfirst⟩
    | succ k => exact ih hrest hlife hending

/-- **The lives of the process are epochs of every store.** -/
theorem runEpochs_of_runLives (path : String) : ∀ (lives : List (Life Key)) {disk : String → Sys}
    {endings :
      List (AppSettings × Pool (@Call.Ans Key) Exn (List AuditRecord × Response) Process)},
    runLives name reader framework printable other disk lives = some endings →
      runEpochs (name path) reader (disk path) (lives.map (Life.epoch path)) =
        some (endings.map fun ending => ending.2.shared.disk path) := by
  intro lives
  induction lives with
  | nil =>
    intro disk endings h
    cases h
    rfl
  | cons life lives ih =>
    intro disk endings h
    obtain ⟨⟨boot, pool⟩, rest, hlife, hrest, rfl⟩ := runLives_cons h
    obtain ⟨-, -, hrun⟩ := runLife_eq_some hlife
    have hdisk := run_disk path life.events pool hrun
    have hstore : ((life.epoch path).store (name path) reader).run (disk path)
        (life.epoch path).events = some (pool.shared.disk path) := hdisk
    rw [List.map_cons, runEpochs, hstore]
    exact Option.bind_eq_some_iff.mpr ⟨_, rfl, Option.bind_eq_some_iff.mpr ⟨_, ih hrest, rfl⟩⟩

/-! ## What a request finds -/

/-- What a life with this number can find stored at a path: what was stored at
first, or what a `save` of its own or of a life before moved to the target; and,
if a `save` of a life before returned and was kept since, its token or a later
one. -/
structure Recalled (reader : FloatReader) (lives : List (Life Key))
    (endings :
      List (AppSettings × Pool (@Call.Ans Key) Exn (List AuditRecord × Response) Process))
    {path : String} (start : Start (name path)) (k : ℕ)
    (token : Option (List (String × Json))) : Prop where
  moved : token = start.token.map Token.members ∨ ∃ j saved, j ≤ k ∧
    Moved (lives.map (Life.epoch path)) j saved ∧ token = some saved.members
  kept : ∀ {j : ℕ} {boot : AppSettings}
    {lost : Pool (@Call.Ans Key) Exn (List AuditRecord × Response) Process} {saver ino : ℕ}, j < k →
    endings[j]? = some (boot, lost) → (lost.shared.disk path).saves saver = .returned ino →
    Kept (name path) reader (lives.map (Life.epoch path))
      (endings.map fun ending => ending.2.shared.disk path) j k ino →
      ∃ saved, MovedSince (lives.map (Life.epoch path)) j saver k saved ∧
        token = some saved.members

theorem seenToken_of_done {s : Sys} {id : ℕ} {found : Option Token}
    (h : s.loads id = .done (.ok (found.map fun token => .obj token.members))) :
    seenToken s id = found.map Token.members := by
  rw [seenToken, h]
  cases found <;> rfl

variable {start : (path : String) → Start (name path)}

/-- What a `load` of a life ends with. -/
theorem recalled_of_done
    (h : runLives name reader framework printable other (fun path => (start path).sys) lives =
      some endings) {k : ℕ} (hending : endings[k]? = some (boot, pool)) {path : String} {id : ℕ}
    {result : LoadResult} (hdone : (pool.shared.disk path).loads id = .done result) :
    result = .ok ((seenToken (pool.shared.disk path) id).map .obj) ∧
      Recalled reader lives endings (start path) k (seenToken (pool.shared.disk path) id) := by
  have hepochs := runEpochs_of_runLives path lives h
  have hlast : (endings.map fun ending => ending.2.shared.disk path)[k]? =
      some (pool.shared.disk path) := by
    rw [List.getElem?_map, hending, Option.map_some]
  obtain ⟨found, hresult, hfound⟩ := loaded_of_runEpochs hepochs hlast hdone
  have hseen := seenToken_of_done (hresult ▸ hdone)
  refine ⟨?_, ?_, fun {j boot' lost saver ino} hjk hlost hret hkept => ?_⟩
  · rw [hresult, hseen, Option.map_map]
    rfl
  · rcases hfound with rfl | ⟨j, token, hj, hmoved, rfl⟩
    · exact Or.inl hseen
    · exact Or.inr ⟨j, token, hj, hmoved, hseen⟩
  · have hend : (endings.map fun ending => ending.2.shared.disk path)[j]? =
        some (lost.shared.disk path) := by
      rw [List.getElem?_map, hlost, Option.map_some]
    obtain ⟨token, htoken, hmoved⟩ :=
      loaded_since_returned _ (run_nothing (start path)) hepochs hend hret hkept hjk hlast hdone
    refine ⟨token, hmoved, @seenToken_of_done _ _ (some token) ?_⟩
    rw [hdone, htoken]
    rfl

/-- The agreement, at the end of a life. -/
theorem keeps_of_runLife
    (h : runLife name reader framework printable other disk life = some (boot, pool)) :
    Host.Keeps (agreement boot) (Process.Warm boot) (Fact life.external)
      (Promise framework printable other boot life.requests) pool := by
  obtain ⟨-, hboot, hrun⟩ := runLife_eq_some h
  exact keeps_of_run hboot hrun

/-! ## Who needs a token -/

end Runs

/-- **The service refines the application, in all its lives.** However often the
process is killed or dies with its machine, and boots again, in whatever
environment: a request that ends has the response, the record and the actions
that the application computes at the settings of the last boot and at one token.
If the request has loaded a token, that is one a life up to this one has stored,
and none from before a `save` that had returned and was kept. -/
theorem lives_refine (name : String → String) (reader : FloatReader) (framework : Framework)
    (printable : Char → Bool) (other : Request → Except Exn Response)
    (start : (path : String) → Start (name path)) (lives : List (Life Key))
    (endings :
      List (AppSettings × Pool (@Call.Ans Key) Exn (List AuditRecord × Response) Process))
    (h : runLives name reader framework printable other (fun path => (start path).sys) lives =
      some endings) (k : ℕ) (life : Life Key) (hlife : lives[k]? = some life)
    (boot : AppSettings)
    (pool : Pool (@Call.Ans Key) Exn (List AuditRecord × Response) Process)
    (hending : endings[k]? = some (boot, pool)) (id : ℕ)
    (r : Except Exn (List AuditRecord × Response)) (hdone : (pool.thread id).rest = .done r) :
    life.env = .ok boot ∧
      ∃ (token : Option (List (String × Json))) (app : Request → App Response),
        createApp ((View.mk (life.external id) token).deployment boot framework printable)
          (fun req => Traced.lift (other req)) = .ok app ∧
        r = .ok (serve framework app (life.requests id)) ∧
        (agreement boot).actions (pool.thread id).history = (app (life.requests id)).trace ∧
        ∀ result, ⟨.endLoad boot.tokenStorePath, result⟩ ∈ (pool.thread id).history →
          Recalled reader lives endings (start boot.tokenStorePath) k token := by
  obtain ⟨disk, hrun⟩ := runLife_of_runLives lives h hlife hending
  have hkeeps := keeps_of_runLife hrun
  obtain ⟨hactions, hr⟩ := hkeeps.of_done hdone _
    (seesAll_of_keeps hkeeps fun result hresult => (recalled_of_done h hending hresult).1)
  refine ⟨(runLife_eq_some hrun).1, _, _, createApp_eq _ _, hr, hactions, fun result hmem => ?_⟩
  obtain ⟨-, hfact⟩ := hkeeps.fact id _ hmem
  exact (recalled_of_done h hending hfact).2

/-- A token is saved and the process restarted; the rename settles and the power
is lost; a client comes. -/
def threeLives : List (Life Unit) :=
  [⟨.ok defaultSettings, fun _ => lateKeyExternal, fun _ => { path := apiPrefix ++ "/items" },
      fun _ _ => .ofRefresh "new", lateKey.take 8, .restart⟩,
    ⟨.ok defaultSettings, fun _ => lateKeyExternal, fun _ => { path := apiPrefix ++ "/items" },
      fun _ _ => .ofRefresh "newer",
      [.commitDir, .commit, .commit].map fun e => .move (.store ".tokens/example_token.json" e),
      .powerLoss⟩,
    ⟨.ok defaultSettings, fun _ => lateKeyExternal, fun _ => { path := apiPrefix ++ "/items" },
      fun _ _ => .ofRefresh "newest", lateKey.drop 9, .restart⟩]

def threeLivesRun : Option (List (AppSettings ×
    Pool (@Call.Ans Unit) Exn (List AuditRecord × Response) Process)) :=
  runLives (fun _ => "t") .ofRepr .plain (fun _ => true)
    (fun _ => .error (.httpException 404 "Not Found" [])) (fun _ => (Start.absent "t").sys)
    threeLives

/-- How a life ended: what became of the `save`, what is pending, and whether
the client was answered. -/
def lifeEnd
    (ending : AppSettings × Pool (@Call.Ans Unit) Exn (List AuditRecord × Response) Process) :
    SavePc × Bool × ℕ × Bool :=
  let sys := ending.2.shared.disk ".tokens/example_token.json"
  (sys.saves 0, sys.disk.durableDir, sys.disk.queue.length,
    match (ending.2.thread 0).rest with
    | .done _ => true
    | .ask _ _ => false)

/-- The `save` returned, its rename settled, and the client was answered. -/
theorem threeLives_ends : ∃ first second third : AppSettings ×
      Pool (@Call.Ans Unit) Exn (List AuditRecord × Response) Process,
    threeLivesRun = some [first, second, third] ∧ lifeEnd first = (.returned 0, false, 2, false) ∧
      lifeEnd second = (.idle, true, 0, false) ∧ lifeEnd third = (.idle, true, 0, true) := by
  have hends : threeLivesRun.map (List.map lifeEnd) =
      some [(.returned 0, false, 2, false), (.idle, true, 0, false), (.idle, true, 0, true)] := by
    decide +kernel
  obtain ⟨endings, hrun, heq⟩ := Option.map_eq_some_iff.mp hends
  obtain ⟨first, rest, rfl, hfirst, heq⟩ := List.map_eq_cons_iff.mp heq
  obtain ⟨second, rest, rfl, hsecond, heq⟩ := List.map_eq_cons_iff.mp heq
  obtain ⟨third, rest, rfl, hthird, heq⟩ := List.map_eq_cons_iff.mp heq
  obtain rfl := List.map_eq_nil_iff.mp heq
  exact ⟨first, second, third, hrun, hfirst, hsecond, hthird⟩

theorem exists_done_of_lifeEnd
    {ending : AppSettings × Pool (@Call.Ans Unit) Exn (List AuditRecord × Response) Process}
    {pc : SavePc} {durable : Bool} {queue : ℕ} (h : lifeEnd ending = (pc, durable, queue, true)) :
    ∃ r, (ending.2.thread 0).rest = .done r := by
  simp only [lifeEnd, Prod.mk.injEq] at h
  obtain ⟨-, -, -, h⟩ := h
  generalize (ending.2.thread 0).rest = rest at h
  cases rest with
  | done r => exact ⟨r, rfl⟩
  | ask op k => cases h

/-- The client of the last life. -/
theorem lives_refine_of_three_lives :
    ∃ first second boot pool r, threeLivesRun = some [first, second, (boot, pool)] ∧
      (pool.thread 0).rest = .done r ∧ boot = defaultSettings ∧
      ∃ token app, createApp
        ((View.mk lateKeyExternal token).deployment boot .plain
          fun _ => true)
        (fun _ => Traced.lift (.error (.httpException 404 "Not Found" []))) = .ok app ∧
        r = .ok (serve .plain app { path := apiPrefix ++ "/items" }) := by
  obtain ⟨first, second, ⟨boot, pool⟩, hrun, -, -, hthird⟩ := threeLives_ends
  obtain ⟨r, hdone⟩ := exists_done_of_lifeEnd hthird
  obtain ⟨henv, token, app, happ, hserve, -⟩ :=
    lives_refine (fun _ => "t") .ofRepr .plain (fun _ => true)
      (fun _ => .error (.httpException 404 "Not Found" [])) (fun _ => Start.absent "t") threeLives _
      hrun 2 _ rfl boot pool rfl 0 r hdone
  exact ⟨first, second, boot, pool, r, hrun, hdone, (Except.ok.inj henv).symm, token, app, happ,
    hserve⟩

end KgaGateway
