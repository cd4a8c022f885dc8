import KgaGateway.Lib.Dialogue
import Mathlib.Data.List.Induction
import Mathlib.Logic.Function.Basic

/-!
# Programs that share a host

Any number of dialogues run side by side on one host. In a turn, one of them
asks its next question and the host answers out of the state they share; in
between the host moves on its own. Which program gets the next turn, and when
the host moves, is free.

`Host.Sound` is the host's part of the agreement: to a proper question it gives
an allowed answer, and keeps its invariant. The facts it answers from stay
facts. `Keeps.run` puts the two parts together: in every run every program
keeps its promise, whatever the others do, and every answer it got is still a
fact at the end.
-/

namespace KgaGateway

variable {Op : Type} {Ans : Op → Type} {Err X S M Ev W : Type}

/-- What answers the questions. -/
structure Host (Op : Type) (Ans : Op → Type) (S M : Type) : Type where
  /-- the answer to a question of a program; `none` if it has to wait -/
  serve : S → ℕ → (op : Op) → Option (Ans op × S)
  /-- a move of its own -/
  move : S → M → Option S

/-- A program under way: what it has asked, and what is left of it. -/
structure Thread (Ans : Op → Type) (Err X : Type) : Type where
  history : List (Exchange Ans)
  rest : Dialogue Op Ans Err X

/-- The programs and the state they share. -/
structure Pool (Ans : Op → Type) (Err X S : Type) : Type where
  shared : S
  thread : ℕ → Thread Ans Err X

/-- What can happen next. -/
inductive PoolEvent (M : Type) : Type where
  /-- a program asks its next question -/
  | turn : ℕ → PoolEvent M
  | move : M → PoolEvent M

/-- No program has asked anything. -/
def Pool.start (shared : S) (programs : ℕ → Dialogue Op Ans Err X) : Pool Ans Err X S :=
  ⟨shared, fun id => ⟨[], programs id⟩⟩

namespace Host

variable (host : Host Op Ans S M)

/-- One turn of a program. -/
def turn (pool : Pool Ans Err X S) (id : ℕ) : Option (Pool Ans Err X S) :=
  match (pool.thread id).rest with
  | .done _ => none
  | .ask op k =>
    (host.serve pool.shared id op).map fun p =>
      ⟨p.2, Function.update pool.thread id ⟨(pool.thread id).history ++ [⟨op, p.1⟩], k p.1⟩⟩

/-- One step; `none` if it is not possible. -/
def step (pool : Pool Ans Err X S) : PoolEvent M → Option (Pool Ans Err X S)
  | .turn id => host.turn pool id
  | .move m => (host.move pool.shared m).map fun shared => ⟨shared, pool.thread⟩

/-- A run: the events one after the other. -/
def run (pool : Pool Ans Err X S) (events : List (PoolEvent M)) : Option (Pool Ans Err X S) :=
  events.foldlM host.step pool

/-- A program that runs on its own, to its end. -/
def runAlone (id : ℕ) : Dialogue Op Ans Err X → S → Option (Except Err X × S)
  | .done r, s => some (r, s)
  | .ask op k, s => (host.serve s id op).bind fun p => runAlone id (k p.1) p.2

variable {host}

theorem run_append_singleton {pool pool' : Pool Ans Err X S} {events : List (PoolEvent M)}
    {e : PoolEvent M} :
    host.run pool (events ++ [e]) = some pool' ↔
      ∃ mid, host.run pool events = some mid ∧ host.step mid e = some pool' := by
  simp [run, Option.bind_eq_some_iff]

/-- What a turn does. -/
theorem turn_eq_some {pool pool' : Pool Ans Err X S} {id : ℕ}
    (h : host.turn pool id = some pool') :
    ∃ op k a s, (pool.thread id).rest = .ask op k ∧
      host.serve pool.shared id op = some (a, s) ∧
      pool' = ⟨s, Function.update pool.thread id ⟨(pool.thread id).history ++ [⟨op, a⟩], k a⟩⟩ := by
  rw [turn] at h
  split at h
  · cases h
  · rename_i op k hrest
    obtain ⟨⟨a, s⟩, hserve, rfl⟩ := Option.map_eq_some_iff.mp h
    exact ⟨op, k, a, s, hrest, hserve, rfl⟩

/-- A question that is answered is a turn. -/
theorem turn_of_serve {pool : Pool Ans Err X S} {id : ℕ} {op : Op} {a : Ans op} {s : S}
    {k : Ans op → Dialogue Op Ans Err X} (hrest : (pool.thread id).rest = .ask op k)
    (hserve : host.serve pool.shared id op = some (a, s)) :
    host.turn pool id = some
      ⟨s, Function.update pool.thread id ⟨(pool.thread id).history ++ [⟨op, a⟩], k a⟩⟩ := by
  rw [turn]
  generalize (pool.thread id).rest = rest at hrest
  subst hrest
  simp only [hserve, Option.map_some]

/-- What holds of every run holds at its end: by induction from the end. -/
theorem run_induction {J : List (PoolEvent M) → Pool Ans Err X S → Prop}
    {start : Pool Ans Err X S} (hstart : J [] start)
    (hstep : ∀ events pool pool' e, host.run start events = some pool → J events pool →
      host.step pool e = some pool' → J (events ++ [e]) pool') :
    ∀ events pool, host.run start events = some pool → J events pool := by
  intro events
  induction events using List.reverseRecOn with
  | nil =>
    intro pool hrun
    cases hrun
    exact hstart
  | append_singleton events e ih =>
    intro pool hrun
    obtain ⟨mid, hmid, he⟩ := run_append_singleton.mp hrun
    exact hstep events mid pool e hmid (ih mid hmid) he

/-! ## The agreement kept -/

/-- The host's part: an invariant of its own, allowed answers to proper
questions, and facts behind the answers that stay facts. -/
structure Sound (host : Host Op Ans S M) (iface : Interface Op Ans Ev W) (inv : S → Prop)
    (fact : S → ℕ → Exchange Ans → Prop) : Prop where
  serve : ∀ {s s' : S} {id : ℕ} {op : Op} {a : Ans op}, inv s → iface.proper op →
    host.serve s id op = some (a, s') → inv s' ∧ iface.allowed op a ∧ fact s' id ⟨op, a⟩ ∧
      ∀ id' e, fact s id' e → fact s' id' e
  move : ∀ {s s' : S} {m : M}, inv s → host.move s m = some s' → inv s' ∧
    ∀ id e, fact s id e → fact s' id e

/-- Both parts, kept so far. -/
structure Keeps (iface : Interface Op Ans Ev W) (inv : S → Prop)
    (fact : S → ℕ → Exchange Ans → Prop) (Q : ℕ → List (Exchange Ans) → Except Err X → Prop)
    (pool : Pool Ans Err X S) : Prop where
  inv : inv pool.shared
  /-- what is left of a program completes what it has asked -/
  promise : ∀ id, (pool.thread id).rest.Ensures iface fun h r =>
    Q id ((pool.thread id).history ++ h) r
  fact : ∀ id, ∀ e ∈ (pool.thread id).history, iface.proper e.1 ∧ fact pool.shared id e

section Keeps

variable {iface : Interface Op Ans Ev W} {inv : S → Prop} {fact : S → ℕ → Exchange Ans → Prop}
  {Q : ℕ → List (Exchange Ans) → Except Err X → Prop} {pool : Pool Ans Err X S}

theorem Keeps.start {s : S} {programs : ℕ → Dialogue Op Ans Err X} (hinv : inv s)
    (hprograms : ∀ id, (programs id).Ensures iface (Q id)) :
    Keeps iface inv fact Q (Pool.start s programs) where
  inv := hinv
  promise := hprograms
  fact _ _ he := nomatch he

/-- A turn of one program. -/
theorem Keeps.turn (hsound : host.Sound iface inv fact) (h : Keeps iface inv fact Q pool)
    {pool' : Pool Ans Err X S} {id : ℕ} (hturn : host.turn pool id = some pool') :
    Keeps iface inv fact Q pool' := by
  obtain ⟨op, k, a, s, hrest, hserve, rfl⟩ := turn_eq_some hturn
  have hpromise := h.promise id
  rw [hrest] at hpromise
  obtain ⟨hproper, hk⟩ := hpromise
  obtain ⟨hinv, hallowed, hfact, hstay⟩ := hsound.serve h.inv hproper hserve
  refine ⟨hinv, fun id' => ?_, fun id' e he => ?_⟩
  · rcases eq_or_ne id' id with rfl | hne
    · simp only [Function.update_self, List.append_assoc, List.cons_append, List.nil_append]
      exact hk a hallowed
    · simp only [Function.update_of_ne hne]
      exact h.promise id'
  · rcases eq_or_ne id' id with rfl | hne
    · simp only [Function.update_self, List.mem_append, List.mem_singleton] at he
      rcases he with he | rfl
      · exact ⟨(h.fact id' e he).1, hstay _ _ (h.fact id' e he).2⟩
      · exact ⟨hproper, hfact⟩
    · simp only [Function.update_of_ne hne] at he
      exact ⟨(h.fact id' e he).1, hstay _ _ (h.fact id' e he).2⟩

/-- One step of the pool. -/
theorem Keeps.step (hsound : host.Sound iface inv fact) (h : Keeps iface inv fact Q pool)
    {pool' : Pool Ans Err X S} {e : PoolEvent M} (hstep : host.step pool e = some pool') :
    Keeps iface inv fact Q pool' := by
  cases e with
  | turn id => exact h.turn hsound hstep
  | move m =>
    obtain ⟨s, hmove, rfl⟩ := Option.map_eq_some_iff.mp hstep
    obtain ⟨hinv, hstay⟩ := hsound.move h.inv hmove
    exact ⟨hinv, h.promise, fun id e he => ⟨(h.fact id e he).1, hstay _ _ (h.fact id e he).2⟩⟩

/-- **The agreement in every run.** -/
theorem Keeps.run (hsound : host.Sound iface inv fact) (h : Keeps iface inv fact Q pool) :
    ∀ events pool', host.run pool events = some pool' → Keeps iface inv fact Q pool' :=
  run_induction h fun _ _ _ _ _ hkeeps hstep => hkeeps.step hsound hstep

/-- A program that has ended has kept its promise. -/
theorem Keeps.of_done (h : Keeps iface inv fact Q pool) {id : ℕ} {r : Except Err X}
    (hdone : (pool.thread id).rest = .done r) : Q id (pool.thread id).history r := by
  have hpromise := h.promise id
  rw [hdone] at hpromise
  simpa [Dialogue.Ensures] using hpromise

end Keeps

/-! ## Progress -/

/-- A program of the pool keeps its pace: what it has asked and what it may
still ask are together no more than `n` questions. -/
structure Paced (needs : Op → Option Op) (n : ℕ) (pool : Pool Ans Err X S) (id : ℕ) : Prop where
  length : (pool.thread id).history.length ≤ n
  rest : (pool.thread id).rest.Paced needs (n - (pool.thread id).history.length)
    fun op => ∃ a, ⟨op, a⟩ ∈ (pool.thread id).history

section Progress

variable {needs : Op → Option Op} {n : ℕ} {pool : Pool Ans Err X S} {id : ℕ}

theorem run_append {events events' : List (PoolEvent M)} :
    host.run pool (events ++ events') = (host.run pool events).bind (host.run · events') := by
  simp only [run, List.foldlM_append]
  rfl

theorem Paced.turn {id' : ℕ} (h : Paced needs n pool id) {pool' : Pool Ans Err X S}
    (hturn : host.turn pool id' = some pool') : Paced needs n pool' id := by
  obtain ⟨op, k, a, s, hrest, -, rfl⟩ := turn_eq_some hturn
  rcases eq_or_ne id id' with rfl | hne
  · have hpaced := h.rest
    rw [hrest] at hpaced
    obtain ⟨-, hpos, hk⟩ := hpaced
    refine ⟨?_, ?_⟩ <;> dsimp only <;> rw [Function.update_self]
    · simp only [List.length_append, List.length_singleton]
      omega
    · refine (hk a).mono ?_ ?_
      · simp only [List.length_append, List.length_singleton]
        omega
      · rintro op' (⟨a', ha'⟩ | rfl)
        · exact ⟨a', List.mem_append_left _ ha'⟩
        · exact ⟨a, List.mem_append_right _ (List.mem_singleton_self _)⟩
  · refine ⟨?_, ?_⟩ <;> dsimp only <;> rw [Function.update_of_ne hne]
    · exact h.length
    · exact h.rest

/-- In every run every program keeps its pace. -/
theorem paced_of_run {s : S} {programs : ℕ → Dialogue Op Ans Err X}
    (hprograms : ∀ id, (programs id).Paced needs n fun _ => False) :
    ∀ (events : List (PoolEvent M)) (pool : Pool Ans Err X S),
      host.run (Pool.start s programs) events = some pool → ∀ id, Paced needs n pool id := by
  refine run_induction (fun id => ⟨Nat.zero_le _, ?_⟩) fun _ pool pool' e _ hpaced hstep => ?_
  · exact (hprograms id).mono (Nat.le_refl _) fun _ => False.elim
  · cases e with
    | turn id' => exact fun id => (hpaced id).turn hstep
    | move m =>
      obtain ⟨s, -, rfl⟩ := Option.map_eq_some_iff.mp hstep
      exact fun id => ⟨(hpaced id).length, (hpaced id).rest⟩

/-- An event that is a turn of this program, or a move of these. -/
def Own (own : M → Prop) (id : ℕ) : PoolEvent M → Prop
  | .turn id' => id' = id
  | .move m => own m

/-- **Nobody is in the way.** If moves of its own are enough to have any question
of a program answered, the program can run to its end by these and its turns
alone. By induction on the questions that are left. -/
theorem finishes {own : M → Prop} {J : Pool Ans Err X S → Prop}
    (hturn : ∀ {pool pool' : Pool Ans Err X S}, J pool → host.turn pool id = some pool' → J pool')
    (hserve : ∀ {pool : Pool Ans Err X S} {op : Op} {k : Ans op → Dialogue Op Ans Err X}, J pool →
      (pool.thread id).rest = .ask op k →
      (∀ need ∈ needs op, ∃ a, ⟨need, a⟩ ∈ (pool.thread id).history) →
      ∃ (moves : List M) (pool' : Pool Ans Err X S), (∀ m ∈ moves, own m) ∧ host.run pool (moves.map .move) = some pool' ∧
        J pool' ∧ pool'.thread = pool.thread ∧ (host.serve pool'.shared id op).isSome = true) :
    ∀ (left : ℕ) (pool : Pool Ans Err X S), J pool → Paced needs n pool id →
      n - (pool.thread id).history.length = left →
      ∃ (events : List (PoolEvent M)) (pool' : Pool Ans Err X S) (r : Except Err X),
        (∀ e ∈ events, Own own id e) ∧ host.run pool events = some pool' ∧
        (pool'.thread id).rest = .done r := by
  intro left
  induction left with
  | zero =>
    intro pool hJ hpaced hleft
    cases hrest : (pool.thread id).rest with
    | done r => exact ⟨[], pool, r, fun _ he => absurd he List.not_mem_nil, rfl, hrest⟩
    | ask op k =>
      have hpace := hpaced.rest
      rw [hrest, hleft] at hpace
      exact absurd hpace.2.1 (Nat.lt_irrefl 0)
  | succ left ih =>
    intro pool hJ hpaced hleft
    cases hrest : (pool.thread id).rest with
    | done r => exact ⟨[], pool, r, fun _ he => absurd he List.not_mem_nil, rfl, hrest⟩
    | ask op k =>
      have hpace := hpaced.rest
      rw [hrest] at hpace
      obtain ⟨moves, mid, hown, hmoves, hJmid, hthread, hsome⟩ := hserve hJ hrest hpace.1
      obtain ⟨⟨a, s⟩, ha⟩ := Option.isSome_iff_exists.mp hsome
      have hnext := turn_of_serve (hthread ▸ hrest) ha
      have hmid : Paced needs n mid id := by
        refine ⟨?_, ?_⟩ <;> rw [hthread]
        · exact hpaced.length
        · exact hpaced.rest
      obtain ⟨events, pool', r, hevents, hrun, hdone⟩ := ih _ (hturn hJmid hnext)
        (hmid.turn hnext) (by
          simp only [Function.update_self, hthread, List.length_append, List.length_singleton]
          omega)
      refine ⟨moves.map .move ++ .turn id :: events, pool', r, fun e he => ?_, ?_, hdone⟩
      · rcases List.mem_append.mp he with he | he
        · obtain ⟨m, hm, rfl⟩ := List.mem_map.mp he
          exact hown m hm
        · rcases List.mem_cons.mp he with rfl | he
          · rfl
          · exact hevents e he
      · rw [run_append, hmoves, Option.bind_some, run, List.foldlM_cons]
        exact (congrArg (Option.bind · (host.run · events)) hnext).trans hrun

end Progress

end Host

end KgaGateway
