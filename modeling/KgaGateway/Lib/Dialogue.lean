import KgaGateway.Lib.Traced

/-!
# Programs that ask

A dialogue is a program that asks its surroundings one question after another
and goes on with the answers. What it asks may be a read of a shared variable,
a write to it, a call into a library or a message to another machine. Between
two questions other programs can get their turn, so an answer is whatever the
surroundings have to say at that moment.

An `Interface` says what is agreed about the questions. `Ensures` is a
program's part of the agreement: it asks only what is proper and ends as
promised, as long as the answers are allowed. `Refines` compares a dialogue
with a traced computation that asks nothing: in every world that gives the
answers the dialogue got, the actions it performed and the way it ended are
those of the computation.
-/

namespace KgaGateway

/-- A program that asks questions and ends with a value or an exception. -/
inductive Dialogue (Op : Type) (Ans : Op → Type) (Err X : Type) : Type where
  | done : Except Err X → Dialogue Op Ans Err X
  /-- ask, and go on with the answer -/
  | ask : (op : Op) → (Ans op → Dialogue Op Ans Err X) → Dialogue Op Ans Err X

/-- A question with the answer it was given. -/
abbrev Exchange {Op : Type} (Ans : Op → Type) : Type := Σ op : Op, Ans op

namespace Dialogue

variable {Op : Type} {Ans : Op → Type} {Err Err' X Y : Type}

/-- Return without asking. -/
protected def pure (x : X) : Dialogue Op Ans Err X := .done (.ok x)

/-- Run `p`, then `f` on what it returned; an exception of `p` ends both. -/
protected def bind : Dialogue Op Ans Err X → (X → Dialogue Op Ans Err Y) → Dialogue Op Ans Err Y
  | .done (.ok x), f => f x
  | .done (.error e), _ => .done (.error e)
  | .ask op k, f => .ask op fun a => (k a).bind f

instance : Monad (Dialogue Op Ans Err) where
  pure := Dialogue.pure
  bind := Dialogue.bind

/-- Raise. -/
def raise (e : Err) : Dialogue Op Ans Err X := .done (.error e)

/-- A computation without questions. -/
def lift (r : Except Err X) : Dialogue Op Ans Err X := .done r

/-- Ask one question and return the answer. -/
def question (op : Op) : Dialogue Op Ans Err (Ans op) := .ask op fun a => .done (.ok a)

/-- `try … except`: run to the end, and go on with how it ended. -/
def attempt : Dialogue Op Ans Err X → Dialogue Op Ans Err' (Except Err X)
  | .done r => .done (.ok r)
  | .ask op k => .ask op fun a => (k a).attempt

@[simp] theorem pure_eq (x : X) : (pure x : Dialogue Op Ans Err X) = .done (.ok x) := rfl

@[simp] theorem lift_eq (r : Except Err X) : (lift r : Dialogue Op Ans Err X) = .done r := rfl

@[simp] theorem raise_eq (e : Err) : (raise e : Dialogue Op Ans Err X) = .done (.error e) := rfl

end Dialogue

/-! ## What is agreed about the questions -/

/-- The agreement between programs and their surroundings. -/
structure Interface (Op : Type) (Ans : Op → Type) (Ev W : Type) : Type where
  /-- what a program may ask -/
  proper : Op → Prop
  /-- what it may be answered, whatever others do in between -/
  allowed : (op : Op) → Ans op → Prop
  /-- what it is answered in one world -/
  sees : W → (op : Op) → Ans op → Prop
  /-- the observable action that a question is -/
  shows : Op → Option Ev

section Judgements

variable {Op : Type} {Ans : Op → Type} {Ev W Err Err' X Y : Type}
  (iface : Interface Op Ans Ev W)

/-- The actions among a list of questions. -/
def Interface.actions (history : List (Exchange Ans)) : List Ev :=
  history.filterMap fun e => iface.shows e.1

/-- A world gives all these answers. -/
def Interface.SeesAll (w : W) (history : List (Exchange Ans)) : Prop :=
  ∀ e ∈ history, iface.sees w e.1 e.2

namespace Dialogue

/-- On allowed answers it asks what is proper, and ends with `Q` of the
exchange and the ending. -/
def Ensures : Dialogue Op Ans Err X → (List (Exchange Ans) → Except Err X → Prop) → Prop
  | .done r, Q => Q [] r
  | .ask op k, Q => iface.proper op ∧
      ∀ a, iface.allowed op a → Ensures (k a) fun h r => Q (⟨op, a⟩ :: h) r

/-- In every world that gives the answers, it does what the computation does. -/
def Refines (p : Dialogue Op Ans Err X) (m : W → Traced Ev Err X) : Prop :=
  p.Ensures iface fun h r => ∀ w, iface.SeesAll w h →
    iface.actions h = (m w).trace ∧ r = (m w).result

/-- It shows nothing, and returns a value with `V`. -/
def Silent (p : Dialogue Op Ans Err X) (V : X → Prop) : Prop :=
  p.Ensures iface fun h r => iface.actions h = [] ∧ ∃ x, r = .ok x ∧ V x

variable {iface}

/-! ## The rules for a promise -/

/-- The rule of consequence. -/
theorem Ensures.imp {p : Dialogue Op Ans Err X} {Q R : List (Exchange Ans) → Except Err X → Prop}
    (h : p.Ensures iface Q) (hQ : ∀ h r, Q h r → R h r) : p.Ensures iface R := by
  induction p generalizing Q R with
  | done r => exact hQ _ _ h
  | ask op k ih =>
    obtain ⟨hproper, hk⟩ := h
    exact ⟨hproper, fun a ha => ih a (hk a ha) fun h r => hQ (⟨op, a⟩ :: h) r⟩

/-- One program after another, with what was asked in between. -/
theorem Ensures.bind {p : Dialogue Op Ans Err X} {f : X → Dialogue Op Ans Err Y}
    {P : List (Exchange Ans) → Except Err X → Prop} {Q : List (Exchange Ans) → Except Err Y → Prop}
    (hp : p.Ensures iface P) (herror : ∀ h e, P h (.error e) → Q h (.error e))
    (hf : ∀ h x, P h (.ok x) → (f x).Ensures iface fun h' r => Q (h ++ h') r) :
    (p >>= f).Ensures iface Q := by
  induction p generalizing P Q with
  | done r =>
    cases r with
    | error e => exact herror _ e hp
    | ok x => exact hf _ x hp
  | ask op k ih =>
    obtain ⟨hproper, hk⟩ := hp
    refine ⟨hproper, fun a ha => ih a (hk a ha) ?_ ?_⟩
    · exact fun h e => herror (⟨op, a⟩ :: h) e
    · exact fun h x => hf (⟨op, a⟩ :: h) x

/-- The same with the exception caught. -/
theorem Ensures.attempt {p : Dialogue Op Ans Err X}
    {Q : List (Exchange Ans) → Except Err X → Prop} (h : p.Ensures iface Q) :
    (p.attempt : Dialogue Op Ans Err' (Except Err X)).Ensures iface
      fun h r => ∃ r', r = .ok r' ∧ Q h r' := by
  induction p generalizing Q with
  | done r => exact ⟨r, rfl, h⟩
  | ask op k ih =>
    obtain ⟨hproper, hk⟩ := h
    exact ⟨hproper, fun a ha => ih a (hk a ha)⟩

/-! ## The rules for a refinement -/

theorem refines_done {r : Except Err X} {m : W → Traced Ev Err X} (h : ∀ w, m w = ⟨[], r⟩) :
    (Dialogue.done r).Refines iface m := by
  intro w _
  rw [h w]
  exact ⟨rfl, rfl⟩

/-- The computation may be written in another way. -/
theorem Refines.congr {p : Dialogue Op Ans Err X} {m m' : W → Traced Ev Err X}
    (h : p.Refines iface m) (hm : ∀ w, m w = m' w) : p.Refines iface m' := by
  obtain rfl : m = m' := funext hm
  exact h

/-- A question that shows an action, or shows nothing. -/
theorem refines_ask {op : Op} {k : Ans op → Dialogue Op Ans Err X} {m : W → Traced Ev Err X}
    (m' : Ans op → W → Traced Ev Err X) (hproper : iface.proper op)
    (hk : ∀ a, iface.allowed op a → (k a).Refines iface (m' a))
    (h : ∀ a w, iface.sees w op a →
      m w = ⟨(iface.shows op).toList ++ (m' a w).trace, (m' a w).result⟩) :
    (Dialogue.ask op k).Refines iface m := by
  refine ⟨hproper, fun a ha => (hk a ha).imp ?_⟩
  intro history r hr w hw
  obtain ⟨hsees, hrest⟩ := List.forall_mem_cons.mp hw
  obtain ⟨htrace, hresult⟩ := hr w hrest
  rw [h a w hsees, ← htrace]
  refine ⟨?_, hresult⟩
  rw [Interface.actions, List.filterMap_cons]
  cases iface.shows op <;> rfl

/-- Sequences correspond part by part. -/
theorem Refines.bind {p : Dialogue Op Ans Err X} {f : X → Dialogue Op Ans Err Y}
    {m : W → Traced Ev Err X} {g : W → X → Traced Ev Err Y} (hp : p.Refines iface m)
    (hf : ∀ x, (f x).Refines iface fun w => g w x) :
    (p >>= f).Refines iface fun w => m w >>= g w := by
  apply Ensures.bind hp
  · intro h e hr w hw
    obtain ⟨htrace, hresult⟩ := hr w hw
    simp only [Traced.bind_of_error hresult.symm]
    exact ⟨htrace, trivial⟩
  · intro h x hr
    refine (hf x).imp fun h' r hr' w hw => ?_
    obtain ⟨hw₁, hw₂⟩ := List.forall_mem_append.mp hw
    obtain ⟨htrace, hresult⟩ := hr w hw₁
    obtain ⟨htrace', hresult'⟩ := hr' w hw₂
    simp only [Traced.bind_of_ok hresult.symm]
    refine ⟨?_, hresult'⟩
    rw [Interface.actions, List.filterMap_append, ← htrace, ← htrace']
    rfl

/-- What shows nothing is passed over. -/
theorem Silent.bind {p : Dialogue Op Ans Err X} {f : X → Dialogue Op Ans Err Y} {V : X → Prop}
    {m : W → Traced Ev Err Y} (hp : p.Silent iface V)
    (hf : ∀ x, V x → (f x).Refines iface m) : (p >>= f).Refines iface m := by
  apply Ensures.bind hp
  · rintro h e ⟨-, x, hx, -⟩
    cases hx
  · rintro h x ⟨hactions, x', hx, hV⟩
    obtain rfl := Except.ok.inj hx
    refine (hf x hV).imp fun h' r hr w hw => ?_
    obtain ⟨htrace, hresult⟩ := hr w (List.forall_mem_append.mp hw).2
    refine ⟨?_, hresult⟩
    rw [Interface.actions, List.filterMap_append]
    exact (congrArg (· ++ iface.actions h') hactions).trans htrace

/-- One silent program after another. -/
theorem Silent.bind_silent {p : Dialogue Op Ans Err X} {f : X → Dialogue Op Ans Err Y}
    {V : X → Prop} {V' : Y → Prop} (hp : p.Silent iface V)
    (hf : ∀ x, V x → (f x).Silent iface V') : (p >>= f).Silent iface V' := by
  apply Ensures.bind hp
  · rintro h e ⟨-, x, hx, -⟩
    cases hx
  · rintro h x ⟨hactions, x', hx, hV⟩
    obtain rfl := Except.ok.inj hx
    refine (hf x hV).imp fun h' r hr => ⟨?_, hr.2⟩
    rw [Interface.actions, List.filterMap_append]
    exact (congrArg (· ++ iface.actions h') hactions).trans hr.1

theorem silent_done {x : X} {V : X → Prop} (h : V x) :
    (Dialogue.done (.ok x) : Dialogue Op Ans Err X).Silent iface V :=
  ⟨rfl, x, rfl, h⟩

theorem silent_ask {op : Op} {k : Ans op → Dialogue Op Ans Err X} {V : X → Prop}
    (hproper : iface.proper op) (hshows : iface.shows op = none)
    (hk : ∀ a, iface.allowed op a → (k a).Silent iface V) :
    (Dialogue.ask op k).Silent iface V := by
  refine ⟨hproper, fun a ha => (hk a ha).imp fun h r hr => ⟨?_, hr.2⟩⟩
  rw [Interface.actions, List.filterMap_cons, hshows]
  exact hr.1

/-- Catching the exception of a refined program. -/
theorem Refines.attempt {p : Dialogue Op Ans Err X} {m : W → Traced Ev Err X}
    (h : p.Refines iface m) :
    (p.attempt : Dialogue Op Ans Err' (Except Err X)).Refines iface
      fun w => ⟨(m w).trace, .ok (m w).result⟩ := by
  refine (Ensures.attempt h).imp ?_
  rintro history r ⟨r', rfl, hr⟩ w hw
  obtain ⟨htrace, hresult⟩ := hr w hw
  exact ⟨htrace, congrArg _ hresult⟩

end Dialogue

end Judgements

/-! ## The pace of a dialogue -/

namespace Dialogue

variable {Op : Type} {Ans : Op → Type} {Err Err' X Y : Type} (needs : Op → Option Op)

/-- It asks at most so many questions, whatever the answers are. A question that
needs another is asked after it; `asked` were asked before. -/
def Paced : Dialogue Op Ans Err X → ℕ → (Op → Prop) → Prop
  | .done _, _, _ => True
  | .ask op k, n, asked => (∀ need ∈ needs op, asked need) ∧ 0 < n ∧
      ∀ a, Paced (k a) (n - 1) fun op' => asked op' ∨ op' = op

variable {needs} {n m : ℕ} {asked asked' : Op → Prop}

theorem paced_done {r : Except Err X} :
    (Dialogue.done r : Dialogue Op Ans Err X).Paced needs n asked := trivial

theorem paced_pure (x : X) : (pure x : Dialogue Op Ans Err X).Paced needs n asked := trivial

/-- A question that needs none. -/
theorem paced_question {op : Op} (h : needs op = none) :
    (question op : Dialogue Op Ans Err (Ans op)).Paced needs 1 asked := by
  refine ⟨fun need hneed => ?_, Nat.zero_lt_one, fun _ => trivial⟩
  rw [h] at hneed
  cases hneed

/-- A question, and what may be asked once it was. -/
theorem paced_question_bind {op : Op} {f : Ans op → Dialogue Op Ans Err Y}
    (hneeds : ∀ need ∈ needs op, asked need)
    (hf : ∀ a, (f a).Paced needs n fun op' => asked op' ∨ op' = op) :
    ((question op : Dialogue Op Ans Err (Ans op)) >>= f).Paced needs (n + 1) asked :=
  ⟨hneeds, Nat.succ_pos n, hf⟩

theorem Paced.mono {p : Dialogue Op Ans Err X} (h : p.Paced needs n asked) (hn : n ≤ m)
    (hasked : ∀ op, asked op → asked' op) : p.Paced needs m asked' := by
  induction p generalizing n m asked asked' with
  | done r => trivial
  | ask op k ih =>
    obtain ⟨hneeds, hpos, hk⟩ := h
    refine ⟨fun need hneed => hasked _ (hneeds need hneed), Nat.lt_of_lt_of_le hpos hn, fun a => ?_⟩
    exact ih a (hk a) (Nat.sub_le_sub_right hn 1) fun op' => Or.imp_left (hasked op')

/-- Bounds add up. -/
theorem Paced.bind {p : Dialogue Op Ans Err X} {f : X → Dialogue Op Ans Err Y}
    (hp : p.Paced needs n asked) (hf : ∀ x, (f x).Paced needs m asked) :
    (p >>= f).Paced needs (n + m) asked := by
  induction p generalizing n asked with
  | done r =>
    cases r with
    | error e => trivial
    | ok x => exact (hf x).mono (Nat.le_add_left ..) fun _ => id
  | ask op k ih =>
    obtain ⟨hneeds, hpos, hk⟩ := hp
    refine ⟨hneeds, Nat.lt_of_lt_of_le hpos (Nat.le_add_right ..), fun a => ?_⟩
    have hrest := ih a (hk a) fun x => (hf x).mono (Nat.le_refl m) fun _ => Or.inl
    rwa [show n + m - 1 = n - 1 + m by omega]

theorem Paced.attempt {p : Dialogue Op Ans Err X} (h : p.Paced needs n asked) :
    (p.attempt : Dialogue Op Ans Err' (Except Err X)).Paced needs n asked := by
  induction p generalizing n asked with
  | done r => trivial
  | ask op k ih => exact ⟨h.1, h.2.1, fun a => ih a (h.2.2 a)⟩

end Dialogue

end KgaGateway
