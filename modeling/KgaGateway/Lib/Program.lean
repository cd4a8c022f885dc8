import Mathlib.Tactic.Common

/-!
# Programs that raise

`Program S Err X` works on a state `S` and then returns an `X` or raises an
`Err`. An exception does not undo what was done before it.

`Triple P p Q E` says how `p` ends when it starts in a state with `P`: it
returns `x` in a state with `Q x`, or raises `e` in a state with `E e`. There is
one rule for every way to put programs together.

A triple leaves open which of the two happens. `ReturnsIff P p φ` settles it: the
program returns exactly if `φ`. Its rules are those of triples once more, with
what holds in between taken from a triple.
-/

namespace KgaGateway

universe u v

/-- A program on a state `S` with exceptions `Err`. -/
def Program (S : Type u) (Err : Type v) (X : Type) : Type (max u v) := S → Except Err X × S

namespace Program

variable {S : Type u} {Err : Type v} {X Y : Type}

/-- Return at once. -/
protected def pure (x : X) : Program S Err X := fun s => (.ok x, s)

/-- Run `p`, then `f` on what it returned; an exception of `p` ends both. -/
protected def bind (p : Program S Err X) (f : X → Program S Err Y) : Program S Err Y := fun s =>
  match p s with
  | (.ok x, s) => f x s
  | (.error e, s) => (.error e, s)

instance : Monad (Program S Err) where
  pure := Program.pure
  bind := Program.bind

/-- Raise. -/
def raise (e : Err) : Program S Err X := fun s => (.error e, s)

/-- `try: p except BaseException as e: handler e`. -/
def tryExcept (p : Program S Err X) (handler : Err → Program S Err X) : Program S Err X := fun s =>
  match p s with
  | (.ok x, s) => (.ok x, s)
  | (.error e, s) => handler e s

/-- `try: p finally: last`. An exception of `last` takes the place of one of
`p`. -/
def tryFinally (p : Program S Err X) (last : Program S Err Unit) : Program S Err X := fun s =>
  match p s with
  | (.ok x, s) => (last >>= fun _ => Program.pure x) s
  | (.error e, s) => (last >>= fun _ => raise e) s

/-! ## Triples -/

/-- An ending: returned, with `Q`, or raised, with `E`. -/
def EndsWith (Q : X → S → Prop) (E : Err → S → Prop) : Except Err X × S → Prop
  | (.ok x, s) => Q x s
  | (.error e, s) => E e s

/-- From a state with `P` the program returns with `Q` or raises with `E`. -/
def Triple (P : S → Prop) (p : Program S Err X) (Q : X → S → Prop) (E : Err → S → Prop) : Prop :=
  ∀ s, P s → EndsWith Q E (p s)

section Rules

variable {P P' : S → Prop} {M Q Q' : X → S → Prop} {E E' F : Err → S → Prop} {R : Y → S → Prop}
  {p : Program S Err X}

theorem EndsWith.imp {ending : Except Err X × S} (h : EndsWith Q E ending)
    (hQ : ∀ x s, Q x s → Q' x s) (hE : ∀ e s, E e s → E' e s) : EndsWith Q' E' ending := by
  obtain ⟨e | x, s⟩ := ending
  · exact hE e s h
  · exact hQ x s h

/-- The rule of consequence. -/
theorem Triple.imp (h : Triple P p Q E) (hP : ∀ s, P' s → P s) (hQ : ∀ x s, Q x s → Q' x s)
    (hE : ∀ e s, E e s → E' e s) : Triple P' p Q' E' :=
  fun s hs => (h s (hP s hs)).imp hQ hE

/-- Two triples of one program. -/
theorem Triple.and (h : Triple P p Q E) (h' : Triple P p Q' E') :
    Triple P p (fun x s => Q x s ∧ Q' x s) fun e s => E e s ∧ E' e s := by
  intro s hs
  have hends := h s hs
  have hends' := h' s hs
  rcases hp : p s with ⟨e | x, s'⟩ <;> rw [hp] at hends hends' <;> exact ⟨hends, hends'⟩

/-- What is not about the state holds however the program ends. -/
theorem Triple.const {φ : Prop} (h : φ) : Triple P p (fun _ _ => φ) fun _ _ => φ := by
  intro s _
  rcases hp : p s with ⟨e | x, s'⟩ <;> exact h

/-- A fact that is not about the state. -/
theorem Triple.assume {φ : Prop} (h : φ → Triple P p Q E) :
    Triple (fun s => φ ∧ P s) p Q E :=
  fun s hs => h hs.1 s hs.2

theorem Triple.pure (x : X) : Triple (Q x) (Pure.pure x : Program S Err X) Q E :=
  fun _ hs => hs

theorem Triple.raise (e : Err) : Triple (E e) (raise e : Program S Err X) Q E :=
  fun _ hs => hs

/-- One program after another, with what holds in between. -/
theorem Triple.bind {f : X → Program S Err Y} (hp : Triple P p Q E)
    (hf : ∀ x, Triple (Q x) (f x) R E) : Triple P (p >>= f) R E := by
  intro s hs
  have hends := hp s hs
  show EndsWith R E (Program.bind p f s)
  rw [Program.bind]
  rcases hp' : p s with ⟨e | x, s'⟩
  · rw [hp'] at hends
    exact hends
  · rw [hp'] at hends
    exact hf x s' hends

/-- The handler starts where the exception left the state. -/
theorem Triple.tryExcept {handler : Err → Program S Err X} (hp : Triple P p Q F)
    (hhandler : ∀ e, Triple (F e) (handler e) Q E) : Triple P (tryExcept p handler) Q E := by
  intro s hs
  have hends := hp s hs
  rw [Program.tryExcept]
  rcases hp' : p s with ⟨e | x, s'⟩
  · rw [hp'] at hends
    exact hhandler e s' hends
  · rw [hp'] at hends
    exact hends

/-- The last part runs after a return and after an exception. -/
theorem Triple.tryFinally {last : Program S Err Unit} (hp : Triple P p M F)
    (hreturn : ∀ x, Triple (M x) last (fun _ => Q x) E)
    (hunwind : ∀ e, Triple (F e) last (fun _ => E e) E) : Triple P (tryFinally p last) Q E := by
  intro s hs
  have hends := hp s hs
  rw [Program.tryFinally]
  rcases hp' : p s with ⟨e | x, s'⟩
  · rw [hp'] at hends
    exact Triple.bind (hunwind e) (fun _ => Triple.raise e) s' hends
  · rw [hp'] at hends
    exact Triple.bind (hreturn x) (fun _ => Triple.pure x) s' hends

end Rules

/-! ## Returning -/

section Returns

variable {P P' : S → Prop} {Q : X → S → Prop} {E : Err → S → Prop} {φ ψ : Prop}
  {p : Program S Err X}

/-- From a state with `P` the program returns exactly if `φ`. -/
def ReturnsIff (P : S → Prop) (p : Program S Err X) (φ : Prop) : Prop :=
  Triple P p (fun _ _ => φ) fun _ _ => ¬φ

theorem ReturnsIff.iff (h : ReturnsIff P p φ) {s : S} (hs : P s) :
    (∃ x, (p s).1 = .ok x) ↔ φ := by
  have hends := h s hs
  rcases hp : p s with ⟨e | x, s'⟩
  · rw [hp] at hends
    exact iff_of_false (fun ⟨_, hx⟩ => by cases hx) hends
  · rw [hp] at hends
    exact iff_of_true ⟨x, rfl⟩ hends

theorem ReturnsIff.imp (h : ReturnsIff P p φ) (hP : ∀ s, P' s → P s) (hφ : φ ↔ ψ) :
    ReturnsIff P' p ψ :=
  Triple.imp h hP (fun _ _ => hφ.mp) fun _ _ => mt hφ.mpr

/-- A program that returns or not wherever it starts. -/
theorem ReturnsIff.anywhere (h : ReturnsIff (fun _ => True) p φ) : ReturnsIff P p φ :=
  h.imp (fun _ _ => trivial) Iff.rfl

theorem ReturnsIff.pure (x : X) : ReturnsIff P (Pure.pure x : Program S Err X) True :=
  fun _ _ => trivial

theorem ReturnsIff.raise (e : Err) : ReturnsIff P (raise e : Program S Err X) False :=
  fun _ _ => id

/-- Both parts return; where the second starts is what a triple says of the
first. -/
theorem ReturnsIff.bind {f : X → Program S Err Y} (hp : Triple P p Q E) (hφ : ReturnsIff P p φ)
    (hf : ∀ x, ReturnsIff (Q x) (f x) ψ) : ReturnsIff P (p >>= f) (φ ∧ ψ) := by
  refine ((hp.and hφ).imp (fun _ => id) (fun _ _ => id) fun e s he => ?_).bind fun x => ?_
  · exact fun hboth => he.2 hboth.1
  · rintro s ⟨hs, hreturned⟩
    exact (hf x s hs).imp (fun _ _ hψ => ⟨hreturned, hψ⟩) fun _ _ hψ hboth => hψ hboth.2

/-- The same when it does not matter where the second part starts. -/
theorem ReturnsIff.then {f : X → Program S Err Y} (hφ : ReturnsIff P p φ)
    (hf : ∀ x, ReturnsIff (fun _ => True) (f x) ψ) : ReturnsIff P (p >>= f) (φ ∧ ψ) :=
  ReturnsIff.bind (Triple.const trivial) hφ hf

/-- The last part returns too, though what it returns after an exception does
not count. -/
theorem ReturnsIff.tryFinally {last : Program S Err Unit} (hφ : ReturnsIff P p φ)
    (hlast : ReturnsIff (fun _ => True) last ψ) : ReturnsIff P (tryFinally p last) (φ ∧ ψ) := by
  refine Triple.tryFinally hφ (fun _ s hreturned => ?_) fun _ s hraised => ?_
  · exact (hlast s trivial).imp (fun _ _ hψ => ⟨hreturned, hψ⟩) fun _ _ hψ hboth => hψ hboth.2
  · have hnot : ¬(φ ∧ ψ) := fun hboth => hraised hboth.1
    exact Triple.const (P := fun _ => True) hnot s trivial

/-- A handler that raises in the end, whatever it does before. -/
theorem ReturnsIff.tryExcept {handler : Err → Program S Err X} (hφ : ReturnsIff P p φ)
    (hhandler : ∀ e, ReturnsIff (fun _ => True) (handler e) False) :
    ReturnsIff P (tryExcept p handler) φ :=
  Triple.tryExcept hφ fun e s hraised =>
    (hhandler e s trivial).imp (fun _ _ => False.elim) fun _ _ _ => hraised

end Returns

/-! ## Invariants -/

section Keeps

variable {I : S → Prop} {p : Program S Err X}

/-- The program keeps the invariant, whether it returns or raises. -/
def Keeps (I : S → Prop) (p : Program S Err X) : Prop := Triple I p (fun _ => I) fun _ => I

theorem Keeps.pure (x : X) : Keeps I (Pure.pure x : Program S Err X) :=
  Triple.pure (Q := fun _ => I) x

theorem Keeps.bind {f : X → Program S Err Y} (hp : Keeps I p) (hf : ∀ x, Keeps I (f x)) :
    Keeps I (p >>= f) := Triple.bind hp hf

theorem Keeps.tryFinally {last : Program S Err Unit} (hp : Keeps I p) (hlast : Keeps I last) :
    Keeps I (tryFinally p last) := Triple.tryFinally hp (fun _ => hlast) fun _ => hlast

end Keeps

end Program

end KgaGateway
