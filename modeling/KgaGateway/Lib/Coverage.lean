import Mathlib.Order.UpperLower.Closure
import Mathlib.Order.Preorder.Finite
import Mathlib.Data.List.Dedup
import Mathlib.Data.List.Nodup
import Mathlib.Data.Finset.Card
import Mathlib.Data.Finset.Dedup
import Mathlib.Tactic.Common

/-!
# Coverage by grants, and step-up

Permissions form a preorder: `r ≤ g` says that a grant of `g` covers the
requirement `r`. What a set of grants covers is its lower closure, so coverage
inherits everything Mathlib knows about lower closures. What is added here is
the effect of a *registry*, a set closed upwards: grants outside it cover
nothing inside it (`mem_lowerClosure_inter`). Where the order is partial, the
grants that no other grant covers are the maximal ones, and a finite set of
grants covers no more than these (`lowerClosure_irredundant`).

The second half is a gate that asks for a list of requirements and names the
first one the caller is missing. A caller that is given what it was told of
and tries again makes progress (`StepUps.pairwise`), so it is turned away at
most once per distinct requirement (`StepUps.length_le`).
-/

namespace KgaGateway

namespace Coverage

universe u v

/-! ## Registries -/

section Registry

variable {α : Type u} [Preorder α]

/-- A requirement inside an upward closed registry is covered by the grants
inside the registry, if it is covered at all. -/
theorem mem_lowerClosure_inter {K : Set α} (hK : IsUpperSet K) {G : Set α} {r : α}
    (hr : r ∈ K) : r ∈ lowerClosure (G ∩ K) ↔ r ∈ lowerClosure G := by
  constructor
  · intro h
    exact lowerClosure_mono Set.inter_subset_left h
  · rintro ⟨g, hg, hle⟩
    exact ⟨g, ⟨hg, hK hle hr⟩, hle⟩

/-- Grants that agree inside the registry cover the same requirements there. -/
theorem mem_lowerClosure_congr {K : Set α} (hK : IsUpperSet K) {G G' : Set α}
    (hG : G ∩ K = G' ∩ K) {r : α} (hr : r ∈ K) :
    r ∈ lowerClosure G ↔ r ∈ lowerClosure G' := by
  rw [← mem_lowerClosure_inter hK hr, hG, mem_lowerClosure_inter hK hr]

end Registry

/-! ## Redundant grants -/

section Redundant

variable {α : Type u}

/-- The grants of a set that the others do not cover. -/
def irredundant [Preorder α] (G : Set α) : Set α := {g ∈ G | g ∉ lowerClosure (G \ {g})}

variable [PartialOrder α]

/-- The grants that are not redundant are the maximal ones. In a preorder two
equivalent grants would make each other redundant. -/
theorem mem_irredundant_iff {G : Set α} {g : α} : g ∈ irredundant G ↔ Maximal (· ∈ G) g := by
  constructor
  · rintro ⟨hg, hcov⟩
    refine ⟨hg, fun a ha hle => ?_⟩
    by_contra hnot
    refine hcov ⟨a, ⟨ha, ?_⟩, hle⟩
    rintro rfl
    exact hnot hle
  · intro hmax
    refine ⟨hmax.prop, ?_⟩
    rintro ⟨a, ⟨ha, hne⟩, hle⟩
    exact hne (hmax.eq_of_le ha hle).symm

/-- Dropping the redundant grants of a finite set all at once changes nothing:
above every grant there is one that stays. -/
theorem lowerClosure_irredundant {G : Set α} (hG : G.Finite) :
    lowerClosure (irredundant G) = lowerClosure G := by
  refine le_antisymm (lowerClosure_mono fun g hg => hg.1) ?_
  rintro r ⟨g, hg, hle⟩
  obtain ⟨m, hgm, hmax⟩ := hG.exists_le_maximal hg
  exact ⟨m, mem_irredundant_iff.mpr hmax, hle.trans hgm⟩

/-- What is left determines itself: grants that cover the same, at least as far as
they go, have the same ones left. -/
theorem irredundant_subset {K G G' : Set α} (hG : G ⊆ K) (hG' : G' ⊆ K)
    (hsame : ∀ r ∈ K, r ∈ lowerClosure G ↔ r ∈ lowerClosure G') :
    irredundant G ⊆ irredundant G' := by
  intro m hm
  rw [mem_irredundant_iff] at hm ⊢
  obtain ⟨g', hg', hle⟩ := (hsame m (hG hm.prop)).mp (subset_lowerClosure hm.prop)
  -- whatever covers it in the one set is covered in the other, so it is itself
  have habove : ∀ a ∈ G', m ≤ a → a = m := by
    intro a ha hma
    obtain ⟨g, hg, hag⟩ := (hsame a (hG' ha)).mpr (subset_lowerClosure ha)
    exact le_antisymm (hag.trans (hm.eq_of_le hg (hma.trans hag)).ge) hma
  obtain rfl := habove g' hg' hle
  exact ⟨hg', fun a ha hma => (habove a ha hma).le⟩

theorem irredundant_congr {K G G' : Set α} (hG : G ⊆ K) (hG' : G' ⊆ K)
    (hsame : ∀ r ∈ K, r ∈ lowerClosure G ↔ r ∈ lowerClosure G') :
    irredundant G = irredundant G' :=
  (irredundant_subset hG hG' hsame).antisymm
    (irredundant_subset hG' hG fun r hr => (hsame r hr).symm)

end Redundant

/-! ## The gate that names what is missing -/

section Gate

variable {γ : Type u} {α : Type v} (has : γ → α → Bool)

/-- The first requirement in the list that the caller does not have. -/
def firstMissing (caller : γ) (required : List α) : Option α :=
  required.find? fun a => !has caller a

variable {has}

theorem firstMissing_eq_none {caller : γ} {required : List α} :
    firstMissing has caller required = none ↔ ∀ a ∈ required, has caller a = true := by
  simp [firstMissing]

theorem mem_of_firstMissing {caller : γ} {required : List α} {a : α}
    (h : firstMissing has caller required = some a) : a ∈ required :=
  List.mem_of_find?_eq_some h

theorem not_has_of_firstMissing {caller : γ} {required : List α} {a : α}
    (h : firstMissing has caller required = some a) : has caller a = false := by
  simpa using List.find?_some h

/-! ## Step-up -/

variable (has) in
/-- A run of rejected attempts: at each one the gate names a requirement, and
before the next one the caller is given it and loses nothing. The list is the
requirements named, in order. -/
inductive StepUps (required : List α) : γ → List α → γ → Prop where
  /-- no attempt was rejected yet -/
  | nil (caller : γ) : StepUps required caller [] caller
  /-- a rejected attempt, the grant, and the rest of the run -/
  | cons {caller caller' caller'' : γ} {a : α} {named : List α} :
      firstMissing has caller required = some a →
      has caller' a = true →
      (∀ b, has caller b = true → has caller' b = true) →
      StepUps required caller' named caller'' →
      StepUps required caller (a :: named) caller''

theorem StepUps.mem {required : List α} {caller caller' : γ} {named : List α}
    (h : StepUps has required caller named caller') : ∀ a ∈ named, a ∈ required := by
  induction h with
  | nil => intro a ha; cases ha
  | cons hmiss _ _ _ ih =>
    intro b hb
    rcases List.mem_cons.mp hb with rfl | hb
    · exact mem_of_firstMissing hmiss
    · exact ih b hb

/-- What the caller has when the run starts is never named in it. -/
theorem StepUps.not_has {required : List α} {caller caller' : γ} {named : List α}
    (h : StepUps has required caller named caller') :
    ∀ b ∈ named, has caller b = false := by
  induction h with
  | nil => intro b hb; cases hb
  | cons hmiss _ hgrow _ ih =>
    intro b hb
    rcases List.mem_cons.mp hb with rfl | hb
    · exact not_has_of_firstMissing hmiss
    · cases hc : has _ b with
      | false => rfl
      | true =>
        have hb' := ih b hb
        rw [hgrow b hc] at hb'
        cases hb'

/-- Nothing is lost along a run. -/
theorem StepUps.grow {required : List α} {caller caller' : γ} {named : List α}
    (h : StepUps has required caller named caller') :
    ∀ b, has caller b = true → has caller' b = true := by
  induction h with
  | nil => exact fun _ hb => hb
  | cons _ _ hgrow _ ih => exact fun b hb => ih b (hgrow b hb)

/-- At the end of a run the caller has everything that was named. -/
theorem StepUps.has_named {required : List α} {caller caller' : γ} {named : List α}
    (h : StepUps has required caller named caller') :
    ∀ a ∈ named, has caller' a = true := by
  induction h with
  | nil => intro a ha; cases ha
  | cons _ hgrant _ hrest ih =>
    intro b hb
    rcases List.mem_cons.mp hb with rfl | hb
    · exact hrest.grow b hgrant
    · exact ih b hb

/-! ## Progress -/

variable [DecidableEq α]

/-- The caller has everything that stands before the named requirement. -/
theorem has_of_idxOf_lt {caller : γ} {required : List α} {a x : α}
    (h : firstMissing has caller required = some a)
    (hx : required.idxOf x < required.idxOf a) : has caller x = true := by
  obtain ⟨-, i, hi, hai, hbefore⟩ := List.find?_eq_some_iff_getElem.mp h
  have hle : required.idxOf a ≤ i := by
    by_contra hlt
    have hne := @List.not_of_lt_findIdx _ (· == a) required i (by rw [← List.idxOf]; omega)
    simp [hai] at hne
  have hlt : required.idxOf x < i := lt_of_lt_of_le hx hle
  have hhas := hbefore (required.idxOf x) hlt
  rw [List.getElem_idxOf] at hhas
  simpa using hhas

/-- **Progress**: the positions of the named requirements strictly increase. -/
theorem StepUps.pairwise {required : List α} {caller caller' : γ} {named : List α}
    (h : StepUps has required caller named caller') :
    named.Pairwise fun a b => required.idxOf a < required.idxOf b := by
  induction h with
  | nil => exact List.Pairwise.nil
  | cons hmiss hgrant hgrow hrest ih =>
    refine List.Pairwise.cons ?_ ih
    intro b hb
    have hb' : has _ b = false := hrest.not_has b hb
    rcases Nat.lt_trichotomy (required.idxOf _) (required.idxOf b) with hlt | heq | hgt
    · exact hlt
    · -- the same position is the same requirement, which was just granted
      have := (List.idxOf_inj (mem_of_firstMissing hmiss)).mp heq
      subst this
      rw [hgrant] at hb'
      cases hb'
    · rw [hgrow b (has_of_idxOf_lt hmiss hgt)] at hb'
      cases hb'

theorem StepUps.nodup {required : List α} {caller caller' : γ} {named : List α}
    (h : StepUps has required caller named caller') : named.Nodup := by
  apply h.pairwise.imp
  rintro a b hlt rfl
  exact lt_irrefl _ hlt

/-- At most one rejection per distinct requirement. -/
theorem StepUps.length_le {required : List α} {caller caller' : γ} {named : List α}
    (h : StepUps has required caller named caller') :
    named.length ≤ required.dedup.length := by
  have hsub : named ⊆ required.dedup := fun a ha => List.mem_dedup.mpr (h.mem a ha)
  exact (h.nodup.subperm hsub).length_le

/-- **Admission**: after as many rejections as there are distinct requirements
nothing is missing any more. -/
theorem StepUps.firstMissing_eq_none {required : List α} {caller caller' : γ}
    {named : List α} (h : StepUps has required caller named caller')
    (hlen : required.dedup.length ≤ named.length) :
    firstMissing has caller' required = none := by
  have hsub : named ⊆ required.dedup := fun a ha => List.mem_dedup.mpr (h.mem a ha)
  have hperm := (h.nodup.subperm hsub).perm_of_length_le hlen
  cases hmiss : firstMissing has caller' required with
  | none => rfl
  | some a =>
    -- one more rejection would name a requirement twice
    have ha : a ∈ named := hperm.mem_iff.mpr (List.mem_dedup.mpr (mem_of_firstMissing hmiss))
    have hnot := not_has_of_firstMissing hmiss
    rw [h.has_named a ha] at hnot
    cases hnot

end Gate

end Coverage

end KgaGateway
