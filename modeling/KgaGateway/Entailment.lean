import KgaGateway.Scopes
import KgaGateway.Lib.Coverage

/-!
# What a grant entails

The declared meaning of a scope: the least reflexive and transitive relation
on scope strings in which a domain-wide grant entails every provider grant
with the same action and `write` entails `read` within one scope. The code
never follows such a chain, it compares two parsed scopes once; `satisfies`
decides the relation all the same (`satisfies_iff_entails`).

In between stands the order on parsed scopes: `grantSatisfies` decides it
(`grantSatisfies_iff_le`), it is generated by the declared rules
(`entails_of_le`, `exists_le_of_entails`), and what a list of grants satisfies
is a lower closure in it (`anySatisfies_iff_mem_lowerClosure`).
-/

namespace KgaGateway

namespace Scopes

/-! ## The order on parsed scopes -/

/-- `r ≤ g`: a grant of `g` covers the requirement `r`. The domains agree, a
domain-wide grant covers every provider, and `write` covers `read`. -/
instance : LE Parsed where
  le r g := r.domain = g.domain ∧ (g.provider = none ∨ g.provider = r.provider) ∧
    (g.action = r.action ∨ g.action = write ∧ r.action = read)

theorem le_def {r g : Parsed} :
    r ≤ g ↔ r.domain = g.domain ∧ (g.provider = none ∨ g.provider = r.provider) ∧
      (g.action = r.action ∨ g.action = write ∧ r.action = read) :=
  Iff.rfl

theorem read_ne_write : read ≠ write := by decide

instance : PartialOrder Parsed where
  le_refl p := ⟨rfl, Or.inr rfl, Or.inl rfl⟩
  le_trans a b c hab hbc := by
    obtain ⟨hd₁, hp₁, ha₁⟩ := hab
    obtain ⟨hd₂, hp₂, ha₂⟩ := hbc
    refine ⟨hd₁.trans hd₂, ?_, ?_⟩
    · rcases hp₂ with hp₂ | hp₂
      · exact Or.inl hp₂
      · rw [hp₂]
        exact hp₁
    · rcases ha₂ with ha₂ | ⟨hw, hr⟩
      · rw [ha₂]
        exact ha₁
      · rcases ha₁ with ha₁ | ⟨hw', -⟩
        · exact Or.inr ⟨hw, ha₁.symm.trans hr⟩
        · -- `b` would be both `read` and `write`
          exact absurd (hr.symm.trans hw') read_ne_write
  le_antisymm a b hab hba := by
    obtain ⟨hd, hp₁, ha₁⟩ := hab
    obtain ⟨-, hp₂, ha₂⟩ := hba
    ext1
    · exact hd
    · rcases hp₁ with hp₁ | hp₁
      · rcases hp₂ with hp₂ | hp₂
        · rw [hp₁, hp₂]
        · exact hp₂
      · exact hp₁.symm
    · rcases ha₁ with ha₁ | ⟨hw, hr⟩
      · exact ha₁.symm
      · rcases ha₂ with ha₂ | ⟨hw', -⟩
        · exact ha₂
        · exact absurd (hr.symm.trans hw') read_ne_write

/-- The comparison of the code decides the order. -/
theorem grantSatisfies_iff_le {granted required : Parsed} :
    grantSatisfies granted required = true ↔ required ≤ granted := by
  obtain ⟨gd, gp, ga⟩ := granted
  obtain ⟨rd, rp, ra⟩ := required
  rw [grantSatisfies, le_def]
  by_cases hd : gd = rd
  · cases gp with
    | none => simp [hd]
    | some p =>
      by_cases hp : some p = rp
      · simp [hd, hp]
      · simp [hd, hp]
  · simp [hd, Ne.symm hd]

/-! ## The declared relation -/

/-- The least relation with the declared rules. -/
inductive Entails : String → String → Prop where
  /-- every scope entails itself -/
  | refl {s : String} : WellFormed s → Entails s s
  /-- entailments compose -/
  | trans {s t u : String} : Entails s t → Entails t u → Entails s u
  /-- `d:a ⊢ d:p:a` -/
  | domainWide {d p a : String} : ColonFree d → ColonFree p → ColonFree a →
      Entails (domainScope d a) (providerScope d p a)
  /-- `d:write ⊢ d:read` -/
  | writeRead {d : String} : ColonFree d → Entails (domainScope d "write") (domainScope d "read")
  /-- `d:p:write ⊢ d:p:read` -/
  | writeReadProvider {d p : String} : ColonFree d → ColonFree p →
      Entails (providerScope d p "write") (providerScope d p "read")

theorem colonFree_write : ColonFree "write" := by decide

theorem colonFree_read : ColonFree "read" := by decide

/-- **Soundness** of the order: a derivation relates two scopes that parse,
the second below the first. By induction on the derivation. -/
theorem exists_le_of_entails {g r : String} (h : Entails g r) :
    ∃ p q : Parsed, parse g = .ok p ∧ parse r = .ok q ∧ q ≤ p := by
  induction h with
  | refl hwf =>
    obtain ⟨p, -, -, hp⟩ := parse_of_wellFormed hwf
    exact ⟨p, p, hp, hp, le_refl p⟩
  | trans _ _ ih₁ ih₂ =>
    obtain ⟨p, q, hp, hq, hqp⟩ := ih₁
    obtain ⟨q', s, hq', hs, hsq⟩ := ih₂
    rw [hq] at hq'
    obtain rfl := Except.ok.inj hq'
    exact ⟨p, s, hp, hs, le_trans hsq hqp⟩
  | domainWide hd hp ha =>
    exact ⟨_, _, parse_domainScope hd ha, parse_providerScope hd hp ha,
      rfl, Or.inl rfl, Or.inl rfl⟩
  | writeRead hd =>
    exact ⟨_, _, parse_domainScope hd colonFree_write, parse_domainScope hd colonFree_read,
      rfl, Or.inl rfl, Or.inr ⟨rfl, rfl⟩⟩
  | writeReadProvider hd hp =>
    exact ⟨_, _, parse_providerScope hd hp colonFree_write,
      parse_providerScope hd hp colonFree_read, rfl, Or.inr rfl, Or.inr ⟨rfl, rfl⟩⟩

/-- The action rule, for a domain-wide and for a provider scope alike. -/
theorem entails_action {d : String} {provider : Option String} {a b : String}
    (hg : Parsed.ColonFree ⟨d, provider, a⟩)
    (hab : a = b ∨ a = write ∧ b = read) :
    Entails (render ⟨d, provider, a⟩) (render ⟨d, provider, b⟩) := by
  rcases hab with rfl | ⟨rfl, rfl⟩
  · exact .refl (count_render hg)
  · cases provider with
    | none => exact .writeRead hg.1
    | some p => exact .writeReadProvider hg.1 (hg.2.1 p rfl)

/-- **Completeness** of the order: below in the order is derivable, first by
the domain-wide rule and then by the action rule. -/
theorem entails_of_le {g r : Parsed} (hg : g.ColonFree) (hr : r.ColonFree) (h : r ≤ g) :
    Entails (render g) (render r) := by
  obtain ⟨gd, gp, ga⟩ := g
  obtain ⟨rd, rp, ra⟩ := r
  obtain ⟨hd, hp, ha⟩ := h
  obtain rfl : rd = gd := hd
  have haction : ∀ provider, Parsed.ColonFree ⟨rd, provider, ga⟩ →
      Entails (render ⟨rd, provider, ga⟩) (render ⟨rd, provider, ra⟩) :=
    fun provider hcf => entails_action hcf ha
  rcases hp with hp | hp
  · obtain rfl : gp = none := hp
    cases rp with
    | none => exact haction none hg
    | some p =>
      have hp' : ColonFree p := hr.2.1 p rfl
      exact (Entails.domainWide hg.1 hp' hg.2.2).trans
        (haction (some p) ⟨hg.1, hr.2.1, hg.2.2⟩)
  · obtain rfl : gp = rp := hp
    exact haction gp hg

/-- One grant and one requirement: the parsed comparison is the declared
relation. -/
theorem entails_iff {g r : String} {q : Parsed} (hq : parse r = .ok q) :
    Entails g r ↔ ∃ p, parse g = .ok p ∧ q ≤ p := by
  constructor
  · intro h
    obtain ⟨p, q', hp, hq', hle⟩ := exists_le_of_entails h
    rw [hq] at hq'
    obtain rfl := Except.ok.inj hq'
    exact ⟨p, hp, hle⟩
  · rintro ⟨p, hp, hle⟩
    obtain ⟨hpc, rfl⟩ := parse_eq_ok hp
    obtain ⟨hqc, rfl⟩ := parse_eq_ok hq
    exact entails_of_le hpc hqc hle

/-- A rendered scope parses to itself, so the relation on renderings is the
order. -/
theorem entails_render_iff {g r : Parsed} (hg : g.ColonFree) (hr : r.ColonFree) :
    Entails (render g) (render r) ↔ r ≤ g := by
  rw [entails_iff (parse_render hr)]
  constructor
  · rintro ⟨p, hp, hle⟩
    rw [parse_render hg] at hp
    obtain rfl := Except.ok.inj hp
    exact hle
  · exact fun hle => ⟨g, parse_render hg, hle⟩

theorem wellFormed_of_entails {g r : String} (h : Entails g r) :
    WellFormed g ∧ WellFormed r := by
  obtain ⟨p, q, hp, hq, -⟩ := exists_le_of_entails h
  exact ⟨wellFormed_of_parse hp, wellFormed_of_parse hq⟩

/-! ## The decision -/

/-- The parsed grants of a token. -/
def parsedGrants (granted : List String) : Set Parsed :=
  {p | ∃ g ∈ granted, parse g = .ok p}

/-- What a list of grants satisfies is the lower closure of its parsed grants. -/
theorem anySatisfies_iff_mem_lowerClosure {granted : List String} {required : Parsed} :
    anySatisfies required granted = true ↔ required ∈ lowerClosure (parsedGrants granted) := by
  rw [anySatisfies_iff]
  constructor
  · rintro ⟨g, hg, p, hp, hsat⟩
    exact ⟨p, ⟨g, hg, hp⟩, grantSatisfies_iff_le.mp hsat⟩
  · rintro ⟨p, ⟨g, hg, hp⟩, hle⟩
    exact ⟨g, hg, p, hp, grantSatisfies_iff_le.mpr hle⟩

/-- `satisfies` answers `True` exactly when some grant entails the
requirement. -/
theorem satisfies_eq_true_iff {granted : List String} {required : String} :
    satisfies granted required = .ok true ↔ ∃ g ∈ granted, Entails g required := by
  by_cases hwf : WellFormed required
  · obtain ⟨q, -, -, hq⟩ := parse_of_wellFormed hwf
    rw [satisfies_of_parse hq, Except.ok.injEq, anySatisfies_iff]
    simp only [entails_iff hq, grantSatisfies_iff_le]
  · rw [satisfies_of_not_wellFormed hwf]
    constructor
    · intro h
      cases h
    · rintro ⟨g, -, hg⟩
      exact absurd (wellFormed_of_entails hg).2 hwf

/-- On a well-formed requirement `satisfies` answers. -/
theorem satisfies_of_wellFormed {granted : List String} {required : String}
    (h : WellFormed required) : ∃ b, satisfies granted required = .ok b := by
  obtain ⟨q, -, -, hq⟩ := parse_of_wellFormed h
  exact ⟨_, satisfies_of_parse hq granted⟩

theorem wellFormed_iff_count {s : String} :
    ¬ WellFormed s ↔ s.toList.count ':' = 0 ∨ 2 < s.toList.count ':' := by
  rw [WellFormed]
  omega

/-- It raises on any other, whatever the grants are. -/
theorem satisfies_eq_error_iff {granted : List String} {required : String} :
    satisfies granted required = .error (.malformedScope required) ↔ ¬ WellFormed required := by
  constructor
  · intro h hwf
    obtain ⟨b, hb⟩ := @satisfies_of_wellFormed granted required hwf
    rw [hb] at h
    cases h
  · exact fun hwf => satisfies_of_not_wellFormed hwf granted

/-- A malformed grant is skipped. -/
theorem satisfies_cons_of_not_wellFormed {g : String} (hg : ¬ WellFormed g)
    (granted : List String) (required : String) :
    satisfies (g :: granted) required = satisfies granted required := by
  by_cases hwf : WellFormed required
  · obtain ⟨q, -, -, hq⟩ := parse_of_wellFormed hwf
    rw [satisfies_of_parse hq, satisfies_of_parse hq,
      anySatisfies_cons_error (parse_of_not_wellFormed hg)]
  · rw [satisfies_of_not_wellFormed hwf, satisfies_of_not_wellFormed hwf]

/-- A provider grant is not above a domain-wide scope. -/
theorem not_entails_domainScope {d p a d' a' : String} (hd : ColonFree d) (hp : ColonFree p)
    (ha : ColonFree a) (hd' : ColonFree d') (ha' : ColonFree a') :
    ¬ Entails (providerScope d p a) (domainScope d' a') := by
  intro h
  have hg : Parsed.ColonFree ⟨d, some p, a⟩ := ⟨hd, by rintro _ ⟨⟩; exact hp, ha⟩
  have hr : Parsed.ColonFree ⟨d', none, a'⟩ := ⟨hd', by rintro _ ⟨⟩, ha'⟩
  obtain ⟨-, hprov, -⟩ := (entails_render_iff hg hr).mp h
  simp at hprov

/-- An entailed scope has the domain of the grant, its provider if it has one,
and its action unless that is `write`. -/
theorem components_of_entails {g r : Parsed} (hg : g.ColonFree) (hr : r.ColonFree)
    (h : Entails (render g) (render r)) :
    g.domain = r.domain ∧ (g.provider = none ∨ g.provider = r.provider) ∧
      (g.action = "write" → r.action = "write" ∨ r.action = "read") := by
  obtain ⟨hd, hp, ha⟩ := (entails_render_iff hg hr).mp h
  refine ⟨hd.symm, hp, fun hw => ?_⟩
  rcases ha with ha | ⟨-, hread⟩
  · exact Or.inl (ha.symm.trans hw)
  · exact Or.inr hread

/-- **The scope decision is the declared entailment**: it raises exactly on a
requirement that is no scope, and otherwise answers whether some grant entails
the requirement. A malformed grant takes no part; a provider grant never
reaches a domain-wide scope; no grant leaves its domain or its provider; and
`write` reaches `write` and `read` only. -/
theorem satisfies_iff_entails (granted : List String) (required : String) :
    (satisfies granted required = .error (.malformedScope required) ↔
      required.toList.count ':' = 0 ∨ 2 < required.toList.count ':') ∧
    (¬ (required.toList.count ':' = 0 ∨ 2 < required.toList.count ':') →
      ∃ b, satisfies granted required = .ok b ∧
        (b = true ↔ ∃ g ∈ granted, Entails g required)) ∧
    (∀ g, ¬ WellFormed g → ¬ Entails g required ∧
      satisfies (g :: granted) required = satisfies granted required) ∧
    (∀ d p a d' a', ColonFree d → ColonFree p → ColonFree a → ColonFree d' → ColonFree a' →
      ¬ Entails (providerScope d p a) (domainScope d' a')) ∧
    (∀ g r : Parsed, g.ColonFree → r.ColonFree → Entails (render g) (render r) →
      g.domain = r.domain ∧ (g.provider = none ∨ g.provider = r.provider) ∧
      (g.action = "write" → r.action = "write" ∨ r.action = "read")) := by
  refine ⟨?_, ?_, ?_, ?_, ?_⟩
  · rw [← wellFormed_iff_count]
    exact satisfies_eq_error_iff
  · intro hwf
    rw [← wellFormed_iff_count, not_not] at hwf
    obtain ⟨b, hb⟩ := @satisfies_of_wellFormed granted required hwf
    refine ⟨b, hb, ?_⟩
    rw [← satisfies_eq_true_iff, hb, Except.ok.injEq]
  · intro g hg
    exact ⟨fun h => hg (wellFormed_of_entails h).1,
      satisfies_cons_of_not_wellFormed hg granted required⟩
  · intro d p a d' a' hd hp ha hd' ha'
    exact not_entails_domainScope hd hp ha hd' ha'
  · intro g r hg hr h
    exact components_of_entails hg hr h

/-! ## Redundant grants -/

/-- The grants other than `g`. -/
def without (granted : List String) (g : String) : List String := granted.filter (· != g)

/-- The grants that are scopes and that the others do not satisfy. -/
def irredundant (granted : List String) : List String :=
  granted.filter fun g => decide (WellFormed g) && satisfies (without granted g) g == .ok false

/-- Only one string parses to a given scope. -/
theorem parse_inj {s t : String} {p : Parsed} (hs : parse s = .ok p) (ht : parse t = .ok p) :
    s = t := by
  rw [(parse_eq_ok hs).2, (parse_eq_ok ht).2]

theorem parsedGrants_finite (granted : List String) : (parsedGrants granted).Finite := by
  have himage : (parse '' {g | g ∈ granted}).Finite := granted.finite_toSet.image parse
  exact himage.preimage (f := Except.ok) (fun p _ q _ h => Except.ok.inj h)

/-- Removing a grant removes one parsed grant. -/
theorem parsedGrants_without {granted : List String} {g : String} {p : Parsed}
    (hp : parse g = .ok p) : parsedGrants (without granted g) = parsedGrants granted \ {p} := by
  ext q
  constructor
  · rintro ⟨s, hs, hq⟩
    obtain ⟨hs, hne⟩ := List.mem_filter.mp hs
    refine ⟨⟨s, hs, hq⟩, ?_⟩
    rintro rfl
    exact (bne_iff_ne.mp hne) (parse_inj hq hp)
  · rintro ⟨⟨s, hs, hq⟩, hne⟩
    refine ⟨s, List.mem_filter.mpr ⟨hs, bne_iff_ne.mpr ?_⟩, hq⟩
    rintro rfl
    rw [hp] at hq
    exact hne (Except.ok.inj hq).symm

/-- What the code calls not satisfied by the others is what is not covered by
them. -/
theorem parsedGrants_irredundant (granted : List String) :
    parsedGrants (irredundant granted) = Coverage.irredundant (parsedGrants granted) := by
  have hstays : ∀ {g p}, parse g = .ok p →
      (satisfies (without granted g) g = .ok false ↔
        p ∉ lowerClosure (parsedGrants granted \ {p})) := by
    intro g p hp
    rw [satisfies_of_parse hp, Except.ok.injEq, ← parsedGrants_without hp,
      ← anySatisfies_iff_mem_lowerClosure, Bool.not_eq_true]
  ext p
  constructor
  · rintro ⟨g, hg, hp⟩
    obtain ⟨hg, hdec⟩ := List.mem_filter.mp hg
    obtain ⟨-, hsat⟩ := (Bool.and_eq_true _ _).mp hdec
    exact ⟨⟨g, hg, hp⟩, (hstays hp).mp (beq_iff_eq.mp hsat)⟩
  · rintro ⟨⟨g, hg, hp⟩, hcov⟩
    refine ⟨g, List.mem_filter.mpr ⟨hg, ?_⟩, hp⟩
    rw [Bool.and_eq_true]
    exact ⟨decide_eq_true (wellFormed_of_parse hp), beq_iff_eq.mpr ((hstays hp).mpr hcov)⟩

/-- The decision on one grant is the declared relation. -/
theorem satisfies_singleton_iff {g r : String} :
    satisfies [g] r = .ok true ↔ Entails g r := by
  rw [satisfies_eq_true_iff]
  simp

/-- Two scopes that entail each other are one string. -/
theorem Entails.antisymm {s t : String} (hst : Entails s t) (hts : Entails t s) : s = t := by
  obtain ⟨p, q, hp, hq, hqp⟩ := exists_le_of_entails hst
  obtain ⟨p', hp', hpq⟩ := (entails_iff hp).mp hts
  rw [hq] at hp'
  obtain rfl := Except.ok.inj hp'
  obtain rfl := le_antisymm hpq hqp
  exact parse_inj hp hq

/-- **Redundant grants can be dropped**: the grants that are scopes and that no
other grant satisfies decide every requirement as all of them do. Single-grant
satisfaction is reflexive, transitive and antisymmetric, so two different
strings are never redundant because of each other. -/
theorem satisfies_irredundant :
    (∀ (granted : List String) (required : String), WellFormed required →
      satisfies (irredundant granted) required = satisfies granted required) ∧
    (∀ s, WellFormed s → satisfies [s] s = .ok true) ∧
    (∀ s t u, satisfies [s] t = .ok true → satisfies [t] u = .ok true →
      satisfies [s] u = .ok true) ∧
    (∀ s t, satisfies [s] t = .ok true → satisfies [t] s = .ok true → s = t) := by
  refine ⟨?_, ?_, ?_, ?_⟩
  · intro granted required hwf
    obtain ⟨q, -, -, hq⟩ := parse_of_wellFormed hwf
    rw [satisfies_of_parse hq, satisfies_of_parse hq, Except.ok.injEq, Bool.eq_iff_iff,
      anySatisfies_iff_mem_lowerClosure, anySatisfies_iff_mem_lowerClosure,
      parsedGrants_irredundant,
      Coverage.lowerClosure_irredundant (parsedGrants_finite granted)]
  · intro s hwf
    exact satisfies_singleton_iff.mpr (.refl hwf)
  · intro s t u hst htu
    rw [satisfies_singleton_iff] at hst htu ⊢
    exact hst.trans htu
  · intro s t hst hts
    rw [satisfies_singleton_iff] at hst hts
    exact hst.antisymm hts

example : irredundant ["finance:read", "openid", "finance:xero:read", "finance:xero:write"] =
    ["finance:read", "finance:xero:write"] := by decide

/-! ## The canonical form of a set of grants -/

/-- Two sets of grants decide alike when they cover the same scopes. -/
theorem satisfies_congr_iff {granted granted' : List String} :
    (∀ required, satisfies granted required = satisfies granted' required) ↔
      ∀ required p, parse required = .ok p →
        (p ∈ lowerClosure (parsedGrants granted) ↔ p ∈ lowerClosure (parsedGrants granted')) := by
  constructor
  · intro h required p hp
    have hsame := h required
    rwa [satisfies_of_parse hp, satisfies_of_parse hp, Except.ok.injEq, Bool.eq_iff_iff,
      anySatisfies_iff_mem_lowerClosure, anySatisfies_iff_mem_lowerClosure] at hsame
  · intro h required
    by_cases hwf : WellFormed required
    · obtain ⟨p, -, -, hp⟩ := parse_of_wellFormed hwf
      rw [satisfies_of_parse hp, satisfies_of_parse hp, Except.ok.injEq, Bool.eq_iff_iff,
        anySatisfies_iff_mem_lowerClosure, anySatisfies_iff_mem_lowerClosure]
      exact h required p hp
    · rw [satisfies_of_not_wellFormed hwf, satisfies_of_not_wellFormed hwf]

/-- What is left of the grants is scopes among them. -/
theorem mem_irredundant {granted : List String} {g : String} (h : g ∈ irredundant granted) :
    g ∈ granted ∧ ∃ p, parse g = .ok p := by
  obtain ⟨hg, hdec⟩ := List.mem_filter.mp h
  obtain ⟨p, -, -, hp⟩ := parse_of_wellFormed (of_decide_eq_true (Bool.and_eq_true_iff.mp hdec).1)
  exact ⟨hg, p, hp⟩

/-- What is left is known by its parsed grants. -/
theorem mem_irredundant_of_parsedGrants {granted granted' : List String}
    (h : parsedGrants (irredundant granted) ⊆ parsedGrants (irredundant granted')) :
    ∀ g ∈ irredundant granted, g ∈ irredundant granted' := by
  intro g hg
  obtain ⟨-, p, hp⟩ := mem_irredundant hg
  obtain ⟨s, hs, hsp⟩ := h ⟨g, hg, hp⟩
  obtain rfl := parse_inj hsp hp
  exact hs

/-- **The canonical form.** Two collections of grants decide every requirement
alike if and only if the same scopes are left of them when the redundant ones
are dropped. So what is left is in every collection that decides alike, and no
smaller one does. -/
theorem irredundant_canonical (granted granted' : List String) :
    ((∀ required, satisfies granted required = satisfies granted' required) ↔
      ∀ g, g ∈ irredundant granted ↔ g ∈ irredundant granted') ∧
    ((∀ required, satisfies granted required = satisfies granted' required) →
      ∀ g ∈ irredundant granted, g ∈ granted') := by
  have hleft : (∀ required, satisfies granted required = satisfies granted' required) →
      parsedGrants (irredundant granted) = parsedGrants (irredundant granted') := by
    intro h
    have hscopes : ∀ granted, parsedGrants granted ⊆ {p | ∃ s, parse s = .ok p} := by
      rintro _ p ⟨s, -, hp⟩
      exact ⟨s, hp⟩
    rw [parsedGrants_irredundant, parsedGrants_irredundant]
    refine Coverage.irredundant_congr (hscopes granted) (hscopes granted') ?_
    rintro p ⟨s, hp⟩
    exact satisfies_congr_iff.mp h s p hp
  have hmem : (∀ required, satisfies granted required = satisfies granted' required) →
      ∀ g, g ∈ irredundant granted ↔ g ∈ irredundant granted' := fun h g =>
    ⟨mem_irredundant_of_parsedGrants (hleft h).le g, mem_irredundant_of_parsedGrants (hleft h).ge g⟩
  refine ⟨⟨hmem, fun h => ?_⟩, fun h g hg => (mem_irredundant ((hmem h g).mp hg)).1⟩
  refine satisfies_congr_iff.mpr fun required p _ => ?_
  have hsame : parsedGrants (irredundant granted) = parsedGrants (irredundant granted') := by
    ext q
    exact ⟨fun ⟨s, hs, hq⟩ => ⟨s, (h s).mp hs, hq⟩, fun ⟨s, hs, hq⟩ => ⟨s, (h s).mpr hs, hq⟩⟩
  rw [← Coverage.lowerClosure_irredundant (parsedGrants_finite granted),
    ← Coverage.lowerClosure_irredundant (parsedGrants_finite granted'),
    ← parsedGrants_irredundant, ← parsedGrants_irredundant, hsame]

end Scopes

end KgaGateway
