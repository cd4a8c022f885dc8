import KgaGateway.Authorization

/-!
# Step-up through a scope gate

What `requireScopes` promises a caller that is turned away: the exception names
a scope, and a caller that obtains it and tries again gets further. The
registry is what makes this work. Every registered string parses, so the gate
never raises `ValueError` at request time (`checkScopes_eq`), and a registered
scope satisfies itself, so a grant of the named scope closes the gap
(`holds_of_mem`).
-/

namespace KgaGateway

open Scopes

/-! ## The registry -/

/-- Every registered string is a scope. -/
theorem wellFormed_of_mem_knownScopes {s : String} (h : s ∈ knownScopes) : WellFormed s := by
  have hall : ∀ t ∈ knownScopes, WellFormed t := by decide
  exact hall s h

theorem mem_knownScopes_of_unknownScopes {required : List String}
    (h : unknownScopes required = []) : ∀ s ∈ required, s ∈ knownScopes := by
  intro s hs
  by_contra hnot
  have hmem : s ∈ unknownScopes required :=
    List.mem_filter.mpr ⟨hs, by simpa using hnot⟩
  rw [h] at hmem
  cases hmem

theorem unknownScopes_eq_nil {required : List String} (h : ∀ s ∈ required, s ∈ knownScopes) :
    unknownScopes required = [] := by
  rw [unknownScopes, List.filter_eq_nil_iff]
  intro s hs
  simpa using h s hs

/-! ## What a principal holds -/

/-- The answer of `has_scope`, with an exception counted as no. -/
def Principal.holds (principal : Principal) (scope : String) : Bool :=
  match principal.hasScope scope with
  | .ok b => b
  | .error _ => false

theorem hasScope_eq {principal : Principal} {scope : String} (h : WellFormed scope) :
    principal.hasScope scope = .ok (principal.holds scope) := by
  obtain ⟨b, hb⟩ := @satisfies_of_wellFormed principal.scopes scope h
  rw [Principal.holds, Principal.hasScope, hb]

theorem holds_iff {principal : Principal} {scope : String} :
    principal.holds scope = true ↔ satisfies principal.scopes scope = .ok true := by
  rw [Principal.holds, Principal.hasScope]
  rcases satisfies principal.scopes scope with e | b <;> simp

/-- A granted scope is held. -/
theorem holds_of_mem {principal : Principal} {scope : String} (hwf : WellFormed scope)
    (h : scope ∈ principal.scopes) : principal.holds scope = true :=
  holds_iff.mpr (satisfies_eq_true_iff.mpr ⟨scope, h, .refl hwf⟩)

/-- More grants lose nothing. -/
theorem holds_mono {principal principal' : Principal}
    (h : principal.scopes ⊆ principal'.scopes) {scope : String}
    (hold : principal.holds scope = true) : principal'.holds scope = true := by
  rw [holds_iff, satisfies_eq_true_iff] at hold ⊢
  obtain ⟨g, hg, hent⟩ := hold
  exact ⟨g, h hg, hent⟩

/-! ## The gate -/

/-- On registered scopes the loop names the first scope that is not held. -/
theorem checkScopes_eq (principal : Principal) :
    ∀ required : List String, (∀ s ∈ required, s ∈ knownScopes) →
      checkScopes principal required =
        match Coverage.firstMissing Principal.holds principal required with
        | none => .ok principal
        | some s => .error (.insufficientScope s)
  | [], _ => rfl
  | scope :: rest, h => by
    have hwf := wellFormed_of_mem_knownScopes (h scope (List.mem_cons_self ..))
    have ih := checkScopes_eq principal rest fun s hs => h s (List.mem_cons_of_mem _ hs)
    rw [checkScopes, hasScope_eq hwf]
    cases hold : principal.holds scope with
    | false =>
      have : Coverage.firstMissing Principal.holds principal (scope :: rest) = some scope := by
        simp [Coverage.firstMissing, hold]
      rw [this]
    | true =>
      have : Coverage.firstMissing Principal.holds principal (scope :: rest) =
          Coverage.firstMissing Principal.holds principal rest := by
        simp [Coverage.firstMissing, hold]
      rw [this]
      exact ih

theorem checkScopes_eq_ok_iff {principal : Principal} {required : List String}
    (h : ∀ s ∈ required, s ∈ knownScopes) :
    checkScopes principal required = .ok principal ↔
      Coverage.firstMissing Principal.holds principal required = none := by
  rw [checkScopes_eq principal required h]
  rcases Coverage.firstMissing Principal.holds principal required with _ | s <;> simp

theorem checkScopes_eq_insufficient_iff {principal : Principal} {required : List String}
    (h : ∀ s ∈ required, s ∈ knownScopes) {s : String} :
    checkScopes principal required = .error (.insufficientScope s) ↔
      Coverage.firstMissing Principal.holds principal required = some s := by
  rw [checkScopes_eq principal required h]
  rcases Coverage.firstMissing Principal.holds principal required with _ | t <;> simp

/-- Admission, in terms of the decision: every member is satisfied. -/
theorem checkScopes_eq_ok_iff_satisfies {principal : Principal} {required : List String}
    (h : ∀ s ∈ required, s ∈ knownScopes) :
    checkScopes principal required = .ok principal ↔
      ∀ s ∈ required, satisfies principal.scopes s = .ok true := by
  rw [checkScopes_eq_ok_iff h, Coverage.firstMissing_eq_none]
  simp only [holds_iff]

/-- Rejection: the first member that is not satisfied is named. -/
theorem checkScopes_of_not_ok {principal : Principal} {required : List String}
    (h : ∀ s ∈ required, s ∈ knownScopes) (hrej : checkScopes principal required ≠ .ok principal) :
    ∃ before scope after, required = before ++ scope :: after ∧
      (∀ s ∈ before, satisfies principal.scopes s = .ok true) ∧
      satisfies principal.scopes scope = .ok false ∧
      checkScopes principal required = .error (.insufficientScope scope) := by
  rw [ne_eq, checkScopes_eq_ok_iff h] at hrej
  obtain ⟨s, hs⟩ := Option.ne_none_iff_exists'.mp hrej
  obtain ⟨-, before, after, hsplit, hbefore⟩ := List.find?_eq_some_iff_append.mp hs
  have hwf := wellFormed_of_mem_knownScopes (h s (Coverage.mem_of_firstMissing hs))
  refine ⟨before, s, after, hsplit, ?_, ?_, (checkScopes_eq_insufficient_iff h).mpr hs⟩
  · intro t ht
    exact holds_iff.mp (by simpa using hbefore t ht)
  · rw [← Principal.hasScope, hasScope_eq hwf, Coverage.not_has_of_firstMissing hs]

theorem checkScopes_ne_valueError {principal : Principal} {required : List String}
    (h : ∀ s ∈ required, s ∈ knownScopes) (e : ValueError) :
    checkScopes principal required ≠ .error (.valueError e) := by
  rw [checkScopes_eq principal required h]
  cases Coverage.firstMissing Principal.holds principal required with
  | none => rintro ⟨⟩
  | some s => rintro ⟨⟩

/-- Wiring fails on an unregistered member, and lists all of them. -/
theorem requireScopes_error {required : List String} (h : ∃ s ∈ required, s ∉ knownScopes) :
    requireScopes required =
      .error (.unknownScopes (required.filter fun s => s ∉ knownScopes)) := by
  obtain ⟨s, hs, hnot⟩ := h
  have hmem : s ∈ unknownScopes required := List.mem_filter.mpr ⟨hs, by simpa using hnot⟩
  rw [requireScopes, List.isEmpty_eq_false_iff.mpr (List.ne_nil_of_mem hmem)]
  simp [unknownScopes]

theorem requireScopes_ok {required : List String} (h : ∀ s ∈ required, s ∈ knownScopes) :
    requireScopes required = .ok fun principal => checkScopes principal required := by
  rw [requireScopes, unknownScopes_eq_nil h]
  rfl

/-! ## Retrying -/

/-- A caller that is turned away, obtains at least the scope it was told of,
and tries again, as often as the list of named scopes is long. -/
inductive Retries (dependency : Principal → Except ScopeError Principal) :
    Principal → List String → Principal → Prop where
  /-- no attempt was rejected yet -/
  | start (principal : Principal) : Retries dependency principal [] principal
  /-- a rejected attempt, the grant, and the attempts after it -/
  | again {principal principal' principal'' : Principal} {scope : String}
      {named : List String} :
      dependency principal = .error (.insufficientScope scope) →
      scope ∈ principal'.scopes →
      principal.scopes ⊆ principal'.scopes →
      Retries dependency principal' named principal'' →
      Retries dependency principal (scope :: named) principal''

/-- Retrying is a step-up run of the gate. -/
theorem Retries.stepUps {required : List String} (h : ∀ s ∈ required, s ∈ knownScopes)
    {principal principal' : Principal} {named : List String}
    (hr : Retries (fun p => checkScopes p required) principal named principal') :
    Coverage.StepUps Principal.holds required principal named principal' := by
  induction hr with
  | start principal => exact .nil principal
  | again hdep hmem hsub _ ih =>
    have hmiss := (checkScopes_eq_insufficient_iff h).mp hdep
    have hwf := wellFormed_of_mem_knownScopes (h _ (Coverage.mem_of_firstMissing hmiss))
    exact .cons hmiss (holds_of_mem hwf hmem) (fun _ => holds_mono hsub) ih

/-- As long as it is rejected, a caller can obtain the scope it is told of and
try again. -/
theorem exists_retries {required : List String} (h : ∀ s ∈ required, s ∈ knownScopes) :
    ∀ (k : ℕ) (principal : Principal), ∃ named principal',
      Retries (fun p => checkScopes p required) principal named principal' ∧
        (checkScopes principal' required = .ok principal' ∨ named.length = k) := by
  intro k
  induction k with
  | zero => exact fun principal => ⟨[], principal, .start principal, Or.inr rfl⟩
  | succ k ih =>
    intro principal
    cases hmiss : Coverage.firstMissing Principal.holds principal required with
    | none =>
      exact ⟨[], principal, .start principal, Or.inl ((checkScopes_eq_ok_iff h).mpr hmiss)⟩
    | some s =>
      obtain ⟨named, principal', hr, hend⟩ :=
        ih { principal with scopes := s :: principal.scopes }
      refine ⟨s :: named, principal', ?_, hend.imp_right (congrArg Nat.succ)⟩
      exact .again ((checkScopes_eq_insufficient_iff h).mpr hmiss) (List.mem_cons_self ..)
        (List.subset_cons_self ..) hr

/-- A caller that obtains exactly what it is told of is admitted in the end:
after as many rejections as there are distinct members at the latest. -/
theorem exists_retries_admitted {required : List String} (h : ∀ s ∈ required, s ∈ knownScopes)
    (principal : Principal) : ∃ named principal',
      Retries (fun p => checkScopes p required) principal named principal' ∧
        checkScopes principal' required = .ok principal' := by
  obtain ⟨named, principal', hr, hok | hlen⟩ := exists_retries h required.dedup.length principal
  · exact ⟨named, principal', hr, hok⟩
  · exact ⟨named, principal', hr,
      (checkScopes_eq_ok_iff h).mpr ((hr.stepUps h).firstMissing_eq_none hlen.ge)⟩

/-- **Step-up progress.** Wiring rejects exactly the tuples with unregistered
members, listing them. A wired gate answers every principal: it admits it
exactly when every member is satisfied, and otherwise names the first member
that is not. A caller that retries with what it was told of is never told the
same scope twice, moves to later and later positions, and is admitted after at
most as many rejections as the tuple has distinct members. -/
theorem requireScopes_stepUp (required : List String) :
    ((∃ s ∈ required, s ∉ knownScopes) →
      requireScopes required =
        .error (.unknownScopes (required.filter fun s => s ∉ knownScopes))) ∧
    ((∀ s ∈ required, s ∈ knownScopes) → ∃ dependency, requireScopes required = .ok dependency ∧
      (∀ principal,
        (∀ e, dependency principal ≠ .error (.valueError e)) ∧
        (dependency principal = .ok principal ↔
          ∀ s ∈ required, satisfies principal.scopes s = .ok true) ∧
        (dependency principal ≠ .ok principal →
          ∃ before scope after, required = before ++ scope :: after ∧
            (∀ s ∈ before, satisfies principal.scopes s = .ok true) ∧
            satisfies principal.scopes scope = .ok false ∧
            dependency principal = .error (.insufficientScope scope))) ∧
      (∀ required' dependency', (∀ s, s ∈ required' ↔ s ∈ required) →
        requireScopes required' = .ok dependency' → ∀ principal,
          (dependency' principal = .ok principal ↔ dependency principal = .ok principal)) ∧
      (∀ principal named principal', Retries dependency principal named principal' →
        named.Pairwise (fun s t => required.idxOf s < required.idxOf t) ∧
        named.Nodup ∧ named ⊆ required ∧ named.length ≤ required.dedup.length ∧
        (named.length = required.dedup.length → dependency principal' = .ok principal')) ∧
      (∀ principal, ∃ named principal', Retries dependency principal named principal' ∧
        dependency principal' = .ok principal')) := by
  refine ⟨requireScopes_error, fun h => ⟨_, requireScopes_ok h, ?_, ?_, ?_, ?_⟩⟩
  · intro principal
    exact ⟨checkScopes_ne_valueError h, checkScopes_eq_ok_iff_satisfies h,
      checkScopes_of_not_ok h⟩
  · -- only the members count, not their order or repetition
    intro required' dependency' hmem hdep principal
    have h' : ∀ s ∈ required', s ∈ knownScopes := fun s hs => h s ((hmem s).mp hs)
    rw [requireScopes_ok h'] at hdep
    obtain rfl := Except.ok.inj hdep
    rw [checkScopes_eq_ok_iff_satisfies h, checkScopes_eq_ok_iff_satisfies h']
    simp only [hmem]
  · intro principal named principal' hr
    have hstep := hr.stepUps h
    refine ⟨hstep.pairwise, hstep.nodup, fun s hs => hstep.mem s hs, hstep.length_le, ?_⟩
    intro hlen
    exact (checkScopes_eq_ok_iff h).mpr (hstep.firstMissing_eq_none hlen.ge)
  · exact exists_retries_admitted h

end KgaGateway
