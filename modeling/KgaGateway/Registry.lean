import KgaGateway.Auth0
import KgaGateway.Gates

/-!
# Only the registry decides

Tokens carry whatever strings the tenant put into them, and `satisfies` never
consults the registry. All the same, only registered grants can influence a
gate: the registry is closed upwards in the order on scopes
(`isUpperSet_registered`), the parser admits no second spelling of a registered
scope (`parse_eq_ok`), and `str` of a value that is no string never spells one
(`toStr_mem_knownScopes`).
-/

namespace KgaGateway

open Scopes

/-! ## The registry in the order -/

/-- The parsed registry, as a list. -/
def registeredList : List Parsed := knownScopes.filterMap fun s => (parse s).toOption

/-- The parsed registry. -/
def registered : Set Parsed := {p | p ∈ registeredList}

theorem mem_registered_iff {p : Parsed} :
    p ∈ registered ↔ ∃ s ∈ knownScopes, parse s = .ok p := by
  refine List.mem_filterMap.trans (exists_congr fun s => and_congr_right fun _ => ?_)
  rcases parse s with e | q <;> simp [Except.toOption]

/-- Whatever covers a registered scope is registered. -/
theorem isUpperSet_registered : IsUpperSet registered := by
  have hup : ∀ r ∈ registeredList,
      ∀ provider ∈ [none, r.provider], ∀ action ∈ [r.action, write],
        (action = r.action ∨ r.action = read) →
          (⟨r.domain, provider, action⟩ : Parsed) ∈ registeredList := by
    -- a scope that covers `r` is one of finitely many
    decide
  rintro r ⟨gd, gp, ga⟩ ⟨hd, hp, ha⟩ hr
  obtain rfl : r.domain = gd := hd
  refine hup r hr gp ?_ ga ?_ ?_
  · rcases hp with hp | hp <;> simp_all
  · rcases ha with ha | ⟨hw, -⟩ <;> simp_all
  · rcases ha with ha | ⟨-, hread⟩
    · exact Or.inl ha
    · exact Or.inr hread

/-- Two grant lists with the same registered members agree inside the
registry: a string that parses to a registered scope is that scope's string. -/
theorem parsedGrants_inter_congr {granted granted' : List String}
    (h : ∀ k ∈ knownScopes, k ∈ granted → k ∈ granted') :
    parsedGrants granted ∩ registered ⊆ parsedGrants granted' ∩ registered := by
  rintro p ⟨⟨g, hg, hparse⟩, hreg⟩
  refine ⟨⟨g, ?_, hparse⟩, hreg⟩
  obtain ⟨s, hs, hparse'⟩ := mem_registered_iff.mp hreg
  have hsame : g = s := (parse_eq_ok hparse).2.trans (parse_eq_ok hparse').2.symm
  exact h g (hsame ▸ hs) hg

/-- So they give the same answer on every registered requirement. -/
theorem satisfies_congr {granted granted' : List String}
    (h : ∀ k ∈ knownScopes, k ∈ granted ↔ k ∈ granted') {required : String}
    (hr : required ∈ knownScopes) :
    satisfies granted required = satisfies granted' required := by
  obtain ⟨q, -, -, hq⟩ := parse_of_wellFormed (wellFormed_of_mem_knownScopes hr)
  have hinter : parsedGrants granted ∩ registered = parsedGrants granted' ∩ registered :=
    Set.Subset.antisymm (parsedGrants_inter_congr fun k hk => (h k hk).mp)
      (parsedGrants_inter_congr fun k hk => (h k hk).mpr)
  have hmem : q ∈ registered := mem_registered_iff.mpr ⟨required, hr, hq⟩
  rw [satisfies_of_parse hq, satisfies_of_parse hq, Except.ok.injEq, Bool.eq_iff_iff,
    anySatisfies_iff_mem_lowerClosure, anySatisfies_iff_mem_lowerClosure]
  exact Coverage.mem_lowerClosure_congr isUpperSet_registered hinter hmem

/-! ## Two principals -/

/-- The principals' grants have the same registered members. -/
def Principal.SameRegistered (principal principal' : Principal) : Prop :=
  ∀ k ∈ knownScopes, k ∈ principal.scopes ↔ k ∈ principal'.scopes

theorem holds_congr {principal principal' : Principal} (h : principal.SameRegistered principal')
    {scope : String} (hs : scope ∈ knownScopes) :
    principal.holds scope = principal'.holds scope := by
  rw [Bool.eq_iff_iff, holds_iff, holds_iff, satisfies_congr h hs]

theorem firstMissing_congr {principal principal' : Principal}
    (h : principal.SameRegistered principal') {required : List String}
    (hreq : ∀ s ∈ required, s ∈ knownScopes) :
    Coverage.firstMissing Principal.holds principal required =
      Coverage.firstMissing Principal.holds principal' required := by
  induction required with
  | nil => rfl
  | cons s rest ih =>
    have hs := holds_congr h (hreq s (List.mem_cons_self ..))
    have hrest := ih fun t ht => hreq t (List.mem_cons_of_mem _ ht)
    simp only [Coverage.firstMissing, List.find?_cons, hs] at hrest ⊢
    rw [hrest]

/-- A wired gate treats them alike. -/
theorem checkScopes_congr {principal principal' : Principal}
    (h : principal.SameRegistered principal') {required : List String}
    (hreq : ∀ s ∈ required, s ∈ knownScopes) :
    (checkScopes principal required = .ok principal ∧
      checkScopes principal' required = .ok principal') ∨
    ∃ scope, checkScopes principal required = .error (.insufficientScope scope) ∧
      checkScopes principal' required = .error (.insufficientScope scope) := by
  rw [checkScopes_eq principal required hreq, checkScopes_eq principal' required hreq,
    firstMissing_congr h hreq]
  rcases Coverage.firstMissing Principal.holds principal' required with _ | s
  · exact Or.inl ⟨rfl, rfl⟩
  · exact Or.inr ⟨s, rfl, rfl⟩

/-- Two identity providers that answer alike, up to principals whose grants
have the same registered members. -/
def SameVerdicts (verify verify' : String → VerifyOutcome) : Prop :=
  ∀ token, verify token = verify' token ∨ ∃ principal principal',
    verify token = .principal principal ∧ verify' token = .principal principal' ∧
      principal.SameRegistered principal'

/-- No finance route tells them apart: it does the same and answers the same. -/
theorem run_congr {route : Route} (h : route.scope ∈ knownScopes) {deployment : Deployment}
    {verify verify' : String → VerifyOutcome} (hv : SameVerdicts verify verify') (req : Request) :
    route.run { deployment with verify := verify } req =
      route.run { deployment with verify := verify' } req := by
  by_cases hk : req.keyAdmitted { deployment with verify := verify }
  · have hk' : req.keyAdmitted { deployment with verify := verify' } := hk
    by_cases htok : ∃ token, req.hasToken token
    · obtain ⟨token, ht⟩ := htok
      rcases hv token with heq | ⟨p, p', hp, hp', hsame⟩
      · -- the same verdict: the runs are the same term
        simp only [Route.run]
        rw [scopedPrincipal, scopedPrincipal, currentPrincipal_of_bearerToken ht,
          currentPrincipal_of_bearerToken ht]
        simp only [heq]
      · -- two principals: the scope gate is the only one that looks at them
        have hiff : route.admits p ↔ route.admits p' := by
          rw [Route.admits, Route.admits, satisfies_congr hsame h]
        by_cases ha : route.admits p
        · have ha' := hiff.mp ha
          cases harg : route.arguments deployment.framework req with
          | error errors =>
            rw [run_of_invalid h hk ht hp ha harg, run_of_invalid h hk' ht hp' ha' harg]
          | ok arg => rw [run_of_valid h hk ht hp ha harg, run_of_valid h hk' ht hp' ha' harg]
        · have ha' : ¬ route.admits p' := fun ha' => ha (hiff.mpr ha')
          rw [run_of_not_admits h hk ht hp ha, run_of_not_admits h hk' ht hp' ha']
    · rw [run_of_no_token hk htok, run_of_no_token hk' htok]
  · have hk' : ¬ req.keyAdmitted { deployment with verify := verify' } := hk
    rw [run_of_no_key hk, run_of_no_key hk']

/-! ## Two claim sets -/

section Claims

variable (printable : Char → Bool)

/-- The grants a claim set resolves to: `str` of every element of a
`permissions` list, else the words of a string `scope`, else none. -/
def resolvedGrants (claims : Claims) : List String :=
  match Json.get claims "permissions", Json.get claims "scope" with
  | some (.arr permissions), _ => permissions.map (Json.toStr printable)
  | _, some (.str scope) => Text.words scope
  | _, _ => []

/-- The claim sets resolve to grants with the same registered members. -/
def SameResolved (claims claims' : Claims) : Prop :=
  ∀ k ∈ knownScopes, k ∈ resolvedGrants printable claims ↔ k ∈ resolvedGrants printable claims'

variable {printable}

/-- The check for a blank `scope` claim makes no difference. -/
theorem grantedScopes_eq (claims : Claims) :
    grantedScopes printable claims = resolvedGrants printable claims := by
  have hscope : ∀ scope : String,
      (if Text.strip scope != "" then Text.words scope else []) = Text.words scope := by
    intro scope
    by_cases h : Text.strip scope = ""
    · simp [h, Text.words_eq_nil ((Text.strip_eq_empty_iff scope).mp h)]
    · simp [h]
  unfold grantedScopes resolvedGrants
  simp only [hscope]
  rcases Json.get claims "permissions" with _ | (_ | _ | _ | _ | _ | permissions | _) <;>
    rcases Json.get claims "scope" with _ | (_ | _ | _ | _ | scope | _ | _) <;> rfl

/-- `str` of a value that is no string is not a registered scope: it starts
like structure, and a registered scope starts with its domain. -/
theorem toStr_mem_knownScopes {j : Json} {k : String} (hk : k ∈ knownScopes)
    (h : Json.toStr printable j = k) : j = .str k := by
  cases hstr : j.isStr with
  | true =>
    cases j with
    | str s =>
      obtain rfl : s = k := h
      rfl
    | _ => cases hstr
  | false =>
    obtain ⟨c, t, hct, hstart⟩ := @Json.isStart_of_not_isStr printable j hstr
    have hfirst :
        (knownScopes.all fun k => k.toList.head?.all fun d => !Json.isStart d) = true := by
      decide
    have hk' := List.all_eq_true.mp hfirst k hk
    rw [h] at hct
    rw [hct] at hk'
    simp [hstart] at hk'

/-- A registered scope among the stringified permissions is a JSON string
there. -/
theorem mem_map_toStr_iff {permissions : List Json} {k : String} (hk : k ∈ knownScopes) :
    k ∈ permissions.map (Json.toStr printable) ↔ Json.str k ∈ permissions := by
  rw [List.mem_map]
  constructor
  · rintro ⟨j, hj, hstr⟩
    exact toStr_mem_knownScopes hk hstr ▸ hj
  · intro h
    exact ⟨.str k, h, rfl⟩

theorem principalFromClaims_of_subject {claims : Claims} {subject : String}
    (hsub : Json.get claims "sub" = some (.str subject)) (hne : subject ≠ "") :
    principalFromClaims printable claims =
      .ok ⟨subject, grantedScopes printable claims, claims⟩ := by
  simp [principalFromClaims, hsub, Json.truthy, hne]

end Claims

/-- **Only registered grants decide.** Two validated claim sets whose resolved
grants have the same registered members become principals that every wired
gate treats alike, naming the same scope if it turns them away, and that no
finance route tells apart. Of a `permissions` list only the elements that are
registered strings count: any two lists that agree on those resolve alike. -/
theorem only_registry_decides (printable : Char → Bool) (claims claims' : Claims)
    (subject subject' : String)
    (hsub : Json.get claims "sub" = some (.str subject)) (hne : subject ≠ "")
    (hsub' : Json.get claims' "sub" = some (.str subject')) (hne' : subject' ≠ "")
    (hsame : SameResolved printable claims claims' ∨
      ∃ permissions permissions', Json.get claims "permissions" = some (.arr permissions) ∧
        Json.get claims' "permissions" = some (.arr permissions') ∧
        ∀ k ∈ knownScopes, Json.str k ∈ permissions ↔ Json.str k ∈ permissions') :
    ∃ principal principal', principalFromClaims printable claims = .ok principal ∧
      principalFromClaims printable claims' = .ok principal' ∧
      (∀ required dependency, requireScopes required = .ok dependency →
        (dependency principal = .ok principal ∧ dependency principal' = .ok principal') ∨
        ∃ scope, dependency principal = .error (.insufficientScope scope) ∧
          dependency principal' = .error (.insufficientScope scope)) ∧
      (∀ (route : FinanceRoute) (deployment : Deployment) (req : Request)
        (verify verify' : String → VerifyOutcome),
        (∀ token, verify token = verify' token ∨
          verify token = .principal principal ∧ verify' token = .principal principal') →
        ∀ run, route.route.mount = .ok run →
          run { deployment with verify := verify } req =
            run { deployment with verify := verify' } req) := by
  have hresolved : SameResolved printable claims claims' := by
    rcases hsame with hsame | ⟨l, l', hl, hl', hmem⟩
    · exact hsame
    · intro k hk
      simp only [resolvedGrants, hl, hl', mem_map_toStr_iff hk]
      exact hmem k hk
  have hreg : Principal.SameRegistered ⟨subject, grantedScopes printable claims, claims⟩
      ⟨subject', grantedScopes printable claims', claims'⟩ := by
    intro k hk
    rw [grantedScopes_eq, grantedScopes_eq]
    exact hresolved k hk
  refine ⟨_, _, principalFromClaims_of_subject hsub hne,
    principalFromClaims_of_subject hsub' hne', ?_, ?_⟩
  · intro required dependency hdep
    have hknown : ∀ s ∈ required, s ∈ knownScopes := by
      apply mem_knownScopes_of_unknownScopes
      by_contra hne
      rw [requireScopes, List.isEmpty_eq_false_iff.mpr hne] at hdep
      cases hdep
    rw [requireScopes_ok hknown] at hdep
    obtain rfl := Except.ok.inj hdep
    exact checkScopes_congr hreg hknown
  · intro route deployment req verify verify' hv run hrun
    rw [Route.mount_eq route.scope_mem] at hrun
    obtain rfl := Except.ok.inj hrun
    refine run_congr route.scope_mem (fun token => ?_) req
    rcases hv token with heq | ⟨hp, hp'⟩
    · exact Or.inl heq
    · exact Or.inr ⟨_, _, hp, hp', hreg⟩

/-- A token with padding, junk and structure around one registered grant, and
one with the grant alone. -/
theorem only_registry_decides_example :
    ∃ principal principal',
      principalFromClaims (fun _ => true) [("sub", .str "auth0|a"), ("permissions",
        .arr [.str " finance:read", .str "finance:xero:read", .int 3, .null,
          .arr [.str "finance:write"]])] = .ok principal ∧
      principalFromClaims (fun _ => true) [("sub", .str "m2m"), ("scope",
        .str "openid  finance:xero:read")] = .ok principal' ∧
      ∀ required dependency, requireScopes required = .ok dependency →
        (dependency principal = .ok principal ∧ dependency principal' = .ok principal') ∨
        ∃ scope, dependency principal = .error (.insufficientScope scope) ∧
          dependency principal' = .error (.insufficientScope scope) := by
  obtain ⟨p, p', hp, hp', hgate, -⟩ :=
    only_registry_decides (fun _ => true) [("sub", .str "auth0|a"), ("permissions",
        .arr [.str " finance:read", .str "finance:xero:read", .int 3, .null,
          .arr [.str "finance:write"]])]
      [("sub", .str "m2m"), ("scope", .str "openid  finance:xero:read")] "auth0|a" "m2m"
      rfl (by decide) rfl (by decide) (Or.inl (by unfold SameResolved; decide))
  exact ⟨p, p', hp, hp', hgate⟩

end KgaGateway
