import KgaGateway.Auth0
import KgaGateway.Surface

/-!
# Who gets through

From the caller's token to the service, in one statement. The token is decoded
under the settings of the tenant, the claims give a subject and grants, and a
grant entails the scope of the route: `Accepted`, `GrantedBy` and `Entails` are
the three relations, and `access_iff` says that a service is invoked exactly
along them. The provider, the claims and the loop over grants do not occur in
it any more.
-/

namespace KgaGateway

open Scopes

/-! ## What a token says -/

/-- A grant of a claim set. RBAC permissions come first; the `scope` claim
counts only where there are none. -/
inductive GrantedBy (printable : Char → Bool) (claims : Claims) : String → Prop where
  | permission {permissions : List Json} {p : Json} :
      Json.get claims "permissions" = some (.arr permissions) → p ∈ permissions →
        GrantedBy printable claims (p.toStr printable)
  | word {scope word : String} :
      (∀ permissions, Json.get claims "permissions" ≠ some (.arr permissions)) →
        Json.get claims "scope" = some (.str scope) → word ∈ Text.words scope →
          GrantedBy printable claims word

/-- The words of the `scope` claim. -/
def scopeWords (claims : Claims) : List String :=
  match Json.get claims "scope" with
  | some (.str scope) => if Text.strip scope != "" then Text.words scope else []
  | _ => []

theorem mem_scopeWords_iff {claims : Claims} {g : String} :
    g ∈ scopeWords claims ↔
      ∃ scope, Json.get claims "scope" = some (.str scope) ∧ g ∈ Text.words scope := by
  rw [scopeWords]
  split
  · rename_i scope hscope
    rw [hscope]
    constructor
    · intro h
      split at h
      · exact ⟨scope, rfl, h⟩
      · cases h
    · rintro ⟨scope', heq, hg⟩
      obtain rfl := Json.str.inj (Option.some.inj heq)
      -- a blank claim has no words anyway
      rw [if_pos]
      · exact hg
      · rw [bne_iff_ne]
        intro hblank
        rw [Text.words_eq_nil ((Text.strip_eq_empty_iff scope).mp hblank)] at hg
        exact List.not_mem_nil hg
  · rename_i hother
    refine iff_of_false List.not_mem_nil ?_
    rintro ⟨scope, hscope, -⟩
    exact hother scope hscope

/-- The grants are those of the relation. -/
theorem mem_grantedScopes_iff {printable : Char → Bool} {claims : Claims} {g : String} :
    g ∈ grantedScopes printable claims ↔ GrantedBy printable claims g := by
  have hwords : (∀ permissions, Json.get claims "permissions" ≠ some (.arr permissions)) →
      (g ∈ scopeWords claims ↔ GrantedBy printable claims g) := by
    intro hnone
    rw [mem_scopeWords_iff]
    constructor
    · rintro ⟨scope, hscope, hg⟩
      exact .word hnone hscope hg
    · intro h
      cases h with
      | permission hp _ => exact absurd hp (hnone _)
      | word _ hscope hg => exact ⟨_, hscope, hg⟩
  rw [grantedScopes]
  split
  · rename_i permissions hpermissions
    rw [List.mem_map]
    constructor
    · rintro ⟨p, hp, rfl⟩
      exact .permission hpermissions hp
    · intro h
      cases h with
      | permission hp hmem =>
        obtain rfl := Json.arr.inj (Option.some.inj (hpermissions.symm.trans hp))
        exact ⟨_, hmem, rfl⟩
      | word hnone _ _ => exact absurd hpermissions (hnone _)
  · rename_i hnone
    exact hwords hnone

/-! ## The verdict -/

section Verdict

variable {Key : Type} {provider : Auth0Provider Key} {pyJWT : PyJWT Key}
  {printable : Char → Bool} {token : String}

/-- The token is good for these claims: the tenant is configured, there is a
key for the token, and it decodes with that key under the algorithms, the
audience and the issuer of the settings. -/
structure Accepted (provider : Auth0Provider Key) (pyJWT : PyJWT Key) (token : String)
    (claims : Claims) : Prop where
  domain : provider.settings.auth0Domain ≠ ""
  audience : provider.settings.auth0ApiAudience ≠ ""
  decoded : ∃ key, provider.resolveSigningKey pyJWT token = .ok key ∧
    pyJWT.decode ⟨token, key, provider.algorithms, provider.settings.auth0ApiAudience,
      "https://" ++ provider.settings.auth0Domain ++ "/", ["exp", "iss", "aud"]⟩ = .ok claims

theorem principalFromClaims_eq_ok_iff {claims : Claims} {principal : Principal} :
    principalFromClaims printable claims = .ok principal ↔
      ∃ subject, Json.get claims "sub" = some (.str subject) ∧ subject ≠ "" ∧
        principal = ⟨subject, grantedScopes printable claims, claims⟩ := by
  unfold principalFromClaims
  rcases hsub : Json.get claims "sub" with _ | subject
  · simp
  · cases subject with
    | str s =>
      by_cases hempty : s = ""
      · simp [Json.truthy, hempty]
      · have hprincipal : (⟨s, grantedScopes printable claims, claims⟩ : Principal) = principal ↔
            principal = ⟨s, grantedScopes printable claims, claims⟩ := eq_comm
        simp [Json.truthy, hempty, hprincipal]
    | null => simp [Json.truthy]
    | _ =>
      dsimp only
      split <;> simp

/-- Whom `verify` returns. -/
theorem outcome_eq_principal_iff {principal : Principal} :
    provider.outcome pyJWT printable token = .principal principal ↔
      ∃ claims subject, Accepted provider pyJWT token claims ∧
        Json.get claims "sub" = some (.str subject) ∧ subject ≠ "" ∧
        principal = ⟨subject, grantedScopes printable claims, claims⟩ := by
  have hresult : provider.outcome pyJWT printable token = .principal principal ↔
      (provider.verify pyJWT printable token).result = .ok principal := by
    rw [Auth0Provider.outcome]
    split <;> simp_all
  rw [hresult]
  by_cases hcfg : provider.settings.auth0Domain = "" ∨ provider.settings.auth0ApiAudience = ""
  · rw [Auth0Provider.verify_unconfigured hcfg]
    refine iff_of_false (by simp) ?_
    rintro ⟨claims, subject, haccepted, -⟩
    exact hcfg.elim haccepted.domain haccepted.audience
  · obtain ⟨hd, ha⟩ := not_or.mp hcfg
    rw [Auth0Provider.verify_configured hd ha]
    constructor
    · intro h
      split at h
      · cases h
      · rename_i key hkey
        split at h
        · cases h
        · rename_i claims hdecode
          obtain ⟨subject, hsub, hne, hprincipal⟩ := principalFromClaims_eq_ok_iff.mp h
          exact ⟨claims, subject, ⟨hd, ha, key, hkey, hdecode⟩, hsub, hne, hprincipal⟩
    · rintro ⟨claims, subject, ⟨-, -, key, hkey, hdecode⟩, hsub, hne, hprincipal⟩
      have hdecode' : pyJWT.decode (provider.decodeCall token key) = .ok claims := hdecode
      simp only [hkey, hdecode']
      exact principalFromClaims_eq_ok_iff.mpr ⟨subject, hsub, hne, hprincipal⟩

/-! ## From the token to the service -/

/-- **Who gets through.** Behind the identity provider a service method is
invoked if and only if the request matches its route, the key is admitted, the
caller's token is good for claims with a subject and with a grant that entails
the scope of the route, and query and body validate. -/
theorem access_iff (provider : Auth0Provider Key) (pyJWT : PyJWT Key) (printable : Char → Bool)
    (deployment : Deployment) (other : Request → Except Exn Response) :
    ∃ app, createApp { deployment with verify := provider.outcome pyJWT printable }
        (fun req => Traced.lift (other req)) = .ok app ∧
      ∀ req name arg, .service name arg ∈ (app req).trace ↔
        ∃ r, (AppRoute.finance r).Matches req ∧ req.keyAdmitted deployment ∧
          (∃ token claims subject grant, req.hasToken token ∧
            Accepted provider pyJWT token claims ∧
            Json.get claims "sub" = some (.str subject) ∧ subject ≠ "" ∧
            GrantedBy printable claims grant ∧ Entails grant r.route.scope) ∧
          ∃ a, r.route.arguments deployment.framework req = .ok a ∧
            name = r.route.serviceMethod ∧ arg = r.route.wire a := by
  refine ⟨_, createApp_eq _ _, fun req name arg => ?_⟩
  rw [(acts_of_dispatch _ other req).service]
  refine exists_congr fun r => and_congr_right fun _ => and_congr_right fun _ =>
    and_congr_left fun _ => ?_
  constructor
  · rintro ⟨token, principal, ht, hv, grant, hgrant, hentails⟩
    obtain ⟨claims, subject, haccepted, hsub, hne, rfl⟩ := outcome_eq_principal_iff.mp hv
    exact ⟨token, claims, subject, grant, ht, haccepted, hsub, hne,
      mem_grantedScopes_iff.mp hgrant, hentails⟩
  · rintro ⟨token, claims, subject, grant, ht, haccepted, hsub, hne, hgrant, hentails⟩
    exact ⟨token, _, ht, outcome_eq_principal_iff.mpr ⟨claims, subject, haccepted, hsub, hne, rfl⟩,
      grant, mem_grantedScopes_iff.mpr hgrant, hentails⟩

end Verdict

end KgaGateway
