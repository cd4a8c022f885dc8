import KgaGateway.Authorization
import KgaGateway.Config

/-!
# The Auth0 provider

`app/auth/auth0.py`: a bearer token is verified by resolving its signing key
and decoding it with PyJWT, and the validated claims become a principal.

PyJWT is not part of the repository. What the code can observe of it is a
behaviour: key resolution and `decode` each return or raise a class of PyJWT's
exception tree. `verify` catches an enumerated list of classes, so whether a
vendor exception escapes depends on where in the tree it sits
(`verify_contract_iff`).
-/

namespace KgaGateway

/-- A claim set: the decoded JSON object. -/
abbrev Claims : Type := List (String × Json)

/-! ## PyJWT's exceptions -/

/-- The exception classes of PyJWT. -/
inductive PyJWTError : Type where
  | pyJWTError
  | invalidTokenError
  | decodeError
  | invalidSignatureError
  | expiredSignatureError
  | invalidAudienceError
  | invalidIssuerError
  | invalidIssuedAtError
  | immatureSignatureError
  | invalidAlgorithmError
  | missingRequiredClaimError
  | invalidSubjectError
  | invalidJTIError
  | invalidKeyError
  | pyJWKError
  | missingCryptographyError
  | pyJWKSetError
  | pyJWKClientError
  | pyJWKClientConnectionError
  deriving DecidableEq

namespace PyJWTError

/-- The base class, `none` at the root of the tree. -/
def base : PyJWTError → Option PyJWTError
  | pyJWTError => none
  | invalidTokenError | invalidKeyError | pyJWKError | pyJWKSetError | pyJWKClientError =>
    some pyJWTError
  | invalidSignatureError => some decodeError
  | missingCryptographyError => some pyJWKError
  | pyJWKClientConnectionError => some pyJWKClientError
  | _ => some invalidTokenError

/-- The class and its bases; the tree has four levels. -/
def mro (e : PyJWTError) : List PyJWTError :=
  e :: match e.base with
    | none => []
    | some b => b :: match b.base with
      | none => []
      | some b => b :: match b.base with
        | none => []
        | some b => [b]

/-- `issubclass(e, c)`. -/
def isSubclass (e c : PyJWTError) : Bool := e.mro.contains c

end PyJWTError

/-- `_JWT_ERRORS`: the classes `verify` catches. -/
def jwtErrors : List PyJWTError :=
  [.expiredSignatureError, .invalidAudienceError, .invalidIssuerError, .invalidSignatureError,
    .decodeError, .pyJWKClientError, .invalidTokenError]

/-- `except _JWT_ERRORS` applies to this exception. -/
def PyJWTError.caught (e : PyJWTError) : Bool := jwtErrors.any e.isSubclass

/-- What the list covers is two branches of the tree. -/
theorem PyJWTError.caught_iff (e : PyJWTError) :
    e.caught = true ↔ e.isSubclass .invalidTokenError = true ∨
      e.isSubclass .pyJWKClientError = true := by
  cases e <;> decide

/-! ## The provider -/

/-- The arguments of `jwt.decode`. -/
structure DecodeCall (Key : Type) : Type where
  token : String
  key : Key
  algorithms : List String
  audience : String
  issuer : String
  require : List String

/-- The behaviour of PyJWT: fetching a key from a JWKS URL, and decoding. -/
structure PyJWT (Key : Type) : Type where
  getSigningKeyFromJwt : String → String → Except PyJWTError Key
  decode : DecodeCall Key → Except PyJWTError Claims

/-- `Auth0Provider`: the settings and the optional injected key resolver. -/
structure Auth0Provider (Key : Type) : Type where
  settings : Settings
  signingKeyResolver : Option (String → Except PyJWTError Key)

/-- The calls `verify` makes into the vendor library. -/
inductive VendorCall (Key : Type) : Type where
  | resolve : String → VendorCall Key
  | decode : DecodeCall Key → VendorCall Key

/-- The exceptions `verify` can end with. -/
inductive VerifyError : Type where
  /-- the vendor-neutral `InvalidTokenError` -/
  | invalidToken : String → VerifyError
  /-- the `RuntimeError` of `require_auth0_config` -/
  | runtimeError : String → VerifyError
  /-- a PyJWT exception that was not caught -/
  | vendor : PyJWTError → VerifyError
  /-- pydantic's `ValidationError`: the subject of a `Principal` is a string -/
  | validationError : VerifyError

section Claims

variable (printable : Char → Bool)

/-- The grants of a claim set: the RBAC `permissions` first, the `scope` claim
as a fallback. -/
def grantedScopes (claims : Claims) : List String :=
  match Json.get claims "permissions" with
  | some (.arr permissions) => permissions.map (Json.toStr printable)
  | _ =>
    match Json.get claims "scope" with
    | some (.str scope) => if Text.strip scope != "" then Text.words scope else []
    | _ => []

/-- `_principal_from_claims`. -/
def principalFromClaims (claims : Claims) : Except VerifyError Principal :=
  let noSubject := VerifyError.invalidToken "Bearer token has no subject ('sub') claim."
  match Json.get claims "sub" with
  | none => .error noSubject
  | some subject =>
    if !subject.truthy then .error noSubject
    else
      match subject with
      | .str s => .ok ⟨s, grantedScopes printable claims, claims⟩
      | _ => .error .validationError

end Claims

namespace Auth0Provider

variable {Key : Type} (provider : Auth0Provider Key) (pyJWT : PyJWT Key)

/-- `_algorithms`: the comma-separated setting, blanks dropped. -/
def algorithms : List String :=
  ((Text.split ',' provider.settings.auth0Algorithms).filter fun alg => Text.strip alg != "").map
    Text.strip

/-- The URL `_jwks_client` fetches keys from. -/
def jwksUrl : String := "https://" ++ provider.settings.auth0Domain ++ "/.well-known/jwks.json"

/-- `_resolve_signing_key`: the injected resolver, else the tenant's JWKS. -/
def resolveSigningKey (token : String) : Except PyJWTError Key :=
  match provider.signingKeyResolver with
  | some resolver => resolver token
  | none => pyJWT.getSigningKeyFromJwt provider.jwksUrl token

/-- The `jwt.decode` call of `verify`. -/
def decodeCall (token : String) (key : Key) : DecodeCall Key :=
  ⟨token, key, provider.algorithms, provider.settings.auth0ApiAudience,
    provider.settings.auth0Issuer, ["exp", "iss", "aud"]⟩

/-- The body of the `try`: resolve the key, decode the token. -/
def decodeToken (token : String) : Traced (VendorCall Key) PyJWTError Claims := do
  Traced.emit (.resolve token)
  let key ← Traced.lift (provider.resolveSigningKey pyJWT token)
  Traced.emit (.decode (provider.decodeCall token key))
  Traced.lift (pyJWT.decode (provider.decodeCall token key))

/-- The `except` clause: a caught class becomes `InvalidTokenError`. -/
def translate (e : PyJWTError) : VerifyError :=
  if e.caught then .invalidToken "Bearer token validation failed." else .vendor e

/-- `verify`. -/
def verify (printable : Char → Bool) (token : String) :
    Traced (VendorCall Key) VerifyError Principal := do
  Traced.lift (provider.settings.requireAuth0Config.mapError .runtimeError)
  let claims ← (provider.decodeToken pyJWT token).mapError translate
  Traced.lift (principalFromClaims printable claims)

/-- What `verify` ends with, as `current_principal` sees it. -/
def outcome (printable : Char → Bool) (token : String) : VerifyOutcome :=
  match (provider.verify pyJWT printable token).result with
  | .ok principal => .principal principal
  | .error (.invalidToken _) => .invalidToken
  | .error (.runtimeError _) => .raises "RuntimeError"
  | .error (.vendor _) => .raises "PyJWTError"
  | .error .validationError => .raises "ValidationError"

/-! ## The contract of `verify` -/

/-- What `AuthProvider.verify` promises: a principal, `InvalidTokenError`, or
`RuntimeError`; the last exactly when the tenant is not configured, and then
the vendor library is not called. -/
def VerifyContract (printable : Char → Bool) (token : String) : Prop :=
  let run := provider.verify pyJWT printable token
  ((∃ principal, run.result = .ok principal) ∨
    (∃ message, run.result = .error (.invalidToken message)) ∨
    (∃ message, run.result = .error (.runtimeError message))) ∧
  ((∃ message, run.result = .error (.runtimeError message)) ↔
    provider.settings.auth0Domain = "" ∨ provider.settings.auth0ApiAudience = "") ∧
  (provider.settings.auth0Domain = "" ∨ provider.settings.auth0ApiAudience = "" →
    run.trace = [])

/-- A subject the model of a principal takes: absent, false, or a string. PyJWT
itself refuses the others, with an `InvalidSubjectError` of `decode`. -/
def SubjectFits (claims : Claims) : Prop :=
  ∀ subject, Json.get claims "sub" = some subject →
    subject.truthy = true → subject.isStr = true

/-- The condition on the vendor's behaviour: whatever key resolution or `decode`
raises lies below `InvalidTokenError` or `PyJWKClientError`, and the claims
`decode` returns have no subject of another type than a string. -/
def VendorContained (token : String) : Prop :=
  match provider.resolveSigningKey pyJWT token with
  | .error e => e.isSubclass .invalidTokenError = true ∨ e.isSubclass .pyJWKClientError = true
  | .ok key =>
    match pyJWT.decode (provider.decodeCall token key) with
    | .error e => e.isSubclass .invalidTokenError = true ∨ e.isSubclass .pyJWKClientError = true
    | .ok claims => SubjectFits claims

variable {provider pyJWT}

/-- Without a configured tenant `verify` fails fast. -/
theorem verify_unconfigured {printable : Char → Bool} {token : String}
    (h : provider.settings.auth0Domain = "" ∨ provider.settings.auth0ApiAudience = "") :
    provider.verify pyJWT printable token =
      ⟨[], .error (.runtimeError provider.settings.missingAuth0Message)⟩ := by
  simp [verify, Settings.requireAuth0Config_error h, Except.mapError]

/-- With a configured tenant the outcome is that of the vendor calls. -/
theorem verify_configured {printable : Char → Bool} {token : String}
    (hd : provider.settings.auth0Domain ≠ "") (ha : provider.settings.auth0ApiAudience ≠ "") :
    (provider.verify pyJWT printable token).result =
      match provider.resolveSigningKey pyJWT token with
      | .error e => .error (translate e)
      | .ok key =>
        match pyJWT.decode (provider.decodeCall token key) with
        | .error e => .error (translate e)
        | .ok claims => principalFromClaims printable claims := by
  simp only [verify, Settings.requireAuth0Config_ok hd ha, Except.mapError, decodeToken,
    Traced.lift_eq, Traced.emit_eq, Traced.bind_ok]
  rcases provider.resolveSigningKey pyJWT token with e | key
  · rfl
  · simp only [Traced.bind_ok]
    rcases pyJWT.decode (provider.decodeCall token key) with e | claims <;> rfl

/-- Claims become a principal or an `InvalidTokenError` exactly when their
subject fits. -/
theorem principalFromClaims_contained_iff {printable : Char → Bool} {claims : Claims} :
    ((∃ p, principalFromClaims printable claims = .ok p) ∨
      ∃ m, principalFromClaims printable claims = .error (.invalidToken m)) ↔
      SubjectFits claims := by
  unfold principalFromClaims SubjectFits
  rcases hsub : Json.get claims "sub" with _ | subject
  · simp
  · cases htruthy : subject.truthy with
    | false => simp [htruthy]
    | true =>
      -- the model takes a string, and any other truthy value is its error
      cases subject <;> simp_all [Json.isStr]

/-- A translated exception keeps the contract exactly when it was caught. -/
theorem translate_contained_iff {e : PyJWTError} :
    (∃ m, translate e = .invalidToken m) ↔
      e.isSubclass .invalidTokenError = true ∨ e.isSubclass .pyJWKClientError = true := by
  rw [← PyJWTError.caught_iff, translate]
  cases e.caught <;> simp

theorem translate_ne_runtimeError {e : PyJWTError} {m : String} :
    translate e ≠ .runtimeError m := by
  rw [translate]
  cases e.caught <;> simp

theorem principalFromClaims_ne_runtimeError {printable : Char → Bool} {claims : Claims}
    {m : String} : principalFromClaims printable claims ≠ .error (.runtimeError m) := by
  unfold principalFromClaims
  rcases Json.get claims "sub" with _ | subject
  · simp
  · cases htruthy : subject.truthy with
    | false => simp [htruthy]
    | true => cases subject <;> simp_all

/-- The promised ways to end, for a configured tenant. -/
theorem ends_as_promised_iff {printable : Char → Bool} {token : String}
    (hd : provider.settings.auth0Domain ≠ "") (ha : provider.settings.auth0ApiAudience ≠ "") :
    ((∃ p, (provider.verify pyJWT printable token).result = .ok p) ∨
      ∃ m, (provider.verify pyJWT printable token).result = .error (.invalidToken m)) ↔
      provider.VendorContained pyJWT token := by
  rw [verify_configured hd ha, VendorContained]
  rcases provider.resolveSigningKey pyJWT token with e | key
  · simp [translate_contained_iff]
  · simp only
    rcases pyJWT.decode (provider.decodeCall token key) with e | claims
    · simp [translate_contained_iff]
    · exact principalFromClaims_contained_iff

/-- A configured tenant never sees the `RuntimeError`. -/
theorem verify_ne_runtimeError {printable : Char → Bool} {token : String}
    (hd : provider.settings.auth0Domain ≠ "") (ha : provider.settings.auth0ApiAudience ≠ "")
    (m : String) : (provider.verify pyJWT printable token).result ≠ .error (.runtimeError m) := by
  rw [verify_configured hd ha]
  rcases provider.resolveSigningKey pyJWT token with e | key
  · simp [translate_ne_runtimeError]
  · simp only
    rcases pyJWT.decode (provider.decodeCall token key) with e | claims
    · simp [translate_ne_runtimeError]
    · exact principalFromClaims_ne_runtimeError

/-- **When no vendor exception escapes**: `verify` keeps its contract exactly
when the tenant is not configured or the vendor library stays within the two
branches of its exception tree that the catch list covers (and returns no
claims with a subject that is no string). -/
theorem verify_contract_iff (provider : Auth0Provider Key) (pyJWT : PyJWT Key)
    (printable : Char → Bool) (token : String) :
    provider.VerifyContract pyJWT printable token ↔
      provider.settings.auth0Domain = "" ∨ provider.settings.auth0ApiAudience = "" ∨
        provider.VendorContained pyJWT token := by
  by_cases hcfg : provider.settings.auth0Domain = "" ∨ provider.settings.auth0ApiAudience = ""
  · -- it fails before the vendor library is called
    have hrun := @verify_unconfigured Key provider pyJWT printable token hcfg
    rw [← or_assoc]
    refine iff_of_true ?_ (Or.inl hcfg)
    rw [VerifyContract, hrun]
    exact ⟨Or.inr (Or.inr ⟨_, rfl⟩), iff_of_true ⟨_, rfl⟩ hcfg, fun _ => rfl⟩
  · obtain ⟨hd, ha⟩ := not_or.mp hcfg
    have hne : ¬ ∃ m, (provider.verify pyJWT printable token).result =
        .error (.runtimeError m) := by
      rintro ⟨m, hm⟩
      exact verify_ne_runtimeError hd ha m hm
    rw [VerifyContract, ← or_assoc, ← or_assoc, ends_as_promised_iff hd ha]
    simp [hne, hcfg]

/-- A token with the header `{"alg":"RS256","kid":"k1"}`. -/
def keyedToken : String := "eyJhbGciOiJSUzI1NiIsImtpZCI6ImsxIn0.e30.c2ln"

/-- PyJWT in front of a tenant whose key set is empty: `{"keys": []}` does not
parse as a key set. A text without a header that parses fails before the key set
is fetched, and without a key nothing decodes. -/
def emptyKeySet : PyJWT Unit where
  getSigningKeyFromJwt _ token :=
    if token = keyedToken then .error .pyJWKSetError else .error .decodeError
  decode _ := .error .invalidSignatureError

/-- An empty key set at the tenant: the `PyJWKSetError` of its parsing is in
neither branch, and escapes. -/
theorem verify_contract_fails_on_keySet :
    ¬ @Auth0Provider.VerifyContract Unit
      ⟨{ auth0Domain := "tenant.eu.auth0.com", auth0ApiAudience := "https://api/" }, none⟩
      emptyKeySet (fun _ => true) keyedToken := by
  rintro ⟨⟨p, hp⟩ | ⟨m, hm⟩ | ⟨m, hm⟩, -, -⟩
  · cases hp
  · cases hm
  · cases hm

end Auth0Provider

end KgaGateway
