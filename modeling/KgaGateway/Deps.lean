import KgaGateway.Authorization
import KgaGateway.Config

/-!
# The governance seam

`app/routers/deps.py`, and the parts of `app/example/auth.py` it rests on: the
caller gate `requireApiKey`, the check for a stored provider token, and the
handlers that turn the application's exceptions into responses.
-/

namespace KgaGateway

/-! ## Caller auth -/

/-- The `401` of the caller gate. -/
def invalidApiKey : Exn := .httpException 401 "Missing or invalid API key" []

/-- `require_api_key`: an empty configuration leaves the surface unguarded. -/
def requireApiKey (settings : Settings) (xApiKey : Option String) : Except Exn Unit :=
  let allowed := settings.apiKeySet
  -- caller auth is disabled
  if allowed.isEmpty then .ok ()
  else
    match xApiKey with
    | none => .error invalidApiKey
    | some key => if allowed.contains key then .ok () else .error invalidApiKey

/-- The caller gate lets a key through. -/
def KeyAdmits (settings : Settings) (xApiKey : Option String) : Prop :=
  settings.apiKeySet = [] ∨ ∃ key, xApiKey = some key ∧ key ∈ settings.apiKeySet

theorem requireApiKey_of_admits {settings : Settings} {xApiKey : Option String}
    (h : KeyAdmits settings xApiKey) : requireApiKey settings xApiKey = .ok () := by
  rcases h with h | ⟨key, rfl, hmem⟩
  · simp [requireApiKey, h]
  · simp [requireApiKey, hmem]

theorem requireApiKey_of_not_admits {settings : Settings} {xApiKey : Option String}
    (h : ¬ KeyAdmits settings xApiKey) :
    requireApiKey settings xApiKey = .error invalidApiKey := by
  obtain ⟨hne, hkey⟩ := not_or.mp h
  cases xApiKey with
  | none => simp [requireApiKey, hne]
  | some key =>
    have hnot : key ∉ settings.apiKeySet := fun hmem => hkey ⟨key, rfl, hmem⟩
    simp [requireApiKey, hne, hnot]

/-- The gate admits what is in the key set, and everything if that is empty. -/
theorem requireApiKey_eq_ok_iff {settings : Settings} {xApiKey : Option String} :
    requireApiKey settings xApiKey = .ok () ↔ KeyAdmits settings xApiKey := by
  constructor
  · intro h
    by_contra hnot
    rw [requireApiKey_of_not_admits hnot] at h
    cases h
  · exact requireApiKey_of_admits

/-- A guarded surface admits nothing but keys. -/
theorem isKey_of_admitted {settings : Settings} {value : String} (hne : settings.apiKeySet ≠ [])
    (h : requireApiKey settings (some value) = .ok ()) : Settings.IsKey value := by
  rcases requireApiKey_eq_ok_iff.mp h with hnil | ⟨key, hkey, hmem⟩
  · exact absurd hnil hne
  · obtain rfl := Option.some.inj hkey
    exact Settings.isKey_of_mem_apiKeySet hmem

/-- **The configured keys and no others**: however a list of keys is written
down, a request is admitted exactly with one of them, and never without a
header, with a blank value, a padded one or one with a comma. Whatever the
string is, a request without a key is admitted exactly when every segment is
blank. -/
theorem requireApiKey_admits_listed :
    (∀ (settings : Settings) (keys segments : List String), keys ≠ [] →
      (∀ key ∈ keys, Settings.IsKey key) → Settings.Lists keys segments →
      settings.apiKeys = ",".intercalate segments →
        (∀ xApiKey, requireApiKey settings xApiKey = .ok () ↔ ∃ key ∈ keys, xApiKey = some key) ∧
        requireApiKey settings none = .error invalidApiKey ∧
        (∀ value, Text.Blank value ∨ ¬ Text.Trimmed value ∨ ',' ∈ value.toList →
          requireApiKey settings (some value) = .error invalidApiKey)) ∧
    (∀ settings : Settings, requireApiKey settings none = .ok () ↔
      ∀ segment ∈ Text.split ',' settings.apiKeys, Text.Blank segment) := by
  refine ⟨?_, ?_⟩
  · intro settings keys segments hne hkeys hlists hs
    have hset : settings.apiKeySet = keys := Settings.apiKeySet_of_lists hne hkeys hlists hs
    have hguarded : settings.apiKeySet ≠ [] := by rwa [hset]
    refine ⟨?_, ?_, ?_⟩
    · intro xApiKey
      rw [requireApiKey_eq_ok_iff, KeyAdmits, hset, or_iff_right hne]
      constructor
      · rintro ⟨key, hkey, hmem⟩
        exact ⟨key, hmem, hkey⟩
      · rintro ⟨key, hmem, hkey⟩
        exact ⟨key, hkey, hmem⟩
    · apply requireApiKey_of_not_admits
      rintro (hnil | ⟨key, hkey, -⟩)
      · exact hguarded hnil
      · cases hkey
    · intro value hvalue
      refine requireApiKey_of_not_admits fun hadmits => ?_
      have hkey := isKey_of_admitted hguarded (requireApiKey_of_admits hadmits)
      rcases hvalue with hblank | htrim | hcomma
      · exact Text.not_trimmed_of_blank hkey.ne_empty hblank hkey.trimmed
      · exact htrim hkey.trimmed
      · exact hkey.no_comma hcomma
  · intro settings
    rw [requireApiKey_eq_ok_iff, KeyAdmits, Settings.apiKeySet_eq_nil_iff]
    simp

/-- Two keys in padding, with a blank segment between them: both are admitted,
the padding is not, and neither is a request without a key. -/
theorem requireApiKey_admits_listed_of_padding :
    let settings : Settings := { apiKeys := " k1 ,, k2" }
    requireApiKey settings (some "k1") = .ok () ∧ requireApiKey settings (some "k2") = .ok () ∧
      requireApiKey settings (some " k1 ") = .error invalidApiKey ∧
      requireApiKey settings none = .error invalidApiKey := by
  intro settings
  have hkeys : ∀ key ∈ ["k1", "k2"], Settings.IsKey key := by
    simp only [List.forall_mem_cons]
    exact ⟨⟨by decide, by decide, by decide⟩, ⟨by decide, by decide, by decide⟩,
      fun _ h => absurd h List.not_mem_nil⟩
  have hblank : Text.Blank " " := by decide
  have hnone : Text.Blank "" := by decide
  have hlists : Settings.Lists ["k1", "k2"] [" " ++ "k1" ++ " ", "", " " ++ "k2" ++ ""] :=
    .key "k1" hblank hblank (.blank hnone (.key "k2" hblank hnone .nil))
  obtain ⟨hadmits, hmissing, hrejects⟩ := requireApiKey_admits_listed.1 settings ["k1", "k2"] _
    (List.cons_ne_nil _ _) hkeys hlists (by decide)
  have hpadded : ¬Text.Trimmed " k1 " := by decide
  exact ⟨(hadmits _).mpr ⟨"k1", by decide, rfl⟩, (hadmits _).mpr ⟨"k2", by decide, rfl⟩,
    hrejects " k1 " (Or.inr (Or.inl hpadded)), hmissing⟩

/-! ## The bearer token -/

/-- The header grammar: cut at its first space, the scheme is `bearer` ignoring
case and the rest is not all whitespace; the token is the rest, trimmed. -/
def BearerToken (authorization : Option String) (token : String) : Prop :=
  ∃ scheme rest : String, authorization = some (scheme ++ " " ++ rest) ∧
    ' ' ∉ scheme.toList ∧ Text.lower scheme = "bearer" ∧
    (¬ ∀ c ∈ rest.toList, Text.isSpace c = true) ∧ token = Text.strip rest

/-- A header with a token: the provider is asked about it, once. -/
theorem currentPrincipal_of_bearerToken {verify : String → VerifyOutcome}
    {authorization : Option String} {token : String} (h : BearerToken authorization token) :
    currentPrincipal verify authorization =
      ⟨[.verify token], match verify token with
        | .principal p => .ok p
        | .invalidToken => .error invalidBearer
        | .raises cls => .error (.unhandled cls)⟩ := by
  obtain ⟨scheme, rest, rfl, hscheme, hlower, hrest, rfl⟩ := h
  have hne : scheme ++ " " ++ rest ≠ "" := by
    intro he
    have := congrArg String.toList he
    simp at this
  have hcut : Text.partition ' ' (scheme ++ " " ++ rest) = (scheme, " ", rest) :=
    Text.partition_append hscheme rest
  have hstrip : Text.strip rest ≠ "" := fun he => hrest ((Text.strip_eq_empty_iff rest).mp he)
  simp only [currentPrincipal, beq_eq_false_iff_ne.mpr hne, hcut, hlower, bne_self_eq_false,
    beq_eq_false_iff_ne.mpr hstrip, Bool.or_self, Bool.false_eq_true, if_false,
    Traced.emit_eq, Traced.bind_ok]
  cases verify (Text.strip rest) <;> rfl

/-- A header without a token is rejected before the provider is asked. -/
theorem currentPrincipal_of_not_bearerToken {verify : String → VerifyOutcome}
    {authorization : Option String} (h : ¬ ∃ token, BearerToken authorization token) :
    currentPrincipal verify authorization = ⟨[], .error missingBearer⟩ := by
  cases authorization with
  | none => rfl
  | some header =>
    by_cases hempty : header = ""
    · simp [currentPrincipal, hempty]
    · rcases Text.cut_cases ' ' header with hcut | ⟨scheme, rest, hscheme, rfl⟩
      · -- no space: there is no rest
        have hstrip : Text.strip "" = "" := by decide
        simp [currentPrincipal, hempty, Text.partition_of_not_mem hcut, hstrip]
      · have hbad : Text.lower scheme ≠ "bearer" ∨ Text.strip rest = "" := by
          by_contra hgood
          obtain ⟨hlower, hstrip⟩ := not_or.mp hgood
          refine h ⟨Text.strip rest, scheme, rest, rfl, hscheme, not_not.mp hlower, ?_, rfl⟩
          exact fun hspace => hstrip ((Text.strip_eq_empty_iff rest).mpr hspace)
        simp only [currentPrincipal, beq_eq_false_iff_ne.mpr hempty, Bool.false_eq_true, if_false,
          Text.partition_append hscheme rest]
        rcases hbad with hbad | hbad <;> simp [hbad]

/-- A header has at most one token. -/
theorem BearerToken.unique {authorization : Option String} {token token' : String}
    (h : BearerToken authorization token) (h' : BearerToken authorization token') :
    token = token' := by
  have hrun := @currentPrincipal_of_bearerToken (fun _ => .invalidToken) _ _ h
  rw [currentPrincipal_of_bearerToken h'] at hrun
  have htrace := congrArg Traced.trace hrun
  simpa using htrace.symm

/-! ## Provider auth -/

/-- `login_url`: the app-relative provider login path. -/
def loginUrl : String := apiPrefix ++ "/auth/login"

/-- `ensure_valid_token`, given what the token store loads: nothing stored or
an empty token means the provider must be authorized first. -/
def ensureValidToken (token : Option (List (String × Json))) : Except Exn Unit :=
  match token with
  | none => .error (.providerAuthError "No provider token stored; authorization required.")
  | some members =>
    if members.isEmpty then
      .error (.providerAuthError "No provider token stored; authorization required.")
    else .ok ()

/-! ## The deployment -/

/-- What a request meets: the settings, the active identity provider, the
framework, what the token store loads, and the third-party provider as the HTTP
client reports it. -/
structure Deployment : Type where
  settings : Settings
  verify : String → VerifyOutcome
  framework : Framework
  store : Option (List (String × Json))
  provider : ProviderRequest → ProviderOutcome

/-- The key gate lets the request through. -/
def Request.keyAdmitted (req : Request) (deployment : Deployment) : Prop :=
  KeyAdmits deployment.settings (req.header "X-API-Key")

/-! ## Exception handlers -/

/-- `_absolute_login_url`. -/
def absoluteLoginUrl (req : Request) : String := Text.rstrip '/' req.baseUrl ++ loginUrl

/-- `provider_auth_exception_handler`: browsers are redirected to the login
path, API clients get a `503` that carries it. -/
def providerAuthExceptionHandler (req : Request) : Response :=
  let target := absoluteLoginUrl req
  let accept := (req.header "accept").getD ""
  if Text.contains accept "text/html" then redirectResponse target 307
  else ⟨503, [], .json (.obj [("detail", .str "Provider authorization required"),
    ("login_url", .str target)])⟩

/-- `insufficient_scope_exception_handler`. -/
def insufficientScopeExceptionHandler (required : String) : Response :=
  ⟨403, [("WWW-Authenticate", "Bearer error=\"insufficient_scope\", scope=\"" ++ required ++ "\"")],
    .json (.obj [("detail", .str "Insufficient scope"), ("required", .str required)])⟩

/-- The registered handlers: the framework's own for `HTTPException` and
validation errors, and the two of `register_exception_handlers`. An exception
without a handler, or one raised by a handler, stays an exception. -/
def exceptionHandler (framework : Framework) (req : Request) : Exn → Except Exn Response
  | .httpException status detail headers =>
    Response.build ⟨status, headers, detailBody detail⟩
  | .requestValidationError errors =>
    match framework.errorDetail req.query req.body errors with
    | some detail => Response.build ⟨422, [], .json (.obj [("detail", detail)])⟩
    -- the copy of the input has no JSON text
    | none => .error (.unhandled "ValueError")
  | .providerAuthError _ => Response.build (providerAuthExceptionHandler req)
  | .insufficientScopeError required => Response.build (insufficientScopeExceptionHandler required)
  | .unhandled cls => .error (.unhandled cls)

/-- The answer to a `ProviderAuthError` can be built. -/
theorem build_providerAuth (req : Request) :
    Response.build (providerAuthExceptionHandler req) = .ok (providerAuthExceptionHandler req) := by
  have hquote := Text.isLatin1_quote (show ∀ c ∈ redirectSafe, c.toNat < 256 by simp [redirectSafe])
    (absoluteLoginUrl req)
  rw [providerAuthExceptionHandler]
  by_cases h : Text.contains ((req.header "accept").getD "") "text/html" = true
  · simp [h, redirectResponse, Response.build, hquote]
  · simp [h, Response.build]

/-- What the result of a route is answered with: the response, the rendering of
a handled exception, or the server's `500`. What is audited on the way, and that
the auditing may raise, is in `Main` (`serve_response`). -/
def clientResponse (framework : Framework) (req : Request) : Except Exn Response → Response
  | .ok response => response
  | .error e =>
    match exceptionHandler framework req e with
    | .ok response => response
    | .error _ => internalServerError

theorem clientResponse_of_handled {framework : Framework} {req : Request} {e : Exn}
    {response : Response} (h : exceptionHandler framework req e = .ok response) :
    clientResponse framework req (.error e) = response := by
  simp only [clientResponse, h]

/-- Validation errors are answered with a `422`, if they can be rendered. -/
theorem clientResponse_of_invalid {framework : Framework} {req : Request}
    {errors : List FieldError} {detail : Json}
    (h : framework.errorDetail req.query req.body errors = some detail) :
    clientResponse framework req (.error (.requestValidationError errors)) =
      ⟨422, [], .json (.obj [("detail", detail)])⟩ := by
  simp only [clientResponse, exceptionHandler, h]
  rfl

/-- And with a `500` otherwise. -/
theorem clientResponse_of_unrendered {framework : Framework} {req : Request}
    {errors : List FieldError} (h : framework.errorDetail req.query req.body errors = none) :
    clientResponse framework req (.error (.requestValidationError errors)) =
      internalServerError := by
  simp only [clientResponse, exceptionHandler, h]

/-- Either way the status is about neither key nor token. -/
theorem status_of_invalid (framework : Framework) (req : Request) (errors : List FieldError) :
    (clientResponse framework req (.error (.requestValidationError errors))).status = 422 ∨
      (clientResponse framework req (.error (.requestValidationError errors))).status = 500 := by
  cases hdetail : framework.errorDetail req.query req.body errors with
  | some detail => exact Or.inl (by rw [clientResponse_of_invalid hdetail])
  | none => exact Or.inr (by rw [clientResponse_of_unrendered hdetail]; rfl)

end KgaGateway
