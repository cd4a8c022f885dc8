import KgaGateway.Process
import KgaGateway.Surface

/-!
# A request refines the application

The threads of the process agree on what is cached: the settings `create_app`
read, and what was computed from them. On such answers a request asks nothing
improper. It does not make new settings out of the environment, fetches keys
from the tenant of these settings only, and caches nothing else.

Under this agreement every program of `Process.lean` refines its counterpart
of the application, taken at the deployment that has these settings. The
lemmas follow the programs, one by one, up to `serve_refines`.
-/

namespace KgaGateway

open Dialogue

variable {Key : Type}

/-! ## The agreement -/

/-- What one request sees of the world: the identity library, the provider, and
the token it loads. -/
structure View (Key : Type) : Type where
  external : External Key
  store : Option (List (String × Json))

/-- The deployment of the settings at boot, as one request sees it. -/
def View.deployment (boot : AppSettings) (framework : Framework) (printable : Char → Bool)
    (view : View Key) : Deployment where
  settings := boot.toSettings
  verify := (Proc.auth0 Key boot).outcome view.external.pyJWT printable
  framework := framework
  store := view.store
  provider := view.external.provider

/-- What may be in a cache. -/
def Cell.Holds (boot : AppSettings) : (c : Cell) → c.Val → Prop
  | .settings, v => v = boot
  | .tokenStore, v => v = boot.tokenStorePath
  | .provider, v => v.settings = boot
  | .jwksClient _, v => v = (Proc.auth0 Unit boot).jwksUrl

/-- What is agreed about the questions, for the settings at boot. -/
def agreement (boot : AppSettings) : Interface (Call Key) Call.Ans Event (View Key) where
  proper
    | .settings => False
    | .keep c v => c.Holds boot v
    | .fetchKey url _ => url = (Proc.auth0 Key boot).jwksUrl
    | .decode call => ∃ token key, call = (Proc.auth0 Key boot).decodeCall token key
    | .beginLoad path => path = boot.tokenStorePath
    | .endLoad path => path = boot.tokenStorePath
    | _ => True
  allowed
    | .lookup .settings, found => found = some boot
    | .lookup c, found => ∀ v, found = some v → c.Holds boot v
    | _, _ => True
  sees view
    | .fetchKey url token, fetched => fetched = view.external.pyJWT.getSigningKeyFromJwt url token
    | .decode call, decoded => decoded = view.external.pyJWT.decode call
    | .endLoad _, result => result = .ok (view.store.map .obj)
    | .send request, outcome => outcome = view.external.provider request
    | _, _ => True
  shows
    | .event e => some e
    | .send request => some (.send request)
    | _ => none

variable {boot : AppSettings} {printable : Char → Bool} {framework : Framework}

theorem holds_of_allowed {c : Cell} {found : Option c.Val}
    (h : (@agreement Key boot).allowed (.lookup c) found) {v : c.Val}
    (hv : found = some v) : c.Holds boot v := by
  cases c with
  | settings =>
    obtain rfl : found = some boot := h
    exact (Option.some.inj hv).symm
  | _ => exact h v hv

/-! ## The caches -/

/-- Behind a cache there is what belongs there, whoever put it there. -/
theorem silent_cached {Err : Type} {c : Cell} {compute : Proc Key Err c.Val}
    (h : compute.Silent (agreement boot) (c.Holds boot)) :
    (Proc.cached c compute).Silent (agreement boot) (c.Holds boot) := by
  refine silent_ask trivial rfl fun found hfound => ?_
  cases found with
  | some v => exact silent_done (holds_of_allowed hfound rfl)
  | none =>
    refine h.bind_silent fun v hv => ?_
    exact silent_ask hv rfl fun _ _ => silent_done hv

/-- `get_settings` returns what `create_app` read. -/
theorem silent_getSettings :
    (Proc.getSettings : Proc Key Exn AppSettings).Silent (agreement boot) (· = boot) := by
  refine silent_ask trivial rfl fun found hfound => ?_
  obtain rfl : found = some boot := hfound
  exact silent_done rfl

theorem silent_getTokenStore : (Proc.getTokenStore : Proc Key Exn String).Silent (agreement boot)
    (· = boot.tokenStorePath) := by
  refine silent_cached (c := .tokenStore) ?_
  refine silent_getSettings.bind_silent fun settings hsettings => ?_
  exact silent_done (congrArg AppSettings.tokenStorePath hsettings)

/-- `get_provider` returns an object with these settings; its last branch is
never taken. -/
theorem silent_getProvider : (Proc.getProvider : Proc Key Exn ProviderObject).Silent
    (agreement boot) (·.settings = boot) := by
  refine silent_cached (c := .provider) ?_
  refine silent_getSettings.bind_silent fun settings hsettings => ?_
  have hauth0 : (settings.authProvider == "auth0") = true :=
    beq_iff_eq.mpr (List.mem_singleton.mp settings.authProvider_mem)
  rw [if_pos hauth0]
  refine silent_getSettings.bind_silent fun captured hcaptured => ?_
  exact silent_ask trivial rfl fun id _ => silent_done hcaptured

theorem silent_jwksClient {Err : Type} {object : ProviderObject} (h : object.settings = boot) :
    (Proc.jwksClient object : Proc Key Err String).Silent (agreement boot)
      (· = (Proc.auth0 Key boot).jwksUrl) := by
  refine silent_cached (c := .jwksClient object.id) ?_
  refine silent_done ?_
  rw [h]
  rfl

/-! ## Authentication -/

/-- What `verify` answers, once `decode` has. -/
def afterDecode (printable : Char → Bool) :
    Except PyJWTError Claims → Except VerifyError Principal
  | .error e => .error (Auth0Provider.translate e)
  | .ok claims => principalFromClaims printable claims

/-- What `verify` answers, once the key set has. -/
def afterFetch (printable : Char → Bool) (provider : Auth0Provider Key) (pyJWT : PyJWT Key)
    (token : String) : Except PyJWTError Key → Except VerifyError Principal
  | .error e => .error (Auth0Provider.translate e)
  | .ok key => afterDecode printable (pyJWT.decode (provider.decodeCall token key))

/-- `Auth0Provider.verify` ends as in the model of the provider. -/
theorem verify_refines {object : ProviderObject} (h : object.settings = boot) (token : String) :
    (Proc.verify printable object token : Proc Key VerifyError Principal).Refines (agreement boot)
      fun view =>
        ⟨[], ((Proc.auth0 Key boot).verify view.external.pyJWT printable token).result⟩ := by
  obtain ⟨id, settings⟩ := object
  obtain rfl : settings = boot := h
  by_cases hcfg : settings.auth0Domain = "" ∨ settings.auth0ApiAudience = ""
  · rw [Proc.verify, Settings.requireAuth0Config_error hcfg]
    refine refines_done fun view => ?_
    rw [Auth0Provider.verify_unconfigured hcfg]
    rfl
  · obtain ⟨hd, ha⟩ := not_or.mp hcfg
    rw [Proc.verify, Settings.requireAuth0Config_ok hd ha]
    refine (silent_jwksClient rfl).bind fun url hurl => ?_
    subst hurl
    refine refines_ask (fun fetched view => ⟨[],
      afterFetch printable (Proc.auth0 Key settings) view.external.pyJWT token fetched⟩) rfl ?_ ?_
    · rintro (e | key) -
      · exact refines_done fun view => rfl
      · dsimp only
        refine refines_ask (fun decoded _ => ⟨[], afterDecode printable decoded⟩)
          ⟨token, key, rfl⟩ ?_ ?_
        · rintro (e | claims) -
          · exact refines_done fun view => rfl
          · exact refines_done fun view => rfl
        · rintro decoded view rfl
          rfl
    · rintro fetched view rfl
      have hresolve : (Proc.auth0 Key settings).resolveSigningKey view.external.pyJWT token =
          view.external.pyJWT.getSigningKeyFromJwt (Proc.auth0 Key settings).jwksUrl token := rfl
      rw [Auth0Provider.verify_configured hd ha, hresolve]
      cases view.external.pyJWT.getSigningKeyFromJwt (Proc.auth0 Key settings).jwksUrl token with
      | error e => rfl
      | ok key =>
        cases view.external.pyJWT.decode ((Proc.auth0 Key settings).decodeCall token key) <;> rfl

/-- What `current_principal` makes of the end of `verify`. -/
theorem mapError_rejected (provider : Auth0Provider Key) (pyJWT : PyJWT Key) (token : String) :
    (provider.verify pyJWT printable token).result.mapError Proc.rejected =
      match provider.outcome pyJWT printable token with
      | .principal p => .ok p
      | .invalidToken => .error invalidBearer
      | .raises cls => .error (.unhandled cls) := by
  rw [Auth0Provider.outcome]
  rcases (provider.verify pyJWT printable token).result with e | principal
  · cases e <;> rfl
  · rfl

theorem currentPrincipal_refines (authorization : Option String) :
    (Proc.currentPrincipal printable authorization : Proc Key Exn Principal).Refines
      (agreement boot) fun view =>
        currentPrincipal (view.deployment boot framework printable).verify authorization := by
  cases authorization with
  | none => exact refines_done fun view => rfl
  | some header =>
    by_cases hempty : (header == "") = true
    · simp only [Proc.currentPrincipal, currentPrincipal, hempty, if_true]
      exact refines_done fun view => rfl
    · by_cases hscheme : (Text.lower (Text.partition ' ' header).1 != "bearer" ||
          Text.strip (Text.partition ' ' header).2.2 == "") = true
      · simp only [Proc.currentPrincipal, currentPrincipal, hempty, hscheme, if_true]
        exact refines_done fun view => rfl
      · simp only [Proc.currentPrincipal, currentPrincipal, hempty, hscheme]
        refine silent_getProvider.bind fun object hobject => ?_
        refine refines_ask (fun _ view => ⟨[], ((Proc.auth0 Key boot).verify view.external.pyJWT
          printable (Text.strip (Text.partition ' ' header).2.2)).result.mapError Proc.rejected⟩)
          trivial ?_ ?_
        · intro _ _
          refine (verify_refines hobject _).attempt.bind (g := fun _ verdict =>
            Traced.lift (verdict.mapError Proc.rejected)) fun verdict => ?_
          exact refines_done fun _ => rfl
        · intro _ view _
          rw [mapError_rejected]
          simp only [View.deployment]
          cases (Proc.auth0 Key boot).outcome view.external.pyJWT printable
            (Text.strip (Text.partition ' ' header).2.2) <;> rfl

/-! ## The gates and the services -/

theorem requireApiKey_refines (req : Request) :
    (Proc.requireApiKey req : Proc Key Exn Unit).Refines (agreement boot) fun view =>
      Traced.lift (requireApiKey (view.deployment boot framework printable).settings
        (req.header "X-API-Key")) := by
  refine silent_getSettings.bind fun settings hsettings => ?_
  subst hsettings
  exact refines_done fun view => rfl

theorem scopedPrincipal_refines (scope : String) (req : Request) :
    (Proc.scopedPrincipal printable scope req : Proc Key Exn Principal).Refines (agreement boot)
      fun view => scopedPrincipal (view.deployment boot framework printable).verify
        (fun principal => checkScopes principal [scope]) (req.header "Authorization") :=
  (currentPrincipal_refines (req.header "Authorization")).bind
    (g := fun _ principal => Traced.lift ((checkScopes principal [scope]).mapError ScopeError.toExn))
    fun _ => refines_done fun _ => rfl

theorem runRoute_refines {P A : Type} {decorators : Proc Key Exn Unit}
    {parameters : Proc Key Exn P} {arguments : Except (List FieldError) A}
    {endpoint : P → A → Proc Key Exn Response} {decorators' : View Key → App Unit}
    {parameters' : View Key → App P} {g : View Key → P → A → App Response}
    (hdecorators : decorators.Refines (agreement boot) decorators')
    (hparameters : parameters.Refines (agreement boot) parameters')
    (hendpoint : ∀ p a, (endpoint p a).Refines (agreement boot) fun view => g view p a) :
    (Proc.runRoute decorators parameters arguments endpoint).Refines (agreement boot) fun view =>
      runRoute (decorators' view) (parameters' view) arguments (g view) := by
  cases arguments with
  | error errors =>
    refine hdecorators.bind (g := fun view _ => parameters' view >>= fun _ =>
      Traced.raise (.requestValidationError errors)) fun _ => ?_
    refine hparameters.bind (g := fun _ _ => Traced.raise (.requestValidationError errors)) ?_
    exact fun _ => refines_done fun _ => rfl
  | ok a =>
    refine hdecorators.bind (g := fun view _ => parameters' view >>= fun p => g view p a)
      fun _ => ?_
    exact hparameters.bind (g := fun view p => g view p a) fun p => hendpoint p a

/-- A finance route. -/
theorem financeRoute_refines (route : Route) (req : Request) :
    (Proc.financeRoute framework printable route req : Proc Key Exn Response).Refines
      (agreement boot) fun view => route.run (view.deployment boot framework printable) req := by
  refine runRoute_refines (g := fun _ _ arg => route.endpoint framework arg)
    (requireApiKey_refines req) (scopedPrincipal_refines route.scope req) fun _ arg => ?_
  refine refines_ask (fun _ _ => Traced.lift
    (framework.respond route.model route.status (route.service arg))) trivial ?_ ?_
  · exact fun _ _ => refines_done fun _ => rfl
  · exact fun _ _ _ => rfl

/-! ## The token and the provider -/

/-- `load` returns the token the request sees. -/
theorem loadToken_refines : (Proc.loadToken : Proc Key Exn (Option Json)).Refines (agreement boot)
    fun view => ⟨[], .ok (view.store.map .obj)⟩ := by
  refine silent_getTokenStore.bind fun path hpath => ?_
  subst hpath
  refine refines_ask (fun _ view => ⟨[], .ok (view.store.map .obj)⟩) rfl ?_ fun _ _ _ => rfl
  intro _ _
  refine refines_ask (fun result view => match result with
    | .ok token => ⟨[], .ok token⟩
    | .error _ => Traced.raise (.unhandled "JSONDecodeError")) rfl ?_ ?_
  · rintro (⟨⟩ | token) -
    · exact refines_done fun _ => rfl
    · exact refines_done fun _ => rfl
  · rintro result view rfl
    rfl

theorem ensureValidToken_refines : (Proc.ensureValidToken : Proc Key Exn Unit).Refines
    (agreement boot) fun view => Traced.lift (ensureValidToken view.store) := by
  refine (loadToken_refines.bind (g := fun _ token => Traced.lift
    (if (token.getD .null).truthy then .ok ()
      else .error (.providerAuthError "No provider token stored; authorization required.")))
    fun token => ?_).congr fun view => ?_
  · cases (token.getD .null).truthy <;> exact refines_done fun _ => rfl
  · rcases view.store with _ | members
    · rfl
    · cases members <;> rfl

theorem requireProviderAuth_refines :
    (Proc.requireProviderAuth : Proc Key Exn ExampleService).Refines (agreement boot) fun view =>
      Traced.lift (requireProviderAuth (view.deployment boot framework printable)) := by
  refine (ensureValidToken_refines.bind (g := fun _ _ => ⟨[], .ok (getExampleService
    boot.toSettings)⟩) fun _ => ?_).congr fun view => ?_
  · refine silent_getSettings.bind fun settings hsettings => ?_
    subst hsettings
    exact refines_done fun _ => rfl
  · simp only [requireProviderAuth, View.deployment]
    rcases ensureValidToken view.store with e | u <;> rfl

/-- A service method sends its request and maps the outcome. -/
theorem callService_refines (service : ExampleService) (route : ExampleRoute) (arg : route.Arg) :
    (Proc.callService service route arg : Proc Key Exn Json).Refines (agreement boot) fun view =>
      route.call (view.deployment boot framework printable).provider service arg := by
  refine refines_ask (fun outcome _ => ⟨[], (ExampleService.mapped outcome).map route.finish⟩)
    trivial ?_ ?_
  · intro outcome _
    change Dialogue.Refines _ (Dialogue.lift (ExampleService.mapped outcome) >>= fun data =>
      return route.finish data) _
    cases ExampleService.mapped outcome <;> exact refines_done fun _ => rfl
  · rintro outcome view rfl
    exact ExampleRoute.call_eq ..

/-- A route of the example surface. -/
theorem exampleRoute_refines (route : ExampleRoute) (req : Request) :
    (Proc.exampleRoute framework route req : Proc Key Exn Response).Refines (agreement boot)
      fun view => route.run (view.deployment boot framework printable) req := by
  refine runRoute_refines (g := fun view service arg =>
    route.call (view.deployment boot framework printable).provider service arg >>= fun value =>
      Traced.lift (framework.respond route.model route.status value))
    (requireApiKey_refines req) requireProviderAuth_refines fun service arg => ?_
  exact (callService_refines service route arg).bind fun value => refines_done fun _ => rfl

/-! ## A request -/

/-- The application at the deployment a request sees. -/
def View.app (boot : AppSettings) (framework : Framework) (printable : Char → Bool)
    (other : Request → Except Exn Response) (view : View Key) (req : Request) : App Response :=
  match resolve req with
  | some route => route.run (view.deployment boot framework printable) req
  | none => Traced.lift (other req)

theorem handle_refines (other : Request → Except Exn Response) (req : Request) :
    (Proc.handle framework printable other boot req : Proc Key Exn Response).Refines
      (agreement boot) fun view => view.app boot framework printable other req := by
  simp only [Proc.handle, View.app, resolve]
  cases exampleRoute req with
  | some route => exact exampleRoute_refines route req
  | none =>
    rw [← financeRoute]
    cases financeRoute req with
    | some route => exact financeRoute_refines route.route req
    | none =>
      by_cases hhealth : (req.method == "GET" && pathMatches "/health" req.path) = true
      · simp only [hhealth, if_true]
        exact refines_done fun _ => rfl
      · simp only [hhealth]
        exact refines_done fun _ => rfl

/-- What the layers around a route make of its result. -/
def answer (framework : Framework) (req : Request) (result : Except Exn Response) :
    List AuditRecord × Response :=
  serve framework (fun _ => Traced.lift result) req

theorem serve_eq_answer (app : Request → App Response) (req : Request) :
    serve framework app req = answer framework req (app req).result := by
  have hsame : exceptionMiddleware framework (fun _ => Traced.lift (app req).result) req =
      exceptionMiddleware framework app req := rfl
  rw [answer, serve_eq, serve_eq, hsame]

/-- A response goes back through the middleware. -/
theorem answer_of_ok {result : Except Exn Response} {req : Request} {response : Response}
    (h : exceptionMiddleware framework (fun _ => Traced.lift result) req = .ok response) :
    answer framework req result = Proc.serve.audited framework req response := by
  rw [answer, serve_eq, h, Proc.serve.audited, urlPath]
  cases framework.urlPath req.baseUrl req.path <;> rfl

/-- A request, with the record it leaves. -/
theorem serve_refines (other : Request → Except Exn Response) (req : Request) :
    (Proc.serve framework printable other boot req :
        Proc Key Exn (List AuditRecord × Response)).Refines (agreement boot) fun view =>
      ⟨(view.app boot framework printable other req).trace,
        .ok (serve framework (view.app boot framework printable other) req)⟩ := by
  refine ((handle_refines other req).attempt.bind (g := fun _ result =>
    ⟨[], .ok (answer framework req result)⟩) fun result => ?_).congr fun view => ?_
  · rcases result with e | response
    · rcases hhandled : exceptionHandler framework req e with e' | response
      · simp only [hhandled]
        have hm : exceptionMiddleware framework (fun _ => Traced.lift (.error e)) req = .error e' :=
          hhandled
        refine refines_done fun _ => ?_
        rw [answer, serve_of_error hm]
      · simp only [hhandled]
        have hm : exceptionMiddleware framework (fun _ => Traced.lift (.error e)) req = .ok response :=
          hhandled
        refine refines_done fun _ => ?_
        rw [answer_of_ok hm]
    · have hm : exceptionMiddleware framework (fun _ => Traced.lift (.ok response)) req = .ok response := rfl
      refine refines_done fun _ => ?_
      rw [answer_of_ok hm]
  · rw [serve_eq_answer]
    simp

end KgaGateway
