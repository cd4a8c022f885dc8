import KgaGateway.Surface

/-!
# What a response and a log may tell

The audit log records a marker that a key was sent, never the key; a `403`
names a scope, never the caller's token or grants; health shows nothing but
the environment. `serve_reveals` says this for the application as a whole, as
a statement about two requests to two deployments: if they agree on what is
public and on the verdicts of the gates, then the response, the audit record
and everything sent to a provider are the same, whatever the keys, the tokens,
the grants and the configured secrets are.
-/

namespace KgaGateway

open Scopes

/-! ## What is public -/

/-- The parts of a request that are no credentials. -/
structure PublicParts : Type where
  method : String
  path : String
  query : List (String × String)
  body : Option Json
  baseUrl : String
  accept : Option String
  /-- the marker of the audit log -/
  keyPresent : Bool

/-- Those of a request. -/
def Request.publicParts (req : Request) : PublicParts where
  method := req.method
  path := req.path
  query := req.query
  body := req.body
  baseUrl := req.baseUrl
  accept := req.header "accept"
  keyPresent := (req.header "X-API-Key").isSome

/-- Two requests that agree on them. -/
structure Request.SamePublic (req req' : Request) : Prop where
  method : req.method = req'.method
  path : req.path = req'.path
  query : req.query = req'.query
  body : req.body = req'.body
  baseUrl : req.baseUrl = req'.baseUrl
  accept : req.header "accept" = req'.header "accept"
  keyPresent : (req.header "X-API-Key").isSome = (req'.header "X-API-Key").isSome

theorem Request.SamePublic.publicParts_eq {req req' : Request} (h : req.SamePublic req') :
    req.publicParts = req'.publicParts := by
  simp only [publicParts, h.method, h.path, h.query, h.body, h.baseUrl, h.accept, h.keyPresent]

/-- Verdicts a finance route does not tell apart: of a principal it asks only
which registered scopes are satisfied. -/
inductive SameVerdict : VerifyOutcome → VerifyOutcome → Prop
  | principal {principal principal' : Principal} :
      (∀ scope ∈ knownScopes,
        satisfies principal.scopes scope = satisfies principal'.scopes scope) →
      SameVerdict (.principal principal) (.principal principal')
  | invalidToken : SameVerdict .invalidToken .invalidToken
  | raises (cls : String) : SameVerdict (.raises cls) (.raises cls)

/-- Two requests to two deployments that agree on what is public, and at whose
gates the verdicts are the same. -/
structure Alike (deployment deployment' : Deployment) (req req' : Request) : Prop where
  request : req.SamePublic req'
  appEnv : deployment.settings.appEnv = deployment'.settings.appEnv
  exampleApiBase : deployment.settings.exampleApiBase = deployment'.settings.exampleApiBase
  framework : deployment.framework = deployment'.framework
  provider : deployment.provider = deployment'.provider
  /-- the verdict about the key -/
  admitted : req.keyAdmitted deployment ↔ req'.keyAdmitted deployment'
  /-- is there a bearer token? -/
  hasToken : (∃ token, req.hasToken token) ↔ ∃ token, req'.hasToken token
  /-- the verdict about it -/
  verdict : ∀ token token', req.hasToken token → req'.hasToken token' →
    SameVerdict (deployment.verify token) (deployment'.verify token')
  /-- is there a provider token? -/
  hasProviderToken : deployment.hasProviderToken ↔ deployment'.hasProviderToken

/-- What a provider is shown: every action but the verification of the token. -/
def Event.shown : Event → Option Event
  | .verify _ => none
  | e => some e

/-- Two runs that look the same from outside. -/
structure LooksLike (run run' : App Response) : Prop where
  result : run.result = run'.result
  shown : run.trace.filterMap Event.shown = run'.trace.filterMap Event.shown
  length : run.trace.length = run'.trace.length

theorem LooksLike.refl (run : App Response) : LooksLike run run := ⟨rfl, rfl, rfl⟩

section Alike

variable {deployment deployment' : Deployment} {req req' : Request}

/-! ## The validation of query and body -/

theorem Framework.page_congr (framework : Framework) (h : req.SamePublic req') :
    framework.page req = framework.page req' := by
  rw [Framework.page, Framework.page, Request.queryParam, Request.queryParam, h.query]

theorem FinanceRoute.arguments_congr (r : FinanceRoute) (framework : Framework)
    (h : req.SamePublic req') : r.route.arguments framework req = r.route.arguments framework req' := by
  cases r with
  | xeroListInvoices | netcashListTransactions => exact framework.page_congr h
  | investecListAccounts => rfl
  | xeroCreateInvoice | netcashCreatePayment | investecCreatePayment =>
    simp only [FinanceRoute.route, Xero.createInvoice, Netcash.createPayment,
      Investec.createPayment, Route.creation, h.body]

theorem ExampleRoute.arguments_congr (r : ExampleRoute) (framework : Framework)
    (h : req.SamePublic req') : r.arguments framework req = r.arguments framework req' := by
  cases r with
  | listItems => exact framework.page_congr h
  | getItem itemId => rfl
  | createItem => simp only [arguments, h.body]

/-! ## The runs of the routes -/

theorem FinanceRoute.looksLike (r : FinanceRoute) (h : Alike deployment deployment' req req') :
    LooksLike (r.route.run deployment req) (r.route.run deployment' req') := by
  have hscope := r.scope_mem
  by_cases hk : req.keyAdmitted deployment
  · have hk' := h.admitted.mp hk
    by_cases htok : ∃ token, req.hasToken token
    · obtain ⟨token', ht'⟩ := h.hasToken.mp htok
      obtain ⟨token, ht⟩ := htok
      have hsame := h.verdict token token' ht ht'
      generalize hv : deployment.verify token = v at hsame
      generalize hv' : deployment'.verify token' = v' at hsame
      cases hsame with
      | invalidToken =>
        rw [run_of_invalidToken hk ht hv, run_of_invalidToken hk' ht' hv']
        exact ⟨rfl, rfl, rfl⟩
      | raises cls =>
        rw [run_of_raises hk ht hv, run_of_raises hk' ht' hv']
        exact ⟨rfl, rfl, rfl⟩
      | @principal principal principal' hsatisfies =>
        have hiff : r.route.admits principal ↔ r.route.admits principal' := by
          rw [Route.admits, Route.admits, hsatisfies r.route.scope hscope]
        by_cases ha : r.route.admits principal
        · have ha' := hiff.mp ha
          have hargs : r.route.arguments deployment.framework req =
              r.route.arguments deployment'.framework req' := by
            rw [r.arguments_congr deployment.framework h.request, h.framework]
          cases harg : r.route.arguments deployment.framework req with
          | error errors =>
            rw [run_of_invalid hscope hk ht hv ha harg,
              run_of_invalid hscope hk' ht' hv' ha' (hargs.symm.trans harg)]
            exact ⟨rfl, rfl, rfl⟩
          | ok arg =>
            rw [run_of_valid hscope hk ht hv ha harg,
              run_of_valid hscope hk' ht' hv' ha' (hargs.symm.trans harg), h.framework]
            exact ⟨rfl, rfl, rfl⟩
        · have ha' : ¬ r.route.admits principal' := fun ha' => ha (hiff.mpr ha')
          rw [run_of_not_admits hscope hk ht hv ha, run_of_not_admits hscope hk' ht' hv' ha']
          exact ⟨rfl, rfl, rfl⟩
    · have htok' : ¬ ∃ token, req'.hasToken token := fun ht => htok (h.hasToken.mpr ht)
      rw [run_of_no_token hk htok, run_of_no_token hk' htok']
      exact ⟨rfl, rfl, rfl⟩
  · have hk' : ¬ req'.keyAdmitted deployment' := fun hk' => hk (h.admitted.mpr hk')
    rw [run_of_no_key hk, run_of_no_key hk']
    exact ⟨rfl, rfl, rfl⟩

/-- Without a provider token the exception is always the same. -/
theorem ensureValidToken_of_no_token (h : ¬ deployment.hasProviderToken) :
    ensureValidToken deployment.store =
      .error (.providerAuthError "No provider token stored; authorization required.") := by
  rcases hstore : deployment.store with _ | token
  · rfl
  · cases token with
    | nil => rfl
    | cons member rest => exact absurd ⟨_, hstore, List.cons_ne_nil _ _⟩ h

theorem ExampleRoute.looksLike (r : ExampleRoute) (h : Alike deployment deployment' req req') :
    LooksLike (r.run deployment req) (r.run deployment' req') := by
  by_cases hk : req.keyAdmitted deployment
  · have hk' := h.admitted.mp hk
    by_cases ht : deployment.hasProviderToken
    · have ht' := h.hasProviderToken.mp ht
      have hargs : r.arguments deployment.framework req =
          r.arguments deployment'.framework req' := by
        rw [r.arguments_congr deployment.framework h.request, h.framework]
      have hbase : base deployment = base deployment' := by
        rw [base, base, getExampleService, getExampleService, h.exampleApiBase]
      cases harg : r.arguments deployment.framework req with
      | error errors =>
        rw [run_of_invalid hk ht harg, run_of_invalid hk' ht' (hargs.symm.trans harg)]
        exact ⟨rfl, rfl, rfl⟩
      | ok arg =>
        rw [run_of_valid hk ht harg, run_of_valid hk' ht' (hargs.symm.trans harg), hbase,
          h.framework, h.provider]
        exact ⟨rfl, rfl, rfl⟩
    · have ht' : ¬ deployment'.hasProviderToken := fun ht' => ht (h.hasProviderToken.mpr ht')
      simp only [run, requireApiKey_of_admits hk, requireApiKey_of_admits hk', requireProviderAuth,
        ensureValidToken_of_no_token ht, ensureValidToken_of_no_token ht']
      exact ⟨rfl, rfl, rfl⟩
  · have hk' : ¬ req'.keyAdmitted deployment' := fun hk' => hk (h.admitted.mpr hk')
    rw [run_of_no_key hk, run_of_no_key hk']
    exact ⟨rfl, rfl, rfl⟩

/-! ## The response and the record -/

theorem exceptionHandler_congr (framework : Framework) (h : req.SamePublic req') (e : Exn) :
    exceptionHandler framework req e = exceptionHandler framework req' e := by
  cases e with
  | providerAuthError message =>
    simp only [exceptionHandler, providerAuthExceptionHandler, absoluteLoginUrl, h.baseUrl,
      h.accept]
  | requestValidationError errors => simp only [exceptionHandler, h.query, h.body]
  | _ => rfl

theorem serve_congr (framework : Framework) {app app' : Request → App Response}
    (h : req.SamePublic req') (hresult : (app req).result = (app' req').result) :
    serve framework app req = serve framework app' req' := by
  have hmiddleware :
      exceptionMiddleware framework app req = exceptionMiddleware framework app' req' := by
    rw [exceptionMiddleware, exceptionMiddleware, hresult]
    cases (app' req').result with
    | ok response => rfl
    | error e => exact exceptionHandler_congr framework h e
  rw [serve_eq, serve_eq, hmiddleware, h.method, h.path, h.baseUrl, h.keyPresent]

theorem resolve_congr (h : req.SamePublic req') : resolve req = resolve req' := by
  simp only [resolve, exampleRoute, financeRoute, h.method, h.path]

end Alike

/-- **Nothing but verdicts is revealed.** Two requests that agree on what is
public, to deployments where the gates come to the same verdicts, get the same
response, leave the same audit record, and show a provider the same; only the
token handed to the identity provider may differ. The framework's own answers
are taken to depend on what is public. -/
theorem serve_reveals (other : PublicParts → Except Exn Response)
    (deployment deployment' : Deployment) (req req' : Request)
    (h : Alike deployment deployment' req req') :
    ∃ app app',
      createApp deployment (fun r => Traced.lift (other r.publicParts)) = .ok app ∧
      createApp deployment' (fun r => Traced.lift (other r.publicParts)) = .ok app' ∧
      serve deployment.framework app req = serve deployment'.framework app' req' ∧
      (app req).trace.filterMap Event.shown = (app' req').trace.filterMap Event.shown ∧
      (app req).trace.length = (app' req').trace.length := by
  refine ⟨_, _, createApp_eq _ _, createApp_eq _ _, ?_⟩
  have hlooks : LooksLike
      (dispatch deployment (fun r => Traced.lift (other r.publicParts)) req)
      (dispatch deployment' (fun r => Traced.lift (other r.publicParts)) req') := by
    rw [dispatch, dispatch, resolve_congr h.request]
    cases resolve req' with
    | none =>
      rw [h.request.publicParts_eq]
      exact .refl _
    | some route =>
      cases route with
      | items r => exact r.looksLike h
      | finance r => exact r.looksLike h
      | health =>
        simp only [AppRoute.run, health, h.appEnv]
        exact .refl _
  rw [← h.framework]
  exact ⟨serve_congr deployment.framework h.request hlooks.result, hlooks.shown, hlooks.length⟩

/-- A deployment with one key, where every token is this caller's. -/
def oneCaller (key subject : String) (grants : List String) : Deployment where
  settings := { apiKeys := key }
  verify _ := .principal ⟨subject, grants, []⟩
  framework := .plain
  store := none
  provider _ := .httpError

/-- A request with this key and this token. -/
def requestOf (key token : String) : Request where
  path := "/finance/xero/invoices"
  headers := [("X-API-Key", key), ("Authorization", "Bearer " ++ token)]

/-- Two callers with keys, tokens and grants of their own, and the same access. -/
theorem serve_reveals_of_two_callers :
    ∃ app app',
      createApp (oneCaller "k1" "alice" ["finance:read"])
        (fun r => Traced.lift ((fun _ => .error (.httpException 404 "Not Found" []))
          r.publicParts)) = .ok app ∧
      createApp (oneCaller "k2" "bob" ["openid", "finance:read"])
        (fun r => Traced.lift ((fun _ => .error (.httpException 404 "Not Found" []))
          r.publicParts)) = .ok app' ∧
      serve .plain app (requestOf "k1" "t1") = serve .plain app' (requestOf "k2" "t2") := by
  have hsatisfies : (knownScopes.all fun scope =>
      decide (satisfies ["finance:read"] scope = satisfies ["openid", "finance:read"] scope)) =
        true := by
    decide +kernel
  have halike : Alike (oneCaller "k1" "alice" ["finance:read"])
      (oneCaller "k2" "bob" ["openid", "finance:read"]) (requestOf "k1" "t1")
      (requestOf "k2" "t2") := {
    request := ⟨rfl, rfl, rfl, rfl, rfl, rfl, rfl⟩
    appEnv := rfl
    exampleApiBase := rfl
    framework := rfl
    provider := rfl
    admitted := iff_of_true (Or.inr ⟨"k1", by decide, by decide⟩)
      (Or.inr ⟨"k2", by decide, by decide⟩)
    hasToken := iff_of_true
      ⟨"t1", "Bearer", "t1", rfl, by decide, by decide +kernel,
        fun h => absurd (h 't' (by decide)) (by decide), by decide +kernel⟩
      ⟨"t2", "Bearer", "t2", rfl, by decide, by decide +kernel,
        fun h => absurd (h 't' (by decide)) (by decide), by decide +kernel⟩
    verdict := fun _ _ _ _ => .principal fun scope hscope =>
      of_decide_eq_true (List.all_eq_true.mp hsatisfies scope hscope)
    hasProviderToken := Iff.rfl }
  obtain ⟨app, app', happ, happ', hserve, -⟩ :=
    serve_reveals (fun _ => .error (.httpException 404 "Not Found" [])) _ _ _ _ halike
  exact ⟨app, app', happ, happ', hserve⟩

end KgaGateway
