import KgaGateway.Auth0
import KgaGateway.Gates
import KgaGateway.Relay

/-!
# The application

`app/main.py`: the routers put together, the audit middleware around them, and
the layers of the server they run between. Inside the middleware an exception
with a registered handler becomes a response; outside it any other becomes a
`500`.

The middleware logs after `call_next` has returned, and reads the path out of
the request's URL only then. A response, whichever it is, is audited with its
status if that URL can be parsed; an exception that propagates is not audited
(`audited_iff`).
-/

namespace KgaGateway

/-! ## Logging -/

/-- `logging.getLevelName` on an upper-case name, when it is one. -/
def levelOfName (name : String) : Option Nat :=
  match name with
  | "CRITICAL" | "FATAL" => some 50
  | "ERROR" => some 40
  | "WARN" | "WARNING" => some 30
  | "INFO" => some 20
  | "DEBUG" => some 10
  | "NOTSET" => some 0
  | _ => none

/-- `_configure_logging`: the level of the root logger; an unrecognised name
falls back to `INFO`. -/
def rootLevel (settings : Settings) : Nat := (levelOfName (Text.upper settings.logLevel)).getD 20

/-- A record of the audit log. -/
structure AuditRecord : Type where
  method : String
  path : String
  apiKeyPresent : Bool
  status : Nat
  deriving DecidableEq

/-- What of the records handed to the logger at `INFO` is written out. -/
def writtenRecords (settings : Settings) (records : List AuditRecord) : List AuditRecord :=
  if rootLevel settings ≤ 20 then records else []

/-! ## The layers -/

/-- The exception layer inside the middleware. -/
def exceptionMiddleware (framework : Framework) (app : Request → App Response) (req : Request) :
    Except Exn Response :=
  match (app req).result with
  | .ok response => .ok response
  | .error e => exceptionHandler framework req e

/-- `request.url.path`: the URL is parsed where its path is asked for. -/
def urlPath (framework : Framework) (req : Request) : Except Exn String :=
  match framework.urlPath req.baseUrl req.path with
  | some path => .ok path
  | none => .error (.unhandled "ValueError")

/-- `audit_middleware`: the logging statement, with what it logs, comes after
`call_next`. -/
def auditMiddleware (framework : Framework) (callNext : Request → Except Exn Response)
    (req : Request) : Traced AuditRecord Exn Response := do
  let apiKeyPresent := (req.header "X-API-Key").isSome
  let response ← Traced.lift (callNext req)
  let path ← Traced.lift (urlPath framework req)
  Traced.emit ⟨req.method, path, apiKeyPresent, response.status⟩
  return response

/-- The outermost layer: what is sent to the client. -/
def serverErrorMiddleware : Except Exn Response → Response
  | .ok response => response
  | .error _ => internalServerError

/-- One request to an application: the records it leaves and the response. -/
def serve (framework : Framework) (app : Request → App Response) (req : Request) :
    List AuditRecord × Response :=
  let run := auditMiddleware framework (exceptionMiddleware framework app) req
  (run.trace, serverErrorMiddleware run.result)

/-! ## The routes -/

/-- The routes of the aggregate finance router. -/
def FinanceRoute.all : List FinanceRoute :=
  [.xeroListInvoices, .xeroCreateInvoice, .netcashListTransactions, .netcashCreatePayment,
    .investecListAccounts, .investecCreatePayment]

/-- A mounted route: its method, its path, and what runs. -/
structure Mounted : Type where
  method : String
  path : String
  run : Deployment → Request → App Response

/-- The framework's pattern for a literal path: its `$` also stands before a line
feed at the end. -/
def pathMatches (literal path : String) : Bool := path == literal || path == literal ++ "\n"

/-- The finance router: mounting fails if a route declares an unknown scope. -/
def financeRouter : Except ValueError (List Mounted) :=
  FinanceRoute.all.mapM fun route =>
    route.route.mount.map (Mounted.mk route.route.method route.route.path)

/-- The item id in a path, if it is `/items/{item_id}` under the prefix. A line
feed at the end is part of the id. -/
def itemIdOf (path : String) : Option String :=
  let stem := (apiPrefix ++ "/items/").toList
  let rest := path.toList.drop stem.length
  if stem.isPrefixOf path.toList && !rest.isEmpty && !rest.contains '/' then
    some (String.ofList rest)
  else none

/-- The example route a request matches. -/
def exampleRoute (req : Request) : Option ExampleRoute :=
  if pathMatches (apiPrefix ++ "/items") req.path then
    if req.method == "GET" then some .listItems
    else if req.method == "POST" then some .createItem
    else none
  else if req.method == "GET" then (itemIdOf req.path).map .getItem
  else none

/-- `health`. -/
def health (settings : Settings) : Response :=
  ⟨200, [], .json (.obj [("status", .str "ok"), ("app_env", .str settings.appEnv)])⟩

/-- `create_app`: the example routes, the finance routes, `/health`, and for
anything else what the framework answers (documentation, `404`, `405`). -/
def createApp (deployment : Deployment) (framework : Request → App Response) :
    Except ValueError (Request → App Response) := do
  let finance ← financeRouter
  return fun req =>
    match exampleRoute req with
    | some route => route.run deployment req
    | none =>
      match finance.find? fun m => m.method == req.method && pathMatches m.path req.path
        with
      | some m => m.run deployment req
      | none =>
        if req.method == "GET" && pathMatches "/health" req.path then pure (health deployment.settings)
        else framework req

/-! ## What is audited -/

/-- Processing below the middleware ends with a response, or with an exception
whose registered handler builds one. -/
def EndsHandled (framework : Framework) (req : Request) : Except Exn Response → Prop
  | .ok _ => True
  | .error e => ∃ response, exceptionHandler framework req e = .ok response

/-- The URL of the request, put together from base URL and path, can be parsed. -/
def Request.UrlParses (framework : Framework) (req : Request) : Prop :=
  ∃ path, framework.urlPath req.baseUrl req.path = some path

/-- The request leaves exactly one record, with the status the client receives. -/
def AuditedOnce (records : List AuditRecord) (response : Response) : Prop :=
  ∃ record, records = [record] ∧ record.status = response.status

section Serve

variable {framework : Framework} {app : Request → App Response} {req : Request}

theorem exceptionMiddleware_of_handled (h : EndsHandled framework req (app req).result) :
    ∃ response, exceptionMiddleware framework app req = .ok response := by
  rw [exceptionMiddleware]
  rcases hres : (app req).result with e | response
  · rw [hres] at h
    exact h
  · exact ⟨response, rfl⟩

theorem exceptionMiddleware_of_not_handled (h : ¬ EndsHandled framework req (app req).result) :
    ∃ e, exceptionMiddleware framework app req = .error e := by
  rw [exceptionMiddleware]
  rcases hres : (app req).result with e | response
  · rw [hres] at h
    rcases he : exceptionHandler framework req e with e' | response
    · exact ⟨e', he⟩
    · exact absurd ⟨response, he⟩ h
  · rw [hres] at h
    exact absurd trivial h

/-- What the audit middleware makes of what comes back: it logs a response if it
can say for which path. -/
theorem serve_eq : serve framework app req =
    match exceptionMiddleware framework app req with
    | .error _ => ([], internalServerError)
    | .ok response =>
      match framework.urlPath req.baseUrl req.path with
      | some path =>
        ([⟨req.method, path, (req.header "X-API-Key").isSome, response.status⟩], response)
      | none => ([], internalServerError) := by
  rw [serve, auditMiddleware]
  rcases exceptionMiddleware framework app req with e | response
  · rfl
  · rw [urlPath]
    cases framework.urlPath req.baseUrl req.path <;> rfl

theorem serve_of_ok {response : Response} {path : String}
    (h : exceptionMiddleware framework app req = .ok response)
    (hpath : framework.urlPath req.baseUrl req.path = some path) :
    serve framework app req =
      ([⟨req.method, path, (req.header "X-API-Key").isSome, response.status⟩], response) := by
  rw [serve_eq, h]
  simp only [hpath]

theorem serve_of_error {e : Exn} (h : exceptionMiddleware framework app req = .error e) :
    serve framework app req = ([], internalServerError) := by
  rw [serve_eq, h]

theorem serve_of_no_path (hpath : framework.urlPath req.baseUrl req.path = none) :
    serve framework app req = ([], internalServerError) := by
  rw [serve_eq]
  rcases exceptionMiddleware framework app req with e | response
  · rfl
  · simp only [hpath]

/-- What the client receives is the answer to the route's result, as long as the
URL can be parsed. -/
theorem serve_response (h : req.UrlParses framework) :
    (serve framework app req).2 = clientResponse framework req (app req).result := by
  obtain ⟨path, hpath⟩ := h
  rcases hm : exceptionMiddleware framework app req with e | response
  · rw [serve_of_error hm]
    rw [exceptionMiddleware] at hm
    rcases hres : (app req).result with e' | response <;> rw [hres] at hm
    · simp only [clientResponse, hm]
    · cases hm
  · rw [serve_of_ok hm hpath]
    rw [exceptionMiddleware] at hm
    rcases hres : (app req).result with e' | response' <;> rw [hres] at hm
    · exact (clientResponse_of_handled hm).symm
    · exact (Except.ok.inj hm).symm

theorem not_auditedOnce_nil {response : Response} : ¬ AuditedOnce [] response := by
  rintro ⟨record, hrecord, -⟩
  cases hrecord

end Serve

/-- **What the audit log records**: a request is audited, once and with the
status the client receives, exactly when processing below the middleware ends
with a response or with an exception whose handler builds one, and the URL of the
request can be parsed. It shows in the log when besides the configured level lets
`INFO` through. -/
theorem audited_iff (settings : Settings) (framework : Framework) (app : Request → App Response)
    (req : Request) :
    (AuditedOnce (serve framework app req).1 (serve framework app req).2 ↔
      EndsHandled framework req (app req).result ∧ req.UrlParses framework) ∧
    (AuditedOnce (writtenRecords settings (serve framework app req).1) (serve framework app req).2 ↔
      EndsHandled framework req (app req).result ∧ req.UrlParses framework ∧
        rootLevel settings ≤ 20) := by
  have hnone : writtenRecords settings [] = [] := ite_self _
  by_cases h : EndsHandled framework req (app req).result
  · cases hpath : framework.urlPath req.baseUrl req.path with
    | some path =>
      have hparses : req.UrlParses framework := ⟨path, hpath⟩
      obtain ⟨response, hm⟩ := exceptionMiddleware_of_handled h
      rw [serve_of_ok hm hpath]
      refine ⟨iff_of_true ⟨_, rfl, rfl⟩ ⟨h, hparses⟩, ?_⟩
      -- the record is there; it is written out if the level lets it
      by_cases hlevel : rootLevel settings ≤ 20
      · exact iff_of_true ⟨_, if_pos hlevel, rfl⟩ ⟨h, hparses, hlevel⟩
      · refine iff_of_false ?_ fun h' => hlevel h'.2.2
        rw [writtenRecords, if_neg hlevel]
        exact not_auditedOnce_nil
    | none =>
      -- the arguments of the logging statement raise
      have hparses : ¬ req.UrlParses framework := by
        rintro ⟨path, hsome⟩
        rw [hpath] at hsome
        cases hsome
      rw [serve_of_no_path hpath, hnone]
      exact ⟨iff_of_false not_auditedOnce_nil fun h' => hparses h'.2,
        iff_of_false not_auditedOnce_nil fun h' => hparses h'.2.1⟩
  · -- the exception leaves the audit middleware before it logs
    obtain ⟨e, hm⟩ := exceptionMiddleware_of_not_handled h
    rw [serve_of_error hm, hnone]
    exact ⟨iff_of_false not_auditedOnce_nil fun h' => h h'.1,
      iff_of_false not_auditedOnce_nil fun h' => h h'.1⟩

/-- A bearer token before the tenant is configured: the `RuntimeError` of
`require_auth0_config` is answered with a `500`, and no record is left. -/
theorem audited_fails_on_unconfigured :
    let deployment : Deployment :=
      ⟨{}, @Auth0Provider.outcome Unit ⟨{}, none⟩ ⟨fun _ _ => .ok (), fun _ => .ok []⟩
        (fun _ => true), .plain, none, fun _ => .httpError⟩
    let req : Request :=
      { path := "/finance/xero/invoices", headers := [("Authorization", "Bearer abc.def.ghi")] }
    ∃ app, createApp deployment (fun _ => Traced.raise (.httpException 404 "Not Found" [])) =
        .ok app ∧ (serve .plain app req).2.status = 500 ∧
      ¬ AuditedOnce (serve .plain app req).1 (serve .plain app req).2 := by
  refine ⟨_, rfl, rfl, ?_⟩
  rintro ⟨record, hrecord, -⟩
  cases hrecord

end KgaGateway
