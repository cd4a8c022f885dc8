import KgaGateway.Lib.Host
import KgaGateway.Linearizability
import KgaGateway.Main

/-!
# The process

The service as it runs: one process, many requests at a time, each on a thread
of its own. The threads share what the process keeps: the results of
`get_settings`, `get_token_store` and `get_provider` (each under `lru_cache`),
the JWKS client of a provider object (a cached property), and the token file.

`lru_cache` and `cached_property` do not lock around the function they cache:
between looking a value up and keeping it, other threads run. So a request is
written as a dialogue, with a question for every access to something shared,
and `handler` answers. The environment may change at any time, and anybody may
save tokens.

What a request computes from these answers is `Proc.serve`. That it is what
`createApp` says is shown in `ProcessRuns.lean`.
-/

namespace KgaGateway

/-! ## Settings -/

/-- `Settings`, with all its fields, since it is read and cached as a whole.
`Settings()` validates, so the two literal types have only the values they
list. -/
structure AppSettings : Type extends Settings where
  appBaseUrl : String := "http://localhost:8000"
  tokenStorePath : String := ".tokens/example_token.json"
  exampleClientId : String := ""
  exampleClientSecret : String := ""
  authProvider : String := "auth0"
  /-- `Literal["dev", "prod"]` -/
  appEnv_mem : appEnv ∈ ["dev", "prod"] := by decide
  /-- `Literal["auth0"]` -/
  authProvider_mem : authProvider ∈ ["auth0"] := by decide

/-! ## What is cached -/

/-- A place where a value is cached. -/
inductive Cell : Type where
  /-- `get_settings` -/
  | settings : Cell
  /-- `get_token_store` -/
  | tokenStore : Cell
  /-- `get_provider` -/
  | provider : Cell
  /-- `_jwks_client` of a provider object -/
  | jwksClient : ℕ → Cell
  deriving DecidableEq

/-- An `Auth0Provider` object: which one it is, and its `_settings`. -/
structure ProviderObject : Type where
  id : ℕ
  settings : AppSettings

/-- What is cached there. A `FileTokenStore` is its path, a `PyJWKClient` the
URL it fetches keys from. -/
@[reducible] def Cell.Val : Cell → Type
  | settings => AppSettings
  | tokenStore => String
  | provider => ProviderObject
  | jwksClient _ => String

/-- `lru_cache` keeps a value that is there already; a cached property is
overwritten. -/
def Cell.keepsFirst : Cell → Bool
  | jwksClient _ => false
  | _ => true

/-! ## The questions -/

/-- What a thread asks: everything that is not its own. -/
inductive Call (Key : Type) : Type where
  /-- `Settings()`: the environment and `.env`, validated -/
  | settings : Call Key
  /-- is there a cached value? -/
  | lookup : Cell → Call Key
  /-- cache a value -/
  | keep : (c : Cell) → c.Val → Call Key
  /-- the identity of a new provider object -/
  | newObject : Call Key
  /-- `verify` or a provider service method is called -/
  | event : Event → Call Key
  /-- the JWKS client fetches the key of a token -/
  | fetchKey : String → String → Call Key
  | decode : DecodeCall Key → Call Key
  /-- `load` is called on the store at this path … -/
  | beginLoad : String → Call Key
  /-- … and returns -/
  | endLoad : String → Call Key
  /-- a request leaves for the provider -/
  | send : ProviderRequest → Call Key

/-- The answers. -/
@[reducible] def Call.Ans {Key : Type} : Call Key → Type
  | settings => Except String AppSettings
  | lookup c => Option c.Val
  | keep _ _ => Unit
  | newObject => ℕ
  | event _ => Unit
  | fetchKey _ _ => Except PyJWTError Key
  | decode _ => Except PyJWTError Claims
  | beginLoad _ => Unit
  | endLoad _ => LoadResult
  | send _ => ProviderOutcome

/-- A program of the process. -/
abbrev Proc (Key Err X : Type) : Type := Dialogue (Call Key) Call.Ans Err X

namespace Proc

open Dialogue

variable {Key Err : Type}

/-- Ask. -/
abbrev call (c : Call Key) : Proc Key Err c.Ans := question c

/-- A function under a cache: look up, compute if nothing is there, keep. -/
def cached (c : Cell) (compute : Proc Key Err c.Val) : Proc Key Err c.Val := do
  let found : Option c.Val ← call (.lookup c)
  match found with
  | some v => return v
  | none =>
    let v ← compute
    let _ ← call (.keep c v)
    return v

/-- `get_settings`. An exception is not cached. -/
def getSettings : Proc Key Exn AppSettings :=
  cached .settings do
    let validated : Except String AppSettings ← call .settings
    match validated with
    | .ok settings => return settings
    | .error _ => raise (.unhandled "ValidationError")

/-- `get_token_store`. -/
def getTokenStore : Proc Key Exn String :=
  cached .tokenStore do
    let settings ← getSettings
    return settings.tokenStorePath

/-- `get_provider`: the one place where the identity provider is chosen. -/
def getProvider : Proc Key Exn ProviderObject :=
  cached .provider do
    let settings ← getSettings
    if settings.authProvider == "auth0" then do
      -- `Auth0Provider()`, which asks for the settings itself
      let captured ← getSettings
      let id : ℕ ← call .newObject
      return ⟨id, captured⟩
    else raise (.unhandled "RuntimeError")

/-! ## Verifying a token -/

/-- The provider as `Auth0.lean` has it: keys come from the tenant's JWKS. -/
def auth0 (Key : Type) (settings : AppSettings) : Auth0Provider Key := ⟨settings.toSettings, none⟩

/-- `_jwks_client`: constructing the client fetches nothing. -/
def jwksClient (object : ProviderObject) : Proc Key Err String :=
  cached (.jwksClient object.id) (return (auth0 Key object.settings).jwksUrl)

/-- `Auth0Provider.verify`. -/
def verify (printable : Char → Bool) (object : ProviderObject) (token : String) :
    Proc Key VerifyError Principal := do
  lift (object.settings.requireAuth0Config.mapError .runtimeError)
  let url ← jwksClient object
  let fetched : Except PyJWTError Key ← call (.fetchKey url token)
  let key ← lift (fetched.mapError Auth0Provider.translate)
  let decoded : Except PyJWTError Claims ←
    call (.decode ((auth0 Key object.settings).decodeCall token key))
  let claims ← lift (decoded.mapError Auth0Provider.translate)
  lift (principalFromClaims printable claims)

/-- What becomes of an exception of `verify` in `current_principal`. -/
def rejected : VerifyError → Exn
  | .invalidToken _ => invalidBearer
  | .runtimeError _ => .unhandled "RuntimeError"
  | .vendor _ => .unhandled "PyJWTError"
  | .validationError => .unhandled "ValidationError"

/-- `current_principal`. -/
def currentPrincipal (printable : Char → Bool) (authorization : Option String) :
    Proc Key Exn Principal :=
  match authorization with
  | none => raise missingBearer
  | some header =>
    if header == "" then raise missingBearer
    else
      let (scheme, _, token) := Text.partition ' ' header
      if Text.lower scheme != "bearer" || Text.strip token == "" then raise missingBearer
      else do
        let object ← getProvider
        let _ ← call (.event (.verify (Text.strip token)))
        let verdict ← (verify printable object (Text.strip token)).attempt
        lift (verdict.mapError rejected)

/-! ## The routes -/

/-- The order in which the framework runs a route, as in `KgaGateway.runRoute`. -/
def runRoute {P A : Type} (decorators : Proc Key Exn Unit) (parameters : Proc Key Exn P)
    (arguments : Except (List FieldError) A) (endpoint : P → A → Proc Key Exn Response) :
    Proc Key Exn Response := do
  decorators
  let p ← parameters
  match arguments with
  | .error errors => raise (.requestValidationError errors)
  | .ok a => endpoint p a

/-- `require_api_key`. -/
def requireApiKey (req : Request) : Proc Key Exn Unit := do
  let settings ← getSettings
  lift (KgaGateway.requireApiKey settings.toSettings (req.header "X-API-Key"))

/-- The dependency of `require_scopes` on a route's scope. -/
def scopedPrincipal (printable : Char → Bool) (scope : String) (req : Request) :
    Proc Key Exn Principal := do
  let principal ← currentPrincipal printable (req.header "Authorization")
  lift ((checkScopes principal [scope]).mapError ScopeError.toExn)

/-- A finance route. -/
def financeRoute (framework : Framework) (printable : Char → Bool) (route : Route)
    (req : Request) : Proc Key Exn Response :=
  runRoute (requireApiKey req) (scopedPrincipal printable route.scope req)
    (route.arguments framework req) fun _ arg => do
      let _ ← call (.event (.service route.serviceMethod (route.wire arg)))
      lift (framework.respond route.model route.status (route.service arg))

/-- `get_token_store().load()`. -/
def loadToken : Proc Key Exn (Option Json) := do
  let path ← getTokenStore
  let _ ← call (.beginLoad path)
  let result : LoadResult ← call (.endLoad path)
  match result with
  | .ok token => return token
  | .error .jsonDecodeError => raise (.unhandled "JSONDecodeError")

/-- `ensure_valid_token`: `None` and an empty token are the same to it. -/
def ensureValidToken : Proc Key Exn Unit := do
  let token ← loadToken
  if (token.getD .null).truthy then return ()
  else raise (.providerAuthError "No provider token stored; authorization required.")

/-- `require_provider_auth`. -/
def requireProviderAuth : Proc Key Exn ExampleService := do
  ensureValidToken
  let settings ← getSettings
  return getExampleService settings.toSettings

/-- A service method: one request, and what becomes of its outcome. -/
def callService (service : ExampleService) (route : ExampleRoute) (arg : route.Arg) :
    Proc Key Exn Json := do
  let outcome : ProviderOutcome ← call (.send (route.request service.baseUrl arg))
  let data ← lift (ExampleService.mapped outcome)
  return route.finish data

/-- A route of the example surface. -/
def exampleRoute (framework : Framework) (route : ExampleRoute) (req : Request) :
    Proc Key Exn Response :=
  runRoute (requireApiKey req) requireProviderAuth (route.arguments framework req)
    fun service arg => do
      let value ← callService service route arg
      lift (framework.respond route.model route.status value)

/-! ## A request -/

/-- `create_app`, which runs when the module is imported: the settings it reads
are those `health` answers from, and those in the cache. -/
def createApp : Proc Key Exn AppSettings := getSettings

/-- What runs below the middleware. `boot` are the settings `create_app` read,
`other` is what the framework answers by itself. -/
def handle (framework : Framework) (printable : Char → Bool)
    (other : Request → Except Exn Response) (boot : AppSettings) (req : Request) :
    Proc Key Exn Response :=
  match KgaGateway.exampleRoute req with
  | some route => exampleRoute framework route req
  | none =>
    match FinanceRoute.all.find? fun r =>
        r.route.method == req.method && pathMatches r.route.path req.path with
    | some r => financeRoute framework printable r.route req
    | none =>
      if req.method == "GET" && pathMatches "/health" req.path then return health boot.toSettings
      else lift (other req)

/-- One request: the records it leaves and the response. -/
def serve (framework : Framework) (printable : Char → Bool)
    (other : Request → Except Exn Response) (boot : AppSettings) (req : Request) :
    Proc Key Exn (List AuditRecord × Response) := do
  let result ← (handle framework printable other boot req).attempt
  match result with
  | .ok response => return audited framework req response
  | .error e =>
    match exceptionHandler framework req e with
    | .ok response => return audited framework req response
    -- it propagates through the audit middleware
    | .error _ => return ([], internalServerError)
where
  /-- the record of a response that comes back through the middleware -/
  audited (framework : Framework) (req : Request) (response : Response) :
      List AuditRecord × Response :=
    match urlPath framework req with
    | .ok path =>
      ([⟨req.method, path, (req.header "X-API-Key").isSome, response.status⟩], response)
    | .error _ => ([], internalServerError)

end Proc

/-! ## The host -/

/-- The state the threads share. -/
structure Process : Type where
  /-- what `Settings()` makes of the environment and `.env` as they are now -/
  env : Except String AppSettings
  cells : (c : Cell) → Option c.Val
  /-- how many provider objects there are -/
  objects : ℕ
  /-- the directory of the store at each path, with all calls on it -/
  disk : String → Sys
  /-- the threads that have called `load` on the store at a path -/
  loading : String → ℕ → Bool

/-- What a request meets outside the process. -/
structure External (Key : Type) : Type where
  pyJWT : PyJWT Key
  provider : ProviderRequest → ProviderOutcome

/-- What happens by itself. -/
inductive Move : Type where
  /-- the environment or `.env` changes -/
  | setEnv : Except String AppSettings → Move
  /-- a call on the store at a path goes one step, or its file system does -/
  | store : String → StoreEvent → Move

namespace Process

/-- The process before anything was imported. -/
def fresh (env : Except String AppSettings) (disk : String → Sys) : Process :=
  ⟨env, fun _ => none, 0, disk, fun _ _ => false⟩

/-- Cache a value. -/
def keep (s : Process) (c : Cell) (v : c.Val) : Process :=
  if c.keepsFirst && (s.cells c).isSome then s
  else { s with cells := Function.update s.cells c (some v) }

/-- A thread is in `load`. -/
def beginLoad (s : Process) (path : String) (id : ℕ) : Process :=
  { s with loading := Function.update s.loading path (Function.update (s.loading path) id true) }

/-- A `load` of this process goes on only once it was called. -/
def lets (s : Process) (path : String) : StoreEvent → Bool
  | .load id _ => s.loading path id
  | _ => true

end Process

/-- The host of the threads: thread `id` meets `external id`. -/
def handler {Key : Type} (stores : String → TokenStore) (external : ℕ → External Key) :
    Host (Call Key) Call.Ans Process Move where
  serve s id
    | .settings => some (s.env, s)
    | .lookup c => some (s.cells c, s)
    | .keep c v => some ((), s.keep c v)
    | .newObject => some (s.objects, { s with objects := s.objects + 1 })
    | .event _ => some ((), s)
    | .fetchKey url token => some ((external id).pyJWT.getSigningKeyFromJwt url token, s)
    | .decode call => some ((external id).pyJWT.decode call, s)
    | .beginLoad path => some ((), s.beginLoad path id)
    | .endLoad path => ((s.disk path).loads id).result.map fun result => (result, s)
    | .send request => some ((external id).provider request, s)
  move s
    | .setEnv env => some { s with env := env }
    | .store path e =>
      if s.lets path e then
        ((stores path).step (s.disk path) e).map fun sys =>
          { s with disk := Function.update s.disk path sys }
      else none

end KgaGateway
