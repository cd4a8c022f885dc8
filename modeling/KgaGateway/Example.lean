import KgaGateway.Deps

/-!
# The example surface

`app/example/service.py` and `app/routers/example.py`: the service that talks
to the provider, the mapping of the provider's failures onto exceptions, and
the three routes over it. A route checks the caller's key, then the stored
provider token, then query or body, and then sends one request.

What a caller sees of all this is in `Relay.lean`.
-/

namespace KgaGateway

open Model

/-! ## The service -/

/-- `ExampleService`: the base URL it was constructed with. -/
structure ExampleService : Type where
  baseUrl : String

namespace ExampleService

/-- `_raise_mapped`: a provider response that is an error, as an exception. -/
def raiseMapped (response : ProviderResponse) : Exn :=
  let status := response.status
  -- the provider no longer accepts the token: not the caller's fault
  if status == 401 || status == 403 then
    .providerAuthError ("Provider rejected the access token (HTTP " ++ toString status ++
      "); re-authorization required.")
  else if status == 429 then
    .httpException 429 "Provider rate limit exceeded"
      [("Retry-After", response.header "Retry-After" "60")]
  else .httpException status ("Provider API error " ++ toString status) []

/-- What `_request` makes of the outcome of the client call. -/
def mapped : ProviderOutcome → Except Exn Json
  | .httpError => .error (.httpException 502 "Provider request failed" [])
  | .raises cls => .error (.unhandled cls)
  | .response response =>
    if 400 ≤ response.status then .error (raiseMapped response)
    else
      match response.body with
      | some data => .ok data
      | none => .error (.unhandled "JSONDecodeError")

variable (provider : ProviderRequest → ProviderOutcome) (service : ExampleService)

/-- `_request`. -/
def request (method path : String) (params : List (String × Int)) (json : Option Json) :
    App Json := do
  Traced.emit (.send ⟨service.baseUrl, method, path, params, json⟩)
  Traced.lift (mapped (provider ⟨service.baseUrl, method, path, params, json⟩))

/-- One request is sent, and its outcome is mapped. -/
theorem request_eq (method path : String) (params : List (String × Int)) (json : Option Json) :
    service.request provider method path params json =
      ⟨[.send ⟨service.baseUrl, method, path, params, json⟩],
        mapped (provider ⟨service.baseUrl, method, path, params, json⟩)⟩ := by
  rw [request]
  rcases mapped (provider _) with e | data <;> rfl

/-- The unwrapping of `list_items`: an object's `items`, and `[]` for nothing. -/
def itemsOf (data : Json) : Json :=
  let items := match data with
    | .obj members => (Json.get members "items").getD .null
    | data => data
  if items.truthy then items else .arr []

/-- `list_items`. -/
def listItems (page : Int) : App Json := do
  let data ← service.request provider "GET" "/items" [("page", page)] none
  return itemsOf data

/-- `get_item`. -/
def getItem (itemId : String) : App Json :=
  service.request provider "GET" ("/items/" ++ itemId) [] none

/-- `create_item`. -/
def createItem (payload : List (String × Json)) : App Json :=
  service.request provider "POST" "/items" [] (some (.obj payload))

end ExampleService

/-- `get_example_service`. -/
def getExampleService (settings : Settings) : ExampleService :=
  ⟨Text.rstrip '/' settings.exampleApiBase⟩

/-- `require_provider_auth`: a usable token first, then the service. -/
def requireProviderAuth (deployment : Deployment) : Except Exn ExampleService := do
  ensureValidToken deployment.store
  return getExampleService deployment.settings

/-! ## The models -/

/-- `Item`. -/
def item : List Model.Field :=
  [optionalText "item_id" "id", optionalText "name" "name", optionalText "status" "status"]

/-- `ItemCreate`. -/
def itemCreate : List Model.Field := [requiredText "name" "name", optionalText "status" "status"]

/-! ## The routes -/

/-- The three routes; the path of the second carries an item id. -/
inductive ExampleRoute : Type where
  | listItems : ExampleRoute
  | getItem : String → ExampleRoute
  | createItem : ExampleRoute

namespace ExampleRoute

/-- What query and body validate to. -/
def Arg : ExampleRoute → Type
  | listItems => Int
  | getItem _ => Unit
  | createItem => List (String × Json)

/-- The validation of query and body. -/
def arguments (framework : Framework) (req : Request) :
    (route : ExampleRoute) → Except (List FieldError) route.Arg
  | listItems => framework.page req
  | getItem _ => .ok ()
  | createItem => (Model.validate framework.floatOf itemCreate req.body).map Model.Instance.dump

/-- The service method a route calls. -/
def call (provider : ProviderRequest → ProviderOutcome) (service : ExampleService) :
    (route : ExampleRoute) → route.Arg → App Json
  | listItems, page => service.listItems provider page
  | getItem itemId, _ => service.getItem provider itemId
  | createItem, payload => service.createItem provider payload

/-- The response model of a route. -/
def model : ExampleRoute → Model.Shape
  | listItems => .many item
  | _ => .one item

/-- The status of a route's success. -/
def status : ExampleRoute → Nat
  | createItem => 201
  | _ => 200

/-- A run of a route. -/
def run (route : ExampleRoute) (deployment : Deployment) (req : Request) : App Response :=
  runRoute (Traced.lift (requireApiKey deployment.settings (req.header "X-API-Key")))
    (Traced.lift (requireProviderAuth deployment))
    (route.arguments deployment.framework req)
    fun service arg => do
      let value ← route.call deployment.provider service arg
      Traced.lift (deployment.framework.respond route.model route.status value)

end ExampleRoute

end KgaGateway
