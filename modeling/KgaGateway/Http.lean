import KgaGateway.Lib.Json
import KgaGateway.Lib.Model
import KgaGateway.Lib.Traced

/-!
# Requests, responses, exceptions

What the routes work with: the parts of a request they read, the response a
client receives, the exceptions that can end a request, and the framework's
rule that turns an exception with a registered handler into a response and
any other into a `500`.

A route is a traced computation. The actions worth observing are the calls
across a seam: a token handed to the identity provider, a provider service
method invoked, a request sent to a provider.
-/

namespace KgaGateway

/-! ## Requests -/

/-- An HTTP request, as far as the application reads it. A body, if there is
one, has been parsed. -/
structure Request : Type where
  method : String := "GET"
  path : String := "/"
  headers : List (String × String) := []
  query : List (String × String) := []
  body : Option Json := none
  /-- `str(request.base_url)`: scheme and host, with a slash at the end -/
  baseUrl : String := "http://testserver/"

/-- `request.headers.get(name)`: header names match ignoring case, the first
one counts. -/
def Request.header (req : Request) (name : String) : Option String :=
  (req.headers.find? fun h => Text.lower h.1 == Text.lower name).map Prod.snd

/-- A query parameter that is no list: the last occurrence counts. -/
def Request.queryParam (req : Request) (name : String) : Option String :=
  ((req.query.filter fun q => q.1 == name).getLast?).map Prod.snd

/-! ## Responses -/

/-- A response body. -/
inductive Body : Type where
  | json : Json → Body
  | text : String → Body
  | empty : Body

/-- A response. -/
structure Response : Type where
  status : Nat
  headers : List (String × String) := []
  body : Body := .empty

/-- The characters a redirect leaves alone in its target. -/
def redirectSafe : List Char :=
  [':', '/', '%', '#', '?', '=', '@', '[', ']', '!', '$', '&', '\'', '(', ')', '*', '+', ',', ';']

/-- `RedirectResponse(url, status_code)`. -/
def redirectResponse (url : String) (status : Nat) : Response :=
  ⟨status, [("location", Text.quote redirectSafe url)], .empty⟩

/-- The body `{"detail": …}` of an error response. -/
def detailBody (detail : String) : Body := .json (.obj [("detail", .str detail)])

/-! ## Exceptions -/

/-- The exceptions that end a request. The last constructor is every exception
without a registered handler, by the name of its class. -/
inductive Exn : Type where
  /-- `HTTPException(status_code, detail, headers)` -/
  | httpException : Nat → String → List (String × String) → Exn
  /-- `RequestValidationError`: query or body did not validate -/
  | requestValidationError : List FieldError → Exn
  /-- `ProviderAuthError(message)` -/
  | providerAuthError : String → Exn
  /-- `InsufficientScopeError(required)` -/
  | insufficientScopeError : String → Exn
  /-- any other exception -/
  | unhandled : String → Exn

/-- Building a response encodes its headers as Latin-1, which raises for a
value that has no such encoding. -/
def Response.build (response : Response) : Except Exn Response :=
  if response.headers.all fun h => Text.isLatin1 h.2 then .ok response
  else .error (.unhandled "UnicodeEncodeError")

/-! ## The provider -/

/-- A request to the third-party provider, relative to its base URL. -/
structure ProviderRequest : Type where
  base : String
  method : String
  path : String
  params : List (String × Int) := []
  json : Option Json := none

/-- `headers.get(name, default)` on the headers of a response: the values of a
repeated one are joined. -/
def headerOr (headers : List (String × String)) (name default : String) : String :=
  match headers.filter fun h => Text.lower h.1 == Text.lower name with
  | [] => default
  | found => ", ".intercalate (found.map Prod.snd)

/-- A response of the provider. The body is what `response.json()` returns,
`none` when it raises. -/
structure ProviderResponse : Type where
  status : Nat
  headers : List (String × String)
  body : Option Json

/-- `response.headers.get(name, default)`. -/
def ProviderResponse.header (response : ProviderResponse) (name default : String) : String :=
  headerOr response.headers name default

/-- How the call to the HTTP client ends. -/
inductive ProviderOutcome : Type where
  | response : ProviderResponse → ProviderOutcome
  /-- an `httpx.HTTPError`: the network fails, or the body of the response cannot
  be decoded -/
  | httpError : ProviderOutcome
  /-- another exception, by class: the URL or the body cannot be encoded -/
  | raises : String → ProviderOutcome

/-- What happens to a request on the network. -/
inductive NetworkOutcome : Type where
  /-- DNS, TLS, timeout -/
  | transportFailure : NetworkOutcome
  /-- a response: status, headers and the bytes of the body -/
  | response : Nat → List (String × String) → List UInt8 → NetworkOutcome

/-- The HTTP client, as far as the service depends on it. Redirects are
responses like any other. -/
structure HttpClient : Type where
  /-- the class of the exception that refuses a request before it is sent, as
  `InvalidURL`; it is no `httpx.HTTPError` -/
  refuses : ProviderRequest → Option String
  /-- the body with its `Content-Encoding` undone, `none` for one that raises
  `httpx.DecodingError` -/
  unpack : List (String × String) → List UInt8 → Option (List UInt8)
  /-- a body that is not encoded is the body -/
  unpack_plain : ∀ headers content, (∀ h ∈ headers, Text.lower h.1 ≠ "content-encoding") →
    unpack headers content = some content
  /-- `Response.json()` on the bytes of the body, `none` when it raises -/
  decode : List UInt8 → Option Json
  /-- the empty body is no JSON text -/
  decode_nil : decode [] = none

namespace HttpClient

variable (client : HttpClient) (network : ProviderRequest → NetworkOutcome)

/-- What becomes of the outcome: the client reads the body before it returns the
response, and one it cannot decode is an error of its own. -/
def receive : NetworkOutcome → ProviderOutcome
  | .transportFailure => .httpError
  | .response status headers content =>
    match client.unpack headers content with
    | none => .httpError
    | some bytes => .response ⟨status, headers, client.decode bytes⟩

/-- `Client.request`. -/
def perform (req : ProviderRequest) : ProviderOutcome :=
  match client.refuses req with
  | some cls => .raises cls
  | none => client.receive (network req)

/-- What happens on the network, if the client sends the request at all. -/
def exchange (req : ProviderRequest) : Option NetworkOutcome :=
  match client.refuses req with
  | some _ => none
  | none => some (network req)

variable {client network} {req : ProviderRequest} {status : Nat}
  {headers : List (String × String)} {content bytes : List UInt8}

theorem perform_of_sent (h : client.refuses req = none) :
    client.perform network req = client.receive (network req) := by
  simp only [perform, h]

theorem exchange_of_refused {cls : String} (h : client.refuses req = some cls) :
    client.exchange network req = none := by
  simp only [exchange, h]

theorem exchange_of_sent (h : client.refuses req = none) :
    client.exchange network req = some (network req) := by
  simp only [exchange, h]

theorem receive_of_unpack_none (h : client.unpack headers content = none) :
    client.receive (.response status headers content) = .httpError := by
  simp only [receive, h]

theorem receive_of_unpack (h : client.unpack headers content = some bytes) :
    client.receive (.response status headers content) =
      .response ⟨status, headers, client.decode bytes⟩ := by
  simp only [receive, h]

/-- A client that sends everything, takes every body as it is, and reads `null`
only. -/
def plain : HttpClient where
  refuses _ := none
  unpack _ content := some content
  unpack_plain _ _ _ := rfl
  decode content := if content = [110, 117, 108, 108] then some .null else none
  decode_nil := rfl

end HttpClient

/-! ## Routes -/

/-- The observable actions of a route. -/
inductive Event : Type where
  /-- the identity provider is asked to verify a token -/
  | verify : String → Event
  /-- a finance provider service method is invoked with its argument -/
  | service : String → Json → Event
  /-- a request leaves for the provider -/
  | send : ProviderRequest → Event

/-- A computation of the application. -/
abbrev App (X : Type) : Type := Traced Event Exn X

/-- The parts of the framework that are not this repository's. -/
structure Framework : Type where
  /-- reading an integer out of a query text -/
  intOfText : String → Option Int
  /-- reading a float out of a JSON value -/
  floatOf : Json → Option PyFloat
  /-- the list a failed validation of query and body is answered with: each error
  with its message and a copy of the input; `none` when rendering it raises, as
  for a copy with `nan` in it -/
  errorDetail : List (String × String) → Option Json → List FieldError → Option Json
  /-- the serialiser has a text for the value; it gives up on one that is nested
  too deep -/
  writes : Json → Bool
  /-- `request.url.path`: base URL and path are put together and parsed again;
  `none` when that raises, as for a `Host` that is no host -/
  urlPath : String → String → Option String

/-- A framework for requests that have nothing special about them. -/
def Framework.plain : Framework where
  intOfText := String.toInt?
  floatOf
    | .float x => some x
    | _ => none
  errorDetail _ _ errors := some (.arr (errors.map fun e =>
    .obj [("type", .str e.type), ("loc", .arr (e.loc.map .str))]))
  writes _ := true
  urlPath _ path := some path

/-- `Query(1, ge=1)` on the parameter `page`. -/
def Framework.page (framework : Framework) (req : Request) : Except (List FieldError) Int :=
  match req.queryParam "page" with
  | none => .ok 1
  | some text =>
    match framework.intOfText text with
    | none => .error [⟨"int_parsing", ["query", "page"]⟩]
    | some n => if 1 ≤ n then .ok n else .error [⟨"greater_than_equal", ["query", "page"]⟩]

/-- The response to what an endpoint returned, through its response model. A
value that does not validate, or that the serialiser gives up on, is the server's
failure. -/
def Framework.respond (framework : Framework) (model : Model.Shape) (status : Nat)
    (value : Json) : Except Exn Response :=
  match Model.render framework.floatOf model value with
  | none => .error (.unhandled "ResponseValidationError")
  | some j =>
    -- infinity and `nan` are written as null
    if framework.writes j then .ok ⟨status, [], .json j.written⟩
    else .error (.unhandled "PydanticSerializationError")

/-- The order in which the framework runs a route: the decorator dependencies,
the parameter dependencies, and only then query and body, whose errors are
raised together; the endpoint runs last. -/
def runRoute {P A : Type} (decorators : App Unit) (parameters : App P)
    (arguments : Except (List FieldError) A) (endpoint : P → A → App Response) : App Response := do
  decorators
  let p ← parameters
  match arguments with
  | .error errors => Traced.raise (.requestValidationError errors)
  | .ok a => endpoint p a

section RunRoute

variable {P A : Type} {parameters : App P} {arguments : Except (List FieldError) A}
  {endpoint : P → A → App Response}

theorem runRoute_of_decorator_error {e : Exn} :
    runRoute (Traced.lift (.error e)) parameters arguments endpoint = ⟨[], .error e⟩ := rfl

theorem runRoute_of_parameter_error {t : List Event} {e : Exn} (h : parameters = ⟨t, .error e⟩) :
    runRoute (Traced.lift (.ok ())) parameters arguments endpoint = ⟨t, .error e⟩ := by
  rw [runRoute, Traced.lift_eq, Traced.bind_ok, h, Traced.bind_error]
  rfl

theorem runRoute_of_argument_error {t : List Event} {p : P} {errors : List FieldError}
    (h : parameters = ⟨t, .ok p⟩) (ha : arguments = .error errors) :
    runRoute (Traced.lift (.ok ())) parameters arguments endpoint =
      ⟨t, .error (.requestValidationError errors)⟩ := by
  rw [runRoute, Traced.lift_eq, Traced.bind_ok, h, Traced.bind_ok, ha]
  simp

theorem runRoute_of_ok {t : List Event} {p : P} {a : A} (h : parameters = ⟨t, .ok p⟩)
    (ha : arguments = .ok a) :
    runRoute (Traced.lift (.ok ())) parameters arguments endpoint =
      ⟨t ++ (endpoint p a).trace, (endpoint p a).result⟩ := by
  rw [runRoute, Traced.lift_eq, Traced.bind_ok, h, Traced.bind_ok, ha]
  simp

end RunRoute

/-- The `500` the server's outermost layer answers an unhandled exception with. -/
def internalServerError : Response := ⟨500, [], .text "Internal Server Error"⟩

end KgaGateway
