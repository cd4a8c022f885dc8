import KgaGateway.Entailment
import KgaGateway.Http

/-!
# Principals and the authorization dependencies

`app/auth/models.py`, `app/auth/provider.py` and `app/auth/dependencies.py`:
the authenticated caller, the two ways a provider's `verify` fails, the
dependency `currentPrincipal` that reads the bearer token, and the factory
`requireScopes` whose dependency gates a route on scopes.
-/

namespace KgaGateway

/-- `Principal`: the caller, its grants and its raw claims. The grants are a
frozen set, here the list of its elements in whatever order it is iterated. -/
structure Principal : Type where
  subject : String
  scopes : List String
  claims : List (String × Json)

/-- `Principal.has_scope`. -/
def Principal.hasScope (principal : Principal) (required : String) : Except ValueError Bool :=
  Scopes.satisfies principal.scopes required

/-! ## The bearer token -/

/-- What the active provider's `verify` can do with a token. -/
inductive VerifyOutcome : Type where
  /-- it returns a principal -/
  | principal : Principal → VerifyOutcome
  /-- it raises the vendor-neutral `InvalidTokenError` -/
  | invalidToken : VerifyOutcome
  /-- it raises an exception, by class, that has no registered handler -/
  | raises : String → VerifyOutcome

/-- `_INVALID_TOKEN_HEADERS`. -/
def invalidTokenHeaders : List (String × String) :=
  [("WWW-Authenticate", "Bearer error=\"invalid_token\"")]

/-- The `401` for a missing or malformed header. -/
def missingBearer : Exn := .httpException 401 "Missing bearer token" invalidTokenHeaders

/-- The `401` for a token the provider rejects. -/
def invalidBearer : Exn := .httpException 401 "Invalid or expired token" invalidTokenHeaders

/-- `current_principal`: the header is cut at its first space; the rest,
trimmed, is the token. -/
def currentPrincipal (verify : String → VerifyOutcome) (authorization : Option String) :
    App Principal :=
  match authorization with
  | none => Traced.raise missingBearer
  | some header =>
    if header == "" then Traced.raise missingBearer
    else
      let (scheme, _, token) := Text.partition ' ' header
      -- without a space the rest is empty
      if Text.lower scheme != "bearer" || Text.strip token == "" then Traced.raise missingBearer
      else do
        Traced.emit (.verify (Text.strip token))
        match verify (Text.strip token) with
        | .principal p => pure p
        | .invalidToken => Traced.raise invalidBearer
        | .raises cls => Traced.raise (.unhandled cls)

/-! ## The scope gate -/

/-- What the dependency built by `requireScopes` raises. -/
inductive ScopeError : Type where
  /-- `InsufficientScopeError`, naming the scope -/
  | insufficientScope : String → ScopeError
  /-- the `ValueError` of `satisfies` -/
  | valueError : ValueError → ScopeError
  deriving DecidableEq

/-- The loop of the dependency: the first scope the principal lacks is named. -/
def checkScopes (principal : Principal) : List String → Except ScopeError Principal
  | [] => .ok principal
  | scope :: rest =>
    match principal.hasScope scope with
    | .error e => .error (.valueError e)
    | .ok false => .error (.insufficientScope scope)
    | .ok true => checkScopes principal rest

/-- The members of `required` that are not registered. -/
def unknownScopes (required : List String) : List String :=
  required.filter fun scope => !Scopes.knownScopes.contains scope

/-- `require_scopes`: at wiring time every scope is checked against the
registry; the dependency it returns checks the principal. -/
def requireScopes (required : List String) :
    Except ValueError (Principal → Except ScopeError Principal) :=
  if (unknownScopes required).isEmpty then .ok fun principal => checkScopes principal required
  else .error (.unknownScopes (unknownScopes required))

/-- A scope error as an exception of the request. -/
def ScopeError.toExn : ScopeError → Exn
  | .insufficientScope scope => .insufficientScopeError scope
  | .valueError _ => .unhandled "ValueError"

end KgaGateway
