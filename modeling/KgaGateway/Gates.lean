import KgaGateway.Finance

/-!
# The gates of a finance route, in order

Five conditions stand between a request and a provider service: the caller's
key, the bearer token, the identity provider's verdict, the scope, and the
validation of query and body. `FinanceRoute.mount_gated` says that they are checked
in this order: the first one that fails fixes the response, and nothing behind
it happens. In particular the identity provider is never asked before the key
has passed, and the service is invoked exactly when all five hold.
-/

namespace KgaGateway

open Scopes

/-! ## The conditions and the responses -/

/-- The request carries this bearer token. -/
def Request.hasToken (req : Request) (token : String) : Prop :=
  BearerToken (req.header "Authorization") token

/-- The principal's grants satisfy the route's scope. -/
def Route.admits (route : Route) (principal : Principal) : Prop :=
  satisfies principal.scopes route.scope = .ok true

/-- A `401` with the `invalid_token` challenge. -/
def invalidTokenResponse (detail : String) : Response :=
  ⟨401, [("WWW-Authenticate", "Bearer error=\"invalid_token\"")],
    .json (.obj [("detail", .str detail)])⟩

/-- A `403` with the `insufficient_scope` challenge that names the scope. -/
def insufficientScopeResponse (scope : String) : Response :=
  ⟨403, [("WWW-Authenticate", "Bearer error=\"insufficient_scope\", scope=\"" ++ scope ++ "\"")],
    .json (.obj [("detail", .str "Insufficient scope"), ("required", .str scope)])⟩

/-- What a run of a route does and answers, condition by condition. -/
structure Route.Gated (route : Route) (deployment : Deployment) (req : Request)
    (run : App Response) : Prop where
  /-- the service is invoked exactly when all five conditions hold -/
  invoked_iff : (∃ name arg, Event.service name arg ∈ run.trace) ↔
    req.keyAdmitted deployment ∧ ∃ token, req.hasToken token ∧
      ∃ principal, deployment.verify token = .principal principal ∧ route.admits principal ∧
        ∃ arg, route.arguments deployment.framework req = .ok arg
  /-- first the key: without it nothing happens -/
  key : ¬ req.keyAdmitted deployment → run.trace = [] ∧
    clientResponse deployment.framework req run.result =
      ⟨401, [], .json (.obj [("detail", .str "Missing or invalid API key")])⟩
  /-- then the header: without a token the identity provider is not asked -/
  token : req.keyAdmitted deployment → (¬ ∃ token, req.hasToken token) → run.trace = [] ∧
    clientResponse deployment.framework req run.result = invalidTokenResponse "Missing bearer token"
  /-- then the identity provider, which may reject the token … -/
  rejected : ∀ token, req.keyAdmitted deployment → req.hasToken token →
    deployment.verify token = .invalidToken → run.trace = [.verify token] ∧
      clientResponse deployment.framework req run.result = invalidTokenResponse "Invalid or expired token"
  /-- … or fail -/
  failed : ∀ token cls, req.keyAdmitted deployment → req.hasToken token →
    deployment.verify token = .raises cls → run.trace = [.verify token] ∧
      clientResponse deployment.framework req run.result = ⟨500, [], .text "Internal Server Error"⟩
  /-- then the scope -/
  scope : ∀ token principal, req.keyAdmitted deployment → req.hasToken token →
    deployment.verify token = .principal principal → ¬ route.admits principal →
      run.trace = [.verify token] ∧
        clientResponse deployment.framework req run.result = insufficientScopeResponse route.scope
  /-- then query and body, whose errors are answered with a `422` … -/
  invalid : ∀ token principal errors, req.keyAdmitted deployment → req.hasToken token →
    deployment.verify token = .principal principal → route.admits principal →
      route.arguments deployment.framework req = .error errors → run.trace = [.verify token] ∧
        ∀ detail, deployment.framework.errorDetail req.query req.body errors = some detail →
          clientResponse deployment.framework req run.result =
            ⟨422, [], .json (.obj [("detail", detail)])⟩
  /-- … unless rendering them raises -/
  unrendered : ∀ token principal errors, req.keyAdmitted deployment → req.hasToken token →
    deployment.verify token = .principal principal → route.admits principal →
      route.arguments deployment.framework req = .error errors →
        deployment.framework.errorDetail req.query req.body errors = none →
          clientResponse deployment.framework req run.result =
            ⟨500, [], .text "Internal Server Error"⟩
  /-- then the service, once, and its answer through the response model -/
  served : ∀ token principal arg, req.keyAdmitted deployment → req.hasToken token →
    deployment.verify token = .principal principal → route.admits principal →
      route.arguments deployment.framework req = .ok arg →
        run.trace = [.verify token, .service route.serviceMethod (route.wire arg)] ∧
          run.result =
            deployment.framework.respond route.model route.status (route.service arg)

/-! ## The parameter dependency -/

section Dependency

variable {verify : String → VerifyOutcome} {dependency : Principal → Except ScopeError Principal}
  {authorization : Option String} {token : String}

theorem scopedPrincipal_of_no_token (h : ¬ ∃ token, BearerToken authorization token) :
    scopedPrincipal verify dependency authorization = ⟨[], .error missingBearer⟩ := by
  rw [scopedPrincipal, currentPrincipal_of_not_bearerToken h, Traced.bind_error]

theorem scopedPrincipal_of_invalidToken (h : BearerToken authorization token)
    (hv : verify token = .invalidToken) :
    scopedPrincipal verify dependency authorization = ⟨[.verify token], .error invalidBearer⟩ := by
  rw [scopedPrincipal, currentPrincipal_of_bearerToken h, hv, Traced.bind_error]

theorem scopedPrincipal_of_raises {cls : String} (h : BearerToken authorization token)
    (hv : verify token = .raises cls) :
    scopedPrincipal verify dependency authorization =
      ⟨[.verify token], .error (.unhandled cls)⟩ := by
  rw [scopedPrincipal, currentPrincipal_of_bearerToken h, hv, Traced.bind_error]

theorem scopedPrincipal_of_principal {principal : Principal} (h : BearerToken authorization token)
    (hv : verify token = .principal principal) :
    scopedPrincipal verify dependency authorization =
      ⟨[.verify token], (dependency principal).mapError ScopeError.toExn⟩ := by
  rw [scopedPrincipal, currentPrincipal_of_bearerToken h, hv, Traced.bind_ok]
  rfl

end Dependency

/-! ## Wiring -/

/-- Every route of the surface declares a registered scope. -/
theorem FinanceRoute.scope_mem (route : FinanceRoute) : route.route.scope ∈ knownScopes := by
  cases route <;> decide

/-- The challenge that names a registered scope can be sent. -/
theorem build_insufficientScope {scope : String} (h : scope ∈ knownScopes) :
    Response.build (insufficientScopeExceptionHandler scope) =
      .ok (insufficientScopeResponse scope) := by
  have hall : ∀ s ∈ knownScopes, Text.isLatin1 s = true := by decide
  have hlit : Text.isLatin1 "Bearer error=\"insufficient_scope\", scope=\"" = true := by decide
  have hquote : Text.isLatin1 "\"" = true := by decide
  simp only [Response.build, insufficientScopeExceptionHandler, insufficientScopeResponse,
    List.all_cons, List.all_nil, Text.isLatin1_append, hlit, hall scope h, hquote, Bool.and_self,
    if_true]

/-- A mounted route. -/
def Route.run (route : Route) (deployment : Deployment) (req : Request) : App Response :=
  runRoute (Traced.lift (requireApiKey deployment.settings (req.header "X-API-Key")))
    (scopedPrincipal deployment.verify (fun principal => checkScopes principal [route.scope])
      (req.header "Authorization"))
    (route.arguments deployment.framework req)
    fun _ arg => route.endpoint deployment.framework arg

/-- A route with a registered scope mounts. -/
theorem Route.mount_eq {route : Route} (h : route.scope ∈ knownScopes) :
    route.mount = .ok route.run := by
  rw [Route.mount, requireScopes_ok (List.forall_mem_singleton.mpr h)]
  rfl

theorem checkScopes_of_admits {route : Route} (h : route.scope ∈ knownScopes)
    {principal : Principal} (ha : route.admits principal) :
    checkScopes principal [route.scope] = .ok principal := by
  rw [checkScopes_eq principal _ (List.forall_mem_singleton.mpr h)]
  simp [Coverage.firstMissing, holds_iff.mpr ha]

theorem checkScopes_of_not_admits {route : Route} (h : route.scope ∈ knownScopes)
    {principal : Principal} (ha : ¬ route.admits principal) :
    checkScopes principal [route.scope] = .error (.insufficientScope route.scope) := by
  have hnot : principal.holds route.scope = false :=
    Bool.eq_false_iff.mpr fun hold => ha (holds_iff.mp hold)
  rw [checkScopes_eq principal _ (List.forall_mem_singleton.mpr h)]
  simp [Coverage.firstMissing, hnot]

/-! ## One run, condition by condition -/

section Run

variable {route : Route} {deployment : Deployment} {req : Request} {token : String}
  {principal : Principal}

theorem run_of_no_key (hk : ¬ req.keyAdmitted deployment) :
    route.run deployment req = ⟨[], .error invalidApiKey⟩ := by
  rw [Route.run, requireApiKey_of_not_admits hk]
  exact runRoute_of_decorator_error

theorem run_of_no_token (hk : req.keyAdmitted deployment) (ht : ¬ ∃ token, req.hasToken token) :
    route.run deployment req = ⟨[], .error missingBearer⟩ := by
  rw [Route.run, requireApiKey_of_admits hk]
  exact runRoute_of_parameter_error (scopedPrincipal_of_no_token ht)

theorem run_of_invalidToken (hk : req.keyAdmitted deployment) (ht : req.hasToken token)
    (hv : deployment.verify token = .invalidToken) :
    route.run deployment req = ⟨[.verify token], .error invalidBearer⟩ := by
  rw [Route.run, requireApiKey_of_admits hk]
  exact runRoute_of_parameter_error (scopedPrincipal_of_invalidToken ht hv)

theorem run_of_raises {cls : String} (hk : req.keyAdmitted deployment) (ht : req.hasToken token)
    (hv : deployment.verify token = .raises cls) :
    route.run deployment req = ⟨[.verify token], .error (.unhandled cls)⟩ := by
  rw [Route.run, requireApiKey_of_admits hk]
  exact runRoute_of_parameter_error (scopedPrincipal_of_raises ht hv)

theorem run_of_not_admits (h : route.scope ∈ knownScopes) (hk : req.keyAdmitted deployment)
    (ht : req.hasToken token) (hv : deployment.verify token = .principal principal)
    (ha : ¬ route.admits principal) :
    route.run deployment req =
      ⟨[.verify token], .error (.insufficientScopeError route.scope)⟩ := by
  rw [Route.run, requireApiKey_of_admits hk]
  apply runRoute_of_parameter_error
  rw [scopedPrincipal_of_principal ht hv, checkScopes_of_not_admits h ha]
  rfl

theorem scopedPrincipal_of_admits (h : route.scope ∈ knownScopes) (ht : req.hasToken token)
    (hv : deployment.verify token = .principal principal) (ha : route.admits principal) :
    scopedPrincipal deployment.verify (fun principal => checkScopes principal [route.scope])
      (req.header "Authorization") = ⟨[.verify token], .ok principal⟩ := by
  rw [scopedPrincipal_of_principal ht hv, checkScopes_of_admits h ha]
  rfl

theorem run_of_invalid {errors : List FieldError} (h : route.scope ∈ knownScopes)
    (hk : req.keyAdmitted deployment) (ht : req.hasToken token)
    (hv : deployment.verify token = .principal principal) (ha : route.admits principal)
    (harg : route.arguments deployment.framework req = .error errors) :
    route.run deployment req = ⟨[.verify token], .error (.requestValidationError errors)⟩ := by
  rw [Route.run, requireApiKey_of_admits hk]
  exact runRoute_of_argument_error (scopedPrincipal_of_admits h ht hv ha) harg

theorem run_of_valid {arg : route.Arg} (h : route.scope ∈ knownScopes)
    (hk : req.keyAdmitted deployment) (ht : req.hasToken token)
    (hv : deployment.verify token = .principal principal) (ha : route.admits principal)
    (harg : route.arguments deployment.framework req = .ok arg) :
    route.run deployment req =
      ⟨[.verify token, .service route.serviceMethod (route.wire arg)],
        deployment.framework.respond route.model route.status (route.service arg)⟩ := by
  rw [Route.run, requireApiKey_of_admits hk,
    runRoute_of_ok (scopedPrincipal_of_admits h ht hv ha) harg]
  rfl

end Run

/-- The service is invoked exactly when all five conditions hold. The case
split follows the run: a gate that fails leaves a trace without the service. -/
theorem Route.invoked_iff {route : Route} (h : route.scope ∈ knownScopes)
    (deployment : Deployment) (req : Request) :
    (∃ name arg, Event.service name arg ∈ (route.run deployment req).trace) ↔
      req.keyAdmitted deployment ∧ ∃ token, req.hasToken token ∧
        ∃ principal, deployment.verify token = .principal principal ∧ route.admits principal ∧
          ∃ arg, route.arguments deployment.framework req = .ok arg := by
  constructor
  · rintro ⟨name, arg, hmem⟩
    by_cases hk : req.keyAdmitted deployment
    · by_cases htok : ∃ token, req.hasToken token
      · obtain ⟨token, ht⟩ := htok
        refine ⟨hk, token, ht, ?_⟩
        cases hv : deployment.verify token with
        | invalidToken =>
          rw [run_of_invalidToken hk ht hv] at hmem
          simp at hmem
        | raises cls =>
          rw [run_of_raises hk ht hv] at hmem
          simp at hmem
        | principal principal =>
          by_cases ha : route.admits principal
          · refine ⟨principal, rfl, ha, ?_⟩
            cases harg : route.arguments deployment.framework req with
            | error errors =>
              rw [run_of_invalid h hk ht hv ha harg] at hmem
              simp at hmem
            | ok a => exact ⟨a, rfl⟩
          · rw [run_of_not_admits h hk ht hv ha] at hmem
            simp at hmem
      · rw [run_of_no_token hk htok] at hmem
        simp at hmem
    · rw [run_of_no_key hk] at hmem
      simp at hmem
  · rintro ⟨hk, token, ht, principal, hv, ha, arg, harg⟩
    refine ⟨route.serviceMethod, route.wire arg, ?_⟩
    rw [run_of_valid h hk ht hv ha harg]
    simp

/-- A route with a registered scope is gated. -/
theorem Route.gated {route : Route} (h : route.scope ∈ knownScopes) (deployment : Deployment)
    (req : Request) : route.Gated deployment req (route.run deployment req) where
  invoked_iff := route.invoked_iff h deployment req
  key hk := by
    rw [run_of_no_key hk]
    exact ⟨rfl, rfl⟩
  token hk ht := by
    rw [run_of_no_token hk ht]
    exact ⟨rfl, rfl⟩
  rejected token hk ht hv := by
    rw [run_of_invalidToken hk ht hv]
    exact ⟨rfl, rfl⟩
  failed token cls hk ht hv := by
    rw [run_of_raises hk ht hv]
    exact ⟨rfl, rfl⟩
  scope token principal hk ht hv ha := by
    rw [run_of_not_admits h hk ht hv ha, clientResponse, exceptionHandler,
      build_insufficientScope h]
    exact ⟨rfl, rfl⟩
  invalid token principal errors hk ht hv ha harg := by
    rw [run_of_invalid h hk ht hv ha harg]
    exact ⟨rfl, fun detail => clientResponse_of_invalid⟩
  unrendered token principal errors hk ht hv ha harg hdetail := by
    rw [run_of_invalid h hk ht hv ha harg]
    exact clientResponse_of_unrendered hdetail
  served token principal arg hk ht hv ha harg := by
    rw [run_of_valid h hk ht hv ha harg]
    exact ⟨rfl, rfl⟩

/-- **The gates of the finance surface.** Every route mounts, and for every
deployment and every request its run is gated: key, token, verdict, scope,
validation, in this order, and then the service. -/
theorem FinanceRoute.mount_gated (route : FinanceRoute) :
    ∃ run, route.route.mount = .ok run ∧
      ∀ (deployment : Deployment) (req : Request),
        route.route.Gated deployment req (run deployment req) :=
  ⟨route.route.run, Route.mount_eq route.scope_mem, fun deployment req =>
    Route.gated route.scope_mem deployment req⟩

end KgaGateway
