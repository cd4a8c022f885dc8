import KgaGateway.Example

/-!
# What the caller sees of provider trouble

The example routes run behind two gates, the caller's key and the stored
provider token, and relay what the provider answers. `run_of_valid` and its
siblings are the ways a run goes; the `relayed_of_…` lemmas are the table from
the provider's outcome to the caller's response.

`blamesNoCaller_iff` is the result: trouble between the service and the
provider is never reported as a fault of the caller, but not all of it is
reported as what it is. A `429` whose `Retry-After` cannot be encoded in a header
comes out as a `500`, and an error whose body the client cannot decode as a
`502`.
-/

namespace KgaGateway

/-! ## The contract -/

/-- The answer that asks for authorization with the provider: a redirect to
the login URL for a browser, a `503` that carries it for an API client. -/
def LoginAnswer (req : Request) (response : Response) : Prop :=
  let loginUrl := Text.rstrip '/' req.baseUrl ++ "/integrations/example/auth/login"
  if Text.contains ((req.header "accept").getD "") "text/html" then
    response = ⟨307, [("location", Text.quote redirectSafe loginUrl)], .empty⟩
  else
    response = ⟨503, [], .json (.obj [("detail", .str "Provider authorization required"),
      ("login_url", .str loginUrl)])⟩

/-- The store holds a token, and not an empty one. -/
def Deployment.hasProviderToken (deployment : Deployment) : Prop :=
  ∃ token, deployment.store = some token ∧ token ≠ []

/-- The deployment with this provider behind this client. -/
def Deployment.over (deployment : Deployment) (client : HttpClient)
    (network : ProviderRequest → NetworkOutcome) : Deployment :=
  { deployment with provider := client.perform network }

/-- How what happens on the network is to be reported. -/
structure Relays (req : Request) (outcome : NetworkOutcome) (answer : Response) : Prop where
  /-- a provider that rejects the token looks like a missing one -/
  rejected : ∀ status headers content, outcome = .response status headers content →
    status = 401 ∨ status = 403 → LoginAnswer req answer
  /-- a rate limit is relayed with its `Retry-After`, or `60` -/
  limited : ∀ headers content, outcome = .response 429 headers content →
    answer = ⟨429, [("Retry-After", headerOr headers "Retry-After" "60")],
      .json (.obj [("detail", .str "Provider rate limit exceeded")])⟩
  /-- any other error status is relayed -/
  failed : ∀ status headers content, outcome = .response status headers content →
    400 ≤ status → status ∉ [401, 403, 429] → answer.status = status
  /-- a transport failure is a bad gateway -/
  transport : outcome = .transportFailure → answer.status = 502

/-- What a run of an example route owes the caller. -/
structure BlamesNoCaller (client : HttpClient) (network : ProviderRequest → NetworkOutcome)
    (deployment : Deployment) (req : Request) (run : App Response) : Prop where
  /-- `401` is about the caller's key, and nothing else is -/
  key : (clientResponse deployment.framework req run.result).status = 401 ↔
    ¬ req.keyAdmitted deployment
  /-- `403` is never the answer -/
  forbidden : (clientResponse deployment.framework req run.result).status ≠ 403
  /-- without a provider token nothing is sent -/
  unauthorized : req.keyAdmitted deployment → ¬ deployment.hasProviderToken →
    (∀ sent, Event.send sent ∉ run.trace) ∧
      LoginAnswer req (clientResponse deployment.framework req run.result)
  /-- what becomes of a request that is sent is reported as what it is -/
  relays : ∀ sent outcome, .send sent ∈ run.trace → client.exchange network sent = some outcome →
    Relays req outcome (clientResponse deployment.framework req run.result)

/-! ## The request of a route -/

namespace ExampleRoute

/-- The provider request a route sends. -/
def request (base : String) : (route : ExampleRoute) → route.Arg → ProviderRequest
  | listItems, page => ⟨base, "GET", "/items", [("page", page)], none⟩
  | getItem itemId, _ => ⟨base, "GET", "/items/" ++ itemId, [], none⟩
  | createItem, payload => ⟨base, "POST", "/items", [], some (.obj payload)⟩

/-- What a route makes of the provider's data. -/
def finish : ExampleRoute → Json → Json
  | listItems, data => ExampleService.itemsOf data
  | _, data => data

/-- Every service method sends one request and returns what it makes of the
data, unless the outcome is mapped onto an exception. -/
theorem call_eq (provider : ProviderRequest → ProviderOutcome) (service : ExampleService)
    (route : ExampleRoute) (arg : route.Arg) :
    route.call provider service arg =
      ⟨[.send (route.request service.baseUrl arg)],
        (ExampleService.mapped (provider (route.request service.baseUrl arg))).map
          route.finish⟩ := by
  cases route with
  | listItems =>
    simp only [call, ExampleService.listItems, ExampleService.request_eq, request]
    rcases ExampleService.mapped (provider _) with e | data <;> rfl
  | getItem itemId =>
    simp only [call, ExampleService.getItem, ExampleService.request_eq, request]
    rcases ExampleService.mapped (provider _) with e | data <;> rfl
  | createItem =>
    simp only [call, ExampleService.createItem, ExampleService.request_eq, request]
    rcases ExampleService.mapped (provider _) with e | data <;> rfl

/-! ## The ways a run goes -/

section Run

variable {route : ExampleRoute} {deployment : Deployment} {req : Request}

theorem run_of_no_key (hk : ¬ req.keyAdmitted deployment) :
    route.run deployment req = ⟨[], .error invalidApiKey⟩ := by
  rw [run, requireApiKey_of_not_admits hk]
  exact runRoute_of_decorator_error

theorem run_of_no_token (hk : req.keyAdmitted deployment) (ht : ¬ deployment.hasProviderToken) :
    ∃ message, route.run deployment req = ⟨[], .error (.providerAuthError message)⟩ := by
  refine ⟨"No provider token stored; authorization required.", ?_⟩
  have hensure : ensureValidToken deployment.store =
      .error (.providerAuthError "No provider token stored; authorization required.") := by
    rcases hs : deployment.store with _ | token
    · rfl
    · have hempty : token = [] := by
        by_contra hne
        exact ht ⟨token, hs, hne⟩
      rw [hempty]
      rfl
  rw [run, requireApiKey_of_admits hk, requireProviderAuth, hensure]
  exact runRoute_of_parameter_error rfl

theorem requireProviderAuth_ok (ht : deployment.hasProviderToken) :
    requireProviderAuth deployment = .ok (getExampleService deployment.settings) := by
  obtain ⟨token, hs, hne⟩ := ht
  rw [requireProviderAuth, hs, ensureValidToken, List.isEmpty_eq_false_iff.mpr hne]
  rfl

theorem run_of_invalid {errors : List FieldError} (hk : req.keyAdmitted deployment)
    (ht : deployment.hasProviderToken)
    (harg : route.arguments deployment.framework req = .error errors) :
    route.run deployment req = ⟨[], .error (.requestValidationError errors)⟩ := by
  rw [run, requireApiKey_of_admits hk, requireProviderAuth_ok ht]
  exact runRoute_of_argument_error rfl harg

/-- The base URL of the deployment's provider. -/
def base (deployment : Deployment) : String := (getExampleService deployment.settings).baseUrl

theorem run_of_valid {arg : route.Arg} (hk : req.keyAdmitted deployment)
    (ht : deployment.hasProviderToken)
    (harg : route.arguments deployment.framework req = .ok arg) :
    route.run deployment req =
      ⟨[.send (route.request (base deployment) arg)],
        match ExampleService.mapped (deployment.provider (route.request (base deployment) arg)) with
        | .error e => .error e
        | .ok data =>
          deployment.framework.respond route.model route.status (route.finish data)⟩ := by
  rw [run, requireApiKey_of_admits hk, requireProviderAuth_ok ht,
    runRoute_of_ok (Traced.lift_eq _) harg]
  simp only [call_eq, base]
  rcases ExampleService.mapped _ with e | data <;> rfl

end Run

end ExampleRoute

/-! ## From the outcome to the response -/

theorem loginAnswer_of_providerAuthError (framework : Framework) (req : Request)
    (message : String) :
    LoginAnswer req (clientResponse framework req (.error (.providerAuthError message))) := by
  have hhandled : exceptionHandler framework req (.providerAuthError message) =
      .ok (providerAuthExceptionHandler req) := build_providerAuth req
  rw [clientResponse_of_handled hhandled, providerAuthExceptionHandler, LoginAnswer]
  split
  · rfl
  · rfl

theorem status_of_loginAnswer {req : Request} {response : Response} (h : LoginAnswer req response) :
    response.status = 307 ∨ response.status = 503 := by
  rw [LoginAnswer] at h
  split at h
  · exact Or.inl (by rw [h])
  · exact Or.inr (by rw [h])

/-- Responding with a value is a success or the server's own failure. -/
theorem status_of_respond (framework : Framework) (model : Model.Shape) (status : Nat)
    (value : Json) (req : Request) :
    (clientResponse framework req (framework.respond model status value)).status = status ∨
      (clientResponse framework req (framework.respond model status value)).status = 500 := by
  rw [Framework.respond]
  split
  · -- the value does not validate
    exact Or.inr rfl
  · split
    · exact Or.inl rfl
    · exact Or.inr rfl

/-- The response to a run that sent its request: what became of the outcome. -/
def ExampleRoute.relayed (route : ExampleRoute) (framework : Framework) (req : Request)
    (outcome : ProviderOutcome) : Response :=
  clientResponse framework req (match ExampleService.mapped outcome with
    | .error e => .error e
    | .ok data => framework.respond route.model route.status (route.finish data))

section Relayed

variable {route : ExampleRoute} {framework : Framework} {req : Request}
  {response : ProviderResponse}

theorem relayed_of_rejected (h : response.status = 401 ∨ response.status = 403) :
    LoginAnswer req (route.relayed framework req (.response response)) := by
  rw [ExampleRoute.relayed, ExampleService.mapped, if_pos (by omega), ExampleService.raiseMapped,
    if_pos (by simpa using h)]
  exact loginAnswer_of_providerAuthError framework req _

theorem relayed_of_limited (h : response.status = 429) :
    route.relayed framework req (.response response) =
      match Response.build ⟨429, [("Retry-After", response.header "Retry-After" "60")],
        detailBody "Provider rate limit exceeded"⟩ with
      | .ok response => response
      | .error _ => internalServerError := by
  rw [ExampleRoute.relayed, ExampleService.mapped, if_pos (by omega), ExampleService.raiseMapped,
    if_neg (by simp [h]), if_pos (by simp [h])]
  rfl

theorem relayed_of_failed (h : 400 ≤ response.status) (hnot : response.status ∉ [401, 403, 429]) :
    (route.relayed framework req (.response response)).status = response.status := by
  simp only [List.mem_cons, List.not_mem_nil, or_false, not_or] at hnot
  obtain ⟨h1, h2, h3⟩ := hnot
  rw [ExampleRoute.relayed, ExampleService.mapped, if_pos h, ExampleService.raiseMapped,
    if_neg (by simp [h1, h2]), if_neg (by simp [h3])]
  rfl

theorem relayed_of_below_400 (h : response.status < 400) :
    (route.relayed framework req (.response response)).status = 500 ∨
      (route.relayed framework req (.response response)).status = route.status := by
  rw [ExampleRoute.relayed, ExampleService.mapped, if_neg (by omega)]
  rcases response.body with _ | data
  · exact Or.inl rfl
  · exact (status_of_respond framework _ _ _ req).symm

end Relayed

theorem ExampleRoute.status_cases (route : ExampleRoute) :
    route.status = 200 ∨ route.status = 201 := by
  cases route with
  | createItem => exact Or.inr rfl
  | _ => exact Or.inl rfl

section Outcome

variable {route : ExampleRoute} {framework : Framework} {req : Request}

/-- A relayed response is not about the caller. -/
theorem relayed_status (outcome : ProviderOutcome) :
    (route.relayed framework req outcome).status ≠ 401 ∧
      (route.relayed framework req outcome).status ≠ 403 := by
  cases outcome with
  | httpError =>
    have hstatus : (route.relayed framework req .httpError).status = 502 := rfl
    omega
  | raises cls =>
    have hstatus : (route.relayed framework req (.raises cls)).status = 500 := rfl
    omega
  | response response =>
    by_cases hrej : response.status = 401 ∨ response.status = 403
    · have hlogin := status_of_loginAnswer
        (@relayed_of_rejected route framework req response hrej)
      omega
    · by_cases hlim : response.status = 429
      · rw [relayed_of_limited hlim, Response.build]
        split_ifs
        · exact ⟨(by decide : 429 ≠ 401), (by decide : 429 ≠ 403)⟩
        · exact ⟨(by decide : 500 ≠ 401), (by decide : 500 ≠ 403)⟩
      · by_cases herr : 400 ≤ response.status
        · rw [relayed_of_failed herr (by simp; omega)]
          omega
        · have hbelow := @relayed_of_below_400 route framework req response (by omega)
          have hstatus := route.status_cases
          omega

/-- What is not reported as what it is: an error of the provider whose body
cannot be decoded, unless it is a bad gateway anyway, and a rate limit whose
`Retry-After` has no Latin-1 encoding. -/
def HttpClient.Distorts (client : HttpClient) : NetworkOutcome → Prop
  | .transportFailure => False
  | .response status headers content =>
    match client.unpack headers content with
    | none => 400 ≤ status ∧ status ≠ 502
    | some _ => status = 429 ∧ Text.isLatin1 (headerOr headers "Retry-After" "60") = false

/-- The answer to a response that cannot be decoded is a `502`. -/
theorem relays_of_unpack_none_iff {client : HttpClient} {status : Nat}
    {headers : List (String × String)} {content : List UInt8}
    (h : client.unpack headers content = none) :
    Relays req (.response status headers content)
        (route.relayed framework req (client.receive (.response status headers content))) ↔
      ¬ (400 ≤ status ∧ status ≠ 502) := by
  rw [HttpClient.receive_of_unpack_none h]
  have hstatus : (route.relayed framework req .httpError).status = 502 := rfl
  constructor
  · rintro hrelays ⟨herr, hne⟩
    by_cases hrej : status = 401 ∨ status = 403
    · have hlogin := status_of_loginAnswer (hrelays.rejected _ _ _ rfl hrej)
      omega
    · by_cases hlim : status = 429
      · subst hlim
        have hanswer := congrArg Response.status (hrelays.limited _ _ rfl)
        rw [hstatus] at hanswer
        cases hanswer
      · have hanswer := hrelays.failed _ _ _ rfl herr (by simp; omega)
        omega
  · intro hbelow
    exact {
      rejected := by
        rintro _ _ _ ⟨⟩ hrej
        omega
      limited := by
        rintro _ _ ⟨⟩
        omega
      failed := by
        rintro _ _ _ ⟨⟩ herr -
        omega
      transport := by rintro ⟨⟩ }

/-- The answer to a response that the client returns. -/
theorem relays_of_unpack_iff {client : HttpClient} {status : Nat}
    {headers : List (String × String)} {content bytes : List UInt8}
    (h : client.unpack headers content = some bytes) :
    Relays req (.response status headers content)
        (route.relayed framework req (client.receive (.response status headers content))) ↔
      ¬ (status = 429 ∧ Text.isLatin1 (headerOr headers "Retry-After" "60") = false) := by
  rw [HttpClient.receive_of_unpack h]
  constructor
  · rintro hrelays ⟨rfl, hlatin⟩
    -- the contract says `429`, the run ends in the `UnicodeEncodeError`
    have hanswer := congrArg Response.status (hrelays.limited _ _ rfl)
    rw [relayed_of_limited rfl] at hanswer
    simp [Response.build, ProviderResponse.header, hlatin, internalServerError] at hanswer
  · intro hlatin
    exact {
      rejected := by
        rintro _ _ _ ⟨⟩ hrej
        exact relayed_of_rejected hrej
      limited := by
        rintro _ _ ⟨⟩
        rw [relayed_of_limited rfl]
        have hencoded : Text.isLatin1 (headerOr headers "Retry-After" "60") = true :=
          Bool.of_not_eq_false fun hnot => hlatin ⟨rfl, hnot⟩
        simp [Response.build, ProviderResponse.header, hencoded, detailBody]
      failed := by
        rintro _ _ _ ⟨⟩ herr hnot
        exact relayed_of_failed herr hnot
      transport := by rintro ⟨⟩ }

/-- **What is reported as what it is.** -/
theorem relays_iff (client : HttpClient) (outcome : NetworkOutcome) :
    Relays req outcome (route.relayed framework req (client.receive outcome)) ↔
      ¬ client.Distorts outcome := by
  cases outcome with
  | transportFailure =>
    refine iff_of_true ⟨?_, ?_, ?_, fun _ => rfl⟩ id
    · rintro _ _ _ ⟨⟩
    · rintro _ _ ⟨⟩
    · rintro _ _ _ ⟨⟩
  | response status headers content =>
    rw [HttpClient.Distorts]
    cases h : client.unpack headers content with
    | none => exact relays_of_unpack_none_iff h
    | some bytes => exact relays_of_unpack_iff h

end Outcome

/-! ## The contract, run by run -/

section Runs

variable {client : HttpClient} {network : ProviderRequest → NetworkOutcome}
  {deployment : Deployment} {req : Request} {run : App Response}

/-- A run that sends nothing keeps the contract, if its response fits the gates. -/
theorem blamesNoCaller_of_unsent (htrace : run.trace = [])
    (hkey : (clientResponse deployment.framework req run.result).status = 401 ↔
      ¬ req.keyAdmitted deployment)
    (hforbidden : (clientResponse deployment.framework req run.result).status ≠ 403)
    (hlogin : req.keyAdmitted deployment → ¬ deployment.hasProviderToken →
      LoginAnswer req (clientResponse deployment.framework req run.result)) :
    BlamesNoCaller client network deployment req run where
  key := hkey
  forbidden := hforbidden
  unauthorized hk ht := ⟨by simp [htrace], hlogin hk ht⟩
  relays sent outcome hsent := by simp [htrace] at hsent

/-- A run that sends its request keeps the contract exactly if what happens to it
is reported as what it is. -/
theorem blamesNoCaller_of_sent_iff {route : ExampleRoute} {sent : ProviderRequest}
    (hk : req.keyAdmitted deployment) (ht : deployment.hasProviderToken)
    (htrace : run.trace = [.send sent])
    (hresult : clientResponse deployment.framework req run.result =
      route.relayed deployment.framework req (client.perform network sent)) :
    BlamesNoCaller client network deployment req run ↔
      ∀ outcome, client.exchange network sent = some outcome → ¬ client.Distorts outcome := by
  have hanswer : ∀ outcome, client.exchange network sent = some outcome →
      (Relays req outcome (clientResponse deployment.framework req run.result) ↔
        ¬ client.Distorts outcome) := by
    intro outcome hexchange
    cases hrefuses : client.refuses sent with
    | some cls =>
      rw [HttpClient.exchange_of_refused hrefuses] at hexchange
      cases hexchange
    | none =>
      rw [HttpClient.exchange_of_sent hrefuses] at hexchange
      obtain rfl := Option.some.inj hexchange
      rw [hresult, HttpClient.perform_of_sent hrefuses]
      exact relays_iff client _
  constructor
  · intro hblames outcome hexchange
    exact (hanswer outcome hexchange).mp (hblames.relays sent outcome (by simp [htrace]) hexchange)
  · intro hnot
    obtain ⟨h401, h403⟩ :=
      @relayed_status route deployment.framework req (client.perform network sent)
    exact {
      key := by
        rw [hresult]
        exact iff_of_false h401 (not_not.mpr hk)
      forbidden := by
        rw [hresult]
        exact h403
      unauthorized := fun _ hnone => absurd ht hnone
      relays := fun sent' outcome hsent' hexchange => by
        rw [htrace, List.mem_singleton] at hsent'
        cases hsent'
        exact (hanswer outcome hexchange).mpr (hnot outcome hexchange) }

end Runs

/-- The request reaches the provider, and what happens to it there is not
reported as what it is. -/
def ExampleRoute.Unrelayable (route : ExampleRoute) (client : HttpClient)
    (network : ProviderRequest → NetworkOutcome) (deployment : Deployment) (req : Request) :
    Prop :=
  req.keyAdmitted deployment ∧ deployment.hasProviderToken ∧
    ∃ arg, route.arguments deployment.framework req = .ok arg ∧
      ∃ outcome, client.exchange network (route.request (base deployment) arg) = some outcome ∧
        client.Distorts outcome

/-- The contract at a deployment with this provider behind this client. The
cases are those of the run. -/
theorem blamesNoCaller_iff_of_provider (route : ExampleRoute) {client : HttpClient}
    {network : ProviderRequest → NetworkOutcome} {deployment : Deployment}
    (hprovider : deployment.provider = client.perform network) (req : Request) :
    BlamesNoCaller client network deployment req (route.run deployment req) ↔
      ¬ route.Unrelayable client network deployment req := by
  by_cases hk : req.keyAdmitted deployment
  · by_cases ht : deployment.hasProviderToken
    · cases harg : route.arguments deployment.framework req with
      | error errors =>
        -- nothing was sent: a `422`, or a `500` if that cannot be rendered
        have hrun := ExampleRoute.run_of_invalid hk ht harg
        have hstatus := status_of_invalid deployment.framework req errors
        refine iff_of_true ?_ ?_
        · rw [hrun]
          exact blamesNoCaller_of_unsent rfl (iff_of_false (by dsimp only; omega) (not_not.mpr hk))
            (by dsimp only; omega) fun _ hnot => absurd ht hnot
        · rintro ⟨-, -, arg, hok, -⟩
          rw [harg] at hok
          cases hok
      | ok arg =>
        have hrun := ExampleRoute.run_of_valid hk ht harg
        rw [@blamesNoCaller_of_sent_iff client network deployment req _ route _ hk ht (by rw [hrun])
          (by rw [hrun, ← hprovider]; rfl)]
        constructor
        · rintro hnot ⟨-, -, arg', hok, outcome, hexchange, hdistorts⟩
          rw [harg] at hok
          obtain rfl := Except.ok.inj hok
          exact hnot outcome hexchange hdistorts
        · intro hnot outcome hexchange hdistorts
          exact hnot ⟨hk, ht, arg, harg, outcome, hexchange, hdistorts⟩
    · -- nothing was sent: the login answer
      obtain ⟨message, hrun⟩ := @ExampleRoute.run_of_no_token route deployment req hk ht
      have hlogin : LoginAnswer req
          (clientResponse deployment.framework req (route.run deployment req).result) := by
        rw [hrun]
        exact loginAnswer_of_providerAuthError deployment.framework req message
      have hstatus := status_of_loginAnswer hlogin
      refine iff_of_true ?_ fun h => ht h.2.1
      exact blamesNoCaller_of_unsent (by rw [hrun])
        (iff_of_false (by omega) (not_not.mpr hk)) (by omega) fun _ _ => hlogin
  · -- the key gate comes first
    have hrun := @ExampleRoute.run_of_no_key route deployment req hk
    have hstatus : (clientResponse deployment.framework req
        (route.run deployment req).result).status = 401 := by
      rw [hrun]
      rfl
    refine iff_of_true ?_ fun h => hk h.1
    exact blamesNoCaller_of_unsent (by rw [hrun]) (iff_of_true hstatus hk) (by omega)
      fun hk' => absurd hk' hk

/-- **Provider trouble is never reported as a caller fault**, exactly when the
provider answers with nothing that the service fails to relay: a rate limit whose
`Retry-After` has no Latin-1 encoding, or an error whose body cannot be decoded. -/
theorem blamesNoCaller_iff (route : ExampleRoute) (client : HttpClient)
    (network : ProviderRequest → NetworkOutcome) (deployment : Deployment) (req : Request) :
    BlamesNoCaller client network (deployment.over client network) req
        (route.run (deployment.over client network) req) ↔
      ¬ route.Unrelayable client network (deployment.over client network) req :=
  blamesNoCaller_iff_of_provider route rfl req

/-- A rate limit in full-width digits, which arrive as UTF-8 and have no
Latin-1 encoding: the caller gets a `500`, and no `Retry-After`. -/
theorem blamesNoCaller_fails_on_fullWidth :
    let network : ProviderRequest → NetworkOutcome := fun _ =>
      .response 429 [("Retry-After", "６０")] []
    let deployment : Deployment := Deployment.over
      ⟨{}, fun _ => .invalidToken, .plain, some [("access_token", .str "t0")],
        fun _ => .httpError⟩ .plain network
    let req : Request := { path := "/integrations/example/items/item-001" }
    ¬ BlamesNoCaller .plain network deployment req
      ((ExampleRoute.getItem "item-001").run deployment req) := by
  intro network deployment req
  rw [blamesNoCaller_iff_of_provider _ rfl, not_not]
  refine ⟨Or.inl (by decide), ⟨_, rfl, List.cons_ne_nil _ _⟩, (), rfl, _, rfl, rfl, ?_⟩
  decide

end KgaGateway
