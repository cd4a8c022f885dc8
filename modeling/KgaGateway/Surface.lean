import KgaGateway.Main

/-!
# The whole surface

`create_app` mounts the example routes, the finance routes and `/health`. A
request is answered by the route whose method and pattern it has, if there is
one: there is never a second one, so neither the order of the routers nor the
path parameter of `/items/{item_id}` nor the line feed a pattern leaves out at
the end hides a route (`resolve_eq_some_iff`).

What the application does on behalf of a request then follows from the routes,
one by one: for each action across a seam, `createApp_acts` says exactly when
it happens.
-/

namespace KgaGateway

open Scopes

/-! ## Resolution -/

/-- The routes `create_app` declares; that of an item carries the id. -/
inductive AppRoute : Type where
  | items : ExampleRoute → AppRoute
  | finance : FinanceRoute → AppRoute
  | health : AppRoute

/-- The method an example route is declared with. -/
def ExampleRoute.method : ExampleRoute → String
  | createItem => "POST"
  | _ => "GET"

/-- The path of an example route. -/
def ExampleRoute.path : ExampleRoute → String
  | getItem itemId => apiPrefix ++ "/items/" ++ itemId
  | _ => apiPrefix ++ "/items"

namespace AppRoute

/-- The declared method. -/
def method : AppRoute → String
  | items route => route.method
  | finance route => route.route.method
  | health => "GET"

/-- The declared path. -/
def path : AppRoute → String
  | items route => route.path
  | finance route => route.route.path
  | health => "/health"

/-- The paths a route takes: the declared one, with or without a line feed after
it. A path parameter takes any text that is not empty and has no slash. -/
def Takes : AppRoute → String → Prop
  | items (.getItem itemId), path =>
    path = apiPrefix ++ "/items/" ++ itemId ∧ itemId ≠ "" ∧ '/' ∉ itemId.toList
  | route, path => path = route.path ∨ path = route.path ++ "\n"

/-- The request is one the route is declared for. -/
structure Matches (route : AppRoute) (req : Request) : Prop where
  method : req.method = route.method
  path : route.Takes req.path

/-- A run of a route. -/
def run (route : AppRoute) (deployment : Deployment) (req : Request) : App Response :=
  match route with
  | items route => route.run deployment req
  | finance route => route.route.run deployment req
  | health => pure (KgaGateway.health deployment.settings)

end AppRoute

/-- The finance route a request matches, the first one. -/
def financeRoute (req : Request) : Option FinanceRoute :=
  FinanceRoute.all.find? fun r =>
    r.route.method == req.method && pathMatches r.route.path req.path

/-- The route `create_app` answers a request with. -/
def resolve (req : Request) : Option AppRoute :=
  match exampleRoute req with
  | some route => some (.items route)
  | none =>
    match financeRoute req with
    | some route => some (.finance route)
    | none =>
      if req.method == "GET" && pathMatches "/health" req.path then some .health else none

/-- What the application computes for a request: the route it resolves to, or
the framework's own answer. -/
def dispatch (deployment : Deployment) (framework : Request → App Response) (req : Request) :
    App Response :=
  match resolve req with
  | some route => route.run deployment req
  | none => framework req

/-- The finance router mounts. -/
theorem financeRouter_eq :
    financeRouter = .ok (FinanceRoute.all.map fun r => ⟨r.route.method, r.route.path, r.route.run⟩) := by
  have hmount : ∀ r : FinanceRoute,
      r.route.mount.map (Mounted.mk r.route.method r.route.path) =
        .ok ⟨r.route.method, r.route.path, r.route.run⟩ := by
    intro r
    rw [Route.mount_eq r.scope_mem]
    rfl
  simp only [financeRouter, hmount]
  rfl

/-- `create_app` answers a request with the route it resolves to. -/
theorem createApp_eq (deployment : Deployment) (framework : Request → App Response) :
    createApp deployment framework = .ok (dispatch deployment framework) := by
  rw [createApp, financeRouter_eq]
  refine congrArg Except.ok (funext fun req => ?_)
  simp only [dispatch, resolve]
  cases exampleRoute req with
  | some route => rfl
  | none =>
    simp only [List.find?_map, Function.comp_def]
    rw [← financeRoute]
    cases financeRoute req with
    | some route => rfl
    | none =>
      by_cases hhealth : (req.method == "GET" && pathMatches "/health" req.path) = true
      · simp only [hhealth, if_true]
        rfl
      · simp only [hhealth]
        rfl

/-! ## One route for a request -/

theorem itemIdOf_eq_some_iff {path itemId : String} :
    itemIdOf path = some itemId ↔
      path = apiPrefix ++ "/items/" ++ itemId ∧ itemId ≠ "" ∧ '/' ∉ itemId.toList := by
  simp only [itemIdOf, Bool.and_eq_true, List.isPrefixOf_iff_prefix, Bool.not_eq_true',
    List.isEmpty_eq_false_iff, List.contains_eq_mem, decide_eq_false_iff_not]
  constructor
  · intro h
    obtain ⟨⟨⟨⟨rest, hrest⟩, hne⟩, hslash⟩, hid⟩ := Option.ite_none_right_eq_some.mp h
    rw [← hrest, List.drop_left] at hne hslash hid
    obtain rfl := Option.some.inj hid
    refine ⟨?_, ?_, by simpa using hslash⟩
    · rw [← String.toList_inj]
      simp [← hrest]
    · intro he
      exact hne (by simpa using congrArg String.toList he)
  · rintro ⟨rfl, hne, hslash⟩
    have hne' : itemId.toList ≠ [] := fun he => hne (String.toList_inj.mp (by simpa using he))
    have happend : (apiPrefix ++ "/items/" ++ itemId).toList =
        (apiPrefix ++ "/items/").toList ++ itemId.toList := String.toList_append
    rw [happend, List.drop_left, if_pos ⟨⟨⟨_, rfl⟩, hne'⟩, hslash⟩, String.ofList_toList]

theorem pathMatches_iff {literal path : String} :
    pathMatches literal path = true ↔ path = literal ∨ path = literal ++ "\n" := by
  rw [pathMatches, Bool.or_eq_true, beq_iff_eq, beq_iff_eq]

/-- Of the literals without a line feed, a path matches one at most. -/
theorem pathMatches_unique {literal literal' path : String} (hfeed : '\n' ∉ literal.toList)
    (hfeed' : '\n' ∉ literal'.toList) (h : path = literal ∨ path = literal ++ "\n")
    (h' : path = literal' ∨ path = literal' ++ "\n") : literal = literal' := by
  rcases h with rfl | rfl <;> rcases h' with h' | h'
  · exact h'
  · exact absurd (by simp [h']) hfeed
  · exact absurd (by simp [← h']) hfeed'
  · exact String.toList_inj.mp (by simpa using congrArg String.toList h')

/-- The paths of the example surface, apart: `/items` is no item. -/
theorem items_ne_item (itemId : String) {path : String}
    (h : path = apiPrefix ++ "/items" ∨ path = apiPrefix ++ "/items" ++ "\n") :
    path ≠ apiPrefix ++ "/items/" ++ itemId := by
  rintro rfl
  -- after `/items` there is the end, or a line feed, but no slash
  have hitem : (apiPrefix ++ "/items/" ++ itemId).toList =
      (apiPrefix ++ "/items").toList ++ '/' :: itemId.toList := by
    simp [apiPrefix]
  rcases h with h | h <;> rw [← String.toList_inj, hitem] at h <;> simp at h

theorem exampleRoute_eq_some_iff {req : Request} {route : ExampleRoute} :
    exampleRoute req = some route ↔ (AppRoute.items route).Matches req := by
  rw [exampleRoute]
  by_cases hitems : pathMatches (apiPrefix ++ "/items") req.path = true
  · rw [if_pos hitems]
    have hpath := pathMatches_iff.mp hitems
    constructor
    · intro h
      split at h
      · rename_i hmethod
        cases h
        exact ⟨beq_iff_eq.mp hmethod, hpath⟩
      · obtain ⟨hmethod, h⟩ := Option.ite_none_right_eq_some.mp h
        cases h
        exact ⟨beq_iff_eq.mp hmethod, hpath⟩
    · rintro ⟨hmethod, htakes⟩
      cases route with
      | listItems => exact if_pos (beq_iff_eq.mpr hmethod)
      | createItem =>
        rw [if_neg (by rw [hmethod]; decide)]
        exact if_pos (beq_iff_eq.mpr hmethod)
      | getItem itemId => exact absurd htakes.1 (items_ne_item itemId hpath)
  · rw [if_neg hitems]
    constructor
    · intro h
      obtain ⟨hmethod, h⟩ := Option.ite_none_right_eq_some.mp h
      obtain ⟨itemId, hid, rfl⟩ := Option.map_eq_some_iff.mp h
      exact ⟨beq_iff_eq.mp hmethod, itemIdOf_eq_some_iff.mp hid⟩
    · rintro ⟨hmethod, htakes⟩
      cases route with
      | listItems => exact absurd (pathMatches_iff.mpr htakes) hitems
      | createItem => exact absurd (pathMatches_iff.mpr htakes) hitems
      | getItem itemId =>
        rw [itemIdOf_eq_some_iff.mpr htakes]
        exact if_pos (beq_iff_eq.mpr hmethod)

/-! ### Nothing in common -/

/-- The three groups of routes differ in the first letter of the path. -/
def AppRoute.letter : AppRoute → Char
  | items _ => 'i'
  | finance _ => 'f'
  | health => 'h'

theorem AppRoute.path_letter {route : AppRoute} {path : String} (h : route.Takes path) :
    path.toList[1]? = some route.letter := by
  cases route with
  | items route =>
    cases route with
    | getItem itemId =>
      rw [h.1]
      simp [apiPrefix, letter]
    | _ => rcases h with rfl | rfl <;> rfl
  | finance route => cases route <;> rcases h with rfl | rfl <;> rfl
  | health => rcases h with rfl | rfl <;> rfl

/-- Method and path tell the finance routes apart. -/
theorem FinanceRoute.eq_of_method_path {r r' : FinanceRoute}
    (hmethod : r.route.method = r'.route.method) (hpath : r.route.path = r'.route.path) :
    r = r' := by
  revert hmethod hpath
  cases r <;> cases r' <;> decide

/-- No declared path has a line feed. -/
theorem FinanceRoute.not_feed_path (r : FinanceRoute) : '\n' ∉ r.route.path.toList := by
  cases r <;> decide

/-- So do method and path of the example routes. -/
theorem ExampleRoute.eq_of_takes {r r' : ExampleRoute} {path : String}
    (hmethod : r.method = r'.method) (h : (AppRoute.items r).Takes path)
    (h' : (AppRoute.items r').Takes path) : r = r' := by
  cases r with
  | listItems =>
    cases r' with
    | listItems => rfl
    | getItem itemId => exact absurd h'.1 (items_ne_item itemId h)
    | createItem => exact absurd hmethod (by decide)
  | getItem itemId =>
    cases r' with
    | listItems => exact absurd h.1 (items_ne_item itemId h')
    | getItem itemId' =>
      have hlist := congrArg String.toList (h.1.symm.trans h'.1)
      simp only [String.toList_append, List.append_assoc, List.append_cancel_left_eq] at hlist
      rw [String.toList_inj.mp hlist]
    | createItem => exact absurd hmethod (by simp [method])
  | createItem =>
    cases r' with
    | listItems => exact absurd hmethod (by decide)
    | getItem itemId => exact absurd hmethod (by simp [method])
    | createItem => rfl

/-- Two routes for one request are the same. -/
theorem AppRoute.Matches.unique {route route' : AppRoute} {req : Request} (h : route.Matches req)
    (h' : route'.Matches req) : route = route' := by
  have hmethod : route.method = route'.method := h.method.symm.trans h'.method
  have hletter : route.letter = route'.letter :=
    Option.some.inj ((path_letter h.path).symm.trans (path_letter h'.path))
  cases route with
  | items r =>
    cases route' with
    | items r' => rw [ExampleRoute.eq_of_takes hmethod h.path h'.path]
    | finance r' => exact absurd hletter (by simp [letter])
    | health => exact absurd hletter (by simp [letter])
  | finance r =>
    cases route' with
    | items r' => exact absurd hletter (by simp [letter])
    | finance r' =>
      have hpath := pathMatches_unique r.not_feed_path r'.not_feed_path h.path h'.path
      rw [FinanceRoute.eq_of_method_path hmethod hpath]
    | health => exact absurd hletter (by simp [letter])
  | health =>
    cases route' with
    | items r' => exact absurd hletter (by simp [letter])
    | finance r' => exact absurd hletter (by simp [letter])
    | health => rfl

theorem FinanceRoute.mem_all (r : FinanceRoute) : r ∈ FinanceRoute.all := by
  cases r <;> decide

theorem financeRoute_eq_some_iff {req : Request} {route : FinanceRoute} :
    financeRoute req = some route ↔ (AppRoute.finance route).Matches req := by
  have hfound : ∀ {r : FinanceRoute},
      (r.route.method == req.method && pathMatches r.route.path req.path) = true ↔
        (AppRoute.finance r).Matches req := by
    intro r
    rw [Bool.and_eq_true, beq_iff_eq, pathMatches_iff]
    exact ⟨fun h => ⟨h.1.symm, h.2⟩, fun h => ⟨h.method.symm, h.path⟩⟩
  constructor
  · intro h
    exact hfound.mp (List.find?_some (p := fun r : FinanceRoute =>
      r.route.method == req.method && pathMatches r.route.path req.path) h)
  · intro h
    have hsome : (financeRoute req).isSome = true := by
      rw [financeRoute, List.find?_isSome]
      exact ⟨route, route.mem_all, hfound.mpr h⟩
    obtain ⟨route', hroute'⟩ := Option.isSome_iff_exists.mp hsome
    have hmatches : (AppRoute.finance route').Matches req :=
      hfound.mp (List.find?_some (p := fun r : FinanceRoute =>
        r.route.method == req.method && pathMatches r.route.path req.path) hroute')
    rw [hroute', AppRoute.finance.inj (hmatches.unique h)]

/-- A request resolves to a route exactly if it is one the route is declared
for. -/
theorem resolve_eq_some_iff {req : Request} {route : AppRoute} :
    resolve req = some route ↔ route.Matches req := by
  constructor
  · intro h
    rw [resolve] at h
    split at h
    · rename_i r hr
      cases h
      exact exampleRoute_eq_some_iff.mp hr
    · split at h
      · rename_i r hr
        cases h
        exact financeRoute_eq_some_iff.mp hr
      · obtain ⟨hhealth, h⟩ := Option.ite_none_right_eq_some.mp h
        cases h
        rw [Bool.and_eq_true, beq_iff_eq, pathMatches_iff] at hhealth
        exact ⟨hhealth.1, hhealth.2⟩
  · intro h
    have hnone : ∀ r, exampleRoute req = some r → AppRoute.items r = route := fun r hr =>
      (exampleRoute_eq_some_iff.mp hr).unique h
    have hnone' : ∀ r, financeRoute req = some r → AppRoute.finance r = route := fun r hr =>
      (financeRoute_eq_some_iff.mp hr).unique h
    rw [resolve]
    cases hexample : exampleRoute req with
    | some r => exact congrArg some (hnone r hexample)
    | none =>
      cases hfinance : financeRoute req with
      | some r => exact congrArg some (hnone' r hfinance)
      | none =>
        cases route with
        | items r =>
          rw [exampleRoute_eq_some_iff.mpr h] at hexample
          cases hexample
        | finance r =>
          rw [financeRoute_eq_some_iff.mpr h] at hfinance
          cases hfinance
        | health =>
          refine if_pos ?_
          rw [Bool.and_eq_true, beq_iff_eq, pathMatches_iff]
          exact ⟨h.method, h.path⟩

/-- **Routing.** A request is answered by the one route it is declared for, and
by the framework if there is none. -/
theorem createApp_routes (deployment : Deployment) (framework : Request → App Response) :
    ∃ app, createApp deployment framework = .ok app ∧ ∀ req,
      (∀ route, AppRoute.Matches route req → app req = route.run deployment req ∧
        ∀ route', route'.Matches req → route' = route) ∧
      ((∀ route, ¬ AppRoute.Matches route req) → app req = framework req) := by
  refine ⟨_, createApp_eq _ _, fun req => ⟨fun route h => ?_, fun h => ?_⟩⟩
  · rw [dispatch, resolve_eq_some_iff.mpr h]
    exact ⟨rfl, fun route' h' => h'.unique h⟩
  · have hnone : resolve req = none := by
      rw [Option.eq_none_iff_forall_ne_some]
      exact fun route hroute => h route (resolve_eq_some_iff.mp hroute)
    rw [dispatch, hnone]

/-! ## The ways a run goes -/

/-- Everything a run of a finance route can be. -/
inductive Route.Way (route : Route) (deployment : Deployment) (req : Request) :
    App Response → Prop
  | noKey : ¬ req.keyAdmitted deployment → Way route deployment req ⟨[], .error invalidApiKey⟩
  | noToken : req.keyAdmitted deployment → (¬ ∃ token, req.hasToken token) →
      Way route deployment req ⟨[], .error missingBearer⟩
  | invalidToken {token : String} : req.keyAdmitted deployment → req.hasToken token →
      deployment.verify token = .invalidToken →
        Way route deployment req ⟨[.verify token], .error invalidBearer⟩
  | raises {token cls : String} : req.keyAdmitted deployment → req.hasToken token →
      deployment.verify token = .raises cls →
        Way route deployment req ⟨[.verify token], .error (.unhandled cls)⟩
  | notAdmitted {token : String} {principal : Principal} : req.keyAdmitted deployment →
      req.hasToken token → deployment.verify token = .principal principal →
        ¬ route.admits principal →
          Way route deployment req
            ⟨[.verify token], .error (.insufficientScopeError route.scope)⟩
  | invalid {token : String} {principal : Principal} {errors : List FieldError} :
      req.keyAdmitted deployment → req.hasToken token →
        deployment.verify token = .principal principal → route.admits principal →
          route.arguments deployment.framework req = .error errors →
            Way route deployment req ⟨[.verify token], .error (.requestValidationError errors)⟩
  | served {token : String} {principal : Principal} {arg : route.Arg} :
      req.keyAdmitted deployment → req.hasToken token →
        deployment.verify token = .principal principal → route.admits principal →
          route.arguments deployment.framework req = .ok arg →
            Way route deployment req
              ⟨[.verify token, .service route.serviceMethod (route.wire arg)],
                deployment.framework.respond route.model route.status (route.service arg)⟩

/-- A run of a route with a registered scope goes one of these ways. -/
theorem Route.way {route : Route} (h : route.scope ∈ knownScopes) (deployment : Deployment)
    (req : Request) : route.Way deployment req (route.run deployment req) := by
  by_cases hk : req.keyAdmitted deployment
  · by_cases htok : ∃ token, req.hasToken token
    · obtain ⟨token, ht⟩ := htok
      cases hv : deployment.verify token with
      | invalidToken =>
        rw [run_of_invalidToken hk ht hv]
        exact .invalidToken hk ht hv
      | raises cls =>
        rw [run_of_raises hk ht hv]
        exact .raises hk ht hv
      | principal principal =>
        by_cases ha : route.admits principal
        · cases harg : route.arguments deployment.framework req with
          | error errors =>
            rw [run_of_invalid h hk ht hv ha harg]
            exact .invalid hk ht hv ha harg
          | ok arg =>
            rw [run_of_valid h hk ht hv ha harg]
            exact .served hk ht hv ha harg
        · rw [run_of_not_admits h hk ht hv ha]
          exact .notAdmitted hk ht hv ha
    · rw [run_of_no_token hk htok]
      exact .noToken hk htok
  · rw [run_of_no_key hk]
    exact .noKey hk

/-- Everything a run of an example route can be. -/
inductive ExampleRoute.Way (route : ExampleRoute) (deployment : Deployment) (req : Request) :
    App Response → Prop
  | noKey : ¬ req.keyAdmitted deployment → Way route deployment req ⟨[], .error invalidApiKey⟩
  | noToken {message : String} : req.keyAdmitted deployment → ¬ deployment.hasProviderToken →
      Way route deployment req ⟨[], .error (.providerAuthError message)⟩
  | invalid {errors : List FieldError} : req.keyAdmitted deployment →
      deployment.hasProviderToken → route.arguments deployment.framework req = .error errors →
        Way route deployment req ⟨[], .error (.requestValidationError errors)⟩
  | sent {arg : route.Arg} : req.keyAdmitted deployment → deployment.hasProviderToken →
      route.arguments deployment.framework req = .ok arg →
        Way route deployment req
          ⟨[.send (route.request (base deployment) arg)],
            match ExampleService.mapped
              (deployment.provider (route.request (base deployment) arg)) with
            | .error e => .error e
            | .ok data =>
              deployment.framework.respond route.model route.status (route.finish data)⟩

theorem ExampleRoute.way (route : ExampleRoute) (deployment : Deployment) (req : Request) :
    route.Way deployment req (route.run deployment req) := by
  by_cases hk : req.keyAdmitted deployment
  · by_cases ht : deployment.hasProviderToken
    · cases harg : route.arguments deployment.framework req with
      | error errors =>
        rw [run_of_invalid hk ht harg]
        exact .invalid hk ht harg
      | ok arg =>
        rw [run_of_valid hk ht harg]
        exact .sent hk ht harg
    · obtain ⟨message, hrun⟩ := @run_of_no_token route deployment req hk ht
      rw [hrun]
      exact .noToken hk ht
  · rw [run_of_no_key hk]
    exact .noKey hk

/-! ## What is done for a request -/

/-- The actions across a seam, each with the condition under which it happens. -/
structure Acts (deployment : Deployment) (req : Request) (run : App Response) : Prop where
  /-- the identity provider is asked about the caller's token, on the finance
  surface, once the key has passed -/
  verify : ∀ token, .verify token ∈ run.trace ↔
    (∃ r, (AppRoute.finance r).Matches req) ∧ req.keyAdmitted deployment ∧ req.hasToken token
  /-- a provider service is invoked for a caller with a grant that entails the
  scope of the route, with what the request says -/
  service : ∀ name arg, .service name arg ∈ run.trace ↔
    ∃ r, (AppRoute.finance r).Matches req ∧ req.keyAdmitted deployment ∧
      (∃ token principal, req.hasToken token ∧ deployment.verify token = .principal principal ∧
        ∃ g ∈ principal.scopes, Entails g r.route.scope) ∧
      ∃ a, r.route.arguments deployment.framework req = .ok a ∧
        name = r.route.serviceMethod ∧ arg = r.route.wire a
  /-- a request leaves for the provider on the example surface, if there is a
  provider token -/
  send : ∀ sent, .send sent ∈ run.trace ↔
    ∃ r, (AppRoute.items r).Matches req ∧ req.keyAdmitted deployment ∧
      deployment.hasProviderToken ∧
      ∃ a, r.arguments deployment.framework req = .ok a ∧
        sent = r.request (ExampleRoute.base deployment) a
  /-- nothing is done twice, and nothing is done before the token is verified -/
  order : run.trace = [] ∨ (∃ sent, run.trace = [.send sent]) ∨
    ∃ token, run.trace = [.verify token] ∨
      ∃ name arg, run.trace = [.verify token, .service name arg]

/-- Whose token is verified. -/
theorem Route.verify_mem_iff {route : Route} (h : route.scope ∈ knownScopes)
    {deployment : Deployment} {req : Request} {token : String} :
    .verify token ∈ (route.run deployment req).trace ↔
      req.keyAdmitted deployment ∧ req.hasToken token := by
  have hverified : ∀ {token' : String}, req.hasToken token' → (token = token' ↔ req.hasToken token) :=
    fun ht' => ⟨fun he => he ▸ ht', fun ht => BearerToken.unique ht ht'⟩
  have hway := route.way h deployment req
  generalize route.run deployment req = run at hway
  cases hway with
  | noKey hk => simp [hk]
  | noToken hk ht =>
    have hno : ¬ req.hasToken token := fun htoken => ht ⟨token, htoken⟩
    simp [hno]
  | invalidToken hk ht | raises hk ht | notAdmitted hk ht | invalid hk ht | served hk ht =>
    simp [hk, hverified ht]

/-- Which service call is made. -/
theorem Route.service_mem_iff {route : Route} (h : route.scope ∈ knownScopes)
    {deployment : Deployment} {req : Request} {name : String} {arg : Json} :
    .service name arg ∈ (route.run deployment req).trace ↔ req.keyAdmitted deployment ∧
      (∃ token principal, req.hasToken token ∧ deployment.verify token = .principal principal ∧
        ∃ g ∈ principal.scopes, Entails g route.scope) ∧
      ∃ a, route.arguments deployment.framework req = .ok a ∧
        name = route.serviceMethod ∧ arg = route.wire a := by
  constructor
  · intro hmem
    have hway := route.way h deployment req
    generalize route.run deployment req = run at hway hmem
    cases hway with
    | served hk ht hv ha harg =>
      simp only [List.mem_cons, reduceCtorEq, Event.service.injEq, List.not_mem_nil, or_false,
        false_or] at hmem
      exact ⟨hk, ⟨_, _, ht, hv, satisfies_eq_true_iff.mp ha⟩, _, harg, hmem⟩
    | _ => simp at hmem
  · rintro ⟨hk, ⟨token, principal, ht, hv, hg⟩, a, harg, rfl, rfl⟩
    rw [run_of_valid h hk ht hv (satisfies_eq_true_iff.mpr hg) harg]
    simp

/-- A finance route does at most two things, in this order. -/
theorem Route.trace_cases {route : Route} (h : route.scope ∈ knownScopes)
    (deployment : Deployment) (req : Request) :
    (route.run deployment req).trace = [] ∨
      ∃ token, (route.run deployment req).trace = [.verify token] ∨
        ∃ name arg, (route.run deployment req).trace = [.verify token, .service name arg] := by
  have hway := route.way h deployment req
  generalize route.run deployment req = run at hway
  cases hway with
  | noKey | noToken => exact Or.inl rfl
  | invalidToken | raises | notAdmitted | invalid => exact Or.inr ⟨_, Or.inl rfl⟩
  | served => exact Or.inr ⟨_, Or.inr ⟨_, _, rfl⟩⟩

/-- Which request is sent. -/
theorem ExampleRoute.send_mem_iff {route : ExampleRoute} {deployment : Deployment} {req : Request}
    {sent : ProviderRequest} :
    .send sent ∈ (route.run deployment req).trace ↔ req.keyAdmitted deployment ∧
      deployment.hasProviderToken ∧ ∃ a, route.arguments deployment.framework req = .ok a ∧
        sent = route.request (base deployment) a := by
  constructor
  · intro hmem
    have hway := route.way deployment req
    generalize route.run deployment req = run at hway hmem
    cases hway with
    | sent hk ht harg =>
      simp only [List.mem_singleton, Event.send.injEq] at hmem
      exact ⟨hk, ht, _, harg, hmem⟩
    | _ => simp at hmem
  · rintro ⟨hk, ht, a, harg, rfl⟩
    rw [run_of_valid hk ht harg]
    simp

/-- An example route does at most one thing. -/
theorem ExampleRoute.trace_cases (route : ExampleRoute) (deployment : Deployment)
    (req : Request) : (route.run deployment req).trace = [] ∨
      ∃ sent, (route.run deployment req).trace = [.send sent] := by
  have hway := route.way deployment req
  generalize route.run deployment req = run at hway
  cases hway with
  | sent => exact Or.inr ⟨_, rfl⟩
  | _ => exact Or.inl rfl

/-- A request that matches neither surface does nothing. -/
theorem acts_of_idle {deployment : Deployment} {req : Request} {run : App Response}
    (htrace : run.trace = []) (hfinance : ∀ r, ¬ (AppRoute.finance r).Matches req)
    (hitems : ∀ r, ¬ (AppRoute.items r).Matches req) : Acts deployment req run where
  verify token := by
    rw [htrace]
    exact iff_of_false List.not_mem_nil fun h => hfinance _ h.1.choose_spec
  service name arg := by
    rw [htrace]
    exact iff_of_false List.not_mem_nil fun h => hfinance _ h.choose_spec.1
  send sent := by
    rw [htrace]
    exact iff_of_false List.not_mem_nil fun h => hitems _ h.choose_spec.1
  order := Or.inl htrace

theorem acts_of_finance {r : FinanceRoute} {req : Request} (h : (AppRoute.finance r).Matches req)
    (deployment : Deployment) : Acts deployment req (r.route.run deployment req) where
  verify token := by
    rw [Route.verify_mem_iff r.scope_mem]
    exact (and_iff_right ⟨r, h⟩).symm
  service name arg := by
    rw [Route.service_mem_iff r.scope_mem]
    constructor
    · exact fun hmem => ⟨r, h, hmem⟩
    · rintro ⟨r', h', hmem⟩
      obtain rfl := AppRoute.finance.inj (h'.unique h)
      exact hmem
  send sent := by
    refine iff_of_false (fun hmem => ?_) fun hitems => ?_
    · rcases Route.trace_cases r.scope_mem deployment req with ht | ⟨token, ht | ⟨name, arg, ht⟩⟩ <;>
        rw [ht] at hmem <;> simp at hmem
    · obtain ⟨r', h', -⟩ := hitems
      cases h'.unique h
  order := by
    rcases Route.trace_cases r.scope_mem deployment req with ht | ht
    · exact Or.inl ht
    · exact Or.inr (Or.inr ht)

theorem acts_of_items {r : ExampleRoute} {req : Request} (h : (AppRoute.items r).Matches req)
    (deployment : Deployment) : Acts deployment req (r.run deployment req) where
  verify token := by
    refine iff_of_false (fun hmem => ?_) fun hfinance => ?_
    · rcases r.trace_cases deployment req with ht | ⟨sent, ht⟩ <;> rw [ht] at hmem <;> simp at hmem
    · obtain ⟨⟨r', h'⟩, -⟩ := hfinance
      cases h'.unique h
  service name arg := by
    refine iff_of_false (fun hmem => ?_) fun hfinance => ?_
    · rcases r.trace_cases deployment req with ht | ⟨sent, ht⟩ <;> rw [ht] at hmem <;> simp at hmem
    · obtain ⟨r', h', -⟩ := hfinance
      cases h'.unique h
  send sent := by
    rw [ExampleRoute.send_mem_iff]
    constructor
    · exact fun hmem => ⟨r, h, hmem⟩
    · rintro ⟨r', h', hmem⟩
      obtain rfl := AppRoute.items.inj (h'.unique h)
      exact hmem
  order := by
    rcases r.trace_cases deployment req with ht | ht
    · exact Or.inl ht
    · exact Or.inr (Or.inl ht)

/-- What is done for any request. -/
theorem acts_of_dispatch (deployment : Deployment) (other : Request → Except Exn Response)
    (req : Request) :
    Acts deployment req (dispatch deployment (fun req => Traced.lift (other req)) req) := by
  cases hresolve : resolve req with
  | none =>
    have hnone : ∀ route, ¬ AppRoute.Matches route req := by
      intro route hmatches
      rw [resolve_eq_some_iff.mpr hmatches] at hresolve
      cases hresolve
    rw [dispatch, hresolve]
    exact acts_of_idle rfl (fun r => hnone _) fun r => hnone _
  | some route =>
    have hmatches := resolve_eq_some_iff.mp hresolve
    rw [dispatch, hresolve]
    cases route with
    | items r => exact acts_of_items hmatches deployment
    | finance r => exact acts_of_finance hmatches deployment
    | health =>
      refine acts_of_idle rfl (fun r h => ?_) fun r h => ?_
      · cases h.unique hmatches
      · cases h.unique hmatches

end KgaGateway
