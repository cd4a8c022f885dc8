import KgaGateway.Lib.Render
import KgaGateway.Surface

/-!
# What the application answers with

Every route of the two surfaces answers through a response model, and the
serialiser writes null for infinity and `nan`. So whatever a service or the
provider returns, an answer conforms to the model of its route, is finite, and is
a canonical form (`answers_conform`).
-/

namespace KgaGateway

open Model

/-! ## Response models -/

namespace AppRoute

/-- The response model of a route; `/health` has none. -/
def shape : AppRoute → Option Shape
  | items route => some route.model
  | finance route => some route.route.model
  | health => none

/-- The status of a route's success. -/
def status : AppRoute → Nat
  | items route => route.status
  | finance route => route.route.status
  | health => 200

/-- No model declares an alias twice. -/
theorem nodup_wireNames {route : AppRoute} {shape : Shape} (h : route.shape = some shape) :
    (shape.fields.map Field.wireName).Nodup := by
  cases route with
  | items r => cases r <;> (cases h; dsimp only [ExampleRoute.model, Shape.fields]; decide)
  | finance r => cases r <;> cases h <;> decide
  | health => cases h

/-- Every field of a model may be null. -/
theorem optional {route : AppRoute} {shape : Shape} (h : route.shape = some shape) :
    ∀ field ∈ shape.fields, field.required = false := by
  cases route with
  | items r => cases r <;> (cases h; dsimp only [ExampleRoute.model, Shape.fields]; decide)
  | finance r => cases r <;> cases h <;> decide
  | health => cases h

end AppRoute

theorem respond_of_render {framework : Framework} {shape : Shape} {status : Nat} {value j : Json}
    (hrender : render framework.floatOf shape value = some j) (hwrites : framework.writes j = true) :
    framework.respond shape status value = .ok ⟨status, [], .json j.written⟩ := by
  simp only [Framework.respond, hrender, hwrites, if_true]

theorem respond_eq_ok {framework : Framework} {shape : Shape} {status : Nat} {value : Json}
    {response : Response} (h : framework.respond shape status value = .ok response) :
    ∃ j, render framework.floatOf shape value = some j ∧
      response = ⟨status, [], .json j.written⟩ := by
  rw [Framework.respond] at h
  split at h
  · cases h
  · rename_i j hrender
    split at h
    · exact ⟨j, hrender, (Except.ok.inj h).symm⟩
    · cases h

/-- An answer of a route comes out of its response model. -/
theorem AppRoute.respond_of_run {route : AppRoute} {shape : Shape} (hshape : route.shape = some shape)
    {deployment : Deployment} {req : Request} {response : Response}
    (h : (route.run deployment req).result = .ok response) :
    ∃ value, deployment.framework.respond shape route.status value = .ok response := by
  cases route with
  | items r =>
    obtain rfl := Option.some.inj hshape
    rw [AppRoute.run] at h
    have hway := r.way deployment req
    generalize r.run deployment req = run at hway h
    cases hway with
    | sent hk ht harg =>
      dsimp only at h
      split at h
      · cases h
      · exact ⟨_, h⟩
    | _ => cases h
  | finance r =>
    obtain rfl := Option.some.inj hshape
    rw [AppRoute.run] at h
    have hway := r.route.way r.scope_mem deployment req
    generalize r.route.run deployment req = run at hway h
    cases hway with
    | served hk ht hv ha harg => exact ⟨_, h⟩
    | _ => cases h
  | health => cases hshape

/-- **What is answered is well formed.** Whatever a service or the provider
returns, an answer of a route with a response model has the status of the route
and a JSON body without infinity and `nan` that has every declared field once,
under its alias, with a value of its kind or null; and the model makes the same
of it again. -/
theorem answers_conform (deployment : Deployment) (other : Request → Except Exn Response)
    (hfloat : ∀ x, deployment.framework.floatOf (.float x) = some x) :
    ∃ app, createApp deployment (fun req => Traced.lift (other req)) = .ok app ∧
      ∀ req route shape response, AppRoute.Matches route req → route.shape = some shape →
        (app req).result = .ok response →
          response.status = route.status ∧ ∃ j, response.body = .json j ∧ j.isFinite = true ∧
            shape.Conforms j ∧ render deployment.framework.floatOf shape j = some j := by
  refine ⟨_, createApp_eq _ _, fun req route shape response hmatches hshape h => ?_⟩
  rw [dispatch, resolve_eq_some_iff.mpr hmatches] at h
  obtain ⟨value, hrespond⟩ := route.respond_of_run hshape h
  obtain ⟨j, hrender, rfl⟩ := respond_eq_ok hrespond
  have hnodup := AppRoute.nodup_wireNames hshape
  have hcanonical := (canonical_of_render hrender).written (AppRoute.optional hshape)
  exact ⟨rfl, j.written, rfl, Json.isFinite_written j, hcanonical.conforms hnodup,
    hcanonical.render_eq hfloat hnodup⟩

theorem isRepr_inf : FloatText.isRepr "inf".toList = true := by decide

/-- A deployment without caller keys, with a provider token, and a provider that
has an entry of its own for an item, which is infinite, and lacks two declared
ones. -/
def answering : Deployment where
  settings := {}
  verify _ := .invalidToken
  framework := .plain
  store := some [("access_token", .str "t")]
  provider _ := .response ⟨201, [], some (.obj
    [("id", .str "7"), ("weight", floatLit "inf" isRepr_inf)])⟩

/-- A request that creates an item. -/
def itemCreation : Request where
  method := "POST"
  path := apiPrefix ++ "/items"
  body := some (.obj [("name", .str "n")])

/-- The provider's own entry stays, as null; so does what it lacks. -/
theorem answers_conform_of_item :
    ∃ app response j,
      createApp answering
        (fun req => Traced.lift ((fun _ => .error (.httpException 404 "Not Found" [])) req)) =
          .ok app ∧
      (app itemCreation).result = .ok response ∧ response.status = 201 ∧
      response.body = .json j ∧ j.isFinite = true ∧ (Shape.one item).Conforms j ∧
      render answering.framework.floatOf (.one item) j = some j := by
  have hmatches : (AppRoute.items .createItem).Matches itemCreation := ⟨rfl, Or.inl rfl⟩
  have hadmitted : itemCreation.keyAdmitted answering := Or.inl (by decide)
  have htoken : answering.hasProviderToken := ⟨_, rfl, List.cons_ne_nil _ _⟩
  have hresult : (dispatch answering
      (fun req => Traced.lift ((fun _ => .error (.httpException 404 "Not Found" [])) req))
      itemCreation).result = .ok ⟨201, [], .json (.obj
        [("id", .str "7"), ("name", .null), ("status", .null), ("weight", .null)])⟩ := by
    rw [dispatch, resolve_eq_some_iff.mpr hmatches]
    dsimp only [AppRoute.run]
    rw [@ExampleRoute.run_of_valid .createItem _ _ [("name", .str "n")] hadmitted htoken rfl]
    rfl
  obtain ⟨app, happ, hanswers⟩ := answers_conform answering
    (fun _ => .error (.httpException 404 "Not Found" [])) (fun _ => rfl)
  rw [createApp_eq] at happ
  obtain rfl := Except.ok.inj happ
  obtain ⟨hstatus, j, hbody, hfinite, hconforms, hrender⟩ :=
    hanswers _ _ _ _ hmatches rfl hresult
  exact ⟨_, _, j, createApp_eq _ _, hresult, hstatus, hbody, hfinite, hconforms, hrender⟩

/-! ## When a service call is answered

The result of a service is rendered after the call. A body can be accepted and
its payload handed to the service, and still leave a result that the response
model refuses: then the call is made and the caller sees a failure of the server.
-/

namespace FinanceRoute

/-- What a service is called with leaves a result that the response model takes.
The stubs of Xero and Netcash give the payload back over their own entries; that
of Investec picks two of its entries, which the model always takes. -/
def Answerable (numberOf : Json → Option PyFloat) : (r : FinanceRoute) → r.route.Arg → Prop
  | xeroCreateInvoice, (payload : List (String × Json)) =>
    Suits numberOf ["InvoiceID", "InvoiceNumber", "Status"] (optionalNumber "total" "Total") payload
  | netcashCreatePayment, (payload : List (String × Json)) =>
    Suits numberOf ["TransactionId", "Status", "ActionDate"] (optionalNumber "amount" "Amount")
      payload
  | _, _ => True

end FinanceRoute

/-- The response model takes the value of the service. -/
def Route.Renders (route : Route) (numberOf : Json → Option PyFloat) (arg : route.Arg) : Prop :=
  ∃ j, render numberOf route.model (route.service arg) = some j

/-- The serialiser does not give up on what the response model makes of it. -/
def Route.Writes (route : Route) (framework : Framework) (arg : route.Arg) : Prop :=
  ∀ j, render framework.floatOf route.model (route.service arg) = some j → framework.writes j = true

theorem respond_of_renders {route : Route} {framework : Framework} {arg : route.Arg}
    (h : route.Renders framework.floatOf arg) (hwrites : route.Writes framework arg) :
    ∃ body, framework.respond route.model route.status (route.service arg) =
      .ok ⟨route.status, [], body⟩ := by
  obtain ⟨j, hrender⟩ := h
  exact ⟨_, respond_of_render hrender (hwrites j hrender)⟩

/-- A value without an answer is a failure of the server. -/
theorem respond_of_not_renders {route : Route} {framework : Framework} {arg : route.Arg}
    (h : ¬ (route.Renders framework.floatOf arg ∧ route.Writes framework arg)) :
    ∃ cls, framework.respond route.model route.status (route.service arg) =
      .error (.unhandled cls) := by
  rw [Framework.respond]
  cases hrender : render framework.floatOf route.model (route.service arg) with
  | none => exact ⟨_, rfl⟩
  | some j =>
    refine ⟨"PydanticSerializationError", if_neg fun hwrites => h ⟨⟨j, hrender⟩, ?_⟩⟩
    intro j' hj'
    rw [hrender] at hj'
    exact Option.some.inj hj' ▸ hwrites

/-- What a service that creates a record is called with. -/
structure Dumped (fields : List Field) (payload : List (String × Json)) : Prop where
  nodup : (payload.map Prod.fst).Nodup
  ne_null : ∀ m ∈ payload, m.2 ≠ .null
  required : ∀ field ∈ fields, field.required = true →
    ∃ v, Json.get payload field.wireName = some v ∧ v ≠ .null ∧ field.Fits v
  fits : ∀ field ∈ fields, ∀ v, Json.get payload field.wireName = some v → field.Fits v

section Answerable

variable {framework : Framework} {req : Request} {body payload : List (String × Json)}

/-- A payload is a dump of the body. -/
theorem dumped_of_arguments {fields : List Field} (hnodup : (fields.map Field.wireName).Nodup)
    (hbody : ∀ body, req.body = some (.obj body) → (body.map Prod.fst).Nodup)
    (h : (validate framework.floatOf fields req.body).map Instance.dump = .ok payload) :
    Dumped fields payload := by
  cases hvalidate : validate framework.floatOf fields req.body with
  | error errors =>
    rw [hvalidate] at h
    cases h
  | ok m =>
    rw [hvalidate] at h
    obtain rfl := Except.ok.inj h
    obtain ⟨body, hreq⟩ := exists_obj_of_validate hvalidate
    rw [hreq] at hvalidate
    exact {
      nodup := nodup_dump hnodup (hbody body hreq) hvalidate
      ne_null := fun _ => ne_null_of_mem_dump
      required := fun _ => get_dump_of_required hnodup hvalidate
      fits := fun _ hfield _ => fits_of_get_dump hnodup hvalidate hfield }

/-- A text that a body must have is there. -/
theorem Dumped.text {fields : List Field} (h : Dumped fields payload) {field : Field}
    (hfield : field ∈ fields) (hrequired : field.required = true) (hkind : field.kind = .text) :
    ∃ v, Json.get payload field.wireName = some v ∧ v.isStr = true := by
  obtain ⟨v, hget, hne, hfits⟩ := h.required field hfield hrequired
  exact ⟨v, hget, isStr_of_fits hkind hne hfits⟩

/-- The stub of Xero gives every text of the answer but the type. -/
theorem xero_covers : Covers Xero.invoice
    [("InvoiceID", .str "INV-0003"), ("InvoiceNumber", .str "INV-0003"), ("Status", .str "DRAFT")]
    "Type" (optionalNumber "total" "Total") := by
  constructor <;> decide

/-- The stub of Netcash gives every text of the answer but the account. -/
theorem netcash_covers : Covers Netcash.transaction
    [("TransactionId", .str "TXN-1003"), ("Status", .str "Submitted"),
      ("ActionDate", .str "2026-08-17")]
    "AccountReference" (optionalNumber "amount" "Amount") := by
  constructor <;> decide

/-- The stub of Investec answers with the amount and the reference it is given:
whatever else the payload has is gone. -/
theorem investec_renders (hfloat : ∀ x, framework.floatOf (.float x) = some x)
    (h : Dumped Investec.paymentCreate payload) :
    Investec.createPayment.Renders framework.floatOf payload := by
  obtain ⟨amount, hamount, hne, hfits⟩ :=
    h.required (requiredNumber "amount" "amount") (by decide) rfl
  obtain ⟨x, rfl⟩ : ∃ x, amount = .float x := hfits.resolve_left fun hnull => hne hnull.1
  have hget : Json.get payload "amount" = some (.float x) := hamount
  have hreference : ((Json.get payload "reference").getD (.str "Beneficiary payment")).isStr =
      true := by
    cases hread : Json.get payload "reference" with
    | none => rfl
    | some v =>
      have hv := h.fits (optionalText "reference" "reference") (by decide) v hread
      exact isStr_of_fits rfl (h.ne_null _ (Json.mem_of_get hread)) hv
  have hvalue : Investec.createPayment.service payload = .obj
      [("type", .str "DEBIT"), ("amount", .float x),
        ("description", (Json.get payload "reference").getD (.str "Beneficiary payment")),
        ("postingDate", .str "2026-08-17")] := by
    show InvestecService.createPayment payload = _
    rw [InvestecService.createPayment, hget]
    rfl
  generalize (Json.get payload "reference").getD (.str "Beneficiary payment") = description
    at hvalue hreference
  have hoptional : ∀ field ∈ Investec.accountTransaction, field.required = false := by decide
  refine renderOne_of_conforms hfloat hoptional ?_
  rw [hvalue]
  refine ⟨_, rfl, ?_⟩
  simp only [Investec.accountTransaction, List.forall_mem_cons]
  exact ⟨⟨_, rfl, Or.inr rfl⟩, ⟨_, rfl, Or.inr ⟨x, rfl⟩⟩, ⟨_, rfl, Or.inr hreference⟩,
    ⟨_, rfl, Or.inr rfl⟩, fun _ h => absurd h List.not_mem_nil⟩

/-- The pages of the stubs are answered. -/
theorem listing_renders (hfloat : ∀ x, framework.floatOf (.float x) = some x) :
    (∀ page, Xero.listInvoices.Renders framework.floatOf page) ∧
    (∀ page, Netcash.listTransactions.Renders framework.floatOf page) ∧
      Investec.listAccounts.Renders framework.floatOf () := by
  refine ⟨fun page => ?_, fun page => ?_, ?_⟩
  all_goals exact render_many_of_conforms hfloat (by decide) (by decide)

/-- **When a result can be answered**, route by route. -/
theorem renders_iff (hfloat : ∀ x, framework.floatOf (.float x) = some x)
    (hbody : ∀ body, req.body = some (.obj body) → (body.map Prod.fst).Nodup)
    (r : FinanceRoute) (arg : r.route.Arg) (h : r.route.arguments framework req = .ok arg) :
    r.route.Renders framework.floatOf arg ↔ r.Answerable framework.floatOf arg := by
  obtain ⟨hxero, hnetcash, hinvestec⟩ := listing_renders hfloat
  cases r with
  | xeroListInvoices => exact iff_of_true (hxero arg) trivial
  | netcashListTransactions => exact iff_of_true (hnetcash arg) trivial
  | investecListAccounts => exact iff_of_true hinvestec trivial
  | xeroCreateInvoice =>
    have hdumped : Dumped Xero.invoiceCreate arg := dumped_of_arguments (by decide) hbody h
    exact renderOne_update_iff xero_covers hdumped.nodup hdumped.ne_null
      (hdumped.text (List.mem_cons_self ..) rfl rfl)
  | netcashCreatePayment =>
    have hdumped : Dumped Netcash.paymentCreate arg := dumped_of_arguments (by decide) hbody h
    exact renderOne_update_iff netcash_covers hdumped.nodup hdumped.ne_null
      (hdumped.text (List.mem_cons_self ..) rfl rfl)
  | investecCreatePayment =>
    exact iff_of_true (investec_renders hfloat (dumped_of_arguments (by decide) hbody h)) trivial

end Answerable

/-- **Invoked, and answered or not.** When the service of a route is called, the
caller gets the route's status exactly if what the service is called with leaves
a result that the response model takes and the serialiser has a text for, and a
failure of the server otherwise. -/
theorem invoked_answers (deployment : Deployment) (other : Request → Except Exn Response)
    (hfloat : ∀ x, deployment.framework.floatOf (.float x) = some x) :
    ∃ app, createApp deployment (fun req => Traced.lift (other req)) = .ok app ∧
      ∀ (r : FinanceRoute) (req : Request) (name : String) (wire : Json),
        (AppRoute.finance r).Matches req →
        (∀ body, req.body = some (.obj body) → (body.map Prod.fst).Nodup) →
        .service name wire ∈ (app req).trace →
        ∃ arg, r.route.arguments deployment.framework req = .ok arg ∧ wire = r.route.wire arg ∧
          (r.Answerable deployment.framework.floatOf arg ∧
              r.route.Writes deployment.framework arg →
            (clientResponse deployment.framework req (app req).result).status =
              r.route.status) ∧
          (¬ (r.Answerable deployment.framework.floatOf arg ∧
              r.route.Writes deployment.framework arg) →
            clientResponse deployment.framework req (app req).result =
              internalServerError) := by
  refine ⟨_, createApp_eq _ _, fun r req name wire hmatches hbody hmem => ?_⟩
  rw [dispatch, resolve_eq_some_iff.mpr hmatches] at hmem ⊢
  dsimp only [AppRoute.run] at hmem ⊢
  obtain ⟨hk, ⟨token, principal, ht, hv, hg⟩, arg, harg, -, hwire⟩ :=
    (Route.service_mem_iff r.scope_mem).mp hmem
  have hrenders := renders_iff hfloat hbody r arg harg
  rw [run_of_valid r.scope_mem hk ht hv (Scopes.satisfies_eq_true_iff.mpr hg) harg]
  refine ⟨arg, harg, hwire, fun h => ?_, fun h => ?_⟩
  · obtain ⟨body, hrespond⟩ := respond_of_renders (hrenders.mpr h.1) h.2
    rw [hrespond]
    rfl
  · rw [← hrenders] at h
    obtain ⟨cls, hrespond⟩ := respond_of_not_renders h
    rw [hrespond]
    rfl

/-- A deployment without caller keys, where every token is that of a writer. -/
def writing : Deployment where
  settings := {}
  verify _ := .principal ⟨"alice", ["finance:xero:write"], []⟩
  framework := .plain
  store := none
  provider _ := .httpError

/-- A request that creates an invoice with a status of its own. -/
def invoiceCreation (status : Json) : Request where
  method := "POST"
  path := "/finance/xero/invoices"
  headers := [("Authorization", "Bearer t")]
  body := some (.obj [("Type", .str "ACCREC"), ("ContactID", .str "c"), ("Status", status)])

/-- The service is called with a status that is no text, and the caller sees a
failure of the server. -/
theorem invoked_answers_of_status :
    ∃ app,
      createApp writing
        (fun req => Traced.lift ((fun _ => .error (.httpException 404 "Not Found" [])) req)) =
          .ok app ∧
      .service "XeroService.create_invoice"
        (.obj [("Type", .str "ACCREC"), ("ContactID", .str "c"), ("Status", .int 5)]) ∈
          (app (invoiceCreation (.int 5))).trace ∧
      clientResponse .plain (invoiceCreation (.int 5)) (app (invoiceCreation (.int 5))).result =
        internalServerError := by
  have hmatches : (AppRoute.finance .xeroCreateInvoice).Matches (invoiceCreation (.int 5)) :=
    ⟨rfl, Or.inl (by decide)⟩
  have hadmitted : (invoiceCreation (.int 5)).keyAdmitted writing := Or.inl (by decide)
  have htoken : (invoiceCreation (.int 5)).hasToken "t" :=
    ⟨"Bearer", "t", rfl, by decide, by decide +kernel,
      fun h => absurd (h 't' (by decide)) (by decide), by decide +kernel⟩
  have hmem : .service "XeroService.create_invoice"
      (.obj [("Type", .str "ACCREC"), ("ContactID", .str "c"), ("Status", .int 5)]) ∈
        (dispatch writing
          (fun req => Traced.lift ((fun _ => .error (.httpException 404 "Not Found" [])) req))
          (invoiceCreation (.int 5))).trace := by
    rw [dispatch, resolve_eq_some_iff.mpr hmatches]
    refine (Route.service_mem_iff FinanceRoute.xeroCreateInvoice.scope_mem).mpr
      ⟨hadmitted, ⟨"t", _, htoken, rfl, Scopes.satisfies_eq_true_iff.mp ?_⟩, _, rfl, rfl, rfl⟩
    decide +kernel
  obtain ⟨app, happ, hinvoked⟩ := invoked_answers writing
    (fun _ => .error (.httpException 404 "Not Found" [])) (fun _ => rfl)
  rw [createApp_eq] at happ
  obtain rfl := Except.ok.inj happ
  obtain ⟨arg, harg, -, -, hfails⟩ := hinvoked _ _ _ _ hmatches (by
    rintro body hbody
    cases hbody
    decide) hmem
  refine ⟨_, createApp_eq _ _, hmem, hfails ?_⟩
  rintro ⟨hanswerable, -⟩
  obtain rfl := Except.ok.inj harg
  have hentry : ("Status", Json.int 5) ∈
      [("Type", Json.str "ACCREC"), ("ContactID", .str "c"), ("Status", .int 5)] := by simp
  have hstatus := (hanswerable ("Status", .int 5) hentry).1 (by decide)
  cases hstatus

end KgaGateway
