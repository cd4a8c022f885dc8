import KgaGateway.Example
import KgaGateway.Finance

/-!
# Unknown fields on the write path

The base models let unknown provider fields ride along untouched. Four routes
take a body: it is validated and dumped by alias without nulls, and the dump is
what the service method is called with. `WriteRoute.payload` is that payload as
the routes compute it; `passesThrough_iff` says when nothing of the body is
lost in it: `exclude_none` does not tell a null the caller sent from a field
the caller left out.
-/

namespace KgaGateway

/-- The routes with a body. -/
inductive WriteRoute : Type where
  | createInvoice : WriteRoute
  | netcashCreatePayment : WriteRoute
  | investecCreatePayment : WriteRoute
  | createItem : WriteRoute

namespace WriteRoute

/-- The model of the body. -/
def fields : WriteRoute → List Model.Field
  | createInvoice => Xero.invoiceCreate
  | netcashCreatePayment => Netcash.paymentCreate
  | investecCreatePayment => Investec.paymentCreate
  | createItem => itemCreate

/-- What the route calls its service method with. -/
def payload (framework : Framework) (req : Request) :
    WriteRoute → Except (List FieldError) (List (String × Json))
  | createInvoice => Xero.createInvoice.arguments framework req
  | netcashCreatePayment => Netcash.createPayment.arguments framework req
  | investecCreatePayment => Investec.createPayment.arguments framework req
  | createItem => ExampleRoute.createItem.arguments framework req

variable {framework : Framework} {req : Request} {body payload : List (String × Json)}

theorem payload_eq (route : WriteRoute) :
    route.payload framework req =
      (Model.validate framework.floatOf route.fields req.body).map Model.Instance.dump := by
  cases route <;> rfl

theorem nodup_wireNames (route : WriteRoute) : (route.fields.map Model.Field.wireName).Nodup := by
  cases route <;> decide

/-- A payload is the dump of a validated body. -/
theorem exists_of_payload {route : WriteRoute} (hbody : req.body = some (.obj body))
    (h : route.payload framework req = .ok payload) :
    ∃ m, Model.validate framework.floatOf route.fields (some (.obj body)) = .ok m ∧
      payload = m.dump := by
  rw [payload_eq, hbody] at h
  cases hvalidate : Model.validate framework.floatOf route.fields (some (.obj body)) with
  | error errors =>
    rw [hvalidate] at h
    cases h
  | ok m =>
    rw [hvalidate] at h
    exact ⟨m, rfl, (Except.ok.inj h).symm⟩

/-- **What rides along**: of an accepted body the payload has every entry the
model does not know and every field that is given a value, exactly if no null
stands under an unknown key, or under an alias whose field has a value under
its name. A field whose value is not null is there once in any case. -/
theorem passesThrough_iff (route : WriteRoute) (framework : Framework) (req : Request)
    (body payload : List (String × Json)) (hbody : req.body = some (.obj body))
    (h : route.payload framework req = .ok payload) :
    (Model.PassesThrough framework.floatOf route.fields body payload ↔
      ¬ Model.LosesNull route.fields body) ∧
    ∀ field ∈ route.fields, ∀ key given, field.entry body = some (key, given) → given ≠ .null →
      field.Once framework.floatOf body payload := by
  obtain ⟨m, hm, rfl⟩ := exists_of_payload hbody h
  refine ⟨Model.passesThrough_dump_iff route.nodup_wireNames hm, ?_⟩
  intro field hfield key given hentry hne
  exact Model.once_of_entry route.nodup_wireNames hm hfield hentry hne

/-- A field under its name and a note that no model knows pass through. -/
theorem passesThrough_of_note :
    Model.PassesThrough Framework.plain.floatOf Xero.invoiceCreate
      [("type", .str "ACCREC"), ("ContactID", .str "c1"), ("Note", .str "n")]
      [("Type", .str "ACCREC"), ("ContactID", .str "c1"), ("Note", .str "n")] := by
  refine (passesThrough_iff .createInvoice .plain
    { body := some (.obj [("type", .str "ACCREC"), ("ContactID", .str "c1"), ("Note", .str "n")]) }
    _ _ rfl rfl).1.mpr ?_
  rintro (⟨key, -, hmem⟩ | ⟨field, hfield, hwire, -⟩)
  · simp at hmem
  · simp only [fields, Xero.invoiceCreate, List.mem_cons, List.not_mem_nil, or_false] at hfield
    rcases hfield with rfl | rfl | rfl <;> cases hwire

/-- The same note, sent as null, is gone. -/
theorem passesThrough_fails_on_null :
    createInvoice.payload .plain
      { body := some (.obj [("Type", .str "ACCREC"), ("ContactID", .str "c1"), ("Note", .null)]) } =
        .ok [("Type", .str "ACCREC"), ("ContactID", .str "c1")] ∧
    ¬ Model.PassesThrough Framework.plain.floatOf createInvoice.fields
      [("Type", .str "ACCREC"), ("ContactID", .str "c1"), ("Note", .null)]
      [("Type", .str "ACCREC"), ("ContactID", .str "c1")] := by
  refine ⟨rfl, fun hpass => ?_⟩
  have hnote := hpass.unknown ("Note", .null) (by simp) (by decide)
  simp at hnote

end WriteRoute

end KgaGateway
