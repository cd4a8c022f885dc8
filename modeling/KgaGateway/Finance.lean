import KgaGateway.Deps
import KgaGateway.StepUp

/-!
# The finance surface

`app/domains/finance`: the six routes under `/finance`, each the same shape. A
route checks the caller's key, then the principal and its scope, then its
query or body, and only then invokes one method of its provider's service. The
services are stubs with fixed data.

`FinanceRoute` lists what the aggregate router mounts.
-/

namespace KgaGateway

open Model

/-! ## The provider services -/

/-- A float literal of the stubs. -/
def floatLit (text : String) (h : FloatText.isRepr text.toList = true) : Json := .float ⟨text, h⟩

namespace XeroService

/-- `list_invoices`: the stub returns the same page for every number. -/
def listInvoices (_page : Int) : Json :=
  .arr
    [.obj [("InvoiceID", .str "INV-0001"), ("InvoiceNumber", .str "INV-0001"),
      ("Type", .str "ACCREC"), ("Status", .str "AUTHORISED"),
      ("Total", floatLit "1250.0" (by decide))],
     .obj [("InvoiceID", .str "INV-0002"), ("InvoiceNumber", .str "INV-0002"),
      ("Type", .str "ACCPAY"), ("Status", .str "PAID"),
      ("Total", floatLit "480.5" (by decide))]]

/-- `create_invoice`: the payload's entries win over the stub's. -/
def createInvoice (payload : List (String × Json)) : Json :=
  .obj (Json.update
    [("InvoiceID", .str "INV-0003"), ("InvoiceNumber", .str "INV-0003"), ("Status", .str "DRAFT")]
    payload)

end XeroService

namespace NetcashService

/-- `list_transactions`. -/
def listTransactions (_page : Int) : Json :=
  .arr
    [.obj [("TransactionId", .str "TXN-1001"), ("AccountReference", .str "ACC-001"),
      ("Amount", floatLit "500.0" (by decide)), ("ActionDate", .str "2026-08-17"),
      ("Status", .str "Processed")],
     .obj [("TransactionId", .str "TXN-1002"), ("AccountReference", .str "ACC-002"),
      ("Amount", floatLit "1200.0" (by decide)), ("ActionDate", .str "2026-08-16"),
      ("Status", .str "Pending")]]

/-- `create_payment`. -/
def createPayment (payload : List (String × Json)) : Json :=
  .obj (Json.update
    [("TransactionId", .str "TXN-1003"), ("Status", .str "Submitted"),
      ("ActionDate", .str "2026-08-17")]
    payload)

end NetcashService

namespace InvestecService

/-- `list_accounts`. -/
def listAccounts : Json :=
  .arr
    [.obj [("accountId", .str "10000000001"), ("accountNumber", .str "10000000001"),
      ("accountName", .str "KGA Life Operating"), ("currency", .str "ZAR"),
      ("currentBalance", floatLit "125000.5" (by decide))],
     .obj [("accountId", .str "10000000002"), ("accountNumber", .str "10000000002"),
      ("accountName", .str "KGA Life Claims"), ("currency", .str "ZAR"),
      ("currentBalance", floatLit "48250.0" (by decide))]]

/-- `create_payment`: only the amount and the reference reach the answer. -/
def createPayment (payload : List (String × Json)) : Json :=
  .obj
    [("type", .str "DEBIT"), ("amount", (Json.get payload "amount").getD .null),
      ("description", (Json.get payload "reference").getD (.str "Beneficiary payment")),
      ("postingDate", .str "2026-08-17")]

end InvestecService

/-! ## The models -/

namespace Xero

/-- `Invoice`. -/
def invoice : List Model.Field :=
  [optionalText "invoice_id" "InvoiceID", optionalText "invoice_number" "InvoiceNumber",
    optionalText "type" "Type", optionalText "status" "Status", optionalNumber "total" "Total"]

/-- `InvoiceCreate`. -/
def invoiceCreate : List Model.Field :=
  [requiredText "type" "Type", requiredText "contact_id" "ContactID",
    optionalText "reference" "Reference"]

end Xero

namespace Netcash

/-- `Transaction`. -/
def transaction : List Model.Field :=
  [optionalText "transaction_id" "TransactionId",
    optionalText "account_reference" "AccountReference", optionalNumber "amount" "Amount",
    optionalText "action_date" "ActionDate", optionalText "status" "Status"]

/-- `PaymentCreate`. -/
def paymentCreate : List Model.Field :=
  [requiredText "account_reference" "AccountReference", requiredNumber "amount" "Amount",
    optionalText "reference" "Reference"]

end Netcash

namespace Investec

/-- `Account`. -/
def account : List Model.Field :=
  [optionalText "account_id" "accountId", optionalText "account_number" "accountNumber",
    optionalText "account_name" "accountName", optionalText "currency" "currency",
    optionalNumber "current_balance" "currentBalance"]

/-- `AccountTransaction`. -/
def accountTransaction : List Model.Field :=
  [optionalText "transaction_type" "type", optionalNumber "amount" "amount",
    optionalText "description" "description", optionalText "posting_date" "postingDate"]

/-- `PaymentCreate`. -/
def paymentCreate : List Model.Field :=
  [requiredText "account_id" "accountId", requiredText "beneficiary_id" "beneficiaryId",
    requiredNumber "amount" "amount", optionalText "reference" "reference"]

end Investec

/-! ## Routes -/

/-- A route of the finance surface: what the decorator and the signature
declare, and the one service method the body calls. -/
structure Route : Type 1 where
  method : String
  path : String
  scope : String
  status : Nat
  model : Model.Shape
  /-- what the query and the body validate to -/
  Arg : Type
  arguments : Framework → Request → Except (List FieldError) Arg
  serviceMethod : String
  /-- the argument the service method is called with, for the trace -/
  wire : Arg → Json
  service : Arg → Json

/-- The prefix of the aggregate router. -/
def financePrefix : String := "/finance"

/-- A route that lists, by page. -/
def Route.listing (path scope : String) (model : List Model.Field) (serviceMethod : String)
    (service : Int → Json) : Route where
  method := "GET"
  path := path
  scope := scope
  status := 200
  model := .many model
  Arg := Int
  arguments := Framework.page
  serviceMethod := serviceMethod
  wire page := .obj [("page", .int page)]
  service := service

/-- A route that creates a record from a validated body, which is dumped by
alias and without nulls. -/
def Route.creation (path scope : String) (body model : List Model.Field) (serviceMethod : String)
    (service : List (String × Json) → Json) : Route where
  method := "POST"
  path := path
  scope := scope
  status := 201
  model := .one model
  Arg := List (String × Json)
  arguments framework req :=
    (Model.validate framework.floatOf body req.body).map Model.Instance.dump
  serviceMethod := serviceMethod
  wire := .obj
  service := service

namespace Xero

/-- `list_invoices`. -/
def listInvoices : Route :=
  Route.listing (financePrefix ++ "/xero" ++ "/invoices") "finance:xero:read" invoice
    "XeroService.list_invoices" XeroService.listInvoices

/-- `create_invoice`. -/
def createInvoice : Route :=
  Route.creation (financePrefix ++ "/xero" ++ "/invoices") "finance:xero:write" invoiceCreate
    invoice "XeroService.create_invoice" XeroService.createInvoice

end Xero

namespace Netcash

/-- `list_transactions`. -/
def listTransactions : Route :=
  Route.listing (financePrefix ++ "/netcash" ++ "/transactions") "finance:netcash:read"
    transaction "NetcashService.list_transactions" NetcashService.listTransactions

/-- `create_payment`. -/
def createPayment : Route :=
  Route.creation (financePrefix ++ "/netcash" ++ "/payments") "finance:netcash:write"
    paymentCreate transaction "NetcashService.create_payment" NetcashService.createPayment

end Netcash

namespace Investec

/-- `list_accounts`: this one takes no page. -/
def listAccounts : Route where
  method := "GET"
  path := financePrefix ++ "/investec" ++ "/accounts"
  scope := "finance:investec:read"
  status := 200
  model := .many account
  Arg := Unit
  arguments _ _ := .ok ()
  serviceMethod := "InvestecService.list_accounts"
  wire _ := .obj []
  service _ := InvestecService.listAccounts

/-- `create_payment`. -/
def createPayment : Route :=
  Route.creation (financePrefix ++ "/investec" ++ "/payments") "finance:investec:write"
    paymentCreate accountTransaction "InvestecService.create_payment"
    InvestecService.createPayment

end Investec

/-- The routes the aggregate router mounts. -/
inductive FinanceRoute : Type where
  | xeroListInvoices : FinanceRoute
  | xeroCreateInvoice : FinanceRoute
  | netcashListTransactions : FinanceRoute
  | netcashCreatePayment : FinanceRoute
  | investecListAccounts : FinanceRoute
  | investecCreatePayment : FinanceRoute
  deriving DecidableEq

/-- The declaration of a mounted route. -/
def FinanceRoute.route : FinanceRoute → Route
  | xeroListInvoices => Xero.listInvoices
  | xeroCreateInvoice => Xero.createInvoice
  | netcashListTransactions => Netcash.listTransactions
  | netcashCreatePayment => Netcash.createPayment
  | investecListAccounts => Investec.listAccounts
  | investecCreatePayment => Investec.createPayment

/-! ## Running a route -/

/-- The dependency `Depends(require_scopes(…))`, which rests on
`current_principal`. -/
def scopedPrincipal (verify : String → VerifyOutcome)
    (dependency : Principal → Except ScopeError Principal) (authorization : Option String) :
    App Principal := do
  let principal ← currentPrincipal verify authorization
  Traced.lift ((dependency principal).mapError ScopeError.toExn)

/-- The body of a route: one service call, and its result through the response
model. -/
def Route.endpoint (route : Route) (framework : Framework) (arg : route.Arg) : App Response := do
  Traced.emit (.service route.serviceMethod (route.wire arg))
  Traced.lift (framework.respond route.model route.status (route.service arg))

/-- Declaring a route builds its scope gate; a scope that is not registered
fails there. What is mounted runs the route. -/
def Route.mount (route : Route) : Except ValueError (Deployment → Request → App Response) :=
  (requireScopes [route.scope]).map fun dependency deployment req =>
    runRoute (Traced.lift (requireApiKey deployment.settings (req.header "X-API-Key")))
      (scopedPrincipal deployment.verify dependency (req.header "Authorization"))
      (route.arguments deployment.framework req)
      fun _ arg => route.endpoint deployment.framework arg

end KgaGateway
