import LdbBackend.Model.Hooks
import LdbBackend.Model.Service
import LdbBackend.Model.Statements

/-!
# The HTTP API

`app/api`: the bearer check, the controllers, and the routes with the statuses they declare; and the
answers of `app/error_handlers.py`. A request is what FastAPI makes of it: the credentials that `HTTPBearer`
found, and what the schemas read, with what the request meets outside the process.
-/

namespace LdbBackend

open Effects

structure ApiSettings where
  ldbApiKey : String
  defaultMerchantId : String
  nombaWebhookSecret : String

def getMerchantFromBearer (settings : ApiSettings) (credentials : String) : Except Err UUID :=
  if credentials ≠ settings.ldbApiKey then .error (.http 401 "Unauthorized access" none)
  else
    match CustomerService.parseUuid settings.defaultMerchantId with
    | some merchantId => .ok merchantId
    | none => .error .valueError

inductive ApiData
  | data (data : Data)
  | transactions (page : TransactionPage)
  | statement (statement : Statement)
  | health (service : String)

/-- A success envelope of any controller. -/
structure ApiResponse where
  statusCode : Nat
  message : String
  data : ApiData

def Response.api (r : Response) : ApiResponse := ⟨r.statusCode, r.message, .data r.data⟩

def healthCheck : ApiResponse := ⟨200, "Service is healthy", .health "ldb-dva"⟩

/-- The controllers, with their arguments. -/
inductive ApiRequest
  | createCustomer (credentials : String) (body : CreateCustomerRequest) (nomba : NombaOutcome)
  | getCustomer (credentials customerId : String)
  | updateCustomer (credentials customerId : String) (body : UpdateCustomerRequest) (nomba : NombaOutcome)
  | createDedicatedAccount (credentials : String) (body : CreateDedicatedAccountRequest) (nomba : NombaOutcome)
  | getAccount (credentials : String) (accountId : UUID)
  | listTransactions (credentials : String) (order : RowOrder) (accountId : UUID) (filters : PaginateFilterRequest)
  | getStatement (credentials : String) (order : RowOrder) (accountId : UUID)
  | registerWebhook (credentials : String) (body : RegisterWebhookRequest)
  | nombaWebhook (env : Surroundings) (rawBody : List UInt8) (nombaSignature : Option String)
  | simulateFunding (credentials : String) (env : Surroundings) (requestId : String) (body : SimulateFundingRequest)
  | healthCheck

/-- A controller run on the tables. -/
abbrev Controller : Type := Tables → Except Err ApiResponse × Tables

/-- A controller that awaits a service. -/
def awaiting (service : Handler Response) : Controller := fun db =>
  ((Prog.run exec service db).1.map Response.api, (Prog.run exec service db).2)

/-- A controller of a service that only reads. -/
def reading {β : Type} (query : Tables → Except Err β) (response : β → ApiResponse) : Controller := fun db =>
  ((query db).map response, db)

/-- `ValidMerchant`: the controller runs for the merchant of the credentials. -/
def withMerchant (settings : ApiSettings) (credentials : String) (controller : UUID → Controller) : Controller :=
  match getMerchantFromBearer settings credentials with
  | .ok merchantId => controller merchantId
  | .error e => fun db => (.error e, db)

section Serve

variable (settings : ApiSettings) (hmacSha256 : List UInt8 → List UInt8 → Digest)
  (loads : List UInt8 → Except Err Json)

def ApiRequest.serve : ApiRequest → Controller
  | createCustomer credentials body nomba => withMerchant settings credentials fun merchant =>
    awaiting (CustomerService.create body merchant nomba)
  | getCustomer credentials customerId => withMerchant settings credentials fun merchant =>
    awaiting (CustomerService.get customerId merchant)
  | updateCustomer credentials customerId body nomba => withMerchant settings credentials fun merchant =>
    awaiting (CustomerService.update customerId body merchant nomba)
  | createDedicatedAccount credentials body nomba => withMerchant settings credentials fun merchant =>
    awaiting (AccountService.createDedicated body merchant nomba)
  | getAccount credentials accountId => withMerchant settings credentials fun merchant =>
    reading (AccountService.get · accountId merchant) fun account =>
      ⟨200, "Account retrieved", .data (.account account)⟩
  | listTransactions credentials order accountId filters => withMerchant settings credentials fun merchant =>
    reading (LdbBackend.listTransactions order · accountId merchant filters) fun page =>
      ⟨200, "Transactions retrieved", .transactions page⟩
  | getStatement credentials order accountId => withMerchant settings credentials fun merchant =>
    reading (LdbBackend.getStatement order · accountId merchant) fun statement =>
      ⟨200, "Statement generated", .statement statement⟩
  | registerWebhook credentials body => withMerchant settings credentials fun merchant =>
    awaiting (register body merchant)
  | nombaWebhook env rawBody nombaSignature =>
    awaiting (LdbBackend.nombaWebhook hmacSha256 settings.nombaWebhookSecret loads env rawBody nombaSignature)
  | simulateFunding credentials env requestId body => withMerchant settings credentials fun _ =>
    awaiting (simulate env requestId body)
  | healthCheck => fun db => (.ok LdbBackend.healthCheck, db)

end Serve

/-! ## Routes -/

/-- The `status_code` of the route. -/
def ApiRequest.statusCode : ApiRequest → Nat
  | createCustomer _ _ _ | createDedicatedAccount _ _ _ | registerWebhook _ _ => 201
  | _ => 200

/-- The other statuses that its router declares. -/
def ApiRequest.responses : ApiRequest → List Nat
  | createCustomer _ _ _ => [409, 422, 502]
  | createDedicatedAccount _ _ _ => [404, 409, 502]
  | getCustomer _ _ | updateCustomer _ _ _ _ | getAccount _ _ | listTransactions _ _ _ _ | getStatement _ _ _ => [404]
  | registerWebhook _ _ | nombaWebhook _ _ _ | simulateFunding _ _ _ _ => [401, 422]
  | healthCheck => []

inductive ApiBody
  | success (response : ApiResponse)
  | failure (statusCode : Nat) (message : String) (errors : Option (List String))

/-- The `status_code` in the envelope. -/
def ApiBody.statusCode : ApiBody → Nat
  | success response => response.statusCode
  | failure statusCode _ _ => statusCode

structure HttpAnswer where
  status : Nat
  body : ApiBody

/-- The answer of a route: its own status to a success, and what the exception handlers say to an
exception. A cancelled request is not answered. -/
def ApiRequest.answer (request : ApiRequest) : Except Err ApiResponse → Option HttpAnswer
  | .ok response => some ⟨request.statusCode, .success response⟩
  | .error (.http status message errors) => some ⟨status, .failure status message errors⟩
  | .error .cancelled => none
  | .error _ => some ⟨500, .failure 500 "Something went wrong on our end. Please try again later" none⟩

end LdbBackend
