import LdbBackend.Model.Api

/-!
# The request schemas

`app/schemas/requests` with the texts that `validation_error_response_handler` makes of their errors: the name
of the field and what is wrong with it. FastAPI resolves the bearer check before it refuses a body, and the
controller runs for a body without errors only. Values that are not of a field's type never become a request.
-/

namespace LdbBackend

open Fixed

/-! ## Constraints of a field -/

def fieldError (name message : String) : String := name ++ " " ++ message

/-- A constraint, and what pydantic says where it fails. -/
def constrain (ok : Prop) [Decidable ok] (name message : String) : List String :=
  if ok then [] else [fieldError name message]

def maxLength (name : String) (n : Nat) (value : String) : List String :=
  constrain (value.length ≤ n) name ("String should have at most " ++ toString n ++ " characters")

def minLength (name : String) (n : Nat) (value : String) : List String :=
  constrain (n ≤ value.length) name ("String should have at least " ++ toString n ++ " characters")

/-- A field that may be left out. -/
def given {β : Type} (value : Option β) (errors : β → List String) : List String := value.elim [] errors

def nonNegative (name : String) (value : Decimal) : List String :=
  constrain (Decimal.zero ≤ value) name "Input should be greater than or equal to 0"

/-! ## The schemas -/

def CreateCustomerRequest.errors (body : CreateCustomerRequest) : List String :=
  maxLength "merchant_customer_id" 100 body.merchantCustomerId ++ maxLength "name" 200 body.name ++
    given body.email (maxLength "email" 200) ++ given body.phone (maxLength "phone" 50) ++
    given body.targetAmount (nonNegative "target_amount")

def UpdateCustomerRequest.errors (body : UpdateCustomerRequest) : List String :=
  given body.name (maxLength "name" 200) ++ given body.email (maxLength "email" 200) ++
    given body.phone (maxLength "phone" 50) ++ given body.targetAmount (nonNegative "target_amount")

def CreateDedicatedAccountRequest.errors (body : CreateDedicatedAccountRequest) : List String :=
  maxLength "merchant_customer_id" 100 body.merchantCustomerId ++
    given body.accountName (maxLength "account_name" 200)

def PaginateFilterRequest.errors (filters : PaginateFilterRequest) : List String :=
  constrain (1 ≤ filters.page) "page" "Input should be greater than or equal to 1" ++
    constrain (1 ≤ filters.limit) "limit" "Input should be greater than or equal to 1" ++
    constrain (filters.limit ≤ 100) "limit" "Input should be less than or equal to 100"

def SimulateFundingRequest.errors (body : SimulateFundingRequest) : List String :=
  maxLength "account_number" 20 body.accountNumber ++
    constrain (Decimal.zero < body.amount) "amount" "Input should be greater than 0" ++
    maxLength "sender_name" 200 body.senderName ++ maxLength "sender_bank" 100 body.senderBank

def RegisterWebhookRequest.errors (body : RegisterWebhookRequest) : List String :=
  maxLength "url" 500 body.url ++ minLength "secret" 16 body.secret ++ maxLength "secret" 255 body.secret

/-! ## The routes behind them -/

section Submit

variable (settings : ApiSettings) (hmacSha256 : List UInt8 → List UInt8 → Digest)
  (loads : List UInt8 → Except Err Json)

namespace ApiRequest

def errors : ApiRequest → List String
  | createCustomer _ body _ => body.errors
  | updateCustomer _ _ body _ => body.errors
  | createDedicatedAccount _ body _ => body.errors
  | listTransactions _ _ _ filters => filters.errors
  | registerWebhook _ body => body.errors
  | simulateFunding _ _ _ body => body.errors
  | getCustomer _ _ | getAccount _ _ | getStatement _ _ _ | nombaWebhook _ _ _ | healthCheck => []

/-- The bearer check of the routes that depend on it. -/
def admitted : ApiRequest → Except Err Unit
  | createCustomer credentials _ _ | getCustomer credentials _ | updateCustomer credentials _ _ _
  | createDedicatedAccount credentials _ _ | getAccount credentials _ | listTransactions credentials _ _ _
  | getStatement credentials _ _ | registerWebhook credentials _ | simulateFunding credentials _ _ _ =>
    (getMerchantFromBearer settings credentials).map fun _ => ()
  | nombaWebhook _ _ _ | healthCheck => .ok ()

def submit (request : ApiRequest) : Controller := fun db =>
  match request.admitted settings with
  | .error e => (.error e, db)
  | .ok () =>
    if request.errors = [] then request.serve settings hmacSha256 loads db
    else (.error (.http 422 "Validation Errors" (some request.errors)), db)

end ApiRequest

end Submit

end LdbBackend
