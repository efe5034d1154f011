import LdbBackend.Model.Orm

/-!
# Responses and derived funding fields

`app/services/helpers.py` and the response envelope. The division behind `progress_percentage` and
its rounding to two decimals are exact rational arithmetic.
-/

namespace LdbBackend

open Fixed Effects

def deriveTransactionStatus (receivedAmount : Decimal) (targetAmount : Option Decimal) :
    TransactionStatus :=
  match targetAmount with
  | none => .full
  | some target =>
    if target ≤ receivedAmount then
      if target < receivedAmount then .overpayment else .full
    else if Decimal.zero < receivedAmount then .partial_
    else .misdirected

def customerStatus (customer : Customer Decimal) : String :=
  match customer.targetAmount with
  | none => "Normal"
  | some target =>
    if target ≤ customer.walletBalance then "Normal"
    else if Decimal.zero < customer.walletBalance then "Underpayment"
    else "Normal"

def outstandingBalance (customer : Customer Decimal) : Option Decimal :=
  customer.targetAmount.map fun target =>
    let outstanding := target - customer.walletBalance
    if Decimal.zero < outstanding then outstanding else Decimal.zero

/-- `round(q, 2)`. -/
def roundHundredths (q : ℚ) : ℚ :=
  let c := roundHalfEven ((q * 100).num.natAbs) (q * 100).den
  (signed (decide (q < 0)) c : ℚ) / 100

def progressPercentage (customer : Customer Decimal) : Option ℚ :=
  match customer.targetAmount with
  | none => none
  | some target =>
    if target ≤ Decimal.zero then none
    else some (min (roundHundredths (customer.walletBalance.toRat / target.toRat * 100)) 100)

structure AccountSummary where
  id : UUID
  accountNumber : String
  accountName : String
  bankName : String
  status : AccountStatus

structure CustomerResponse where
  id : UUID
  merchantCustomerId : String
  name : String
  email : Option String
  phone : Option String
  targetAmount : Option Decimal
  walletBalance : Decimal
  outstandingBalance : Option Decimal
  progressPercentage : Option ℚ
  status : String
  metadata : List (String × String)
  dedicatedAccount : Option AccountSummary
  createdAt : Time
  updatedAt : Time

structure AccountResponse where
  id : UUID
  customerId : UUID
  merchantCustomerId : String
  nombaVaId : Option String
  accountNumber : String
  accountName : String
  accountRef : String
  bankName : String
  status : AccountStatus
  walletBalance : Decimal
  createdAt : Time
  updatedAt : Time

structure PaymentData where
  transactionId : UUID
  status : TransactionStatus
  walletBalance : Option String
  quarantined : Bool
  deriving DecidableEq, Repr

structure RegistrationData where
  id : UUID
  url : String
  events : List String
  active : Bool

inductive Data
  | none
  | payment (data : PaymentData)
  | customer (data : CustomerResponse)
  | account (data : AccountResponse)
  | registration (data : RegistrationData)

/-- A `success_response` envelope. -/
structure Response where
  statusCode : Nat
  message : String
  data : Data

def customerResponse (customer : Customer Decimal) (account : Option DedicatedAccount) :
    CustomerResponse where
  id := customer.id
  merchantCustomerId := customer.merchantCustomerId
  name := customer.name
  email := customer.email
  phone := customer.phone
  targetAmount := customer.targetAmount
  walletBalance := customer.walletBalance
  outstandingBalance := outstandingBalance customer
  progressPercentage := progressPercentage customer
  status := customerStatus customer
  metadata := customer.metadata
  dedicatedAccount := account.map fun a => ⟨a.id, a.accountNumber, a.accountName, "Nomba", a.status⟩
  createdAt := customer.createdAt
  updatedAt := customer.updatedAt

def buildCustomerResponse (customer : Customer Decimal) : Handler CustomerResponse := do
  let account : Option DedicatedAccount ← await (.accountFirstByCustomer customer.id)
  return customerResponse customer account

def accountResponse (account : DedicatedAccount) (customer : Customer Decimal) : AccountResponse where
  id := account.id
  customerId := customer.id
  merchantCustomerId := customer.merchantCustomerId
  nombaVaId := account.nombaVaId
  accountNumber := account.accountNumber
  accountName := account.accountName
  accountRef := account.accountRef
  bankName := "Nomba"
  status := account.status
  walletBalance := customer.walletBalance
  createdAt := account.createdAt
  updatedAt := account.updatedAt

def buildAccountResponse (account : DedicatedAccount) : Handler AccountResponse := do
  let customer : Option (Customer Decimal) ← await (.accountFetchCustomer account)
  match customer with
  | none => .raise .attributeError
  | some customer => return accountResponse account customer

end LdbBackend
