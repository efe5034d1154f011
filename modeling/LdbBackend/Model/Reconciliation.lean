import LdbBackend.Model.Forwarder

/-!
# Reconciling an inbound payment

`app/services/reconciliation.py`. The body of `process_payment` is cut in three: `readPayment` takes
the payload apart, `settlePayment` finds the account, and `creditPayment` runs once an active account
and its owner are known.
-/

namespace LdbBackend

open Fixed Effects

/-- What a delivery may meet besides the database: the reference `generate_reference` would return,
and the outcome of each outbound POST. -/
structure Surroundings where
  reference : String
  post : WebhookRegistration → PostOutcome

structure Payment where
  amount : Decimal
  fee : Decimal
  aliasAccountNumber : String
  aliasAccountReference : Json
  nombaTransactionId : Json
  merchantTxRef : Json
  senderName : Json
  senderBank : Json
  narration : Json

structure PaymentResult where
  transactionId : UUID
  status : TransactionStatus
  walletBalance : Option Decimal
  quarantined : Bool

/-- `(value or "").replace(" ", "")`. -/
def aliasNumber (value : Json) : Except Err String :=
  match value.orElse (.str "") with
  | .str s => .ok (removeSpaces s)
  | _ => .error .attributeError

def readPayment (reference : String) (rawPayload : Json) : Except Err Payment := do
  let data ← rawPayload.get "data" (.obj [])
  let transactionData ← data.get "transaction" (.obj [])
  let customerData ← data.get "customer" (.obj [])
  let amount ← (← transactionData.get "transactionAmount" (.int 0)).toDecimal
  let fee ← (← transactionData.get "fee" (.int 0)).toDecimal
  let aliasAccountNumber ← aliasNumber (← transactionData.get "aliasAccountNumber" .null)
  let aliasAccountReference ← transactionData.get "aliasAccountReference" .null
  let nombaTransactionId ← transactionData.get "transactionId" .null
  let merchantTxRef ← transactionData.get "merchantTxRef" .null
  let senderName ← customerData.get "senderName" .null
  let senderBank ← customerData.get "bankName" .null
  let narration ← transactionData.get "narration" .null
  return {
    amount, fee, aliasAccountNumber, aliasAccountReference, nombaTransactionId
    merchantTxRef := merchantTxRef.orElse (.str reference), senderName, senderBank, narration }

def decisionForStatus : TransactionStatus → Decision
  | .full => .creditFull
  | .partial_ => .creditPartial
  | .overpayment => .overpayment
  | .misdirected => .quarantine

/-- The second lookup, by reference. -/
def findByRef (accountRef : Json) : Handler (Option DedicatedAccount) :=
  if accountRef.truthy then await (.accountByRef accountRef.text) else return none

def findAccount (accountNumber : String) (accountRef : Json) : Handler (Option DedicatedAccount) :=
  if accountNumber ≠ "" then do
    let account : Option DedicatedAccount ← await (.accountByNumber accountNumber)
    match account with
    | some account => return some account
    | none => findByRef accountRef
  else findByRef accountRef

def Payment.newTransaction (p : Payment) (requestId rawPayload : Json)
    (account : Option DedicatedAccount) (status : TransactionStatus) : NewTransaction where
  dedicatedAccount := account
  nombaRequestId := requestId
  nombaTransactionId := p.nombaTransactionId
  merchantTxRef := p.merchantTxRef
  amount := p.amount
  fee := p.fee
  senderName := p.senderName
  senderBank := p.senderBank
  status := status
  narration := p.narration
  rawPayload := rawPayload

def quarantinePayment (requestId rawPayload : Json) (p : Payment) (reason : SuspenseReason)
    (account : Option DedicatedAccount) : Handler PaymentResult := do
  let transaction : Transaction ←
    await (.transactionCreate (p.newTransaction requestId rawPayload account .misdirected))
  let _ ← await (.suspenseLogCreate transaction reason p.amount)
  let _ ← await (.reconciliationLogCreate {
    transaction, expectedAmount := none, receivedAmount := p.amount, decision := .quarantine
    details := .obj [("reason", .str reason.value)] })
  return ⟨transaction.id, .misdirected, none, true⟩

def creditPayment (env : Surroundings) (requestId : Json) (eventType : String) (rawPayload : Json)
    (p : Payment) (account : DedicatedAccount) (customer : Customer Decimal) :
    Handler PaymentResult := do
  let status := deriveTransactionStatus p.amount customer.targetAmount
  let transaction : Transaction ←
    await (.transactionCreate (p.newTransaction requestId rawPayload (some account) status))
  let credited := { customer with walletBalance := customer.walletBalance + p.amount }
  let _ ← await (.customerSave credited)
  let _ ← await (.reconciliationLogCreate {
    transaction, expectedAmount := credited.targetAmount, receivedAmount := p.amount
    decision := decisionForStatus status
    details := .obj [("event_type", .str eventType),
      ("wallet_balance_after", .str credited.walletBalance.str)] })
  emitPaymentReceived env.post credited.merchantId credited account transaction
  return ⟨transaction.id, status, some credited.walletBalance, false⟩

/-- The routing of a payment that was read. -/
def settlePayment (env : Surroundings) (requestId : Json) (eventType : String) (rawPayload : Json)
    (p : Payment) : Handler PaymentResult := do
  let account ← findAccount p.aliasAccountNumber p.aliasAccountReference
  match account with
  | none => quarantinePayment requestId rawPayload p .misdirected none
  | some account => do
    let customer : Option (Customer Decimal) ← await (.accountFetchCustomer account)
    if account.status ≠ .active then
      quarantinePayment requestId rawPayload p .closedAccount (some account)
    else
      match customer with
      | none => .raise .attributeError
      | some customer => creditPayment env requestId eventType rawPayload p account customer

def processPayment (env : Surroundings) (requestId : Json) (eventType : String) (rawPayload : Json) :
    Handler PaymentResult := do
  let p ← Prog.lift (readPayment env.reference rawPayload)
  settlePayment env requestId eventType rawPayload p

end LdbBackend
