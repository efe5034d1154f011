import LdbBackend.Model.Webhooks

/-!
# Amounts that are not a number

`Decimal(str(value))` also reads `"NaN"`, and a `NUMERIC` column stores it. Here `process_payment` and
`receive` run on numbers that may be NaN (`none`). A money column that holds NaN keeps a zero in the
tables and is listed in `nan`; a statement that the tables execute with that zero lists the columns it
writes. NaN spreads through sums, and to compare it raises `InvalidOperation`. An infinite amount is
refused where it is read, since the first insert refuses it; the sign and the digits of a NaN are not
kept.
-/

namespace LdbBackend

open Fixed Effects

namespace NotANumber

/-- A number of the `decimal` module, or NaN. -/
abbrev Number : Type := Option Decimal

/-- A money column of a row. -/
inductive Column
  | wallet (customerId : UUID)
  | amount (transactionId : UUID)
  | fee (transactionId : UUID)
  | suspended (suspenseLogId : UUID)
  | received (reconciliationLogId : UUID)
  deriving DecidableEq, Repr

/-- The row of a column. -/
def Column.row : Column → UUID
  | wallet id | amount id | fee id | suspended id | received id => id

/-- The tables, with zero for NaN, and the columns that hold NaN. -/
structure State where
  tables : Tables
  nan : List Column

/-- The schema holds, and the columns belong to rows that were inserted. -/
structure State.Sound (s : State) : Prop where
  constraints : s.tables.Constraints
  inserted : ∀ column ∈ s.nan, column.row < s.tables.clock

/-- The number a column holds. -/
def State.read (s : State) (column : Column) (n : Cents) : Option Cents :=
  if column ∈ s.nan then none else some n

/-! ## Numbers -/

/-- An optional sign, `nan` in any case, and digits. -/
def readsNan (s : String) : Bool :=
  let cs := (readSign (numericChars s)).2
  (cs.take 3).map Char.toLower == ['n', 'a', 'n'] && (cs.drop 3).all Char.isDigit

/-- `Decimal(str(value))`. -/
def toNumber (value : Json) : Except Err Number :=
  match value with
  | .str s => if readsNan s then .ok none else value.toDecimal.map some
  | _ => value.toDecimal.map some

def add (x y : Number) : Number := do return (← x) + (← y)

def str : Number → String
  | some d => d.str
  | none => "NaN"

/-- What the tables keep of a number. -/
def kept (x : Number) : Decimal := x.getD .zero

/-- The columns to list when `x` is written to `column`. -/
def listed (x : Number) (column : Column) : List Column := if x.isNone then [column] else []

def deriveTransactionStatus (receivedAmount : Number) (targetAmount : Option Number) :
    Except Err TransactionStatus :=
  match targetAmount with
  | none => .ok .full
  | some target =>
    match receivedAmount, target with
    | some receivedAmount, some target => .ok (LdbBackend.deriveTransactionStatus receivedAmount (some target))
    | _, _ => .error .invalidOperation

def outstandingBalance (customer : Customer Number) : Except Err (Option Decimal) :=
  match customer.targetAmount with
  | none => .ok none
  | some target =>
    match target, customer.walletBalance with
    | some target, some walletBalance =>
      let outstanding := target - walletBalance
      .ok (some (if Decimal.zero < outstanding then outstanding else Decimal.zero))
    | _, _ => .error .invalidOperation

/-! ## Statements -/

/-- A handler on these states. -/
abbrev NanHandler (α : Type) : Type := ExceptT Err (StateM State) α

/-- A program that touches no number. -/
def plain {α : Type} (p : Handler α) : NanHandler α := fun s =>
  let (result, tables) := Prog.run exec p s.tables
  (result, { s with tables })

/-- A pure computation that may raise. -/
def raising {α : Type} (x : Except Err α) : NanHandler α := fun s => (x, s)

/-- A statement of the tables, with the columns it lists. -/
def statement {α : Type} (f : Tables → Except Err (α × Tables)) (columns : Tables → List Column) :
    NanHandler α := fun s =>
  match f s.tables with
  | .ok (a, tables) => (.ok a, ⟨tables, s.nan ++ columns s.tables⟩)
  | .error e => (.error e, s)

structure NumberPayment where
  amount : Number
  fee : Number
  aliasAccountNumber : String
  aliasAccountReference : Json
  nombaTransactionId : Json
  merchantTxRef : Json
  senderName : Json
  senderBank : Json
  narration : Json

/-- The payment as the tables keep it. -/
def NumberPayment.kept (p : NumberPayment) : Payment :=
  { p with amount := NotANumber.kept p.amount, fee := NotANumber.kept p.fee }

def accountFetchCustomer (account : DedicatedAccount) : NanHandler (Option (Customer Number)) :=
  fun s => (.ok ((s.tables.customers.find? (·.id = account.customerId)).map fun row => {
    row with
    targetAmount := row.targetAmount.map fun n => some (Decimal.ofScaled 2 n)
    walletBalance := (s.read (.wallet row.id) row.walletBalance).map (Decimal.ofScaled 2) }), s)

def transactionCreate (p : NumberPayment) (requestId rawPayload : Json)
    (account : Option DedicatedAccount) (status : TransactionStatus) : NanHandler Transaction :=
  statement (exec (.transactionCreate (p.kept.newTransaction requestId rawPayload account status)))
    fun db => listed p.amount (.amount db.clock) ++ listed p.fee (.fee db.clock)

/-- Saving a customer that is still there lists its wallet anew. -/
def State.saved (s : State) (customer : Customer Number) : List Column :=
  if s.tables.customers.any (·.id = customer.id) then
    s.nan.filter (· ≠ .wallet customer.id) ++ listed customer.walletBalance (.wallet customer.id)
  else s.nan

def customerSave (customer : Customer Number) : NanHandler Unit := fun s =>
  match exec (.customerSave { customer with
      targetAmount := customer.targetAmount.map kept
      walletBalance := kept customer.walletBalance }) s.tables with
  | .ok (_, tables) => (.ok (), ⟨tables, s.saved customer⟩)
  | .error e => (.error e, s)

def suspenseLogCreate (transaction : Transaction) (reason : SuspenseReason) (amount : Number) :
    NanHandler Unit :=
  statement (exec (.suspenseLogCreate transaction reason (kept amount)))
    fun db => listed amount (.suspended db.clock)

def reconciliationLogCreate (transaction : Transaction) (expectedAmount : Option Number)
    (receivedAmount : Number) (decision : Decision) (details : Json) : NanHandler Unit :=
  statement (exec (.reconciliationLogCreate ⟨transaction, expectedAmount.map kept, kept receivedAmount,
    decision, details⟩)) fun db => listed receivedAmount (.received db.clock)

/-! ## Handlers -/

def outboundPayload (customer : Customer Number) (account : DedicatedAccount)
    (transaction : Transaction) (amount : Number) (outstanding : Option Decimal) : OutboundPayload where
  event := outboundEventPaymentReceived
  customerId := customer.merchantCustomerId
  customerName := customer.name
  accountNumber := account.accountNumber
  amountReceived := if amount.isNone then "NaN" else storedText transaction.amount
  walletBalance := str customer.walletBalance
  targetAmount :=
    match customer.targetAmount with
    | some (some target) => if target.isZero then none else some target.str
    | some none => some "NaN"
    | none => none
  status := transaction.status.value
  outstandingBalance := outstanding.map Decimal.str
  transactionRef := transaction.merchantTxRef
  senderName := transaction.senderName
  senderBank := transaction.senderBank

def emitPaymentReceived (post : WebhookRegistration → PostOutcome) (merchantId : UUID)
    (customer : Customer Number) (account : DedicatedAccount) (transaction : Transaction)
    (amount : Number) : NanHandler Unit := do
  let _ ← plain (await (.emitPaymentReceived transaction))
  let registrations : List WebhookRegistration ← plain (await (.registrationsActive merchantId))
  if registrations.isEmpty then return ()
  else do
    let outstanding ← raising (outstandingBalance customer)
    plain (deliver post (outboundPayload customer account transaction amount outstanding) registrations)

structure NumberResult where
  transactionId : UUID
  status : TransactionStatus
  walletBalance : Option Number
  quarantined : Bool

def readPayment (reference : String) (rawPayload : Json) : Except Err NumberPayment := do
  let data ← rawPayload.get "data" (.obj [])
  let transactionData ← data.get "transaction" (.obj [])
  let customerData ← data.get "customer" (.obj [])
  let amount ← toNumber (← transactionData.get "transactionAmount" (.int 0))
  let fee ← toNumber (← transactionData.get "fee" (.int 0))
  let aliasAccountNumber ← aliasNumber (← transactionData.get "aliasAccountNumber" .null)
  let aliasAccountReference ← transactionData.get "aliasAccountReference" .null
  let nombaTransactionId ← transactionData.get "transactionId" .null
  let merchantTxRef ← transactionData.get "merchantTxRef" .null
  let senderName ← customerData.get "senderName" .null
  let senderBank ← customerData.get "bankName" .null
  let narration ← transactionData.get "narration" .null
  return {
    amount, fee, aliasAccountNumber, aliasAccountReference, nombaTransactionId
    merchantTxRef := merchantTxRef.orElse (.str reference), senderName, senderBank, narration }

def quarantinePayment (requestId rawPayload : Json) (p : NumberPayment) (reason : SuspenseReason)
    (account : Option DedicatedAccount) : NanHandler NumberResult := do
  let transaction ← transactionCreate p requestId rawPayload account .misdirected
  let _ ← suspenseLogCreate transaction reason p.amount
  let _ ← reconciliationLogCreate transaction none p.amount .quarantine
    (.obj [("reason", .str reason.value)])
  return ⟨transaction.id, .misdirected, none, true⟩

def creditPayment (env : Surroundings) (requestId : Json) (eventType : String) (rawPayload : Json)
    (p : NumberPayment) (account : DedicatedAccount) (customer : Customer Number) :
    NanHandler NumberResult := do
  let status ← raising (deriveTransactionStatus p.amount customer.targetAmount)
  let transaction ← transactionCreate p requestId rawPayload (some account) status
  let credited := { customer with walletBalance := add customer.walletBalance p.amount }
  let _ ← customerSave credited
  let _ ← reconciliationLogCreate transaction credited.targetAmount p.amount (decisionForStatus status)
    (.obj [("event_type", .str eventType), ("wallet_balance_after", .str (str credited.walletBalance))])
  let _ ← emitPaymentReceived env.post credited.merchantId credited account transaction p.amount
  return ⟨transaction.id, status, some credited.walletBalance, false⟩

def settlePayment (env : Surroundings) (requestId : Json) (eventType : String) (rawPayload : Json)
    (p : NumberPayment) : NanHandler NumberResult := do
  let account ← plain (findAccount p.aliasAccountNumber p.aliasAccountReference)
  match account with
  | none => quarantinePayment requestId rawPayload p .misdirected none
  | some account => do
    let customer ← accountFetchCustomer account
    if account.status ≠ .active then
      quarantinePayment requestId rawPayload p .closedAccount (some account)
    else
      match customer with
      | none => raising (.error .attributeError)
      | some customer => creditPayment env requestId eventType rawPayload p account customer

def processPayment (env : Surroundings) (requestId : Json) (eventType : String) (rawPayload : Json) :
    NanHandler NumberResult := do
  let p ← raising (readPayment env.reference rawPayload)
  settlePayment env requestId eventType rawPayload p

def NumberResult.response (result : NumberResult) : Response where
  statusCode := 200
  message := if result.quarantined then "Payment quarantined" else "Payment reconciled"
  data := .payment ⟨result.transactionId, result.status, result.walletBalance.map str,
    result.quarantined⟩

def receive (env : Surroundings) (payload : Json) : NanHandler Response := do
  let eventType ← raising (eventTypeOf payload)
  let requestId ← raising (requestIdOf payload)
  if !requestId.truthy then raising (.error (.http 400 "Webhook missing requestId" none))
  else do
    let processed : Bool ← plain (await (.processedExists requestId.text))
    if processed then return ⟨200, "Webhook already processed", .none⟩
    else if !eventType.isText nombaPaymentSuccessEvent then do
      let _ ← plain (await (.processedCreate requestId.text eventType.text))
      return ⟨200, "Webhook event ignored", .none⟩
    else do
      let transferType ← raising (transferTypeOf payload)
      if !transferType.isText nombaVactTransferType then do
        let _ ← plain (await (.processedCreate requestId.text eventType.text))
        return ⟨200, "Non virtual-account transfer ignored", .none⟩
      else do
        let result ← processPayment env requestId eventType.text payload
        let _ ← plain (await (.processedCreate requestId.text eventType.text))
        return result.response

end NotANumber

end LdbBackend
