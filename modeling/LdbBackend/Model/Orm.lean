import LdbBackend.Model.Tables
import LdbBackend.Lib.Pool
import LdbBackend.Lib.Table

/-!
# Database statements

Every `await` on the ORM is one operation (`Op`) with an answer (`Res`), executed atomically by
`exec`. Constructing an object validates its columns first (`charField`, `decimalField`); the
statement itself then has to satisfy the keys of the schema. A transaction is looked up by a text that
fits its column (`filterText`). Saving an object writes every column of
its row; a row that no longer exists is not brought back. Deleting a customer cascades.

The calls that leave the process (Nomba, outbound deliveries) and the call of
`emit_payment_received` are operations without effect on the tables: they mark points of a handler.
-/

namespace LdbBackend

open Fixed Effects Table

/-! ## Columns -/

/-- A value assigned to a `CharField`. -/
def charField (maxLength : Nat) (value : String) : Except Err String :=
  if value.length ≤ maxLength then .ok value else .error .validationError

/-- A payload value assigned to a nullable `CharField`. -/
def nullableCharField (maxLength : Nat) : Json → Except Err (Option String)
  | .null => .ok none
  | value => (charField maxLength value.text).map some

/-- A value a `CharField` is filtered by: validated as one of the column, and PostgreSQL knows no
U+0000. -/
def filterText (maxLength : Nat) (value : String) : Except Err String := do
  let text ← charField maxLength value
  if '\x00' ∈ text.toList then .error .dataError else .ok text

/-- A number assigned to a `DecimalField` when an object is constructed. -/
def decimalField (d : Decimal) : Except Err Cents :=
  match d.quantize 2 with
  | some n => .ok n
  | none => .error .invalidOperation

/-- A number written to a `NUMERIC(30, 2)` column. -/
def numericColumn (d : Decimal) : Except Err Cents :=
  match d.toColumn 30 2 with
  | some n => .ok n
  | none => .error .dataError

def require (p : Prop) [Decidable p] (e : Err) : Except Err Unit :=
  if p then .ok () else .error e

namespace Customer

def load (row : Customer Cents) : Customer Decimal :=
  { row with
    targetAmount := row.targetAmount.map (Decimal.ofScaled 2)
    walletBalance := Decimal.ofScaled 2 row.walletBalance }

def dump (customer : Customer Decimal) (targetAmount : Option Cents) (walletBalance : Cents)
    (updatedAt : Time) : Customer Cents :=
  { customer with targetAmount, walletBalance, updatedAt }

end Customer

/-! ## Statements -/

/-- `get_or_none`. -/
def getOrNone {ρ : Type} (p : ρ → Bool) (rows : List ρ) : Except Err (Option ρ) :=
  match getUnique p rows with
  | some row => .ok row
  | none => .error .multipleObjectsReturned

/-- `get_or_none` on a column of 200 characters. -/
def getByText {ρ : Type} (column : ρ → Option String) (value : String) (rows : List ρ) :
    Except Err (Option ρ) := do
  let text ← filterText 200 value
  getOrNone (fun row => column row = some text) rows

structure NewCustomer where
  merchantId : UUID
  merchantCustomerId : String
  name : String
  email : Option String
  phone : Option String
  targetAmount : Option Decimal
  metadata : List (String × String)

structure NewAccount where
  customer : Customer Decimal
  nombaVaId : Json
  accountNumber : String
  accountName : String
  accountRef : String

structure NewTransaction where
  dedicatedAccount : Option DedicatedAccount
  nombaRequestId : Json
  nombaTransactionId : Json
  merchantTxRef : Json
  amount : Decimal
  fee : Decimal
  senderName : Json
  senderBank : Json
  status : TransactionStatus
  narration : Json
  rawPayload : Json

structure NewReconciliationLog where
  transaction : Transaction
  expectedAmount : Option Decimal
  receivedAmount : Decimal
  decision : Decision
  details : Json

/-- The row an object becomes, if its columns are valid. -/
def NewCustomer.row (new : NewCustomer) (clock : Nat) : Except Err (Customer Cents) := do
  let merchantCustomerId ← charField 100 new.merchantCustomerId
  let name ← charField 200 new.name
  let email ← new.email.mapM (charField 200)
  let phone ← new.phone.mapM (charField 50)
  let targetAmount ← new.targetAmount.mapM decimalField
  return {
    id := clock, merchantId := new.merchantId, merchantCustomerId, name, email, phone, targetAmount
    walletBalance := 0, metadata := new.metadata, createdAt := clock, updatedAt := clock }

def NewAccount.row (new : NewAccount) (clock : Nat) : Except Err DedicatedAccount := do
  let nombaVaId ← nullableCharField 100 new.nombaVaId
  let accountNumber ← charField 20 new.accountNumber
  let accountName ← charField 200 new.accountName
  let accountRef ← charField 100 new.accountRef
  return {
    id := clock, customerId := new.customer.id, nombaVaId, accountNumber, accountName, accountRef
    status := .active, createdAt := clock, updatedAt := clock }

def NewTransaction.row (new : NewTransaction) (clock : Nat) : Except Err Transaction := do
  let nombaRequestId ← charField 100 new.nombaRequestId.text
  let nombaTransactionId ← nullableCharField 200 new.nombaTransactionId
  let merchantTxRef ← nullableCharField 200 new.merchantTxRef
  let amount ← decimalField new.amount
  let fee ← decimalField new.fee
  let senderName ← nullableCharField 200 new.senderName
  let senderBank ← nullableCharField 200 new.senderBank
  let narration ← nullableCharField 500 new.narration
  return {
    id := clock, dedicatedAccountId := new.dedicatedAccount.map (·.id), nombaRequestId
    nombaTransactionId, merchantTxRef, amount, fee, senderName, senderBank, type := .inbound
    status := new.status, narration, rawPayload := new.rawPayload, createdAt := clock }

def NewReconciliationLog.row (new : NewReconciliationLog) (clock : Nat) :
    Except Err ReconciliationLog := do
  let expectedAmount ← new.expectedAmount.mapM decimalField
  let receivedAmount ← decimalField new.receivedAmount
  return {
    id := clock, transactionId := new.transaction.id, expectedAmount, receivedAmount
    decision := new.decision, details := new.details }

namespace Tables

variable (db : Tables)

def createCustomer (new : NewCustomer) : Except Err (Customer Decimal × Tables) := do
  let row ← new.row db.clock
  require (∀ c ∈ db.customers,
    (c.merchantId, c.merchantCustomerId) ≠ (row.merchantId, row.merchantCustomerId)) .integrityError
  return (
    { row with
      targetAmount := row.targetAmount.map fun n => (Decimal.ofScaled 2 n).normalize
      walletBalance := Decimal.zero },
    { db with customers := db.customers ++ [row], clock := db.clock + 1 })

def replaceCustomer (row : Customer Cents) : Except Err Tables := do
  let customers := setRow (·.id) row db.customers
  require (customers.map fun c => (c.merchantId, c.merchantCustomerId)).Nodup .integrityError
  return { db with customers }

/-- `customer.save()`: every column from the object. -/
def saveCustomer (customer : Customer Decimal) : Except Err Tables := do
  let targetAmount ← customer.targetAmount.mapM numericColumn
  let walletBalance ← numericColumn customer.walletBalance
  db.replaceCustomer (customer.dump targetAmount walletBalance db.clock)

/-- `customer.delete()`, with the accounts of the customer, their transactions and what hangs on
those. -/
def deleteCustomer (id : UUID) : Tables :=
  let owned (a : DedicatedAccount) : Bool := a.customerId = id
  let onOwned (t : Transaction) : Bool :=
    db.dedicatedAccounts.any fun a => owned a && t.dedicatedAccountId = some a.id
  let dropped (transactionId : UUID) : Bool :=
    db.transactions.any fun t => onOwned t && t.id = transactionId
  { db with
    customers := db.customers.filter (·.id ≠ id)
    dedicatedAccounts := db.dedicatedAccounts.filter (!owned ·)
    transactions := db.transactions.filter (!onOwned ·)
    suspenseLogs := db.suspenseLogs.filter (!dropped ·.transactionId)
    reconciliationLogs := db.reconciliationLogs.filter (!dropped ·.transactionId) }

def createAccount (new : NewAccount) : Except Err (DedicatedAccount × Tables) := do
  let row ← new.row db.clock
  require (∀ a ∈ db.dedicatedAccounts,
    a.accountNumber ≠ row.accountNumber ∧ a.accountRef ≠ row.accountRef) .integrityError
  require (∃ c ∈ db.customers, c.id = row.customerId) .integrityError
  return (row, { db with dedicatedAccounts := db.dedicatedAccounts ++ [row], clock := db.clock + 1 })

/-- `account.save()`: every column from the object. -/
def saveAccount (account : DedicatedAccount) : Except Err Tables := do
  let dedicatedAccounts := setRow (·.id) { account with updatedAt := db.clock } db.dedicatedAccounts
  require ((dedicatedAccounts.map (·.accountNumber)).Nodup ∧
    (dedicatedAccounts.map (·.accountRef)).Nodup ∧
    ∀ a ∈ dedicatedAccounts, ∃ c ∈ db.customers, c.id = a.customerId) .integrityError
  return { db with dedicatedAccounts }

def createTransaction (new : NewTransaction) : Except Err (Transaction × Tables) := do
  let row ← new.row db.clock
  require (∀ t ∈ db.transactions, t.nombaRequestId ≠ row.nombaRequestId) .integrityError
  require (∀ i, row.dedicatedAccountId = some i → ∃ a ∈ db.dedicatedAccounts, a.id = i)
    .integrityError
  return (row, { db with transactions := db.transactions ++ [row], clock := db.clock + 1 })

def createSuspenseLog (transaction : Transaction) (reason : SuspenseReason) (amount : Decimal) :
    Except Err Tables := do
  let amount ← decimalField amount
  require (∃ t ∈ db.transactions, t.id = transaction.id) .integrityError
  return { db with
    suspenseLogs := db.suspenseLogs ++ [⟨db.clock, transaction.id, reason, amount⟩]
    clock := db.clock + 1 }

def createReconciliationLog (new : NewReconciliationLog) : Except Err Tables := do
  let row ← new.row db.clock
  require (∃ t ∈ db.transactions, t.id = row.transactionId) .integrityError
  return { db with
    reconciliationLogs := db.reconciliationLogs ++ [row], clock := db.clock + 1 }

def createProcessedEvent (requestId eventType : String) : Except Err Tables := do
  let requestId ← charField 100 requestId
  let eventType ← charField 100 eventType
  require (∀ e ∈ db.processedWebhookEvents, e.requestId ≠ requestId) .integrityError
  return { db with
    processedWebhookEvents := db.processedWebhookEvents ++ [⟨db.clock, requestId, eventType⟩]
    clock := db.clock + 1 }

def createRegistration (merchantId : UUID) (url secret : String) (events : List String) :
    Except Err (WebhookRegistration × Tables) := do
  let url ← charField 500 url
  let secret ← charField 255 secret
  let row : WebhookRegistration := ⟨db.clock, merchantId, url, secret, events, true⟩
  return (row,
    { db with webhookRegistrations := db.webhookRegistrations ++ [row], clock := db.clock + 1 })

end Tables

/-! ## Operations -/

/-- What `emit_payment_received` sends. -/
structure OutboundPayload where
  event : String
  customerId : String
  customerName : String
  accountNumber : String
  amountReceived : String
  walletBalance : String
  targetAmount : Option String
  status : String
  outstandingBalance : Option String
  transactionRef : Option String
  senderName : Option String
  senderBank : Option String
  deriving DecidableEq, Repr

inductive Op
  | customerByExternalId (merchantId : UUID) (merchantCustomerId : String)
  | customerById (id merchantId : UUID)
  | customerCreate (new : NewCustomer)
  | customerSave (customer : Customer Decimal)
  | customerDelete (id : UUID)
  | accountByNumber (accountNumber : String)
  | accountByRef (accountRef : String)
  | accountFirstByRef (accountRef : String)
  | accountFirstByCustomer (customerId : UUID)
  | accountFetchCustomer (account : DedicatedAccount)
  | accountCreate (new : NewAccount)
  | accountSave (account : DedicatedAccount)
  | transactionByNombaId (nombaTransactionId : String)
  | transactionByMerchantTxRef (merchantTxRef : String)
  | transactionCreate (new : NewTransaction)
  | suspenseLogCreate (transaction : Transaction) (reason : SuspenseReason) (amount : Decimal)
  | reconciliationLogCreate (new : NewReconciliationLog)
  | processedExists (requestId : String)
  | processedCreate (requestId eventType : String)
  | registrationCreate (merchantId : UUID) (url secret : String) (events : List String)
  | registrationsActive (merchantId : UUID)
  | emitPaymentReceived (transaction : Transaction)
  | post (url secret : String) (body : OutboundPayload)
  | nombaCreateAccount (accountRef accountName : String)
  | nombaUpdateAccountName (accountRef accountName : String)
  | nombaListTransactions

abbrev Res : Op → Type
  | .customerByExternalId _ _ | .customerById _ _ | .accountFetchCustomer _ =>
    Option (Customer Decimal)
  | .customerCreate _ => Customer Decimal
  | .accountByNumber _ | .accountByRef _ | .accountFirstByRef _ | .accountFirstByCustomer _ =>
    Option DedicatedAccount
  | .accountCreate _ => DedicatedAccount
  | .transactionByNombaId _ | .transactionByMerchantTxRef _ => Option Transaction
  | .transactionCreate _ => Transaction
  | .processedExists _ => Bool
  | .registrationCreate _ _ _ _ => WebhookRegistration
  | .registrationsActive _ => List WebhookRegistration
  | _ => Unit

/-- A write whose answer carries nothing. -/
def written (r : Except Err Tables) : Except Err (Unit × Tables) := r.map fun db => ((), db)

/-- A query: the answer, and the tables as they are. -/
def answered {β : Type} (r : Except Err β) (db : Tables) : Except Err (β × Tables) :=
  r.map fun b => (b, db)

def exec : (o : Op) → Tables → Except Err (Res o × Tables)
  | .customerByExternalId m x, db =>
    answered ((getOrNone (fun c => c.merchantId = m ∧ c.merchantCustomerId = x) db.customers).map
      (Option.map Customer.load)) db
  | .customerById i m, db =>
    answered ((getOrNone (fun c => c.id = i ∧ c.merchantId = m) db.customers).map
      (Option.map Customer.load)) db
  | .customerCreate new, db => db.createCustomer new
  | .customerSave customer, db => written (db.saveCustomer customer)
  | .customerDelete id, db => .ok ((), db.deleteCustomer id)
  | .accountByNumber n, db => answered (getOrNone (·.accountNumber = n) db.dedicatedAccounts) db
  | .accountByRef r, db => answered (getOrNone (·.accountRef = r) db.dedicatedAccounts) db
  | .accountFirstByRef r, db => .ok (db.dedicatedAccounts.find? (·.accountRef = r), db)
  | .accountFirstByCustomer i, db => .ok (db.dedicatedAccounts.find? (·.customerId = i), db)
  | .accountFetchCustomer a, db => .ok ((db.customers.find? (·.id = a.customerId)).map Customer.load, db)
  | .accountCreate new, db => db.createAccount new
  | .accountSave account, db => written (db.saveAccount account)
  | .transactionByNombaId i, db => answered (getByText (·.nombaTransactionId) i db.transactions) db
  | .transactionByMerchantTxRef r, db => answered (getByText (·.merchantTxRef) r db.transactions) db
  | .transactionCreate new, db => db.createTransaction new
  | .suspenseLogCreate t reason amount, db => written (db.createSuspenseLog t reason amount)
  | .reconciliationLogCreate new, db => written (db.createReconciliationLog new)
  | .processedExists r, db => .ok (db.processedWebhookEvents.any (·.requestId = r), db)
  | .processedCreate r e, db => written (db.createProcessedEvent r e)
  | .registrationCreate m url secret events, db => db.createRegistration m url secret events
  | .registrationsActive m, db =>
    .ok (db.webhookRegistrations.filter (fun r => r.merchantId = m ∧ r.active), db)
  | .emitPaymentReceived _, db | .post _ _ _, db | .nombaCreateAccount _ _, db
  | .nombaUpdateAccountName _ _, db | .nombaListTransactions, db => .ok ((), db)

/-- A handler: a program of database statements. -/
abbrev Handler (α : Type) : Type := Prog Op Res Err α

/-- One statement, awaited. -/
abbrev await (o : Op) : Handler (Res o) := Prog.op o

end LdbBackend
