import LdbBackend.Model.Json

/-!
# Rows and tables

The models of `app/models`, one structure per table and one `Tables` value per database state. A
money column holds hundredths (`Cents`); an object in memory holds a `Decimal`, so `Customer` is
generic in its money: `Customer Cents` is a row and `Customer Decimal` an object.

`clock` numbers the row inserts. It supplies the fresh identifiers of `uuid4` and the timestamps.
`Tables.Constraints` is what the schema enforces: primary and unique keys, foreign keys and the width
of the money columns. A `Database` is a state that satisfies them.
-/

namespace LdbBackend

open Fixed

abbrev UUID : Type := Nat
abbrev Cents : Type := Int
abbrev Time : Type := Nat

inductive AccountStatus
  | active
  | closed
  | suspended
  deriving DecidableEq, Repr

inductive TransactionType
  | inbound
  deriving DecidableEq, Repr

inductive TransactionStatus
  | full
  | partial_
  | overpayment
  | misdirected
  deriving DecidableEq, Repr

namespace TransactionStatus

def value : TransactionStatus → String
  | full => "full"
  | partial_ => "partial"
  | overpayment => "overpayment"
  | misdirected => "misdirected"

end TransactionStatus

/-- The `RECONCILIATION_*` constants. -/
inductive Decision
  | creditFull
  | creditPartial
  | overpayment
  | quarantine
  | safetyNetMatch
  | safetyNetMissing
  deriving DecidableEq, Repr

namespace Decision

def value : Decision → String
  | creditFull => "credit_full"
  | creditPartial => "credit_partial"
  | overpayment => "overpayment"
  | quarantine => "quarantine"
  | safetyNetMatch => "safety_net_match"
  | safetyNetMissing => "safety_net_missing"

end Decision

/-- The `SUSPENSE_*` constants. -/
inductive SuspenseReason
  | misdirected
  | closedAccount
  deriving DecidableEq, Repr

namespace SuspenseReason

def value : SuspenseReason → String
  | misdirected => "misdirected"
  | closedAccount => "closed_account"

end SuspenseReason

structure Customer (μ : Type) where
  id : UUID
  merchantId : UUID
  merchantCustomerId : String
  name : String
  email : Option String
  phone : Option String
  targetAmount : Option μ
  walletBalance : μ
  metadata : List (String × String)
  createdAt : Time
  updatedAt : Time
  deriving DecidableEq, Repr

structure DedicatedAccount where
  id : UUID
  customerId : UUID
  nombaVaId : Option String
  accountNumber : String
  accountName : String
  accountRef : String
  status : AccountStatus
  createdAt : Time
  updatedAt : Time
  deriving DecidableEq, Repr

structure Transaction where
  id : UUID
  dedicatedAccountId : Option UUID
  nombaRequestId : String
  nombaTransactionId : Option String
  merchantTxRef : Option String
  amount : Cents
  fee : Cents
  senderName : Option String
  senderBank : Option String
  type : TransactionType
  status : TransactionStatus
  narration : Option String
  rawPayload : Json
  createdAt : Time

structure SuspenseLog where
  id : UUID
  transactionId : UUID
  reason : SuspenseReason
  amount : Cents
  deriving DecidableEq, Repr

structure ReconciliationLog where
  id : UUID
  transactionId : UUID
  expectedAmount : Option Cents
  receivedAmount : Cents
  decision : Decision
  details : Json

structure WebhookRegistration where
  id : UUID
  merchantId : UUID
  url : String
  secret : String
  events : List String
  active : Bool
  deriving DecidableEq, Repr

structure ProcessedWebhookEvent where
  id : UUID
  requestId : String
  eventType : String
  deriving DecidableEq, Repr

structure Tables where
  customers : List (Customer Cents)
  dedicatedAccounts : List DedicatedAccount
  transactions : List Transaction
  suspenseLogs : List SuspenseLog
  reconciliationLogs : List ReconciliationLog
  webhookRegistrations : List WebhookRegistration
  processedWebhookEvents : List ProcessedWebhookEvent
  clock : Nat

/-- A `NUMERIC(30, 2)` column can hold it. -/
def FitsColumn (n : Cents) : Prop := n.natAbs < 10 ^ 30

namespace Tables

def empty : Tables := ⟨[], [], [], [], [], [], [], 0⟩

/-- Primary keys, unique keys, foreign keys and column widths. Every identifier in use is older than
`clock`. -/
structure Constraints (db : Tables) : Prop where
  customer_pk : (db.customers.map (·.id)).Nodup
  customer_fresh : ∀ c ∈ db.customers, c.id < db.clock
  customer_unique : (db.customers.map fun c => (c.merchantId, c.merchantCustomerId)).Nodup
  customer_columns : ∀ c ∈ db.customers,
    FitsColumn c.walletBalance ∧ ∀ n, c.targetAmount = some n → FitsColumn n
  account_pk : (db.dedicatedAccounts.map (·.id)).Nodup
  account_fresh : ∀ a ∈ db.dedicatedAccounts, a.id < db.clock
  account_number : (db.dedicatedAccounts.map (·.accountNumber)).Nodup
  account_ref : (db.dedicatedAccounts.map (·.accountRef)).Nodup
  account_fk : ∀ a ∈ db.dedicatedAccounts, ∃ c ∈ db.customers, c.id = a.customerId
  transaction_pk : (db.transactions.map (·.id)).Nodup
  transaction_fresh : ∀ t ∈ db.transactions, t.id < db.clock
  transaction_request : (db.transactions.map (·.nombaRequestId)).Nodup
  transaction_columns : ∀ t ∈ db.transactions, FitsColumn t.amount ∧ FitsColumn t.fee
  transaction_fk : ∀ t ∈ db.transactions, ∀ i, t.dedicatedAccountId = some i →
    ∃ a ∈ db.dedicatedAccounts, a.id = i
  suspense_fk : ∀ l ∈ db.suspenseLogs, ∃ t ∈ db.transactions, t.id = l.transactionId
  reconciliation_fk : ∀ l ∈ db.reconciliationLogs, ∃ t ∈ db.transactions, t.id = l.transactionId
  processed_unique : (db.processedWebhookEvents.map (·.requestId)).Nodup

end Tables

/-- A state the schema admits. -/
structure Database where
  tables : Tables
  constraints : tables.Constraints

end LdbBackend
