import LdbBackend.Model.Helpers
import Mathlib.Data.List.Perm.Basic
import Mathlib.Data.List.Sort

/-!
# Statements

`app/services/statements.py` and `AccountService.get`. These handlers only read, one after another,
so they are functions of the tables. The database answers an ordered query with some ordering of the
matching rows that respects the requested one (`RowOrder`).
-/

namespace LdbBackend

open Fixed Effects

/-- An answer to `order_by("-created_at")`, for every set of matching rows. -/
structure RowOrder where
  apply : List Transaction → List Transaction
  perm : ∀ rows, (apply rows).Perm rows
  sorted : ∀ rows, (apply rows).Pairwise fun x y => y.createdAt ≤ x.createdAt

/-- Newest first. -/
def newestFirst : RowOrder where
  apply rows := rows.mergeSort fun x y => decide (y.createdAt ≤ x.createdAt)
  perm rows := List.mergeSort_perm rows _
  sorted rows := by
    refine (@List.pairwise_mergeSort _ (fun x y : Transaction => decide (y.createdAt ≤ x.createdAt))
      ?_ ?_ rows).imp fun h => of_decide_eq_true h
    · intro x y z hxy hyz
      simp only [decide_eq_true_eq] at hxy hyz ⊢
      exact le_trans hyz hxy
    · intro x y
      simp only [Bool.or_eq_true, decide_eq_true_eq]
      exact le_total _ _

structure StatementItem where
  id : UUID
  amount : Cents
  status : TransactionStatus
  senderName : Option String
  senderBank : Option String
  merchantTxRef : Option String
  narration : Option String
  createdAt : Time

structure Statement where
  accountId : UUID
  merchantCustomerId : String
  customerName : String
  accountNumber : String
  targetAmount : Option Decimal
  totalReceived : Decimal
  walletBalance : Decimal
  outstandingBalance : Decimal
  flaggedShortPayments : Nat
  status : String
  transactions : List StatementItem

def statementItem (tx : Transaction) : StatementItem where
  id := tx.id
  amount := tx.amount
  status := tx.status
  senderName := tx.senderName
  senderBank := tx.senderBank
  merchantTxRef := tx.merchantTxRef
  narration := tx.narration
  createdAt := tx.createdAt

/-- An account with its owner, for the merchant that owns it. -/
def accountFor (db : Tables) (accountId merchantId : UUID) :
    Except Err (DedicatedAccount × Customer Decimal) := do
  let account ← getOrNone (·.id = accountId) db.dedicatedAccounts
  match account with
  | none => .error (.http 404 "Account not found" none)
  | some account =>
    match (db.customers.find? (·.id = account.customerId)).map Customer.load with
    | none => .error .attributeError
    | some customer =>
      if customer.merchantId ≠ merchantId then .error (.http 404 "Account not found" none)
      else .ok (account, customer)

def transactionsOf (db : Tables) (accountId : UUID) : List Transaction :=
  db.transactions.filter (·.dedicatedAccountId = some accountId)

/-- `sum(..., start=Decimal("0"))`, in the order of the rows. -/
def totalReceived (rows : List Transaction) : Decimal :=
  ((rows.filter (·.status ≠ .misdirected)).map fun tx => Decimal.ofScaled 2 tx.amount).foldl (· + ·)
    Decimal.zero

def getStatement (order : RowOrder) (db : Tables) (accountId merchantId : UUID) :
    Except Err Statement := do
  let (account, customer) ← accountFor db accountId merchantId
  let transactions := order.apply (transactionsOf db account.id)
  return {
    accountId := account.id
    merchantCustomerId := customer.merchantCustomerId
    customerName := customer.name
    accountNumber := account.accountNumber
    targetAmount := customer.targetAmount
    totalReceived := totalReceived transactions
    walletBalance := customer.walletBalance
    outstandingBalance := (outstandingBalance customer).getD Decimal.zero
    flaggedShortPayments := transactions.countP (·.status = .partial_)
    status := customerStatus customer
    transactions := transactions.map statementItem }

structure PaginateFilterRequest where
  page : Nat
  limit : Nat

structure PaginationMetadata where
  page : Nat
  pages : Nat
  limit : Nat
  total : Nat
  count : Nat

structure TransactionPage where
  metadata : PaginationMetadata
  data : List Transaction

/-- The rows of one page are those of one query, so a page may see its own ordering. -/
def listTransactions (order : RowOrder) (db : Tables) (accountId merchantId : UUID)
    (filters : PaginateFilterRequest) : Except Err TransactionPage := do
  let (account, _) ← accountFor db accountId merchantId
  let rows := transactionsOf db account.id
  let total := rows.length
  let offset := (filters.page - 1) * filters.limit
  let data := ((order.apply rows).drop offset).take filters.limit
  return {
    metadata := {
      page := filters.page
      pages := max ((total + filters.limit - 1) / filters.limit) 1
      limit := filters.limit
      total := total
      count := data.length }
    data }

namespace AccountService

def get (db : Tables) (accountId merchantId : UUID) : Except Err AccountResponse := do
  let (account, customer) ← accountFor db accountId merchantId
  return accountResponse account customer

end AccountService

end LdbBackend
