import LdbBackend.Model.Statements
import LdbBackend.Store.Schema

/-!
# Reads between other calls

`app/services/statements.py` again. Each awaited query sees the tables of its own moment, and other calls may run
in between. At a single moment these are the functions of `Model/Statements.lean`.
-/

namespace LdbBackend

open Fixed Effects

/-- The account is read in `found`, its customer in `owned`. -/
def accountForAcross (found owned : Tables) (accountId merchantId : UUID) :
    Except Err (DedicatedAccount × Customer Decimal) := do
  let account ← getOrNone (·.id = accountId) found.dedicatedAccounts
  match account with
  | none => .error (.http 404 "Account not found" none)
  | some account =>
    match (owned.customers.find? (·.id = account.customerId)).map Customer.load with
    | none => .error .attributeError
    | some customer =>
      if customer.merchantId ≠ merchantId then .error (.http 404 "Account not found" none)
      else .ok (account, customer)

/-- The transactions are read in `listed`. -/
def getStatementAcross (order : RowOrder) (found owned listed : Tables) (accountId merchantId : UUID) :
    Except Err Statement := do
  let (account, customer) ← accountForAcross found owned accountId merchantId
  let transactions := order.apply (transactionsOf listed account.id)
  return {
    accountId := account.id
    merchantCustomerId := customer.merchantCustomerId
    customerName := customer.name
    accountNumber := account.accountNumber
    targetAmount := customer.targetAmount
    totalReceived := totalReceived transactions
    walletBalance := customer.walletBalance
    outstandingBalance := (outstandingBalance customer).getD Decimal.zero
    flaggedShortPayments := transactions.countP (·.status = .partial_)
    status := customerStatus customer
    transactions := transactions.map statementItem }

/-- The transactions are counted in `counted`, and the rows of the page fetched in `fetched`. -/
def listTransactionsAcross (order : RowOrder) (found owned counted fetched : Tables) (accountId merchantId : UUID)
    (filters : PaginateFilterRequest) : Except Err TransactionPage := do
  let (account, _) ← accountForAcross found owned accountId merchantId
  let total := (transactionsOf counted account.id).length
  let offset := (filters.page - 1) * filters.limit
  let data := ((order.apply (transactionsOf fetched account.id)).drop offset).take filters.limit
  return {
    metadata := {
      page := filters.page
      pages := max ((total + filters.limit - 1) / filters.limit) 1
      limit := filters.limit
      total := total
      count := data.length }
    data }

section Now

variable (order : RowOrder) (db : Tables) (accountId merchantId : UUID)

theorem accountForAcross_now : accountForAcross db db accountId merchantId = accountFor db accountId merchantId := rfl

theorem getStatementAcross_now :
    getStatementAcross order db db db accountId merchantId = getStatement order db accountId merchantId := rfl

theorem listTransactionsAcross_now (filters : PaginateFilterRequest) :
    listTransactionsAcross order db db db db accountId merchantId filters =
      listTransactions order db accountId merchantId filters := rfl

end Now

/-- What the reads have found. -/
theorem accountForAcross_ok {found owned : Tables} {accountId merchantId : UUID} {account : DedicatedAccount}
    {customer : Customer Decimal} (h : accountForAcross found owned accountId merchantId = .ok (account, customer)) :
    (account ∈ found.dedicatedAccounts ∧ account.id = accountId) ∧
      ∃ row ∈ owned.customers, row.id = account.customerId ∧ customer = row.load := by
  unfold accountForAcross at h
  cases hget : getOrNone (fun a : DedicatedAccount => decide (a.id = accountId)) found.dedicatedAccounts with
  | error e =>
    rw [hget] at h
    cases h
  | ok r =>
    rw [hget] at h
    cases r with
    | none => cases h
    | some a =>
      cases hrow : owned.customers.find? (·.id = a.customerId) with
      | none =>
        simp only [bind, Except.bind, hrow, Option.map_none] at h
        cases h
      | some row =>
        simp only [bind, Except.bind, hrow, Option.map_some] at h
        split_ifs at h
        · cases h
          have hid := List.find?_some hrow
          obtain ⟨hmem, ha⟩ := getOrNone_some hget
          exact ⟨⟨hmem, of_decide_eq_true ha⟩, row, List.mem_of_find?_eq_some hrow, of_decide_eq_true hid, rfl⟩

end LdbBackend
