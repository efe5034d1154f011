import LdbBackend.Store.Alone

/-!
# What belongs to a merchant

The customers of a merchant, their accounts, the transactions on those accounts and the suspense
entries of those transactions. Every row but those of unmatched transactions is held by one merchant.
-/

namespace LdbBackend

open Fixed Effects Table

namespace Tables

variable (db : Tables) (merchantId : UUID)

def customersOf : List (Customer Cents) := db.customers.filter (·.merchantId = merchantId)

def accountsOf : List DedicatedAccount :=
  db.dedicatedAccounts.filter fun a => (db.customersOf merchantId).any (·.id = a.customerId)

def paymentsOf : List Transaction :=
  db.transactions.filter fun t =>
    (db.accountsOf merchantId).any fun a => t.dedicatedAccountId = some a.id

def suspendedOf : List SuspenseLog :=
  db.suspenseLogs.filter fun l => (db.paymentsOf merchantId).any (·.id = l.transactionId)

end Tables

section Members

variable {db : Tables} {m : UUID}

theorem mem_customersOf {c : Customer Cents} :
    c ∈ db.customersOf m ↔ c ∈ db.customers ∧ c.merchantId = m := by
  simp [Tables.customersOf, List.mem_filter]

theorem mem_accountsOf {a : DedicatedAccount} :
    a ∈ db.accountsOf m ↔ a ∈ db.dedicatedAccounts ∧ ∃ c ∈ db.customersOf m, c.id = a.customerId := by
  simp [Tables.accountsOf, List.mem_filter]

theorem mem_paymentsOf {t : Transaction} : t ∈ db.paymentsOf m ↔
    t ∈ db.transactions ∧ ∃ a ∈ db.accountsOf m, t.dedicatedAccountId = some a.id := by
  simp [Tables.paymentsOf, List.mem_filter]

/-- An account is held by the merchant of its owner, and by no other. -/
theorem mem_accountsOf_iff (h : db.Constraints) {a : DedicatedAccount} (ha : a ∈ db.dedicatedAccounts)
    {row : Customer Cents} (hrow : row ∈ db.customers) (howner : row.id = a.customerId) :
    a ∈ db.accountsOf m ↔ row.merchantId = m := by
  rw [mem_accountsOf, and_iff_right ha]
  constructor
  · rintro ⟨c, hc, hid⟩
    obtain ⟨hmem, hmerchant⟩ := mem_customersOf.mp hc
    rwa [← eq_of_key h.customer_pk hmem hrow (hid.trans howner.symm)]
  · exact fun hmerchant => ⟨row, mem_customersOf.mpr ⟨hrow, hmerchant⟩, howner⟩

end Members

end LdbBackend
