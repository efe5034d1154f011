import LdbBackend.Delivery.Deliver
import LdbBackend.Model.Customers

/-!
# Wallets

The wallet stored for a customer, and what the outcomes of a delivery do to it: a credit writes one
row, everything else leaves every wallet as it was.
-/

namespace LdbBackend

open Fixed Effects Table

/-- The wallet balance stored for a customer. -/
def Tables.wallet (db : Tables) (id : UUID) : Option Cents :=
  (db.customers.find? (·.id = id)).map (·.walletBalance)

theorem wallet_of_mem {db : Tables} (h : db.Constraints) {row : Customer Cents}
    (hrow : row ∈ db.customers) : db.wallet row.id = some row.walletBalance := by
  unfold Tables.wallet
  rw [find?_of_mem h.customer_pk hrow]
  rfl

theorem wallet_eq_of_customers {db db' : Tables} (h : db'.customers = db.customers) (id : UUID) :
    db'.wallet id = db.wallet id := by
  unfold Tables.wallet
  rw [h]

section Saved

variable {db db' : Tables} {row : Customer Cents} {w : Cents} {time : Time}

/-- The wallet of the row that was saved. -/
theorem wallet_setRow {saved : Customer Cents} (hrow : ∃ c ∈ db.customers, c.id = saved.id)
    (hsaved : db'.customers = setRow (·.id) saved db.customers) :
    db'.wallet saved.id = some saved.walletBalance := by
  have hfind := find?_setRow_self (fun c : Customer Cents => c.id) saved hrow
  unfold Tables.wallet
  rw [hsaved, hfind]
  rfl

theorem wallet_saved_self (hrow : row ∈ db.customers) (hsaved : db'.customers =
      setRow (·.id) { row with walletBalance := w, updatedAt := time } db.customers) :
    db'.wallet row.id = some w :=
  @wallet_setRow db db' { row with walletBalance := w, updatedAt := time } ⟨row, hrow, rfl⟩ hsaved

/-- The wallet of every other row. -/
theorem wallet_saved_ne (hsaved : db'.customers =
      setRow (·.id) { row with walletBalance := w, updatedAt := time } db.customers) {id : UUID}
    (h : id ≠ row.id) : db'.wallet id = db.wallet id := by
  have hfind := find?_setRow_ne (fun c : Customer Cents => c.id)
    { row with walletBalance := w, updatedAt := time } db.customers h
  unfold Tables.wallet
  rw [hsaved, hfind]

end Saved

theorem wallet_credited_self {db : Tables} {row : Customer Cents} (hrow : row ∈ db.customers)
    (w : Cents) : (db.credited row w).wallet row.id = some w :=
  wallet_saved_self hrow rfl

theorem wallet_credited_ne {db : Tables} {row : Customer Cents} {w : Cents} {id : UUID}
    (h : id ≠ row.id) : (db.credited row w).wallet id = db.wallet id :=
  wallet_saved_ne rfl h

/-! ## Rows that hang on a transaction -/

def Tables.suspenseOf (db : Tables) (t : Transaction) : List SuspenseLog :=
  db.suspenseLogs.filter (·.transactionId = t.id)

def Tables.logsOf (db : Tables) (t : Transaction) : List ReconciliationLog :=
  db.reconciliationLogs.filter (·.transactionId = t.id)

/-- Nothing hangs on a transaction that was not there yet. -/
theorem suspenseOf_new {db : Tables} (h : db.Constraints) {t : Transaction} (ht : t.id = db.clock) :
    db.suspenseOf t = [] := by
  unfold Tables.suspenseOf
  rw [List.filter_eq_nil_iff]
  intro l hl hid
  obtain ⟨u, hu, hul⟩ := h.suspense_fk l hl
  have hold := h.transaction_fresh u hu
  rw [hul, of_decide_eq_true hid, ht] at hold
  exact Nat.lt_irrefl _ hold

theorem logsOf_new {db : Tables} (h : db.Constraints) {t : Transaction} (ht : t.id = db.clock) :
    db.logsOf t = [] := by
  unfold Tables.logsOf
  rw [List.filter_eq_nil_iff]
  intro l hl hid
  obtain ⟨u, hu, hul⟩ := h.reconciliation_fk l hl
  have hold := h.transaction_fresh u hu
  rw [hul, of_decide_eq_true hid, ht] at hold
  exact Nat.lt_irrefl _ hold

/-! ## One provisioned customer

The smallest installation in which a payment can be credited; concrete runs start from it. -/

def Database.empty : Database where
  tables := .empty
  constraints := by constructor <;> simp [Tables.empty]

/-- The state a handler leaves when it runs alone. -/
def Database.after {α : Type} (db : Database) (p : Handler α) : Database :=
  ⟨(Prog.run exec p db.tables).2, run_constraints p db.constraints⟩

/-- The merchant 7 has provisioned one customer, with account number 9901. -/
def provisioned (targetAmount : Option Decimal) : Database :=
  Database.empty.after (CustomerService.create ⟨"cust-1", "Ada", none, none, targetAmount, []⟩ 7
    (.success (.obj [("accountNumber", .str "9901")])))

/-- A payment of a whole amount to an account number. -/
def samplePayment (requestId accountNumber : String) (amount : Int) : Json :=
  .obj [("event_type", .str nombaPaymentSuccessEvent), ("requestId", .str requestId),
    ("data", .obj [("transaction", .obj [("type", .str nombaVactTransferType),
      ("aliasAccountNumber", .str accountNumber), ("transactionAmount", .int amount)])])]

/-- Every outbound delivery is answered. -/
def quiet : Surroundings := ⟨"REF", fun _ => .response 200⟩

end LdbBackend
