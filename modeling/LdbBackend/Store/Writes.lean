import LdbBackend.Model.Orm

/-!
# What each write does

One equivalence per write: it succeeds with a given answer and given tables exactly when its columns
and keys are valid, and then the tables are the old ones with one change. Later proofs cite these and
never unfold a write again.
-/

namespace LdbBackend

open Fixed Effects Table

/-! ## Computations that may raise -/

section Raise

variable {α β : Type}

theorem bind_ok_iff {x : Except Err α} {f : α → Except Err β} {b : β} :
    (x >>= f) = .ok b ↔ ∃ a, x = .ok a ∧ f a = .ok b := by
  cases x with
  | error e => simp [bind, Except.bind]
  | ok a => simp [bind, Except.bind]

theorem pure_ok_iff {a b : α} : (pure a : Except Err α) = .ok b ↔ b = a := by
  simp [pure, Except.pure, eq_comm]

theorem require_ok_iff {p : Prop} [Decidable p] {e : Err} {u : Unit} : require p e = .ok u ↔ p := by
  unfold require
  split_ifs with h
  · simp [h]
  · simp [h]

theorem mapM_ok_iff {f : α → Except Err β} {o : Option α} {r : Option β} :
    o.mapM f = .ok r ↔ (o = none ∧ r = none) ∨ ∃ a b, o = some a ∧ r = some b ∧ f a = .ok b := by
  cases o with
  | none =>
    rw [Option.mapM_none]
    simp [pure, Except.pure, eq_comm]
  | some a =>
    rw [Option.mapM_some]
    cases h : f a with
    | error e => simp [h, Functor.map, Except.map]
    | ok b => simp [h, Functor.map, Except.map, eq_comm]

end Raise

/-! ## Columns -/

theorem charField_ok_iff {n : Nat} {v w : String} :
    charField n v = .ok w ↔ v.length ≤ n ∧ w = v := by
  unfold charField
  split_ifs with h
  · simp [h, eq_comm]
  · simp [h]

theorem decimalField_ok_iff {d : Decimal} {n : Cents} :
    decimalField d = .ok n ↔ d.quantize 2 = some n := by
  unfold decimalField
  cases d.quantize 2 with
  | none => simp
  | some m => simp

theorem numericColumn_ok_iff {d : Decimal} {n : Cents} :
    numericColumn d = .ok n ↔ d.toColumn 30 2 = some n := by
  unfold numericColumn
  cases d.toColumn 30 2 with
  | none => simp
  | some m => simp

theorem fits_of_decimalField {d : Decimal} {n : Cents} (h : decimalField d = .ok n) :
    FitsColumn n := by
  have hlt := Decimal.quantize_lt (decimalField_ok_iff.mp h)
  unfold FitsColumn
  unfold prec at hlt
  omega

theorem fits_of_numericColumn {d : Decimal} {n : Cents} (h : numericColumn d = .ok n) :
    FitsColumn n := Decimal.toColumn_lt (numericColumn_ok_iff.mp h)

/-- A stored number survives being read into an object and written back. -/
theorem numericColumn_ofScaled {n : Cents} (h : FitsColumn n) :
    numericColumn (Decimal.ofScaled 2 n) = .ok n :=
  numericColumn_ok_iff.mpr (Decimal.toColumn_exact (Decimal.isScaled_ofScaled 2 n) h)

theorem numericColumn_reload {o : Option Cents} (h : ∀ n, o = some n → FitsColumn n) :
    (o.map (Decimal.ofScaled 2)).mapM numericColumn = .ok o := by
  cases o with
  | none => exact mapM_ok_iff.mpr (.inl ⟨rfl, rfl⟩)
  | some n => exact mapM_ok_iff.mpr (.inr ⟨_, n, rfl, rfl, numericColumn_ofScaled (h n rfl)⟩)

/-! ## Objects -/

@[simp] theorem Customer.load_id (row : Customer Cents) : row.load.id = row.id := rfl

@[simp] theorem Customer.load_merchantId (row : Customer Cents) :
    row.load.merchantId = row.merchantId := rfl

@[simp] theorem Customer.load_merchantCustomerId (row : Customer Cents) :
    row.load.merchantCustomerId = row.merchantCustomerId := rfl

@[simp] theorem Customer.load_walletBalance (row : Customer Cents) :
    row.load.walletBalance = Decimal.ofScaled 2 row.walletBalance := rfl

@[simp] theorem Customer.load_targetAmount (row : Customer Cents) :
    row.load.targetAmount = row.targetAmount.map (Decimal.ofScaled 2) := rfl

/-- The columns of an inserted transaction that the payment flow depends on. -/
structure NewTransaction.IsRow (new : NewTransaction) (clock : Nat) (t : Transaction) : Prop where
  id : t.id = clock
  createdAt : t.createdAt = clock
  account : t.dedicatedAccountId = new.dedicatedAccount.map (·.id)
  request : t.nombaRequestId = new.nombaRequestId.text
  request_length : t.nombaRequestId.length ≤ 100
  nombaId : nullableCharField 200 new.nombaTransactionId = .ok t.nombaTransactionId
  amount : decimalField new.amount = .ok t.amount
  fee : decimalField new.fee = .ok t.fee
  status : t.status = new.status
  payload : t.rawPayload = new.rawPayload

theorem NewTransaction.row_ok {new : NewTransaction} {clock : Nat} {t : Transaction}
    (h : new.row clock = .ok t) : new.IsRow clock t := by
  simp only [NewTransaction.row, bind_ok_iff, charField_ok_iff, pure_ok_iff] at h
  obtain ⟨r, ⟨hr, rfl⟩, i, hi, m, hm, a, ha, f, hf, s, hs, b, hb, n, hn, rfl⟩ := h
  exact ⟨rfl, rfl, rfl, rfl, hr, hi, ha, hf, rfl, rfl⟩

theorem NewReconciliationLog.row_ok_iff {new : NewReconciliationLog} {clock : Nat}
    {l : ReconciliationLog} : new.row clock = .ok l ↔
      ∃ expected received, new.expectedAmount.mapM decimalField = .ok expected ∧
        decimalField new.receivedAmount = .ok received ∧
        l = ⟨clock, new.transaction.id, expected, received, new.decision, new.details⟩ := by
  simp only [NewReconciliationLog.row, bind_ok_iff, pure_ok_iff]
  constructor
  · rintro ⟨e, he, r, hr, rfl⟩
    exact ⟨e, r, he, hr, rfl⟩
  · rintro ⟨e, r, he, hr, rfl⟩
    exact ⟨e, he, r, hr, rfl⟩

theorem NewAccount.row_ok {new : NewAccount} {clock : Nat} {a : DedicatedAccount}
    (h : new.row clock = .ok a) : a.id = clock ∧ a.customerId = new.customer.id ∧
      a.accountNumber = new.accountNumber ∧ a.accountRef = new.accountRef ∧ a.status = .active := by
  simp only [NewAccount.row, bind_ok_iff, charField_ok_iff, pure_ok_iff] at h
  obtain ⟨v, hv, n, ⟨-, rfl⟩, m, ⟨-, rfl⟩, r, ⟨-, rfl⟩, rfl⟩ := h
  exact ⟨rfl, rfl, rfl, rfl, rfl⟩

theorem NewCustomer.row_ok {new : NewCustomer} {clock : Nat} {c : Customer Cents}
    (h : new.row clock = .ok c) : c.id = clock ∧ c.merchantId = new.merchantId ∧
      c.merchantCustomerId = new.merchantCustomerId ∧ c.walletBalance = 0 ∧
      new.targetAmount.mapM decimalField = .ok c.targetAmount := by
  simp only [NewCustomer.row, bind_ok_iff, charField_ok_iff, pure_ok_iff] at h
  obtain ⟨x, ⟨-, rfl⟩, n, ⟨-, rfl⟩, e, he, p, hp, t, ht, rfl⟩ := h
  exact ⟨rfl, rfl, rfl, rfl, ht⟩

theorem NewCustomer.row_lengths {new : NewCustomer} {clock : Nat} {c : Customer Cents}
    (h : new.row clock = .ok c) : new.merchantCustomerId.length ≤ 100 ∧ new.name.length ≤ 200 := by
  simp only [NewCustomer.row, bind_ok_iff, charField_ok_iff] at h
  obtain ⟨x, ⟨hx, -⟩, n, ⟨hn, -⟩, -⟩ := h
  exact ⟨hx, hn⟩

theorem NewAccount.exists_row_iff {new : NewAccount} {clock : Nat} :
    (∃ a, new.row clock = .ok a) ↔ (∃ v, nullableCharField 100 new.nombaVaId = .ok v) ∧
      new.accountNumber.length ≤ 20 ∧ new.accountName.length ≤ 200 ∧ new.accountRef.length ≤ 100 := by
  simp only [NewAccount.row, bind_ok_iff, charField_ok_iff, pure_ok_iff]
  constructor
  · rintro ⟨a, v, hv, n, ⟨hn, -⟩, m, ⟨hm, -⟩, r, ⟨hr, -⟩, -⟩
    exact ⟨⟨v, hv⟩, hn, hm, hr⟩
  · rintro ⟨⟨v, hv⟩, hn, hm, hr⟩
    exact ⟨_, v, hv, _, ⟨hn, rfl⟩, _, ⟨hm, rfl⟩, _, ⟨hr, rfl⟩, rfl⟩

/-! ## Writes -/

section Writes

variable {db db' : Tables}

theorem createCustomer_ok_iff {new : NewCustomer} {c : Customer Decimal} :
    db.createCustomer new = .ok (c, db') ↔
      ∃ row, new.row db.clock = .ok row ∧
        (∀ c ∈ db.customers,
          (c.merchantId, c.merchantCustomerId) ≠ (row.merchantId, row.merchantCustomerId)) ∧
        c = { row with
          targetAmount := row.targetAmount.map fun n => (Decimal.ofScaled 2 n).normalize
          walletBalance := Decimal.zero } ∧
        db' = { db with customers := db.customers ++ [row], clock := db.clock + 1 } := by
  simp only [Tables.createCustomer, bind_ok_iff, require_ok_iff, pure_ok_iff, Prod.mk.injEq,
    exists_const]

theorem saveCustomer_ok_iff {c : Customer Decimal} :
    db.saveCustomer c = .ok db' ↔
      ∃ target wallet, c.targetAmount.mapM numericColumn = .ok target ∧
        numericColumn c.walletBalance = .ok wallet ∧
        ((setRow (·.id) (c.dump target wallet db.clock) db.customers).map
          fun c => (c.merchantId, c.merchantCustomerId)).Nodup ∧
        db' = { db with
          customers := setRow (·.id) (c.dump target wallet db.clock) db.customers } := by
  simp only [Tables.saveCustomer, Tables.replaceCustomer, bind_ok_iff, require_ok_iff, pure_ok_iff,
    exists_const]
  constructor
  · rintro ⟨t, ht, w, hw, hn, rfl⟩
    exact ⟨t, w, ht, hw, hn, rfl⟩
  · rintro ⟨t, w, ht, hw, hn, rfl⟩
    exact ⟨t, ht, w, hw, hn, rfl⟩

theorem createAccount_ok_iff {new : NewAccount} {a : DedicatedAccount} :
    db.createAccount new = .ok (a, db') ↔
      new.row db.clock = .ok a ∧
      (∀ b ∈ db.dedicatedAccounts,
        b.accountNumber ≠ a.accountNumber ∧ b.accountRef ≠ a.accountRef) ∧
      (∃ c ∈ db.customers, c.id = a.customerId) ∧
      db' = { db with
        dedicatedAccounts := db.dedicatedAccounts ++ [a], clock := db.clock + 1 } := by
  simp only [Tables.createAccount, bind_ok_iff, require_ok_iff, pure_ok_iff, Prod.mk.injEq,
    exists_const]
  constructor
  · rintro ⟨_, hrow, h1, h2, rfl, rfl⟩
    exact ⟨hrow, h1, h2, rfl⟩
  · rintro ⟨hrow, h1, h2, rfl⟩
    exact ⟨a, hrow, h1, h2, rfl, rfl⟩

theorem saveAccount_ok_iff {a : DedicatedAccount} :
    db.saveAccount a = .ok db' ↔
      (((setRow (·.id) { a with updatedAt := db.clock } db.dedicatedAccounts).map
          (·.accountNumber)).Nodup ∧
        ((setRow (·.id) { a with updatedAt := db.clock } db.dedicatedAccounts).map
          (·.accountRef)).Nodup ∧
        ∀ b ∈ setRow (·.id) { a with updatedAt := db.clock } db.dedicatedAccounts,
          ∃ c ∈ db.customers, c.id = b.customerId) ∧
      db' = { db with
        dedicatedAccounts := setRow (·.id) { a with updatedAt := db.clock } db.dedicatedAccounts } := by
  simp only [Tables.saveAccount, bind_ok_iff, require_ok_iff, pure_ok_iff, exists_const]

theorem createTransaction_ok_iff {new : NewTransaction} {t : Transaction} :
    db.createTransaction new = .ok (t, db') ↔
      new.row db.clock = .ok t ∧
      (∀ u ∈ db.transactions, u.nombaRequestId ≠ t.nombaRequestId) ∧
      (∀ i, t.dedicatedAccountId = some i → ∃ a ∈ db.dedicatedAccounts, a.id = i) ∧
      db' = { db with transactions := db.transactions ++ [t], clock := db.clock + 1 } := by
  simp only [Tables.createTransaction, bind_ok_iff, require_ok_iff, pure_ok_iff, Prod.mk.injEq,
    exists_const]
  constructor
  · rintro ⟨_, hrow, h1, h2, rfl, rfl⟩
    exact ⟨hrow, h1, h2, rfl⟩
  · rintro ⟨hrow, h1, h2, rfl⟩
    exact ⟨t, hrow, h1, h2, rfl, rfl⟩

theorem createSuspenseLog_ok_iff {t : Transaction} {reason : SuspenseReason} {d : Decimal} :
    db.createSuspenseLog t reason d = .ok db' ↔
      ∃ n, decimalField d = .ok n ∧ (∃ u ∈ db.transactions, u.id = t.id) ∧
        db' = { db with
          suspenseLogs := db.suspenseLogs ++ [⟨db.clock, t.id, reason, n⟩]
          clock := db.clock + 1 } := by
  simp only [Tables.createSuspenseLog, bind_ok_iff, require_ok_iff, pure_ok_iff, exists_const]

theorem createReconciliationLog_ok_iff {new : NewReconciliationLog} :
    db.createReconciliationLog new = .ok db' ↔
      ∃ l, new.row db.clock = .ok l ∧ (∃ t ∈ db.transactions, t.id = l.transactionId) ∧
        db' = { db with
          reconciliationLogs := db.reconciliationLogs ++ [l], clock := db.clock + 1 } := by
  simp only [Tables.createReconciliationLog, bind_ok_iff, require_ok_iff, pure_ok_iff, exists_const]

theorem createProcessedEvent_ok_iff {requestId eventType : String} :
    db.createProcessedEvent requestId eventType = .ok db' ↔
      requestId.length ≤ 100 ∧ eventType.length ≤ 100 ∧
      (∀ e ∈ db.processedWebhookEvents, e.requestId ≠ requestId) ∧
      db' = { db with
        processedWebhookEvents := db.processedWebhookEvents ++ [⟨db.clock, requestId, eventType⟩]
        clock := db.clock + 1 } := by
  simp only [Tables.createProcessedEvent, bind_ok_iff, charField_ok_iff, require_ok_iff, pure_ok_iff,
    exists_const]
  constructor
  · rintro ⟨_, ⟨h1, rfl⟩, _, ⟨h2, rfl⟩, h3, rfl⟩
    exact ⟨h1, h2, h3, rfl⟩
  · rintro ⟨h1, h2, h3, rfl⟩
    exact ⟨_, ⟨h1, rfl⟩, _, ⟨h2, rfl⟩, h3, rfl⟩

theorem createRegistration_ok {merchantId : UUID} {url secret : String} {events : List String}
    {r : WebhookRegistration} (h : db.createRegistration merchantId url secret events = .ok (r, db')) :
    db' = { db with
      webhookRegistrations := db.webhookRegistrations ++ [r], clock := db.clock + 1 } := by
  simp only [Tables.createRegistration, bind_ok_iff, pure_ok_iff, Prod.mk.injEq] at h
  obtain ⟨_, -, _, -, rfl, rfl⟩ := h
  rfl

theorem written_ok_iff {r : Except Err Tables} {u : Unit} :
    written r = .ok (u, db') ↔ r = .ok db' := by
  cases r with
  | error e => simp [written, Except.map]
  | ok s => simp [written, Except.map]

theorem answered_ok_iff {β : Type} {r : Except Err β} {b : β} :
    answered r db = .ok (b, db') ↔ r = .ok b ∧ db' = db := by
  cases r with
  | error e => simp [answered, Except.map]
  | ok s => simp [answered, Except.map, eq_comm]

end Writes

end LdbBackend
