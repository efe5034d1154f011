import LdbBackend.Delivery.Deliver

/-!
# What a delivery adds

Alone, a delivery leaves the payment tables as they were (`Unposted`) or adds one transaction
(`Posted`), which is held in suspense, credited, or left without its credit. The database accepts the
transaction exactly when its request is new and its columns are valid (`Payment.Accepted`), wherever it
goes.
-/

namespace LdbBackend

open Fixed Effects Table

/-! ## When a transaction is accepted -/

/-- The columns of the payment's transaction are valid. -/
structure Payment.Valid (p : Payment) (requestId : Json) : Prop where
  request : requestId.text.length ≤ 100
  nombaId : ∃ v, nullableCharField 200 p.nombaTransactionId = .ok v
  merchantTxRef : ∃ v, nullableCharField 200 p.merchantTxRef = .ok v
  amount : ∃ n, decimalField p.amount = .ok n
  fee : ∃ n, decimalField p.fee = .ok n
  senderName : ∃ v, nullableCharField 200 p.senderName = .ok v
  senderBank : ∃ v, nullableCharField 200 p.senderBank = .ok v
  narration : ∃ v, nullableCharField 500 p.narration = .ok v

structure Payment.Accepted (p : Payment) (requestId : Json) (db : Tables) : Prop where
  valid : p.Valid requestId
  new : ∀ t ∈ db.transactions, t.nombaRequestId ≠ requestId.text

section Accepted

variable {p : Payment} {requestId payload : Json} {db : Tables}

theorem exists_row_iff_valid {account : Option DedicatedAccount} {status : TransactionStatus}
    {clock : Nat} : (∃ t, (p.newTransaction requestId payload account status).row clock = .ok t) ↔
      p.Valid requestId := by
  simp only [NewTransaction.row, bind_ok_iff, charField_ok_iff, pure_ok_iff]
  constructor
  · rintro ⟨t, r, ⟨hr, -⟩, i, hi, m, hm, a, ha, f, hf, s, hs, b, hb, n, hn, -⟩
    exact ⟨hr, ⟨i, hi⟩, ⟨m, hm⟩, ⟨a, ha⟩, ⟨f, hf⟩, ⟨s, hs⟩, ⟨b, hb⟩, ⟨n, hn⟩⟩
  · rintro ⟨hr, ⟨i, hi⟩, ⟨m, hm⟩, ⟨a, ha⟩, ⟨f, hf⟩, ⟨s, hs⟩, ⟨b, hb⟩, ⟨n, hn⟩⟩
    exact ⟨_, _, ⟨hr, rfl⟩, i, hi, m, hm, a, ha, f, hf, s, hs, b, hb, n, hn, rfl⟩

/-- The routing decides neither way. -/
theorem createTransaction_iff_accepted {status : TransactionStatus} :
    (∃ x, db.createTransaction (p.newTransaction requestId payload (p.route db) status) = .ok x) ↔
      p.Accepted requestId db := by
  constructor
  · rintro ⟨⟨t, db₁⟩, hx⟩
    obtain ⟨hrow, hnew, -, -⟩ := createTransaction_ok_iff.mp hx
    have hrequest : t.nombaRequestId = requestId.text := (NewTransaction.row_ok hrow).request
    exact ⟨exists_row_iff_valid.mp ⟨t, hrow⟩, hrequest ▸ hnew⟩
  · rintro ⟨hvalid, hnew⟩
    obtain ⟨t, hrow⟩ : ∃ t, (p.newTransaction requestId payload (p.route db) status).row db.clock = .ok t :=
      exists_row_iff_valid.mpr hvalid
    have hr := NewTransaction.row_ok hrow
    have hrequest : t.nombaRequestId = requestId.text := hr.request
    refine ⟨⟨t, _⟩, createTransaction_ok_iff.mpr ⟨hrow, hrequest ▸ hnew, fun i hi => ?_, rfl⟩⟩
    have haccount : t.dedicatedAccountId = (p.route db).map (·.id) := hr.account
    obtain ⟨a, ha, rfl⟩ := Option.map_eq_some_iff.mp (haccount.symm.trans hi)
    exact ⟨a, route_mem ha, rfl⟩

end Accepted

/-! ## What was added -/

/-- Where the new transaction `t` has landed. -/
inductive Lands (p : Payment) (db : Tables) (t : Transaction) (db' : Tables) : Prop
  | held {account : Option DedicatedAccount} {reason : SuspenseReason} {l : SuspenseLog}
      (hold : Holds p db account reason) (status : t.status = .misdirected) (log : l.transactionId = t.id)
      (amount : l.amount = t.amount) (suspense : db'.suspenseLogs = db.suspenseLogs ++ [l])
      (customers : db'.customers = db.customers)
  | unsaved {account : DedicatedAccount} {row : Customer Cents} {e : Err}
      (credit : Credits p db account row) (status : t.status = p.creditStatus row)
      (refused : numericColumn (p.walletAfter row) = .error e)
      (suspense : db'.suspenseLogs = db.suspenseLogs) (customers : db'.customers = db.customers)
  | saved {account : DedicatedAccount} {row : Customer Cents} {wallet : Cents} {time : Time}
      (credit : Credits p db account row) (status : t.status = p.creditStatus row)
      (balance : numericColumn (p.walletAfter row) = .ok wallet)
      (suspense : db'.suspenseLogs = db.suspenseLogs)
      (customers : db'.customers =
        setRow (·.id) { row with walletBalance := wallet, updatedAt := time } db.customers)

/-- The delivery of the payment `p` has turned `db` into `db'` and inserted `t`. -/
structure Posted (requestId payload : Json) (p : Payment) (db : Tables) (t : Transaction)
    (db' : Tables) : Prop where
  accepted : p.Accepted requestId db
  row : ∃ status, (p.newTransaction requestId payload (p.route db) status).row db.clock = .ok t
  accounts : db'.dedicatedAccounts = db.dedicatedAccounts
  transactions : db'.transactions = db.transactions ++ [t]
  lands : Lands p db t db'

structure Unposted (db db' : Tables) : Prop where
  accounts : db'.dedicatedAccounts = db.dedicatedAccounts
  transactions : db'.transactions = db.transactions
  suspenseLogs : db'.suspenseLogs = db.suspenseLogs
  customers : db'.customers = db.customers

section Posted

variable {env : Surroundings} {requestId payload : Json} {p : Payment} {db : Tables}

theorem Unposted.refl (db : Tables) : Unposted db db := ⟨rfl, rfl, rfl, rfl⟩

theorem Settles.posted {o : Outcome Op Res Err PaymentResult Tables}
    (hs : Settles env requestId payload p db o) :
    (Unposted db o.state ∧ ¬ p.Accepted requestId db) ∨ ∃ t, Posted requestId payload p db t o.state := by
  have hcredit : ∀ {account : DedicatedAccount} {row : Customer Cents} {t : Transaction} {db₁ : Tables},
      Inserts requestId payload p db account row t db₁ → p.Accepted requestId db ∧
        (∃ status, (p.newTransaction requestId payload (p.route db) status).row db.clock = .ok t) ∧
        t.status = p.creditStatus row ∧
        db₁ = { db with transactions := db.transactions ++ [t], clock := db.clock + 1 } := by
    intro account row t db₁ hi
    obtain ⟨hrow, -, -, hdb₁⟩ := createTransaction_ok_iff.mp hi.insert
    have hinsert := hi.insert
    rw [← hi.route] at hinsert hrow
    exact ⟨createTransaction_iff_accepted.mp ⟨_, hinsert⟩, ⟨_, hrow⟩, (NewTransaction.row_ok hrow).status, hdb₁⟩
  cases hs with
  | @refused status e insert =>
    refine .inl ⟨.refl db, fun haccepted => ?_⟩
    obtain ⟨x, hx⟩ : ∃ x, db.createTransaction (p.newTransaction requestId payload (p.route db) status) =
      .ok x := createTransaction_iff_accepted.mpr haccepted
    rw [insert] at hx
    cases hx
  | @held account reason t db₁ hold insert =>
    have hroute : account = p.route db := by
      cases hold with
      | unmatched route => exact route.symm
      | inactive route _ => exact route.symm
    obtain ⟨hrow, -, -, rfl⟩ := createTransaction_ok_iff.mp insert
    rw [hroute] at insert hrow
    exact .inr ⟨t, createTransaction_iff_accepted.mp ⟨_, insert⟩, ⟨_, hrow⟩, rfl, rfl,
      .held hold (NewTransaction.row_ok hrow).status rfl rfl rfl rfl⟩
  | unsaved credit wallet_error =>
    obtain ⟨haccepted, hrow, hstatus, rfl⟩ := hcredit credit
    exact .inr ⟨_, haccepted, hrow, rfl, rfl, .unsaved credit.toCredits hstatus wallet_error rfl rfl⟩
  | unlogged credit wallet_ok target_error =>
    obtain ⟨haccepted, hrow, hstatus, rfl⟩ := hcredit credit
    exact .inr ⟨_, haccepted, hrow, rfl, rfl, .saved credit.toCredits hstatus wallet_ok rfl rfl⟩
  | undelivered credit wallet_ok target_ok emit =>
    obtain ⟨haccepted, hrow, hstatus, rfl⟩ := hcredit credit
    exact .inr ⟨_, haccepted, hrow, rfl, rfl, .saved credit.toCredits hstatus wallet_ok rfl rfl⟩
  | credited credit wallet_ok target_ok emit =>
    obtain ⟨haccepted, hrow, hstatus, rfl⟩ := hcredit credit
    exact .inr ⟨_, haccepted, hrow, rfl, rfl, .saved credit.toCredits hstatus wallet_ok rfl rfl⟩

/-- The request of the payload is a new payment that the database accepts. -/
structure Posts (env : Surroundings) (payload : Json) (db : Tables) (requestId : Json) (p : Payment) :
    Prop where
  kind : kindOf payload = .payment requestId p
  fresh : db.processed requestId.text = false
  accepted : (p.withReference env.reference).Accepted requestId db

/-- A delivery adds a transaction exactly when its payload is such a payment. -/
theorem Delivers.posted {o : Outcome Op Res Err Response Tables} (hd : Delivers env payload db o) :
    (Unposted db o.state ∧ ∀ requestId p, ¬ Posts env payload db requestId p) ∨
      ∃ requestId p t, Posts env payload db requestId p ∧
        Posted requestId payload (p.withReference env.reference) db t o.state := by
  have hsettle : ∀ {requestId : Json} {p : Payment} {x : Outcome Op Res Err PaymentResult Tables}
      {db' : Tables}, kindOf payload = .payment requestId p → db.processed requestId.text = false →
      Settles env requestId payload (p.withReference env.reference) db x →
      db'.dedicatedAccounts = x.state.dedicatedAccounts → db'.transactions = x.state.transactions →
      db'.suspenseLogs = x.state.suspenseLogs → db'.customers = x.state.customers →
      (Unposted db db' ∧ ∀ requestId p, ¬ Posts env payload db requestId p) ∨
        ∃ requestId p t, Posts env payload db requestId p ∧
          Posted requestId payload (p.withReference env.reference) db t db' := by
    intro requestId p x db' kind fresh settle haccounts htx hsus hcustomers
    rcases settle.posted with ⟨hunposted, hrefused⟩ | ⟨t, hposted⟩
    · refine .inl ⟨⟨haccounts.trans hunposted.accounts, htx.trans hunposted.transactions,
        hsus.trans hunposted.suspenseLogs, hcustomers.trans hunposted.customers⟩, fun requestId' p' hp => ?_⟩
      have hkind := hp.kind
      rw [kind] at hkind
      cases hkind
      exact hrefused hp.accepted
    · refine .inr ⟨requestId, p, t, ⟨kind, fresh, hposted.accepted⟩, hposted.accepted, hposted.row,
        haccounts.trans hposted.accounts, htx.trans hposted.transactions, ?_⟩
      cases hposted.lands with
      | held hold status log amount suspense customers =>
        exact .held hold status log amount (hsus.trans suspense) (hcustomers.trans customers)
      | unsaved credit status refused suspense customers =>
        exact .unsaved credit status refused (hsus.trans suspense) (hcustomers.trans customers)
      | saved credit status balance suspense customers =>
        exact .saved credit status balance (hsus.trans suspense) (hcustomers.trans customers)
  cases hd with
  | malformed kind =>
    refine .inl ⟨.refl db, fun requestId p hp => ?_⟩
    cases kind.symm.trans hp.kind
  | duplicate kind done =>
    refine .inl ⟨.refl db, fun requestId p hp => ?_⟩
    have hfresh := hp.fresh
    rw [hp.kind] at kind
    rw [Option.some.inj kind, done] at hfresh
    cases hfresh
  | broken kind fresh =>
    refine .inl ⟨.refl db, fun requestId p hp => ?_⟩
    cases kind.symm.trans hp.kind
  | unmarked kind fresh mark =>
    refine .inl ⟨.refl db, fun requestId p hp => ?_⟩
    cases kind.symm.trans hp.kind
  | ignored kind fresh mark =>
    obtain ⟨-, -, -, rfl⟩ := createProcessedEvent_ok_iff.mp mark
    refine .inl ⟨⟨rfl, rfl, rfl, rfl⟩, fun requestId p hp => ?_⟩
    cases kind.symm.trans hp.kind
  | failed kind fresh settle => exact hsettle kind fresh settle rfl rfl rfl rfl
  | settled kind fresh settle => exact hsettle kind fresh settle rfl rfl rfl rfl

end Posted

end LdbBackend
