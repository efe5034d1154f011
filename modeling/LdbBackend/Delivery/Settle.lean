import LdbBackend.Delivery.Kind
import LdbBackend.Store.Alone

/-!
# Settling one payment alone

`Settles` lists the ways in which `settlePayment` can end when it runs alone, each with its result,
the tables it leaves and the writes it made: the insert of the transaction is refused, the payment is
held in suspense, or it is credited, with an exit after each of the later writes. `settles` is the
symbolic execution that shows the list is complete.
-/

namespace LdbBackend

open Fixed Effects Table

/-- The account a number or else a reference leads to. -/
def Tables.route (db : Tables) (accountNumber : String) (accountRef : Json) :
    Option DedicatedAccount :=
  let byRef :=
    if accountRef.truthy then db.dedicatedAccounts.find? (·.accountRef = accountRef.text) else none
  if accountNumber ≠ "" then
    (db.dedicatedAccounts.find? (·.accountNumber = accountNumber)).or byRef
  else byRef

def Payment.route (p : Payment) (db : Tables) : Option DedicatedAccount :=
  db.route p.aliasAccountNumber p.aliasAccountReference

/-- The wallet in memory after the credit. -/
def Payment.walletAfter (p : Payment) (row : Customer Cents) : Decimal :=
  Decimal.ofScaled 2 row.walletBalance + p.amount

/-- The status of a credited payment. -/
def Payment.creditStatus (p : Payment) (row : Customer Cents) : TransactionStatus :=
  deriveTransactionStatus p.amount row.load.targetAmount

/-- The owner in memory after the credit. -/
def Payment.creditedOwner (p : Payment) (row : Customer Cents) : Customer Decimal :=
  { row.load with walletBalance := p.walletAfter row }

namespace Tables

def quarantined (db : Tables) (t : Transaction) (reason : SuspenseReason) : Tables :=
  { db with
    suspenseLogs := db.suspenseLogs ++ [⟨db.clock, t.id, reason, t.amount⟩]
    reconciliationLogs := db.reconciliationLogs ++ [⟨db.clock + 1, t.id, none, t.amount, .quarantine,
      .obj [("reason", .str reason.value)]⟩]
    clock := db.clock + 2 }

def credited (db : Tables) (row : Customer Cents) (wallet : Cents) : Tables :=
  { db with
    customers :=
      setRow (·.id) { row with walletBalance := wallet, updatedAt := db.clock } db.customers }

def logged (db : Tables) (l : ReconciliationLog) : Tables :=
  { db with reconciliationLogs := db.reconciliationLogs ++ [l], clock := db.clock + 1 }

end Tables

/-- Where a payment is held, and why. -/
inductive Holds (p : Payment) (db : Tables) : Option DedicatedAccount → SuspenseReason → Prop
  | unmatched (route : p.route db = none) : Holds p db none .misdirected
  | inactive {account : DedicatedAccount} (route : p.route db = some account)
      (status : account.status ≠ .active) : Holds p db (some account) .closedAccount

/-- The active account a payment is addressed to, and its owner. -/
structure Credits (p : Payment) (db : Tables) (account : DedicatedAccount) (row : Customer Cents) :
    Prop where
  route : p.route db = some account
  active : account.status = .active
  mem : row ∈ db.customers
  owner : row.id = account.customerId

def suspenseLog (t : Transaction) (p : Payment) (reason : SuspenseReason) : NewReconciliationLog where
  transaction := t
  expectedAmount := none
  receivedAmount := p.amount
  decision := .quarantine
  details := .obj [("reason", .str reason.value)]

def creditLog (t : Transaction) (p : Payment) (row : Customer Cents) : NewReconciliationLog where
  transaction := t
  expectedAmount := row.load.targetAmount
  receivedAmount := p.amount
  decision := decisionForStatus (p.creditStatus row)
  details := .obj [("event_type", .str nombaPaymentSuccessEvent),
    ("wallet_balance_after", .str (p.walletAfter row).str)]

/-- The row that `creditLog` becomes. -/
def Payment.creditLogRow (p : Payment) (row : Customer Cents) (t : Transaction)
    (expected : Option Cents) (clock : Nat) : ReconciliationLog :=
  ⟨clock, t.id, expected, t.amount, decisionForStatus (p.creditStatus row),
    (creditLog t p row).details⟩

section Settles

variable (env : Surroundings) (requestId payload : Json) (p : Payment) (db : Tables)

/-- How the announcement of a credit ends. -/
def emission (account : DedicatedAccount) (row : Customer Cents) (t : Transaction) : Except Err Unit :=
  (Prog.run exec (emitPaymentReceived env.post row.merchantId (p.creditedOwner row) account t) db).1

/-- The transaction of a payment to an active account was inserted. -/
structure Inserts (account : DedicatedAccount) (row : Customer Cents) (t : Transaction)
    (db₁ : Tables) : Prop extends Credits p db account row where
  insert : db.createTransaction
    (p.newTransaction requestId payload (some account) (p.creditStatus row)) = .ok (t, db₁)

def creditWrites (account : DedicatedAccount) (row : Customer Cents) (t : Transaction) :
    List (Event Op Res) :=
  [⟨.transactionCreate (p.newTransaction requestId payload (some account) (p.creditStatus row)), t⟩,
    ⟨.customerSave (p.creditedOwner row), ()⟩, ⟨.reconciliationLogCreate (creditLog t p row), ()⟩]

inductive Settles : Outcome Op Res Err PaymentResult Tables → Prop
  | refused {status : TransactionStatus} {e : Err}
      (insert : db.createTransaction (p.newTransaction requestId payload (p.route db) status) =
        .error e) :
      Settles ⟨.error e, db, []⟩
  | held {account : Option DedicatedAccount} {reason : SuspenseReason} {t : Transaction}
      {db₁ : Tables} (hold : Holds p db account reason)
      (insert : db.createTransaction (p.newTransaction requestId payload account .misdirected) =
        .ok (t, db₁)) :
      Settles ⟨.ok ⟨t.id, .misdirected, none, true⟩, db₁.quarantined t reason,
        [⟨.transactionCreate (p.newTransaction requestId payload account .misdirected), t⟩,
          ⟨.suspenseLogCreate t reason p.amount, ()⟩,
          ⟨.reconciliationLogCreate (suspenseLog t p reason), ()⟩]⟩
  | unsaved {account : DedicatedAccount} {row : Customer Cents} {t : Transaction} {db₁ : Tables}
      {e : Err} (credit : Inserts requestId payload p db account row t db₁)
      (wallet_error : numericColumn (p.walletAfter row) = .error e) :
      Settles ⟨.error e, db₁,
        [⟨.transactionCreate
          (p.newTransaction requestId payload (some account) (p.creditStatus row)), t⟩]⟩
  | unlogged {account : DedicatedAccount} {row : Customer Cents} {t : Transaction} {db₁ : Tables}
      {wallet : Cents} {e : Err} (credit : Inserts requestId payload p db account row t db₁)
      (wallet_ok : numericColumn (p.walletAfter row) = .ok wallet)
      (target_error : row.load.targetAmount.mapM decimalField = .error e) :
      Settles ⟨.error e, db₁.credited row wallet,
        [⟨.transactionCreate
            (p.newTransaction requestId payload (some account) (p.creditStatus row)), t⟩,
          ⟨.customerSave (p.creditedOwner row), ()⟩]⟩
  | undelivered {account : DedicatedAccount} {row : Customer Cents} {t : Transaction} {db₁ : Tables}
      {wallet : Cents} {expected : Option Cents} {e : Err}
      (credit : Inserts requestId payload p db account row t db₁)
      (wallet_ok : numericColumn (p.walletAfter row) = .ok wallet)
      (target_ok : row.load.targetAmount.mapM decimalField = .ok expected)
      (emit : emission env p db account row t = .error e) :
      Settles ⟨.error e, (db₁.credited row wallet).logged (p.creditLogRow row t expected db₁.clock),
        creditWrites requestId payload p account row t⟩
  | credited {account : DedicatedAccount} {row : Customer Cents} {t : Transaction} {db₁ : Tables}
      {wallet : Cents} {expected : Option Cents}
      (credit : Inserts requestId payload p db account row t db₁)
      (wallet_ok : numericColumn (p.walletAfter row) = .ok wallet)
      (target_ok : row.load.targetAmount.mapM decimalField = .ok expected)
      (emit : emission env p db account row t = .ok ()) :
      Settles ⟨.ok ⟨t.id, p.creditStatus row, some (p.walletAfter row), false⟩,
        (db₁.credited row wallet).logged (p.creditLogRow row t expected db₁.clock),
        creditWrites requestId payload p account row t⟩

end Settles

/-! ## Where a payment belongs

Only one of the places below fits a payment in a given state. -/

section Place

variable {p p' : Payment} {db : Tables}

theorem Holds.unique {account account' : Option DedicatedAccount}
    {reason reason' : SuspenseReason} (h : Holds p db account reason)
    (h' : Holds p' db account' reason') (hroute : p'.route db = p.route db) :
    account = account' ∧ reason = reason' := by
  cases h with
  | unmatched route =>
    cases h' with
    | unmatched route' => exact ⟨rfl, rfl⟩
    | inactive route' status' => rw [hroute, route] at route'; cases route'
  | inactive route status =>
    cases h' with
    | unmatched route' => rw [hroute, route] at route'; cases route'
    | inactive route' status' =>
      rw [hroute, route] at route'
      cases route'
      exact ⟨rfl, rfl⟩

theorem Holds.not_credits {account : Option DedicatedAccount}
    {reason : SuspenseReason} {account' : DedicatedAccount} {row : Customer Cents}
    (h : Holds p db account reason) (h' : Credits p' db account' row)
    (hroute : p'.route db = p.route db) : False := by
  have hr := h'.route
  rw [hroute] at hr
  cases h with
  | unmatched route => rw [route] at hr; cases hr
  | inactive route status =>
    rw [route] at hr
    cases hr
    exact status h'.active

theorem Credits.unique (h : db.Constraints) {account account' : DedicatedAccount}
    {row row' : Customer Cents} (hc : Credits p db account row) (hc' : Credits p' db account' row')
    (hroute : p'.route db = p.route db) : account = account' ∧ row = row' := by
  have hacc : account = account' := by
    have := hc.route.symm.trans (hroute.symm.trans hc'.route)
    simpa using this
  refine ⟨hacc, eq_of_key h.customer_pk hc.mem hc'.mem ?_⟩
  rw [hc.owner, hc'.owner, hacc]

end Place

/-! ## Lookups -/

theorem outcome_findByRef {db : Tables} (h : db.Constraints) (r : Json) :
    outcomeOf (findByRef r) db = ⟨.ok (if r.truthy then
      db.dedicatedAccounts.find? (·.accountRef = r.text) else none), db, []⟩ := by
  unfold findByRef
  by_cases hr : r.truthy = true
  · rw [if_pos hr, if_pos hr]
    exact outcome_query (exec_accountByRef h r.text) rfl
  · rw [if_neg hr, if_neg hr]
    rfl

theorem outcome_findAccount {db : Tables} (h : db.Constraints) (n : String) (r : Json) :
    outcomeOf (findAccount n r) db = ⟨.ok (db.route n r), db, []⟩ := by
  unfold findAccount Tables.route
  by_cases hn : n ≠ ""
  · rw [if_pos hn, if_pos hn, Prog.op_bind, outcome_query (exec_accountByNumber h n) rfl]
    cases db.dedicatedAccounts.find? (·.accountNumber = n) with
    | none => exact outcome_findByRef h r
    | some a => rfl
  · rw [if_neg hn, if_neg hn]
    exact outcome_findByRef h r

theorem route_mem {db : Tables} {n : String} {r : Json} {a : DedicatedAccount}
    (h : db.route n r = some a) : a ∈ db.dedicatedAccounts := by
  simp only [Tables.route] at h
  split_ifs at h with h1 h2 h2
  · rcases Option.or_eq_some_iff.mp h with h | ⟨-, h⟩
    · exact List.mem_of_find?_eq_some h
    · exact List.mem_of_find?_eq_some h
  · rw [Option.or_none] at h
    exact List.mem_of_find?_eq_some h
  · exact List.mem_of_find?_eq_some h

/-! ## The writes -/

section Writes

variable {env : Surroundings} {requestId payload : Json} {p : Payment} {db : Tables}

theorem quarantinePayment_eq (reason : SuspenseReason) (account : Option DedicatedAccount) :
    quarantinePayment requestId payload p reason account =
      .perform (.transactionCreate (p.newTransaction requestId payload account .misdirected)) fun t =>
      .perform (.suspenseLogCreate t reason p.amount) fun _ =>
      .perform (.reconciliationLogCreate (suspenseLog t p reason)) fun _ =>
      .pure ⟨t.id, .misdirected, none, true⟩ := rfl

theorem creditPayment_eq (account : DedicatedAccount) (row : Customer Cents) :
    creditPayment env requestId nombaPaymentSuccessEvent payload p account row.load =
      .perform (.transactionCreate
        (p.newTransaction requestId payload (some account) (p.creditStatus row))) fun t =>
      .perform (.customerSave (p.creditedOwner row)) fun _ =>
      .perform (.reconciliationLogCreate (creditLog t p row)) fun _ =>
      emitPaymentReceived env.post row.merchantId (p.creditedOwner row) account t >>= fun _ =>
      .pure ⟨t.id, p.creditStatus row, some (p.walletAfter row), false⟩ := rfl

theorem exec_suspenseLog {t : Transaction} (hmem : t ∈ db.transactions)
    (hamount : decimalField p.amount = .ok t.amount) (reason : SuspenseReason) :
    exec (.suspenseLogCreate t reason p.amount) db = .ok ((), { db with
      suspenseLogs := db.suspenseLogs ++ [⟨db.clock, t.id, reason, t.amount⟩]
      clock := db.clock + 1 }) :=
  written_ok_iff.mpr (createSuspenseLog_ok_iff.mpr ⟨t.amount, hamount, ⟨t, hmem, rfl⟩, rfl⟩)

theorem outcome_quarantine {account : Option DedicatedAccount} {reason : SuspenseReason}
    (hold : Holds p db account reason) :
    Settles env requestId payload p db
      (outcomeOf (quarantinePayment requestId payload p reason account) db) := by
  have hroute : account = p.route db := by
    cases hold with
    | unmatched h => exact h.symm
    | inactive h _ => exact h.symm
  rw [quarantinePayment_eq]
  cases he : exec (.transactionCreate (p.newTransaction requestId payload account .misdirected)) db with
  | error e =>
    rw [outcome_refused he]
    exact .refused (hroute ▸ he)
  | ok x =>
    obtain ⟨t, db₁⟩ := x
    obtain ⟨hrow, -, -, hdb₁⟩ := createTransaction_ok_iff.mp he
    have hamount : decimalField p.amount = .ok t.amount := (NewTransaction.row_ok hrow).amount
    have hmem : t ∈ db₁.transactions := hdb₁ ▸ List.mem_append_right _ (List.mem_singleton_self t)
    have hlog : exec (.reconciliationLogCreate (suspenseLog t p reason)) { db₁ with
        suspenseLogs := db₁.suspenseLogs ++ [⟨db₁.clock, t.id, reason, t.amount⟩]
        clock := db₁.clock + 1 } = .ok ((), db₁.quarantined t reason) := by
      refine written_ok_iff.mpr (createReconciliationLog_ok_iff.mpr ⟨_,
        NewReconciliationLog.row_ok_iff.mpr ⟨none, t.amount, rfl, hamount, rfl⟩, ⟨t, hmem, rfl⟩, rfl⟩)
    rw [outcome_write he rfl, outcome_write (exec_suspenseLog hmem hamount reason) rfl, outcome_write hlog rfl]
    exact .held hold he

/-- The owner can be saved as soon as the new balance fits its column. -/
theorem exec_saveOwner (h : db.Constraints) {row : Customer Cents} (hrow : row ∈ db.customers)
    {wallet : Cents} (hw : numericColumn (p.walletAfter row) = .ok wallet) :
    exec (.customerSave (p.creditedOwner row)) db = .ok ((), db.credited row wallet) := by
  refine written_ok_iff.mpr (saveCustomer_ok_iff.mpr ⟨row.targetAmount, wallet,
    numericColumn_reload (h.customer_columns row hrow).2, hw, ?_, rfl⟩)
  rw [map_setRow]
  · exact h.customer_unique
  · intro r hr hid
    rw [eq_of_key h.customer_pk hr hrow hid]
    rfl

theorem exec_saveOwner_error (h : db.Constraints) {row : Customer Cents} (hrow : row ∈ db.customers)
    {e : Err} (hw : numericColumn (p.walletAfter row) = .error e) :
    exec (.customerSave (p.creditedOwner row)) db = .error e := by
  show written (db.saveCustomer (p.creditedOwner row)) = .error e
  have htarget : (p.creditedOwner row).targetAmount.mapM numericColumn = .ok row.targetAmount :=
    numericColumn_reload (h.customer_columns row hrow).2
  have hwallet : numericColumn (p.creditedOwner row).walletBalance = .error e := hw
  simp only [Tables.saveCustomer, htarget, hwallet, bind, Except.bind, written, Except.map]

theorem deliver_all (post : WebhookRegistration → PostOutcome) (body : OutboundPayload)
    (rs : List WebhookRegistration) : (deliver post body rs).All (·.isWrite = false) := by
  induction rs with
  | nil => trivial
  | cons r rs ih =>
    unfold deliver
    by_cases hr : outboundEventPaymentReceived ∉ r.events
    · rw [if_pos hr]
      exact ih
    · rw [if_neg hr]
      refine ⟨rfl, fun _ => ?_⟩
      cases post r with
      | response s => exact ih
      | httpError => exact ih
      | raised e => trivial

theorem emitPaymentReceived_all (post : WebhookRegistration → PostOutcome) (merchantId : UUID)
    (customer : Customer Decimal) (account : DedicatedAccount) (t : Transaction) :
    (emitPaymentReceived post merchantId customer account t).All (·.isWrite = false) := by
  refine ⟨rfl, fun _ => ⟨rfl, fun rs => ?_⟩⟩
  show Prog.All _ (if List.isEmpty rs = true then _ else _)
  split_ifs
  · trivial
  · exact deliver_all _ _ _

/-- What an announcement says does not depend on rows other than the registrations. -/
theorem deliver_run (post : WebhookRegistration → PostOutcome) (body : OutboundPayload)
    (rs : List WebhookRegistration) (db db' : Tables) :
    (Prog.run exec (deliver post body rs) db).1 = (Prog.run exec (deliver post body rs) db').1 := by
  induction rs with
  | nil => rfl
  | cons r rs ih =>
    unfold deliver
    by_cases hr : outboundEventPaymentReceived ∉ r.events
    · rw [if_pos hr]
      exact ih
    · rw [if_neg hr, Prog.op_bind]
      rw [Prog.run_perform_ok exec (show exec (.post r.url r.secret body) db = .ok ((), db) from rfl),
        Prog.run_perform_ok exec (show exec (.post r.url r.secret body) db' = .ok ((), db') from rfl)]
      cases post r with
      | response s => exact ih
      | httpError => exact ih
      | raised e => rfl

theorem emission_run {account : DedicatedAccount} {row : Customer Cents} {t : Transaction}
    {db' : Tables} (h : db'.webhookRegistrations = db.webhookRegistrations) :
    (Prog.run exec (emitPaymentReceived env.post row.merchantId (p.creditedOwner row) account t)
      db').1 = emission env p db account row t := by
  unfold emission emitPaymentReceived
  simp only [Prog.op_bind]
  rw [Prog.run_perform_ok exec (show exec (.emitPaymentReceived t) db' = .ok ((), db') from rfl),
    Prog.run_perform_ok exec (show exec (.emitPaymentReceived t) db = .ok ((), db) from rfl),
    Prog.run_perform_ok exec (show exec (.registrationsActive row.merchantId) db' = .ok
      (db.webhookRegistrations.filter (fun r => r.merchantId = row.merchantId ∧ r.active), db') by
        rw [← h]; rfl),
    Prog.run_perform_ok exec (show exec (.registrationsActive row.merchantId) db = .ok
      (db.webhookRegistrations.filter (fun r => r.merchantId = row.merchantId ∧ r.active), db) from rfl)]
  split_ifs
  · rfl
  · exact deliver_run _ _ _ _ _

theorem outcome_emit {account : DedicatedAccount} {row : Customer Cents} {t : Transaction}
    {db' : Tables} (h : db'.webhookRegistrations = db.webhookRegistrations) :
    outcomeOf (emitPaymentReceived env.post row.merchantId (p.creditedOwner row) account t) db' =
      ⟨emission env p db account row t, db', []⟩ := by
  rw [← emission_run h]
  exact outcome_reads (emitPaymentReceived_all _ _ _ _ _) db'

theorem outcome_credit (h : db.Constraints) {account : DedicatedAccount} {row : Customer Cents}
    (credit : Credits p db account row) :
    Settles env requestId payload p db
      (outcomeOf (creditPayment env requestId nombaPaymentSuccessEvent payload p account row.load)
        db) := by
  rw [creditPayment_eq]
  cases he : exec (.transactionCreate
      (p.newTransaction requestId payload (some account) (p.creditStatus row))) db with
  | error e =>
    rw [outcome_refused he]
    exact .refused (credit.route ▸ he)
  | ok x =>
    obtain ⟨t, db₁⟩ := x
    have h₁ : db₁.Constraints := exec_constraints h he
    obtain ⟨hrow, -, -, hdb₁⟩ := createTransaction_ok_iff.mp he
    have hamount : decimalField p.amount = .ok t.amount := (NewTransaction.row_ok hrow).amount
    have hmem : t ∈ db₁.transactions := hdb₁ ▸ List.mem_append_right _ (List.mem_singleton_self t)
    have hrow₁ : row ∈ db₁.customers := hdb₁ ▸ credit.mem
    rw [outcome_write he rfl]
    cases hw : numericColumn (p.walletAfter row) with
    | error e =>
      rw [outcome_refused (exec_saveOwner_error h₁ hrow₁ hw)]
      exact .unsaved ⟨credit, he⟩ hw
    | ok wallet =>
      rw [outcome_write (exec_saveOwner h₁ hrow₁ hw) rfl]
      cases ht : row.load.targetAmount.mapM decimalField with
      | error e =>
        have hlog : exec (.reconciliationLogCreate (creditLog t p row)) (db₁.credited row wallet) =
            .error e := by
          show written (Tables.createReconciliationLog _ (creditLog t p row)) = .error e
          have htarget : (creditLog t p row).expectedAmount.mapM decimalField = .error e := ht
          simp only [Tables.createReconciliationLog, NewReconciliationLog.row, htarget, bind,
            Except.bind, written, Except.map]
        rw [outcome_refused hlog]
        exact .unlogged ⟨credit, he⟩ hw ht
      | ok expected =>
        set db₂ := (db₁.credited row wallet).logged (p.creditLogRow row t expected db₁.clock) with hdb₂
        have hlog : exec (.reconciliationLogCreate (creditLog t p row)) (db₁.credited row wallet) =
            .ok ((), db₂) := by
          refine written_ok_iff.mpr (createReconciliationLog_ok_iff.mpr ⟨_,
            NewReconciliationLog.row_ok_iff.mpr ⟨expected, t.amount, ht, hamount, rfl⟩,
            ⟨t, hmem, rfl⟩, rfl⟩)
        have hregs : db₂.webhookRegistrations = db.webhookRegistrations := by
          rw [hdb₂, hdb₁]
          rfl
        have hemit : outcomeOf (emitPaymentReceived env.post row.merchantId (p.creditedOwner row)
            account t) db₂ = ⟨emission env p db account row t, db₂, []⟩ := outcome_emit hregs
        rw [outcome_write hlog rfl, outcome_last hemit fun _ =>
          (⟨t.id, p.creditStatus row, some (p.walletAfter row), false⟩ : PaymentResult)]
        cases hsent : emission env p db account row t with
        | error e => exact .undelivered ⟨credit, he⟩ hw ht hsent
        | ok u => exact .credited ⟨credit, he⟩ hw ht hsent

/-- Every run of `settlePayment` alone ends in one of the listed ways. -/
theorem settles (h : db.Constraints) :
    Settles env requestId payload p db
      (outcomeOf (settlePayment env requestId nombaPaymentSuccessEvent payload p) db) := by
  unfold settlePayment
  rw [outcome_then (outcome_findAccount h p.aliasAccountNumber p.aliasAccountReference)]
  cases hroute : db.route p.aliasAccountNumber p.aliasAccountReference with
  | none => exact outcome_quarantine (.unmatched hroute)
  | some account =>
    obtain ⟨row, hrow, hid, hfetch⟩ := owner_row h (route_mem hroute)
    simp only [Prog.op_bind, Outcome.after_nil]
    rw [outcome_query hfetch rfl]
    by_cases hactive : account.status = .active
    · rw [if_neg (by simp [hactive])]
      exact outcome_credit h ⟨hroute, hactive, hrow, hid⟩
    · rw [if_pos hactive]
      exact outcome_quarantine (.inactive hroute hactive)

end Writes

end LdbBackend
