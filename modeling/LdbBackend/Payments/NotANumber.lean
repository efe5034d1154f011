import LdbBackend.Model.NotANumber
import LdbBackend.Payments.Wallet

/-!
# Payments of numbers that may be NaN

How a delivery that completes ends (`Completes`), when the amount, the fee or the owner's wallet may be
NaN. On finite numbers it is the delivery of `Model/Webhooks` (`receive_finite`).
-/

namespace LdbBackend

open Fixed Effects Table

namespace NotANumber

/-! ## Running -/

section Run

variable {α β : Type} {s s₁ s' : State} {x : NanHandler α} {f : α → NanHandler β} {a : α} {b : β}

theorem run_bind_ok (h : x s = (.ok a, s₁)) : (x >>= f) s = f a s₁ := by
  show ExceptT.bindCont f (x s).1 (x s).2 = _
  rw [h]
  rfl

theorem run_bind_error {e : Err} (h : x s = (.error e, s₁)) : (x >>= f) s = (.error e, s₁) := by
  show ExceptT.bindCont f (x s).1 (x s).2 = _
  rw [h]
  rfl

theorem of_bind_ok (h : (x >>= f) s = (.ok b, s')) :
    ∃ a s₁, x s = (.ok a, s₁) ∧ f a s₁ = (.ok b, s') := by
  rcases hx : x s with ⟨e | a, s₁⟩
  · rw [run_bind_error hx] at h
    cases h
  · rw [run_bind_ok hx] at h
    exact ⟨a, s₁, rfl, h⟩

theorem raising_bind {y : Except Err α} (h : y = .ok a) : (raising y >>= f) s = f a s :=
  run_bind_ok (congrArg (fun z => (z, s)) h)

theorem statement_ok_iff {g : Tables → Except Err (α × Tables)} {columns : Tables → List Column} :
    statement g columns s = (.ok a, s') ↔
      ∃ db, g s.tables = .ok (a, db) ∧ s' = ⟨db, s.nan ++ columns s.tables⟩ := by
  unfold statement
  cases h : g s.tables with
  | error e =>
    constructor
    · intro herror
      cases herror
    · rintro ⟨db, hdb, -⟩
      cases hdb
  | ok r =>
    obtain ⟨a', db⟩ := r
    constructor
    · intro hok
      cases hok
      exact ⟨db, rfl, rfl⟩
    · rintro ⟨db', hdb, rfl⟩
      cases hdb
      rfl

theorem customerSave_ok_iff {customer : Customer Number} {u : Unit} :
    customerSave customer s = (.ok u, s') ↔ ∃ db, exec (.customerSave { customer with
        targetAmount := customer.targetAmount.map kept
        walletBalance := kept customer.walletBalance }) s.tables = .ok ((), db) ∧
      s' = ⟨db, s.saved customer⟩ := by
  unfold customerSave
  cases exec (.customerSave { customer with
      targetAmount := customer.targetAmount.map kept
      walletBalance := kept customer.walletBalance }) s.tables with
  | error e =>
    constructor
    · intro herror
      cases herror
    · rintro ⟨db, hdb, -⟩
      cases hdb
  | ok r =>
    obtain ⟨v, db⟩ := r
    constructor
    · intro hok
      cases hok
      exact ⟨db, rfl, rfl⟩
    · rintro ⟨db', hdb, rfl⟩
      cases hdb
      rfl

theorem plain_await_ok {o : Op} {r : Res o} (h : plain (await o) s = (.ok r, s')) :
    ∃ db, exec o s.tables = .ok (r, db) ∧ s' = { s with tables := db } := by
  have hrun : plain (await o) s = match exec o s.tables with
      | .ok (r, db) => (.ok r, { s with tables := db })
      | .error e => (.error e, s) := by
    unfold plain await Prog.op Prog.run
    cases exec o s.tables with
    | error e => rfl
    | ok x => rfl
  rw [hrun] at h
  cases hexec : exec o s.tables with
  | error e =>
    rw [hexec] at h
    cases h
  | ok x =>
    rw [hexec] at h
    cases h
    exact ⟨x.2, rfl, rfl⟩

/-- A program without writes leaves the state. -/
theorem plain_reads {p : Handler α} (hp : p.All (·.isWrite = false)) (s : State) :
    plain p s = ((Prog.run exec p s.tables).1, s) := by
  have hstate : (Prog.run exec p s.tables).2 = s.tables :=
    congrArg Outcome.state (outcome_reads hp s.tables)
  show ((Prog.run exec p s.tables).1, (⟨(Prog.run exec p s.tables).2, s.nan⟩ : State)) = _
  rw [hstate]

end Run

/-! ## Payments that complete -/

/-- The balance of the owner after the credit. -/
def NumberPayment.walletAfter (p : NumberPayment) (s : State) (row : Customer Cents) : Number :=
  add ((s.read (.wallet row.id) row.walletBalance).map (Decimal.ofScaled 2)) p.amount

def NumberPayment.creditStatus (p : NumberPayment) (row : Customer Cents) :
    Except Err TransactionStatus :=
  deriveTransactionStatus p.amount (row.targetAmount.map fun n => some (Decimal.ofScaled 2 n))

/-- The columns listed by the insert of the transaction `id`. -/
def NumberPayment.inserted (p : NumberPayment) (id : UUID) : List Column :=
  listed p.amount (.amount id) ++ listed p.fee (.fee id)

section Completes

variable (requestId payload : Json) (p : NumberPayment) (s : State)

/-- How `settlePayment` completes. -/
inductive Completes : NumberResult → State → Prop
  | held {account : Option DedicatedAccount} {reason : SuspenseReason} {t : Transaction} {db₁ : Tables}
      (hold : Holds p.kept s.tables account reason)
      (insert : s.tables.createTransaction (p.kept.newTransaction requestId payload account .misdirected) =
        .ok (t, db₁)) :
      Completes ⟨t.id, .misdirected, none, true⟩ ⟨db₁.quarantined t reason,
        s.nan ++ p.inserted s.tables.clock ++ listed p.amount (.suspended db₁.clock) ++
          listed p.amount (.received (db₁.clock + 1))⟩
  | credited {account : DedicatedAccount} {row : Customer Cents} {status : TransactionStatus}
      {t : Transaction} {db₁ : Tables} {wallet : Cents} {expected : Option Cents} {details : Json}
      (credit : Credits p.kept s.tables account row) (status_ok : p.creditStatus row = .ok status)
      (insert : s.tables.createTransaction (p.kept.newTransaction requestId payload (some account) status) =
        .ok (t, db₁))
      (wallet_ok : numericColumn (kept (p.walletAfter s row)) = .ok wallet) :
      Completes ⟨t.id, status, some (p.walletAfter s row), false⟩
        ⟨(db₁.credited row wallet).logged
            ⟨db₁.clock, t.id, expected, t.amount, decisionForStatus status, details⟩,
          (s.nan ++ p.inserted s.tables.clock).filter (· ≠ .wallet row.id) ++
            listed (p.walletAfter s row) (.wallet row.id) ++ listed p.amount (.received db₁.clock)⟩

end Completes

section Settle

variable {env : Surroundings} {requestId payload : Json} {p : NumberPayment} {s s' : State}

theorem completes_held {account : Option DedicatedAccount} {reason : SuspenseReason}
    {result : NumberResult} (hold : Holds p.kept s.tables account reason)
    (hrun : quarantinePayment requestId payload p reason account s = (.ok result, s')) :
    Completes requestId payload p s result s' := by
  obtain ⟨t, s₁, hinsert, hrun⟩ := of_bind_ok hrun
  obtain ⟨u, s₂, hsuspend, hrun⟩ := of_bind_ok hrun
  obtain ⟨v, s₃, hlog, hrun⟩ := of_bind_ok hrun
  obtain ⟨db₁, hcreate, rfl⟩ := statement_ok_iff.mp hinsert
  obtain ⟨db₂, hcreate₂, rfl⟩ := statement_ok_iff.mp hsuspend
  obtain ⟨db₃, hcreate₃, rfl⟩ := statement_ok_iff.mp hlog
  cases hrun
  have hamount : decimalField (kept p.amount) = .ok t.amount :=
    (NewTransaction.row_ok (createTransaction_ok_iff.mp hcreate).1).amount
  obtain ⟨n, hn, -, rfl⟩ := createSuspenseLog_ok_iff.mp (written_ok_iff.mp hcreate₂)
  obtain ⟨l, hl, -, rfl⟩ := createReconciliationLog_ok_iff.mp (written_ok_iff.mp hcreate₃)
  obtain ⟨expected, received, hexpected, hreceived, rfl⟩ := NewReconciliationLog.row_ok_iff.mp hl
  obtain rfl : t.amount = n := Except.ok.inj (hamount.symm.trans hn)
  obtain rfl : t.amount = received := Except.ok.inj (hamount.symm.trans hreceived)
  cases hexpected
  exact .held hold hcreate

/-- The announcement writes nothing. -/
theorem emitPaymentReceived_state (post : WebhookRegistration → PostOutcome) (merchantId : UUID)
    (customer : Customer Number) (account : DedicatedAccount) (t : Transaction) (amount : Number)
    (s : State) : (emitPaymentReceived post merchantId customer account t amount s).2 = s := by
  have hregistrations : plain (await (.registrationsActive merchantId)) s =
      (.ok (s.tables.webhookRegistrations.filter fun r => r.merchantId = merchantId ∧ r.active), s) := rfl
  unfold emitPaymentReceived
  rw [run_bind_ok (show plain (await (.emitPaymentReceived t)) s = (.ok (), s) from rfl),
    run_bind_ok hregistrations]
  split_ifs
  · rfl
  · cases houtstanding : outstandingBalance customer with
    | error e => rw [run_bind_error (show raising (.error e) s = (.error e, s) from rfl)]
    | ok outstanding =>
      rw [run_bind_ok (show raising (.ok outstanding) s = (.ok outstanding, s) from rfl),
        plain_reads (deliver_all _ _ _)]

/-- Saving the owner with a new balance writes the balance. -/
theorem saveOwner_ok {db db' : Tables} {row : Customer Cents} {x : Decimal} (h : db.Constraints)
    (hrow : row ∈ db.customers) {u : Unit}
    (hsave : exec (.customerSave { row.load with walletBalance := x }) db = .ok (u, db')) :
    ∃ wallet, numericColumn x = .ok wallet ∧ db' = db.credited row wallet := by
  obtain ⟨target, wallet, htarget, hwallet, -, rfl⟩ := saveCustomer_ok_iff.mp (written_ok_iff.mp hsave)
  have hreload : row.load.targetAmount.mapM numericColumn = .ok row.targetAmount :=
    numericColumn_reload (h.customer_columns row hrow).2
  obtain rfl : row.targetAmount = target := Except.ok.inj (hreload.symm.trans htarget)
  exact ⟨wallet, hwallet, rfl⟩

theorem completes_credited (h : s.tables.Constraints) {account : DedicatedAccount}
    {row : Customer Cents} {customer : Customer Number} {eventType : String} {result : NumberResult}
    (credit : Credits p.kept s.tables account row)
    (hcustomer : customer = { row with
      targetAmount := row.targetAmount.map fun n => some (Decimal.ofScaled 2 n)
      walletBalance := (s.read (.wallet row.id) row.walletBalance).map (Decimal.ofScaled 2) })
    (hrun : creditPayment env requestId eventType payload p account customer s = (.ok result, s')) :
    Completes requestId payload p s result s' := by
  obtain ⟨status, s₁, hstatus, hrun⟩ := of_bind_ok hrun
  obtain ⟨t, s₂, hinsert, hrun⟩ := of_bind_ok hrun
  obtain ⟨u, s₃, hsave, hrun⟩ := of_bind_ok hrun
  obtain ⟨v, s₄, hlog, hrun⟩ := of_bind_ok hrun
  obtain ⟨w, s₅, hemit, hrun⟩ := of_bind_ok hrun
  obtain rfl : s₄ = s₅ := (emitPaymentReceived_state _ _ _ _ _ _ _).symm.trans (congrArg Prod.snd hemit)
  subst hcustomer
  obtain ⟨hok, rfl⟩ := Prod.mk.inj hstatus
  obtain ⟨db₁, hcreate, rfl⟩ := statement_ok_iff.mp hinsert
  obtain ⟨db₃, hlogged, rfl⟩ := statement_ok_iff.mp hlog
  have hrow₁ : row ∈ db₁.customers := (createTransaction_ok_iff.mp hcreate).2.2.2 ▸ credit.mem
  have h₁ : db₁.Constraints := h.createTransaction hcreate
  have hamount : decimalField (kept p.amount) = .ok t.amount :=
    (NewTransaction.row_ok (createTransaction_ok_iff.mp hcreate).1).amount
  obtain ⟨db₂, hsaved, rfl⟩ := customerSave_ok_iff.mp hsave
  have htarget : (row.targetAmount.map fun n => some (Decimal.ofScaled 2 n)).map kept =
      row.load.targetAmount := by
    rw [Option.map_map]
    rfl
  rw [htarget] at hsaved
  obtain ⟨wallet, hwallet, rfl⟩ := saveOwner_ok h₁ hrow₁ hsaved
  have hthere : (db₁.customers.any fun c => decide (c.id = row.id)) = true :=
    List.any_eq_true.mpr ⟨row, hrow₁, decide_eq_true rfl⟩
  obtain ⟨l, hl, -, rfl⟩ := createReconciliationLog_ok_iff.mp (written_ok_iff.mp hlogged)
  obtain ⟨expected, received, -, hreceived, rfl⟩ := NewReconciliationLog.row_ok_iff.mp hl
  obtain rfl : t.amount = received := Except.ok.inj (hamount.symm.trans hreceived)
  cases hrun
  simp only [State.saved, hthere, if_true]
  exact .credited credit hok hcreate hwallet

/-- Every `settlePayment` that completes ends in one of the two ways. -/
theorem settlePayment_ok (h : s.tables.Constraints) {eventType : String} {result : NumberResult}
    (hrun : settlePayment env requestId eventType payload p s = (.ok result, s')) :
    Completes requestId payload p s result s' := by
  obtain ⟨found, s₁, hfind, hrun⟩ := of_bind_ok hrun
  have houtcome := outcome_findAccount h p.aliasAccountNumber p.aliasAccountReference
  have hfound : plain (findAccount p.aliasAccountNumber p.aliasAccountReference) s =
      (.ok (p.kept.route s.tables), s) :=
    Prod.ext (congrArg Outcome.result houtcome)
      (congrArg (fun db => (⟨db, s.nan⟩ : State)) (congrArg Outcome.state houtcome))
  obtain ⟨hok, rfl⟩ := Prod.mk.inj (hfound.symm.trans hfind)
  obtain rfl := Except.ok.inj hok
  cases hroute : p.kept.route s.tables with
  | none =>
    rw [hroute] at hrun
    exact completes_held (.unmatched hroute) hrun
  | some account =>
    rw [hroute] at hrun
    obtain ⟨customer, s₂, hfetch, hrun⟩ := of_bind_ok hrun
    obtain ⟨row, hrow, hid, -⟩ := owner_row h (route_mem hroute)
    obtain ⟨hcustomer, rfl⟩ := Prod.mk.inj hfetch
    by_cases hactive : account.status = .active
    · rw [if_neg (not_not.mpr hactive)] at hrun
      have hfind : s.tables.customers.find? (·.id = account.customerId) = some row := by
        rw [← hid]
        exact find?_of_mem h.customer_pk hrow
      rw [hfind] at hcustomer
      obtain rfl := Except.ok.inj hcustomer
      exact completes_credited h ⟨hroute, hactive, hrow, hid⟩ rfl hrun
    · rw [if_pos hactive] at hrun
      exact completes_held (.inactive hroute hactive) hrun

/-- The payload is a payment, read as `p`. -/
structure PaysNumber (env : Surroundings) (payload requestId : Json) (p : NumberPayment) : Prop where
  event : ∃ e, eventTypeOf payload = .ok e ∧ e.isText nombaPaymentSuccessEvent = true
  request : requestIdOf payload = .ok requestId
  transfer : ∃ t, transferTypeOf payload = .ok t ∧ t.isText nombaVactTransferType = true
  read : readPayment env.reference payload = .ok p

/-- A payment that `receive` processes to completion was settled, and its request is marked. -/
theorem receive_ok (h : s.tables.Constraints) (hpays : PaysNumber env payload requestId p)
    (hfresh : s.tables.processed requestId.text = false) {response : Response}
    (hrun : receive env payload s = (.ok response, s')) :
    ∃ result s₁, Completes requestId payload p s result s₁ ∧ response = result.response ∧
      s' = { s₁ with tables := s₁.tables.marked requestId.text } := by
  obtain ⟨e, hevent, hpayment⟩ := hpays.event
  obtain ⟨t, htransfer, hvact⟩ := hpays.transfer
  obtain rfl := text_of_isText hpayment
  obtain rfl := text_of_isText hvact
  unfold receive at hrun
  rw [raising_bind hevent, raising_bind hpays.request] at hrun
  by_cases hrequest : requestId.truthy = true
  · have hprocessed : plain (await (.processedExists requestId.text)) s = (.ok false, s) :=
      congrArg (fun b => ((.ok b : Except Err Bool), s)) hfresh
    rw [if_neg (by simp [hrequest]), run_bind_ok hprocessed, if_neg Bool.false_ne_true,
      if_neg (by simp [Json.isText]), raising_bind htransfer, if_neg (by simp [Json.isText])] at hrun
    obtain ⟨result, s₁, hprocess, hrun⟩ := of_bind_ok hrun
    obtain ⟨u, s₂, hmark, hrun⟩ := of_bind_ok hrun
    obtain ⟨db, hcreate, rfl⟩ := plain_await_ok hmark
    obtain ⟨-, -, -, rfl⟩ := createProcessedEvent_ok_iff.mp (written_ok_iff.mp hcreate)
    cases hrun
    exact ⟨result, s₁, settlePayment_ok h ((raising_bind hpays.read).symm.trans hprocess), rfl, rfl⟩
  · rw [if_pos (by simp [hrequest])] at hrun
    cases hrun

end Settle

/-! ## States that stay sound -/

/-- A statement never turns the clock back. -/
theorem exec_clock {o : Op} {r : Res o} {db db' : Tables} (h : exec o db = .ok (r, db')) :
    db.clock ≤ db'.clock := by
  cases o with
  | customerCreate new =>
    obtain ⟨row, -, -, -, rfl⟩ := createCustomer_ok_iff.mp h
    exact Nat.le_succ _
  | customerSave customer =>
    obtain ⟨target, wallet, -, -, -, rfl⟩ := saveCustomer_ok_iff.mp (written_ok_iff.mp h)
    exact le_rfl
  | customerDelete id =>
    cases h
    exact le_rfl
  | accountCreate new =>
    obtain ⟨-, -, -, rfl⟩ := createAccount_ok_iff.mp h
    exact Nat.le_succ _
  | accountSave account =>
    obtain ⟨-, -, -, rfl⟩ := saveAccount_ok_iff.mp (written_ok_iff.mp h)
    exact le_rfl
  | transactionCreate new =>
    obtain ⟨-, -, -, rfl⟩ := createTransaction_ok_iff.mp h
    exact Nat.le_succ _
  | suspenseLogCreate t reason amount =>
    obtain ⟨n, -, -, rfl⟩ := createSuspenseLog_ok_iff.mp (written_ok_iff.mp h)
    exact Nat.le_succ _
  | reconciliationLogCreate new =>
    obtain ⟨l, -, -, rfl⟩ := createReconciliationLog_ok_iff.mp (written_ok_iff.mp h)
    exact Nat.le_succ _
  | processedCreate requestId eventType =>
    obtain ⟨-, -, -, rfl⟩ := createProcessedEvent_ok_iff.mp (written_ok_iff.mp h)
    exact Nat.le_succ _
  | registrationCreate merchantId url secret events =>
    rw [createRegistration_ok h]
    exact Nat.le_succ _
  | _ => exact (exec_query rfl h).symm ▸ le_rfl

section Sound

variable {α β : Type}

/-- The handler leads from sound states to sound states. -/
def KeepsSound (x : NanHandler α) : Prop := ∀ s : State, s.Sound → (x s).2.Sound

theorem KeepsSound.bind {x : NanHandler α} {f : α → NanHandler β} (hx : KeepsSound x)
    (hf : ∀ a, KeepsSound (f a)) : KeepsSound (x >>= f) := by
  intro s hs
  have hnext := hx s hs
  rcases hrun : x s with ⟨e | a, s₁⟩
  · rw [hrun] at hnext
    rw [run_bind_error hrun]
    exact hnext
  · rw [hrun] at hnext
    rw [run_bind_ok hrun]
    exact hf a s₁ hnext

theorem KeepsSound.raising (x : Except Err α) : KeepsSound (raising x) := fun _ hs => hs

theorem KeepsSound.pure (a : α) : KeepsSound (pure a : NanHandler α) := fun _ hs => hs

theorem State.Sound.later {s : State} {db : Tables} (hs : s.Sound) (h : db.Constraints)
    (hclock : s.tables.clock ≤ db.clock) : State.Sound ⟨db, s.nan⟩ :=
  ⟨h, fun column hcolumn => lt_of_lt_of_le (hs.inserted column hcolumn) hclock⟩

theorem KeepsSound.plain (p : Handler α) : KeepsSound (plain p) := by
  intro s hs
  have hclock : s.tables.clock ≤ (Prog.run exec p s.tables).2.clock := by
    refine Prog.run_invariant exec (I := fun db : Tables => s.tables.clock ≤ db.clock) ?_ p s.tables le_rfl
    intro o db r db' hle he
    exact le_trans hle (exec_clock he)
  exact hs.later (run_constraints p hs.constraints) hclock

/-- An insert lists columns of its own row only. -/
theorem KeepsSound.statement {o : Op} {columns : Tables → List Column}
    (hrow : ∀ db, ∀ column ∈ columns db, column.row = db.clock)
    (hclock : ∀ db r db', exec o db = .ok (r, db') → db.clock < db'.clock) :
    KeepsSound (statement (exec o) columns) := by
  intro s hs
  unfold NotANumber.statement
  cases he : exec o s.tables with
  | error e => exact hs
  | ok r =>
    obtain ⟨a, db⟩ := r
    have hlt := hclock _ _ _ he
    refine ⟨exec_constraints hs.constraints he, fun column hcolumn => ?_⟩
    rcases List.mem_append.mp hcolumn with hold | hnew
    · exact lt_trans (hs.inserted column hold) hlt
    · exact (hrow _ column hnew).symm ▸ hlt

theorem row_of_listed {x : Number} {column c : Column} (h : c ∈ listed x column) : c = column := by
  unfold listed at h
  split_ifs at h
  · exact List.mem_singleton.mp h
  · cases h

theorem KeepsSound.transactionCreate (p : NumberPayment) (requestId rawPayload : Json)
    (account : Option DedicatedAccount) (status : TransactionStatus) :
    KeepsSound (transactionCreate p requestId rawPayload account status) := by
  refine .statement (fun db column hcolumn => ?_) fun db t db' he => ?_
  · rcases List.mem_append.mp hcolumn with h | h
    · rw [row_of_listed h]
      rfl
    · rw [row_of_listed h]
      rfl
  · obtain ⟨-, -, -, rfl⟩ := createTransaction_ok_iff.mp he
    exact Nat.lt_succ_self _

theorem KeepsSound.suspenseLogCreate (t : Transaction) (reason : SuspenseReason) (amount : Number) :
    KeepsSound (suspenseLogCreate t reason amount) := by
  refine .statement (fun db column hcolumn => ?_) fun db u db' he => ?_
  · rw [row_of_listed hcolumn]
    rfl
  · obtain ⟨n, -, -, rfl⟩ := createSuspenseLog_ok_iff.mp (written_ok_iff.mp he)
    exact Nat.lt_succ_self _

theorem KeepsSound.reconciliationLogCreate (t : Transaction) (expected : Option Number) (received : Number)
    (decision : Decision) (details : Json) :
    KeepsSound (reconciliationLogCreate t expected received decision details) := by
  refine .statement (fun db column hcolumn => ?_) fun db u db' he => ?_
  · rw [row_of_listed hcolumn]
    rfl
  · obtain ⟨l, -, -, rfl⟩ := createReconciliationLog_ok_iff.mp (written_ok_iff.mp he)
    exact Nat.lt_succ_self _

theorem KeepsSound.customerSave (customer : Customer Number) : KeepsSound (customerSave customer) := by
  intro s hs
  unfold NotANumber.customerSave
  split
  · rename_i u db he
    have hclock := exec_clock he
    refine ⟨exec_constraints hs.constraints he, fun column hcolumn => lt_of_lt_of_le ?_ hclock⟩
    unfold State.saved at hcolumn
    split_ifs at hcolumn with hthere
    · rcases List.mem_append.mp hcolumn with hold | hnew
      · exact hs.inserted column (List.mem_of_mem_filter hold)
      · obtain ⟨row, hrow, hid⟩ := List.any_eq_true.mp hthere
        rw [row_of_listed hnew]
        exact of_decide_eq_true hid ▸ hs.constraints.customer_fresh row hrow
    · exact hs.inserted column hcolumn
  · exact hs

theorem KeepsSound.emit (post : WebhookRegistration → PostOutcome) (merchantId : UUID)
    (customer : Customer Number) (account : DedicatedAccount) (t : Transaction) (amount : Number) :
    KeepsSound (emitPaymentReceived post merchantId customer account t amount) := by
  intro s hs
  rw [emitPaymentReceived_state]
  exact hs

theorem KeepsSound.ite {c : Prop} [Decidable c] {x y : NanHandler α} (hx : KeepsSound x)
    (hy : KeepsSound y) : KeepsSound (if c then x else y) := by
  split_ifs
  · exact hx
  · exact hy

theorem KeepsSound.quarantine (requestId payload : Json) (p : NumberPayment) (reason : SuspenseReason)
    (account : Option DedicatedAccount) :
    KeepsSound (quarantinePayment requestId payload p reason account) :=
  (KeepsSound.transactionCreate _ _ _ _ _).bind fun _ => (KeepsSound.suspenseLogCreate _ _ _).bind fun _ =>
    (KeepsSound.reconciliationLogCreate _ _ _ _ _).bind fun _ => .pure _

theorem KeepsSound.credit (env : Surroundings) (requestId : Json) (eventType : String) (payload : Json)
    (p : NumberPayment) (account : DedicatedAccount) (customer : Customer Number) :
    KeepsSound (creditPayment env requestId eventType payload p account customer) :=
  (KeepsSound.raising _).bind fun _ => (KeepsSound.transactionCreate _ _ _ _ _).bind fun _ =>
    (KeepsSound.customerSave _).bind fun _ => (KeepsSound.reconciliationLogCreate _ _ _ _ _).bind fun _ =>
      (KeepsSound.emit _ _ _ _ _ _).bind fun _ => .pure _

theorem KeepsSound.settle (env : Surroundings) (requestId : Json) (eventType : String) (payload : Json)
    (p : NumberPayment) : KeepsSound (settlePayment env requestId eventType payload p) := by
  refine (KeepsSound.plain _).bind fun account => ?_
  cases account with
  | none => exact .quarantine _ _ _ _ _
  | some account =>
    refine KeepsSound.bind (fun _ hs => hs) fun customer => .ite (.quarantine _ _ _ _ _) ?_
    cases customer with
    | none => exact .raising _
    | some customer => exact .credit _ _ _ _ _ _ _

/-- Deliveries, whole or failed, lead from sound states to sound states. -/
theorem receive_sound (env : Surroundings) (payload : Json) : KeepsSound (receive env payload) := by
  refine (KeepsSound.raising _).bind fun eventType => (KeepsSound.raising _).bind fun requestId => ?_
  refine .ite (.raising _) ((KeepsSound.plain _).bind fun processed => ?_)
  refine .ite (.pure _) (.ite ((KeepsSound.plain _).bind fun _ => .pure _) ?_)
  refine (KeepsSound.raising _).bind fun transferType => ?_
  refine .ite ((KeepsSound.plain _).bind fun _ => .pure _) (KeepsSound.bind ?_ fun result => ?_)
  · exact (KeepsSound.raising _).bind fun p => .settle _ _ _ _ _
  · exact (KeepsSound.plain _).bind fun _ => .pure _

end Sound

/-! ## Finite numbers -/

section Finite

variable {α β γ δ : Type}

/-- On states without NaN the handler does what the program does, with its answer read by `g`. -/
def Agrees (g : β → α) (x : NanHandler α) (y : Handler β) : Prop :=
  ∀ db, x ⟨db, []⟩ = ((Prog.run exec y db).1.map g, ⟨(Prog.run exec y db).2, []⟩)

theorem Agrees.bind {g : β → α} {g' : δ → γ} {x : NanHandler α} {y : Handler β}
    {f : α → NanHandler γ} {k : β → Handler δ} (hx : Agrees g x y)
    (hf : ∀ b, Agrees g' (f (g b)) (k b)) : Agrees g' (x >>= f) (y >>= k) := by
  intro db
  have hdb := hx db
  rcases hrun : Prog.run exec y db with ⟨e | b, db'⟩
  · rw [hrun] at hdb
    rw [run_bind_error hdb, Prog.run_bind_error exec hrun]
    rfl
  · rw [hrun] at hdb
    rw [run_bind_ok hdb, Prog.run_bind_ok exec hrun]
    exact hf b db'

theorem Agrees.pure (g : β → α) (b : β) : Agrees g (pure (g b)) (pure b) := fun _ => rfl

theorem Agrees.plain (p : Handler α) : Agrees id (plain p) p := by
  intro db
  have hid : (Prog.run exec p db).1.map id = (Prog.run exec p db).1 := by
    cases (Prog.run exec p db).1 <;> rfl
  rw [hid]
  rfl

theorem Agrees.lift (x : Except Err α) : Agrees id (raising x) (Prog.lift x) := by
  intro db
  cases x <;> rfl

theorem Agrees.raise (g : β → α) (e : Err) : Agrees g (raising (.error e)) (.raise e) := fun _ => rfl

theorem Agrees.ite {g : β → α} {c : Prop} [Decidable c] {x x' : NanHandler α} {y y' : Handler β}
    (h : Agrees g x y) (h' : Agrees g x' y') : Agrees g (if c then x else x') (if c then y else y') := by
  split_ifs
  · exact h
  · exact h'

/-- A statement that lists no column. -/
theorem Agrees.statement {o : Op} {columns : Tables → List Column} (h : ∀ db, columns db = []) :
    Agrees id (statement (exec o) columns) (await o) := by
  intro db
  unfold NotANumber.statement await Prog.op Prog.run
  simp only [h, List.nil_append]
  cases exec o db with
  | error e => rfl
  | ok r => rfl

/-- The finite numbers of a payment, of a customer and of a result. -/
def NumberPayment.of (p : Payment) : NumberPayment := { p with amount := some p.amount, fee := some p.fee }

def finiteCustomer (customer : Customer Decimal) : Customer Number :=
  { customer with
    targetAmount := customer.targetAmount.map some
    walletBalance := some customer.walletBalance }

def NumberResult.of (result : PaymentResult) : NumberResult :=
  { result with walletBalance := result.walletBalance.map some }

theorem response_of (result : PaymentResult) : (NumberResult.of result).response = result.response := by
  unfold NumberResult.response NumberResult.of PaymentResult.response
  rw [Option.map_map]
  rfl

theorem fetch_agrees (account : DedicatedAccount) :
    Agrees (Option.map finiteCustomer) (accountFetchCustomer account)
      (await (.accountFetchCustomer account)) := by
  intro db
  show (Except.ok _, _) = (Except.ok (Option.map finiteCustomer (Option.map Customer.load _)), _)
  rw [Option.map_map]
  refine congrArg (fun o => (Except.ok o, _)) (congrArg (Option.map · _) (funext fun row => ?_))
  show _ = finiteCustomer row.load
  unfold finiteCustomer
  rw [Customer.load_targetAmount, Option.map_map]
  rfl

theorem outstandingBalance_finite (customer : Customer Decimal) :
    outstandingBalance (finiteCustomer customer) = .ok (LdbBackend.outstandingBalance customer) := by
  unfold outstandingBalance LdbBackend.outstandingBalance finiteCustomer
  cases customer.targetAmount <;> rfl

theorem outboundPayload_finite (customer : Customer Decimal) (account : DedicatedAccount)
    (t : Transaction) (amount : Decimal) :
    outboundPayload (finiteCustomer customer) account t (some amount)
        (LdbBackend.outstandingBalance customer) = LdbBackend.outboundPayload customer account t := by
  unfold outboundPayload LdbBackend.outboundPayload finiteCustomer
  cases customer.targetAmount <;> rfl

theorem emit_agrees (post : WebhookRegistration → PostOutcome) (merchantId : UUID)
    (customer : Customer Decimal) (account : DedicatedAccount) (t : Transaction) (amount : Decimal) :
    Agrees id (emitPaymentReceived post merchantId (finiteCustomer customer) account t (some amount))
      (LdbBackend.emitPaymentReceived post merchantId customer account t) := by
  refine (Agrees.plain _).bind fun _ => (Agrees.plain _).bind fun registrations => ?_
  show Agrees id (if List.isEmpty registrations = true then _ else _)
    (if List.isEmpty registrations = true then _ else _)
  split_ifs
  · exact .pure id ()
  · intro db
    rw [raising_bind (outstandingBalance_finite customer), outboundPayload_finite]
    exact Agrees.plain _ db

variable {env : Surroundings} {requestId payload : Json} {p : Payment}

theorem transactionCreate_agrees (account : Option DedicatedAccount) (status : TransactionStatus) :
    Agrees id (transactionCreate (.of p) requestId payload account status)
      (await (.transactionCreate (p.newTransaction requestId payload account status))) :=
  .statement fun _ => rfl

theorem quarantine_agrees (reason : SuspenseReason) (account : Option DedicatedAccount) :
    Agrees .of (quarantinePayment requestId payload (.of p) reason account)
      (LdbBackend.quarantinePayment requestId payload p reason account) :=
  (transactionCreate_agrees account .misdirected).bind fun t =>
    Agrees.bind (.statement fun _ => rfl) fun _ =>
      Agrees.bind (.statement fun _ => rfl) fun _ => .pure NumberResult.of ⟨t.id, .misdirected, none, true⟩

theorem kept_target (target : Option Decimal) : (target.map some).map kept = target := by
  cases target <;> rfl

theorem customerSave_agrees (customer : Customer Decimal) :
    Agrees id (customerSave (finiteCustomer customer)) (await (.customerSave customer)) := by
  have hkept : ({ finiteCustomer customer with
      targetAmount := (finiteCustomer customer).targetAmount.map kept
      walletBalance := kept (finiteCustomer customer).walletBalance } : Customer Decimal) = customer := by
    show ({ customer with
      targetAmount := (customer.targetAmount.map some).map kept } : Customer Decimal) = customer
    rw [kept_target]
  intro db
  have hsaved : (⟨db, []⟩ : State).saved (finiteCustomer customer) = [] := by
    unfold State.saved
    split_ifs <;> rfl
  unfold customerSave await Prog.op Prog.run
  rw [hkept, hsaved]
  cases exec (.customerSave customer) db with
  | error e => rfl
  | ok r => rfl

theorem derive_agrees (p : Payment) (customer : Customer Decimal) :
    deriveTransactionStatus (NumberPayment.of p).amount (finiteCustomer customer).targetAmount =
      .ok (LdbBackend.deriveTransactionStatus p.amount customer.targetAmount) := by
  unfold deriveTransactionStatus finiteCustomer
  cases customer.targetAmount <;> rfl

theorem reconciliationLog_agrees (t : Transaction) (expected : Option Decimal) (received : Decimal)
    (decision : Decision) (details : Json) :
    Agrees id (reconciliationLogCreate t (expected.map some) (some received) decision details)
      (await (.reconciliationLogCreate ⟨t, expected, received, decision, details⟩)) := by
  unfold reconciliationLogCreate
  rw [kept_target]
  exact .statement fun _ => rfl

theorem credit_agrees (eventType : String) (account : DedicatedAccount) (customer : Customer Decimal) :
    Agrees .of (creditPayment env requestId eventType payload (.of p) account (finiteCustomer customer))
      (LdbBackend.creditPayment env requestId eventType payload p account customer) := by
  intro db
  unfold creditPayment
  rw [raising_bind (derive_agrees p customer)]
  set credited : Customer Decimal := { customer with walletBalance := customer.walletBalance + p.amount }
  refine Agrees.bind (transactionCreate_agrees (some account) _) (fun t => ?_) db
  refine (customerSave_agrees credited).bind fun _ => ?_
  refine (reconciliationLog_agrees t credited.targetAmount p.amount _ _).bind fun _ => ?_
  refine (emit_agrees env.post credited.merchantId credited account t p.amount).bind fun _ => ?_
  exact .pure NumberResult.of ⟨t.id, _, some credited.walletBalance, false⟩

theorem settle_agrees (eventType : String) :
    Agrees .of (settlePayment env requestId eventType payload (.of p))
      (LdbBackend.settlePayment env requestId eventType payload p) := by
  refine (Agrees.plain _).bind fun account => ?_
  cases account with
  | none => exact quarantine_agrees .misdirected none
  | some account =>
    refine (fetch_agrees account).bind fun customer => ?_
    by_cases hactive : account.status ≠ .active
    · simp only [if_pos hactive]
      exact quarantine_agrees .closedAccount (some account)
    · simp only [if_neg hactive]
      cases customer with
      | none => exact .raise NumberResult.of .attributeError
      | some customer => exact credit_agrees eventType account customer

/-- What starts with an `n` has neither digits nor a point in front. -/
theorem digits_of_nan {cs : List Char} (h : (cs.take 3).map Char.toLower = ['n', 'a', 'n']) :
    cs.takeWhile Char.isDigit = [] ∧ cs.dropWhile Char.isDigit = cs ∧ ∀ rest, cs ≠ '.' :: rest := by
  cases cs with
  | nil => cases h
  | cons c cs =>
    simp only [List.take_succ_cons, List.map_cons, List.cons.injEq] at h
    have hdigit : c.isDigit = false := by
      by_contra hd
      rw [Bool.not_eq_false] at hd
      have hlower : c.toLower = c := by
        unfold Char.toLower
        rw [dif_neg]
        rintro ⟨hge, -⟩
        simp only [Char.isDigit, Bool.and_eq_true, decide_eq_true_eq] at hd
        have hlarge : 65 ≤ c.val.toNat := UInt32.le_iff_toNat_le.mp hge
        have hsmall : c.val.toNat ≤ 57 := UInt32.le_iff_toNat_le.mp hd.2
        omega
      rw [← hlower, h.1] at hd
      exact absurd hd (by decide)
    refine ⟨?_, ?_, ?_⟩
    · rw [List.takeWhile_cons, hdigit]
      rfl
    · rw [List.dropWhile_cons, hdigit]
      rfl
    · intro rest heq
      obtain ⟨rfl, -⟩ := List.cons.inj heq
      exact absurd h.1 (by decide)

/-- A text that reads as a number does not read as NaN. -/
theorem not_readsNan {s : String} {d : Decimal} (h : Decimal.ofString s = some d) : readsNan s = false := by
  by_contra hnan
  rw [Bool.not_eq_false] at hnan
  unfold readsNan at hnan
  unfold Decimal.ofString at h
  simp only [Bool.and_eq_true, beq_iff_eq] at hnan
  obtain ⟨hwhole, hrest, hpoint⟩ := digits_of_nan hnan.1
  simp only [hwhole, hrest] at h
  rw [if_pos (List.append_nil [])] at h
  cases h

theorem toNumber_finite {value : Json} {d : Decimal} (h : value.toDecimal = .ok d) :
    toNumber value = .ok (some d) := by
  cases value with
  | str s =>
    have hread : Decimal.ofString s = some d := by
      unfold Json.toDecimal at h
      cases hs : Decimal.ofString s with
      | none => simp [hs] at h
      | some e => simpa [hs] using h
    show (if readsNan s then _ else _) = _
    rw [if_neg (by simp [not_readsNan hread]), h]
    rfl
  | _ => exact congrArg (Except.map some) h

/-- Two readings go on alike from the same value. -/
theorem ok_of_same {x : Except Err α} {f : α → Except Err β} {f' : α → Except Err γ} {b : β} {c : γ}
    (h : (x >>= f) = .ok b) (hf : ∀ a, f a = .ok b → f' a = .ok c) : (x >>= f') = .ok c := by
  obtain ⟨a, rfl, ha⟩ := bind_ok_iff.mp h
  exact hf a ha

theorem ok_of_finite {value : Json} {f : Decimal → Except Err β} {f' : Number → Except Err γ} {b : β}
    {c : γ} (h : (value.toDecimal >>= f) = .ok b) (hf : ∀ d, f d = .ok b → f' (some d) = .ok c) :
    (toNumber value >>= f') = .ok c := by
  obtain ⟨d, hd, hfd⟩ := bind_ok_iff.mp h
  rw [toNumber_finite hd]
  exact hf d hfd

/-- A payment of finite numbers reads the same. -/
theorem readPayment_finite {reference : String} (h : LdbBackend.readPayment reference payload = .ok p) :
    readPayment reference payload = .ok (.of p) := by
  refine ok_of_same h fun data h => ok_of_same h fun transactionData h => ?_
  refine ok_of_same h fun customerData h => ?_
  refine ok_of_same h fun amountValue h => ok_of_finite h fun amount h => ?_
  refine ok_of_same h fun feeValue h => ok_of_finite h fun fee h => ?_
  refine ok_of_same h fun numberValue h => ok_of_same h fun aliasAccountNumber h => ?_
  refine ok_of_same h fun aliasAccountReference h => ok_of_same h fun nombaTransactionId h => ?_
  refine ok_of_same h fun merchantTxRef h => ok_of_same h fun senderName h => ?_
  refine ok_of_same h fun senderBank h => ok_of_same h fun narration h => ?_
  cases h
  rfl

theorem process_agrees (eventType : String) (h : LdbBackend.readPayment env.reference payload = .ok p) :
    Agrees .of (processPayment env requestId eventType payload)
      (LdbBackend.processPayment env requestId eventType payload) := by
  intro db
  unfold processPayment LdbBackend.processPayment
  rw [raising_bind (readPayment_finite h), h]
  exact settle_agrees eventType db

/-- A mark, and the answer after it. -/
theorem mark_agrees (requestId eventType : String) (response : Response) :
    Agrees id (plain (await (.processedCreate requestId eventType)) >>= fun _ => pure response)
      (await (.processedCreate requestId eventType) >>= fun _ => pure response) :=
  (Agrees.plain _).bind fun _ => .pure id response

/-- Deliveries of finite numbers, on states without NaN, are those of `Model/Webhooks`. -/
theorem receive_finite (h : LdbBackend.readPayment env.reference payload = .ok p) :
    Agrees id (receive env payload) (LdbBackend.receive env payload) := by
  refine Agrees.bind (.lift _) fun eventType => Agrees.bind (.lift _) fun requestId => ?_
  refine .ite (.raise id _) (Agrees.bind (.plain _) fun processed => ?_)
  refine .ite (.pure id _) (.ite (mark_agrees _ _ _) (Agrees.bind (.lift _) fun transferType => ?_))
  refine .ite (mark_agrees _ _ _) ((process_agrees eventType.text h).bind fun result => ?_)
  rw [response_of]
  exact mark_agrees _ _ _

end Finite

end NotANumber

end LdbBackend
