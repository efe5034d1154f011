import LdbBackend.Payments.Books

/-!
# Redelivery after an interrupted delivery

A delivery that completes reads, inserts the transaction, makes two or three more writes, and marks
the request last (`ops_receive_settled`). Stopped before the insert it has changed nothing, so a
redelivery does the whole work. Stopped after the insert it leaves a transaction under a request id
that is not marked (`HalfDone`): every redelivery then fails on the unique request id and changes
nothing, so the half-done state stays.
-/

namespace LdbBackend

open Fixed Effects Table

/-- Surroundings in which nothing fails: posts return and the generated reference fits. -/
structure Surroundings.Benign (env : Surroundings) : Prop where
  answered : ∀ r e, env.post r ≠ .raised e
  reference : env.reference.length ≤ 200

theorem quiet_benign : quiet.Benign := ⟨fun _ _ => by simp [quiet], by decide⟩

/-! ## The same payment in other surroundings -/

theorem deliver_answered {post : WebhookRegistration → PostOutcome} (h : ∀ r e, post r ≠ .raised e)
    (body : OutboundPayload) (rs : List WebhookRegistration) (db : Tables) :
    (Prog.run exec (deliver post body rs) db).1 = .ok () := by
  induction rs with
  | nil => rfl
  | cons r rs ih =>
    unfold deliver
    by_cases hr : outboundEventPaymentReceived ∉ r.events
    · rw [if_pos hr]
      exact ih
    · rw [if_neg hr, Prog.op_bind,
        Prog.run_perform_ok exec (show exec (.post r.url r.secret body) db = .ok ((), db) from rfl)]
      cases hp : post r with
      | response s => exact ih
      | httpError => exact ih
      | raised e => exact absurd hp (h r e)

section Again

variable {env env' : Surroundings} {requestId payload : Json} {p : Payment} {db : Tables}

theorem emission_benign (h : env.Benign) (account : DedicatedAccount) (row : Customer Cents)
    (t : Transaction) : emission env p db account row t = .ok () := by
  unfold emission emitPaymentReceived
  simp only [Prog.op_bind]
  rw [Prog.run_perform_ok exec (show exec (.emitPaymentReceived t) db = .ok ((), db) from rfl),
    Prog.run_perform_ok exec (show exec (.registrationsActive row.merchantId) db = .ok
      (db.webhookRegistrations.filter (fun r => r.merchantId = row.merchantId ∧ r.active), db) from rfl)]
  split_ifs
  · rfl
  · exact deliver_answered h.answered _ _ _

/-- What the payload brings is read. -/
theorem brings_of_kind (hk : kindOf payload = .payment requestId p) (h : payload.bringsReference = true) :
    p.merchantTxRef.truthy = true := by
  have hread := readPayment_of_kind hk
  simp only [readPayment, bind_ok_iff, pure_ok_iff] at hread
  obtain ⟨data, hdata, transactionData, htransaction, _, -, _, -, _, -, _, -, _, -, _, -, _, -, _, -, _, -,
    reference, hreference, _, -, _, -, _, -, rfl⟩ := hread
  unfold Json.bringsReference at h
  simp only [hdata, htransaction, hreference, bind, Except.bind] at h
  show (reference.orElse (.str "")).truthy = true
  rwa [Json.orElse, if_pos h]

/-- The row of a payment under another generated reference, status and clock. -/
theorem row_again {account : Option DedicatedAccount} {status : TransactionStatus} {t : Transaction}
    {reference reference' : String} {clock : Nat}
    (h : ((p.withReference reference).newTransaction requestId payload account status).row clock =
      .ok t) (hbrings : payload.bringsReference = true → p.merchantTxRef.truthy = true)
    (hlength : reference'.length ≤ 200) (status' : TransactionStatus) (clock' : Nat) :
    ∃ t', ((p.withReference reference').newTransaction requestId payload account status').row clock' =
        .ok t' ∧ t'.nombaRequestId = t.nombaRequestId ∧
      t'.dedicatedAccountId = t.dedicatedAccountId ∧ (status' = status → t'.content = t.content) := by
  simp only [NewTransaction.row, bind_ok_iff, charField_ok_iff, pure_ok_iff] at h
  obtain ⟨r, ⟨hr, rfl⟩, i, hi, m, hm, a, ha, f, hf, s, hs, b, hb, n, hn, ht⟩ := h
  have href : ∃ m', nullableCharField 200 (p.merchantTxRef.orElse (.str reference')) = .ok m' ∧
      (p.merchantTxRef.truthy = true → m' = m) := by
    by_cases htruthy : p.merchantTxRef.truthy = true
    · have hsame : ∀ s, p.merchantTxRef.orElse (.str s) = p.merchantTxRef := fun s => by
        rw [Json.orElse, if_pos htruthy]
      refine ⟨m, ?_, fun _ => rfl⟩
      rw [hsame, ← hsame reference]
      exact hm
    · refine ⟨some reference', ?_, fun h => absurd h htruthy⟩
      rw [Json.orElse, if_neg htruthy]
      simp [nullableCharField, charField, hlength, Except.map]
  obtain ⟨m', hm', hsame⟩ := href
  refine ⟨{ t with id := clock', merchantTxRef := m', status := status', createdAt := clock' }, ?_,
    rfl, rfl, ?_⟩
  · subst ht
    simp only [NewTransaction.row, bind_ok_iff, charField_ok_iff, pure_ok_iff]
    exact ⟨_, ⟨hr, rfl⟩, i, hi, m', hm', a, ha, f, hf, s, hs, b, hb, n, hn, rfl⟩
  · rintro rfl
    subst ht
    unfold Transaction.content
    by_cases hb : payload.bringsReference = true
    · simp [hb, hsame (hbrings hb), Payment.newTransaction]
    · simp [hb, Payment.newTransaction]

/-- A payment that could be inserted under one generated reference can be under another. -/
theorem insert_again {account : Option DedicatedAccount} {status : TransactionStatus}
    {t : Transaction} {db₁ : Tables} {reference reference' : String}
    (h : db.createTransaction
      ((p.withReference reference).newTransaction requestId payload account status) = .ok (t, db₁))
    (hbrings : payload.bringsReference = true → p.merchantTxRef.truthy = true)
    (hlength : reference'.length ≤ 200) (status' : TransactionStatus) :
    ∃ t', (status' = status → t.Alike t') ∧ db.createTransaction
      ((p.withReference reference').newTransaction requestId payload account status') =
        .ok (t', { db with transactions := db.transactions ++ [t'], clock := db.clock + 1 }) := by
  obtain ⟨hrow, hnew, hfk, -⟩ := createTransaction_ok_iff.mp h
  obtain ⟨t', hrow', hrequest, haccount, hcontent⟩ := row_again hrow hbrings hlength status' db.clock
  refine ⟨t', fun hstatus => ⟨?_, hcontent hstatus⟩, createTransaction_ok_iff.mpr ⟨hrow', ?_, ?_, rfl⟩⟩
  · rw [(NewTransaction.row_ok hrow').id, (NewTransaction.row_ok hrow).id]
  · rw [hrequest]; exact hnew
  · rw [haccount]; exact hfk

/-- Where a payment settles, it settles in benign surroundings, with the same books. -/
theorem settles_again (h : db.Constraints)
    (hbrings : payload.bringsReference = true → p.merchantTxRef.truthy = true) {result : PaymentResult} {db₂ : Tables}
    {evs : List (Event Op Res)}
    (hs : Settles env requestId payload (p.withReference env.reference) db ⟨.ok result, db₂, evs⟩)
    (hb : env'.Benign) {o : Outcome Op Res Err PaymentResult Tables}
    (ho : Settles env' requestId payload (p.withReference env'.reference) db o) (key : String) :
    (∃ result', o.result = .ok result') ∧ (o.state.marked key).books = (db₂.marked key).books := by
  cases hs with
  | @held account reason t db₁ hold insert =>
    obtain ⟨-, -, -, hdb₁⟩ := createTransaction_ok_iff.mp insert
    cases ho with
    | @refused status e insert' =>
      obtain ⟨t', -, ht'⟩ := insert_again insert hbrings hb.reference status
      have hroute : account = (p.withReference env'.reference).route db := by
        cases hold with
        | unmatched route => exact route.symm
        | inactive route _ => exact route.symm
      rw [← hroute, ht'] at insert'
      cases insert'
    | @held account' reason' t' db₁' hold' insert' =>
      obtain ⟨rfl, rfl⟩ := hold.unique hold' rfl
      obtain ⟨u, halike, hu⟩ := insert_again insert hbrings hb.reference .misdirected
      rw [hu] at insert'
      cases insert'
      have ha := halike rfl
      refine ⟨⟨_, rfl⟩, ?_⟩
      subst hdb₁
      refine books_alike ha rfl ?_
      simp [Tables.quarantined, Tables.marked, ha.id, ha.amount]
    | unsaved credit wallet_error => exact (hold.not_credits credit.toCredits rfl).elim
    | unlogged credit wallet_ok target_error => exact (hold.not_credits credit.toCredits rfl).elim
    | undelivered credit wallet_ok target_ok emit => exact (hold.not_credits credit.toCredits rfl).elim
    | credited credit wallet_ok target_ok emit => exact (hold.not_credits credit.toCredits rfl).elim
  | @credited account row t db₁ wallet expected credit wallet_ok target_ok emit =>
    obtain ⟨-, -, -, hdb₁⟩ := createTransaction_ok_iff.mp credit.insert
    cases ho with
    | @refused status e insert' =>
      obtain ⟨t', -, ht'⟩ := insert_again credit.insert hbrings hb.reference status
      have hroute : some account = (p.withReference env'.reference).route db := credit.route.symm
      rw [← hroute, ht'] at insert'
      cases insert'
    | held hold insert' => exact (hold.not_credits credit.toCredits rfl).elim
    | unsaved credit' wallet_error =>
      obtain ⟨rfl, rfl⟩ := credit.toCredits.unique h credit'.toCredits rfl
      have hw : numericColumn ((p.withReference env.reference).walletAfter row) = _ := wallet_error
      rw [wallet_ok] at hw
      cases hw
    | unlogged credit' wallet_ok' target_error =>
      obtain ⟨rfl, rfl⟩ := credit.toCredits.unique h credit'.toCredits rfl
      rw [target_ok] at target_error
      cases target_error
    | undelivered credit' wallet_ok' target_ok' emit' =>
      rw [emission_benign hb] at emit'
      cases emit'
    | @credited account' row' t' db₁' wallet' expected' credit' wallet_ok' target_ok' emit' =>
      obtain ⟨rfl, rfl⟩ := credit.toCredits.unique h credit'.toCredits rfl
      obtain ⟨u, halike, hu⟩ := insert_again credit.insert hbrings hb.reference (p.creditStatus row)
      have hinsert' := credit'.insert
      have hstatus : (p.withReference env'.reference).creditStatus row = p.creditStatus row := rfl
      rw [hstatus, hu] at hinsert'
      cases hinsert'
      have ha := halike rfl
      have hw : numericColumn ((p.withReference env.reference).walletAfter row) = .ok wallet' :=
        wallet_ok'
      rw [wallet_ok] at hw
      cases hw
      rw [target_ok] at target_ok'
      cases target_ok'
      refine ⟨⟨_, rfl⟩, ?_⟩
      subst hdb₁
      refine books_alike ha rfl ?_
      simp [Tables.credited, Tables.logged, Tables.marked, Payment.creditLogRow, creditLog, ha.id,
        ha.amount, Payment.creditStatus, Payment.walletAfter, Payment.withReference]

end Again

/-! ## The statements of a delivery that completes -/

/-- Statements that remove no transaction and mark no request. -/
def Op.keepsRecord : Op → Bool
  | .customerDelete _ | .processedCreate _ _ => false
  | _ => true

theorem keepsRecord_of_query {o : Op} (h : o.isQuery = true) : o.keepsRecord = true := by
  cases o <;> first | rfl | cases h

theorem exec_keepsRecord {o : Op} {db db' : Tables} {r : Res o} (ho : o.keepsRecord = true)
    (h : exec o db = .ok (r, db')) :
    (∀ t ∈ db.transactions, t ∈ db'.transactions) ∧
      db'.processedWebhookEvents = db.processedWebhookEvents := by
  cases hq : o.isQuery with
  | true => rw [exec_query hq h]; exact ⟨fun t ht => ht, rfl⟩
  | false =>
    cases o with
    | customerCreate new =>
      obtain ⟨row, -, -, -, rfl⟩ := createCustomer_ok_iff.mp h
      exact ⟨fun t ht => ht, rfl⟩
    | customerSave c =>
      obtain ⟨_, _, -, -, -, rfl⟩ := saveCustomer_ok_iff.mp (written_ok_iff.mp h)
      exact ⟨fun t ht => ht, rfl⟩
    | accountCreate new =>
      obtain ⟨-, -, -, rfl⟩ := createAccount_ok_iff.mp h
      exact ⟨fun t ht => ht, rfl⟩
    | accountSave a =>
      obtain ⟨-, rfl⟩ := saveAccount_ok_iff.mp (written_ok_iff.mp h)
      exact ⟨fun t ht => ht, rfl⟩
    | transactionCreate new =>
      obtain ⟨-, -, -, rfl⟩ := createTransaction_ok_iff.mp h
      exact ⟨fun t ht => List.mem_append_left _ ht, rfl⟩
    | suspenseLogCreate t reason d =>
      obtain ⟨_, -, -, rfl⟩ := createSuspenseLog_ok_iff.mp (written_ok_iff.mp h)
      exact ⟨fun t ht => ht, rfl⟩
    | reconciliationLogCreate new =>
      obtain ⟨_, -, -, rfl⟩ := createReconciliationLog_ok_iff.mp (written_ok_iff.mp h)
      exact ⟨fun t ht => ht, rfl⟩
    | registrationCreate m url secret events =>
      rw [createRegistration_ok h]
      exact ⟨fun t ht => ht, rfl⟩
    | customerDelete _ | processedCreate _ _ => cases ho
    | customerByExternalId _ _ | customerById _ _ | accountByNumber _ | accountByRef _
    | accountFirstByRef _ | accountFirstByCustomer _ | accountFetchCustomer _
    | transactionByNombaId _ | transactionByMerchantTxRef _ | processedExists _
    | registrationsActive _ | emitPaymentReceived _ | post _ _ _ | nombaCreateAccount _ _
    | nombaUpdateAccountName _ _ | nombaListTransactions => cases hq

section Statements

variable {env : Surroundings} {requestId payload : Json} {p : Payment} {db : Tables}

/-- The insert comes first among the writes of a payment that settles. -/
theorem Settles.insert_first {result : PaymentResult} {db₂ : Tables} {evs : List (Event Op Res)}
    (h : Settles env requestId payload p db ⟨.ok result, db₂, evs⟩) :
    ∃ new t rest, evs = ⟨.transactionCreate new, t⟩ :: rest ∧ new.nombaRequestId = requestId ∧
      ∀ ev ∈ rest, ev.1.keepsRecord = true ∧ ∀ new', ev.1 ≠ .transactionCreate new' := by
  cases h with
  | held hold insert =>
    refine ⟨_, _, _, rfl, rfl, ?_⟩
    intro ev hev
    rcases List.mem_cons.mp hev with rfl | hev
    · exact ⟨rfl, fun _ => by simp⟩
    · rw [List.mem_singleton.mp hev]
      exact ⟨rfl, fun _ => by simp⟩
  | credited credit wallet_ok target_ok emit =>
    refine ⟨_, _, _, rfl, rfl, ?_⟩
    intro ev hev
    rcases List.mem_cons.mp hev with rfl | hev
    · exact ⟨rfl, fun _ => by simp⟩
    · rw [List.mem_singleton.mp hev]
      exact ⟨rfl, fun _ => by simp⟩

/-- The statements of a completed payment: the check of the ledger, those of the settlement, and the
mark at the end. -/
theorem ops_receive_settled (h : db.Constraints) (hk : kindOf payload = .payment requestId p)
    (hd : db.processed requestId.text = false) {response : Response}
    (hrun : (Prog.run exec (receive env payload) db).1 = .ok response) :
    ∃ result db₂ S, Settles env requestId payload (p.withReference env.reference) db
        ⟨.ok result, db₂, S.filter (·.1.isWrite)⟩ ∧
      Prog.ops exec (receive env payload) db =
        (⟨.processedExists requestId.text, false⟩ :: S) ++
          [⟨.processedCreate requestId.text nombaPaymentSuccessEvent, ()⟩] ∧
      (Prog.run exec (receive env payload) db).2 = db₂.marked requestId.text := by
  have hs : Settles env requestId payload (p.withReference env.reference) db _ := settles h
  have he : exec (.processedExists requestId.text) db = .ok (false, db) := by rw [← hd]; rfl
  rw [receive_eq, hk] at hrun ⊢
  unfold Kind.handle guarded at hrun ⊢
  simp only [Prog.op_bind] at hrun ⊢
  rw [Prog.run_perform_ok exec he] at hrun ⊢
  rw [Prog.ops_perform_ok exec he]
  simp only [Bool.false_eq_true, if_false] at hrun ⊢
  unfold outcomeOf Prog.outcome at hs
  cases hr : Prog.run exec (settlePayment env requestId nombaPaymentSuccessEvent payload
      (p.withReference env.reference)) db with
  | mk r db₂ =>
    rw [hr] at hs
    cases r with
    | error e => rw [Prog.run_bind_error exec hr] at hrun; cases hrun
    | ok result =>
      have hfresh : db₂.processed requestId.text = false := by
        rw [← hd, Tables.processed, hs.processed]
        rfl
      have hmark := exec_mark hfresh hs.request_length
      refine ⟨result, db₂, _, hs, ?_, ?_⟩
      · rw [Prog.ops_bind, hr]
        simp only [markProcessed, Prog.op_bind, Prog.ops_perform_ok exec hmark, Prog.pure_eq,
          Prog.ops_pure, List.cons_append]
      · rw [Prog.run_bind_ok exec hr]
        simp only [markProcessed, Prog.op_bind, Prog.run_perform_ok exec hmark, Prog.pure_eq,
          Prog.run_pure]

end Statements

/-! ## The half-done state -/

/-- The request has its transaction and is not marked. -/
def Tables.HalfDone (db : Tables) (key : String) : Prop :=
  db.processed key = false ∧ ∃ t ∈ db.transactions, t.nombaRequestId = key

section HalfDone

variable {env : Surroundings} {requestId payload : Json} {p : Payment} {db : Tables}

/-- A second insert under the request id is refused, and nothing else has been written by then. -/
theorem Settles.halfDone (hhalf : db.HalfDone requestId.text)
    {o : Outcome Op Res Err PaymentResult Tables} (h : Settles env requestId payload p db o) :
    ∃ e, o = ⟨.error e, db, []⟩ := by
  obtain ⟨-, u, hu, hrequest⟩ := hhalf
  have hno : ∀ {account : Option DedicatedAccount} {status : TransactionStatus} {t : Transaction}
      {db₁ : Tables},
      db.createTransaction (p.newTransaction requestId payload account status) ≠ .ok (t, db₁) := by
    intro account status t db₁ he
    obtain ⟨hrow, hnew, -, -⟩ := createTransaction_ok_iff.mp he
    have ht : t.nombaRequestId = requestId.text := (NewTransaction.row_ok hrow).request
    exact hnew u hu (hrequest.trans ht.symm)
  cases h with
  | refused insert => exact ⟨_, rfl⟩
  | held hold insert => exact absurd insert hno
  | unsaved credit wallet_error => exact absurd credit.insert hno
  | unlogged credit wallet_ok target_error => exact absurd credit.insert hno
  | undelivered credit wallet_ok target_ok emit => exact absurd credit.insert hno
  | credited credit wallet_ok target_ok emit => exact absurd credit.insert hno

theorem receive_halfDone (h : db.Constraints) (hk : kindOf payload = .payment requestId p)
    (hhalf : db.HalfDone requestId.text) :
    ∃ e, Prog.run exec (receive env payload) db = (.error e, db) := by
  have hdel : Delivers env payload db _ := delivers h
  have hout : ∃ e, outcomeOf (receive env payload) db = ⟨.error e, db, []⟩ := by
    generalize outcomeOf (receive env payload) db = o at hdel
    cases hdel with
    | malformed kind => exact ⟨_, rfl⟩
    | broken kind fresh => exact ⟨_, rfl⟩
    | unmarked kind fresh mark => exact ⟨_, rfl⟩
    | duplicate kind done =>
      rw [hk] at kind
      cases kind
      rw [hhalf.1] at done
      cases done
    | ignored kind fresh mark => rw [hk] at kind; cases kind
    | failed kind fresh settle =>
      rw [hk] at kind
      cases kind
      obtain ⟨e', he⟩ := settle.halfDone hhalf
      cases he
      exact ⟨_, rfl⟩
    | settled kind fresh settle =>
      rw [hk] at kind
      cases kind
      obtain ⟨e, he⟩ := settle.halfDone hhalf
      cases he
  obtain ⟨e, he⟩ := hout
  exact ⟨e, Prod.ext (congrArg Outcome.result he) (congrArg Outcome.state he)⟩

/-- Deliveries of one payload, one after another. -/
def redeliver (payload : Json) (db : Tables) (envs : List Surroundings) : Tables :=
  envs.foldl (fun db env => (Prog.run exec (receive env payload) db).2) db

theorem redeliver_halfDone (h : db.Constraints) (hk : kindOf payload = .payment requestId p)
    (hhalf : db.HalfDone requestId.text) (envs : List Surroundings) :
    redeliver payload db envs = db := by
  induction envs with
  | nil => rfl
  | cons env envs ih =>
    obtain ⟨e, he⟩ : ∃ e, Prog.run exec (receive env payload) db = (.error e, db) :=
      receive_halfDone h hk hhalf
    rw [redeliver, List.foldl_cons, he]
    exact ih

end HalfDone

/-! ## Interruption -/

/-- In benign surroundings, some redelivery succeeds and leaves the wanted books. -/
def Repaired (payload : Json) (db : Tables) (goal : Books) : Prop :=
  ∀ envs : Nat → Surroundings, (∀ i, (envs i).Benign) → ∃ n response db',
    Prog.run exec (receive (envs n) payload) (redeliver payload db ((List.range n).map envs)) =
      (.ok response, db') ∧ db'.books = goal

/-- Before the first element that satisfies `q` there is none. -/
theorem first_of_filter {β : Type} {q : β → Bool} {xs : List β} {x : β} {rest : List β} {k : Nat}
    (h : xs.filter q = x :: rest) (hx : x ∉ xs.take k) : ∀ y ∈ xs.take k, q y = false := by
  intro y hy
  by_contra hq
  have hpre : (xs.take k).filter q <+: x :: rest := h ▸ (List.take_prefix k xs).filter q
  have hmem : y ∈ (xs.take k).filter q := List.mem_filter.mpr ⟨hy, by simpa using hq⟩
  cases hf : (xs.take k).filter q with
  | nil => rw [hf] at hmem; cases hmem
  | cons z zs =>
    rw [hf, List.cons_prefix_cons] at hpre
    have hz : z ∈ (xs.take k).filter q := by rw [hf]; exact List.mem_cons_self
    rw [hpre.1] at hz
    exact hx (List.mem_filter.mp hz).1

section Interrupted

variable {env : Surroundings} {requestId payload : Json} {p : Payment} {db : Tables}
  {response : Response} {e : Err} {k : Nat}

/-- The state in which an interrupted delivery leaves the tables. -/
def interrupted (e : Err) (k : Nat) (env : Surroundings) (payload : Json) (db : Tables) : Tables :=
  (Prog.run exec (Prog.cut e k (receive env payload)) db).2

/-- Whether the transaction was inserted before statement number `k`. -/
def InsertedBefore (k : Nat) (env : Surroundings) (payload : Json) (db : Tables) : Prop :=
  ∃ ev ∈ (Prog.ops exec (receive env payload) db).take k, ∃ new, ev.1 = .transactionCreate new

theorem take_before_last {l l' : List (Event Op Res)} {last : Event Op Res} (h : l = l' ++ [last])
    (hlt : k < l.length) : l.take k = l'.take k := by
  rw [h] at hlt ⊢
  refine List.take_append_of_le_length ?_
  rw [List.length_append, List.length_singleton] at hlt
  omega

/-- Stopped before the insert, a delivery has changed nothing. -/
theorem interrupted_before (h : db.Constraints) (hk : kindOf payload = .payment requestId p)
    (hd : db.processed requestId.text = false)
    (hrun : (Prog.run exec (receive env payload) db).1 = .ok response)
    (hlt : k < (Prog.ops exec (receive env payload) db).length)
    (hins : ¬ InsertedBefore k env payload db) : interrupted e k env payload db = db := by
  obtain ⟨result, db₂, S, hs, hops, -⟩ := ops_receive_settled h hk hd hrun
  obtain ⟨new, t, rest, hfirst, -, -⟩ := hs.insert_first
  set g : Event Op Res := ⟨.processedExists requestId.text, false⟩
  have htake : (Prog.ops exec (receive env payload) db).take k = (g :: S).take k := take_before_last hops hlt
  have hfilter : (g :: S).filter (·.1.isWrite) = ⟨.transactionCreate new, t⟩ :: rest := by
    rw [List.filter_cons_of_neg (by simp [g, Op.isQuery]), hfirst]
  refine Prog.run_ops_keep (fun _ _ _ _ => exec_unwritten) db fun ev hev => ?_
  rw [Prog.ops_cut, htake] at hev
  refine first_of_filter hfilter (fun hmem => hins ?_) ev hev
  rw [InsertedBefore, htake]
  exact ⟨_, hmem, new, rfl⟩

/-- Stopped after the insert, a delivery leaves the half-done state. -/
theorem interrupted_after (h : db.Constraints) (hk : kindOf payload = .payment requestId p)
    (hd : db.processed requestId.text = false)
    (hrun : (Prog.run exec (receive env payload) db).1 = .ok response)
    (hlt : k < (Prog.ops exec (receive env payload) db).length)
    (hins : InsertedBefore k env payload db) :
    (interrupted e k env payload db).HalfDone requestId.text := by
  obtain ⟨result, db₂, S, hs, hops, -⟩ := ops_receive_settled h hk hd hrun
  obtain ⟨new, t, rest, hfirst, hrequest, hrest⟩ := hs.insert_first
  set g : Event Op Res := ⟨.processedExists requestId.text, false⟩
  have htake : (Prog.ops exec (receive env payload) db).take k = (g :: S).take k := take_before_last hops hlt
  have hevents : ∀ ev ∈ (g :: S).take k, ev.1.isQuery = true ∨
      ev = ⟨.transactionCreate new, t⟩ ∨ ev ∈ rest := by
    intro ev hev
    rcases List.mem_cons.mp (List.mem_of_mem_take hev) with rfl | hS
    · exact .inl rfl
    · cases hq : ev.1.isQuery with
      | true => exact .inl rfl
      | false =>
        have hmem : ev ∈ S.filter (·.1.isWrite) := List.mem_filter.mpr ⟨hS, by simp [hq]⟩
        rw [hfirst] at hmem
        exact .inr (List.mem_cons.mp hmem)
  have hkeep : ∀ ev ∈ Prog.ops exec (Prog.cut e k (receive env payload)) db,
      ev.1.keepsRecord = true := by
    intro ev hev
    rw [Prog.ops_cut, htake] at hev
    rcases hevents ev hev with hq | rfl | hr
    · exact keepsRecord_of_query hq
    · rfl
    · exact (hrest ev hr).1
  constructor
  · refine Prog.run_ops_invariant (fun o : Op => o.keepsRecord = true)
      (fun s => s.processed requestId.text = false) (fun o s r s' ho hI hexec => ?_) db hkeep hd
    rw [← hI, Tables.processed, (exec_keepsRecord ho hexec).2]
    rfl
  · obtain ⟨ev, hev, new', hnew'⟩ := hins
    rw [htake] at hev
    obtain rfl : ev = ⟨.transactionCreate new, t⟩ := by
      rcases hevents ev hev with hq | heq | hr
      · rw [hnew'] at hq
        cases hq
      · exact heq
      · exact absurd hnew' ((hrest ev hr).2 new')
    have hmem : (⟨.transactionCreate new, t⟩ : Event Op Res) ∈
        Prog.ops exec (Prog.cut e k (receive env payload)) db := by
      rw [Prog.ops_cut, htake]
      exact hev
    refine Prog.run_ops_establish (fun o : Op => o.keepsRecord = true)
      (fun s => ∃ u ∈ s.transactions, u.nombaRequestId = requestId.text) (fun s s' hexec => ?_)
      (fun o s r s' ho hI hexec => ?_) db hkeep hmem
    · obtain ⟨hrow, -, -, rfl⟩ := createTransaction_ok_iff.mp hexec
      exact ⟨t, List.mem_append_right _ (List.mem_singleton_self t),
        by rw [(NewTransaction.row_ok hrow).request, hrequest]⟩
    · obtain ⟨u, hu, hur⟩ := hI
      exact ⟨u, (exec_keepsRecord ho hexec).1 u hu, hur⟩

/-- In benign surroundings the payment settles again, from the same state, with the same books. -/
theorem receive_again (h : db.Constraints) (hk : kindOf payload = .payment requestId p)
    (hd : db.processed requestId.text = false)
    (hrun : (Prog.run exec (receive env payload) db).1 = .ok response) {env' : Surroundings}
    (hb : env'.Benign) : ∃ response' db', Prog.run exec (receive env' payload) db =
      (.ok response', db') ∧ db'.books = (Prog.run exec (receive env payload) db).2.books := by
  obtain ⟨result, db₂, S, hs, -, hstate⟩ := ops_receive_settled h hk hd hrun
  have hdel : Delivers env' payload db _ := delivers h
  have hout : ∃ response' db' evs, outcomeOf (receive env' payload) db = ⟨.ok response', db', evs⟩ ∧
      db'.books = (db₂.marked requestId.text).books := by
    generalize outcomeOf (receive env' payload) db = o at hdel
    cases hdel with
    | malformed kind => rw [hk] at kind; cases kind
    | broken kind fresh => rw [hk] at kind; cases kind
    | unmarked kind fresh mark => rw [hk] at kind; cases kind
    | ignored kind fresh mark => rw [hk] at kind; cases kind
    | duplicate kind done =>
      rw [hk] at kind
      cases kind
      rw [hd] at done
      cases done
    | failed kind fresh settle =>
      rw [hk] at kind
      cases kind
      obtain ⟨⟨result', hresult⟩, -⟩ := settles_again h (brings_of_kind hk) hs hb settle requestId.text
      cases hresult
    | settled kind fresh settle =>
      rw [hk] at kind
      cases kind
      exact ⟨_, _, _, rfl, (settles_again h (brings_of_kind hk) hs hb settle requestId.text).2⟩
  obtain ⟨response', db', evs, ho, hbooks⟩ := hout
  refine ⟨response', db', Prod.ext (congrArg Outcome.result ho) (congrArg Outcome.state ho), ?_⟩
  rw [hbooks, hstate]

end Interrupted

/-- For every state and every payment whose uninterrupted delivery succeeds there: stopped by an
exception in place of any of its statements, it is repaired by redelivery exactly when it was stopped
before the transaction was inserted. -/
theorem redelivery_repairs_iff (db : Database) (env : Surroundings) (payload requestId : Json)
    (p : Payment) (response : Response) (e : Err) (k : Nat)
    (hkind : kindOf payload = .payment requestId p)
    (hfresh : db.tables.processed requestId.text = false)
    (hrun : (Prog.run exec (receive env payload) db.tables).1 = .ok response)
    (hcut : k < (Prog.ops exec (receive env payload) db.tables).length) :
    Repaired payload (interrupted e k env payload db.tables)
        (db.after (receive env payload)).tables.books ↔
      ¬ InsertedBefore k env payload db.tables := by
  have h := db.constraints
  constructor
  · intro hrepaired hins
    have hhalf : (interrupted e k env payload db.tables).HalfDone requestId.text :=
      interrupted_after h hkind hfresh hrun hcut hins
    have hc : (interrupted e k env payload db.tables).Constraints := run_constraints _ h
    obtain ⟨n, response', db', hagain, -⟩ := hrepaired (fun _ => quiet)
      fun _ => quiet_benign
    rw [redeliver_halfDone hc hkind hhalf] at hagain
    obtain ⟨e', he'⟩ : ∃ e', Prog.run exec (receive quiet payload)
        (interrupted e k env payload db.tables) = (.error e', _) := receive_halfDone hc hkind hhalf
    rw [he'] at hagain
    cases hagain
  · intro hins envs hbenign
    rw [interrupted_before h hkind hfresh hrun hcut hins]
    obtain ⟨response', db', hagain, hbooks⟩ := receive_again h hkind hfresh hrun (hbenign 0)
    exact ⟨0, response', db', hagain, hbooks⟩

theorem redelivery_repairs_before_insert :
    Repaired (samplePayment "R1" "9901" 5)
      (interrupted .cancelled 3 quiet (samplePayment "R1" "9901" 5) (provisioned none).tables)
      ((provisioned none).after (receive quiet (samplePayment "R1" "9901" 5))).tables.books := by
  refine (redelivery_repairs_iff (provisioned none) quiet (samplePayment "R1" "9901" 5) (.str "R1") _ _
    .cancelled 3 rfl rfl rfl (by decide)).mpr ?_
  rintro ⟨ev, hev, new, hnew⟩
  have hreads : ∀ ev ∈ (Prog.ops exec (receive quiet (samplePayment "R1" "9901" 5))
      (provisioned none).tables).take 3, ev.1.isQuery = true := by decide
  have hq := hreads ev hev
  rw [hnew] at hq
  cases hq

/-- A delivery stopped in place of the wallet save is never repaired. -/
theorem redelivery_after_insert_fails :
    ¬ ∀ (db : Database) (env : Surroundings) (payload requestId : Json) (p : Payment)
      (response : Response) (e : Err) (k : Nat), kindOf payload = .payment requestId p →
      db.tables.processed requestId.text = false →
      (Prog.run exec (receive env payload) db.tables).1 = .ok response →
      k < (Prog.ops exec (receive env payload) db.tables).length →
      Repaired payload (interrupted e k env payload db.tables)
        (db.after (receive env payload)).tables.books := by
  intro hclaim
  have hrepaired := hclaim (provisioned none) quiet (samplePayment "R1" "9901" 5) (.str "R1") _ _
    .cancelled 4 rfl rfl rfl (by decide)
  set payload := samplePayment "R1" "9901" 5
  set stopped := interrupted .cancelled 4 quiet payload (provisioned none).tables
  have hkind : ∃ p, kindOf payload = .payment (.str "R1") p := ⟨_, rfl⟩
  have hhalf : stopped.HalfDone "R1" := by constructor <;> decide
  have hc : stopped.Constraints := run_constraints _ (provisioned none).constraints
  obtain ⟨p, hk⟩ := hkind
  obtain ⟨n, response, db', hagain, -⟩ := hrepaired (fun _ => quiet)
    fun _ => quiet_benign
  rw [redeliver_halfDone hc hk hhalf] at hagain
  obtain ⟨e, he⟩ : ∃ e, Prog.run exec (receive quiet payload) stopped = (.error e, stopped) :=
    receive_halfDone hc hk hhalf
  rw [he] at hagain
  cases hagain

end LdbBackend
