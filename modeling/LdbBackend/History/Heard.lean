import LdbBackend.Delivery.Outbound
import LdbBackend.History.Identity

/-!
# What the endpoints hear of a delivery

`Hears` lists what a delivery POSTs beside what it does to the customers: nothing while no wallet was
saved, nothing when it stops between the wallet and the announcement, and else the announcement of the
credit, to the endpoints that `emit_payment_received` comes to. `heard_receive` shows the list is
complete.
-/

namespace LdbBackend

open Fixed Effects Table

/-- The outcome of a handler run alone, with its POSTs. -/
abbrev postsOf {α : Type} (p : Handler α) (db : Tables) : Outcome Op Res Err α Tables :=
  Prog.outcome exec Op.isPost p db

/-- The handler POSTs nothing to a merchant. -/
abbrev Mute {α : Type} (p : Handler α) : Prop := p.All (·.isPost = false)

/-- The payment was inserted as `t`, and `wallet` saved for its customer. -/
structure Saves (requestId payload : Json) (p : Payment) (db : Tables) (account : DedicatedAccount)
    (row : Customer Cents) (t : Transaction) (wallet : Cents) (db' : Tables) : Prop where
  credit : ∃ db₁, Inserts requestId payload p db account row t db₁
  balance : numericColumn (p.walletAfter row) = .ok wallet
  customers : ∃ time, db'.customers =
    setRow (·.id) { row with walletBalance := wallet, updatedAt := time } db.customers
  transactions : db'.transactions = db.transactions ++ [t]

section Hears

variable {α : Type} (env : Surroundings) (requestId payload : Json) (p : Payment) (db : Tables)

/-- The POSTs of an announcement. -/
def announcement (account : DedicatedAccount) (row : Customer Cents) (t : Transaction) : List (Event Op Res) :=
  (attempted env.post (db.subscribed row.merchantId)).map
    (posted (outboundPayload (p.creditedOwner row) account t))

inductive Hears : Outcome Op Res Err α Tables → Prop
  | silent {result : Except Err α} {db' : Tables} (customers : db'.customers = db.customers) :
      Hears ⟨result, db', []⟩
  | muted {account : DedicatedAccount} {row : Customer Cents} {t : Transaction} {db' : Tables} {wallet : Cents}
      {e : Err} (saves : Saves requestId payload p db account row t wallet db') : Hears ⟨.error e, db', []⟩
  | announced {account : DedicatedAccount} {row : Customer Cents} {t : Transaction} {db' : Tables}
      {wallet : Cents} {result : Except Err α} (saves : Saves requestId payload p db account row t wallet db')
      (complete : ∀ a, result = .ok a → ending env.post (db.subscribed row.merchantId) = .ok ()) :
      Hears ⟨result, db', announcement env p db account row t⟩

end Hears

section Heard

variable {α β : Type} {env : Surroundings} {requestId payload : Json} {p : Payment} {db db' : Tables}

theorem posts_skip {o : Op} {k : Res o → Handler α} {r : Res o}
    (h : exec o db = .ok (r, db')) (ho : o.isPost = false) : postsOf (.perform o k) db = postsOf (k r) db' :=
  Prog.outcome_hidden h ho

theorem posts_refused {o : Op} {k : Res o → Handler α} {e : Err} (h : exec o db = .error e) :
    postsOf (.perform o k) db = ⟨.error e, db, []⟩ :=
  Prog.outcome_error h

theorem posts_then {q : Handler α} {f : α → Handler β} {a : α} {evs : List (Event Op Res)}
    (h : postsOf q db = ⟨.ok a, db', evs⟩) : postsOf (q >>= f) db = (postsOf (f a) db').after evs :=
  Prog.outcome_bind_ok h

theorem posts_stop {q : Handler α} {f : α → Handler β} {e : Err} {evs : List (Event Op Res)}
    (h : postsOf q db = ⟨.error e, db', evs⟩) : postsOf (q >>= f) db = ⟨.error e, db', evs⟩ :=
  Prog.outcome_bind_error h

theorem posts_last {q : Handler α} {r : Except Err α} {evs : List (Event Op Res)}
    (h : postsOf q db = ⟨r, db', evs⟩) (f : α → β) :
    postsOf (q >>= fun a => .pure (f a)) db = ⟨r.map f, db', evs⟩ :=
  Prog.outcome_bind_pure h f

theorem posts_mute {q : Handler α} (hq : Mute q) (db : Tables) : (postsOf q db).events = [] := by
  refine List.filter_eq_nil_iff.mpr fun ev hev => ?_
  rw [Prog.ops_all hq db ev hev]
  exact Bool.false_ne_true

theorem findAccount_mute (n : String) (r : Json) : Mute (findAccount n r) := by
  have href : Mute (findByRef r) := by
    unfold findByRef
    split_ifs
    · exact ⟨rfl, fun _ => trivial⟩
    · trivial
  unfold findAccount
  split_ifs
  · refine ⟨rfl, fun found => ?_⟩
    cases found with
    | some a => trivial
    | none => exact href
  · exact href

theorem quarantine_mute (reason : SuspenseReason) (account : Option DedicatedAccount) :
    Mute (quarantinePayment requestId payload p reason account) :=
  ⟨rfl, fun _ => ⟨rfl, fun _ => ⟨rfl, fun _ => trivial⟩⟩⟩

/-- A handler that POSTs nothing and keeps the customers. -/
theorem Hears.of_mute {q : Handler α} (hq : Mute q) (hcustomers : (stateAfter q db).customers = db.customers) :
    Hears env requestId payload p db (postsOf q db) := by
  have hevents := posts_mute hq db
  generalize hout : postsOf q db = o at hevents
  obtain ⟨result, db', events⟩ := o
  cases hevents
  have hstate : stateAfter q db = db' := congrArg Outcome.state hout
  exact .silent (hstate ▸ hcustomers)

theorem quarantine_customers (reason : SuspenseReason) (account : Option DedicatedAccount) :
    (stateAfter (quarantinePayment requestId payload p reason account) db).customers = db.customers := by
  have hall : (quarantinePayment requestId payload p reason account).All (·.writes .customers = false) :=
    ⟨rfl, fun _ => ⟨rfl, fun _ => ⟨rfl, fun _ => trivial⟩⟩⟩
  exact customers_untouched hall db

theorem heard_credit (h : db.Constraints) {account : DedicatedAccount} {row : Customer Cents}
    (credit : Credits p db account row) : Hears env requestId payload p db
      (postsOf (creditPayment env requestId nombaPaymentSuccessEvent payload p account row.load) db) := by
  rw [creditPayment_eq]
  cases he : exec (.transactionCreate
      (p.newTransaction requestId payload (some account) (p.creditStatus row))) db with
  | error e =>
    rw [posts_refused he]
    exact .silent rfl
  | ok x =>
    obtain ⟨t, db₁⟩ := x
    have h₁ : db₁.Constraints := exec_constraints h he
    obtain ⟨hrow, -, -, hdb₁⟩ := createTransaction_ok_iff.mp he
    have hrow₁ : row ∈ db₁.customers := hdb₁ ▸ credit.mem
    rw [posts_skip he rfl]
    cases hw : numericColumn (p.walletAfter row) with
    | error e =>
      rw [posts_refused (exec_saveOwner_error h₁ hrow₁ hw)]
      exact .silent (by rw [hdb₁])
    | ok wallet =>
      have hsaves : ∀ db', db'.customers = (db₁.credited row wallet).customers →
          db'.transactions = db₁.transactions → Saves requestId payload p db account row t wallet db' := by
        intro db' hcustomers htx
        refine ⟨⟨db₁, credit, he⟩, hw, ⟨db₁.clock, ?_⟩, ?_⟩
        · rw [hcustomers, hdb₁]
          rfl
        · rw [htx, hdb₁]
      rw [posts_skip (exec_saveOwner h₁ hrow₁ hw) rfl]
      cases hlog : exec (.reconciliationLogCreate (creditLog t p row)) (db₁.credited row wallet) with
      | error e =>
        rw [posts_refused hlog]
        exact .muted (hsaves _ rfl rfl)
      | ok y =>
        obtain ⟨u, db₂⟩ := y
        obtain ⟨l, -, -, rfl⟩ := createReconciliationLog_ok_iff.mp (written_ok_iff.mp hlog)
        set db₂ := (db₁.credited row wallet).logged l
        have hlog₂ : exec (.reconciliationLogCreate (creditLog t p row)) (db₁.credited row wallet) =
            .ok (u, db₂) := hlog
        have hsubscribed : db₂.subscribed row.merchantId = db.subscribed row.merchantId := by
          show Tables.subscribed { db₁ with customers := _, reconciliationLogs := _, clock := _ } _ = _
          rw [hdb₁]
          rfl
        have hemit : postsOf (emitPaymentReceived env.post row.merchantId (p.creditedOwner row) account t) db₂ =
            ⟨ending env.post (db.subscribed row.merchantId), db₂, announcement env p db account row t⟩ := by
          rw [announcement, ← hsubscribed]
          exact emit_outcome row.merchantId (p.creditedOwner row) account t
        rw [posts_skip hlog₂ rfl, posts_last hemit fun _ =>
          (⟨t.id, p.creditStatus row, some (p.walletAfter row), false⟩ : PaymentResult)]
        refine .announced (hsaves db₂ rfl rfl) fun a ha => ?_
        cases hends : ending env.post (db.subscribed row.merchantId) with
        | error e =>
          rw [hends] at ha
          cases ha
        | ok u => rfl

theorem heard_settle (h : db.Constraints) : Hears env requestId payload p db
    (postsOf (settlePayment env requestId nombaPaymentSuccessEvent payload p) db) := by
  have hfind : postsOf (findAccount p.aliasAccountNumber p.aliasAccountReference) db =
      ⟨.ok (p.route db), db, []⟩ := by
    have hout := outcome_findAccount h p.aliasAccountNumber p.aliasAccountReference
    have hposts := posts_mute (findAccount_mute p.aliasAccountNumber p.aliasAccountReference) db
    simp only [Prog.outcome, Outcome.mk.injEq] at hout hposts ⊢
    exact ⟨hout.1, hout.2.1, hposts⟩
  unfold settlePayment
  rw [posts_then hfind]
  cases hroute : p.route db with
  | none => exact .of_mute (quarantine_mute _ _) (quarantine_customers _ _)
  | some account =>
    obtain ⟨row, hrow, hid, hfetch⟩ := owner_row h (route_mem hroute)
    simp only [Prog.op_bind, Outcome.after_nil]
    rw [posts_skip hfetch rfl]
    by_cases hactive : account.status = .active
    · rw [if_neg (by simp [hactive])]
      exact heard_credit h ⟨hroute, hactive, hrow, hid⟩
    · rw [if_pos hactive]
      exact .of_mute (quarantine_mute _ _) (quarantine_customers _ _)

theorem Saves.of_same {account : DedicatedAccount} {row : Customer Cents} {t : Transaction} {wallet : Cents}
    {db₁ : Tables} (h : Saves requestId payload p db account row t wallet db₁)
    (hcustomers : db'.customers = db₁.customers) (htx : db'.transactions = db₁.transactions) :
    Saves requestId payload p db account row t wallet db' := by
  obtain ⟨time, hsaved⟩ := h.customers
  exact ⟨h.credit, h.balance, ⟨time, hcustomers.trans hsaved⟩, htx.trans h.transactions⟩

/-- The mark POSTs nothing. -/
theorem posts_mark (requestId : Json) (eventType : String) (response : Response) (db : Tables) :
    ∃ result db', postsOf (markProcessed requestId eventType response) db = ⟨result, db', []⟩ ∧
      db'.customers = db.customers ∧ db'.transactions = db.transactions := by
  unfold markProcessed
  rw [Prog.op_bind]
  cases he : exec (.processedCreate requestId.text eventType) db with
  | error e =>
    rw [posts_refused he]
    exact ⟨.error e, db, rfl, rfl, rfl⟩
  | ok x =>
    obtain ⟨u, db'⟩ := x
    have hframe := exec_frame he
    rw [posts_skip he rfl]
    exact ⟨.ok response, db', rfl, hframe.customers rfl, hframe.transactions rfl⟩

theorem heard_marked {q : Handler PaymentResult} (hq : Hears env requestId payload p db (postsOf q db))
    (eventType : String) : Hears env requestId payload p db
      (postsOf (q >>= fun result => markProcessed requestId eventType result.response) db) := by
  cases hout : postsOf q db with
  | mk result db₁ events =>
    rw [hout] at hq
    cases result with
    | error e =>
      rw [posts_stop hout]
      cases hq with
      | silent customers => exact .silent customers
      | muted saves => exact .muted saves
      | announced saves complete =>
        refine .announced saves fun a ha => ?_
        cases ha
    | ok a =>
      rw [posts_then hout]
      obtain ⟨result, db₂, hposts, hcustomers, htx⟩ := posts_mark requestId eventType a.response db₁
      rw [hposts, Outcome.after_mk, List.append_nil]
      cases hq with
      | silent customers => exact .silent (hcustomers.trans customers)
      | announced saves complete =>
        exact .announced (saves.of_same hcustomers htx) fun _ _ => complete a rfl

theorem posts_guarded_done {rest : Handler Response} (h : db.processed requestId.text = true) :
    postsOf (guarded requestId rest) db = ⟨.ok ⟨200, "Webhook already processed", .none⟩, db, []⟩ := by
  have he : exec (.processedExists requestId.text) db = .ok (true, db) := by rw [← h]; rfl
  unfold guarded
  rw [Prog.op_bind, posts_skip he rfl]
  rfl

theorem posts_guarded_fresh {rest : Handler Response} (h : db.processed requestId.text = false) :
    postsOf (guarded requestId rest) db = postsOf rest db := by
  have he : exec (.processedExists requestId.text) db = .ok (false, db) := by rw [← h]; rfl
  unfold guarded
  rw [Prog.op_bind, posts_skip he rfl]
  rfl

theorem guarded_all {q : Op → Prop} {requestId : Json} {rest : Handler Response}
    (hq : q (.processedExists requestId.text)) (hrest : rest.All q) : (guarded requestId rest).All q := by
  refine ⟨hq, fun processed => ?_⟩
  cases processed with
  | true => trivial
  | false => exact hrest

/-- What the endpoints hear of a delivery: nothing, with the customers as they were, or what they hear of
its payment. -/
theorem heard_receive (h : db.Constraints) :
    ((postsOf (receive env payload) db).events = [] ∧
      (stateAfter (receive env payload) db).customers = db.customers) ∨
    ∃ requestId p, kindOf payload = .payment requestId p ∧
      Hears env requestId payload (p.withReference env.reference) db (postsOf (receive env payload) db) := by
  have hmute : ∀ {q : Handler Response}, Mute q → q.All (·.writes .customers = false) →
      (postsOf q db).events = [] ∧ (stateAfter q db).customers = db.customers :=
    fun hq hcustomers => ⟨posts_mute hq db, customers_untouched hcustomers db⟩
  rw [receive_eq]
  cases hk : kindOf payload with
  | unreadable e => exact .inl ⟨rfl, rfl⟩
  | broken requestId e => exact .inl (hmute (guarded_all rfl trivial) (guarded_all rfl trivial))
  | other requestId eventType message =>
    exact .inl (hmute (guarded_all rfl ⟨rfl, fun _ => trivial⟩) (guarded_all rfl ⟨rfl, fun _ => trivial⟩))
  | payment requestId p =>
    refine .inr ⟨requestId, p, rfl, ?_⟩
    show Hears _ _ _ _ _ (postsOf (guarded requestId _) db)
    cases hdone : db.processed requestId.text with
    | true =>
      rw [posts_guarded_done hdone]
      exact .silent rfl
    | false =>
      rw [posts_guarded_fresh hdone]
      exact heard_marked (heard_settle h) _

end Heard

/-! ## The other calls -/

section Mute

theorem Mute.lift {α : Type} (x : Except Err α) : Mute (Prog.lift x) := by
  cases x <;> trivial

theorem provision_mute (body : CreateCustomerRequest) (customer : Customer Decimal) (data : Json) :
    Mute (CustomerService.provision body customer data) := by
  unfold CustomerService.provision
  refine (Mute.lift _).bind fun accountNumber => ?_
  show Mute (if _ then _ else _)
  split_ifs
  · exact ⟨rfl, fun _ => trivial⟩
  · exact (Mute.lift _).bind fun _ => ⟨rfl, fun _ => ⟨rfl, fun _ => trivial⟩⟩

theorem create_mute (body : CreateCustomerRequest) (merchantId : UUID) (nomba : NombaOutcome) :
    Mute (CustomerService.create body merchantId nomba) := by
  rw [CustomerService.create_eq]
  refine ⟨rfl, fun existing => ?_⟩
  show Mute (if _ then _ else _)
  split_ifs
  · trivial
  · refine ⟨rfl, fun existingAccount => ?_⟩
    show Mute (if _ then _ else _)
    split_ifs
    · trivial
    · refine ⟨rfl, fun customer => ⟨rfl, fun _ => ?_⟩⟩
      cases nomba with
      | raised e => trivial
      | failure message => exact ⟨rfl, fun _ => trivial⟩
      | success data => exact provision_mute body customer data

theorem createDedicated_mute (body : CreateDedicatedAccountRequest) (merchantId : UUID) (nomba : NombaOutcome) :
    Mute (AccountService.createDedicated body merchantId nomba) := by
  refine ⟨rfl, fun found => ?_⟩
  cases found with
  | none => trivial
  | some customer =>
    refine ⟨rfl, fun existing => ?_⟩
    show Mute (if _ then _ else _)
    split_ifs
    · trivial
    · refine ⟨rfl, fun _ => ?_⟩
      cases nomba with
      | raised e => trivial
      | failure message => trivial
      | success data =>
        refine (Mute.lift _).bind fun accountNumber => ?_
        show Mute (if _ then _ else _)
        split_ifs
        · trivial
        · refine (Mute.lift _).bind fun _ => ⟨rfl, fun _ => ⟨rfl, fun found => ?_⟩⟩
          cases found with
          | none => trivial
          | some customer => trivial

theorem update_mute (customerId : String) (body : UpdateCustomerRequest) (merchantId : UUID)
    (nomba : NombaOutcome) : Mute (CustomerService.update customerId body merchantId nomba) := by
  have hexternal : Mute (CustomerService.byExternalId customerId merchantId) := ⟨rfl, fun _ => trivial⟩
  have hresolve : Mute (CustomerService.resolveCustomer customerId merchantId) := by
    unfold CustomerService.resolveCustomer
    cases CustomerService.parseUuid customerId with
    | none => exact hexternal
    | some parsedId =>
      refine ⟨rfl, fun found => ?_⟩
      cases found with
      | none => exact hexternal
      | some customer => trivial
  have hrename : ∀ customer, Mute (CustomerService.renameAccount body.name customer nomba) := by
    intro customer
    cases body.name with
    | none => trivial
    | some name =>
      refine ⟨rfl, fun account => ?_⟩
      cases account with
      | none => trivial
      | some account =>
        refine ⟨rfl, fun _ => ⟨rfl, fun _ => ?_⟩⟩
        cases nomba <;> trivial
  refine hresolve.bind fun found => ?_
  cases found with
  | none => trivial
  | some found =>
    have hresponse : Mute (buildCustomerResponse (CustomerService.applyUpdate body found)) :=
      ⟨rfl, fun _ => trivial⟩
    exact ⟨rfl, fun _ => (hrename _).bind fun _ => hresponse.bind fun _ => trivial⟩

theorem findTransaction_mute (nombaTxId merchantTxRef : Json) : Mute (findTransaction nombaTxId merchantTxRef) := by
  have hbyRef : Mute (if merchantTxRef.truthy then await (.transactionByMerchantTxRef merchantTxRef.text)
      else pure none : Handler (Option Transaction)) := by
    split_ifs
    · exact ⟨rfl, fun _ => trivial⟩
    · trivial
  unfold findTransaction
  by_cases hid : nombaTxId.truthy = true
  · simp only [hid, if_true]
    refine ⟨rfl, fun byId => ?_⟩
    cases byId with
    | some tx => trivial
    | none => exact hbyRef
  · simp only [hid]
    exact hbyRef

theorem reconcileItems_mute (checkedAt : String) (items : List Json) (matched missing : Nat) :
    Mute (reconcileItems checkedAt matched missing items) := by
  induction items generalizing matched missing with
  | nil => trivial
  | cons item items ih =>
    cases item with
    | obj fields =>
      unfold reconcileItems
      refine (Mute.lift _).bind fun nombaTxId => (Mute.lift _).bind fun merchantTxRef => ?_
      split_ifs
      · exact ih _ _
      · refine (findTransaction_mute _ _).bind fun found => ?_
        cases found with
        | none => exact ih _ _
        | some tx => exact (Mute.lift (matchDetails checkedAt nombaTxId)).bind fun details => ⟨rfl, fun _ => ih _ _⟩
    | _ => exact ih _ _

theorem nightly_mute (checkedAt : String) (nomba : NombaOutcome) :
    Mute (runNightlyReconciliation checkedAt nomba) := by
  refine ⟨rfl, fun _ => ?_⟩
  cases nomba with
  | raised e => trivial
  | failure message => trivial
  | success data =>
    refine (Mute.lift _).bind fun items => ?_
    cases items with
    | arr items => exact reconcileItems_mute checkedAt items 0 0
    | _ => trivial

end Mute

end LdbBackend
