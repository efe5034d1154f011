import LdbBackend.Payments.Effect

/-!
# One delivery as an effect

`effectOf` reads the effect of a payload off the directory: the accounts, and the targets of their
owners. One delivery does to the summary of the tables what the effect of its payload says
(`receive_summary`) and leaves the directory alone (`receive_directory`).
-/

namespace LdbBackend

open Fixed Effects Table

/-! ## The effect of a payload -/

def Tables.target (db : Tables) (id : UUID) : Option Decimal :=
  ((db.customers.find? (·.id = id)).bind (·.targetAmount)).map (Decimal.ofScaled 2)

/-- What becomes of a payment in a directory. -/
structure Disposition where
  status : TransactionStatus
  held : Option SuspenseReason
  credited : Option UUID
  marks : Bool

def Payment.disposition (p : Payment) (db : Tables) : Disposition :=
  match p.route db with
  | none => ⟨.misdirected, some .misdirected, none, true⟩
  | some account =>
    if account.status ≠ .active then ⟨.misdirected, some .closedAccount, none, true⟩
    else
      let target := db.target account.customerId
      ⟨deriveTransactionStatus p.amount target, none, some account.customerId,
        (target.mapM decimalField).isOk⟩

def postingOf (d : Disposition) (t : Transaction) : Posting :=
  ⟨t.content, d.held, d.credited, d.marks⟩

def effectOf (db : Tables) (payload : Json) : Effect :=
  match kindOf payload with
  | .unreadable _ | .broken _ _ => .none
  | .other requestId eventType _ =>
    if requestId.text.length ≤ 100 ∧ eventType.length ≤ 100 then .mark requestId.text else .none
  | .payment requestId p =>
    match ((p.withReference "").newTransaction requestId payload (p.route db)
      (p.disposition db).status).row 0 with
    | .ok t => .post (postingOf (p.disposition db) t)
    | .error _ => .none

/-- Two states with the same accounts and the same targets of their owners. -/
structure SameDirectory (db db' : Tables) : Prop where
  accounts : db'.dedicatedAccounts = db.dedicatedAccounts
  targets : ∀ id, db'.target id = db.target id

theorem SameDirectory.route {db db' : Tables} (h : SameDirectory db db') (p : Payment) :
    p.route db' = p.route db := by
  unfold Payment.route Tables.route
  rw [h.accounts]

theorem SameDirectory.refl (db : Tables) : SameDirectory db db := ⟨rfl, fun _ => rfl⟩

theorem SameDirectory.trans {db db' db'' : Tables} (h : SameDirectory db db')
    (h' : SameDirectory db' db'') : SameDirectory db db'' :=
  ⟨h'.accounts.trans h.accounts, fun id => (h'.targets id).trans (h.targets id)⟩

theorem SameDirectory.logged {db db' : Tables} (h : SameDirectory db db') (l : ReconciliationLog) :
    SameDirectory db (db'.logged l) := ⟨h.accounts, h.targets⟩

theorem SameDirectory.marked {db db' : Tables} (h : SameDirectory db db') (key : String) :
    SameDirectory db (db'.marked key) := ⟨h.accounts, h.targets⟩

theorem SameDirectory.effectOf {db db' : Tables} (h : SameDirectory db db') (payload : Json) :
    effectOf db' payload = effectOf db payload := by
  have hdisposition : ∀ p : Payment, p.disposition db' = p.disposition db := by
    intro p
    unfold Payment.disposition
    rw [h.route p]
    cases p.route db with
    | none => rfl
    | some account => simp only [h.targets]
  unfold LdbBackend.effectOf
  cases kindOf payload with
  | payment requestId p => simp only [h.route p, hdisposition p]
  | _ => rfl

/-! ## Summaries after a write -/

section Summary

variable {db db' : Tables}

theorem requestOf_old {rows : List Transaction} (h : db'.transactions = db.transactions ++ rows)
    {i : UUID} (hi : ∃ t ∈ db.transactions, t.id = i) : db'.requestOf i = db.requestOf i := by
  obtain ⟨t, ht, rfl⟩ := hi
  unfold Tables.requestOf
  rw [h, List.map_append, List.find?_append]
  have hsome : ((db.transactions.map fun t => (t.id, t.nombaRequestId)).find? (·.1 = t.id)).isSome := by
    rw [List.find?_isSome]
    exact ⟨(t.id, t.nombaRequestId), List.mem_map.mpr ⟨t, ht, rfl⟩, by simp⟩
  obtain ⟨x, hx⟩ := Option.isSome_iff_exists.mp hsome
  rw [hx, Option.some_or]

theorem requestOf_new {t : Transaction} (h : db'.transactions = db.transactions ++ [t])
    (ht : ∀ u ∈ db.transactions, u.id ≠ t.id) : db'.requestOf t.id = some t.nombaRequestId := by
  unfold Tables.requestOf
  rw [h, List.map_append, List.find?_append]
  have hnone : (db.transactions.map fun t => (t.id, t.nombaRequestId)).find? (·.1 = t.id) = none := by
    rw [List.find?_eq_none]
    intro x hx
    obtain ⟨u, hu, rfl⟩ := List.mem_map.mp hx
    simpa using ht u hu
  rw [hnone]
  simp

theorem seen_summary {key : String} : db.summary.Seen key ↔
    db.processed key = true ∨ ∃ t ∈ db.transactions, t.nombaRequestId = key := by
  refine or_congr Iff.rfl ⟨?_, ?_⟩
  · rintro ⟨u, hu, hkey⟩
    obtain ⟨t, ht, rfl⟩ := List.mem_map.mp hu
    exact ⟨t, ht, hkey⟩
  · rintro ⟨t, ht, hkey⟩
    exact ⟨t.content, List.mem_map.mpr ⟨t, ht, rfl⟩, hkey⟩

theorem processed_marked (key k : String) :
    (db.marked key).processed k = true ↔ k = key ∨ db.processed k = true := by
  simp only [Tables.processed, Tables.marked, List.any_append, List.any_cons, List.any_nil,
    Bool.or_false, Bool.or_eq_true, decide_eq_true_eq]
  tauto

/-- The rows a posting adds, whatever identifiers they get. -/
theorem summary_post (h : db.Constraints) {t : Transaction} {x : Posting} (hid : t.id = db.clock)
    (hx : x.transaction = t.content) (htx : db'.transactions = db.transactions ++ [t])
    (logs : List SuspenseLog) (hsus : db'.suspenseLogs = db.suspenseLogs ++ logs)
    (hlogs : logs.map (fun l => (l.transactionId, l.reason, l.amount)) =
      (x.held.map fun r => (t.id, r, t.amount)).toList)
    (hwallet : ∀ id, db'.wallet id = (db.wallet id).map (· + x.creditTo id))
    (hmark : ∀ k, db'.processed k = true ↔ db.processed k = true ∨ (x.marks = true ∧ k = x.key)) :
    db'.summary = x.apply db.summary := by
  have hfresh : ∀ u ∈ db.transactions, u.id ≠ t.id := fun u hu =>
    ne_of_fresh (h.transaction_fresh u hu) hid
  have hkey : x.key = t.nombaRequestId := by rw [Posting.key, hx]; rfl
  have hamount : x.transaction.amount = t.amount := by rw [hx]; rfl
  ext z
  · simp only [Tables.summary, Posting.apply, hwallet]
  · simp only [Tables.summary, Tables.books, Posting.apply, htx, hx, List.map_append, List.map_cons,
      List.map_nil, List.mem_append, List.mem_singleton, Set.mem_ofPred_eq, Set.mem_insert_iff]
    tauto
  · have hold : db.suspenseLogs.map (fun l => (db'.requestOf l.transactionId, l.reason, l.amount)) =
        db.suspenseLogs.map fun l => (db.requestOf l.transactionId, l.reason, l.amount) := by
      refine List.map_congr_left fun l hl => ?_
      rw [requestOf_old htx (h.suspense_fk l hl)]
    have hnew : logs.map (fun l => (db'.requestOf l.transactionId, l.reason, l.amount)) =
        (x.held.map fun r => (some x.key, r, x.transaction.amount)).toList := by
      have := congrArg (List.map fun l : UUID × SuspenseReason × Cents =>
        (db'.requestOf l.1, l.2.1, l.2.2)) hlogs
      rw [List.map_map] at this
      refine this.trans ?_
      cases x.held with
      | none => rfl
      | some r => simp [requestOf_new htx hfresh, hkey, hamount]
    simp only [Tables.summary, Tables.books, Posting.apply, hsus, List.map_append, hold, hnew,
      List.mem_append, Set.mem_ofPred_eq, Option.mem_toList]
  · simp only [Tables.summary, Posting.apply, Set.mem_ofPred_eq, hmark]

end Summary

/-! ## One delivery -/

section Deliver

variable {env : Surroundings} {requestId payload : Json} {p : Payment} {db db₁ : Tables}
  {t : Transaction}

theorem disposition_held {account : Option DedicatedAccount} {reason : SuspenseReason}
    (h : Holds p db account reason) : p.disposition db = ⟨.misdirected, some reason, none, true⟩ := by
  unfold Payment.disposition
  cases h with
  | unmatched route => rw [route]
  | inactive route status => rw [route]; simp only [if_pos status]

theorem target_of_mem (h : db.Constraints) {row : Customer Cents} (hrow : row ∈ db.customers) :
    db.target row.id = row.load.targetAmount := by
  unfold Tables.target
  rw [find?_of_mem h.customer_pk hrow]
  rfl

theorem disposition_credited (h : db.Constraints) {account : DedicatedAccount} {row : Customer Cents}
    (hc : Credits p db account row) : p.disposition db =
      ⟨p.creditStatus row, none, some account.customerId,
        (row.load.targetAmount.mapM decimalField).isOk⟩ := by
  unfold Payment.disposition
  rw [hc.route]
  simp only [if_neg (not_not.mpr hc.active), ← hc.owner, target_of_mem h hc.mem]
  rfl

theorem effectOf_insert (hk : kindOf payload = .payment requestId p) {reference : String}
    (insert : db.createTransaction ((p.withReference reference).newTransaction requestId payload
      (p.route db) (p.disposition db).status) = .ok (t, db₁)) :
    effectOf db payload = .post (postingOf (p.disposition db) t) := by
  obtain ⟨hrow, -, -, -⟩ := createTransaction_ok_iff.mp insert
  obtain ⟨t₀, hrow₀, -, -, hcontent⟩ :=
    row_again hrow (brings_of_kind hk) (show "".length ≤ 200 by decide) (p.disposition db).status 0
  unfold effectOf
  simp only [hk, hrow₀, postingOf, hcontent rfl]

/-- An insert is refused because the payment has no valid row, or because the request is recorded. -/
theorem effectOf_refused (hk : kindOf payload = .payment requestId p) {reference : String}
    (hlength : reference.length ≤ 200) {status : TransactionStatus} {e : Err}
    (insert : db.createTransaction ((p.withReference reference).newTransaction requestId payload
      (p.route db) status) = .error e) :
    Effect.apply db.summary (effectOf db payload) = db.summary := by
  unfold effectOf
  simp only [hk]
  cases hrow : ((p.withReference "").newTransaction requestId payload (p.route db)
      (p.disposition db).status).row 0 with
  | error e' => rfl
  | ok t₀ =>
    refine post_seen ?_
    by_contra hseen
    obtain ⟨t, hrow', hrequest, -, -⟩ := row_again hrow (brings_of_kind hk) hlength status db.clock
    have hok : db.createTransaction ((p.withReference reference).newTransaction requestId payload
        (p.route db) status) =
          .ok (t, { db with transactions := db.transactions ++ [t], clock := db.clock + 1 }) := by
      refine createTransaction_ok_iff.mpr ⟨hrow', fun u hu hur => hseen ?_, fun i hi => ?_, rfl⟩
      · exact seen_summary.mpr (.inr ⟨u, hu, hur.trans hrequest⟩)
      · have hacc : (p.route db).map (·.id) = some i := by
          rw [← hi]
          exact (NewTransaction.row_ok hrow').account.symm
        obtain ⟨a, ha, rfl⟩ := Option.map_eq_some_iff.mp hacc
        exact ⟨a, route_mem ha, rfl⟩
    rw [insert] at hok
    cases hok

theorem key_postingOf {d : Disposition} {account : Option DedicatedAccount}
    {status : TransactionStatus} (insert : db.createTransaction
      (p.newTransaction requestId payload account status) = .ok (t, db₁)) :
    (postingOf d t).key = requestId.text :=
  (NewTransaction.row_ok (createTransaction_ok_iff.mp insert).1).request

theorem creditTo_credited {d : Disposition} {id : UUID} (h : d.credited = some id) :
    (postingOf d t).creditTo id = t.amount := if_pos h

theorem creditTo_other {d : Disposition} {id : UUID} (h : d.credited ≠ some id) :
    (postingOf d t).creditTo id = 0 := if_neg h

/-- A credit adds the stored amount to the wallet of the owner. -/
theorem wallet_credit (h : db.Constraints) {account : DedicatedAccount} {row : Customer Cents}
    (hc : Inserts requestId payload p db account row t db₁) {n wallet : Cents}
    (hn : Decimal.IsScaled 2 p.amount n) (hfit : (row.walletBalance + n).natAbs < 10 ^ prec)
    (hwallet : numericColumn (p.walletAfter row) = .ok wallet) {marks : Bool} (id : UUID) :
    (db₁.credited row wallet).wallet id = (db.wallet id).map
      (· + (postingOf ⟨p.creditStatus row, none, some account.customerId, marks⟩ t).creditTo id) := by
  obtain ⟨hrow, -, -, hdb₁⟩ := createTransaction_ok_iff.mp hc.insert
  have hcustomers : db₁.customers = db.customers := by rw [hdb₁]
  have hmem : row ∈ db₁.customers := hcustomers ▸ hc.mem
  have hamount : t.amount = n :=
    Decimal.eq_of_quantize hn (decimalField_ok_iff.mp (NewTransaction.row_ok hrow).amount)
  have hsum : Decimal.IsScaled 2 (p.walletAfter row) (row.walletBalance + n) :=
    Decimal.add_exact (Decimal.isScaled_ofScaled 2 _) hn hfit
  have hw : wallet = row.walletBalance + n :=
    Decimal.eq_of_toColumn hsum (numericColumn_ok_iff.mp hwallet)
  set posting := postingOf ⟨p.creditStatus row, none, some account.customerId, marks⟩ t with hposting
  by_cases hid : id = row.id
  · have hcredit : posting.creditTo row.id = n :=
      (creditTo_credited (congrArg some hc.owner.symm)).trans hamount
    rw [hid, hcredit, wallet_of_mem h hc.mem, wallet_credited_self hmem, hw]
    rfl
  · have hcredit : posting.creditTo id = 0 := by
      refine if_neg fun heq => hid ?_
      rw [hc.owner]
      exact (Option.some.inj heq).symm
    rw [hcredit, wallet_credited_ne hid, wallet_eq_of_customers hcustomers]
    simp

theorem not_seen_of_insert {account : Option DedicatedAccount} {status : TransactionStatus}
    (hfresh : db.processed requestId.text = false) (insert : db.createTransaction
      (p.newTransaction requestId payload account status) = .ok (t, db₁)) :
    ¬ db.summary.Seen requestId.text := by
  obtain ⟨hrow, hnew, -, -⟩ := createTransaction_ok_iff.mp insert
  have hrequest : t.nombaRequestId = requestId.text := (NewTransaction.row_ok hrow).request
  rw [seen_summary]
  rintro (hdone | ⟨u, hu, hkey⟩)
  · rw [hfresh] at hdone
    cases hdone
  · exact hnew u hu (hkey.trans hrequest.symm)

/-- The wallet of every customer can take what the effect would credit to it. -/
def Effect.Fits (db : Tables) : Effect → Prop
  | .post x => ¬ db.summary.Seen x.key →
    ∀ row ∈ db.customers, (row.walletBalance + x.creditTo row.id).natAbs < 10 ^ prec
  | _ => True

/-- A held payment does what its effect says. -/
theorem summary_held (h : db.Constraints) (hk : kindOf payload = .payment requestId p)
    (hfresh : db.processed requestId.text = false) {account : Option DedicatedAccount}
    {reason : SuspenseReason} (hold : Holds p db account reason) {reference : String}
    (insert : db.createTransaction ((p.withReference reference).newTransaction requestId payload
      account .misdirected) = .ok (t, db₁)) :
    ((db₁.quarantined t reason).marked requestId.text).summary =
      Effect.apply db.summary (effectOf db payload) := by
  have hdisposition := disposition_held hold
  have hroute : account = p.route db := by
    cases hold with
    | unmatched route => exact route.symm
    | inactive route status => exact route.symm
  have hinsert : db.createTransaction ((p.withReference reference).newTransaction requestId payload
      (p.route db) (p.disposition db).status) = .ok (t, db₁) := by
    rw [← hroute, hdisposition]
    exact insert
  have heffect : effectOf db payload = .post (postingOf (p.disposition db) t) :=
    effectOf_insert hk hinsert
  have hkey : (postingOf (p.disposition db) t).key = requestId.text := key_postingOf insert
  obtain ⟨hrow, -, -, rfl⟩ := createTransaction_ok_iff.mp insert
  rw [heffect, post_new (by rw [hkey]; exact not_seen_of_insert hfresh insert)]
  rw [hdisposition] at hkey ⊢
  refine summary_post h (NewTransaction.row_ok hrow).id rfl rfl
    [⟨db.clock + 1, t.id, reason, t.amount⟩] rfl rfl (fun id => ?_) fun k => ?_
  · rw [creditTo_other (by simp)]
    simp only [add_zero, Option.map_id']
    exact wallet_eq_of_customers rfl id
  · rw [processed_marked, hkey]
    simp only [postingOf, true_and]
    exact or_comm

/-- The effect of a payment whose transaction was inserted on an active account. -/
theorem effectOf_credited (h : db.Constraints) (hk : kindOf payload = .payment requestId p)
    (hfresh : db.processed requestId.text = false) (hfit : (effectOf db payload).Fits db)
    {n : Cents} (hn : Decimal.IsScaled 2 p.amount n) {reference : String}
    {account : DedicatedAccount} {row : Customer Cents}
    (hc : Inserts requestId payload (p.withReference reference) db account row t db₁) :
    effectOf db payload = .post (postingOf ⟨p.creditStatus row, none, some account.customerId,
        (row.load.targetAmount.mapM decimalField).isOk⟩ t) ∧
      (row.walletBalance + n).natAbs < 10 ^ prec := by
  have hcred : Credits p db account row := ⟨hc.route, hc.active, hc.mem, hc.owner⟩
  have hdisposition := disposition_credited h hcred
  have hinsert : db.createTransaction ((p.withReference reference).newTransaction requestId payload
      (p.route db) (p.disposition db).status) = .ok (t, db₁) := by
    rw [hcred.route, hdisposition]
    exact hc.insert
  have heffect := effectOf_insert hk hinsert
  rw [hdisposition] at heffect
  refine ⟨heffect, ?_⟩
  rw [heffect] at hfit
  have hrow := (createTransaction_ok_iff.mp hc.insert).1
  have hamount : t.amount = n :=
    Decimal.eq_of_quantize hn (decimalField_ok_iff.mp (NewTransaction.row_ok hrow).amount)
  have hnew := not_seen_of_insert hfresh hc.insert
  rw [← key_postingOf hc.insert] at hnew
  have hfits := hfit hnew row hcred.mem
  rwa [creditTo_credited (congrArg some hcred.owner.symm), hamount] at hfits

/-- A credited payment does what its effect says, marked or not. -/
theorem summary_credited (h : db.Constraints) (hk : kindOf payload = .payment requestId p)
    (hfresh : db.processed requestId.text = false) (hfit : (effectOf db payload).Fits db)
    {n : Cents} (hn : Decimal.IsScaled 2 p.amount n) {reference : String}
    {account : DedicatedAccount} {row : Customer Cents} {wallet : Cents}
    (hc : Inserts requestId payload (p.withReference reference) db account row t db₁)
    (hwallet : numericColumn (p.walletAfter row) = .ok wallet) {db' : Tables}
    (htx : db'.transactions = db₁.transactions) (hsus : db'.suspenseLogs = db₁.suspenseLogs)
    (hcustomers : db'.customers = (db₁.credited row wallet).customers)
    (hmark : ∀ k, db'.processed k = true ↔ db.processed k = true ∨
      ((row.load.targetAmount.mapM decimalField).isOk = true ∧ k = requestId.text)) :
    db'.summary = Effect.apply db.summary (effectOf db payload) := by
  obtain ⟨heffect, hfits⟩ := effectOf_credited h hk hfresh hfit hn hc
  obtain ⟨hrow, -, -, hdb₁⟩ := createTransaction_ok_iff.mp hc.insert
  set posting := postingOf ⟨p.creditStatus row, none, some account.customerId,
    (row.load.targetAmount.mapM decimalField).isOk⟩ t with hposting
  have hkey : posting.key = requestId.text := key_postingOf hc.insert
  have hnew : ¬ db.summary.Seen posting.key := by
    rw [hkey]
    exact not_seen_of_insert hfresh hc.insert
  rw [heffect, post_new hnew]
  refine summary_post h (NewTransaction.row_ok hrow).id rfl (htx.trans (by rw [hdb₁])) []
    (by rw [hsus, hdb₁, List.append_nil]) rfl (fun id => ?_) fun k => ?_
  · rw [wallet_eq_of_customers hcustomers]
    exact wallet_credit h hc hn hfits hwallet id
  · rw [hmark, hkey]
    exact Iff.rfl

theorem Holds.of_withReference {account : Option DedicatedAccount} {reason : SuspenseReason}
    {reference : String} (h : Holds (p.withReference reference) db account reason) :
    Holds p db account reason := by
  cases h with
  | unmatched route => exact .unmatched route
  | inactive route status => exact .inactive route status

/-- A settlement does what the effect of the payment says, once it is marked. -/
theorem Settles.summary (h : db.Constraints) (hb : env.Benign)
    (hk : kindOf payload = .payment requestId p) (hfresh : db.processed requestId.text = false)
    (hfit : (effectOf db payload).Fits db) {n : Cents} (hn : Decimal.IsScaled 2 p.amount n)
    {o : Outcome Op Res Err PaymentResult Tables}
    (hs : Settles env requestId payload (p.withReference env.reference) db o) :
    (match o.result with
      | .ok _ => o.state.marked requestId.text
      | .error _ => o.state).summary = Effect.apply db.summary (effectOf db payload) := by
  cases hs with
  | refused insert => exact (effectOf_refused hk hb.reference insert).symm
  | held hold insert => exact summary_held h hk hfresh hold.of_withReference insert
  | @unsaved account row t db₁ e credit wallet_error =>
    obtain ⟨-, hfits⟩ := effectOf_credited h hk hfresh hfit hn credit
    have hafter : Decimal.IsScaled 2 (p.walletAfter row) (row.walletBalance + n) :=
      Decimal.add_exact (Decimal.isScaled_ofScaled 2 _) hn hfits
    have hcolumn : numericColumn (p.walletAfter row) = .ok (row.walletBalance + n) := by
      refine numericColumn_ok_iff.mpr (Decimal.toColumn_exact hafter (lt_trans hfits ?_))
      unfold prec
      norm_num
    have hsame : (p.withReference env.reference).walletAfter row = p.walletAfter row := rfl
    rw [hsame, hcolumn] at wallet_error
    cases wallet_error
  | @unlogged account row t db₁ wallet e credit wallet_ok target_error =>
    have hprocessed : (db₁.credited row wallet).processedWebhookEvents = db.processedWebhookEvents := by
      rw [(createTransaction_ok_iff.mp credit.insert).2.2.2]
      rfl
    refine summary_credited h hk hfresh hfit hn credit wallet_ok rfl rfl rfl fun k => ?_
    rw [target_error, Tables.processed, hprocessed]
    simp [Tables.processed, Except.isOk, Except.toBool]
  | undelivered credit wallet_ok target_ok emit =>
    rw [emission_benign hb] at emit
    cases emit
  | @credited account row t db₁ wallet expected credit wallet_ok target_ok emit =>
    have hprocessed : db₁.processedWebhookEvents = db.processedWebhookEvents := by
      rw [(createTransaction_ok_iff.mp credit.insert).2.2.2]
    refine summary_credited h hk hfresh hfit hn credit wallet_ok rfl rfl rfl fun k => ?_
    rw [target_ok, processed_marked]
    simp [Tables.processed, Except.isOk, Except.toBool, Tables.logged, Tables.credited, hprocessed,
      or_comm]

theorem directory_of_customers {db' : Tables} (haccounts : db'.dedicatedAccounts = db.dedicatedAccounts)
    (hcustomers : db'.customers = db.customers) : SameDirectory db db' := by
  refine ⟨haccounts, fun id => ?_⟩
  unfold Tables.target
  rw [hcustomers]

theorem target_credited (h : db.Constraints) {row : Customer Cents} (hrow : row ∈ db.customers)
    (wallet : Cents) (id : UUID) : (db.credited row wallet).target id = db.target id := by
  unfold Tables.target Tables.credited
  by_cases hid : id = row.id
  · have hfind := find?_setRow_self (fun c : Customer Cents => c.id)
      { row with walletBalance := wallet, updatedAt := db.clock } ⟨row, hrow, rfl⟩
    rw [hid, hfind, find?_of_mem h.customer_pk hrow]
    rfl
  · have hfind := find?_setRow_ne (fun c : Customer Cents => c.id)
      { row with walletBalance := wallet, updatedAt := db.clock } db.customers hid
    rw [hfind]

theorem directory_credited (h : db.Constraints) {account : DedicatedAccount} {row : Customer Cents}
    (hc : Inserts requestId payload p db account row t db₁) (wallet : Cents) :
    SameDirectory db (db₁.credited row wallet) := by
  have h₁ : db₁.Constraints := h.createTransaction hc.insert
  obtain ⟨-, -, -, hdb₁⟩ := createTransaction_ok_iff.mp hc.insert
  have hcustomers : db₁.customers = db.customers := by rw [hdb₁]
  refine ⟨by rw [hdb₁]; rfl, fun id => ?_⟩
  rw [target_credited h₁ (hcustomers ▸ hc.mem)]
  unfold Tables.target
  rw [hcustomers]

theorem Settles.directory (h : db.Constraints) {o : Outcome Op Res Err PaymentResult Tables}
    (hs : Settles env requestId payload p db o) : SameDirectory db o.state := by
  cases hs with
  | refused insert => exact directory_of_customers rfl rfl
  | held hold insert =>
    obtain ⟨-, -, -, rfl⟩ := createTransaction_ok_iff.mp insert
    exact directory_of_customers rfl rfl
  | unsaved credit wallet_error =>
    obtain ⟨-, -, -, rfl⟩ := createTransaction_ok_iff.mp credit.insert
    exact directory_of_customers rfl rfl
  | unlogged credit wallet_ok target_error => exact directory_credited h credit _
  | undelivered credit wallet_ok target_ok emit => exact (directory_credited h credit _).logged _
  | credited credit wallet_ok target_ok emit => exact (directory_credited h credit _).logged _

/-- A delivery leaves the directory alone. -/
theorem receive_directory (h : db.Constraints) :
    SameDirectory db (Prog.run exec (receive env payload) db).2 := by
  have hd : Delivers env payload db (outcomeOf (receive env payload) db) := delivers h
  have hstate : (outcomeOf (receive env payload) db).state =
      (Prog.run exec (receive env payload) db).2 := rfl
  rw [← hstate]
  generalize outcomeOf (receive env payload) db = o at hd
  cases hd with
  | ignored kind fresh mark =>
    obtain ⟨-, -, -, rfl⟩ := createProcessedEvent_ok_iff.mp mark
    exact directory_of_customers rfl rfl
  | failed kind fresh settle => exact settle.directory h
  | settled kind fresh settle => exact (settle.directory h).marked _
  | _ => exact directory_of_customers rfl rfl

theorem effectOf_key {key : String} (hkey : (effectOf db payload).key = some key) :
    (kindOf payload).key = some key := by
  unfold effectOf at hkey
  cases hk : kindOf payload with
  | unreadable e => simp only [hk] at hkey; cases hkey
  | broken requestId e => simp only [hk] at hkey; cases hkey
  | other requestId eventType message =>
    simp only [hk] at hkey
    split_ifs at hkey
    · exact hkey
    · cases hkey
  | payment requestId p =>
    simp only [hk] at hkey
    split at hkey
    · next t hrow =>
      have hrequest : t.nombaRequestId = requestId.text := (NewTransaction.row_ok hrow).request
      rw [← hkey]
      exact congrArg some hrequest.symm
    · cases hkey

/-- The amount of a payment has at most two decimals. -/
def TwoDecimals (payload : Json) : Prop :=
  ∀ requestId p, kindOf payload = .payment requestId p → ∃ n, Decimal.IsScaled 2 p.amount n

/-- One delivery does what the effect of its payload says. -/
theorem receive_summary (h : db.Constraints) (hb : env.Benign) (hscaled : TwoDecimals payload)
    (hfit : (effectOf db payload).Fits db) :
    (Prog.run exec (receive env payload) db).2.summary =
      Effect.apply db.summary (effectOf db payload) := by
  have hd : Delivers env payload db (outcomeOf (receive env payload) db) := delivers h
  have hstate : (outcomeOf (receive env payload) db).state =
      (Prog.run exec (receive env payload) db).2 := rfl
  rw [← hstate]
  generalize outcomeOf (receive env payload) db = o at hd
  cases hd with
  | malformed kind =>
    unfold effectOf
    rw [kind]
    rfl
  | duplicate kind done =>
    refine (apply_done fun key hkey => ?_).symm
    rw [effectOf_key hkey, Option.some.injEq] at kind
    rw [kind]
    exact done
  | broken kind fresh =>
    unfold effectOf
    rw [kind]
    rfl
  | @unmarked requestId eventType message e kind fresh mark =>
    have hlength : ¬ (requestId.text.length ≤ 100 ∧ eventType.length ≤ 100) := by
      rintro ⟨h1, h2⟩
      have hok := createProcessedEvent_ok_iff.mpr ⟨h1, h2, by simpa [Tables.processed] using fresh, rfl⟩
      rw [mark] at hok
      cases hok
    unfold effectOf
    simp only [kind, if_neg hlength]
    rfl
  | @ignored requestId eventType message db' kind fresh mark =>
    obtain ⟨h1, h2, -, rfl⟩ := createProcessedEvent_ok_iff.mp mark
    unfold effectOf
    simp only [kind, if_pos (And.intro h1 h2)]
    ext k
    · rfl
    · rfl
    · rfl
    · simp only [Tables.summary, Tables.processed, Effect.apply, Summary.mark, Set.mem_insert_iff,
        Set.mem_ofPred_eq, List.any_append, List.any_cons, List.any_nil, Bool.or_false,
        Bool.or_eq_true, decide_eq_true_eq]
      tauto
  | failed kind fresh settle =>
    obtain ⟨n, hn⟩ := hscaled _ _ kind
    exact settle.summary h hb kind fresh hfit hn
  | settled kind fresh settle =>
    obtain ⟨n, hn⟩ := hscaled _ _ kind
    exact settle.summary h hb kind fresh hfit hn

end Deliver

end LdbBackend
