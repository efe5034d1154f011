import LdbBackend.History.Ledger

/-!
# Money conservation

`Booked` is the invariant of a history: every transaction is either credited to the owner of its
account or held in suspense, every wallet is the total of the ledger for its customer, and every
decision that tells a wallet balance tells the total up to its transaction. Maintenance keeps it because
it moves no money (`Booked.upkeep`); a delivery keeps it because the insert, the suspense entry or the
wallet save, and the log belong together (`booked_delivers`).
-/

namespace LdbBackend

open Fixed Effects Table

/-! ## Totals of a ledger -/

namespace Ledger

variable {ledger ledger' : Ledger} {t : Transaction} {customerId : UUID} {rows : List Transaction}

theorem creditedWith_nil (h : ∀ x ∈ ledger, x.1 ≠ t.id) : ledger.creditedWith t = [] := by
  unfold creditedWith
  rw [List.map_eq_nil_iff, List.filter_eq_nil_iff]
  intro x hx
  simpa using h x hx

theorem creditedWith_append (entries : Ledger) : Ledger.creditedWith (ledger ++ entries) t =
    ledger.creditedWith t ++ entries.creditedWith t := by
  unfold creditedWith
  rw [List.filter_append, List.map_append]

theorem creditedWith_new (h : ∀ x ∈ ledger, x.1 ≠ t.id) :
    Ledger.creditedWith (ledger ++ [(t.id, customerId)]) t = [customerId] := by
  rw [creditedWith_append, creditedWith_nil h]
  simp [creditedWith]

theorem total_congr (h : ∀ t ∈ rows, ledger'.creditedWith t = ledger.creditedWith t) :
    ledger'.total customerId rows = ledger.total customerId rows := by
  unfold total
  rw [List.filter_congr fun t ht => by rw [h t ht]]

theorem total_append (rows' : List Transaction) : ledger.total customerId (rows ++ rows') =
    ledger.total customerId rows + ledger.total customerId rows' := by
  unfold total
  rw [List.filter_append, List.map_append, List.sum_append]

theorem total_self (h : ledger.creditedWith t = [customerId]) :
    ledger.total customerId [t] = t.amount := by
  simp [total, h]

theorem total_other (h : ledger.creditedWith t ≠ [customerId]) : ledger.total customerId [t] = 0 := by
  simp [total, h]

theorem total_none (h : ∀ t ∈ rows, ledger.creditedWith t ≠ [customerId]) :
    ledger.total customerId rows = 0 := by
  have hfilter : rows.filter (ledger.creditedWith · = [customerId]) = [] := by
    rw [List.filter_eq_nil_iff]
    intro t ht
    simpa using h t ht
  rw [total, hfilter]
  rfl

end Ledger

/-! ## The invariant -/

inductive Placed (h : History) (t : Transaction) : Prop
  | credited {a : DedicatedAccount} (mem : a ∈ h.tables.dedicatedAccounts)
      (account : t.dedicatedAccountId = some a.id)
      (ledger : h.ledger.creditedWith t = [a.customerId]) (suspense : h.tables.suspenseOf t = [])
  | held {l : SuspenseLog} (ledger : h.ledger.creditedWith t = [])
      (suspense : h.tables.suspenseOf t = [l]) (amount : l.amount = t.amount)

/-- A wallet balance told by a decision is the total credited to the customer up to and including the
transaction of the decision. -/
def Told (h : History) (l : ReconciliationLog) : Prop :=
  ∀ text, l.walletAfter = some text → ∃ (before after : List Transaction) (t : Transaction)
    (customerId : UUID) (balance : Decimal), h.tables.transactions = before ++ t :: after ∧
      t.id = l.transactionId ∧ h.ledger.creditedWith t = [customerId] ∧ text = .str balance.str ∧
      balance.IsScaled 2 (h.ledger.total customerId (before ++ [t]))

structure Booked (h : History) : Prop where
  older : ∀ x ∈ h.ledger, x.1 < h.tables.clock
  placed : ∀ t ∈ h.tables.transactions, Placed h t
  wallet : ∀ c ∈ h.tables.customers, c.walletBalance = h.ledger.total c.id h.tables.transactions
  told : ∀ l ∈ h.tables.reconciliationLogs, Told h l

/-- What is said of the transactions so far stays true: same accounts, and nothing new about them. -/
structure Extends (h h' : History) (rows : List Transaction) : Prop where
  accounts : h'.tables.dedicatedAccounts = h.tables.dedicatedAccounts
  transactions : h'.tables.transactions = h.tables.transactions ++ rows
  ledger : ∀ t ∈ h.tables.transactions, h'.ledger.creditedWith t = h.ledger.creditedWith t
  suspense : ∀ t ∈ h.tables.transactions, h'.tables.suspenseOf t = h.tables.suspenseOf t

section Extends

variable {h h' : History} {rows : List Transaction}

theorem Extends.placed (he : Extends h h' rows) {t : Transaction} (ht : t ∈ h.tables.transactions)
    (hp : Placed h t) : Placed h' t := by
  cases hp with
  | credited mem account ledger suspense =>
    exact .credited (he.accounts ▸ mem) account ((he.ledger t ht).trans ledger)
      ((he.suspense t ht).trans suspense)
  | held ledger suspense amount =>
    exact .held ((he.ledger t ht).trans ledger) ((he.suspense t ht).trans suspense) amount

theorem Extends.told (he : Extends h h' rows) {l : ReconciliationLog} (hl : Told h l) : Told h' l := by
  intro text htext
  obtain ⟨before, after, t, customerId, balance, htx, hid, hledger, hstr, hbalance⟩ := hl text htext
  have hmem : t ∈ h.tables.transactions := by rw [htx]; simp
  refine ⟨before, after ++ rows, t, customerId, balance, ?_, hid, (he.ledger t hmem).trans hledger,
    hstr, ?_⟩
  · rw [he.transactions, htx]
    simp
  · have hsame : h'.ledger.total customerId (before ++ [t]) =
        h.ledger.total customerId (before ++ [t]) := by
      refine Ledger.total_congr fun u hu => he.ledger u ?_
      rw [htx]
      simp only [List.mem_append, List.mem_cons] at hu ⊢
      tauto
    rw [hsame]
    exact hbalance

theorem Extends.total (he : Extends h h' rows) (customerId : UUID) :
    h'.ledger.total customerId h'.tables.transactions =
      h.ledger.total customerId h.tables.transactions + h'.ledger.total customerId rows := by
  rw [he.transactions, Ledger.total_append, Ledger.total_congr he.ledger]

end Extends

section Keep

variable {h : History} {db' : Tables}

/-! ## Maintenance -/

theorem Booked.upkeep (hb : Booked h) (hc : h.tables.Constraints) (hu : Upkeep h.tables db') :
    Booked ⟨db', h.ledger⟩ := by
  have hsuspense : ∀ t, db'.suspenseOf t = h.tables.suspenseOf t := by
    intro t
    unfold Tables.suspenseOf
    rw [hu.suspenseLogs]
  constructor
  · exact fun x hx => lt_of_lt_of_le (hb.older x hx) hu.clock
  · intro t ht
    have hmem : t ∈ h.tables.transactions := hu.transactions ▸ ht
    cases hb.placed t hmem with
    | @credited a mem account ledger suspense =>
      obtain ⟨a', ha', hid, howner⟩ := hu.owners a mem
      refine .credited ha' ?_ ?_ ((hsuspense t).trans suspense)
      · rw [hid]; exact account
      · rw [howner]; exact ledger
    | held ledger suspense amount => exact .held ledger ((hsuspense t).trans suspense) amount
  · intro c' hc'
    show c'.walletBalance = h.ledger.total c'.id db'.transactions
    rw [hu.transactions]
    rcases hu.wallets c' hc' with ⟨c, hmem, hid, hwallet⟩ | ⟨hnew, hzero⟩
    · rw [← hwallet, ← hid]
      exact hb.wallet c hmem
    · -- nothing is credited to a customer that was not there yet
      rw [hzero, Ledger.total_none]
      intro t ht heq
      cases hb.placed t ht with
      | @credited a mem account ledger suspense =>
        obtain ⟨c, hmem, hid⟩ := hc.account_fk a mem
        have hold := hc.customer_fresh c hmem
        rw [ledger, List.cons.injEq] at heq
        rw [hid, heq.1] at hold
        exact absurd hold (Nat.not_lt.mpr hnew)
      | held ledger suspense amount =>
        rw [ledger] at heq
        cases heq
  · intro l hl text htext
    rcases hu.logs l hl with hold | hnone
    · rw [show (⟨db', h.ledger⟩ : History).tables.transactions = h.tables.transactions from
        hu.transactions]
      exact hb.told l hold text htext
    · rw [hnone] at htext
      cases htext

/-- A change outside of the tables that matter. -/
theorem Booked.of_same (hb : Booked h) (hcustomers : db'.customers = h.tables.customers)
    (haccounts : db'.dedicatedAccounts = h.tables.dedicatedAccounts)
    (htx : db'.transactions = h.tables.transactions)
    (hsus : db'.suspenseLogs = h.tables.suspenseLogs)
    (hlogs : db'.reconciliationLogs = h.tables.reconciliationLogs)
    (hclock : h.tables.clock ≤ db'.clock) : Booked ⟨db', h.ledger⟩ := by
  have he : Extends h ⟨db', h.ledger⟩ [] := by
    refine ⟨haccounts, htx.trans (List.append_nil _).symm, fun _ _ => rfl, fun t _ => ?_⟩
    show db'.suspenseOf t = _
    unfold Tables.suspenseOf
    rw [hsus]
  refine ⟨fun x hx => lt_of_lt_of_le (hb.older x hx) hclock, fun t ht => ?_, fun c hc => ?_,
    fun l hl => ?_⟩
  · have hmem : t ∈ h.tables.transactions := htx ▸ ht
    exact he.placed hmem (hb.placed t hmem)
  · have hmem : c ∈ h.tables.customers := hcustomers ▸ hc
    rw [hb.wallet c hmem, ← htx]
  · exact he.told (hb.told l (hlogs ▸ hl))

theorem booked_maintains (hb : Booked h) (hc : h.tables.Constraints)
    (hm : MaintainsAll h.tables db') : db'.Constraints ∧ Booked ⟨db', h.ledger⟩ := by
  induction hm with
  | refl => exact ⟨hc, hb⟩
  | tail _ hstep ih =>
    obtain ⟨hc₁, hb₁⟩ := ih
    exact ⟨hstep.constraints hc₁, hb₁.upkeep hc₁ (hstep.upkeep hc₁)⟩

/-! ## Deliveries -/

section Insert

variable {new : NewTransaction} {t : Transaction} {db₁ : Tables}

/-- Suspense entries of other transactions do not mind a new one. -/
theorem suspenseOf_append {db db' : Tables} {l : SuspenseLog}
    (hsus : db'.suspenseLogs = db.suspenseLogs ++ [l]) {u : Transaction} (hu : l.transactionId ≠ u.id) :
    db'.suspenseOf u = db.suspenseOf u := by
  unfold Tables.suspenseOf
  rw [hsus]
  exact filter_append_out (decide_eq_false hu)

theorem Booked.held (hb : Booked h) (hc : h.tables.Constraints) (reason : SuspenseReason)
    (insert : h.tables.createTransaction new = .ok (t, db₁)) :
    Booked ⟨db₁.quarantined t reason, h.ledger⟩ := by
  obtain ⟨hrow, -, -, rfl⟩ := createTransaction_ok_iff.mp insert
  have hid : t.id = h.tables.clock := (NewTransaction.row_ok hrow).id
  set db' := Tables.quarantined { h.tables with
    transactions := h.tables.transactions ++ [t], clock := h.tables.clock + 1 } t reason with hdb'
  have hledger : h.ledger.creditedWith t = [] :=
    Ledger.creditedWith_nil fun x hx => ne_of_fresh (hb.older x hx) hid
  have he : Extends h ⟨db', h.ledger⟩ [t] := by
    refine ⟨rfl, rfl, fun _ _ => rfl, fun u hu => suspenseOf_append rfl ?_⟩
    exact (ne_of_fresh (hc.transaction_fresh u hu) hid).symm
  have hnone : h.tables.suspenseOf t = [] := suspenseOf_new hc hid
  refine ⟨fun x hx => ?_, fun u hu => ?_, fun c hmem => ?_, fun l hl => ?_⟩
  · exact Nat.lt_of_lt_of_le (hb.older x hx) (Nat.le_add_right _ 3)
  · rcases List.mem_append.mp hu with hu | hu
    · exact he.placed hu (hb.placed u hu)
    · rw [List.mem_singleton.mp hu]
      have hsuspense : db'.suspenseOf t = [⟨h.tables.clock + 1, t.id, reason, t.amount⟩] := by
        unfold Tables.suspenseOf at hnone
        simp [hdb', Tables.suspenseOf, Tables.quarantined, List.filter_append, hnone]
      exact .held hledger hsuspense rfl
  · rw [he.total c.id, Ledger.total_other (by rw [hledger]; simp), add_zero]
    exact hb.wallet c hmem
  · rcases List.mem_append.mp hl with hl | hl
    · exact he.told (hb.told l hl)
    · rw [List.mem_singleton.mp hl]
      intro text htext
      simp [ReconciliationLog.walletAfter, List.lookup_cons] at htext

theorem Booked.credit (hb : Booked h) (hc : h.tables.Constraints) {requestId payload : Json}
    {p : Payment} {account : DedicatedAccount} {row : Customer Cents} {wallet : Cents}
    (hi : Inserts requestId payload p h.tables account row t db₁)
    (hwallet : wallet = row.walletBalance + t.amount) :
    Booked ⟨db₁.credited row wallet, h.ledger ++ [(t.id, row.id)]⟩ := by
  obtain ⟨hrow, -, -, rfl⟩ := createTransaction_ok_iff.mp hi.insert
  have hr := NewTransaction.row_ok hrow
  have hid : t.id = h.tables.clock := hr.id
  set h' : History := ⟨Tables.credited { h.tables with
    transactions := h.tables.transactions ++ [t], clock := h.tables.clock + 1 } row wallet,
      h.ledger ++ [(t.id, row.id)]⟩ with hh'
  have hledger : h'.ledger.creditedWith t = [row.id] :=
    Ledger.creditedWith_new fun x hx => ne_of_fresh (hb.older x hx) hid
  have he : Extends h h' [t] := by
    refine ⟨rfl, rfl, fun u hu => ?_, fun _ _ => rfl⟩
    have hne : t.id ≠ u.id := (ne_of_fresh (hc.transaction_fresh u hu) hid).symm
    have hnil : Ledger.creditedWith [(t.id, row.id)] u = [] := by
      refine Ledger.creditedWith_nil fun x hx => ?_
      rw [List.mem_singleton.mp hx]
      exact hne
    rw [Ledger.creditedWith_append, hnil, List.append_nil]
  refine ⟨fun x hx => ?_, fun u hu => ?_, fun c hmem => ?_, fun l hl => he.told (hb.told l hl)⟩
  · rcases List.mem_append.mp hx with hx | hx
    · exact Nat.lt_succ_of_lt (hb.older x hx)
    · rw [List.mem_singleton.mp hx]
      exact lt_tick hid
  · rcases List.mem_append.mp hu with hu | hu
    · exact he.placed hu (hb.placed u hu)
    · rw [List.mem_singleton.mp hu]
      refine .credited (route_mem hi.route) hr.account (hledger.trans ?_) (suspenseOf_new hc hid)
      rw [hi.owner]
  · rw [he.total c.id]
    rcases mem_setRow.mp hmem with ⟨rfl, -⟩ | ⟨hold, hne⟩
    · rw [Ledger.total_self hledger, ← hb.wallet row hi.mem]
      exact hwallet
    · rw [Ledger.total_other (by rw [hledger]; simpa using Ne.symm hne), add_zero]
      exact hb.wallet c hold

theorem Booked.log (hb : Booked h) {l : ReconciliationLog} (hl : Told h l) :
    Booked ⟨h.tables.logged l, h.ledger⟩ :=
  ⟨fun x hx => Nat.lt_succ_of_lt (hb.older x hx), fun u hu => by
    have he : Extends h ⟨h.tables.logged l, h.ledger⟩ [] :=
      ⟨rfl, (List.append_nil _).symm, fun _ _ => rfl, fun _ _ => rfl⟩
    exact he.placed hu (hb.placed u hu), hb.wallet, forall_mem_append hb.told hl⟩

end Insert

section Deliver

variable {env : Surroundings} {payload requestId : Json} {p : Payment}

/-- The balance a credit computes is the exact one. -/
theorem exact_credit {db : Tables} (hexact : ExactIn db payload) (hk : kindOf payload = .payment requestId p)
    {reference : String} {account : DedicatedAccount} {row : Customer Cents} {t : Transaction}
    {db₁ : Tables} (hi : Inserts requestId payload (p.withReference reference) db account row t db₁) :
    Decimal.IsScaled 2 (p.walletAfter row) (row.walletBalance + t.amount) ∧
      numericColumn (p.walletAfter row) = .ok (row.walletBalance + t.amount) ∧
      (row.walletBalance + t.amount).natAbs < 10 ^ prec := by
  obtain ⟨n, hn, hsum⟩ := hexact requestId p hk
  have hrow := (createTransaction_ok_iff.mp hi.insert).1
  have hamount : t.amount = n :=
    Decimal.eq_of_quantize hn (decimalField_ok_iff.mp (NewTransaction.row_ok hrow).amount)
  have hfits := hsum account row ⟨hi.route, hi.active, hi.mem, hi.owner⟩
  have hafter : Decimal.IsScaled 2 (p.walletAfter row) (row.walletBalance + n) :=
    Decimal.add_exact (Decimal.isScaled_ofScaled 2 _) hn hfits
  rw [hamount]
  refine ⟨hafter, numericColumn_ok_iff.mpr (Decimal.toColumn_exact hafter (lt_trans hfits ?_)), hfits⟩
  unfold prec
  norm_num

/-- The decision of a credit tells the new total. -/
theorem told_credit (hb : Booked h) (hc : h.tables.Constraints) (hexact : ExactIn h.tables payload)
    (hk : kindOf payload = .payment requestId p) {reference : String} {account : DedicatedAccount}
    {row : Customer Cents} {t : Transaction} {db₁ : Tables}
    (hi : Inserts requestId payload (p.withReference reference) h.tables account row t db₁)
    (expected : Option Cents) (clock : Nat) :
    Told ⟨db₁.credited row (row.walletBalance + t.amount), h.ledger ++ [(t.id, row.id)]⟩
      ((p.withReference reference).creditLogRow row t expected clock) := by
  have hbooked := hb.credit hc hi rfl
  obtain ⟨hrow, -, -, rfl⟩ := createTransaction_ok_iff.mp hi.insert
  have hid : t.id = h.tables.clock := (NewTransaction.row_ok hrow).id
  intro text htext
  refine ⟨h.tables.transactions, [], t, row.id, (p.withReference reference).walletAfter row, rfl, rfl,
    Ledger.creditedWith_new fun x hx => ne_of_fresh (hb.older x hx) hid, ?_, ?_⟩
  · simpa [ReconciliationLog.walletAfter, Payment.creditLogRow, creditLog, List.lookup_cons] using htext.symm
  · let row' : Customer Cents :=
      { row with walletBalance := row.walletBalance + t.amount, updatedAt := h.tables.clock + 1 }
    have hmem : row' ∈ setRow (·.id) row' h.tables.customers :=
      mem_setRow.mpr (.inl ⟨rfl, row, hi.mem, rfl⟩)
    have htotal := hbooked.wallet row' hmem
    have hbalance := (exact_credit hexact hk hi).1
    rw [show row.walletBalance + t.amount = _ from htotal] at hbalance
    exact hbalance

theorem booked_settles (hb : Booked h) (hc : h.tables.Constraints)
    (hexact : ExactIn h.tables payload) (hk : kindOf payload = .payment requestId p)
    {o : Outcome Op Res Err PaymentResult Tables}
    (hs : Settles env requestId payload (p.withReference env.reference) h.tables o) :
    Booked ⟨o.state, h.ledger ++ Ledger.entries o.events⟩ := by
  cases hs with
  | refused insert => exact (List.append_nil h.ledger).symm ▸ hb
  | held hold insert => exact (List.append_nil h.ledger).symm ▸ hb.held hc _ insert
  | unsaved credit wallet_error =>
    have hw := (exact_credit hexact hk credit).2.1
    cases wallet_error.symm.trans hw
  | unlogged credit wallet_ok target_error =>
    have hw := (exact_credit hexact hk credit).2.1
    cases wallet_ok.symm.trans hw
    exact hb.credit hc credit rfl
  | undelivered credit wallet_ok target_ok emit =>
    have hw := (exact_credit hexact hk credit).2.1
    cases wallet_ok.symm.trans hw
    exact (hb.credit hc credit rfl).log (told_credit hb hc hexact hk credit _ _)
  | credited credit wallet_ok target_ok emit =>
    have hw := (exact_credit hexact hk credit).2.1
    cases wallet_ok.symm.trans hw
    exact (hb.credit hc credit rfl).log (told_credit hb hc hexact hk credit _ _)

theorem entries_mark (evs : List (Event Op Res)) (requestId eventType : String) :
    Ledger.entries (evs ++ [⟨.processedCreate requestId eventType, ()⟩]) = Ledger.entries evs := by
  have hinserted : [(⟨.processedCreate requestId eventType, ()⟩ : Event Op Res)].filterMap
      Ledger.inserted = [] := rfl
  have hsaved : [(⟨.processedCreate requestId eventType, ()⟩ : Event Op Res)].filterMap
      Ledger.saved = [] := rfl
  unfold Ledger.entries
  rw [List.filterMap_append, List.filterMap_append, hinserted, hsaved, List.append_nil,
    List.append_nil]

theorem booked_delivers (hb : Booked h) (hc : h.tables.Constraints)
    (hexact : ExactIn h.tables payload) {o : Outcome Op Res Err Response Tables}
    (hd : Delivers env payload h.tables o) :
    Booked ⟨o.state, h.ledger ++ Ledger.entries o.events⟩ := by
  cases hd with
  | failed kind fresh settle => exact booked_settles hb hc hexact kind settle
  | @settled requestId p result db₂ evs kind fresh settle =>
    have hs : Booked ⟨db₂, h.ledger ++ Ledger.entries evs⟩ := booked_settles hb hc hexact kind settle
    show Booked ⟨_, h.ledger ++ Ledger.entries (evs ++ [_])⟩
    rw [entries_mark]
    exact hs.of_same rfl rfl rfl rfl rfl (Nat.le_succ _)
  | ignored kind fresh mark =>
    obtain ⟨-, -, -, rfl⟩ := createProcessedEvent_ok_iff.mp mark
    show Booked ⟨_, h.ledger ++ []⟩
    rw [List.append_nil]
    exact hb.of_same rfl rfl rfl rfl rfl (Nat.le_succ _)
  | _ => exact (List.append_nil h.ledger).symm ▸ hb

end Deliver

end Keep

/-! ## Whole histories -/

theorem booked_start : Booked .start := by
  constructor <;> simp [History.start, Tables.empty]

theorem booked_step {h : History} {s : Step} (hb : Booked h) (hc : h.tables.Constraints)
    (hexact : ∀ payload, s.delivers h.tables = some payload → ExactIn h.tables payload) :
    Booked (h.step s) := by
  cases hs : s.delivers h.tables with
  | none =>
    obtain ⟨hm, hledger⟩ := step_maintains hc hs
    have hstep : h.step s = ⟨(h.step s).tables, h.ledger⟩ := by rw [← hledger]
    rw [hstep]
    exact (booked_maintains hb hc hm).2
  | some payload =>
    obtain ⟨env, o, hd, hstep⟩ := step_delivers hc hs
    rw [hstep]
    exact booked_delivers hb hc (hexact payload hs) hd

theorem booked_run {h : History} {steps : List Step} (hb : Booked h) (hc : h.tables.Constraints)
    (hexact : h.Exact steps) : (steps.foldl .step h).tables.Constraints ∧
      Booked (steps.foldl .step h) := by
  induction steps generalizing h with
  | nil => exact ⟨hc, hb⟩
  | cons s steps ih => exact ih (booked_step hb hc hexact.1) (step_constraints hc) hexact.2

/-- The transactions on a customer's accounts that have no suspense entry. -/
def Tables.unsuspended (db : Tables) (customerId : UUID) : List Transaction :=
  db.transactions.filter fun t => db.dedicatedAccounts.any (fun a =>
    a.customerId = customerId ∧ t.dedicatedAccountId = some a.id) ∧ db.suspenseOf t = []

/-- Money is conserved: (a) a transaction is credited to one customer or has one suspense entry of its
amount, (b) a wallet is the sum of the unsuspended transactions on its customer's accounts, and (c) a
balance told by a decision is the sum credited to the customer up to and including its transaction. -/
structure Conserved (h : History) : Prop where
  placed : ∀ t ∈ h.tables.transactions,
    ((∃ customerId, h.ledger.creditedWith t = [customerId]) ∧ h.tables.suspenseOf t = []) ∨
      (h.ledger.creditedWith t = [] ∧ ∃ l, h.tables.suspenseOf t = [l] ∧ l.amount = t.amount)
  wallet : ∀ c ∈ h.tables.customers,
    c.walletBalance = ((h.tables.unsuspended c.id).map (·.amount)).sum
  told : ∀ l ∈ h.tables.reconciliationLogs, Told h l

/-- A transaction is credited to a customer exactly when it is unsuspended on one of its accounts. -/
theorem credited_iff_unsuspended {h : History} (hc : h.tables.Constraints) {t : Transaction}
    (hp : Placed h t) (customerId : UUID) : h.ledger.creditedWith t = [customerId] ↔
      (h.tables.dedicatedAccounts.any fun a =>
        a.customerId = customerId ∧ t.dedicatedAccountId = some a.id) = true ∧
          h.tables.suspenseOf t = [] := by
  rw [List.any_eq_true]
  cases hp with
  | @credited a mem account ledger suspense =>
    rw [ledger, and_iff_left suspense]
    constructor
    · intro hid
      rw [List.cons.injEq] at hid
      exact ⟨a, mem, by simp [hid.1, account]⟩
    · rintro ⟨b, hb, hab⟩
      simp only [decide_eq_true_eq] at hab
      rw [account, Option.some.injEq] at hab
      obtain rfl := eq_of_key hc.account_pk mem hb hab.2
      rw [hab.1]
  | held ledger suspense amount =>
    rw [ledger, suspense]
    simp

theorem conserved_of_booked {h : History} (hc : h.tables.Constraints) (hb : Booked h) :
    Conserved h := by
  refine ⟨fun t ht => ?_, fun c hmem => ?_, hb.told⟩
  · cases hb.placed t ht with
    | credited mem account ledger suspense => exact .inl ⟨⟨_, ledger⟩, suspense⟩
    | held ledger suspense amount => exact .inr ⟨ledger, _, suspense, amount⟩
  · rw [hb.wallet c hmem, Ledger.total, Tables.unsuspended]
    congr 2
    refine List.filter_congr fun t ht => ?_
    have hiff := credited_iff_unsuspended hc (hb.placed t ht) c.id
    simp only [hiff]

/-- In every state of every history from empty tables whose sums stay exact, money is conserved. -/
theorem money_conserved (steps : List Step) (hexact : History.start.Exact steps) :
    Conserved (History.run steps) := by
  obtain ⟨hc, hb⟩ := booked_run booked_start Database.empty.constraints hexact
  exact conserved_of_booked hc hb

/-- One customer is provisioned, is paid, and then has its account closed before the next payment. -/
def closingSteps : List Step :=
  [.call (.create ⟨"cust-1", "Ada", none, none, none, []⟩ 7
      (.success (.obj [("accountNumber", .str "9901")]))),
    .call (.receive quiet (samplePayment "R1" "9901" 5)), .setStatus 1 .closed,
    .call (.receive quiet (samplePayment "R2" "9901" 7))]

theorem closingSteps_exact : History.start.Exact closingSteps := by
  refine ⟨fun payload hs => ?_, fun payload hs => ?_, fun payload hs => ?_, fun payload hs => ?_,
    trivial⟩
  · cases hs
  · cases hs
    intro requestId p hk
    cases hk
    refine ⟨500, by norm_num [Decimal.IsScaled, Decimal.toRat, Decimal.num, signed], ?_⟩
    intro account row hc
    have hrow : row = _ := List.mem_singleton.mp hc.mem
    rw [hrow]
    decide
  · cases hs
  · cases hs
    intro requestId p hk
    cases hk
    refine ⟨700, by norm_num [Decimal.IsScaled, Decimal.toRat, Decimal.num, signed], ?_⟩
    intro account row hc
    have hrow : row = _ := List.mem_singleton.mp hc.mem
    rw [hrow]
    decide

theorem money_conserved_when_closing : Conserved (History.run closingSteps) :=
  money_conserved closingSteps closingSteps_exact

end LdbBackend
