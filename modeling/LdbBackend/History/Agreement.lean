import LdbBackend.History.Conservation
import LdbBackend.Model.Statements
import LdbBackend.Payments.Posting
import LdbBackend.Payments.Status

/-!
# The statement and the wallet

The wallet is kept per customer, payment by payment; a statement sums the transactions of one account
that are not MISDIRECTED. They agree because a customer has one account, and because a transaction is
MISDIRECTED exactly when it is held in suspense, amounts of zero apart (`Stated`).
-/

namespace LdbBackend

open Fixed Effects Table

/-- The amount of a payment is not negative. -/
def NonnegIn (payload : Json) : Prop :=
  ∀ requestId p, kindOf payload = .payment requestId p → Decimal.zero ≤ p.amount

namespace History

/-- No step delivers a negative amount. -/
def Nonneg : History → List Step → Prop
  | _, [] => True
  | h, s :: steps => (∀ payload, s.delivers h.tables = some payload → NonnegIn payload) ∧
      Nonneg (h.step s) steps

end History

/-- What a transaction's status says of its money. -/
structure StatusSays (db : Tables) (t : Transaction) : Prop where
  held : db.suspenseOf t ≠ [] → t.status = .misdirected
  empty : db.suspenseOf t = [] → t.status = .misdirected → t.amount = 0

structure Stated (db : Tables) : Prop where
  one : (db.dedicatedAccounts.map (·.customerId)).Nodup
  fits : ∀ c ∈ db.customers, c.walletBalance.natAbs < 10 ^ prec
  nonneg : ∀ t ∈ db.transactions, 0 ≤ t.amount
  status : ∀ t ∈ db.transactions, StatusSays db t

section Keep

variable {db db' : Tables}

theorem Maintains.one (hc : db.Constraints) (hm : Maintains db db') (h : (db.dedicatedAccounts.map (·.customerId)).Nodup) :
    (db'.dedicatedAccounts.map (·.customerId)).Nodup := by
  cases hm with
  | customer insert =>
    obtain ⟨row, -, -, -, rfl⟩ := createCustomer_ok_iff.mp insert
    exact h
  | removal id unowned => rw [deleteCustomer_unowned unowned]; exact h
  | account insert first =>
    obtain ⟨-, -, -, rfl⟩ := createAccount_ok_iff.mp insert
    exact nodup_map_append h first
  | editCustomer mem id wallet valid => exact h
  | @editAccount a a' mem id owner valid =>
    show ((setRow (·.id) a' db.dedicatedAccounts).map (·.customerId)).Nodup
    rw [map_setRow]
    · exact h
    · intro b hb hid
      rw [owner, eq_of_key hc.account_pk hb mem (hid.trans id)]
  | log insert details =>
    obtain ⟨l, -, -, rfl⟩ := createReconciliationLog_ok_iff.mp insert
    exact h
  | registration r => exact h

theorem Stated.of_same (hs : Stated db) (hcustomers : db'.customers = db.customers)
    (haccounts : db'.dedicatedAccounts = db.dedicatedAccounts)
    (htx : db'.transactions = db.transactions) (hsus : db'.suspenseLogs = db.suspenseLogs) :
    Stated db' := by
  have hsuspense : ∀ t, db'.suspenseOf t = db.suspenseOf t := by
    intro t
    unfold Tables.suspenseOf
    rw [hsus]
  refine ⟨haccounts ▸ hs.one, hcustomers ▸ hs.fits, htx ▸ hs.nonneg, fun t ht => ?_⟩
  have hold := hs.status t (htx ▸ ht)
  exact ⟨fun hne => hold.held (hsuspense t ▸ hne), fun hnil => hold.empty (hsuspense t ▸ hnil)⟩

theorem Stated.maintains (hs : Stated db) (hc : db.Constraints) (hm : Maintains db db') :
    Stated db' := by
  have hu := hm.upkeep hc
  have hsuspense : ∀ t, db'.suspenseOf t = db.suspenseOf t := by
    intro t
    unfold Tables.suspenseOf
    rw [hu.suspenseLogs]
  refine ⟨hm.one hc hs.one, fun c' hc' => ?_, ?_, ?_⟩
  · rcases hu.wallets c' hc' with ⟨c, hmem, -, hwallet⟩ | ⟨-, hzero⟩
    · rw [← hwallet]
      exact hs.fits c hmem
    · rw [hzero]
      unfold prec
      decide
  · rw [hu.transactions]
    exact hs.nonneg
  · rw [hu.transactions]
    intro t ht
    have hold := hs.status t ht
    exact ⟨fun hne => hold.held (hsuspense t ▸ hne), fun hnil => hold.empty (hsuspense t ▸ hnil)⟩

theorem Stated.maintainsAll (hs : Stated db) (hc : db.Constraints) (hm : MaintainsAll db db') :
    db'.Constraints ∧ Stated db' := by
  induction hm with
  | refl => exact ⟨hc, hs⟩
  | tail _ hstep ih => exact ⟨hstep.constraints ih.1, ih.2.maintains ih.1 hstep⟩

section Deliver

variable {env : Surroundings} {payload requestId : Json} {p : Payment} {t : Transaction}
  {db₁ : Tables}

/-- The amount of an inserted payment is not negative, and zero when the payment's is. -/
theorem amount_of_nonneg (hexact : ExactIn db payload) (hpos : NonnegIn payload)
    (hk : kindOf payload = .payment requestId p) {reference : String}
    {account : Option DedicatedAccount} {status : TransactionStatus}
    (insert : db.createTransaction
      ((p.withReference reference).newTransaction requestId payload account status) = .ok (t, db₁)) :
    0 ≤ t.amount ∧ (¬ Decimal.zero < p.amount → t.amount = 0) := by
  obtain ⟨n, hn, -⟩ := hexact requestId p hk
  have hrow := (createTransaction_ok_iff.mp insert).1
  have hamount : t.amount = n :=
    Decimal.eq_of_quantize hn (decimalField_ok_iff.mp (NewTransaction.row_ok hrow).amount)
  have hle := hpos requestId p hk
  rw [Decimal.le_iff, Decimal.toRat_zero, hn] at hle
  have hn0 : (0 : ℚ) ≤ n := by
    by_contra hneg
    have : (n : ℚ) / 10 ^ 2 < 0 := div_neg_of_neg_of_pos (not_le.mp hneg) (by norm_num)
    exact absurd hle (not_le.mpr this)
  rw [hamount]
  refine ⟨by exact_mod_cast hn0, fun hnot => ?_⟩
  rw [Decimal.lt_iff, Decimal.toRat_zero, hn, not_lt] at hnot
  have hzero : (n : ℚ) ≤ 0 := by
    by_contra hgt
    have : 0 < (n : ℚ) / 10 ^ 2 := div_pos (not_le.mp hgt) (by norm_num)
    exact absurd hnot (not_le.mpr this)
  exact_mod_cast le_antisymm hzero hn0

theorem Stated.held (hs : Stated db) (hc : db.Constraints) (hexact : ExactIn db payload)
    (hpos : NonnegIn payload) (hk : kindOf payload = .payment requestId p) {reference : String}
    {account : Option DedicatedAccount} (reason : SuspenseReason)
    (insert : db.createTransaction
      ((p.withReference reference).newTransaction requestId payload account .misdirected) =
        .ok (t, db₁)) : Stated (db₁.quarantined t reason) := by
  have hamount := (amount_of_nonneg hexact hpos hk insert).1
  obtain ⟨hrow, -, -, rfl⟩ := createTransaction_ok_iff.mp insert
  have hr := NewTransaction.row_ok hrow
  refine ⟨hs.one, hs.fits, forall_mem_append hs.nonneg hamount, forall_mem_append ?_ ?_⟩
  · intro u hu
    have hsame : (Tables.quarantined { db with transactions := db.transactions ++ [t], clock := db.clock + 1 }
        t reason).suspenseOf u = db.suspenseOf u :=
      suspenseOf_append rfl (ne_of_fresh (hc.transaction_fresh u hu) hr.id).symm
    have hold := hs.status u hu
    exact ⟨fun hne => hold.held (hsame ▸ hne), fun hnil => hold.empty (hsame ▸ hnil)⟩
  · refine ⟨fun _ => hr.status, fun hnil => ?_⟩
    simp [Tables.suspenseOf, Tables.quarantined, List.filter_append] at hnil

theorem Stated.credit (hs : Stated db) (hc : db.Constraints) (hexact : ExactIn db payload)
    (hpos : NonnegIn payload) (hk : kindOf payload = .payment requestId p) {reference : String}
    {account : DedicatedAccount} {row : Customer Cents}
    (hi : Inserts requestId payload (p.withReference reference) db account row t db₁)
    (hfits : (row.walletBalance + t.amount).natAbs < 10 ^ prec) :
    Stated (db₁.credited row (row.walletBalance + t.amount)) := by
  obtain ⟨hamount, hzero⟩ := amount_of_nonneg hexact hpos hk hi.insert
  obtain ⟨hrow, -, -, rfl⟩ := createTransaction_ok_iff.mp hi.insert
  have hr := NewTransaction.row_ok hrow
  refine ⟨hs.one, fun c hmem => ?_, forall_mem_append hs.nonneg hamount,
    forall_mem_append (fun u hu => ⟨(hs.status u hu).held, (hs.status u hu).empty⟩) ?_⟩
  · rcases mem_setRow.mp hmem with ⟨rfl, -⟩ | ⟨hold, -⟩
    · exact hfits
    · exact hs.fits c hold
  · refine ⟨fun hne => absurd (suspenseOf_new hc hr.id) hne, fun _ hstatus => hzero fun hgt => ?_⟩
    have hne : p.creditStatus row ≠ .misdirected := creditStatus_pos hgt
    exact hne (hr.status.symm.trans hstatus)

theorem stated_settles (hs : Stated db) (hc : db.Constraints) (hexact : ExactIn db payload)
    (hpos : NonnegIn payload) (hk : kindOf payload = .payment requestId p)
    {o : Outcome Op Res Err PaymentResult Tables}
    (hset : Settles env requestId payload (p.withReference env.reference) db o) : Stated o.state := by
  cases hset with
  | refused insert => exact hs
  | held hold insert => exact hs.held hc hexact hpos hk _ insert
  | unsaved credit wallet_error =>
    cases wallet_error.symm.trans (exact_credit hexact hk credit).2.1
  | unlogged credit wallet_ok target_error =>
    obtain ⟨-, hw, hfits⟩ := exact_credit hexact hk credit
    cases wallet_ok.symm.trans hw
    exact hs.credit hc hexact hpos hk credit hfits
  | undelivered credit wallet_ok target_ok emit =>
    obtain ⟨-, hw, hfits⟩ := exact_credit hexact hk credit
    cases wallet_ok.symm.trans hw
    exact (hs.credit hc hexact hpos hk credit hfits).of_same rfl rfl rfl rfl
  | credited credit wallet_ok target_ok emit =>
    obtain ⟨-, hw, hfits⟩ := exact_credit hexact hk credit
    cases wallet_ok.symm.trans hw
    exact (hs.credit hc hexact hpos hk credit hfits).of_same rfl rfl rfl rfl

theorem stated_delivers (hs : Stated db) (hc : db.Constraints) (hexact : ExactIn db payload)
    (hpos : NonnegIn payload) {o : Outcome Op Res Err Response Tables}
    (hd : Delivers env payload db o) : Stated o.state := by
  cases hd with
  | failed kind fresh settle => exact stated_settles hs hc hexact hpos kind settle
  | settled kind fresh settle =>
    exact (stated_settles hs hc hexact hpos kind settle).of_same rfl rfl rfl rfl
  | ignored kind fresh mark =>
    obtain ⟨-, -, -, rfl⟩ := createProcessedEvent_ok_iff.mp mark
    exact hs.of_same rfl rfl rfl rfl
  | _ => exact hs

end Deliver

end Keep

theorem stated_run {h : History} {steps : List Step} (hs : Stated h.tables) (hc : h.tables.Constraints)
    (hexact : h.Exact steps) (hpos : h.Nonneg steps) : Stated (steps.foldl .step h).tables := by
  induction steps generalizing h with
  | nil => exact hs
  | cons s steps ih =>
    refine ih ?_ (step_constraints hc) hexact.2 hpos.2
    cases hd : s.delivers h.tables with
    | none =>
      exact (hs.maintainsAll hc (step_maintains hc hd).1).2
    | some payload =>
      obtain ⟨env, o, hdel, hstep⟩ := step_delivers hc hd
      rw [hstep]
      exact stated_delivers hs hc (hexact.1 payload hd) (hpos.1 payload hd) hdel

/-! ## The statement -/

/-- Sums over two selections of rows that differ only in rows that count nothing. -/
theorem sum_filter_congr {ρ : Type} {f : ρ → Int} {p q : ρ → Bool} {rows : List ρ}
    (h : ∀ r ∈ rows, p r ≠ q r → f r = 0) :
    ((rows.filter p).map f).sum = ((rows.filter q).map f).sum := by
  induction rows with
  | nil => rfl
  | cons r rows ih =>
    have ih := ih fun r' hr' => h r' (List.mem_cons_of_mem _ hr')
    have hr := h r List.mem_cons_self
    by_cases hpq : p r = q r
    · rw [List.filter_cons, List.filter_cons, hpq]
      split_ifs
      · rw [List.map_cons, List.map_cons, List.sum_cons, List.sum_cons, ih]
      · exact ih
    · have hzero : f r = 0 := hr hpq
      have hsum : ∀ (u : ρ → Bool), (((r :: rows).filter u).map f).sum = ((rows.filter u).map f).sum := by
        intro u
        rw [List.filter_cons]
        split_ifs
        · rw [List.map_cons, List.sum_cons, hzero, zero_add]
        · rfl
      rw [hsum p, hsum q, ih]

section Statement

variable {h : History} {a : DedicatedAccount}

/-- The transactions of an account that are not MISDIRECTED are worth what the ledger has for its
owner. -/
theorem listed_total (hc : h.tables.Constraints) (hb : Booked h) (hs : Stated h.tables)
    (ha : a ∈ h.tables.dedicatedAccounts) :
    (((transactionsOf h.tables a.id).filter (·.status ≠ .misdirected)).map (·.amount)).sum =
      h.ledger.total a.customerId h.tables.transactions := by
  rw [transactionsOf, List.filter_filter]
  refine sum_filter_congr fun t ht hne => ?_
  have hmeans := hs.status t ht
  cases hb.placed t ht with
  | @credited b mem account ledger suspense =>
    by_cases hab : b = a
    · -- credited to the owner of this account, so it is left out only when it is worth nothing
      subst hab
      by_contra hamount
      have hstatus : t.status ≠ .misdirected := fun hm => hamount (hmeans.empty suspense hm)
      exact hne (by simp [hstatus, account, ledger])
    · have hid : b.id ≠ a.id := fun hid => hab (eq_of_key hc.account_pk mem ha hid)
      have howner : b.customerId ≠ a.customerId := fun ho => hab (eq_of_key hs.one mem ha ho)
      exact absurd (by simp [account, ledger, hid, howner]) hne
  | @held l ledger suspense amount =>
    have hstatus : t.status = .misdirected := hmeans.held (by rw [suspense]; simp)
    exact absurd (by simp [hstatus, ledger]) hne

theorem accountFor_owner (hc : h.tables.Constraints) (ha : a ∈ h.tables.dedicatedAccounts) :
    ∃ row ∈ h.tables.customers, row.id = a.customerId ∧
      accountFor h.tables a.id row.merchantId = .ok (a, row.load) := by
  obtain ⟨row, hrow, hid⟩ := hc.account_fk a ha
  refine ⟨row, hrow, hid, ?_⟩
  have hget : getOrNone (·.id = a.id) h.tables.dedicatedAccounts = .ok (some a) := by
    have hkey := getOrNone_key hc.account_pk a.id
    rw [hkey, find?_of_mem hc.account_pk ha]
  have hfind : h.tables.customers.find? (·.id = a.customerId) = some row := by
    rw [← hid]
    exact find?_of_mem hc.customer_pk hrow
  unfold accountFor
  rw [hget]
  simp only [hfind, Option.map_some, bind, Except.bind]
  simp

/-- The total of a statement is the exact sum of its rows, in whatever order they come. -/
theorem totalReceived_exact {rows rows' : List Transaction} (hperm : rows'.Perm rows)
    (hpos : ∀ t ∈ rows, 0 ≤ t.amount)
    (hfits : ((rows.filter (·.status ≠ .misdirected)).map (·.amount)).sum < 10 ^ prec) :
    (totalReceived rows').IsScaled 2 ((rows.filter (·.status ≠ .misdirected)).map (·.amount)).sum := by
  have hamounts := (hperm.filter (·.status ≠ .misdirected)).map (·.amount)
  have hnonneg : ∀ n ∈ (rows'.filter (·.status ≠ .misdirected)).map (·.amount), (0 : Int) ≤ n := by
    intro n hn
    obtain ⟨t, ht, rfl⟩ := List.mem_map.mp hn
    exact hpos t (hperm.mem_iff.mp (List.mem_of_mem_filter ht))
  have hzero : Decimal.zero.IsScaled 2 0 := by
    rw [Decimal.IsScaled, Decimal.toRat_zero]
    norm_num
  rw [← hamounts.sum_eq] at hfits ⊢
  have hsum := Decimal.foldl_exact hnonneg hzero le_rfl (by rw [zero_add]; exact hfits)
  rw [zero_add, List.map_map] at hsum
  exact hsum

end Statement

/-- The statement of an account agrees with the wallet of its customer, and leaves out of its total
what is held in suspense and possibly payments of nothing. -/
structure Agrees (db : Tables) (a : DedicatedAccount) (s : Statement) : Prop where
  total : s.totalReceived.toRat = s.walletBalance.toRat
  wallet : ∃ row ∈ db.customers, row.id = a.customerId ∧
    s.walletBalance = Decimal.ofScaled 2 row.walletBalance
  listed : s.transactions.Perm ((transactionsOf db a.id).map statementItem)
  left_out : ∀ t ∈ transactionsOf db a.id, t.status = .misdirected →
    db.suspenseOf t ≠ [] ∨ t.amount = 0
  suspended : ∀ t ∈ transactionsOf db a.id, db.suspenseOf t ≠ [] → t.status = .misdirected

theorem agrees_of_stated {h : History} (hc : h.tables.Constraints) (hb : Booked h)
    (hs : Stated h.tables) (order : RowOrder) {a : DedicatedAccount}
    (ha : a ∈ h.tables.dedicatedAccounts) : ∃ row ∈ h.tables.customers, row.id = a.customerId ∧
      ∃ s, getStatement order h.tables a.id row.merchantId = .ok s ∧ Agrees h.tables a s := by
  obtain ⟨row, hrow, hid, hfor⟩ := accountFor_owner hc ha
  have hsum : (((transactionsOf h.tables a.id).filter (·.status ≠ .misdirected)).map
      (·.amount)).sum = row.walletBalance := by
    rw [listed_total hc hb hs ha, ← hid]
    exact (hb.wallet row hrow).symm
  have hlisted : ∀ t ∈ transactionsOf h.tables a.id, t ∈ h.tables.transactions :=
    fun t ht => List.mem_of_mem_filter ht
  have hfits : (row.walletBalance : Int) < 10 ^ prec :=
    lt_of_le_of_lt Int.le_natAbs (by exact_mod_cast hs.fits row hrow)
  have htotal := totalReceived_exact (order.perm (transactionsOf h.tables a.id))
    (fun t ht => hs.nonneg t (hlisted t ht)) (by rw [hsum]; exact hfits)
  rw [hsum] at htotal
  refine ⟨row, hrow, hid, _, by rw [getStatement, hfor]; rfl, ?_⟩
  constructor
  · exact htotal.trans (Decimal.isScaled_ofScaled 2 row.walletBalance).symm
  · exact ⟨row, hrow, hid, rfl⟩
  · exact (order.perm _).map statementItem
  · intro t ht hstatus
    by_cases hnil : h.tables.suspenseOf t = []
    · exact .inr ((hs.status t (hlisted t ht)).empty hnil hstatus)
    · exact .inl hnil
  · exact fun t ht => (hs.status t (hlisted t ht)).held

theorem stated_start : Stated History.start.tables := by
  constructor <;> simp [History.start, Tables.empty]

/-- In every state of every history of exact, non-negative payments, the statement of every account
agrees with the wallet. -/
theorem statement_agrees_with_wallet (steps : List Step) (hexact : History.start.Exact steps)
    (hpos : History.start.Nonneg steps) (order : RowOrder) (a : DedicatedAccount)
    (ha : a ∈ (History.run steps).tables.dedicatedAccounts) :
    ∃ row ∈ (History.run steps).tables.customers, row.id = a.customerId ∧
      ∃ s, getStatement order (History.run steps).tables a.id row.merchantId = .ok s ∧
        Agrees (History.run steps).tables a s := by
  have hstart := Database.empty.constraints
  obtain ⟨hc, hb⟩ := booked_run booked_start hstart hexact
  exact agrees_of_stated hc hb (stated_run stated_start hstart hexact hpos) order ha

theorem closingSteps_nonneg : History.start.Nonneg closingSteps := by
  refine ⟨fun payload hs => ?_, fun payload hs => ?_, fun payload hs => ?_, fun payload hs => ?_,
    trivial⟩
  · cases hs
  · cases hs
    intro requestId p hk
    cases hk
    decide
  · cases hs
  · cases hs
    intro requestId p hk
    cases hk
    decide

theorem statement_agrees_after_closing : ∃ a ∈ (History.run closingSteps).tables.dedicatedAccounts,
    ∃ row ∈ (History.run closingSteps).tables.customers, row.id = a.customerId ∧
      ∃ s, getStatement newestFirst (History.run closingSteps).tables a.id row.merchantId = .ok s ∧
        Agrees (History.run closingSteps).tables a s := by
  have hmem : ∃ a, a ∈ (History.run closingSteps).tables.dedicatedAccounts :=
    ⟨_, List.mem_singleton.mpr rfl⟩
  obtain ⟨a, ha⟩ := hmem
  exact ⟨a, ha, statement_agrees_with_wallet closingSteps closingSteps_exact closingSteps_nonneg
    newestFirst a ha⟩

end LdbBackend
