import LdbBackend.Payments.NotANumber
import LdbBackend.Payments.StoredCredit

/-!
# Does the status of a payment tell where its money went?

`StatusTells` relates the new transaction to its suspense entry, its decision, the response and the
wallets. It holds of every payment that is held in suspense, and of one to an active account exactly when
its amount and the owner's balance are numbers, the amount does not count as misdirected against the
target, and it lifts the balance (`MoneyMoves`): a payment of zero or less on an active account is
credited as well, and with a target it is even called MISDIRECTED; a payment of NaN turns the wallet into
NaN.
-/

namespace LdbBackend

open Fixed Effects Table NotANumber

/-! ## Amounts that lift a balance -/

/-- In cents, an amount of `x` lifts a balance of `w` by the weight of the last of the 28 digits of the sum.
Below a cent: the amount is past half a cent, or falls on it and the balance is not negative. A cent: it is
past half a cent, or is half a cent on an odd balance. Above: the sum is past the middle to the next multiple
of that weight, ties to even. -/
structure Lifts (w : Cents) (x : ℚ) : Prop where
  fine : lastDigit (w + x) < 1 →
    (¬ Blurred (lastDigit (w + x)) 0 x ∧ 1 / 2 < x) ∨ (Blurred (lastDigit (w + x)) 0 x ∧ 0 ≤ w)
  unit : lastDigit (w + x) = 1 → 1 / 2 < x ∨ x = 1 / 2 ∧ Odd w
  coarse : 1 < lastDigit (w + x) → ∀ k : ℤ, lastDigit (w + x) * k ≤ w → w < lastDigit (w + x) * (k + 1) →
    lastDigit (w + x) * (k + 1 / 2) < w + x ∨ w + x = lastDigit (w + x) * (k + 1 / 2) ∧ Odd k

section Lifts

variable {w w' m : Cents} {x : ℚ}

theorem lifts_fine {i : ℕ} (hm : NearestEven ((w + x) * (10 : ℚ) ^ (i + 1)) m)
    (hw' : NearestAway (1 / 10 ^ (i + 1) * m) w') :
    w < w' ↔ (¬ Blurred (1 / 10 ^ (i + 1)) 0 x ∧ 1 / 2 < x) ∨ (Blurred (1 / 10 ^ (i + 1)) 0 x ∧ 0 ≤ w) := by
  rw [← half_iff_blurred hm, add_zero]
  rcases lt_trichotomy m (halfUnits i w) with hlt | heq | hgt
  · have hbelow := amount_below (k := 0) hm (by rwa [add_zero])
    rw [Int.cast_zero, zero_add] at hbelow
    refine iff_of_false (stored_below hw' hlt) ?_
    rintro (⟨-, h⟩ | ⟨h, -⟩)
    · exact lt_asymm h hbelow
    · exact hlt.ne h
  · rw [stored_half hw' heq]
    simp [heq]
  · have habove := amount_above (k := 0) hm (by rwa [add_zero])
    rw [Int.cast_zero, zero_add] at habove
    exact iff_of_true (stored_above hw' hgt) (.inl ⟨hgt.ne', habove⟩)

theorem lifts_coarse {u : ℚ} {j : ℤ} (hu : u = j) (hj : 0 < j) (hm : NearestEven ((w + x) / u) m)
    (hw' : w' = j * m) : w < w' ↔ ∀ k : ℤ, u * k ≤ w → w < u * (k + 1) →
      u * (k + 1 / 2) < w + x ∨ w + x = u * (k + 1 / 2) ∧ Odd k := by
  have hpos : 0 < u := by
    rw [hu]
    exact_mod_cast hj
  have hpast : ∀ k : ℤ, (k < m ↔ u * (k + 1 / 2) < w + x ∨ w + x = u * (k + 1 / 2) ∧ Odd k) := by
    intro k
    rw [hm.lt_iff, lt_div_iff₀ hpos, div_eq_iff hpos.ne', mul_comm u]
  -- the multiple of the weight at or below the balance
  have hfloor : j * (w / j) ≤ w := Int.mul_ediv_self_le hj.ne'
  have hnext : w < j * (w / j + 1) := by
    rw [mul_add, mul_one]
    exact Int.lt_mul_ediv_self_add hj
  have hat : ∀ k : ℤ, u * k ≤ w → w < u * (k + 1) → (w < w' ↔ k < m) := by
    intro k hk hk'
    rw [hu] at hk hk'
    have hle : j * k ≤ w := by exact_mod_cast hk
    have hlt : w < j * (k + 1) := by exact_mod_cast hk'
    rw [hw']
    constructor
    · intro h
      have hm' : j * k < j * m := lt_of_le_of_lt hle h
      exact lt_of_mul_lt_mul_left hm' hj.le
    · intro h
      exact lt_of_lt_of_le hlt (mul_le_mul_of_nonneg_left h hj.le)
  constructor
  · intro h k hk hk'
    exact (hpast k).mp ((hat k hk hk').mp h)
  · intro h
    have hk : u * ((w / j : ℤ) : ℚ) ≤ w := by
      rw [hu]
      exact_mod_cast hfloor
    have hk' : (w : ℚ) < u * (((w / j : ℤ) : ℚ) + 1) := by
      rw [hu]
      exact_mod_cast hnext
    exact (hat _ hk hk').mpr ((hpast _).mpr (h _ hk hk'))

theorem lifts_iff (hm : NearestEven ((w + x) / lastDigit (w + x)) m)
    (hw' : NearestAway (lastDigit (w + x) * m) w') : w < w' ↔ Lifts w x := by
  rcases lastDigit_cases (w + x) with ⟨i, hfine⟩ | hunit | ⟨i, hcoarse⟩
  · have hlt := one_div_ten_lt i
    rw [hfine] at hm hw'
    rw [div_div_eq_mul_div, div_one] at hm
    rw [lifts_fine hm hw']
    constructor
    · intro h
      exact ⟨fun _ => hfine ▸ h, fun heq => absurd heq (hfine ▸ hlt.ne),
        fun hgt => absurd hgt (hfine ▸ not_lt.mpr hlt.le)⟩
    · intro h
      exact hfine ▸ h.fine (hfine ▸ hlt)
  · rw [hunit] at hm hw'
    rw [div_one] at hm
    rw [one_mul] at hw'
    obtain rfl := hw'.unique (.of_int m)
    have hpast : w < w' ↔ 1 / 2 < x ∨ x = 1 / 2 ∧ Odd w := by
      rw [hm.lt_iff, add_lt_add_iff_left, add_right_inj]
    rw [hpast]
    constructor
    · intro h
      exact ⟨fun hlt => absurd hunit hlt.ne, fun _ => h, fun hgt => absurd hunit hgt.ne'⟩
    · intro h
      exact h.unit hunit
  · have hgt := one_lt_ten_pow i
    rw [hcoarse] at hm hw'
    have hcast : (10 : ℚ) ^ (i + 1) = ((10 ^ (i + 1) : ℤ) : ℚ) := by push_cast; rfl
    rw [lifts_coarse hcast (by positivity) hm (away_of_multiple hw')]
    constructor
    · intro h
      exact ⟨fun hlt => absurd hlt (hcoarse ▸ not_lt.mpr hgt.le), fun heq => absurd heq (hcoarse ▸ hgt.ne'),
        fun _ => hcoarse ▸ h⟩
    · intro h
      exact hcoarse ▸ h.coarse (hcoarse ▸ hgt)

/-- A credit raises the stored balance when the amount lifts it. -/
theorem stored_lifts_iff {a : Decimal} (hw' : numericColumn (Decimal.ofScaled 2 w + a) = .ok w') :
    w < w' ↔ Lifts w (a.toRat * 10 ^ 2) := by
  obtain ⟨m, hm, hcolumn⟩ := stored_roundings hw'
  exact lifts_iff hm hcolumn

/-- An amount of two decimals, with a sum of at most 28 digits, lifts the balance when it is positive. -/
theorem lifts_iff_pos {a : Decimal} {n : Cents} (hn : Decimal.IsScaled 2 a n)
    (hsum : (w + n).natAbs < 10 ^ prec) : Lifts w (a.toRat * 10 ^ 2) ↔ 0 < n := by
  have hafter : Decimal.IsScaled 2 (Decimal.ofScaled 2 w + a) (w + n) :=
    Decimal.add_exact (Decimal.isScaled_ofScaled 2 _) hn hsum
  have hcolumn : numericColumn (Decimal.ofScaled 2 w + a) = .ok (w + n) := by
    refine numericColumn_ok_iff.mpr (Decimal.toColumn_exact hafter (lt_trans hsum ?_))
    unfold prec
    norm_num
  rw [← stored_lifts_iff hcolumn]
  exact lt_add_iff_pos_right w

end Lifts

/-- Against this target the amount does not count as misdirected: it is positive, or the target asks no more. -/
def Counts (a : Decimal) (target : Option Cents) : Prop :=
  ∀ n, target = some n → Decimal.zero < a ∨ Decimal.ofScaled 2 n ≤ a

theorem counts_iff {a : Decimal} {target : Option Cents} :
    LdbBackend.deriveTransactionStatus a (target.map (Decimal.ofScaled 2)) ≠ .misdirected ↔
      Counts a target := by
  unfold LdbBackend.deriveTransactionStatus Counts
  cases target with
  | none => simp
  | some n =>
    simp only [Option.map_some, Option.some.injEq, forall_eq']
    split_ifs with hle hlt hpos <;> simp [*]

theorem creditStatus_pos {p : Payment} {row : Customer Cents} (h : Decimal.zero < p.amount) :
    p.creditStatus row ≠ .misdirected :=
  counts_iff.mpr fun _ _ => .inl h

/-! ## Where the money went -/

/-- The `quarantined` flag of a response. -/
def Response.quarantined (response : Response) : Bool :=
  match response.data with
  | .payment data => data.quarantined
  | _ => false

@[simp] theorem quarantined_response (result : NumberResult) :
    result.response.quarantined = result.quarantined := rfl

/-- The balance stored for a customer. -/
def NotANumber.State.wallet (s : State) (id : UUID) : Option (Option Cents) :=
  (s.tables.wallet id).map (s.read (.wallet id))

/-- The new transaction has one suspense entry, of its amount. -/
def HeldInSuspense (s : State) (t : Transaction) : Prop :=
  ∃ l, s.tables.suspenseOf t = [l] ∧ s.read (.suspended l.id) l.amount = s.read (.amount t.id) t.amount

/-- The only decision logged for the transaction is to quarantine it. -/
def DecidedQuarantine (s : State) (t : Transaction) : Prop :=
  (s.tables.logsOf t).map (·.decision) = [.quarantine]

/-- The wallet of one customer grew, and no other changed. -/
def OnlyGrew (before after : State) (owner : UUID) : Prop :=
  (∃ w w' : Cents, before.wallet owner = some (some w) ∧ after.wallet owner = some (some w') ∧ w < w') ∧
    ∀ id, id ≠ owner → after.wallet id = before.wallet id

/-- The four signs of a held payment agree on the new transaction `t`, and without them the money is
in the wallet of the owner of the addressed account. -/
structure StatusTells (addressed : Option DedicatedAccount) (before after : State)
    (response : Response) (t : Transaction) : Prop where
  inserted : after.tables.transactions = before.tables.transactions ++ [t]
  suspense : t.status = .misdirected ↔ HeldInSuspense after t
  decision : t.status = .misdirected ↔ DecidedQuarantine after t
  answer : t.status = .misdirected ↔
    response.quarantined = true ∧ ∀ id, after.wallet id = before.wallet id
  credit : t.status ≠ .misdirected →
    ∃ account, addressed = some account ∧ OnlyGrew before after account.customerId

/-- No active account is addressed; or amount and balance are numbers, the amount counts against the
target, and lifts the balance. -/
def MoneyMoves (p : NumberPayment) (s : State) : Prop :=
  ∀ account row, Credits p.kept s.tables account row → .wallet row.id ∉ s.nan ∧
    ∃ a, p.amount = some a ∧ Counts a row.targetAmount ∧ Lifts row.walletBalance (a.toRat * 10 ^ 2)

theorem decision_ne_quarantine {status : TransactionStatus} (h : status ≠ .misdirected) :
    decisionForStatus status ≠ .quarantine := by
  cases status with
  | misdirected => exact absurd rfl h
  | full => decide
  | partial_ => decide
  | overpayment => decide

section Payment

variable {env : Surroundings} {requestId payload : Json} {p : NumberPayment} {s : State} {db₁ : Tables}
  {t : Transaction}

theorem mem_listed {x : Number} {column c : Column} : c ∈ listed x column ↔ x = none ∧ c = column := by
  unfold listed
  cases x <;> simp

/-- No column of a row that is still to come is listed. -/
theorem not_listed (hs : s.Sound) {column : Column} (h : s.tables.clock ≤ column.row) :
    column ∉ s.nan := fun hcolumn => absurd (hs.inserted column hcolumn) (not_lt.mpr h)

theorem read_congr {s s' : State} {column column' : Column} (h : column ∈ s.nan ↔ column' ∈ s'.nan)
    (n : Cents) : s.read column n = s'.read column' n := by
  unfold State.read
  simp only [h]

theorem read_eq_some {s : State} {column : Column} {n m : Cents} :
    s.read column n = some m ↔ column ∉ s.nan ∧ n = m := by
  unfold State.read
  split_ifs with h <;> simp [h]

theorem wallet_congr {s s' : State} {id : UUID} (htables : s.tables.wallet id = s'.tables.wallet id)
    (h : .wallet id ∈ s.nan ↔ .wallet id ∈ s'.nan) : s.wallet id = s'.wallet id := by
  unfold State.wallet
  rw [htables]
  exact congrArg (Option.map · _) (funext fun n => read_congr h n)

theorem statusTells_held (key : String) (reason : SuspenseReason) (hs : s.Sound)
    {account : Option DedicatedAccount} (insert : s.tables.createTransaction
      (p.kept.newTransaction requestId payload account .misdirected) = .ok (t, db₁)) :
    StatusTells (p.kept.route s.tables) s ⟨(db₁.quarantined t reason).marked key,
      s.nan ++ p.inserted s.tables.clock ++ listed p.amount (.suspended db₁.clock) ++
        listed p.amount (.received (db₁.clock + 1))⟩
      (NumberResult.response ⟨t.id, .misdirected, none, true⟩) t := by
  obtain ⟨hrow, -, -, rfl⟩ := createTransaction_ok_iff.mp insert
  have hr := NewTransaction.row_ok hrow
  have hstatus : t.status = .misdirected := hr.status
  have hsus := suspenseOf_new hs.constraints hr.id
  have hlog := logsOf_new hs.constraints hr.id
  unfold Tables.suspenseOf at hsus
  unfold Tables.logsOf at hlog
  have hamount : .amount s.tables.clock ∉ s.nan := not_listed hs le_rfl
  have hsuspended : .suspended (s.tables.clock + 1) ∉ s.nan := not_listed hs (Nat.le_succ _)
  refine ⟨rfl, iff_of_true hstatus ⟨⟨s.tables.clock + 1, t.id, reason, t.amount⟩, ?_, ?_⟩,
    iff_of_true hstatus ?_, iff_of_true hstatus ⟨rfl, fun id => ?_⟩, fun hne => absurd hstatus hne⟩
  · simp [Tables.suspenseOf, Tables.marked, Tables.quarantined, List.filter_append, hsus]
  · refine read_congr ?_ t.amount
    rw [hr.id]
    simp [NumberPayment.inserted, mem_listed, hamount, hsuspended]
  · simp [DecidedQuarantine, Tables.logsOf, Tables.marked, Tables.quarantined, List.filter_append,
      hlog]
  · refine wallet_congr rfl ?_
    simp [NumberPayment.inserted, mem_listed]

/-- The balance after the credit is a number when the balance before and the amount are. -/
theorem walletAfter_eq_some {row : Customer Cents} {x : Decimal} : p.walletAfter s row = some x ↔
    .wallet row.id ∉ s.nan ∧ ∃ a, p.amount = some a ∧ x = Decimal.ofScaled 2 row.walletBalance + a := by
  unfold NumberPayment.walletAfter State.read NotANumber.add
  by_cases hmem : .wallet row.id ∈ s.nan
  · simp [hmem]
  · cases p.amount <;> simp [hmem, eq_comm]

theorem creditStatus_some {row : Customer Cents} {a : Decimal} {status : TransactionStatus}
    (h : p.creditStatus row = .ok status) (ha : p.amount = some a) :
    status = LdbBackend.deriveTransactionStatus a (row.targetAmount.map (Decimal.ofScaled 2)) := by
  unfold NumberPayment.creditStatus NotANumber.deriveTransactionStatus at h
  rw [ha] at h
  cases htarget : row.targetAmount with
  | none =>
    rw [htarget] at h
    cases h
    rfl
  | some n =>
    rw [htarget] at h
    cases h
    rfl

/-- The state after a credit: the transaction, the balance, the decision and the mark. -/
def creditedState (p : NumberPayment) (s : State) (t : Transaction) (row : Customer Cents) (wallet : Cents)
    (l : ReconciliationLog) (key : String) : State where
  tables := (Tables.logged (Tables.credited { s.tables with
    transactions := s.tables.transactions ++ [t], clock := s.tables.clock + 1 } row wallet) l).marked key
  nan := (s.nan ++ p.inserted s.tables.clock).filter (· ≠ .wallet row.id) ++
    listed (p.walletAfter s row) (.wallet row.id) ++ listed p.amount (.received (s.tables.clock + 1))

section Credited

variable {row : Customer Cents} {wallet : Cents} {l : ReconciliationLog} {key : String}

theorem creditedState_self (hrow : row ∈ s.tables.customers) :
    (creditedState p s t row wallet l key).wallet row.id = some ((p.walletAfter s row).map fun _ => wallet) := by
  have hmark : .wallet row.id ∈ (creditedState p s t row wallet l key).nan ↔ p.walletAfter s row = none := by
    simp [creditedState, mem_listed]
  have hmem : row ∈ ({ s.tables with
      transactions := s.tables.transactions ++ [t]
      clock := s.tables.clock + 1 } : Tables).customers := hrow
  have hstored : (creditedState p s t row wallet l key).tables.wallet row.id = some wallet :=
    wallet_credited_self hmem wallet
  unfold State.wallet
  rw [hstored, Option.map_some, Option.some.injEq]
  unfold State.read
  cases hafter : p.walletAfter s row with
  | none => exact if_pos (hmark.mpr hafter)
  | some x => exact if_neg fun hmem => by cases hafter.symm.trans (hmark.mp hmem)

theorem creditedState_other {id : UUID} (hid : id ≠ row.id) :
    (creditedState p s t row wallet l key).wallet id = s.wallet id := by
  refine wallet_congr (wallet_credited_ne hid) ?_
  simp [creditedState, mem_listed, NumberPayment.inserted, hid]

theorem creditedState_notHeld (hs : s.Sound) (ht : t.id = s.tables.clock) :
    ¬ HeldInSuspense (creditedState p s t row wallet l key) t := by
  rintro ⟨held, hheld, -⟩
  have hnone : (creditedState p s t row wallet l key).tables.suspenseOf t = [] := suspenseOf_new hs.constraints ht
  rw [hnone] at hheld
  cases hheld

theorem creditedState_logs (hs : s.Sound) (ht : t.id = s.tables.clock) (hl : l.transactionId = t.id) :
    (creditedState p s t row wallet l key).tables.logsOf t = [l] := by
  have hold := logsOf_new hs.constraints ht
  unfold Tables.logsOf at hold
  simp [creditedState, Tables.marked, Tables.logged, Tables.credited, Tables.logsOf, List.filter_append, hold, hl]

/-- Only the owner's balance has grown when it and the amount are numbers and the amount lifts it. -/
theorem onlyGrew_iff (hs : s.Sound) (hrow : row ∈ s.tables.customers)
    (wallet_ok : numericColumn (kept (p.walletAfter s row)) = .ok wallet) :
    OnlyGrew s (creditedState p s t row wallet l key) row.id ↔ .wallet row.id ∉ s.nan ∧
      ∃ a, p.amount = some a ∧ Lifts row.walletBalance (a.toRat * 10 ^ 2) := by
  have hbefore : s.wallet row.id = some (s.read (.wallet row.id) row.walletBalance) :=
    congrArg (Option.map _) (wallet_of_mem hs.constraints hrow)
  constructor
  · rintro ⟨⟨w, w', hw, hw', hlt⟩, -⟩
    rw [hbefore, Option.some.injEq] at hw
    rw [creditedState_self hrow, Option.some.injEq, Option.map_eq_some_iff] at hw'
    obtain ⟨-, rfl⟩ := read_eq_some.mp hw
    obtain ⟨x, hx, rfl⟩ := hw'
    obtain ⟨hunmarked, a, ha, rfl⟩ := walletAfter_eq_some.mp hx
    rw [hx] at wallet_ok
    exact ⟨hunmarked, a, ha, (stored_lifts_iff wallet_ok).mp hlt⟩
  · rintro ⟨hunmarked, a, ha, hlifts⟩
    have hx := walletAfter_eq_some.mpr ⟨hunmarked, a, ha, rfl⟩
    rw [hx] at wallet_ok
    refine ⟨⟨row.walletBalance, wallet, ?_, ?_, (stored_lifts_iff wallet_ok).mpr hlifts⟩, fun id hid =>
      creditedState_other hid⟩
    · rw [hbefore, read_eq_some.mpr ⟨hunmarked, rfl⟩]
    · rw [creditedState_self hrow, hx]
      rfl

/-- A credit tells where the money went when its status is not that of a held payment, and the owner's balance
has grown. -/
theorem statusTells_credited_iff (hs : s.Sound) {account : DedicatedAccount} {response : Response}
    (credit : Credits p.kept s.tables account row) (ht : t.id = s.tables.clock) (hl : l.transactionId = t.id)
    (hdecision : l.decision = decisionForStatus t.status) (hresponse : response.quarantined = false) :
    (∃ t', StatusTells (p.kept.route s.tables) s (creditedState p s t row wallet l key) response t') ↔
      t.status ≠ .misdirected ∧ OnlyGrew s (creditedState p s t row wallet l key) row.id := by
  have hnotHeld : ¬ HeldInSuspense (creditedState p s t row wallet l key) t := creditedState_notHeld hs ht
  constructor
  · rintro ⟨t', htells⟩
    obtain rfl : t = t' := by
      have := htells.inserted
      simpa [creditedState, Tables.marked, Tables.logged, Tables.credited] using this
    have hne : t.status ≠ .misdirected := fun hheld => hnotHeld (htells.suspense.mp hheld)
    obtain ⟨account', hroute, hgrew⟩ := htells.credit hne
    obtain rfl : account' = account := Option.some.inj (hroute.symm.trans credit.route)
    exact ⟨hne, credit.owner ▸ hgrew⟩
  · rintro ⟨hne, hgrew⟩
    refine ⟨t, rfl, iff_of_false hne hnotHeld, iff_of_false hne ?_, iff_of_false hne ?_, fun _ =>
      ⟨account, credit.route, credit.owner ▸ hgrew⟩⟩
    · intro hquarantine
      rw [DecidedQuarantine, creditedState_logs hs ht hl] at hquarantine
      exact decision_ne_quarantine hne (hdecision ▸ List.singleton_inj.mp hquarantine)
    · rintro ⟨hquarantined, -⟩
      rw [hresponse] at hquarantined
      cases hquarantined

theorem statusTells_credited (hs : s.Sound) {account : DedicatedAccount} {status : TransactionStatus}
    {expected : Option Cents} {details : Json} {response : Response}
    (credit : Credits p.kept s.tables account row) (status_ok : p.creditStatus row = .ok status)
    (insert : s.tables.createTransaction
      (p.kept.newTransaction requestId payload (some account) status) = .ok (t, db₁))
    (wallet_ok : numericColumn (kept (p.walletAfter s row)) = .ok wallet)
    (hresponse : response.quarantined = false) :
    (∃ t', StatusTells (p.kept.route s.tables) s (creditedState p s t row wallet
      ⟨s.tables.clock + 1, t.id, expected, t.amount, decisionForStatus status, details⟩ key) response t') ↔
      .wallet row.id ∉ s.nan ∧
        ∃ a, p.amount = some a ∧ Counts a row.targetAmount ∧ Lifts row.walletBalance (a.toRat * 10 ^ 2) := by
  have hr := NewTransaction.row_ok (createTransaction_ok_iff.mp insert).1
  have hstatus : t.status = status := hr.status
  rw [statusTells_credited_iff hs credit hr.id rfl (congrArg decisionForStatus hstatus.symm) hresponse,
    onlyGrew_iff hs credit.mem wallet_ok, hstatus]
  constructor
  · rintro ⟨hne, hunmarked, a, ha, hlifts⟩
    rw [creditStatus_some status_ok ha] at hne
    exact ⟨hunmarked, a, ha, counts_iff.mp hne, hlifts⟩
  · rintro ⟨hunmarked, a, ha, hcounts, hlifts⟩
    rw [creditStatus_some status_ok ha]
    exact ⟨counts_iff.mpr hcounts, hunmarked, a, ha, hlifts⟩

end Credited

theorem statusTells_iff (hs : s.Sound) (hpays : PaysNumber env payload requestId p)
    (hfresh : s.tables.processed requestId.text = false) {response : Response} {s' : State}
    (hrun : NotANumber.receive env payload s = (.ok response, s')) :
    (∃ t, StatusTells (p.kept.route s.tables) s s' response t) ↔ MoneyMoves p s := by
  obtain ⟨result, s₁, hcompletes, rfl, rfl⟩ := receive_ok hs.constraints hpays hfresh hrun
  cases hcompletes with
  | @held account reason t db₁ hold insert =>
    have htells := statusTells_held requestId.text reason hs insert
    exact iff_of_true ⟨_, htells⟩ fun account row hc => (hold.not_credits hc rfl).elim
  | @credited account row status t db₁ wallet expected details credit status_ok insert wallet_ok =>
    have hresponse := quarantined_response ⟨t.id, status, some (p.walletAfter s row), false⟩
    obtain ⟨-, -, -, rfl⟩ := createTransaction_ok_iff.mp insert
    refine (statusTells_credited hs credit status_ok insert wallet_ok hresponse).trans ⟨?_, ?_⟩
    · intro hmoves account' row' hc'
      obtain ⟨rfl, rfl⟩ := credit.unique hs.constraints hc' rfl
      exact hmoves
    · intro hmoves
      exact hmoves _ _ credit

end Payment

/-- For every sound state, whatever columns hold NaN, and every payment that `receive` processes to
completion, the status of the new transaction tells where the money went exactly when no active account
is addressed, or the amount and the balance of the owner of the addressed account are numbers, the amount
is positive or not below the target, and it lifts the balance. -/
theorem status_tells_where_money_went (s : State) (hs : s.Sound) (env : Surroundings)
    (payload requestId : Json) (p : NumberPayment) (response : Response)
    (hpays : PaysNumber env payload requestId p) (hfresh : s.tables.processed requestId.text = false)
    (hrun : (NotANumber.receive env payload s).1 = .ok response) :
    (∃ t, StatusTells (p.kept.route s.tables) s (NotANumber.receive env payload s).2 response t) ↔
      MoneyMoves p s :=
  statusTells_iff hs hpays hfresh (Prod.ext hrun rfl)

/-- The state of the tables, without NaN. -/
def Database.numbers (db : Database) : State := ⟨db.tables, []⟩

theorem Database.numbers_sound (db : Database) : db.numbers.Sound :=
  ⟨db.constraints, fun _ h => (List.not_mem_nil h).elim⟩

/-- A payment of five tells where its money went. -/
theorem status_tells_where_money_went_for_five :
    ∃ response t, StatusTells ((provisioned none).tables.route "9901" .null) (provisioned none).numbers
      (NotANumber.receive quiet (samplePayment "R1" "9901" 5) (provisioned none).numbers).2 response t := by
  refine ⟨_, (status_tells_where_money_went (provisioned none).numbers (provisioned none).numbers_sound quiet
    (samplePayment "R1" "9901" 5) (.str "R1") _ ⟨200, "Payment reconciled", .payment ⟨2, .full, some "5.00", false⟩⟩
    ⟨⟨_, rfl, by decide⟩, rfl, ⟨_, rfl, by decide⟩, rfl⟩ rfl rfl).mpr ?_⟩
  intro account row hc
  obtain rfl : row = _ := List.mem_singleton.mp hc.mem
  refine ⟨List.not_mem_nil, _, rfl, ?_, ?_⟩
  · rintro n hn
    cases hn
  · exact (lifts_iff_pos (n := 500) (by norm_num [Decimal.IsScaled, Decimal.toRat, Decimal.num, signed])
      (by decide)).mpr (by decide)

/-- A payment of zero to an active account with a target: the transaction is MISDIRECTED and its
decision is to quarantine, yet it is credited and nothing is held. -/
theorem zero_payment_misdirected_but_credited :
    ¬ ∀ (s : State) (env : Surroundings) (payload requestId : Json) (p : NumberPayment)
      (response : Response), s.Sound → PaysNumber env payload requestId p →
      s.tables.processed requestId.text = false →
      (NotANumber.receive env payload s).1 = .ok response →
      ∃ t, StatusTells (p.kept.route s.tables) s (NotANumber.receive env payload s).2 response t := by
  intro hclaim
  set db := provisioned (some ⟨false, 100, 0⟩)
  obtain ⟨t, ht⟩ := hclaim db.numbers quiet (samplePayment "R1" "9901" 0) (.str "R1") _
    ⟨200, "Payment reconciled", .payment ⟨2, .misdirected, some "0.00", false⟩⟩ db.numbers_sound
    ⟨⟨_, rfl, by decide⟩, rfl, ⟨_, rfl, by decide⟩, rfl⟩ rfl rfl
  have hstatus : [t.status] = [.misdirected] := by
    have := congrArg (List.map (·.status)) ht.inserted
    exact this.symm.trans (by decide)
  obtain ⟨l, hl, -⟩ := ht.suspense.mp (List.singleton_inj.mp hstatus)
  have hnone : (NotANumber.receive quiet (samplePayment "R1" "9901" 0) db.numbers).2.tables.suspenseLogs =
      [] := by decide
  rw [Tables.suspenseOf, hnone] at hl
  cases hl

/-- A payment of NaN to an active account without a target is credited: the wallet is NaN after it. -/
example : ((NotANumber.receive quiet (.obj [("event_type", .str nombaPaymentSuccessEvent),
      ("requestId", .str "R1"), ("data", .obj [("transaction", .obj [("type", .str nombaVactTransferType),
        ("aliasAccountNumber", .str "9901"), ("transactionAmount", .str "NaN")])])])
      (provisioned none).numbers).2.wallet 0) = some none := by decide

end LdbBackend
