import LdbBackend.Lib.Rounding
import LdbBackend.Payments.Wallet

/-!
# The stored credit against the stored amount

`process_payment` rounds the amount on two routes: the transaction stores it in cents, ties to even; the
wallet adds it unrounded, with 28 digits, and stores the sum in cents, ties away from zero. In cents, with
`w` the wallet and `x` the amount, both routes agree exactly when `RoundsAlike w x`. Proof: each rounding
is determined by the half cents that its argument has passed, so the two are compared half cent by half
cent (`fine_iff`), unless the last of the 28 digits is a cent or more.
-/

namespace LdbBackend

open Fixed Effects Table

/-- The amount is past the half cent above `k`, ties to even. -/
def Past (k : ℤ) (x : ℚ) : Prop := (k : ℚ) + 1 / 2 < x ∨ x = k + 1 / 2 ∧ Odd k

/-- Rounded to a last digit of weight `u`, the amount falls on the half cent above `k`. -/
def Blurred (u : ℚ) (k : ℤ) (x : ℚ) : Prop :=
  |x - (k + 1 / 2)| < u / 2 ∨ |x - (k + 1 / 2)| = u / 2 ∧ u < 1 / 10

/-- By the weight of the last of the 28 digits of the sum. Below a cent: every half cent that the amount
falls on has been passed exactly when the sum is positive. A cent: no tie, unless the wallet is even.
Above: the wallet and the rounded amount make a multiple of it. -/
structure RoundsAlike (w : Cents) (x : ℚ) : Prop where
  fine : lastDigit (w + x) < 1 → ∀ k : ℤ, Blurred (lastDigit (w + x)) k x → (0 ≤ w + k ↔ Past k x)
  unit : lastDigit (w + x) = 1 → ∀ k : ℤ, x = k + 1 / 2 → Even w
  coarse : 1 < lastDigit (w + x) →
    ∃ n j : ℤ, NearestEven x n ∧ ((w + n : ℤ) : ℚ) = lastDigit (w + x) * j

section Alike

variable {w w' t m : Cents} {x u : ℚ}

/-- A last digit of a cent or more: the sum is already in cents. -/
theorem away_of_multiple {g : ℕ} (hw' : NearestAway ((10 : ℚ) ^ g * m) w') : w' = 10 ^ g * m := by
  have hcast : (10 : ℚ) ^ g * m = ((10 ^ g * m : ℤ) : ℚ) := by push_cast; rfl
  rw [hcast] at hw'
  exact hw'.unique (.of_int _)

theorem unit_iff (hm : NearestEven (w + x) m) (ht : NearestEven x t) :
    m = w + t ↔ ∀ k : ℤ, x = k + 1 / 2 → Even w := by
  have hdist : |(w : ℚ) + x - ((w + t : ℤ) : ℚ)| = |x - t| := by
    push_cast
    congr 1
    ring
  constructor
  · rintro rfl k hk
    have htie : |x - t| = 1 / 2 := dist_midpoint ht.near hk
    have hsum := hm.tie (hdist.trans htie)
    exact (Int.even_add.mp hsum).mpr (ht.tie htie)
  · intro heven
    refine hm.unique ⟨hdist ▸ ht.near, fun htie => ?_⟩
    rw [hdist] at htie
    have hw : Even w := by
      rcases abs_eq (by norm_num : (0 : ℚ) ≤ 1 / 2) |>.mp htie with h | h
      · exact heven t (by linarith)
      · refine heven (t - 1) ?_
        push_cast
        linarith
    exact hw.add (ht.tie htie)

theorem coarse_iff {g : ℕ} (hg : 0 < g) (hm : NearestEven ((w + x) / (10 : ℚ) ^ g) m)
    (ht : NearestEven x t) :
    10 ^ g * m = w + t ↔ ∃ n j : ℤ, NearestEven x n ∧ ((w + n : ℤ) : ℚ) = (10 : ℚ) ^ g * j := by
  constructor
  · intro h
    refine ⟨t, m, ht, ?_⟩
    rw [← h]
    push_cast
    rfl
  · rintro ⟨n, j, hn, hj⟩
    obtain rfl := ht.unique hn
    have hten : (10 : ℚ) ≤ (10 : ℚ) ^ g := by
      calc (10 : ℚ) = 10 ^ 1 := (pow_one _).symm
        _ ≤ 10 ^ g := pow_le_pow_right₀ (by norm_num) hg
    have hpos : (0 : ℚ) < (10 : ℚ) ^ g := by positivity
    -- half a cent is less than half of the last digit
    have hclose : |((w : ℚ) + x) / (10 : ℚ) ^ g - j| < 1 / 2 := by
      have hdiff : ((w : ℚ) + x) / (10 : ℚ) ^ g - j = (x - t) / (10 : ℚ) ^ g := by
        rw [eq_div_iff hpos.ne', sub_mul, div_mul_cancel₀ _ hpos.ne', mul_comm (j : ℚ), ← hj]
        push_cast
        ring
      rw [hdiff, abs_div, abs_of_pos hpos, div_lt_iff₀ hpos]
      linarith [ht.near]
    have hmj : m = j := hm.unique ⟨hclose.le, fun htie => absurd htie hclose.ne⟩
    rw [hmj]
    exact_mod_cast hj.symm

/-! Below a cent the half cents are multiples of the last digit, `1 / 10 ^ (i + 1)`. -/

/-- The half cent above `w + k`, in units of the last digit. -/
def halfUnits (i : ℕ) (n : ℤ) : ℤ := (2 * n + 1) * (5 * 10 ^ i)

theorem halfUnits_cast (i : ℕ) (n : ℤ) : (halfUnits i n : ℚ) = (n + 1 / 2) * 10 ^ (i + 1) := by
  unfold halfUnits
  push_cast
  rw [pow_succ]
  ring

theorem even_halfUnits_iff (i : ℕ) (n : ℤ) : Even (halfUnits i n) ↔ 0 < i := by
  cases i with
  | zero =>
    refine iff_of_false ?_ (lt_irrefl 0)
    rw [Int.not_even_iff_odd]
    exact ⟨5 * n + 2, by rw [halfUnits]; ring⟩
  | succ i => exact iff_of_true ⟨(2 * n + 1) * (25 * 10 ^ i), by rw [halfUnits, pow_succ]; ring⟩ i.succ_pos

theorem half_iff_blurred {i : ℕ} {k : ℤ} (hm : NearestEven ((w + x) * (10 : ℚ) ^ (i + 1)) m) :
    m = halfUnits i (w + k) ↔ Blurred (1 / 10 ^ (i + 1)) k x := by
  have hpos : (0 : ℚ) < 10 ^ (i + 1) := by positivity
  have hdist : |((w : ℚ) + x) * 10 ^ (i + 1) - (halfUnits i (w + k) : ℤ)| =
      |x - (k + 1 / 2)| * 10 ^ (i + 1) := by
    rw [halfUnits_cast, ← abs_of_pos hpos, ← abs_mul, abs_of_pos hpos]
    push_cast
    congr 1
    ring
  have hsmall : (1 : ℚ) / 10 ^ (i + 1) < 1 / 10 ↔ 0 < i := by
    rw [one_div_lt_one_div hpos (by norm_num)]
    constructor
    · intro h
      by_contra hi
      obtain rfl : i = 0 := by omega
      norm_num at h
    · intro hi
      calc (10 : ℚ) = 10 ^ 1 := (pow_one _).symm
        _ < 10 ^ (i + 1) := pow_lt_pow_right₀ (by norm_num) (by omega)
  have hhalf : (1 : ℚ) / 10 ^ (i + 1) / 2 = 1 / 2 / 10 ^ (i + 1) := div_right_comm _ _ _
  unfold Blurred
  rw [hsmall, hhalf, lt_div_iff₀ hpos, eq_div_iff hpos.ne', ← hdist]
  constructor
  · rintro rfl
    rcases hm.near.lt_or_eq with hlt | htie
    · exact .inl hlt
    · exact .inr ⟨htie, (even_halfUnits_iff i (w + k)).mp (hm.tie htie)⟩
  · rintro (hlt | ⟨htie, hi⟩)
    · exact hm.unique ⟨hlt.le, fun htie => absurd htie hlt.ne⟩
    · exact hm.unique ⟨htie.le, fun _ => (even_halfUnits_iff i (w + k)).mpr hi⟩

/-- Two integers are equal when they are above the same ones. -/
theorem eq_iff_same_below {a b : ℤ} : a = b ↔ ∀ k, k < a ↔ k < b := by
  constructor
  · rintro rfl k
    exact Iff.rfl
  · intro h
    rcases lt_trichotomy a b with hlt | heq | hgt
    · exact absurd ((h a).mpr hlt) (lt_irrefl a)
    · exact heq
    · exact absurd ((h b).mp hgt) (lt_irrefl b)

/-- Shifted integers are compared with what was shifted. -/
theorem eq_add_iff_same_below : w' = w + t ↔ ∀ k : ℤ, w + k < w' ↔ k < t := by
  rw [eq_iff_same_below]
  constructor
  · intro h k
    rw [h (w + k)]
    exact Int.add_lt_add_iff_left w
  · intro h k
    have hk := h (k - w)
    rw [add_sub_cancel] at hk
    rw [hk]
    exact sub_lt_iff_lt_add'

section Half

variable {i : ℕ} {n k : ℤ}

theorem value_halfUnits (i : ℕ) (n : ℤ) : (1 : ℚ) / 10 ^ (i + 1) * halfUnits i n = n + 1 / 2 := by
  rw [halfUnits_cast]
  field_simp

theorem value_lt_value {a b : ℤ} (h : a < b) : (1 : ℚ) / 10 ^ (i + 1) * a < 1 / 10 ^ (i + 1) * b :=
  mul_lt_mul_of_pos_left (by exact_mod_cast h) (by positivity)

/-- A stored sum is past `n` when the rounded sum is past the half cent above it. -/
theorem stored_above (hw' : NearestAway (1 / 10 ^ (i + 1) * m) w') (h : halfUnits i n < m) : n < w' := by
  have hlarge := value_lt_value (i := i) h
  rw [value_halfUnits] at hlarge
  exact hw'.lt_iff.mpr (.inl hlarge)

theorem stored_below (hw' : NearestAway (1 / 10 ^ (i + 1) * m) w') (h : m < halfUnits i n) : ¬ n < w' := by
  have hsmall := value_lt_value (i := i) h
  rw [value_halfUnits] at hsmall
  rw [hw'.lt_iff]
  rintro (hlt | ⟨heq, -⟩)
  · exact lt_asymm hlt hsmall
  · exact hsmall.ne heq

/-- On the half cent it goes away from zero. -/
theorem stored_half (hw' : NearestAway (1 / 10 ^ (i + 1) * m) w') (h : m = halfUnits i n) : n < w' ↔ 0 ≤ n := by
  rw [hw'.lt_iff, h, value_halfUnits]
  constructor
  · rintro (hlt | ⟨-, hpos⟩)
    · exact absurd hlt (lt_irrefl _)
    · have hneg : (-1 : ℚ) < n := by linarith
      have hint : (-1 : ℤ) < n := by exact_mod_cast hneg
      exact hint
  · intro hn
    have hnonneg : (0 : ℚ) ≤ n := by exact_mod_cast hn
    exact .inr ⟨rfl, by linarith⟩

/-- The rounded sum stays below a half cent only if the amount does. -/
theorem amount_below (hm : NearestEven ((w + x) * (10 : ℚ) ^ (i + 1)) m) (h : m < halfUnits i (w + k)) :
    x < k + 1 / 2 := by
  have hpos : (0 : ℚ) < 10 ^ (i + 1) := by positivity
  have hle := le_half_of_le hm.near (k := halfUnits i (w + k) - 1) (Int.le_sub_one_of_lt h)
  push_cast at hle
  rw [halfUnits_cast] at hle
  push_cast at hle
  nlinarith

theorem amount_above (hm : NearestEven ((w + x) * (10 : ℚ) ^ (i + 1)) m) (h : halfUnits i (w + k) < m) :
    (k : ℚ) + 1 / 2 < x := by
  have hpos : (0 : ℚ) < 10 ^ (i + 1) := by positivity
  have hle := half_le_of_lt hm.near h
  rw [halfUnits_cast] at hle
  push_cast at hle
  nlinarith

end Half

theorem fine_iff {i : ℕ} (hm : NearestEven ((w + x) * (10 : ℚ) ^ (i + 1)) m)
    (hw' : NearestAway (1 / 10 ^ (i + 1) * m) w') (ht : NearestEven x t) :
    w' = w + t ↔ ∀ k : ℤ, Blurred (1 / 10 ^ (i + 1)) k x → (0 ≤ w + k ↔ Past k x) := by
  rw [eq_add_iff_same_below]
  refine forall_congr' fun k => ?_
  have hpast : k < t ↔ Past k x := ht.lt_iff
  rw [hpast, ← half_iff_blurred hm]
  rcases lt_trichotomy m (halfUnits i (w + k)) with hlt | heq | hgt
  · have hbelow : x < k + 1 / 2 := amount_below hm hlt
    refine iff_of_true (iff_of_false (stored_below hw' hlt) ?_) fun heq => absurd heq hlt.ne
    rintro (h | ⟨h, -⟩)
    · exact lt_asymm h hbelow
    · exact hbelow.ne h
  · rw [stored_half hw' heq]
    exact ⟨fun h _ => h, fun h => h heq⟩
  · exact iff_of_true (iff_of_true (stored_above hw' hgt) (.inl (amount_above hm hgt))) fun heq =>
      absurd heq hgt.ne'

theorem one_div_ten_lt (i : ℕ) : (1 : ℚ) / 10 ^ (i + 1) < 1 := by
  rw [div_lt_one (by positivity)]
  exact one_lt_pow₀ (by norm_num) (by omega)

theorem one_lt_ten_pow (i : ℕ) : (1 : ℚ) < 10 ^ (i + 1) := one_lt_pow₀ (by norm_num) (by omega)

theorem alike_iff (hm : NearestEven ((w + x) / lastDigit (w + x)) m)
    (hw' : NearestAway (lastDigit (w + x) * m) w') (ht : NearestEven x t) :
    w' = w + t ↔ RoundsAlike w x := by
  rcases lastDigit_cases (w + x) with ⟨i, hfine⟩ | hunit | ⟨i, hcoarse⟩
  · have hlt := one_div_ten_lt i
    rw [hfine] at hm hw'
    rw [div_div_eq_mul_div, div_one] at hm
    rw [fine_iff hm hw' ht]
    constructor
    · intro h
      refine ⟨fun _ => hfine ▸ h, fun heq => ?_, fun hgt => ?_⟩
      · exact absurd heq (hfine ▸ hlt.ne)
      · exact absurd hgt (hfine ▸ not_lt.mpr hlt.le)
    · intro h
      exact hfine ▸ h.fine (hfine ▸ hlt)
  · rw [hunit] at hm hw'
    rw [div_one] at hm
    rw [one_mul] at hw'
    obtain rfl := hw'.unique (.of_int m)
    rw [unit_iff hm ht]
    constructor
    · intro h
      exact ⟨fun hlt => absurd hunit hlt.ne, fun _ => h, fun hgt => absurd hunit hgt.ne'⟩
    · intro h
      exact h.unit hunit
  · have hgt := one_lt_ten_pow i
    rw [hcoarse] at hm hw'
    obtain rfl := away_of_multiple hw'
    rw [coarse_iff i.succ_pos hm ht]
    constructor
    · intro h
      refine ⟨fun hlt => ?_, fun heq => ?_, fun _ => hcoarse ▸ h⟩
      · exact absurd hlt (hcoarse ▸ not_lt.mpr hgt.le)
      · exact absurd heq (hcoarse ▸ hgt.ne')
    · intro h
      exact hcoarse ▸ h.coarse (hcoarse ▸ hgt)

/-- When the digits of the sum hold the whole amount, only a tie matters. -/
theorem roundsAlike_of_multiple {j : ℤ} (hfine : lastDigit (w + x) < 1) (hx : x = lastDigit (w + x) * j) :
    RoundsAlike w x ↔ ∀ k : ℤ, x = k + 1 / 2 → (0 ≤ w + k ↔ Odd k) := by
  rcases lastDigit_cases (w + x) with ⟨i, hdigit⟩ | hunit | ⟨i, hcoarse⟩
  · rw [hdigit] at hx
    have hpos : (0 : ℚ) < 10 ^ (i + 1) := by positivity
    have hsum : (w + x) * (10 : ℚ) ^ (i + 1) = ((w * 10 ^ (i + 1) + j : ℤ) : ℚ) := by
      rw [hx]
      push_cast
      field_simp
    have hblurred : ∀ k : ℤ, Blurred (lastDigit (w + x)) k x ↔ x = k + 1 / 2 := by
      intro k
      rw [hdigit, ← half_iff_blurred (hsum ▸ NearestEven.of_int _), ← Int.cast_inj (α := ℚ), ← hsum,
        halfUnits_cast]
      push_cast
      rw [mul_left_inj' hpos.ne', add_assoc, add_right_inj]
    have hpast : ∀ k : ℤ, x = k + 1 / 2 → (Past k x ↔ Odd k) := by
      intro k hk
      refine ⟨fun h => ?_, fun h => .inr ⟨hk, h⟩⟩
      rcases h with hlt | ⟨-, hodd⟩
      · exact absurd hk hlt.ne'
      · exact hodd
    constructor
    · intro h k hk
      rw [h.fine hfine k ((hblurred k).mpr hk), hpast k hk]
    · intro h
      refine ⟨fun _ k hk => ?_, fun heq => absurd heq hfine.ne, fun hgt => absurd hfine (not_lt.mpr hgt.le)⟩
      have htie := (hblurred k).mp hk
      rw [h k htie, hpast k htie]
  · exact absurd hunit hfine.ne
  · exact absurd hfine (not_lt.mpr (hcoarse ▸ (one_lt_ten_pow i).le))

/-- Whole cents, when the digits of the sum reach below a cent. -/
theorem roundsAlike_of_int {n : ℤ} (hfine : lastDigit (w + n) < 1) : RoundsAlike w n := by
  obtain ⟨j, hj⟩ : ∃ j : ℤ, (n : ℚ) = lastDigit (w + n) * j := by
    rcases lastDigit_cases (w + n) with ⟨i, hdigit⟩ | hunit | ⟨i, hcoarse⟩
    · refine ⟨n * 10 ^ (i + 1), ?_⟩
      rw [hdigit]
      push_cast
      field_simp
    · exact absurd hunit hfine.ne
    · exact absurd hfine (not_lt.mpr (hcoarse ▸ (one_lt_ten_pow i).le))
  refine (roundsAlike_of_multiple hfine hj).mpr fun k htie => ?_
  -- a whole number of cents is no half cent
  have hdouble : 2 * n = 2 * k + 1 := by
    have hcast : ((2 * n : ℤ) : ℚ) = ((2 * k + 1 : ℤ) : ℚ) := by
      push_cast
      rw [htie]
      ring
    exact_mod_cast hcast
  omega

end Alike

section Payment

variable {p : Payment} {row : Customer Cents} {w n w' : Cents} {a : Decimal}

/-- The two roundings of a stored sum, in cents: to 28 digits, and to the column. -/
theorem stored_roundings (hw' : numericColumn (Decimal.ofScaled 2 w + a) = .ok w') :
    ∃ m, NearestEven ((w + a.toRat * 10 ^ 2) / lastDigit (w + a.toRat * 10 ^ 2)) m ∧
      NearestAway (lastDigit (w + a.toRat * 10 ^ 2) * m) w' := by
  set d := Decimal.addExact (Decimal.ofScaled 2 w) a
  have hsum : d.toRat * 10 ^ 2 = w + a.toRat * 10 ^ 2 := by
    rw [Decimal.toRat_addExact, Decimal.toRat_ofScaled, add_mul, div_mul_cancel₀ _ (by norm_num)]
  obtain ⟨m, hfix, hm⟩ := Decimal.fix_nearest_scaled 2 d
  have hcolumn := Decimal.toColumn_nearest (numericColumn_ok_iff.mp hw')
  have hafter : (Decimal.ofScaled 2 w + a).toRat = (Decimal.fix d).toRat := rfl
  rw [hafter, hfix, hsum] at hcolumn
  rw [hsum] at hm
  exact ⟨m, hm, hcolumn⟩

theorem credit_alike_iff (hamount : decimalField p.amount = .ok n)
    (hw' : numericColumn (p.walletAfter row) = .ok w') :
    w' = row.walletBalance + n ↔ RoundsAlike row.walletBalance (p.amount.toRat * 10 ^ 2) := by
  obtain ⟨m, hm, hcolumn⟩ := stored_roundings hw'
  exact alike_iff hm hcolumn (Decimal.quantize_nearest (decimalField_ok_iff.mp hamount))

end Payment

/-- For every state and every payment of any amount to an active account that `process_payment`
completes: the stored wallet grows by the stored amount exactly when the two round alike. -/
theorem stored_credit_exact_iff (db : Database) (env : Surroundings) (requestId payload : Json)
    (p : Payment) (account : DedicatedAccount) (row : Customer Cents) (result : PaymentResult)
    (hread : readPayment env.reference payload = .ok p) (hcredits : Credits p db.tables account row)
    (hrun : (Prog.run exec (processPayment env requestId nombaPaymentSuccessEvent payload)
      db.tables).1 = .ok result) :
    ∃ t w', (stateAfter (processPayment env requestId nombaPaymentSuccessEvent payload)
        db.tables).transactions = db.tables.transactions ++ [t] ∧
      (stateAfter (processPayment env requestId nombaPaymentSuccessEvent payload) db.tables).wallet
        row.id = some w' ∧
      (w' = row.walletBalance + t.amount ↔ RoundsAlike row.walletBalance (p.amount.toRat * 10 ^ 2)) := by
  have hprogram : processPayment env requestId nombaPaymentSuccessEvent payload =
      settlePayment env requestId nombaPaymentSuccessEvent payload p := by
    rw [processPayment, hread]
    rfl
  rw [hprogram] at hrun ⊢
  have hs : Settles env requestId payload p db.tables (outcomeOf
      (settlePayment env requestId nombaPaymentSuccessEvent payload p) db.tables) :=
    settles db.constraints
  have hok : (outcomeOf (settlePayment env requestId nombaPaymentSuccessEvent payload p)
      db.tables).result = .ok result := hrun
  show ∃ t w', (outcomeOf (settlePayment env requestId nombaPaymentSuccessEvent payload p)
      db.tables).state.transactions = _ ∧ (outcomeOf (settlePayment env requestId
        nombaPaymentSuccessEvent payload p) db.tables).state.wallet row.id = _ ∧ _
  generalize outcomeOf (settlePayment env requestId nombaPaymentSuccessEvent payload p) db.tables = o
    at hs hok
  cases hs with
  | refused insert => cases hok
  | held hold insert => exact (hold.not_credits hcredits rfl).elim
  | unsaved credit wallet_error => cases hok
  | unlogged credit wallet_ok target_error => cases hok
  | undelivered credit wallet_ok target_ok emit => cases hok
  | @credited account' row' t db₁ w' expected credit wallet_ok target_ok emit =>
    obtain ⟨rfl, rfl⟩ := hcredits.unique db.constraints credit.toCredits rfl
    obtain ⟨hrow, -, -, rfl⟩ := createTransaction_ok_iff.mp credit.insert
    have hamount : decimalField p.amount = .ok t.amount := (NewTransaction.row_ok hrow).amount
    refine ⟨t, w', rfl, ?_, credit_alike_iff hamount wallet_ok⟩
    have hmem : row ∈ ({ db.tables with
        transactions := db.tables.transactions ++ [t]
        clock := db.tables.clock + 1 } : Tables).customers := hcredits.mem
    exact wallet_credited_self hmem w'

/-- A payment of a fractional amount to the account 9901. -/
def fractionalPayment (requestId : String) (amount : Decimal) : Json :=
  .obj [("event_type", .str nombaPaymentSuccessEvent), ("requestId", .str requestId),
    ("data", .obj [("transaction", .obj [("type", .str nombaVactTransferType),
      ("aliasAccountNumber", .str "9901"), ("transactionAmount", .float amount)])])]

theorem provisioned_credits {p : Payment} (hroute : p.route (provisioned none).tables =
    (provisioned none).tables.route "9901" .null) : ∃ account row,
      Credits p (provisioned none).tables account row ∧ row.id = 0 ∧ row.walletBalance = 0 := by
  obtain ⟨account, haccount, hcolumns⟩ : ∃ account,
      (provisioned none).tables.route "9901" .null = some account ∧
        (account.status, account.customerId) = (.active, 0) :=
    Option.map_eq_some_iff.mp (by decide +kernel)
  simp only [Prod.mk.injEq] at hcolumns
  obtain ⟨row, hrow, hid, hwallet⟩ : ∃ row ∈ (provisioned none).tables.customers,
      row.id = 0 ∧ row.walletBalance = 0 := by decide +kernel
  exact ⟨account, row, ⟨hroute.trans haccount, hcolumns.1, hrow, hid.trans hcolumns.2.symm⟩, hid, hwallet⟩

/-- Five naira are whole cents: the wallet, empty before, holds the stored amount. -/
theorem stored_credit_exact_for_five : RoundsAlike 0 (Decimal.toRat ⟨false, 5, 0⟩ * 10 ^ 2) ∧
    ∃ t, (stateAfter (processPayment quiet (.str "R1") nombaPaymentSuccessEvent
        (samplePayment "R1" "9901" 5)) (provisioned none).tables).transactions = [t] ∧
      (stateAfter (processPayment quiet (.str "R1") nombaPaymentSuccessEvent
        (samplePayment "R1" "9901" 5)) (provisioned none).tables).wallet 0 = some (0 + t.amount) := by
  have halike : RoundsAlike 0 (Decimal.toRat ⟨false, 5, 0⟩ * 10 ^ 2) := by
    have hcents : Decimal.toRat ⟨false, 5, 0⟩ * 10 ^ 2 = ((500 : ℤ) : ℚ) := by
      norm_num [Decimal.toRat, Decimal.num, signed]
    rw [hcents]
    refine roundsAlike_of_int ?_
    have hlog : Int.log 10 |((0 : ℤ) : ℚ) + ((500 : ℤ) : ℚ)| = 2 :=
      Decimal.log_eq (by norm_num) (by norm_num)
    rw [lastDigit, hlog]
    norm_num [prec]
  obtain ⟨p, hread, hroute, hamount⟩ : ∃ p, readPayment "REF" (samplePayment "R1" "9901" 5) = .ok p ∧
      p.route (provisioned none).tables = (provisioned none).tables.route "9901" .null ∧
        p.amount = ⟨false, 5, 0⟩ := ⟨_, rfl, rfl, rfl⟩
  obtain ⟨account, row, hcredits, hid, hwallet⟩ := provisioned_credits hroute
  obtain ⟨t, w', htx, hw', hiff⟩ := stored_credit_exact_iff (provisioned none) quiet (.str "R1")
    (samplePayment "R1" "9901" 5) p account row _ hread hcredits rfl
  rw [hid] at hw'
  rw [hwallet, hamount] at hiff
  have hnone : (provisioned none).tables.transactions = [] := by decide
  rw [hnone, List.nil_append] at htx
  exact ⟨halike, t, htx, hw'.trans (congrArg some (hiff.mpr halike))⟩

theorem exists_ok_of_isOk {ε α : Type} {x : Except ε α} (h : x.isOk = true) : ∃ a, x = .ok a := by
  cases x with
  | ok a => exact ⟨a, rfl⟩
  | error e => cases h

/-- Half a cent: the transaction stores 0.00, the wallet 0.01. -/
theorem half_cent_credited : ¬ ∀ (db : Database) (env : Surroundings) (requestId payload : Json)
    (p : Payment) (account : DedicatedAccount) (row : Customer Cents) (result : PaymentResult),
    readPayment env.reference payload = .ok p → Credits p db.tables account row →
    (Prog.run exec (processPayment env requestId nombaPaymentSuccessEvent payload) db.tables).1 =
      .ok result →
    ∃ t w', (stateAfter (processPayment env requestId nombaPaymentSuccessEvent payload)
        db.tables).transactions = db.tables.transactions ++ [t] ∧
      (stateAfter (processPayment env requestId nombaPaymentSuccessEvent payload) db.tables).wallet
        row.id = some w' ∧ w' = row.walletBalance + t.amount := by
  intro hclaim
  set payload := fractionalPayment "R1" ⟨false, 5, -3⟩
  obtain ⟨p, hread, hroute⟩ : ∃ p, readPayment "REF" payload = .ok p ∧
      p.route (provisioned none).tables = (provisioned none).tables.route "9901" .null := ⟨_, rfl, rfl⟩
  obtain ⟨account, row, hcredits, hid, hwallet⟩ := provisioned_credits hroute
  obtain ⟨result, hrun⟩ : ∃ result, (Prog.run exec (processPayment quiet (.str "R1")
      nombaPaymentSuccessEvent payload) (provisioned none).tables).1 = .ok result :=
    exists_ok_of_isOk (by decide +kernel)
  obtain ⟨t, w', htx, hw', hexact⟩ :=
    hclaim (provisioned none) quiet (.str "R1") payload p account row result hread hcredits hrun
  have hamount : t.amount = 0 := by
    have hlast := congrArg (fun rows => rows.getLast?.map (·.amount)) htx
    simp only [List.getLast?_concat, Option.map_some] at hlast
    have hvalue : (stateAfter (processPayment quiet (.str "R1") nombaPaymentSuccessEvent payload)
        (provisioned none).tables).transactions.getLast?.map (·.amount) = some 0 := by decide +kernel
    exact Option.some.inj (hlast.symm.trans hvalue)
  have hcent : (stateAfter (processPayment quiet (.str "R1") nombaPaymentSuccessEvent payload)
      (provisioned none).tables).wallet 0 = some 1 := by decide +kernel
  rw [hid, hcent] at hw'
  rw [← Option.some.inj hw', hwallet, hamount] at hexact
  exact absurd hexact (by decide)

end LdbBackend
