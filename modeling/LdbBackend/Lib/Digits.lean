import LdbBackend.Lib.Rounding

/-!
# Significant digits

`HasDigits k q`: the number `q` is written with at most `k` significant digits. Around a number `f` these
numbers are the multiples of the weight of its `k`-th digit (`HasDigits.multiple`), and two of them are not
closer than one such weight (`HasDigits.apart`). The context rounding keeps what has `prec` digits
(`toColumn_fix_iff`).
-/

namespace Fixed

/-- At most `k` significant digits. -/
def HasDigits (k : ℕ) (q : ℚ) : Prop := ∃ (c : ℕ) (e : ℤ), c < 10 ^ k ∧ q = c * (10 : ℚ) ^ e

section Digits

variable {k : ℕ} {p x y : ℚ}

theorem HasDigits.mono {j : ℕ} (h : HasDigits j q) (hjk : j ≤ k) : HasDigits k q := by
  obtain ⟨c, e, hc, hq⟩ := h
  exact ⟨c, e, hc.trans_le (Nat.pow_le_pow_right (by norm_num) hjk), hq⟩

/-- Two decimals differ by the weight of the last digit of one of them. -/
theorem HasDigits.apart (hx : HasDigits k x) (hy : HasDigits k y) (h : x < y) : x < 10 ^ k * (y - x) := by
  obtain ⟨a, i, ha, rfl⟩ := hx
  obtain ⟨b, j, hb, rfl⟩ := hy
  have ha' : (a : ℚ) < 10 ^ k := by exact_mod_cast ha
  have hb' : (b : ℚ) < 10 ^ k := by exact_mod_cast hb
  have hwhole : (10 : ℚ) ^ (min i j) ≤ b * (10 : ℚ) ^ j - a * (10 : ℚ) ^ i := by
    have hpos := Decimal.ten_zpow_pos (min i j)
    rw [Decimal.zpow_eq_pow_mul (min_le_left i j), Decimal.zpow_eq_pow_mul (min_le_right i j), ← mul_assoc,
      ← mul_assoc] at h ⊢
    have hint : a * 10 ^ (i - min i j).toNat < b * 10 ^ (j - min i j).toNat := by
      exact_mod_cast (mul_lt_mul_iff_left₀ hpos).mp h
    have hstep : (a : ℚ) * 10 ^ (i - min i j).toNat + 1 ≤ b * 10 ^ (j - min i j).toNat := by
      exact_mod_cast hint
    have := mul_le_mul_of_nonneg_right hstep hpos.le
    linarith
  rcases le_total i j with hij | hji
  · rw [min_eq_left hij] at hwhole
    calc (a : ℚ) * (10 : ℚ) ^ i < 10 ^ k * (10 : ℚ) ^ i := mul_lt_mul_of_pos_right ha' (Decimal.ten_zpow_pos i)
      _ ≤ 10 ^ k * (b * (10 : ℚ) ^ j - a * (10 : ℚ) ^ i) := mul_le_mul_of_nonneg_left hwhole (by positivity)
  · rw [min_eq_right hji] at hwhole
    calc (a : ℚ) * (10 : ℚ) ^ i < b * (10 : ℚ) ^ j := h
      _ < 10 ^ k * (10 : ℚ) ^ j := mul_lt_mul_of_pos_right hb' (Decimal.ten_zpow_pos j)
      _ ≤ 10 ^ k * (b * (10 : ℚ) ^ j - a * (10 : ℚ) ^ i) := mul_le_mul_of_nonneg_left hwhole (by positivity)

end Digits

/-! ## The grid of the `k`-digit decimals -/

/-- The place of the last of `k` digits of `f`. -/
def digitPlace (k : ℕ) (f : ℚ) : ℤ := Int.log 10 f + 1 - k

/-- Its weight. -/
def digitWeight (k : ℕ) (f : ℚ) : ℚ := 10 ^ digitPlace k f

section Grid

variable {k : ℕ} {f p : ℚ}

theorem digitWeight_pos (k : ℕ) (f : ℚ) : 0 < digitWeight k f := Decimal.ten_zpow_pos _

theorem pow_mul_digitWeight (j : ℕ) : (10 : ℚ) ^ j * digitWeight k f = 10 ^ (Int.log 10 f + 1 - k + j) := by
  rw [digitWeight, digitPlace, ← zpow_natCast, ← zpow_add₀ (by norm_num), add_comm]

/-- The leading digit of `f` is not zero. -/
theorem digitWeight_le (hf : 0 < f) (hk : 0 < k) : 10 ^ (k - 1) * digitWeight k f ≤ f := by
  have hlog := Int.zpow_log_le_self (b := 10) (by norm_num) hf
  rw [pow_mul_digitWeight, show Int.log 10 f + 1 - k + (k - 1 : ℕ) = Int.log 10 f by omega]
  exact_mod_cast hlog

theorem lt_digitWeight (k : ℕ) (f : ℚ) : f < 10 ^ k * digitWeight k f := by
  have hlog := Int.lt_zpow_succ_log_self (b := 10) (by norm_num) f
  rw [pow_mul_digitWeight, sub_add_cancel]
  exact_mod_cast hlog

theorem hasDigits_multiple {c : ℕ} (hk : 0 < k) (hc : c ≤ 10 ^ k) : HasDigits k (c * digitWeight k f) := by
  rcases hc.lt_or_eq with hlt | rfl
  · exact ⟨c, _, hlt, rfl⟩
  · refine ⟨1, Int.log 10 f + 1 - k + k, Nat.one_lt_pow hk.ne' (by norm_num), ?_⟩
    rw [Nat.cast_one, one_mul, ← pow_mul_digitWeight]
    push_cast
    rfl

/-- From the leading digit of `f` on, the `k`-digit decimals are on its grid. -/
theorem HasDigits.multiple (h : HasDigits k p) (hk : 0 < k) (hp : 10 ^ (k - 1) * digitWeight k f ≤ p) :
    ∃ j : ℕ, p = j * digitWeight k f ∧ 10 ^ (k - 1) ≤ j := by
  have hu := digitWeight_pos k f
  obtain ⟨c, e, hc, rfl⟩ := h
  have hlt : (10 : ℚ) ^ (Int.log 10 f) < 10 ^ (k + e) := by
    calc (10 : ℚ) ^ (Int.log 10 f) = 10 ^ (k - 1) * digitWeight k f := by
          rw [pow_mul_digitWeight]
          congr 1
          omega
      _ ≤ c * (10 : ℚ) ^ e := hp
      _ < 10 ^ k * (10 : ℚ) ^ e := by
          refine mul_lt_mul_of_pos_right ?_ (Decimal.ten_zpow_pos e)
          exact_mod_cast hc
      _ = (10 : ℚ) ^ (k + e) := by rw [zpow_add₀ (by norm_num), zpow_natCast]
  have hexp : Int.log 10 f < k + e := (zpow_lt_zpow_iff_right₀ (by norm_num)).mp hlt
  have hvalue : (c : ℚ) * (10 : ℚ) ^ e = (c * 10 ^ (e - (Int.log 10 f + 1 - k)).toNat : ℕ) * digitWeight k f := by
    have hle : Int.log 10 f + 1 - k ≤ e := by omega
    rw [Decimal.zpow_eq_pow_mul hle, digitWeight, digitPlace]
    push_cast
    ring
  refine ⟨_, hvalue, ?_⟩
  rw [hvalue] at hp
  exact_mod_cast (mul_le_mul_iff_left₀ hu).mp hp

/-- The grid point below `f` is above every smaller `k`-digit decimal. -/
theorem HasDigits.le_floor (h : HasDigits k p) (hf : 0 < f) (hk : 0 < k) (hp : p ≤ f) :
    p ≤ ⌊f / digitWeight k f⌋ * digitWeight k f := by
  have hu := digitWeight_pos k f
  rcases le_or_gt (10 ^ (k - 1) * digitWeight k f) p with hge | hlt
  · obtain ⟨j, rfl, -⟩ := h.multiple hk hge
    have hj : (j : ℤ) ≤ ⌊f / digitWeight k f⌋ := by
      rw [Int.le_floor, le_div_iff₀ hu]
      exact_mod_cast hp
    refine mul_le_mul_of_nonneg_right ?_ hu.le
    exact_mod_cast hj
  · have hpow : (10 ^ (k - 1) : ℤ) ≤ ⌊f / digitWeight k f⌋ := by
      rw [Int.le_floor, le_div_iff₀ hu]
      exact_mod_cast digitWeight_le hf hk
    refine hlt.le.trans (mul_le_mul_of_nonneg_right ?_ hu.le)
    exact_mod_cast hpow

theorem HasDigits.floor_le (h : HasDigits k p) (hf : 0 < f) (hk : 0 < k) (hp : f < p) :
    (⌊f / digitWeight k f⌋ + 1 : ℤ) * digitWeight k f ≤ p := by
  have hu := digitWeight_pos k f
  obtain ⟨j, rfl, -⟩ := h.multiple hk ((digitWeight_le hf hk).trans hp.le)
  have hj : ⌊f / digitWeight k f⌋ < (j : ℤ) := by
    rw [Int.floor_lt, div_lt_iff₀ hu]
    exact_mod_cast hp
  refine mul_le_mul_of_nonneg_right ?_ hu.le
  exact_mod_cast hj

end Grid

/-! ## The digits of the context -/

namespace Decimal

theorem lastDigit_eq_digitWeight (x : ℚ) : lastDigit x = digitWeight prec |x| := rfl

section Context

variable {d : Decimal} {precision p : ℕ} {n : ℤ}

theorem abs_int (n : ℤ) : |(n : ℚ)| = n.natAbs := by
  rw [← Int.cast_abs, Int.abs_eq_natAbs, Int.cast_natCast]

/-- A number whose `prec` digits reach it is kept. -/
theorem fix_of_hasDigits (h : IsScaled p d n) (hn : HasDigits prec |(n : ℚ)|) : (fix d).toRat = d.toRat := by
  by_cases hzero : n = 0
  · subst hzero
    exact fix_exact h (by norm_num)
  have hten : (10 : ℚ) ^ p ≠ 0 := by positivity
  have hvalue : d.toRat * 10 ^ p = n := by rw [h, div_mul_cancel₀ _ hten]
  have hpos : 0 < |(n : ℚ)| := by
    rw [abs_pos]
    exact_mod_cast hzero
  obtain ⟨m, hfix, hm⟩ := fix_nearest_scaled p d
  rw [hvalue] at hfix hm
  have hu := lastDigit_pos n
  obtain ⟨j, hj, -⟩ := hn.multiple (f := |(n : ℚ)|) (by decide) (digitWeight_le hpos (by decide))
  rw [← lastDigit_eq_digitWeight] at hj
  obtain ⟨i, hi⟩ : ∃ i : ℤ, (n : ℚ) / lastDigit n = i := by
    rcases abs_choice (n : ℚ) with habs | habs
    · refine ⟨j, ?_⟩
      rw [div_eq_iff hu.ne', Int.cast_natCast, ← hj, habs]
    · refine ⟨-j, ?_⟩
      rw [div_eq_iff hu.ne']
      push_cast
      linarith
  rw [hi] at hm
  obtain rfl := hm.unique (.of_int i)
  rw [← hi, mul_div_cancel₀ _ hu.ne', ← hvalue] at hfix
  exact mul_right_cancel₀ hten hfix

theorem hasDigits_of_fix (h : IsScaled p d n) (hn : toColumn precision p (fix d) = some n) :
    HasDigits prec |(n : ℚ)| := by
  have hvalue : d.toRat * 10 ^ p = n := by
    rw [h, div_mul_cancel₀]
    positivity
  obtain ⟨m, hfix, -⟩ := fix_nearest_scaled p d
  have hcolumn := toColumn_nearest hn
  rw [hvalue] at hfix
  rw [hfix] at hcolumn
  have hlt : |(n : ℚ)| < 10 ^ prec * lastDigit n := lt_digitWeight prec |(n : ℚ)|
  have hsmall : lastDigit n ≤ 1 → HasDigits prec |(n : ℚ)| := by
    intro hle
    have hbound : |(n : ℚ)| < 10 ^ prec := by
      calc |(n : ℚ)| < 10 ^ prec * lastDigit n := hlt
        _ ≤ 10 ^ prec * 1 := mul_le_mul_of_nonneg_left hle (by positivity)
        _ = 10 ^ prec := mul_one _
    rw [abs_int] at hbound ⊢
    exact ⟨n.natAbs, 0, by exact_mod_cast hbound, by rw [zpow_zero, mul_one]⟩
  rcases lastDigit_cases n with ⟨i, hi⟩ | hone | ⟨i, hi⟩
  · refine hsmall ?_
    rw [hi, div_le_one (by positivity)]
    exact one_le_pow₀ (by norm_num)
  · exact hsmall hone.le
  · -- a multiple of ten cents or more is not rounded by the column
    have hint : (10 : ℚ) ^ (i + 1) * m = ((10 ^ (i + 1) * m : ℤ) : ℚ) := by
      push_cast
      rfl
    rw [hi, hint] at hcolumn
    obtain rfl := hcolumn.unique (.of_int _)
    rw [hi, ← hint, abs_mul, abs_of_pos (by positivity : (0 : ℚ) < 10 ^ (i + 1)), mul_comm ((10 : ℚ) ^ prec)] at hlt
    have hbound := lt_of_mul_lt_mul_left hlt (by positivity)
    rw [abs_int] at hbound
    refine ⟨m.natAbs, (i + 1 : ℕ), by exact_mod_cast hbound, ?_⟩
    rw [← hint, abs_mul, abs_of_pos (by positivity : (0 : ℚ) < 10 ^ (i + 1)), abs_int, mul_comm, zpow_natCast]

end Context

end Decimal

end Fixed
