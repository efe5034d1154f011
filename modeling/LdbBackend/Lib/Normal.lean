import LdbBackend.Lib.Digits

/-!
# Normal forms and integral values

A number is normal when its coefficient does not end with a zero. `normalize` reaches the normal form
(`normalize_spec`), and there is one for each value (`Normal.unique`), so the normal form
after the context rounding is a function of the value (`normalize_fix_congr`). `sameValue` against
`toIntegralValue` decides whether the value is an integer (`integral_iff`), and then `quantizeUnits` writes
it (`quantizeUnits_exact`).
-/

namespace Fixed

namespace Decimal

/-- `x == y`. -/
def sameValue (x y : Decimal) : Bool := x.alignTo (min x.exp y.exp) == y.alignTo (min x.exp y.exp)

/-- The nearest integer, half even. -/
def toIntegralValue (d : Decimal) : Decimal :=
  if 0 ≤ d.exp then d else ⟨d.neg, roundHalfEven d.coeff (10 ^ (-d.exp).toNat), 0⟩

/-- `quantize(Decimal(1))`, with the sign of a zero. -/
def quantizeUnits (d : Decimal) : Option Decimal :=
  let c := scale roundHalfEven 0 d
  if c < 10 ^ prec then some ⟨d.neg, c, 0⟩ else none

/-- The coefficient does not end with a zero. -/
def Normal (d : Decimal) : Prop := d.coeff % 10 ≠ 0

section Values

variable {x y d : Decimal}

theorem sameValue_iff : sameValue x y = true ↔ x.toRat = y.toRat := by
  rw [sameValue, beq_iff_eq, ← alignTo_toRat (min_le_left x.exp y.exp), ← alignTo_toRat (min_le_right x.exp y.exp),
    mul_left_inj' (ten_zpow_ne _), Int.cast_inj]

theorem toRat_eq_zero_iff : d.toRat = 0 ↔ d.coeff = 0 := by
  rw [toRat, mul_eq_zero, or_iff_left (ten_zpow_ne d.exp), Int.cast_eq_zero, ← Int.natAbs_eq_zero, num,
    natAbs_signed]

/-- The sign of a number that is not zero. -/
theorem neg_eq_decide (h : d.toRat ≠ 0) : d.neg = decide (d.toRat < 0) := by
  have hpos : 0 < (d.coeff : ℚ) := by
    have := Nat.pos_of_ne_zero (mt toRat_eq_zero_iff.mpr h)
    exact_mod_cast this
  have hten := ten_zpow_pos d.exp
  rw [toRat, num]
  cases hneg : d.neg with
  | true =>
    symm
    rw [decide_eq_true_eq, signed, if_pos rfl]
    push_cast
    exact mul_neg_of_neg_of_pos (neg_lt_zero.mpr hpos) hten
  | false =>
    symm
    rw [decide_eq_false_iff_not, not_lt, signed, if_neg (by decide)]
    push_cast
    exact (mul_pos hpos hten).le

theorem neg_congr (h : x.toRat = y.toRat) (hx : x.toRat ≠ 0) : x.neg = y.neg := by
  rw [neg_eq_decide hx, neg_eq_decide (h ▸ hx), h]

/-! ## Normal forms -/

/-- The digits that `normalize` removes. -/
theorem trailing_zeros {n : ℕ} (hn : 0 < n) :
    ∃ q, n = q * 10 ^ ((Nat.digits 10 n).takeWhile (· = 0)).length ∧ q % 10 ≠ 0 := by
  induction n using Nat.strong_induction_on with
  | h n ih =>
    rw [Nat.digits_def' (by norm_num) hn]
    by_cases hlast : n % 10 = 0
    · obtain ⟨q, hq, hnormal⟩ := ih (n / 10) (by omega) (by omega)
      refine ⟨q, ?_, hnormal⟩
      rw [List.takeWhile_cons_of_pos (by simpa using hlast), List.length_cons, pow_succ, ← mul_assoc, ← hq]
      omega
    · refine ⟨n, ?_, hlast⟩
      rw [List.takeWhile_cons_of_neg (by simpa using hlast), List.length_nil, pow_zero, mul_one]

theorem normalize_spec (h : d.coeff ≠ 0) : Normal d.normalize ∧ d.normalize.toRat = d.toRat := by
  obtain ⟨q, hq, hnormal⟩ := trailing_zeros (Nat.pos_of_ne_zero h)
  simp only [normalize, if_neg h]
  set zeros := ((Nat.digits 10 d.coeff).takeWhile (· = 0)).length
  have hcoeff : d.coeff / 10 ^ zeros = q := by
    rw [hq]
    exact Nat.mul_div_cancel q (by positivity)
  rw [hcoeff]
  refine ⟨hnormal, ?_⟩
  simp only [toRat, num]
  conv_rhs => rw [hq, signed_mul]
  rw [zpow_add₀ (by norm_num), zpow_natCast]
  push_cast
  ring

theorem Normal.toRat_ne_zero (h : Normal d) : d.toRat ≠ 0 := by
  intro hzero
  exact h (by rw [toRat_eq_zero_iff.mp hzero])

/-- A normal number has the largest exponent of its value. -/
theorem Normal.exp_le (h : Normal x) (hvalue : x.toRat = y.toRat) : y.exp ≤ x.exp := by
  by_contra hlt
  rw [not_le] at hlt
  have halign := alignTo_toRat hlt.le
  rw [← hvalue, toRat, mul_left_inj' (ten_zpow_ne _), Int.cast_inj, alignTo] at halign
  have hcoeff : y.coeff * 10 ^ (y.exp - x.exp).toNat = x.coeff := by
    have := congrArg Int.natAbs halign
    rwa [Int.natAbs_mul, num, num, natAbs_signed, natAbs_signed, Int.natAbs_pow] at this
  obtain ⟨k, hk⟩ : ∃ k, (y.exp - x.exp).toNat = k + 1 := ⟨(y.exp - x.exp).toNat - 1, by omega⟩
  apply h
  rw [← hcoeff, hk, pow_succ, ← mul_assoc]
  exact Nat.mul_mod_left _ 10

theorem Normal.unique (hx : Normal x) (hy : Normal y) (hvalue : x.toRat = y.toRat) : x = y := by
  have hexp : x.exp = y.exp := le_antisymm (hy.exp_le hvalue.symm) (hx.exp_le hvalue)
  have hneg : x.neg = y.neg := neg_congr hvalue hx.toRat_ne_zero
  have hnum : x.num = y.num := by
    rw [toRat, toRat, hexp, mul_left_inj' (ten_zpow_ne _)] at hvalue
    exact_mod_cast hvalue
  have hcoeff : x.coeff = y.coeff := by
    have := congrArg Int.natAbs hnum
    rwa [num, num, natAbs_signed, natAbs_signed] at this
  obtain ⟨xneg, xcoeff, xexp⟩ := x
  obtain ⟨yneg, ycoeff, yexp⟩ := y
  simp only at hexp hneg hcoeff
  rw [hexp, hneg, hcoeff]

/-! ## The context rounding -/

theorem fix_congr (h : x.toRat = y.toRat) : (fix x).toRat = (fix y).toRat := by
  obtain ⟨m, hx, hm⟩ := fix_nearest x
  obtain ⟨n, hy, hn⟩ := fix_nearest y
  rw [h] at hx hm
  rw [hx, hy, hm.unique hn]

theorem roundHalfEven_pos {n k : ℕ} (hk : 0 < k) (h : k ≤ n) : 0 < roundHalfEven n k := by
  have hquotient : 0 < n / k := Nat.div_pos h hk
  simp only [roundHalfEven]
  split_ifs
  · omega
  · exact hquotient

theorem fix_ne_zero (h : d.toRat ≠ 0) : (fix d).toRat ≠ 0 := by
  have hcoeff : d.coeff ≠ 0 := mt toRat_eq_zero_iff.mpr h
  apply mt toRat_eq_zero_iff.mp
  unfold fix
  by_cases hdrop : numDigits d.coeff - prec = 0
  · simpa only [hdrop, if_true] using hcoeff
  · simp only [if_neg hdrop]
    have hlarge : 10 ^ (numDigits d.coeff - prec) ≤ d.coeff :=
      (le_numDigits_iff _ _).mp (Nat.sub_lt (by omega) (by decide))
    split_ifs
    · simp
    · exact (roundHalfEven_pos (by positivity) hlarge).ne'

/-- The normal form of what the context keeps is a function of the value. -/
theorem normalize_fix_congr (h : x.toRat = y.toRat) (hx : x.toRat ≠ 0) :
    (fix x).normalize = (fix y).normalize := by
  have hx' : (fix x).coeff ≠ 0 := mt toRat_eq_zero_iff.mpr (fix_ne_zero hx)
  have hy' : (fix y).coeff ≠ 0 := mt toRat_eq_zero_iff.mpr (fix_ne_zero (h ▸ hx))
  obtain ⟨hnx, hvx⟩ := normalize_spec hx'
  obtain ⟨hny, hvy⟩ := normalize_spec hy'
  exact hnx.unique hny (by rw [hvx, hvy, fix_congr h])

/-! ## Integral values -/

theorem isScaled_of_nonneg_exp (h : 0 ≤ d.exp) : IsScaled 0 d (d.alignTo 0) := by
  rw [IsScaled, ← alignTo_toRat h]
  simp

theorem exp_toIntegralValue (d : Decimal) : 0 ≤ d.toIntegralValue.exp := by
  unfold toIntegralValue
  split_ifs with h
  · exact h
  · exact le_rfl

theorem integral_iff : sameValue d d.toIntegralValue = true ↔ ∃ k : ℤ, IsScaled 0 d k := by
  rw [sameValue_iff]
  constructor
  · intro h
    exact ⟨_, h.trans (isScaled_of_nonneg_exp d.exp_toIntegralValue)⟩
  · rintro ⟨k, hk⟩
    obtain ⟨hsigned, -⟩ := scale_exact (fun n d hd => roundHalfEven_mul n hd) hk
    unfold toIntegralValue
    split_ifs with h
    · rfl
    · have hscale : scale roundHalfEven 0 d = roundHalfEven d.coeff (10 ^ (-d.exp).toNat) := by
        simp [scale, h]
      rw [hk, toRat, num, ← hscale, hsigned]
      simp

theorem quantizeUnits_exact {k : ℤ} (h : IsScaled 0 d k) (hk : k.natAbs < 10 ^ prec) :
    quantizeUnits d = some ⟨d.neg, k.natAbs, 0⟩ := by
  obtain ⟨-, hscale⟩ := scale_exact (fun n d hd => roundHalfEven_mul n hd) h
  simp only [quantizeUnits, hscale]
  rw [if_pos hk]

end Values

end Decimal

end Fixed
