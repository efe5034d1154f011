import LdbBackend.Lib.Decimal
import Mathlib.Data.Int.Log
import Mathlib.Data.Rat.Floor
import Mathlib.Algebra.Order.Ring.Abs
import Mathlib.Algebra.Order.Group.Unbundled.Abs

/-!
# Where a rounding can land

The roundings of `Lib/Decimal.lean` as relations between a rational and an integer: `NearestEven` breaks
ties to the even neighbour, `NearestAway` away from zero. Each is determined by the midpoints that the
number has passed (`lt_iff`), which gives uniqueness and monotonicity. `quantize`, `toColumn` and `fix`
satisfy these relations; `fix` rounds to multiples of the last digit's weight (`lastDigit`).
-/

namespace Fixed

structure NearestEven (x : ℚ) (n : ℤ) : Prop where
  near : |x - n| ≤ 1 / 2
  tie : |x - n| = 1 / 2 → Even n

structure NearestAway (x : ℚ) (n : ℤ) : Prop where
  near : |x - n| ≤ 1 / 2
  tie : |x - n| = 1 / 2 → |x| < |(n : ℚ)|

section Nearest

variable {x y : ℚ} {m n k : ℤ}

theorem half_le_of_lt (h : |x - n| ≤ 1 / 2) (hk : k < n) : (k : ℚ) + 1 / 2 ≤ x := by
  have hle : (k : ℚ) + 1 ≤ n := by exact_mod_cast hk
  have := (abs_le.mp h).1
  linarith

theorem le_half_of_le (h : |x - n| ≤ 1 / 2) (hk : n ≤ k) : x ≤ (k : ℚ) + 1 / 2 := by
  have hle : (n : ℚ) ≤ k := by exact_mod_cast hk
  have := (abs_le.mp h).2
  linarith

/-- On a midpoint, the two neighbours are the only candidates. -/
theorem near_midpoint (h : |x - n| ≤ 1 / 2) (hx : x = k + 1 / 2) : n = k ∨ n = k + 1 := by
  obtain ⟨hlo, hhi⟩ := abs_le.mp h
  have h1 : (n : ℚ) ≤ k + 1 := by linarith
  have h2 : (k : ℚ) ≤ n := by linarith
  have h1' : n ≤ k + 1 := by exact_mod_cast h1
  have h2' : k ≤ n := by exact_mod_cast h2
  omega

/-- Either is half away. -/
theorem dist_midpoint (h : |x - n| ≤ 1 / 2) (hx : x = k + 1 / 2) : |x - n| = 1 / 2 := by
  rcases near_midpoint h hx with rfl | rfl
  · rw [hx, add_sub_cancel_left, abs_of_pos (by norm_num)]
  · rw [hx]
    push_cast
    rw [show (k : ℚ) + 1 / 2 - (k + 1) = -(1 / 2) by ring, abs_neg, abs_of_pos (by norm_num)]

theorem upper_of_midpoint (h : |x - n| ≤ 1 / 2) (hx : x = k + 1 / 2) (hk : k < n) : n = k + 1 := by
  rcases near_midpoint h hx with hn | hn
  · omega
  · exact hn

theorem NearestEven.lt_iff (h : NearestEven x n) :
    k < n ↔ (k : ℚ) + 1 / 2 < x ∨ x = k + 1 / 2 ∧ Odd k := by
  constructor
  · intro hk
    rcases (half_le_of_lt h.near hk).lt_or_eq with hlt | heq
    · exact .inl hlt
    · have hn : n = k + 1 := upper_of_midpoint h.near heq.symm hk
      have hdist : |x - n| = 1 / 2 := dist_midpoint h.near heq.symm
      have heven := h.tie hdist
      rw [hn] at heven
      exact .inr ⟨heq.symm, by rcases heven with ⟨j, hj⟩; exact ⟨j - 1, by omega⟩⟩
  · rintro (hlt | ⟨heq, hodd⟩)
    · by_contra hle
      exact absurd (le_half_of_le h.near (not_lt.mp hle)) (not_le.mpr hlt)
    · rcases near_midpoint h.near heq with hn | hn
      · have hdist : |x - n| = 1 / 2 := dist_midpoint h.near heq
        have heven := h.tie hdist
        rw [hn] at heven
        exact absurd heven (Int.not_even_iff_odd.mpr hodd)
      · omega

theorem NearestAway.lt_iff (h : NearestAway x n) :
    k < n ↔ (k : ℚ) + 1 / 2 < x ∨ x = k + 1 / 2 ∧ 0 < x := by
  constructor
  · intro hk
    rcases (half_le_of_lt h.near hk).lt_or_eq with hlt | heq
    · exact .inl hlt
    · have hn : n = k + 1 := upper_of_midpoint h.near heq.symm hk
      have hdist : |x - n| = 1 / 2 := dist_midpoint h.near heq.symm
      refine .inr ⟨heq.symm, by_contra fun hneg => ?_⟩
      -- below zero the upper neighbour is the smaller one
      have hk0 : (k : ℚ) + 1 / 2 ≤ 0 := heq ▸ not_lt.mp hneg
      have hkneg : k + 1 ≤ 0 := by
        have : (k : ℚ) < 0 := by linarith
        have : k < 0 := by exact_mod_cast this
        omega
      have hn0 : (n : ℚ) ≤ 0 := by
        rw [hn]
        exact_mod_cast hkneg
      have haway := h.tie hdist
      rw [abs_of_nonpos (not_lt.mp hneg), abs_of_nonpos hn0, hn, ← heq] at haway
      push_cast at haway
      linarith
  · rintro (hlt | ⟨heq, hpos⟩)
    · by_contra hle
      exact absurd (le_half_of_le h.near (not_lt.mp hle)) (not_le.mpr hlt)
    · rcases near_midpoint h.near heq with hn | hn
      · have hdist : |x - n| = 1 / 2 := dist_midpoint h.near heq
        have hk : (0 : ℤ) ≤ k := by
          have : (-1 : ℚ) < k := by linarith
          have : (-1 : ℤ) < k := by exact_mod_cast this
          omega
        have hn0 : (0 : ℚ) ≤ n := by
          rw [hn]
          exact_mod_cast hk
        have haway := h.tie hdist
        rw [abs_of_pos hpos, abs_of_nonneg hn0, hn, heq] at haway
        linarith
      · omega

theorem NearestEven.of_int (n : ℤ) : NearestEven n n := by
  constructor
  · rw [sub_self, abs_zero]
    norm_num
  · intro h
    rw [sub_self, abs_zero] at h
    norm_num at h

theorem NearestAway.of_int (n : ℤ) : NearestAway n n := by
  constructor
  · rw [sub_self, abs_zero]
    norm_num
  · intro h
    rw [sub_self, abs_zero] at h
    norm_num at h

theorem NearestEven.mono (hx : NearestEven x m) (hy : NearestEven y n) (h : x ≤ y) : m ≤ n := by
  by_contra hlt
  rcases hx.lt_iff.mp (not_le.mp hlt) with hn | ⟨hn, hodd⟩
  · exact lt_irrefl n (hy.lt_iff.mpr (.inl (lt_of_lt_of_le hn h)))
  · rcases h.lt_or_eq with h | h
    · exact lt_irrefl n (hy.lt_iff.mpr (.inl (hn ▸ h)))
    · exact lt_irrefl n (hy.lt_iff.mpr (.inr ⟨h ▸ hn, hodd⟩))

theorem NearestEven.unique (hm : NearestEven x m) (hn : NearestEven x n) : m = n :=
  le_antisymm (hm.mono hn le_rfl) (hn.mono hm le_rfl)

theorem NearestAway.mono (hx : NearestAway x m) (hy : NearestAway y n) (h : x ≤ y) : m ≤ n := by
  by_contra hlt
  rcases hx.lt_iff.mp (not_le.mp hlt) with hn | ⟨hn, hpos⟩
  · exact lt_irrefl n (hy.lt_iff.mpr (.inl (lt_of_lt_of_le hn h)))
  · rcases h.lt_or_eq with h | h
    · exact lt_irrefl n (hy.lt_iff.mpr (.inl (hn ▸ h)))
    · exact lt_irrefl n (hy.lt_iff.mpr (.inr ⟨h ▸ hn, h ▸ hpos⟩))

theorem NearestEven.neg (h : NearestEven x n) : NearestEven (-x) (-n) := by
  have hdist : |-x - ((-n : ℤ) : ℚ)| = |x - n| := by
    push_cast
    rw [show -x - -(n : ℚ) = -(x - n) by ring, abs_neg]
  exact ⟨hdist ▸ h.near, fun ht => (h.tie (hdist ▸ ht)).neg⟩

/-- Every other integer is farther away, or as far and odd. -/
theorem NearestEven.lt_or_tie (h : NearestEven x m) (hne : n ≠ m) :
    |x - m| < |x - n| ∨ |x - m| = |x - n| ∧ Even m ∧ Odd n := by
  have hgap : (1 : ℚ) ≤ |(m : ℚ) - n| := by
    have : 1 ≤ |m - n| := Int.one_le_abs (by omega)
    exact_mod_cast this
  have htriangle := abs_sub_le (m : ℚ) x n
  rw [abs_sub_comm (m : ℚ) x] at htriangle
  have hnear := h.near
  rcases (show |x - m| ≤ |x - n| by linarith).lt_or_eq with hlt | heq
  · exact .inl hlt
  · have heven := h.tie (by linarith)
    have hgap1 : |(m : ℚ) - n| ≤ 1 := by linarith
    have hint : |m - n| ≤ 1 := by exact_mod_cast hgap1
    refine .inr ⟨heq, heven, ?_⟩
    obtain ⟨i, hi⟩ := heven
    rcases abs_le.mp hint with ⟨hlo, hhi⟩
    rw [Int.odd_iff]
    omega

theorem NearestEven.le (h : NearestEven x m) (n : ℤ) : |x - m| ≤ |x - n| := by
  by_cases hne : n = m
  · rw [hne]
  · rcases h.lt_or_tie hne with hlt | ⟨heq, -⟩
    · exact hlt.le
    · exact heq.le

theorem NearestAway.unique (hm : NearestAway x m) (hn : NearestAway x n) : m = n :=
  le_antisymm (hm.mono hn le_rfl) (hn.mono hm le_rfl)

theorem NearestAway.neg (h : NearestAway x n) : NearestAway (-x) (-n) := by
  have hdist : |-x - ((-n : ℤ) : ℚ)| = |x - n| := by
    push_cast
    rw [show -x - -(n : ℚ) = -(x - n) by ring, abs_neg]
  refine ⟨hdist ▸ h.near, fun ht => ?_⟩
  push_cast
  rw [abs_neg, abs_neg]
  exact h.tie (hdist ▸ ht)

end Nearest

/-! ## Rounded quotients -/

section Quotient

variable {n d : ℕ}

theorem quotient_split (hd : 0 < d) : (n : ℚ) / d = (n / d : ℕ) + ((n % d : ℕ) : ℚ) / d := by
  have hd' : (d : ℚ) ≠ 0 := by positivity
  have h : (n : ℚ) = d * (n / d : ℕ) + (n % d : ℕ) := by exact_mod_cast (Nat.div_add_mod n d).symm
  rw [eq_comm, eq_div_iff hd', add_mul, div_mul_cancel₀ _ hd', h]
  ring

theorem roundHalfEven_nearest (hd : 0 < d) : NearestEven ((n : ℚ) / d) (roundHalfEven n d : ℕ) := by
  have hd' : (0 : ℚ) < d := by exact_mod_cast hd
  have hr : n % d < d := Nat.mod_lt n hd
  rw [quotient_split hd]
  unfold roundHalfEven
  set q := n / d
  set r := n % d
  have hlow : (0 : ℚ) ≤ (r : ℚ) / d := by positivity
  have hhigh : (r : ℚ) / d < 1 := by
    rw [div_lt_one hd']
    exact_mod_cast hr
  have hup : (1 : ℚ) / 2 ≤ (r : ℚ) / d ↔ d ≤ 2 * r := by
    rw [div_le_div_iff₀ (by norm_num) hd', one_mul, mul_comm]
    exact_mod_cast Iff.rfl
  have hdown : (r : ℚ) / d ≤ 1 / 2 ↔ 2 * r ≤ d := by
    rw [div_le_div_iff₀ hd' (by norm_num), one_mul, mul_comm]
    exact_mod_cast Iff.rfl
  show NearestEven _ ((if d < 2 * r ∨ 2 * r = d ∧ q % 2 = 1 then q + 1 else q : ℕ) : ℤ)
  split_ifs with h
  · have hge : (1 : ℚ) / 2 ≤ (r : ℚ) / d := hup.mpr (by omega)
    have hdiff : (q : ℚ) + (r : ℚ) / d - ((q + 1 : ℕ) : ℤ) = (r : ℚ) / d - 1 := by
      push_cast
      ring
    constructor
    · rw [hdiff, abs_le]
      constructor
      · linarith
      · linarith
    · intro ht
      rw [hdiff, abs_of_nonpos (by linarith)] at ht
      have htie : 2 * r ≤ d := hdown.mp (by linarith)
      have hodd : q % 2 = 1 := by omega
      exact ⟨(q + 1) / 2, by omega⟩
  · have hle : (r : ℚ) / d ≤ 1 / 2 := hdown.mpr (by omega)
    have hdiff : (q : ℚ) + (r : ℚ) / d - ((q : ℕ) : ℤ) = (r : ℚ) / d := by
      push_cast
      ring
    constructor
    · rw [hdiff, abs_of_nonneg hlow]
      exact hle
    · intro ht
      rw [hdiff, abs_of_nonneg hlow] at ht
      have htie : d ≤ 2 * r := hup.mp (by linarith)
      exact ⟨q / 2, by omega⟩

theorem roundHalfUp_nearest (hd : 0 < d) : NearestAway ((n : ℚ) / d) (roundHalfUp n d : ℕ) := by
  have hd' : (0 : ℚ) < d := by exact_mod_cast hd
  set q := roundHalfUp n d with hq
  have hlow : 2 * d * q ≤ 2 * n + d := Nat.mul_div_le _ _
  have hhigh : 2 * n + d < 2 * d * (q + 1) := Nat.lt_mul_div_succ _ (by omega)
  have hlow' : (2 * d * q : ℚ) ≤ 2 * n + d := by exact_mod_cast hlow
  have hhigh' : (2 * n + d : ℚ) < 2 * d * (q + 1) := by exact_mod_cast hhigh
  have hle : (q : ℚ) - 1 / 2 ≤ (n : ℚ) / d := by
    rw [le_div_iff₀ hd']
    linarith
  have hlt : (n : ℚ) / d < (q : ℚ) + 1 / 2 := by
    rw [div_lt_iff₀ hd']
    linarith
  have hn : (0 : ℚ) ≤ (n : ℚ) / d := by positivity
  constructor
  · rw [abs_le]
    push_cast
    constructor
    · linarith
    · linarith
  · intro ht
    push_cast at ht ⊢
    rw [abs_of_nonneg hn, abs_of_nonneg (Nat.cast_nonneg q)]
    -- the only tie is with the half below
    by_contra hge
    rw [abs_of_nonneg (by linarith [not_lt.mp hge])] at ht
    linarith

end Quotient

/-! ## The roundings of a decimal -/

/-- A logarithm is known from the powers around its argument. -/
theorem log_eq_of_bounds {b : ℕ} (hb : 1 < b) {r : ℚ} {k : ℤ} (hlow : (b : ℚ) ^ k ≤ r)
    (hhigh : r < (b : ℚ) ^ (k + 1)) : Int.log b r = k := by
  have hr : 0 < r := lt_of_lt_of_le (zpow_pos (by exact_mod_cast Nat.zero_lt_of_lt hb) k) hlow
  have h1 : k ≤ Int.log b r := (Int.zpow_le_iff_le_log hb hr).mp hlow
  have h2 : Int.log b r < k + 1 := (Int.lt_zpow_iff_log_lt hb hr).mp hhigh
  omega

/-- The weight of the last of `prec` digits of `x`. -/
def lastDigit (x : ℚ) : ℚ := 10 ^ (Int.log 10 |x| + 1 - prec)

theorem lastDigit_pos (x : ℚ) : 0 < lastDigit x := zpow_pos (by norm_num) _

/-- The last digit stands behind the point, on the units, or before them. -/
theorem lastDigit_cases (x : ℚ) : (∃ i : ℕ, lastDigit x = 1 / 10 ^ (i + 1)) ∨ lastDigit x = 1 ∨
    ∃ i : ℕ, lastDigit x = 10 ^ (i + 1) := by
  unfold lastDigit
  generalize Int.log 10 |x| + 1 - prec = g
  rcases lt_trichotomy g 0 with hneg | hzero | hpos
  · obtain ⟨i, rfl⟩ : ∃ i : ℕ, g = -((i + 1 : ℕ) : ℤ) := ⟨(-g - 1).toNat, by omega⟩
    exact .inl ⟨i, by rw [zpow_neg, zpow_natCast, one_div]⟩
  · rw [hzero, zpow_zero]
    exact .inr (.inl rfl)
  · obtain ⟨i, rfl⟩ : ∃ i : ℕ, g = ((i + 1 : ℕ) : ℤ) := ⟨(g - 1).toNat, by omega⟩
    exact .inr (.inr ⟨i, zpow_natCast _ _⟩)

namespace Decimal

/-- The sign and the magnitude of a value. -/
theorem toRat_eq (d : Decimal) :
    d.toRat = if d.neg then -(d.coeff * (10 : ℚ) ^ d.exp) else d.coeff * (10 : ℚ) ^ d.exp := by
  unfold toRat num signed
  split_ifs
  · push_cast
    ring
  · push_cast
    ring

theorem abs_toRat (d : Decimal) : |d.toRat| = d.coeff * (10 : ℚ) ^ d.exp := by
  have hpos : (0 : ℚ) ≤ d.coeff * (10 : ℚ) ^ d.exp := mul_nonneg (by positivity) (ten_zpow_pos _).le
  rw [toRat_eq]
  split_ifs
  · rw [abs_neg, abs_of_nonneg hpos]
  · exact abs_of_nonneg hpos

section Scale

variable {N : ℚ → ℤ → Prop} {round : ℕ → ℕ → ℕ} (hneg : ∀ {x n}, N x n → N (-x) (-n))

include hneg in
theorem nearest_signed {x : ℚ} {n : ℕ} (h : N x n) (neg : Bool) :
    N (if neg then -x else x) (signed neg n) := by
  cases neg with
  | true => exact hneg h
  | false => exact h

include hneg in
/-- A rounding that is near on quotients is near on decimals. -/
theorem scale_nearest (hint : ∀ n : ℤ, N n n) (hround : ∀ {n d : ℕ}, 0 < d → N ((n : ℚ) / d) (round n d : ℕ))
    (p : ℕ) (d : Decimal) : N (d.toRat * 10 ^ p) (signed d.neg (scale round p d)) := by
  have hmagnitude : N (d.coeff * (10 : ℚ) ^ d.exp * 10 ^ p) (scale round p d : ℕ) := by
    have hpow : (10 : ℚ) ^ d.exp * 10 ^ p = (10 : ℚ) ^ (d.exp + p) := by
      rw [zpow_add₀ (by norm_num), zpow_natCast]
    rw [mul_assoc, hpow]
    unfold scale
    split_ifs with he
    · have hvalue : (d.coeff : ℚ) * (10 : ℚ) ^ (d.exp + p) =
          ((d.coeff * 10 ^ (d.exp + p).toNat : ℕ) : ℤ) := by
        push_cast
        rw [← zpow_natCast, Int.toNat_of_nonneg (by omega)]
      rw [hvalue]
      exact hint _
    · have hvalue : (d.coeff : ℚ) * (10 : ℚ) ^ (d.exp + p) =
          (d.coeff : ℚ) / (10 ^ (-(p : ℤ) - d.exp).toNat : ℕ) := by
        push_cast
        rw [← zpow_natCast, Int.toNat_of_nonneg (by omega), div_eq_mul_inv, ← zpow_neg]
        congr 2
        ring
      rw [hvalue]
      exact hround (by positivity)
  have hsigned := nearest_signed hneg hmagnitude d.neg
  rw [toRat_eq, ite_mul, neg_mul]
  exact hsigned

end Scale

theorem quantize_nearest {p : ℕ} {d : Decimal} {n : ℤ} (h : quantize p d = some n) :
    NearestEven (d.toRat * 10 ^ p) n := by
  simp only [quantize] at h
  split_ifs at h
  cases h
  exact scale_nearest NearestEven.neg NearestEven.of_int roundHalfEven_nearest p d

theorem toColumn_nearest {precision p : ℕ} {d : Decimal} {n : ℤ} (h : toColumn precision p d = some n) :
    NearestAway (d.toRat * 10 ^ p) n := by
  simp only [toColumn] at h
  split_ifs at h
  cases h
  exact scale_nearest NearestAway.neg NearestAway.of_int roundHalfUp_nearest p d

theorem log_eq {r : ℚ} {k : ℤ} (hlow : (10 : ℚ) ^ k ≤ r) (hhigh : r < (10 : ℚ) ^ (k + 1)) :
    Int.log 10 r = k :=
  log_eq_of_bounds (by norm_num) (by exact_mod_cast hlow) (by exact_mod_cast hhigh)

theorem lastDigit_toRat {d : Decimal} (hd : d.coeff ≠ 0) :
    lastDigit d.toRat = (10 : ℚ) ^ (d.exp + numDigits d.coeff - prec) := by
  have hpos : 0 < numDigits d.coeff := (le_numDigits_iff _ _).mpr (by omega)
  have hlow : (10 : ℚ) ^ (numDigits d.coeff - 1 : ℤ) ≤ d.coeff := by
    have := (le_numDigits_iff d.coeff (numDigits d.coeff - 1)).mp (by omega)
    have hcast : ((numDigits d.coeff - 1 : ℕ) : ℤ) = (numDigits d.coeff : ℤ) - 1 := by omega
    rw [← hcast, zpow_natCast]
    exact_mod_cast this
  have hhigh : (d.coeff : ℚ) < (10 : ℚ) ^ (numDigits d.coeff : ℤ) := by
    have := (numDigits_le_iff d.coeff (numDigits d.coeff)).mp le_rfl
    rw [zpow_natCast]
    exact_mod_cast this
  have hlog : Int.log 10 |d.toRat| = numDigits d.coeff - 1 + d.exp := by
    rw [abs_toRat]
    apply log_eq
    · rw [zpow_add₀ (by norm_num)]
      exact mul_le_mul_of_nonneg_right hlow (ten_zpow_pos _).le
    · rw [show (numDigits d.coeff : ℤ) - 1 + d.exp + 1 = numDigits d.coeff + d.exp by ring,
        zpow_add₀ (by norm_num)]
      exact mul_lt_mul_of_pos_right hhigh (ten_zpow_pos _)
  rw [lastDigit, hlog]
  congr 1
  ring

/-- The context rounds to a multiple of the last digit's weight. -/
theorem fix_nearest (d : Decimal) : ∃ m : ℤ, (fix d).toRat = lastDigit d.toRat * m ∧
    NearestEven (d.toRat / lastDigit d.toRat) m := by
  by_cases hd : d.coeff = 0
  · have hzero : d.toRat = 0 := by
      rw [toRat, num, hd]
      simp [signed]
    have hfix : fix d = d := by
      unfold fix
      rw [hd]
      rfl
    refine ⟨0, by rw [hfix, hzero, Int.cast_zero, mul_zero], ?_⟩
    rw [hzero, zero_div]
    exact_mod_cast NearestEven.of_int 0
  · rw [lastDigit_toRat hd]
    set digits := numDigits d.coeff with hdigits
    have hunit : (10 : ℚ) ^ (d.exp + digits - prec) ≠ 0 := ten_zpow_ne _
    by_cases hdrop : digits - prec = 0
    · -- nothing is dropped: the value is a multiple already
      have hfix : fix d = d := by
        unfold fix
        rw [if_pos hdrop]
      have hvalue : d.toRat / (10 : ℚ) ^ (d.exp + digits - prec) =
          ((d.num * 10 ^ (prec - digits) : ℤ) : ℚ) := by
        rw [div_eq_iff hunit, toRat]
        push_cast
        rw [mul_assoc, ← zpow_natCast (10 : ℚ) (prec - digits), ← zpow_add₀ (by norm_num)]
        congr 2
        omega
      refine ⟨d.num * 10 ^ (prec - digits), ?_, ?_⟩
      · rw [hfix, ← hvalue, mul_div_cancel₀ _ hunit]
      · rw [hvalue]
        exact NearestEven.of_int _
    · set drop := digits - prec with hdrop'
      have hexp : d.exp + digits - prec = d.exp + drop := by omega
      rw [hexp]
      set c := roundHalfEven d.coeff (10 ^ drop) with hc
      have hvalue : d.toRat / (10 : ℚ) ^ (d.exp + drop) =
          if d.neg then -((d.coeff : ℚ) / (10 ^ drop : ℕ)) else (d.coeff : ℚ) / (10 ^ drop : ℕ) := by
        have hquot : (d.coeff : ℚ) * (10 : ℚ) ^ d.exp / (10 : ℚ) ^ (d.exp + drop) =
            (d.coeff : ℚ) / (10 ^ drop : ℕ) := by
          have hexp := ten_zpow_ne d.exp
          rw [zpow_add₀ (by norm_num), zpow_natCast]
          push_cast
          field_simp
        rw [toRat_eq, ite_div, neg_div, hquot]
      refine ⟨signed d.neg c, ?_, ?_⟩
      · unfold fix
        rw [if_neg hdrop]
        show toRat (if c = 10 ^ prec then _ else _) = _
        split_ifs with hcarry
        · rw [hcarry, toRat, num]
          show (signed d.neg (10 ^ (prec - 1)) : ℚ) * (10 : ℚ) ^ (d.exp + drop + 1) = _
          have hten : (10 : ℕ) ^ prec = 10 ^ (prec - 1) * 10 := rfl
          rw [hten, signed_mul, zpow_add₀ (by norm_num), zpow_one]
          push_cast
          ring
        · rw [toRat, num, mul_comm]
      · rw [hvalue]
        exact nearest_signed NearestEven.neg (roundHalfEven_nearest (by positivity)) d.neg

theorem lastDigit_shift {x : ℚ} (hx : x ≠ 0) (p : ℕ) : lastDigit (x * 10 ^ p) = lastDigit x * 10 ^ p := by
  have habs : |x * 10 ^ p| = |x| * (10 : ℚ) ^ (p : ℤ) := by
    rw [abs_mul, abs_of_pos (by positivity : (0 : ℚ) < 10 ^ p), zpow_natCast]
  have hlow := Int.zpow_log_le_self (b := 10) (by norm_num) (abs_pos.mpr hx)
  have hhigh := Int.lt_zpow_succ_log_self (b := 10) (by norm_num) |x|
  have hlog : Int.log 10 |x * 10 ^ p| = Int.log 10 |x| + p := by
    rw [habs]
    apply log_eq
    · rw [zpow_add₀ (by norm_num)]
      exact mul_le_mul_of_nonneg_right (by exact_mod_cast hlow) (ten_zpow_pos _).le
    · rw [add_right_comm, zpow_add₀ (by norm_num)]
      exact mul_lt_mul_of_pos_right (by exact_mod_cast hhigh) (ten_zpow_pos _)
  rw [lastDigit, lastDigit, hlog, ← zpow_natCast, ← zpow_add₀ (by norm_num)]
  congr 1
  ring

/-- The context rounding in units of `10 ^ (-p)`. -/
theorem fix_nearest_scaled (p : ℕ) (d : Decimal) : ∃ m : ℤ,
    (fix d).toRat * 10 ^ p = lastDigit (d.toRat * 10 ^ p) * m ∧
      NearestEven (d.toRat * 10 ^ p / lastDigit (d.toRat * 10 ^ p)) m := by
  obtain ⟨m, hfix, hm⟩ := fix_nearest d
  by_cases hd : d.toRat = 0
  · rw [hd, zero_div] at hm
    obtain rfl : m = 0 := hm.unique (by exact_mod_cast NearestEven.of_int 0)
    refine ⟨0, by rw [hfix, Int.cast_zero, mul_zero, mul_zero, zero_mul], ?_⟩
    rw [hd, zero_mul, zero_div]
    exact hm
  · have hten : (10 : ℚ) ^ p ≠ 0 := by positivity
    rw [lastDigit_shift hd, mul_div_mul_right _ _ hten]
    refine ⟨m, ?_, hm⟩
    rw [hfix]
    ring

/-- A value has `prec` digits above its last one. -/
theorem le_div_lastDigit {x : ℚ} (hx : x ≠ 0) : (10 : ℚ) ^ (prec - 1) ≤ |x| / lastDigit x := by
  rw [le_div_iff₀ (lastDigit_pos x), lastDigit, ← zpow_natCast, ← zpow_add₀ (by norm_num)]
  have hlog := Int.zpow_log_le_self (b := 10) (by norm_num) (abs_pos.mpr hx)
  have hexp : ((prec - 1 : ℕ) : ℤ) + (Int.log 10 |x| + 1 - prec) = Int.log 10 |x| := by
    rw [show ((prec - 1 : ℕ) : ℤ) = (prec : ℤ) - 1 from rfl]
    ring
  rw [hexp]
  exact_mod_cast hlog

theorem prec_lt_fix {d : Decimal} (hd : 0 < d.toRat) :
    lastDigit d.toRat * 10 ^ (prec - 1) ≤ (fix d).toRat := by
  obtain ⟨m, hfix, hm⟩ := fix_nearest d
  have hle := le_div_lastDigit hd.ne'
  rw [abs_of_pos hd] at hle
  have hint : ((10 ^ (prec - 1) : ℤ) : ℚ) ≤ d.toRat / lastDigit d.toRat := by
    push_cast
    exact hle
  have hmono : (10 ^ (prec - 1) : ℤ) ≤ m := (NearestEven.of_int _).mono hm hint
  rw [hfix]
  refine mul_le_mul_of_nonneg_left ?_ (lastDigit_pos _).le
  exact_mod_cast hmono

/-- A number of `prec` digits that is not above `d` is not above its rounding. -/
theorem le_fix {p : ℕ} {d x : Decimal} {n : ℤ} (hx : IsScaled p x n) (hn : n.natAbs < 10 ^ prec)
    (h : x.toRat ≤ d.toRat) : x.toRat ≤ (fix d).toRat := by
  obtain ⟨m, hfix, hm⟩ := fix_nearest d
  by_cases hzero : d.toRat = 0
  · rw [hzero, zero_div] at hm
    have hm0 : m = 0 := hm.unique (by exact_mod_cast NearestEven.of_int 0)
    rw [hfix, hm0, Int.cast_zero, mul_zero, ← hzero]
    exact h
  have hu := lastDigit_pos d.toRat
  set u := lastDigit d.toRat with hudef
  rcases le_or_gt u ((10 : ℚ) ^ (-(p : ℤ))) with hfine | hcoarse
  · -- `x` is a multiple of the last digit
    have hle : Int.log 10 |d.toRat| + 1 - prec ≤ -(p : ℤ) :=
      (zpow_le_zpow_iff_right₀ (by norm_num : (1 : ℚ) < 10)).mp hfine
    have hvalue : x.toRat / u = ((n * 10 ^ (-(p : ℤ) - (Int.log 10 |d.toRat| + 1 - prec)).toNat : ℤ) : ℚ) := by
      rw [div_eq_iff hu.ne', hx, div_eq_mul_inv, ← zpow_natCast, ← zpow_neg, zpow_eq_pow_mul hle]
      push_cast
      rw [hudef, lastDigit]
      ring
    have hmono : n * 10 ^ (-(p : ℤ) - (Int.log 10 |d.toRat| + 1 - prec)).toNat ≤ m := by
      refine (NearestEven.of_int _).mono hm ?_
      rw [← hvalue]
      exact div_le_div_of_nonneg_right h hu.le
    rw [hfix, ← div_le_iff₀' hu, hvalue]
    exact_mod_cast hmono
  · -- the last digit alone is above what `prec` digits can reach at `p` decimals
    have habs : |x.toRat| < u * 10 ^ (prec - 1) := by
      have hlt : (10 : ℚ) ^ (-(p : ℤ) + 1) ≤ u := by
        have := (zpow_lt_zpow_iff_right₀ (by norm_num : (1 : ℚ) < 10)).mp hcoarse
        exact (zpow_le_zpow_iff_right₀ (by norm_num : (1 : ℚ) < 10)).mpr this
      have hnabs : |(n : ℚ)| < 10 ^ prec := by
        rw [← Int.cast_abs, Int.abs_eq_natAbs]
        exact_mod_cast hn
      calc |x.toRat| = |(n : ℚ)| * (10 : ℚ) ^ (-(p : ℤ)) := by
            rw [hx, abs_div, abs_of_pos (by positivity : (0 : ℚ) < 10 ^ p), div_eq_mul_inv, zpow_neg,
              zpow_natCast]
        _ < 10 ^ prec * (10 : ℚ) ^ (-(p : ℤ)) := mul_lt_mul_of_pos_right hnabs (ten_zpow_pos _)
        _ = (10 : ℚ) ^ (-(p : ℤ) + 1) * 10 ^ (prec - 1) := by
            have hten : (10 : ℚ) ^ prec = 10 * 10 ^ (prec - 1) := pow_succ' 10 (prec - 1)
            rw [zpow_add₀ (by norm_num), zpow_one, hten]
            ring
        _ ≤ u * 10 ^ (prec - 1) := mul_le_mul_of_nonneg_right hlt (by positivity)
    have hd : 0 < d.toRat := by
      by_contra hneg
      have hlt : d.toRat < 0 := lt_of_le_of_ne (not_lt.mp hneg) hzero
      have hge := le_div_lastDigit hzero
      rw [le_div_iff₀ hu, abs_of_neg hlt, mul_comm] at hge
      have := neg_lt_of_abs_lt habs
      linarith
    exact (le_abs_self _).trans (habs.le.trans (prec_lt_fix hd))

/-- Rounding does not lose the sign. -/
theorem fix_pos_iff {d : Decimal} : 0 < (fix d).toRat ↔ 0 < d.toRat := by
  constructor
  · intro h
    obtain ⟨m, hfix, hm⟩ := fix_nearest d
    have hu := lastDigit_pos d.toRat
    rw [hfix] at h
    have hpos : 0 < m := by exact_mod_cast pos_of_mul_pos_right h hu.le
    by_contra hle
    have hdiv : d.toRat / lastDigit d.toRat ≤ ((0 : ℤ) : ℚ) := by
      rw [Int.cast_zero]
      exact div_nonpos_of_nonpos_of_nonneg (not_lt.mp hle) hu.le
    exact absurd (hm.mono (.of_int 0) hdiv) (by omega)
  · intro h
    have hten : 0 < lastDigit d.toRat * 10 ^ (prec - 1) := mul_pos (lastDigit_pos _) (by positivity)
    exact lt_of_lt_of_le hten (prec_lt_fix h)

/-- A number of the column that is not above `d` is not above what the column takes. -/
theorem le_toColumn {precision p : ℕ} {d x : Decimal} {n m : ℤ} (hx : IsScaled p x n)
    (h : x.toRat ≤ d.toRat) (hm : toColumn precision p d = some m) : n ≤ m := by
  refine (NearestAway.of_int n).mono (toColumn_nearest hm) ?_
  have hvalue : (n : ℚ) = x.toRat * 10 ^ p := by
    rw [hx, div_mul_cancel₀]
    positivity
  rw [hvalue]
  exact mul_le_mul_of_nonneg_right h (by positivity)

end Decimal

end Fixed
