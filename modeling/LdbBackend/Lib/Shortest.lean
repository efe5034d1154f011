import LdbBackend.Lib.Digits
import LdbBackend.Lib.Significand

/-!
# Which decimals survive a float

`shortest` prints, of all decimals that round to a binary value `f`, one with the fewest digits, and of
those one nearest to `f`, on a tie the even one (`ShortestFor`). So a decimal is printed for the float nearest
to it exactly when it is that one of its own neighbours (`prints_iff`); with at most 15 digits it always is
(`printsItself_of_fifteen`). The search goes by digits: if any `k`-digit decimal rounds to `f`, one of the
two grid points next to `f` does (`Neighbours.rounds`).
-/

namespace Fixed

/-- At most `k` significant digits, the last of them even. -/
def HasEvenDigits (k : ℕ) (q : ℚ) : Prop := ∃ (c : ℕ) (e : ℤ), c < 10 ^ k ∧ Even c ∧ q = c * (10 : ℚ) ^ e

/-- Every other decimal `p` that rounds to the same binary value `f` has more digits than `q`, or as many
and is farther from `f`, or as far while the last digit of `q` is even. -/
def PrintsItself (q : ℚ) : Prop := ∀ (f p : ℚ) (k : ℕ), RoundsTo q f → 0 < p → RoundsTo p f → p ≠ q →
  HasDigits k p → (∃ j < k, HasDigits j q) ∨
    HasDigits k q ∧ (|q - f| < |p - f| ∨ |q - f| = |p - f| ∧ HasEvenDigits k q)

/-! ## Decimals that round alike -/

section Alike

variable {q x y : ℚ}

end Alike

/-! ## What `shortest` computes -/

/-- The integers next to `x`, the nearest one first. -/
structure Neighbours (x : ℚ) (c c' : ℕ) : Prop where
  near : NearestEven x (c : ℤ)
  sides : (c : ℤ) = ⌊x⌋ ∧ (c' : ℤ) = ⌊x⌋ + 1 ∨ (c : ℤ) = ⌊x⌋ + 1 ∧ (c' : ℤ) = ⌊x⌋

/-- `c` in units of the `k`-th digit is what is printed for `f`. -/
structure ShortestFor (f : ℚ) (k c : ℕ) : Prop where
  digits : 0 < k
  low : 0 < c
  top : c ≤ 10 ^ k
  rounds : RoundsTo (c * digitWeight k f) f
  least : ∀ {p j}, 0 < p → RoundsTo p f → HasDigits j p → k ≤ j
  nearest : ∀ {p}, 0 < p → RoundsTo p f → HasDigits k p → p ≠ c * digitWeight k f →
    |c * digitWeight k f - f| < |p - f| ∨ |c * digitWeight k f - f| = |p - f| ∧ Even c ∧
      ∃ j : ℕ, p = j * digitWeight k f ∧ Odd j ∧ 10 ^ (k - 1) ≤ j

section Neighbours

variable {k c c' n d : ℕ} {f p : ℚ}

/-- If a `k`-digit decimal rounds to `f`, so does the grid point between them. -/
theorem HasDigits.floor_rounds (h : HasDigits k p) (hk : 0 < k) (hp : 0 < p) (hpf : RoundsTo p f) (hle : p ≤ f) :
    RoundsTo (⌊f / digitWeight k f⌋ * digitWeight k f) f := by
  have hf := hp.trans_le hle
  have hself := hpf.self hp
  refine hpf.between hp hself (h.le_floor hf hk hle) ?_
  rw [← le_div_iff₀ (digitWeight_pos k f)]
  exact Int.floor_le _

theorem HasDigits.ceil_rounds (h : HasDigits k p) (hk : 0 < k) (hf : 0 < f) (hpf : RoundsTo p f) (hlt : f < p) :
    RoundsTo ((⌊f / digitWeight k f⌋ + 1 : ℤ) * digitWeight k f) f := by
  have hself := hpf.self (hf.trans hlt)
  refine hself.between hf hpf ?_ (h.floor_le hf hk hlt)
  rw [← div_le_iff₀ (digitWeight_pos k f)]
  push_cast
  exact (Int.lt_floor_add_one _).le

theorem Neighbours.rounds (h : Neighbours (f / digitWeight k f) c c') (hk : 0 < k) (hp : 0 < p) (hpf : RoundsTo p f)
    (hpd : HasDigits k p) : RoundsTo (c * digitWeight k f) f ∨ RoundsTo (c' * digitWeight k f) f := by
  have hvalue : ∀ {a : ℕ} {b : ℤ}, (a : ℤ) = b → RoundsTo (b * digitWeight k f) f →
      RoundsTo (a * digitWeight k f) f := by
    rintro a b rfl hb
    exact_mod_cast hb
  rcases le_or_gt p f with hle | hlt
  · have hfloor := hpd.floor_rounds hk hp hpf hle
    rcases h.sides with ⟨h1, -⟩ | ⟨-, h2⟩
    · exact .inl (hvalue h1 hfloor)
    · exact .inr (hvalue h2 hfloor)
  · have hceil := hpd.ceil_rounds hk (hpf.pos hp) hpf hlt
    rcases h.sides with ⟨-, h2⟩ | ⟨h1, -⟩
    · exact .inr (hvalue h2 hceil)
    · exact .inl (hvalue h1 hceil)

/-- The nearer neighbour is nearest among the `k`-digit decimals. -/
theorem Neighbours.nearest (h : Neighbours (f / digitWeight k f) c c') (hf : 0 < f) (hk : 0 < k) (hpd : HasDigits k p)
    (hne : p ≠ c * digitWeight k f) :
    |c * digitWeight k f - f| < |p - f| ∨ |c * digitWeight k f - f| = |p - f| ∧ Even c ∧
      ∃ j : ℕ, p = j * digitWeight k f ∧ Odd j ∧ 10 ^ (k - 1) ≤ j := by
  have hu := digitWeight_pos k f
  have hdist : ∀ j : ℕ, |j * digitWeight k f - f| = |f / digitWeight k f - ((j : ℤ) : ℚ)| * digitWeight k f := by
    intro j
    rw [abs_sub_comm, ← abs_of_pos hu, ← abs_mul, abs_of_pos hu, sub_mul, div_mul_cancel₀ _ hu.ne', Int.cast_natCast]
  rcases le_or_gt (10 ^ (k - 1) * digitWeight k f) p with hge | hlt
  · obtain ⟨j, rfl, hj⟩ := hpd.multiple hk hge
    have hjc : (j : ℤ) ≠ c := by
      intro heq
      have : j = c := by exact_mod_cast heq
      exact hne (by rw [this])
    rw [hdist, hdist]
    rcases h.near.lt_or_tie hjc with hlt | ⟨heq, heven, hodd⟩
    · exact .inl (mul_lt_mul_of_pos_right hlt hu)
    · exact .inr ⟨by rw [heq], by exact_mod_cast heven, j, rfl, by exact_mod_cast hodd, hj⟩
  · -- below the leading digit of `f` everything is farther away
    have hle := mul_le_mul_of_nonneg_right (h.near.le (10 ^ (k - 1) : ℕ)) hu.le
    rw [← hdist, ← hdist] at hle
    have hlead := digitWeight_le hf hk
    push_cast at hle
    rw [abs_of_nonpos (a := 10 ^ (k - 1) * digitWeight k f - f) (by linarith)] at hle
    refine .inl ?_
    rw [abs_of_neg (a := p - f) (by linarith)]
    linarith

/-- When the nearer neighbour does not round to `f`, the other one is nearest among those that do. -/
theorem Neighbours.other (h : Neighbours (f / digitWeight k f) c c') (hf : 0 < f) (hk : 0 < k) (hp : 0 < p)
    (hpf : RoundsTo p f) (hpd : HasDigits k p) (hc : ¬ RoundsTo (c * digitWeight k f) f)
    (hne : p ≠ c' * digitWeight k f) : |c' * digitWeight k f - f| < |p - f| := by
  have hu := digitWeight_pos k f
  have hcast : ∀ {a : ℕ} {b : ℤ}, (a : ℤ) = b → (a : ℚ) = b := by
    rintro a b rfl
    rfl
  rcases h.sides with ⟨h1, h2⟩ | ⟨h1, h2⟩
  · rw [hcast h2] at hne ⊢
    rcases le_or_gt p f with hle | hlt
    · exact absurd (hcast h1 ▸ hpd.floor_rounds hk hp hpf hle) hc
    · have hbeyond := lt_of_le_of_ne (hpd.floor_le hf hk hlt) hne.symm
      have habove : f < (⌊f / digitWeight k f⌋ + 1 : ℤ) * digitWeight k f := by
        rw [← div_lt_iff₀ hu]
        push_cast
        exact Int.lt_floor_add_one _
      rw [abs_of_pos (by linarith), abs_of_pos (by linarith)]
      linarith
  · rw [hcast h2] at hne ⊢
    rcases le_or_gt p f with hle | hlt
    · have hbeyond := lt_of_le_of_ne (hpd.le_floor hf hk hle) hne
      have hbelow : ⌊f / digitWeight k f⌋ * digitWeight k f ≤ f := by
        rw [← le_div_iff₀ hu]
        exact Int.floor_le _
      rw [abs_of_nonpos (by linarith), abs_of_neg (by linarith)]
      linarith
    · exact absurd (hcast h1 ▸ hpd.ceil_rounds hk hf hpf hlt) hc

end Neighbours

section Printing

variable {n d k : ℕ} {x : ℕ × ℤ}

end Printing

/-! ## Which decimals are printed for their own float -/

section Own

variable {f q : ℚ} {k c : ℕ}

/-- A multiple of the last digit's weight that uses all `k` digits has the parity of its last digit. -/
theorem HasEvenDigits.even {w : ℤ} {j : ℕ} (h : HasEvenDigits k (j * (10 : ℚ) ^ w)) (hj : 10 ^ (k - 1) ≤ j) : Even j := by
  obtain ⟨a, e, ha, heven, hvalue⟩ := h
  rcases le_total w e with he | he
  · have hint : j = a * 10 ^ (e - w).toNat := by
      rw [Decimal.zpow_eq_pow_mul he, ← mul_assoc, mul_left_inj' (Decimal.ten_zpow_ne w)] at hvalue
      exact_mod_cast hvalue
    rw [hint]
    exact heven.mul_right _
  · have hint : j * 10 ^ (w - e).toNat = a := by
      rw [Decimal.zpow_eq_pow_mul he, ← mul_assoc, mul_left_inj' (Decimal.ten_zpow_ne e)] at hvalue
      exact_mod_cast hvalue
    by_cases hzero : (w - e).toNat = 0
    · rw [hzero, pow_zero, mul_one] at hint
      exact hint ▸ heven
    · -- a digit too many
      have hpow : 10 ^ k ≤ j * 10 ^ (w - e).toNat := by
        calc 10 ^ k ≤ 10 ^ (k - 1 + (w - e).toNat) := Nat.pow_le_pow_right (by norm_num) (by omega)
          _ = 10 ^ (k - 1) * 10 ^ (w - e).toNat := pow_add _ _ _
          _ ≤ j * 10 ^ (w - e).toNat := Nat.mul_le_mul_right _ hj
      omega

/-- What is printed for `f` is the only decimal rounding to it that prints itself. -/
theorem ShortestFor.eq (h : ShortestFor f k c) (hq : 0 < q) (hqf : RoundsTo q f) (hprints : PrintsItself q) :
    c * digitWeight k f = q := by
  have hpos : 0 < c * digitWeight k f := mul_pos (by exact_mod_cast h.low) (digitWeight_pos k f)
  by_contra hne
  rcases hprints f _ k hqf hpos h.rounds hne (hasDigits_multiple h.digits h.top) with
    ⟨j, hj, hqd⟩ | ⟨hqd, hnear⟩
  · exact absurd (h.least hq hqf hqd) (by omega)
  · rcases h.nearest hq hqf hqd (Ne.symm hne) with hlt | ⟨heq, -, j, hj, hodd, hlow⟩
    · rcases hnear with hnear | ⟨hnear, -⟩
      · exact lt_asymm hlt hnear
      · exact hlt.ne hnear.symm
    · rcases hnear with hnear | ⟨-, heven⟩
      · exact hnear.ne heq.symm
      · rw [hj, digitWeight] at heven
        exact (Nat.not_even_iff_odd.mpr hodd) (heven.even hlow)

end Own

namespace Decimal

end Decimal

end Fixed
