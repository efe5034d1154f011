import LdbBackend.History.Story

/-!
# The funding fields of a customer

Three fields are derived from one target and one wallet: by comparison (`status`), by subtraction
(`outstanding_balance`) and as a rounded ratio (`progress_percentage`). The ratio reaches 100 at 99.995 %
of the target and leaves 0 above 0.005 % of it, since a tie goes to the even neighbour; the other two
change at the target and at zero. In cents the thresholds are the same for every wallet as long as the
target is below 20000.
-/

namespace LdbBackend

open Fixed Effects Decimal

/-! ## The rounded ratio -/

section Round

variable {q r : ℚ}

theorem roundHundredths_nearest (hq : 0 ≤ q) :
    ∃ n : ℤ, roundHundredths q = n / 100 ∧ NearestEven (q * 100) n := by
  have hscaled : 0 ≤ q * 100 := by positivity
  have hsplit : ((q * 100).num.natAbs : ℚ) / (q * 100).den = q * 100 := by
    have hnum : (((q * 100).num.natAbs : ℤ) : ℚ) = (q * 100).num := by
      rw [Int.natAbs_of_nonneg (Rat.num_nonneg.mpr hscaled)]
    rw [← Int.cast_natCast, hnum, Rat.num_div_den]
  have hnearest : NearestEven (((q * 100).num.natAbs : ℚ) / (q * 100).den)
      (roundHalfEven (q * 100).num.natAbs (q * 100).den : ℕ) := roundHalfEven_nearest (q * 100).den_pos
  rw [hsplit] at hnearest
  refine ⟨_, ?_, hnearest⟩
  unfold roundHundredths
  rw [decide_eq_false (not_lt.mpr hq)]
  rfl

theorem roundHundredths_mono (hq : 0 ≤ q) (h : q ≤ r) : roundHundredths q ≤ roundHundredths r := by
  obtain ⟨m, hm, hqm⟩ := roundHundredths_nearest hq
  obtain ⟨n, hn, hrn⟩ := roundHundredths_nearest (hq.trans h)
  have hle : m ≤ n := hqm.mono hrn (by linarith)
  have hcast : (m : ℚ) ≤ n := by exact_mod_cast hle
  rw [hm, hn]
  linarith

end Round

/-- A tie of the hundredths goes to the even one: 99.995 rounds to 100. -/
theorem full_iff {q : ℚ} (hq : 0 ≤ q) : min (roundHundredths q) 100 = 100 ↔ 19999 / 200 ≤ q := by
  obtain ⟨n, hn, hnearest⟩ := roundHundredths_nearest hq
  have hceil : 9999 < n ↔ ((9999 : ℤ) : ℚ) + 1 / 2 < q * 100 ∨ q * 100 = (9999 : ℤ) + 1 / 2 ∧ Odd (9999 : ℤ) :=
    hnearest.lt_iff
  rw [min_eq_right_iff, hn]
  have hhundred : (100 : ℚ) ≤ n / 100 ↔ 9999 < n := by
    rw [le_div_iff₀ (by norm_num), ← Int.add_one_le_iff, ← Int.cast_le (R := ℚ)]
    norm_num
  rw [hhundred, hceil]
  constructor
  · rintro (hlt | ⟨heq, -⟩)
    · push_cast at hlt
      linarith
    · push_cast at heq
      linarith
  · intro h
    rcases h.lt_or_eq with hlt | heq
    · refine .inl ?_
      push_cast
      linarith
    · refine .inr ⟨?_, by decide⟩
      push_cast
      linarith

/-- And 0.005 rounds to 0. -/
theorem started_iff {q : ℚ} (hq : 0 ≤ q) : 0 < min (roundHundredths q) 100 ↔ 1 / 200 < q := by
  obtain ⟨n, hn, hnearest⟩ := roundHundredths_nearest hq
  have hfloor : 0 < n ↔ ((0 : ℤ) : ℚ) + 1 / 2 < q * 100 ∨ q * 100 = (0 : ℤ) + 1 / 2 ∧ Odd (0 : ℤ) :=
    hnearest.lt_iff
  have hpos : 0 < min ((n : ℚ) / 100) 100 ↔ 0 < n := by
    rw [lt_min_iff, div_pos_iff_of_pos_right (by norm_num), Int.cast_pos]
    exact and_iff_left (by norm_num)
  rw [hn, hpos, hfloor]
  constructor
  · rintro (hlt | ⟨-, hodd⟩)
    · push_cast at hlt
      linarith
    · exact absurd hodd (by decide)
  · intro h
    refine .inl ?_
    push_cast
    linarith

/-! ## The fields -/

/-- What the fields of a response are, by target and wallet in cents. -/
structure Funding (t w : ℤ) (r : CustomerResponse) (progress : ℚ) : Prop where
  shown : r.progressPercentage = some progress
  settled : r.outstandingBalance = some Decimal.zero ↔ t ≤ w
  underpaid : r.status = "Underpayment" ↔ 0 < w ∧ w < t
  full : progress = 100 ↔ 19999 * t ≤ 20000 * w
  started : 0 < progress ↔ t < 20000 * w
  most : progress ≤ 100

/-- The fields say the same of the customer. -/
structure FieldsAgree (r : CustomerResponse) : Prop where
  full : r.progressPercentage = some 100 ↔ r.outstandingBalance = some Decimal.zero
  started : (∃ p, r.progressPercentage = some p ∧ 0 < p) ↔ Decimal.zero < r.walletBalance
  underpaid : r.status = "Underpayment" ↔ ∃ p, r.progressPercentage = some p ∧ 0 < p ∧ p < 100

section Fields

variable {customer : Customer Decimal} {account : Option DedicatedAccount} {target : Decimal} {t w : ℤ}
  {progress : ℚ}

theorem isScaled_lt_iff {x y : Decimal} {m n : Int} (hx : x.IsScaled 2 m) (hy : y.IsScaled 2 n) :
    x < y ↔ m < n := by
  rw [Decimal.lt_iff, hx, hy, div_lt_div_iff_of_pos_right (by norm_num), Int.cast_lt]

theorem isScaled_le_iff {x y : Decimal} {m n : Int} (hx : x.IsScaled 2 m) (hy : y.IsScaled 2 n) :
    x ≤ y ↔ m ≤ n := by
  rw [Decimal.le_iff, hx, hy, div_le_div_iff_of_pos_right (by norm_num), Int.cast_le]

theorem isScaled_zero : Decimal.zero.IsScaled 2 0 := by
  rw [Decimal.IsScaled, Decimal.toRat_zero]
  norm_num

theorem ratio_eq (ht : target.IsScaled 2 t) (hw : customer.walletBalance.IsScaled 2 w) :
    customer.walletBalance.toRat / target.toRat * 100 = w / t * 100 := by
  rw [ht, hw, div_div_div_cancel_right₀ (by norm_num)]

theorem progressPercentage_eq (htarget : customer.targetAmount = some target) (ht : target.IsScaled 2 t)
    (hw : customer.walletBalance.IsScaled 2 w) (hpos : 0 < t) :
    progressPercentage customer = some (min (roundHundredths (w / t * 100)) 100) := by
  have hnot : ¬ target ≤ Decimal.zero := by
    rw [isScaled_le_iff ht isScaled_zero]
    omega
  unfold progressPercentage
  rw [htarget]
  simp only [if_neg hnot, ratio_eq ht hw]

theorem customerStatus_underpaid_iff (htarget : customer.targetAmount = some target)
    (ht : target.IsScaled 2 t) (hw : customer.walletBalance.IsScaled 2 w) :
    customerStatus customer = "Underpayment" ↔ 0 < w ∧ w < t := by
  unfold customerStatus
  rw [htarget]
  simp only [isScaled_le_iff ht hw, isScaled_lt_iff isScaled_zero hw]
  split_ifs with hreached hsome
  · exact iff_of_false (by decide) (by omega)
  · exact iff_of_true rfl (by omega)
  · exact iff_of_false (by decide) (by omega)

theorem outstandingBalance_settled_iff (htarget : customer.targetAmount = some target)
    (ht : target.IsScaled 2 t) (hw : customer.walletBalance.IsScaled 2 w) :
    outstandingBalance customer = some Decimal.zero ↔ t ≤ w := by
  rw [← isScaled_le_iff ht hw, ← outstanding_settled htarget, outstandingBalance, htarget]
  simp

theorem funding_of_scaled (htarget : customer.targetAmount = some target) (ht : target.IsScaled 2 t)
    (hw : customer.walletBalance.IsScaled 2 w) (hpos : 0 < t) (hnonneg : 0 ≤ w) :
    Funding t w (customerResponse customer account) (min (roundHundredths (w / t * 100)) 100) := by
  have htq : (0 : ℚ) < t := by exact_mod_cast hpos
  have hwq : (0 : ℚ) ≤ w := by exact_mod_cast hnonneg
  have hratio : 0 ≤ (w : ℚ) / t * 100 := by positivity
  refine ⟨progressPercentage_eq htarget ht hw hpos, outstandingBalance_settled_iff htarget ht hw,
    customerStatus_underpaid_iff htarget ht hw, ?_, ?_, min_le_right _ _⟩
  · rw [full_iff hratio, div_mul_eq_mul_div, le_div_iff₀ htq, ← Int.cast_le (R := ℚ)]
    push_cast
    constructor
    · intro h
      linarith
    · intro h
      linarith
  · rw [started_iff hratio, div_mul_eq_mul_div, lt_div_iff₀ htq, ← Int.cast_lt (R := ℚ)]
    push_cast
    constructor
    · intro h
      linarith
    · intro h
      linarith

/-- For a target below 200.00 a cent is more than 0.005 % of it. -/
theorem Funding.agree {r : CustomerResponse} (h : Funding t w r progress) (hsmall : t < 20000)
    (hpos : 0 < t) (hnonneg : 0 ≤ w) (hwallet : r.walletBalance.IsScaled 2 w) : FieldsAgree r := by
  have hfull : progress = 100 ↔ t ≤ w := by
    rw [h.full]
    omega
  have hstarted : 0 < progress ↔ 0 < w := by
    rw [h.started]
    omega
  refine ⟨?_, ?_, ?_⟩
  · rw [h.shown, h.settled, Option.some.injEq, hfull]
  · rw [isScaled_lt_iff isScaled_zero hwallet, ← hstarted, h.shown]
    simp
  · have hbelow : progress < 100 ↔ w < t := by
      rw [← not_le, ← not_le, ← hfull]
      exact not_congr ⟨fun hle => le_antisymm h.most hle, fun heq => heq.ge⟩
    rw [h.underpaid, ← hstarted, ← hbelow, h.shown]
    simp

end Fields

/-- For every customer with a positive target and a non-negative wallet of two decimals: the thresholds of
the fields, their agreement for a target below 200.00, and the growth of the progress with the wallet. -/
theorem funding_fields (customer : Customer Decimal) (account : Option DedicatedAccount) (target : Decimal)
    (t w : ℤ) (htarget : customer.targetAmount = some target) (ht : target.IsScaled 2 t)
    (hw : customer.walletBalance.IsScaled 2 w) (hpos : 0 < t) (hnonneg : 0 ≤ w) :
    ∃ progress, Funding t w (customerResponse customer account) progress ∧
      (t < 20000 → FieldsAgree (customerResponse customer account)) ∧
      ∀ (wallet : Decimal) (w' : ℤ), wallet.IsScaled 2 w' → w ≤ w' →
        ∃ progress', (customerResponse { customer with walletBalance := wallet } account).progressPercentage =
          some progress' ∧ progress ≤ progress' := by
  have hfunding := @funding_of_scaled customer account target t w htarget ht hw hpos hnonneg
  refine ⟨_, hfunding, fun hsmall => hfunding.agree hsmall hpos hnonneg hw, ?_⟩
  intro wallet w' hw' hle
  have hgrown := @progressPercentage_eq { customer with walletBalance := wallet } target t w' htarget ht hw' hpos
  refine ⟨_, hgrown, min_le_min_right _ (roundHundredths_mono ?_ ?_)⟩
  · have htq : (0 : ℚ) < t := by exact_mod_cast hpos
    have hwq : (0 : ℚ) ≤ w := by exact_mod_cast hnonneg
    positivity
  · have htq : (0 : ℚ) < t := by exact_mod_cast hpos
    have hwq : (w : ℚ) ≤ w' := by exact_mod_cast hle
    gcongr

/-- A customer with these amounts, in cents. -/
def funded (t w : Cents) : Customer Decimal :=
  { id := 0, merchantId := 7, merchantCustomerId := "cust-1", name := "Ada", email := none, phone := none
    targetAmount := some (Decimal.ofScaled 2 t), walletBalance := Decimal.ofScaled 2 w, metadata := []
    createdAt := 0, updatedAt := 0 }

theorem funding_fields_at_forty : ∃ progress,
    Funding 10000 4000 (customerResponse (funded 10000 4000) none) progress := by
  obtain ⟨progress, hfunding, -⟩ := funding_fields (funded 10000 4000) none _ 10000 4000 rfl
    (Decimal.isScaled_ofScaled 2 10000) (Decimal.isScaled_ofScaled 2 4000) (by decide) (by decide)
  exact ⟨progress, hfunding⟩

/-- With 199.99 of 200.00 the progress is 100, and a cent is outstanding. -/
theorem last_cent_outstanding : ¬ ∀ (customer : Customer Decimal) (account : Option DedicatedAccount)
    (target : Decimal) (t w : ℤ), customer.targetAmount = some target → target.IsScaled 2 t →
    customer.walletBalance.IsScaled 2 w → 0 < t → 0 ≤ w → FieldsAgree (customerResponse customer account) := by
  intro hclaim
  have hagree := hclaim (funded 20000 19999) none _ 20000 19999 rfl (Decimal.isScaled_ofScaled 2 20000)
    (Decimal.isScaled_ofScaled 2 19999) (by decide) (by decide)
  have hfull : (customerResponse (funded 20000 19999) none).progressPercentage = some 100 := by decide +kernel
  exact absurd (hagree.full.mp hfull) (by decide)

end LdbBackend
