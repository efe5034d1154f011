import Mathlib.Data.Nat.Digits.Lemmas
import Mathlib.Data.Rat.Defs
import Mathlib.Algebra.Order.Field.Rat
import Mathlib.Tactic.FieldSimp
import Mathlib.Tactic.Ring
import Mathlib.Tactic.Linarith
import Mathlib.Tactic.Positivity
import Mathlib.Tactic.NormNum
import Mathlib.Algebra.Order.BigOperators.Group.List

/-!
# Decimal floating point with 28 significant digits

Finite numbers of Python's `decimal` module under its default context: a sign, a coefficient and a
power of ten. `add` is exact up to the rounding of its result to 28 significant digits (half even),
`quantize` rounds half even to a fixed number of decimals and fails when the result needs more than
28 digits, and `toColumn` is the conversion of a fixed-point SQL column, which rounds half away from
zero. `toRat` is the value.

The main facts: on a number with at most `p` decimals `quantize p` and `toColumn` are exact
(`quantize_exact`, `toColumn_exact`), and the sum of two such numbers is exact as long as it has at
most 28 digits (`add_exact`).
-/

namespace Fixed

/-- A finite decimal number `(-1) ^ neg * coeff * 10 ^ exp`. -/
structure Decimal where
  neg : Bool
  coeff : Nat
  exp : Int
  deriving DecidableEq, Repr

/-- Significant digits of a context result. -/
def prec : Nat := 28

/-- `n` with the sign `neg`. -/
def signed (neg : Bool) (n : Nat) : Int := if neg then -(n : Int) else n

/-- Number of decimal digits; zero has none. -/
def numDigits (n : Nat) : Nat := (Nat.digits 10 n).length

/-- `n / d` rounded to the nearest integer, ties to the even one. -/
def roundHalfEven (n d : Nat) : Nat :=
  let q := n / d
  let r := n % d
  if d < 2 * r ∨ (2 * r = d ∧ q % 2 = 1) then q + 1 else q

/-- `n / d` rounded to the nearest integer, ties away from zero. -/
def roundHalfUp (n d : Nat) : Nat := (2 * n + d) / (2 * d)

namespace Decimal

/-- The signed coefficient. -/
def num (d : Decimal) : Int := signed d.neg d.coeff

/-- The value. -/
def toRat (d : Decimal) : ℚ := d.num * (10 : ℚ) ^ d.exp

/-- The signed coefficient of the same value at the exponent `e ≤ d.exp`. -/
def alignTo (d : Decimal) (e : Int) : Int := d.num * 10 ^ (d.exp - e).toNat

instance : LE Decimal where
  le x y := x.alignTo (min x.exp y.exp) ≤ y.alignTo (min x.exp y.exp)

instance : LT Decimal where
  lt x y := x.alignTo (min x.exp y.exp) < y.alignTo (min x.exp y.exp)

instance (x y : Decimal) : Decidable (x ≤ y) := Int.decLe _ _

instance (x y : Decimal) : Decidable (x < y) := Int.decLt _ _

/-- Zero of either sign, at any exponent. -/
def isZero (d : Decimal) : Bool := d.coeff == 0

/-- The integer `n` in units of `10 ^ (-p)`. -/
def ofScaled (p : Nat) (n : Int) : Decimal := ⟨decide (n < 0), n.natAbs, -(p : Int)⟩

def zero : Decimal := ⟨false, 0, 0⟩

/-- Rounding to `prec` digits, half even. A carry into a further digit moves to the exponent. -/
def fix (d : Decimal) : Decimal :=
  let drop := numDigits d.coeff - prec
  if drop = 0 then d
  else
    let c := roundHalfEven d.coeff (10 ^ drop)
    if c = 10 ^ prec then ⟨d.neg, 10 ^ (prec - 1), d.exp + drop + 1⟩
    else ⟨d.neg, c, d.exp + drop⟩

/-- The exact sum before rounding; a zero sum is negative only when both operands are. -/
def addExact (x y : Decimal) : Decimal :=
  let e := min x.exp y.exp
  let n := x.alignTo e + y.alignTo e
  ⟨if n = 0 then x.neg && y.neg else decide (n < 0), n.natAbs, e⟩

def add (x y : Decimal) : Decimal := fix (addExact x y)

def sub (x y : Decimal) : Decimal := add x { y with neg := !y.neg }

instance : Add Decimal := ⟨add⟩

instance : Sub Decimal := ⟨sub⟩

/-- The magnitude in units of `10 ^ (-p)`, under a rounding of exact quotients. -/
def scale (round : Nat → Nat → Nat) (p : Nat) (d : Decimal) : Nat :=
  if -(p : Int) ≤ d.exp then d.coeff * 10 ^ (d.exp + p).toNat
  else round d.coeff (10 ^ (-(p : Int) - d.exp).toNat)

/-- `quantize` to `p` decimals, in units of `10 ^ (-p)`. -/
def quantize (p : Nat) (d : Decimal) : Option Int :=
  let c := scale roundHalfEven p d
  if c < 10 ^ prec then some (signed d.neg c) else none

/-- The value a `NUMERIC(precision, p)` column takes, in units of `10 ^ (-p)`; `none` on overflow. -/
def toColumn (precision p : Nat) (d : Decimal) : Option Int :=
  let c := scale roundHalfUp p d
  if c < 10 ^ precision then some (signed d.neg c) else none

/-- Trailing zeros of the coefficient moved into the exponent. -/
def normalize (d : Decimal) : Decimal :=
  if d.coeff = 0 then ⟨d.neg, 0, 0⟩
  else
    let zeros := ((Nat.digits 10 d.coeff).takeWhile (· = 0)).length
    ⟨d.neg, d.coeff / 10 ^ zeros, d.exp + zeros⟩

/-- The scientific string of the number: plain notation while the exponent is not positive and the
leading digit stands at most six places after the point, else an exponent. -/
def str (d : Decimal) : String :=
  let digits := (toString d.coeff).toList
  let left : Int := d.exp + digits.length
  let dot : Int := if d.exp ≤ 0 ∧ -6 < left then left else 1
  let body : List Char :=
    if dot ≤ 0 then ['0', '.'] ++ List.replicate (-dot).toNat '0' ++ digits
    else if digits.length ≤ dot then digits ++ List.replicate (dot - digits.length).toNat '0'
    else digits.take dot.toNat ++ ['.'] ++ digits.drop dot.toNat
  let exponent : List Char :=
    if left = dot then []
    else 'E' :: (if 0 ≤ left - dot then '+' else '-') :: (toString (left - dot).natAbs).toList
  String.ofList ((if d.neg then ['-'] else []) ++ body ++ exponent)

end Decimal

/-! ## Reading a number -/

/-- The number a run of decimal digits writes. -/
def natOfDigits (ds : List Char) : Nat := ds.foldl (fun n c => 10 * n + (c.toNat - '0'.toNat)) 0

/-- An optional sign in front of the rest. -/
def readSign : List Char → Bool × List Char
  | '-' :: cs => (true, cs)
  | '+' :: cs => (false, cs)
  | cs => (false, cs)

/-- The exponent part, which has to end the text. -/
def readExponent : List Char → Option Int
  | [] => some 0
  | c :: cs =>
    let (neg, ds) := readSign cs
    if (c = 'e' ∨ c = 'E') ∧ ds ≠ [] ∧ ds.all Char.isDigit then some (signed neg (natOfDigits ds))
    else none

/-- The zeros of the decimal digits outside ASCII, in Unicode 16. -/
def decimalZeros : List Nat :=
  [0x660, 0x6f0, 0x7c0, 0x966, 0x9e6, 0xa66, 0xae6, 0xb66, 0xbe6, 0xc66, 0xce6, 0xd66, 0xde6, 0xe50,
    0xed0, 0xf20, 0x1040, 0x1090, 0x17e0, 0x1810, 0x1946, 0x19d0, 0x1a80, 0x1a90, 0x1b50, 0x1bb0, 0x1c40,
    0x1c50, 0xa620, 0xa8d0, 0xa900, 0xa9d0, 0xa9f0, 0xaa50, 0xabf0, 0xff10, 0x104a0, 0x10d30, 0x10d40,
    0x11066, 0x110f0, 0x11136, 0x111d0, 0x112f0, 0x11450, 0x114d0, 0x11650, 0x116c0, 0x116d0, 0x116da,
    0x11730, 0x118e0, 0x11950, 0x11bf0, 0x11c50, 0x11d50, 0x11da0, 0x11f50, 0x16130, 0x16a60, 0x16ac0,
    0x16b50, 0x16d70, 0x1ccf0, 0x1d7ce, 0x1d7d8, 0x1d7e2, 0x1d7ec, 0x1d7f6, 0x1e140, 0x1e2f0, 0x1e4f0,
    0x1e5f1, 0x1e950, 0x1fbf0]

/-- The decimal digit that a character outside ASCII stands for. -/
def decimalDigit (c : Char) : Option Nat :=
  (decimalZeros.find? fun z => z ≤ c.toNat ∧ c.toNat < z + 10).map (c.toNat - ·)

/-- The blanks of Unicode. -/
def isBlank (c : Char) : Bool :=
  (9 ≤ c.toNat ∧ c.toNat ≤ 13) ∨ (0x1c ≤ c.toNat ∧ c.toNat ≤ 0x20) ∨ (0x2000 ≤ c.toNat ∧ c.toNat ≤ 0x200a) ∨
    c.toNat ∈ [0x85, 0xa0, 0x1680, 0x2028, 0x2029, 0x202f, 0x205f, 0x3000]

/-- A decimal digit of any script in ASCII. -/
def asciiDigit (c : Char) : Char :=
  if c.toNat < 128 then c else ((decimalDigit c).map Nat.digitChar).getD c

/-- A number in text as it is read: surrounding blanks and underscores dropped, digits in ASCII. -/
def numericChars (s : String) : List Char :=
  ((((s.toList.dropWhile isBlank).reverse.dropWhile isBlank).reverse).filter (· ≠ '_')).map asciiDigit

/-- A decimal number in text: a sign, digits with an optional point, and an optional exponent. The words for
infinities and NaN are not read. -/
def Decimal.ofString (s : String) : Option Decimal :=
  let (neg, cs) := readSign (numericChars s)
  let whole := cs.takeWhile Char.isDigit
  let rest := cs.dropWhile Char.isDigit
  let (frac, tail) :=
    match rest with
    | '.' :: more => (more.takeWhile Char.isDigit, more.dropWhile Char.isDigit)
    | _ => ([], rest)
  if whole ++ frac = [] then none
  else (readExponent tail).map fun e => ⟨neg, natOfDigits (whole ++ frac), e - frac.length⟩

example : (Decimal.ofString " -12.50e3 ").map Decimal.str = some "-1.250E+4" := by decide

example : (Decimal.ofString "\u0663.5").map Decimal.str = some "3.5" := by decide

/-! ## Values -/

@[simp] theorem signed_natAbs (n : Int) : signed (decide (n < 0)) n.natAbs = n := by
  unfold signed
  split_ifs with h
  · simp only [decide_eq_true_eq] at h; omega
  · simp only [decide_eq_true_eq] at h; omega

theorem natAbs_signed (neg : Bool) (n : Nat) : (signed neg n).natAbs = n := by
  cases neg <;> simp [signed]

theorem signed_mul (neg : Bool) (n k : Nat) : signed neg (n * k) = signed neg n * k := by
  cases neg <;> simp [signed]

theorem roundHalfEven_mul {d : Nat} (n : Nat) (hd : 0 < d) : roundHalfEven (n * d) d = n := by
  have hq : n * d / d = n := Nat.mul_div_cancel n hd
  have hr : n * d % d = 0 := Nat.mul_mod_left n d
  simp only [roundHalfEven, hq, hr]
  rw [if_neg (by omega)]

theorem roundHalfUp_mul {d : Nat} (n : Nat) (hd : 0 < d) : roundHalfUp (n * d) d = n := by
  unfold roundHalfUp
  rw [show 2 * (n * d) + d = d + n * (2 * d) by ring, Nat.add_mul_div_right _ _ (by omega),
    Nat.div_eq_of_lt (by omega), Nat.zero_add]

theorem numDigits_le_iff (n k : Nat) : numDigits n ≤ k ↔ n < 10 ^ k :=
  Nat.digits_length_le_iff (by norm_num) n

theorem le_numDigits_iff (n k : Nat) : k < numDigits n ↔ 10 ^ k ≤ n :=
  Nat.lt_digits_length_iff (by norm_num) n

namespace Decimal

theorem ten_zpow_ne (e : Int) : (10 : ℚ) ^ e ≠ 0 := zpow_ne_zero _ (by norm_num)

theorem ten_zpow_pos (e : Int) : (0 : ℚ) < (10 : ℚ) ^ e := zpow_pos (by norm_num) _

/-- Moving a value to a smaller exponent multiplies the coefficient. -/
theorem zpow_eq_pow_mul {e e' : Int} (h : e' ≤ e) :
    (10 : ℚ) ^ e = (10 : ℚ) ^ (e - e').toNat * (10 : ℚ) ^ e' := by
  rw [← zpow_natCast, ← zpow_add₀ (by norm_num : (10 : ℚ) ≠ 0)]
  congr 1
  omega

theorem alignTo_toRat {d : Decimal} {e : Int} (h : e ≤ d.exp) :
    (d.alignTo e : ℚ) * (10 : ℚ) ^ e = d.toRat := by
  rw [alignTo, toRat, zpow_eq_pow_mul h]
  push_cast
  ring

theorem le_iff {x y : Decimal} : x ≤ y ↔ x.toRat ≤ y.toRat := by
  rw [← alignTo_toRat (min_le_left x.exp y.exp), ← alignTo_toRat (min_le_right x.exp y.exp),
    mul_le_mul_iff_left₀ (ten_zpow_pos _), Int.cast_le]
  rfl

theorem lt_iff {x y : Decimal} : x < y ↔ x.toRat < y.toRat := by
  rw [← alignTo_toRat (min_le_left x.exp y.exp), ← alignTo_toRat (min_le_right x.exp y.exp),
    mul_lt_mul_iff_left₀ (ten_zpow_pos _), Int.cast_lt]
  rfl

theorem not_le_iff_lt {x y : Decimal} : ¬ x ≤ y ↔ y < x := by
  rw [le_iff, lt_iff, not_le]

@[simp] theorem num_ofScaled (p : Nat) (n : Int) : (ofScaled p n).num = n := signed_natAbs n

theorem toRat_ofScaled (p : Nat) (n : Int) : (ofScaled p n).toRat = n / 10 ^ p := by
  rw [toRat, num_ofScaled]
  simp [ofScaled, div_eq_mul_inv]

theorem ofScaled_le_iff {p : Nat} {m n : Int} : ofScaled p m ≤ ofScaled p n ↔ m ≤ n := by
  rw [le_iff, toRat_ofScaled, toRat_ofScaled, div_le_div_iff_of_pos_right (by positivity)]
  exact_mod_cast Iff.rfl

theorem ofScaled_lt_iff {p : Nat} {m n : Int} : ofScaled p m < ofScaled p n ↔ m < n := by
  rw [← not_le_iff_lt, ofScaled_le_iff, not_le]

@[simp] theorem toRat_zero : zero.toRat = 0 := by simp [zero, toRat, num, signed]

theorem num_addExact (x y : Decimal) :
    (addExact x y).num = x.alignTo (min x.exp y.exp) + y.alignTo (min x.exp y.exp) := by
  simp only [addExact, num]
  generalize x.alignTo (min x.exp y.exp) + y.alignTo (min x.exp y.exp) = n
  by_cases hn : n = 0
  · subst hn; simp [signed]
  · rw [if_neg hn, signed_natAbs]

theorem toRat_addExact (x y : Decimal) : (addExact x y).toRat = x.toRat + y.toRat := by
  rw [toRat, num_addExact]
  show _ * (10 : ℚ) ^ (min x.exp y.exp) = _
  push_cast
  rw [add_mul, alignTo_toRat (min_le_left _ _), alignTo_toRat (min_le_right _ _)]

/-! ## Numbers with at most `p` decimals -/

/-- The value is `n` units of `10 ^ (-p)`. -/
def IsScaled (p : Nat) (d : Decimal) (n : Int) : Prop := d.toRat = n / 10 ^ p

theorem isScaled_ofScaled (p : Nat) (n : Int) : IsScaled p (ofScaled p n) n := toRat_ofScaled p n

/-- The coefficient of such a number, read at either side of `10 ^ (-p)`. -/
theorem IsScaled.coeff {p : Nat} {d : Decimal} {n : Int} (h : IsScaled p d n) :
    (-(p : Int) ≤ d.exp → d.num * 10 ^ (d.exp + p).toNat = n) ∧
      (d.exp ≤ -(p : Int) → d.num = n * 10 ^ (-(p : Int) - d.exp).toNat) := by
  rw [IsScaled, eq_div_iff (by positivity), toRat] at h
  constructor
  · intro he
    rw [zpow_eq_pow_mul he, mul_assoc, mul_assoc, ← zpow_natCast (10 : ℚ) p,
      ← zpow_add₀ (by norm_num : (10 : ℚ) ≠ 0), neg_add_cancel, zpow_zero, mul_one] at h
    rw [show d.exp + (p : Int) = d.exp - -(p : Int) by ring]
    exact_mod_cast h
  · intro he
    have hp := zpow_eq_pow_mul he
    rw [zpow_neg, zpow_natCast] at hp
    have hd : (d.num : ℚ) = n * (10 : ℚ) ^ (-(p : Int) - d.exp).toNat := by
      have h10 : (10 : ℚ) ^ p ≠ 0 := by positivity
      have : (d.num : ℚ) * (10 : ℚ) ^ d.exp =
          n * ((10 : ℚ) ^ (-(p : Int) - d.exp).toNat * (10 : ℚ) ^ d.exp) := by
        rw [← hp, ← h]
        field_simp
      rw [← mul_assoc] at this
      exact mul_right_cancel₀ (ten_zpow_ne d.exp) this
    exact_mod_cast hd

theorem scale_exact {round : Nat → Nat → Nat} (hround : ∀ n d, 0 < d → round (n * d) d = n)
    {p : Nat} {d : Decimal} {n : Int} (h : IsScaled p d n) :
    signed d.neg (scale round p d) = n ∧ scale round p d = n.natAbs := by
  obtain ⟨hge, hle⟩ := h.coeff
  have key : signed d.neg (scale round p d) = n := by
    unfold scale
    split_ifs with he
    · rw [signed_mul]
      exact_mod_cast hge he
    · set k := (-(p : Int) - d.exp).toNat
      have hnum : d.num = n * 10 ^ k := hle (by omega)
      have hc : d.coeff = n.natAbs * 10 ^ k := by
        have := congrArg Int.natAbs hnum
        rwa [num, natAbs_signed, Int.natAbs_mul, Int.natAbs_pow] at this
      rw [hc, hround _ _ (by positivity)]
      have hs : signed d.neg (n.natAbs * 10 ^ k) = n * 10 ^ k := by rw [← hc]; exact hnum
      rw [signed_mul] at hs
      push_cast at hs
      exact mul_right_cancel₀ (by positivity) hs
  refine ⟨key, ?_⟩
  rw [← natAbs_signed d.neg (scale round p d), key]

theorem quantize_exact {p : Nat} {d : Decimal} {n : Int} (h : IsScaled p d n)
    (hn : n.natAbs < 10 ^ prec) : quantize p d = some n := by
  obtain ⟨hs, hc⟩ := scale_exact (fun n d hd => roundHalfEven_mul n hd) h
  simp only [quantize]
  rw [if_pos (by rw [hc]; exact hn), hs]

theorem toColumn_exact {precision p : Nat} {d : Decimal} {n : Int} (h : IsScaled p d n)
    (hn : n.natAbs < 10 ^ precision) : toColumn precision p d = some n := by
  obtain ⟨hs, hc⟩ := scale_exact (fun n d hd => roundHalfUp_mul n hd) h
  simp only [toColumn]
  rw [if_pos (by rw [hc]; exact hn), hs]

/-- Of a number with at most `p` decimals, `quantize` and `toColumn` can only yield its own units. -/
theorem eq_of_quantize {p : Nat} {d : Decimal} {n m : Int} (h : IsScaled p d n)
    (hm : quantize p d = some m) : m = n := by
  obtain ⟨hs, -⟩ := scale_exact (fun n d hd => roundHalfEven_mul n hd) h
  simp only [quantize] at hm
  split_ifs at hm
  cases hm
  exact hs

theorem eq_of_toColumn {precision p : Nat} {d : Decimal} {n m : Int} (h : IsScaled p d n)
    (hm : toColumn precision p d = some m) : m = n := by
  obtain ⟨hs, -⟩ := scale_exact (fun n d hd => roundHalfUp_mul n hd) h
  simp only [toColumn] at hm
  split_ifs at hm
  cases hm
  exact hs

/-- A quantized value fits the context. -/
theorem quantize_lt {p : Nat} {d : Decimal} {n : Int} (h : quantize p d = some n) :
    n.natAbs < 10 ^ prec := by
  simp only [quantize] at h
  split_ifs at h with hc
  cases h
  rwa [natAbs_signed]

/-- A column value fits its column. -/
theorem toColumn_lt {precision p : Nat} {d : Decimal} {n : Int} (h : toColumn precision p d = some n) :
    n.natAbs < 10 ^ precision := by
  simp only [toColumn] at h
  split_ifs at h with hc
  cases h
  rwa [natAbs_signed]

/-- Rounding keeps a number whose value has at most `prec` digits at `p` decimals. -/
theorem fix_exact {p : Nat} {d : Decimal} {n : Int} (h : IsScaled p d n)
    (hn : n.natAbs < 10 ^ prec) : (fix d).toRat = d.toRat := by
  obtain ⟨hge, hle⟩ := h.coeff
  unfold fix
  by_cases hdrop : numDigits d.coeff - prec = 0
  · simp only [hdrop, if_true]
  · simp only [if_neg hdrop]
    set drop := numDigits d.coeff - prec
    have hdigits : numDigits d.coeff = prec + drop := by omega
    have hlarge : 10 ^ prec ≤ d.coeff := (le_numDigits_iff _ _).mp (by omega)
    -- above `10 ^ (-p)` the coefficient is at most `n`, so it would have been short
    have hexp : d.exp ≤ -(p : Int) := by
      by_contra hcon
      have := congrArg Int.natAbs (hge (by omega))
      rw [Int.natAbs_mul, num, natAbs_signed, Int.natAbs_pow] at this
      have h1 : 1 ≤ Int.natAbs 10 ^ (d.exp + p).toNat := Nat.one_le_pow _ _ (by decide)
      have := Nat.le_mul_of_pos_right d.coeff h1
      omega
    set k := (-(p : Int) - d.exp).toNat
    have hc : d.coeff = n.natAbs * 10 ^ k := by
      have := congrArg Int.natAbs (hle hexp)
      rwa [num, natAbs_signed, Int.natAbs_mul, Int.natAbs_pow] at this
    have hk : drop ≤ k := by
      by_contra hcon
      have hsmall : d.coeff < 10 ^ (prec + k) := by
        rw [hc, pow_add]
        exact Nat.mul_lt_mul_of_pos_right hn (by positivity)
      have := (numDigits_le_iff _ _).mpr hsmall
      omega
    have hcoeff : d.coeff = n.natAbs * 10 ^ (k - drop) * 10 ^ drop := by
      rw [mul_assoc, ← pow_add, Nat.sub_add_cancel hk, hc]
    have hround : roundHalfEven d.coeff (10 ^ drop) = n.natAbs * 10 ^ (k - drop) := by
      conv_lhs => rw [hcoeff]
      exact roundHalfEven_mul _ (by positivity)
    have hlt : n.natAbs * 10 ^ (k - drop) < 10 ^ prec := by
      have hupper : d.coeff < 10 ^ (prec + drop) := (numDigits_le_iff _ _).mp (le_of_eq hdigits)
      rw [hcoeff, pow_add] at hupper
      exact Nat.lt_of_mul_lt_mul_right hupper
    rw [hround, if_neg (by omega)]
    simp only [toRat, num]
    conv_rhs => rw [hcoeff, signed_mul]
    push_cast
    rw [zpow_add₀ (by norm_num : (10 : ℚ) ≠ 0), zpow_natCast]
    ring

/-- Two numbers with at most `p` decimals whose sum has at most `prec` digits add exactly. -/
theorem add_exact {p : Nat} {x y : Decimal} {m n : Int} (hx : IsScaled p x m) (hy : IsScaled p y n)
    (hsum : (m + n).natAbs < 10 ^ prec) : IsScaled p (x + y) (m + n) := by
  have hexact : IsScaled p (addExact x y) (m + n) := by
    rw [IsScaled, toRat_addExact, hx, hy]
    push_cast
    ring
  exact (fix_exact hexact hsum).trans hexact

theorem natAbs_lt_prec {n : Int} (hn : 0 ≤ n) : n.natAbs < 10 ^ prec ↔ n < 10 ^ prec := by
  rw [← Int.ofNat_lt, Int.natAbs_of_nonneg hn]
  push_cast
  exact Iff.rfl

/-- A sum of non-negative numbers is exact as long as the total has at most `prec` digits. -/
theorem foldl_exact {p : Nat} {ns : List Int} (hns : ∀ n ∈ ns, 0 ≤ n) {d : Decimal} {m : Int}
    (hd : IsScaled p d m) (hm : 0 ≤ m) (hsum : m + ns.sum < 10 ^ prec) :
    IsScaled p ((ns.map (ofScaled p)).foldl (· + ·) d) (m + ns.sum) := by
  induction ns generalizing d m with
  | nil =>
    rw [List.sum_nil, add_zero]
    exact hd
  | cons n ns ih =>
    have hn : 0 ≤ n := hns n List.mem_cons_self
    have hrest : ∀ k ∈ ns, 0 ≤ k := fun k hk => hns k (List.mem_cons_of_mem _ hk)
    have hpos : 0 ≤ ns.sum := List.sum_nonneg hrest
    rw [List.sum_cons, ← add_assoc] at hsum ⊢
    have hstep : IsScaled p (d + ofScaled p n) (m + n) :=
      add_exact hd (isScaled_ofScaled p n) ((natAbs_lt_prec (by omega)).mpr (by omega))
    exact ih hrest hstep (by omega) hsum

end Decimal

end Fixed
