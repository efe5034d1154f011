import LdbBackend.Lib.Decimal

/-!
# Through a binary floating-point number and back

`nearest n d` is the value `n / d` with its significand rounded to 53 bits, as a significand and a
power of two. `shortest` is the decimal number with the fewest digits (at most 17) that reads back to
such a value, and `Decimal.viaFloat` the number a decimal becomes when it is converted to a float,
printed and read again. The exponent range of the hardware format is not modelled.
-/

namespace Fixed

/-- `n / d` (both positive) rounded to a 53-bit significand `m` and an exponent `e`: `m * 2 ^ e`. -/
def nearest (n d : Nat) : Nat × Int :=
  let e₀ : Int := (Nat.log2 n : Int) - Nat.log2 d - 53
  let e := if 2 ^ 53 * (d * 2 ^ e₀.toNat) ≤ n * 2 ^ (-e₀).toNat then e₀ + 1 else e₀
  (roundHalfEven (n * 2 ^ (-e).toNat) (d * 2 ^ e.toNat), e)

/-- Two significand and exponent pairs of the same value. -/
def sameBinary (x y : Nat × Int) : Bool :=
  let e := min x.2 y.2
  x.1 * 2 ^ (x.2 - e).toNat == y.1 * 2 ^ (y.2 - e).toNat

/-- `n / d` rounded to `k` significant digits: coefficient and exponent. -/
def roundDigits (n d k : Nat) : Nat × Int :=
  let a : Int := (numDigits n : Int) - numDigits d
  let top := if d * 10 ^ a.toNat ≤ n * 10 ^ (-a).toNat then a + 1 else a
  let e := top - k
  (roundHalfEven (n * 10 ^ (-e).toNat) (d * 10 ^ e.toNat), e)

/-- The binary value that `c.1 * 10 ^ c.2` reads as. -/
def readDigits (c : Nat × Int) : Nat × Int := nearest (c.1 * 10 ^ c.2.toNat) (10 ^ (-c.2).toNat)

/-- The neighbour of `n / d` on the other side of it than its rounding `c`. -/
def otherSide (n d : Nat) (c : Nat × Int) : Nat × Int :=
  let q := n * 10 ^ (-c.2).toNat / (d * 10 ^ c.2.toNat)
  (if c.1 = q then q + 1 else q, c.2)

/-- The first `k`-digit decimal, from `17 - fuel` digits on, that reads back to `x`: the nearest one, or
else the one on the other side. -/
def shortestFrom (x : Nat × Int) : Nat → Nat × Int
  | 0 => roundDigits (x.1 * 2 ^ x.2.toNat) (2 ^ (-x.2).toNat) 17
  | fuel + 1 =>
    let n := x.1 * 2 ^ x.2.toNat
    let d := 2 ^ (-x.2).toNat
    let c := roundDigits n d (17 - (fuel + 1))
    if sameBinary (readDigits c) x then c
    else if sameBinary (readDigits (otherSide n d c)) x then otherSide n d c
    else shortestFrom x fuel

/-- The shortest decimal that reads back to the binary value `x`. -/
def shortest (x : Nat × Int) : Nat × Int := shortestFrom x 16

/-- The number that the text of the float nearest to `d` reads as. Below `10 ^ 16` a whole value is
printed with one zero after the point. -/
def Decimal.viaFloat (d : Decimal) : Decimal :=
  if d.coeff = 0 then ⟨d.neg, 0, -1⟩
  else
    let (c, e) := shortest (readDigits (d.coeff, d.exp))
    if 0 ≤ e ∧ (numDigits c : Int) + e ≤ 16 then ⟨d.neg, c * 10 ^ (e + 1).toNat, -1⟩
    else ⟨d.neg, c, e⟩

example : (Decimal.viaFloat ⟨false, 1050, -2⟩).str = "10.5" := by decide +kernel

example : (Decimal.viaFloat ⟨false, 9007199254740993, 0⟩).str = "9007199254740992.0" := by
  decide +kernel

end Fixed
