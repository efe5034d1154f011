import Mathlib.Data.List.Basic

/-!
# Base64 text

Three bytes are written as four characters, six bits each; a last group of one or two bytes is filled up
with `=`. The text is ASCII (`encode_ascii`), so it can stand in a header.
-/

namespace Base64

/-- The character of six bits. -/
def digit (n : Nat) : Char :=
  if n < 26 then Char.ofNat ('A'.toNat + n)
  else if n < 52 then Char.ofNat ('a'.toNat + (n - 26))
  else if n < 62 then Char.ofNat ('0'.toNat + (n - 52))
  else if n = 62 then '+'
  else '/'

def pad : Char := '='

/-- Four characters for every three bytes. -/
def encode : List UInt8 → List Char
  | [] => []
  | [a] => [digit (a.toNat / 4), digit (a.toNat % 4 * 16), pad, pad]
  | [a, b] =>
    [digit (a.toNat / 4), digit (a.toNat % 4 * 16 + b.toNat / 16), digit (b.toNat % 16 * 4), pad]
  | a :: b :: c :: rest =>
    digit (a.toNat / 4) :: digit (a.toNat % 4 * 16 + b.toNat / 16) ::
      digit (b.toNat % 16 * 4 + c.toNat / 64) :: digit (c.toNat % 64) :: encode rest

example : encode [0x66, 0x6f, 0x6f, 0x62] = "Zm9vYg==".toList := by decide

/-! ## The alphabet -/

theorem digit_table : ∀ m < 64, (digit m).toNat < 128 := by
  decide +kernel

theorem digit_ascii (n : Nat) : (digit n).toNat < 128 := by
  by_cases h : n < 64
  · exact digit_table n h
  · have hlast : digit n = '/' := by
      simp only [digit]
      rw [if_neg (by omega), if_neg (by omega), if_neg (by omega), if_neg (by omega)]
    rw [hlast]
    decide

/-! ## Texts -/

theorem encode_ascii (bytes : List UInt8) : ∀ c ∈ encode bytes, c.toNat < 128 := by
  have hpad : pad.toNat < 128 := by decide
  induction bytes using encode.induct with
  | case1 => simp [encode]
  | case2 a => simp [encode, digit_ascii, hpad]
  | case3 a b => simp [encode, digit_ascii, hpad]
  | case4 a b c rest ih =>
    simp only [encode, List.forall_mem_cons]
    exact ⟨digit_ascii _, digit_ascii _, digit_ascii _, digit_ascii _, ih⟩

theorem encode_eq_nil {bytes : List UInt8} : encode bytes = [] ↔ bytes = [] := by
  rcases bytes with _ | ⟨a, _ | ⟨b, _ | ⟨c, rest⟩⟩⟩
  all_goals simp [encode]

end Base64
