import LdbBackend.Lib.Decimal

/-!
# Texts of decimal numbers

A numeral is a sign, digits, digits behind a point, and an exponent; `Decimal.ofString` reads it by its
digits (`ofString_numeral`). So it reads back what `Decimal.str` writes (`ofString_str`), and what fixed
notation (`fixedText`) writes, with the value unchanged (`reads_fixed`). Thousands separators can be
deleted again (`withoutCommas_fixedText`).
-/

namespace Fixed

/-! ## Digits -/

theorem natOfDigits_eq (ds : List Char) : natOfDigits ds = Nat.ofDigitChars 10 ds 0 := rfl

theorem natOfDigits_append (xs ys : List Char) :
    natOfDigits (xs ++ ys) = natOfDigits xs * 10 ^ ys.length + natOfDigits ys := by
  rw [natOfDigits_eq, Nat.ofDigitChars_append, Nat.ofDigitChars_eq_ofDigitChars_zero, mul_comm]
  rfl

theorem natOfDigits_zeros (k : Nat) : natOfDigits (List.replicate k '0') = 0 := by
  rw [natOfDigits_eq, Nat.ofDigitChars_replicate_zero, mul_zero]

/-- The digits of a number. -/
abbrev digitsOf (n : Nat) : List Char := (toString n).toList

theorem digitsOf_eq (n : Nat) : digitsOf n = Nat.toDigits 10 n := Nat.toList_repr

theorem digitsOf_ne_nil (n : Nat) : digitsOf n ≠ [] := by
  rw [digitsOf_eq]
  exact Nat.toDigits_ne_nil

theorem isDigit_digitsOf {n : Nat} {c : Char} (h : c ∈ digitsOf n) : c.isDigit = true := by
  rw [digitsOf_eq] at h
  exact Nat.isDigit_of_mem_toDigits (by decide) (by decide) h

@[simp] theorem natOfDigits_digitsOf (n : Nat) : natOfDigits (digitsOf n) = n := by
  rw [digitsOf_eq, natOfDigits_eq, Nat.ofDigitChars_ten_toDigits]

/-- The last digit of a number. -/
theorem getLast?_digitsOf (n : Nat) : (digitsOf n).getLast? = some (Nat.digitChar (n % 10)) := by
  rw [digitsOf_eq, Nat.toDigits_eq_if (by decide)]
  split_ifs with h
  · rw [List.getLast?_singleton, Nat.mod_eq_of_lt h]
  · exact List.getLast?_concat

theorem isDigit_zeros {k : Nat} {c : Char} (h : c ∈ List.replicate k '0') : c.isDigit = true := by
  rw [(List.mem_replicate.mp h).2]
  rfl

theorem ne_of_isDigit {c d : Char} (hc : c.isDigit = true) (hd : d.isDigit = false) : c ≠ d := by
  rintro rfl
  rw [hc] at hd
  exact absurd hd (by decide)

/-- A character that is read as it stands. -/
structure Plain (c : Char) : Prop where
  solid : isBlank c = false
  counts : c ≠ '_'
  ascii : asciiDigit c = c

theorem plain_of_isDigit {c : Char} (h : c.isDigit = true) : Plain c := by
  obtain ⟨hlow, hhigh⟩ : 48 ≤ c.toNat ∧ c.toNat ≤ 57 := by
    simpa [Char.isDigit, UInt32.le_iff_toNat_le] using h
  refine ⟨?_, ne_of_isDigit h rfl, if_pos (by omega)⟩
  simp only [isBlank, List.mem_cons, List.not_mem_nil, or_false, decide_eq_false_iff_not]
  omega

/-! ## Reading -/

theorem dropWhile_eq_self {p : Char → Bool} {cs : List Char} (h : ∀ c ∈ cs, p c = false) :
    cs.dropWhile p = cs := by
  cases cs with
  | nil => rfl
  | cons c cs => rw [List.dropWhile_cons_of_neg]; simp [h c List.mem_cons_self]

/-- Nothing of a plain text is skipped or replaced. -/
theorem numericChars_eq {cs : List Char} (h : ∀ c ∈ cs, Plain c) : numericChars (String.ofList cs) = cs := by
  unfold numericChars
  rw [String.toList_ofList, dropWhile_eq_self fun c hc => (h c hc).solid,
    dropWhile_eq_self fun c hc => (h c (List.mem_reverse.mp hc)).solid, List.reverse_reverse,
    List.filter_eq_self.mpr fun c hc => by simpa using (h c hc).counts]
  exact (List.map_congr_left fun c hc => (h c hc).ascii).trans (List.map_id cs)

/-- The sign in front of a numeral. -/
def signChars (neg : Bool) : List Char := if neg then ['-'] else []

/-- The digits behind the point; without digits there is no point. -/
def fraction (frac : List Char) : List Char := if frac = [] then [] else '.' :: frac

theorem readSign_digits {neg : Bool} {d : Char} (hd : d.isDigit = true) (cs : List Char) :
    readSign (signChars neg ++ d :: cs) = (neg, d :: cs) := by
  cases neg with
  | true => rfl
  | false =>
    have hminus : d ≠ '-' := ne_of_isDigit hd rfl
    have hplus : d ≠ '+' := ne_of_isDigit hd rfl
    simp [signChars, readSign, hminus, hplus]

theorem plain_of_mem_signChars {neg : Bool} {c : Char} (h : c ∈ signChars neg) : Plain c := by
  cases neg with
  | true =>
    rw [List.mem_singleton.mp h]
    exact ⟨rfl, by decide, rfl⟩
  | false => exact absurd h List.not_mem_nil

theorem plain_of_mem_fraction {frac : List Char} (hfrac : ∀ c ∈ frac, c.isDigit = true) {c : Char}
    (h : c ∈ fraction frac) : Plain c := by
  unfold fraction at h
  split_ifs at h with hnil
  · exact absurd h List.not_mem_nil
  · rcases List.mem_cons.mp h with rfl | hc
    · exact ⟨rfl, by decide, rfl⟩
    · exact plain_of_isDigit (hfrac c hc)

/-- A run of digits ends where no digit follows. -/
theorem span_digits {ds rest : List Char} (hds : ∀ c ∈ ds, c.isDigit = true)
    (hrest : ∀ c ∈ rest.head?, c.isDigit = false) :
    (ds ++ rest).takeWhile Char.isDigit = ds ∧ (ds ++ rest).dropWhile Char.isDigit = rest := by
  rw [List.takeWhile_append_of_pos hds, List.dropWhile_append_of_pos hds]
  cases rest with
  | nil => simp
  | cons c cs =>
    have hc : c.isDigit = false := hrest c rfl
    simp [hc]

theorem ofString_numeral {neg : Bool} {whole frac tail : List Char} {e : Int}
    (hwhole : ∀ c ∈ whole, c.isDigit = true) (hne : whole ≠ []) (hfrac : ∀ c ∈ frac, c.isDigit = true)
    (htail : readExponent tail = some e) (hplain : ∀ c ∈ tail, Plain c)
    (hhead : ∀ c ∈ tail.head?, c.isDigit = false ∧ c ≠ '.') :
    Decimal.ofString (String.ofList (signChars neg ++ whole ++ fraction frac ++ tail)) =
      some ⟨neg, natOfDigits (whole ++ frac), e - frac.length⟩ := by
  have htext : ∀ c ∈ signChars neg ++ whole ++ fraction frac ++ tail, Plain c := by
    intro c hc
    simp only [List.mem_append] at hc
    rcases hc with ((hc | hc) | hc) | hc
    · exact plain_of_mem_signChars hc
    · exact plain_of_isDigit (hwhole c hc)
    · exact plain_of_mem_fraction hfrac hc
    · exact hplain c hc
  obtain ⟨d, ds, rfl⟩ := List.exists_cons_of_ne_nil hne
  have hsign : readSign (signChars neg ++ (d :: ds) ++ fraction frac ++ tail) =
      (neg, (d :: ds) ++ (fraction frac ++ tail)) := by
    simpa using readSign_digits (hwhole d List.mem_cons_self) (ds ++ fraction frac ++ tail)
  have hdigits := @span_digits (d :: ds) (fraction frac ++ tail) hwhole
  unfold Decimal.ofString
  cases frac with
  | nil =>
    have hpoint : ∀ more, tail ≠ '.' :: more := by
      rintro more rfl
      exact (hhead '.' rfl).2 rfl
    obtain ⟨htake, hdrop⟩ := hdigits fun c hc => (hhead c hc).1
    simp only [numericChars_eq htext, hsign, htake, hdrop]
    simp [fraction, htail]
  | cons f fs =>
    obtain ⟨htake, hdrop⟩ := hdigits (by simp [fraction])
    obtain ⟨hmore, hrest⟩ := span_digits hfrac fun c hc => (hhead c hc).1
    have hpoint : fraction (f :: fs) ++ tail = '.' :: ((f :: fs) ++ tail) := rfl
    simp only [numericChars_eq htext, hsign, htake, hdrop]
    simp only [hpoint, hmore, hrest, htail]
    rw [if_neg (by simp)]
    rfl

theorem readExponent_signed {neg : Bool} {ds : List Char} (hds : ds.all Char.isDigit = true) (hne : ds ≠ []) :
    readExponent ('E' :: (if neg then '-' else '+') :: ds) = some (signed neg (natOfDigits ds)) := by
  cases neg
  · simp only [readExponent, readSign, Bool.false_eq_true, if_false]
    exact if_pos ⟨by decide, hne, hds⟩
  · simp only [readExponent, readSign, if_true]
    exact if_pos ⟨by decide, hne, hds⟩

/-! ## Digits around a point -/

/-- The digits before and behind a point that stands after `dot` of them, zeros filled in where there are
none. -/
def pointAt (ds : List Char) (dot : Int) : List Char × List Char :=
  if dot ≤ 0 then (['0'], List.replicate (-dot).toNat '0' ++ ds)
  else if ds.length ≤ dot then (ds ++ List.replicate (dot - ds.length).toNat '0', [])
  else (ds.take dot.toNat, ds.drop dot.toNat)

section Point

variable {ds : List Char} {dot : Int}

theorem pointAt_ne_nil (h : ds ≠ []) : (pointAt ds dot).1 ≠ [] := by
  unfold pointAt
  split_ifs with hlow hhigh
  · exact List.cons_ne_nil _ _
  · simp [h]
  · have hlength := List.length_pos_of_ne_nil h
    simp only [ne_eq, List.take_eq_nil_iff, not_or]
    exact ⟨by omega, h⟩

theorem isDigit_pointAt (h : ∀ c ∈ ds, c.isDigit = true) :
    (∀ c ∈ (pointAt ds dot).1, c.isDigit = true) ∧ ∀ c ∈ (pointAt ds dot).2, c.isDigit = true := by
  unfold pointAt
  split_ifs with hlow hhigh
  · refine ⟨by simp, fun c hc => ?_⟩
    rcases List.mem_append.mp hc with hc | hc
    · exact isDigit_zeros hc
    · exact h c hc
  · refine ⟨fun c hc => ?_, by simp⟩
    rcases List.mem_append.mp hc with hc | hc
    · exact h c hc
    · exact isDigit_zeros hc
  · exact ⟨fun c hc => h c (List.mem_of_mem_take hc), fun c hc => h c (List.mem_of_mem_drop hc)⟩

theorem length_pointAt : ((pointAt ds dot).2.length : Int) = (ds.length - dot).toNat := by
  unfold pointAt
  split_ifs with hlow hhigh
  · simp only [List.length_append, List.length_replicate]
    omega
  · simp only [List.length_nil]
    omega
  · simp only [List.length_drop]
    omega

theorem natOfDigits_pointAt : natOfDigits ((pointAt ds dot).1 ++ (pointAt ds dot).2) =
    natOfDigits ds * 10 ^ (dot - ds.length).toNat := by
  unfold pointAt
  split_ifs with hlow hhigh
  · have hexp : (dot - ds.length).toNat = 0 := by omega
    rw [hexp, pow_zero, mul_one, ← List.append_assoc, natOfDigits_append,
      show ['0'] ++ List.replicate (-dot).toNat '0' = List.replicate ((-dot).toNat + 1) '0' from rfl,
      natOfDigits_zeros, zero_mul, zero_add]
  · rw [List.append_nil, natOfDigits_append, natOfDigits_zeros, List.length_replicate, add_zero]
  · have hexp : (dot - ds.length).toNat = 0 := by omega
    rw [hexp, pow_zero, mul_one, List.take_append_drop]

/-- The digits behind the point end with the last digit. -/
theorem getLast?_pointAt (hds : ds ≠ []) (h : (pointAt ds dot).2 ≠ []) :
    (pointAt ds dot).2.getLast? = ds.getLast? := by
  unfold pointAt at h ⊢
  split_ifs at h ⊢ with hlow hhigh
  · rw [List.getLast?_append_of_ne_nil _ hds]
  · exact absurd rfl h
  · rw [List.getLast?_drop, if_neg]
    rw [ne_eq, List.drop_eq_nil_iff] at h
    omega

/-- The point is written with the digits behind it. -/
theorem pointAt_chars (h : ds ≠ []) : (pointAt ds dot).1 ++ fraction (pointAt ds dot).2 =
    if dot ≤ 0 then ['0', '.'] ++ List.replicate (-dot).toNat '0' ++ ds
    else if ds.length ≤ dot then ds ++ List.replicate (dot - ds.length).toNat '0'
    else ds.take dot.toNat ++ ['.'] ++ ds.drop dot.toNat := by
  unfold pointAt
  split_ifs with hlow hhigh
  · have hne : List.replicate (-dot).toNat '0' ++ ds ≠ [] := by simp [h]
    simp [fraction, hne]
  · simp [fraction]
  · have hne : ds.drop dot.toNat ≠ [] := by
      rw [ne_eq, List.drop_eq_nil_iff]
      omega
    simp [fraction, hne]

end Point

/-! ## The scientific string -/

namespace Decimal

/-- The exponent that `str` writes. -/
def exponentChars (n : Int) : List Char :=
  if n = 0 then [] else 'E' :: (if 0 ≤ n then '+' else '-') :: digitsOf n.natAbs

theorem exponentChars_of_ne {n : Int} (h : n ≠ 0) :
    exponentChars n = 'E' :: (if decide (n < 0) then '-' else '+') :: digitsOf n.natAbs := by
  rw [exponentChars, if_neg h]
  congr 2
  rcases lt_or_gt_of_ne h with hneg | hpos
  · rw [if_neg (not_le.mpr hneg), if_pos (decide_eq_true hneg)]
  · rw [if_pos hpos.le, if_neg (by simpa using hpos.le)]

theorem readExponent_exponentChars (n : Int) : readExponent (exponentChars n) = some n := by
  by_cases hzero : n = 0
  · rw [hzero]
    rfl
  · have hall : (digitsOf n.natAbs).all Char.isDigit = true := List.all_eq_true.mpr fun c hc => isDigit_digitsOf hc
    rw [exponentChars_of_ne hzero, readExponent_signed hall (digitsOf_ne_nil _), natOfDigits_digitsOf,
      signed_natAbs]

theorem plain_exponentChars {n : Int} {c : Char} (h : c ∈ exponentChars n) : Plain c := by
  by_cases hzero : n = 0
  · rw [hzero] at h
    exact absurd h List.not_mem_nil
  · rw [exponentChars_of_ne hzero] at h
    simp only [List.mem_cons] at h
    rcases h with rfl | rfl | h
    · exact ⟨rfl, by decide, rfl⟩
    · split_ifs
      · exact ⟨rfl, by decide, rfl⟩
      · exact ⟨rfl, by decide, rfl⟩
    · exact plain_of_isDigit (isDigit_digitsOf h)

theorem head_exponentChars {n : Int} {c : Char} (h : c ∈ (exponentChars n).head?) :
    c.isDigit = false ∧ c ≠ '.' := by
  by_cases hzero : n = 0
  · simp [exponentChars, hzero] at h
  · rw [exponentChars_of_ne hzero, List.head?_cons] at h
    obtain rfl : 'E' = c := by simpa using h
    exact ⟨rfl, by decide⟩

/-- Where `str` puts the point. -/
def dotOf (d : Decimal) : Int :=
  if d.exp ≤ 0 ∧ -6 < d.exp + (digitsOf d.coeff).length then d.exp + (digitsOf d.coeff).length else 1

/-- `str` as a numeral. -/
theorem str_eq (d : Decimal) : d.str = String.ofList (signChars d.neg ++ (pointAt (digitsOf d.coeff) d.dotOf).1 ++
    fraction (pointAt (digitsOf d.coeff) d.dotOf).2 ++
      exponentChars (d.exp + (digitsOf d.coeff).length - d.dotOf)) := by
  rw [List.append_assoc (signChars d.neg), pointAt_chars (digitsOf_ne_nil d.coeff)]
  simp only [str, exponentChars, sub_eq_zero, sub_nonneg]
  rfl

theorem ofString_str (d : Decimal) : ofString d.str = some d := by
  have hdigits := fun c => @isDigit_digitsOf d.coeff c
  have hne := digitsOf_ne_nil d.coeff
  have hlength := List.length_pos_of_ne_nil hne
  obtain ⟨hwhole, hfrac⟩ := @isDigit_pointAt (digitsOf d.coeff) d.dotOf hdigits
  rw [str_eq, ofString_numeral hwhole (pointAt_ne_nil hne) hfrac (readExponent_exponentChars _)
    (fun c hc => plain_exponentChars hc) fun c hc => head_exponentChars hc, natOfDigits_pointAt, length_pointAt,
    natOfDigits_digitsOf]
  have hdot : d.dotOf ≤ (digitsOf d.coeff).length := by
    unfold dotOf
    split_ifs with h
    · omega
    · omega
  have hpow : (d.dotOf - (digitsOf d.coeff).length).toNat = 0 := by omega
  have hexp : d.exp + (digitsOf d.coeff).length - d.dotOf - ((digitsOf d.coeff).length - d.dotOf).toNat = d.exp := by
    omega
  rw [hpow, pow_zero, mul_one, hexp]

/-! ## Fixed notation -/

/-- Groups of three digits from the last one on; the digits are given in reverse. -/
def groupsOfThree : List Char → List (List Char)
  | a :: b :: c :: d :: rest => [c, b, a] :: groupsOfThree (d :: rest)
  | ds => [ds.reverse]

/-- Commas between groups of three digits. -/
def insertThousands (ds : List Char) : List Char := [','].intercalate (groupsOfThree ds.reverse).reverse

/-- The digits of fixed notation. A zero loses a positive exponent. -/
def fixedParts (d : Decimal) : List Char × List Char :=
  let exp := if d.coeff = 0 ∧ 0 < d.exp then 0 else d.exp
  pointAt (digitsOf d.coeff) (exp + (digitsOf d.coeff).length)

/-- `format(d, "f")`, and with `thousands` `format(d, ",f")`. -/
def fixedText (thousands : Bool) (d : Decimal) : String :=
  let whole := if thousands then insertThousands d.fixedParts.1 else d.fixedParts.1
  String.ofList (signChars d.neg ++ whole ++ fraction d.fixedParts.2)

example : (Decimal.mk true 123456789 (-2)).fixedText true = "-1,234,567.89" := by decide

theorem flatten_groupsOfThree (ds : List Char) : (groupsOfThree ds).reverse.flatten = ds.reverse := by
  induction ds using groupsOfThree.induct with
  | case1 a b c d rest ih =>
    rw [groupsOfThree, List.reverse_cons, List.flatten_append, ih]
    simp
  | case2 ds h =>
    rw [groupsOfThree]
    · simp
    · exact h

/-- Only the first group may be shorter. -/
theorem groupsOfThree_lengths {ds : List Char} (hds : ds ≠ []) : ∃ (first : List Char) (groups : List (List Char)),
    (groupsOfThree ds).reverse = first :: groups ∧ first ≠ [] ∧ first.length ≤ 3 ∧ ∀ g ∈ groups, g.length = 3 := by
  induction ds using groupsOfThree.induct with
  | case1 a b c d rest ih =>
    obtain ⟨first, groups, heq, hne, hshort, hthree⟩ := ih (List.cons_ne_nil d rest)
    refine ⟨first, groups ++ [[c, b, a]], ?_, hne, hshort, fun g hg => ?_⟩
    · rw [groupsOfThree, List.reverse_cons, heq, List.cons_append]
    · rcases List.mem_append.mp hg with hg | hg
      · exact hthree g hg
      · rw [List.mem_singleton.mp hg]
        rfl
  | case2 ds h =>
    refine ⟨ds.reverse, [], ?_, by simpa using hds, ?_, by simp⟩
    · rw [groupsOfThree]
      · rfl
      · exact h
    · rcases ds with _ | ⟨a, _ | ⟨b, _ | ⟨c, _ | ⟨d, rest⟩⟩⟩⟩
      · simp
      · simp
      · simp
      · simp
      · exact (h a b c d rest rfl).elim

/-- Deleting the commas between groups that have none. -/
theorem filter_intercalate (gs : List (List Char)) (h : ∀ g ∈ gs, ∀ c ∈ g, c ≠ ',') :
    ([','].intercalate gs).filter (· ≠ ',') = gs.flatten := by
  induction gs with
  | nil => rfl
  | cons g gs ih =>
    have hg : g.filter (· ≠ ',') = g := List.filter_eq_self.mpr fun c hc => by simpa using h g List.mem_cons_self c hc
    have hrest := ih fun g' hg' => h g' (List.mem_cons_of_mem _ hg')
    cases gs with
    | nil => simpa using hg
    | cons g' gs =>
      rw [List.intercalate_cons_cons, List.filter_append, List.filter_append, hg, hrest]
      simp

theorem filter_insertThousands {ds : List Char} (h : ∀ c ∈ ds, c.isDigit = true) :
    (insertThousands ds).filter (· ≠ ',') = ds := by
  have hflat := flatten_groupsOfThree ds.reverse
  rw [List.reverse_reverse] at hflat
  rw [insertThousands, filter_intercalate, hflat]
  intro g hg c hc
  have hmem : c ∈ ds := by
    rw [← hflat]
    exact List.mem_flatten.mpr ⟨g, hg, hc⟩
  exact ne_of_isDigit (h c hmem) rfl

/-- The exponent that fixed notation starts from. -/
def fixedExp (d : Decimal) : Int := if d.coeff = 0 ∧ 0 < d.exp then 0 else d.exp

theorem fixedParts_eq (d : Decimal) :
    d.fixedParts = pointAt (digitsOf d.coeff) (d.fixedExp + (digitsOf d.coeff).length) := rfl

theorem isDigit_fixedParts (d : Decimal) :
    (∀ c ∈ d.fixedParts.1, c.isDigit = true) ∧ ∀ c ∈ d.fixedParts.2, c.isDigit = true :=
  isDigit_pointAt fun _ hc => isDigit_digitsOf hc

theorem fixedParts_ne_nil (d : Decimal) : d.fixedParts.1 ≠ [] := pointAt_ne_nil (digitsOf_ne_nil d.coeff)

theorem length_fixedParts (d : Decimal) : (d.fixedParts.2.length : Int) = (-d.fixedExp).toNat := by
  rw [fixedParts_eq, length_pointAt]
  omega

theorem natOfDigits_fixedParts (d : Decimal) :
    natOfDigits (d.fixedParts.1 ++ d.fixedParts.2) = d.coeff * 10 ^ d.fixedExp.toNat := by
  rw [fixedParts_eq, natOfDigits_pointAt, natOfDigits_digitsOf, add_sub_cancel_right]

/-- A normal number has no trailing zero behind the point. -/
theorem getLast?_fixedParts {d : Decimal} (h : d.exp < 0 → d.coeff % 10 ≠ 0) : d.fixedParts.2.getLast? ≠ some '0' := by
  by_cases hfrac : d.fixedParts.2 = []
  · simp [hfrac]
  have hlength := d.length_fixedParts
  have hpos := List.length_pos_of_ne_nil hfrac
  have hexp : d.exp < 0 := by
    unfold fixedExp at hlength
    split_ifs at hlength with hzero
    · omega
    · omega
  rw [fixedParts_eq] at hfrac ⊢
  rw [getLast?_pointAt (digitsOf_ne_nil d.coeff) hfrac, getLast?_digitsOf, ne_eq, Option.some_inj,
    Nat.digitChar_eq_zero]
  exact h hexp

/-- Fixed notation reads back as the number at an exponent that is not positive. -/
theorem ofString_fixedText (d : Decimal) :
    ofString (d.fixedText false) = some ⟨d.neg, d.coeff * 10 ^ d.fixedExp.toNat, -(-d.fixedExp).toNat⟩ := by
  obtain ⟨hwhole, hfrac⟩ := d.isDigit_fixedParts
  have hread := @ofString_numeral d.neg d.fixedParts.1 d.fixedParts.2 [] 0 hwhole d.fixedParts_ne_nil hfrac rfl
    (by simp) (by simp)
  rw [List.append_nil, natOfDigits_fixedParts, length_fixedParts, zero_sub] at hread
  exact hread

theorem reads_fixed (d : Decimal) : ∃ e, ofString (d.fixedText false) = some e ∧ e.toRat = d.toRat := by
  refine ⟨_, d.ofString_fixedText, ?_⟩
  by_cases hzero : d.coeff = 0
  · simp [toRat, num, hzero, signed]
  · have hexp : d.fixedExp = d.exp := if_neg fun h => hzero h.1
    rw [hexp, toRat, toRat, num, num, signed_mul]
    have hmin : -((-d.exp).toNat : Int) ≤ d.exp := by omega
    have hdiff : (d.exp - -((-d.exp).toNat : Int)).toNat = d.exp.toNat := by omega
    rw [zpow_eq_pow_mul hmin, hdiff]
    push_cast
    ring

/-- A text without its thousands separators. -/
def withoutCommas (text : String) : String := String.ofList (text.toList.filter (· ≠ ','))

theorem withoutCommas_fixedText (d : Decimal) : withoutCommas (d.fixedText true) = d.fixedText false := by
  obtain ⟨hwhole, hfrac⟩ := d.isDigit_fixedParts
  have hsign : (signChars d.neg).filter (· ≠ ',') = signChars d.neg := by
    cases d.neg
    · rfl
    · rfl
  have hpoint : (fraction d.fixedParts.2).filter (· ≠ ',') = fraction d.fixedParts.2 := by
    refine List.filter_eq_self.mpr fun c hc => ?_
    unfold fraction at hc
    split_ifs at hc
    · exact absurd hc List.not_mem_nil
    · rcases List.mem_cons.mp hc with rfl | hc
      · rfl
      · simpa using ne_of_isDigit (hfrac c hc) rfl
  rw [withoutCommas, fixedText, fixedText, String.toList_ofList, List.filter_append, List.filter_append, hsign,
    hpoint]
  exact congrArg (fun whole => String.ofList (signChars d.neg ++ whole ++ fraction d.fixedParts.2))
    (filter_insertThousands hwhole)

end Decimal

end Fixed
