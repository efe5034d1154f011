import LdbBackend.Model.Formatting
import LdbBackend.Model.Tables

/-!
# Displayed amounts

`format_amount` writes an amount of the columns in fixed notation, with commas, from a number that has no
trailing zeros behind the point (`exists_written`); nothing is left for its `rstrip` to remove
(`formatAmount_eq`). The text depends on the value alone, except for the sign of a zero. An amount that is
not integral is rounded to the context before, so the text reads back to the amount exactly when that has
28 significant digits (`display_exact_iff`). `decimal_to_float_str` does not round
(`decimalToFloatStr_exact`).
-/

namespace LdbBackend

open Fixed Decimal

/-! ## The shape of a displayed amount -/

/-- Groups of three digits with commas between them; the first may be shorter. -/
def Grouped (cs : List Char) : Prop :=
  ∃ (first : List Char) (groups : List (List Char)), cs = [','].intercalate (first :: groups) ∧
    first ≠ [] ∧ first.length ≤ 3 ∧ (∀ g ∈ groups, g.length = 3) ∧
      ∀ g ∈ first :: groups, ∀ c ∈ g, c.isDigit = true

/-- A sign, grouped digits, and behind a point digits that do not end with a zero; without such digits
there is no point. -/
def Display (text : String) : Prop :=
  ∃ (neg : Bool) (whole frac : List Char), text.toList = signChars neg ++ whole ++ fraction frac ∧
    Grouped whole ∧ (∀ c ∈ frac, c.isDigit = true) ∧ frac.getLast? ≠ some '0'

theorem grouped_insertThousands {ds : List Char} (hds : ds ≠ []) (h : ∀ c ∈ ds, c.isDigit = true) :
    Grouped (insertThousands ds) := by
  obtain ⟨first, groups, heq, hne, hshort, hthree⟩ := @groupsOfThree_lengths ds.reverse (by simpa using hds)
  refine ⟨first, groups, by rw [insertThousands, heq], hne, hshort, hthree, fun g hg c hc => ?_⟩
  have hflat := flatten_groupsOfThree ds.reverse
  rw [List.reverse_reverse, heq] at hflat
  apply h
  rw [← hflat]
  exact List.mem_flatten.mpr ⟨g, hg, hc⟩

section Text

variable {d : Decimal}

theorem display_fixedText (h : d.exp < 0 → Normal d) : Display (d.fixedText true) := by
  obtain ⟨hwhole, hfrac⟩ := d.isDigit_fixedParts
  exact ⟨d.neg, insertThousands d.fixedParts.1, d.fixedParts.2, String.toList_ofList,
    grouped_insertThousands d.fixedParts_ne_nil hwhole, hfrac, getLast?_fixedParts h⟩

theorem rstrip_eq_self {c : Char} {text : String} (h : text.toList.getLast? ≠ some c) : rstrip c text = text := by
  have hkept : text.toList.reverse.dropWhile (· = c) = text.toList.reverse := by
    rw [List.getLast?_eq_head?_reverse] at h
    cases hchars : text.toList.reverse with
    | nil => rfl
    | cons x rest =>
      rw [List.dropWhile_cons_of_neg]
      rw [hchars] at h
      simpa using h
  rw [rstrip, hkept, List.reverse_reverse, String.ofList_toList]

theorem Grouped.no_point {cs : List Char} (h : Grouped cs) : '.' ∉ cs := by
  obtain ⟨first, groups, rfl, -, -, -, hdigits⟩ := h
  generalize first :: groups = gs at hdigits
  intro hpoint
  have hflat : '.' ∈ ([','].intercalate gs).filter (· ≠ ',') := List.mem_filter.mpr ⟨hpoint, by decide⟩
  rw [filter_intercalate gs fun g hg c hc => ne_of_isDigit (hdigits g hg c hc) rfl] at hflat
  obtain ⟨g, hg, hc⟩ := List.mem_flatten.mp hflat
  exact absurd (hdigits g hg '.' hc) (by decide)

/-- Such a text ends with a digit that `rstrip` keeps. -/
theorem rstrip_display {text : String} (h : Display text) (hpoint : '.' ∈ text.toList) :
    rstrip '.' (rstrip '0' text) = text := by
  obtain ⟨neg, whole, frac, htext, hwhole, hfrac, hzero⟩ := h
  have hne : frac ≠ [] := by
    rintro rfl
    rw [htext] at hpoint
    simp only [fraction, if_true, List.append_nil, List.mem_append] at hpoint
    rcases hpoint with hsign | hpoint
    · cases neg
      · exact absurd hsign List.not_mem_nil
      · exact absurd hsign (by decide)
    · exact hwhole.no_point hpoint
  have hlast : text.toList.getLast? = frac.getLast? := by
    rw [htext, fraction, if_neg hne, List.getLast?_append_of_ne_nil _ (List.cons_ne_nil _ _)]
    exact List.getLast?_append_of_ne_nil ['.'] hne
  have hdot : frac.getLast? ≠ some '.' := by
    intro hmem
    exact absurd (hfrac '.' (List.mem_of_getLast? hmem)) (by decide)
  rw [← hlast] at hzero hdot
  rw [rstrip_eq_self hzero, rstrip_eq_self hdot]

end Text

/-! ## The number that is written -/

theorem formatAmount_eq {d x : Decimal} (hx : normalizedAmount d = .ok x) (hnormal : x.exp < 0 → Normal x) :
    formatAmount (.decimal d) = .ok (x.fixedText true) := by
  have hread : ofString (AmountValue.decimal d).text = some d := ofString_str d
  simp only [formatAmount, AmountValue.isBlank_decimal, Bool.false_eq_true, if_false, hread, hx, bind, Except.bind, pure, Except.pure]
  split_ifs with hpoint
  · rw [rstrip_display (display_fixedText hnormal) hpoint]
  · rfl

/-- An integral amount is written at exponent 0. -/
theorem normalizedAmount_integral {d : Decimal} {k : ℤ} (hd : IsScaled 0 d k) (hk : k.natAbs < 10 ^ prec) :
    normalizedAmount d = .ok ⟨d.neg, k.natAbs, 0⟩ := by
  simp only [normalizedAmount, quantizeUnits_exact hd hk]
  rw [if_pos (integral_iff.mpr ⟨k, hd⟩)]

/-- Any other one is rounded to the context and brought to normal form. -/
theorem normalizedAmount_fraction {d : Decimal} (hd : ¬ ∃ k : ℤ, IsScaled 0 d k) :
    normalizedAmount d = .ok (fix d).normalize := by
  rw [normalizedAmount, if_neg (mt integral_iff.mp hd)]

section Column

variable {d d' : Decimal} {n : ℤ}

/-- An integral amount of a column, in units. -/
theorem integral_units {k : ℤ} (hd : IsScaled 2 d n) (hk : IsScaled 0 d k) (hn : FitsColumn n) :
    n = k * 100 ∧ k.natAbs < 10 ^ prec := by
  have hvalue : (n : ℚ) = k * 100 := by
    have : (n : ℚ) / 10 ^ 2 = k / 10 ^ 0 := hd.symm.trans hk
    field_simp at this
    linarith
  have hnk : n = k * 100 := by exact_mod_cast hvalue
  refine ⟨hnk, ?_⟩
  unfold FitsColumn at hn
  rw [show prec = 28 from rfl]
  omega

theorem toRat_units {k : ℤ} (hk : IsScaled 0 d k) : (Decimal.mk d.neg k.natAbs 0).toRat = d.toRat := by
  obtain ⟨hsigned, hscale⟩ := scale_exact (fun n d hd => roundHalfEven_mul n hd) hk
  rw [hscale] at hsigned
  rw [hk, toRat, num, hsigned]
  simp

/-- The number that is written: in normal form behind the point, of the amount's value exactly when that has
28 digits, and the same for every form of the amount, except for the sign of a zero. -/
structure Written (d : Decimal) (n : ℤ) (x : Decimal) : Prop where
  eq : normalizedAmount d = .ok x
  normal : x.exp < 0 → Normal x
  exact : x.toRat = d.toRat ↔ HasDigits prec |(n : ℚ)|
  same : ∀ d' : Decimal, d'.toRat = d.toRat → normalizedAmount d' = .ok x ∨
    n = 0 ∧ x = ⟨d.neg, 0, 0⟩ ∧ normalizedAmount d' = .ok ⟨d'.neg, 0, 0⟩

theorem written_integral {k : ℤ} (hd : IsScaled 2 d n) (hk : IsScaled 0 d k) (hn : FitsColumn n) :
    Written d n ⟨d.neg, k.natAbs, 0⟩ := by
  obtain ⟨hnk, hfits⟩ := integral_units hd hk hn
  refine ⟨normalizedAmount_integral hk hfits, fun h => absurd h (lt_irrefl 0), ?_, fun d' hd' => ?_⟩
  · refine iff_of_true (toRat_units hk) ⟨k.natAbs, 2, hfits, ?_⟩
    rw [hnk, Int.cast_mul, abs_mul, abs_int]
    norm_num
  · have hk' : IsScaled 0 d' k := hd'.trans hk
    by_cases hzero : k = 0
    · subst hzero
      exact .inr ⟨by omega, rfl, normalizedAmount_integral hk' hfits⟩
    · left
      have hne : d'.toRat ≠ 0 := by
        rw [hk']
        simpa using hzero
      rw [normalizedAmount_integral hk' hfits, neg_congr hd' hne]

theorem written_fraction (hd : IsScaled 2 d n) (hfraction : ¬ ∃ k : ℤ, IsScaled 0 d k) (hn : FitsColumn n) :
    Written d n (fix d).normalize := by
  have hne : d.toRat ≠ 0 := by
    intro hzero
    exact hfraction ⟨0, by rw [IsScaled, hzero]; simp⟩
  obtain ⟨hnormal, hvalue⟩ := normalize_spec (mt toRat_eq_zero_iff.mpr (fix_ne_zero hne))
  refine ⟨normalizedAmount_fraction hfraction, fun _ => hnormal, ?_, fun d' hd' => ?_⟩
  · rw [hvalue]
    constructor
    · intro hkept
      exact hasDigits_of_fix hd (toColumn_exact (hkept.trans hd) hn)
    · exact fix_of_hasDigits hd
  · left
    have hfraction' : ¬ ∃ k : ℤ, IsScaled 0 d' k := by
      rintro ⟨k, hk⟩
      exact hfraction ⟨k, hd'.symm.trans hk⟩
    rw [normalizedAmount_fraction hfraction', normalize_fix_congr hd' (hd' ▸ hne)]

theorem exists_written (hd : IsScaled 2 d n) (hn : FitsColumn n) : ∃ x, Written d n x := by
  by_cases hintegral : ∃ k : ℤ, IsScaled 0 d k
  · obtain ⟨k, hk⟩ := hintegral
    exact ⟨_, written_integral hd hk hn⟩
  · exact ⟨_, written_fraction hd hintegral hn⟩

end Column

/-! ## The display of an amount -/

/-- The text of an amount: of the promised shape, with the amount as its value, and the same for every form of
the amount, except for the sign of a zero. -/
structure Displays (d : Decimal) (text : String) : Prop where
  returned : formatAmount (.decimal d) = .ok text
  display : Display text
  readsBack : ∃ e, ofString (withoutCommas text) = some e ∧ e.toRat = d.toRat
  sameText : ∀ d' : Decimal, d'.toRat = d.toRat → formatAmount (.decimal d') = .ok text ∨
    d.toRat = 0 ∧ text ∈ ["0", "-0"] ∧ ∃ text' ∈ ["0", "-0"], formatAmount (.decimal d') = .ok text'

theorem zero_text (neg : Bool) : (Decimal.mk neg 0 0).fixedText true ∈ ["0", "-0"] := by
  cases neg
  · decide
  · decide

section Displayed

variable {d x : Decimal} {n : ℤ}

theorem Written.reads (h : Written d n x) : ∃ e, ofString (withoutCommas (x.fixedText true)) = some e ∧
    (e.toRat = d.toRat ↔ HasDigits prec |(n : ℚ)|) := by
  obtain ⟨e, he, hvalue⟩ := x.reads_fixed
  refine ⟨e, by rw [withoutCommas_fixedText, he], ?_⟩
  rw [hvalue]
  exact h.exact

theorem Written.sameText (h : Written d n x) (hd : IsScaled 2 d n) (d' : Decimal) (hd' : d'.toRat = d.toRat) :
    formatAmount (.decimal d') = .ok (x.fixedText true) ∨
      d.toRat = 0 ∧ x.fixedText true ∈ ["0", "-0"] ∧
        ∃ text' ∈ ["0", "-0"], formatAmount (.decimal d') = .ok text' := by
  rcases h.same d' hd' with heq | ⟨hzero, rfl, heq⟩
  · exact .inl (formatAmount_eq heq h.normal)
  · refine .inr ⟨?_, zero_text d.neg, _, zero_text d'.neg, formatAmount_eq heq fun h => absurd h (lt_irrefl 0)⟩
    rw [hd, hzero]
    simp

/-- Every amount of a column is displayed, in the promised shape. -/
theorem formatAmount_displays (hd : IsScaled 2 d n) (hn : FitsColumn n) :
    ∃ text, formatAmount (.decimal d) = .ok text ∧ Display text := by
  obtain ⟨x, hx⟩ := exists_written hd hn
  exact ⟨_, formatAmount_eq hx.eq hx.normal, display_fixedText hx.normal⟩

/-- The display keeps the amounts of at most 28 significant digits, all integral ones among them. -/
theorem display_exact_iff (hd : IsScaled 2 d n) (hn : FitsColumn n) :
    (∃ text, Displays d text) ↔ HasDigits prec |(n : ℚ)| := by
  obtain ⟨x, hx⟩ := exists_written hd hn
  obtain ⟨e, he, hvalue⟩ := hx.reads
  have hreturned := formatAmount_eq hx.eq hx.normal
  constructor
  · rintro ⟨text, htext⟩
    obtain rfl : x.fixedText true = text := Except.ok.inj (hreturned.symm.trans htext.returned)
    obtain ⟨e', he', hvalue'⟩ := htext.readsBack
    obtain rfl : e = e' := Option.some.inj (he.symm.trans he')
    exact hvalue.mp hvalue'
  · intro hdigits
    exact ⟨_, hreturned, display_fixedText hx.normal, ⟨e, he, hvalue.mpr hdigits⟩, hx.sameText hd⟩

end Displayed

theorem display_exact_for_1234 : Displays ⟨false, 12345, -1⟩ "1,234.5" := by
  obtain ⟨text, htext⟩ := (@display_exact_iff ⟨false, 12345, -1⟩ 123450 (by norm_num [IsScaled, toRat, num, signed])
    (by unfold FitsColumn; decide)).mpr ⟨12345, 1, by decide, by norm_num⟩
  have hreturned : formatAmount (.decimal ⟨false, 12345, -1⟩) = .ok "1,234.5" := by decide +kernel
  obtain rfl : "1,234.5" = text := Except.ok.inj (hreturned.symm.trans htext.returned)
  exact htext

/-- One hundredth on top of 10^27, of 30 significant digits, is lost. -/
theorem hundredth_lost : ¬ ∀ (d : Decimal) (n : ℤ), IsScaled 2 d n → FitsColumn n → ∃ text, Displays d text := by
  intro hclaim
  set d : Decimal := ⟨false, 10 ^ 29 + 1, -2⟩
  obtain ⟨text, htext⟩ := hclaim d (10 ^ 29 + 1) (by norm_num [d, IsScaled, toRat, num, signed])
    (by unfold FitsColumn; decide)
  have hreturned : formatAmount (.decimal d) = .ok "1,000,000,000,000,000,000,000,000,000" := by decide +kernel
  obtain rfl := Except.ok.inj (hreturned.symm.trans htext.returned)
  obtain ⟨e, he, hvalue⟩ := htext.readsBack
  have hread : ofString (withoutCommas "1,000,000,000,000,000,000,000,000,000") = some ⟨false, 10 ^ 27, 0⟩ := by
    decide +kernel
  obtain rfl := Option.some.inj (hread.symm.trans he)
  norm_num [d, toRat, num, signed] at hvalue

/-- The plain text of `decimal_to_float_str` has the value of the amount. -/
theorem decimalToFloatStr_exact (d : Decimal) :
    ∃ e, ofString (decimalToFloatStr d) = some e ∧ e.toRat = d.toRat := d.reads_fixed

end LdbBackend
