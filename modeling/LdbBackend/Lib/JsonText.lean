import Mathlib.Data.List.Basic

/-!
# JSON text

Documents of texts, `null` and objects, written without spaces and in ASCII only: what is not printable ASCII
is escaped by its UTF-16 code units (`write`). A reader that reads every escape finds the document again
(`read_write`), so the text determines the document, with its fields and their order.
-/

namespace JsonText

inductive Doc
  | null
  | text (s : String)
  | object (fields : List (String × Doc))

namespace Doc

/-- The text of a document that is one. -/
def text? : Doc → Option String
  | text s => some s
  | _ => none

/-- A text, or that there is none. -/
def nullable : Doc → Option (Option String)
  | text s => some (some s)
  | null => some none
  | object _ => none

def field (key : String) : Doc → Option Doc
  | object fields => fields.lookup key
  | _ => none

end Doc

/-! ## The writer -/

/-- The characters with an escape of two characters. -/
def short : List (Char × Char) :=
  [('"', '"'), ('\\', '\\'), ('\n', 'n'), ('\r', 'r'), ('\t', 't'), ('\x0c', 'f'), ('\x08', 'b')]

/-- Four hexadecimal digits of a code unit. -/
def hex4 (n : Nat) : List Char :=
  [Nat.digitChar (n / 4096), Nat.digitChar (n / 256 % 16), Nat.digitChar (n / 16 % 16), Nat.digitChar (n % 16)]

def escapeUnit (n : Nat) : List Char := '\\' :: 'u' :: hex4 n

def Printable (c : Char) : Prop := 32 ≤ c.toNat ∧ c.toNat ≤ 126

instance (c : Char) : Decidable (Printable c) := inferInstanceAs (Decidable (_ ∧ _))

def highUnit (n : Nat) : Nat := 0xd800 + (n - 0x10000) / 0x400

def lowUnit (n : Nat) : Nat := 0xdc00 + (n - 0x10000) % 0x400

def escape (c : Char) : List Char :=
  match short.find? (·.1 = c) with
  | some p => ['\\', p.2]
  | none =>
    if Printable c then [c]
    else if c.toNat < 0x10000 then escapeUnit c.toNat
    else escapeUnit (highUnit c.toNat) ++ escapeUnit (lowUnit c.toNat)

def quote (s : String) : List Char := '"' :: s.toList.flatMap escape ++ ['"']

mutual

def write : Doc → List Char
  | .null => ['n', 'u', 'l', 'l']
  | .text s => quote s
  | .object [] => ['\x7b', '\x7d']
  | .object ((key, value) :: fields) => '\x7b' :: quote key ++ ':' :: write value ++ writeRest fields

def writeRest : List (String × Doc) → List Char
  | [] => ['\x7d']
  | (key, value) :: fields => ',' :: quote key ++ ':' :: write value ++ writeRest fields

end

/-! ## The reader -/

def hexValue (c : Char) : Option Nat := (List.range 16).find? (Nat.digitChar · = c)

/-- A code unit, and what follows it. -/
def readUnit : List Char → Option (Nat × List Char)
  | a :: b :: c :: d :: cs => do
    let a ← hexValue a
    let b ← hexValue b
    let c ← hexValue c
    let d ← hexValue d
    some (4096 * a + 256 * b + 16 * c + d, cs)
  | _ => none

/-- The second half of a pair, after the high unit. -/
def readLow (high : Nat) : List Char → Option (Char × List Char)
  | '\\' :: 'u' :: cs => do
    let (low, cs) ← readUnit cs
    if 0xdc00 ≤ low ∧ low < 0xe000 then
      some (Char.ofNat (0x10000 + (high - 0xd800) * 0x400 + (low - 0xdc00)), cs)
    else none
  | _ => none

def readEscape (cs : List Char) : Option (Char × List Char) := do
  let (unit, cs) ← readUnit cs
  if 0xd800 ≤ unit ∧ unit < 0xdc00 then readLow unit cs
  else if 0xdc00 ≤ unit ∧ unit < 0xe000 then none
  else some (Char.ofNat unit, cs)

def readChar : List Char → Option (Char × List Char)
  | [] => none
  | c :: cs =>
    if c = '\\' then
      match cs with
      | [] => none
      | e :: cs => if e = 'u' then readEscape cs else (short.find? (·.2 = e)).map fun p => (p.1, cs)
    else some (c, cs)

/-- The characters up to the closing quote. -/
def readChars : Nat → List Char → Option (List Char × List Char)
  | 0, _ => none
  | _, [] => none
  | n + 1, c :: cs =>
    if c = '"' then some ([], cs)
    else do
      let (c, cs) ← readChar (c :: cs)
      let (s, cs) ← readChars n cs
      some (c :: s, cs)

def readText (cs : List Char) : Option (String × List Char) :=
  (readChars cs.length cs).map fun p => (String.ofList p.1, p.2)

mutual

def readDoc : Nat → List Char → Option (Doc × List Char)
  | 0, _ => none
  | n + 1, cs =>
    match cs with
    | 'n' :: 'u' :: 'l' :: 'l' :: cs => some (.null, cs)
    | '"' :: cs => (readText cs).map fun p => (.text p.1, p.2)
    | '\x7b' :: '\x7d' :: cs => some (.object [], cs)
    | '\x7b' :: cs => (readFields n cs).map fun p => (.object p.1, p.2)
    | _ => none

def readFields : Nat → List Char → Option (List (String × Doc) × List Char)
  | n + 1, '"' :: cs => do
    let (key, cs) ← readText cs
    match cs with
    | ':' :: cs => do
      let (value, cs) ← readDoc n cs
      match cs with
      | '\x7d' :: cs => some ([(key, value)], cs)
      | ',' :: cs => do
        let (fields, cs) ← readFields n cs
        some ((key, value) :: fields, cs)
      | _ => none
    | _ => none
  | _, _ => none

end

/-- The document of a whole text. -/
def read (cs : List Char) : Option Doc :=
  match readDoc cs.length cs with
  | some (d, []) => some d
  | _ => none

/-! ## Characters -/

theorem hexValue_digitChar {n : Nat} (h : n < 16) : hexValue (Nat.digitChar n) = some n := by
  have hall : ∀ m < 16, hexValue (Nat.digitChar m) = some m := by decide
  exact hall n h

theorem readUnit_hex4 {n : Nat} (h : n < 0x10000) (cs : List Char) : readUnit (hex4 n ++ cs) = some (n, cs) := by
  have h₁ := hexValue_digitChar (show n / 4096 < 16 by omega)
  have h₂ := hexValue_digitChar (show n / 256 % 16 < 16 by omega)
  have h₃ := hexValue_digitChar (show n / 16 % 16 < 16 by omega)
  have h₄ := hexValue_digitChar (show n % 16 < 16 by omega)
  have hsum : 4096 * (n / 4096) + 256 * (n / 256 % 16) + 16 * (n / 16 % 16) + n % 16 = n := by omega
  simp [readUnit, hex4, h₁, h₂, h₃, h₄, hsum]

/-- No character is half of a pair. -/
theorem toNat_valid (c : Char) : c.toNat < 0xd800 ∨ 0xdfff < c.toNat ∧ c.toNat < 0x110000 := c.valid

theorem readChar_unit (n : Nat) (cs : List Char) : readChar (escapeUnit n ++ cs) = readEscape (hex4 n ++ cs) := rfl

theorem readChar_pair {high low : Nat} (hhigh : 0xd800 ≤ high ∧ high < 0xdc00) (hlow : 0xdc00 ≤ low ∧ low < 0xe000)
    (cs : List Char) : readChar (escapeUnit high ++ (escapeUnit low ++ cs)) =
      some (Char.ofNat (0x10000 + (high - 0xd800) * 0x400 + (low - 0xdc00)), cs) := by
  have hread := readUnit_hex4 (show low < 0x10000 by omega) cs
  rw [readChar_unit, readEscape, readUnit_hex4 (by omega)]
  simp only [Option.bind_eq_bind, Option.bind_some]
  rw [if_pos hhigh]
  simp only [escapeUnit, List.cons_append, readLow, hread, Option.bind_eq_bind, Option.bind_some]
  rw [if_pos hlow]

/-- A character beyond the first 65536 as its pair. -/
theorem pair_units {n : Nat} (h : 0x10000 ≤ n) (hn : n < 0x110000) :
    (0xd800 ≤ highUnit n ∧ highUnit n < 0xdc00) ∧ (0xdc00 ≤ lowUnit n ∧ lowUnit n < 0xe000) ∧
      0x10000 + (highUnit n - 0xd800) * 0x400 + (lowUnit n - 0xdc00) = n := by
  unfold highUnit lowUnit
  omega

theorem readChar_escape (c : Char) (cs : List Char) : readChar (escape c ++ cs) = some (c, cs) := by
  have hvalid := toNat_valid c
  unfold escape
  cases hshort : short.find? (·.1 = c) with
  | some p =>
    have hall : ∀ p ∈ short, p.2 ≠ 'u' ∧ short.find? (·.2 = p.2) = some p := by decide
    obtain ⟨hu, hfind⟩ := hall p (List.mem_of_find?_eq_some hshort)
    have hc : p.1 = c := by simpa using List.find?_some hshort
    simp [readChar, hu, hfind, hc]
  | none =>
    dsimp only
    split_ifs with hprintable hunit
    · have hne : c ≠ '\\' := by
        rintro rfl
        exact absurd hshort (by decide)
      simp [readChar, hne]
    · rw [readChar_unit, readEscape, readUnit_hex4 hunit]
      have hhigh : ¬ (0xd800 ≤ c.toNat ∧ c.toNat < 0xdc00) := by omega
      have hlow : ¬ (0xdc00 ≤ c.toNat ∧ c.toNat < 0xe000) := by omega
      simp [hhigh, hlow]
    · obtain ⟨hhigh, hlow, hsum⟩ := pair_units (show 0x10000 ≤ c.toNat by omega) (by omega)
      rw [List.append_assoc, readChar_pair hhigh hlow, hsum, Char.ofNat_toNat]

theorem escape_head (c : Char) (cs : List Char) : ∃ c' rest, escape c ++ cs = c' :: rest ∧ c' ≠ '"' := by
  unfold escape
  cases hshort : short.find? (·.1 = c) with
  | some p => exact ⟨_, _, rfl, by decide⟩
  | none =>
    dsimp only
    split_ifs with hprintable hunit
    · refine ⟨_, _, rfl, ?_⟩
      rintro rfl
      exact absurd hshort (by decide)
    · exact ⟨_, _, rfl, by decide⟩
    · exact ⟨_, _, rfl, by decide⟩

theorem readChars_escaped (s : List Char) {n : Nat} (hn : s.length < n) (cs : List Char) :
    readChars n (s.flatMap escape ++ '"' :: cs) = some (s, cs) := by
  induction s generalizing n with
  | nil =>
    obtain ⟨n, rfl⟩ := Nat.exists_eq_succ_of_ne_zero (Nat.ne_of_gt hn)
    rfl
  | cons c s ih =>
    obtain ⟨n, rfl⟩ := Nat.exists_eq_succ_of_ne_zero (Nat.ne_of_gt (Nat.zero_lt_of_lt hn))
    have hrest := ih (n := n) (by simpa using hn)
    have hread := readChar_escape c (s.flatMap escape ++ '"' :: cs)
    obtain ⟨c', rest, heq, hne⟩ := escape_head c (s.flatMap escape ++ '"' :: cs)
    rw [heq] at hread
    rw [List.flatMap_cons, List.append_assoc, heq, readChars, if_neg hne, hread]
    simp [hrest]

theorem length_flatMap_escape (s : List Char) : s.length ≤ (s.flatMap escape).length := by
  induction s with
  | nil => simp
  | cons c s ih =>
    obtain ⟨c', rest, heq, -⟩ := escape_head c []
    have hpos : 1 ≤ (escape c).length := by
      rw [← List.append_nil (escape c), heq]
      simp
    simp only [List.flatMap_cons, List.length_append, List.length_cons]
    omega

/-- A text is read up to its end. -/
theorem readText_quote (s : String) (cs : List Char) :
    readText (s.toList.flatMap escape ++ '"' :: cs) = some (s, cs) := by
  have hlength := length_flatMap_escape s.toList
  rw [readText, readChars_escaped s.toList (by simp only [List.length_append, List.length_cons]; omega)]
  simp

/-! ## Documents -/

theorem quote_append (s : String) (cs : List Char) :
    quote s ++ cs = '"' :: (s.toList.flatMap escape ++ '"' :: cs) := by
  simp [quote]

theorem length_quote (s : String) : 2 ≤ (quote s).length := by
  simp [quote]

theorem write_ne_nil (d : Doc) : write d ≠ [] := by
  cases d with
  | null => simp [write]
  | text s => simp [write, quote]
  | object fields => cases fields <;> simp [write]

/-- What is written is read, with fuel for its characters. -/
theorem readDoc_write (n : Nat) :
    (∀ d cs, (write d).length ≤ n → readDoc n (write d ++ cs) = some (d, cs)) ∧
    ∀ key value fields cs, (quote key ++ ':' :: write value ++ writeRest fields).length ≤ n →
      readFields n (quote key ++ ':' :: write value ++ writeRest fields ++ cs) = some ((key, value) :: fields, cs) := by
  induction n with
  | zero =>
    constructor
    · intro d cs hn
      exact absurd (List.length_eq_zero_iff.mp (Nat.le_zero.mp hn)) (write_ne_nil d)
    · intro key value fields cs hn
      have := length_quote key
      simp only [List.length_append, List.length_cons] at hn
      omega
  | succ n ih =>
    obtain ⟨ihDoc, ihFields⟩ := ih
    constructor
    · intro d cs hn
      cases d with
      | null => rfl
      | text s =>
        simp only [write, quote_append, readDoc]
        rw [readText_quote, Option.map_some]
      | object fields =>
        cases fields with
        | nil => rfl
        | cons field fields =>
          obtain ⟨key, value⟩ := field
          have hfields := ihFields key value fields cs (by
            simp only [write, List.length_append, List.length_cons] at hn ⊢
            omega)
          simp only [write, List.append_assoc, List.cons_append, quote_append] at hfields ⊢
          simp [readDoc, hfields]
    · intro key value fields cs hn
      have hkey := length_quote key
      simp only [List.length_append, List.length_cons] at hn
      have hvalue := fun cs => ihDoc value cs (by omega)
      simp only [List.append_assoc, List.cons_append, quote_append, readFields]
      rw [readText_quote]
      simp only [Option.bind_eq_bind, Option.bind_some, hvalue]
      cases fields with
      | nil => rfl
      | cons field fields =>
        obtain ⟨key', value'⟩ := field
        have hfields := ihFields key' value' fields cs (by
          simp only [writeRest, List.length_append, List.length_cons] at hn ⊢
          omega)
        simp only [writeRest, List.append_assoc, List.cons_append] at hfields ⊢
        simp [hfields]

theorem read_write (d : Doc) : read (write d) = some d := by
  have hread := (readDoc_write (write d).length).1 d [] (Nat.le_refl _)
  rw [List.append_nil] at hread
  rw [read, hread]

/-! ## ASCII -/

theorem printable_digitChar {n : Nat} (h : n < 16) : Printable (Nat.digitChar n) := by
  have hall : ∀ m < 16, Printable (Nat.digitChar m) := by decide
  exact hall n h

theorem printable_escapeUnit {n : Nat} (h : n < 0x10000) : ∀ c ∈ escapeUnit n, Printable c := by
  intro c hc
  simp only [escapeUnit, hex4, List.mem_cons, List.not_mem_nil, or_false] at hc
  rcases hc with rfl | rfl | rfl | rfl | rfl | rfl
  · decide
  · decide
  · exact printable_digitChar (by omega)
  · exact printable_digitChar (by omega)
  · exact printable_digitChar (by omega)
  · exact printable_digitChar (by omega)

theorem printable_escape (c : Char) : ∀ c' ∈ escape c, Printable c' := by
  have hvalid := toNat_valid c
  unfold escape
  cases hshort : short.find? (·.1 = c) with
  | some p =>
    have hall : ∀ p ∈ short, Printable p.2 := by decide
    intro c' hc'
    rcases List.mem_cons.mp hc' with rfl | hc'
    · decide
    · rw [List.mem_singleton.mp hc']
      exact hall p (List.mem_of_find?_eq_some hshort)
  | none =>
    dsimp only
    split_ifs with hprintable hunit
    · simpa using hprintable
    · exact printable_escapeUnit hunit
    · obtain ⟨hhigh, hlow, -⟩ := pair_units (show 0x10000 ≤ c.toNat by omega) (by omega)
      intro c' hc'
      rcases List.mem_append.mp hc' with hc' | hc'
      · exact printable_escapeUnit (by omega) c' hc'
      · exact printable_escapeUnit (by omega) c' hc'

theorem printable_quote (s : String) : ∀ c ∈ quote s, Printable c := by
  intro c hc
  simp only [quote, List.cons_append, List.mem_cons, List.mem_append, List.mem_flatMap, List.not_mem_nil,
    or_false] at hc
  rcases hc with rfl | ⟨a, -, hc⟩ | rfl
  · decide
  · exact printable_escape a c hc
  · decide

mutual

/-- The text is ASCII. -/
theorem printable_write (d : Doc) : ∀ c ∈ write d, Printable c := by
  cases d with
  | null => simp [write, Printable]
  | text s => exact printable_quote s
  | object fields =>
    cases fields with
    | nil => simp [write, Printable]
    | cons field fields =>
      obtain ⟨key, value⟩ := field
      intro c hc
      simp only [write, List.cons_append, List.append_assoc, List.mem_cons, List.mem_append] at hc
      rcases hc with rfl | hc | rfl | hc | hc
      · decide
      · exact printable_quote key c hc
      · decide
      · exact printable_write value c hc
      · exact printable_writeRest fields c hc

theorem printable_writeRest (fields : List (String × Doc)) : ∀ c ∈ writeRest fields, Printable c := by
  cases fields with
  | nil => simp [writeRest, Printable]
  | cons field fields =>
    obtain ⟨key, value⟩ := field
    intro c hc
    simp only [writeRest, List.cons_append, List.append_assoc, List.mem_cons, List.mem_append] at hc
    rcases hc with rfl | hc | rfl | hc | hc
    · decide
    · exact printable_quote key c hc
    · decide
    · exact printable_write value c hc
    · exact printable_writeRest fields c hc

end

end JsonText
