import LdbBackend.Store.Alone
import LdbBackend.Model.Customers

/-!
# What an identifier resolves to

`_resolve_customer` first reads the identifier as an id, then as an external id (`Tables.resolve`). The
text of an id, as responses show it, reads as that id (`parseUuid_uuidText`), so it resolves to the
customer that has it.
-/

namespace LdbBackend

open Fixed Effects Table CustomerService

/-! ## The text of an id -/

/-- The last `k` hexadecimal digits of `n`. -/
def hexText : Nat → Nat → List Char
  | 0, _ => []
  | k + 1, n => hexText k (n / 16) ++ [Nat.digitChar (n % 16)]

/-- `str(id)`: 32 digits in groups of 8, 4, 4, 4 and 12. -/
def uuidText (id : UUID) : String :=
  let ds := hexText 32 id
  String.ofList (ds.take 8 ++ '-' :: (ds.drop 8).take 4 ++ '-' :: (ds.drop 12).take 4 ++
    '-' :: (ds.drop 16).take 4 ++ '-' :: ds.drop 20)

example : uuidText 0x0123456789abcdef0123456789abcdef = "01234567-89ab-cdef-0123-456789abcdef" := by decide

section Hex

variable {k n m d : Nat} {b : Bool} {cs : List Char}

theorem length_hexText (k n : Nat) : (hexText k n).length = k := by
  induction k generalizing n with
  | zero => rfl
  | succ k ih => simp [hexText, ih]

/-- What a digit is to the parser. -/
structure ReadsAs (c : Char) (d : Nat) : Prop where
  value : hexDigit c = some d
  plain : c ≠ '-' ∧ c ≠ '_' ∧ c ≠ '+' ∧ c ≠ 'x' ∧ c ≠ 'X' ∧ c ≠ 'u' ∧ c ≠ '\x7b' ∧ c ≠ '\x7d'
  solid : isSpace c = false

theorem digitChar_reads (h : d < 16) : ReadsAs (Nat.digitChar d) d := by
  have hall : ∀ d < 16, hexDigit (Nat.digitChar d) = some d ∧
      (Nat.digitChar d ≠ '-' ∧ Nat.digitChar d ≠ '_' ∧ Nat.digitChar d ≠ '+' ∧ Nat.digitChar d ≠ 'x' ∧
        Nat.digitChar d ≠ 'X' ∧ Nat.digitChar d ≠ 'u' ∧ Nat.digitChar d ≠ '\x7b' ∧
        Nat.digitChar d ≠ '\x7d') ∧ isSpace (Nat.digitChar d) = false := by decide
  obtain ⟨hvalue, hplain, hsolid⟩ := hall d h
  exact ⟨hvalue, hplain, hsolid⟩

theorem mem_hexText {c : Char} (h : c ∈ hexText k n) : ∃ d, ReadsAs c d := by
  induction k generalizing n with
  | zero => exact absurd h List.not_mem_nil
  | succ k ih =>
    rcases List.mem_append.mp h with hfront | hlast
    · exact ih hfront
    · rw [List.mem_singleton.mp hlast]
      exact ⟨_, digitChar_reads (Nat.mod_lt n (by omega))⟩

theorem readHex_digit (h : d < 16) :
    readHex b m (Nat.digitChar d :: cs) = readHex true (16 * m + d) cs := by
  obtain ⟨hvalue, hplain, -⟩ := digitChar_reads h
  rw [readHex]
  · rw [hvalue]
  · exact hplain.2.1

/-- Reading `k` digits appends them to the number read so far. -/
theorem readHex_hexText (hk : 0 < k) :
    readHex b m (hexText k n ++ cs) = readHex true (16 ^ k * m + n % 16 ^ k) cs := by
  induction k generalizing n cs with
  | zero => exact absurd hk (by omega)
  | succ k ih =>
    have hdigit : n % 16 < 16 := Nat.mod_lt n (by omega)
    rw [hexText, List.append_assoc, List.singleton_append]
    rcases Nat.eq_zero_or_pos k with rfl | hpos
    · rw [hexText, List.nil_append, readHex_digit hdigit, Nat.pow_one]
    · rw [ih hpos, readHex_digit hdigit]
      congr 1
      have hsplit : n % 16 ^ (k + 1) = 16 * (n / 16 % 16 ^ k) + n % 16 := by
        rw [Nat.pow_succ', Nat.mod_mul]
        omega
      rw [hsplit, Nat.pow_succ']
      ring

theorem readHex_whole (hk : 0 < k) : readHex b 0 (hexText k n) = some (n % 16 ^ k) := by
  have hread := @readHex_hexText k n 0 b [] hk
  rw [List.append_nil, Nat.mul_zero, Nat.zero_add] at hread
  rw [hread]
  rfl

/-- Stripping characters that do not occur. -/
theorem strip_absent {p : Char → Bool} (h : ∀ c ∈ cs, p c = false) :
    ((cs.dropWhile p).reverse.dropWhile p).reverse = cs := by
  have hkeep : ∀ cs : List Char, (∀ c ∈ cs, p c = false) → cs.dropWhile p = cs := by
    intro cs hcs
    cases cs with
    | nil => rfl
    | cons c cs => rw [List.dropWhile_cons_of_neg (by simp [hcs c List.mem_cons_self])]
  rw [hkeep cs h, hkeep cs.reverse fun c hc => h c (List.mem_reverse.mp hc), List.reverse_reverse]

/-- Digits alone are read as they stand: nothing is stripped from them. -/
theorem intBase16_hexText (hk : 1 < k) : intBase16 (hexText k n) = some (n % 16 ^ k) := by
  have hall : ∀ c ∈ hexText k n, ∃ d, ReadsAs c d := fun c hc => mem_hexText hc
  have hread := @readHex_whole k n false (by omega)
  have hlength := length_hexText k n
  revert hall hread hlength
  generalize hexText k n = ds
  intro hall hread hlength
  have hstripped : ((ds.dropWhile isSpace).reverse.dropWhile isSpace).reverse = ds := by
    refine strip_absent fun c hc => ?_
    obtain ⟨d, hreads⟩ := hall c hc
    exact hreads.solid
  unfold intBase16
  simp only [hstripped]
  match ds with
  | [] | [_] =>
    simp only [List.length_nil, List.length_singleton] at hlength
    omega
  | c₀ :: c₁ :: ds =>
    obtain ⟨d₀, -, ⟨-, -, hplus, -⟩, -⟩ := hall c₀ List.mem_cons_self
    obtain ⟨d₁, -, ⟨-, -, -, hx, hX, -⟩, -⟩ := hall c₁ (List.mem_cons_of_mem _ List.mem_cons_self)
    have hprefix : ¬ (c₁ = 'x' ∨ c₁ = 'X') := by
      rintro (h | h)
      · exact hx h
      · exact hX h
    split
    · next heq =>
      split at heq
      · next hsign => exact absurd (List.cons.inj hsign).1 hplus
      · cases heq
        rw [if_neg hprefix]
        exact hread
    · next heq =>
      split at heq
      · next hsign => exact absurd (List.cons.inj hsign).1 hplus
      · cases heq
        rw [if_neg hprefix]
        exact hread
    · next heq =>
      split at heq
      · next hsign => exact absurd (List.cons.inj hsign).1 hplus
      · exact hread

/-- A pattern whose first character does not occur is not found. -/
theorem removeAll_absent {c : Char} {pattern : List Char} (fuel : Nat) (h : c ∉ cs) :
    removeAll (c :: pattern) fuel cs = cs := by
  induction fuel generalizing cs with
  | zero => rfl
  | succ fuel ih =>
    cases cs with
    | nil => rfl
    | cons c' cs =>
      rw [List.mem_cons, not_or] at h
      have hno : (c :: pattern).isPrefixOf (c' :: cs) = false := by
        rw [List.isPrefixOf_cons_cons, beq_eq_false_iff_ne.mpr h.1, Bool.false_and]
      rw [removeAll, hno, if_neg (by simp), ih h.2]

end Hex

section Text

variable {id : UUID} {c : Char}

theorem toList_uuidText (id : UUID) : (uuidText id).toList =
    (hexText 32 id).take 8 ++ '-' :: ((hexText 32 id).drop 8).take 4 ++ '-' :: ((hexText 32 id).drop 12).take 4 ++
      '-' :: ((hexText 32 id).drop 16).take 4 ++ '-' :: (hexText 32 id).drop 20 := String.toList_ofList

theorem mem_uuidText (h : c ∈ (uuidText id).toList) : c = '-' ∨ ∃ d, ReadsAs c d := by
  have hdigit : ∀ {cs : List Char}, cs ⊆ hexText 32 id → c ∈ cs → c = '-' ∨ ∃ d, ReadsAs c d :=
    fun hsub hc => .inr (mem_hexText (hsub hc))
  have hgroup : ∀ i j, ((hexText 32 id).drop i).take j ⊆ hexText 32 id := fun i j =>
    List.Subset.trans (List.take_subset _ _) (List.drop_subset _ _)
  rw [toList_uuidText] at h
  simp only [List.mem_append, List.mem_cons] at h
  rcases h with (((hc | rfl | hc) | rfl | hc) | rfl | hc) | rfl | hc
  · exact hdigit (List.take_subset _ _) hc
  · exact .inl rfl
  · exact hdigit (hgroup _ _) hc
  · exact .inl rfl
  · exact hdigit (hgroup _ _) hc
  · exact .inl rfl
  · exact hdigit (hgroup _ _) hc
  · exact .inl rfl
  · exact hdigit (List.drop_subset _ _) hc

/-- Without its hyphens it is the 32 digits. -/
theorem unhyphened_uuidText (id : UUID) :
    (uuidText id).toList.filter (fun c => decide (c ≠ '-')) = hexText 32 id := by
  have hdigits : ∀ {cs : List Char}, cs ⊆ hexText 32 id → cs.filter (fun c => decide (c ≠ '-')) = cs := by
    intro cs hsub
    refine List.filter_eq_self.mpr fun c hc => ?_
    obtain ⟨d, hreads⟩ := mem_hexText (hsub hc)
    exact decide_eq_true hreads.plain.1
  have hhyphen : ∀ cs : List Char, ('-' :: cs).filter (fun c => decide (c ≠ '-')) =
      cs.filter fun c => decide (c ≠ '-') := fun cs => List.filter_cons_of_neg (by simp)
  have hgroup : ∀ i j, (((hexText 32 id).drop i).take j).filter (fun c => decide (c ≠ '-')) =
      ((hexText 32 id).drop i).take j := fun i j =>
    hdigits (List.Subset.trans (List.take_subset _ _) (List.drop_subset _ _))
  have hjoin : ∀ i j, ((hexText 32 id).drop i).take j ++ (hexText 32 id).drop (i + j) = (hexText 32 id).drop i := by
    intro i j
    rw [← List.drop_drop, List.take_append_drop]
  rw [toList_uuidText]
  simp only [List.filter_append, hhyphen, hgroup, hdigits (List.take_subset _ _),
    hdigits (List.drop_subset _ _), List.append_assoc]
  rw [hjoin 16 4, hjoin 12 4, hjoin 8 4, List.take_append_drop]

/-- The text of an id reads as the id. -/
theorem parseUuid_uuidText (h : id < 2 ^ 128) : parseUuid (uuidText id) = some id := by
  have hplain : ∀ c ∈ (uuidText id).toList, c ≠ 'u' ∧ c ≠ '\x7b' ∧ c ≠ '\x7d' := by
    intro c hc
    rcases mem_uuidText hc with rfl | ⟨d, -, ⟨-, -, -, -, -, hu, hopen, hclose⟩, -⟩
    · decide
    · exact ⟨hu, hopen, hclose⟩
  have hu : 'u' ∉ (uuidText id).toList := fun hmem => (hplain 'u' hmem).1 rfl
  have hurn : ∀ fuel, removeAll "urn:".toList fuel (uuidText id).toList = (uuidText id).toList :=
    fun fuel => removeAll_absent fuel hu
  have huuid : ∀ fuel, removeAll "uuid:".toList fuel (uuidText id).toList = (uuidText id).toList :=
    fun fuel => removeAll_absent fuel hu
  have hbraces : (((uuidText id).toList.dropWhile fun c => decide (c = '\x7b') || decide (c = '\x7d')).reverse.dropWhile
      fun c => decide (c = '\x7b') || decide (c = '\x7d')).reverse = (uuidText id).toList := by
    refine strip_absent fun c hc => ?_
    obtain ⟨-, hopen, hclose⟩ := hplain c hc
    rw [decide_eq_false hopen, decide_eq_false hclose]
    rfl
  unfold parseUuid
  simp only [hurn, huuid, hbraces, unhyphened_uuidText, length_hexText, if_true]
  rw [intBase16_hexText (by omega), Nat.mod_eq_of_lt]
  calc id < 2 ^ 128 := h
    _ = 16 ^ 32 := by norm_num

end Text

/-! ## Resolving -/

/-- The customer of the merchant with the id that the text reads as, or else with it as external id. -/
def Tables.resolve (db : Tables) (merchantId : UUID) (customerId : String) : Option (Customer Cents) :=
  ((parseUuid customerId).bind fun id => db.customers.find? fun c => c.id = id ∧ c.merchantId = merchantId).or
    (db.customers.find? fun c => (c.merchantId, c.merchantCustomerId) = (merchantId, customerId))

theorem resolveCustomer_run {db : Tables} (h : db.Constraints) (customerId : String) (m : UUID) :
    Prog.run exec (resolveCustomer customerId m) db = (.ok ((db.resolve m customerId).map Customer.load), db) := by
  have hexternal : Prog.run exec (byExternalId customerId m) db = (.ok ((db.customers.find? fun c =>
      (c.merchantId, c.merchantCustomerId) = (m, customerId)).map Customer.load), db) :=
    Prog.run_perform_ok exec (exec_customerByExternalId h m customerId)
  unfold resolveCustomer Tables.resolve
  cases parseUuid customerId with
  | none => exact hexternal
  | some i =>
    simp only [Prog.op_bind, Prog.run_perform_ok exec (exec_customerById h i m), Option.bind_some]
    cases db.customers.find? fun c => decide (c.id = i ∧ c.merchantId = m) with
    | none => exact hexternal
    | some row => rfl

end LdbBackend
