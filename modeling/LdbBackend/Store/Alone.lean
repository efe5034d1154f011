import LdbBackend.Store.Schema
import LdbBackend.Lib.Outcome

/-!
# Handlers run alone

The outcome of a handler run alone shows its result, the tables it leaves and its writes. These are
the rules of symbolic execution for handlers; lookups disappear from the outcome.
-/

namespace LdbBackend

open Fixed Effects Table

abbrev Op.isWrite (o : Op) : Bool := !o.isQuery

/-- The outcome of a handler run alone, with its writes. -/
abbrev outcomeOf {α : Type} (p : Handler α) (db : Tables) : Outcome Op Res Err α Tables :=
  Prog.outcome exec Op.isWrite p db

/-! ## Rules -/

section Rules

variable {α β : Type} {db db' : Tables}

theorem outcome_query {o : Op} {k : Res o → Handler α} {r : Res o}
    (h : exec o db = .ok (r, db)) (ho : o.isQuery = true) :
    outcomeOf (.perform o k) db = outcomeOf (k r) db :=
  Prog.outcome_hidden h (by simp [ho])

theorem outcome_write {o : Op} {k : Res o → Handler α} {r : Res o}
    (h : exec o db = .ok (r, db')) (ho : o.isQuery = false) :
    outcomeOf (.perform o k) db = (outcomeOf (k r) db').after [⟨o, r⟩] :=
  Prog.outcome_seen h (by simp [ho])

theorem outcome_refused {o : Op} {k : Res o → Handler α} {e : Err} (h : exec o db = .error e) :
    outcomeOf (.perform o k) db = ⟨.error e, db, []⟩ :=
  Prog.outcome_error h

theorem outcome_then {p : Handler α} {f : α → Handler β} {a : α} {evs : List (Event Op Res)}
    (h : outcomeOf p db = ⟨.ok a, db', evs⟩) :
    outcomeOf (p >>= f) db = (outcomeOf (f a) db').after evs :=
  Prog.outcome_bind_ok h

theorem outcome_stop {p : Handler α} {f : α → Handler β} {e : Err} {evs : List (Event Op Res)}
    (h : outcomeOf p db = ⟨.error e, db', evs⟩) : outcomeOf (p >>= f) db = ⟨.error e, db', evs⟩ :=
  Prog.outcome_bind_error h

theorem outcome_last {p : Handler α} {r : Except Err α} {evs : List (Event Op Res)}
    (h : outcomeOf p db = ⟨r, db', evs⟩) (f : α → β) :
    outcomeOf (p >>= fun a => .pure (f a)) db = ⟨r.map f, db', evs⟩ :=
  Prog.outcome_bind_pure h f

theorem outcome_map (p : Handler α) (f : α → β) (db : Tables) :
    outcomeOf (f <$> p) db =
      ⟨(outcomeOf p db).result.map f, (outcomeOf p db).state, (outcomeOf p db).events⟩ := by
  have hmap : f <$> p = p >>= fun a => .pure (f a) := (bind_pure_comp f p).symm
  rw [hmap]
  exact outcome_last rfl f

theorem exec_unwritten {o : Op} {s s' : Tables} {r : Res o} (ho : o.isWrite = false)
    (h : exec o s = .ok (r, s')) : s' = s :=
  exec_query (by simpa using ho) h

/-- A handler that only reads. -/
theorem outcome_reads {p : Handler α} (hp : p.All (·.isWrite = false)) (db : Tables) :
    outcomeOf p db = ⟨(Prog.run exec p db).1, db, []⟩ :=
  Prog.outcome_unseen (fun _ _ _ _ => exec_unwritten) hp db

/-- The state a handler leaves when it runs alone. -/
abbrev stateAfter (p : Handler α) (db : Tables) : Tables := (Prog.run exec p db).2

theorem state_reads {p : Handler α} (hp : p.All (·.isWrite = false)) (db : Tables) :
    stateAfter p db = db :=
  Prog.run_ops_keep (fun _ _ _ _ => exec_unwritten) db (Prog.ops_all hp db)

/-- The last write decides the state. -/
theorem state_last_write {o : Op} {k : Res o → Handler α} {r : Res o} (h : exec o db = .ok (r, db'))
    (hk : (k r).All (·.isWrite = false)) : stateAfter (.perform o k) db = db' := by
  unfold stateAfter
  rw [Prog.run_perform_ok exec h]
  exact state_reads hk db'

theorem state_refused {o : Op} {k : Res o → Handler α} {e : Err} (h : exec o db = .error e) :
    stateAfter (.perform o k) db = db := by
  unfold stateAfter
  rw [Prog.run_perform_error exec h]

theorem state_query {o : Op} {k : Res o → Handler α} {r : Res o} (h : exec o db = .ok (r, db)) :
    stateAfter (.perform o k) db = stateAfter (k r) db := by
  unfold stateAfter
  rw [Prog.run_perform_ok exec h]

/-- Reading at the end leaves the state of the first part. -/
theorem state_then_reads {p : Handler α} {f : α → Handler β}
    (hf : ∀ a, (f a).All (·.isWrite = false)) (db : Tables) :
    stateAfter (p >>= f) db = stateAfter p db := by
  unfold stateAfter
  rw [Prog.run_bind]
  cases Prog.run exec p db with
  | mk r db' =>
    cases r with
    | error e => rfl
    | ok a => exact state_reads (hf a) db'

end Rules

/-! ## Lookups -/

theorem exec_accountByNumber {db : Tables} (h : db.Constraints) (n : String) :
    exec (.accountByNumber n) db = .ok (db.dedicatedAccounts.find? (·.accountNumber = n), db) := by
  have hkey := getOrNone_key h.account_number n
  exact answered_ok_iff.mpr ⟨hkey, rfl⟩

theorem exec_accountByRef {db : Tables} (h : db.Constraints) (r : String) :
    exec (.accountByRef r) db = .ok (db.dedicatedAccounts.find? (·.accountRef = r), db) := by
  have hkey := getOrNone_key h.account_ref r
  exact answered_ok_iff.mpr ⟨hkey, rfl⟩

theorem exec_customerByExternalId {db : Tables} (h : db.Constraints) (m : UUID) (x : String) :
    exec (.customerByExternalId m x) db = .ok ((db.customers.find? fun c =>
      (c.merchantId, c.merchantCustomerId) = (m, x)).map Customer.load, db) := by
  have hp : (fun c : Customer Cents => decide (c.merchantId = m ∧ c.merchantCustomerId = x)) =
      fun c => decide ((c.merchantId, c.merchantCustomerId) = (m, x)) := by
    funext c
    simp only [Prod.mk.injEq]
  have hkey := getOrNone_key h.customer_unique (m, x)
  refine answered_ok_iff.mpr ⟨?_, rfl⟩
  rw [hp, hkey]
  rfl

/-- A query that matches at most one row finds the first. -/
theorem getOrNone_single {ρ : Type} {q : ρ → Bool} {rows : List ρ} (h : (rows.filter q).length ≤ 1) :
    getOrNone q rows = .ok (rows.filter q).head? := by
  unfold getOrNone getUnique
  cases hf : rows.filter q with
  | nil => rfl
  | cons row rest =>
    rw [hf, List.length_cons] at h
    have hrest : rest = [] := List.eq_nil_of_length_eq_zero (by omega)
    rw [hrest]
    rfl

theorem getOrNone_several {ρ : Type} {q : ρ → Bool} {rows : List ρ} (h : ¬ (rows.filter q).length ≤ 1) :
    getOrNone q rows = .error .multipleObjectsReturned := by
  unfold getOrNone getUnique
  cases hf : rows.filter q with
  | nil =>
    rw [hf] at h
    exact absurd (Nat.zero_le 1) h
  | cons row rest =>
    cases rest with
    | nil =>
      rw [hf] at h
      exact absurd le_rfl h
    | cons row' rest => rfl

/-- A text that a column of so many characters can be filtered by. -/
def FilterText (maxLength : Nat) (text : String) : Prop := text.length ≤ maxLength ∧ '\x00' ∉ text.toList

theorem filterText_ok {maxLength : Nat} {text : String} (h : FilterText maxLength text) :
    filterText maxLength text = .ok text := by
  unfold filterText
  rw [charField, if_pos h.1]
  exact if_neg h.2

theorem filterText_raises {maxLength : Nat} {text : String} (h : ¬ FilterText maxLength text) :
    ∃ e, filterText maxLength text = .error e := by
  unfold filterText charField
  by_cases hlength : text.length ≤ maxLength
  · rw [if_pos hlength]
    exact ⟨_, if_pos (not_not.mp fun hnul => h ⟨hlength, hnul⟩)⟩
  · rw [if_neg hlength]
    exact ⟨_, rfl⟩

section ByText

variable {ρ : Type} {column : ρ → Option String} {text : String} {rows : List ρ}

theorem getByText_single (h : FilterText 200 text ∧ (rows.filter fun row => column row = some text).length ≤ 1) :
    getByText column text rows = .ok (rows.filter fun row => column row = some text).head? := by
  unfold getByText
  rw [filterText_ok h.1]
  exact getOrNone_single h.2

theorem getByText_raises
    (h : ¬ (FilterText 200 text ∧ (rows.filter fun row => column row = some text).length ≤ 1)) :
    ∃ e, getByText column text rows = .error e := by
  unfold getByText
  by_cases htext : FilterText 200 text
  · rw [filterText_ok htext]
    exact ⟨_, getOrNone_several fun hone => h ⟨htext, hone⟩⟩
  · obtain ⟨e, he⟩ := filterText_raises htext
    rw [he]
    exact ⟨e, rfl⟩

end ByText

theorem exec_customerById {db : Tables} (h : db.Constraints) (i m : UUID) : exec (.customerById i m) db =
    .ok ((db.customers.find? fun c => c.id = i ∧ c.merchantId = m).map Customer.load, db) := by
  have hone : (db.customers.filter fun c => decide (c.id = i ∧ c.merchantId = m)).length ≤ 1 :=
    length_filter_key h.customer_pk fun c hc => (of_decide_eq_true hc).1
  refine answered_ok_iff.mpr ⟨?_, rfl⟩
  rw [getOrNone_single hone, List.head?_filter]
  rfl

/-- A customer that a query finds is a stored row in memory. -/
theorem found_row {db db' : Tables} {p : Customer Cents → Bool} {c : Customer Decimal}
    (h : answered ((getOrNone p db.customers).map (Option.map Customer.load)) db = .ok (some c, db')) :
    ∃ row ∈ db.customers, c = row.load := by
  obtain ⟨row, hrow, -, hload⟩ := getOrNone_load (answered_ok_iff.mp h).1
  exact ⟨row, hrow, hload⟩

/-- The owner of a stored account. -/
theorem owner_row {db : Tables} (h : db.Constraints) {a : DedicatedAccount}
    (ha : a ∈ db.dedicatedAccounts) : ∃ row ∈ db.customers, row.id = a.customerId ∧
      exec (.accountFetchCustomer a) db = .ok (some row.load, db) := by
  obtain ⟨row, hrow, hid⟩ := h.account_fk a ha
  refine ⟨row, hrow, hid, ?_⟩
  have hfind := find?_of_mem h.customer_pk hrow
  rw [hid] at hfind
  show Except.ok ((db.customers.find? (·.id = a.customerId)).map Customer.load, db) = _
  rw [hfind]
  rfl

end LdbBackend
