import LdbBackend.Nightly.Examines

/-!
# What a completed run of the nightly job means

The job raises where a lookup matches several transactions, so when it ends, every item it looked up
stands for at most one transaction (`StandsFor`), or for none (`Unknown`). By induction on the items,
with the log growing: the missing ones are counted, each of the others appends one log (`MatchLogged`),
and the rest of the tables stays as it was (`withLogs`).
-/

namespace LdbBackend

open Fixed Effects Table

/-! ## What an item stands for -/

/-- The transaction carries the id of the item, which is truthy. -/
def HasId (item : Json) (t : Transaction) : Prop :=
  (itemId item).truthy = true ∧ t.nombaTransactionId = some (itemId item).text

/-- The transaction carries the reference of the item, which is truthy. -/
def HasRef (item : Json) (t : Transaction) : Prop :=
  (itemRef item).truthy = true ∧ t.merchantTxRef = some (itemRef item).text

instance (item : Json) (t : Transaction) : Decidable (HasId item t) := instDecidableAnd

instance (item : Json) (t : Transaction) : Decidable (HasRef item t) := instDecidableAnd

/-- No transaction carries the id or the reference of the item. -/
def Unknown (rows : List Transaction) (item : Json) : Prop :=
  (∀ t ∈ rows, ¬ HasId item t) ∧ ∀ t ∈ rows, ¬ HasRef item t

instance (rows : List Transaction) (item : Json) : Decidable (Unknown rows item) := instDecidableAnd

/-- The one transaction with the id of the item; where there is none, the one with its reference. -/
inductive StandsFor (rows : List Transaction) (item : Json) (t : Transaction) : Prop
  | byId (mem : t ∈ rows) (named : HasId item t) (only : ∀ t' ∈ rows, HasId item t' → t' = t)
  | byRef (none : ∀ t' ∈ rows, ¬ HasId item t') (mem : t ∈ rows) (named : HasRef item t)
      (only : ∀ t' ∈ rows, HasRef item t' → t' = t)

theorem StandsFor.not_unknown {rows : List Transaction} {item : Json} {t : Transaction}
    (h : StandsFor rows item t) : ¬ Unknown rows item := by
  rintro ⟨hid, href⟩
  cases h with
  | byId mem named _ => exact hid t mem named
  | byRef _ mem named _ => exact href t mem named

section Lookup

variable {db : Tables} {item : Json}

/-- The rows of a filter with at most one. -/
theorem filter_single {ρ : Type} {q : ρ → Bool} {rows : List ρ} (h : (rows.filter q).length ≤ 1) :
    ((rows.filter q).head? = none ∧ ∀ r ∈ rows, q r = false) ∨
      ∃ row ∈ rows, (rows.filter q).head? = some row ∧ q row = true ∧ ∀ r ∈ rows, q r = true → r = row := by
  cases hf : rows.filter q with
  | nil =>
    refine .inl ⟨rfl, fun r hr => ?_⟩
    have hnot := List.filter_eq_nil_iff.mp hf r hr
    exact Bool.eq_false_iff.mpr hnot
  | cons row rest =>
    rw [hf, List.length_cons] at h
    have hrest : rest = [] := List.eq_nil_of_length_eq_zero (by omega)
    rw [hrest] at hf ⊢
    obtain ⟨hmem, hrow⟩ : row ∈ rows ∧ q row = true :=
      List.mem_filter.mp (hf ▸ List.mem_singleton_self row)
    refine .inr ⟨row, hmem, rfl, hrow, fun r hr hq => ?_⟩
    have hsame : r ∈ rows.filter q := List.mem_filter.mpr ⟨hr, hq⟩
    rw [hf] at hsame
    exact List.mem_singleton.mp hsame

theorem lookupRef_cases (h : (itemRef item).truthy = true → (db.withTxRef (itemRef item).text).length ≤ 1) :
    (db.lookupRef (itemRef item) = none ∧ ∀ t ∈ db.transactions, ¬ HasRef item t) ∨
      ∃ t ∈ db.transactions, db.lookupRef (itemRef item) = some t ∧ HasRef item t ∧
        ∀ t' ∈ db.transactions, HasRef item t' → t' = t := by
  unfold Tables.lookupRef
  by_cases href : (itemRef item).truthy = true
  · rw [if_pos href]
    rcases filter_single (h href) with ⟨hnone, hall⟩ | ⟨t, hmem, hsome, ht, honly⟩
    · exact .inl ⟨hnone, fun t ht hnamed => of_decide_eq_false (hall t ht) hnamed.2⟩
    · refine .inr ⟨t, hmem, hsome, ⟨href, of_decide_eq_true ht⟩, fun t' ht' hnamed => ?_⟩
      exact honly t' ht' (decide_eq_true hnamed.2)
  · rw [if_neg href]
    exact .inl ⟨rfl, fun t _ hnamed => href hnamed.1⟩

/-- What the lookups of a `Single` item find. -/
theorem Single.lookup_cases (h : Single db item) :
    (db.lookup item = none ∧ Unknown db.transactions item) ∨
      ∃ t, db.lookup item = some t ∧ StandsFor db.transactions item t := by
  have hnoId : (∀ t ∈ db.transactions, ¬ HasId item t) →
      (if (itemId item).truthy then (db.withNombaId (itemId item).text).head? else none) = none →
      ((itemId item).truthy = true → db.withNombaId (itemId item).text = []) →
      (db.lookup item = none ∧ Unknown db.transactions item) ∨
        ∃ t, db.lookup item = some t ∧ StandsFor db.transactions item t := by
    intro hnone hfirst hempty
    have hlookup : db.lookup item = db.lookupRef (itemRef item) := by
      rw [Tables.lookup, hfirst]
      rfl
    rw [hlookup]
    rcases lookupRef_cases fun href => (h.byRef href hempty).2 with ⟨hfound, hall⟩ | ⟨t, hmem, hfound, hnamed, honly⟩
    · exact .inl ⟨hfound, hnone, hall⟩
    · exact .inr ⟨t, hfound, .byRef hnone hmem hnamed honly⟩
  by_cases hid : (itemId item).truthy = true
  · rcases filter_single (h.byId hid).2 with ⟨hnone, hall⟩ | ⟨t, hmem, hsome, ht, honly⟩
    · refine hnoId (fun t ht hnamed => of_decide_eq_false (hall t ht) hnamed.2) ?_ fun _ => ?_
      · rw [if_pos hid]
        exact hnone
      · exact List.head?_eq_none_iff.mp hnone
    · refine .inr ⟨t, ?_, .byId hmem ⟨hid, of_decide_eq_true ht⟩ fun t' ht' hnamed => ?_⟩
      · rw [Tables.lookup, if_pos hid]
        exact congrArg (Option.or · _) hsome
      · exact honly t' ht' (decide_eq_true hnamed.2)
  · exact hnoId (fun t _ hnamed => hid hnamed.1) (if_neg hid) fun htrue => absurd htrue hid

end Lookup

/-! ## The loop -/

/-- One `safety_net_match` for the item, with the amount stored for the transaction it stands for. -/
structure MatchLogged (checkedAt : String) (rows : List Transaction) (item : Json) (l : ReconciliationLog) :
    Prop where
  points : ∃ t, StandsFor rows item t ∧ l.transactionId = t.id ∧ l.expectedAmount = some t.amount ∧
    l.receivedAmount = t.amount
  decision : l.decision = .safetyNetMatch
  details : l.details = .obj [("nomba_transaction_id", itemId item), ("checked_at", .str checkedAt)]

/-- The items that are counted missing. -/
def countedMissing (rows : List Transaction) (item : Json) : Bool :=
  identifies item && decide (Unknown rows item)

/-- The items that are matched. -/
def countedMatched (rows : List Transaction) (item : Json) : Bool :=
  identifies item && !decide (Unknown rows item)

/-- The tables with further logs. -/
def Tables.withLogs (db : Tables) (logs : List ReconciliationLog) : Tables :=
  { db with reconciliationLogs := db.reconciliationLogs ++ logs, clock := db.clock + logs.length }

section Loop

variable {db db' : Tables} {checkedAt : String} {matched missing : Nat} {report : NightlyReport} {item : Json}
  {items : List Json}

theorem log_of_exec {t : Transaction}
    (h : exec (.reconciliationLogCreate (matchLog checkedAt item t)) db = .ok ((), db')) :
    ∃ l, db' = db.withLogs [l] ∧ l.transactionId = t.id ∧ l.expectedAmount = some t.amount ∧
      l.receivedAmount = t.amount ∧ l.decision = .safetyNetMatch ∧
      l.details = .obj [("nomba_transaction_id", itemId item), ("checked_at", .str checkedAt)] := by
  obtain ⟨l, hrow, -, rfl⟩ := createReconciliationLog_ok_iff.mp (written_ok_iff.mp h)
  obtain ⟨expected, received, hexpected, hreceived, rfl⟩ := NewReconciliationLog.row_ok_iff.mp hrow
  have hstored : received = t.amount :=
    Decimal.eq_of_quantize (Decimal.isScaled_ofScaled 2 t.amount) (decimalField_ok_iff.mp hreceived)
  have hfield : decimalField (Decimal.ofScaled 2 t.amount) = .ok received := hreceived
  have hsome : (decimalField (Decimal.ofScaled 2 t.amount)).map some = .ok expected := hexpected
  rw [hfield] at hsome
  cases hsome
  exact ⟨_, rfl, rfl, congrArg some hstored, hstored, rfl, rfl⟩

/-- One item of a run that goes on to its end. -/
theorem completed_step (hrun : Prog.run exec (reconcileItems checkedAt matched missing (item :: items)) db =
      (.ok report, db')) :
    ∃ logs, Prog.run exec (reconcileItems checkedAt (matched + logs.length)
        (missing + if countedMissing db.transactions item then 1 else 0) items) (db.withLogs logs) =
          (.ok report, db') ∧
      List.Forall₂ (MatchLogged checkedAt db.transactions) ([item].filter (countedMatched db.transactions)) logs := by
  have hnone : db.withLogs [] = db := by simp [Tables.withLogs]
  cases hnamed : identifies item with
  | false =>
    rw [reconcileItems_skip hnamed] at hrun
    refine ⟨[], ?_, ?_⟩
    · rw [hnone, countedMissing, hnamed]
      exact hrun
    · simp [countedMatched, hnamed]
  | true =>
    rw [reconcileItems_examine hnamed] at hrun
    by_cases hsingle : Single db item
    · rw [Prog.run_bind_ok exec hsingle.finds] at hrun
      rcases hsingle.lookup_cases with ⟨hfound, hunknown⟩ | ⟨t, hfound, hstands⟩
      · rw [hfound] at hrun
        refine ⟨[], ?_, ?_⟩
        · rw [hnone, countedMissing, hnamed, decide_eq_true hunknown]
          exact hrun
        · simp [countedMatched, hunknown]
      · rw [hfound] at hrun
        have hknown := hstands.not_unknown
        have hdetails : (matchLog checkedAt item t).details.storable = true := by
          by_contra hbad
          rw [examine_unstorable hbad] at hrun
          cases hrun
        rw [examine_storable hdetails] at hrun
        cases he : exec (.reconciliationLogCreate (matchLog checkedAt item t)) db with
        | error e =>
          rw [Prog.run_perform_error exec he] at hrun
          cases hrun
        | ok x =>
          rw [Prog.run_perform_ok exec he] at hrun
          obtain ⟨l, hdb, hpoints, hexpected, hreceived, hdecision, hdetails⟩ := log_of_exec he
          refine ⟨[l], ?_, ?_⟩
          · rw [← hdb, countedMissing, hnamed, decide_eq_false hknown]
            exact hrun
          · rw [List.filter_cons_of_pos (by simp [countedMatched, hnamed, hknown])]
            exact .cons ⟨⟨t, hstands, hpoints, hexpected, hreceived⟩, hdecision, hdetails⟩ .nil
    · obtain ⟨e, he⟩ := findTransaction_raises hsingle
      rw [Prog.run_bind_error exec he] at hrun
      cases hrun

/-- The whole loop: what it counts, and the logs it appends in the order of the items. -/
theorem completed_loop (hrun : Prog.run exec (reconcileItems checkedAt matched missing items) db =
      (.ok report, db')) : ∃ logs, db' = db.withLogs logs ∧
      report = .completed (matched + logs.length)
        (missing + items.countP (countedMissing db.transactions)) ∧
      List.Forall₂ (MatchLogged checkedAt db.transactions) (items.filter (countedMatched db.transactions))
        logs := by
  induction items generalizing db matched missing with
  | nil =>
    cases hrun
    exact ⟨[], by simp [Tables.withLogs], rfl, .nil⟩
  | cons item items ih =>
    obtain ⟨first, hrest, hfirst⟩ := completed_step hrun
    obtain ⟨logs, hdb, hreport, hlogs⟩ := ih hrest
    refine ⟨first ++ logs, ?_, ?_, ?_⟩
    · rw [hdb]
      simp [Tables.withLogs, Nat.add_assoc]
    · have hcounted : missing + (if countedMissing db.transactions item then 1 else 0) +
          (items.countP (countedMissing db.transactions)) =
            missing + (item :: items).countP (countedMissing db.transactions) := by
        rw [List.countP_cons]
        omega
      rw [hreport, List.length_append, ← Nat.add_assoc, ← hcounted]
      rfl
    · rw [← List.singleton_append, List.filter_append]
      exact List.rel_append hfirst hlogs

end Loop

/-- For all tables and all items: when the job ends, it has counted as missing the items that name a
transfer unknown to the tables, and has logged a match for each of the others that name one. Nothing else
has changed. -/
theorem nightly_completed (db : Tables) (checkedAt : String) (data : Json) (items : List Json)
    (report : NightlyReport) (hitems : nombaItems data = .ok (.arr items))
    (hrun : (Prog.run exec (runNightlyReconciliation checkedAt (.success data)) db).1 = .ok report) :
    ∃ logs, stateAfter (runNightlyReconciliation checkedAt (.success data)) db = db.withLogs logs ∧
      report = .completed logs.length (items.countP (countedMissing db.transactions)) ∧
      List.Forall₂ (MatchLogged checkedAt db.transactions) (items.filter (countedMatched db.transactions))
        logs := by
  have hloop : Prog.run exec (reconcileItems checkedAt 0 0 items) db = (.ok report,
      stateAfter (runNightlyReconciliation checkedAt (.success data)) db) := by
    rw [← run_nightly hitems]
    exact Prod.ext hrun rfl
  obtain ⟨logs, hdb, hreport, hlogs⟩ := completed_loop hloop
  refine ⟨logs, hdb, ?_, hlogs⟩
  rw [hreport, Nat.zero_add, Nat.zero_add]

/-- An item with a stored id, one with an unknown id and a stored reference, one that is unknown, and one
that names nothing. -/
def fourItems : List Json :=
  [.obj [("id", .str "T1")], .obj [("transactionId", .str "T3"), ("merchantTxRef", .str "REF")],
    .obj [("merchantTxRef", .str "other")], .obj [("amount", .int 5)]]

theorem nightly_completed_for_four : ∃ logs, stateAfter (runNightlyReconciliation "now"
      (.success (.arr fourItems))) (History.run (paidTwice (transferPayment "R1" "T1")
        .null)).tables = (History.run (paidTwice (transferPayment "R1" "T1") .null)).tables.withLogs logs ∧
      logs.length = 2 := by
  obtain ⟨logs, hdb, hreport, -⟩ := nightly_completed
    (History.run (paidTwice (transferPayment "R1" "T1") .null)).tables "now" (.arr fourItems) fourItems
    (.completed 2 1) rfl (by decide +kernel)
  injection hreport with hmatched _
  exact ⟨logs, hdb, hmatched.symm⟩

end LdbBackend
