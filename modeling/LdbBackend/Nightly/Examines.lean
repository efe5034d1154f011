import LdbBackend.Nightly.Items
import LdbBackend.History.CreditedOnce
import LdbBackend.History.Ledger

/-!
# What the nightly job examines

A stored amount fits the column of a log (`AmountsFit`), so in every history a match can be logged as soon
as its details can. The only other exit before the end of the list is a lookup: by a text that its column
cannot hold, or matching several transactions. The job therefore accounts for every item that names a
transfer exactly when all items are `Examinable`.
-/

namespace LdbBackend

open Fixed Effects Table

/-! ## Stored amounts -/

/-- Every stored amount fits the digits of the context. -/
def AmountsFit (db : Tables) : Prop := ∀ t ∈ db.transactions, t.amount.natAbs < 10 ^ prec

theorem AmountsFit.of_same {db db' : Tables} (h : AmountsFit db) (htx : db'.transactions = db.transactions) :
    AmountsFit db' := by
  unfold AmountsFit
  rw [htx]
  exact h

theorem amountsFit_step {h : History} (hc : h.tables.Constraints) (hr : AmountsFit h.tables) (s : Step) :
    AmountsFit (h.step s).tables := by
  cases hs : s.delivers h.tables with
  | none =>
    have hkeep : ∀ {db'}, MaintainsAll h.tables db' → db'.Constraints ∧ AmountsFit db' := by
      intro db' hm
      induction hm with
      | refl => exact ⟨hc, hr⟩
      | tail _ hstep ih => exact ⟨hstep.constraints ih.1, ih.2.of_same (hstep.upkeep ih.1).transactions⟩
    exact (hkeep (step_maintains hc hs).1).2
  | some payload =>
    obtain ⟨env, o, hd, hstep⟩ := step_delivers hc hs
    rw [hstep]
    rcases hd.posted with ⟨hun, -⟩ | ⟨requestId, p, t, -, hposted⟩
    · exact hr.of_same hun.transactions
    · obtain ⟨status, hrow⟩ := hposted.row
      have hnew : t.amount.natAbs < 10 ^ prec :=
        Decimal.quantize_lt (decimalField_ok_iff.mp (NewTransaction.row_ok hrow).amount)
      show AmountsFit o.state
      unfold AmountsFit
      rw [hposted.transactions]
      exact forall_mem_append hr hnew

theorem amountsFit_run (steps : List Step) : AmountsFit (History.run steps).tables := by
  have hrun : ∀ h : History, h.tables.Constraints → AmountsFit h.tables →
      AmountsFit (steps.foldl History.step h).tables := by
    induction steps with
    | nil => exact fun h _ hr => hr
    | cons s steps ih => exact fun h hc hr => ih _ (step_constraints hc) (amountsFit_step hc hr s)
  exact hrun .start Database.empty.constraints fun t ht => absurd ht List.not_mem_nil

/-! ## The loop -/

section Loop

variable {db : Tables} {checkedAt : String} {matched missing : Nat} {item : Json} {items : List Json}

theorem matchLog_storable_iff {tx : Transaction} (hchecked : '\x00' ∉ checkedAt.toList) :
    (matchLog checkedAt item tx).details.storable = true ↔ (itemId item).storable = true := by
  simp [matchLog, Json.storable, Json.storableFields, hchecked]

theorem exec_matchLog (hr : AmountsFit db) {tx : Transaction} (htx : tx ∈ db.transactions) :
    ∃ l, exec (.reconciliationLogCreate (matchLog checkedAt item tx)) db = .ok ((), db.logged l) := by
  have hamount : decimalField (Decimal.ofScaled 2 tx.amount) = .ok tx.amount :=
    decimalField_ok_iff.mpr (Decimal.quantize_exact (Decimal.isScaled_ofScaled 2 tx.amount) (hr tx htx))
  refine ⟨⟨db.clock, tx.id, some tx.amount, tx.amount, .safetyNetMatch,
    (matchLog checkedAt item tx).details⟩, ?_⟩
  refine written_ok_iff.mpr (createReconciliationLog_ok_iff.mpr ⟨_, ?_, ⟨tx, htx, rfl⟩, rfl⟩)
  refine NewReconciliationLog.row_ok_iff.mpr ⟨some tx.amount, tx.amount, ?_, hamount, rfl⟩
  show (decimalField (Decimal.ofScaled 2 tx.amount)).map some = _
  rw [hamount]
  rfl

theorem Single.of_same {db' : Tables} (h : Single db item) (htx : db'.transactions = db.transactions) :
    Single db' item := by
  constructor
  · intro hid
    unfold Tables.withNombaId
    rw [htx]
    exact h.byId hid
  · intro href hnone
    unfold Tables.withNombaId at hnone
    unfold Tables.withTxRef
    rw [htx] at hnone ⊢
    exact h.byRef href hnone

theorem Examinable.of_same {db' : Tables} (h : Examinable db item) (htx : db'.transactions = db.transactions) :
    Examinable db' item :=
  ⟨h.toSingle.of_same htx, fun hfound => h.logged (lookup_congr htx ▸ hfound)⟩

/-- An item that names nothing is not looked up. -/
theorem examinable_of_unnamed (h : identifies item = false) : Examinable db item := by
  rw [identifies_eq, Bool.or_eq_false_iff] at h
  refine ⟨⟨fun hid => absurd (h.1.symm.trans hid) (by simp), fun href => absurd (h.2.symm.trans href) (by simp)⟩,
    fun hfound => ?_⟩
  simp [Tables.lookup, Tables.lookupRef, h.1, h.2] at hfound

/-- One item: the job goes on with it counted, in the same transactions. -/
theorem reconcileItems_next (hchecked : '\x00' ∉ checkedAt.toList) (hr : AmountsFit db) (h : Examinable db item) :
    ∃ matched' missing' db', Prog.run exec (reconcileItems checkedAt matched missing (item :: items)) db =
        Prog.run exec (reconcileItems checkedAt matched' missing' items) db' ∧
      matched' + missing' = matched + missing + (if identifies item then 1 else 0) ∧
      db'.transactions = db.transactions := by
  cases hnamed : identifies item with
  | false =>
    rw [reconcileItems_skip hnamed]
    exact ⟨matched, missing, db, rfl, rfl, rfl⟩
  | true =>
    rw [reconcileItems_examine hnamed, Prog.run_bind_ok exec h.finds]
    cases hfound : db.lookup item with
    | none => exact ⟨matched, missing + 1, db, rfl, (Nat.add_assoc _ _ _).symm, rfl⟩
    | some tx =>
      have hdetails : (matchLog checkedAt item tx).details.storable = true :=
        (matchLog_storable_iff hchecked).mpr (h.logged (by rw [hfound]; rfl))
      obtain ⟨l, hl⟩ : ∃ l, exec (.reconciliationLogCreate (matchLog checkedAt item tx)) db =
        .ok ((), db.logged l) := exec_matchLog hr (lookup_mem hfound)
      rw [examine_storable hdetails]
      refine ⟨matched + 1, missing, db.logged l, Prog.run_perform_ok exec hl, ?_, rfl⟩
      simp only [if_true]
      omega

/-- An item that cannot be examined stops the job. -/
theorem reconcileItems_stops (hchecked : '\x00' ∉ checkedAt.toList) (h : ¬ Examinable db item) :
    ∃ e, Prog.run exec (reconcileItems checkedAt matched missing (item :: items)) db = (.error e, db) := by
  cases hnamed : identifies item with
  | false => exact absurd (examinable_of_unnamed hnamed) h
  | true =>
    rw [reconcileItems_examine hnamed]
    by_cases hsingle : Single db item
    · rw [Prog.run_bind_ok exec hsingle.finds]
      cases hfound : db.lookup item with
      | none => exact absurd ⟨hsingle, fun hsome => by simp [hfound] at hsome⟩ h
      | some tx =>
        have hdetails : ¬ (matchLog checkedAt item tx).details.storable = true := fun hstorable =>
          h ⟨hsingle, fun _ => (matchLog_storable_iff hchecked).mp hstorable⟩
        rw [examine_unstorable hdetails]
        exact ⟨_, rfl⟩
    · obtain ⟨e, he⟩ := findTransaction_raises hsingle
      exact ⟨e, Prog.run_bind_error exec he⟩

theorem reconcileItems_completes (hchecked : '\x00' ∉ checkedAt.toList) (hr : AmountsFit db)
    (h : ∀ item ∈ items, Examinable db item) :
    ∃ matched' missing' db', Prog.run exec (reconcileItems checkedAt matched missing items) db =
        (.ok (.completed matched' missing'), db') ∧
      matched' + missing' = matched + missing + items.countP identifies := by
  induction items generalizing db matched missing with
  | nil => exact ⟨matched, missing, db, rfl, rfl⟩
  | cons item items ih =>
    obtain ⟨matched₁, missing₁, db₁, hrun, hcount, htx⟩ :=
      reconcileItems_next hchecked hr (h item List.mem_cons_self)
    obtain ⟨matched', missing', db', hrest, hcount'⟩ := ih (hr.of_same htx)
      fun item' hitem => (h item' (List.mem_cons_of_mem _ hitem)).of_same htx
    refine ⟨matched', missing', db', hrun.trans hrest, ?_⟩
    rw [List.countP_cons]
    omega

theorem reconcileItems_raises (hchecked : '\x00' ∉ checkedAt.toList) (hr : AmountsFit db)
    (hsome : ∃ item ∈ items, ¬ Examinable db item) :
    ∃ e db', Prog.run exec (reconcileItems checkedAt matched missing items) db = (.error e, db') := by
  induction items generalizing db matched missing with
  | nil =>
    obtain ⟨item, hitem, -⟩ := hsome
    exact absurd hitem List.not_mem_nil
  | cons item items ih =>
    by_cases hitem : Examinable db item
    · obtain ⟨matched₁, missing₁, db₁, hrun, -, htx⟩ := reconcileItems_next hchecked hr hitem
      obtain ⟨item', hmem, hbad⟩ := hsome
      have hlater : item' ∈ items := by
        rcases List.mem_cons.mp hmem with rfl | hmem
        · exact absurd hitem hbad
        · exact hmem
      obtain ⟨e, db', hrest⟩ := ih (hr.of_same htx) ⟨item', hlater, fun h => hbad (h.of_same htx.symm)⟩
      exact ⟨e, db', hrun.trans hrest⟩
    · obtain ⟨e, he⟩ := @reconcileItems_stops db checkedAt matched missing item items hchecked hitem
      exact ⟨e, db, he⟩

end Loop

/-! ## The whole job -/

theorem run_nightly {data : Json} {items : List Json} (hitems : nombaItems data = .ok (.arr items))
    (checkedAt : String) (db : Tables) :
    Prog.run exec (runNightlyReconciliation checkedAt (.success data)) db =
      Prog.run exec (reconcileItems checkedAt 0 0 items) db := by
  have he : exec .nombaListTransactions db = .ok ((), db) := rfl
  unfold runNightlyReconciliation
  simp only [Prog.op_bind, Prog.run_perform_ok exec he, hitems, Prog.lift_ok, Prog.pure_bind']

/-- The job ends, and its two counters account for every item that names a transfer. -/
def ExaminesAll (checkedAt : String) (data : Json) (items : List Json) (db : Tables) : Prop :=
  ∃ matched missing, (Prog.run exec (runNightlyReconciliation checkedAt (.success data)) db).1 =
    .ok (.completed matched missing) ∧ matched + missing = items.countP identifies

/-- In every history and for all items, the job examines every item exactly when it can look up each of them
and log what it matches. The text of the current time has no U+0000. -/
theorem nightly_examines_all_iff (steps : List Step) (checkedAt : String) (hchecked : '\x00' ∉ checkedAt.toList)
    (data : Json) (items : List Json) (hitems : nombaItems data = .ok (.arr items)) :
    ExaminesAll checkedAt data items (History.run steps).tables ↔
      ∀ item ∈ items, Examinable (History.run steps).tables item := by
  have hr := amountsFit_run steps
  unfold ExaminesAll
  rw [run_nightly hitems]
  constructor
  · rintro ⟨matched, missing, hrun, -⟩ item hitem
    by_contra hbad
    obtain ⟨e, db', hraise⟩ : ∃ e db', Prog.run exec (reconcileItems checkedAt 0 0 items)
        (History.run steps).tables = (.error e, db') := reconcileItems_raises hchecked hr ⟨item, hitem, hbad⟩
    rw [hraise] at hrun
    cases hrun
  · intro hall
    obtain ⟨matched, missing, db', hrun, hcount⟩ : ∃ matched missing db',
        Prog.run exec (reconcileItems checkedAt 0 0 items) (History.run steps).tables =
          (.ok (.completed matched missing), db') ∧ matched + missing = 0 + 0 + items.countP identifies :=
      reconcileItems_completes hchecked hr hall
    refine ⟨matched, missing, by rw [hrun], ?_⟩
    omega

/-- One customer is provisioned and paid twice. -/
def paidTwice (first second : Json) : List Step :=
  [.call (.create ⟨"cust-1", "Ada", none, none, none, []⟩ 7
      (.success (.obj [("accountNumber", .str "9901")]))),
    .call (.receive quiet first), .call (.receive quiet second)]

/-- Items with ids of two transfers that are stored, one that is not, and one that is no object. -/
theorem nightly_examines_three_items :
    ExaminesAll "now" (.arr [.obj [("id", .str "T1")], .obj [("transactionId", .str "T2")], .null,
        .obj [("transactionId", .str "T3")]])
      [.obj [("id", .str "T1")], .obj [("transactionId", .str "T2")], .null,
        .obj [("transactionId", .str "T3")]]
      (History.run (paidTwice (transferPayment "R1" "T1") (transferPayment "R2" "T2"))).tables := by
  refine (nightly_examines_all_iff _ _ (by decide) _ _ rfl).mpr ?_
  intro item hitem
  have hids : (itemRef item).truthy = false ∧ (itemId item).storable = true ∧ FilterText 200 (itemId item).text ∧
      ((History.run (paidTwice (transferPayment "R1" "T1") (transferPayment "R2" "T2"))).tables.withNombaId
        (itemId item).text).length ≤ 1 := by
    unfold FilterText
    revert item
    decide +kernel
  exact ⟨⟨fun _ => hids.2.2, fun href => absurd (hids.1.symm.trans href) (by simp)⟩, fun _ => hids.2.1⟩

/-- A transfer that was announced under two request ids stops the job. -/
theorem nightly_stops_at_double : ¬ ∀ (steps : List Step) (checkedAt : String) (data : Json)
    (items : List Json), nombaItems data = .ok (.arr items) →
    ExaminesAll checkedAt data items (History.run steps).tables := by
  intro hclaim
  obtain ⟨matched, missing, hrun, -⟩ := hclaim
    (paidTwice (transferPayment "R1" "T1") (transferPayment "R2" "T1")) "now"
    (.arr [.obj [("transactionId", .str "T1")]]) [.obj [("transactionId", .str "T1")]] rfl
  have hraise : (Prog.run exec (runNightlyReconciliation "now"
      (.success (.arr [.obj [("transactionId", .str "T1")]])))
      (History.run (paidTwice (transferPayment "R1" "T1") (transferPayment "R2" "T1"))).tables).1.isOk =
        false := by
    decide +kernel
  rw [hrun] at hraise
  cases hraise

end LdbBackend
