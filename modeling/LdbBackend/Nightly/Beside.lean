import LdbBackend.Concurrent.Lengthens
import LdbBackend.Nightly.Completed

/-!
# The nightly run beside everything else

The run looks up one item after the other while deliveries and other calls go on. A transaction that was there
when the run began is found; one that is not there when it has ended was not found. So the number of missing
items lies between those of the ledger at its end and at its beginning, and no item is left out of the count.
-/

namespace LdbBackend

open Fixed Effects Table

/-- The report of a run over `items` that found the transactions `rows` when it began and leaves `rows'`. -/
def Reports (rows rows' : List Transaction) (items : List Json) (report : NightlyReport) : Prop :=
  ∃ matched missing, report = .completed matched missing ∧ matched + missing = items.countP identifies ∧
    items.countP (countedMissing rows') ≤ missing ∧ missing ≤ items.countP (countedMissing rows)

section Unknown

variable {rows rows' : List Transaction} {item : Json} {items : List Json} {t : Transaction}

theorem Unknown.earlier (h : Unknown rows' item) (hsub : rows ⊆ rows') : Unknown rows item :=
  ⟨fun t ht => h.1 t (hsub ht), fun t ht => h.2 t (hsub ht)⟩

theorem countedMissing_earlier (hsub : rows ⊆ rows') :
    items.countP (countedMissing rows') ≤ items.countP (countedMissing rows) := by
  refine List.countP_mono_left fun item _ h => ?_
  simp only [countedMissing, Bool.and_eq_true, decide_eq_true_eq] at h ⊢
  exact ⟨h.1, h.2.earlier hsub⟩

theorem not_unknown (ht : t ∈ rows) (h : HasId item t ∨ HasRef item t) : ¬ Unknown rows item := by
  rintro ⟨hid, href⟩
  exact h.elim (hid t ht) (href t ht)

end Unknown

section Find

variable {db db' : Tables} {text : String} {r : Option Transaction} {item : Json}

/-- A lookup that answers has found the first of the rows. -/
theorem answered_byNombaId (h : exec (.transactionByNombaId text) db = .ok (r, db')) :
    db' = db ∧ r = (db.withNombaId text).head? := by
  by_cases hone : FilterText 200 text ∧ (db.withNombaId text).length ≤ 1
  · rw [exec_byNombaId hone] at h
    cases h
    exact ⟨rfl, rfl⟩
  · obtain ⟨e, he⟩ := exec_byNombaId_raises hone
    cases he.symm.trans h

theorem answered_byTxRef (h : exec (.transactionByMerchantTxRef text) db = .ok (r, db')) :
    db' = db ∧ r = (db.withTxRef text).head? := by
  by_cases hone : FilterText 200 text ∧ (db.withTxRef text).length ≤ 1
  · rw [exec_byTxRef hone] at h
    cases h
    exact ⟨rfl, rfl⟩
  · obtain ⟨e, he⟩ := exec_byTxRef_raises hone
    cases he.symm.trans h

theorem head_of_filter {ρ : Type} (q : ρ → Bool) (rows : List ρ) :
    ((rows.filter q).head? = none ∧ ∀ row ∈ rows, ¬ q row = true) ∨
      ∃ row ∈ rows, (rows.filter q).head? = some row ∧ q row = true := by
  cases hrows : rows.filter q with
  | nil => exact .inl ⟨rfl, List.filter_eq_nil_iff.mp hrows⟩
  | cons row rest =>
    have hmem : row ∈ rows.filter q := hrows ▸ List.mem_cons_self
    exact .inr ⟨row, (List.mem_filter.mp hmem).1, rfl, (List.mem_filter.mp hmem).2⟩

/-- What was found for an item, from the ledger `rows` on. -/
structure FoundFrom (rows : List Transaction) (item : Json) (found : Option Transaction) (s : Tables) : Prop where
  grown : rows ⊆ s.transactions
  none : found = none → Unknown rows item
  some : ∀ t, found = some t → ¬ Unknown s.transactions item

/-- The second lookup of an item, where the first has found nothing. -/
theorem lookupByTxRef_under {rows : List Transaction} (hgrown : rows ⊆ db.transactions)
    (hnoId : ∀ t ∈ rows, ¬ HasId item t) :
    (lookupByTxRef (itemRef item)).Under exec Lengthens (FoundFrom rows item) db := by
  unfold lookupByTxRef
  split_ifs with href
  · intro s₁ hs₁ r s₂ he s' hs'
    obtain ⟨rfl, rfl⟩ := answered_byTxRef he
    have hrows : rows ⊆ s₂.transactions := fun t ht => hs₁.transactions.subset (hgrown ht)
    have hgoes : s₂.transactions ⊆ s'.transactions := hs'.transactions.subset
    rcases head_of_filter (fun t : Transaction => decide (t.merchantTxRef = some (itemRef item).text))
      s₂.transactions with ⟨hnone, hall⟩ | ⟨t, ht, hsome, hnamed⟩
    · refine ⟨List.Subset.trans hrows hgoes, fun _ => ⟨hnoId, fun t ht hhas => ?_⟩, fun t hfound => ?_⟩
      · exact hall t (hrows ht) (decide_eq_true hhas.2)
      · cases hnone.symm.trans hfound
    · refine ⟨List.Subset.trans hrows hgoes, fun hfound => ?_, fun _ _ => ?_⟩
      · cases hsome.symm.trans hfound
      · exact not_unknown (hgoes ht) (.inr ⟨href, of_decide_eq_true hnamed⟩)
  · intro s' hs'
    refine ⟨fun t ht => hs'.transactions.subset (hgrown ht), fun _ => ⟨hnoId, fun t _ hhas => ?_⟩, nofun⟩
    exact href hhas.1

/-- The two lookups of an item, with whatever happens before, between and after them. -/
theorem findTransaction_under (item : Json) (db : Tables) :
    (findTransaction (itemId item) (itemRef item)).Under exec Lengthens (FoundFrom db.transactions item) db := by
  cases hid : (itemId item).truthy with
  | false =>
    rw [findTransaction_byRef hid]
    exact lookupByTxRef_under (List.Subset.refl _) fun t _ hhas => absurd (hid.symm.trans hhas.1) (by simp)
  | true =>
    rw [findTransaction_byId hid]
    intro s₁ hs₁ r s₂ he
    obtain ⟨rfl, rfl⟩ := answered_byNombaId he
    have hrows : db.transactions ⊆ s₂.transactions := hs₁.transactions.subset
    rcases head_of_filter (fun t : Transaction => decide (t.nombaTransactionId = some (itemId item).text))
      s₂.transactions with ⟨hnone, hall⟩ | ⟨t, ht, hsome, hnamed⟩
    · rw [show (s₂.withNombaId (itemId item).text).head? = none from hnone]
      exact lookupByTxRef_under hrows fun t ht hhas => hall t (hrows ht) (decide_eq_true hhas.2)
    · rw [show (s₂.withNombaId (itemId item).text).head? = some t from hsome]
      intro s' hs'
      have hgoes : s₂.transactions ⊆ s'.transactions := hs'.transactions.subset
      refine ⟨List.Subset.trans hrows hgoes, nofun, fun _ _ => ?_⟩
      exact not_unknown (hgoes ht) (.inl ⟨hid, of_decide_eq_true hnamed⟩)

end Find

/-- The report of the items that are left, from counts so far. -/
def ReportsFrom (matched missing : Nat) (rows : List Transaction) (items : List Json) (report : NightlyReport)
    (s : Tables) : Prop :=
  rows ⊆ s.transactions ∧ ∃ m n, report = .completed (matched + m) (missing + n) ∧
    m + n = items.countP identifies ∧ items.countP (countedMissing s.transactions) ≤ n ∧
    n ≤ items.countP (countedMissing rows)

/-- The loop over the items. -/
theorem reconcileItems_under (checkedAt : String) (items : List Json) (matched missing : Nat) (db : Tables) :
    (reconcileItems checkedAt matched missing items).Under exec Lengthens
      (ReportsFrom matched missing db.transactions items) db := by
  induction items generalizing matched missing db with
  | nil => exact fun s' hs' => ⟨hs'.transactions.subset, 0, 0, by simp⟩
  | cons item items ih =>
    cases hnamed : identifies item with
    | false =>
      rw [reconcileItems_skip hnamed]
      refine (ih matched missing db).imp fun report s' h => ?_
      simpa [ReportsFrom, countedMissing, hnamed] using h
    | true =>
      rw [reconcileItems_examine hnamed]
      refine (findTransaction_under item db).bind fun found s' hfound => ?_
      cases found with
      | none =>
        have hunknown := hfound.none rfl
        apply (ih matched (missing + 1) s').imp
        rintro report s'' ⟨hgoes, m, n, hreport, hcount, hlow, hhigh⟩
        have hearlier : items.countP (countedMissing s'.transactions) ≤ items.countP (countedMissing db.transactions) :=
          countedMissing_earlier hfound.grown
        refine ⟨List.Subset.trans hfound.grown hgoes, m, n + 1, ?_, ?_, ?_, ?_⟩
        · rw [hreport, Nat.add_right_comm, Nat.add_assoc missing]
        · rw [List.countP_cons_of_pos hnamed]
          omega
        · rw [List.countP_cons]
          split_ifs <;> omega
        · rw [List.countP_cons_of_pos (by simp [countedMissing, hnamed, hunknown])]
          omega
      | some tx =>
        have hknown := hfound.some tx rfl
        by_cases hdetails : (matchLog checkedAt item tx).details.storable = true
        swap
        · rw [examine_unstorable hdetails]
          trivial
        rw [examine_storable hdetails]
        intro s₁ hs₁ r s₂ he
        have hlogged : s₂.transactions = s₁.transactions := (exec_frame he).transactions rfl
        apply (ih (matched + 1) missing s₂).imp
        rintro report s'' ⟨hgoes, m, n, hreport, hcount, hlow, hhigh⟩
        have hrest : s'.transactions ⊆ s₂.transactions := hlogged ▸ hs₁.transactions.subset
        have hrows := List.Subset.trans hfound.grown hrest
        have hearlier : items.countP (countedMissing s₂.transactions) ≤ items.countP (countedMissing db.transactions) :=
          countedMissing_earlier hrows
        refine ⟨List.Subset.trans hrows hgoes, m + 1, n, ?_, ?_, ?_, ?_⟩
        · rw [hreport, Nat.add_right_comm, Nat.add_assoc matched]
        · rw [List.countP_cons_of_pos hnamed]
          omega
        · have hstill : ¬ Unknown s''.transactions item := fun h => hknown (h.earlier (List.Subset.trans hrest hgoes))
          rw [List.countP_cons_of_neg (by simp [countedMissing, hstill])]
          exact hlow
        · rw [List.countP_cons]
          omega

theorem nightly_eq {checkedAt : String} {data : Json} {items : List Json}
    (hitems : nombaItems data = .ok (.arr items)) :
    runNightlyReconciliation checkedAt (.success data) =
      .perform .nombaListTransactions fun _ => reconcileItems checkedAt 0 0 items := by
  unfold runNightlyReconciliation
  simp only [Prog.op_bind, hitems, Prog.lift_ok, Prog.pure_bind']

/-- A run that has begun. -/
theorem nightly_under {checkedAt : String} {data : Json} {items : List Json}
    (hitems : nombaItems data = .ok (.arr items)) (db : Tables) :
    (Call.nightly checkedAt (.success data)).handler.Under exec Lengthens
      (fun reply s => ∀ report, reply = .nightly report →
        Reports db.transactions s.transactions items report) db := by
  refine Prog.Under.map (Q := ReportsFrom 0 0 db.transactions items) ?_ ?_
  · rw [nightly_eq hitems]
    intro s₁ hs₁ r s₂ he
    cases he
    refine (reconcileItems_under checkedAt items 0 0 s₁).imp ?_
    rintro report s' ⟨hgoes, m, n, hreport, hcount, hlow, hhigh⟩
    have hrows : db.transactions ⊆ s₁.transactions := hs₁.transactions.subset
    exact ⟨List.Subset.trans hrows hgoes, m, n, hreport, hcount, hlow, hhigh.trans (countedMissing_earlier hrows)⟩
  · rintro report s' ⟨-, m, n, hreport, hrest⟩ _ hsame
    cases hsame
    refine ⟨m, n, ?_, hrest⟩
    rw [hreport, Nat.zero_add, Nat.zero_add]

/-- What a run has returned. -/
def reportOf : Prog Op Res Err Reply → Option NightlyReport
  | .pure (.nightly report) => some report
  | _ => none

theorem reportOf_some {p : Prog Op Res Err Reply} {report : NightlyReport} (h : reportOf p = some report) :
    p = .pure (.nightly report) := by
  cases p with
  | pure reply => cases reply <;> cases h; rfl
  | raise e => cases h
  | perform o k => cases h

/-- For every run of the nightly job, begun at any moment of any schedule of the calls of the service whose
compensations all meet customers without payments: when it has returned, each item that names a transfer is
counted once, at least those are missing that the ledger does not know now, and at most those that it did not
know when the run began. -/
theorem nightly_counts_between (db : Database) (earlier later : List (Move Call Err)) (checkedAt : String)
    (data : Json) (items : List Json) (hitems : nombaItems data = .ok (.arr items))
    (hmeets : Meets compensating db.tables (earlier ++ .start (.nightly checkedAt (.success data)) :: later))
    (P P' : Pool Op Res Err Reply Tables Call) (hplay : play db.tables earlier = some P)
    (hlater : P.play exec Call.handler (.start (.nightly checkedAt (.success data)) :: later) = some P')
    (report : NightlyReport) (hreport : (P'.threads[P.threads.length]?.bind fun t => reportOf t.2) = some report) :
    Reports P.state.transactions P'.state.transactions items report := by
  obtain ⟨hmeets₁, hmeets₂⟩ := Pool.Meets.append hmeets hplay
  obtain ⟨hunderway, -, -⟩ := underway_play (underway_init db) hmeets₁ hplay
  set call : Call := .nightly checkedAt (.success data) with hcall
  set P₀ : Pool Op Res Err Reply Tables Call := { P with threads := P.threads ++ [(call, call.handler)] }
  have hstart : P.play exec Call.handler [.start call] = some P₀ := rfl
  have hmeets₃ : P.Meets exec Call.handler compensating [.start call] := ⟨hmeets₂.1, fun _ _ => trivial⟩
  obtain ⟨hbegun, -, -⟩ := underway_play hunderway hmeets₃ hstart
  have hbears : P₀.Bears exec Lengthens (fun reply s => ∀ report, reply = .nightly report →
      Reports P.state.transactions s.transactions items report) P.threads.length call :=
    ⟨call.handler, List.getElem?_concat_length, nightly_under hitems P.state⟩
  obtain ⟨-, -, hend⟩ := underway_play hbegun (hmeets₂.2 P₀ rfl) hlater
  have hended := hend _ _ _ hbears
  have ⟨p, hp, _⟩ := hended
  rw [hp] at hreport
  have hvalue : p = .pure (.nightly report) := reportOf_some hreport
  rw [hvalue] at hp
  exact hended.returned hp report rfl

/-- One transfer is recorded. -/
def oneTransfer : Database := (provisioned none).after (receive quiet (transferPayment "R1" "T1"))

/-- The recorded transfer, one that comes in meanwhile, and one that does not. -/
def threeItems : List Json := [.obj [("id", .str "T1")], .obj [("id", .str "T2")], .obj [("id", .str "T3")]]

/-- The second transfer is delivered when the run has logged the first one. -/
def deliveredMeanwhile : List (Move Call Err) :=
  List.replicate 3 (.advance 0) ++ .start (.receive quiet (transferPayment "R2" "T2")) ::
    List.replicate 5 (.advance 1) ++ List.replicate 3 (.advance 0)

theorem meanwhile_meets : Meets compensating oneTransfer.tables
    (.start (.nightly "now" (.success (.arr threeItems))) :: deliveredMeanwhile) := by
  refine meets_of_check_accounts (fun c hc => ?_) (by decide +kernel)
  have hstarted : c ∈ [.nightly "now" (.success (.arr threeItems)), .receive quiet (transferPayment "R2" "T2")] := hc
  simp only [List.mem_cons, List.not_mem_nil, or_false] at hstarted
  rcases hstarted with rfl | rfl <;> trivial

theorem nightly_counts_between_meanwhile : ∃ P', play oneTransfer.tables
      (.start (.nightly "now" (.success (.arr threeItems))) :: deliveredMeanwhile) = some P' ∧
    Reports oneTransfer.tables.transactions P'.state.transactions threeItems (.completed 2 1) := by
  have hrun : ((play oneTransfer.tables
      (.start (.nightly "now" (.success (.arr threeItems))) :: deliveredMeanwhile)).bind fun P =>
        P.threads[0]?.bind fun t => reportOf t.2) = some (.completed 2 1) := by
    decide +kernel
  obtain ⟨P', hP', hreport⟩ := Option.bind_eq_some_iff.mp hrun
  exact ⟨P', hP', nightly_counts_between oneTransfer [] deliveredMeanwhile "now" (.arr threeItems) threeItems rfl
    meanwhile_meets _ P' rfl hP' _ hreport⟩

end LdbBackend
