import LdbBackend.Nightly.Examines
import LdbBackend.Delivery.Stopped
import LdbBackend.Payments.StoredCredit

/-!
# What a match of the nightly job says

The job takes a stored transaction for a processed one, and its stored amount for the one that Nomba
reports. An `Audit` keeps beside the tables by how much each call raised the wallets it saved, so that
it can be said whether a transaction was processed. As long as every delivery gets past the insert of
its transaction (`Whole`), every stored transaction is.
-/

namespace LdbBackend

open Fixed Effects Table

/-! ## Processed transactions -/

/-- The tables, and for every customer saved by the call that inserted a transaction, by how much its
stored wallet grew. -/
structure Audit where
  tables : Tables
  credits : List (UUID × UUID × Cents)

def growth (before after : Tables) (customerId : UUID) : Cents :=
  (after.wallet customerId).getD 0 - (before.wallet customerId).getD 0

namespace Audit

def deliver (h : Audit) (d : Delivery) : Audit :=
  let o := outcomeOf d.handler h.tables
  ⟨o.state, h.credits ++ (Ledger.entries o.events).map fun x => (x.1, x.2, growth h.tables o.state x.2)⟩

def run (h : Audit) (deliveries : List Delivery) : Audit := deliveries.foldl deliver h

end Audit

/-- The amount of the transaction was added to the wallet of its customer, or it has a suspense entry. -/
inductive Processed (h : Audit) (t : Transaction) : Prop
  | credited {a : DedicatedAccount} (mem : a ∈ h.tables.dedicatedAccounts)
      (account : t.dedicatedAccountId = some a.id) (credit : (t.id, a.customerId, t.amount) ∈ h.credits)
  | held (suspense : h.tables.suspenseOf t ≠ [])

/-- The delivery is not stopped between the insert of its transaction and the next write, and the wallet
it saves rounds like the amount. -/
structure Whole (d : Delivery) (db : Tables) : Prop where
  completed : ∀ new t, (outcomeOf d.handler db).events ≠ [⟨.transactionCreate new, t⟩]
  alike : ∀ requestId p account row c, kindOf d.payload = .payment requestId p →
    Credits p db account row → ⟨.customerSave c, ()⟩ ∈ (outcomeOf d.handler db).events →
    RoundsAlike row.walletBalance (p.amount.toRat * 10 ^ 2)

/-- Every delivery of the sequence is whole where it happens. -/
def Audit.Whole (h : Audit) : List Delivery → Prop
  | [] => True
  | d :: deliveries => LdbBackend.Whole d h.tables ∧ (h.deliver d).Whole deliveries

section Deliver

variable {h h' : Audit} {d : Delivery} {t : Transaction} {evs : List (Event Op Res)}

theorem Processed.mono (hp : Processed h t) (haccounts : h'.tables.dedicatedAccounts = h.tables.dedicatedAccounts)
    (hsuspense : ∀ l ∈ h.tables.suspenseLogs, l ∈ h'.tables.suspenseLogs)
    (hcredits : ∀ x ∈ h.credits, x ∈ h'.credits) : Processed h' t := by
  cases hp with
  | credited mem account credit => exact .credited (haccounts ▸ mem) account (hcredits _ credit)
  | held suspense =>
    obtain ⟨l, hl⟩ := List.exists_mem_of_ne_nil _ suspense
    obtain ⟨hmem, hid⟩ := List.mem_filter.mp hl
    refine .held (List.ne_nil_of_mem ?_ (a := l))
    exact List.mem_filter.mpr ⟨hsuspense l hmem, hid⟩

theorem entries_aside (hevs : ∀ ev ∈ evs, ev.1.aside = true) :
    evs.filterMap Ledger.inserted = [] ∧ evs.filterMap Ledger.saved = [] := by
  simp only [List.filterMap_eq_nil_iff]
  constructor
  · rintro ⟨o, r⟩ hev
    have ho := hevs _ hev
    cases o with
    | transactionCreate new => cases ho
    | _ => rfl
  · rintro ⟨o, r⟩ hev
    have ho := hevs _ hev
    cases o with
    | customerSave c => cases ho
    | _ => rfl

/-- The entry of a delivery whose writes are an insert, a save and others aside. -/
theorem entries_credited {new : NewTransaction} {c : Customer Decimal} (hevs : ∀ ev ∈ evs, ev.1.aside = true) :
    Ledger.entries (⟨.transactionCreate new, t⟩ :: ⟨.customerSave c, ()⟩ :: evs) = [(t.id, c.id)] := by
  obtain ⟨hinserted, hsaved⟩ := entries_aside hevs
  show (t.id :: evs.filterMap Ledger.inserted).flatMap
    (fun t => (c.id :: evs.filterMap Ledger.saved).map (t, ·)) = _
  rw [hinserted, hsaved]
  rfl

/-- A saved sum is what the wallet grows by. -/
theorem growth_saved {db db' : Tables} {row saved : Customer Cents} {n : Cents} (hc : db.Constraints)
    (hmem : row ∈ db.customers) (hid : row.id = saved.id)
    (hcustomers : db'.customers = setRow (·.id) saved db.customers)
    (hsum : saved.walletBalance = row.walletBalance + n) : growth db db' row.id = n := by
  have hafter : db'.wallet row.id = some saved.walletBalance := by
    rw [hid]
    exact wallet_setRow ⟨row, hmem, hid⟩ hcustomers
  rw [growth, hafter, wallet_of_mem hc hmem, hsum]
  exact add_sub_cancel_left _ _

theorem processed_deliver (hc : h.tables.Constraints) (hall : ∀ t ∈ h.tables.transactions, Processed h t)
    (hwhole : Whole d h.tables) : ∀ t ∈ (h.deliver d).tables.transactions, Processed (h.deliver d) t := by
  have hleads : Prog.Leads exec (outcomeOf d.handler h.tables).events h.tables (h.deliver d).tables :=
    Prog.leads_outcome (fun _ _ _ _ => exec_unwritten) d.handler h.tables
  have hcredits : (h.deliver d).credits = h.credits ++ (Ledger.entries (outcomeOf d.handler h.tables).events).map
      fun x => (x.1, x.2, growth h.tables (h.deliver d).tables x.2) := rfl
  have hshape := shape_handler hc d
  have halike := hwhole.alike
  have hcompleted := hwhole.completed
  generalize h.deliver d = h' at hleads hcredits ⊢
  generalize (outcomeOf d.handler h.tables).events = evs at hleads hcredits hshape halike hcompleted
  have hold : h'.tables.dedicatedAccounts = h.tables.dedicatedAccounts →
      (∀ l ∈ h.tables.suspenseLogs, l ∈ h'.tables.suspenseLogs) →
      ∀ t ∈ h.tables.transactions, Processed h' t := by
    intro haccounts hsuspense t ht
    refine (hall t ht).mono haccounts hsuspense fun x hx => ?_
    rw [hcredits]
    exact List.mem_append_left _ hx
  cases hshape with
  | aside rest =>
    have hun := leads_aside hleads rest
    rw [hun.transactions]
    exact hold hun.accounts fun l hl => hun.suspenseLogs ▸ hl
  | half new t => exact absurd rfl (hcompleted new t)
  | @credited requestId p account row t status evs kind credit rest =>
    cases hleads with
    | cons hinsert hleads =>
      cases hleads with
      | @cons _ _ _ s _ hsave hleads =>
        have hun := leads_aside hleads rest
        obtain ⟨hrow, -, -, rfl⟩ := createTransaction_ok_iff.mp hinsert
        obtain ⟨target, wallet, -, hwallet, -, rfl⟩ := saveCustomer_ok_iff.mp (written_ok_iff.mp hsave)
        have hr := NewTransaction.row_ok hrow
        rw [hun.transactions]
        refine forall_mem_append (hold hun.accounts fun l hl => hun.suspenseLogs ▸ hl) ?_
        refine .credited (a := account) (hun.accounts ▸ route_mem credit.route) hr.account ?_
        have hround : RoundsAlike row.walletBalance (p.amount.toRat * 10 ^ 2) :=
          halike requestId p account row (p.creditedOwner row) kind credit
            (List.mem_cons_of_mem _ List.mem_cons_self)
        have hsum : wallet = row.walletBalance + t.amount := (credit_alike_iff hr.amount hwallet).mpr hround
        have hgrowth : growth h.tables h'.tables row.id = t.amount :=
          @growth_saved _ _ _ ((p.creditedOwner row).dump target wallet (h.tables.clock + 1)) _ hc credit.mem rfl
            hun.customers hsum
        rw [hcredits, entries_credited rest]
        refine List.mem_append_right _ (List.mem_singleton.mpr ?_)
        rw [← credit.owner, ← hgrowth]
        rfl
  | held new t reason amount rest =>
    cases hleads with
    | cons hinsert hleads =>
      cases hleads with
      | cons hsuspense hleads =>
        have hun := leads_aside hleads rest
        obtain ⟨hrow, -, -, rfl⟩ := createTransaction_ok_iff.mp hinsert
        obtain ⟨n, -, -, rfl⟩ := createSuspenseLog_ok_iff.mp (written_ok_iff.mp hsuspense)
        rw [hun.transactions]
        refine forall_mem_append (hold hun.accounts fun l hl => ?_) ?_
        · rw [hun.suspenseLogs]
          exact List.mem_append_left _ hl
        · refine .held ?_
          unfold Tables.suspenseOf
          rw [hun.suspenseLogs, List.filter_append]
          simp

theorem processed_run (deliveries : List Delivery) (hc : h.tables.Constraints)
    (hall : ∀ t ∈ h.tables.transactions, Processed h t) (hwhole : h.Whole deliveries) :
    ∀ t ∈ (h.run deliveries).tables.transactions, Processed (h.run deliveries) t := by
  induction deliveries generalizing h with
  | nil => exact hall
  | cons d deliveries ih =>
    exact ih (run_constraints d.handler hc) (processed_deliver hc hall hwhole.1) hwhole.2

end Deliver

/-! ## The logs of the job -/

/-- The loop goes on over further items with the counters it has reached. -/
def resume (checkedAt : String) (items : List Json) : NightlyReport → Handler NightlyReport
  | .completed matched missing => reconcileItems checkedAt matched missing items
  | .skipped => .pure .skipped

/-- Running over `items`, the job comes to `item` and logs `new` there. -/
def LogsFor (checkedAt : String) (db : Tables) (items : List Json) (item : Json)
    (new : NewReconciliationLog) : Prop :=
  ∃ before after matched missing db', items = before ++ item :: after ∧
    Prog.run exec (reconcileItems checkedAt 0 0 before) db = (.ok (.completed matched missing), db') ∧
    ⟨.reconciliationLogCreate new, ()⟩ ∈ (outcomeOf (reconcileItems checkedAt matched missing [item]) db').events

section Logs

variable {checkedAt : String} {matched missing : Nat} {item : Json} {items before : List Json}
  {db db' : Tables} {new : NewReconciliationLog}

theorem reconcileItems_append : reconcileItems checkedAt matched missing (before ++ items) =
    reconcileItems checkedAt matched missing before >>= resume checkedAt items := by
  induction before generalizing matched missing with
  | nil => rfl
  | cons item before ih =>
    rw [List.cons_append]
    cases hnamed : identifies item with
    | false => rw [reconcileItems_skip hnamed, reconcileItems_skip hnamed, ih]
    | true =>
      rw [reconcileItems_examine hnamed, reconcileItems_examine hnamed, Prog.bind_assoc']
      congr 1
      funext found
      cases found with
      | none => exact ih
      | some tx =>
        by_cases hdetails : (matchLog checkedAt item tx).details.storable = true
        · rw [examine_storable hdetails, examine_storable hdetails]
          show Prog.perform _ _ = Prog.perform _ _
          congr 1
          funext _
          exact ih
        · rw [examine_unstorable hdetails, examine_unstorable hdetails]
          rfl

theorem findTransaction_queries (nombaTxId merchantTxRef : Json) :
    (findTransaction nombaTxId merchantTxRef).All (·.isWrite = false) := by
  have href : (lookupByTxRef merchantTxRef).All (·.isWrite = false) := by
    unfold lookupByTxRef
    split_ifs
    · exact ⟨rfl, fun _ => trivial⟩
    · trivial
  cases hid : nombaTxId.truthy with
  | false => exact findTransaction_byRef hid ▸ href
  | true =>
    rw [findTransaction_byId hid]
    refine ⟨rfl, fun byId => ?_⟩
    cases byId with
    | none => exact href
    | some tx => trivial

/-- The only log of one item is the one of the transaction it matches. -/
theorem log_of_item (hlog : ⟨.reconciliationLogCreate new, ()⟩ ∈
      (outcomeOf (reconcileItems checkedAt matched missing [item]) db).events) :
    ∃ tx, db.lookup item = some tx ∧ new = matchLog checkedAt item tx := by
  cases hnamed : identifies item with
  | false =>
    rw [reconcileItems_skip hnamed] at hlog
    exact absurd hlog List.not_mem_nil
  | true =>
    rw [reconcileItems_examine hnamed] at hlog
    have hreads := outcome_reads (findTransaction_queries (itemId item) (itemRef item)) db
    by_cases hsingle : Single db item
    · rw [hsingle.finds] at hreads
      rw [outcome_then hreads] at hlog
      cases hfound : db.lookup item with
      | none =>
        rw [hfound] at hlog
        exact absurd hlog List.not_mem_nil
      | some tx =>
        rw [hfound] at hlog
        refine ⟨tx, rfl, ?_⟩
        by_cases hdetails : (matchLog checkedAt item tx).details.storable = true
        · rw [examine_storable hdetails] at hlog
          cases he : exec (.reconciliationLogCreate (matchLog checkedAt item tx)) db with
          | error e =>
            rw [outcome_refused he] at hlog
            exact absurd hlog List.not_mem_nil
          | ok x =>
            rw [outcome_write he rfl] at hlog
            have hone := List.mem_singleton.mp hlog
            injection hone with hop
            injection hop
        · rw [examine_unstorable hdetails] at hlog
          exact absurd hlog List.not_mem_nil
    · obtain ⟨e, he⟩ := findTransaction_raises hsingle
      rw [he] at hreads
      rw [outcome_stop hreads] at hlog
      exact absurd hlog List.not_mem_nil

theorem log_of_match (hfit : AmountsFit db) (hsingle : Single db item) {tx : Transaction}
    (hfound : db.lookup item = some tx) (hdetails : (matchLog checkedAt item tx).details.storable = true) : ⟨.reconciliationLogCreate (matchLog checkedAt item tx), ()⟩ ∈
      (outcomeOf (reconcileItems checkedAt matched missing [item]) db).events := by
  cases hnamed : identifies item with
  | false =>
    rw [identifies_eq, Bool.or_eq_false_iff] at hnamed
    rw [Tables.lookup, Tables.lookupRef, hnamed.1, hnamed.2] at hfound
    cases hfound
  | true =>
    have hreads := outcome_reads (findTransaction_queries (itemId item) (itemRef item)) db
    rw [hsingle.finds, hfound] at hreads
    obtain ⟨l, hl⟩ : ∃ l, exec (.reconciliationLogCreate (matchLog checkedAt item tx)) db =
      .ok ((), db.logged l) := exec_matchLog hfit (lookup_mem hfound)
    rw [reconcileItems_examine hnamed, outcome_then hreads, examine_storable hdetails, outcome_write hl rfl]
    exact List.mem_singleton_self _

theorem reconcileItems_transactions :
    (stateAfter (reconcileItems checkedAt matched missing items) db).transactions = db.transactions := by
  refine Prog.run_ops_invariant Op.Nightly (fun s => s.transactions = db.transactions)
    (fun o s r s' ho hs he => ?_) db (Prog.ops_all (reconcileItems_all checkedAt items matched missing) db) rfl
  cases hq : o.isQuery with
  | true => exact exec_query hq he ▸ hs
  | false =>
    cases o with
    | reconciliationLogCreate new =>
      obtain ⟨l, -, -, rfl⟩ := createReconciliationLog_ok_iff.mp (written_ok_iff.mp he)
      exact hs
    | _ => cases hq.symm.trans ho

theorem logsFor_of_rest {after : List Json} (hrun : Prog.run exec (reconcileItems checkedAt 0 0 before) db =
      (.ok (.completed matched missing), db')) (hlog : ⟨.reconciliationLogCreate new, ()⟩ ∈
        (outcomeOf (reconcileItems checkedAt matched missing after) db').events) :
    ∃ item ∈ after, LogsFor checkedAt db (before ++ after) item new := by
  induction after generalizing before matched missing db' with
  | nil => exact absurd hlog List.not_mem_nil
  | cons item after ih =>
    have happend : reconcileItems checkedAt matched missing (item :: after) =
        reconcileItems checkedAt matched missing [item] >>= resume checkedAt after :=
      @reconcileItems_append checkedAt matched missing after [item]
    have hhere : ⟨.reconciliationLogCreate new, ()⟩ ∈
        (outcomeOf (reconcileItems checkedAt matched missing [item]) db').events →
        ∃ item' ∈ item :: after, LogsFor checkedAt db (before ++ item :: after) item' new := fun hmem =>
      ⟨item, List.mem_cons_self, before, after, matched, missing, db', rfl, hrun, hmem⟩
    rw [happend] at hlog
    cases hone : outcomeOf (reconcileItems checkedAt matched missing [item]) db' with
    | mk result db'' evs =>
      rw [hone] at hhere
      cases result with
      | error e =>
        rw [outcome_stop hone] at hlog
        exact hhere hlog
      | ok report =>
        rw [outcome_then hone] at hlog
        rcases List.mem_append.mp hlog with hmem | hlater
        · exact hhere hmem
        · cases report with
          | skipped => exact absurd hlater List.not_mem_nil
          | completed matched' missing' =>
            have hstep : Prog.run exec (reconcileItems checkedAt matched missing [item]) db' =
                (.ok (.completed matched' missing'), db'') :=
              Prod.ext (congrArg Outcome.result hone) (congrArg Outcome.state hone)
            have hnext : Prog.run exec (reconcileItems checkedAt 0 0 (before ++ [item])) db =
                (.ok (.completed matched' missing'), db'') := by
              rw [reconcileItems_append, Prog.run_bind_ok exec hrun]
              exact hstep
            obtain ⟨item', hitem, hfor⟩ := ih hnext hlater
            rw [List.append_assoc] at hfor
            exact ⟨item', List.mem_cons_of_mem _ hitem, hfor⟩

/-- Every log of the job is for an item. -/
theorem logsFor_of_event {data : Json} (hitems : nombaItems data = .ok (.arr items))
    (hlog : ⟨.reconciliationLogCreate new, ()⟩ ∈
      (outcomeOf (runNightlyReconciliation checkedAt (.success data)) db).events) :
    ∃ item ∈ items, LogsFor checkedAt db items item new := by
  have hfetch : exec .nombaListTransactions db = .ok ((), db) := rfl
  have hjob : outcomeOf (runNightlyReconciliation checkedAt (.success data)) db =
      outcomeOf (reconcileItems checkedAt 0 0 items) db := by
    unfold runNightlyReconciliation
    rw [Prog.op_bind, outcome_query hfetch rfl]
    simp only [hitems, Prog.lift_ok, Prog.pure_bind']
  rw [hjob] at hlog
  exact @logsFor_of_rest checkedAt 0 0 [] db db new items rfl hlog

end Logs

/-! ## Soundness of a match -/

/-- Every item reports the stored amount of the transaction it matches. -/
def ReportsStored (reported : Json → Option ℚ) (db : Tables) (items : List Json) : Prop :=
  ∀ item ∈ items, ∀ tx, db.lookup item = some tx → reported item = some ((tx.amount : ℚ) / 10 ^ 2)

/-- What a log of a match says is so. -/
structure SoundMatch (reported : Json → Option ℚ) (h : Audit) (item : Json) (new : NewReconciliationLog) :
    Prop where
  processed : Processed h new.transaction
  amount : reported item = some new.receivedAmount.toRat

/-- In every run of whole deliveries and for items that report the stored amounts, each log of the job is
for an item, and what it says is so. -/
theorem safety_net_match_sound (db : Database) (credits : List (UUID × UUID × Cents))
    (hstart : ∀ t ∈ db.tables.transactions, Processed ⟨db.tables, credits⟩ t) (deliveries : List Delivery)
    (hwhole : Audit.Whole ⟨db.tables, credits⟩ deliveries) (reported : Json → Option ℚ)
    (checkedAt : String) (data : Json) (items : List Json) (hitems : nombaItems data = .ok (.arr items))
    (hreported : ReportsStored reported (Audit.run ⟨db.tables, credits⟩ deliveries).tables items) :
    (∀ new, ⟨.reconciliationLogCreate new, ()⟩ ∈ (outcomeOf
          (runNightlyReconciliation checkedAt (.success data))
          (Audit.run ⟨db.tables, credits⟩ deliveries).tables).events →
        ∃ item ∈ items, LogsFor checkedAt (Audit.run ⟨db.tables, credits⟩ deliveries).tables items item new) ∧
      ∀ item new, LogsFor checkedAt (Audit.run ⟨db.tables, credits⟩ deliveries).tables items item new →
        SoundMatch reported (Audit.run ⟨db.tables, credits⟩ deliveries) item new := by
  refine ⟨fun new hlog => logsFor_of_event hitems hlog, ?_⟩
  rintro item new ⟨before, after, matched, missing, db', rfl, hrun, hlog⟩
  obtain ⟨tx, hfound, rfl⟩ := log_of_item hlog
  have hkept : db'.transactions = (Audit.run ⟨db.tables, credits⟩ deliveries).tables.transactions := by
    have hstate : stateAfter (reconcileItems checkedAt 0 0 before)
        (Audit.run ⟨db.tables, credits⟩ deliveries).tables = db' := congrArg Prod.snd hrun
    rw [← hstate]
    exact reconcileItems_transactions
  rw [lookup_congr hkept] at hfound
  refine ⟨processed_run deliveries db.constraints hstart hwhole tx (lookup_mem hfound), ?_⟩
  rw [hreported item (by simp) tx hfound]
  exact congrArg some (Decimal.toRat_ofScaled 2 tx.amount).symm

/-- Nomba reports the amount of a transfer as `amount`. -/
def reportedAmount (item : Json) : Option ℚ :=
  match itemKey item "amount" with
  | .int n => some n
  | .float d => some d.toRat
  | _ => none

/-- The delivery of five, stopped or not. -/
def transferDelivery (stop : Option (Err × Nat)) : Delivery := ⟨quiet, transferPayment "R1" "T1", stop⟩

def transferItem : Json := .obj [("transactionId", .str "T1"), ("amount", .int 5)]

theorem transferDelivery_whole : Whole (transferDelivery none) (provisioned none).tables := by
  constructor
  · intro new t hone
    have hlength : (outcomeOf (transferDelivery none).handler (provisioned none).tables).events.length = 4 := by
      decide +kernel
    rw [hone] at hlength
    cases hlength
  · intro requestId p account row c hkind hcredit _
    have hempty : ∀ row ∈ (provisioned none).tables.customers, row.walletBalance = 0 := by decide +kernel
    obtain ⟨p', hkind', hamount⟩ : ∃ p', kindOf (transferPayment "R1" "T1") = .payment (.str "R1") p' ∧
        p'.amount = ⟨false, 5, 0⟩ := ⟨_, rfl, rfl⟩
    have hsame : Kind.payment (.str "R1") p' = .payment requestId p := hkind'.symm.trans hkind
    injection hsame with _ hp
    subst hp
    have hwallet : numericColumn (p'.walletAfter row) = .ok 500 := by
      rw [Payment.walletAfter, hempty row hcredit.mem, hamount]
      decide +kernel
    refine (credit_alike_iff (n := 500) (hamount ▸ by decide +kernel) hwallet).mp ?_
    rw [hempty row hcredit.mem]
    rfl

/-- Where the transfer is stored once, the job logs a match for its item. -/
theorem logsFor_transferItem {db : Tables} (hfit : AmountsFit db)
    (hids : db.transactions.map (·.nombaTransactionId) = [some "T1"]) :
    ∃ tx, db.transactions = [tx] ∧ db.lookup transferItem = some tx ∧
      LogsFor "now" db [transferItem] transferItem (matchLog "now" transferItem tx) := by
  obtain ⟨tx, hone, hid⟩ := List.map_eq_singleton_iff.mp hids
  have hrows : db.withNombaId (itemId transferItem).text = [tx] := by
    have htext : (itemId transferItem).text = "T1" := by decide
    rw [htext, Tables.withNombaId, hone]
    simp [hid]
  have href : (itemRef transferItem).truthy = false := by decide
  have hsingle : Single db transferItem :=
    ⟨fun _ => ⟨⟨by decide, by decide⟩, hrows ▸ le_rfl⟩, fun htrue => absurd (href.symm.trans htrue) (by simp)⟩
  have hfound : db.lookup transferItem = some tx := by
    have htruthy : (itemId transferItem).truthy = true := by decide
    rw [Tables.lookup, htruthy, hrows]
    rfl
  exact ⟨tx, hone, hfound, [], [], 0, 0, db, rfl, rfl, log_of_match hfit hsingle hfound rfl⟩

/-- After the whole delivery, what the match of its item says is so. -/
theorem safety_net_match_sound_for_five : ∃ new, SoundMatch reportedAmount
    (Audit.run ⟨(provisioned none).tables, []⟩ [transferDelivery none]) transferItem new := by
  set h := Audit.run ⟨(provisioned none).tables, []⟩ [transferDelivery none]
  have hempty : (provisioned none).tables.transactions = [] := rfl
  have hamounts : ∀ t ∈ h.tables.transactions, t.amount = 500 := by decide +kernel
  have hfit : AmountsFit h.tables := by
    intro t ht
    rw [hamounts t ht]
    decide
  obtain ⟨tx, hone, hfound, hfor⟩ := logsFor_transferItem hfit (by decide +kernel)
  have hreported : ReportsStored reportedAmount h.tables [transferItem] := by
    intro item hitem tx' hfound'
    rw [List.mem_singleton.mp hitem] at hfound' ⊢
    have hvalue : reportedAmount transferItem = some ((5 : ℤ) : ℚ) := rfl
    rw [hamounts tx' (lookup_mem hfound'), hvalue]
    norm_num
  have hsound := safety_net_match_sound (provisioned none) [] (fun t ht => absurd (hempty ▸ ht) List.not_mem_nil)
    [transferDelivery none] ⟨transferDelivery_whole, trivial⟩ reportedAmount "now" (.arr [transferItem])
    [transferItem] rfl hreported
  exact ⟨_, hsound.2 _ _ hfor⟩

/-- A delivery that fails at the save of the wallet leaves a transaction that the job takes for
processed. -/
theorem unfunded_transaction_matched : ¬ ∀ db : Database, db.tables.transactions = [] →
    ∀ (deliveries : List Delivery) (reported : Json → Option ℚ) (checkedAt : String) (data : Json)
      (items : List Json), nombaItems data = .ok (.arr items) → ∀ item new,
      LogsFor checkedAt (Audit.run ⟨db.tables, []⟩ deliveries).tables items item new →
      SoundMatch reported (Audit.run ⟨db.tables, []⟩ deliveries) item new := by
  intro hclaim
  set h := Audit.run ⟨(provisioned none).tables, []⟩ [transferDelivery (some (.dataError, 4))] with hrun
  have hfit : AmountsFit h.tables := by
    unfold AmountsFit
    decide +kernel
  obtain ⟨tx, hone, -, hfor⟩ := logsFor_transferItem hfit (by decide +kernel)
  have hsound := hclaim (provisioned none) rfl [transferDelivery (some (.dataError, 4))] reportedAmount "now"
    (.arr [transferItem]) [transferItem] rfl _ _ hfor
  have hcredits : h.credits = [] := by decide +kernel
  have hsuspense : h.tables.suspenseLogs = [] := by decide +kernel
  cases hsound.processed with
  | credited mem account credit =>
    rw [← hrun, hcredits] at credit
    exact absurd credit List.not_mem_nil
  | held suspense =>
    refine suspense ?_
    unfold Tables.suspenseOf
    rw [← hrun, hsuspense]
    rfl

end LdbBackend
