import LdbBackend.Store.Writes
import Mathlib.Tactic.Push

/-!
# The schema holds in every state

Every statement keeps `Tables.Constraints` (`exec_constraints`), so a handler run alone does, and so
does any interleaving. Lookups and calls that leave the process change nothing (`exec_query`), and a
lookup by a unique column is a search.
-/

namespace LdbBackend

open Fixed Effects Table

/-- Statements that leave the tables alone. -/
def Op.isQuery : Op → Bool
  | .customerCreate _ | .customerSave _ | .customerDelete _ | .accountCreate _ | .accountSave _
  | .transactionCreate _ | .suspenseLogCreate _ _ _ | .reconciliationLogCreate _
  | .processedCreate _ _ | .registrationCreate _ _ _ _ => false
  | _ => true

/-- Statements that insert a transaction. -/
def Op.inserts : Op → Bool
  | .transactionCreate _ => true
  | _ => false

theorem exec_query {o : Op} {db db' : Tables} {r : Res o} (ho : o.isQuery = true)
    (h : exec o db = .ok (r, db')) : db' = db := by
  cases o with
  | customerByExternalId m x => exact (answered_ok_iff.mp h).2
  | customerById i m => exact (answered_ok_iff.mp h).2
  | accountByNumber n => exact (answered_ok_iff.mp h).2
  | accountByRef x => exact (answered_ok_iff.mp h).2
  | transactionByNombaId i => exact (answered_ok_iff.mp h).2
  | transactionByMerchantTxRef x => exact (answered_ok_iff.mp h).2
  | customerCreate _ | customerSave _ | customerDelete _ | accountCreate _ | accountSave _
  | transactionCreate _ | suspenseLogCreate _ _ _ | reconciliationLogCreate _ | processedCreate _ _
  | registrationCreate _ _ _ _ => cases ho
  | accountFirstByRef _ | accountFirstByCustomer _ | accountFetchCustomer _ | processedExists _
  | registrationsActive _ | emitPaymentReceived _ | post _ _ _ | nombaCreateAccount _ _
  | nombaUpdateAccountName _ _ | nombaListTransactions => cases h; rfl

inductive TableName
  | customers
  | dedicatedAccounts
  | transactions
  | suspenseLogs
  | reconciliationLogs
  | processedWebhookEvents

def Op.writes : Op → TableName → Bool
  | .customerCreate _, .customers | .customerSave _, .customers => true
  | .accountCreate _, .dedicatedAccounts | .accountSave _, .dedicatedAccounts => true
  | .transactionCreate _, .transactions => true
  | .suspenseLogCreate _ _ _, .suspenseLogs => true
  | .reconciliationLogCreate _, .reconciliationLogs => true
  | .processedCreate _ _, .processedWebhookEvents => true
  | .customerDelete _, .processedWebhookEvents => false
  | .customerDelete _, _ => true
  | _, _ => false

/-- A statement changes the tables it writes and no other. -/
structure Frame (o : Op) (db db' : Tables) : Prop where
  customers : o.writes .customers = false → db'.customers = db.customers
  dedicatedAccounts : o.writes .dedicatedAccounts = false →
    db'.dedicatedAccounts = db.dedicatedAccounts
  transactions : o.writes .transactions = false → db'.transactions = db.transactions
  suspenseLogs : o.writes .suspenseLogs = false → db'.suspenseLogs = db.suspenseLogs
  reconciliationLogs : o.writes .reconciliationLogs = false →
    db'.reconciliationLogs = db.reconciliationLogs
  processedWebhookEvents : o.writes .processedWebhookEvents = false →
    db'.processedWebhookEvents = db.processedWebhookEvents

theorem exec_frame {o : Op} {db db' : Tables} {r : Res o} (h : exec o db = .ok (r, db')) :
    Frame o db db' := by
  cases hq : o.isQuery with
  | true =>
    rw [exec_query hq h]
    constructor <;> exact fun _ => rfl
  | false =>
    cases o with
    | customerCreate new =>
      obtain ⟨row, -, -, -, rfl⟩ := createCustomer_ok_iff.mp h
      constructor <;> intro hw <;> first | rfl | cases hw
    | customerSave c =>
      obtain ⟨_, _, -, -, -, rfl⟩ := saveCustomer_ok_iff.mp (written_ok_iff.mp h)
      constructor <;> intro hw <;> first | rfl | cases hw
    | customerDelete id =>
      cases h
      constructor <;> intro hw <;> first | rfl | cases hw
    | accountCreate new =>
      obtain ⟨-, -, -, rfl⟩ := createAccount_ok_iff.mp h
      constructor <;> intro hw <;> first | rfl | cases hw
    | accountSave a =>
      obtain ⟨-, rfl⟩ := saveAccount_ok_iff.mp (written_ok_iff.mp h)
      constructor <;> intro hw <;> first | rfl | cases hw
    | transactionCreate new =>
      obtain ⟨-, -, -, rfl⟩ := createTransaction_ok_iff.mp h
      constructor <;> intro hw <;> first | rfl | cases hw
    | suspenseLogCreate t reason d =>
      obtain ⟨_, -, -, rfl⟩ := createSuspenseLog_ok_iff.mp (written_ok_iff.mp h)
      constructor <;> intro hw <;> first | rfl | cases hw
    | reconciliationLogCreate new =>
      obtain ⟨_, -, -, rfl⟩ := createReconciliationLog_ok_iff.mp (written_ok_iff.mp h)
      constructor <;> intro hw <;> first | rfl | cases hw
    | processedCreate x e =>
      obtain ⟨-, -, -, rfl⟩ := createProcessedEvent_ok_iff.mp (written_ok_iff.mp h)
      constructor <;> intro hw <;> first | rfl | cases hw
    | registrationCreate m url secret events =>
      rw [createRegistration_ok h]
      constructor <;> exact fun _ => rfl
    | customerByExternalId _ _ | customerById _ _ | accountByNumber _ | accountByRef _
    | accountFirstByRef _ | accountFirstByCustomer _ | accountFetchCustomer _
    | transactionByNombaId _ | transactionByMerchantTxRef _ | processedExists _
    | registrationsActive _ | emitPaymentReceived _ | post _ _ _ | nombaCreateAccount _ _
    | nombaUpdateAccountName _ _ | nombaListTransactions => cases hq

/-- Saving a customer writes the wallet of its object to its row, and no other. -/
theorem saveCustomer_wallets {db db' : Tables} {c : Customer Decimal}
    (h : db.saveCustomer c = .ok db') : ∃ wallet, numericColumn c.walletBalance = .ok wallet ∧
      ∀ row ∈ db'.customers,
        (row.id = c.id ∧ row.walletBalance = wallet) ∨ (row ∈ db.customers ∧ row.id ≠ c.id) := by
  obtain ⟨target, wallet, -, hwallet, -, rfl⟩ := saveCustomer_ok_iff.mp h
  refine ⟨wallet, hwallet, fun row hrow => ?_⟩
  rcases mem_setRow.mp hrow with ⟨rfl, -⟩ | ⟨hmem, hne⟩
  · exact .inl ⟨rfl, rfl⟩
  · exact .inr ⟨hmem, hne⟩

/-! ## Lookups -/

theorem getOrNone_some {ρ : Type} {p : ρ → Bool} {rows : List ρ} {row : ρ}
    (h : getOrNone p rows = .ok (some row)) : row ∈ rows ∧ p row = true := by
  unfold getOrNone at h
  split at h
  · next r hr => cases h; exact getUnique_some hr
  · cases h

theorem getOrNone_none {ρ : Type} {p : ρ → Bool} {rows : List ρ}
    (h : getOrNone p rows = .ok none) : ∀ row ∈ rows, p row = false := by
  unfold getOrNone at h
  split at h
  · next r hr => cases h; exact getUnique_none hr
  · cases h

/-- A customer that a query answers with is a row that matches, loaded. -/
theorem getOrNone_load {p : Customer Cents → Bool} {rows : List (Customer Cents)} {c : Customer Decimal}
    (h : (getOrNone p rows).map (Option.map Customer.load) = .ok (some c)) :
    ∃ row ∈ rows, p row = true ∧ c = row.load := by
  cases hget : getOrNone p rows with
  | error e => rw [hget] at h; cases h
  | ok found =>
    rw [hget] at h
    obtain ⟨row, rfl, rfl⟩ := Option.map_eq_some_iff.mp (Except.ok.inj h)
    obtain ⟨hrow, hmatch⟩ := getOrNone_some hget
    exact ⟨row, hrow, hmatch, rfl⟩

theorem getOrNone_load_none {p : Customer Cents → Bool} {rows : List (Customer Cents)}
    (h : (getOrNone p rows).map (Option.map Customer.load) = .ok none) :
    ∀ row ∈ rows, p row = false := by
  cases hget : getOrNone p rows with
  | error e => rw [hget] at h; cases h
  | ok found =>
    rw [hget] at h
    rw [Option.map_eq_none_iff.mp (Except.ok.inj h)] at hget
    exact getOrNone_none hget

theorem getOrNone_key {ρ K : Type} [DecidableEq K] {key : ρ → K} {rows : List ρ}
    (hkey : (rows.map key).Nodup) (k : K) :
    getOrNone (fun r => decide (key r = k)) rows = .ok (rows.find? fun r => decide (key r = k)) := by
  unfold getOrNone
  rw [getUnique_key hkey k]

/-! ## Keys -/

theorem nodup_append_singleton {β : Type} {xs : List β} {y : β} (h : xs.Nodup) (hy : y ∉ xs) :
    (xs ++ [y]).Nodup := by
  rw [List.nodup_append]
  refine ⟨h, List.nodup_singleton y, ?_⟩
  intro a ha b hb hab
  rw [List.mem_singleton] at hb
  exact hy (hb ▸ hab ▸ ha)

/-- Appending a row whose key is new keeps the keys of a table distinct. -/
theorem nodup_map_append {ρ K : Type} {key : ρ → K} {rows : List ρ} {row : ρ}
    (h : (rows.map key).Nodup) (hrow : ∀ r ∈ rows, key r ≠ key row) :
    ((rows ++ [row]).map key).Nodup := by
  rw [List.map_append]
  refine nodup_append_singleton h ?_
  rw [List.mem_map]
  rintro ⟨r, hr, heq⟩
  exact hrow r hr heq

theorem nodup_map_filter {ρ K : Type} {key : ρ → K} {rows : List ρ} (p : ρ → Bool)
    (h : (rows.map key).Nodup) : ((rows.filter p).map key).Nodup :=
  h.sublist (List.filter_sublist.map key)

theorem forall_mem_append {ρ : Type} {P : ρ → Prop} {rows : List ρ} {row : ρ}
    (h : ∀ r ∈ rows, P r) (hrow : P row) : ∀ r ∈ rows ++ [row], P r := by
  intro r hr
  rcases List.mem_append.mp hr with hr | hr
  · exact h r hr
  · rw [List.mem_singleton.mp hr]
    exact hrow

theorem ne_of_fresh {i j clock : Nat} (hi : i < clock) (hj : j = clock) : i ≠ j := by omega

theorem lt_tick {i clock : Nat} (hi : i = clock) : i < clock + 1 := by omega

namespace Tables.Constraints

variable {db db' : Tables}

/-- A later clock leaves identifiers older than it. -/
theorem tick (h : db.Constraints) : { db with clock := db.clock + 1 }.Constraints :=
  { h with
    customer_fresh := fun c hc => Nat.lt_succ_of_lt (h.customer_fresh c hc)
    account_fresh := fun a ha => Nat.lt_succ_of_lt (h.account_fresh a ha)
    transaction_fresh := fun t ht => Nat.lt_succ_of_lt (h.transaction_fresh t ht) }

theorem createCustomer (h : db.Constraints) {new : NewCustomer} {c : Customer Decimal}
    (he : db.createCustomer new = .ok (c, db')) : db'.Constraints := by
  obtain ⟨row, hrow, hnew, -, rfl⟩ := createCustomer_ok_iff.mp he
  obtain ⟨hid, -, -, hwallet, htarget⟩ := NewCustomer.row_ok hrow
  have hfresh : ∀ r ∈ db.customers, r.id ≠ row.id := fun r hr =>
    ne_of_fresh (h.customer_fresh r hr) hid
  refine { h.tick with
    customer_pk := nodup_map_append h.customer_pk hfresh
    customer_fresh := forall_mem_append h.tick.customer_fresh (lt_tick hid)
    customer_unique := nodup_map_append h.customer_unique hnew
    customer_columns := forall_mem_append h.customer_columns ⟨?_, ?_⟩
    account_fk := ?_ }
  · rw [hwallet]
    unfold FitsColumn
    decide
  · intro n hn
    rw [hn] at htarget
    rcases mapM_ok_iff.mp htarget with ⟨-, hnone⟩ | ⟨d, m, -, hm, hd⟩
    · cases hnone
    · cases hm
      exact fits_of_decimalField hd
  · intro a ha
    obtain ⟨c, hc, hid⟩ := h.account_fk a ha
    exact ⟨c, List.mem_append_left _ hc, hid⟩

theorem saveCustomer (h : db.Constraints) {c : Customer Decimal}
    (he : db.saveCustomer c = .ok db') : db'.Constraints := by
  obtain ⟨target, wallet, htarget, hwallet, hnodup, rfl⟩ := saveCustomer_ok_iff.mp he
  set row := c.dump target wallet db.clock
  have hkey : (setRow (·.id) row db.customers).map (·.id) = db.customers.map (·.id) := map_key_setRow
  refine { h with
    customer_pk := by show List.Nodup _; rw [hkey]; exact h.customer_pk
    customer_fresh := fun c' hc' => ?_
    customer_unique := hnodup
    customer_columns := fun c' hc' => ?_
    account_fk := fun a ha => ?_ }
  · rcases mem_setRow.mp hc' with ⟨rfl, r, hr, hid⟩ | ⟨hmem, -⟩
    · show row.id < db.clock
      rw [← hid]
      exact h.customer_fresh r hr
    · exact h.customer_fresh c' hmem
  · rcases mem_setRow.mp hc' with ⟨rfl, -⟩ | ⟨hmem, -⟩
    · refine ⟨fits_of_numericColumn hwallet, fun n hn => ?_⟩
      rcases mapM_ok_iff.mp htarget with ⟨-, hnone⟩ | ⟨d, m, -, hm, hd⟩
      · rw [show row.targetAmount = target from rfl, hnone] at hn
        cases hn
      · rw [show row.targetAmount = target from rfl, hm] at hn
        cases hn
        exact fits_of_numericColumn hd
    · exact h.customer_columns c' hmem
  · obtain ⟨c', hc', hid⟩ := h.account_fk a ha
    have hmem : a.customerId ∈ (setRow (·.id) row db.customers).map (·.id) := by
      rw [hkey]
      exact List.mem_map.mpr ⟨c', hc', hid⟩
    exact List.mem_map.mp hmem

theorem createAccount (h : db.Constraints) {new : NewAccount} {a : DedicatedAccount}
    (he : db.createAccount new = .ok (a, db')) : db'.Constraints := by
  obtain ⟨hrow, hnew, hfk, rfl⟩ := createAccount_ok_iff.mp he
  obtain ⟨hid, -⟩ := NewAccount.row_ok hrow
  have hfresh : ∀ b ∈ db.dedicatedAccounts, b.id ≠ a.id := fun b hb =>
    ne_of_fresh (h.account_fresh b hb) hid
  refine { h.tick with
    account_pk := nodup_map_append h.account_pk hfresh
    account_fresh := forall_mem_append h.tick.account_fresh (lt_tick hid)
    account_number := nodup_map_append h.account_number fun b hb => (hnew b hb).1
    account_ref := nodup_map_append h.account_ref fun b hb => (hnew b hb).2
    account_fk := forall_mem_append h.account_fk hfk
    transaction_fk := ?_ }
  intro t ht i hi
  obtain ⟨b, hb, hbi⟩ := h.transaction_fk t ht i hi
  exact ⟨b, List.mem_append_left _ hb, hbi⟩

theorem saveAccount (h : db.Constraints) {a : DedicatedAccount}
    (he : db.saveAccount a = .ok db') : db'.Constraints := by
  obtain ⟨⟨hnumber, href, hfk⟩, rfl⟩ := saveAccount_ok_iff.mp he
  set row : DedicatedAccount := { a with updatedAt := db.clock }
  have hkey : (setRow (·.id) row db.dedicatedAccounts).map (·.id) = db.dedicatedAccounts.map (·.id) :=
    map_key_setRow
  refine { h with
    account_pk := by show List.Nodup _; rw [hkey]; exact h.account_pk
    account_fresh := fun b hb => ?_
    account_number := hnumber
    account_ref := href
    account_fk := hfk
    transaction_fk := fun t ht i hi => ?_ }
  · rcases mem_setRow.mp hb with ⟨rfl, r, hr, hid⟩ | ⟨hmem, -⟩
    · show row.id < db.clock
      rw [← hid]
      exact h.account_fresh r hr
    · exact h.account_fresh b hmem
  · obtain ⟨b, hb, hbi⟩ := h.transaction_fk t ht i hi
    have hmem : i ∈ (setRow (·.id) row db.dedicatedAccounts).map (·.id) := by
      rw [hkey]
      exact List.mem_map.mpr ⟨b, hb, hbi⟩
    exact List.mem_map.mp hmem

theorem createTransaction (h : db.Constraints) {new : NewTransaction} {t : Transaction}
    (he : db.createTransaction new = .ok (t, db')) : db'.Constraints := by
  obtain ⟨hrow, hnew, hfk, rfl⟩ := createTransaction_ok_iff.mp he
  have hr := NewTransaction.row_ok hrow
  have hfresh : ∀ u ∈ db.transactions, u.id ≠ t.id := fun u hu =>
    ne_of_fresh (h.transaction_fresh u hu) hr.id
  exact { h.tick with
    transaction_pk := nodup_map_append h.transaction_pk hfresh
    transaction_fresh := forall_mem_append h.tick.transaction_fresh (lt_tick hr.id)
    transaction_request := nodup_map_append h.transaction_request hnew
    transaction_columns := forall_mem_append h.transaction_columns
      ⟨fits_of_decimalField hr.amount, fits_of_decimalField hr.fee⟩
    transaction_fk := forall_mem_append h.transaction_fk hfk
    suspense_fk := fun l hl => by
      obtain ⟨u, hu, hul⟩ := h.suspense_fk l hl
      exact ⟨u, List.mem_append_left _ hu, hul⟩
    reconciliation_fk := fun l hl => by
      obtain ⟨u, hu, hul⟩ := h.reconciliation_fk l hl
      exact ⟨u, List.mem_append_left _ hu, hul⟩ }

theorem createSuspenseLog (h : db.Constraints) {t : Transaction} {reason : SuspenseReason}
    {d : Decimal} (he : db.createSuspenseLog t reason d = .ok db') : db'.Constraints := by
  obtain ⟨n, -, hfk, rfl⟩ := createSuspenseLog_ok_iff.mp he
  exact { h.tick with suspense_fk := forall_mem_append h.suspense_fk hfk }

theorem createReconciliationLog (h : db.Constraints) {new : NewReconciliationLog}
    (he : db.createReconciliationLog new = .ok db') : db'.Constraints := by
  obtain ⟨l, -, hfk, rfl⟩ := createReconciliationLog_ok_iff.mp he
  exact { h.tick with reconciliation_fk := forall_mem_append h.reconciliation_fk hfk }

theorem createProcessedEvent (h : db.Constraints) {requestId eventType : String}
    (he : db.createProcessedEvent requestId eventType = .ok db') : db'.Constraints := by
  obtain ⟨-, -, hnew, rfl⟩ := createProcessedEvent_ok_iff.mp he
  exact { h.tick with processed_unique := nodup_map_append h.processed_unique hnew }

/-- The cascade removes every row that refers to a removed one. -/
theorem deleteCustomer (h : db.Constraints) (id : UUID) : (db.deleteCustomer id).Constraints := by
  have haccount : ∀ a ∈ (db.deleteCustomer id).dedicatedAccounts, a ∈ db.dedicatedAccounts ∧
      a.customerId ≠ id := fun a ha => by
    simpa [Tables.deleteCustomer] using ha
  have htransaction : ∀ t ∈ (db.deleteCustomer id).transactions, t ∈ db.transactions :=
    fun t ht => (List.mem_filter.mp ht).1
  refine {
    customer_pk := nodup_map_filter _ h.customer_pk
    customer_fresh := fun c hc => h.customer_fresh c (List.mem_filter.mp hc).1
    customer_unique := nodup_map_filter _ h.customer_unique
    customer_columns := fun c hc => h.customer_columns c (List.mem_filter.mp hc).1
    account_pk := nodup_map_filter _ h.account_pk
    account_fresh := fun a ha => h.account_fresh a (haccount a ha).1
    account_number := nodup_map_filter _ h.account_number
    account_ref := nodup_map_filter _ h.account_ref
    account_fk := fun a ha => ?_
    transaction_pk := nodup_map_filter _ h.transaction_pk
    transaction_fresh := fun t ht => h.transaction_fresh t (htransaction t ht)
    transaction_request := nodup_map_filter _ h.transaction_request
    transaction_columns := fun t ht => h.transaction_columns t (htransaction t ht)
    transaction_fk := fun t ht i hi => ?_
    suspense_fk := fun l hl => ?_
    reconciliation_fk := fun l hl => ?_
    processed_unique := h.processed_unique }
  · obtain ⟨hmem, hne⟩ := haccount a ha
    obtain ⟨c, hc, hca⟩ := h.account_fk a hmem
    refine ⟨c, List.mem_filter.mpr ⟨hc, ?_⟩, hca⟩
    rw [hca]
    simpa using hne
  · obtain ⟨hmem, hkept⟩ := List.mem_filter.mp ht
    obtain ⟨a, ha, hai⟩ := h.transaction_fk t hmem i hi
    refine ⟨a, List.mem_filter.mpr ⟨ha, ?_⟩, hai⟩
    simp only [Bool.not_eq_true', List.any_eq_false, Bool.and_eq_true, decide_eq_true_eq,
      not_and] at hkept
    have := fun ho => hkept a ha ho
    rw [hi, hai] at this
    simpa using this
  · obtain ⟨hmem, hkept⟩ := List.mem_filter.mp hl
    obtain ⟨t, ht, htl⟩ := h.suspense_fk l hmem
    refine ⟨t, List.mem_filter.mpr ⟨ht, ?_⟩, htl⟩
    simp only [Bool.not_eq_true', List.any_eq_false, Bool.and_eq_true, decide_eq_true_eq,
      not_and] at hkept ⊢
    exact fun a ha ho hta => hkept t ht (List.any_eq_true.mpr ⟨a, ha, by simp [ho, hta]⟩) htl
  · obtain ⟨hmem, hkept⟩ := List.mem_filter.mp hl
    obtain ⟨t, ht, htl⟩ := h.reconciliation_fk l hmem
    refine ⟨t, List.mem_filter.mpr ⟨ht, ?_⟩, htl⟩
    simp only [Bool.not_eq_true', List.any_eq_false, Bool.and_eq_true, decide_eq_true_eq,
      not_and] at hkept ⊢
    exact fun a ha ho hta => hkept t ht (List.any_eq_true.mpr ⟨a, ha, by simp [ho, hta]⟩) htl

end Tables.Constraints

theorem exec_constraints {o : Op} {db db' : Tables} {r : Res o} (h : db.Constraints)
    (he : exec o db = .ok (r, db')) : db'.Constraints := by
  cases hq : o.isQuery with
  | true => exact exec_query hq he ▸ h
  | false =>
    cases o with
    | customerCreate new => exact h.createCustomer he
    | customerSave c => exact h.saveCustomer (written_ok_iff.mp he)
    | customerDelete id => cases he; exact h.deleteCustomer id
    | accountCreate new => exact h.createAccount he
    | accountSave a => exact h.saveAccount (written_ok_iff.mp he)
    | transactionCreate new => exact h.createTransaction he
    | suspenseLogCreate t reason d => exact h.createSuspenseLog (written_ok_iff.mp he)
    | reconciliationLogCreate new => exact h.createReconciliationLog (written_ok_iff.mp he)
    | processedCreate x e => exact h.createProcessedEvent (written_ok_iff.mp he)
    | registrationCreate m url secret events => rw [createRegistration_ok he]; exact { h.tick with }
    | customerByExternalId _ _ | customerById _ _ | accountByNumber _ | accountByRef _
    | accountFirstByRef _ | accountFirstByCustomer _ | accountFetchCustomer _
    | transactionByNombaId _ | transactionByMerchantTxRef _ | processedExists _
    | registrationsActive _ | emitPaymentReceived _ | post _ _ _ | nombaCreateAccount _ _
    | nombaUpdateAccountName _ _ | nombaListTransactions => cases hq

theorem run_constraints {α : Type} (p : Handler α) {db : Tables} (h : db.Constraints) :
    (Prog.run exec p db).2.Constraints :=
  Prog.run_invariant exec (fun _ _ _ _ h he => exec_constraints h he) p db h

end LdbBackend
