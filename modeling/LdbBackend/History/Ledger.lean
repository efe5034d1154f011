import LdbBackend.Provision.Maintain

/-!
# Histories

A history runs calls one after another from empty tables, with outside changes of account statuses in
between. Beside the tables it keeps a ledger of credits: which customer rows the call that inserted a
transaction saved.
-/

namespace LdbBackend

open Fixed Effects Table

/-! ## The ledger -/

/-- Pairs of a transaction and a customer that the call that inserted it saved. -/
abbrev Ledger : Type := List (UUID × UUID)

namespace Ledger

/-- The customers credited with a transaction. -/
def creditedWith (ledger : Ledger) (t : Transaction) : List UUID :=
  (ledger.filter (·.1 = t.id)).map (·.2)

/-- The sum of the transactions credited to one customer and no other. -/
def total (ledger : Ledger) (customerId : UUID) (rows : List Transaction) : Cents :=
  ((rows.filter (ledger.creditedWith · = [customerId])).map (·.amount)).sum

def inserted : Event Op Res → Option UUID
  | ⟨.transactionCreate _, t⟩ => some t.id
  | _ => none

def saved : Event Op Res → Option UUID
  | ⟨.customerSave c, _⟩ => some c.id
  | _ => none

/-- The entries of one call, from its writes. -/
def entries (writes : List (Event Op Res)) : Ledger :=
  (writes.filterMap inserted).flatMap fun t => (writes.filterMap saved).map (t, ·)

end Ledger

/-! ## Steps -/

inductive Step
  | call (c : Call)
  | setStatus (accountId : UUID) (status : AccountStatus)

structure History where
  tables : Tables
  ledger : Ledger

def Tables.setStatus (db : Tables) (accountId : UUID) (status : AccountStatus) : Tables :=
  { db with dedicatedAccounts :=
      db.dedicatedAccounts.map fun a => if a.id = accountId then { a with status } else a }

namespace History

def start : History := ⟨.empty, []⟩

def step (h : History) : Step → History
  | .call c => ⟨(outcomeOf c.handler h.tables).state,
      h.ledger ++ Ledger.entries (outcomeOf c.handler h.tables).events⟩
  | .setStatus accountId status => { h with tables := h.tables.setStatus accountId status }

def run (steps : List Step) : History := steps.foldl step start

end History

/-- The payload of a simulated webhook, for the account it finds. -/
def SimulateFundingRequest.payload (body : SimulateFundingRequest) (requestId : String)
    (db : Tables) : Json :=
  simulatedPayload body requestId
    (db.dedicatedAccounts.find? (·.accountNumber = removeSpaces body.accountNumber))

/-- The payload a step delivers, if it delivers one. -/
def Step.delivers (db : Tables) : Step → Option Json
  | .call (.receive _ payload) => some payload
  | .call (.simulate _ requestId body) => some (body.payload requestId db)
  | _ => none

/-- The amount of a payment has at most two decimals, and its sum with the wallet of the addressed
customer at most 28 digits. -/
def ExactIn (db : Tables) (payload : Json) : Prop :=
  ∀ requestId p, kindOf payload = .payment requestId p → ∃ n, Decimal.IsScaled 2 p.amount n ∧
    ∀ account row, Credits p db account row → (row.walletBalance + n).natAbs < 10 ^ prec

namespace History

/-- Every delivery of the steps is exact where it happens. -/
def Exact : History → List Step → Prop
  | _, [] => True
  | h, s :: steps => (∀ payload, s.delivers h.tables = some payload → ExactIn h.tables payload) ∧
      Exact (h.step s) steps

end History

/-! ## What a step can be -/

theorem entries_nil {writes : List (Event Op Res)} (h : ∀ ev ∈ writes, ev.1.inserts = false) :
    Ledger.entries writes = [] := by
  have hnone : writes.filterMap Ledger.inserted = [] := by
    rw [List.filterMap_eq_nil_iff]
    rintro ⟨o, r⟩ hev
    have ho := h _ hev
    cases o with
    | transactionCreate new => cases ho
    | _ => rfl
  rw [Ledger.entries, hnone, List.flatMap_nil]

theorem events_uninserting {α : Type} {p : Handler α} (hp : Uninserting p) (db : Tables) :
    Ledger.entries (outcomeOf p db).events = [] := by
  refine entries_nil fun ev hev => ?_
  exact Prog.ops_all hp db ev (List.mem_filter.mp hev).1

theorem setStatus_constraints {db : Tables} (h : db.Constraints) (accountId : UUID)
    (status : AccountStatus) : (db.setStatus accountId status).Constraints := by
  set f : DedicatedAccount → DedicatedAccount :=
    fun a => if a.id = accountId then { a with status } else a with hf
  have hkeep : ∀ {β : Type} (column : DedicatedAccount → β), (∀ a s, column { a with status := s } =
      column a) → (db.setStatus accountId status).dedicatedAccounts.map column =
        db.dedicatedAccounts.map column := by
    intro β column hcolumn
    show (db.dedicatedAccounts.map f).map column = _
    rw [List.map_map]
    refine List.map_congr_left fun a _ => ?_
    simp only [Function.comp, hf]
    split_ifs
    · exact hcolumn a status
    · rfl
  have hmem : ∀ a' ∈ (db.setStatus accountId status).dedicatedAccounts,
      ∃ a ∈ db.dedicatedAccounts, a'.id = a.id ∧ a'.customerId = a.customerId := by
    intro a' ha'
    obtain ⟨a, ha, rfl⟩ := List.mem_map.mp ha'
    refine ⟨a, ha, ?_⟩
    split_ifs
    · exact ⟨rfl, rfl⟩
    · exact ⟨rfl, rfl⟩
  refine { h with
    account_pk := by rw [hkeep (·.id) fun _ _ => rfl]; exact h.account_pk
    account_fresh := fun a' ha' => ?_
    account_number := by rw [hkeep (·.accountNumber) fun _ _ => rfl]; exact h.account_number
    account_ref := by rw [hkeep (·.accountRef) fun _ _ => rfl]; exact h.account_ref
    account_fk := fun a' ha' => ?_
    transaction_fk := fun t ht i hi => ?_ }
  · obtain ⟨a, ha, hid, -⟩ := hmem a' ha'
    rw [hid]
    exact h.account_fresh a ha
  · obtain ⟨a, ha, -, howner⟩ := hmem a' ha'
    rw [howner]
    exact h.account_fk a ha
  · obtain ⟨a, ha, rfl⟩ := h.transaction_fk t ht i hi
    have hids : a.id ∈ (db.setStatus accountId status).dedicatedAccounts.map (·.id) := by
      rw [hkeep (·.id) fun _ _ => rfl]
      exact List.mem_map.mpr ⟨a, ha, rfl⟩
    exact List.mem_map.mp hids

theorem setStatus_maintains {db : Tables} (h : db.Constraints) (accountId : UUID)
    (status : AccountStatus) : MaintainsAll db (db.setStatus accountId status) := by
  by_cases hmem : ∃ a ∈ db.dedicatedAccounts, a.id = accountId
  · obtain ⟨a, ha, rfl⟩ := hmem
    have hset : db.setStatus a.id status = { db with
        dedicatedAccounts := setRow (·.id) { a with status } db.dedicatedAccounts } := by
      unfold Tables.setStatus setRow
      congr 1
      refine List.map_congr_left fun b hb => ?_
      by_cases hid : b.id = a.id
      · rw [if_pos hid, if_pos hid, eq_of_key h.account_pk hb ha hid]
      · rw [if_neg hid, if_neg hid]
    have hvalid := setStatus_constraints h a.id status
    rw [hset] at hvalid ⊢
    exact .single (.editAccount ha rfl rfl hvalid)
  · have hset : db.setStatus accountId status = db := by
      unfold Tables.setStatus
      have hmap : (db.dedicatedAccounts.map fun a => if a.id = accountId then { a with status } else a) =
          db.dedicatedAccounts := by
        refine (List.map_congr_left fun a ha => ?_).trans (List.map_id _)
        exact if_neg fun hid => hmem ⟨a, ha, hid⟩
      rw [hmap]
    rw [hset]

section Step

variable {h : History} {s : Step}

theorem step_constraints (hc : h.tables.Constraints) : (h.step s).tables.Constraints := by
  cases s with
  | call c => exact run_constraints c.handler hc
  | setStatus accountId status => exact setStatus_constraints hc accountId status

/-- A call is its program, run alone. -/
theorem step_call {α : Type} {c : Call} {p : Handler α} {f : α → Reply} (hp : c.handler = f <$> p) :
    h.step (.call c) = ⟨(outcomeOf p h.tables).state,
      h.ledger ++ Ledger.entries (outcomeOf p h.tables).events⟩ := by
  show History.mk (outcomeOf c.handler h.tables).state
    (h.ledger ++ Ledger.entries (outcomeOf c.handler h.tables).events) = _
  rw [hp, outcome_map]

theorem maintenance_call {α : Type} {c : Call} {p : Handler α} {f : α → Reply}
    (hp : c.handler = f <$> p) (hm : MaintainsAll h.tables (stateAfter p h.tables))
    (hu : Uninserting p) : MaintainsAll h.tables (h.step (.call c)).tables ∧
      (h.step (.call c)).ledger = h.ledger := by
  rw [step_call hp, events_uninserting hu, List.append_nil]
  exact ⟨hm, rfl⟩

/-- A step that delivers nothing is maintenance. -/
theorem step_maintains (hc : h.tables.Constraints) (hs : s.delivers h.tables = none) :
    MaintainsAll h.tables (h.step s).tables ∧ (h.step s).ledger = h.ledger := by
  cases s with
  | setStatus accountId status => exact ⟨setStatus_maintains hc accountId status, rfl⟩
  | call c =>
    cases c with
    | create body merchantId nomba =>
      exact maintenance_call rfl (maintains_create hc body merchantId nomba) (create_uninserting _ _ _)
    | createDedicated body merchantId nomba =>
      exact maintenance_call rfl (maintains_createDedicated body merchantId nomba)
        (createDedicated_uninserting _ _ _)
    | update customerId body merchantId nomba =>
      exact maintenance_call rfl (maintains_update hc customerId body merchantId nomba)
        (update_uninserting customerId body merchantId nomba)
    | register body merchantId =>
      exact maintenance_call rfl (maintains_register body merchantId) ⟨rfl, fun _ => trivial⟩
    | nightly checkedAt nomba =>
      exact maintenance_call rfl (maintains_nightly checkedAt nomba) (nightly_uninserting _ _)
    | receive env payload => cases hs
    | simulate env requestId body => cases hs

/-- A step that delivers a payload is a delivery of it. -/
theorem step_delivers (hc : h.tables.Constraints) {payload : Json}
    (hs : s.delivers h.tables = some payload) : ∃ env o, Delivers env payload h.tables o ∧
      h.step s = ⟨o.state, h.ledger ++ Ledger.entries o.events⟩ := by
  cases s with
  | setStatus accountId status => cases hs
  | call c =>
    cases c with
    | receive env payload' =>
      cases hs
      exact ⟨env, _, delivers hc, step_call rfl⟩
    | simulate env requestId body =>
      cases hs
      refine ⟨env, _, delivers hc, (step_call rfl).trans ?_⟩
      unfold simulate
      rw [Prog.op_bind, outcome_query (exec_accountByNumber hc _) rfl]
      rfl
    | create _ _ _ | createDedicated _ _ _ | update _ _ _ _ | register _ _ | nightly _ _ => cases hs

end Step

end LdbBackend
