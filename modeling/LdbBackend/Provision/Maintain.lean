import LdbBackend.Provision.Traces
import LdbBackend.Model.Service
import Mathlib.Logic.Relation

/-!
# What calls other than deliveries do

Alone, `create`, `create_dedicated`, `update`, `register` and the nightly job move the tables by a few
elementary changes (`Maintains`). None of them inserts a transaction or a suspense entry, or changes a
stored wallet, or lets an account change hands. An outside change of an account status is one of them.
-/

namespace LdbBackend

open Fixed Effects Table

/-- The wallet balance that a credit puts into the details of its decision. -/
def ReconciliationLog.walletAfter (l : ReconciliationLog) : Option Json :=
  match l.details with
  | .obj fields => fields.lookup "wallet_balance_after"
  | _ => none

inductive Maintains (db : Tables) : Tables → Prop
  | customer {new : NewCustomer} {c : Customer Decimal} {db' : Tables}
      (insert : db.createCustomer new = .ok (c, db')) : Maintains db db'
  | removal (id : UUID) (unowned : ∀ a ∈ db.dedicatedAccounts, a.customerId ≠ id) :
      Maintains db (db.deleteCustomer id)
  | account {new : NewAccount} {a : DedicatedAccount} {db' : Tables}
      (insert : db.createAccount new = .ok (a, db'))
      (first : ∀ b ∈ db.dedicatedAccounts, b.customerId ≠ a.customerId) : Maintains db db'
  | editCustomer {row row' : Customer Cents} (mem : row ∈ db.customers) (id : row'.id = row.id)
      (wallet : row'.walletBalance = row.walletBalance)
      (valid : { db with customers := setRow (·.id) row' db.customers }.Constraints) :
      Maintains db { db with customers := setRow (·.id) row' db.customers }
  | editAccount {a a' : DedicatedAccount} (mem : a ∈ db.dedicatedAccounts) (id : a'.id = a.id)
      (owner : a'.customerId = a.customerId)
      (valid : { db with
        dedicatedAccounts := setRow (·.id) a' db.dedicatedAccounts }.Constraints) :
      Maintains db { db with dedicatedAccounts := setRow (·.id) a' db.dedicatedAccounts }
  | log {new : NewReconciliationLog} {db' : Tables}
      (insert : db.createReconciliationLog new = .ok db')
      (details : ∀ l, new.row db.clock = .ok l → l.walletAfter = none) : Maintains db db'
  | registration (r : WebhookRegistration) : Maintains db { db with
      webhookRegistrations := db.webhookRegistrations ++ [r], clock := db.clock + 1 }

/-- Any number of such changes. -/
abbrev MaintainsAll : Tables → Tables → Prop := Relation.ReflTransGen Maintains

section Calls

variable {db : Tables}

/-! ## `create` -/

theorem maintains_create (h : db.Constraints) (body : CreateCustomerRequest) (merchantId : UUID)
    (nomba : NombaOutcome) :
    MaintainsAll db (stateAfter (CustomerService.create body merchantId nomba) db) := by
  by_cases hadmits : CustomerService.Admits db body merchantId
  · obtain ⟨row, hrow, hcreates⟩ : ∃ row, _ ∧ CustomerService.Creates db row nomba
        (Prog.run exec (CustomerService.create body merchantId nomba) db) :=
      CustomerService.create_creates h hadmits
    have hid := (NewCustomer.row_ok hrow).1
    have hunowned := CustomerService.unowned_new h hid
    have hinsert : Maintains db (CustomerService.withCustomer db row) :=
      .customer (CustomerService.createCustomer_admitted hadmits hrow)
    unfold stateAfter
    generalize Prog.run exec (CustomerService.create body merchantId nomba) db = after at hcreates
    cases hcreates with
    | stranded e fails => exact .single hinsert
    | removed e noticed => exact .tail (.single hinsert) (.removal row.id hunowned)
    | provisioned stored insert owner =>
      refine .tail (.single hinsert) (.account insert fun b hb => ?_)
      rw [owner]
      exact hunowned b hb
  · obtain ⟨e, he⟩ : ∃ e, Prog.run exec (CustomerService.create body merchantId nomba) db =
        (.error e, db) := CustomerService.create_refused h hadmits
    rw [stateAfter, he]

/-! ## `create_dedicated` -/

/-- The part of `create_dedicated` after Nomba answered with data. -/
def dedicate (customer : Customer Decimal) (accountName : String) (data : Json) : Handler Response := do
  let accountNumber ← Prog.lift (accountNumberOf data)
  if !accountNumber.truthy then .raise (.http 502 "Nomba response missing account number" none)
  else do
    let nombaVaId ← Prog.lift (nombaVaIdOf data)
    let account : DedicatedAccount ← await (.accountCreate {
      customer, nombaVaId, accountNumber := removeSpaces accountNumber.text, accountName
      accountRef := customer.merchantCustomerId })
    let response ← buildAccountResponse account
    return ⟨201, "Dedicated account created", .account response⟩

theorem buildAccountResponse_reads (account : DedicatedAccount) :
    (buildAccountResponse account).All (·.isWrite = false) := by
  refine ⟨rfl, fun found => ?_⟩
  cases found with
  | none => trivial
  | some customer => trivial

theorem maintains_dedicate (customer : Customer Decimal) (accountName : String) (data : Json)
    (hfirst : ∀ b ∈ db.dedicatedAccounts, b.customerId ≠ customer.id) :
    MaintainsAll db (stateAfter (dedicate customer accountName data) db) := by
  unfold dedicate
  cases accountNumberOf data with
  | error e => exact .refl
  | ok accountNumber =>
    simp only [Prog.lift_ok, Prog.pure_bind']
    by_cases htruthy : accountNumber.truthy = true
    · simp only [htruthy, Bool.not_true, Bool.false_eq_true, if_false]
      cases nombaVaIdOf data with
      | error e => exact .refl
      | ok nombaVaId =>
        simp only [Prog.lift_ok, Prog.pure_bind', Prog.op_bind]
        generalize hnew : (⟨customer, nombaVaId, removeSpaces accountNumber.text, accountName,
          customer.merchantCustomerId⟩ : NewAccount) = new
        have hcustomer : new.customer = customer := by rw [← hnew]
        cases hexec : exec (.accountCreate new) db with
        | error e => rw [state_refused hexec]
        | ok x =>
          obtain ⟨account, db'⟩ := x
          rw [state_last_write hexec]
          swap
          · exact (buildAccountResponse_reads account).bind fun _ => trivial
          refine .single (.account hexec fun b hb => ?_)
          rw [(NewAccount.row_ok (createAccount_ok_iff.mp hexec).1).2.1, hcustomer]
          exact hfirst b hb
    · have hfalse : accountNumber.truthy = false := by simpa using htruthy
      simp only [hfalse, Bool.not_false, if_true]
      exact .refl

theorem maintains_createDedicated (body : CreateDedicatedAccountRequest) (merchantId : UUID)
    (nomba : NombaOutcome) :
    MaintainsAll db (stateAfter (AccountService.createDedicated body merchantId nomba) db) := by
  unfold AccountService.createDedicated
  rw [Prog.op_bind]
  cases hexec : exec (.customerByExternalId merchantId body.merchantCustomerId) db with
  | error e => rw [state_refused hexec]
  | ok x =>
    obtain ⟨found, db'⟩ := x
    obtain rfl := exec_query rfl hexec
    rw [state_query hexec]
    cases found with
    | none => exact .refl
    | some customer =>
      simp only [Prog.op_bind]
      rw [state_query (show exec (.accountFirstByCustomer customer.id) db' =
        .ok (db'.dedicatedAccounts.find? (·.customerId = customer.id), db') from rfl)]
      split_ifs with hexisting
      · exact .refl
      · rw [state_query (show exec (.nombaCreateAccount _ _) db' = .ok ((), db') from rfl)]
        cases nomba with
        | raised e => exact .refl
        | failure message => exact .refl
        | success data => exact maintains_dedicate customer _ data (by simpa using hexisting)

/-! ## `update` -/

theorem buildCustomerResponse_reads (customer : Customer Decimal) :
    (buildCustomerResponse customer).All (·.isWrite = false) := ⟨rfl, fun _ => trivial⟩

theorem resolveCustomer_found {customerId : String} {merchantId : UUID} {r : Except Err _}
    {db' : Tables} (hrun : Prog.run exec (CustomerService.resolveCustomer customerId merchantId) db =
      (r, db')) : db' = db ∧ ∀ c, r = .ok (some c) → ∃ row ∈ db.customers, c = row.load := by
  have hexternal : ∀ {r db'}, Prog.run exec (CustomerService.byExternalId customerId merchantId) db =
      (r, db') → db' = db ∧ ∀ c, r = .ok (some c) → ∃ row ∈ db.customers, c = row.load := by
    intro r db' hrun
    unfold CustomerService.byExternalId await Prog.op at hrun
    cases hexec : exec (.customerByExternalId merchantId customerId) db with
    | error e =>
      rw [Prog.run_perform_error exec hexec] at hrun
      cases hrun
      exact ⟨rfl, fun c hc => by cases hc⟩
    | ok x =>
      obtain ⟨found, db₁⟩ := x
      obtain rfl := exec_query rfl hexec
      rw [Prog.run_perform_ok exec hexec] at hrun
      cases hrun
      refine ⟨rfl, fun c hc => ?_⟩
      cases hc
      exact found_row hexec
  unfold CustomerService.resolveCustomer at hrun
  cases hid : CustomerService.parseUuid customerId with
  | none =>
    rw [hid] at hrun
    exact hexternal hrun
  | some parsedId =>
    rw [hid] at hrun
    simp only [Prog.op_bind] at hrun
    cases hexec : exec (.customerById parsedId merchantId) db with
    | error e =>
      rw [Prog.run_perform_error exec hexec] at hrun
      cases hrun
      exact ⟨rfl, fun c hc => by cases hc⟩
    | ok x =>
      obtain ⟨found, db₁⟩ := x
      obtain rfl := exec_query rfl hexec
      rw [Prog.run_perform_ok exec hexec] at hrun
      cases found with
      | none => exact hexternal hrun
      | some customer =>
        cases hrun
        refine ⟨rfl, fun c hc => ?_⟩
        cases hc
        exact found_row hexec

theorem maintains_rename (h : db.Constraints) (name : Option String) (customer : Customer Decimal) (nomba : NombaOutcome) :
    MaintainsAll db (stateAfter (CustomerService.renameAccount name customer nomba) db) := by
  unfold CustomerService.renameAccount
  cases name with
  | none => exact .refl
  | some name =>
    simp only [Prog.op_bind]
    rw [state_query (show exec (.accountFirstByCustomer customer.id) db =
      .ok (db.dedicatedAccounts.find? (·.customerId = customer.id), db) from rfl)]
    cases hfind : db.dedicatedAccounts.find? (·.customerId = customer.id) with
    | none => exact .refl
    | some account =>
      have hmem := List.mem_of_find?_eq_some hfind
      cases hexec : exec (.accountSave { account with accountName := name }) db with
      | error e => rw [state_refused hexec]
      | ok x =>
        obtain ⟨⟨⟩, db'⟩ := x
        have hvalid := exec_constraints h hexec
        obtain ⟨-, rfl⟩ := saveAccount_ok_iff.mp (written_ok_iff.mp hexec)
        rw [state_last_write hexec]
        · exact .single (.editAccount hmem rfl rfl hvalid)
        · refine ⟨rfl, fun _ => ?_⟩
          cases nomba with
          | raised e => trivial
          | success data => trivial
          | failure message => trivial

/-- Saving a customer as it was read, up to columns other than the wallet, keeps the wallet. -/
theorem maintains_save (h : db.Constraints) {row : Customer Cents} (hrow : row ∈ db.customers)
    {customer : Customer Decimal} (hid : customer.id = row.id)
    (hwallet : customer.walletBalance = Decimal.ofScaled 2 row.walletBalance) {db' : Tables}
    (hsave : db.saveCustomer customer = .ok db') : Maintains db db' := by
  have hvalid := h.saveCustomer hsave
  obtain ⟨target, wallet, -, hw, -, rfl⟩ := saveCustomer_ok_iff.mp hsave
  rw [hwallet, numericColumn_ofScaled (h.customer_columns row hrow).1] at hw
  cases hw
  exact .editCustomer hrow hid rfl hvalid

theorem maintains_update (h : db.Constraints) (customerId : String) (body : UpdateCustomerRequest)
    (merchantId : UUID) (nomba : NombaOutcome) :
    MaintainsAll db (stateAfter (CustomerService.update customerId body merchantId nomba) db) := by
  unfold CustomerService.update stateAfter
  rw [Prog.run_bind]
  cases hrun : Prog.run exec (CustomerService.resolveCustomer customerId merchantId) db with
  | mk r db' =>
    obtain ⟨rfl, hfound⟩ := resolveCustomer_found hrun
    cases r with
    | error e => exact .refl
    | ok found =>
      cases found with
      | none => exact .refl
      | some found =>
        obtain ⟨row, hrow, rfl⟩ := hfound found rfl
        simp only [Prog.op_bind]
        set customer := CustomerService.applyUpdate body row.load
        cases hexec : exec (.customerSave customer) db' with
        | error e => rw [Prog.run_perform_error exec hexec]
        | ok x =>
          obtain ⟨⟨⟩, db₁⟩ := x
          rw [Prog.run_perform_ok exec hexec]
          have h₁ := exec_constraints h hexec
          refine .head (maintains_save h hrow rfl rfl (written_ok_iff.mp hexec)) ?_
          show MaintainsAll db₁ (stateAfter _ db₁)
          rw [state_then_reads]
          · exact maintains_rename h₁ body.name customer nomba
          · exact fun _ => (buildCustomerResponse_reads customer).bind fun _ => trivial

/-! ## The nightly job and registrations -/

/-- Queries, and decisions that do not tell a wallet balance. -/
def Op.Nightly : Op → Prop
  | .reconciliationLogCreate new => ∀ clock l, new.row clock = .ok l → l.walletAfter = none
  | o => o.isQuery = true

theorem findTransaction_reads (nombaTxId merchantTxRef : Json) :
    (findTransaction nombaTxId merchantTxRef).All Op.Nightly := by
  unfold findTransaction
  by_cases href : merchantTxRef.truthy = true
  · by_cases hid : nombaTxId.truthy = true
    · simp only [href, hid, if_true]
      refine ⟨rfl, fun byId => ?_⟩
      cases byId with
      | some tx => trivial
      | none => exact ⟨rfl, fun _ => trivial⟩
    · simp only [href, hid, if_true]
      exact ⟨rfl, fun _ => trivial⟩
  · by_cases hid : nombaTxId.truthy = true
    · simp only [href, hid, if_true]
      refine ⟨rfl, fun byId => ?_⟩
      cases byId with
      | some tx => trivial
      | none => trivial
    · simp only [href, hid]
      trivial

theorem eq_of_matchDetails {checkedAt : String} {nombaTxId details : Json}
    (h : matchDetails checkedAt nombaTxId = .ok details) :
    details = .obj [("nomba_transaction_id", nombaTxId), ("checked_at", .str checkedAt)] := by
  simp only [matchDetails] at h
  split_ifs at h
  exact (Except.ok.inj h).symm

theorem reconcileItems_all (checkedAt : String) (items : List Json) (matched missing : Nat) :
    (reconcileItems checkedAt matched missing items).All Op.Nightly := by
  induction items generalizing matched missing with
  | nil => trivial
  | cons item items ih =>
    cases item with
    | obj fields =>
      unfold reconcileItems
      simp only
      cases eitherKey (.obj fields) "transactionId" "id" with
      | error e => trivial
      | ok nombaTxId =>
        cases Json.get (.obj fields) "merchantTxRef" .null with
        | error e => trivial
        | ok merchantTxRef =>
          simp only [Prog.lift_ok, Prog.pure_bind']
          split_ifs
          · exact ih _ _
          · refine (findTransaction_reads _ _).bind fun found => ?_
            cases found with
            | none => exact ih _ _
            | some tx =>
              show Prog.All _ (Prog.lift (matchDetails checkedAt nombaTxId) >>= _)
              cases hdetails : matchDetails checkedAt nombaTxId with
              | error e => trivial
              | ok details =>
                obtain rfl := eq_of_matchDetails hdetails
                refine ⟨fun clock l hl => ?_, fun _ => ih _ _⟩
                obtain ⟨_, _, -, -, rfl⟩ := NewReconciliationLog.row_ok_iff.mp hl
                simp [ReconciliationLog.walletAfter, List.lookup_cons]
    | _ => exact ih _ _

theorem nightly_all (checkedAt : String) (nomba : NombaOutcome) :
    (runNightlyReconciliation checkedAt nomba).All Op.Nightly := by
  refine ⟨rfl, fun _ => ?_⟩
  cases nomba with
  | raised e => trivial
  | failure message => trivial
  | success data =>
    show Prog.All _ (Prog.lift (nombaItems data) >>= _)
    cases nombaItems data with
    | error e => trivial
    | ok items =>
      cases items with
      | arr items => exact reconcileItems_all checkedAt items 0 0
      | _ => trivial

theorem maintains_nightly (checkedAt : String) (nomba : NombaOutcome) :
    MaintainsAll db (stateAfter (runNightlyReconciliation checkedAt nomba) db) := by
  refine Prog.run_ops_invariant Op.Nightly (MaintainsAll db) (fun o s r s' ho hs hexec => ?_) db
    (Prog.ops_all (nightly_all checkedAt nomba) db) .refl
  cases hq : o.isQuery with
  | true => exact exec_query hq hexec ▸ hs
  | false =>
    cases o with
    | reconciliationLogCreate new =>
      exact .tail hs (.log (written_ok_iff.mp hexec) fun l hl => ho _ l hl)
    | _ => cases hq.symm.trans ho

theorem maintains_register (body : RegisterWebhookRequest) (merchantId : UUID) :
    MaintainsAll db (stateAfter (register body merchantId) db) := by
  unfold register
  rw [Prog.op_bind]
  cases hexec : exec (.registrationCreate merchantId body.url body.secret body.events) db with
  | error e => rw [state_refused hexec]
  | ok x =>
    obtain ⟨r, db'⟩ := x
    rw [state_last_write hexec, createRegistration_ok hexec]
    · exact .single (.registration r)
    · trivial

end Calls

/-! ## No transactions -/

/-- The handler inserts no transaction. -/
abbrev Uninserting {α : Type} (p : Handler α) : Prop := p.All (·.inserts = false)

theorem Uninserting.lift {α : Type} (x : Except Err α) : Uninserting (Prog.lift x) := by
  cases x <;> trivial

theorem provision_uninserting (body : CreateCustomerRequest) (customer : Customer Decimal)
    (data : Json) : Uninserting (CustomerService.provision body customer data) := by
  unfold CustomerService.provision
  refine (Uninserting.lift _).bind fun accountNumber => ?_
  show Uninserting (if _ then _ else _)
  split_ifs
  · exact ⟨rfl, fun _ => trivial⟩
  · exact (Uninserting.lift _).bind fun _ => ⟨rfl, fun _ => ⟨rfl, fun _ => trivial⟩⟩

theorem create_uninserting (body : CreateCustomerRequest) (merchantId : UUID) (nomba : NombaOutcome) :
    Uninserting (CustomerService.create body merchantId nomba) := by
  rw [CustomerService.create_eq]
  refine ⟨rfl, fun existing => ?_⟩
  show Uninserting (if _ then _ else _)
  split_ifs
  · trivial
  · refine ⟨rfl, fun existingAccount => ?_⟩
    show Uninserting (if _ then _ else _)
    split_ifs
    · trivial
    · refine ⟨rfl, fun customer => ⟨rfl, fun _ => ?_⟩⟩
      cases nomba with
      | raised e => trivial
      | failure message => exact ⟨rfl, fun _ => trivial⟩
      | success data => exact provision_uninserting body customer data

/-- Queries, and the insert of an account. -/
def Op.opensAccount : Op → Bool
  | .accountCreate _ => true
  | o => o.isQuery

theorem dedicate_all (customer : Customer Decimal) (accountName : String) (data : Json) :
    (dedicate customer accountName data).All (·.opensAccount = true) := by
  have hlift : ∀ {α : Type} (x : Except Err α), (Prog.lift x : Handler α).All (·.opensAccount = true) := by
    intro α x
    cases x <;> trivial
  unfold dedicate
  refine (hlift _).bind fun accountNumber => ?_
  show Prog.All _ (if _ then _ else _)
  split_ifs
  · trivial
  · refine (hlift _).bind fun _ => ⟨rfl, fun _ => ⟨rfl, fun found => ?_⟩⟩
    cases found with
    | none => trivial
    | some customer => trivial

theorem createDedicated_all (body : CreateDedicatedAccountRequest) (merchantId : UUID)
    (nomba : NombaOutcome) :
    (AccountService.createDedicated body merchantId nomba).All (·.opensAccount = true) := by
  refine ⟨rfl, fun found => ?_⟩
  cases found with
  | none => trivial
  | some customer =>
    refine ⟨rfl, fun existing => ?_⟩
    show Prog.All _ (if _ then _ else _)
    split_ifs
    · trivial
    · refine ⟨rfl, fun _ => ?_⟩
      cases nomba with
      | raised e => trivial
      | failure message => trivial
      | success data => exact dedicate_all customer _ data

theorem createDedicated_uninserting (body : CreateDedicatedAccountRequest) (merchantId : UUID)
    (nomba : NombaOutcome) : Uninserting (AccountService.createDedicated body merchantId nomba) := by
  refine (createDedicated_all body merchantId nomba).imp fun o ho => ?_
  cases o with
  | transactionCreate new => cases ho
  | _ => rfl

theorem resolveCustomer_uninserting (customerId : String) (merchantId : UUID) :
    Uninserting (CustomerService.resolveCustomer customerId merchantId) := by
  have hexternal : Uninserting (CustomerService.byExternalId customerId merchantId) :=
    ⟨rfl, fun _ => trivial⟩
  unfold CustomerService.resolveCustomer
  cases CustomerService.parseUuid customerId with
  | none => exact hexternal
  | some parsedId =>
    refine ⟨rfl, fun found => ?_⟩
    cases found with
    | none => exact hexternal
    | some customer => trivial

theorem renameAccount_uninserting (name : Option String) (customer : Customer Decimal)
    (nomba : NombaOutcome) : Uninserting (CustomerService.renameAccount name customer nomba) := by
  cases name with
  | none => trivial
  | some name =>
    refine ⟨rfl, fun account => ?_⟩
    cases account with
    | none => trivial
    | some account =>
      refine ⟨rfl, fun _ => ⟨rfl, fun _ => ?_⟩⟩
      cases nomba with
      | raised e => trivial
      | success data => trivial
      | failure message => trivial

theorem update_uninserting (customerId : String) (body : UpdateCustomerRequest) (merchantId : UUID)
    (nomba : NombaOutcome) : Uninserting (CustomerService.update customerId body merchantId nomba) := by
  refine (resolveCustomer_uninserting customerId merchantId).bind fun found => ?_
  cases found with
  | none => trivial
  | some found =>
    set customer := CustomerService.applyUpdate body found
    have hrename := renameAccount_uninserting body.name customer nomba
    have hresponse : Uninserting (buildCustomerResponse customer) := ⟨rfl, fun _ => trivial⟩
    exact ⟨rfl, fun _ => hrename.bind fun _ => hresponse.bind fun _ => trivial⟩

theorem nightly_uninserting (checkedAt : String) (nomba : NombaOutcome) :
    Uninserting (runNightlyReconciliation checkedAt nomba) := by
  refine (nightly_all checkedAt nomba).imp fun o ho => ?_
  cases o with
  | transactionCreate new => cases ho
  | _ => rfl

/-! ## What a change keeps -/

theorem deleteCustomer_unowned {db : Tables} {id : UUID}
    (h : ∀ a ∈ db.dedicatedAccounts, a.customerId ≠ id) :
    db.deleteCustomer id = { db with customers := db.customers.filter (·.id ≠ id) } := by
  have howned : ∀ t : Transaction, (db.dedicatedAccounts.any fun a =>
      decide (a.customerId = id) && decide (t.dedicatedAccountId = some a.id)) = false := by
    intro t
    rw [List.any_eq_false]
    intro a ha
    simp [h a ha]
  have haccounts : db.dedicatedAccounts.filter (fun a => !decide (a.customerId = id)) =
      db.dedicatedAccounts := by
    rw [List.filter_eq_self]
    intro a ha
    simpa using h a ha
  simp [Tables.deleteCustomer, howned, haccounts]

/-- What stays of the tables under maintenance. -/
structure Upkeep (db db' : Tables) : Prop where
  transactions : db'.transactions = db.transactions
  suspenseLogs : db'.suspenseLogs = db.suspenseLogs
  clock : db.clock ≤ db'.clock
  owners : ∀ a ∈ db.dedicatedAccounts, ∃ a' ∈ db'.dedicatedAccounts, a'.id = a.id ∧
    a'.customerId = a.customerId
  wallets : ∀ c' ∈ db'.customers, (∃ c ∈ db.customers, c.id = c'.id ∧
    c.walletBalance = c'.walletBalance) ∨ (db.clock ≤ c'.id ∧ c'.walletBalance = 0)
  logs : ∀ l ∈ db'.reconciliationLogs, l ∈ db.reconciliationLogs ∨ l.walletAfter = none

namespace Maintains

variable {db db' : Tables}

theorem constraints (h : db.Constraints) (hm : Maintains db db') : db'.Constraints := by
  cases hm with
  | customer insert => exact h.createCustomer insert
  | removal id unowned => exact h.deleteCustomer id
  | account insert first => exact h.createAccount insert
  | editCustomer mem id wallet valid => exact valid
  | editAccount mem id owner valid => exact valid
  | log insert details => exact h.createReconciliationLog insert
  | registration r => exact { h.tick with }

theorem upkeep (h : db.Constraints) (hm : Maintains db db') : Upkeep db db' := by
  have hsame : ∀ c ∈ db.customers, (∃ c' ∈ db.customers, c'.id = c.id ∧
      c'.walletBalance = c.walletBalance) ∨ (db.clock ≤ c.id ∧ c.walletBalance = 0) :=
    fun c hc => .inl ⟨c, hc, rfl, rfl⟩
  have howners : ∀ a ∈ db.dedicatedAccounts, ∃ a' ∈ db.dedicatedAccounts, a'.id = a.id ∧
      a'.customerId = a.customerId := fun a ha => ⟨a, ha, rfl, rfl⟩
  cases hm with
  | customer insert =>
    obtain ⟨row, hrow, -, -, rfl⟩ := createCustomer_ok_iff.mp insert
    obtain ⟨hid, -, -, hwallet, -⟩ := NewCustomer.row_ok hrow
    exact ⟨rfl, rfl, Nat.le_succ _, howners,
      forall_mem_append hsame (.inr ⟨hid.symm.le, hwallet⟩), fun l hl => .inl hl⟩
  | removal id unowned =>
    rw [deleteCustomer_unowned unowned]
    exact ⟨rfl, rfl, le_refl _, howners, fun c hc => hsame c (List.mem_filter.mp hc).1,
      fun l hl => .inl hl⟩
  | account insert first =>
    obtain ⟨-, -, -, rfl⟩ := createAccount_ok_iff.mp insert
    exact ⟨rfl, rfl, Nat.le_succ _, fun a ha => ⟨a, List.mem_append_left _ ha, rfl, rfl⟩, hsame,
      fun l hl => .inl hl⟩
  | @editCustomer row row' mem id wallet valid =>
    refine ⟨rfl, rfl, le_refl _, howners, fun c hc => ?_, fun l hl => .inl hl⟩
    rcases mem_setRow.mp hc with ⟨rfl, -⟩ | ⟨hmem, -⟩
    · exact .inl ⟨row, mem, id.symm, wallet.symm⟩
    · exact hsame c hmem
  | @editAccount a a' mem id owner valid =>
    refine ⟨rfl, rfl, le_refl _, fun b hb => ?_, hsame, fun l hl => .inl hl⟩
    by_cases hb' : b.id = a'.id
    · obtain rfl := eq_of_key h.account_pk hb mem (hb'.trans id)
      exact ⟨a', mem_setRow.mpr (.inl ⟨rfl, b, hb, hb'⟩), id, owner⟩
    · exact ⟨b, mem_setRow.mpr (.inr ⟨hb, hb'⟩), rfl, rfl⟩
  | log insert details =>
    obtain ⟨l, hl, -, rfl⟩ := createReconciliationLog_ok_iff.mp insert
    exact ⟨rfl, rfl, Nat.le_succ _, howners, hsame,
      forall_mem_append (fun l hl => .inl hl) (.inr (details l hl))⟩
  | registration r => exact ⟨rfl, rfl, Nat.le_succ _, howners, hsame, fun l hl => .inl hl⟩

end Maintains

end LdbBackend
