import LdbBackend.Isolation.Reads
import LdbBackend.History.Ledger
import LdbBackend.Provision.Update

/-!
# External ids of different merchants

`customers` is unique per merchant and external id, but `dedicated_accounts` is unique per reference, and the
reference of an account is the external id of its customer. So how `create` and `create_dedicated` end
depends on what the merchant holds and on whether any account has the external id as its reference
(`create_verdict`, `createDedicated_verdict`), and on nothing else of other merchants.
-/

namespace LdbBackend

open Fixed Effects Table CustomerService

/-- How a handler ends, without what it answers. -/
def verdict {α : Type} (p : Handler α) (db : Tables) : Except Err Unit := (Prog.run exec p db).1.map fun _ => ()

namespace Tables

/-- The merchant has a customer with this external id. -/
def Enrolled (db : Tables) (m : UUID) (externalId : String) : Prop :=
  ∃ c ∈ db.customersOf m, c.merchantCustomerId = externalId

/-- An account, of any merchant, has this reference. -/
def Taken (db : Tables) (ref : String) : Prop := ∃ a ∈ db.dedicatedAccounts, a.accountRef = ref

/-- No account has the number that the data give. -/
def Unused (db : Tables) (data : Json) : Prop := ∀ accountNumber, accountNumberOf data = .ok accountNumber →
  ∀ a ∈ db.dedicatedAccounts, a.accountNumber ≠ removeSpaces accountNumber.text

instance (db : Tables) (m : UUID) (externalId : String) : Decidable (db.Enrolled m externalId) :=
  inferInstanceAs (Decidable (∃ c ∈ db.customersOf m, c.merchantCustomerId = externalId))

instance (db : Tables) (ref : String) : Decidable (db.Taken ref) :=
  inferInstanceAs (Decidable (∃ a ∈ db.dedicatedAccounts, a.accountRef = ref))

end Tables

/-- The columns of the new account, then its reference. -/
def openingVerdict (new : NewAccount) (taken : Bool) : Except Err Unit := do
  let _ ← new.row 0
  require (taken = false) .integrityError

/-- The number and the identifier that Nomba gave, then the account they make. -/
def dataVerdict (data : Json) (taken : Bool) (new : Json → Json → NewAccount) : Except Err Unit := do
  let accountNumber ← accountNumberOf data
  require (accountNumber.truthy = true) (.http 502 "Nomba response missing account number" none)
  let nombaVaId ← nombaVaIdOf data
  openingVerdict (new accountNumber nombaVaId) taken

/-- How `create` ends when Nomba answers with data. -/
def createVerdict (body : CreateCustomerRequest) (m : UUID) (data : Json) (enrolled taken : Bool) :
    Except Err Unit := do
  require (enrolled = false) (.http 409 "Customer with this merchant_customer_id already exists" none)
  require (taken = false) (.http 409 "Dedicated account reference already exists" none)
  let row ← (newCustomer body m).row 0
  dataVerdict data false (newAccount body (createdObject row))

/-- The account that `create_dedicated` opens. -/
def dedicatedAccount (body : CreateDedicatedAccountRequest) (customer : Customer Decimal)
    (accountNumber nombaVaId : Json) : NewAccount where
  customer := customer
  nombaVaId := nombaVaId
  accountNumber := removeSpaces accountNumber.text
  accountName := match body.accountName with
    | some name => if name ≠ "" then name else customer.name
    | none => customer.name
  accountRef := customer.merchantCustomerId

/-- How `create_dedicated` ends when Nomba answers with data, for the merchant that holds these accounts. -/
def createDedicatedVerdict (body : CreateDedicatedAccountRequest) (data : Json) (customer : Option (Customer Cents))
    (held : List DedicatedAccount) (taken : Bool) : Except Err Unit :=
  match customer with
  | none => .error (.http 404 "Customer not found" none)
  | some row => do
    require (∀ a ∈ held, a.customerId ≠ row.id) (.http 409 "Customer already has a dedicated account" none)
    dataVerdict data taken (dedicatedAccount body row.load)

/-! ## Columns -/

section Columns

theorem error_of_row {γ δ : Type} {x : Except Err γ} {y : Except Err δ} {e : Err}
    (h : x.map (fun _ => ()) = y.map fun _ => ()) (hx : x = .error e) : y = .error e := by
  subst hx
  cases y with
  | error e' => exact congrArg Except.error (Except.error.inj h).symm
  | ok _ => cases h

theorem ok_of_row {γ δ : Type} {x : Except Err γ} {y : Except Err δ} {a : γ}
    (h : x.map (fun _ => ()) = y.map fun _ => ()) (hx : x = .ok a) : ∃ b, y = .ok b := by
  subst hx
  cases y with
  | error e' => cases h
  | ok b => exact ⟨b, rfl⟩

theorem NewCustomer.row_clock (new : NewCustomer) (clock clock' : Nat) :
    (new.row clock).map (fun _ => ()) = (new.row clock').map fun _ => () := by
  unfold NewCustomer.row
  cases charField 100 new.merchantCustomerId with
  | error e => rfl
  | ok _ =>
    cases charField 200 new.name with
    | error e => rfl
    | ok _ =>
      cases new.email.mapM (charField 200) with
      | error e => rfl
      | ok _ =>
        cases new.phone.mapM (charField 50) with
        | error e => rfl
        | ok _ => cases new.targetAmount.mapM decimalField <;> rfl

/-- The columns of an account do not depend on its customer. -/
theorem NewAccount.row_clock {new new' : NewAccount} (hid : new.nombaVaId = new'.nombaVaId)
    (hnumber : new.accountNumber = new'.accountNumber) (hname : new.accountName = new'.accountName)
    (href : new.accountRef = new'.accountRef) (clock clock' : Nat) :
    (new.row clock).map (fun _ => ()) = (new'.row clock').map fun _ => () := by
  unfold NewAccount.row
  rw [hid, hnumber, hname, href]
  cases nullableCharField 100 new'.nombaVaId with
  | error e => rfl
  | ok _ =>
    cases charField 20 new'.accountNumber with
    | error e => rfl
    | ok _ =>
      cases charField 200 new'.accountName with
      | error e => rfl
      | ok _ => cases charField 100 new'.accountRef <;> rfl

theorem dataVerdict_congr {data : Json} {taken : Bool} {new new' : Json → Json → NewAccount}
    (h : ∀ accountNumber nombaVaId, (new accountNumber nombaVaId).nombaVaId = (new' accountNumber nombaVaId).nombaVaId ∧
      (new accountNumber nombaVaId).accountNumber = (new' accountNumber nombaVaId).accountNumber ∧
      (new accountNumber nombaVaId).accountName = (new' accountNumber nombaVaId).accountName ∧
      (new accountNumber nombaVaId).accountRef = (new' accountNumber nombaVaId).accountRef) :
    dataVerdict data taken new = dataVerdict data taken new' := by
  unfold dataVerdict openingVerdict
  cases accountNumberOf data with
  | error e => rfl
  | ok accountNumber =>
    cases nombaVaIdOf data with
    | error e => rfl
    | ok nombaVaId =>
      obtain ⟨hid, hnumber, hname, href⟩ := h accountNumber nombaVaId
      have hclock := NewAccount.row_clock hid hnumber hname href 0 0
      have hsame : ((new accountNumber nombaVaId).row 0 >>= fun _ => require (taken = false) .integrityError) =
          ((new' accountNumber nombaVaId).row 0 >>= fun _ => require (taken = false) .integrityError) := by
        cases hrow : (new accountNumber nombaVaId).row 0 with
        | error e => rw [error_of_row hclock hrow]
        | ok row =>
          obtain ⟨row', hrow'⟩ := ok_of_row hclock hrow
          rw [hrow']
          rfl
      show (require _ _ >>= fun _ => _) = (require _ _ >>= fun _ => _)
      cases require (accountNumber.truthy = true) (.http 502 "Nomba response missing account number" none) with
      | error e => rfl
      | ok _ => exact hsame

end Columns

/-! ## Verdicts of handlers -/

section Verdict

variable {α β : Type} {db db' : Tables}

theorem verdict_ok {o : Op} {k : Res o → Handler α} {r : Res o} (he : exec o db = .ok (r, db')) :
    verdict (.perform o k) db = verdict (k r) db' := by
  unfold verdict
  rw [Prog.run_perform_ok exec he]

theorem verdict_refused {o : Op} {k : Res o → Handler α} {e : Err} (he : exec o db = .error e) :
    verdict (.perform o k) db = .error e := by
  unfold verdict
  rw [Prog.run_perform_error exec he]
  rfl

theorem verdict_lift (x : Except Err α) (f : α → Handler β) :
    verdict (Prog.lift x >>= f) db = x >>= fun a => verdict (f a) db := by
  cases x <;> rfl

/-- Opening an account under an unused number for a customer that is there. -/
theorem verdict_open {new : NewAccount} {k : DedicatedAccount → Handler α}
    (hnumber : ∀ a ∈ db.dedicatedAccounts, a.accountNumber ≠ new.accountNumber)
    (howner : ∃ c ∈ db.customers, c.id = new.customer.id)
    (hk : ∀ account db', db.createAccount new = .ok (account, db') → verdict (k account) db' = .ok ()) :
    verdict (.perform (.accountCreate new) k) db = openingVerdict new (decide (db.Taken new.accountRef)) := by
  have hclock := @NewAccount.row_clock new new rfl rfl rfl rfl db.clock 0
  unfold openingVerdict
  cases hrow : new.row db.clock with
  | error e =>
    have hrefused : exec (.accountCreate new) db = .error e := by
      show db.createAccount new = _
      rw [Tables.createAccount, hrow]
      rfl
    rw [verdict_refused hrefused, error_of_row hclock hrow]
    rfl
  | ok row =>
    obtain ⟨row₀, hrow₀⟩ := ok_of_row hclock hrow
    obtain ⟨-, hcustomer, hnumber', href, -⟩ := NewAccount.row_ok hrow
    rw [hrow₀]
    show _ = require _ _
    by_cases htaken : db.Taken new.accountRef
    · have hrefused : exec (.accountCreate new) db = .error .integrityError := by
        obtain ⟨a, ha, haref⟩ := htaken
        have hno : ¬ ∀ a ∈ db.dedicatedAccounts,
            a.accountNumber ≠ row.accountNumber ∧ a.accountRef ≠ row.accountRef :=
          fun hall => (hall a ha).2 (haref.trans href.symm)
        show db.createAccount new = _
        rw [Tables.createAccount, hrow]
        show (require _ _ >>= _) = _
        rw [require, if_neg hno]
        rfl
      rw [verdict_refused hrefused, decide_eq_true htaken, require, if_neg (by simp)]
    · obtain ⟨db', hinsert⟩ : ∃ db', db.createAccount new = .ok (row, db') := by
        refine ⟨_, createAccount_ok_iff.mpr ⟨hrow, fun a ha => ⟨?_, ?_⟩, ?_, rfl⟩⟩
        · rw [hnumber']
          exact hnumber a ha
        · exact fun haref => htaken ⟨a, ha, haref.trans href⟩
        · rw [hcustomer]
          exact howner
      rw [verdict_ok (show exec (.accountCreate new) db = _ from hinsert), hk row db' hinsert,
        decide_eq_false htaken, require, if_pos rfl]

/-- What both calls do with the data of Nomba: refuse it without a number, else open the account. -/
theorem verdict_data {data : Json} {taken : Bool} {new : Json → Json → NewAccount} {refuse : Handler α}
    {opening : Json → Json → Handler α}
    (hrefuse : verdict refuse db = .error (.http 502 "Nomba response missing account number" none))
    (hopening : ∀ accountNumber nombaVaId, accountNumberOf data = .ok accountNumber →
      verdict (opening accountNumber nombaVaId) db = openingVerdict (new accountNumber nombaVaId) taken) :
    verdict (Prog.lift (accountNumberOf data) >>= fun accountNumber =>
      if (!accountNumber.truthy) = true then refuse
      else Prog.lift (nombaVaIdOf data) >>= opening accountNumber) db = dataVerdict data taken new := by
  unfold dataVerdict
  rw [verdict_lift]
  cases hn : accountNumberOf data with
  | error e => rfl
  | ok accountNumber =>
    show verdict (if _ then _ else _) db = (require _ _ >>= _)
    by_cases htruthy : accountNumber.truthy = true
    · rw [if_neg (by simp [htruthy]), require, if_pos htruthy, verdict_lift]
      cases nombaVaIdOf data with
      | error e => rfl
      | ok nombaVaId => exact hopening accountNumber nombaVaId hn
    · have hfalse : accountNumber.truthy = false := by simpa using htruthy
      rw [if_pos (by simp [hfalse]), require, if_neg htruthy, hrefuse]
      rfl

/-- The insert of the account and an answer that is read from the tables. -/
theorem verdict_provision {body : CreateCustomerRequest} {customer : Customer Decimal} {data : Json}
    (hunused : db.Unused data) (howner : ∃ c ∈ db.customers, c.id = customer.id) :
    verdict (provision body customer data) db =
      dataVerdict data (decide (db.Taken body.merchantCustomerId)) (newAccount body customer) := by
  refine verdict_data rfl fun accountNumber nombaVaId hn => ?_
  have hopen := @verdict_open Response db (newAccount body customer accountNumber nombaVaId)
    (fun _ => buildCustomerResponse customer >>= fun response =>
      .pure ⟨201, "Customer and dedicated account created", .customer response⟩)
    (hunused accountNumber hn) howner fun account db' _ => by
      unfold verdict
      rw [Prog.run_bind_ok exec (buildCustomerResponse_run _ _)]
      rfl
  exact hopen

/-- Inserting a customer whose key is free. -/
theorem verdict_insert {body : CreateCustomerRequest} {m : UUID} {k : Customer Decimal → Handler α}
    {x : Customer Cents → Except Err Unit} (henrolled : ¬ db.Enrolled m body.merchantCustomerId)
    (hk : ∀ row row₀, verdict (k (createdObject row)) (withCustomer db row) = x row₀) :
    verdict (.perform (.customerCreate (newCustomer body m)) k) db = (newCustomer body m).row 0 >>= x := by
  have hclock := NewCustomer.row_clock (newCustomer body m) db.clock 0
  cases hrow : (newCustomer body m).row db.clock with
  | error e =>
    have hrefused : exec (.customerCreate (newCustomer body m)) db = .error e := by
      show db.createCustomer _ = _
      rw [Tables.createCustomer, hrow]
      rfl
    rw [verdict_refused hrefused, error_of_row hclock hrow]
    rfl
  | ok row =>
    obtain ⟨row₀, hrow₀⟩ := ok_of_row hclock hrow
    obtain ⟨-, hmerchant, hexternal, -⟩ := NewCustomer.row_ok hrow
    have hnew : ∀ c ∈ db.customers,
        (c.merchantId, c.merchantCustomerId) ≠ (row.merchantId, row.merchantCustomerId) := by
      intro c hc hkey
      rw [hmerchant, hexternal, Prod.mk.injEq] at hkey
      exact henrolled ⟨c, mem_customersOf.mpr ⟨hc, hkey.1⟩, hkey.2⟩
    have hinsert : exec (.customerCreate (newCustomer body m)) db =
        .ok (createdObject row, withCustomer db row) :=
      createCustomer_ok_iff.mpr ⟨row, hrow, hnew, rfl, rfl⟩
    rw [hrow₀, verdict_ok hinsert, hk row row₀]
    rfl

theorem create_verdict (h : db.Constraints) {body : CreateCustomerRequest} {m : UUID} {data : Json}
    (hunused : db.Unused data) : verdict (create body m (.success data)) db =
      createVerdict body m data (decide (db.Enrolled m body.merchantCustomerId))
        (decide (db.Taken body.merchantCustomerId)) := by
  have hfind : (db.customers.find? fun c => (c.merchantId, c.merchantCustomerId) =
      (m, body.merchantCustomerId)).isSome = true ↔ db.Enrolled m body.merchantCustomerId := by
    simp [Tables.Enrolled, Tables.customersOf, and_assoc]
  have hfirst : (db.dedicatedAccounts.find? (·.accountRef = body.merchantCustomerId)).isSome = true ↔
      db.Taken body.merchantCustomerId := by
    simp [Tables.Taken]
  rw [create_eq, verdict_ok (exec_customerByExternalId h m body.merchantCustomerId)]
  unfold createVerdict
  by_cases henrolled : db.Enrolled m body.merchantCustomerId
  · rw [if_pos (by simpa using hfind.mpr henrolled), decide_eq_true henrolled]
    rfl
  · rw [if_neg (by simpa using mt hfind.mp henrolled), decide_eq_false henrolled,
      verdict_ok (show exec (.accountFirstByRef body.merchantCustomerId) db =
        .ok (db.dedicatedAccounts.find? (·.accountRef = body.merchantCustomerId), db) from rfl)]
    by_cases htaken : db.Taken body.merchantCustomerId
    · rw [if_pos (hfirst.mpr htaken), decide_eq_true htaken]
      rfl
    · rw [if_neg (mt hfirst.mp htaken), decide_eq_false htaken]
      show _ = (newCustomer body m).row 0 >>= _
      refine verdict_insert henrolled fun row row₀ => ?_
      rw [verdict_ok (show exec (.nombaCreateAccount body.merchantCustomerId body.name) (withCustomer db row) =
        .ok ((), withCustomer db row) from rfl)]
      have hprovision := @verdict_provision (withCustomer db row) body (createdObject row) data hunused
        ⟨row, List.mem_append_right _ (List.mem_singleton_self row), rfl⟩
      have hfree : decide ((withCustomer db row).Taken body.merchantCustomerId) = false :=
        decide_eq_false htaken
      rw [afterInsert, hprovision, hfree]
      exact dataVerdict_congr fun _ _ => ⟨rfl, rfl, rfl, rfl⟩

/-- Whether a customer of the merchant has an account. -/
theorem owns_iff {row : Customer Cents} {m : UUID} (hrow : row ∈ db.customersOf m) :
    (db.dedicatedAccounts.find? (·.customerId = row.id)).isSome = true ↔
      ¬ ∀ a ∈ db.accountsOf m, a.customerId ≠ row.id := by
  rw [find?_accountsOf (m := m) fun a ha => ⟨row, hrow, (of_decide_eq_true ha).symm⟩]
  simp

theorem verdict_dedicate {body : CreateDedicatedAccountRequest} {row : Customer Cents} {data : Json}
    (hunused : db.Unused data) (hrow : row ∈ db.customers) (h : db.Constraints) :
    verdict (dedicate row.load (dedicatedAccount body row.load .null .null).accountName data) db =
      dataVerdict data (decide (db.Taken row.merchantCustomerId)) (dedicatedAccount body row.load) := by
  refine verdict_data rfl fun accountNumber nombaVaId hn => ?_
  have hopen := @verdict_open Response db (dedicatedAccount body row.load accountNumber nombaVaId)
    (fun account => buildAccountResponse account >>= fun response =>
      .pure ⟨201, "Dedicated account created", .account response⟩)
    (hunused accountNumber hn) ⟨row, hrow, rfl⟩ fun account db' hinsert => by
      have hvalid := h.createAccount hinsert
      obtain ⟨-, -, -, rfl⟩ := createAccount_ok_iff.mp hinsert
      obtain ⟨owner, -, -, hfetch⟩ :=
        owner_row hvalid (List.mem_append_right _ (List.mem_singleton_self account))
      exact verdict_ok hfetch
  exact hopen

theorem createDedicated_verdict (h : db.Constraints) {body : CreateDedicatedAccountRequest} {m : UUID}
    {data : Json} (hunused : db.Unused data) :
    verdict (AccountService.createDedicated body m (.success data)) db =
      createDedicatedVerdict body data
        ((db.customersOf m).find? fun c => decide (c.merchantCustomerId = body.merchantCustomerId))
        (db.accountsOf m) (decide (db.Taken body.merchantCustomerId)) := by
  have hfind : (db.customers.find? fun c => (c.merchantId, c.merchantCustomerId) =
      (m, body.merchantCustomerId)) =
      (db.customersOf m).find? fun c => decide (c.merchantCustomerId = body.merchantCustomerId) := by
    rw [Tables.customersOf, List.find?_filter]
    simp
  unfold AccountService.createDedicated
  rw [Prog.op_bind, verdict_ok (exec_customerByExternalId h m body.merchantCustomerId), hfind]
  cases hrow : (db.customersOf m).find? fun c => decide (c.merchantCustomerId = body.merchantCustomerId) with
  | none => rfl
  | some row =>
    obtain ⟨hmem, hexternal⟩ : row ∈ db.customersOf m ∧ row.merchantCustomerId = body.merchantCustomerId :=
      ⟨List.mem_of_find?_eq_some hrow, by simpa using List.find?_some hrow⟩
    simp only [Option.map_some, Prog.op_bind]
    rw [verdict_ok (show exec (.accountFirstByCustomer row.load.id) db =
      .ok (db.dedicatedAccounts.find? (·.customerId = row.id), db) from rfl)]
    show verdict (if _ then _ else _) db = (require _ _ >>= _)
    by_cases howns : ∀ a ∈ db.accountsOf m, a.customerId ≠ row.id
    · rw [if_neg (mt (owns_iff hmem).mp (not_not_intro howns)), require, if_pos howns, ← hexternal]
      have hdedicate := @verdict_dedicate db body row data hunused (mem_customersOf.mp hmem).1 h
      exact hdedicate
    · rw [if_pos ((owns_iff hmem).mpr howns), require, if_neg howns]
      rfl

end Verdict

/-! ## Two states -/

/-- The merchant holds the same customers and accounts in both states. -/
structure SeesSame (m : UUID) (db₁ db₂ : Tables) : Prop where
  customers : db₁.customersOf m = db₂.customersOf m
  accounts : db₁.accountsOf m = db₂.accountsOf m

/-- For every merchant, both requests, data under whose number no account is stored and any two states in
which the merchant holds the same: `create` of a new external id, and `create_dedicated` for the external id of
a customer, end alike in both if the external id is the reference of a stored account in both or in neither;
`create` of an external id that the merchant has, and `create_dedicated` for one that it has not, do so anyway. -/
theorem creation_agrees (m : UUID) (body : CreateCustomerRequest) (request : CreateDedicatedAccountRequest)
    (data : Json) (db₁ db₂ : Database) (hsees : SeesSame m db₁.tables db₂.tables)
    (hunused₁ : db₁.tables.Unused data) (hunused₂ : db₂.tables.Unused data) :
    ((¬ db₁.tables.Enrolled m body.merchantCustomerId →
        (db₁.tables.Taken body.merchantCustomerId ↔ db₂.tables.Taken body.merchantCustomerId)) →
      verdict (create body m (.success data)) db₁.tables = verdict (create body m (.success data)) db₂.tables) ∧
    ((db₁.tables.Enrolled m request.merchantCustomerId →
        (db₁.tables.Taken request.merchantCustomerId ↔ db₂.tables.Taken request.merchantCustomerId)) →
      verdict (AccountService.createDedicated request m (.success data)) db₁.tables =
        verdict (AccountService.createDedicated request m (.success data)) db₂.tables) := by
  constructor
  · intro htaken
    have hsame : db₁.tables.Enrolled m body.merchantCustomerId ↔ db₂.tables.Enrolled m body.merchantCustomerId := by
      unfold Tables.Enrolled
      rw [hsees.customers]
    rw [create_verdict db₁.constraints hunused₁, create_verdict db₂.constraints hunused₂,
      decide_eq_decide.mpr hsame]
    by_cases henrolled : db₂.tables.Enrolled m body.merchantCustomerId
    · rw [decide_eq_true henrolled]
      rfl
    · rw [decide_eq_decide.mpr (htaken (mt hsame.mp henrolled))]
  · intro htaken
    rw [createDedicated_verdict db₁.constraints hunused₁, createDedicated_verdict db₂.constraints hunused₂,
      ← hsees.customers, hsees.accounts]
    cases hrow : (db₁.tables.customersOf m).find? fun c =>
        decide (c.merchantCustomerId = request.merchantCustomerId) with
    | none => rfl
    | some row =>
      have henrolled : db₁.tables.Enrolled m request.merchantCustomerId :=
        ⟨row, List.mem_of_find?_eq_some hrow, by simpa using List.find?_some hrow⟩
      rw [decide_eq_decide.mpr (htaken henrolled)]

/-- A request for an external id, and data with another account number than 9901. -/
def requestFor (externalId : String) : CreateCustomerRequest := ⟨externalId, "Ada", none, none, none, []⟩

def freshNumber : Json := .obj [("accountNumber", .str "9902")]

theorem unused_of_numbers {db : Tables} (h : ∀ a ∈ db.dedicatedAccounts, a.accountNumber ≠ "9902") :
    db.Unused freshNumber := by
  intro accountNumber hn
  have hnumber : accountNumber = .str "9902" := (Except.ok.inj hn).symm
  have htext : removeSpaces (Json.str "9902").text = "9902" := by decide
  rwa [hnumber, htext]

theorem creation_agrees_beside_another : verdict (create (requestFor "cust-2") 8 (.success freshNumber)) Tables.empty =
    verdict (create (requestFor "cust-2") 8 (.success freshNumber)) (provisioned none).tables := by
  have hcustomers : (provisioned none).tables.customersOf 8 = [] := by decide +kernel
  have haccounts : (provisioned none).tables.accountsOf 8 = [] := by decide +kernel
  have hnumbers : ∀ a ∈ (provisioned none).tables.dedicatedAccounts, a.accountNumber ≠ "9902" := by decide +kernel
  have hfree : ¬ (provisioned none).tables.Taken "cust-2" := by decide +kernel
  refine (creation_agrees 8 (requestFor "cust-2") ⟨"cust-2", none⟩ freshNumber .empty (provisioned none)
    ⟨hcustomers.symm, haccounts.symm⟩ (unused_of_numbers nofun) (unused_of_numbers hnumbers)).1 ?_
  exact fun _ => iff_of_false (by decide) hfree

/-- The external id that the merchant 7 has given an account is refused to the merchant 8. -/
theorem reference_refused_across_merchants : ¬ ∀ (m : UUID) (body : CreateCustomerRequest)
    (request : CreateDedicatedAccountRequest) (data : Json) (steps₁ steps₂ : List Step),
    SeesSame m (History.run steps₁).tables (History.run steps₂).tables →
    (History.run steps₁).tables.Unused data → (History.run steps₂).tables.Unused data →
    verdict (create body m (.success data)) (History.run steps₁).tables =
      verdict (create body m (.success data)) (History.run steps₂).tables ∧
    verdict (AccountService.createDedicated request m (.success data)) (History.run steps₁).tables =
      verdict (AccountService.createDedicated request m (.success data)) (History.run steps₂).tables := by
  intro hclaim
  set steps : List Step :=
    [.call (.create (requestFor "cust-1") 7 (.success (.obj [("accountNumber", .str "9901")])))]
  have hcustomers : (History.run steps).tables.customersOf 8 = [] := by decide +kernel
  have haccounts : (History.run steps).tables.accountsOf 8 = [] := by decide +kernel
  have hnumbers : ∀ a ∈ (History.run steps).tables.dedicatedAccounts, a.accountNumber ≠ "9902" := by
    decide +kernel
  have hsame := (hclaim 8 (requestFor "cust-1") ⟨"cust-1", none⟩ freshNumber [] steps
    ⟨hcustomers.symm, haccounts.symm⟩ (unused_of_numbers nofun) (unused_of_numbers hnumbers)).1
  have halone : (verdict (create (requestFor "cust-1") 8 (.success freshNumber)) (History.run []).tables).isOk =
      true := by decide +kernel
  have hbeside : (verdict (create (requestFor "cust-1") 8 (.success freshNumber)) (History.run steps).tables).isOk =
      false := by decide +kernel
  rw [hsame, hbeside] at halone
  cases halone

end LdbBackend
