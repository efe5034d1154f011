import LdbBackend.Payments.Wallet

/-!
# Does a failed provisioning leave a trace?

`CustomerService.create` inserts the customer, calls Nomba and inserts the account. It removes the
customer again when Nomba answers with a failure envelope or without an account number. What it does
not notice (`Unnoticed`) leaves the customer behind: an exception out of the Nomba client, data that is
not an object, and an account that cannot be stored.
-/

namespace LdbBackend

open Fixed Effects Table

namespace CustomerService

/-- The customer is new, its account reference is free, and its columns are valid. -/
structure Admits (db : Tables) (body : CreateCustomerRequest) (merchantId : UUID) : Prop where
  new : ∀ c ∈ db.customers,
    (c.merchantId, c.merchantCustomerId) ≠ (merchantId, body.merchantCustomerId)
  ref : ∀ a ∈ db.dedicatedAccounts, a.accountRef ≠ body.merchantCustomerId
  columns : ∃ row, (newCustomer body merchantId).row db.clock = .ok row

/-- The account number and identifier in Nomba's data fit their columns, and the number is free. -/
def Storable (db : Tables) (data accountNumber : Json) : Prop :=
  (removeSpaces accountNumber.text).length ≤ 20 ∧
    (∃ nombaVaId, nombaVaIdOf data = .ok nombaVaId ∧ ∃ v, nullableCharField 100 nombaVaId = .ok v) ∧
    ∀ a ∈ db.dedicatedAccounts, a.accountNumber ≠ removeSpaces accountNumber.text

/-- Outcomes of the Nomba call after which `create` fails without removing the customer. -/
def Unnoticed (db : Tables) : NombaOutcome → Prop
  | .raised _ => True
  | .failure _ => False
  | .success data =>
    match accountNumberOf data with
    | .error _ => True
    | .ok accountNumber => accountNumber.truthy = true ∧ ¬ Storable db data accountNumber

section Create

variable {db : Tables} {body : CreateCustomerRequest} {merchantId : UUID} {nomba : NombaOutcome}

/-- The customer of `create`, as an object in memory. -/
def createdObject (row : Customer Cents) : Customer Decimal :=
  { row with
    targetAmount := row.targetAmount.map fun n => (Decimal.ofScaled 2 n).normalize
    walletBalance := Decimal.zero }

def withCustomer (db : Tables) (row : Customer Cents) : Tables :=
  { db with customers := db.customers ++ [row], clock := db.clock + 1 }

/-- What `create` does once the customer is inserted. -/
def afterInsert (body : CreateCustomerRequest) (customer : Customer Decimal) :
    NombaOutcome → Handler Response
  | .raised e => .raise e
  | .failure message => do
    let _ ← await (.customerDelete customer.id)
    .raise (.http 502 "Failed to provision Nomba virtual account" (some [message]))
  | .success data => provision body customer data

theorem create_eq :
    create body merchantId nomba =
      .perform (.customerByExternalId merchantId body.merchantCustomerId) fun existing =>
      if existing.isSome then
        .raise (.http 409 "Customer with this merchant_customer_id already exists" none)
      else .perform (.accountFirstByRef body.merchantCustomerId) fun existingAccount =>
        if existingAccount.isSome then
          .raise (.http 409 "Dedicated account reference already exists" none)
        else .perform (.customerCreate (newCustomer body merchantId)) fun customer =>
          .perform (.nombaCreateAccount body.merchantCustomerId body.name) fun _ =>
          afterInsert body customer nomba := by
  cases nomba <;> rfl

/-- A call that is not admitted fails before it writes. -/
theorem create_refused (h : db.Constraints) (hno : ¬ Admits db body merchantId) :
    ∃ e, Prog.run exec (create body merchantId nomba) db = (.error e, db) := by
  rw [create_eq, Prog.run_perform_ok exec (exec_customerByExternalId h _ _)]
  split_ifs with hexisting
  · exact ⟨_, rfl⟩
  · rw [Prog.run_perform_ok exec (show exec (.accountFirstByRef body.merchantCustomerId) db =
      .ok (db.dedicatedAccounts.find? (·.accountRef = body.merchantCustomerId), db) from rfl)]
    split_ifs with haccount
    · exact ⟨_, rfl⟩
    · have hnew : ∀ c ∈ db.customers,
          (c.merchantId, c.merchantCustomerId) ≠ (merchantId, body.merchantCustomerId) := by
        simpa using hexisting
      have href : ∀ a ∈ db.dedicatedAccounts, a.accountRef ≠ body.merchantCustomerId := by
        simpa using haccount
      cases hexec : exec (.customerCreate (newCustomer body merchantId)) db with
      | error e => exact ⟨e, Prog.run_perform_error exec hexec⟩
      | ok x =>
        obtain ⟨row, hrow, -, -, -⟩ := createCustomer_ok_iff.mp hexec
        exact absurd ⟨hnew, href, row, hrow⟩ hno

theorem createCustomer_admitted (hadmits : Admits db body merchantId) {row : Customer Cents}
    (hrow : (newCustomer body merchantId).row db.clock = .ok row) :
    db.createCustomer (newCustomer body merchantId) =
      .ok (createdObject row, withCustomer db row) := by
  refine createCustomer_ok_iff.mpr ⟨row, hrow, ?_, rfl, rfl⟩
  obtain ⟨-, hm, hx, -⟩ := NewCustomer.row_ok hrow
  rw [hm, hx]
  exact hadmits.new

/-- An admitted call inserts the customer first. -/
theorem create_admitted (h : db.Constraints) (hadmits : Admits db body merchantId)
    {row : Customer Cents} (hrow : (newCustomer body merchantId).row db.clock = .ok row) :
    Prog.run exec (create body merchantId nomba) db =
      Prog.run exec (afterInsert body (createdObject row) nomba) (withCustomer db row) := by
  have hnone : db.customers.find? (fun c => (c.merchantId, c.merchantCustomerId) =
      (merchantId, body.merchantCustomerId)) = none := by
    rw [List.find?_eq_none]
    intro c hc
    simpa using hadmits.new c hc
  have href : db.dedicatedAccounts.find? (·.accountRef = body.merchantCustomerId) = none := by
    rw [List.find?_eq_none]
    intro a ha
    simpa using hadmits.ref a ha
  have hcreate : exec (.customerCreate (newCustomer body merchantId)) db =
      .ok (createdObject row, withCustomer db row) := createCustomer_admitted hadmits hrow
  rw [create_eq, Prog.run_perform_ok exec (exec_customerByExternalId h _ _), hnone,
    if_neg (by simp),
    Prog.run_perform_ok exec (show exec (.accountFirstByRef body.merchantCustomerId) db =
      .ok (db.dedicatedAccounts.find? (·.accountRef = body.merchantCustomerId), db) from rfl), href,
    if_neg (by simp), Prog.run_perform_ok exec hcreate,
    Prog.run_perform_ok exec (show exec (.nombaCreateAccount body.merchantCustomerId body.name)
      (withCustomer db row) = .ok ((), withCustomer db row) from rfl)]

/-- No account belongs to a customer that was not there yet. -/
theorem unowned_new (h : db.Constraints) {id : UUID} (hid : id = db.clock) :
    ∀ a ∈ db.dedicatedAccounts, a.customerId ≠ id := by
  intro a ha
  obtain ⟨c, hc, hca⟩ := h.account_fk a ha
  rw [← hca]
  exact ne_of_fresh (h.customer_fresh c hc) hid

/-- Removing the new customer brings customers and accounts back. -/
theorem removed_customer (h : db.Constraints) {row : Customer Cents} (hid : row.id = db.clock) :
    ((withCustomer db row).deleteCustomer row.id).customers = db.customers ∧
      ((withCustomer db row).deleteCustomer row.id).dedicatedAccounts = db.dedicatedAccounts := by
  constructor
  · have hold : db.customers.filter (fun c => decide (c.id ≠ row.id)) = db.customers := by
      rw [List.filter_eq_self]
      intro c hc
      simpa using ne_of_fresh (h.customer_fresh c hc) hid
    simp only [Tables.deleteCustomer, withCustomer, List.filter_append, hold]
    simp
  · simp only [Tables.deleteCustomer, withCustomer, List.filter_eq_self]
    intro a ha
    simpa using unowned_new h hid a ha

/-- The account row of a call whose customer was inserted. -/
def newAccount (body : CreateCustomerRequest) (customer : Customer Decimal)
    (accountNumber nombaVaId : Json) : NewAccount where
  customer := customer
  nombaVaId := nombaVaId
  accountNumber := removeSpaces accountNumber.text
  accountName := body.name
  accountRef := body.merchantCustomerId

theorem createAccount_iff_storable (hadmits : Admits db body merchantId) {row : Customer Cents}
    (hrow : (newCustomer body merchantId).row db.clock = .ok row) {data accountNumber vaId : Json}
    (hva : nombaVaIdOf data = .ok vaId) :
    (∃ x, (withCustomer db row).createAccount (newAccount body (createdObject row) accountNumber vaId) =
      .ok x) ↔ Storable db data accountNumber := by
  obtain ⟨href, hname⟩ := NewCustomer.row_lengths hrow
  constructor
  · rintro ⟨⟨a, db₂⟩, hx⟩
    obtain ⟨ha, hnew, -, -⟩ := createAccount_ok_iff.mp hx
    obtain ⟨⟨v, hv⟩, hlength, -, -⟩ := NewAccount.exists_row_iff.mp ⟨a, ha⟩
    obtain ⟨-, -, hnumber, -, -⟩ := NewAccount.row_ok ha
    refine ⟨hlength, ⟨vaId, hva, v, hv⟩, fun b hb => ?_⟩
    have := (hnew b hb).1
    rwa [hnumber] at this
  · rintro ⟨hlength, ⟨vaId', hva', v, hv⟩, hfree⟩
    rw [hva] at hva'
    cases hva'
    obtain ⟨a, ha⟩ : ∃ a, (newAccount body (createdObject row) accountNumber vaId).row
        (withCustomer db row).clock = .ok a :=
      NewAccount.exists_row_iff.mpr ⟨⟨v, hv⟩, hlength, hname, href⟩
    obtain ⟨-, hcustomer, hnumber, haref, -⟩ := NewAccount.row_ok ha
    refine ⟨_, createAccount_ok_iff.mpr ⟨ha, fun b hb => ?_, ?_, rfl⟩⟩
    · rw [hnumber, haref]
      exact ⟨hfree b hb, hadmits.ref b hb⟩
    · exact ⟨row, List.mem_append_right _ (List.mem_singleton_self row), hcustomer.symm⟩

/-- How an admitted call ends: the customer is left behind, it is removed again, or its account is
inserted too. -/
inductive Creates (db : Tables) (row : Customer Cents) (nomba : NombaOutcome) :
    Except Err Response × Tables → Prop
  | stranded (e : Err) (fails : Unnoticed db nomba) : Creates db row nomba (.error e, withCustomer db row)
  | removed (e : Err) (noticed : ¬ Unnoticed db nomba) :
      Creates db row nomba (.error e, (withCustomer db row).deleteCustomer row.id)
  | provisioned {response : Response} {new : NewAccount} {account : DedicatedAccount} {db' : Tables}
      (stored : ¬ Unnoticed db nomba)
      (insert : (withCustomer db row).createAccount new = .ok (account, db'))
      (owner : account.customerId = row.id) : Creates db row nomba (.ok response, db')

theorem unnoticed_of_error {data : Json} {e : Err} (he : accountNumberOf data = .error e) :
    Unnoticed db (.success data) := by
  simp only [Unnoticed, he]

theorem unnoticed_iff {data accountNumber : Json} (hn : accountNumberOf data = .ok accountNumber) :
    Unnoticed db (.success data) ↔ accountNumber.truthy = true ∧ ¬ Storable db data accountNumber := by
  simp only [Unnoticed, hn]

theorem provision_account (customer : Customer Decimal) {data accountNumber vaId : Json}
    (hn : accountNumberOf data = .ok accountNumber) (htruthy : accountNumber.truthy = true)
    (hva : nombaVaIdOf data = .ok vaId) : provision body customer data =
      .perform (.accountCreate (newAccount body customer accountNumber vaId)) fun _ =>
      buildCustomerResponse customer >>= fun response =>
      .pure ⟨201, "Customer and dedicated account created", .customer response⟩ := by
  unfold provision
  simp only [hn, hva, htruthy, Prog.lift_ok, Prog.pure_bind', Bool.not_true, Bool.false_eq_true,
    if_false]
  rfl

theorem provision_creates (hadmits : Admits db body merchantId) {row : Customer Cents}
    (hrow : (newCustomer body merchantId).row db.clock = .ok row) (data : Json) :
    Creates db row (.success data)
      (Prog.run exec (provision body (createdObject row) data) (withCustomer db row)) := by
  cases hnumber : accountNumberOf data with
  | error e =>
    unfold provision
    rw [hnumber]
    exact .stranded e (unnoticed_of_error hnumber)
  | ok accountNumber =>
    by_cases htruthy : accountNumber.truthy = true
    · cases hva : nombaVaIdOf data with
      | error e =>
        have hfails : Unnoticed db (.success data) := by
          refine (unnoticed_iff hnumber).mpr ⟨htruthy, ?_⟩
          rintro ⟨-, ⟨vaId, hva', -⟩, -⟩
          rw [hva] at hva'
          cases hva'
        unfold provision
        simp only [hnumber, hva, htruthy, Prog.lift_ok, Prog.lift_error, Prog.pure_bind',
          Prog.raise_bind, Bool.not_true, Bool.false_eq_true, if_false]
        exact .stranded e hfails
      | ok vaId =>
        have hstorable : (∃ x, (withCustomer db row).createAccount
            (newAccount body (createdObject row) accountNumber vaId) = .ok x) ↔
              ¬ Unnoticed db (.success data) := by
          rw [unnoticed_iff hnumber, and_iff_right htruthy, not_not]
          exact createAccount_iff_storable hadmits hrow hva
        rw [provision_account _ hnumber htruthy hva]
        cases haccount : exec (.accountCreate (newAccount body (createdObject row) accountNumber vaId))
            (withCustomer db row) with
        | error e =>
          rw [Prog.run_perform_error exec haccount]
          refine .stranded e (by_contra fun hstored => ?_)
          obtain ⟨x, hx⟩ := hstorable.mpr hstored
          cases haccount.symm.trans hx
        | ok x =>
          rw [Prog.run_perform_ok exec haccount]
          exact .provisioned (hstorable.mp ⟨x, haccount⟩) haccount
            (NewAccount.row_ok (createAccount_ok_iff.mp haccount).1).2.1
    · have hnoticed : ¬ Unnoticed db (.success data) := fun hfails =>
        htruthy ((unnoticed_iff hnumber).mp hfails).1
      have hfalse : accountNumber.truthy = false := by simpa using htruthy
      unfold provision
      simp only [hnumber, hfalse, Prog.lift_ok, Prog.pure_bind', Bool.not_false, if_true, Prog.op_bind]
      exact .removed _ hnoticed

/-- Every admitted call ends in one of the listed ways. -/
theorem create_creates (h : db.Constraints) (hadmits : Admits db body merchantId) :
    ∃ row, (newCustomer body merchantId).row db.clock = .ok row ∧
      Creates db row nomba (Prog.run exec (create body merchantId nomba) db) := by
  obtain ⟨row, hrow⟩ := hadmits.columns
  refine ⟨row, hrow, ?_⟩
  rw [create_admitted h hadmits hrow]
  cases nomba with
  | raised e => exact .stranded e trivial
  | failure message => exact .removed _ id
  | success data => exact provision_creates hadmits hrow data

end Create

end CustomerService

end LdbBackend
