import LdbBackend.Isolation.Conduct
import LdbBackend.Delivery.Posted
import LdbBackend.History.Ledger

/-!
# Provisioned accounts stay reachable

Provisioning stores the account number without spaces and the external id of the customer as reference;
a payment is routed by its number without spaces, and otherwise by its reference. No later call changes
the number, the reference or the owner of an account (`Holder`), and both columns are unique, so a payment
addressed either way leads to the account.
-/

namespace LdbBackend

open Fixed Effects Table

/-- The account is there, with this owner and these ways to address it. -/
structure Holder (accountId owner : UUID) (number ref : String) (db : Tables) : Prop where
  account : ∃ a ∈ db.dedicatedAccounts, a.id = accountId ∧ a.customerId = owner ∧
    a.accountNumber = number ∧ a.accountRef = ref
  customer : ∃ c ∈ db.customers, c.id = owner ∧ c.merchantCustomerId = ref

section Keep

variable {db db' : Tables} {accountId owner : UUID} {number ref : String} {m : UUID}

theorem Holder.of_append (h : Holder accountId owner number ref db) {cs : List (Customer Cents)}
    {as : List DedicatedAccount} (hcustomers : db'.customers = db.customers ++ cs)
    (haccounts : db'.dedicatedAccounts = db.dedicatedAccounts ++ as) :
    Holder accountId owner number ref db' := by
  obtain ⟨⟨a, ha, hkeys⟩, c, hc, hrow⟩ := h
  exact ⟨⟨a, haccounts ▸ List.mem_append_left _ ha, hkeys⟩, c, hcustomers ▸ List.mem_append_left _ hc, hrow⟩

theorem Holder.of_same (h : Holder accountId owner number ref db) (hcustomers : db'.customers = db.customers)
    (haccounts : db'.dedicatedAccounts = db.dedicatedAccounts) : Holder accountId owner number ref db' :=
  h.of_append (hcustomers.trans (List.append_nil _).symm) (haccounts.trans (List.append_nil _).symm)

/-- Saving a customer under its external id. -/
theorem Holder.of_saved (h : Holder accountId owner number ref db) {row saved : Customer Cents}
    (hc : db.Constraints) (hrow : row ∈ db.customers) (hid : saved.id = row.id)
    (hexternal : saved.merchantCustomerId = row.merchantCustomerId)
    (hcustomers : db'.customers = setRow (·.id) saved db.customers)
    (haccounts : db'.dedicatedAccounts = db.dedicatedAccounts) : Holder accountId owner number ref db' := by
  obtain ⟨⟨a, ha, hkeys⟩, c, hmem, howner, href⟩ := h
  refine ⟨⟨a, haccounts ▸ ha, hkeys⟩, ?_⟩
  rw [hcustomers]
  by_cases hsame : c.id = saved.id
  · obtain rfl := eq_of_key hc.customer_pk hmem hrow (hsame.trans hid)
    exact ⟨saved, mem_setRow.mpr (.inl ⟨rfl, c, hmem, hsame⟩), hid.trans howner, hexternal.trans href⟩
  · exact ⟨c, mem_setRow.mpr (.inr ⟨hmem, hsame⟩), howner, href⟩

theorem orderly_holder (h : db.Constraints) (hh : Holder accountId owner number ref db) {o : Op}
    {r : Res o} (ho : o.Orderly m db) (he : exec o db = .ok (r, db')) :
    Holder accountId owner number ref db' := by
  cases hq : o.isQuery with
  | true => exact exec_query hq he ▸ hh
  | false =>
    cases o with
    | customerCreate new =>
      obtain ⟨row, -, -, -, rfl⟩ := createCustomer_ok_iff.mp he
      exact hh.of_append rfl (List.append_nil _).symm
    | customerSave c =>
      obtain ⟨row, hrow, hid, -, hexternal⟩ := ho
      obtain ⟨target, wallet, -, -, -, rfl⟩ := saveCustomer_ok_iff.mp (written_ok_iff.mp he)
      exact hh.of_saved h (mem_customersOf.mp hrow).1 hid hexternal rfl rfl
    | customerDelete id =>
      obtain ⟨-, hunowned⟩ := ho
      cases he
      rw [deleteCustomer_unowned hunowned]
      obtain ⟨⟨a, ha, hkeys⟩, c, hc, howner, href⟩ := hh
      refine ⟨⟨a, ha, hkeys⟩, c, List.mem_filter.mpr ⟨hc, ?_⟩, howner, href⟩
      have hne : c.id ≠ id := by
        rw [howner, ← hkeys.2.1]
        exact hunowned a ha
      simpa using hne
    | accountCreate new =>
      obtain ⟨-, -, -, rfl⟩ := createAccount_ok_iff.mp he
      exact hh.of_append (List.append_nil _).symm rfl
    | accountSave a =>
      obtain ⟨b, hb, name, rfl⟩ := ho
      obtain ⟨-, rfl⟩ := saveAccount_ok_iff.mp (written_ok_iff.mp he)
      obtain ⟨⟨a, ha, hid, hkeys⟩, hcustomer⟩ := hh
      refine ⟨?_, hcustomer⟩
      by_cases hsame : a.id = b.id
      · obtain rfl := eq_of_key h.account_pk ha (mem_accountsOf.mp hb).1 hsame
        exact ⟨_, mem_setRow.mpr (.inl ⟨rfl, a, ha, rfl⟩), hid, hkeys⟩
      · exact ⟨a, mem_setRow.mpr (.inr ⟨ha, hsame⟩), hid, hkeys⟩
    | registrationCreate merchantId url secret events =>
      rw [createRegistration_ok he]
      exact hh.of_same rfl rfl
    | transactionCreate _ | suspenseLogCreate _ _ _ | reconciliationLogCreate _
    | processedCreate _ _ => exact ho.elim
    | _ => cases hq

theorem conducted_holder {α : Type} {p : Handler α} (h : db.Constraints)
    (hh : Holder accountId owner number ref db) (hp : Conducted m p db) :
    Holder accountId owner number ref (stateAfter p db) := by
  have hinv : (stateAfter p db).Constraints ∧ Holder accountId owner number ref (stateAfter p db) := by
    refine Prog.along_invariant (I := fun s => s.Constraints ∧ Holder accountId owner number ref s) ?_
      hp ⟨h, hh⟩
    intro o s r s' ⟨hs, hs'⟩ ho he
    exact ⟨exec_constraints hs he, orderly_holder hs hs' ho he⟩
  exact hinv.2

theorem delivers_holder {env : Surroundings} {payload : Json} {o : Outcome Op Res Err Response Tables}
    (h : db.Constraints) (hh : Holder accountId owner number ref db) (hd : Delivers env payload db o) :
    Holder accountId owner number ref o.state := by
  rcases hd.posted with ⟨hun, -⟩ | ⟨requestId, p, t, -, hposted⟩
  · exact hh.of_same hun.customers hun.accounts
  · cases hposted.lands with
    | held _ _ _ _ _ customers => exact hh.of_same customers hposted.accounts
    | unsaved _ _ _ _ customers => exact hh.of_same customers hposted.accounts
    | saved credit _ _ _ customers =>
      refine hh.of_saved h credit.mem ?_ ?_ customers hposted.accounts
      · rfl
      · rfl

theorem nightly_holder (hh : Holder accountId owner number ref db) (checkedAt : String)
    (nomba : NombaOutcome) :
    Holder accountId owner number ref (stateAfter (runNightlyReconciliation checkedAt nomba) db) := by
  refine Prog.run_ops_invariant Op.Nightly (Holder accountId owner number ref)
    (fun o s r s' ho hs he => ?_) db (Prog.ops_all (nightly_all checkedAt nomba) db) hh
  cases hq : o.isQuery with
  | true => exact exec_query hq he ▸ hs
  | false =>
    cases o with
    | reconciliationLogCreate new =>
      obtain ⟨l, -, -, rfl⟩ := createReconciliationLog_ok_iff.mp (written_ok_iff.mp he)
      exact hs.of_same rfl rfl
    | _ => cases hq.symm.trans ho

theorem setStatus_holder (hh : Holder accountId owner number ref db) (id : UUID) (status : AccountStatus) :
    Holder accountId owner number ref (db.setStatus id status) := by
  obtain ⟨⟨a, ha, hid, howner, hnumber, href⟩, hcustomer⟩ := hh
  refine ⟨⟨_, List.mem_map.mpr ⟨a, ha, rfl⟩, ?_⟩, hcustomer⟩
  split_ifs
  · exact ⟨hid, howner, hnumber, href⟩
  · exact ⟨hid, howner, hnumber, href⟩

end Keep

/-! ## Sequential runs -/

/-- The history after further steps. -/
def History.continue (h : History) (steps : List Step) : History := steps.foldl History.step h

section Run

variable {h : History} {accountId owner : UUID} {number ref : String}

theorem step_holder (hc : h.tables.Constraints) (hh : Holder accountId owner number ref h.tables)
    (s : Step) : Holder accountId owner number ref (h.step s).tables := by
  cases hs : s.delivers h.tables with
  | some payload =>
    obtain ⟨env, o, hd, hstep⟩ := step_delivers hc hs
    rw [hstep]
    exact delivers_holder hc hh hd
  | none =>
    cases s with
    | setStatus id status => exact setStatus_holder hh id status
    | call c =>
      cases c with
      | create body m nomba =>
        rw [step_call rfl]
        exact conducted_holder hc hh (conducted_create hc body nomba)
      | createDedicated body m nomba =>
        rw [step_call rfl]
        exact conducted_holder hc hh (conducted_createDedicated body nomba)
      | update customerId body m nomba =>
        rw [step_call rfl]
        exact conducted_holder hc hh (conducted_update customerId body nomba)
      | register body m =>
        rw [step_call rfl]
        exact conducted_holder hc hh (conducted_register (m := m) body)
      | nightly checkedAt nomba =>
        rw [step_call rfl]
        exact nightly_holder hh checkedAt nomba
      | receive env payload => cases hs
      | simulate env requestId body => cases hs

theorem continue_holder (hc : h.tables.Constraints) (hh : Holder accountId owner number ref h.tables)
    (steps : List Step) : (h.continue steps).tables.Constraints ∧
      Holder accountId owner number ref (h.continue steps).tables := by
  induction steps generalizing h with
  | nil => exact ⟨hc, hh⟩
  | cons s steps ih => exact ih (step_constraints hc) (step_holder hc hh s)

end Run

/-! ## Provisioning -/

/-- A call that provisions an account. -/
inductive ProvisionRequest
  | createCustomer (body : CreateCustomerRequest)
  | createDedicatedAccount (body : CreateDedicatedAccountRequest)

namespace ProvisionRequest

def merchantCustomerId : ProvisionRequest → String
  | createCustomer body => body.merchantCustomerId
  | createDedicatedAccount body => body.merchantCustomerId

/-- The call, with data that Nomba returned. -/
def handler (merchantId : UUID) (data : Json) : ProvisionRequest → Handler Response
  | createCustomer body => CustomerService.create body merchantId (.success data)
  | createDedicatedAccount body => AccountService.createDedicated body merchantId (.success data)

end ProvisionRequest

/-- The call has added `account` for the customer `owner`. -/
structure Provided (raw ref : String) (m : UUID) (db db' : Tables) (account : DedicatedAccount)
    (owner : Customer Cents) : Prop where
  inserted : db'.dedicatedAccounts = db.dedicatedAccounts ++ [account]
  number : account.accountNumber = removeSpaces raw
  reference : account.accountRef = ref
  mem : owner ∈ db'.customers
  owns : account.customerId = owner.id
  merchant : owner.merchantId = m
  external : owner.merchantCustomerId = ref

section Provide

variable {db : Tables} {m : UUID} {data : Json} {raw : String}

theorem truthy_of_nonblank (h : removeSpaces raw ≠ "") : (Json.str raw).truthy = true := by
  have hne : raw ≠ "" := by
    rintro rfl
    exact h (by decide)
  simpa [Json.truthy] using hne

theorem create_provides (h : db.Constraints) {body : CreateCustomerRequest} {response : Response}
    (hraw : accountNumberOf data = .ok (.str raw)) (hnonblank : removeSpaces raw ≠ "")
    (hok : (Prog.run exec (CustomerService.create body m (.success data)) db).1 = .ok response) :
    ∃ account owner, Provided raw body.merchantCustomerId m db
      (stateAfter (CustomerService.create body m (.success data)) db) account owner := by
  by_cases hadmits : CustomerService.Admits db body m
  · obtain ⟨row, hrow⟩ := hadmits.columns
    unfold stateAfter
    rw [CustomerService.create_admitted h hadmits hrow] at hok ⊢
    show ∃ account owner, Provided _ _ _ _ (Prog.run exec (CustomerService.provision body
      (CustomerService.createdObject row) data) (CustomerService.withCustomer db row)).2 account owner
    have htruthy := truthy_of_nonblank hnonblank
    cases hva : nombaVaIdOf data with
    | error e =>
      have hprovision : CustomerService.provision body (CustomerService.createdObject row) data =
          .raise e := by
        unfold CustomerService.provision
        simp only [hraw, hva, htruthy, Prog.lift_ok, Prog.lift_error, Prog.pure_bind', Prog.raise_bind,
          Bool.not_true, Bool.false_eq_true, if_false]
      rw [CustomerService.afterInsert, hprovision] at hok
      cases hok
    | ok vaId =>
      have hprogram : CustomerService.provision body (CustomerService.createdObject row) data = _ :=
        CustomerService.provision_account _ hraw htruthy hva
      rw [CustomerService.afterInsert, hprogram] at hok
      rw [hprogram]
      set new := CustomerService.newAccount body (CustomerService.createdObject row) (.str raw) vaId
      cases he : exec (.accountCreate new) (CustomerService.withCustomer db row) with
      | error e =>
        rw [Prog.run_perform_error exec he] at hok
        cases hok
      | ok x =>
        obtain ⟨account, db'⟩ := x
        show ∃ account owner, Provided _ _ _ _ (stateAfter (.perform (.accountCreate new) _)
          (CustomerService.withCustomer db row)) account owner
        rw [state_last_write he]
        · obtain ⟨ha, -, -, rfl⟩ := createAccount_ok_iff.mp he
          obtain ⟨-, howner, hnumber, href, -⟩ := NewAccount.row_ok ha
          obtain ⟨-, hmerchant, hexternal, -⟩ := NewCustomer.row_ok hrow
          exact ⟨account, row, rfl, hnumber, href, List.mem_append_right _ (List.mem_singleton_self row),
            howner, hmerchant, hexternal⟩
        · exact (buildCustomerResponse_reads _).bind fun _ => trivial
  · obtain ⟨e, he⟩ : ∃ e, Prog.run exec (CustomerService.create body m (.success data)) db =
        (.error e, db) := CustomerService.create_refused h hadmits
    rw [he] at hok
    cases hok

theorem dedicate_provides {customer : Customer Decimal} {accountName : String} {response : Response}
    (hraw : accountNumberOf data = .ok (.str raw)) (hnonblank : removeSpaces raw ≠ "")
    (hok : (Prog.run exec (dedicate customer accountName data) db).1 = .ok response) : ∃ account,
      (stateAfter (dedicate customer accountName data) db).dedicatedAccounts =
        db.dedicatedAccounts ++ [account] ∧
      (stateAfter (dedicate customer accountName data) db).customers = db.customers ∧
      account.accountNumber = removeSpaces raw ∧ account.accountRef = customer.merchantCustomerId ∧
      account.customerId = customer.id := by
  have htruthy := truthy_of_nonblank hnonblank
  cases hva : nombaVaIdOf data with
  | error e =>
    have hprogram : dedicate customer accountName data = .raise e := by
      unfold dedicate
      simp only [hraw, hva, htruthy, Prog.lift_ok, Prog.lift_error, Prog.pure_bind', Prog.raise_bind,
        Bool.not_true, Bool.false_eq_true, if_false]
    rw [hprogram] at hok
    cases hok
  | ok vaId =>
    set new : NewAccount :=
      ⟨customer, vaId, removeSpaces raw, accountName, customer.merchantCustomerId⟩
    have hprogram : dedicate customer accountName data =
        .perform (.accountCreate new) fun account => buildAccountResponse account >>= fun response =>
          .pure ⟨201, "Dedicated account created", .account response⟩ := by
      unfold dedicate
      simp only [hraw, hva, htruthy, Prog.lift_ok, Prog.pure_bind', Bool.not_true, Bool.false_eq_true,
        if_false]
      rfl
    rw [hprogram] at hok ⊢
    cases he : exec (.accountCreate new) db with
    | error e =>
      rw [Prog.run_perform_error exec he] at hok
      cases hok
    | ok x =>
      obtain ⟨account, db'⟩ := x
      rw [state_last_write he]
      · obtain ⟨ha, -, -, rfl⟩ := createAccount_ok_iff.mp he
        obtain ⟨-, howner, hnumber, href, -⟩ := NewAccount.row_ok ha
        exact ⟨account, rfl, rfl, hnumber, href, howner⟩
      · exact (buildAccountResponse_reads account).bind fun _ => trivial

theorem createDedicated_provides (h : db.Constraints) {body : CreateDedicatedAccountRequest}
    {response : Response} (hraw : accountNumberOf data = .ok (.str raw))
    (hnonblank : removeSpaces raw ≠ "")
    (hok : (Prog.run exec (AccountService.createDedicated body m (.success data)) db).1 = .ok response) :
    ∃ account owner, Provided raw body.merchantCustomerId m db
      (stateAfter (AccountService.createDedicated body m (.success data)) db) account owner := by
  unfold AccountService.createDedicated at hok ⊢
  rw [Prog.op_bind] at hok ⊢
  have hfind := exec_customerByExternalId h m body.merchantCustomerId
  rw [Prog.run_perform_ok exec hfind] at hok
  rw [state_query hfind]
  cases hrow : db.customers.find? fun c =>
      (c.merchantId, c.merchantCustomerId) = (m, body.merchantCustomerId) with
  | none =>
    rw [hrow] at hok
    cases hok
  | some row =>
    rw [hrow] at hok
    have hmem := List.mem_of_find?_eq_some hrow
    have hkey : (row.merchantId, row.merchantCustomerId) = (m, body.merchantCustomerId) := by
      simpa using List.find?_some hrow
    obtain ⟨hmerchant, hexternal⟩ := Prod.mk.inj hkey
    simp only [Option.map_some, Prog.op_bind] at hok ⊢
    have hexisting : exec (.accountFirstByCustomer row.load.id) db =
        .ok (db.dedicatedAccounts.find? (·.customerId = row.load.id), db) := rfl
    rw [Prog.run_perform_ok exec hexisting] at hok
    rw [state_query hexisting]
    split_ifs at hok ⊢
    · cases hok
    · have hnomba : ∀ name, exec (.nombaCreateAccount row.load.merchantCustomerId name) db = .ok ((), db) :=
        fun _ => rfl
      rw [Prog.run_perform_ok exec (hnomba _)] at hok
      rw [state_query (hnomba _)]
      obtain ⟨account, hinserted, hcustomers, hnumber, href, howner⟩ :=
        dedicate_provides hraw hnonblank hok
      exact ⟨account, row, hinserted, hnumber, href.trans hexternal, hcustomers.symm ▸ hmem, howner,
        hmerchant, hexternal⟩

theorem request_provides (h : db.Constraints) {request : ProvisionRequest} {response : Response}
    (hraw : accountNumberOf data = .ok (.str raw)) (hnonblank : removeSpaces raw ≠ "")
    (hok : (Prog.run exec (request.handler m data) db).1 = .ok response) : ∃ account owner,
      Provided raw request.merchantCustomerId m db (stateAfter (request.handler m data) db) account
        owner := by
  cases request with
  | createCustomer body => exact create_provides h hraw hnonblank hok
  | createDedicatedAccount body => exact createDedicated_provides h hraw hnonblank hok

end Provide

/-! ## Payments to the account -/

/-- A field of `data.transaction`. -/
def transferField (payload : Json) (key : String) : Except Err Json := do
  let data ← payload.get "data" (.obj [])
  let transactionData ← data.get "transaction" (.obj [])
  transactionData.get key .null

/-- A payment with texts for number and reference and an amount of `n` cents, in a payload that its column
takes: `orjson` goes down 254 levels. -/
structure Transfer (payload requestId : Json) (p : Payment) (number reference : String) (n : Cents) :
    Prop where
  kind : kindOf payload = .payment requestId p
  number : transferField payload "aliasAccountNumber" = .ok (.str number)
  reference : transferField payload "aliasAccountReference" = .ok (.str reference)
  amount : p.amount.IsScaled 2 n
  stored : payload.storable = true
  shallow : payload.depth ≤ 254

/-- The number is that of the account up to spaces; or it leads nowhere, and the reference is. Either is looked up
only if its column could hold it. -/
def Addressed (db : Tables) (raw ref number reference : String) : Prop :=
  removeSpaces number = removeSpaces raw ∨
    (removeSpaces number = "" ∨ FilterText 20 (removeSpaces number) ∧
      ∀ a ∈ db.dedicatedAccounts, a.accountNumber ≠ removeSpaces number) ∧
    reference ≠ "" ∧ FilterText 100 reference ∧ reference = ref

/-- The request id is new to the ledger and to the transactions. -/
structure NewRequest (db : Tables) (requestId : Json) : Prop where
  unprocessed : db.processed requestId.text = false
  unrecorded : ∀ t ∈ db.transactions, t.nombaRequestId ≠ requestId.text

/-- The owner's wallet takes the sum with the payment, which is exact within the digits of the context,
and no other wallet changes. -/
structure CreditedTo (owner : UUID) (p : Payment) (n : Cents) (before after : Tables) : Prop where
  credited : ∃ w w', before.wallet owner = some w ∧ after.wallet owner = some w' ∧
    numericColumn (Decimal.ofScaled 2 w + p.amount) = .ok w' ∧
    ((w + n).natAbs < 10 ^ prec → w' = w + n)
  others : ∀ id, id ≠ owner → after.wallet id = before.wallet id

/-- While the account is active, every new transfer that is addressed to it and meets `cond` is credited
to its owner and to nobody else. -/
def Reachable (cond : Tables → Surroundings → Json → Payment → Prop) (raw ref : String)
    (accountId owner : UUID) (db : Tables) : Prop :=
  (∃ a ∈ db.dedicatedAccounts, a.id = accountId ∧ a.status = .active) →
    ∀ env payload requestId p number reference n, Transfer payload requestId p number reference n →
      Addressed db raw ref number reference → NewRequest db requestId → cond db env requestId p →
      CreditedTo owner p n db (stateAfter (receive env payload) db)

/-- The columns of the payment's transaction are valid. -/
def ColumnsValid (env : Surroundings) (requestId : Json) (p : Payment) : Prop :=
  (p.withReference env.reference).Valid requestId

/-- The new balance fits its column. -/
def BalanceFits (owner : UUID) (db : Tables) (p : Payment) : Prop :=
  ∀ w, db.wallet owner = some w → ∃ w', numericColumn (Decimal.ofScaled 2 w + p.amount) = .ok w'

section Route

variable {db : Tables} {payload requestId : Json} {p : Payment} {number reference raw ref : String}
  {n : Cents} {a : DedicatedAccount}

theorem aliasNumber_str (s : String) : aliasNumber (.str s) = .ok (removeSpaces s) := by
  unfold aliasNumber Json.orElse
  by_cases hs : s = ""
  · subst hs
    rfl
  · rw [if_pos (by simpa [Json.truthy] using hs)]

theorem Transfer.address (h : Transfer payload requestId p number reference n) :
    p.aliasAccountNumber = removeSpaces number ∧ p.aliasAccountReference = .str reference := by
  have hread := readPayment_of_kind h.kind
  have hnumber := h.number
  have hreference := h.reference
  simp only [readPayment, transferField, bind_ok_iff, pure_ok_iff] at hread hnumber hreference
  obtain ⟨data, hdata, tx, htx, customer, -, x, -, amount, -, y, -, fee, -, v, hv, number', hnumber', r,
    hr, i, -, mr, -, sn, -, sb, -, nar, -, rfl⟩ := hread
  obtain ⟨data₁, hdata₁, tx₁, htx₁, hn⟩ := hnumber
  obtain ⟨data₂, hdata₂, tx₂, htx₂, hr₂⟩ := hreference
  rw [hdata] at hdata₁ hdata₂
  cases hdata₁
  cases hdata₂
  rw [htx] at htx₁ htx₂
  cases htx₁
  cases htx₂
  rw [hn] at hv
  cases hv
  rw [hr₂] at hr
  cases hr
  rw [aliasNumber_str] at hnumber'
  exact ⟨(Except.ok.inj hnumber').symm, rfl⟩

/-- A transfer that is addressed to an account is routed to it. -/
theorem route_addressed (hc : db.Constraints) (ha : a ∈ db.dedicatedAccounts)
    (hnumber : a.accountNumber = removeSpaces raw) (hnonblank : removeSpaces raw ≠ "")
    (href : a.accountRef = ref) (haddressed : Addressed db raw ref number reference) :
    db.route (removeSpaces number) (.str reference) = some a := by
  unfold Tables.route
  rcases haddressed with hsame | ⟨hnowhere, hnonempty, -, rfl⟩
  · have hfind := find?_of_mem hc.account_number ha
    rw [hnumber] at hfind
    rw [hsame, if_pos hnonblank, hfind]
    rfl
  · have hfind := find?_of_mem hc.account_ref ha
    rw [href] at hfind
    have htruthy : (Json.str reference).truthy = true := by simpa [Json.truthy] using hnonempty
    rw [if_pos htruthy, Json.text_str, hfind]
    split_ifs with hblank
    · have hnone : db.dedicatedAccounts.find? (·.accountNumber = removeSpaces number) = none := by
        rw [List.find?_eq_none]
        intro b hb
        simpa using (hnowhere.resolve_left hblank).2 b hb
      rw [hnone]
      rfl
    · rfl

end Route

theorem holder_reachable {db : Tables} {accountId owner : UUID} {raw ref : String} (hc : db.Constraints)
    (hnonblank : removeSpaces raw ≠ "") (hh : Holder accountId owner (removeSpaces raw) ref db) :
    Reachable (fun db env requestId p => ColumnsValid env requestId p ∧ BalanceFits owner db p)
      raw ref accountId owner db := by
  rintro ⟨b, hb, hbid, hactive⟩ env payload requestId p number reference n htransfer haddressed hnew
    ⟨hvalid, hfits⟩
  obtain ⟨⟨a, ha, haid, howner, hnumber, href⟩, -⟩ := hh
  obtain rfl := eq_of_key hc.account_pk hb ha (hbid.trans haid.symm)
  obtain ⟨hn, hr⟩ := htransfer.address
  have hroute : p.route db = some b := by
    rw [Payment.route, hn, hr]
    exact route_addressed hc hb hnumber hnonblank href haddressed
  obtain ⟨row, hrow, hid⟩ := hc.account_fk b hb
  have hcredits : Credits (p.withReference env.reference) db b row := ⟨hroute, hactive, hrow, hid⟩
  have howner' : row.id = owner := hid.trans howner
  have hbefore := wallet_of_mem hc hrow
  rw [howner'] at hbefore
  obtain ⟨w', hw'⟩ := hfits _ hbefore
  have hposts : Posts env payload db requestId p := ⟨htransfer.kind, hnew.unprocessed, hvalid, hnew.unrecorded⟩
  have hd : Delivers env payload db (outcomeOf (receive env payload) db) := delivers hc
  rcases hd.posted with ⟨-, hnone⟩ | ⟨requestId', p', t, hposts', hposted⟩
  · exact absurd hposts (hnone requestId p)
  · cases hposts.kind.symm.trans hposts'.kind
    show CreditedTo owner p n db (outcomeOf (receive env payload) db).state
    cases hposted.lands with
    | held hold _ _ _ _ _ => exact (hold.not_credits hcredits rfl).elim
    | unsaved credit _ refused _ _ =>
      obtain ⟨rfl, rfl⟩ := hcredits.unique hc credit rfl
      cases hw'.symm.trans refused
    | saved credit _ balance _ customers =>
      obtain ⟨rfl, rfl⟩ := hcredits.unique hc credit rfl
      cases Except.ok.inj (hw'.symm.trans balance)
      constructor
      · refine ⟨_, w', hbefore, ?_, hw', fun hsum => ?_⟩
        · rw [← howner']
          exact wallet_saved_self hrow customers
        · have hexact := Decimal.add_exact (Decimal.isScaled_ofScaled 2 row.walletBalance) htransfer.amount hsum
          exact Decimal.eq_of_toColumn hexact (numericColumn_ok_iff.mp hw')
      · intro id hid
        exact wallet_saved_ne customers (howner' ▸ hid)

/-- For every state and every provisioning call that succeeds with a number that is not blank, and after
any further steps: the account and its customer are still there under the same keys, and while the account
is active, every new transfer that is addressed to it, has valid columns and fits the balance is credited
to the customer and to nobody else. -/
theorem provisioned_accounts_reachable (db : Database) (request : ProvisionRequest) (m : UUID)
    (data : Json) (raw : String) (response : Response) (hraw : accountNumberOf data = .ok (.str raw))
    (hnonblank : removeSpaces raw ≠ "")
    (hok : (Prog.run exec (request.handler m data) db.tables).1 = .ok response) (steps : List Step) :
    ∃ account owner, Provided raw request.merchantCustomerId m db.tables
        (stateAfter (request.handler m data) db.tables) account owner ∧
      Holder account.id owner.id (removeSpaces raw) request.merchantCustomerId
        (History.continue ⟨stateAfter (request.handler m data) db.tables, []⟩ steps).tables ∧
      Reachable (fun db env requestId p => ColumnsValid env requestId p ∧ BalanceFits owner.id db p) raw
        request.merchantCustomerId account.id owner.id
        (History.continue ⟨stateAfter (request.handler m data) db.tables, []⟩ steps).tables := by
  obtain ⟨account, owner, hprovided⟩ := request_provides db.constraints hraw hnonblank hok
  have hafter : (stateAfter (request.handler m data) db.tables).Constraints :=
    run_constraints _ db.constraints
  have hstart : Holder account.id owner.id (removeSpaces raw) request.merchantCustomerId
      (stateAfter (request.handler m data) db.tables) := by
    refine ⟨⟨account, ?_, rfl, hprovided.owns, hprovided.number, hprovided.reference⟩, owner,
      hprovided.mem, rfl, hprovided.external⟩
    rw [hprovided.inserted]
    exact List.mem_append_right _ (List.mem_singleton_self account)
  obtain ⟨hc, hh⟩ := continue_holder (h := ⟨stateAfter (request.handler m data) db.tables, []⟩) hafter
    hstart steps
  exact ⟨account, owner, hprovided, hh, holder_reachable hc hnonblank hh⟩

/-! ## Two provisioned customers -/

/-- A transfer of five under the request R1. -/
def transferTo (number reference senderName : String) : Json :=
  .obj [("event_type", .str nombaPaymentSuccessEvent), ("requestId", .str "R1"),
    ("data", .obj [
      ("transaction", .obj [("type", .str nombaVactTransferType), ("aliasAccountNumber", .str number),
        ("aliasAccountReference", .str reference), ("transactionAmount", .int 5)]),
      ("customer", .obj [("senderName", .str senderName)])])]

/-- Nomba returns a number with spaces. -/
def spacedData : Json := .obj [("accountNumber", .str " 99 01")]

def spacedRequest : ProvisionRequest := .createCustomer ⟨"cust-1", "Ada", none, none, none, []⟩

/-- Then another customer is provisioned. -/
def laterSteps : List Step :=
  [.call (.create ⟨"cust-2", "Bea", none, none, none, []⟩ 7 (.success (.obj [("accountNumber", .str "9902")])))]

theorem scaled_five : Decimal.IsScaled 2 ⟨false, 5, 0⟩ 500 := by
  rw [Decimal.IsScaled, Decimal.toRat, Decimal.num, signed]
  norm_num

/-- The keys of what the first call provides. -/
theorem spaced_keys {account : DedicatedAccount} {owner : Customer Cents} {raw ref : String}
    (h : Provided raw ref 7 Tables.empty (stateAfter (spacedRequest.handler 7 spacedData) .empty) account
      owner) : account.id = 1 ∧ owner.id = 0 := by
  have hids := congrArg (List.map (·.id)) h.inserted
  have haccounts : (stateAfter (spacedRequest.handler 7 spacedData) .empty).dedicatedAccounts.map (·.id) =
      [1] := by decide +kernel
  have howners : ∀ c ∈ (stateAfter (spacedRequest.handler 7 spacedData) .empty).customers, c.id = 0 := by
    decide +kernel
  rw [haccounts] at hids
  exact ⟨(List.singleton_inj.mp hids).symm, howners owner h.mem⟩

theorem reached_by_spaced_number : ∃ p,
    CreditedTo 0 p 500
      (History.continue ⟨stateAfter (spacedRequest.handler 7 spacedData) .empty, []⟩ laterSteps).tables
      (stateAfter (receive quiet (transferTo "9 901 " "" "Cy"))
        (History.continue ⟨stateAfter (spacedRequest.handler 7 spacedData) .empty, []⟩
          laterSteps).tables) := by
  obtain ⟨account, owner, hprovided, -, hreach⟩ := provisioned_accounts_reachable .empty spacedRequest 7
    spacedData " 99 01" _ rfl (by decide) rfl laterSteps
  obtain ⟨haccount, howner⟩ := spaced_keys hprovided
  rw [haccount, howner] at hreach
  obtain ⟨p, htransfer, hvalid, hamount⟩ : ∃ p, Transfer (transferTo "9 901 " "" "Cy") (.str "R1") p "9 901 " "" 500 ∧
      ColumnsValid quiet (.str "R1") p ∧ p.amount = ⟨false, 5, 0⟩ :=
    ⟨_, ⟨rfl, rfl, rfl, scaled_five, by decide +kernel, by decide +kernel⟩,
      ⟨by decide, ⟨_, rfl⟩, ⟨_, rfl⟩, ⟨_, rfl⟩, ⟨_, rfl⟩, ⟨_, rfl⟩, ⟨_, rfl⟩, ⟨_, rfl⟩⟩, rfl⟩
  refine ⟨p, hreach (by decide +kernel) _ _ _ _ _ _ _ htransfer (.inl (by decide)) ⟨?_, ?_⟩
    ⟨hvalid, fun w hw => ?_⟩⟩
  · decide +kernel
  · decide +kernel
  · have hwallet : (History.continue ⟨stateAfter (spacedRequest.handler 7 spacedData) .empty, []⟩
        laterSteps).tables.wallet 0 = some 0 := by decide +kernel
    cases hwallet.symm.trans hw
    rw [hamount]
    exact ⟨500, by rfl⟩

/-- Whatever is provisioned stays reachable by the transfers that meet `cond`. -/
def AlwaysReachable (cond : UUID → Tables → Surroundings → Json → Payment → Prop) : Prop :=
  ∀ (db : Database) (request : ProvisionRequest) (m : UUID) (data : Json) (raw : String)
    (response : Response), accountNumberOf data = .ok (.str raw) → removeSpaces raw ≠ "" →
    (Prog.run exec (request.handler m data) db.tables).1 = .ok response → ∀ steps : List Step,
    ∃ account owner, Provided raw request.merchantCustomerId m db.tables
        (stateAfter (request.handler m data) db.tables) account owner ∧
      Reachable (cond owner.id) raw request.merchantCustomerId account.id owner.id
        (History.continue ⟨stateAfter (request.handler m data) db.tables, []⟩ steps).tables

theorem AlwaysReachable.mono {cond cond' : UUID → Tables → Surroundings → Json → Payment → Prop}
    (h : AlwaysReachable cond) (himp : ∀ owner db env requestId p, cond' owner db env requestId p →
      cond owner db env requestId p) : AlwaysReachable cond' := by
  intro db request m data raw response hraw hnonblank hok steps
  obtain ⟨account, owner, hprovided, hreach⟩ := h db request m data raw response hraw hnonblank hok steps
  refine ⟨account, owner, hprovided, fun hactive env payload requestId p number reference n ht ha hn hc => ?_⟩
  exact hreach hactive env payload requestId p number reference n ht ha hn (himp _ _ _ _ _ hc)

/-- A customer whose wallet is as large as its column takes. -/
def wealthy : Database where
  tables := { Tables.empty with
    customers := [⟨0, 7, "cust-1", "Ada", none, none, none, 10 ^ 30 - 1, [], 0, 0⟩]
    clock := 1 }
  constraints := by
    constructor <;> simp [Tables.empty, FitsColumn]

/-- A sender name of 201 characters. -/
def longName : String := String.ofList (List.replicate 201 'a')

theorem not_reachable_by_long_name :
    ¬ AlwaysReachable fun owner db _ _ p => BalanceFits owner db p := by
  intro hclaim
  obtain ⟨account, owner, hprovided, hreach⟩ :=
    hclaim .empty spacedRequest 7 spacedData " 99 01" _ rfl (by decide) rfl []
  obtain ⟨haccount, howner⟩ := spaced_keys hprovided
  rw [haccount, howner] at hreach
  obtain ⟨p, htransfer, hamount⟩ : ∃ p, Transfer (transferTo "9901" "" longName) (.str "R1") p "9901" "" 500 ∧
      p.amount = ⟨false, 5, 0⟩ := ⟨_, ⟨rfl, rfl, rfl, scaled_five, by decide +kernel, by decide +kernel⟩, rfl⟩
  have hempty : (stateAfter (spacedRequest.handler 7 spacedData) Tables.empty).wallet 0 = some 0 := by
    decide +kernel
  obtain ⟨⟨w, w', hw, hw', hcolumn, -⟩, -⟩ := hreach (by decide +kernel) quiet _ _ _ _ _ _ htransfer
    (.inl (by decide)) ⟨by decide +kernel, by decide +kernel⟩ fun w hw => by
      cases hempty.symm.trans hw
      rw [hamount]
      exact ⟨500, by rfl⟩
  have hunchanged : (stateAfter (receive quiet (transferTo "9901" "" longName))
      (stateAfter (spacedRequest.handler 7 spacedData) Tables.empty)).wallet 0 = some 0 := by
    decide +kernel
  cases hempty.symm.trans hw
  cases hunchanged.symm.trans hw'
  rw [hamount] at hcolumn
  have hsum : numericColumn (Decimal.ofScaled 2 0 + ⟨false, 5, 0⟩) = .ok 500 := by rfl
  cases hsum.symm.trans hcolumn

theorem not_reachable_by_overflow :
    ¬ AlwaysReachable fun _ _ env requestId p => ColumnsValid env requestId p := by
  intro hclaim
  obtain ⟨account, owner, hprovided, hreach⟩ := hclaim wealthy
    (.createDedicatedAccount ⟨"cust-1", none⟩) 7 spacedData " 99 01" _ rfl (by decide) rfl []
  have hids := congrArg (List.map (·.id)) hprovided.inserted
  set after := stateAfter ((ProvisionRequest.createDedicatedAccount ⟨"cust-1", none⟩).handler 7 spacedData)
    wealthy.tables
  have haccounts : after.dedicatedAccounts.map (·.id) = [1] := by decide +kernel
  have howners : ∀ c ∈ after.customers, c.id = 0 := by decide +kernel
  rw [haccounts] at hids
  have haccount : account.id = 1 := (List.singleton_inj.mp hids).symm
  rw [haccount, howners owner hprovided.mem] at hreach
  obtain ⟨p, htransfer, hvalid, hamount⟩ : ∃ p, Transfer (transferTo "9901" "" "Cy") (.str "R1") p "9901" "" 500 ∧
      ColumnsValid quiet (.str "R1") p ∧ p.amount = ⟨false, 5, 0⟩ :=
    ⟨_, ⟨rfl, rfl, rfl, scaled_five, by decide +kernel, by decide +kernel⟩,
      ⟨by decide, ⟨_, rfl⟩, ⟨_, rfl⟩, ⟨_, rfl⟩, ⟨_, rfl⟩, ⟨_, rfl⟩, ⟨_, rfl⟩, ⟨_, rfl⟩⟩, rfl⟩
  obtain ⟨⟨w, w', hw, -, hcolumn, -⟩, -⟩ := hreach (by decide +kernel) quiet _ _ _ _ _ _ htransfer
    (.inl (by decide)) ⟨by decide +kernel, by decide +kernel⟩ hvalid
  have hfull : after.wallet 0 = some (10 ^ 30 - 1) := by decide +kernel
  cases hfull.symm.trans hw
  have hoverflow : (numericColumn (Decimal.ofScaled 2 (10 ^ 30 - 1) + ⟨false, 5, 0⟩)).isOk = false := by
    decide +kernel
  rw [← hamount, hcolumn] at hoverflow
  cases hoverflow

/-- A transfer with a sender name that the column refuses is not credited, nor is one that the balance
cannot take. -/
theorem not_always_reachable : ¬ (AlwaysReachable fun _ _ _ _ _ => True) ∧
    (¬ AlwaysReachable fun owner db _ _ p => BalanceFits owner db p) ∧
    ¬ AlwaysReachable fun _ _ env requestId p => ColumnsValid env requestId p := by
  refine ⟨fun hclaim => ?_, not_reachable_by_long_name, not_reachable_by_overflow⟩
  exact not_reachable_by_long_name (hclaim.mono fun _ _ _ _ _ _ => trivial)

end LdbBackend
