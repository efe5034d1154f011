import LdbBackend.Isolation.Conduct
import LdbBackend.Delivery.Posted
import LdbBackend.History.Ledger

/-!
# When writing is isolated

A call for a merchant leaves what every other merchant holds alone (`Untouched`): the statements of
`create`, `create_dedicated`, `update` and `register` are orderly, and orderly statements do
(`orderly_untouched`). `simulate` does not check whose account it funds, so it is isolated exactly when
its payment does not stray (`Strays`).
-/

namespace LdbBackend

open Fixed Effects Table

/-- Every other merchant holds the same rows as before. -/
structure Untouched (m : UUID) (db db' : Tables) : Prop where
  customers : ∀ m', m' ≠ m → db'.customersOf m' = db.customersOf m'
  accounts : ∀ m', m' ≠ m → db'.accountsOf m' = db.accountsOf m'
  payments : ∀ m', m' ≠ m → db'.paymentsOf m' = db.paymentsOf m'
  suspended : ∀ m', m' ≠ m → db'.suspendedOf m' = db.suspendedOf m'

/-- What a merchant can ask the service to write. -/
inductive MerchantRequest
  | createCustomer (body : CreateCustomerRequest) (nomba : NombaOutcome)
  | updateCustomer (customerId : String) (body : UpdateCustomerRequest) (nomba : NombaOutcome)
  | createDedicatedAccount (body : CreateDedicatedAccountRequest) (nomba : NombaOutcome)
  | registerWebhook (body : RegisterWebhookRequest)
  | simulateFunding (env : Surroundings) (requestId : String) (body : SimulateFundingRequest)

/-- The controllers hand the merchant on, but `simulate_funding` drops it. -/
def MerchantRequest.call (merchant : UUID) : MerchantRequest → Call
  | createCustomer body nomba => .create body merchant nomba
  | updateCustomer customerId body nomba => .update customerId body merchant nomba
  | createDedicatedAccount body nomba => .createDedicated body merchant nomba
  | registerWebhook body => .register body merchant
  | simulateFunding env requestId body => .simulate env requestId body

/-- The simulated payment is posted, and leads to an account of another merchant. -/
def MerchantRequest.Strays (m : UUID) (db : Tables) : MerchantRequest → Prop
  | simulateFunding env requestId body => ∃ request p account row,
      Posts env (body.payload requestId db) db request p ∧ p.route db = some account ∧
        row ∈ db.customers ∧ row.id = account.customerId ∧ row.merchantId ≠ m
  | _ => False

section Untouched

variable {db db' db'' : Tables} {m : UUID}

theorem Untouched.refl (m : UUID) (db : Tables) : Untouched m db db :=
  ⟨fun _ _ => rfl, fun _ _ => rfl, fun _ _ => rfl, fun _ _ => rfl⟩

theorem Untouched.trans (h : Untouched m db db') (h' : Untouched m db' db'') : Untouched m db db'' :=
  ⟨fun m' hm => (h'.customers m' hm).trans (h.customers m' hm),
    fun m' hm => (h'.accounts m' hm).trans (h.accounts m' hm),
    fun m' hm => (h'.payments m' hm).trans (h.payments m' hm),
    fun m' hm => (h'.suspended m' hm).trans (h.suspended m' hm)⟩

/-- Where no payment is written, the customers and the accounts decide. -/
theorem Untouched.of_directory (hcustomers : ∀ m', m' ≠ m → db'.customersOf m' = db.customersOf m')
    (haccounts : ∀ m', m' ≠ m → db'.accountsOf m' = db.accountsOf m')
    (htx : db'.transactions = db.transactions) (hsus : db'.suspenseLogs = db.suspenseLogs) :
    Untouched m db db' := by
  have hpayments : ∀ m', m' ≠ m → db'.paymentsOf m' = db.paymentsOf m' := fun m' hm => by
    rw [Tables.paymentsOf, Tables.paymentsOf, haccounts m' hm, htx]
  refine ⟨hcustomers, haccounts, hpayments, fun m' hm => ?_⟩
  rw [Tables.suspendedOf, Tables.suspendedOf, hpayments m' hm, hsus]

/-- The accounts of a merchant follow from its customers. -/
theorem accountsOf_congr {m' : UUID} (hcustomers : db'.customersOf m' = db.customersOf m')
    (haccounts : db'.dedicatedAccounts = db.dedicatedAccounts) :
    db'.accountsOf m' = db.accountsOf m' := by
  rw [Tables.accountsOf, Tables.accountsOf, hcustomers, haccounts]

/-- Where only customers are written, they decide. -/
theorem Untouched.of_customers (hcustomers : ∀ m', m' ≠ m → db'.customersOf m' = db.customersOf m')
    (haccounts : db'.dedicatedAccounts = db.dedicatedAccounts) (htx : db'.transactions = db.transactions)
    (hsus : db'.suspenseLogs = db.suspenseLogs) : Untouched m db db' :=
  .of_directory hcustomers (fun m' hm => accountsOf_congr (hcustomers m' hm) haccounts) htx hsus

/-- The row of a customer belongs to one merchant. -/
theorem merchant_unique (h : db.Constraints) {row c : Customer Cents} (hrow : row ∈ db.customersOf m)
    (hc : c ∈ db.customers) (hid : c.id = row.id) : c.merchantId = m := by
  obtain ⟨hmem, hmerchant⟩ := mem_customersOf.mp hrow
  rw [eq_of_key h.customer_pk hc hmem hid]
  exact hmerchant

/-- What belongs to a customer of the merchant belongs to no other merchant. -/
theorem unowned_elsewhere (h : db.Constraints) {row : Customer Cents} (hrow : row ∈ db.customersOf m)
    {customerId : UUID} (hid : row.id = customerId) {m' : UUID} (hm : m' ≠ m) :
    (db.customersOf m').any (fun c => decide (c.id = customerId)) = false := by
  rw [List.any_eq_false]
  intro c hc heq
  obtain ⟨hmem, hmerchant⟩ := mem_customersOf.mp hc
  have hsame : c.id = row.id := (of_decide_eq_true heq).trans hid.symm
  exact hm (hmerchant.symm.trans (merchant_unique h hrow hmem hsame))

/-- A row of the merchant in place of one of its rows leaves the customers of the others. -/
theorem customersOf_setRow (h : db.Constraints) {row saved : Customer Cents} (hrow : row ∈ db.customersOf m)
    (hid : row.id = saved.id) (hsaved : saved.merchantId = m) {m' : UUID} (hm : m' ≠ m) :
    (setRow (·.id) saved db.customers).filter (fun c => decide (c.merchantId = m')) = db.customersOf m' := by
  refine filter_setRow (decide_eq_false ?_) fun c hc hkey => decide_eq_false ?_
  · exact fun heq => hm (heq.symm.trans hsaved)
  · exact fun heq => hm (heq.symm.trans (merchant_unique h hrow hc (hkey.trans hid.symm)))

theorem customersOf_delete (h : db.Constraints) {row : Customer Cents} (hrow : row ∈ db.customersOf m) {m' : UUID}
    (hm : m' ≠ m) : (db.customers.filter (·.id ≠ row.id)).filter (fun c => decide (c.merchantId = m')) =
      db.customersOf m' := by
  unfold Tables.customersOf
  rw [List.filter_filter]
  refine List.filter_congr fun c hc => ?_
  by_cases hmerchant : c.merchantId = m'
  · have hne : c.id ≠ row.id := fun heq => hm (hmerchant.symm.trans (merchant_unique h hrow hc heq))
    simp [hmerchant, hne]
  · simp [hmerchant]

theorem orderly_untouched (h : db.Constraints) {o : Op} {r : Res o} (ho : o.Orderly m db)
    (he : exec o db = .ok (r, db')) : Untouched m db db' := by
  cases hq : o.isQuery with
  | true => exact exec_query hq he ▸ .refl m db
  | false =>
    cases o with
    | customerCreate new =>
      obtain ⟨row, hrow, -, -, rfl⟩ := createCustomer_ok_iff.mp he
      have hmerchant : row.merchantId = m := (NewCustomer.row_ok hrow).2.1.trans ho
      refine .of_customers (fun m' hm => filter_append_out (decide_eq_false ?_)) rfl rfl rfl
      exact fun heq => hm (heq.symm.trans hmerchant)
    | customerSave c =>
      obtain ⟨row, hrow, hid, hmerchant, -⟩ := ho
      obtain ⟨target, wallet, -, -, -, rfl⟩ := saveCustomer_ok_iff.mp (written_ok_iff.mp he)
      exact .of_customers (fun m' hm => customersOf_setRow h hrow hid.symm hmerchant hm) rfl rfl rfl
    | customerDelete id =>
      obtain ⟨⟨row, hrow, rfl⟩, hunowned⟩ := ho
      cases he
      rw [deleteCustomer_unowned hunowned]
      exact .of_customers (fun m' hm => customersOf_delete h hrow hm) rfl rfl rfl
    | accountCreate new =>
      obtain ⟨row, hrow, hid, -⟩ := ho
      obtain ⟨ha, -, -, rfl⟩ := createAccount_ok_iff.mp he
      have howner : row.id = r.customerId := hid.symm.trans (NewAccount.row_ok ha).2.1.symm
      exact .of_directory (fun _ _ => rfl)
        (fun m' hm => filter_append_out (unowned_elsewhere h hrow howner hm)) rfl rfl
    | accountSave a =>
      obtain ⟨b, hb, name, rfl⟩ := ho
      obtain ⟨-, rfl⟩ := saveAccount_ok_iff.mp (written_ok_iff.mp he)
      obtain ⟨hmem, row, hrow, howner⟩ := mem_accountsOf.mp hb
      refine .of_directory (fun _ _ => rfl) (fun m' hm => ?_) rfl rfl
      have hout := unowned_elsewhere h hrow howner hm
      refine filter_setRow hout fun b' hb' hid => ?_
      rw [eq_of_key h.account_pk hb' hmem hid]
      exact hout
    | registrationCreate merchantId url secret events =>
      rw [createRegistration_ok he]
      exact .of_directory (fun _ _ => rfl) (fun _ _ => rfl) rfl rfl
    | transactionCreate _ | suspenseLogCreate _ _ _ | reconciliationLogCreate _
    | processedCreate _ _ => exact ho.elim
    | _ => cases hq

theorem conducted_untouched {α : Type} {p : Handler α} (h : db.Constraints)
    (hp : Conducted m p db) : Untouched m db (stateAfter p db) := by
  have hinv : (stateAfter p db).Constraints ∧ Untouched m db (stateAfter p db) := by
    refine Prog.along_invariant (I := fun s => s.Constraints ∧ Untouched m db s) ?_ hp ⟨h, .refl m db⟩
    intro o s r s' ⟨hs, hu⟩ ho he
    exact ⟨exec_constraints hs he, hu.trans (orderly_untouched hs ho he)⟩
  exact hinv.2

/-! ## Simulated payments -/

variable {env : Surroundings} {requestId payload : Json} {p : Payment} {t : Transaction}

/-- A payment to an account of the merchant, or to none, leaves the others alone. -/
theorem Posted.untouched (h : db.Constraints) (hp : Posted requestId payload p db t db')
    (hheld : ∀ account, p.route db = some account → account ∈ db.accountsOf m) :
    Untouched m db db' := by
  obtain ⟨status, hrow⟩ := hp.row
  have hr := NewTransaction.row_ok hrow
  have hcustomers : ∀ m', m' ≠ m → db'.customersOf m' = db.customersOf m' := by
    intro m' hm
    unfold Tables.customersOf
    cases hp.lands with
    | held _ _ _ _ _ customers => rw [customers]
    | unsaved _ _ _ _ customers => rw [customers]
    | saved credit _ _ _ customers =>
      have hmerchant := (mem_accountsOf_iff h (route_mem credit.route) credit.mem credit.owner).mp
        (hheld _ credit.route)
      rw [customers]
      refine customersOf_setRow h (mem_customersOf.mpr ⟨credit.mem, hmerchant⟩) ?_ ?_ hm
      · rfl
      · exact hmerchant
  have haccounts : ∀ m', m' ≠ m → db'.accountsOf m' = db.accountsOf m' :=
    fun m' hm => accountsOf_congr (hcustomers m' hm) hp.accounts
  have hpayments : ∀ m', m' ≠ m → db'.paymentsOf m' = db.paymentsOf m' := by
    intro m' hm
    have hout : ((db.accountsOf m').any fun a => decide (t.dedicatedAccountId = some a.id)) = false := by
      rw [List.any_eq_false]
      intro a ha heq
      have haccount : t.dedicatedAccountId = (p.route db).map (·.id) := hr.account
      obtain ⟨account, hroute, hid⟩ :=
        Option.map_eq_some_iff.mp (haccount.symm.trans (of_decide_eq_true heq))
      have hmem := (mem_accountsOf.mp ha).1
      obtain ⟨row, hrow', howner⟩ := h.account_fk a hmem
      have hsame := eq_of_key h.account_pk (route_mem hroute) hmem hid
      have h₁ := (mem_accountsOf_iff h hmem hrow' howner).mp ha
      have h₂ := (mem_accountsOf_iff h hmem hrow' howner).mp (hsame ▸ hheld account hroute)
      exact hm (h₁.symm.trans h₂)
    unfold Tables.paymentsOf
    rw [haccounts m' hm, hp.transactions]
    exact filter_append_out hout
  refine ⟨hcustomers, haccounts, hpayments, fun m' hm => ?_⟩
  unfold Tables.suspendedOf
  rw [hpayments m' hm]
  cases hp.lands with
  | unsaved _ _ _ suspense _ => rw [suspense]
  | saved _ _ _ suspense _ => rw [suspense]
  | @held _ _ l _ _ log _ suspense _ =>
    -- the entry is that of the new transaction, which no other merchant has
    have hout : ((db.paymentsOf m').any fun u => decide (u.id = l.transactionId)) = false := by
      rw [List.any_eq_false]
      intro u hu heq
      have hold := h.transaction_fresh u (mem_paymentsOf.mp hu).1
      exact ne_of_fresh hold hr.id ((of_decide_eq_true heq).trans log)
    rw [suspense]
    exact filter_append_out hout

/-- A payment on an account of another merchant is one that it did not hold before. -/
theorem Posted.touched (h : db.Constraints) (hp : Posted requestId payload p db t db')
    {account : DedicatedAccount} (hroute : p.route db = some account) {m' : UUID} (hm : m' ≠ m)
    (hheld : account ∈ db.accountsOf m') : ¬ Untouched m db db' := by
  intro hu
  obtain ⟨status, hrow⟩ := hp.row
  have hr := NewTransaction.row_ok hrow
  have haccount : t.dedicatedAccountId = some account.id := by
    have hmap : t.dedicatedAccountId = (p.route db).map (·.id) := hr.account
    rw [hmap, hroute]
    rfl
  have hnew : t ∈ db'.paymentsOf m' := by
    refine mem_paymentsOf.mpr ⟨?_, account, ?_, haccount⟩
    · rw [hp.transactions]
      exact List.mem_append_right _ (List.mem_singleton_self t)
    · rw [hu.accounts m' hm]
      exact hheld
  rw [hu.payments m' hm] at hnew
  have hold := h.transaction_fresh t (mem_paymentsOf.mp hnew).1
  rw [hr.id] at hold
  exact absurd hold (lt_irrefl _)

theorem simulate_delivers (h : db.Constraints) (env : Surroundings) (requestId : String)
    (body : SimulateFundingRequest) : ∃ o, Delivers env (body.payload requestId db) db o ∧
      stateAfter (simulate env requestId body) db = o.state := by
  refine ⟨_, delivers h, ?_⟩
  unfold simulate
  rw [Prog.op_bind, state_query (exec_accountByNumber h _)]
  rfl

theorem simulate_untouched_iff (h : db.Constraints) (env : Surroundings) (requestId : String)
    (body : SimulateFundingRequest) :
    Untouched m db (stateAfter (simulate env requestId body) db) ↔
      ¬ (MerchantRequest.simulateFunding env requestId body).Strays m db := by
  obtain ⟨o, hd, hstate⟩ := simulate_delivers h env requestId body
  rw [hstate]
  rcases hd.posted with ⟨hun, hnone⟩ | ⟨request, p, t, hposts, hposted⟩
  · refine iff_of_true ?_ ?_
    · have hcustomers : ∀ m', m' ≠ m → o.state.customersOf m' = db.customersOf m' := fun m' _ => by
        rw [Tables.customersOf, Tables.customersOf, hun.customers]
      exact .of_directory hcustomers (fun m' hm => accountsOf_congr (hcustomers m' hm) hun.accounts)
        hun.transactions hun.suspenseLogs
    · rintro ⟨request, p, account, row, hposts, -⟩
      exact hnone request p hposts
  · constructor
    · rintro hu ⟨request', p', account, row, hposts', hroute, hrow, howner, hother⟩
      have hkind := hposts.kind.symm.trans hposts'.kind
      cases hkind
      have hmem := route_mem hroute
      exact hposted.touched h hroute hother ((mem_accountsOf_iff h hmem hrow howner).mpr rfl) hu
    · intro hstay
      refine hposted.untouched h fun account hroute => ?_
      have hmem := route_mem hroute
      obtain ⟨row, hrow, howner⟩ := h.account_fk account hmem
      refine (mem_accountsOf_iff h hmem hrow howner).mpr (by_contra fun hother => ?_)
      exact hstay ⟨request, p, account, row, hposts, hroute, hrow, howner, hother⟩

end Untouched

theorem stateAfter_map {α β : Type} (f : α → β) (p : Handler α) (db : Tables) :
    stateAfter (f <$> p) db = stateAfter p db :=
  congrArg Outcome.state (outcome_map p f db)

/-- For every state, merchant and request with any arguments and any reply of Nomba: what the other
merchants hold is as before, exactly when the request is not a simulation that strays. -/
theorem writes_isolated_iff (db : Database) (m : UUID) (request : MerchantRequest) :
    Untouched m db.tables (stateAfter (request.call m).handler db.tables) ↔
      ¬ request.Strays m db.tables := by
  have h := db.constraints
  cases request with
  | createCustomer body nomba =>
    have hstate : stateAfter (Call.create body m nomba).handler db.tables =
        stateAfter (CustomerService.create body m nomba) db.tables := stateAfter_map _ _ _
    show Untouched m db.tables (stateAfter (Call.create body m nomba).handler db.tables) ↔ _
    rw [hstate]
    exact iff_of_true (conducted_untouched h (conducted_create h body nomba)) id
  | updateCustomer customerId body nomba =>
    have hstate : stateAfter (Call.update customerId body m nomba).handler db.tables =
        stateAfter (CustomerService.update customerId body m nomba) db.tables := stateAfter_map _ _ _
    show Untouched m db.tables (stateAfter (Call.update customerId body m nomba).handler db.tables) ↔ _
    rw [hstate]
    exact iff_of_true (conducted_untouched h (conducted_update customerId body nomba)) id
  | createDedicatedAccount body nomba =>
    have hstate : stateAfter (Call.createDedicated body m nomba).handler db.tables =
        stateAfter (AccountService.createDedicated body m nomba) db.tables := stateAfter_map _ _ _
    show Untouched m db.tables (stateAfter (Call.createDedicated body m nomba).handler db.tables) ↔ _
    rw [hstate]
    exact iff_of_true (conducted_untouched h (conducted_createDedicated body nomba)) id
  | registerWebhook body =>
    have hstate : stateAfter (Call.register body m).handler db.tables =
        stateAfter (register body m) db.tables := stateAfter_map _ _ _
    show Untouched m db.tables (stateAfter (Call.register body m).handler db.tables) ↔ _
    rw [hstate]
    exact iff_of_true (conducted_untouched h (conducted_register body)) id
  | simulateFunding env requestId body =>
    have hstate : stateAfter (Call.simulate env requestId body).handler db.tables =
        stateAfter (simulate env requestId body) db.tables := stateAfter_map _ _ _
    show Untouched m db.tables (stateAfter (Call.simulate env requestId body).handler db.tables) ↔ _
    rw [hstate]
    exact simulate_untouched_iff h env requestId body

/-- The merchant 8 simulates funding the account of the merchant 7. -/
theorem foreign_account_funded : ¬ ∀ (db : Database) (m : UUID) (request : MerchantRequest),
    Untouched m db.tables (stateAfter (request.call m).handler db.tables) := by
  intro hclaim
  have hu := hclaim (provisioned none) 8
    (.simulateFunding quiet "R1" ⟨"9901", ⟨false, 5, 0⟩, "Ada", "Bank", false⟩)
  have hpayments := congrArg List.length (hu.payments 7 (by decide))
  revert hpayments
  decide +kernel

end LdbBackend
