import LdbBackend.Isolation.Holdings
import LdbBackend.Model.Statements
import LdbBackend.Payments.Wallet

/-!
# Reading is isolated

Every query that a reading handler makes for a merchant is a query of what the merchant holds: accounts
are found by a global identifier, but an account of another merchant ends like one that does not exist
(`accountFor_eq`). So two states in which the merchant holds the same rows answer alike.
-/

namespace LdbBackend

open Fixed Effects Table

/-- The merchant holds the same customers, accounts and payments in both states. -/
structure HoldsSame (m : UUID) (db₁ db₂ : Tables) : Prop where
  customers : db₁.customersOf m = db₂.customersOf m
  accounts : db₁.accountsOf m = db₂.accountsOf m
  payments : db₁.paymentsOf m = db₂.paymentsOf m

/-! ## Queries of a part -/

section Queries

variable {db : Tables} {m : UUID}

theorem getOrNone_customersOf {p : Customer Cents → Bool}
    (h : ∀ c, p c = true → c.merchantId = m) :
    getOrNone p db.customers = getOrNone p (db.customersOf m) := by
  unfold getOrNone Tables.customersOf
  rw [getUnique_filter fun c _ hc => decide_eq_true (h c hc)]

theorem find?_accountsOf {p : DedicatedAccount → Bool}
    (h : ∀ a, p a = true → ∃ c ∈ db.customersOf m, c.id = a.customerId) :
    db.dedicatedAccounts.find? p = (db.accountsOf m).find? p := by
  unfold Tables.accountsOf
  rw [find?_filter_of_imp]
  intro a _ ha
  simpa using h a ha

theorem filter_paymentsOf {a : DedicatedAccount} (ha : a ∈ db.accountsOf m) :
    transactionsOf db a.id = (db.paymentsOf m).filter (·.dedicatedAccountId = some a.id) := by
  unfold transactionsOf Tables.paymentsOf
  rw [List.filter_filter]
  refine List.filter_congr fun t _ => ?_
  by_cases ht : t.dedicatedAccountId = some a.id
  · have hany : ((db.accountsOf m).any fun b => decide (t.dedicatedAccountId = some b.id)) = true :=
      List.any_eq_true.mpr ⟨a, ha, decide_eq_true ht⟩
    rw [hany, Bool.and_true]
  · rw [decide_eq_false ht, Bool.false_and]

/-- `accountFor` looks only at what the merchant holds. -/
theorem accountFor_eq (h : db.Constraints) (accountId : UUID) :
    accountFor db accountId m =
      match (db.accountsOf m).find? (·.id = accountId) with
      | none => .error (.http 404 "Account not found" none)
      | some account =>
        match (db.customersOf m).find? (·.id = account.customerId) with
        | none => .error .attributeError
        | some row => .ok (account, row.load) := by
  unfold accountFor
  rw [getOrNone_key h.account_pk accountId]
  cases hfind : db.dedicatedAccounts.find? (·.id = accountId) with
  | none =>
    have hnone : (db.accountsOf m).find? (·.id = accountId) = none := by
      rw [List.find?_eq_none]
      exact fun a ha => List.find?_eq_none.mp hfind a (mem_accountsOf.mp ha).1
    rw [hnone]
    rfl
  | some a =>
    have hmem := List.mem_of_find?_eq_some hfind
    obtain ⟨row, hrow, howner⟩ := h.account_fk a hmem
    have hload : db.customers.find? (·.id = a.customerId) = some row := by
      rw [← howner]
      exact find?_of_mem h.customer_pk hrow
    have hid : a.id = accountId := by simpa using List.find?_some hfind
    by_cases hmerchant : row.merchantId = m
    · have hheld : a ∈ db.accountsOf m := (mem_accountsOf_iff h hmem hrow howner).mpr hmerchant
      have hpart : (db.accountsOf m).find? (·.id = accountId) = some a := by
        rw [← hid]
        exact find?_of_mem (nodup_map_filter _ h.account_pk) hheld
      have howns : (db.customersOf m).find? (·.id = a.customerId) = some row := by
        rw [← howner]
        exact find?_of_mem (nodup_map_filter _ h.customer_pk) (mem_customersOf.mpr ⟨hrow, hmerchant⟩)
      simp only [hpart, howns, hload, Option.map_some, bind, Except.bind]
      exact if_neg (not_not.mpr hmerchant)
    · have hpart : (db.accountsOf m).find? (·.id = accountId) = none := by
        rw [List.find?_eq_none]
        intro b hb hbid
        obtain ⟨hb', -⟩ := mem_accountsOf.mp hb
        have hsame := eq_of_key h.account_pk hb' hmem ((of_decide_eq_true hbid).trans hid.symm)
        exact hmerchant ((mem_accountsOf_iff h hmem hrow howner).mp (hsame ▸ hb))
      simp only [hpart, hload, Option.map_some, bind, Except.bind]
      exact if_pos hmerchant

/-- The account that `accountFor` finds is the merchant's. -/
theorem accountFor_held (h : db.Constraints) {accountId : UUID} {account : DedicatedAccount}
    {customer : Customer Decimal} (hfor : accountFor db accountId m = .ok (account, customer)) :
    account ∈ db.accountsOf m := by
  rw [accountFor_eq h] at hfor
  cases hfind : (db.accountsOf m).find? (·.id = accountId) with
  | none => rw [hfind] at hfor; cases hfor
  | some a =>
    rw [hfind] at hfor
    simp only at hfor
    split at hfor
    · cases hfor
    · cases hfor
      exact List.mem_of_find?_eq_some hfind

end Queries

/-! ## Two states -/

section TwoStates

variable {db₁ db₂ : Tables} {m : UUID}

theorem HoldsSame.accountFor (h : HoldsSame m db₁ db₂) (h₁ : db₁.Constraints) (h₂ : db₂.Constraints)
    (accountId : UUID) : accountFor db₁ accountId m = accountFor db₂ accountId m := by
  rw [accountFor_eq h₁, accountFor_eq h₂, h.customers, h.accounts]

theorem HoldsSame.transactionsOf (h : HoldsSame m db₁ db₂) (h₁ : db₁.Constraints)
    (h₂ : db₂.Constraints) {accountId : UUID} {account : DedicatedAccount}
    {customer : Customer Decimal} (hfor : LdbBackend.accountFor db₂ accountId m = .ok (account, customer)) :
    transactionsOf db₁ account.id = transactionsOf db₂ account.id := by
  have hfor₁ := (h.accountFor h₁ h₂ accountId).trans hfor
  rw [filter_paymentsOf (accountFor_held h₁ hfor₁), filter_paymentsOf (accountFor_held h₂ hfor),
    h.payments]

/-- A lookup of customers by a condition on the merchant. -/
theorem HoldsSame.found (h : HoldsSame m db₁ db₂) {p : Customer Cents → Bool}
    (hp : ∀ c, p c = true → c.merchantId = m) :
    getOrNone p db₁.customers = getOrNone p db₂.customers := by
  rw [getOrNone_customersOf hp, getOrNone_customersOf hp, h.customers]

/-- What a lookup of customers of the merchant finds is one of its customers. -/
theorem found_customer {db : Tables} {p : Customer Cents → Bool}
    (hp : ∀ c, p c = true → c.merchantId = m) {c : Customer Decimal}
    (h : (getOrNone p db.customers).map (Option.map Customer.load) = .ok (some c)) :
    ∃ row ∈ db.customersOf m, c = row.load := by
  obtain ⟨row, hrow, hmatch, rfl⟩ := getOrNone_load h
  exact ⟨row, mem_customersOf.mpr ⟨hrow, hp row hmatch⟩, rfl⟩

/-- What the customer was read from, if one was. -/
abbrev FromHeld (m : UUID) (db : Tables) (found : Option (Customer Decimal)) : Prop :=
  ∀ c, found = some c → ∃ row ∈ db.customersOf m, c = row.load

open CustomerService in
theorem HoldsSame.byExternalId (h : HoldsSame m db₁ db₂) (customerId : String) :
    Prog.Same exec db₁ db₂ (byExternalId customerId m) (FromHeld m db₁) := by
  have hp : ∀ c : Customer Cents, decide (c.merchantId = m ∧ c.merchantCustomerId = customerId) = true →
      c.merchantId = m := fun c hc => (of_decide_eq_true hc).1
  refine .op rfl ?_ fun r hr c hc => found_customer hp (hc ▸ hr)
  rw [h.found hp]
  rfl

open CustomerService in
theorem HoldsSame.resolve (h : HoldsSame m db₁ db₂) (customerId : String) :
    Prog.Same exec db₁ db₂ (resolveCustomer customerId m) (FromHeld m db₁) := by
  unfold resolveCustomer
  cases parseUuid customerId with
  | none => exact h.byExternalId customerId
  | some i =>
    have hp : ∀ c : Customer Cents, decide (c.id = i ∧ c.merchantId = m) = true → c.merchantId = m :=
      fun c hc => (of_decide_eq_true hc).2
    have hfound : Prog.Same exec db₁ db₂ (await (.customerById i m)) (FromHeld m db₁) := by
      refine .op rfl ?_ fun r hr c hc => found_customer hp (hc ▸ hr)
      rw [h.found hp]
      rfl
    refine hfound.bind fun found hheld => ?_
    cases found with
    | none => exact h.byExternalId customerId
    | some customer => exact .pure hheld

/-- The response for a customer of the merchant shows its own account. -/
theorem HoldsSame.response (h : HoldsSame m db₁ db₂) {row : Customer Cents}
    (hrow : row ∈ db₁.customersOf m) :
    Prog.Same exec db₁ db₂ (buildCustomerResponse row.load) fun _ => True := by
  have howned : ∀ {db : Tables}, row ∈ db.customersOf m → ∀ a : DedicatedAccount,
      decide (a.customerId = row.id) = true → ∃ c ∈ db.customersOf m, c.id = a.customerId :=
    fun hmem a ha => ⟨row, hmem, (of_decide_eq_true ha).symm⟩
  have hsame : db₁.dedicatedAccounts.find? (·.customerId = row.id) =
      db₂.dedicatedAccounts.find? (·.customerId = row.id) := by
    rw [find?_accountsOf (howned hrow), find?_accountsOf (howned (h.customers ▸ hrow)), h.accounts]
  have hop : Prog.Same exec db₁ db₂ (await (.accountFirstByCustomer row.id)) fun _ => True := by
    refine .op (x := .ok (db₁.dedicatedAccounts.find? (·.customerId = row.id))) rfl ?_
      fun _ _ => trivial
    rw [hsame]
    rfl
  exact hop.bind fun account _ => .pure trivial

theorem HoldsSame.get (h : HoldsSame m db₁ db₂) (customerId : String) :
    Prog.Same exec db₁ db₂ (CustomerService.get customerId m) fun _ => True := by
  refine (h.resolve customerId).bind fun found hheld => ?_
  cases found with
  | none => exact .raise
  | some customer =>
    obtain ⟨row, hrow, rfl⟩ := hheld customer rfl
    exact (h.response hrow).bind fun response _ => .pure trivial

end TwoStates

/-- For every merchant and any two states in which it holds the same customers, accounts and payments:
every read for the merchant, with any identifier and any page, ends alike in both. -/
theorem reads_isolated (db₁ db₂ : Database) (m : UUID) (h : HoldsSame m db₁.tables db₂.tables)
    (customerId : String) (accountId : UUID) (order : RowOrder) (filters : PaginateFilterRequest) :
    (Prog.run exec (CustomerService.get customerId m) db₁.tables).1 =
        (Prog.run exec (CustomerService.get customerId m) db₂.tables).1 ∧
      AccountService.get db₁.tables accountId m = AccountService.get db₂.tables accountId m ∧
      listTransactions order db₁.tables accountId m filters =
        listTransactions order db₂.tables accountId m filters ∧
      getStatement order db₁.tables accountId m = getStatement order db₂.tables accountId m := by
  have hfor := h.accountFor db₁.constraints db₂.constraints accountId
  refine ⟨(h.get customerId).result, ?_, ?_, ?_⟩
  · unfold AccountService.get
    rw [hfor]
  · unfold listTransactions
    rw [hfor]
    cases hfound : accountFor db₂.tables accountId m with
    | error e => rfl
    | ok x =>
      have hrows := h.transactionsOf db₁.constraints db₂.constraints hfound
      simp only [bind, Except.bind, hrows]
  · unfold getStatement
    rw [hfor]
    cases hfound : accountFor db₂.tables accountId m with
    | error e => rfl
    | ok x =>
      have hrows := h.transactionsOf db₁.constraints db₂.constraints hfound
      simp only [bind, Except.bind, hrows]

/-- The sample state, once merchant 8 has a customer with an account as well. -/
def joined : Database :=
  (provisioned none).after (CustomerService.create ⟨"cust-2", "Grace", none, none, none, []⟩ 8
    (.success (.obj [("accountNumber", .str "9902")])))

theorem holdsSame_joined : HoldsSame 7 (provisioned none).tables joined.tables := by
  have hnone : ∀ db : Tables, db.transactions.length = 0 → db.paymentsOf 7 = [] := by
    intro db hlength
    rw [Tables.paymentsOf, List.eq_nil_of_length_eq_zero hlength, List.filter_nil]
  refine ⟨by decide +kernel, by decide +kernel, ?_⟩
  rw [hnone _ (by decide +kernel), hnone _ (by decide +kernel)]

/-- Merchant 7 reads the same, and the account that was added for merchant 8 is not found. -/
theorem reads_isolated_when_joined :
    (Prog.run exec (CustomerService.get "cust-1" 7) (provisioned none).tables).1 =
        (Prog.run exec (CustomerService.get "cust-1" 7) joined.tables).1 ∧
      AccountService.get (provisioned none).tables 3 7 = AccountService.get joined.tables 3 7 ∧
      listTransactions newestFirst (provisioned none).tables 3 7 ⟨1, 10⟩ =
        listTransactions newestFirst joined.tables 3 7 ⟨1, 10⟩ ∧
      getStatement newestFirst (provisioned none).tables 3 7 =
        getStatement newestFirst joined.tables 3 7 :=
  reads_isolated (provisioned none) joined 7 holdsSame_joined "cust-1" 3 newestFirst ⟨1, 10⟩

end LdbBackend
