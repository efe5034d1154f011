import LdbBackend.Provision.Update
import LdbBackend.History.Reachable

/-!
# Customer identifiers

A customer is addressed by its external id or by the text of its id, and the text is read as an id first.
So both resolve to the customer exactly when no external id reads as the id of another customer of the
merchant (`recognised_iff_clear`). Only `create` adds a customer and no call changes an id or an external
id, so this is so after a history exactly when no `create` in it brings such a pair about
(`identifiers_resolve_iff`).
-/

namespace LdbBackend

open Fixed Effects Table CustomerService

/-- What a customer is addressed by. -/
structure CustomerKey where
  id : UUID
  merchantId : UUID
  externalId : String
  deriving DecidableEq

def Customer.key {μ : Type} (c : Customer μ) : CustomerKey := ⟨c.id, c.merchantId, c.merchantCustomerId⟩

/-- The texts that responses and requests give for a customer. -/
def Customer.identifiers {μ : Type} (c : Customer μ) : List String := [c.merchantCustomerId, uuidText c.id]

def Tables.customerKeys (db : Tables) : List CustomerKey := db.customers.map Customer.key

/-- No external id reads as the id of another customer of its merchant. -/
def Clear (keys : List CustomerKey) : Prop :=
  ∀ k ∈ keys, ∀ l ∈ keys, k.merchantId = l.merchantId → parseUuid l.externalId = some k.id → k.id = l.id

/-- Under each of its identifiers the customer is found and shown, and an update changes it and nothing of
another customer. -/
structure Recognised (db : Tables) (c : Customer Cents) : Prop where
  resolves : ∀ text ∈ c.identifiers,
    (Prog.run exec (resolveCustomer text c.merchantId) db).1 = .ok (some c.load)
  shown : ∀ text ∈ c.identifiers, (Prog.run exec (get text c.merchantId) db).1 =
    .ok ⟨200, "Customer retrieved", .customer (customerResponse c.load (db.accountOf c.id))⟩
  updated : ∀ text ∈ c.identifiers, ∀ body target nomba, storedTarget body c = .ok target →
    (stateAfter (update text body c.merchantId nomba) db).customers =
      setRow (·.id) (updatedRow body c target db.clock) db.customers
  apart : ∀ text ∈ c.identifiers, ∀ body nomba,
    (stateAfter (update text body c.merchantId nomba) db).customers.filter (·.id ≠ c.id) =
      db.customers.filter (·.id ≠ c.id) ∧
    (stateAfter (update text body c.merchantId nomba) db).dedicatedAccounts.filter (·.customerId ≠ c.id) =
      db.dedicatedAccounts.filter (·.customerId ≠ c.id)

/-! ## In one state -/

section State

variable {db : Tables} {c : Customer Cents}

theorem resolve_uuidText (h : db.Constraints) (hmem : c ∈ db.customers) (hid : c.id < 2 ^ 128) :
    db.resolve c.merchantId (uuidText c.id) = some c := by
  have hfind : db.customers.find? (fun d => d.id = c.id ∧ d.merchantId = c.merchantId) = some c := by
    refine find?_unique hmem (decide_eq_true ⟨rfl, rfl⟩) fun d hd hp => ?_
    exact eq_of_key h.customer_pk hd hmem (of_decide_eq_true hp).1
  unfold Tables.resolve
  rw [parseUuid_uuidText hid, Option.bind_some, hfind, Option.some_or]

theorem resolve_externalId_iff (h : db.Constraints) (hmem : c ∈ db.customers) :
    db.resolve c.merchantId c.merchantCustomerId = some c ↔ ∀ d ∈ db.customers,
      d.merchantId = c.merchantId → parseUuid c.merchantCustomerId = some d.id → d.id = c.id := by
  have hexternal : db.customers.find? (fun d => (d.merchantId, d.merchantCustomerId) =
      (c.merchantId, c.merchantCustomerId)) = some c := find?_of_mem h.customer_unique hmem
  unfold Tables.resolve
  rw [hexternal]
  cases hparse : parseUuid c.merchantCustomerId with
  | none => simp
  | some i =>
    rw [Option.bind_some]
    cases hfind : db.customers.find? fun d => d.id = i ∧ d.merchantId = c.merchantId with
    | none =>
      refine iff_of_true rfl fun d hd hmerchant hid => ?_
      have hno := List.find?_eq_none.mp hfind d hd
      exact absurd (decide_eq_true ⟨(Option.some.inj hid).symm, hmerchant⟩) hno
    | some k =>
      obtain ⟨hk, hkid, hkmerchant⟩ : k ∈ db.customers ∧ k.id = i ∧ k.merchantId = c.merchantId :=
        ⟨List.mem_of_find?_eq_some hfind, by simpa using List.find?_some hfind⟩
      rw [Option.some_or, Option.some.injEq]
      constructor
      · rintro rfl d - - hid
        exact (Option.some.inj hid).symm.trans hkid.symm
      · intro hclear
        exact eq_of_key h.customer_pk hk hmem (hclear k hk hkmerchant (congrArg some hkid.symm))

/-- Writing the row of a customer, or a name to its account, leaves the others alone. -/
theorem others_withRow {row : Customer Cents} (hid : row.id = c.id) :
    (db.withRow row).customers.filter (·.id ≠ c.id) = db.customers.filter (·.id ≠ c.id) := by
  refine filter_setRow (decide_eq_false (not_not_intro hid)) fun d _ hd => ?_
  exact decide_eq_false (not_not_intro (hd.trans hid))

theorem others_withName (h : db.Constraints) {account : DedicatedAccount} {name : String}
    (hfirst : db.accountOf c.id = some account) :
    (db.withName account name).dedicatedAccounts.filter (·.customerId ≠ c.id) =
      db.dedicatedAccounts.filter (·.customerId ≠ c.id) := by
  have hmem : account ∈ db.dedicatedAccounts := List.mem_of_find?_eq_some hfirst
  have howner : account.customerId = c.id := by simpa using List.find?_some hfirst
  refine filter_setRow (decide_eq_false (not_not_intro howner)) fun a ha hid => ?_
  rw [eq_of_key h.account_pk ha hmem hid]
  exact decide_eq_false (not_not_intro howner)

theorem recognised_of_resolve (h : db.Constraints)
    (hresolve : ∀ text ∈ c.identifiers, db.resolve c.merchantId text = some c) : Recognised db c := by
  have hrun : ∀ text ∈ c.identifiers, Prog.run exec (resolveCustomer text c.merchantId) db =
      (.ok (some c.load), db) := by
    intro text htext
    rw [resolveCustomer_run h, hresolve text htext]
    rfl
  refine ⟨fun text htext => by rw [hrun text htext], fun text htext => ?_,
    fun text htext body target nomba hstored => ?_, fun text htext body nomba => ?_⟩
  · unfold CustomerService.get
    rw [Prog.run_bind_ok exec (hrun text htext), Prog.run_bind_ok exec (buildCustomerResponse_run _ _)]
    rfl
  · have hends := @update_ends db text body c.merchantId nomba h
    generalize (Prog.run exec (update text body c.merchantId nomba) db).1 = result at hends
    generalize stateAfter (update text body c.merchantId nomba) db = after at hends ⊢
    cases hends with
    | unknown e resolves => exact absurd (resolves.symm.trans (hresolve text htext)) nofun
    | refused e resolves column =>
      obtain rfl := Option.some.inj ((hresolve text htext).symm.trans resolves)
      exact absurd (column.symm.trans hstored) nofun
    | saved response resolves column unnamed =>
      obtain rfl := Option.some.inj ((hresolve text htext).symm.trans resolves)
      obtain rfl := Except.ok.inj (column.symm.trans hstored)
      rfl
    | renamed response resolves column named first answered =>
      obtain rfl := Option.some.inj ((hresolve text htext).symm.trans resolves)
      obtain rfl := Except.ok.inj (column.symm.trans hstored)
      rfl
    | interrupted resolves column named first raised =>
      obtain rfl := Option.some.inj ((hresolve text htext).symm.trans resolves)
      obtain rfl := Except.ok.inj (column.symm.trans hstored)
      rfl
  · have hends := @update_ends db text body c.merchantId nomba h
    generalize (Prog.run exec (update text body c.merchantId nomba) db).1 = result at hends
    generalize stateAfter (update text body c.merchantId nomba) db = after at hends ⊢
    cases hends with
    | unknown e resolves => exact ⟨rfl, rfl⟩
    | refused e resolves column => exact ⟨rfl, rfl⟩
    | saved response resolves column unnamed =>
      obtain rfl := Option.some.inj ((hresolve text htext).symm.trans resolves)
      exact ⟨others_withRow rfl, rfl⟩
    | renamed response resolves column named first answered =>
      obtain rfl := Option.some.inj ((hresolve text htext).symm.trans resolves)
      exact ⟨others_withRow rfl, others_withName h first⟩
    | interrupted resolves column named first raised =>
      obtain rfl := Option.some.inj ((hresolve text htext).symm.trans resolves)
      exact ⟨others_withRow rfl, others_withName h first⟩

theorem Clear.of_recognised (h : db.Constraints) (hrecognised : ∀ c ∈ db.customers, Recognised db c) :
    Clear db.customerKeys := by
  rintro _ hk _ hl hmerchant hparse
  obtain ⟨d, hd, rfl⟩ := List.mem_map.mp hk
  obtain ⟨c, hc, rfl⟩ := List.mem_map.mp hl
  have hrun := (hrecognised c hc).resolves c.merchantCustomerId List.mem_cons_self
  rw [resolveCustomer_run h] at hrun
  obtain ⟨row, hrow, hload⟩ := Option.map_eq_some_iff.mp (Except.ok.inj hrun)
  have hid : row.id = c.id := congrArg (fun c : Customer Decimal => c.id) hload
  obtain rfl := eq_of_key h.customer_pk (resolve_mem hrow) hc hid
  exact (resolve_externalId_iff h hc).mp hrow d hd hmerchant hparse

/-- All identifiers of one state. -/
theorem recognised_iff_clear (h : db.Constraints) (hids : db.clock ≤ 2 ^ 128) :
    (∀ c ∈ db.customers, Recognised db c) ↔ Clear db.customerKeys := by
  refine ⟨.of_recognised h, fun hclear c hc => recognised_of_resolve h fun text htext => ?_⟩
  rcases List.mem_cons.mp htext with rfl | htext
  · refine (resolve_externalId_iff h hc).mpr fun d hd hmerchant hparse => ?_
    exact hclear d.key (List.mem_map_of_mem hd) c.key (List.mem_map_of_mem hc) hmerchant hparse
  · rw [List.mem_singleton.mp htext]
    exact resolve_uuidText h hc (lt_of_lt_of_le (h.customer_fresh c hc) hids)

end State

/-! ## Over a history -/

/-- The customer that `create` has inserted is not taken back: the reply is no failure envelope, and no
data with an empty account number. -/
def Stays : NombaOutcome → Prop
  | .raised _ => True
  | .failure _ => False
  | .success data => ∀ accountNumber, accountNumberOf data = .ok accountNumber → accountNumber.truthy = true

/-- The step adds a customer with this key. -/
def Step.Enrols (db : Tables) (key : CustomerKey) : Step → Prop
  | .call (.create body merchantId nomba) => Admits db body merchantId ∧ Stays nomba ∧
      key = ⟨db.clock, merchantId, body.merchantCustomerId⟩
  | _ => False

/-- The step adds a customer whose external id reads as the id of a customer of the merchant, or whose id
is what an external id of the merchant reads as. -/
def Step.Clashes (db : Tables) (s : Step) : Prop :=
  ∃ key, s.Enrols db key ∧ ∃ k ∈ db.customerKeys, k.merchantId = key.merchantId ∧
    (parseUuid key.externalId = some k.id ∨ parseUuid k.externalId = some key.id)

namespace History

/-- No step clashes where it happens. -/
def Unambiguous : History → List Step → Prop
  | _, [] => True
  | h, s :: steps => ¬ s.Clashes h.tables ∧ Unambiguous (h.step s) steps

end History

section Keys

variable {db : Tables}

theorem customers_untouched {α : Type} {p : Handler α} (hp : p.All (·.writes .customers = false)) (db : Tables) :
    (stateAfter p db).customers = db.customers := by
  refine Prog.run_ops_invariant (fun o : Op => o.writes .customers = false) (·.customers = db.customers)
    (fun o s r s' ho hs he => ?_) db (Prog.ops_all hp db) rfl
  exact ((exec_frame he).customers ho).trans hs

theorem keys_setRow (h : db.Constraints) {row row' : Customer Cents} (hrow : row ∈ db.customers)
    (hkey : row'.key = row.key) : (setRow (·.id) row' db.customers).map Customer.key = db.customerKeys := by
  have hid : row'.id = row.id := congrArg CustomerKey.id hkey
  refine map_setRow fun r hr hr' => ?_
  rw [eq_of_key h.customer_pk hr hrow (hr'.trans hid), hkey]

theorem provision_spares {body : CreateCustomerRequest} {customer : Customer Decimal} {data accountNumber : Json}
    (hn : accountNumberOf data = .ok accountNumber) (htruthy : accountNumber.truthy = true) :
    (provision body customer data).All (·.writes .customers = false) := by
  unfold provision
  simp only [hn, htruthy, Prog.lift_ok, Prog.pure_bind', Bool.not_true, Bool.false_eq_true, if_false]
  cases nombaVaIdOf data with
  | error e => trivial
  | ok nombaVaId => exact ⟨rfl, fun _ => ⟨rfl, fun _ => trivial⟩⟩

/-- `provision` keeps the inserted customer, unless the data holds an empty number. -/
theorem provision_keys (body : CreateCustomerRequest) (row : Customer Cents) (data : Json) :
    (Stays (.success data) ∧ (stateAfter (provision body (createdObject row) data) (withCustomer db row)).customerKeys =
      (withCustomer db row).customerKeys) ∨
    (¬ Stays (.success data) ∧ (stateAfter (provision body (createdObject row) data) (withCustomer db row)).customerKeys =
      ((withCustomer db row).deleteCustomer row.id).customerKeys) := by
  cases hn : accountNumberOf data with
  | error e =>
    have hraises : provision body (createdObject row) data = .raise e := by
      unfold provision
      rw [hn]
      rfl
    refine .inl ⟨fun n hn' => absurd (hn.symm.trans hn') nofun, ?_⟩
    rw [hraises]
    rfl
  | ok accountNumber =>
    by_cases htruthy : accountNumber.truthy = true
    · have hkept : (stateAfter (provision body (createdObject row) data) (withCustomer db row)).customers =
          (withCustomer db row).customers := customers_untouched (provision_spares hn htruthy) _
      refine .inl ⟨fun n hn' => ?_, congrArg (List.map Customer.key) hkept⟩
      rwa [← Except.ok.inj (hn.symm.trans hn')]
    · have hfalse : accountNumber.truthy = false := by simpa using htruthy
      have hprogram : provision body (createdObject row) data =
          .perform (.customerDelete row.id) fun _ =>
            .raise (.http 502 "Nomba response missing account number" none) := by
        unfold provision
        simp only [hn, hfalse, Prog.lift_ok, Prog.pure_bind', Bool.not_false, if_true, Prog.op_bind]
        rfl
      refine .inr ⟨fun hstays => htruthy (hstays accountNumber hn), ?_⟩
      rw [hprogram]
      rfl

/-- `create` adds the key of its customer, or nothing. -/
theorem create_keys (h : db.Constraints) (body : CreateCustomerRequest) (m : UUID) (nomba : NombaOutcome) :
    (Admits db body m ∧ Stays nomba ∧ (stateAfter (create body m nomba) db).customerKeys =
      db.customerKeys ++ [⟨db.clock, m, body.merchantCustomerId⟩]) ∨
    (¬ (Admits db body m ∧ Stays nomba) ∧
      (stateAfter (create body m nomba) db).customerKeys = db.customerKeys) := by
  by_cases hadmits : Admits db body m
  · obtain ⟨row, hrow⟩ := hadmits.columns
    obtain ⟨hid, hmerchant, hexternal, -⟩ := NewCustomer.row_ok hrow
    have hkey : row.key = ⟨db.clock, m, body.merchantCustomerId⟩ := by
      unfold Customer.key
      rw [hid, hmerchant, hexternal]
      rfl
    have hadded : (withCustomer db row).customerKeys =
        db.customerKeys ++ [⟨db.clock, m, body.merchantCustomerId⟩] := by
      rw [← hkey]
      exact List.map_append
    have hremoved : ((withCustomer db row).deleteCustomer row.id).customerKeys = db.customerKeys :=
      congrArg (List.map Customer.key) (removed_customer h hid).1
    rw [← hadded]
    unfold stateAfter
    rw [create_admitted h hadmits hrow]
    cases nomba with
    | raised e => exact .inl ⟨hadmits, trivial, rfl⟩
    | failure message => exact .inr ⟨fun hboth => hboth.2, hremoved⟩
    | success data =>
      rcases @provision_keys db body row data with ⟨hstays, hkeys⟩ | ⟨hgone, hkeys⟩
      · exact .inl ⟨hadmits, hstays, hkeys⟩
      · exact .inr ⟨fun hboth => hgone hboth.2, hkeys.trans hremoved⟩
  · obtain ⟨e, he⟩ : ∃ e, Prog.run exec (create body m nomba) db = (.error e, db) := create_refused h hadmits
    refine .inr ⟨fun hboth => hadmits hboth.1, ?_⟩
    rw [stateAfter, he]

/-- Appending a key that no other key has the id of. -/
theorem clear_append_iff {keys : List CustomerKey} {key : CustomerKey} (hfresh : ∀ k ∈ keys, k.id ≠ key.id) :
    Clear (keys ++ [key]) ↔ Clear keys ∧ ¬ ∃ k ∈ keys, k.merchantId = key.merchantId ∧
      (parseUuid key.externalId = some k.id ∨ parseUuid k.externalId = some key.id) := by
  constructor
  · intro hclear
    refine ⟨fun k hk l hl => hclear k (List.mem_append_left _ hk) l (List.mem_append_left _ hl), ?_⟩
    have hkey : key ∈ keys ++ [key] := List.mem_append_right _ (List.mem_singleton_self key)
    rintro ⟨k, hk, hmerchant, hreads | hreads⟩
    · exact hfresh k hk (hclear k (List.mem_append_left _ hk) key hkey hmerchant hreads)
    · exact hfresh k hk (hclear key hkey k (List.mem_append_left _ hk) hmerchant.symm hreads).symm
  · rintro ⟨hclear, hapart⟩ k hk l hl hmerchant hreads
    rcases List.mem_append.mp hk with hk | hk
    · rcases List.mem_append.mp hl with hl | hl
      · exact hclear k hk l hl hmerchant hreads
      · rw [List.mem_singleton.mp hl] at hmerchant hreads
        exact absurd ⟨k, hk, hmerchant, .inl hreads⟩ hapart
    · rw [List.mem_singleton.mp hk] at hmerchant hreads ⊢
      rcases List.mem_append.mp hl with hl | hl
      · exact absurd ⟨l, hl, hmerchant.symm, .inr hreads⟩ hapart
      · rw [List.mem_singleton.mp hl]

end Keys

section Run

variable {h : History} {s : Step}

theorem delivers_keys {db : Tables} {env : Surroundings} {payload : Json} {o : Outcome Op Res Err Response Tables}
    (hc : db.Constraints) (hd : Delivers env payload db o) : o.state.customerKeys = db.customerKeys := by
  rcases hd.posted with ⟨hun, -⟩ | ⟨requestId, p, t, -, hposted⟩
  · exact congrArg (List.map Customer.key) hun.customers
  · cases hposted.lands with
    | held _ _ _ _ _ customers => exact congrArg (List.map Customer.key) customers
    | unsaved _ _ _ _ customers => exact congrArg (List.map Customer.key) customers
    | saved credit _ _ _ customers =>
      refine (congrArg (List.map Customer.key) customers).trans (keys_setRow hc credit.mem ?_)
      rfl

theorem update_keys {db : Tables} (hc : db.Constraints) (customerId : String) (body : UpdateCustomerRequest)
    (m : UUID) (nomba : NombaOutcome) :
    (stateAfter (update customerId body m nomba) db).customerKeys = db.customerKeys := by
  have hends := @update_ends db customerId body m nomba hc
  have hkept : ∀ {row : Customer Cents} (target : Option Cents), db.resolve m customerId = some row →
      (db.withRow (updatedRow body row target db.clock)).customerKeys = db.customerKeys :=
    fun target hresolve => keys_setRow hc (resolve_mem hresolve) rfl
  generalize (Prog.run exec (update customerId body m nomba) db).1 = result at hends
  generalize stateAfter (update customerId body m nomba) db = after at hends ⊢
  cases hends with
  | unknown e resolves => rfl
  | refused e resolves column => rfl
  | saved response resolves column unnamed => exact hkept _ resolves
  | renamed response resolves column named first answered => exact hkept _ resolves
  | interrupted resolves column named first raised => exact hkept _ resolves

/-- A step adds the key it enrols, or none. -/
theorem step_keys (hc : h.tables.Constraints) (s : Step) :
    (∃ key, s.Enrols h.tables key ∧ (h.step s).tables.customerKeys = h.tables.customerKeys ++ [key]) ∨
    ((∀ key, ¬ s.Enrols h.tables key) ∧ (h.step s).tables.customerKeys = h.tables.customerKeys) := by
  cases hs : s.delivers h.tables with
  | some payload =>
    obtain ⟨env, o, hd, hstep⟩ := step_delivers hc hs
    have hkeys : (h.step s).tables.customerKeys = h.tables.customerKeys := by
      rw [hstep]
      exact delivers_keys hc hd
    refine .inr ⟨fun key hkey => ?_, hkeys⟩
    cases s with
    | setStatus _ _ => cases hs
    | call c =>
      cases c with
      | create _ _ _ => cases hs
      | _ => exact hkey
  | none =>
    cases s with
    | setStatus id status => exact .inr ⟨fun _ henrols => henrols, rfl⟩
    | call c =>
      cases c with
      | create body m nomba =>
        rw [step_call rfl]
        rcases create_keys hc body m nomba with ⟨hadmits, hstays, hkeys⟩ | ⟨hnot, hkeys⟩
        · exact .inl ⟨_, ⟨hadmits, hstays, rfl⟩, hkeys⟩
        · exact .inr ⟨fun key hkey => hnot ⟨hkey.1, hkey.2.1⟩, hkeys⟩
      | createDedicated body m nomba =>
        rw [step_call rfl]
        refine .inr ⟨fun _ henrols => henrols, congrArg (List.map Customer.key) (customers_untouched ?_ _)⟩
        refine (createDedicated_all body m nomba).imp fun o ho => ?_
        cases o with
        | customerCreate _ | customerSave _ | customerDelete _ => cases ho
        | _ => rfl
      | update customerId body m nomba =>
        rw [step_call rfl]
        exact .inr ⟨fun _ henrols => henrols, update_keys hc customerId body m nomba⟩
      | register body m =>
        rw [step_call rfl]
        refine .inr ⟨fun _ henrols => henrols, congrArg (List.map Customer.key) (customers_untouched ?_ _)⟩
        exact ⟨rfl, fun _ => trivial⟩
      | nightly checkedAt nomba =>
        rw [step_call rfl]
        refine .inr ⟨fun _ henrols => henrols, congrArg (List.map Customer.key) (customers_untouched ?_ _)⟩
        refine (nightly_all checkedAt nomba).imp fun o ho => ?_
        cases o with
        | customerCreate _ | customerSave _ | customerDelete _ => cases ho
        | _ => rfl
      | receive env payload => cases hs
      | simulate env requestId body => cases hs

theorem clear_step_iff (hc : h.tables.Constraints) (s : Step) :
    Clear (h.step s).tables.customerKeys ↔ Clear h.tables.customerKeys ∧ ¬ s.Clashes h.tables := by
  rcases step_keys hc s with ⟨key, henrols, hkeys⟩ | ⟨hnone, hkeys⟩
  · have hkey : key.id = h.tables.clock := by
      cases s with
      | setStatus _ _ => exact henrols.elim
      | call c =>
        cases c with
        | create body m nomba => rw [henrols.2.2]
        | _ => exact henrols.elim
    have hunique : ∀ key', s.Enrols h.tables key' → key' = key := by
      intro key' henrols'
      cases s with
      | setStatus _ _ => exact henrols.elim
      | call c =>
        cases c with
        | create body m nomba => exact henrols'.2.2.trans henrols.2.2.symm
        | _ => exact henrols.elim
    rw [hkeys, clear_append_iff]
    · refine and_congr_right fun _ => not_congr ⟨fun hclash => ⟨key, henrols, hclash⟩, ?_⟩
      rintro ⟨key', henrols', hclash⟩
      rwa [hunique key' henrols'] at hclash
    · intro k hk
      obtain ⟨c, hmem, rfl⟩ := List.mem_map.mp hk
      rw [hkey]
      exact Nat.ne_of_lt (hc.customer_fresh c hmem)
  · rw [hkeys]
    refine (and_iff_left ?_).symm
    rintro ⟨key, henrols, -⟩
    exact hnone key henrols

theorem clear_continue_iff (hc : h.tables.Constraints) (steps : List Step) :
    Clear (h.continue steps).tables.customerKeys ↔ Clear h.tables.customerKeys ∧ h.Unambiguous steps := by
  induction steps generalizing h with
  | nil => exact (and_iff_left trivial).symm
  | cons s steps ih =>
    have hrest := ih (step_constraints (s := s) hc)
    rw [clear_step_iff hc s, and_assoc] at hrest
    exact hrest

theorem continue_constraints (hc : h.tables.Constraints) (steps : List Step) :
    (h.continue steps).tables.Constraints := by
  induction steps generalizing h with
  | nil => exact hc
  | cons s steps ih => exact ih (step_constraints hc)

end Run

/-- For every history, and so for every sequence of `create` and `update` calls: both identifiers of every
customer lead to it and to no other exactly when no `create` of the history clashes. Ids have 128 bits. -/
theorem identifiers_resolve_iff (steps : List Step) (hids : (History.run steps).tables.clock ≤ 2 ^ 128) :
    (∀ c ∈ (History.run steps).tables.customers, Recognised (History.run steps).tables c) ↔
      History.Unambiguous .start steps := by
  have hstart : Tables.Constraints History.start.tables := Database.empty.constraints
  have hclear : Clear History.start.tables.customerKeys := fun k hk => absurd hk List.not_mem_nil
  have hrun := clear_continue_iff hstart steps
  rw [and_iff_right hclear] at hrun
  exact (recognised_iff_clear (continue_constraints hstart steps) hids).trans hrun

/-- The merchant 7 enrols a customer under each of these external ids. -/
def enrolled (externalIds : List (String × String)) : List Step :=
  externalIds.map fun (externalId, accountNumber) => .call (.create ⟨externalId, "Ada", none, none, none, []⟩ 7
    (.success (.obj [("accountNumber", .str accountNumber)])))

/-- No external id of the two reads as an id, so no creation clashes. -/
theorem identifiers_resolve_for_two :
    History.Unambiguous .start (enrolled [("cust-1", "9901"), ("cust-2", "9902")]) ∧
      ∀ c ∈ (History.run (enrolled [("cust-1", "9901"), ("cust-2", "9902")])).tables.customers,
        Recognised (History.run (enrolled [("cust-1", "9901"), ("cust-2", "9902")])).tables c := by
  have hclear : History.Unambiguous .start (enrolled [("cust-1", "9901"), ("cust-2", "9902")]) := by
    refine ⟨?_, ?_, trivial⟩
    · rintro ⟨key, -, k, hk, -⟩
      exact absurd hk List.not_mem_nil
    · rintro ⟨key, ⟨-, -, rfl⟩, k, hk, -, hclash⟩
      have hkeys : (History.start.step (.call (.create ⟨"cust-1", "Ada", none, none, none, []⟩ 7
          (.success (.obj [("accountNumber", .str "9901")]))))).tables.customerKeys = [⟨0, 7, "cust-1"⟩] := by
        decide +kernel
      obtain rfl : k = ⟨0, 7, "cust-1"⟩ := List.mem_singleton.mp (hkeys ▸ hk)
      rcases hclash with hnew | hold
      · exact absurd hnew (by decide +kernel)
      · exact absurd hold (by decide +kernel)
  exact ⟨hclear, (identifiers_resolve_iff (enrolled [("cust-1", "9901"), ("cust-2", "9902")])
    (by decide +kernel)).mpr hclear⟩

/-- The second customer is enrolled under the text of the first one's id, and resolves to the first. -/
theorem namesake_resolves_to_other : ¬ ∀ steps : List Step,
    (History.run steps).tables.clock ≤ 2 ^ 128 →
    ∀ c ∈ (History.run steps).tables.customers, Recognised (History.run steps).tables c := by
  intro hclaim
  set steps := enrolled [("cust-1", "9901"), ("00000000-0000-0000-0000-000000000000", "9902")]
  have hkeys : (History.run steps).tables.customerKeys =
      [⟨0, 7, "cust-1"⟩, ⟨2, 7, "00000000-0000-0000-0000-000000000000"⟩] := by decide +kernel
  obtain ⟨c, hc, hkey⟩ : ∃ c ∈ (History.run steps).tables.customers,
      c.key = ⟨2, 7, "00000000-0000-0000-0000-000000000000"⟩ := by
    refine List.mem_map.mp ?_
    show _ ∈ (History.run steps).tables.customerKeys
    rw [hkeys]
    exact List.mem_cons_of_mem _ List.mem_cons_self
  have hresolves := (hclaim steps (by decide +kernel) c hc).resolves c.merchantCustomerId List.mem_cons_self
  have hexternal : c.merchantCustomerId = "00000000-0000-0000-0000-000000000000" :=
    congrArg CustomerKey.externalId hkey
  have hmerchant : c.merchantId = 7 := congrArg CustomerKey.merchantId hkey
  have hid : c.id = 2 := congrArg CustomerKey.id hkey
  rw [hexternal, hmerchant] at hresolves
  have hother : (Prog.run exec (resolveCustomer "00000000-0000-0000-0000-000000000000" 7)
      (History.run steps).tables).1.map (Option.map (·.id)) = .ok (some 0) := by decide +kernel
  rw [hresolves] at hother
  have hzero : c.id = 0 := Option.some.inj (Except.ok.inj hother)
  exact absurd (hid.symm.trans hzero) (by decide)

end LdbBackend
