import LdbBackend.Isolation.Reads
import LdbBackend.Provision.Maintain

/-!
# What a call for a merchant writes

Alone, `create`, `create_dedicated`, `update` and `register` only perform statements that are orderly
for their merchant: they touch its own customers and the accounts of those, remove no customer with an
account, and never change who an account belongs to or how it is addressed.
-/

namespace LdbBackend

open Fixed Effects Table

/-- The statement is one that a call for merchant `m` may perform. -/
def Op.Orderly (m : UUID) (db : Tables) : Op → Prop
  | .customerCreate new => new.merchantId = m
  | .customerSave c => ∃ row ∈ db.customersOf m, c.id = row.id ∧ c.merchantId = m ∧
      c.merchantCustomerId = row.merchantCustomerId
  | .customerDelete id => (∃ row ∈ db.customersOf m, row.id = id) ∧
      ∀ a ∈ db.dedicatedAccounts, a.customerId ≠ id
  | .accountCreate new => ∃ row ∈ db.customersOf m, new.customer.id = row.id ∧
      new.accountRef = row.merchantCustomerId
  | .accountSave a => ∃ b ∈ db.accountsOf m, ∃ name, a = { b with accountName := name }
  | .transactionCreate _ | .suspenseLogCreate _ _ _ | .reconciliationLogCreate _
  | .processedCreate _ _ => False
  | _ => True

/-- The handler keeps to such statements when it runs from `db`. -/
abbrev Conducted {α : Type} (m : UUID) (p : Handler α) (db : Tables) : Prop :=
  Prog.Along exec (Op.Orderly m) p db

section Conduct

variable {db : Tables} {m : UUID}

theorem orderly_query {o : Op} (ho : o.isQuery = true) : o.Orderly m db := by
  cases o with
  | customerCreate _ | customerSave _ | customerDelete _ | accountCreate _ | accountSave _
  | transactionCreate _ | suspenseLogCreate _ _ _ | reconciliationLogCreate _ | processedCreate _ _ =>
    cases ho
  | _ => trivial

theorem Conducted.query {α : Type} {o : Op} {k : Res o → Handler α} (ho : o.isQuery = true)
    (h : ∀ r, exec o db = .ok (r, db) → Conducted m (k r) db) : Conducted m (.perform o k) db := by
  refine ⟨orderly_query ho, fun r db' he => ?_⟩
  obtain rfl := exec_query ho he
  exact h r he

theorem conducted_reads {α : Type} {p : Handler α} (hp : p.All (·.isWrite = false)) (db : Tables) :
    Conducted m p db := by
  induction p generalizing db with
  | pure a => trivial
  | raise e => trivial
  | perform o k ih => exact ⟨orderly_query (by simpa using hp.1), fun r db' _ => ih r (hp.2 r) db'⟩

/-- A lookup of a customer of the merchant. -/
theorem HoldsSame.refl (m : UUID) (db : Tables) : HoldsSame m db db := ⟨rfl, rfl, rfl⟩

theorem resolve_held {customerId : String} {found : Option (Customer Decimal)} {db' : Tables}
    (hrun : Prog.run exec (CustomerService.resolveCustomer customerId m) db = (.ok found, db')) :
    db' = db ∧ FromHeld m db found := by
  obtain ⟨r, h₁, -, hheld⟩ := (HoldsSame.refl m db).resolve customerId
  rw [h₁, Prod.mk.injEq] at hrun
  exact ⟨hrun.2.symm, hheld found hrun.1⟩

/-! ## The handlers -/

open CustomerService in
theorem conducted_create (h : db.Constraints) (body : CreateCustomerRequest) (nomba : NombaOutcome) :
    Conducted m (create body m nomba) db := by
  rw [create_eq]
  refine .query rfl fun existing _ => ?_
  split_ifs
  · trivial
  · refine .query rfl fun existingAccount _ => ?_
    split_ifs
    · trivial
    · refine ⟨rfl, fun customer db₁ he => Conducted.query rfl fun _ _ => ?_⟩
      obtain ⟨row, hrow, -, rfl, rfl⟩ := createCustomer_ok_iff.mp he
      obtain ⟨hid, hmerchant, hexternal, -⟩ := NewCustomer.row_ok hrow
      have hheld : row ∈ (withCustomer db row).customersOf m :=
        mem_customersOf.mpr ⟨List.mem_append_right _ (List.mem_singleton_self row), hmerchant⟩
      have hdelete : (Op.customerDelete row.id).Orderly m (withCustomer db row) :=
        ⟨⟨row, hheld, rfl⟩, unowned_new h hid⟩
      cases nomba with
      | raised e => trivial
      | failure message => exact ⟨hdelete, fun _ _ _ => trivial⟩
      | success data =>
        refine .lift fun accountNumber _ => ?_
        split_ifs
        · exact ⟨hdelete, fun _ _ _ => trivial⟩
        · refine .lift fun nombaVaId _ => ⟨⟨row, hheld, rfl, hexternal.symm⟩, fun _ _ _ => ?_⟩
          refine conducted_reads ?_ _
          exact (buildCustomerResponse_reads _).bind fun _ => trivial

theorem conducted_createDedicated (body : CreateDedicatedAccountRequest) (nomba : NombaOutcome) :
    Conducted m (AccountService.createDedicated body m nomba) db := by
  refine .query rfl fun found hfound => ?_
  cases found with
  | none => trivial
  | some customer =>
    have hp : ∀ c : Customer Cents, decide (c.merchantId = m ∧
        c.merchantCustomerId = body.merchantCustomerId) = true → c.merchantId = m :=
      fun c hc => (of_decide_eq_true hc).1
    obtain ⟨row, hheld, rfl⟩ := found_customer hp (answered_ok_iff.mp hfound).1
    refine .query rfl fun existing _ => ?_
    show Conducted m (if _ then _ else _) db
    split_ifs
    · trivial
    · refine .query rfl fun _ _ => ?_
      cases nomba with
      | raised e => trivial
      | failure message => trivial
      | success data =>
        refine .lift fun accountNumber _ => ?_
        show Conducted m (if _ then _ else _) db
        split_ifs
        · trivial
        · refine .lift fun nombaVaId _ => ⟨⟨row, hheld, rfl, rfl⟩, fun account _ _ => ?_⟩
          refine conducted_reads ?_ _
          exact (buildAccountResponse_reads account).bind fun _ => trivial

open CustomerService in
theorem conducted_rename (name : Option String) {row : Customer Cents} (hheld : row ∈ db.customersOf m)
    (nomba : NombaOutcome) {customer : Customer Decimal} (hid : customer.id = row.id) :
    Conducted m (renameAccount name customer nomba) db := by
  cases name with
  | none => trivial
  | some name =>
    refine .query rfl fun found hfound => ?_
    cases found with
    | none => trivial
    | some account =>
      have hfind : db.dedicatedAccounts.find? (·.customerId = customer.id) = some account :=
        congrArg Prod.fst (Except.ok.inj hfound)
      have howner : account.customerId = customer.id := by simpa using List.find?_some hfind
      have haccount : account ∈ db.accountsOf m :=
        mem_accountsOf.mpr ⟨List.mem_of_find?_eq_some hfind, row, hheld, (howner.trans hid).symm⟩
      refine ⟨⟨account, haccount, name, rfl⟩, fun _ _ _ => Conducted.query rfl fun _ _ => ?_⟩
      cases nomba with
      | raised e => trivial
      | success data => trivial
      | failure message => trivial

open CustomerService in
theorem resolveCustomer_reads (customerId : String) (m : UUID) :
    (resolveCustomer customerId m).All (·.isWrite = false) := by
  have hexternal : (byExternalId customerId m).All (·.isWrite = false) := ⟨rfl, fun _ => trivial⟩
  unfold resolveCustomer
  cases parseUuid customerId with
  | none => exact hexternal
  | some i =>
    refine ⟨rfl, fun found => ?_⟩
    cases found with
    | none => exact hexternal
    | some customer => trivial

open CustomerService in
theorem conducted_update (customerId : String) (body : UpdateCustomerRequest) (nomba : NombaOutcome) :
    Conducted m (update customerId body m nomba) db := by
  refine (conducted_reads (resolveCustomer_reads customerId m) db).bind fun found db' hrun => ?_
  obtain ⟨rfl, hheld⟩ := resolve_held hrun
  cases found with
  | none => trivial
  | some customer =>
    obtain ⟨row, hrow, rfl⟩ := hheld customer rfl
    refine ⟨⟨row, hrow, rfl, (mem_customersOf.mp hrow).2, rfl⟩, fun _ db₁ he => ?_⟩
    obtain ⟨target, wallet, -, -, -, rfl⟩ := saveCustomer_ok_iff.mp (written_ok_iff.mp he)
    obtain ⟨hmem, hmerchant⟩ := mem_customersOf.mp hrow
    set saved := (applyUpdate body row.load).dump target wallet db'.clock
    have hheld₁ : saved ∈ ({ db' with
        customers := setRow (·.id) saved db'.customers } : Tables).customersOf m :=
      mem_customersOf.mpr ⟨mem_setRow.mpr (.inl ⟨rfl, row, hmem, rfl⟩), hmerchant⟩
    refine (conducted_rename body.name hheld₁ nomba rfl).bind fun _ db₂ _ => ?_
    refine conducted_reads ?_ db₂
    exact (buildCustomerResponse_reads _).bind fun _ => trivial

theorem conducted_register (body : RegisterWebhookRequest) : Conducted m (register body m) db :=
  ⟨trivial, fun _ _ _ => trivial⟩

end Conduct

end LdbBackend
