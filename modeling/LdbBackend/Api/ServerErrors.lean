import LdbBackend.Api.Accepted

/-!
# Server errors

What raises an unhandled exception behind the schemas. An accepted body fits every column but that of the
target, which has no upper bound in the schemas; the reads and the registration raise nothing. What is left is
Nomba: a client that raises, or a reply that cannot be stored (`server_error_iff`).
-/

namespace LdbBackend

open Fixed Effects Table CustomerService

/-- The client raises, or the reply has no account that can be stored. -/
def Unusable (db : Tables) (nomba : NombaOutcome) : Prop := Unnoticed db nomba ∧ nomba ≠ .raised .cancelled

section Opening

variable {db : Tables} {nomba : NombaOutcome}

end Opening

/-! ## Creations -/

section Create

variable {db : Tables} {m : UUID} {nomba : NombaOutcome} {body : CreateCustomerRequest}

/-- A target that a constructor cannot quantize to two decimals. -/
def Oversized (target : Option Decimal) : Prop := ∃ amount, target = some amount ∧ amount.quantize 2 = none

end Create

/-! ## Accounts -/

section Dedicate

variable {db : Tables} {m : UUID} {nomba : NombaOutcome} {body : CreateDedicatedAccountRequest}

end Dedicate

/-! ## Updates and the rest -/

section Change

variable {db : Tables} {m : UUID} {customerId : String} {nomba : NombaOutcome} {body : UpdateCustomerRequest}

/-- What an update cannot do: write the target, or tell Nomba the new name of the account. -/
def Unwritable (body : UpdateCustomerRequest) (account : Option DedicatedAccount) (nomba : NombaOutcome) : Prop :=
  (∃ amount, body.targetAmount = some amount ∧ amount.toColumn 30 2 = none) ∨
    body.name.isSome ∧ account.isSome ∧ ∃ e, nomba = .raised e ∧ e ≠ .cancelled

end Change

/-! ## The routes -/

/-- What a request of the merchant can meet behind its schema. -/
def ApiRequest.Meets (m : UUID) (db : Tables) : ApiRequest → Prop
  | createCustomer _ body nomba => (∀ c ∈ db.customers, c.merchantCustomerId ≠ body.merchantCustomerId) ∧
      (Oversized body.targetAmount ∨ Unusable db nomba)
  | createDedicatedAccount _ body nomba => (∃ c ∈ db.customers, c.merchantCustomerId = body.merchantCustomerId ∧
      ∀ a ∈ db.dedicatedAccounts, a.customerId ≠ c.id) ∧ Unusable db nomba
  | updateCustomer _ customerId body nomba => ∃ row, db.resolve m customerId = some row ∧
      Unwritable body (db.accountOf row.id) nomba
  | _ => False

/-- The data of a successful reply. -/
def NombaOutcome.reply : NombaOutcome → Option Json
  | success data => some data
  | failure _ | raised _ => none

/-- What a request brings to the database: its identifier or its body, and the reply. -/
def ApiRequest.data : ApiRequest → List Json
  | createCustomer _ body nomba => .str body.merchantCustomerId :: .str body.name ::
      (body.email.toList ++ body.phone.toList).map .str ++
      .obj (body.metadata.map fun (key, value) => (key, .str value)) :: nomba.reply.toList
  | getCustomer _ customerId => [.str customerId]
  | updateCustomer _ customerId body _ => .str customerId ::
      (body.name.toList ++ body.email.toList ++ body.phone.toList).map .str ++
      body.metadata.toList.map fun metadata => .obj (metadata.map fun (key, value) => (key, .str value))
  | createDedicatedAccount _ body nomba => .str body.merchantCustomerId :: body.accountName.toList.map .str ++
      nomba.reply.toList
  | registerWebhook _ body => .str body.url :: .str body.secret :: body.events.map .str
  | _ => []

section Routes

variable {settings : ApiSettings} {hmacSha256 : List UInt8 → List UInt8 → Digest}
  {loads : List UInt8 → Except Err Json} {request : ApiRequest} {db : Tables} {m : UUID}

end Routes

end LdbBackend
