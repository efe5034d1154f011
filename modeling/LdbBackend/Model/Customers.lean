import LdbBackend.Model.Helpers

/-!
# Customers and dedicated accounts

`app/services/customers.py` and `app/services/accounts.py`. What the Nomba client returns or raises
is an input of the call (`NombaOutcome`); the statement in its place marks the moment of the call.
-/

namespace LdbBackend

open Fixed Effects

/-- What a method of a Nomba client yields: a success envelope with its data, a failure envelope with
its message, or an exception it lets through. -/
inductive NombaOutcome
  | success (data : Json)
  | failure (message : String)
  | raised (e : Err)

structure CreateCustomerRequest where
  merchantCustomerId : String
  name : String
  email : Option String
  phone : Option String
  targetAmount : Option Decimal
  metadata : List (String × String)

structure UpdateCustomerRequest where
  name : Option String
  email : Option String
  phone : Option String
  targetAmount : Option Decimal
  metadata : Option (List (String × String))

structure CreateDedicatedAccountRequest where
  merchantCustomerId : String
  accountName : Option String

/-- `nomba_result["data"] or {}`, then one key of it or another. -/
def vaData (data : Json) : Json := data.orElse (.obj [])

def eitherKey (value : Json) (first second : String) : Except Err Json := do
  let a ← value.get first .null
  if a.truthy then return a else value.get second .null

def accountNumberOf (data : Json) : Except Err Json :=
  eitherKey (vaData data) "accountNumber" "bankAccountNumber"

def nombaVaIdOf (data : Json) : Except Err Json := eitherKey (vaData data) "id" "accountId"

namespace CustomerService

def newCustomer (body : CreateCustomerRequest) (merchantId : UUID) : NewCustomer where
  merchantId := merchantId
  merchantCustomerId := body.merchantCustomerId
  name := body.name
  email := body.email
  phone := body.phone
  targetAmount := body.targetAmount
  metadata := body.metadata

/-- The part of `create` after Nomba answered with data. -/
def provision (body : CreateCustomerRequest) (customer : Customer Decimal) (data : Json) :
    Handler Response := do
  let accountNumber ← Prog.lift (accountNumberOf data)
  if !accountNumber.truthy then do
    let _ ← await (.customerDelete customer.id)
    .raise (.http 502 "Nomba response missing account number" none)
  else do
    let nombaVaId ← Prog.lift (nombaVaIdOf data)
    let _ ← await (.accountCreate {
      customer, nombaVaId, accountNumber := removeSpaces accountNumber.text
      accountName := body.name, accountRef := body.merchantCustomerId })
    let response ← buildCustomerResponse customer
    return ⟨201, "Customer and dedicated account created", .customer response⟩

def create (body : CreateCustomerRequest) (merchantId : UUID) (nomba : NombaOutcome) :
    Handler Response := do
  let existing : Option (Customer Decimal) ←
    await (.customerByExternalId merchantId body.merchantCustomerId)
  if existing.isSome then
    .raise (.http 409 "Customer with this merchant_customer_id already exists" none)
  else do
    let existingAccount : Option DedicatedAccount ← await (.accountFirstByRef body.merchantCustomerId)
    if existingAccount.isSome then
      .raise (.http 409 "Dedicated account reference already exists" none)
    else do
      let customer : Customer Decimal ← await (.customerCreate (newCustomer body merchantId))
      let _ ← await (.nombaCreateAccount body.merchantCustomerId body.name)
      match nomba with
      | .raised e => .raise e
      | .failure message => do
        let _ ← await (.customerDelete customer.id)
        .raise (.http 502 "Failed to provision Nomba virtual account" (some [message]))
      | .success data => provision body customer data

/-! The parser of `uuid.UUID`: prefixes, braces and hyphens dropped, then 32 characters that
`int(text, 16)` accepts, which reads the decimal digits and the spaces of every script. -/

/-- What `int` strips at both ends. -/
def isSpace (c : Char) : Bool :=
  (9 ≤ c.toNat ∧ c.toNat ≤ 13) ∨ (0x2000 ≤ c.toNat ∧ c.toNat ≤ 0x200a) ∨
    c.toNat ∈ [0x20, 0x85, 0xa0, 0x1680, 0x2028, 0x2029, 0x202f, 0x205f, 0x3000]

/-- `text.replace(pattern, "")`; `fuel` is the length of the text. -/
def removeAll (pattern : List Char) : Nat → List Char → List Char
  | 0, cs => cs
  | _, [] => []
  | fuel + 1, c :: cs =>
    if pattern.isPrefixOf (c :: cs) then removeAll pattern fuel ((c :: cs).drop pattern.length)
    else c :: removeAll pattern fuel cs

def hexDigit (c : Char) : Option Nat :=
  if '0' ≤ c ∧ c ≤ '9' then some (c.toNat - '0'.toNat)
  else if 'a' ≤ c ∧ c ≤ 'f' then some (c.toNat - 'a'.toNat + 10)
  else if 'A' ≤ c ∧ c ≤ 'F' then some (c.toNat - 'A'.toNat + 10)
  else decimalDigit c

/-- Hexadecimal digits with single underscores between them. -/
def readHex (afterDigit : Bool) (n : Nat) : List Char → Option Nat
  | [] => if afterDigit then some n else none
  | '_' :: cs => if afterDigit then readHex false n cs else none
  | c :: cs =>
    match hexDigit c with
    | some d => readHex true (16 * n + d) cs
    | none => none

def intBase16 (text : List Char) : Option Nat :=
  let stripped := ((text.dropWhile isSpace).reverse.dropWhile isSpace).reverse
  let unsigned := match stripped with
    | '+' :: cs => cs
    | cs => cs
  match unsigned with
  | '0' :: x :: '_' :: cs => if x = 'x' ∨ x = 'X' then readHex false 0 cs else readHex false 0 unsigned
  | '0' :: x :: cs => if x = 'x' ∨ x = 'X' then readHex false 0 cs else readHex false 0 unsigned
  | cs => readHex false 0 cs

@[irreducible] def parseUuid (text : String) : Option UUID :=
  let noUrn := removeAll "urn:".toList text.length text.toList
  let noUuid := removeAll "uuid:".toList noUrn.length noUrn
  let brace (c : Char) : Bool := c = '\x7b' || c = '\x7d'
  let stripped := ((noUuid.dropWhile brace).reverse.dropWhile brace).reverse
  let hex := stripped.filter (· ≠ '-')
  if hex.length = 32 then intBase16 hex else none

def byExternalId (customerId : String) (merchantId : UUID) : Handler (Option (Customer Decimal)) :=
  await (.customerByExternalId merchantId customerId)

def resolveCustomer (customerId : String) (merchantId : UUID) :
    Handler (Option (Customer Decimal)) :=
  match parseUuid customerId with
  | some parsedId => do
    let customer : Option (Customer Decimal) ← await (.customerById parsedId merchantId)
    match customer with
    | some customer => return some customer
    | none => byExternalId customerId merchantId
  | none => byExternalId customerId merchantId

def get (customerId : String) (merchantId : UUID) : Handler Response := do
  let customer ← resolveCustomer customerId merchantId
  match customer with
  | none => .raise (.http 404 "Customer not found" none)
  | some customer => do
    let response ← buildCustomerResponse customer
    return ⟨200, "Customer retrieved", .customer response⟩

def applyUpdate (body : UpdateCustomerRequest) (customer : Customer Decimal) : Customer Decimal :=
  { customer with
    name := body.name.getD customer.name
    email := body.email <|> customer.email
    phone := body.phone <|> customer.phone
    targetAmount := body.targetAmount <|> customer.targetAmount
    metadata := body.metadata.getD customer.metadata }

/-- The part of `update` that carries a new name over to the account and to Nomba. -/
def renameAccount (name : Option String) (customer : Customer Decimal) (nomba : NombaOutcome) :
    Handler Unit :=
  match name with
  | none => return ()
  | some name => do
    let account : Option DedicatedAccount ← await (.accountFirstByCustomer customer.id)
    match account with
    | none => return ()
    | some account => do
      let _ ← await (.accountSave { account with accountName := name })
      let _ ← await (.nombaUpdateAccountName account.accountRef name)
      match nomba with
      | .raised e => .raise e
      | .success _ => return ()
      | .failure _ => return ()

def update (customerId : String) (body : UpdateCustomerRequest) (merchantId : UUID)
    (nomba : NombaOutcome) : Handler Response := do
  let found ← resolveCustomer customerId merchantId
  match found with
  | none => .raise (.http 404 "Customer not found" none)
  | some found => do
    let customer := applyUpdate body found
    let _ ← await (.customerSave customer)
    renameAccount body.name customer nomba
    let response ← buildCustomerResponse customer
    return ⟨200, "Customer updated", .customer response⟩

end CustomerService

namespace AccountService

def createDedicated (body : CreateDedicatedAccountRequest) (merchantId : UUID)
    (nomba : NombaOutcome) : Handler Response := do
  let customer : Option (Customer Decimal) ←
    await (.customerByExternalId merchantId body.merchantCustomerId)
  match customer with
  | none => .raise (.http 404 "Customer not found" none)
  | some customer => do
    let existing : Option DedicatedAccount ← await (.accountFirstByCustomer customer.id)
    if existing.isSome then .raise (.http 409 "Customer already has a dedicated account" none)
    else do
      let accountName := match body.accountName with
        | some name => if name ≠ "" then name else customer.name
        | none => customer.name
      let _ ← await (.nombaCreateAccount customer.merchantCustomerId accountName)
      match nomba with
      | .raised e => .raise e
      | .failure message =>
        .raise (.http 502 "Failed to provision Nomba virtual account" (some [message]))
      | .success data => do
        let accountNumber ← Prog.lift (accountNumberOf data)
        if !accountNumber.truthy then
          .raise (.http 502 "Nomba response missing account number" none)
        else do
          let nombaVaId ← Prog.lift (nombaVaIdOf data)
          let account : DedicatedAccount ← await (.accountCreate {
            customer, nombaVaId, accountNumber := removeSpaces accountNumber.text, accountName
            accountRef := customer.merchantCustomerId })
          let response ← buildAccountResponse account
          return ⟨201, "Dedicated account created", .account response⟩

end AccountService

end LdbBackend
