import LdbBackend.Lib.Ends
import LdbBackend.Model.Schemas
import LdbBackend.Model.Nomba
import LdbBackend.Delivery.Kind
import LdbBackend.Provision.Maintain

/-!
# The statuses of the routes

Statements, columns and payloads raise exceptions that are no `ErrorResponse` and end in 500; an
`ErrorResponse` is raised with few statuses (`Within`), and a service returns the status of its route. So a
request that is sent to a route is answered with what its router declares, with 401 exactly to a wrong key or
signature, with 422 exactly where its schema finds errors, or with 500, and the envelope says the same
(`statuses_declared`); the webhook adds a 400.
-/

namespace LdbBackend

open Fixed Effects

/-- An `ErrorResponse` of one of the statuses, or another exception. -/
def Err.Within (statuses : List Nat) : Err → Prop
  | .http status _ _ => status ∈ statuses
  | _ => True

theorem Err.Within.mono {statuses statuses' : List Nat} {e : Err} (h : e.Within statuses)
    (hsub : statuses ⊆ statuses') : e.Within statuses' := by
  cases e with
  | http status message errors => exact hsub h
  | _ => trivial

/-- An exception that only the handler of last resort meets. -/
def Err.Unhandled : Err → Prop
  | .http _ _ _ | .cancelled => False
  | _ => True

theorem Err.Unhandled.within {statuses : List Nat} {e : Err} (h : e.Unhandled) : e.Within statuses := by
  cases e with
  | http status message errors => exact h.elim
  | _ => trivial

theorem within_of_unhandled {α : Type} {statuses : List Nat} {x : Except Err α} (h : Throws Err.Unhandled x) :
    Throws (Err.Within statuses) x := h.imp fun _ => Err.Unhandled.within

section Throws

/-! ## Statements -/

theorem charField_throws (n : Nat) (v : String) : Throws Err.Unhandled (charField n v) := by
  unfold charField
  split_ifs
  · exact .ok _
  · exact .error trivial

theorem nullableCharField_throws (n : Nat) (v : Json) : Throws Err.Unhandled (nullableCharField n v) := by
  cases v with
  | null => exact .ok _
  | _ => exact (charField_throws n _).map _

theorem decimalField_throws (d : Decimal) : Throws Err.Unhandled (decimalField d) := by
  unfold decimalField
  split
  · exact .ok _
  · exact .error trivial

theorem numericColumn_throws (d : Decimal) : Throws Err.Unhandled (numericColumn d) := by
  unfold numericColumn
  split
  · exact .ok _
  · exact .error trivial

theorem require_throws (p : Prop) [Decidable p] : Throws Err.Unhandled (require p .integrityError) := by
  unfold require
  split_ifs
  · exact .ok _
  · exact .error trivial

theorem getOrNone_throws {ρ : Type} (p : ρ → Bool) (rows : List ρ) :
    Throws Err.Unhandled (getOrNone p rows) := by
  unfold getOrNone
  split
  · exact .ok _
  · exact .error trivial

theorem getByText_throws {ρ : Type} (column : ρ → Option String) (value : String) (rows : List ρ) :
    Throws Err.Unhandled (getByText column value rows) := by
  refine ((charField_throws _ _).bind fun text => ?_).bind fun _ => getOrNone_throws _ _
  split_ifs
  · exact .error trivial
  · exact .ok _

theorem NewCustomer.row_throws (new : NewCustomer) (clock : Nat) :
    Throws Err.Unhandled (new.row clock) := by
  refine (charField_throws _ _).bind fun _ => (charField_throws _ _).bind fun _ => ?_
  refine (Throws.mapM (charField_throws 200) _).bind fun _ => (Throws.mapM (charField_throws 50) _).bind fun _ => ?_
  exact (Throws.mapM decimalField_throws _).bind fun _ => .pure _

theorem NewAccount.row_throws (new : NewAccount) (clock : Nat) :
    Throws Err.Unhandled (new.row clock) := by
  refine (nullableCharField_throws _ _).bind fun _ => (charField_throws _ _).bind fun _ => ?_
  exact (charField_throws _ _).bind fun _ => (charField_throws _ _).bind fun _ => .pure _

theorem NewTransaction.row_throws (new : NewTransaction) (clock : Nat) :
    Throws Err.Unhandled (new.row clock) := by
  refine (charField_throws _ _).bind fun _ => (nullableCharField_throws _ _).bind fun _ => ?_
  refine (nullableCharField_throws _ _).bind fun _ => (decimalField_throws _).bind fun _ => ?_
  refine (decimalField_throws _).bind fun _ => (nullableCharField_throws _ _).bind fun _ => ?_
  exact (nullableCharField_throws _ _).bind fun _ => (nullableCharField_throws _ _).bind fun _ => .pure _

theorem NewReconciliationLog.row_throws (new : NewReconciliationLog) (clock : Nat) :
    Throws Err.Unhandled (new.row clock) :=
  (Throws.mapM decimalField_throws _).bind fun _ => (decimalField_throws _).bind fun _ => .pure _

theorem exec_throws (o : Op) (db : Tables) : Throws Err.Unhandled (exec o db) := by
  cases o with
  | customerByExternalId m x => exact ((getOrNone_throws _ _).map _).map _
  | customerById i m => exact ((getOrNone_throws _ _).map _).map _
  | accountByNumber n => exact (getOrNone_throws _ _).map _
  | accountByRef r => exact (getOrNone_throws _ _).map _
  | transactionByNombaId i => exact (getByText_throws _ _ _).map _
  | transactionByMerchantTxRef r => exact (getByText_throws _ _ _).map _
  | customerCreate new => exact (new.row_throws _).bind fun row => (require_throws _).bind fun _ => .pure _
  | customerSave customer =>
    exact ((Throws.mapM numericColumn_throws _).bind fun _ => (numericColumn_throws _).bind fun _ =>
      (require_throws _).bind fun _ => .pure _).map _
  | accountCreate new =>
    exact (new.row_throws _).bind fun row => (require_throws _).bind fun _ => (require_throws _).bind fun _ => .pure _
  | accountSave account => exact ((require_throws _).bind fun _ => .pure _).map _
  | transactionCreate new =>
    exact (new.row_throws _).bind fun row => (require_throws _).bind fun _ => (require_throws _).bind fun _ => .pure _
  | suspenseLogCreate t reason amount =>
    exact ((decimalField_throws _).bind fun _ => (require_throws _).bind fun _ => .pure _).map _
  | reconciliationLogCreate new =>
    exact ((new.row_throws _).bind fun row => (require_throws _).bind fun _ => .pure _).map _
  | processedCreate r e =>
    exact ((charField_throws _ _).bind fun _ => (charField_throws _ _).bind fun _ =>
      (require_throws _).bind fun _ => .pure _).map _
  | registrationCreate m url secret events =>
    exact (charField_throws _ _).bind fun _ => (charField_throws _ _).bind fun _ => .pure _
  | customerDelete _ | accountFirstByRef _ | accountFirstByCustomer _ | accountFetchCustomer _ | processedExists _
  | registrationsActive _ | emitPaymentReceived _ | post _ _ _ | nombaCreateAccount _ _
  | nombaUpdateAccountName _ _ | nombaListTransactions => exact .ok _

/-! ## Payloads -/

theorem get_throws (value : Json) (key : String) (default : Json) :
    Throws Err.Unhandled (value.get key default) := by
  cases value with
  | obj fields => exact .ok _
  | _ => exact .error trivial

theorem eitherKey_throws (value : Json) (first second : String) :
    Throws Err.Unhandled (eitherKey value first second) := by
  refine (get_throws _ _ _).bind fun a => ?_
  split_ifs
  · exact .pure a
  · exact get_throws _ _ _

theorem toDecimal_throws (value : Json) : Throws Err.Unhandled value.toDecimal := by
  cases value with
  | int n => exact .ok _
  | float d => exact .ok d
  | str s =>
    simp only [Json.toDecimal]
    split
    · exact .ok _
    · exact .error trivial
  | _ => exact .error trivial

theorem aliasNumber_throws (value : Json) : Throws Err.Unhandled (aliasNumber value) := by
  unfold aliasNumber
  split
  · exact .ok _
  · exact .error trivial

theorem readPayment_throws (reference : String) (payload : Json) :
    Throws Err.Unhandled (readPayment reference payload) := by
  refine (get_throws _ _ _).bind fun data => (get_throws _ _ _).bind fun transactionData => ?_
  refine (get_throws _ _ _).bind fun customerData => (get_throws _ _ _).bind fun _ => ?_
  refine (toDecimal_throws _).bind fun _ => (get_throws _ _ _).bind fun _ => (toDecimal_throws _).bind fun _ => ?_
  refine (get_throws _ _ _).bind fun _ => (aliasNumber_throws _).bind fun _ => (get_throws _ _ _).bind fun _ => ?_
  refine (get_throws _ _ _).bind fun _ => (get_throws _ _ _).bind fun _ => (get_throws _ _ _).bind fun _ => ?_
  exact (get_throws _ _ _).bind fun _ => (get_throws _ _ _).bind fun _ => .pure _

/-! ## The Nomba clients -/

theorem accessTokenOf_throws (body : Json) :
    Throws Err.Unhandled (NombaAuthService.accessTokenOf body) := by
  refine (get_throws _ _ _).bind fun data => (get_throws _ _ _).bind fun token => ?_
  split_ifs
  · exact .pure _
  · exact get_throws _ _ _

/-- What is raised before a request is sent is no `ErrorResponse`. -/
def Endpoint.Foreign (endpoint : Endpoint) : Prop := ∀ request e, endpoint request = .raised e → e.Unhandled

theorem getAccessToken_throws (settings : Settings) (cache : TokenCache) {endpoint : Endpoint}
    (h : endpoint.Foreign) : Throws Err.Unhandled (NombaAuthService.getAccessToken settings cache endpoint) := by
  have hfetch : Throws Err.Unhandled (NombaAuthService.fetchToken settings cache.write endpoint) := by
    unfold NombaAuthService.fetchToken
    split_ifs
    · exact .ok _
    · split
      · refine (accessTokenOf_throws _).bind fun token => ?_
        split_ifs
        · exact .pure _
        · split <;> exact .pure _
      · exact .ok _
      · exact .ok _
      · next e he => exact .error (h _ e he)
  unfold NombaAuthService.getAccessToken
  split
  · split_ifs
    · exact .ok _
    · exact hfetch
  · exact hfetch
  · exact hfetch

theorem callNomba_throws (settings : Settings) (cache : TokenCache) {endpoint : Endpoint} (h : endpoint.Foreign)
    (request : List (String × String) → HttpRequest) {read : Json → Except Err Json}
    (hread : ∀ body, Throws Err.Unhandled (read body)) :
    Throws Err.Unhandled (callNomba settings cache endpoint request read) := by
  refine Throws.bind ?_ fun headers => ?_
  · refine (getAccessToken_throws _ _ h).bind fun token => ?_
    split_ifs
    · exact .error trivial
    · exact .pure _
  · split
    · exact (hread _).bind fun _ => .pure _
    · exact .pure _
    · exact .pure _
    · next e he => exact .error (h _ e he)

end Throws

/-- What the client raises is no `ErrorResponse`. -/
def NombaOutcome.Foreign (nomba : NombaOutcome) : Prop := ∀ e, nomba = .raised e → e.Within []

theorem NombaOutcome.foreign_ofResult {result : Except Err Envelope} (h : Throws (Err.Within []) result) :
    (NombaOutcome.ofResult result).Foreign := by
  intro e he
  cases result with
  | error e' =>
    cases he
    exact h e rfl
  | ok envelope =>
    simp only [NombaOutcome.ofResult] at he
    split_ifs at he

/-- No outbound POST raises an `ErrorResponse`. -/
def Surroundings.Foreign (env : Surroundings) : Prop := ∀ r e, env.post r = .raised e → e.Within []

/-! ## The services -/

section Services

variable {statuses : List Nat}

theorem http_ends {α : Type} {R : α → Prop} {status : Nat} {message : String} {errors : Option (List String)}
    (h : status ∈ statuses) : (.raise (.http status message errors) : Handler α).Ends R (Err.Within statuses) := h

theorem provision_ends (h502 : 502 ∈ statuses) (body : CreateCustomerRequest) (customer : Customer Decimal)
    (data : Json) : (CustomerService.provision body customer data).Ends (·.statusCode = 201) (Err.Within statuses) := by
  refine .lift_bind (within_of_unhandled (eitherKey_throws _ _ _)) fun accountNumber => ?_
  split_ifs
  · exact fun _ => http_ends h502
  · exact .lift_bind (within_of_unhandled (eitherKey_throws _ _ _)) fun _ _ _ => rfl

theorem afterInsert_ends (h502 : 502 ∈ statuses) (body : CreateCustomerRequest) (customer : Customer Decimal)
    {nomba : NombaOutcome} (h : nomba.Foreign) :
    (CustomerService.afterInsert body customer nomba).Ends (·.statusCode = 201) (Err.Within statuses) := by
  cases nomba with
  | raised e => exact (h e rfl).mono (by simp)
  | failure message => exact fun _ => http_ends h502
  | success data => exact provision_ends h502 body customer data

theorem create_ends (body : CreateCustomerRequest) (merchant : UUID) {nomba : NombaOutcome} (h : nomba.Foreign) :
    (CustomerService.create body merchant nomba).Ends (·.statusCode = 201) (Err.Within [409, 502]) := by
  rw [CustomerService.create_eq]
  intro existing
  refine .ite (fun _ => http_ends (by simp)) fun _ existingAccount => ?_
  exact .ite (fun _ => http_ends (by simp)) fun _ customer _ => afterInsert_ends (by simp) body customer h

theorem dedicate_ends (h502 : 502 ∈ statuses) (customer : Customer Decimal) (accountName : String) (data : Json) :
    (dedicate customer accountName data).Ends (·.statusCode = 201) (Err.Within statuses) := by
  refine .lift_bind (within_of_unhandled (eitherKey_throws _ _ _)) fun accountNumber => ?_
  split_ifs
  · exact http_ends h502
  · refine .lift_bind (within_of_unhandled (eitherKey_throws _ _ _)) fun _ _ found => ?_
    cases found with
    | none => trivial
    | some customer => rfl

/-- The name that `create_dedicated` gives the account of the customer. -/
def Customer.accountName {μ : Type} (customer : Customer μ) (body : CreateDedicatedAccountRequest) : String :=
  match body.accountName with
  | some name => if name ≠ "" then name else customer.name
  | none => customer.name

/-- `create_dedicated` once Nomba has replied. -/
def afterReply (customer : Customer Decimal) (accountName : String) : NombaOutcome → Handler Response
  | .raised e => .raise e
  | .failure message => .raise (.http 502 "Failed to provision Nomba virtual account" (some [message]))
  | .success data => dedicate customer accountName data

theorem createDedicated_eq (body : CreateDedicatedAccountRequest) (merchant : UUID) (nomba : NombaOutcome) :
    AccountService.createDedicated body merchant nomba =
      .perform (.customerByExternalId merchant body.merchantCustomerId) fun (found : Option (Customer Decimal)) =>
      match found with
      | none => .raise (.http 404 "Customer not found" none)
      | some customer => .perform (.accountFirstByCustomer customer.id) fun existing =>
        if existing.isSome then .raise (.http 409 "Customer already has a dedicated account" none)
        else
          .perform (.nombaCreateAccount customer.merchantCustomerId (customer.accountName body)) fun _ =>
          afterReply customer (customer.accountName body) nomba := by
  cases nomba <;> rfl

theorem afterReply_ends (h502 : 502 ∈ statuses) (customer : Customer Decimal) (accountName : String)
    {nomba : NombaOutcome} (h : nomba.Foreign) :
    (afterReply customer accountName nomba).Ends (·.statusCode = 201) (Err.Within statuses) := by
  cases nomba with
  | raised e => exact (h e rfl).mono (by simp)
  | failure message => exact http_ends h502
  | success data => exact dedicate_ends h502 customer accountName data

theorem createDedicated_ends (body : CreateDedicatedAccountRequest) (merchant : UUID) {nomba : NombaOutcome}
    (h : nomba.Foreign) : (AccountService.createDedicated body merchant nomba).Ends (·.statusCode = 201)
      (Err.Within [404, 409, 502]) := by
  rw [createDedicated_eq]
  intro found
  cases found with
  | none => exact http_ends (by simp)
  | some customer =>
    exact fun existing => .ite (fun _ => http_ends (by simp)) fun _ _ => afterReply_ends (by simp) customer _ h

theorem resolveCustomer_ends (customerId : String) (merchant : UUID) :
    (CustomerService.resolveCustomer customerId merchant).Ends (fun _ => True) (Err.Within statuses) := by
  have hexternal : (CustomerService.byExternalId customerId merchant).Ends (fun _ => True)
      (Err.Within statuses) := fun _ => trivial
  unfold CustomerService.resolveCustomer
  cases CustomerService.parseUuid customerId with
  | none => exact hexternal
  | some parsedId =>
    intro found
    cases found with
    | none => exact hexternal
    | some customer => trivial

theorem get_ends (customerId : String) (merchant : UUID) :
    (CustomerService.get customerId merchant).Ends (·.statusCode = 200) (Err.Within [404]) := by
  refine (resolveCustomer_ends customerId merchant).bind fun found _ => ?_
  cases found with
  | none => exact http_ends (by simp)
  | some customer => exact fun _ => rfl

theorem rename_ends (name : Option String) (customer : Customer Decimal) {nomba : NombaOutcome} (h : nomba.Foreign) :
    (CustomerService.renameAccount name customer nomba).Ends (fun _ => True) (Err.Within [404]) := by
  cases name with
  | none => trivial
  | some name =>
    intro account
    cases account with
    | none => trivial
    | some account =>
      intro _ _
      cases nomba with
      | raised e => exact (h e rfl).mono (by simp)
      | success data => trivial
      | failure message => trivial

theorem updateCustomer_ends (customerId : String) (body : UpdateCustomerRequest) (merchant : UUID) {nomba : NombaOutcome}
    (h : nomba.Foreign) :
    (CustomerService.update customerId body merchant nomba).Ends (·.statusCode = 200) (Err.Within [404]) := by
  refine (resolveCustomer_ends customerId merchant).bind fun found _ => ?_
  cases found with
  | none => exact http_ends (by simp)
  | some found => exact fun _ => (rename_ends _ _ h).bind fun _ _ _ => rfl

theorem register_ends (body : RegisterWebhookRequest) (merchant : UUID) :
    (register body merchant).Ends (·.statusCode = 201) (Err.Within statuses) := fun _ => rfl

/-! ### Deliveries -/

theorem deliver_ends {env : Surroundings} (h : env.Foreign) (body : OutboundPayload)
    (rs : List WebhookRegistration) :
    (deliver env.post body rs).Ends (fun _ => True) (Err.Within statuses) := by
  induction rs with
  | nil => trivial
  | cons r rs ih =>
    unfold deliver
    split_ifs
    · intro _
      beta_reduce
      cases hp : env.post r with
      | response n => exact ih
      | httpError => exact ih
      | raised e => exact (h r e hp).mono (by simp)
    · exact ih

theorem settle_ends {env : Surroundings} (h : env.Foreign) (requestId : Json) (eventType : String) (payload : Json)
    (p : Payment) :
    (settlePayment env requestId eventType payload p).Ends (fun _ => True) (Err.Within statuses) := by
  have hbyRef : (findByRef p.aliasAccountReference).Ends (fun _ => True) (Err.Within statuses) := by
    unfold findByRef
    split_ifs
    · exact fun _ => trivial
    · trivial
  have hfind : (findAccount p.aliasAccountNumber p.aliasAccountReference).Ends (fun _ => True)
      (Err.Within statuses) := by
    unfold findAccount
    split_ifs
    · intro account
      cases account with
      | none => exact hbyRef
      | some account => trivial
    · exact hbyRef
  have hemit : ∀ merchantId customer account t, (emitPaymentReceived env.post merchantId customer account t).Ends
      (fun _ => True) (Err.Within statuses) := by
    intro merchantId customer account t _ rs
    show Prog.Ends _ _ (if _ then _ else _)
    split_ifs
    · trivial
    · exact deliver_ends h _ rs
  refine hfind.bind fun account _ => ?_
  cases account with
  | none => exact fun _ _ _ => trivial
  | some account =>
    intro customer
    show Prog.Ends _ _ (if _ then _ else _)
    split_ifs
    · exact fun _ _ _ => trivial
    · cases customer with
      | none => trivial
      | some customer => exact fun _ _ _ => (hemit _ _ _ _).bind fun _ _ => trivial

/-- The one `ErrorResponse` of a delivery: the payload has no request id. -/
def MissingRequestId (payload : Json) (e : Err) : Prop :=
  e = .http 400 "Webhook missing requestId" none ∧
    ∃ requestId, requestIdOf payload = .ok requestId ∧ requestId.truthy = false

theorem receive_ends {env : Surroundings} (h : env.Foreign) (payload : Json) :
    (receive env payload).Ends (·.statusCode = 200) fun e => e.Within statuses ∨ MissingRequestId payload e := by
  have hwithin : ∀ {α : Type} {x : Except Err α}, Throws Err.Unhandled x →
      Throws (fun e => e.Within statuses ∨ MissingRequestId payload e) x := fun hx => hx.imp fun _ he => .inl he.within
  have hpayment : ∀ requestId eventType, (processPayment env requestId eventType payload).Ends (fun _ => True)
      fun e => e.Within statuses ∨ MissingRequestId payload e := fun requestId eventType =>
    .lift_bind (hwithin (readPayment_throws _ _)) fun p =>
      (settle_ends h requestId eventType payload p).imp (fun _ => id) fun _ => .inl
  refine .lift_bind (hwithin ((get_throws _ _ _).bind fun _ => (get_throws _ _ _).bind fun _ => .pure _))
    fun eventType => ?_
  cases hid : requestIdOf payload with
  | error e =>
    exact hwithin ((get_throws _ _ _).bind fun _ => (get_throws _ _ _).bind fun _ => .pure _) e hid
  | ok requestId =>
    refine .ite (fun hmissing => .inr ⟨rfl, requestId, hid, by simpa using hmissing⟩) fun _ processed => ?_
    refine .ite (fun _ => rfl) fun _ => .ite (fun _ _ => rfl) fun _ => ?_
    refine .lift_bind (hwithin ((get_throws _ _ _).bind fun _ => (get_throws _ _ _).bind fun _ =>
      get_throws _ _ _)) fun transferType => ?_
    exact .ite (fun _ _ => rfl) fun _ => (hpayment _ _).bind fun _ _ _ => rfl

theorem compareDigest_throws (a b : String) : Throws (Err.Within statuses) (compareDigest a b) := by
  unfold compareDigest
  split_ifs
  · exact .ok _
  · exact .error trivial

section Webhook

variable {hmacSha256 : List UInt8 → List UInt8 → Digest} {secret : String} {loads : List UInt8 → Except Err Json}
  {env : Surroundings} {rawBody : List UInt8} {signature : Option String}

theorem verify_throws : Throws (Err.Within statuses) (verifyNombaSignature hmacSha256 secret rawBody signature) := by
  unfold verifyNombaSignature
  split
  · exact .ok _
  · split_ifs
    · exact .ok _
    · exact compareDigest_throws _ _

/-- A webhook is refused for its signature, or else ends like `receive`. -/
theorem nombaWebhook_ends (h : env.Foreign) (hloads : ∀ bytes, Throws (Err.Within []) (loads bytes)) :
    (nombaWebhook hmacSha256 secret loads env rawBody signature).Ends (·.statusCode = 200) fun e =>
      e.Within [400] ∨ verifyNombaSignature hmacSha256 secret rawBody signature = .ok false ∧
        e = .http 401 "Invalid webhook signature" none := by
  unfold nombaWebhook
  cases hverified : verifyNombaSignature hmacSha256 secret rawBody signature with
  | error e => exact .inl (verify_throws e hverified)
  | ok verified =>
    cases verified with
    | false => exact .inr ⟨rfl, rfl⟩
    | true =>
      show Prog.Ends _ _ (Prog.lift (loads rawBody) >>= fun payload => receive env payload)
      refine .lift_bind ((hloads rawBody).imp fun e he => .inl (he.mono (by simp))) fun payload => ?_
      refine (@receive_ends [400] env h payload).imp (fun _ => id) fun e he => .inl ?_
      rcases he with he | ⟨rfl, -⟩
      · exact he
      · simp [Err.Within]

end Webhook

/-- The payload that is simulated has a request id. -/
theorem simulate_ends {env : Surroundings} (h : env.Foreign) {requestId : String} (hid : requestId ≠ "")
    (body : SimulateFundingRequest) :
    (simulate env requestId body).Ends (·.statusCode = 200) (Err.Within statuses) := by
  intro account
  refine (@receive_ends statuses env h (simulatedPayload body requestId account)).imp (fun _ => id) ?_
  rintro e (he | ⟨-, x, hx, hfalse⟩)
  · exact he
  · have hbuilt : ∀ number ref, requestIdOf (buildNombaPayload requestId number ref body.amount body.senderName
        body.senderBank) = .ok (.str requestId) := by
      intro number ref
      show Except.ok ((Json.str requestId).orElse .null) = _
      rw [Json.orElse, if_pos (by simpa [Json.truthy] using hid)]
    have hrequest : requestIdOf (simulatedPayload body requestId account) = .ok (.str requestId) := by
      unfold simulatedPayload
      split
      · split_ifs
        · exact hbuilt _ _
        · exact hbuilt _ _
      · exact hbuilt _ _
    rw [hrequest] at hx
    cases hx
    simp [Json.truthy, hid] at hfalse

theorem accountFor_throws (db : Tables) (accountId merchant : UUID) :
    Throws (Err.Within [404]) (accountFor db accountId merchant) := by
  refine (within_of_unhandled (getOrNone_throws _ _)).bind fun account => ?_
  split
  · exact .error (by simp [Err.Within])
  · split
    · exact .error trivial
    · split_ifs
      · exact .error (by simp [Err.Within])
      · exact .ok _

end Services

/-! ## The routes -/

section Routes

variable (settings : ApiSettings) (hmacSha256 : List UInt8 → List UInt8 → Digest)
  (loads : List UInt8 → Except Err Json)

/-- What the request meets outside raises no `ErrorResponse`, and a simulation has a request id. -/
def ApiRequest.Foreign : ApiRequest → Prop
  | createCustomer _ _ nomba | updateCustomer _ _ _ nomba | createDedicatedAccount _ _ nomba => nomba.Foreign
  | nombaWebhook env _ _ => env.Foreign ∧ ∀ bytes, Throws (Err.Within []) (loads bytes)
  | simulateFunding _ env requestId _ => env.Foreign ∧ requestId ≠ ""
  | _ => True

/-- The request has no right key, or its signature is compared and is another. -/
def ApiRequest.Unauthorized : ApiRequest → Prop
  | createCustomer credentials _ _ | getCustomer credentials _ | updateCustomer credentials _ _ _
  | createDedicatedAccount credentials _ _ | getAccount credentials _ | listTransactions credentials _ _ _
  | getStatement credentials _ _ | registerWebhook credentials _ | simulateFunding credentials _ _ _ =>
    credentials ≠ settings.ldbApiKey
  | nombaWebhook _ rawBody signature =>
    verifyNombaSignature hmacSha256 settings.nombaWebhookSecret rawBody signature = .ok false
  | healthCheck => False

/-- What a route may refuse with: the statuses that its router declares, and 400 to a webhook without a request
id. -/
def ApiRequest.failures : ApiRequest → List Nat
  | nombaWebhook env rawBody signature => 400 :: (nombaWebhook env rawBody signature).responses
  | request => request.responses

/-- The envelope repeats the status of the answer. That is the status of the route for a success, and for a
failure 500, 401 exactly to an unauthorized request, 422 exactly to one that is let in with field errors, or
one of the other failures of the route. -/
structure Declares (request : ApiRequest) (a : HttpAnswer) : Prop where
  envelope : a.body.statusCode = a.status
  outcome : (a.status = request.statusCode ∧ ∃ r, a.body = .success r) ∨
    (a.status ∈ 500 :: 401 :: 422 :: request.failures ∧ ∃ message errors, a.body = .failure a.status message errors)
  unauthorized : a.status = 401 ↔ request.Unauthorized settings hmacSha256
  invalid : a.status = 422 ↔ request.admitted settings = .ok () ∧ request.errors ≠ []

variable {settings hmacSha256 loads} {request : ApiRequest} {db : Tables}

/-! ### Behind the key -/

/-- The statuses that the services of a route refuse with. -/
def ApiRequest.refusals : ApiRequest → List Nat
  | createCustomer _ _ _ => [409, 502]
  | createDedicatedAccount _ _ _ => [404, 409, 502]
  | getCustomer _ _ | updateCustomer _ _ _ _ | getAccount _ _ | listTransactions _ _ _ _ | getStatement _ _ _ => [404]
  | nombaWebhook _ _ _ => [400]
  | registerWebhook _ _ | simulateFunding _ _ _ _ | healthCheck => []

theorem refusals_subset : request.refusals ⊆ request.failures := by
  cases request <;> simp [ApiRequest.refusals, ApiRequest.failures, ApiRequest.responses]

/-- The checks of key and schema have their statuses to themselves. -/
theorem refusals_apart : 401 ∉ request.refusals ∧ 422 ∉ request.refusals ∧ 500 ∉ request.refusals ∧
    request.statusCode ≠ 401 ∧ request.statusCode ≠ 422 := by
  cases request <;> simp [ApiRequest.refusals, ApiRequest.statusCode]

/-- The results of a controller that was reached: its route's status, or a refusal of its services. -/
def Reached (request : ApiRequest) (result : Except Err ApiResponse) : Prop :=
  (∀ r, result = .ok r → r.statusCode = request.statusCode) ∧ Throws (Err.Within request.refusals) result

theorem awaiting_ok {service : Handler Response} {r : ApiResponse} (h : (awaiting service db).1 = .ok r) :
    ∃ response, (Prog.run exec service db).1 = .ok response ∧ response.api = r := by
  unfold awaiting at h
  cases hrun : (Prog.run exec service db).1 with
  | error e =>
    rw [hrun] at h
    cases h
  | ok response =>
    rw [hrun] at h
    exact ⟨response, rfl, Except.ok.inj h⟩

theorem awaiting_error_iff {service : Handler Response} {e : Err} :
    (awaiting service db).1 = .error e ↔ (Prog.run exec service db).1 = .error e := by
  show (Prog.run exec service db).1.map Response.api = _ ↔ _
  cases (Prog.run exec service db).1 <;> simp [Except.map]

theorem reached_awaiting {service : Handler Response}
    (h : service.Ends (·.statusCode = request.statusCode) (Err.Within request.refusals)) :
    Reached request (awaiting service db).1 := by
  obtain ⟨hok, hthrows⟩ := h.run (fun o s => within_of_unhandled (exec_throws o s)) db
  refine ⟨fun r hr => ?_, hthrows.map _⟩
  obtain ⟨response, hresponse, rfl⟩ := awaiting_ok hr
  exact hok response hresponse

theorem reached_reading {β : Type} {query : Tables → Except Err β} {response : β → ApiResponse}
    (h : Throws (Err.Within request.refusals) (query db))
    (hresponse : ∀ b, (response b).statusCode = request.statusCode) :
    Reached request (reading query response db).1 := by
  refine ⟨fun r hr => ?_, h.map _⟩
  unfold reading at hr
  cases hq : query db with
  | error e =>
    rw [hq] at hr
    cases hr
  | ok b =>
    rw [hq] at hr
    rw [← Except.ok.inj hr]
    exact hresponse b

/-- The check of a route with these credentials. -/
theorem admitted_merchant {credentials : String}
    (h : (getMerchantFromBearer settings credentials).map (fun _ => ()) = .ok ()) :
    ∃ merchant, getMerchantFromBearer settings credentials = .ok merchant ∧ credentials = settings.ldbApiKey := by
  unfold getMerchantFromBearer at h ⊢
  split_ifs at h ⊢ with hkey
  · cases h
  · cases hparse : CustomerService.parseUuid settings.defaultMerchantId with
    | some merchant => exact ⟨merchant, rfl, not_not.mp hkey⟩
    | none =>
      rw [hparse] at h
      cases h

theorem reached_merchant {credentials : String} {controller : UUID → Controller}
    (hadmitted : (getMerchantFromBearer settings credentials).map (fun _ => ()) = .ok ())
    (h : ∀ merchant, Reached request (controller merchant db).1) :
    Reached request (withMerchant settings credentials controller db).1 := by
  obtain ⟨merchant, hmerchant, -⟩ := admitted_merchant hadmitted
  unfold withMerchant
  rw [hmerchant]
  exact h merchant

/-- A webhook is only told 401 where its signature is compared and is another. -/
theorem webhook_reached {env : Surroundings} {rawBody : List UInt8} {signature : Option String}
    (hforeign : (ApiRequest.nombaWebhook env rawBody signature).Foreign loads) {result : Except Err ApiResponse}
    (hresult : (awaiting (nombaWebhook hmacSha256 settings.nombaWebhookSecret loads env rawBody signature) db).1 =
      result) :
    Reached (.nombaWebhook env rawBody signature) result ∨
      (ApiRequest.nombaWebhook env rawBody signature).Unauthorized settings hmacSha256 ∧
        result = .error (.http 401 "Invalid webhook signature" none) := by
  have hends := @nombaWebhook_ends hmacSha256 settings.nombaWebhookSecret loads env rawBody signature
    hforeign.1 hforeign.2
  obtain ⟨hok, hthrows⟩ := hends.run (fun o s => (exec_throws o s).imp fun e he => .inl he.within) db
  cases result with
  | ok r =>
    refine .inl ⟨fun r' hr' => ?_, .ok r⟩
    cases hr'
    obtain ⟨response, hresponse, rfl⟩ := awaiting_ok hresult
    exact hok response hresponse
  | error e =>
    rcases hthrows e (awaiting_error_iff.mp hresult) with hwithin | ⟨hverified, rfl⟩
    · exact .inl ⟨(fun r hr => by cases hr), .error hwithin⟩
    · exact .inr ⟨hverified, rfl⟩

/-- The controller of a request that is let in. -/
theorem serve_reached (hadmitted : request.admitted settings = .ok ()) (hforeign : request.Foreign loads) :
    Reached request (request.serve settings hmacSha256 loads db).1 ∨ request.Unauthorized settings hmacSha256 ∧
      (request.serve settings hmacSha256 loads db).1 = .error (.http 401 "Invalid webhook signature" none) := by
  cases request with
  | nombaWebhook env rawBody signature => exact webhook_reached hforeign rfl
  | createCustomer credentials body nomba =>
    exact .inl (reached_merchant hadmitted fun merchant => reached_awaiting (create_ends body merchant hforeign))
  | getCustomer credentials customerId =>
    exact .inl (reached_merchant hadmitted fun merchant => reached_awaiting (get_ends customerId merchant))
  | updateCustomer credentials customerId body nomba =>
    exact .inl (reached_merchant hadmitted fun merchant =>
      reached_awaiting (updateCustomer_ends customerId body merchant hforeign))
  | createDedicatedAccount credentials body nomba =>
    exact .inl (reached_merchant hadmitted fun merchant =>
      reached_awaiting (createDedicated_ends body merchant hforeign))
  | getAccount credentials accountId =>
    exact .inl (reached_merchant hadmitted fun merchant =>
      reached_reading ((accountFor_throws db accountId merchant).bind fun _ => .pure _) fun _ => rfl)
  | listTransactions credentials order accountId filters =>
    exact .inl (reached_merchant hadmitted fun merchant =>
      reached_reading ((accountFor_throws db accountId merchant).bind fun _ => .pure _) fun _ => rfl)
  | getStatement credentials order accountId =>
    exact .inl (reached_merchant hadmitted fun merchant =>
      reached_reading ((accountFor_throws db accountId merchant).bind fun _ => .pure _) fun _ => rfl)
  | registerWebhook credentials body =>
    exact .inl (reached_merchant hadmitted fun merchant => reached_awaiting (register_ends body merchant))
  | simulateFunding credentials env requestId body =>
    exact .inl (reached_merchant hadmitted fun _ => reached_awaiting (simulate_ends hforeign.1 hforeign.2 body))
  | healthCheck => exact .inl ⟨fun r hr => by cases hr; rfl, .ok _⟩

/-! ### Every request -/

/-- The envelope of an exception: an `ErrorResponse` brings its status, any other has 500. -/
theorem answer_error {e : Err} {a : HttpAnswer} (ha : request.answer (.error e) = some a) :
    a.body.statusCode = a.status ∧ (∃ message errors, a.body = .failure a.status message errors) ∧
      (a.status = 500 ∨ ∃ message errors, e = .http a.status message errors) := by
  cases e with
  | http status message errors =>
    cases ha
    exact ⟨rfl, ⟨_, _, rfl⟩, .inr ⟨_, _, rfl⟩⟩
  | cancelled => cases ha
  | _ =>
    cases ha
    exact ⟨rfl, ⟨_, _, rfl⟩, .inl rfl⟩

/-- What is not let in was not authorized, or the configured merchant is no UUID. -/
theorem admitted_error {e : Err} (h : request.admitted settings = .error e) :
    (e = .http 401 "Unauthorized access" none ∧ ∀ hmacSha256, request.Unauthorized settings hmacSha256) ∨
      e = .valueError ∧ CustomerService.parseUuid settings.defaultMerchantId = none ∧
        ∀ hmacSha256, ¬ request.Unauthorized settings hmacSha256 := by
  have hcheck : ∀ {credentials : String}, (getMerchantFromBearer settings credentials).map (fun _ => ()) = .error e →
      (e = .http 401 "Unauthorized access" none ∧ credentials ≠ settings.ldbApiKey) ∨
        e = .valueError ∧ CustomerService.parseUuid settings.defaultMerchantId = none ∧
          ¬ credentials ≠ settings.ldbApiKey := by
    intro credentials herror
    unfold getMerchantFromBearer at herror
    split_ifs at herror with hkey
    · cases herror
      exact .inl ⟨rfl, hkey⟩
    · cases hparse : CustomerService.parseUuid settings.defaultMerchantId with
      | some merchant =>
        rw [hparse] at herror
        cases herror
      | none =>
        rw [hparse] at herror
        cases herror
        exact .inr ⟨rfl, rfl, hkey⟩
  cases request with
  | nombaWebhook env rawBody signature => cases h
  | healthCheck => cases h
  | _ =>
    rcases hcheck h with ⟨he, hkey⟩ | ⟨he, hparse, hkey⟩
    · exact .inl ⟨he, fun _ => hkey⟩
    · exact .inr ⟨he, hparse, fun _ => hkey⟩

/-- A request that is let in is authorized, unless it is a webhook. -/
theorem reached_authorized (hadmitted : request.admitted settings = .ok ()) (hforeign : request.Foreign loads)
    (hunauthorized : request.Unauthorized settings hmacSha256) :
    (request.serve settings hmacSha256 loads db).1 = .error (.http 401 "Invalid webhook signature" none) := by
  cases request with
  | nombaWebhook env rawBody signature =>
    have hverified : verifyNombaSignature hmacSha256 settings.nombaWebhookSecret rawBody signature = .ok false :=
      hunauthorized
    show (awaiting (LdbBackend.nombaWebhook _ _ _ _ _ _) db).1 = _
    unfold LdbBackend.nombaWebhook
    rw [hverified]
    rfl
  | healthCheck => exact hunauthorized.elim
  | _ => exact absurd (admitted_merchant hadmitted).choose_spec.2 hunauthorized

/-- The answer to an authorized request whose controller was reached. -/
theorem declares_of_reached {result : Except Err ApiResponse} (hreached : Reached request result)
    (hauthorized : ¬ request.Unauthorized settings hmacSha256) (herrors : request.errors = []) {a : HttpAnswer}
    (ha : request.answer result = some a) : Declares settings hmacSha256 request a := by
  obtain ⟨h401, h422, -, hstatus401, hstatus422⟩ := @refusals_apart request
  have hvalid : ¬ (request.admitted settings = .ok () ∧ request.errors ≠ []) := fun hinvalid => hinvalid.2 herrors
  obtain ⟨hok, hthrows⟩ := hreached
  cases result with
  | ok r =>
    cases ha
    exact ⟨hok r rfl, .inl ⟨rfl, r, rfl⟩, iff_of_false hstatus401 hauthorized, iff_of_false hstatus422 hvalid⟩
  | error e =>
    obtain ⟨henvelope, hbody, hraised⟩ := answer_error ha
    have hmem : a.status = 500 ∨ a.status ∈ request.refusals := by
      rcases hraised with hlast | ⟨message, errors, rfl⟩
      · exact .inl hlast
      · exact .inr (hthrows _ rfl)
    refine ⟨henvelope, .inr ⟨?_, hbody⟩, iff_of_false (fun h => ?_) hauthorized, iff_of_false (fun h => ?_) hvalid⟩
    · rcases hmem with hlast | hrefusal
      · simp [hlast]
      · simp [refusals_subset hrefusal]
    · exact h401 (h ▸ hmem.resolve_left (by omega))
    · exact h422 (h ▸ hmem.resolve_left (by omega))

/-- An admitted request with field errors is one behind a key, which is right. -/
theorem authorized_of_errors (hadmitted : request.admitted settings = .ok ()) (herrors : request.errors ≠ []) :
    ¬ request.Unauthorized settings hmacSha256 := by
  intro hunauthorized
  cases request with
  | nombaWebhook env rawBody signature => exact herrors rfl
  | healthCheck => exact herrors rfl
  | _ => exact hunauthorized (admitted_merchant hadmitted).choose_spec.2

/-- For every request, in every state, what is answered is what the routers, the schemas and the checks of key
and signature declare. -/
theorem statuses_declared (hforeign : request.Foreign loads) {a : HttpAnswer}
    (ha : request.answer (request.submit settings hmacSha256 loads db).1 = some a) :
    Declares settings hmacSha256 request a := by
  unfold ApiRequest.submit at ha
  cases hadmitted : request.admitted settings with
  | error e =>
    rw [hadmitted] at ha
    obtain ⟨henvelope, hbody, -⟩ := answer_error ha
    rcases admitted_error hadmitted with ⟨rfl, hunauthorized⟩ | ⟨rfl, -, hauthorized⟩
    · cases ha
      exact ⟨henvelope, .inr ⟨by simp, hbody⟩, iff_of_true rfl (hunauthorized _), by simp [hadmitted]⟩
    · cases ha
      exact ⟨henvelope, .inr ⟨by simp, hbody⟩, iff_of_false (by simp) (hauthorized _), by simp [hadmitted]⟩
  | ok _ =>
    rw [hadmitted] at ha
    by_cases herrors : request.errors = []
    · simp only [if_pos herrors] at ha
      rcases @serve_reached settings hmacSha256 loads request db hadmitted hforeign with
        hreached | ⟨hunauthorized, hresult⟩
      · refine declares_of_reached hreached (fun hunauthorized => ?_) herrors ha
        have h401 := hreached.2 _ (reached_authorized hadmitted hforeign hunauthorized)
        exact (@refusals_apart request).1 h401
      · rw [hresult] at ha
        cases ha
        exact ⟨rfl, .inr ⟨by simp, _, _, rfl⟩, iff_of_true rfl hunauthorized, by simp [herrors]⟩
    · simp only [if_neg herrors] at ha
      cases ha
      exact ⟨rfl, .inr ⟨by simp, _, _, rfl⟩, iff_of_false (by simp) (authorized_of_errors hadmitted herrors),
        iff_of_true rfl ⟨hadmitted, herrors⟩⟩

end Routes

/-- A creation with a wrong key, while Nomba cannot be reached. -/
def guessed : ApiRequest :=
  .createCustomer "guess" ⟨"cust-1", "Ada", none, none, none, []⟩ (.ofResult (NombaVirtualAccountService.create
    ⟨"https://sandbox.nomba.com", "id", "secret", "", ""⟩ ⟨.miss, .stored⟩ (fun _ => .transportError "timed out")
    "cust-1" "Ada"))

def guessedSettings : ApiSettings := ⟨"dev-api-key", "00000000-0000-0000-0000-000000000001", ""⟩

theorem statuses_declared_for_wrong_key :
    Declares guessedSettings (fun _ _ => ⟨List.replicate 32 0, rfl⟩) guessed
      ⟨401, .failure 401 "Unauthorized access" none⟩ := by
  have hforeign : guessed.Foreign (fun _ => .ok .null) := by
    refine NombaOutcome.foreign_ofResult (within_of_unhandled
      (callNomba_throws _ _ (fun _ _ h => by cases h) _ fun body => ?_))
    exact (get_throws _ _ _).bind fun data => (get_throws _ _ _).bind fun _ => .pure _
  exact @statuses_declared guessedSettings (fun _ _ => ⟨List.replicate 32 0, rfl⟩) (fun _ => .ok .null) guessed
    .empty hforeign _ rfl

end LdbBackend
