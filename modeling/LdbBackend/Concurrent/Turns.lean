import LdbBackend.Delivery.Settle
import LdbBackend.Model.Service

/-!
# The protocol of the calls

Where a call can be between two statements (`Place`) and which statement takes it where (`Turn`). A
place remembers what the rest of the call still uses: the rows and objects it has read, the transaction
it has inserted. `follows_handler` shows that every handler keeps to the protocol, so an invariant of a
pool only has to look at the turns.

Statements that only read, and whose answer is not used again, are not told apart (`Op.silent`).
-/

namespace LdbBackend

open Fixed Effects

inductive Place
  | arrived
  /-- A delivery whose request was marked before. -/
  | skipped
  | opened
  | unnumbered
  | unrouted
  | routed (account : DedicatedAccount)
  | loaded (account : DedicatedAccount) (customer : Option (Customer Decimal))
  | held (t : Transaction) (reason : SuspenseReason)
  | suspended (t : Transaction) (reason : SuspenseReason)
  | inserted (account : DedicatedAccount) (customer : Customer Decimal) (t : Transaction)
  | credited (t : Transaction)
  | logged (t : Transaction)
  | settled (t : Transaction)
  | marked
  /-- `update` has found no customer by the id. -/
  | unresolved
  /-- `update` has read the customer, written it, read its account. -/
  | found (customer : Customer Decimal)
  | saved (customer : Customer Decimal)
  | linked (account : DedicatedAccount)
  /-- `create` has inserted the customer. -/
  | pending (customer : Customer Decimal)
  /-- `create_dedicated` has read the customer. -/
  | chosen (customer : Customer Decimal)
  | matched (t : Transaction)
  | closing

/-- Statements that leave nothing behind, not even the entry of `emit_payment_received`. -/
def Op.silent : Op → Bool
  | .emitPaymentReceived _ => false
  | o => o.isQuery

theorem isQuery_of_silent {o : Op} (h : o.silent = true) : o.isQuery = true := by
  unfold Op.silent at h
  split at h
  · cases h
  · exact h

namespace Place

/-- The places in which silent statements change nothing. -/
def waits : Place → Bool
  | .arrived | .settled _ | .pending _ | .chosen _ | .closing => true
  | _ => false

end Place

/-- Where the lookups of a payment begin, and where they go on without an account number. -/
def Payment.byRef (p : Payment) : Place :=
  if p.aliasAccountReference.truthy then .unnumbered else .unrouted

def Payment.opening (p : Payment) : Place := if p.aliasAccountNumber ≠ "" then .opened else p.byRef

def Kind.opening : Kind → Place
  | .payment _ p => p.opening
  | _ => .opened

theorem byRef_cases (p : Payment) : p.byRef = .unnumbered ∨ p.byRef = .unrouted := by
  unfold Payment.byRef
  split_ifs
  · exact .inl rfl
  · exact .inr rfl

theorem opening_cases (k : Kind) :
    k.opening = .opened ∨ k.opening = .unnumbered ∨ k.opening = .unrouted := by
  cases k with
  | payment requestId p =>
    show p.opening = _ ∨ p.opening = _ ∨ p.opening = _
    unfold Payment.opening
    split_ifs
    · exact .inl rfl
    · exact .inr (byRef_cases p)
  | _ => exact .inl rfl

/-- The place from which a payment is held, with its account and the reason. -/
inductive Holding : Place → Option DedicatedAccount → SuspenseReason → Prop
  | unrouted : Holding .unrouted none .misdirected
  | inactive {account : DedicatedAccount} {customer : Option (Customer Decimal)}
      (status : account.status ≠ .active) :
      Holding (.loaded account customer) (some account) .closedAccount

/-- Where `update` looks for the external id. -/
inductive Seeking (customerId : String) : Place → Prop
  | unparsed (h : CustomerService.parseUuid customerId = none) : Seeking customerId .arrived
  | unresolved : Seeking customerId .unresolved

/-- In place `g` the call may perform `o`, and the answer takes it to the place `f` says. -/
inductive Turn : Call → Place → (o : Op) → (Res o → Place) → Prop
  | wait {call : Call} {g : Place} {o : Op} (waits : g.waits = true) (silent : o.silent = true) :
      Turn call g o fun _ => g
  | check {env : Surroundings} {payload : Json} {requestId : String}
      (key : (kindOf payload).key = some requestId) :
      Turn (.receive env payload) .arrived (.processedExists requestId)
        fun processed : Bool => if processed then .skipped else (kindOf payload).opening
  | ignore {env : Surroundings} {payload requestId : Json} {eventType message : String}
      (kind : kindOf payload = .other requestId eventType message) :
      Turn (.receive env payload) .opened (.processedCreate requestId.text eventType) fun _ => .marked
  | byNumber {env : Surroundings} {payload requestId : Json} {p : Payment}
      (kind : kindOf payload = .payment requestId p) :
      Turn (.receive env payload) .opened (.accountByNumber p.aliasAccountNumber)
        fun a : Option DedicatedAccount => a.elim p.byRef .routed
  | byReference {env : Surroundings} {payload requestId : Json} {p : Payment}
      (kind : kindOf payload = .payment requestId p) :
      Turn (.receive env payload) .unnumbered (.accountByRef p.aliasAccountReference.text)
        fun a : Option DedicatedAccount => a.elim .unrouted .routed
  | load {env : Surroundings} {payload : Json} {account : DedicatedAccount} :
      Turn (.receive env payload) (.routed account) (.accountFetchCustomer account)
        fun customer : Option (Customer Decimal) => .loaded account customer
  | hold {env : Surroundings} {payload requestId : Json} {p : Payment} {g : Place}
      {account : Option DedicatedAccount} {reason : SuspenseReason}
      (kind : kindOf payload = .payment requestId p) (holding : Holding g account reason) :
      Turn (.receive env payload) g
        (.transactionCreate ((p.withReference env.reference).newTransaction requestId payload account
          .misdirected))
        fun t : Transaction => .held t reason
  | insert {env : Surroundings} {payload requestId : Json} {p : Payment} {account : DedicatedAccount}
      {customer : Customer Decimal} (kind : kindOf payload = .payment requestId p)
      (active : account.status = .active) :
      Turn (.receive env payload) (.loaded account (some customer))
        (.transactionCreate ((p.withReference env.reference).newTransaction requestId payload
          (some account) (deriveTransactionStatus p.amount customer.targetAmount)))
        fun t : Transaction => .inserted account customer t
  | suspend {env : Surroundings} {payload requestId : Json} {p : Payment} {t : Transaction}
      {reason : SuspenseReason} (kind : kindOf payload = .payment requestId p) :
      Turn (.receive env payload) (.held t reason) (.suspenseLogCreate t reason p.amount)
        fun _ => .suspended t reason
  | logSuspense {env : Surroundings} {payload requestId : Json} {p : Payment} {t : Transaction}
      {reason : SuspenseReason} (kind : kindOf payload = .payment requestId p) :
      Turn (.receive env payload) (.suspended t reason)
        (.reconciliationLogCreate (suspenseLog t p reason)) fun _ => .settled t
  | save {env : Surroundings} {payload requestId : Json} {p : Payment} {account : DedicatedAccount}
      {customer : Customer Decimal} {t : Transaction} (kind : kindOf payload = .payment requestId p) :
      Turn (.receive env payload) (.inserted account customer t)
        (.customerSave { customer with walletBalance := customer.walletBalance + p.amount })
        fun _ => .credited t
  | logCredit {env : Surroundings} {payload : Json} {t : Transaction} {new : NewReconciliationLog}
      (transaction : new.transaction = t) (decision : new.decision ≠ .safetyNetMatch) :
      Turn (.receive env payload) (.credited t) (.reconciliationLogCreate new) fun _ => .logged t
  | emit {env : Surroundings} {payload : Json} {t : Transaction} :
      Turn (.receive env payload) (.logged t) (.emitPaymentReceived t) fun _ => .settled t
  | mark {env : Surroundings} {payload requestId : Json} {p : Payment} {t : Transaction}
      (kind : kindOf payload = .payment requestId p) :
      Turn (.receive env payload) (.settled t)
        (.processedCreate requestId.text nombaPaymentSuccessEvent) fun _ => .marked
  | resolveById {customerId : String} {body : UpdateCustomerRequest} {merchantId id : UUID}
      {nomba : NombaOutcome} (parsed : CustomerService.parseUuid customerId = some id) :
      Turn (.update customerId body merchantId nomba) .arrived (.customerById id merchantId)
        fun customer : Option (Customer Decimal) => customer.elim .unresolved .found
  | resolveByExternalId {customerId : String} {body : UpdateCustomerRequest} {merchantId : UUID}
      {nomba : NombaOutcome} {g : Place} (seeking : Seeking customerId g) :
      Turn (.update customerId body merchantId nomba) g (.customerByExternalId merchantId customerId)
        fun customer : Option (Customer Decimal) => customer.elim .unresolved .found
  | edit {customerId : String} {body : UpdateCustomerRequest} {merchantId : UUID}
      {nomba : NombaOutcome} {customer : Customer Decimal} :
      Turn (.update customerId body merchantId nomba) (.found customer)
        (.customerSave (CustomerService.applyUpdate body customer))
        fun _ => .saved (CustomerService.applyUpdate body customer)
  | findAccount {customerId : String} {body : UpdateCustomerRequest} {merchantId : UUID}
      {nomba : NombaOutcome} {customer : Customer Decimal} :
      Turn (.update customerId body merchantId nomba) (.saved customer)
        (.accountFirstByCustomer customer.id)
        fun account : Option DedicatedAccount => account.elim .closing .linked
  | rename {customerId name : String} {body : UpdateCustomerRequest} {merchantId : UUID}
      {nomba : NombaOutcome} {account : DedicatedAccount} :
      Turn (.update customerId body merchantId nomba) (.linked account)
        (.accountSave { account with accountName := name }) fun _ => .closing
  | provide {body : CreateCustomerRequest} {merchantId : UUID} {nomba : NombaOutcome} :
      Turn (.create body merchantId nomba) .arrived
        (.customerCreate (CustomerService.newCustomer body merchantId))
        fun customer : Customer Decimal => .pending customer
  | compensate {body : CreateCustomerRequest} {merchantId : UUID} {nomba : NombaOutcome}
      {customer : Customer Decimal} :
      Turn (.create body merchantId nomba) (.pending customer) (.customerDelete customer.id)
        fun _ => .closing
  | openAccount {body : CreateCustomerRequest} {merchantId : UUID} {nomba : NombaOutcome}
      {customer : Customer Decimal} {new : NewAccount} (owner : new.customer = customer)
      (ref : new.accountRef = body.merchantCustomerId)
      (number : ∃ text, new.accountNumber = removeSpaces text) :
      Turn (.create body merchantId nomba) (.pending customer) (.accountCreate new) fun _ => .closing
  | choose {body : CreateDedicatedAccountRequest} {merchantId : UUID} {nomba : NombaOutcome} :
      Turn (.createDedicated body merchantId nomba) .arrived
        (.customerByExternalId merchantId body.merchantCustomerId)
        fun customer : Option (Customer Decimal) => customer.elim .closing .chosen
  | openDedicated {body : CreateDedicatedAccountRequest} {merchantId : UUID} {nomba : NombaOutcome}
      {customer : Customer Decimal} {new : NewAccount} (owner : new.customer = customer)
      (ref : new.accountRef = customer.merchantCustomerId)
      (number : ∃ text, new.accountNumber = removeSpaces text) :
      Turn (.createDedicated body merchantId nomba) (.chosen customer) (.accountCreate new)
        fun _ => .closing
  | matchById {checkedAt text : String} {nomba : NombaOutcome} :
      Turn (.nightly checkedAt nomba) .arrived (.transactionByNombaId text)
        fun t : Option Transaction => t.elim .arrived .matched
  | matchByRef {checkedAt text : String} {nomba : NombaOutcome} :
      Turn (.nightly checkedAt nomba) .arrived (.transactionByMerchantTxRef text)
        fun t : Option Transaction => t.elim .arrived .matched
  | logMatch {checkedAt : String} {nomba : NombaOutcome} {t : Transaction}
      {new : NewReconciliationLog} (transaction : new.transaction = t) :
      Turn (.nightly checkedAt nomba) (.matched t) (.reconciliationLogCreate new) fun _ => .arrived

/-- The protocol of the service. -/
def service : Protocol Op Res Call Place := ⟨fun _ => .arrived, Turn⟩

/-! ## The handlers keep to it -/

/-- Where a call that returns is: a delivery has found its request marked or has marked it, an update
has looked for the account. -/
def Ends : Call → Place → Reply → Prop
  | .receive _ _, g, _ => g = .skipped ∨ g = .marked
  | .update _ _ _ _, g, _ => g = .closing ∨ ∃ account, g = .linked account
  | _, _, _ => True

theorem decisionForStatus_ne (status : TransactionStatus) :
    decisionForStatus status ≠ .safetyNetMatch := by
  cases status <;> decide

section Receive

variable {env : Surroundings} {payload requestId : Json} {p : Payment}

theorem follows_findByRef (kind : kindOf payload = .payment requestId p) :
    service.Follows (.receive env payload) (fun g account => g = account.elim .unrouted .routed)
      p.byRef (findByRef p.aliasAccountReference) := by
  unfold Payment.byRef findByRef
  by_cases href : p.aliasAccountReference.truthy = true
  · rw [if_pos href, if_pos href]
    exact .await _ (.byReference kind) fun r => .pure rfl
  · rw [if_neg href, if_neg href]
    exact .pure rfl

theorem follows_findAccount (kind : kindOf payload = .payment requestId p) :
    service.Follows (.receive env payload) (fun g account => g = account.elim .unrouted .routed)
      p.opening (findAccount p.aliasAccountNumber p.aliasAccountReference) := by
  unfold Payment.opening findAccount
  by_cases hnumber : p.aliasAccountNumber ≠ ""
  · rw [if_pos hnumber, if_pos hnumber]
    refine .await _ (.byNumber kind) fun r => ?_
    cases r with
    | none => exact follows_findByRef kind
    | some account => exact .pure rfl
  · rw [if_neg hnumber, if_neg hnumber]
    exact follows_findByRef kind

theorem follows_quarantine (kind : kindOf payload = .payment requestId p) {g : Place}
    {account : Option DedicatedAccount} {reason : SuspenseReason} (h : Holding g account reason) :
    service.Follows (.receive env payload) (fun g' _ => ∃ t, g' = .settled t) g
      (quarantinePayment requestId payload (p.withReference env.reference) reason account) := by
  refine .await _ (.hold kind h) fun t => ?_
  refine .await _ (Turn.suspend (p := p) kind) fun _ => ?_
  exact .await _ (Turn.logSuspense (p := p) kind) fun _ => .pure ⟨t, rfl⟩

theorem follows_deliver {post : WebhookRegistration → PostOutcome} {body : OutboundPayload}
    (registrations : List WebhookRegistration) (t : Transaction) :
    service.Follows (.receive env payload) (fun g _ => g = .settled t) (.settled t)
      (deliver post body registrations) := by
  induction registrations with
  | nil => exact .pure rfl
  | cons registration registrations ih =>
    unfold deliver
    by_cases hevent : outboundEventPaymentReceived ∉ registration.events
    · rw [if_pos hevent]
      exact ih
    · rw [if_neg hevent]
      refine .await _ (Turn.wait rfl rfl) fun _ => ?_
      cases post registration with
      | response _ => exact ih
      | httpError => exact ih
      | raised e => exact .raise

theorem follows_emit {post : WebhookRegistration → PostOutcome} {merchantId : UUID}
    {customer : Customer Decimal} {account : DedicatedAccount} {t : Transaction} :
    service.Follows (.receive env payload) (fun g _ => g = .settled t) (.logged t)
      (emitPaymentReceived post merchantId customer account t) := by
  refine .await _ .emit fun _ => ?_
  refine .await _ (Turn.wait rfl rfl) fun registrations => ?_
  split_ifs
  · exact .pure rfl
  · exact follows_deliver registrations t

theorem follows_credit (kind : kindOf payload = .payment requestId p) {account : DedicatedAccount}
    {customer : Customer Decimal} (active : account.status = .active) :
    service.Follows (.receive env payload) (fun g _ => ∃ t, g = .settled t)
      (.loaded account (some customer))
      (creditPayment env requestId nombaPaymentSuccessEvent payload (p.withReference env.reference)
        account customer) := by
  refine .await _ (.insert kind active) fun t => ?_
  refine .await _ (Turn.save (p := p) kind) fun _ => ?_
  refine .await _ (.logCredit rfl (decisionForStatus_ne _)) fun _ => ?_
  exact follows_emit.bind fun g _ hg => .pure ⟨t, hg⟩

theorem follows_settle (kind : kindOf payload = .payment requestId p) :
    service.Follows (.receive env payload) (fun g _ => ∃ t, g = .settled t) p.opening
      (settlePayment env requestId nombaPaymentSuccessEvent payload
        (p.withReference env.reference)) := by
  refine (follows_findAccount kind).bind fun g account hg => ?_
  subst hg
  cases account with
  | none => exact follows_quarantine kind .unrouted
  | some account =>
    refine .await _ .load fun customer => ?_
    by_cases hactive : account.status = .active
    · rw [if_neg (not_not.mpr hactive)]
      cases customer with
      | none => exact .raise
      | some customer => exact follows_credit kind hactive
    · rw [if_pos hactive]
      exact follows_quarantine kind (.inactive hactive)

theorem follows_guarded {requestId : Json} (key : (kindOf payload).key = some requestId.text)
    {rest : Handler Response} (h : service.Follows (.receive env payload) (fun g _ => g = .marked)
      (kindOf payload).opening rest) :
    service.Follows (.receive env payload) (fun g _ => g = .skipped ∨ g = .marked) .arrived
      (guarded requestId rest) := by
  refine .await _ (.check key) fun processed => ?_
  cases processed with
  | true => exact .pure (.inl rfl)
  | false =>
    have hrest : service.Follows (.receive env payload) (fun g _ => g = .skipped ∨ g = .marked)
        (kindOf payload).opening (rest >>= .pure) := h.bind fun g _ hg => .pure (.inr hg)
    rwa [Prog.bind_pure'] at hrest

theorem follows_receive (env : Surroundings) (payload : Json) :
    service.Follows (.receive env payload) (fun g _ => g = .skipped ∨ g = .marked) .arrived
      (receive env payload) := by
  rw [receive_eq]
  cases hk : kindOf payload with
  | unreadable e => exact .raise
  | broken requestId e => exact follows_guarded (by rw [hk]; rfl) .raise
  | other requestId eventType message =>
    refine follows_guarded (by rw [hk]; rfl) ?_
    rw [hk]
    exact .await _ (.ignore hk) fun _ => .pure rfl
  | payment requestId p =>
    refine follows_guarded (by rw [hk]; rfl) ?_
    rw [hk]
    refine (follows_settle hk).bind fun g result hg => ?_
    obtain ⟨t, rfl⟩ := hg
    exact .await _ (.mark hk) fun _ => .pure rfl

end Receive

section Customers

open CustomerService AccountService

variable {customerId : String} {merchantId : UUID} {nomba : NombaOutcome}

/-- Every value a program may return is accepted. -/
abbrev Anywhere {α : Type} : Place → α → Prop := fun _ _ => True

theorem follows_byExternalId {body : UpdateCustomerRequest} {g : Place} (h : Seeking customerId g) :
    service.Follows (.update customerId body merchantId nomba)
      (fun g' customer => g' = customer.elim .unresolved .found) g
      (byExternalId customerId merchantId) :=
  .await _ (.resolveByExternalId h) fun _ => .pure rfl

theorem follows_resolve {body : UpdateCustomerRequest} :
    service.Follows (.update customerId body merchantId nomba)
      (fun g customer => g = customer.elim .unresolved .found) .arrived
      (resolveCustomer customerId merchantId) := by
  unfold resolveCustomer
  cases hparse : parseUuid customerId with
  | none => exact follows_byExternalId (.unparsed hparse)
  | some parsedId =>
    refine .await _ (.resolveById hparse) fun customer => ?_
    cases customer with
    | none => exact follows_byExternalId .unresolved
    | some customer => exact .pure rfl

theorem follows_response {call : Call} {g : Place} (hg : g.waits = true)
    (customer : Customer Decimal) (f : CustomerResponse → Response) :
    service.Follows call Anywhere g (buildCustomerResponse customer >>= fun r => .pure (f r)) :=
  .await _ (Turn.wait hg rfl) fun _ => .pure trivial

theorem follows_rename {body : UpdateCustomerRequest} {name : String} {customer : Customer Decimal} :
    service.Follows (.update customerId body merchantId nomba) (fun g _ => g = .closing)
      (.saved customer) (renameAccount (some name) customer nomba) := by
  refine .await _ .findAccount fun account => ?_
  cases account with
  | none => exact .pure rfl
  | some account =>
    refine .await _ .rename fun _ => .await _ (Turn.wait rfl rfl) fun _ => ?_
    cases nomba with
    | raised e => exact .raise
    | success _ => exact .pure rfl
    | failure _ => exact .pure rfl

theorem follows_update {body : UpdateCustomerRequest} :
    service.Follows (.update customerId body merchantId nomba)
      (fun g _ => g = .closing ∨ ∃ account, g = .linked account) .arrived
      (update customerId body merchantId nomba) := by
  refine follows_resolve.bind fun g found hg => ?_
  subst hg
  cases found with
  | none => exact .raise
  | some found =>
    refine .await _ .edit fun _ => ?_
    cases body.name with
    | none =>
      refine .await _ .findAccount fun account => .pure ?_
      cases account with
      | none => exact .inl rfl
      | some account => exact .inr ⟨account, rfl⟩
    | some name =>
      refine follows_rename.bind fun g _ hg => ?_
      subst hg
      exact .await _ (Turn.wait rfl rfl) fun _ => .pure (.inl rfl)

theorem follows_create {body : CreateCustomerRequest} :
    service.Follows (.create body merchantId nomba) Anywhere .arrived
      (create body merchantId nomba) := by
  refine .await _ (Turn.wait rfl rfl) fun existing => ?_
  split_ifs
  · exact .raise
  · refine .await _ (Turn.wait rfl rfl) fun existingAccount => ?_
    split_ifs
    · exact .raise
    · refine .await _ .provide fun customer => .await _ (Turn.wait rfl rfl) fun _ => ?_
      cases nomba with
      | raised e => exact .raise
      | failure message => exact .await _ .compensate fun _ => .raise
      | success data =>
        refine .lift fun accountNumber => ?_
        split_ifs
        · exact .await _ .compensate fun _ => .raise
        · refine .lift fun nombaVaId => ?_
          exact .await _ (.openAccount rfl rfl ⟨_, rfl⟩) fun _ => follows_response rfl customer _

theorem follows_createDedicated {body : CreateDedicatedAccountRequest} :
    service.Follows (.createDedicated body merchantId nomba) Anywhere .arrived
      (createDedicated body merchantId nomba) := by
  refine .await _ .choose fun customer => ?_
  cases customer with
  | none => exact .raise
  | some customer =>
    refine .await _ (Turn.wait rfl rfl) fun existing => ?_
    split_ifs
    · exact .raise
    · refine .await _ (Turn.wait rfl rfl) fun _ => ?_
      cases nomba with
      | raised e => exact .raise
      | failure message => exact .raise
      | success data =>
        refine .lift fun accountNumber => ?_
        split_ifs
        · exact .raise
        · refine .lift fun nombaVaId => ?_
          refine .await _ (.openDedicated rfl rfl ⟨_, rfl⟩) fun account => ?_
          refine .await _ (Turn.wait rfl rfl) fun owner => ?_
          cases owner with
          | none => exact .raise
          | some owner => exact .pure trivial

end Customers

section Nightly

variable {checkedAt : String} {nomba : NombaOutcome}

theorem follows_byRef (merchantTxRef : Json) :
    service.Follows (.nightly checkedAt nomba) (fun g t => g = t.elim .arrived .matched) .arrived
      (if merchantTxRef.truthy then await (.transactionByMerchantTxRef merchantTxRef.text)
        else return none) := by
  split_ifs
  · exact .await _ .matchByRef fun _ => .pure rfl
  · exact .pure rfl

theorem follows_findTransaction (nombaTxId merchantTxRef : Json) :
    service.Follows (.nightly checkedAt nomba) (fun g t => g = t.elim .arrived .matched) .arrived
      (findTransaction nombaTxId merchantTxRef) := by
  have hbyRef := @follows_byRef checkedAt nomba merchantTxRef
  by_cases hid : nombaTxId.truthy = true
  · simp only [findTransaction, hid, if_true]
    refine .await _ .matchById fun t => ?_
    cases t with
    | none => exact hbyRef
    | some t => exact .pure rfl
  · simp only [findTransaction, hid, if_false, Bool.false_eq_true]
    exact hbyRef

theorem follows_items (items : List Json) (matched missing : Nat) :
    service.Follows (.nightly checkedAt nomba) Anywhere .arrived
      (reconcileItems checkedAt matched missing items) := by
  induction items generalizing matched missing with
  | nil => exact .pure trivial
  | cons item items ih =>
    cases item with
    | obj fields =>
      refine .lift fun nombaTxId => .lift fun merchantTxRef => ?_
      split_ifs
      · exact ih _ _
      · refine (follows_findTransaction nombaTxId merchantTxRef).bind fun g t hg => ?_
        subst hg
        cases t with
        | none => exact ih _ _
        | some t => exact .lift fun details => .await _ (.logMatch rfl) fun _ => ih _ _
    | null | bool _ | int _ | float _ | str _ | arr _ => exact ih _ _

theorem follows_nightly : service.Follows (.nightly checkedAt nomba) Anywhere .arrived
    (runNightlyReconciliation checkedAt nomba) := by
  refine .await _ (Turn.wait rfl rfl) fun _ => ?_
  cases nomba with
  | raised e => exact .raise
  | failure message => exact .pure trivial
  | success data =>
    refine .lift fun items => ?_
    cases items with
    | arr items => exact follows_items items 0 0
    | null | bool _ | int _ | float _ | str _ | obj _ => exact .pure trivial

end Nightly

/-- The calls that the protocol describes. -/
def Call.scheduled : Call → Prop
  | .simulate _ _ _ | .register _ _ => False
  | _ => True

theorem follows_handler {call : Call} (h : call.scheduled) :
    service.Follows call (Ends call) (service.init call) call.handler := by
  cases call with
  | receive env payload => exact (follows_receive env payload).map fun _ _ hg => hg
  | update _ _ _ _ => exact follows_update.map fun _ _ hg => hg
  | create _ _ _ => exact follows_create.map fun _ _ _ => trivial
  | createDedicated _ _ _ => exact follows_createDedicated.map fun _ _ _ => trivial
  | nightly _ _ => exact follows_nightly.map fun _ _ _ => trivial
  | simulate _ _ _ | register _ _ => exact h.elim

end LdbBackend
