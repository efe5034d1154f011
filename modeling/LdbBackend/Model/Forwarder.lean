import LdbBackend.Model.Helpers

/-!
# Outbound webhooks

`app/services/webhook_forwarder.py`. The outcome of every POST is an input: a response, an
`httpx.HTTPError` (caught and logged) or another exception such as `httpx.InvalidURL`, which leaves
the loop.
-/

namespace LdbBackend

open Fixed Effects

inductive PostOutcome
  | response (statusCode : Nat)
  | httpError
  | raised (e : Err)
  deriving DecidableEq, Repr

def outboundEventPaymentReceived : String := "customer.payment_received"

/-- A constructed object holds its amounts quantized and normalized. -/
def storedText (n : Cents) : String := (Decimal.ofScaled 2 n).normalize.str

def outboundPayload (customer : Customer Decimal) (account : DedicatedAccount)
    (transaction : Transaction) : OutboundPayload where
  event := outboundEventPaymentReceived
  customerId := customer.merchantCustomerId
  customerName := customer.name
  accountNumber := account.accountNumber
  amountReceived := storedText transaction.amount
  walletBalance := customer.walletBalance.str
  targetAmount :=
    match customer.targetAmount with
    | some target => if target.isZero then none else some target.str
    | none => none
  status := transaction.status.value
  outstandingBalance := (outstandingBalance customer).map Decimal.str
  transactionRef := transaction.merchantTxRef
  senderName := transaction.senderName
  senderBank := transaction.senderBank

/-- The delivery loop over the registrations. -/
def deliver (post : WebhookRegistration → PostOutcome) (body : OutboundPayload) :
    List WebhookRegistration → Handler Unit
  | [] => return ()
  | registration :: registrations =>
    if outboundEventPaymentReceived ∉ registration.events then
      deliver post body registrations
    else do
      let _ ← await (.post registration.url registration.secret body)
      match post registration with
      | .response _ => deliver post body registrations
      | .httpError => deliver post body registrations
      | .raised e => .raise e

def emitPaymentReceived (post : WebhookRegistration → PostOutcome) (merchantId : UUID)
    (customer : Customer Decimal) (account : DedicatedAccount) (transaction : Transaction) :
    Handler Unit := do
  let _ ← await (.emitPaymentReceived transaction)
  let registrations : List WebhookRegistration ← await (.registrationsActive merchantId)
  if registrations.isEmpty then return ()
  else deliver post (outboundPayload customer account transaction) registrations

structure RegisterWebhookRequest where
  url : String
  secret : String
  events : List String

def register (body : RegisterWebhookRequest) (merchantId : UUID) : Handler Response := do
  let registration : WebhookRegistration ←
    await (.registrationCreate merchantId body.url body.secret body.events)
  return ⟨201, "Webhook registered",
    .registration ⟨registration.id, registration.url, registration.events, registration.active⟩⟩

end LdbBackend
