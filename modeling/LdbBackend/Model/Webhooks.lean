import LdbBackend.Model.Reconciliation

/-!
# Inbound webhooks

`app/services/webhooks.py`: the delivery of a Nomba webhook, and the simulation that builds one and
delivers it.
-/

namespace LdbBackend

open Fixed Effects

def nombaPaymentSuccessEvent : String := "payment_success"
def nombaVactTransferType : String := "vact_transfer"

def eventTypeOf (payload : Json) : Except Err Json :=
  return (← payload.get "event_type" .null).orElse (← payload.get "eventType" .null)

def requestIdOf (payload : Json) : Except Err Json :=
  return (← payload.get "requestId" .null).orElse (← payload.get "request_id" .null)

def transferTypeOf (payload : Json) : Except Err Json := do
  let transactionData ← (← payload.get "data" (.obj [])).get "transaction" (.obj [])
  transactionData.get "type" .null

def PaymentResult.response (result : PaymentResult) : Response where
  statusCode := 200
  message := if result.quarantined then "Payment quarantined" else "Payment reconciled"
  data := .payment ⟨result.transactionId, result.status, result.walletBalance.map Decimal.str,
    result.quarantined⟩

def receive (env : Surroundings) (payload : Json) : Handler Response := do
  let eventType ← Prog.lift (eventTypeOf payload)
  let requestId ← Prog.lift (requestIdOf payload)
  if !requestId.truthy then .raise (.http 400 "Webhook missing requestId" none)
  else do
    let processed : Bool ← await (.processedExists requestId.text)
    if processed then return ⟨200, "Webhook already processed", .none⟩
    else if !eventType.isText nombaPaymentSuccessEvent then do
      let _ ← await (.processedCreate requestId.text eventType.text)
      return ⟨200, "Webhook event ignored", .none⟩
    else do
      let transferType ← Prog.lift (transferTypeOf payload)
      if !transferType.isText nombaVactTransferType then do
        let _ ← await (.processedCreate requestId.text eventType.text)
        return ⟨200, "Non virtual-account transfer ignored", .none⟩
      else do
        let result ← processPayment env requestId eventType.text payload
        let _ ← await (.processedCreate requestId.text eventType.text)
        return result.response

structure SimulateFundingRequest where
  accountNumber : String
  amount : Decimal
  senderName : String
  senderBank : String
  misdirected : Bool

def buildNombaPayload (requestId accountNumber accountRef : String) (amount : Decimal)
    (senderName senderBank : String) : Json :=
  .obj [
    ("event_type", .str nombaPaymentSuccessEvent),
    ("requestId", .str requestId),
    ("data", .obj [
      ("transaction", .obj [
        ("aliasAccountNumber", .str accountNumber),
        ("aliasAccountReference", .str accountRef),
        ("transactionAmount", .float amount.viaFloat),
        ("fee", .int 0),
        ("type", .str nombaVactTransferType),
        ("transactionId", .str ("SIM-" ++ requestId)),
        ("merchantTxRef", .str requestId),
        ("narration", .str "Simulated transfer")]),
      ("customer", .obj [
        ("senderName", .str senderName),
        ("bankName", .str senderBank)])])]

/-- `requestId` is the reference generated for the simulated webhook. -/
def simulatedPayload (body : SimulateFundingRequest) (requestId : String)
    (account : Option DedicatedAccount) : Json :=
  match account with
  | some account =>
    if body.misdirected then
      buildNombaPayload requestId "0000000000" "invalid-ref" body.amount body.senderName body.senderBank
    else
      buildNombaPayload requestId account.accountNumber account.accountRef body.amount body.senderName
        body.senderBank
  | none =>
    buildNombaPayload requestId "0000000000" "invalid-ref" body.amount body.senderName body.senderBank

def simulate (env : Surroundings) (requestId : String) (body : SimulateFundingRequest) :
    Handler Response := do
  let account : Option DedicatedAccount ← await (.accountByNumber (removeSpaces body.accountNumber))
  receive env (simulatedPayload body requestId account)

end LdbBackend
