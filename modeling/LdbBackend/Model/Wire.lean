import LdbBackend.Lib.JsonText
import LdbBackend.Model.Forwarder
import LdbBackend.Model.Hooks

/-!
# Outbound requests

What `emit_payment_received` of `app/services/webhook_forwarder.py` sends: `json.dumps` of the payload without
spaces, and the HMAC-SHA256 of its bytes under the secret of the registration. HMAC-SHA256 is a parameter.
-/

namespace LdbBackend

open JsonText

/-- A text, or `None`. -/
def textOrNull : Option String → Doc
  | some s => .text s
  | none => .null

/-- The dictionary `payload`. -/
def OutboundPayload.document (payload : OutboundPayload) : Doc :=
  .object [
    ("event", .text payload.event),
    ("data", .object [
      ("customerId", .text payload.customerId),
      ("customerName", .text payload.customerName),
      ("accountNumber", .text payload.accountNumber),
      ("amountReceived", .text payload.amountReceived),
      ("walletBalance", .text payload.walletBalance),
      ("targetAmount", textOrNull payload.targetAmount),
      ("status", .text payload.status),
      ("outstandingBalance", textOrNull payload.outstandingBalance),
      ("transactionRef", textOrNull payload.transactionRef),
      ("senderName", textOrNull payload.senderName),
      ("senderBank", textOrNull payload.senderBank)])]

/-- `json.dumps(payload, separators=(",", ":")).encode()`. -/
def OutboundPayload.content (payload : OutboundPayload) : List UInt8 :=
  encodeText (String.ofList (write payload.document))

def Digest.hexdigest (digest : Digest) : String :=
  String.ofList (digest.val.flatMap fun byte => [Nat.digitChar (byte.toNat / 16), Nat.digitChar (byte.toNat % 16)])

structure OutboundRequest where
  url : String
  content : List UInt8
  headers : List (String × String)
  deriving DecidableEq

section Request

variable (hmacSha256 : List UInt8 → List UInt8 → Digest)

/-- The request that is POSTed to a registration. -/
def outboundRequest (url secret : String) (payload : OutboundPayload) : OutboundRequest where
  url := url
  content := payload.content
  headers := [("Content-Type", "application/json"),
    ("X-LDB-Signature", (hmacSha256 (encodeText secret) payload.content).hexdigest)]

end Request

end LdbBackend
