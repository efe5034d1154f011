import LdbBackend.Lib.Base64
import LdbBackend.Model.Webhooks

/-!
# The webhook endpoint

`app/integrations/nomba/webhook_verify.py`, `nomba_webhook` of `app/api/controller/hooks.py`, and the
answers of `app/error_handlers.py`. HMAC-SHA256 and `json.loads` are parameters.
-/

namespace LdbBackend

open Effects

/-- `text.encode()`. -/
def encodeText (text : String) : List UInt8 := text.toList.flatMap String.utf8EncodeChar

def isAscii (text : String) : Bool := text.toList.all (·.toNat < 128)

/-- `hmac.compare_digest` on two texts. -/
def compareDigest (a b : String) : Except Err Bool :=
  if isAscii a ∧ isAscii b then .ok (a == b) else .error .typeError

/-- What SHA-256 yields. -/
abbrev Digest : Type := { bytes : List UInt8 // bytes.length = 32 }

/-- `base64.b64encode(digest).decode()`. -/
def Digest.text (digest : Digest) : String := String.ofList (Base64.encode digest.val)

section Endpoint

variable (hmacSha256 : List UInt8 → List UInt8 → Digest) (nombaWebhookSecret : String)

def verifyNombaSignature (rawBody : List UInt8) (signature : Option String) : Except Err Bool :=
  match signature with
  | none => .ok false
  | some signature =>
    if signature = "" ∨ nombaWebhookSecret = "" then .ok false
    else
      let digest := hmacSha256 (encodeText nombaWebhookSecret) rawBody
      compareDigest digest.text signature

def nombaWebhook (loads : List UInt8 → Except Err Json) (env : Surroundings) (rawBody : List UInt8)
    (nombaSignature : Option String) : Handler Response := do
  let verified ← Prog.lift (verifyNombaSignature hmacSha256 nombaWebhookSecret rawBody nombaSignature)
  if !verified then .raise (.http 401 "Invalid webhook signature" none)
  else do
    let payload ← Prog.lift (loads rawBody)
    receive env payload

end Endpoint

/-- The body of an answer. -/
inductive Answer
  | success (response : Response)
  | failure (statusCode : Nat) (message : String) (errors : Option (List String))

/-- The exception handlers of the application. A cancelled request is not answered. -/
def answer : Except Err Response → Option Answer
  | .ok response => some (.success response)
  | .error (.http status message errors) => some (.failure status message errors)
  | .error .cancelled => none
  | .error _ => some (.failure 500 "Something went wrong on our end. Please try again later" none)

end LdbBackend
