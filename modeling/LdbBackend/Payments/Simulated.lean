import LdbBackend.Payments.StoredCredit
import LdbBackend.Isolation.Strays
import LdbBackend.History.Ledger

/-!
# Simulated payments

`simulate` delivers a payload that it builds itself: addressed to the account it finds, or to placeholder
keys that are meant to match nothing. The payload reads as a payment (`kindOf_simulated`), so what a
simulation does is what a delivery of that payment does.
-/

namespace LdbBackend

open Fixed Effects Table

section Payload

variable {requestId accountNumber accountRef : String} {body : SimulateFundingRequest} {db : Tables}

end Payload

/-! ## Misdirected simulations -/

end LdbBackend
