import LdbBackend.Model.Customers

/-!
# Nightly reconciliation

`app/jobs/nightly_reconciliation.py`. `checkedAt` stands for the text of `datetime.now(UTC)`.
-/

namespace LdbBackend

open Fixed Effects

/-- The last log line of a run: skipped, or how many items matched and how many were missing. -/
inductive NightlyReport
  | skipped
  | completed (matched missing : Nat)
  deriving DecidableEq, Repr

def findTransaction (nombaTxId merchantTxRef : Json) : Handler (Option Transaction) := do
  let byId : Option Transaction ←
    if nombaTxId.truthy then await (.transactionByNombaId nombaTxId.text) else pure none
  match byId with
  | some tx => return some tx
  | none =>
    if merchantTxRef.truthy then await (.transactionByMerchantTxRef merchantTxRef.text)
    else return none

/-- The details of a match, as their `JSONField` encodes them. -/
def matchDetails (checkedAt : String) (nombaTxId : Json) : Except Err Json :=
  let details : Json := .obj [("nomba_transaction_id", nombaTxId), ("checked_at", .str checkedAt)]
  if details.storable then .ok details else .error .dataError

def reconcileItems (checkedAt : String) (matched missing : Nat) :
    List Json → Handler NightlyReport
  | [] => return .completed matched missing
  | .obj fields :: items => do
    let item : Json := .obj fields
    let nombaTxId ← Prog.lift (eitherKey item "transactionId" "id")
    let merchantTxRef ← Prog.lift (item.get "merchantTxRef" .null)
    if !nombaTxId.truthy && !merchantTxRef.truthy then reconcileItems checkedAt matched missing items
    else do
      let localTx ← findTransaction nombaTxId merchantTxRef
      match localTx with
      | none => reconcileItems checkedAt matched (missing + 1) items
      | some tx => do
        -- the logs of payments have texts of the code and of numbers in their details, and always encode
        let details ← Prog.lift (matchDetails checkedAt nombaTxId)
        let _ ← await (.reconciliationLogCreate {
          transaction := tx
          expectedAmount := some (Decimal.ofScaled 2 tx.amount)
          receivedAmount := Decimal.ofScaled 2 tx.amount
          decision := .safetyNetMatch
          details })
        reconcileItems checkedAt (matched + 1) missing items
  | _ :: items => reconcileItems checkedAt matched missing items

/-- `result["data"]` as a list of items. -/
def nombaItems (data : Json) : Except Err Json :=
  match data with
  | .obj _ => do
    let results ← data.get "results" .null
    if results.truthy then return results
    else return (← data.get "items" .null).orElse (.arr [])
  | _ => .ok data

def runNightlyReconciliation (checkedAt : String) (nomba : NombaOutcome) :
    Handler NightlyReport := do
  let _ ← await .nombaListTransactions
  match nomba with
  | .raised e => .raise e
  | .failure _ => return .skipped
  | .success data => do
    let items ← Prog.lift (nombaItems data)
    match items with
    | .arr items => reconcileItems checkedAt 0 0 items
    | _ => return .skipped

end LdbBackend
