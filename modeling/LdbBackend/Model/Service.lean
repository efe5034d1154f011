import LdbBackend.Model.Webhooks
import LdbBackend.Model.Nightly

/-!
# The service

Every call that can write, with what it meets outside the process, as one program.
-/

namespace LdbBackend

open Fixed Effects

inductive Call
  | create (body : CreateCustomerRequest) (merchantId : UUID) (nomba : NombaOutcome)
  | createDedicated (body : CreateDedicatedAccountRequest) (merchantId : UUID) (nomba : NombaOutcome)
  | update (customerId : String) (body : UpdateCustomerRequest) (merchantId : UUID)
      (nomba : NombaOutcome)
  | receive (env : Surroundings) (payload : Json)
  | simulate (env : Surroundings) (requestId : String) (body : SimulateFundingRequest)
  | register (body : RegisterWebhookRequest) (merchantId : UUID)
  | nightly (checkedAt : String) (nomba : NombaOutcome)

inductive Reply
  | response (r : Response)
  | nightly (r : NightlyReport)

namespace Call

def handler : Call → Handler Reply
  | create body merchantId nomba => .response <$> CustomerService.create body merchantId nomba
  | createDedicated body merchantId nomba =>
    .response <$> AccountService.createDedicated body merchantId nomba
  | update customerId body merchantId nomba =>
    .response <$> CustomerService.update customerId body merchantId nomba
  | receive env payload => .response <$> LdbBackend.receive env payload
  | simulate env requestId body => .response <$> LdbBackend.simulate env requestId body
  | register body merchantId => .response <$> LdbBackend.register body merchantId
  | nightly checkedAt nomba => .nightly <$> runNightlyReconciliation checkedAt nomba

end Call

end LdbBackend
