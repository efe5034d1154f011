import LdbBackend.Lib.Pool
import LdbBackend.Model.Nomba

/-!
# The token cache that the clients share

The clients of `Model/Nomba.lean` again, as programs: each request to redis and to the API is one
operation, and other calls may come in between. The clock moves on by operations of its own, and every
answer comes with the second at which it was given. `run_awaitNomba` says that a call that runs alone
answers what `callNomba` answers for the cache it finds.
-/

namespace LdbBackend

open Effects NombaAuthService

/-- `NOMBA_TOKEN_TTL_SECONDS`. -/
def nombaTokenTtlSeconds : Nat := 55 * 60

/-- redis and the clock: the value under `NOMBA_TOKEN_CACHE_KEY`, with the second at which it expires. -/
structure TokenStore where
  now : Nat
  entry : Option (String × Nat)

/-- The value that has not expired. -/
def TokenStore.live (S : TokenStore) : Option String :=
  (S.entry.filter fun e => decide (S.now < e.2)).map Prod.fst

/-- What becomes of a `get`: it finds what is kept, or redis has lost the value (it was evicted, or redis
restarted), or it raises. -/
inductive GetOutcome
  | kept
  | lost
  | failed (message : String)

/-- What becomes of a `setex`: it may raise before the value is stored, or after. -/
inductive SetexOutcome
  | stored
  | storedThenFailed (message : String)
  | failed (message : String)

/-- What `redis` sends for a value: texts and numbers as their `repr`; others raise `DataError`. -/
def Json.encoded : Json → Option String
  | .str s => some s
  | .int n => some (Json.int n).text
  | .float d => some (Json.float d).text
  | _ => none

/-- What else happens to a call: the outcomes of redis, and the answers of the API. -/
structure NetConditions where
  read : GetOutcome
  write : SetexOutcome
  endpoint : Endpoint

inductive NetOp
  | pass (seconds : Nat)
  | redisGet (outcome : GetOutcome)
  | redisSetex (value : Json) (outcome : SetexOutcome)
  | http (request : HttpRequest) (outcome : HttpOutcome)

def NetOp.Answer : NetOp → Type
  | .pass _ => Unit
  | .redisGet _ => CacheRead
  | .redisSetex _ _ => CacheWrite
  | .http _ _ => HttpOutcome

/-- An answer and the second at which it was given. -/
abbrev NetRes (o : NetOp) : Type := Nat × o.Answer

namespace TokenStore

/-- `redis.get(NOMBA_TOKEN_CACHE_KEY)`. -/
def get (S : TokenStore) : GetOutcome → CacheRead × TokenStore
  | .kept =>
    match S.live with
    | some value => (.hit value, S)
    | none => (.miss, S)
  | .lost => (.miss, { S with entry := none })
  | .failed message => (.error message, S)

/-- `redis.setex(NOMBA_TOKEN_CACHE_KEY, NOMBA_TOKEN_TTL_SECONDS, value)`. -/
def setex (S : TokenStore) (value : Json) (outcome : SetexOutcome) : CacheWrite × TokenStore :=
  match value.encoded with
  | none => (.error "Invalid input", S)
  | some text =>
    let stored := { S with entry := some (text, S.now + nombaTokenTtlSeconds) }
    match outcome with
    | .stored => (.stored, stored)
    | .storedThenFailed message => (.error message, stored)
    | .failed message => (.error message, S)

end TokenStore

def netExec : (o : NetOp) → TokenStore → Except Err (NetRes o × TokenStore)
  | .pass seconds, S => .ok ((S.now, ()), { S with now := S.now + seconds })
  | .redisGet outcome, S => .ok ((S.now, (S.get outcome).1), (S.get outcome).2)
  | .redisSetex value outcome, S => .ok ((S.now, (S.setex value outcome).1), (S.setex value outcome).2)
  | .http _ outcome, S => .ok ((S.now, outcome), S)

abbrev NetProg (α : Type) : Type := Prog NetOp NetRes Err α

def redisGet (outcome : GetOutcome) : NetProg CacheRead :=
  .perform (.redisGet outcome) fun r => .pure r.2

def redisSetex (value : Json) (outcome : SetexOutcome) : NetProg CacheWrite :=
  .perform (.redisSetex value outcome) fun r => .pure r.2

def http (request : HttpRequest) (endpoint : Endpoint) : NetProg HttpOutcome :=
  .perform (.http request (endpoint request)) fun r => .pure r.2

namespace NombaAuthService

/-- The part of `get_access_token` after the cache. -/
def awaitFreshToken (settings : Settings) (env : NetConditions) : NetProg Envelope :=
  if settings.nombaClientId = "" ∨ settings.nombaClientSecret = "" then
    return failureEnvelope 503 "Nomba credentials are not configured"
  else do
    match ← http (tokenRequest settings) env.endpoint with
    | .answered status body => do
      let token ← Prog.lift (accessTokenOf body)
      if !token.truthy then return failureEnvelope status "Nomba token response missing access_token"
      else
        -- a failed write is only logged
        let _ ← redisSetex token env.write
        return ⟨true, token, status, none⟩
    | .statusError status text => return failureEnvelope status text
    | .transportError message => return failureEnvelope 502 message
    | .raised e => .raise e

def awaitAccessToken (settings : Settings) (env : NetConditions) : NetProg Envelope := do
  match ← redisGet env.read with
  | .hit value => if value ≠ "" then return ⟨true, .str value, 200, none⟩ else awaitFreshToken settings env
  | .miss | .error _ => awaitFreshToken settings env

def awaitAuthHeaders (settings : Settings) (env : NetConditions) : NetProg (List (String × String)) := do
  let tokenResult ← awaitAccessToken settings env
  if !tokenResult.success then .raise (.runtimeError (tokenResult.message.getD "Unable to fetch Nomba token"))
  else
    return [("Authorization", "Bearer " ++ tokenResult.data.text), ("Content-Type", "application/json")] ++
      settings.accountHeader

end NombaAuthService

/-- The body shared by the three clients, as in `callNomba`. -/
def awaitNomba (settings : Settings) (env : NetConditions) (request : List (String × String) → HttpRequest)
    (read : Json → Except Err Json) : NetProg Envelope := do
  let headers ← awaitAuthHeaders settings env
  match ← http (request headers) env.endpoint with
  | .answered status body => do
    let data ← Prog.lift (read body)
    return ⟨true, data, status, none⟩
  | .statusError status text => return failureEnvelope status text
  | .transportError message => return failureEnvelope 502 message
  | .raised e => .raise e

/-- The methods of the clients. -/
inductive NombaMethod
  | create (accountRef accountName currency : String)
  | updateAccountName (accountRef accountName : String)
  | listTransactions (startDate endDate : Option String) (limit : Int)

namespace NombaMethod

def request (settings : Settings) : NombaMethod → List (String × String) → HttpRequest
  | create accountRef accountName currency =>
    NombaVirtualAccountService.createRequest settings accountRef accountName currency
  | updateAccountName accountRef accountName =>
    NombaVirtualAccountService.renameRequest settings accountRef accountName
  | listTransactions startDate endDate limit =>
    NombaTransactionService.listRequest settings startDate endDate limit

def read : NombaMethod → Json → Except Err Json
  | create _ _ _ => NombaVirtualAccountService.createdDataOf
  | updateAccountName _ _ | listTransactions _ _ _ => dataOf

@[simp] theorem request_headers (settings : Settings) (method : NombaMethod)
    (headers : List (String × String)) : (method.request settings headers).headers = headers := by
  cases method <;> rfl

end NombaMethod

/-- A call of a client, or the clock that moves on. -/
inductive NombaCall
  | wait (seconds : Nat)
  | call (env : NetConditions) (method : NombaMethod)

def NombaCall.handler (settings : Settings) : NombaCall → NetProg (Option Envelope)
  | .wait seconds => (fun _ => none) <$> Prog.op (.pass seconds)
  | .call env method => some <$> awaitNomba settings env (method.request settings) method.read

/-! ## A call alone -/

/-- The cache as a call alone finds it. -/
def TokenStore.cache (S : TokenStore) (env : NetConditions) : TokenCache where
  read := (S.get env.read).1
  write :=
    match env.write with
    | .stored => .stored
    | .storedThenFailed message | .failed message => .error message

section Alone

variable (settings : Settings) (env : NetConditions) (S : TokenStore)

theorem run_redisGet {α : Type} (outcome : GetOutcome) (k : CacheRead → NetProg α) :
    Prog.run netExec (redisGet outcome >>= k) S =
      Prog.run netExec (k (S.get outcome).1) (S.get outcome).2 := rfl

theorem run_redisSetex {α : Type} (value : Json) (outcome : SetexOutcome) (k : CacheWrite → NetProg α) :
    Prog.run netExec (redisSetex value outcome >>= k) S =
      Prog.run netExec (k (S.setex value outcome).1) (S.setex value outcome).2 := rfl

theorem run_http {α : Type} (request : HttpRequest) (endpoint : Endpoint) (k : HttpOutcome → NetProg α) :
    Prog.run netExec (http request endpoint >>= k) S = Prog.run netExec (k (endpoint request)) S := rfl

/-- The rule of sequencing where only the result matters. -/
theorem run_bind_result {α β : Type} {p : NetProg α} {f : α → NetProg β} {x : Except Err α}
    {g : α → Except Err β} (hp : (Prog.run netExec p S).1 = x)
    (hf : ∀ a S', (Prog.run netExec (f a) S').1 = g a) : (Prog.run netExec (p >>= f) S).1 = x >>= g := by
  subst hp
  rw [Prog.run_bind]
  split
  · next a S' hrun => rw [hrun]; exact hf a S'
  · next e S' hrun => rw [hrun]; rfl

theorem run_awaitFreshToken : (Prog.run netExec (awaitFreshToken settings env) S).1 =
    fetchToken settings (S.cache env).write env.endpoint := by
  unfold awaitFreshToken fetchToken
  split_ifs with hconfigured
  · rfl
  · rw [run_http]
    cases env.endpoint (tokenRequest settings) with
    | statusError status text => rfl
    | transportError message => rfl
    | raised e => rfl
    | answered status body =>
      simp only
      cases accessTokenOf body with
      | error e => rfl
      | ok token =>
        show (Prog.run netExec (if (!token.truthy) = true then _ else _) S).1 =
          if (!token.truthy) = true then _ else _
        split_ifs
        · rfl
        · rw [run_redisSetex]
          cases hwrite : env.write <;> simp only [TokenStore.cache, hwrite] <;> rfl

theorem run_awaitAccessToken : (Prog.run netExec (awaitAccessToken settings env) S).1 =
    getAccessToken settings (S.cache env) env.endpoint := by
  have hread : (S.cache env).read = (S.get env.read).1 := rfl
  unfold awaitAccessToken getAccessToken
  rw [run_redisGet, hread]
  cases (S.get env.read).1 with
  | hit value =>
    simp only
    split_ifs
    · rfl
    · exact run_awaitFreshToken settings env (S.get env.read).2
  | miss => exact run_awaitFreshToken settings env (S.get env.read).2
  | error message => exact run_awaitFreshToken settings env (S.get env.read).2

theorem run_awaitAuthHeaders : (Prog.run netExec (awaitAuthHeaders settings env) S).1 =
    authHeaders settings (S.cache env) env.endpoint := by
  refine run_bind_result S (run_awaitAccessToken settings env S) fun tokenResult S' => ?_
  show (Prog.run netExec (if (!tokenResult.success) = true then _ else _) S').1 =
    if (!tokenResult.success) = true then _ else _
  split_ifs <;> rfl

/-- A call that runs alone answers as `callNomba` does for the cache that it finds. -/
theorem run_awaitNomba (request : List (String × String) → HttpRequest) (read : Json → Except Err Json) :
    (Prog.run netExec (awaitNomba settings env request read) S).1 =
      callNomba settings (S.cache env) env.endpoint request read := by
  refine run_bind_result S (run_awaitAuthHeaders settings env S) fun headers S' => ?_
  rw [run_http]
  cases env.endpoint (request headers) with
  | statusError status text => rfl
  | transportError message => rfl
  | raised e => rfl
  | answered status body =>
    simp only
    cases read body with
    | error e => rfl
    | ok data => rfl

end Alone

end LdbBackend
