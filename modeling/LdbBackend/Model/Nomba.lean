import LdbBackend.Model.Customers

/-!
# The Nomba clients

`app/integrations/nomba`: the access token, with its cache, and the three API clients that need one. What
the endpoints answer is a function of the request (`Endpoint`); the exceptions of `httpx` are outcomes of
it, and what the code does not catch is raised. Dates are their ISO texts.
-/

namespace LdbBackend

structure Settings where
  nombaBaseUrl : String
  nombaClientId : String
  nombaClientSecret : String
  nombaAccountId : String
  nombaSubAccountId : String

/-- What `redis.get` yields, and whether `redis.setex` succeeds. -/
inductive CacheRead
  | hit (value : String)
  | miss
  | error (message : String)

inductive CacheWrite
  | stored
  | error (message : String)

structure TokenCache where
  read : CacheRead
  write : CacheWrite

structure HttpRequest where
  method : String
  url : String
  json : Json
  params : List (String × Json)
  headers : List (String × String)

/-- A response that `raise_for_status` lets pass, with its JSON body; an `HTTPStatusError` with the text of
its response; any other `HTTPError`; or an exception before the request is sent that is none of `HTTPError`,
such as `UnicodeEncodeError` for a header value and `InvalidURL`. -/
inductive HttpOutcome
  | answered (status : Nat) (body : Json)
  | statusError (status : Nat) (text : String)
  | transportError (message : String)
  | raised (e : Err)

abbrev Endpoint : Type := HttpRequest → HttpOutcome

/-- The envelope that the methods return. -/
structure Envelope where
  success : Bool
  data : Json
  statusCode : Nat
  message : Option String

namespace Settings

/-- `NOMBA_BASE_URL.rstrip("/")`. -/
def baseUrl (settings : Settings) : String :=
  String.ofList (settings.nombaBaseUrl.toList.reverse.dropWhile (· = '/')).reverse

def accountHeader (settings : Settings) : List (String × String) :=
  if settings.nombaAccountId ≠ "" then [("accountId", settings.nombaAccountId)] else []

end Settings

/-- The envelope for an exception of `httpx`. -/
def failureEnvelope (statusCode : Nat) (message : String) : Envelope := ⟨false, .null, statusCode, some message⟩

namespace NombaAuthService

def tokenRequest (settings : Settings) : HttpRequest where
  method := "POST"
  url := settings.baseUrl ++ "/v1/auth/token/issue"
  json := .obj [("grant_type", .str "client_credentials"), ("client_id", .str settings.nombaClientId),
    ("client_secret", .str settings.nombaClientSecret)]
  params := []
  headers := ("Content-Type", "application/json") :: settings.accountHeader

/-- `body.get("data", {}).get("access_token") or body.get("access_token")`. -/
def accessTokenOf (body : Json) : Except Err Json := do
  let data ← body.get "data" (.obj [])
  let token ← data.get "access_token" .null
  if token.truthy then return token else body.get "access_token" .null

/-- The part of `get_access_token` after the cache. -/
def fetchToken (settings : Settings) (write : CacheWrite) (endpoint : Endpoint) : Except Err Envelope :=
  if settings.nombaClientId = "" ∨ settings.nombaClientSecret = "" then
    .ok (failureEnvelope 503 "Nomba credentials are not configured")
  else
    match endpoint (tokenRequest settings) with
    | .answered status body => do
      let token ← accessTokenOf body
      if !token.truthy then return failureEnvelope status "Nomba token response missing access_token"
      else
        match write with
        -- a failed write is only logged
        | .stored | .error _ => return ⟨true, token, status, none⟩
    | .statusError status text => .ok (failureEnvelope status text)
    | .transportError message => .ok (failureEnvelope 502 message)
    | .raised e => .error e

def getAccessToken (settings : Settings) (cache : TokenCache) (endpoint : Endpoint) : Except Err Envelope :=
  match cache.read with
  | .hit value =>
    if value ≠ "" then .ok ⟨true, .str value, 200, none⟩ else fetchToken settings cache.write endpoint
  | .miss | .error _ => fetchToken settings cache.write endpoint

def authHeaders (settings : Settings) (cache : TokenCache) (endpoint : Endpoint) :
    Except Err (List (String × String)) := do
  let tokenResult ← getAccessToken settings cache endpoint
  if !tokenResult.success then .error (.runtimeError (tokenResult.message.getD "Unable to fetch Nomba token"))
  else
    return [("Authorization", "Bearer " ++ tokenResult.data.text), ("Content-Type", "application/json")] ++
      settings.accountHeader

end NombaAuthService

open NombaAuthService

/-- The body shared by the three clients: `read` is what is done with the JSON body of an answer. -/
def callNomba (settings : Settings) (cache : TokenCache) (endpoint : Endpoint)
    (request : List (String × String) → HttpRequest) (read : Json → Except Err Json) : Except Err Envelope := do
  let headers ← authHeaders settings cache endpoint
  match endpoint (request headers) with
  | .answered status body => do
    let data ← read body
    return ⟨true, data, status, none⟩
  | .statusError status text => return failureEnvelope status text
  | .transportError message => return failureEnvelope 502 message
  | .raised e => .error e

/-- `body.get("data", body)`. -/
def dataOf (body : Json) : Except Err Json := body.get "data" body

namespace NombaVirtualAccountService

def createRequest (settings : Settings) (accountRef accountName currency : String)
    (headers : List (String × String)) : HttpRequest where
  method := "POST"
  url := settings.baseUrl ++ "/v1/accounts/virtual"
  json := .obj ([("accountRef", .str accountRef), ("accountName", .str accountName),
    ("currency", .str currency)] ++
      if settings.nombaSubAccountId ≠ "" then [("accountHolderId", .str settings.nombaSubAccountId)] else [])
  params := []
  headers := headers

/-- The data of an answer to `create`; its account number is read for the log. -/
def createdDataOf (body : Json) : Except Err Json := do
  let data ← dataOf body
  let _ ← data.get "accountNumber" .null
  return data

def create (settings : Settings) (cache : TokenCache) (endpoint : Endpoint) (accountRef accountName : String)
    (currency : String := "NGN") : Except Err Envelope :=
  callNomba settings cache endpoint (createRequest settings accountRef accountName currency) createdDataOf

def renameRequest (settings : Settings) (accountRef accountName : String) (headers : List (String × String)) :
    HttpRequest where
  method := "PUT"
  url := settings.baseUrl ++ "/v1/accounts/virtual/" ++ accountRef
  json := .obj [("accountName", .str accountName)]
  params := []
  headers := headers

def updateAccountName (settings : Settings) (cache : TokenCache) (endpoint : Endpoint)
    (accountRef accountName : String) : Except Err Envelope :=
  callNomba settings cache endpoint (renameRequest settings accountRef accountName) dataOf

end NombaVirtualAccountService

namespace NombaTransactionService

def listRequest (settings : Settings) (startDate endDate : Option String) (limit : Int)
    (headers : List (String × String)) : HttpRequest where
  method := "GET"
  url := settings.baseUrl ++ "/v1/transactions"
  json := .null
  params := ("limit", .int limit) :: (startDate.map fun d => ("startDate", Json.str d)).toList ++
    (endDate.map fun d => ("endDate", Json.str d)).toList
  headers := headers

def listTransactions (settings : Settings) (cache : TokenCache) (endpoint : Endpoint)
    (startDate endDate : Option String) (limit : Int := 100) : Except Err Envelope :=
  callNomba settings cache endpoint (listRequest settings startDate endDate limit) dataOf

end NombaTransactionService

/-- What the callers see of a client: they test `success`, and read `data` or the message. -/
def NombaOutcome.ofResult : Except Err Envelope → NombaOutcome
  | .error e => .raised e
  | .ok envelope =>
    if envelope.success then .success envelope.data
    else .failure (envelope.message.getD "Unknown Nomba error")

end LdbBackend
