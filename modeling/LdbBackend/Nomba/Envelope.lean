import LdbBackend.Model.Nomba
import LdbBackend.Store.Writes

/-!
# Failures of Nomba as values

The clients turn the exceptions of `httpx` into envelopes, but `_auth_headers` raises when there is no
token, and the replies are read as objects without a look. So a client returns an envelope that tells how
the call went exactly when a token was obtained (`TokenObtained`), the call with it can be sent (`Sendable`),
and an answer, if it comes to one, has the shape that is read (`asValue_iff`).
-/

namespace LdbBackend

open NombaAuthService

/-- An answer of the token endpoint that holds a token: an object, with an object as its data if it has any,
and a token in either. -/
def TokenAnswer (body : Json) : Prop :=
  ∃ fields inner, body = .obj fields ∧ (fields.lookup "data").getD (.obj []) = .obj inner ∧
    (((inner.lookup "access_token").getD .null).truthy = true ∨
      ((fields.lookup "access_token").getD .null).truthy = true)

/-- The cache holds a token, or there are credentials and the endpoint gives one for them. -/
def TokenObtained (settings : Settings) (cache : TokenCache) (endpoint : Endpoint) : Prop :=
  (∃ value, cache.read = .hit value ∧ value ≠ "") ∨
    (settings.nombaClientId ≠ "" ∧ settings.nombaClientSecret ≠ "" ∧
      ∃ status body, endpoint (tokenRequest settings) = .answered status body ∧ TokenAnswer body)

/-- A client has returned an envelope, with success exactly when there was a token and the API answered. -/
def AsValue (settings : Settings) (cache : TokenCache) (endpoint : Endpoint)
    (request : List (String × String) → HttpRequest) (result : Except Err Envelope) : Prop :=
  ∃ envelope, result = .ok envelope ∧ (envelope.success = true ↔ ∃ headers status body,
    authHeaders settings cache endpoint = .ok headers ∧ endpoint (request headers) = .answered status body)

/-- Nothing is raised before the call with the token is sent. -/
def Sendable (settings : Settings) (cache : TokenCache) (endpoint : Endpoint)
    (request : List (String × String) → HttpRequest) : Prop :=
  ∀ headers e, authHeaders settings cache endpoint = .ok headers → endpoint (request headers) ≠ .raised e

/-- Every answer that the call can get with the token has this shape. -/
def Answers (settings : Settings) (cache : TokenCache) (endpoint : Endpoint)
    (request : List (String × String) → HttpRequest) (shape : Json → Prop) : Prop :=
  ∀ headers status body, authHeaders settings cache endpoint = .ok headers →
    endpoint (request headers) = .answered status body → shape body

section Token

variable {settings : Settings} {cache : TokenCache} {endpoint : Endpoint}

theorem accessTokenOf_obj {fields inner : List (String × Json)}
    (hdata : (fields.lookup "data").getD (.obj []) = .obj inner) :
    accessTokenOf (.obj fields) =
      .ok (if ((inner.lookup "access_token").getD .null).truthy then (inner.lookup "access_token").getD .null
        else (fields.lookup "access_token").getD .null) := by
  unfold accessTokenOf Json.get
  simp only [hdata, bind, Except.bind, pure, Except.pure]
  split_ifs <;> rfl

theorem accessTokenOf_iff {body : Json} :
    (∃ token, accessTokenOf body = .ok token ∧ token.truthy = true) ↔ TokenAnswer body := by
  constructor
  · rintro ⟨token, hok, htruthy⟩
    obtain ⟨data, hdata, hrest⟩ := bind_ok_iff.mp hok
    obtain ⟨inner, hinner, -⟩ := bind_ok_iff.mp hrest
    cases body with
    | obj fields =>
      cases data with
      | obj entries =>
        have hentries : (fields.lookup "data").getD (.obj []) = .obj entries := Except.ok.inj hdata
        refine ⟨fields, entries, rfl, hentries, ?_⟩
        rw [accessTokenOf_obj hentries, Except.ok.injEq] at hok
        by_cases hfirst : ((entries.lookup "access_token").getD .null).truthy = true
        · exact .inl hfirst
        · rw [if_neg hfirst] at hok
          exact .inr (hok ▸ htruthy)
      | _ => cases hinner
    | _ => cases hdata
  · rintro ⟨fields, entries, rfl, hdata, htokens⟩
    refine ⟨_, accessTokenOf_obj hdata, ?_⟩
    by_cases hfirst : ((entries.lookup "access_token").getD .null).truthy = true
    · rw [if_pos hfirst]
      exact hfirst
    · rw [if_neg hfirst]
      exact htokens.resolve_left hfirst

/-- The envelope for a token that was read, empty or not. -/
theorem token_envelope_iff {x : Except Err Json} {write : CacheWrite} {status : Nat} :
    (∃ envelope, (x >>= fun token => if !token.truthy then
        .ok (failureEnvelope status "Nomba token response missing access_token")
      else match write with
        | .stored | .error _ => .ok ⟨true, token, status, none⟩ : Except Err Envelope) = .ok envelope ∧
      envelope.success = true) ↔ ∃ token, x = .ok token ∧ token.truthy = true := by
  cases x with
  | error e =>
    refine iff_of_false ?_ nofun
    rintro ⟨envelope, hok, -⟩
    cases hok
  | ok token =>
    show (∃ envelope, (if !token.truthy then _ else _ : Except Err Envelope) = .ok envelope ∧ _) ↔ _
    by_cases htruthy : token.truthy = true
    · refine iff_of_true ⟨⟨true, token, status, none⟩, ?_, rfl⟩ ⟨token, rfl, htruthy⟩
      rw [if_neg (by simp [htruthy])]
      cases write <;> rfl
    · refine iff_of_false ?_ ?_
      · rw [if_pos (by simpa using htruthy)]
        rintro ⟨envelope, hok, hsuccess⟩
        cases hok
        cases hsuccess
      · rintro ⟨token', hok, htruthy'⟩
        cases hok
        exact htruthy htruthy'

theorem fetchToken_iff {write : CacheWrite} :
    (∃ envelope, fetchToken settings write endpoint = .ok envelope ∧ envelope.success = true) ↔
      settings.nombaClientId ≠ "" ∧ settings.nombaClientSecret ≠ "" ∧
        ∃ status body, endpoint (tokenRequest settings) = .answered status body ∧ TokenAnswer body := by
  unfold fetchToken
  by_cases hcredentials : settings.nombaClientId = "" ∨ settings.nombaClientSecret = ""
  · rw [if_pos hcredentials]
    refine iff_of_false ?_ fun h => hcredentials.elim h.1 h.2.1
    rintro ⟨envelope, hok, hsuccess⟩
    cases hok
    cases hsuccess
  · rw [if_neg hcredentials]
    rw [not_or] at hcredentials
    rw [and_iff_right hcredentials.1, and_iff_right hcredentials.2]
    cases hanswer : endpoint (tokenRequest settings) with
    | statusError status text =>
      refine iff_of_false ?_ nofun
      rintro ⟨envelope, hok, hsuccess⟩
      cases hok
      cases hsuccess
    | transportError message =>
      refine iff_of_false ?_ nofun
      rintro ⟨envelope, hok, hsuccess⟩
      cases hok
      cases hsuccess
    | raised e =>
      refine iff_of_false ?_ nofun
      rintro ⟨envelope, hok, -⟩
      cases hok
    | answered status body =>
      refine token_envelope_iff.trans (accessTokenOf_iff.trans ⟨fun h => ⟨status, body, rfl, h⟩, ?_⟩)
      rintro ⟨_, _, heq, h⟩
      cases heq
      exact h

theorem getAccessToken_iff :
    (∃ envelope, getAccessToken settings cache endpoint = .ok envelope ∧ envelope.success = true) ↔
      TokenObtained settings cache endpoint := by
  unfold getAccessToken TokenObtained
  cases hread : cache.read with
  | hit value =>
    by_cases hvalue : value = ""
    · simp only [hvalue, ne_eq, not_true_eq_false, if_false]
      rw [fetchToken_iff, or_iff_right]
      rintro ⟨value', heq, hne⟩
      cases heq
      exact hne rfl
    · simp only [ne_eq, hvalue, not_false_eq_true, if_true]
      exact iff_of_true ⟨_, rfl, rfl⟩ (.inl ⟨value, rfl, hvalue⟩)
  | miss =>
    rw [fetchToken_iff, or_iff_right nofun]
  | error message =>
    rw [fetchToken_iff, or_iff_right nofun]

theorem authHeaders_iff :
    (∃ headers, authHeaders settings cache endpoint = .ok headers) ↔ TokenObtained settings cache endpoint := by
  rw [← getAccessToken_iff]
  unfold authHeaders
  cases getAccessToken settings cache endpoint with
  | error e => exact iff_of_false nofun nofun
  | ok envelope =>
    show (∃ headers, (if !envelope.success then _ else _ : Except Err _) = .ok headers) ↔ _
    cases hsuccess : envelope.success with
    | false =>
      refine iff_of_false nofun ?_
      rintro ⟨_, heq, htrue⟩
      cases heq
      exact Bool.false_ne_true (hsuccess.symm.trans htrue)
    | true => exact iff_of_true ⟨_, rfl⟩ ⟨envelope, rfl, hsuccess⟩

/-- Without a token every client raises. -/
theorem callNomba_without_token {request : List (String × String) → HttpRequest} {read : Json → Except Err Json}
    (h : ¬ TokenObtained settings cache endpoint) :
    ∃ e, callNomba settings cache endpoint request read = .error e := by
  cases hheaders : authHeaders settings cache endpoint with
  | error e =>
    refine ⟨e, ?_⟩
    unfold callNomba
    rw [hheaders]
    rfl
  | ok headers => exact absurd (authHeaders_iff.mp ⟨headers, hheaders⟩) h

section Call

variable {request : List (String × String) → HttpRequest} {read : Json → Except Err Json} {shape : Json → Prop}
  {headers : List (String × String)} {result : Except Err Envelope}

/-! With the headers at hand, only the answer to the call matters. -/

theorem asValue_of_headers (hheaders : authHeaders settings cache endpoint = .ok headers) :
    AsValue settings cache endpoint request result ↔ ∃ envelope, result = .ok envelope ∧
      (envelope.success = true ↔ ∃ status body, endpoint (request headers) = .answered status body) := by
  have hanswered : (∃ headers status body, authHeaders settings cache endpoint = .ok headers ∧
      endpoint (request headers) = .answered status body) ↔
        ∃ status body, endpoint (request headers) = .answered status body := by
    constructor
    · rintro ⟨headers', status, body, hheaders', hanswer⟩
      obtain rfl := Except.ok.inj (hheaders.symm.trans hheaders')
      exact ⟨status, body, hanswer⟩
    · rintro ⟨status, body, hanswer⟩
      exact ⟨headers, status, body, hheaders, hanswer⟩
  unfold AsValue
  rw [hanswered]

theorem answers_of_headers (hheaders : authHeaders settings cache endpoint = .ok headers) :
    Answers settings cache endpoint request shape ↔
      ∀ status body, endpoint (request headers) = .answered status body → shape body := by
  constructor
  · intro h status body hanswer
    exact h headers status body hheaders hanswer
  · intro h headers' status body hheaders' hanswer
    obtain rfl := Except.ok.inj (hheaders.symm.trans hheaders')
    exact h status body hanswer

theorem sendable_of_headers (hheaders : authHeaders settings cache endpoint = .ok headers) :
    Sendable settings cache endpoint request ↔ ∀ e, endpoint (request headers) ≠ .raised e := by
  constructor
  · intro h e
    exact h headers e hheaders
  · intro h headers' e hheaders'
    obtain rfl := Except.ok.inj (hheaders.symm.trans hheaders')
    exact h e

/-- A call that is not answered yields a failure envelope, and there is no answer to read. -/
theorem asValue_unanswered (hheaders : authHeaders settings cache endpoint = .ok headers) {status : Nat}
    {text : String} (hunanswered : ∀ status body, endpoint (request headers) ≠ .answered status body) :
    AsValue settings cache endpoint request (.ok (failureEnvelope status text)) ∧
      Answers settings cache endpoint request shape := by
  rw [asValue_of_headers hheaders, answers_of_headers hheaders]
  refine ⟨⟨_, rfl, iff_of_false Bool.false_ne_true ?_⟩, fun status body hanswer => ?_⟩
  · rintro ⟨status, body, hanswer⟩
    exact hunanswered status body hanswer
  · exact absurd hanswer (hunanswered status body)

theorem asValue_iff (hshape : ∀ body, (∃ data, read body = .ok data) ↔ shape body) :
    AsValue settings cache endpoint request (callNomba settings cache endpoint request read) ↔
      TokenObtained settings cache endpoint ∧ Sendable settings cache endpoint request ∧
        Answers settings cache endpoint request shape := by
  by_cases htoken : TokenObtained settings cache endpoint
  · rw [and_iff_right htoken]
    obtain ⟨headers, hheaders⟩ := authHeaders_iff.mpr htoken
    rw [sendable_of_headers hheaders]
    cases hanswer : endpoint (request headers) with
    | raised e =>
      have hcall : callNomba settings cache endpoint request read = .error e := by
        simp only [callNomba, hheaders, hanswer, bind, Except.bind]
      rw [hcall]
      refine iff_of_false ?_ fun h => h.1 e rfl
      rintro ⟨envelope, hok, -⟩
      cases hok
    | statusError status text =>
      have hcall : callNomba settings cache endpoint request read = .ok (failureEnvelope status text) := by
        simp only [callNomba, hheaders, hanswer, bind, Except.bind, pure, Except.pure]
      have hboth := @asValue_unanswered settings cache endpoint request shape headers hheaders status text (by simp [hanswer])
      rw [hcall]
      exact iff_of_true hboth.1 ⟨nofun, hboth.2⟩
    | transportError message =>
      have hcall : callNomba settings cache endpoint request read = .ok (failureEnvelope 502 message) := by
        simp only [callNomba, hheaders, hanswer, bind, Except.bind, pure, Except.pure]
      have hboth := @asValue_unanswered settings cache endpoint request shape headers hheaders 502 message (by simp [hanswer])
      rw [hcall]
      exact iff_of_true hboth.1 ⟨nofun, hboth.2⟩
    | answered status body =>
      have hcall : callNomba settings cache endpoint request read =
          read body >>= fun data => .ok ⟨true, data, status, none⟩ := by
        simp only [callNomba, hheaders, hanswer, bind, Except.bind, pure, Except.pure]
      have hall : Answers settings cache endpoint request shape ↔ shape body := by
        rw [answers_of_headers hheaders, hanswer]
        constructor
        · intro h
          exact h status body rfl
        · rintro h status' body' ⟨⟩
          exact h
      rw [hcall, hall, and_iff_right nofun, ← hshape, asValue_of_headers hheaders]
      cases hread : read body with
      | error e =>
        refine iff_of_false ?_ ?_
        · rintro ⟨envelope, hok, -⟩
          cases hok
        · rintro ⟨data, hok⟩
          cases hok
      | ok data => exact iff_of_true ⟨_, rfl, iff_of_true rfl ⟨status, body, hanswer⟩⟩ ⟨data, rfl⟩
  · obtain ⟨e, he⟩ := @callNomba_without_token settings cache endpoint request read htoken
    refine iff_of_false ?_ fun hboth => htoken hboth.1
    rw [he]
    rintro ⟨envelope, hok, -⟩
    cases hok

end Call

end Token

/-! ## The shapes that are read -/

def IsObject (body : Json) : Prop := ∃ fields, body = .obj fields

/-- An object whose data, if it has any, is an object too. -/
def HasObjectData (body : Json) : Prop :=
  ∃ fields inner, body = .obj fields ∧ (fields.lookup "data").getD body = .obj inner

theorem dataOf_iff (body : Json) : (∃ data, dataOf body = .ok data) ↔ IsObject body := by
  cases body with
  | obj fields => exact iff_of_true ⟨_, rfl⟩ ⟨fields, rfl⟩
  | _ => exact iff_of_false nofun nofun

theorem createdDataOf_iff (body : Json) :
    (∃ data, NombaVirtualAccountService.createdDataOf body = .ok data) ↔ HasObjectData body := by
  unfold NombaVirtualAccountService.createdDataOf
  cases body with
  | obj fields =>
    show (∃ data, (Json.get ((fields.lookup "data").getD (.obj fields)) _ _ >>= _) = .ok data) ↔ _
    cases hdata : (fields.lookup "data").getD (.obj fields) with
    | obj inner => exact iff_of_true ⟨_, rfl⟩ ⟨fields, inner, rfl, hdata⟩
    | _ =>
      refine iff_of_false nofun ?_
      rintro ⟨_, inner, heq, hinner⟩
      cases heq
      cases hdata.symm.trans hinner
  | _ => exact iff_of_false nofun nofun

open NombaVirtualAccountService in
/-- For every cache, configuration and endpoint and all arguments: each client returns an envelope that tells
how the call went exactly when a token was obtained, the call with it can be sent, and an answer, if there is
one, has the shape it reads. -/
theorem clients_as_values_iff (settings : Settings) (cache : TokenCache) (endpoint : Endpoint)
    (accountRef accountName currency : String) (startDate endDate : Option String) (limit : Int) :
    (AsValue settings cache endpoint (createRequest settings accountRef accountName currency)
        (create settings cache endpoint accountRef accountName currency) ↔
      TokenObtained settings cache endpoint ∧
        Sendable settings cache endpoint (createRequest settings accountRef accountName currency) ∧
        Answers settings cache endpoint (createRequest settings accountRef accountName currency) HasObjectData) ∧
    (AsValue settings cache endpoint (renameRequest settings accountRef accountName)
        (updateAccountName settings cache endpoint accountRef accountName) ↔
      TokenObtained settings cache endpoint ∧
        Sendable settings cache endpoint (renameRequest settings accountRef accountName) ∧
        Answers settings cache endpoint (renameRequest settings accountRef accountName) IsObject) ∧
    (AsValue settings cache endpoint (NombaTransactionService.listRequest settings startDate endDate limit)
        (NombaTransactionService.listTransactions settings cache endpoint startDate endDate limit) ↔
      TokenObtained settings cache endpoint ∧
        Sendable settings cache endpoint (NombaTransactionService.listRequest settings startDate endDate limit) ∧
        Answers settings cache endpoint (NombaTransactionService.listRequest settings startDate endDate limit) IsObject) :=
  ⟨asValue_iff createdDataOf_iff, asValue_iff dataOf_iff, asValue_iff dataOf_iff⟩

/-- Neither a cached token nor credentials: no client returns. -/
theorem missing_credentials_raise : ¬ ∀ (settings : Settings) (cache : TokenCache) (endpoint : Endpoint)
    (accountRef accountName currency : String),
    AsValue settings cache endpoint
      (NombaVirtualAccountService.createRequest settings accountRef accountName currency)
      (NombaVirtualAccountService.create settings cache endpoint accountRef accountName currency) := by
  intro hclaim
  obtain ⟨envelope, hok, -⟩ := hclaim ⟨"https://sandbox.nomba.com", "", "", "", ""⟩ ⟨.miss, .stored⟩
    (fun _ => .transportError "unreachable") "cust-1" "Ada" "NGN"
  cases hok

end LdbBackend
