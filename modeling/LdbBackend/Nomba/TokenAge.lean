import LdbBackend.Lib.Numeral
import LdbBackend.Model.TokenStore

/-!
# How old a bearer token can be

Calls of the clients in any interleaving, over one cache. A token is stored for `NOMBA_TOKEN_TTL_SECONDS`
from when it is written, which is later than when it was issued, and the call that reads it uses it later
still. `TokenTurn` says which request takes a call where; from it follow the age of the tokens that are
used (`bearer_tokens_fresh`) and when a new one is asked for (`token_requests_justified`).
-/

namespace LdbBackend

open Effects NombaAuthService

abbrev NetTrace : Type := List (Nat × Event NetOp NetRes)

/-- The second at which an operation was answered. -/
def answeredAt (e : Nat × Event NetOp NetRes) : Nat := e.2.2.1

/-- A request for a token, answered with one. -/
def NetOp.Issues (settings : Settings) (o : NetOp) (token : Json) : Prop :=
  ∃ status body, o = .http (tokenRequest settings) (.answered status body) ∧
    accessTokenOf body = .ok token ∧ token.truthy = true

/-- A request for a token. -/
def NetOp.Asks (settings : Settings) (o : NetOp) : Prop := ∃ outcome, o = .http (tokenRequest settings) outcome

/-- The token was issued at second `t`. -/
def Issued (settings : Settings) (tr : NetTrace) (token : Json) (t : Nat) : Prop :=
  ∃ e ∈ tr, e.2.1.Issues settings token ∧ answeredAt e = t

/-- A `setex` that has stored its value. -/
def NetOp.Stores : NetOp → Prop
  | .redisSetex value outcome => value.encoded ≠ none ∧ ∀ message, outcome ≠ .failed message
  | _ => False

/-! ## The protocol of a call -/

inductive TokenPlace
  | started
  | asking
  | granted (token : Json)
  | holding (value : String)
  | ended

/-- Where the read of the cache takes a call. -/
def TokenPlace.afterRead : CacheRead → TokenPlace
  | .hit value => if value ≠ "" then .holding value else .asking
  | .miss | .error _ => .asking

/-- Where the answer to a token request takes it. -/
def TokenPlace.afterIssue : HttpOutcome → TokenPlace
  | .answered _ body =>
    match accessTokenOf body with
    | .ok token => if token.truthy then .granted token else .ended
    | .error _ => .ended
  | _ => .ended

inductive TokenTurn (settings : Settings) : NombaCall → TokenPlace → (o : NetOp) → (NetRes o → TokenPlace) → Prop
  | wait (seconds : Nat) : TokenTurn settings (.wait seconds) .started (.pass seconds) fun _ => .ended
  | read (env : NetConditions) (method : NombaMethod) :
      TokenTurn settings (.call env method) .started (.redisGet env.read) fun r => .afterRead r.2
  | ask (env : NetConditions) (method : NombaMethod) :
      TokenTurn settings (.call env method) .asking
        (.http (tokenRequest settings) (env.endpoint (tokenRequest settings))) fun r => .afterIssue r.2
  | store (env : NetConditions) (method : NombaMethod) (token : Json) :
      TokenTurn settings (.call env method) (.granted token) (.redisSetex token env.write)
        fun _ => .holding token.text
  | send (env : NetConditions) (method : NombaMethod) (value : String) (request : HttpRequest)
      (outcome : HttpOutcome) (authorization : request.headers.lookup "Authorization" = some ("Bearer " ++ value)) :
      TokenTurn settings (.call env method) (.holding value) (.http request outcome) fun _ => .ended

def tokenProtocol (settings : Settings) : Protocol NetOp NetRes NombaCall TokenPlace where
  init _ := .started
  step := TokenTurn settings

section Protocol

variable {settings : Settings} {env : NetConditions} {method : NombaMethod}

/-- With which token a call ends its part in `get_access_token`. -/
def TokenResult (g : TokenPlace) (result : Envelope) : Prop :=
  result.success = true → g = .holding result.data.text

theorem follows_awaitFreshToken :
    (tokenProtocol settings).Follows (.call env method) TokenResult .asking (awaitFreshToken settings env) := by
  unfold awaitFreshToken
  split_ifs with hconfigured
  · exact .pure nofun
  · refine .perform _ (.ask env method) fun r => ?_
    obtain ⟨now, outcome⟩ := r
    cases outcome with
    | statusError status text => exact .pure nofun
    | transportError message => exact .pure nofun
    | raised e => exact .raise
    | answered status body =>
      show (tokenProtocol settings).Follows _ _ (TokenPlace.afterIssue _)
        (Prog.lift (accessTokenOf body) >>= _)
      cases htoken : accessTokenOf body with
      | error e => exact .raise
      | ok token =>
        show (tokenProtocol settings).Follows _ _ _ (if (!token.truthy) = true then _ else _)
        split_ifs with hempty
        · exact .pure nofun
        · have hplace : TokenPlace.afterIssue (.answered status body) = .granted token := by
            simpa [TokenPlace.afterIssue, htoken] using hempty
          rw [hplace]
          exact .perform _ (.store env method token) fun r => .pure fun _ => rfl

theorem follows_awaitAccessToken :
    (tokenProtocol settings).Follows (.call env method) TokenResult .started
      (awaitAccessToken settings env) := by
  refine .perform _ (.read env method) fun r => ?_
  obtain ⟨now, answer⟩ := r
  cases answer with
  | hit value =>
    show (tokenProtocol settings).Follows _ _ (if value ≠ "" then _ else _) (if value ≠ "" then _ else _)
    split_ifs
    · exact .pure fun _ => rfl
    · exact follows_awaitFreshToken
  | miss => exact follows_awaitFreshToken
  | error message => exact follows_awaitFreshToken

/-- The headers carry the token that the call holds. -/
theorem follows_awaitAuthHeaders :
    (tokenProtocol settings).Follows (.call env method)
      (fun g headers => ∃ value, g = .holding value ∧
        headers.lookup "Authorization" = some ("Bearer " ++ value)) .started (awaitAuthHeaders settings env) := by
  refine follows_awaitAccessToken.bind fun g result hresult => ?_
  show (tokenProtocol settings).Follows _ _ g (if (!result.success) = true then _ else _)
  split_ifs with hsuccess
  · exact .raise
  · exact .pure ⟨_, hresult (by simpa using hsuccess), by simp⟩

theorem follows_awaitNomba :
    (tokenProtocol settings).Follows (.call env method) (fun _ _ => True) .started
      (awaitNomba settings env (method.request settings) method.read) := by
  refine follows_awaitAuthHeaders.bind fun g headers hheaders => ?_
  obtain ⟨value, rfl, hlookup⟩ := hheaders
  refine .perform _ (.send env method value _ _ (by rw [NombaMethod.request_headers]; exact hlookup)) ?_
  intro r
  obtain ⟨now, outcome⟩ := r
  cases outcome with
  | statusError status text => exact .pure trivial
  | transportError message => exact .pure trivial
  | raised e => exact .raise
  | answered status body => exact Protocol.Follows.lift fun data => .pure trivial

theorem follows_nomba (call : NombaCall) :
    (tokenProtocol settings).Follows call (fun _ _ => True) .started (call.handler settings) := by
  cases call with
  | wait seconds => exact .perform _ (.wait seconds) fun r => .pure trivial
  | call env method =>
    exact follows_awaitNomba.map fun _ _ _ => trivial

end Protocol

/-! ## The age of the tokens that are used -/

/-- The requests of a call lie within `D` seconds. -/
def prompt (D : Nat) : Assumption NetOp NetRes TokenStore NombaCall where
  call _ := True
  step _ S tr i _ := ∀ e ∈ tr, e.1 = i → S.now ≤ answeredAt e + D

/-- A request asks for a token or carries one that was issued at most so long ago. -/
def Young (settings : Settings) (D : Nat) (before : NetTrace) (e : Nat × Event NetOp NetRes) : Prop :=
  ∀ request outcome, e.2.1 = .http request outcome → request = tokenRequest settings ∨
    ∃ token t, Issued settings before token t ∧
      request.headers.lookup "Authorization" = some ("Bearer " ++ token.text) ∧
      answeredAt e ≤ t + nombaTokenTtlSeconds + 2 * D

/-- What redis holds was issued, and does not last longer than it may. -/
structure Cached (settings : Settings) (D : Nat) (S : TokenStore) (tr : NetTrace) : Prop where
  clock : ∀ e ∈ tr, answeredAt e ≤ S.now
  entry : ∀ value expires, S.entry = some (value, expires) → ∃ token t, Issued settings tr token t ∧
    token.text = value ∧ expires ≤ t + nombaTokenTtlSeconds + D
  young : EachAfter (Young settings D) tr

def TokenPlace.Young (settings : Settings) (D : Nat) (tr : NetTrace) (i : Nat) : TokenPlace → Prop
  | .granted token => ∃ e ∈ tr, e.1 = i ∧ e.2.1.Issues settings token
  | .holding value => ∃ token t, Issued settings tr token t ∧ token.text = value ∧
      ∃ e ∈ tr, e.1 = i ∧ answeredAt e ≤ t + nombaTokenTtlSeconds + D
  | _ => True

section Age

variable {settings : Settings} {D : Nat} {S S' : TokenStore} {tr : NetTrace} {i j : Nat} {call : NombaCall}
  {g : TokenPlace} {o : NetOp} {f : NetRes o → TokenPlace} {r : NetRes o}

theorem Issued.append {token : Json} {t : Nat} (h : Issued settings tr token t)
    (x : Nat × Event NetOp NetRes) : Issued settings (tr ++ [x]) token t := by
  obtain ⟨e, he, hissues⟩ := h
  exact ⟨e, List.mem_append_left _ he, hissues⟩

theorem TokenPlace.Young.append (h : g.Young settings D tr i) (x : Nat × Event NetOp NetRes) :
    g.Young settings D (tr ++ [x]) i := by
  cases g with
  | granted token =>
    obtain ⟨e, he, hissues⟩ := h
    exact ⟨e, List.mem_append_left _ he, hissues⟩
  | holding value =>
    obtain ⟨token, t, hissued, htext, e, he, hown⟩ := h
    exact ⟨token, t, hissued.append x, htext, e, List.mem_append_left _ he, hown⟩
  | _ => trivial

/-- Finding a value or none leaves it where it is. -/
theorem get_kept : (S.get .kept).2 = S := by
  unfold TokenStore.get
  cases S.live <;> rfl

/-- An answer is given at the second the clock shows, and the clock never goes back. -/
theorem answered_now (h : netExec o S = .ok (r, S')) : r.1 = S.now ∧ S.now ≤ S'.now := by
  cases o with
  | pass seconds => cases h; exact ⟨rfl, Nat.le_add_right _ _⟩
  | redisGet outcome =>
    cases h
    refine ⟨rfl, ?_⟩
    cases outcome with
    | kept => rw [get_kept]
    | lost => exact le_rfl
    | failed message => exact le_rfl
  | http request outcome => cases h; exact ⟨rfl, le_rfl⟩
  | redisSetex value outcome =>
    cases h
    refine ⟨rfl, ?_⟩
    unfold TokenStore.setex
    cases value.encoded with
    | none => exact le_rfl
    | some text => cases outcome <;> exact le_rfl

theorem encoded_text {token : Json} {text : String} (h : token.encoded = some text) : token.text = text := by
  cases token <;> cases h <;> rfl

/-- A `get` that finds the value gone. -/
def NetOp.Loses (o : NetOp) : Prop := o = .redisGet .lost

/-- What is in the cache after an operation was there before, or has just been stored, or nothing is. -/
theorem entry_cases (h : netExec o S = .ok (r, S')) : S'.entry = S.entry ∨ (o.Loses ∧ S'.entry = none) ∨
    ∃ value outcome text, o = .redisSetex value outcome ∧ o.Stores ∧ value.encoded = some text ∧
      S'.entry = some (text, S.now + nombaTokenTtlSeconds) := by
  cases o with
  | pass seconds => cases h; exact .inl rfl
  | redisGet outcome =>
    cases h
    cases outcome with
    | kept => exact .inl (congrArg TokenStore.entry get_kept)
    | lost => exact .inr (.inl ⟨rfl, rfl⟩)
    | failed message => exact .inl rfl
  | http request outcome => cases h; exact .inl rfl
  | redisSetex value outcome =>
    cases h
    cases htext : value.encoded with
    | none => exact .inl (by simp [TokenStore.setex, htext])
    | some text =>
      cases outcome with
      | failed message => exact .inl (by simp [TokenStore.setex, htext])
      | stored | storedThenFailed message =>
        refine .inr (.inr ⟨value, _, text, rfl, ⟨by simp [htext], nofun⟩, htext, by simp [TokenStore.setex, htext]⟩)

/-- What a read finds has not expired. -/
theorem get_hit {outcome : GetOutcome} {value : String} (h : (S.get outcome).1 = .hit value) :
    ∃ expires, S.entry = some (value, expires) ∧ S.now < expires := by
  unfold TokenStore.get at h
  cases outcome with
  | lost => cases h
  | failed message => cases h
  | kept =>
    cases hlive : S.live with
    | none => simp [hlive] at h
    | some found =>
      simp only [hlive] at h
      cases h
      obtain ⟨⟨_, expires⟩, hentry, rfl⟩ := Option.map_eq_some_iff.mp hlive
      obtain ⟨hentry, hnow⟩ := Option.filter_eq_some_iff.mp hentry
      exact ⟨expires, hentry, of_decide_eq_true hnow⟩

theorem afterRead_cases (answer : CacheRead) : TokenPlace.afterRead answer = .asking ∨
    ∃ value, answer = .hit value ∧ TokenPlace.afterRead answer = .holding value := by
  cases answer with
  | miss => exact .inl rfl
  | error message => exact .inl rfl
  | hit value =>
    by_cases hvalue : value = ""
    · exact .inl (by simp [TokenPlace.afterRead, hvalue])
    · exact .inr ⟨value, rfl, by simp [TokenPlace.afterRead, hvalue]⟩

theorem afterIssue_cases (settings : Settings) (outcome : HttpOutcome) :
    TokenPlace.afterIssue outcome = .ended ∨
      ∃ token, TokenPlace.afterIssue outcome = .granted token ∧
        (NetOp.http (tokenRequest settings) outcome).Issues settings token := by
  cases outcome with
  | statusError status text => exact .inl rfl
  | transportError message => exact .inl rfl
  | raised e => exact .inl rfl
  | answered status body =>
    cases htoken : accessTokenOf body with
    | error e => exact .inl (by simp [TokenPlace.afterIssue, htoken])
    | ok token =>
      by_cases htruthy : token.truthy = true
      · have hplace : TokenPlace.afterIssue (.answered status body) = .granted token := by
          simp [TokenPlace.afterIssue, htoken, htruthy]
        exact .inr ⟨token, hplace, status, body, rfl, htoken, htruthy⟩
      · exact .inl (by simp [TokenPlace.afterIssue, htoken, htruthy])

/-- A step keeps what is known of the cache and of the requests made. -/
theorem cached_next (hS : Cached settings D S tr) (hg : g.Young settings D tr i)
    (hturn : TokenTurn settings call g o f) (he : netExec o S = .ok (r, S'))
    (hprompt : ∀ e ∈ tr, e.1 = i → S.now ≤ answeredAt e + D) :
    Cached settings D S' (tr ++ [(i, ⟨o, r⟩)]) := by
  obtain ⟨hnow, hlater⟩ := answered_now he
  refine ⟨fun e hmem => ?_, fun value expires hentry => ?_, hS.young.concat ?_⟩
  · rcases List.mem_append.mp hmem with hmem | hmem
    · exact (hS.clock e hmem).trans hlater
    · cases List.mem_singleton.mp hmem
      exact (le_of_eq hnow).trans hlater
  · rcases entry_cases he with hsame | ⟨-, hgone⟩ | ⟨token, outcome, text, rfl, -, htext, hstored⟩
    · rw [hsame] at hentry
      obtain ⟨token, t, hissued, hvalue, hexpires⟩ := hS.entry value expires hentry
      exact ⟨token, t, hissued.append _, hvalue, hexpires⟩
    · rw [hgone] at hentry
      cases hentry
    · -- only a token that the call was granted is stored
      rw [hstored] at hentry
      cases hentry
      cases hturn with
      | store env method =>
        obtain ⟨e, hmem, hown, hissues⟩ := hg
        have hlast := hprompt e hmem hown
        refine ⟨token, answeredAt e, Issued.append ⟨e, hmem, hissues, rfl⟩ _, encoded_text htext, ?_⟩
        omega
  · intro request outcome ho
    cases hturn with
    | wait seconds => cases ho
    | read env method => cases ho
    | store env method token => cases ho
    | ask env method => cases ho; exact .inl rfl
    | send env method value request outcome hauthorization =>
      cases ho
      obtain ⟨token, t, hissued, rfl, e, hmem, hown, hage⟩ := hg
      have hlast := hprompt e hmem hown
      refine .inr ⟨token, t, hissued, hauthorization, ?_⟩
      show r.1 ≤ _
      omega

/-- And what is known of the token that the call holds. -/
theorem young_next (hS : Cached settings D S tr) (hg : g.Young settings D tr i)
    (hturn : TokenTurn settings call g o f) (he : netExec o S = .ok (r, S')) :
    (f r).Young settings D (tr ++ [(i, ⟨o, r⟩)]) i := by
  have hlast : (i, (⟨o, r⟩ : Event NetOp NetRes)) ∈ tr ++ [(i, ⟨o, r⟩)] :=
    List.mem_append_right _ List.mem_cons_self
  cases hturn with
  | wait seconds => trivial
  | send env method value request outcome hauthorization => trivial
  | read env method =>
    cases he
    show (TokenPlace.afterRead (S.get env.read).1).Young settings D _ i
    rcases afterRead_cases (S.get env.read).1 with hplace | ⟨value, hhit, hplace⟩
    · rw [hplace]
      trivial
    · rw [hplace]
      obtain ⟨expires, hentry, hlive⟩ := get_hit hhit
      obtain ⟨token, t, hissued, htext, hexpires⟩ := hS.entry value expires hentry
      refine ⟨token, t, hissued.append _, htext, _, hlast, rfl, ?_⟩
      show S.now ≤ _
      omega
  | ask env method =>
    cases he
    show (TokenPlace.afterIssue (env.endpoint (tokenRequest settings))).Young settings D _ i
    rcases afterIssue_cases settings (env.endpoint (tokenRequest settings)) with
      hplace | ⟨token, hplace, hissues⟩
    · rw [hplace]
      trivial
    · rw [hplace]
      exact ⟨_, hlast, rfl, hissues⟩
  | store env method token =>
    obtain ⟨e, hmem, hown, hissues⟩ := hg
    refine ⟨token, answeredAt e, Issued.append ⟨e, hmem, hissues, rfl⟩ _, rfl, e,
      List.mem_append_left _ hmem, hown, ?_⟩
    omega

theorem aging_next {v v' : Protocol.View NetOp NetRes TokenStore NombaCall TokenPlace}
    (h : Protocol.Modular (prompt D) (Cached settings D) (fun _ tr i _ g => g.Young settings D tr i) v)
    (hn : (tokenProtocol settings).Next netExec (prompt D) v v') :
    Protocol.Modular (prompt D) (Cached settings D) (fun _ tr i _ g => g.Young settings D tr i) v' := by
  refine Protocol.modular_next (fun _ _ _ _ _ _ _ => trivial) ?_ ?_ h hn
  · intro S tr i call g o f r S' _ hS hg hturn he hB
    exact ⟨cached_next hS hg hturn he hB, young_next hS hg hturn he⟩
  · intro S tr i call g o f r S' _ _ _ _ _ _ j call' g' _ _ hg'
    exact hg'.append _

end Age

/-- However the calls interleave and wherever they are stopped: a request that does not ask for a token
carries one that was issued before, at most the TTL and twice the time of a call ago. -/
theorem bearer_tokens_fresh (settings : Settings) (D now : Nat) {ms : List (Move NombaCall Err)}
    {P : Pool NetOp NetRes Err (Option Envelope) TokenStore NombaCall}
    (hprompt : (Pool.init ⟨now, none⟩).Meets netExec (NombaCall.handler settings) (prompt D) ms)
    (hplay : (Pool.init ⟨now, none⟩).play netExec (NombaCall.handler settings) ms = some P) :
    ∀ before e after, P.trace = before ++ e :: after → ∀ request outcome, e.2.1 = .http request outcome →
      request = tokenRequest settings ∨ ∃ token t, Issued settings before token t ∧
        request.headers.lookup "Authorization" = some ("Bearer " ++ token.text) ∧
        answeredAt e ≤ t + nombaTokenTtlSeconds + 2 * D := by
  have hcached : Cached settings D ⟨now, none⟩ [] := ⟨nofun, nofun, .nil⟩
  obtain ⟨v, hv, hI⟩ := Protocol.play_invariant (fun call _ => follows_nomba call) (fun _ _ => aging_next)
    (Protocol.Views.init _) (Protocol.Modular.init hcached) hprompt hplay
  have hyoung := hI.shared.young
  rw [hv.trace] at hyoung
  exact hyoung

instance (D : Nat) : DecidablePred (prompt D).call := fun _ => .isTrue trivial

instance (D : Nat) (call : NombaCall) (S : TokenStore) (tr : NetTrace) (i : Nat) (o : NetOp) :
    Decidable ((prompt D).step call S tr i o) :=
  inferInstanceAs (Decidable (∀ e ∈ tr, e.1 = i → S.now ≤ answeredAt e + D))

/-- Configured, and an API that issues a token. -/
def configured : Settings := ⟨"https://api.nomba.com/", "client", "secret", "", ""⟩

def issuing : NetConditions where
  read := .kept
  write := .stored
  endpoint _ := .answered 200 (.obj [("access_token", .str "T1")])

/-- A token is fetched in 20 seconds, and used again 3200 seconds later. -/
def usedTwice : List (Move NombaCall Err) :=
  [.start (.call issuing (.listTransactions none none 100)), .advance 0, .start (.wait 20), .advance 1,
    .advance 0, .advance 0, .advance 0, .start (.wait 3200), .advance 2,
    .start (.call issuing (.updateAccountName "A1" "Ada")), .advance 3, .advance 3]

theorem usedTwice_plays : ∃ P,
    (Pool.init ⟨0, none⟩).play netExec (NombaCall.handler configured) usedTwice = some P := ⟨_, rfl⟩

theorem bearer_tokens_fresh_used_twice : ∃ P,
    (Pool.init ⟨0, none⟩).play netExec (NombaCall.handler configured) usedTwice = some P ∧
      ∀ before e after, P.trace = before ++ e :: after → ∀ request outcome, e.2.1 = .http request outcome →
        request = tokenRequest configured ∨ ∃ token t, Issued configured before token t ∧
          request.headers.lookup "Authorization" = some ("Bearer " ++ token.text) ∧
          answeredAt e ≤ t + nombaTokenTtlSeconds + 2 * 20 := by
  have hprompt : (Pool.init ⟨0, none⟩).Meets netExec (NombaCall.handler configured) (prompt 20) usedTwice := by
    decide
  obtain ⟨P, hplay⟩ := usedTwice_plays
  exact ⟨P, hplay, bearer_tokens_fresh configured 20 0 hprompt hplay⟩

/-! ## When a token is asked for -/

/-- The operation has stored a value, and redis has not lost it since. -/
def StillStored (tr : NetTrace) (e : Nat × Event NetOp NetRes) : Prop :=
  ∃ before after, tr = before ++ e :: after ∧ e.2.1.Stores ∧ ∀ x ∈ after, ¬ x.2.1.Loses

/-- Program `i` has read the cache; the read raised, or redis had lost the value, or every value that redis
kept till then was stored at least the TTL before. -/
def LookedInVain (tr : NetTrace) (i : Nat) : Prop :=
  ∃ before outcome r after, tr = before ++ (i, ⟨.redisGet outcome, r⟩) :: after ∧
    (outcome = .kept → ∀ e, StillStored before e → answeredAt e + nombaTokenTtlSeconds ≤ r.1)

/-- The call that asks for a token has looked for one. -/
def Justified (settings : Settings) (before : NetTrace) (e : Nat × Event NetOp NetRes) : Prop :=
  e.2.1.Asks settings → LookedInVain before e.1

/-- The entry outlasts every value that redis has kept, and it is not empty. -/
structure Retained (settings : Settings) (S : TokenStore) (tr : NetTrace) : Prop where
  entry : ∀ value expires, S.entry = some (value, expires) → value ≠ ""
  stored : ∀ e, StillStored tr e → answeredAt e ≤ S.now ∧ ∃ value expires,
    S.entry = some (value, expires) ∧ answeredAt e + nombaTokenTtlSeconds ≤ expires
  justified : EachAfter (Justified settings) tr

def TokenPlace.Searched (tr : NetTrace) (i : Nat) : TokenPlace → Prop
  | .asking => LookedInVain tr i
  | .granted token => token.truthy = true
  | _ => True

section Justified

variable {settings : Settings} {S S' : TokenStore} {tr : NetTrace} {i : Nat} {call : NombaCall}
  {g : TokenPlace} {o : NetOp} {f : NetRes o → TokenPlace} {r : NetRes o}

theorem TokenPlace.Searched.append (h : g.Searched tr i) (x : Nat × Event NetOp NetRes) :
    g.Searched (tr ++ [x]) i := by
  cases g with
  | asking =>
    obtain ⟨before, outcome, r, after, rfl, hvain⟩ := h
    exact ⟨before, outcome, r, after ++ [x], by simp, hvain⟩
  | granted token => exact h
  | _ => trivial

theorem repr_ne_empty (n : Nat) : n.repr ≠ "" := by
  intro h
  have hdigits := Fixed.digitsOf_ne_nil n
  unfold Fixed.digitsOf at hdigits
  rw [Nat.toString_eq_repr, h] at hdigits
  exact hdigits rfl

theorem intText_ne_empty (n : Int) : (Json.int n).text ≠ "" := by
  show Int.repr n ≠ ""
  cases n with
  | ofNat m => exact repr_ne_empty m
  | negSucc m =>
    unfold Int.repr
    simp

open Fixed Fixed.Decimal in
theorem mantissa_ne_nil (d : Decimal) : d.str.toList.takeWhile (· ≠ 'E') ≠ [] := by
  have hdigits : (pointAt (digitsOf d.coeff) d.dotOf).1 ≠ [] := pointAt_ne_nil (digitsOf_ne_nil d.coeff)
  obtain ⟨c, cs, hcs⟩ := List.exists_cons_of_ne_nil hdigits
  have hmem : c ∈ (pointAt (digitsOf d.coeff) d.dotOf).1 := by
    rw [hcs]
    exact List.mem_cons_self
  have hc : c.isDigit = true := (isDigit_pointAt fun c hc => isDigit_digitsOf hc).1 c hmem
  have hE : c ≠ 'E' := ne_of_isDigit hc rfl
  rw [str_eq, hcs]
  cases d.neg <;> simp [signChars, hE]

theorem ofList_ne_empty {cs : List Char} (h : cs ≠ []) : String.ofList cs ≠ "" := fun hempty =>
  h (by simpa using congrArg String.toList hempty)

theorem floatText_ne_empty (d : Fixed.Decimal) : floatText d ≠ "" := by
  have hmantissa := mantissa_ne_nil d
  unfold floatText
  generalize d.str.toList.takeWhile (· ≠ 'E') = mantissa at hmantissa ⊢
  generalize d.str.toList.dropWhile (· ≠ 'E') = exponent
  dsimp only
  split
  · exact ofList_ne_empty (List.append_ne_nil_of_left_ne_nil hmantissa _)
  · exact ofList_ne_empty (List.append_ne_nil_of_left_ne_nil hmantissa _)
  · exact ofList_ne_empty hmantissa

theorem encoded_ne_empty {token : Json} {text : String} (h : token.encoded = some text)
    (htruthy : token.truthy = true) : text ≠ "" := by
  cases token with
  | str s => cases h; simpa [Json.truthy] using htruthy
  | int n => cases h; exact intText_ne_empty n
  | float d => cases h; exact floatText_ne_empty d
  | _ => cases h

theorem authorization_tokenRequest : (tokenRequest settings).headers.lookup "Authorization" = none := by
  unfold tokenRequest Settings.accountHeader
  split_ifs <;> simp [List.lookup_cons]

theorem send_not_asks {request : HttpRequest} {outcome : HttpOutcome} {a : String}
    (h : request.headers.lookup "Authorization" = some a) : ¬ (NetOp.http request outcome).Asks settings := by
  rintro ⟨outcome', heq⟩
  cases heq
  exact absurd (h.symm.trans authorization_tokenRequest) nofun

/-- A value that is stored lasts for the TTL. -/
theorem stored_entry (h : netExec o S = .ok (r, S')) (hstores : o.Stores) :
    ∃ value, S'.entry = some (value, S.now + nombaTokenTtlSeconds) := by
  cases o with
  | redisSetex value outcome =>
    cases h
    obtain ⟨htext, hstored⟩ := hstores
    obtain ⟨text, htext⟩ := Option.ne_none_iff_exists'.mp htext
    refine ⟨text, ?_⟩
    cases outcome with
    | failed message => exact absurd rfl (hstored message)
    | stored | storedThenFailed message => simp [TokenStore.setex, htext]
  | _ => exact hstores.elim

theorem get_live {value : String} {expires : Nat} (h : S.entry = some (value, expires))
    (hlive : S.now < expires) : (S.get .kept).1 = .hit value := by
  have hvalue : S.live = some value := by simp [TokenStore.live, h, Option.filter, hlive]
  simp only [TokenStore.get, hvalue]

/-- What is kept after an operation has just been stored, or was kept and is not lost by it. -/
theorem stillStored_concat {x e : Nat × Event NetOp NetRes} (h : StillStored (tr ++ [x]) e) :
    (e = x ∧ x.2.1.Stores) ∨ (StillStored tr e ∧ ¬ x.2.1.Loses) := by
  obtain ⟨before, after, heq, hstores, hstill⟩ := h
  rcases List.eq_nil_or_concat after with rfl | ⟨after', y, rfl⟩
  · obtain ⟨-, hlast⟩ := List.append_inj' heq rfl
    cases hlast
    exact .inl ⟨rfl, hstores⟩
  · rw [List.concat_eq_append, ← List.cons_append, ← List.append_assoc] at heq
    obtain ⟨rfl, hlast⟩ := List.append_inj' heq rfl
    cases hlast
    rw [List.concat_eq_append] at hstill
    exact .inr ⟨⟨before, after', rfl, hstores, fun z hz => hstill z (List.mem_append_left _ hz)⟩,
      hstill x (List.mem_append_right _ List.mem_cons_self)⟩

theorem retained_next (hS : Retained settings S tr) (hg : g.Searched tr i)
    (hturn : TokenTurn settings call g o f) (he : netExec o S = .ok (r, S')) :
    Retained settings S' (tr ++ [(i, ⟨o, r⟩)]) := by
  obtain ⟨hnow, hlater⟩ := answered_now he
  refine ⟨fun value expires hentry => ?_, fun e hstill => ?_, hS.justified.concat ?_⟩
  · rcases entry_cases he with hsame | ⟨-, hgone⟩ | ⟨token, outcome, text, rfl, -, htext, hstored⟩
    · rw [hsame] at hentry
      exact hS.entry value expires hentry
    · rw [hgone] at hentry
      cases hentry
    · rw [hstored] at hentry
      cases hentry
      cases hturn with
      | store env method => exact encoded_ne_empty htext hg
  · rcases stillStored_concat hstill with ⟨rfl, hstores⟩ | ⟨hold, hstays⟩
    · obtain ⟨value, hentry⟩ := stored_entry he hstores
      exact ⟨(le_of_eq hnow).trans hlater, value, _, hentry, Nat.add_le_add_right (le_of_eq hnow) _⟩
    · obtain ⟨hbefore, value, expires, hentry, hlasts⟩ := hS.stored e hold
      refine ⟨hbefore.trans hlater, ?_⟩
      rcases entry_cases he with hsame | ⟨hloses, -⟩ | ⟨token, outcome, text, -, -, -, hstored⟩
      · exact ⟨value, expires, hsame.trans hentry, hlasts⟩
      · exact absurd hloses hstays
      · exact ⟨text, _, hstored, Nat.add_le_add_right hbefore _⟩
  · intro hasks
    cases hturn with
    | ask env method => exact hg
    | send env method value request outcome hauthorization => exact absurd hasks (send_not_asks hauthorization)
    | wait seconds => obtain ⟨outcome, heq⟩ := hasks; cases heq
    | read env method => obtain ⟨outcome, heq⟩ := hasks; cases heq
    | store env method token => obtain ⟨outcome, heq⟩ := hasks; cases heq

theorem searched_next (hS : Retained settings S tr) (hturn : TokenTurn settings call g o f)
    (he : netExec o S = .ok (r, S')) : (f r).Searched (tr ++ [(i, ⟨o, r⟩)]) i := by
  cases hturn with
  | wait seconds => trivial
  | send env method value request outcome hauthorization => trivial
  | store env method token => trivial
  | ask env method =>
    cases he
    show (TokenPlace.afterIssue (env.endpoint (tokenRequest settings))).Searched _ i
    rcases afterIssue_cases settings (env.endpoint (tokenRequest settings)) with
      hplace | ⟨token, hplace, -, -, -, -, htruthy⟩
    · rw [hplace]
      trivial
    · rw [hplace]
      exact htruthy
  | read env method =>
    cases he
    show (TokenPlace.afterRead (S.get env.read).1).Searched _ i
    rcases afterRead_cases (S.get env.read).1 with hplace | ⟨value, -, hplace⟩
    · rw [hplace]
      refine ⟨tr, env.read, _, [], rfl, fun hfound e hstill => ?_⟩
      obtain ⟨-, value, expires, hentry, hlasts⟩ := hS.stored e hstill
      -- a live entry would have been found
      by_contra hlate
      have hlive : S.now < expires := by
        have : ¬ answeredAt e + nombaTokenTtlSeconds ≤ S.now := hlate
        omega
      rw [hfound, get_live hentry hlive] at hplace
      simp [TokenPlace.afterRead, hS.entry value expires hentry] at hplace
    · rw [hplace]
      trivial

theorem searching_next {v v' : Protocol.View NetOp NetRes TokenStore NombaCall TokenPlace}
    {B : Assumption NetOp NetRes TokenStore NombaCall}
    (h : Protocol.Modular B (Retained settings) (fun _ tr i _ g => g.Searched tr i) v)
    (hn : (tokenProtocol settings).Next netExec B v v') :
    Protocol.Modular B (Retained settings) (fun _ tr i _ g => g.Searched tr i) v' := by
  refine Protocol.modular_next (fun _ _ _ _ _ _ _ => trivial) ?_ ?_ h hn
  · intro S tr i call g o f r S' _ hS hg hturn he _
    exact ⟨retained_next hS hg hturn he, searched_next hS hturn he⟩
  · intro S tr i call g o f r S' _ _ _ _ _ _ j call' g' _ _ hg'
    exact hg'.append _

end Justified

/-- However the calls interleave and wherever they are stopped: who asks for a token has read the cache
before, and that read raised, or redis had lost the value, or every token that redis kept till then was stored
at least the TTL earlier. -/
theorem token_requests_justified (settings : Settings) (now : Nat) {ms : List (Move NombaCall Err)}
    {P : Pool NetOp NetRes Err (Option Envelope) TokenStore NombaCall}
    (hplay : (Pool.init ⟨now, none⟩).play netExec (NombaCall.handler settings) ms = some P) :
    ∀ before e after, P.trace = before ++ e :: after → e.2.1.Asks settings → LookedInVain before e.1 := by
  have hretained : Retained settings ⟨now, none⟩ [] := by
    refine ⟨nofun, ?_, .nil⟩
    rintro e ⟨before, after, heq, -⟩
    simp at heq
  have hfree : (Pool.init ⟨now, none⟩).Meets netExec (NombaCall.handler settings)
      ⟨fun _ => True, fun _ _ _ _ _ => True⟩ ms :=
    Pool.meets_of_started (fun _ _ _ _ _ => trivial) fun _ _ => trivial
  obtain ⟨v, hv, hI⟩ := Protocol.play_invariant (fun call _ => follows_nomba call)
    (fun _ _ => searching_next) (Protocol.Views.init _) (Protocol.Modular.init hretained)
    hfree hplay
  have hjustified := hI.shared.justified
  rw [hv.trace] at hjustified
  exact hjustified

theorem token_requests_justified_used_twice : ∃ P,
    (Pool.init ⟨0, none⟩).play netExec (NombaCall.handler configured) usedTwice = some P ∧
      ∀ before e after, P.trace = before ++ e :: after → e.2.1.Asks configured → LookedInVain before e.1 := by
  obtain ⟨P, hplay⟩ := usedTwice_plays
  exact ⟨P, hplay, token_requests_justified configured 0 hplay⟩

end LdbBackend
