import LdbBackend.Concurrent.Frame
import LdbBackend.History.Identity
import LdbBackend.Lib.Contest

/-!
# Submissions of one request at the same time

A merchant may send a creation twice, and the second may run while the first is waiting for Nomba. The
checks of both then pass, and the unique keys of the tables let one of them through: of the customers on
merchant and external id, of the accounts on the reference. So creations of one customer that keep the
customer, and provisionings of one account, are contests.
-/

namespace LdbBackend

open Fixed Effects Table CustomerService Pool

/-! ## Creations -/

/-- Creations of one customer, each with the reply of Nomba to it. -/
def creations (body : CreateCustomerRequest) (merchantId : UUID) : Rules Op Res Tables Call Reply where
  entrant call := ∃ nomba, Stays nomba ∧ call = .create body merchantId nomba
  idle o := o.isQuery = true
  answers _ _ := True
  bid o := o = .customerCreate (newCustomer body merchantId)
  safe o := o.writes .customers = false ∨ ∃ new, o = .customerCreate new
  won db := ∃ c ∈ db.customers, c.merchantId = merchantId ∧ c.merchantCustomerId = body.merchantCustomerId
  waived _ := False

section Creations

variable {body : CreateCustomerRequest} {merchantId : UUID} {nomba : NombaOutcome}

theorem create_bids (nomba : NombaOutcome) : (create body merchantId nomba).Bids (creations body merchantId).idle
    (creations body merchantId).bid (creations body merchantId).answers fun _ => False := by
  rw [create_eq]
  refine .idle rfl fun existing _ => ?_
  split_ifs
  · exact .raise
  · refine .idle rfl fun existingAccount _ => ?_
    split_ifs
    · exact .raise
    · exact .bid rfl

/-- A creation that keeps the customer removes none. -/
theorem create_safe (hstays : Stays nomba) :
    (create body merchantId nomba).All (creations body merchantId).safe := by
  have hprovision : ∀ customer data, Stays (.success data) →
      (provision body customer data).All (creations body merchantId).safe := by
    intro customer data hdata
    unfold provision
    cases hn : accountNumberOf data with
    | error e => trivial
    | ok accountNumber =>
      simp only [Prog.lift_ok, Prog.pure_bind', hdata accountNumber hn, Bool.not_true, Bool.false_eq_true, if_false]
      cases nombaVaIdOf data with
      | error e => trivial
      | ok nombaVaId => exact ⟨.inl rfl, fun _ => ⟨.inl rfl, fun _ => trivial⟩⟩
  rw [create_eq]
  refine ⟨.inl rfl, fun existing => ?_⟩
  beta_reduce
  split_ifs
  · trivial
  · refine ⟨.inl rfl, fun existingAccount => ?_⟩
    beta_reduce
    split_ifs
    · trivial
    · refine ⟨.inr ⟨_, rfl⟩, fun customer => ⟨.inl rfl, fun _ => ?_⟩⟩
      cases nomba with
      | raised e => trivial
      | failure message => exact hstays.elim
      | success data => exact hprovision customer data hstays

theorem creations_contest (body : CreateCustomerRequest) (merchantId : UUID) :
    Contest exec Call.handler (creations body merchantId) where
  idle_keeps _ _ _ _ ho he := exec_query ho he
  answered _ _ _ _ _ _ := trivial
  wins o db r db' ho he := by
    cases ho
    obtain ⟨row, hrow, -, -, rfl⟩ := createCustomer_ok_iff.mp he
    obtain ⟨-, hmerchant, hexternal, -⟩ := NewCustomer.row_ok hrow
    exact ⟨row, by simp, hmerchant, hexternal⟩
  once o db r db' ho hwon he := by
    cases ho
    obtain ⟨c, hc, hmerchant, hexternal⟩ := hwon
    obtain ⟨row, hrow, hnew, -, -⟩ := createCustomer_ok_iff.mp he
    obtain ⟨-, hm, hx, -⟩ := NewCustomer.row_ok hrow
    exact hnew c hc (by rw [hmerchant, hexternal, hm, hx]; rfl)
  stays o db r db' hsafe hwon he := by
    obtain ⟨c, hc, hkey⟩ := hwon
    refine ⟨c, ?_, hkey⟩
    rcases hsafe with hkept | ⟨new, rfl⟩
    · rwa [(exec_frame he).customers hkept]
    · obtain ⟨row, -, -, -, rfl⟩ := createCustomer_ok_iff.mp he
      exact List.mem_append_left _ hc
  bids call hcall := by
    obtain ⟨nomba, -, rfl⟩ := hcall
    exact (create_bids nomba).map fun _ hfalse => hfalse
  safe call hcall := by
    obtain ⟨nomba, hstays, rfl⟩ := hcall
    show (Reply.response <$> create body merchantId nomba).All _
    rw [map_eq_pure_bind]
    exact (create_safe hstays).bind fun _ => trivial

end Creations

/-! ## Accounts for a customer -/

/-- The customer that a lookup by external id yields has that id. -/
def Fetches : (o : Op) → Res o → Prop
  | .customerByExternalId _ externalId, found => ∀ c, found = some c → c.merchantCustomerId = externalId
  | _, _ => True

/-- Provisionings of an account for one customer, each with the reply of Nomba to it. -/
def dedications (body : CreateDedicatedAccountRequest) (merchantId : UUID) : Rules Op Res Tables Call Reply where
  entrant call := ∃ nomba, call = .createDedicated body merchantId nomba
  idle o := o.isQuery = true
  answers := Fetches
  bid o := ∃ new, o = .accountCreate new ∧ new.accountRef = body.merchantCustomerId
  safe o := o.isQuery = true ∨ ∃ new, o = .accountCreate new
  won db := ∃ a ∈ db.dedicatedAccounts, a.accountRef = body.merchantCustomerId
  waived _ := False

section Dedications

variable {body : CreateDedicatedAccountRequest} {merchantId : UUID}

theorem fetches_answer {o : Op} {db db' : Tables} {r : Res o} (he : exec o db = .ok (r, db')) : Fetches o r := by
  cases o with
  | customerByExternalId m externalId =>
    intro c hc
    subst hc
    obtain ⟨row, -, hkey, rfl⟩ := getOrNone_load (answered_ok_iff.mp he).1
    exact (of_decide_eq_true hkey).2
  | _ => trivial

theorem dedicate_bids {customer : Customer Decimal} (hname : customer.merchantCustomerId = body.merchantCustomerId)
    (accountName : String) (data : Json) : (dedicate customer accountName data).Bids
    (dedications body merchantId).idle (dedications body merchantId).bid (dedications body merchantId).answers
    fun _ => False := by
  unfold dedicate
  cases accountNumberOf data with
  | error e => exact .raise
  | ok accountNumber =>
    simp only [Prog.lift_ok, Prog.pure_bind']
    split_ifs
    · exact .raise
    · cases nombaVaIdOf data with
      | error e => exact .raise
      | ok nombaVaId => exact .bid ⟨_, rfl, hname⟩

theorem createDedicated_bids (nomba : NombaOutcome) : (AccountService.createDedicated body merchantId nomba).Bids
    (dedications body merchantId).idle (dedications body merchantId).bid (dedications body merchantId).answers
    fun _ => False := by
  refine .await rfl fun found hfound => ?_
  cases found with
  | none => exact .raise
  | some customer =>
    have hname : customer.merchantCustomerId = body.merchantCustomerId := hfound customer rfl
    refine .await rfl fun existing _ => ?_
    split_ifs
    · exact .raise
    · refine .await rfl fun _ _ => ?_
      cases nomba with
      | raised e => exact .raise
      | failure message => exact .raise
      | success data => exact dedicate_bids hname _ data

theorem dedications_contest (body : CreateDedicatedAccountRequest) (merchantId : UUID) :
    Contest exec Call.handler (dedications body merchantId) where
  idle_keeps _ _ _ _ ho he := exec_query ho he
  answered _ _ _ _ _ he := fetches_answer he
  wins o db r db' ho he := by
    obtain ⟨new, rfl, href⟩ := ho
    obtain ⟨hrow, -, -, rfl⟩ := createAccount_ok_iff.mp he
    obtain ⟨-, -, -, hr, -⟩ := NewAccount.row_ok hrow
    exact ⟨r, by simp, hr.trans href⟩
  once o db r db' ho hwon he := by
    obtain ⟨new, rfl, href⟩ := ho
    obtain ⟨a, ha, haref⟩ := hwon
    obtain ⟨hrow, hnew, -, -⟩ := createAccount_ok_iff.mp he
    obtain ⟨-, -, -, hr, -⟩ := NewAccount.row_ok hrow
    exact (hnew a ha).2 (haref.trans (hr.trans href).symm)
  stays o db r db' hsafe hwon he := by
    obtain ⟨a, ha, href⟩ := hwon
    refine ⟨a, ?_, href⟩
    rcases hsafe with hquery | ⟨new, rfl⟩
    · rwa [exec_query hquery he]
    · obtain ⟨-, -, -, rfl⟩ := createAccount_ok_iff.mp he
      exact List.mem_append_left _ ha
  bids call hcall := by
    obtain ⟨nomba, rfl⟩ := hcall
    exact (createDedicated_bids nomba).map fun _ hfalse => hfalse
  safe call hcall := by
    obtain ⟨nomba, rfl⟩ := hcall
    show (Reply.response <$> AccountService.createDedicated body merchantId nomba).All _
    rw [map_eq_pure_bind]
    refine Prog.All.bind ((createDedicated_all body merchantId nomba).imp fun o ho => ?_) fun _ => trivial
    cases o with
    | accountCreate new => exact .inr ⟨new, rfl⟩
    | _ => exact .inl ho

end Dedications

/-! ## Every schedule -/

/-- One of the calls has ended as it does alone, the tables are those that it leaves alone, and every other
call was refused. -/
def OneAsAlone (db : Tables) (P : Pool Op Res Err Reply Tables Call) : Prop :=
  ∃ (i : Nat) (call : Call) (q : Handler Reply), P.threads[i]? = some (call, q) ∧
    q.verdict = some (Prog.run exec call.handler db).1 ∧ P.state = (Prog.run exec call.handler db).2 ∧
    ∀ (j : Nat) call' p, j ≠ i → P.threads[j]? = some (call', p) → ∃ e, p = .raise e

section Schedule

variable (merchantId : UUID) (db : Tables) (ms : List (Move Call Err)) (P : Pool Op Res Err Reply Tables Call)
  (hplay : play db ms = some P) (hcalm : ∀ i e, .kill i e ∉ ms) (hended : ∀ t ∈ P.threads, t.2.verdict ≠ none)
  (hsome : P.threads ≠ [])

include hplay hcalm hended hsome

theorem one_as_alone {C : Rules Op Res Tables Call Reply} (hC : Contest exec Call.handler C)
    (hstarted : ∀ call ∈ started ms, C.entrant call) (hwaived : ∀ reply, ¬ C.waived reply) :
    OneAsAlone db P := by
  obtain ⟨i, call, q, hi, hverdict, hstate, hothers⟩ :=
    Contest.contest_ended hC hstarted hcalm hplay hended hsome
  refine ⟨i, call, q, hi, hverdict, hstate, fun j call' p hji hj => ?_⟩
  rcases hothers j call' p hji hj with hraised | ⟨a, -, ha⟩
  · exact hraised
  · exact absurd ha (hwaived a)

/-- Creations of one customer, in any number and interleaved in any order, none of them taken back for a
reply of Nomba: they do what one of them does alone, and every other is refused. -/
theorem creations_as_one (body : CreateCustomerRequest)
    (hstarted : ∀ call ∈ started ms, ∃ nomba, Stays nomba ∧ call = .create body merchantId nomba) :
    OneAsAlone db P :=
  one_as_alone db ms P hplay hcalm hended hsome (creations_contest body merchantId) hstarted fun _ => id

/-- Requests for the account of one customer, with any replies of Nomba: they do what one of them does
alone, and every other is refused. -/
theorem dedications_as_one (body : CreateDedicatedAccountRequest)
    (hstarted : ∀ call ∈ started ms, ∃ nomba, call = .createDedicated body merchantId nomba) :
    OneAsAlone db P :=
  one_as_alone db ms P hplay hcalm hended hsome (dedications_contest body merchantId) hstarted fun _ => id

end Schedule

/-! ## Two at a time -/

/-- Both pass the two checks; from there the second is faster. -/
def sentTwice (call : Call) : List (Move Call Err) :=
  [.start call, .start call, .advance 0, .advance 1, .advance 0, .advance 1, .advance 1, .advance 1, .advance 1,
    .advance 0]

def adaRequest : CreateCustomerRequest := ⟨"cust-1", "Ada", none, none, none, []⟩

def adaData : Json := .obj [("accountNumber", .str "9901")]

theorem adaData_stays : Stays (.success adaData) := by
  intro n hn
  cases hn
  rfl

def creationTwice : List (Move Call Err) :=
  sentTwice (.create adaRequest 7 (.success adaData)) ++ [.advance 1]

theorem creations_as_one_for_two : ∃ P, play .empty creationTwice = some P ∧ OneAsAlone .empty P := by
  refine ⟨_, rfl, creations_as_one 7 _ creationTwice _ rfl ?_ ?_ ?_ adaRequest fun call hcall => ?_⟩
  · simp [creationTwice, sentTwice]
  · intro t ht
    rcases List.mem_cons.mp ht with rfl | ht
    · nofun
    · cases List.mem_singleton.mp ht
      nofun
  · nofun
  · exact ⟨_, adaData_stays, by simpa [creationTwice, sentTwice, started] using hcall⟩

/-- A customer without an account: Nomba raised when it was created. -/
def accountless : Tables := stateAfter (create adaRequest 7 (.raised (.runtimeError ""))) .empty

def dedicationTwice : List (Move Call Err) :=
  sentTwice (.createDedicated ⟨"cust-1", none⟩ 7 (.success adaData)) ++ [.advance 0]

theorem dedications_as_one_for_two : ∃ P, play accountless dedicationTwice = some P ∧ OneAsAlone accountless P := by
  refine ⟨_, rfl, dedications_as_one 7 _ dedicationTwice _ rfl ?_ ?_ ?_ ⟨"cust-1", none⟩ fun call hcall => ?_⟩
  · simp [dedicationTwice, sentTwice]
  · intro t ht
    rcases List.mem_cons.mp ht with rfl | ht
    · nofun
    · cases List.mem_singleton.mp ht
      nofun
  · nofun
  · exact ⟨_, by simpa [dedicationTwice, sentTwice, started] using hcall⟩

end LdbBackend
