import LdbBackend.Concurrent.Frame
import LdbBackend.Lib.Contest
import LdbBackend.Payments.Wallet

/-!
# Deliveries of one payload at the same time

Nomba may deliver a payload again while an earlier delivery is still running. All of them pass the check of
the idempotency ledger and look the account up, which leaves nothing behind; then each tries to take the
request, by inserting the transaction or, for an event that is ignored, by inserting the mark. The keys of
the two tables let one of them through. So the deliveries are a contest (`duplicates_contest`), and together
they do what a single one does alone.
-/

namespace LdbBackend

open Fixed Effects

/-- The statement by which a delivery takes its request. -/
def Kind.Takes (k : Kind) : Op → Prop
  | .transactionCreate new => ∃ p, k = .payment new.nombaRequestId p
  | .processedCreate key _ => ∃ requestId eventType message,
      k = .other requestId eventType message ∧ key = requestId.text
  | _ => False

/-- The request has been taken. -/
def Kind.Taken (db : Tables) : Kind → Prop
  | .payment requestId _ => ∃ t ∈ db.transactions, t.nombaRequestId = requestId.text
  | .other requestId _ _ => ∃ e ∈ db.processedWebhookEvents, e.requestId = requestId.text
  | _ => False

def alreadyProcessed : Response := ⟨200, "Webhook already processed", .none⟩

/-- Deliveries of one payload, each with its own surroundings. -/
def duplicates (payload : Json) : Rules Op Res Tables Call Reply where
  entrant call := ∃ env, call = .receive env payload
  idle o := o.isQuery = true
  answers _ _ := True
  bid := (kindOf payload).Takes
  safe o := ∀ id, o ≠ .customerDelete id
  won db := (kindOf payload).Taken db
  waived reply := reply = .response alreadyProcessed

section Taking

variable {k : Kind} {db db' : Tables} {o : Op} {r : Res o}

theorem taken_of_takes (ho : k.Takes o) (he : exec o db = .ok (r, db')) : k.Taken db' := by
  cases o with
  | transactionCreate new =>
    obtain ⟨p, rfl⟩ := ho
    obtain ⟨hrow, -, -, rfl⟩ := createTransaction_ok_iff.mp he
    exact ⟨r, List.mem_append_right _ (List.mem_singleton.mpr rfl), (NewTransaction.row_ok hrow).request⟩
  | processedCreate key eventType =>
    obtain ⟨requestId, eventType', message, rfl, rfl⟩ := ho
    obtain ⟨-, -, -, rfl⟩ := createProcessedEvent_ok_iff.mp (written_ok_iff.mp he)
    exact ⟨_, List.mem_append_right _ (List.mem_singleton.mpr rfl), rfl⟩
  | _ => exact ho.elim

/-- The key of the table refuses a second one. -/
theorem takes_once (ho : k.Takes o) (htaken : k.Taken db) : exec o db ≠ .ok (r, db') := by
  intro he
  cases o with
  | transactionCreate new =>
    obtain ⟨p, rfl⟩ := ho
    obtain ⟨t, ht, hrequest⟩ := htaken
    obtain ⟨hrow, hnew, -, -⟩ := createTransaction_ok_iff.mp he
    exact hnew t ht (hrequest.trans (NewTransaction.row_ok hrow).request.symm)
  | processedCreate key eventType =>
    obtain ⟨requestId, eventType', message, rfl, rfl⟩ := ho
    obtain ⟨e, hmem, hrequest⟩ := htaken
    obtain ⟨-, -, hnew, -⟩ := createProcessedEvent_ok_iff.mp (written_ok_iff.mp he)
    exact hnew e hmem hrequest
  | _ => exact ho.elim

theorem transactions_grow (hsafe : ∀ id, o ≠ .customerDelete id) (he : exec o db = .ok (r, db')) :
    db.transactions <+: db'.transactions := by
  cases hw : o.writes .transactions with
  | false => rw [(exec_frame he).transactions hw]
  | true =>
    cases o with
    | transactionCreate new =>
      obtain ⟨-, -, -, rfl⟩ := createTransaction_ok_iff.mp he
      exact List.prefix_append _ _
    | customerDelete id => exact absurd rfl (hsafe id)
    | _ => cases hw

theorem Kind.Taken.next (htaken : k.Taken db) (hsafe : ∀ id, o ≠ .customerDelete id)
    (he : exec o db = .ok (r, db')) : k.Taken db' := by
  cases k with
  | payment requestId p =>
    obtain ⟨t, ht, hrequest⟩ := htaken
    exact ⟨t, (transactions_grow hsafe he).subset ht, hrequest⟩
  | other requestId eventType message =>
    obtain ⟨e, hmem, hrequest⟩ := htaken
    exact ⟨e, (exec_marks he).subset hmem, hrequest⟩
  | unreadable e => exact htaken.elim
  | broken requestId e => exact htaken.elim

end Taking

section Bids

variable {k : Kind} {R : Response → Prop}

abbrev Reads (k : Kind) {α : Type} (p : Handler α) : Prop :=
  p.Bids (·.isQuery = true) k.Takes (fun _ _ => True) fun _ => True

theorem reads_findByRef (r : Json) : Reads k (findByRef r) := by
  unfold findByRef
  split_ifs
  · exact .await rfl fun _ _ => .pure trivial
  · exact .pure trivial

theorem reads_findAccount (n : String) (r : Json) : Reads k (findAccount n r) := by
  unfold findAccount
  split_ifs
  · refine .await rfl fun account _ => ?_
    cases account with
    | none => exact reads_findByRef r
    | some account => exact .pure trivial
  · exact reads_findByRef r

/-- A payment is settled by taking its request first. -/
theorem settle_bids {env : Surroundings} {requestId payload : Json} {p p' : Payment} {eventType : String}
    (hk : k = .payment requestId p') :
    (settlePayment env requestId eventType payload p).Bids (·.isQuery = true) k.Takes
      (fun _ _ => True) fun _ => False := by
  refine (reads_findAccount p.aliasAccountNumber p.aliasAccountReference).bind fun account _ => ?_
  cases account with
  | none => exact .bid ⟨p', hk⟩
  | some account =>
    refine .await rfl fun customer _ => ?_
    split_ifs
    · exact .bid ⟨p', hk⟩
    · cases customer with
      | none => exact .raise
      | some customer => exact .bid ⟨p', hk⟩

theorem guarded_bids {requestId : Json} {rest : Handler Response}
    (h : rest.Bids (·.isQuery = true) k.Takes (fun _ _ => True) (· = alreadyProcessed)) :
    (guarded requestId rest).Bids (·.isQuery = true) k.Takes (fun _ _ => True) (· = alreadyProcessed) := by
  refine .await rfl fun processed _ => ?_
  cases processed with
  | true => exact .pure rfl
  | false => exact h

theorem receive_bids (env : Surroundings) (payload : Json) :
    (receive env payload).Bids (·.isQuery = true) (kindOf payload).Takes (fun _ _ => True) (· = alreadyProcessed) := by
  rw [receive_eq]
  cases hk : kindOf payload with
  | unreadable e => exact .raise
  | broken requestId e => exact guarded_bids .raise
  | other requestId eventType message =>
    exact guarded_bids (.bid ⟨requestId, eventType, message, rfl, rfl⟩)
  | payment requestId p => exact guarded_bids ((settle_bids rfl).bind fun _ hfalse => hfalse.elim)

end Bids

theorem receive_safe (env : Surroundings) (payload : Json) :
    (Call.receive env payload).handler.All fun o => ∀ id, o ≠ .customerDelete id := by
  refine (@follows_handler (.receive env payload) trivial).all fun g o f turn id ho => ?_
  subst ho
  cases turn with
  | wait waits silent => cases silent

theorem duplicates_contest (payload : Json) : Contest exec Call.handler (duplicates payload) where
  idle_keeps _ _ _ _ ho he := exec_query ho he
  answered _ _ _ _ _ _ := trivial
  wins _ _ _ _ ho he := taken_of_takes ho he
  once _ _ _ _ ho htaken := takes_once ho htaken
  stays _ _ _ _ hsafe htaken he := htaken.next hsafe he
  bids call hcall := by
    obtain ⟨env, rfl⟩ := hcall
    exact (receive_bids env payload).map fun _ ha => congrArg Reply.response ha
  safe call hcall := by
    obtain ⟨env, rfl⟩ := hcall
    exact receive_safe env payload

/-! ## Every schedule -/

section Schedule

variable (payload : Json) (db : Tables) (ms : List (Move Call Err))
  (hstarted : ∀ call ∈ Pool.started ms, ∃ env, call = .receive env payload)
  (P : Pool Op Res Err Reply Tables Call) (hplay : play db ms = some P)

include hstarted hplay

/-- Deliveries of one payload, in any number, interleaved in any order and killed anywhere: the tables are
always those that a single one of them leaves when it runs alone and is stopped somewhere. -/
theorem duplicates_stopped : P.state = db ∨ ∃ call ∈ Pool.started ms, ∃ n, ∀ e,
    P.state = (Prog.run exec (Prog.cut e n call.handler) db).2 :=
  Contest.contest_stopped (duplicates_contest payload) hstarted hplay

/-- When none is killed and all have ended, the tables are those that one of them leaves alone; it has ended
as it does alone, and every other was refused or has found the request processed. -/
theorem duplicates_as_one (hcalm : ∀ i e, .kill i e ∉ ms) (hended : ∀ t ∈ P.threads, t.2.verdict ≠ none)
    (hsome : P.threads ≠ []) :
    ∃ (i : Nat) (call : Call) (q : Handler Reply), P.threads[i]? = some (call, q) ∧
      q.verdict = some (Prog.run exec call.handler db).1 ∧ P.state = (Prog.run exec call.handler db).2 ∧
      ∀ (j : Nat) call' p, j ≠ i → P.threads[j]? = some (call', p) →
        (∃ e, p = .raise e) ∨ p = .pure (.response alreadyProcessed) := by
  obtain ⟨i, call, q, hi, hverdict, hstate, hothers⟩ :=
    Contest.contest_ended (duplicates_contest payload) hstarted hcalm hplay hended hsome
  refine ⟨i, call, q, hi, hverdict, hstate, fun j call' p hji hj => ?_⟩
  rcases hothers j call' p hji hj with hraised | ⟨a, rfl, ha⟩
  · exact .inl hraised
  · exact .inr (congrArg Prog.pure ha)

end Schedule

/-- Two deliveries that both pass the check and come to the insert; the second is faster. -/
def twoAtOnce : List (Move Call Err) :=
  [.start (.receive quiet (samplePayment "R1" "9901" 5)), .start (.receive quiet (samplePayment "R1" "9901" 5)),
    .advance 0, .advance 1, .advance 0, .advance 1, .advance 0, .advance 1, .advance 1, .advance 0] ++
    List.replicate 5 (.advance 1)

theorem twoAtOnce_started : ∀ call ∈ Pool.started twoAtOnce, ∃ env,
    call = .receive env (samplePayment "R1" "9901" 5) := by
  intro call hcall
  rcases List.mem_cons.mp hcall with rfl | hcall
  · exact ⟨quiet, rfl⟩
  · cases List.mem_singleton.mp hcall
    exact ⟨quiet, rfl⟩

theorem duplicates_as_one_for_two : ∃ P, play (provisioned none).tables twoAtOnce = some P ∧
    ∃ (i : Nat) (call : Call) (q : Handler Reply), P.threads[i]? = some (call, q) ∧
      q.verdict = some (Prog.run exec call.handler (provisioned none).tables).1 ∧
      P.state = (Prog.run exec call.handler (provisioned none).tables).2 ∧
      ∀ (j : Nat) call' p, j ≠ i → P.threads[j]? = some (call', p) →
        (∃ e, p = .raise e) ∨ p = .pure (.response alreadyProcessed) := by
  refine ⟨_, rfl, duplicates_as_one (samplePayment "R1" "9901" 5) _ twoAtOnce twoAtOnce_started _ rfl ?_ ?_ ?_⟩
  · intro i e h
    simp [twoAtOnce] at h
  · intro t ht
    rcases List.mem_cons.mp ht with rfl | ht
    · nofun
    · cases List.mem_singleton.mp ht
      nofun
  · nofun

/-- The faster of two deliveries, killed behind its insert. -/
def killedAtOnce : List (Move Call Err) := twoAtOnce.take 10 ++ [.kill 1 .cancelled]

theorem duplicates_stopped_for_two : ∃ P, play (provisioned none).tables killedAtOnce = some P ∧
    (P.state = (provisioned none).tables ∨ ∃ call ∈ Pool.started killedAtOnce, ∃ n, ∀ e,
      P.state = (Prog.run exec (Prog.cut e n call.handler) (provisioned none).tables).2) :=
  ⟨_, rfl, duplicates_stopped (samplePayment "R1" "9901" 5) _ killedAtOnce twoAtOnce_started _ rfl⟩

end LdbBackend
