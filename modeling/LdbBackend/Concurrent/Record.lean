import LdbBackend.Concurrent.Frame
import LdbBackend.Payments.Wallet

/-!
# A marked payment is completely recorded

A delivery writes the transaction, then the suspense entry or the wallet, then the decision, and the
mark last. Several deliveries of one request may be in flight and die anywhere, but only the one that
won the insert comes to the mark: `Progress` ties each place of a call to the rows it has written, and
`Recorded` is what is left of it when the request is marked.
-/

namespace LdbBackend

open Fixed Effects Table

/-- Program `i` has saved the owner of the transaction's account, with the amount added to the balance it had
read. -/
def Saved (s : Tables) (tr : Trace) (i : Nat) (t : Transaction) : Prop :=
  ∃ a ∈ s.dedicatedAccounts, ∃ (customer : Customer Decimal) (amount : Decimal) (u : Unit),
    t.dedicatedAccountId = some a.id ∧ customer.id = a.customerId ∧ decimalField amount = .ok t.amount ∧
    (i, (⟨.customerSave { customer with walletBalance := customer.walletBalance + amount }, u⟩ : Event Op Res)) ∈ tr

/-- Deliveries only, and each request names one payload. -/
def redeliveries (payloadOf : String → Json) : Assumption Op Res Tables Call where
  call
    | .receive _ payload => ∀ requestId, (kindOf payload).key = some requestId →
        payload = payloadOf requestId
    | _ => False
  step _ _ _ _ _ := True

/-- The decisions of `process_payment` about a transaction. -/
def Tables.decisionsOf (db : Tables) (t : Transaction) : List ReconciliationLog :=
  (db.logsOf t).filter (·.decision ≠ .safetyNetMatch)

/-- The payment of the request is completely recorded, by transaction `t` and decision `l`; `credited`
are the transactions whose wallet was saved before the schedule. -/
structure Recorded (credited : Transaction → Prop) (s : Tables) (tr : Trace) (requestId : String)
    (t : Transaction) (l : ReconciliationLog) : Prop where
  transaction : t ∈ s.transactions
  request : t.nombaRequestId = requestId
  only : ∀ u ∈ s.transactions, u.nombaRequestId = requestId → u = t
  decision : s.decisionsOf t = [l]
  placed : s.suspenseOf t ≠ [] ∨ credited t ∨ ∃ i, Created tr i t ∧ Saved s tr i t

def Progress (s : Tables) (tr : Trace) (i : Nat) : Place → Prop
  | .held t _ | .inserted _ _ t => s.decisionsOf t = []
  | .suspended t _ => s.decisionsOf t = [] ∧ s.suspenseOf t ≠ []
  | .credited t => s.decisionsOf t = [] ∧ Saved s tr i t
  | .logged t | .settled t => ∃ l, s.decisionsOf t = [l] ∧ (s.suspenseOf t ≠ [] ∨ Saved s tr i t)
  | _ => True

/-- Every mark of a payment is of a recorded one. -/
def MarksRecorded (payloadOf : String → Json) (credited : Transaction → Prop) (s : Tables)
    (tr : Trace) : Prop :=
  ∀ e ∈ s.processedWebhookEvents, ∀ requestId p, kindOf (payloadOf e.requestId) = .payment requestId p →
    ∃ t l, Recorded credited s tr e.requestId t l

/-- The invariant; `kept` are records that have to stay. -/
structure Marked (payloadOf : String → Json) (credited : Transaction → Prop)
    (kept : String → Transaction → ReconciliationLog → Prop) (s : Tables) (tr : Trace) : Prop where
  marks : MarksRecorded payloadOf credited s tr
  kept : ∀ requestId t l, kept requestId t l → Recorded credited s tr requestId t l

section Step

variable {payloadOf : String → Json} {credited : Transaction → Prop}
  {kept : String → Transaction → ReconciliationLog → Prop} {s s' : Tables} {tr : Trace} {i j : Nat}
  {call : Call} {g : Place} {o : Op} {f : Res o → Place} {r : Res o} {t u : Transaction}
  {l : ReconciliationLog}

theorem redeliveries_harmless : Harmless (redeliveries payloadOf) := by
  intro call s tr i id hcall _ g f turn
  cases turn with
  | wait waits silent => cases silent
  | compensate => exact hcall.elim

theorem Saved.keeps (h : Saved s tr j t) (ht : t ∈ s.transactions) (hk : Keeps s s') (e : Nat × Event Op Res) :
    Saved s' (tr ++ [e]) j t := by
  obtain ⟨a, ha, customer, amount, v, haccount, howner, hamount, hmem⟩ := h
  obtain ⟨b, hb, hkeys⟩ := hk.paid a ha t ht haccount
  exact ⟨b, hb, customer, amount, v, keys_id hkeys ▸ haccount, howner.trans (keys_owner hkeys).symm, hamount,
    List.mem_append_left _ hmem⟩

/-- A save of the owner of the account that the transaction is booked on, whose keys the call knows. -/
theorem saved_of_save {account : DedicatedAccount} {customer : Customer Decimal} {amount : Decimal} {v : Unit}
    (hc : s.Constraints) (hk : Keeps s s') (ht : t ∈ s.transactions) (hknown : Known s account)
    (haccount : t.dedicatedAccountId = some account.id) (howner : customer.id = account.customerId)
    (hamount : decimalField amount = .ok t.amount) : Saved s' (tr ++ [(i,
      ⟨.customerSave { customer with walletBalance := customer.walletBalance + amount }, v⟩)]) i t := by
  obtain ⟨a, ha, hid⟩ := hc.transaction_fk t ht account.id haccount
  obtain ⟨b, hb, hkept⟩ := hk.paid a ha t ht (hid ▸ haccount)
  refine ⟨b, hb, customer, amount, v, ?_, ?_, hamount, List.mem_append_right _ (List.mem_singleton.mpr rfl)⟩
  · rw [haccount, keys_id hkept, hid]
  · rw [howner, keys_owner hkept, keys_owner (hknown.keys a ha hid)]

theorem suspended_keeps (hk : Keeps s s') (h : s.suspenseOf t ≠ []) : s'.suspenseOf t ≠ [] := by
  obtain ⟨l, hl⟩ := List.exists_mem_of_ne_nil _ h
  obtain ⟨hmem, hid⟩ := List.mem_filter.mp hl
  exact List.ne_nil_of_mem (List.mem_filter.mpr ⟨hk.suspenseLogs.subset hmem, hid⟩)

/-- A decision is logged about a transaction the call has inserted, which had none. -/
theorem logs_own (ha : Acts (redeliveries payloadOf) s tr i call g o f r s')
    (hp : Progress s tr i g) {new : NewReconciliationLog} (ho : o = .reconciliationLogCreate new) :
    Created tr i new.transaction ∧ s.decisionsOf new.transaction = [] := by
  subst ho
  have hstanding := ha.standing
  have hstarted := ha.started
  cases ha.turn with
  | wait waits silent => cases silent
  | logSuspense kind => exact ⟨hstanding.1, hp.1⟩
  | logCredit transaction decision => exact transaction ▸ ⟨hstanding.1, hp.1⟩
  | logMatch transaction => exact hstarted.elim

/-- The decisions about other transactions stay. -/
theorem decisionsOf_other (ha : Acts (redeliveries payloadOf) s tr i call g o f r s')
    (hu : ∀ new, o = .reconciliationLogCreate new → new.transaction.id ≠ u.id) :
    s'.decisionsOf u = s.decisionsOf u := by
  cases hw : o.writes .reconciliationLogs with
  | false =>
    unfold Tables.decisionsOf Tables.logsOf
    rw [(exec_frame ha.run).reconciliationLogs hw]
  | true =>
    have hturn := ha.turn
    have hstarted := ha.started
    have hrun := ha.run
    cases o with
    | customerDelete id =>
      cases hturn with
      | wait waits silent => cases silent
      | compensate => exact hstarted.elim
    | reconciliationLogCreate new =>
      obtain ⟨l, hrow, -, rfl⟩ := createReconciliationLog_ok_iff.mp (written_ok_iff.mp hrun)
      obtain ⟨_, _, -, -, rfl⟩ := NewReconciliationLog.row_ok_iff.mp hrow
      have hne := hu new rfl
      simp [Tables.decisionsOf, Tables.logsOf, List.filter_append, hne]
    | _ => cases hw

theorem decisionsOf_decided {new : NewReconciliationLog} (h : s.decisionsOf new.transaction = [])
    (hdecision : new.decision ≠ .safetyNetMatch) (he : s.createReconciliationLog new = .ok s') :
    ∃ l, s'.decisionsOf new.transaction = [l] := by
  obtain ⟨l, hrow, -, rfl⟩ := createReconciliationLog_ok_iff.mp he
  have hl : l.transactionId = new.transaction.id ∧ l.decision ≠ .safetyNetMatch := by
    obtain ⟨_, _, -, -, rfl⟩ := NewReconciliationLog.row_ok_iff.mp hrow
    exact ⟨rfl, hdecision⟩
  refine ⟨l, ?_⟩
  unfold Tables.decisionsOf Tables.logsOf at h ⊢
  rw [List.filter_append, List.filter_append, h]
  simp [hl.1, hl.2]

theorem decisionsOf_same (h : t.id = u.id) : s.decisionsOf t = s.decisionsOf u := by
  unfold Tables.decisionsOf Tables.logsOf
  rw [h]

/-- What is recorded stays recorded. -/
theorem Recorded.next (h : Recorded credited s tr requestId t l)
    (ha : Acts (redeliveries payloadOf) s tr i call g o f r s') (hp : Progress s tr i g) :
    Recorded credited s' (tr ++ [(i, ⟨o, r⟩)]) requestId t l := by
  have hmem := ha.keeps.transactions.subset h.transaction
  refine ⟨hmem, h.request, fun u hu hreq => ?_, ?_, ?_⟩
  · have hunique := (exec_constraints ha.shared.constraints ha.run).transaction_request
    exact eq_of_key hunique hu hmem (hreq.trans h.request.symm)
  · rw [decisionsOf_other ha fun new ho hid => ?_]
    · exact h.decision
    · have hnone := (logs_own ha hp ho).2
      rw [decisionsOf_same hid, h.decision] at hnone
      cases hnone
  · rcases h.placed with hheld | hbefore | ⟨k, hcreated, hsaved⟩
    · exact .inl (suspended_keeps ha.keeps hheld)
    · exact .inr (.inl hbefore)
    · exact .inr (.inr ⟨k, hcreated.append _, hsaved.keeps h.transaction ha.keeps _⟩)

/-- The turn of one call leaves the progress of the others. -/
theorem progress_other (ha : Acts (redeliveries payloadOf) s tr i call g o f r s')
    (hp : Progress s tr i g) {call' : Call} {g' : Place} (hji : j ≠ i)
    (hj : Standing s tr j call' g') (hpj : Progress s tr j g') :
    Progress s' (tr ++ [(i, ⟨o, r⟩)]) j g' := by
  have hlogs : ∀ t, Created tr j t → s'.decisionsOf t = s.decisionsOf t := by
    intro t ht
    refine decisionsOf_other ha fun new ho hid => hji ?_
    exact ha.shared.owner j i t new.transaction ht (logs_own ha hp ho).1 hid.symm
  have hsaved : ∀ t, Created tr j t → Saved s tr j t → Saved s' (tr ++ [(i, ⟨o, r⟩)]) j t := fun t hcreated ht =>
    ht.keeps (ha.shared.created j t hcreated) ha.keeps _
  cases g' with
  | held t _ => exact (hlogs t hj.1).trans hpj
  | inserted _ _ t => exact (hlogs t hj.2.2.2.1).trans hpj
  | suspended t _ => exact ⟨(hlogs t hj.1).trans hpj.1, suspended_keeps ha.keeps hpj.2⟩
  | credited t => exact ⟨(hlogs t hj.1).trans hpj.1, hsaved t hj.1 hpj.2⟩
  | logged t | settled t =>
    obtain ⟨l, hl, ht⟩ := hpj
    exact ⟨l, (hlogs t hj.1).trans hl, ht.imp (suspended_keeps ha.keeps) (hsaved t hj.1)⟩
  | _ => trivial

/-- Nothing is logged about a transaction just inserted. -/
theorem decisionsOf_inserted (hc : s.Constraints) {new : NewTransaction}
    (he : s.createTransaction new = .ok (t, s')) : s'.decisionsOf t = [] := by
  obtain ⟨hrow, -, -, rfl⟩ := createTransaction_ok_iff.mp he
  have hnone : s.logsOf t = [] := logsOf_new hc (NewTransaction.row_ok hrow).id
  show (s.logsOf t).filter _ = []
  rw [hnone]
  rfl

/-- A call that acts makes progress. -/
theorem progress_next (ha : Acts (redeliveries payloadOf) s tr i call g o f r s')
    (hp : Progress s tr i g) : Progress s' (tr ++ [(i, ⟨o, r⟩)]) i (f r) := by
  have hrun := ha.run
  have hstarted := ha.started
  have hc := ha.shared.constraints
  have hlogs := fun u => @decisionsOf_other payloadOf s s' tr i call g o f r u ha
  have hkeeps := ha.keeps
  have hstanding := ha.standing
  have hcreated := ha.shared.created i
  cases ha.turn with
  | wait waits silent =>
    have hs := exec_query (isQuery_of_silent silent) hrun
    subst hs
    cases g with
    | settled t =>
      obtain ⟨l, hl, ht⟩ := hp
      exact ⟨l, hl, ht.imp id (·.keeps (hcreated t hstanding.1) hkeeps _)⟩
    | _ => trivial
  | check key =>
    cases r with
    | true => trivial
    | false =>
      rcases opening_cases (kindOf _) with hg | hg | hg
      all_goals exact hg ▸ trivial
  | byNumber kind =>
    cases r with
    | none => rcases byRef_cases _ with hg | hg <;> exact hg ▸ trivial
    | some a => trivial
  | byReference kind => cases r <;> trivial
  | hold kind holding => exact decisionsOf_inserted hc hrun
  | insert kind active => exact decisionsOf_inserted hc hrun
  | @suspend env payload requestId p t reason kind =>
    refine ⟨(hlogs t fun new ho => by cases ho).trans hp, ?_⟩
    obtain ⟨n, -, -, rfl⟩ := createSuspenseLog_ok_iff.mp (written_ok_iff.mp hrun)
    unfold Tables.suspenseOf
    simp
  | @logSuspense env payload requestId p t reason kind =>
    have hquarantine : (suspenseLog t p reason).decision ≠ .safetyNetMatch := nofun
    obtain ⟨l, hl⟩ := decisionsOf_decided hp.1 hquarantine (written_ok_iff.mp hrun)
    exact ⟨l, hl, .inl (suspended_keeps hkeeps hp.2)⟩
  | @save env payload requestId p account customer t kind =>
    obtain ⟨hknown, howner, haccount, hinserted, hpays⟩ := hstanding
    have hamount : decimalField p.amount = .ok t.amount := by
      cases hpays with
      | intro kind' request amount =>
        cases kind.symm.trans kind'
        exact amount
    exact ⟨(hlogs t fun new ho => by cases ho).trans hp,
      saved_of_save hc hkeeps (hcreated t hinserted) hknown haccount howner hamount⟩
  | @logCredit env payload t new transaction decision =>
    subst transaction
    obtain ⟨l, hl⟩ := decisionsOf_decided hp.1 decision (written_ok_iff.mp hrun)
    exact ⟨l, hl, .inr (hp.2.keeps (hcreated _ hstanding.1) hkeeps _)⟩
  | @emit env payload t =>
    obtain ⟨l, hl, ht⟩ := hp
    refine ⟨l, (hlogs t fun new ho => by cases ho).trans hl, ?_⟩
    exact ht.imp (suspended_keeps hkeeps) (·.keeps (hcreated t hstanding.1) hkeeps _)
  | load | ignore | mark => trivial
  | resolveById | resolveByExternalId | edit | findAccount | rename | provide | compensate
  | openAccount | choose | openDedicated | matchById | matchByRef | logMatch => exact hstarted.elim

/-- A payment is marked by the call that has recorded it. -/
theorem marked_next (ha : Acts (redeliveries payloadOf) s tr i call g o f r s')
    (hm : Marked payloadOf credited kept s tr) (hp : Progress s tr i g) :
    Marked payloadOf credited kept s' (tr ++ [(i, ⟨o, r⟩)]) := by
  refine ⟨fun e he requestId p kind => ?_, fun requestId t l h => (hm.kept _ t l h).next ha hp⟩
  have hold : e ∈ s.processedWebhookEvents →
      ∃ t l, Recorded credited s' (tr ++ [(i, ⟨o, r⟩)]) e.requestId t l := by
    intro hmem
    obtain ⟨t, l, h⟩ := hm.marks e hmem requestId p kind
    exact ⟨t, l, h.next ha hp⟩
  cases hw : o.writes .processedWebhookEvents with
  | false =>
    rw [(exec_frame ha.run).processedWebhookEvents hw] at he
    exact hold he
  | true =>
    have hrun := ha.run
    have hstarted := ha.started
    have hstanding := ha.standing
    have hshared := ha.shared
    have hprogress := progress_next ha hp
    cases o with
    | processedCreate key eventType =>
      obtain ⟨-, -, -, hs'⟩ := createProcessedEvent_ok_iff.mp (written_ok_iff.mp hrun)
      rw [hs'] at he
      rcases List.mem_append.mp he with he | he
      · exact hold he
      · rw [List.mem_singleton] at he
        subst he
        cases ha.turn with
        | wait waits silent => cases silent
        | @ignore env payload requestId' eventType message kind' =>
          have hnamed := hstarted requestId'.text (by rw [kind']; rfl)
          rw [← hnamed, kind'] at kind
          cases kind
        | @mark env payload requestId' p' t kind' =>
          obtain ⟨hcreated, hpays⟩ := hstanding
          obtain ⟨l, hl, hplaced⟩ := hp
          have hmem := hshared.created i t hcreated
          have hreq : t.nombaRequestId = requestId'.text := by
            cases hpays with
            | intro kind'' request amount =>
              rw [kind'] at kind''
              cases kind''
              exact request
          have hrec : Recorded credited s tr requestId'.text t l := by
            refine ⟨hmem, hreq, fun u hu hu' => ?_, hl, ?_⟩
            · exact eq_of_key hshared.constraints.transaction_request hu hmem (hu'.trans hreq.symm)
            · exact hplaced.imp id fun hsaved => .inr ⟨i, hcreated, hsaved⟩
          exact ⟨t, l, hrec.next ha ⟨l, hl, hplaced⟩⟩
    | _ => cases hw

end Step

/-! ## Every schedule -/

section Schedule

variable {payloadOf : String → Json} {credited : Transaction → Prop}
  {kept : String → Transaction → ReconciliationLog → Prop}

theorem redeliveries_scheduled (call : Call) (h : (redeliveries payloadOf).call call) :
    call.scheduled := by
  cases call with
  | receive _ _ => trivial
  | _ => exact h.elim

abbrev Recording (payloadOf : String → Json) (credited : Transaction → Prop)
    (kept : String → Transaction → ReconciliationLog → Prop) :
    Protocol.View Op Res Tables Call Place → Prop :=
  Invariant (redeliveries payloadOf) (Marked payloadOf credited kept) fun s tr i _ g => Progress s tr i g

theorem recording_next {v v' : Protocol.View Op Res Tables Call Place}
    (h : Recording payloadOf credited kept v) (hn : service.Next exec (redeliveries payloadOf) v v') :
    Recording payloadOf credited kept v' :=
  invariant_next redeliveries_harmless (fun _ _ _ _ _ => trivial)
    (fun _ _ _ _ _ _ _ _ _ ha hm hp => ⟨marked_next ha hm hp, progress_next ha hp⟩)
    (fun _ _ _ _ _ _ _ _ _ ha _ hp _ _ _ hji _ hj hpj => progress_other ha hp hji hj hpj) h hn

/-- For any number of deliveries, interleaved in any order, killed anywhere and repeated: a payment that
is marked is completely recorded, and stays so whatever the rest of the schedule does. -/
theorem marked_is_recorded (payloadOf : String → Json) (db : Database)
    (credited : Transaction → Prop) (hstart : MarksRecorded payloadOf credited db.tables [])
    (earlier later : List (Move Call Err))
    (hmeets : Meets (redeliveries payloadOf) db.tables (earlier ++ later))
    (P P' : Pool Op Res Err Reply Tables Call) (hplay : play db.tables earlier = some P)
    (hlater : P.play exec Call.handler later = some P') (e : ProcessedWebhookEvent)
    (hmarked : e ∈ P.state.processedWebhookEvents) (requestId : Json) (p : Payment)
    (hkind : kindOf (payloadOf e.requestId) = .payment requestId p) :
    ∃ t l, Recorded credited P.state P.trace e.requestId t l ∧
      Recorded credited P'.state P'.trace e.requestId t l := by
  obtain ⟨hmeets₁, hmeets₂⟩ := Pool.Meets.append hmeets hplay
  have hinit : Recording payloadOf credited (fun _ _ _ => False) ⟨db.tables, [], []⟩ :=
    Invariant.init db.constraints ⟨hstart, fun _ _ _ h => h.elim⟩
  obtain ⟨v, hv, hI⟩ := play_view redeliveries_scheduled (fun _ _ => recording_next) hinit hmeets₁ hplay
  obtain ⟨hshared, hm⟩ := hI.shared
  obtain ⟨t, l, hrec⟩ := hm.marks e (by rw [hv.state]; exact hmarked) requestId p hkind
  -- the second part starts from the records of the first
  have hI₂ : Recording payloadOf credited (Recorded credited v.state v.trace) v :=
    ⟨⟨hshared, hm.marks, fun _ _ _ h => h⟩, hI.program, hI.index⟩
  obtain ⟨v', hv', hI'⟩ := play_on redeliveries_scheduled (fun _ _ => recording_next) hv hI₂ hmeets₂
    hlater
  have hrec' := hI'.shared.2.kept _ t l hrec
  rw [hv.state, hv.trace] at hrec
  rw [hv'.state, hv'.trace] at hrec'
  exact ⟨t, l, hrec, hrec'⟩

end Schedule

/-- A delivery that dies after its check, one that completes, and then a third. -/
def deliveredOnce : List (Move Call Err) :=
  [.start (.receive quiet (samplePayment "R1" "9901" 5)), .advance 0, .kill 0 .cancelled,
    .start (.receive quiet (samplePayment "R1" "9901" 5))] ++ List.replicate 9 (.advance 1)

def deliveredAgain : List (Move Call Err) :=
  [.start (.receive quiet (samplePayment "R1" "9901" 5)), .advance 2]

theorem delivered_meets : Meets (redeliveries fun _ => samplePayment "R1" "9901" 5)
    (provisioned none).tables (deliveredOnce ++ deliveredAgain) := by
  have hcall : (redeliveries fun _ => samplePayment "R1" "9901" 5).call
      (.receive quiet (samplePayment "R1" "9901" 5)) := fun _ _ => rfl
  refine .cons hcall rfl (.cons (fun _ _ _ _ => trivial) rfl (.cons trivial rfl (.cons hcall rfl ?_)))
  iterate 9 refine .cons (fun _ _ _ _ => trivial) rfl ?_
  exact .cons hcall rfl (.cons (fun _ _ _ _ => trivial) rfl trivial)

theorem marked_is_recorded_when_delivered : ∃ P P' e, play (provisioned none).tables deliveredOnce =
    some P ∧ P.play exec Call.handler deliveredAgain = some P' ∧ e ∈ P.state.processedWebhookEvents ∧
      ∃ t l, Recorded (fun _ => False) P.state P.trace e.requestId t l ∧
        Recorded (fun _ => False) P'.state P'.trace e.requestId t l := by
  refine ⟨_, _, _, rfl, rfl, List.mem_singleton.mpr rfl, ?_⟩
  exact marked_is_recorded (fun _ => samplePayment "R1" "9901" 5) (provisioned none) _
    (fun e he => by cases he) deliveredOnce deliveredAgain delivered_meets _ _ rfl rfl _
    (List.mem_singleton.mpr rfl) _ _ rfl

end LdbBackend
