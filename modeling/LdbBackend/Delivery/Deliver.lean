import LdbBackend.Delivery.Settle

/-!
# One delivery alone

`Delivers` lists the ways in which `receive` can end when it runs alone, and `delivers` shows that the
list is complete. Everything about sequences of deliveries is proved by cases on it.
-/

namespace LdbBackend

open Fixed Effects Table

namespace Tables

/-- The idempotency ledger has the request. -/
def processed (db : Tables) (key : String) : Bool :=
  db.processedWebhookEvents.any (·.requestId = key)

/-- The ledger entry a settled payment gets. -/
def marked (db : Tables) (key : String) : Tables :=
  { db with
    processedWebhookEvents :=
      db.processedWebhookEvents ++ [⟨db.clock, key, nombaPaymentSuccessEvent⟩]
    clock := db.clock + 1 }

end Tables

section Delivers

variable (env : Surroundings) (payload : Json) (db : Tables)

inductive Delivers : Outcome Op Res Err Response Tables → Prop
  | malformed {e : Err} (kind : kindOf payload = .unreadable e) : Delivers ⟨.error e, db, []⟩
  | duplicate {key : String} (kind : (kindOf payload).key = some key)
      (done : db.processed key = true) :
      Delivers ⟨.ok ⟨200, "Webhook already processed", .none⟩, db, []⟩
  | broken {requestId : Json} {e : Err} (kind : kindOf payload = .broken requestId e)
      (fresh : db.processed requestId.text = false) : Delivers ⟨.error e, db, []⟩
  | unmarked {requestId : Json} {eventType message : String} {e : Err}
      (kind : kindOf payload = .other requestId eventType message)
      (fresh : db.processed requestId.text = false)
      (mark : db.createProcessedEvent requestId.text eventType = .error e) :
      Delivers ⟨.error e, db, []⟩
  | ignored {requestId : Json} {eventType message : String} {db' : Tables}
      (kind : kindOf payload = .other requestId eventType message)
      (fresh : db.processed requestId.text = false)
      (mark : db.createProcessedEvent requestId.text eventType = .ok db') :
      Delivers ⟨.ok ⟨200, message, .none⟩, db', [⟨.processedCreate requestId.text eventType, ()⟩]⟩
  | failed {requestId : Json} {p : Payment} {e : Err} {db' : Tables} {evs : List (Event Op Res)}
      (kind : kindOf payload = .payment requestId p) (fresh : db.processed requestId.text = false)
      (settle : Settles env requestId payload (p.withReference env.reference) db
        ⟨.error e, db', evs⟩) :
      Delivers ⟨.error e, db', evs⟩
  | settled {requestId : Json} {p : Payment} {result : PaymentResult} {db' : Tables}
      {evs : List (Event Op Res)}
      (kind : kindOf payload = .payment requestId p) (fresh : db.processed requestId.text = false)
      (settle : Settles env requestId payload (p.withReference env.reference) db
        ⟨.ok result, db', evs⟩) :
      Delivers ⟨.ok result.response, db'.marked requestId.text,
        evs ++ [⟨.processedCreate requestId.text nombaPaymentSuccessEvent, ()⟩]⟩

end Delivers

section Settles

variable {env : Surroundings} {requestId payload : Json} {p : Payment} {db : Tables}

theorem Settles.processed {o : Outcome Op Res Err PaymentResult Tables}
    (h : Settles env requestId payload p db o) :
    o.state.processedWebhookEvents = db.processedWebhookEvents := by
  cases h with
  | refused insert => rfl
  | held hold insert => obtain ⟨-, -, -, rfl⟩ := createTransaction_ok_iff.mp insert; rfl
  | unsaved credit wallet_error =>
    obtain ⟨-, -, -, rfl⟩ := createTransaction_ok_iff.mp credit.insert; rfl
  | unlogged credit wallet_ok target_error =>
    obtain ⟨-, -, -, rfl⟩ := createTransaction_ok_iff.mp credit.insert; rfl
  | undelivered credit wallet_ok target_ok emit =>
    obtain ⟨-, -, -, rfl⟩ := createTransaction_ok_iff.mp credit.insert; rfl
  | credited credit wallet_ok target_ok emit =>
    obtain ⟨-, -, -, rfl⟩ := createTransaction_ok_iff.mp credit.insert; rfl

/-- A payment with a result was inserted under its request id. -/
theorem Settles.request_length {result : PaymentResult} {db' : Tables} {evs : List (Event Op Res)}
    (h : Settles env requestId payload p db ⟨.ok result, db', evs⟩) : requestId.text.length ≤ 100 := by
  have hinsert : ∀ {account : Option DedicatedAccount} {status : TransactionStatus}
      {t : Transaction} {db₁ : Tables},
      db.createTransaction (p.newTransaction requestId payload account status) = .ok (t, db₁) →
      requestId.text.length ≤ 100 := by
    intro account status t db₁ he
    have hrow := NewTransaction.row_ok (createTransaction_ok_iff.mp he).1
    have hrequest : t.nombaRequestId = requestId.text := hrow.request
    exact hrequest ▸ hrow.request_length
  cases h with
  | held hold insert => exact hinsert insert
  | credited credit wallet_ok target_ok emit => exact hinsert credit.insert

end Settles

section Receive

variable {env : Surroundings} {payload : Json} {db : Tables}

theorem outcome_guarded_done {requestId : Json} {rest : Handler Response}
    (h : db.processed requestId.text = true) :
    outcomeOf (guarded requestId rest) db =
      ⟨.ok ⟨200, "Webhook already processed", .none⟩, db, []⟩ := by
  have he : exec (.processedExists requestId.text) db = .ok (true, db) := by rw [← h]; rfl
  unfold guarded
  rw [Prog.op_bind, outcome_query he rfl]
  rfl

theorem outcome_guarded_fresh {requestId : Json} {rest : Handler Response}
    (h : db.processed requestId.text = false) :
    outcomeOf (guarded requestId rest) db = outcomeOf rest db := by
  have he : exec (.processedExists requestId.text) db = .ok (false, db) := by rw [← h]; rfl
  unfold guarded
  rw [Prog.op_bind, outcome_query he rfl]
  rfl

theorem exec_mark {key : String} (hfresh : db.processed key = false) (hlength : key.length ≤ 100) :
    exec (.processedCreate key nombaPaymentSuccessEvent) db = .ok ((), db.marked key) := by
  refine written_ok_iff.mpr (createProcessedEvent_ok_iff.mpr ⟨hlength, by decide, ?_, rfl⟩)
  simpa [Tables.processed] using hfresh

theorem outcome_settled {requestId : Json} {p : Payment} (h : db.Constraints)
    (hk : kindOf payload = .payment requestId p) (hd : db.processed requestId.text = false) :
    Delivers env payload db (outcomeOf (do
      let result ← settlePayment env requestId nombaPaymentSuccessEvent payload
        (p.withReference env.reference)
      markProcessed requestId nombaPaymentSuccessEvent result.response) db) := by
  have hs : Settles env requestId payload (p.withReference env.reference) db _ := settles h
  have hkept := hs.processed
  cases ho : outcomeOf (settlePayment env requestId nombaPaymentSuccessEvent payload
      (p.withReference env.reference)) db with
  | mk result db' evs =>
    rw [ho] at hs hkept
    cases result with
    | error e =>
      rw [outcome_stop ho]
      exact .failed hk hd hs
    | ok r =>
      have hfresh : db'.processed requestId.text = false := by
        rw [← hd, Tables.processed, hkept]
        rfl
      rw [outcome_then ho]
      unfold markProcessed
      rw [Prog.op_bind, outcome_write (exec_mark hfresh hs.request_length) rfl]
      exact .settled hk hd hs

/-- Every run of `receive` alone ends in one of the listed ways. -/
theorem delivers (h : db.Constraints) :
    Delivers env payload db (outcomeOf (receive env payload) db) := by
  rw [receive_eq]
  cases hk : kindOf payload with
  | unreadable e => exact .malformed hk
  | broken requestId e =>
    unfold Kind.handle
    cases hd : db.processed requestId.text with
    | true => rw [outcome_guarded_done hd]; exact .duplicate (by rw [hk]; rfl) hd
    | false => rw [outcome_guarded_fresh hd]; exact .broken hk hd
  | other requestId eventType message =>
    unfold Kind.handle
    cases hd : db.processed requestId.text with
    | true => rw [outcome_guarded_done hd]; exact .duplicate (by rw [hk]; rfl) hd
    | false =>
      rw [outcome_guarded_fresh hd]
      unfold markProcessed
      rw [Prog.op_bind]
      cases he : db.createProcessedEvent requestId.text eventType with
      | error e =>
        have hexec : exec (.processedCreate requestId.text eventType) db = .error e := by
          show written _ = _
          rw [he]
          rfl
        rw [outcome_refused hexec]
        exact .unmarked hk hd he
      | ok db' =>
        have hexec : exec (.processedCreate requestId.text eventType) db = .ok ((), db') :=
          written_ok_iff.mpr he
        rw [outcome_write hexec rfl]
        exact .ignored hk hd he
  | payment requestId p =>
    unfold Kind.handle
    cases hd : db.processed requestId.text with
    | true => rw [outcome_guarded_done hd]; exact .duplicate (by rw [hk]; rfl) hd
    | false => rw [outcome_guarded_fresh hd]; exact outcome_settled h hk hd

/-- A payment that is new to the ledger and completes was settled, then marked. -/
theorem receive_settled (h : db.Constraints) {requestId : Json} {p : Payment}
    (hk : kindOf payload = .payment requestId p) (hd : db.processed requestId.text = false)
    {response : Response} {db' : Tables}
    (hrun : Prog.run exec (receive env payload) db = (.ok response, db')) :
    ∃ result db₂ evs, Settles env requestId payload (p.withReference env.reference) db
        ⟨.ok result, db₂, evs⟩ ∧
      response = result.response ∧ db' = db₂.marked requestId.text := by
  have hout : outcomeOf (receive env payload) db =
      ⟨.ok response, db', (outcomeOf (receive env payload) db).events⟩ := by
    unfold outcomeOf Prog.outcome
    rw [hrun]
  have hdel : Delivers env payload db _ := delivers h
  rw [hout] at hdel
  generalize (outcomeOf (receive env payload) db).events = evs at hdel
  cases hdel with
  | duplicate kind done =>
    rw [hk] at kind
    cases kind
    rw [done] at hd
    cases hd
  | ignored kind fresh mark =>
    rw [hk] at kind
    cases kind
  | settled kind fresh settle =>
    rw [hk] at kind
    cases kind
    exact ⟨_, _, _, settle, rfl, rfl⟩

end Receive

end LdbBackend
