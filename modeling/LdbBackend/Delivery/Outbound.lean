import LdbBackend.Payments.Wallet

/-!
# The outbound POSTs of an announcement

`emit_payment_received` POSTs to the active registrations of the merchant that asked for the event, in
their order, until one POST raises something other than `httpx.HTTPError`; then it raises that and sends
nothing more (`deliver_outcome`). So it is isolated from the endpoints exactly when no POST raises.
-/

namespace LdbBackend

open Fixed Effects Table

/-- The active registrations of the merchant whose events contain the one announced. -/
def Tables.subscribed (db : Tables) (merchantId : UUID) : List WebhookRegistration :=
  (db.webhookRegistrations.filter fun r => r.merchantId = merchantId ∧ r.active).filter fun r =>
    outboundEventPaymentReceived ∈ r.events

/-- The POST to a registration, as an event of a run. -/
def posted (body : OutboundPayload) (r : WebhookRegistration) : Event Op Res := ⟨.post r.url r.secret body, ()⟩

def Op.isPost : Op → Bool
  | .post _ _ _ => true
  | _ => false

/-- The registrations up to the first whose POST raises, with that one. -/
def attempted (post : WebhookRegistration → PostOutcome) : List WebhookRegistration → List WebhookRegistration
  | [] => []
  | r :: rs =>
    match post r with
    | .raised _ => [r]
    | .response _ | .httpError => r :: attempted post rs

/-- How the loop over these registrations ends. -/
def ending (post : WebhookRegistration → PostOutcome) : List WebhookRegistration → Except Err Unit
  | [] => .ok ()
  | r :: rs =>
    match post r with
    | .raised e => .error e
    | .response _ | .httpError => ending post rs

section Deliver

variable {post : WebhookRegistration → PostOutcome} {body : OutboundPayload} {rs : List WebhookRegistration}
  {db : Tables}

theorem ending_ok_iff : ending post rs = .ok () ↔ ∀ r ∈ rs, ∀ e, post r ≠ .raised e := by
  induction rs with
  | nil => simp [ending]
  | cons r rs ih =>
    rw [List.forall_mem_cons, ← ih, ending]
    cases post r with
    | response n => simp
    | httpError => simp
    | raised e => simp

theorem attempted_eq_self (h : ∀ r ∈ rs, ∀ e, post r ≠ .raised e) : attempted post rs = rs := by
  induction rs with
  | nil => rfl
  | cons r rs ih =>
    rw [List.forall_mem_cons] at h
    have hrest := ih h.2
    unfold attempted
    cases hp : post r with
    | response n => exact congrArg (r :: ·) hrest
    | httpError => exact congrArg (r :: ·) hrest
    | raised e => exact absurd hp (h.1 e)

theorem exec_post (r : WebhookRegistration) : exec (.post r.url r.secret body) db = .ok ((), db) := rfl

/-- The loop, over any registrations: its POSTs and its end. -/
theorem deliver_outcome (rs : List WebhookRegistration) : Prog.outcome exec Op.isPost (deliver post body rs) db =
    ⟨ending post (rs.filter fun r => outboundEventPaymentReceived ∈ r.events), db,
      (attempted post (rs.filter fun r => outboundEventPaymentReceived ∈ r.events)).map (posted body)⟩ := by
  induction rs with
  | nil => rfl
  | cons r rs ih =>
    unfold deliver
    by_cases hasked : outboundEventPaymentReceived ∈ r.events
    · have hfilter : (r :: rs).filter (fun r => decide (outboundEventPaymentReceived ∈ r.events)) =
          r :: rs.filter (fun r => decide (outboundEventPaymentReceived ∈ r.events)) := by simp [hasked]
      rw [if_neg (not_not_intro hasked), hfilter, Prog.op_bind, Prog.outcome_seen (exec_post r) rfl, ending,
        attempted]
      cases post r with
      | response n => exact congrArg (Outcome.after [posted body r]) ih
      | httpError => exact congrArg (Outcome.after [posted body r]) ih
      | raised e => rfl
    · have hfilter : (r :: rs).filter (fun r => decide (outboundEventPaymentReceived ∈ r.events)) =
          rs.filter (fun r => decide (outboundEventPaymentReceived ∈ r.events)) := by simp [hasked]
      rw [if_pos hasked, hfilter]
      exact ih

theorem emit_outcome (merchantId : UUID) (customer : Customer Decimal) (account : DedicatedAccount)
    (transaction : Transaction) :
    Prog.outcome exec Op.isPost (emitPaymentReceived post merchantId customer account transaction) db =
      ⟨ending post (db.subscribed merchantId), db,
        (attempted post (db.subscribed merchantId)).map (posted (outboundPayload customer account transaction))⟩ := by
  have hemit : exec (.emitPaymentReceived transaction) db = .ok ((), db) := rfl
  have hactive : exec (.registrationsActive merchantId) db = .ok
      (db.webhookRegistrations.filter (fun r => r.merchantId = merchantId ∧ r.active), db) := rfl
  have hloop := @deliver_outcome post (outboundPayload customer account transaction) db
    (db.webhookRegistrations.filter fun r => r.merchantId = merchantId ∧ r.active)
  unfold emitPaymentReceived Tables.subscribed
  rw [Prog.op_bind, Prog.outcome_hidden hemit rfl, Prog.op_bind, Prog.outcome_hidden hactive rfl]
  cases hrows : db.webhookRegistrations.filter fun r => r.merchantId = merchantId ∧ r.active with
  | nil => rfl
  | cons r rs =>
    rw [hrows] at hloop
    exact hloop

end Deliver

/-- The announcement returns, and its POSTs are one of the same body to each active registration of the
merchant that asked for the event, in their order. -/
structure Isolated (post : WebhookRegistration → PostOutcome) (db : Tables) (merchantId : UUID)
    (customer : Customer Decimal) (account : DedicatedAccount) (transaction : Transaction) : Prop where
  returns : (Prog.run exec (emitPaymentReceived post merchantId customer account transaction) db).1 = .ok ()
  posts : (Prog.ops exec (emitPaymentReceived post merchantId customer account transaction) db).filter
      (·.1.isPost) = (db.subscribed merchantId).map (posted (outboundPayload customer account transaction))

theorem Isolated.answered {post : WebhookRegistration → PostOutcome} {db : Tables} {merchantId : UUID}
    {customer : Customer Decimal} {account : DedicatedAccount} {transaction : Transaction}
    (h : Isolated post db merchantId customer account transaction) :
    ∀ r ∈ db.subscribed merchantId, ∀ e, post r ≠ .raised e := by
  rw [← ending_ok_iff, ← h.returns]
  exact (congrArg Outcome.result (emit_outcome merchantId customer account transaction)).symm

/-- For all registrations, every payment and every outcome of each POST: the announcement is isolated from
the endpoints exactly when no POST to one of them raises anything but an `httpx.HTTPError`. -/
theorem outbound_isolated_iff (post : WebhookRegistration → PostOutcome) (db : Tables) (merchantId : UUID)
    (customer : Customer Decimal) (account : DedicatedAccount) (transaction : Transaction) :
    Isolated post db merchantId customer account transaction ↔
      ∀ r ∈ db.subscribed merchantId, ∀ e, post r ≠ .raised e := by
  refine ⟨Isolated.answered, fun hanswered => ?_⟩
  have hemit := @emit_outcome post db merchantId customer account transaction
  rw [ending_ok_iff.mpr hanswered, attempted_eq_self hanswered] at hemit
  exact ⟨congrArg Outcome.result hemit, congrArg Outcome.events hemit⟩

/-- Two registrations of one merchant, the first with a URL that is none. -/
def registered : Tables :=
  stateAfter (register ⟨"https://b.example", "0123456789abcdef", ["customer.payment_received"]⟩ 7)
    (stateAfter (register ⟨"http://a:b/", "0123456789abcdef", ["customer.payment_received"]⟩ 7)
      (provisioned none).tables)

/-- The second endpoint never hears of a payment that was credited. -/
theorem second_endpoint_skipped : ¬ ∀ (post : WebhookRegistration → PostOutcome) (db : Tables)
    (merchantId : UUID) (customer : Customer Decimal) (account : DedicatedAccount) (transaction : Transaction),
    Isolated post db merchantId customer account transaction := by
  intro hclaim
  set post : WebhookRegistration → PostOutcome := fun r =>
    if r.url = "http://a:b/" then .raised .invalidUrl else .response 200
  have hrows : (registered.subscribed 7).map (·.url) = ["http://a:b/", "https://b.example"] := by decide +kernel
  obtain ⟨first, hfirst, hurl⟩ : ∃ r ∈ registered.subscribed 7, r.url = "http://a:b/" := by
    refine List.mem_map.mp ?_
    rw [hrows]
    exact List.mem_cons_self
  have hraises : post first = .raised .invalidUrl := if_pos hurl
  have hisolated := hclaim post registered 7
    { id := 0, merchantId := 7, merchantCustomerId := "cust-1", name := "Ada", email := none, phone := none
      targetAmount := none, walletBalance := Decimal.ofScaled 2 500, metadata := [], createdAt := 0
      updatedAt := 0 }
    ⟨1, 0, none, "9901", "Ada", "cust-1", .active, 1, 1⟩
    ⟨2, some 1, "R1", none, none, 500, 0, none, none, .inbound, .full, none, .null, 2⟩
  exact hisolated.answered first hfirst .invalidUrl hraises

end LdbBackend
