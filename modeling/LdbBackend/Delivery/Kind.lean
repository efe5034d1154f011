import LdbBackend.Model.Webhooks

/-!
# What a delivery is, before any statement

`kindOf` takes a payload apart as `receive` and `process_payment` do together. All parsing happens
there, so `receive` is one fixed program for each kind (`receive_eq`): a check of the idempotency
ledger, then nothing, a mark, or the settlement of a payment and a mark.

The generated reference fills in for a missing `merchantTxRef` and touches nothing else, so the kind
of a payload does not depend on it.
-/

namespace LdbBackend

open Fixed Effects

/-- The payment with a generated reference where the payload brought none. -/
def Payment.withReference (p : Payment) (reference : String) : Payment :=
  { p with merchantTxRef := p.merchantTxRef.orElse (.str reference) }

inductive Kind
  | unreadable (e : Err)
  | broken (requestId : Json) (e : Err)
  | other (requestId : Json) (eventType message : String)
  | payment (requestId : Json) (p : Payment)

def kindOf (payload : Json) : Kind :=
  match eventTypeOf payload, requestIdOf payload with
  | .error e, _ => .unreadable e
  | .ok _, .error e => .unreadable e
  | .ok eventType, .ok requestId =>
    if !requestId.truthy then .unreadable (.http 400 "Webhook missing requestId" none)
    else if !eventType.isText nombaPaymentSuccessEvent then
      .other requestId eventType.text "Webhook event ignored"
    else
      match transferTypeOf payload with
      | .error e => .broken requestId e
      | .ok transferType =>
        if !transferType.isText nombaVactTransferType then
          .other requestId eventType.text "Non virtual-account transfer ignored"
        else
          match readPayment "" payload with
          | .error e => .broken requestId e
          | .ok p => .payment requestId p

/-- The check of the idempotency ledger in front of the rest. -/
def guarded (requestId : Json) (rest : Handler Response) : Handler Response := do
  let processed : Bool ← await (.processedExists requestId.text)
  if processed then return ⟨200, "Webhook already processed", .none⟩ else rest

def markProcessed (requestId : Json) (eventType : String) (response : Response) : Handler Response := do
  let _ ← await (.processedCreate requestId.text eventType)
  return response

def Kind.handle (env : Surroundings) (payload : Json) : Kind → Handler Response
  | .unreadable e => .raise e
  | .broken requestId e => guarded requestId (.raise e)
  | .other requestId eventType message =>
    guarded requestId (markProcessed requestId eventType ⟨200, message, .none⟩)
  | .payment requestId p => guarded requestId do
    let result ← settlePayment env requestId nombaPaymentSuccessEvent payload
      (p.withReference env.reference)
    markProcessed requestId nombaPaymentSuccessEvent result.response

theorem orElse_reference (x : Json) (reference : String) :
    (x.orElse (.str "")).orElse (.str reference) = x.orElse (.str reference) := by
  unfold Json.orElse
  by_cases hx : x.truthy = true
  · rw [if_pos hx, if_pos hx]
  · rw [if_neg hx, if_neg hx, if_neg (by decide)]

theorem readPayment_eq (reference : String) (payload : Json) :
    readPayment reference payload = (readPayment "" payload).map (·.withReference reference) := by
  simp only [readPayment, bind, Except.bind, pure, Except.pure]
  repeat (split; · rfl)
  simp only [Except.map, Payment.withReference, orElse_reference]

/-- A payment is what `readPayment` reads. -/
theorem readPayment_of_kind {payload requestId : Json} {p : Payment}
    (hk : kindOf payload = .payment requestId p) :
    readPayment "" payload = .ok p := by
  unfold kindOf at hk
  split at hk
  · cases hk
  · cases hk
  · split_ifs at hk
    split at hk
    · cases hk
    · split_ifs at hk
      split at hk
      · cases hk
      · cases hk
        assumption

theorem text_of_isText {x : Json} {s : String} (h : x.isText s = true) : x = .str s := by
  cases x with
  | str t => simpa [Json.isText] using h
  | _ => simp [Json.isText] at h

theorem receive_eq (env : Surroundings) (payload : Json) :
    receive env payload = (kindOf payload).handle env payload := by
  unfold receive kindOf
  cases eventTypeOf payload with
  | error e => rfl
  | ok eventType =>
    cases requestIdOf payload with
    | error e => rfl
    | ok requestId =>
      simp only [Prog.lift_ok, Prog.pure_bind']
      by_cases hid : requestId.truthy = true
      · simp only [hid, Bool.not_true, Bool.false_eq_true, if_false]
        by_cases hev : eventType.isText nombaPaymentSuccessEvent = true
        · obtain rfl := text_of_isText hev
          simp only [hev, Bool.not_true, Bool.false_eq_true, if_false]
          cases transferTypeOf payload with
          | error e => rfl
          | ok transferType =>
            by_cases ht : transferType.isText nombaVactTransferType = true
            · simp only [ht, Prog.lift_ok, Prog.pure_bind', Bool.not_true, Bool.false_eq_true, if_false,
                processPayment, readPayment_eq env.reference]
              cases readPayment "" payload with
              | error e => rfl
              | ok p => rfl
            · simp only [ht, Prog.lift_ok, Prog.pure_bind', Bool.not_false, if_true]
              rfl
        · simp only [hev, Bool.not_false, if_true]
          rfl
      · simp only [hid, Bool.not_false, if_true]
        rfl

namespace Kind

/-- The text under which the idempotency ledger and the transactions know the delivery. -/
def key : Kind → Option String
  | unreadable _ => none
  | broken requestId _ | other requestId _ _ | payment requestId _ => some requestId.text

end Kind

end LdbBackend
