import LdbBackend.History.Mirror
import LdbBackend.Model.Wire

/-!
# What a merchant reads

An endpoint that checks the signature under its secret and parses the JSON (`opens`) finds the payload that was
sent, and under another secret it finds nothing unless the HMACs agree (`opens_outboundRequest`). So what it
opens of all the requests to its URL are the bodies meant for it, and what they tell of its customers adds up
to what the wallets have grown by (`opened_mirror_wallets`).
-/

namespace LdbBackend

open Fixed Effects JsonText

/-! ## The receiving side -/

/-- The payload that a document holds. -/
def payloadOf (document : Doc) : Option OutboundPayload := do
  let event ← document.field "event" >>= Doc.text?
  let data ← document.field "data"
  let customerId ← data.field "customerId" >>= Doc.text?
  let customerName ← data.field "customerName" >>= Doc.text?
  let accountNumber ← data.field "accountNumber" >>= Doc.text?
  let amountReceived ← data.field "amountReceived" >>= Doc.text?
  let walletBalance ← data.field "walletBalance" >>= Doc.text?
  let targetAmount ← data.field "targetAmount" >>= Doc.nullable
  let status ← data.field "status" >>= Doc.text?
  let outstandingBalance ← data.field "outstandingBalance" >>= Doc.nullable
  let transactionRef ← data.field "transactionRef" >>= Doc.nullable
  let senderName ← data.field "senderName" >>= Doc.nullable
  let senderBank ← data.field "senderBank" >>= Doc.nullable
  some ⟨event, customerId, customerName, accountNumber, amountReceived, walletBalance, targetAmount, status,
    outstandingBalance, transactionRef, senderName, senderBank⟩

/-- The payload of a request, if its signature is that of its bytes under the secret. -/
def opens (hmacSha256 : List UInt8 → List UInt8 → Digest) (secret : String) (request : OutboundRequest) :
    Option OutboundPayload :=
  if request.headers.lookup "X-LDB-Signature" = some (hmacSha256 (encodeText secret) request.content).hexdigest then
    read (request.content.map fun byte => Char.ofNat byte.toNat) >>= payloadOf
  else none

/-! ## Round trips -/

theorem nullable_textOrNull (s : Option String) : (textOrNull s).nullable = some s := by
  cases s <;> rfl

theorem payloadOf_document (payload : OutboundPayload) : payloadOf payload.document = some payload := by
  simp [payloadOf, OutboundPayload.document, Doc.field, List.lookup_cons, Doc.text?, nullable_textOrNull]

/-- The bytes of an ASCII text are its characters. -/
theorem decode_encodeText {cs : List Char} (h : ∀ c ∈ cs, Printable c) :
    (encodeText (String.ofList cs)).map (fun byte => Char.ofNat byte.toNat) = cs := by
  rw [encodeText, String.toList_ofList]
  induction cs with
  | nil => rfl
  | cons c cs ih =>
    have hc : c.toNat ≤ 126 := (h c List.mem_cons_self).2
    have hsize : c.utf8Size = 1 := by
      rw [Char.utf8Size_eq_one_iff, UInt32.le_iff_toNat_le]
      show c.toNat ≤ 127
      omega
    have hbyte : Char.ofNat c.val.toUInt8.toNat = c := by
      rw [UInt32.toNat_toUInt8, Nat.mod_eq_of_lt (show c.val.toNat < 2 ^ 8 from Nat.lt_of_le_of_lt hc (by omega))]
      exact Char.ofNat_toNat c
    rw [List.flatMap_cons, String.utf8EncodeChar_eq_singleton hsize, List.map_append, ih fun c' hc' =>
      h c' (List.mem_cons_of_mem c hc')]
    exact congrArg (· :: cs) hbyte

theorem read_content (payload : OutboundPayload) :
    read (payload.content.map fun byte => Char.ofNat byte.toNat) = some payload.document := by
  rw [OutboundPayload.content, decode_encodeText (printable_write _), read_write]

theorem digitChar_injective {m n : Nat} (hm : m < 16) (hn : n < 16) (h : Nat.digitChar m = Nat.digitChar n) : m = n := by
  have hvalue := hexValue_digitChar hm
  rwa [h, hexValue_digitChar hn, Option.some_inj, eq_comm] at hvalue

theorem hexdigest_injective : Function.Injective Digest.hexdigest := by
  intro d d' h
  apply Subtype.ext
  have hchars := congrArg String.toList h
  simp only [Digest.hexdigest, String.toList_ofList] at hchars
  generalize d.val = bytes at hchars ⊢
  generalize d'.val = bytes' at hchars ⊢
  induction bytes generalizing bytes' with
  | nil => cases bytes' <;> simp at hchars ⊢
  | cons b bytes ih =>
    cases bytes' with
    | nil => simp at hchars
    | cons b' bytes' =>
      simp only [List.flatMap_cons, List.cons_append, List.nil_append, List.cons.injEq] at hchars
      obtain ⟨hhigh, hlow, hrest⟩ := hchars
      have hb := b.toNat_lt
      have hb' := b'.toNat_lt
      have hdiv := digitChar_injective (by omega) (by omega) hhigh
      have hmod := digitChar_injective (by omega) (by omega) hlow
      rw [ih bytes' hrest, UInt8.toNat_inj.mp (show b.toNat = b'.toNat by omega)]

section Opens

variable (hmacSha256 : List UInt8 → List UInt8 → Digest)

/-- For every payload, URL and secret: an endpoint with some secret opens the request as the payload if the
HMAC of the bytes under its secret is that under the secret of the registration, and else not at all. -/
theorem opens_outboundRequest (url secret secret' : String) (payload : OutboundPayload) :
    opens hmacSha256 secret' (outboundRequest hmacSha256 url secret payload) =
      if hmacSha256 (encodeText secret) payload.content = hmacSha256 (encodeText secret') payload.content then
        some payload
      else none := by
  have hcontent : (outboundRequest hmacSha256 url secret payload).content = payload.content := rfl
  have hlookup : (outboundRequest hmacSha256 url secret payload).headers.lookup "X-LDB-Signature" =
      some (hmacSha256 (encodeText secret) payload.content).hexdigest := by
    simp [outboundRequest, List.lookup_cons]
  unfold opens
  rw [hcontent, read_content, Option.bind_eq_bind, Option.bind_some, payloadOf_document]
  refine if_congr ?_ rfl rfl
  rw [hlookup, Option.some_inj, hexdigest_injective.eq_iff]

/-! ## Over histories -/

/-- The requests of these POSTs that go to a URL. -/
def requestsTo (url : String) (events : List (Event Op Res)) : List OutboundRequest :=
  events.filterMap fun
    | ⟨.post u s body, _⟩ => if u = url then some (outboundRequest hmacSha256 u s body) else none
    | _ => none

/-- On the bytes of these POSTs to the URL, the HMAC under the secret is that of no other secret. -/
def Distinguishes (url secret : String) (events : List (Event Op Res)) : Prop :=
  ∀ s body r, ⟨.post url s body, r⟩ ∈ events →
    hmacSha256 (encodeText s) body.content = hmacSha256 (encodeText secret) body.content → s = secret

variable {hmacSha256}

/-- The endpoint opens the bodies that are meant for it. -/
theorem opened_requests {url secret : String} {events : List (Event Op Res)}
    (h : Distinguishes hmacSha256 url secret events) :
    (requestsTo hmacSha256 url events).filterMap (opens hmacSha256 secret) = bodiesTo url secret events := by
  unfold requestsTo bodiesTo
  rw [List.filterMap_filterMap]
  refine List.filterMap_congr fun ev hev => ?_
  obtain ⟨o, r⟩ := ev
  cases o with
  | post u s body =>
    dsimp only
    by_cases hu : u = url
    · subst hu
      rw [if_pos rfl, Option.bind_some, opens_outboundRequest]
      refine if_congr ⟨fun heq => ⟨rfl, h s body r hev heq⟩, ?_⟩ rfl rfl
      rintro ⟨-, rfl⟩
      rfl
    · rw [if_neg hu, if_neg fun hboth => hu hboth.1]
      rfl
  | _ => rfl

/-- At every registration and after every further history of exact payments in which no call raises behind
the insert of a transaction: for each customer of its merchant, the amounts in what the endpoint opens of the
requests to its URL add up to what the wallet has grown by since. -/
theorem opened_mirror_wallets (pre steps : List Step) (r : WebhookRegistration)
    (hexact : (History.run pre).Exact steps) (hmem : r ∈ (History.run pre).tables.webhookRegistrations)
    (hr : Listens (History.run (pre ++ steps)).tables r) (hdone : (History.run pre).Completes steps)
    (hkeys : Distinguishes hmacSha256 r.url r.secret ((History.run pre).posts steps)) :
    ∀ c ∈ (History.run (pre ++ steps)).tables.customers, c.merchantId = r.merchantId →
      received c.merchantCustomerId ((requestsTo hmacSha256 r.url ((History.run pre).posts steps)).filterMap
        (opens hmacSha256 r.secret)) = grown (History.run pre).tables c := by
  rw [opened_requests hkeys]
  exact (mirrors_history additive_eq hexact hmem hr (forgives_of_completes hdone)).sums

end Opens

/-- A digest that shows the first bytes of the key. -/
def keyed (key _ : List UInt8) : Digest := ⟨(key ++ List.replicate 32 0).take 32, by simp⟩

def underSecret (secret : String) : Event Op Res → Bool
  | ⟨.post _ s _, _⟩ => s == secret
  | _ => true

theorem fundingSteps_distinguished : Distinguishes keyed endpoint.url endpoint.secret
    ((History.run registering).posts fundingSteps) := by
  intro s body r hev _
  have hall : ((History.run registering).posts fundingSteps).all (underSecret endpoint.secret) = true := by
    decide +kernel
  simpa [underSecret] using List.all_eq_true.mp hall _ hev

theorem opened_mirror_both_payments : ∃ c ∈ (History.run (registering ++ fundingSteps)).tables.customers,
    received c.merchantCustomerId
      ((requestsTo keyed "https://b.example" ((History.run registering).posts fundingSteps)).filterMap
        (opens keyed "0123456789abcdef")) = grown (History.run registering).tables c := by
  obtain ⟨c, hc, hm⟩ := funded_mem
  exact ⟨c, hc, opened_mirror_wallets registering fundingSteps endpoint fundingSteps_exact endpoint_mem
    endpoint_listens fundingSteps_completes fundingSteps_distinguished c hc hm⟩

end LdbBackend
