import LdbBackend.Model.Hooks
import LdbBackend.Store.Alone

/-!
# The guard of the webhook endpoint

Only a request signed with the secret (`Authentic`) reaches `receive`; every other one stops before the body
is parsed (`nombaWebhook_authentic`, `nombaWebhook_stops`), so the tables are those that the authentic
requests leave (`authentic_requests_only`). What a refused request is told depends on its header:
`hmac.compare_digest` raises on a header that is not ASCII, and the answer is then 500 instead of 401.
-/

namespace LdbBackend

open Effects

/-! ## Signature texts -/

namespace Digest

theorem isAscii_text (digest : Digest) : isAscii digest.text = true := by
  simp only [isAscii, text, String.toList_ofList, List.all_eq_true, decide_eq_true_eq]
  exact Base64.encode_ascii digest.val

theorem text_ne_empty (digest : Digest) : digest.text ≠ "" := by
  intro h
  have hnil : Base64.encode digest.val = [] := by simpa [text] using congrArg String.toList h
  have hlength := digest.property
  rw [Base64.encode_eq_nil.mp hnil] at hlength
  simp at hlength

end Digest

section Guard

variable (hmacSha256 : List UInt8 → List UInt8 → Digest) (nombaWebhookSecret : String) (rawBody : List UInt8)
  (signature : Option String)

/-- A secret is configured, and the header is the text of the HMAC of the bytes received. -/
def Authentic : Prop :=
  nombaWebhookSecret ≠ "" ∧ signature = some (hmacSha256 (encodeText nombaWebhookSecret) rawBody).text

instance : Decidable (Authentic hmacSha256 nombaWebhookSecret rawBody signature) :=
  inferInstanceAs (Decidable (_ ∧ _))

/-- The request is answered by what `receive` makes of its body. -/
def GoesOn : Prop :=
  ∀ loads env, nombaWebhook hmacSha256 nombaWebhookSecret loads env rawBody signature =
    Prog.lift (loads rawBody) >>= receive env

/-- The handler ends before it reads the body or any table. -/
def Stops : Prop :=
  ∃ e, ∀ loads env, nombaWebhook hmacSha256 nombaWebhookSecret loads env rawBody signature = .raise e

variable {hmacSha256 nombaWebhookSecret rawBody signature}

/-! ## The comparison -/

theorem verify_of_ascii (h : nombaWebhookSecret = "" ∨ ∀ s, signature = some s → isAscii s = true) :
    verifyNombaSignature hmacSha256 nombaWebhookSecret rawBody signature =
      .ok (decide (Authentic hmacSha256 nombaWebhookSecret rawBody signature)) := by
  cases signature with
  | none => simp [verifyNombaSignature, Authentic]
  | some s =>
    simp only [verifyNombaSignature]
    by_cases hblank : s = "" ∨ nombaWebhookSecret = ""
    · rw [if_pos hblank]
      congr 1
      symm
      rw [decide_eq_false_iff_not]
      rintro ⟨hsecret, htext⟩
      rcases hblank with rfl | hempty
      · exact Digest.text_ne_empty _ (Option.some.inj htext).symm
      · exact hsecret hempty
    · rw [not_or] at hblank
      have hascii : isAscii s = true := (h.resolve_left hblank.2) s rfl
      rw [if_neg (not_or.mpr hblank), compareDigest, if_pos ⟨Digest.isAscii_text _, hascii⟩]
      congr 1
      rw [Bool.eq_iff_iff, beq_iff_eq, decide_eq_true_eq, Authentic, Option.some_inj]
      constructor
      · intro heq
        exact ⟨hblank.2, heq.symm⟩
      · rintro ⟨-, heq⟩
        exact heq.symm

theorem verify_raises {s : String} (hsecret : nombaWebhookSecret ≠ "") (hs : isAscii s = false) :
    verifyNombaSignature hmacSha256 nombaWebhookSecret rawBody (some s) = .error .typeError := by
  have hne : s ≠ "" := by
    rintro rfl
    exact absurd hs (by decide)
  simp only [verifyNombaSignature]
  rw [if_neg (not_or.mpr ⟨hne, hsecret⟩), compareDigest, if_neg]
  simp [hs]

/-- Such a header is no signature. -/
theorem not_authentic_of_nonascii {s : String} (hs : isAscii s = false) :
    ¬ Authentic hmacSha256 nombaWebhookSecret rawBody (some s) := by
  rintro ⟨-, htext⟩
  rw [Option.some_inj.mp htext, Digest.isAscii_text] at hs
  exact absurd hs (by decide)

/-! ## The endpoint -/

theorem nombaWebhook_of_verified {verified : Bool}
    (h : verifyNombaSignature hmacSha256 nombaWebhookSecret rawBody signature = .ok verified)
    (loads : List UInt8 → Except Err Json) (env : Surroundings) :
    nombaWebhook hmacSha256 nombaWebhookSecret loads env rawBody signature =
      if verified then Prog.lift (loads rawBody) >>= receive env
      else .raise (.http 401 "Invalid webhook signature" none) := by
  simp only [nombaWebhook, h, Prog.lift_ok, Prog.pure_bind']
  cases verified
  · rfl
  · rfl

theorem nombaWebhook_of_error {e : Err}
    (h : verifyNombaSignature hmacSha256 nombaWebhookSecret rawBody signature = .error e)
    (loads : List UInt8 → Except Err Json) (env : Surroundings) :
    nombaWebhook hmacSha256 nombaWebhookSecret loads env rawBody signature = .raise e := by
  simp only [nombaWebhook, h, Prog.lift_error, Prog.raise_bind]

theorem nombaWebhook_authentic (h : Authentic hmacSha256 nombaWebhookSecret rawBody signature) :
    GoesOn hmacSha256 nombaWebhookSecret rawBody signature := by
  intro loads env
  have hascii : ∀ s, signature = some s → isAscii s = true := by
    intro s hs
    rw [Option.some_inj.mp (hs.symm.trans h.2)]
    exact Digest.isAscii_text _
  rw [nombaWebhook_of_verified (verify_of_ascii (.inr hascii)) loads env, if_pos (decide_eq_true h)]

theorem nombaWebhook_stops (h : ¬ Authentic hmacSha256 nombaWebhookSecret rawBody signature) :
    Stops hmacSha256 nombaWebhookSecret rawBody signature := by
  by_cases hascii : nombaWebhookSecret = "" ∨ ∀ s, signature = some s → isAscii s = true
  · refine ⟨.http 401 "Invalid webhook signature" none, fun loads env => ?_⟩
    rw [nombaWebhook_of_verified (verify_of_ascii hascii) loads env, if_neg (by simpa using h)]
  · simp only [not_or, not_forall, Bool.not_eq_true] at hascii
    obtain ⟨hsecret, s, rfl, hs⟩ := hascii
    exact ⟨.typeError, nombaWebhook_of_error (verify_raises hsecret hs)⟩

theorem not_goesOn_of_stops (h : Stops hmacSha256 nombaWebhookSecret rawBody signature) :
    ¬ GoesOn hmacSha256 nombaWebhookSecret rawBody signature := by
  intro hgoes
  obtain ⟨e, he⟩ := h
  -- a body that cannot be read is told apart by what reading it raises
  have hraised : ∀ e', e = e' := by
    intro e'
    have heq := (he (fun _ => .error e') ⟨"", fun _ => .httpError⟩).symm.trans (hgoes _ _)
    simpa using heq
  exact absurd ((hraised .valueError).symm.trans (hraised .typeError)) (by decide)

theorem goesOn_iff : GoesOn hmacSha256 nombaWebhookSecret rawBody signature ↔
    Authentic hmacSha256 nombaWebhookSecret rawBody signature := by
  refine ⟨fun hgoes => ?_, nombaWebhook_authentic⟩
  by_contra h
  exact not_goesOn_of_stops (nombaWebhook_stops h) hgoes

/-! ## A run of requests -/

section Requests

variable (hmacSha256 nombaWebhookSecret)

structure WebhookRequest where
  env : Surroundings
  rawBody : List UInt8
  signature : Option String

/-- The tables after the requests, each handled on what the earlier ones left. -/
def afterRequests (loads : List UInt8 → Except Err Json) (requests : List WebhookRequest) (db : Tables) : Tables :=
  requests.foldl
    (fun db r => stateAfter (nombaWebhook hmacSha256 nombaWebhookSecret loads r.env r.rawBody r.signature) db) db

/-- Requests that are not signed leave no trace between those that are. -/
theorem authentic_requests_only (loads : List UInt8 → Except Err Json) (requests : List WebhookRequest)
    (db : Tables) :
    afterRequests hmacSha256 nombaWebhookSecret loads requests db =
      afterRequests hmacSha256 nombaWebhookSecret loads
        (requests.filter fun r => Authentic hmacSha256 nombaWebhookSecret r.rawBody r.signature) db := by
  simp only [afterRequests, List.foldl_filter, decide_eq_true_eq]
  congr 1
  funext db r
  by_cases h : Authentic hmacSha256 nombaWebhookSecret r.rawBody r.signature
  · rw [if_pos h]
  · obtain ⟨e, he⟩ := nombaWebhook_stops h
    rw [if_neg h, he loads r.env, stateAfter, Prog.run_raise]

end Requests

end Guard

/-! ## What a refused request is told -/

section Guarded

variable (hmacSha256 : List UInt8 → List UInt8 → Digest) (nombaWebhookSecret : String) (rawBody : List UInt8)
  (signature : Option String)

/-- The guard, for one request: it goes on when it is authentic, and is refused with 401 when it is not. -/
structure Guarded : Prop where
  goesOn : GoesOn hmacSha256 nombaWebhookSecret rawBody signature ↔
    Authentic hmacSha256 nombaWebhookSecret rawBody signature
  stops : ¬ Authentic hmacSha256 nombaWebhookSecret rawBody signature →
    Stops hmacSha256 nombaWebhookSecret rawBody signature
  verified : ¬ Authentic hmacSha256 nombaWebhookSecret rawBody signature →
    verifyNombaSignature hmacSha256 nombaWebhookSecret rawBody signature = .ok false
  answered : ¬ Authentic hmacSha256 nombaWebhookSecret rawBody signature → ∀ loads env db,
    answer (Prog.run exec (nombaWebhook hmacSha256 nombaWebhookSecret loads env rawBody signature) db).1 =
        some (.failure 401 "Invalid webhook signature" none) ∧
      stateAfter (nombaWebhook hmacSha256 nombaWebhookSecret loads env rawBody signature) db = db

/-- The guard is total on the headers of ASCII characters, and without a secret on all of them. -/
theorem guarded_iff : Guarded hmacSha256 nombaWebhookSecret rawBody signature ↔
    nombaWebhookSecret = "" ∨ ∀ s, signature = some s → isAscii s = true := by
  constructor
  · intro h
    by_contra hraises
    simp only [not_or, not_forall, Bool.not_eq_true] at hraises
    obtain ⟨hsecret, s, rfl, hs⟩ := hraises
    have hfalse := h.verified (not_authentic_of_nonascii hs)
    rw [verify_raises hsecret hs] at hfalse
    exact absurd hfalse nofun
  · intro hascii
    have hrefused : ¬ Authentic hmacSha256 nombaWebhookSecret rawBody signature →
        verifyNombaSignature hmacSha256 nombaWebhookSecret rawBody signature = .ok false := by
      intro h
      rw [verify_of_ascii hascii, decide_eq_false h]
    refine ⟨goesOn_iff, nombaWebhook_stops, hrefused, fun h loads env db => ?_⟩
    rw [stateAfter, nombaWebhook_of_verified (hrefused h) loads env, if_neg (by decide), Prog.run_raise]
    exact ⟨rfl, rfl⟩

end Guarded

/-- A header that is not ASCII makes the comparison raise, and the answer is not 401. -/
theorem nonascii_signature_unanswered : ¬ ∀ (hmacSha256 : List UInt8 → List UInt8 → Digest)
    (nombaWebhookSecret : String) (rawBody : List UInt8) (signature : Option String),
    Guarded hmacSha256 nombaWebhookSecret rawBody signature := by
  intro hclaim
  have hfalse := (hclaim (fun _ _ => ⟨List.replicate 32 0, rfl⟩) "test-webhook-secret" [] (some "é")).verified
    (not_authentic_of_nonascii (by decide))
  rw [verify_raises (by decide) (by decide)] at hfalse
  exact absurd hfalse nofun

end LdbBackend
