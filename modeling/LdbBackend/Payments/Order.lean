import LdbBackend.Payments.Posting
import LdbBackend.Lib.Absorb

/-!
# Delivery order and multiplicity

Deliveries leave the directory alone, so the effects of a whole sequence can be read off its first
state. As long as every wallet can take the credits of any selection of the payloads, a sequence of
deliveries is a fold of effects (`deliverAll_summary`), and that depends only on which payloads occur.
-/

namespace LdbBackend

open Fixed Effects

/-- Deliveries one after another, each in its own surroundings. -/
def deliverAll (db : Tables) (deliveries : List (Surroundings × Json)) : Tables :=
  deliveries.foldl (fun db d => (Prog.run exec (receive d.1 d.2) db).2) db

/-- The effects of payloads, one after another, in a fixed directory. -/
noncomputable def effectAll (db : Tables) (v : Summary) (payloads : List Json) : Summary :=
  payloads.foldl (fun v payload => Effect.apply v (effectOf db payload)) v

/-- Every payload of the set is delivered, and nothing else; outbound posts return normally. -/
structure DeliversAll (payloads : List Json) (deliveries : List (Surroundings × Json)) : Prop where
  benign : ∀ d ∈ deliveries, d.1.Benign
  only : ∀ d ∈ deliveries, d.2 ∈ payloads
  every : ∀ payload ∈ payloads, payload ∈ deliveries.map (·.2)

/-- Each request id names one payload. -/
def Identified (payloads : List Json) : Prop :=
  ∀ j ∈ payloads, ∀ k ∈ payloads, ∀ key, (kindOf j).key = some key → (kindOf k).key = some key → j = k

/-- A wallet together with the credits of any selection of the payloads fits in the digits of the
context. -/
def SumsFit (db : Tables) (payloads : List Json) : Prop :=
  ∀ id w, db.wallet id = some w → ∀ T : List Json, T.Nodup → T ⊆ payloads →
    (w + (T.map fun payload => (effectOf db payload).creditTo id).sum).natAbs < 10 ^ prec

section Sequence

variable {db : Tables} {payloads : List Json}

/-- After some deliveries, the next effect still fits. -/
theorem fits_next (hsums : SumsFit db payloads) {db' : Tables} (h' : db'.Constraints)
    {delivered : List Json} (hsub : delivered ⊆ payloads)
    (hsummary : db'.summary = effectAll db db.summary delivered) {payload : Json}
    (hmem : payload ∈ payloads) : (effectOf db payload).Fits db' := by
  cases he : effectOf db payload with
  | none => trivial
  | mark key => trivial
  | post x =>
    intro hnew row hrow
    obtain ⟨T, hnodup, hT, hseen, hwallet⟩ := foldl_selected (effectOf db) db.summary delivered
    rw [hsummary] at hnew
    have hfresh : payload ∉ T := by
      intro hmemT
      obtain ⟨y, hy, hs⟩ := hseen payload hmemT
      rw [he, Effect.post.injEq] at hy
      exact hnew (hy ▸ hs)
    have hnow : db'.wallet row.id = some row.walletBalance := wallet_of_mem h' hrow
    have hthen : db'.wallet row.id = (db.wallet row.id).map
        (· + (T.map fun k => (effectOf db k).creditTo row.id).sum) :=
      (congrArg (fun v : Summary => v.wallet row.id) hsummary).trans (hwallet row.id)
    rw [hnow] at hthen
    obtain ⟨w, hw, hsum⟩ := Option.map_eq_some_iff.mp hthen.symm
    have hfit := hsums row.id w hw (T ++ [payload]) (nodup_append_singleton hnodup hfresh)
      (List.append_subset.mpr ⟨fun j hj => hsub (hT hj), by simpa using hmem⟩)
    rw [List.map_append, List.sum_append, List.map_singleton, List.sum_singleton, ← add_assoc, hsum,
      he] at hfit
    exact hfit

/-- A sequence of deliveries is a fold of effects in the first directory. -/
theorem deliverAll_summary (h : db.Constraints) (hscaled : ∀ payload ∈ payloads, TwoDecimals payload)
    (hsums : SumsFit db payloads) (deliveries : List (Surroundings × Json))
    (hbenign : ∀ d ∈ deliveries, d.1.Benign) (honly : ∀ d ∈ deliveries, d.2 ∈ payloads) :
    (deliverAll db deliveries).Constraints ∧ SameDirectory db (deliverAll db deliveries) ∧
      (deliverAll db deliveries).summary = effectAll db db.summary (deliveries.map (·.2)) := by
  induction deliveries using List.reverseRecOn with
  | nil => exact ⟨h, .refl db, rfl⟩
  | append_singleton deliveries d ih =>
    have hd : d ∈ deliveries ++ [d] := List.mem_append_right _ (List.mem_singleton_self d)
    obtain ⟨hc, hdir, hsummary⟩ := ih (fun x hx => hbenign x (List.mem_append_left _ hx))
      fun x hx => honly x (List.mem_append_left _ hx)
    set db' := deliverAll db deliveries
    have hstep : deliverAll db (deliveries ++ [d]) = (Prog.run exec (receive d.1 d.2) db').2 := by
      rw [deliverAll, List.foldl_append]
      rfl
    have hsub : deliveries.map (·.2) ⊆ payloads := by
      intro j hj
      obtain ⟨x, hx, rfl⟩ := List.mem_map.mp hj
      exact honly x (List.mem_append_left _ hx)
    have heffect := hdir.effectOf d.2
    have hfit : (effectOf db' d.2).Fits db' := by
      rw [heffect]
      exact fits_next hsums hc hsub hsummary (honly d hd)
    rw [hstep]
    refine ⟨run_constraints _ hc, hdir.trans (receive_directory hc), ?_⟩
    rw [receive_summary hc (hbenign d hd) (hscaled _ (honly d hd)) hfit, heffect, hsummary]
    simp [effectAll, List.foldl_append]

end Sequence

/-- From every state and for every set of payloads, any two sequences of deliveries that contain every
payload of the set end with the same wallets, transactions, suspense entries and processed requests. -/
theorem delivery_order_irrelevant (db : Database) (payloads : List Json)
    (first second : List (Surroundings × Json)) (hids : Identified payloads)
    (hscaled : ∀ payload ∈ payloads, TwoDecimals payload) (hsums : SumsFit db.tables payloads)
    (hfirst : DeliversAll payloads first) (hsecond : DeliversAll payloads second) :
    (deliverAll db.tables first).summary = (deliverAll db.tables second).summary := by
  obtain ⟨-, -, h₁⟩ := deliverAll_summary db.constraints hscaled hsums first hfirst.benign hfirst.only
  obtain ⟨-, -, h₂⟩ :=
    deliverAll_summary db.constraints hscaled hsums second hsecond.benign hsecond.only
  rw [h₁, h₂]
  have honly : ∀ {l : List (Surroundings × Json)}, DeliversAll payloads l →
      ∀ j, j ∈ l.map (·.2) ↔ j ∈ payloads := by
    intro l hl j
    refine ⟨fun hj => ?_, hl.every j⟩
    obtain ⟨d, hd, rfl⟩ := List.mem_map.mp hj
    exact hl.only d hd
  have hcomm : ∀ j k, j ∈ payloads → k ∈ payloads → ∀ v : Summary,
      Effect.apply (Effect.apply v (effectOf db.tables j)) (effectOf db.tables k) =
        Effect.apply (Effect.apply v (effectOf db.tables k)) (effectOf db.tables j) := by
    intro j k hj hk v
    by_cases hjk : j = k
    · rw [hjk]
    · refine Effect.comm (fun key hkey hkey' => hjk ?_) v
      exact hids j hj k hk key (effectOf_key hkey) (effectOf_key hkey')
  have hidem : ∀ k, k ∈ payloads → ∀ v : Summary,
      Effect.apply (Effect.apply v (effectOf db.tables k)) (effectOf db.tables k) =
        Effect.apply v (effectOf db.tables k) := fun k _ v => Effect.idem _ v
  refine @Absorb.foldl_eq_of_same_members Json Summary _ (· ∈ payloads) hcomm hidem _ _
    (fun j hj => (honly hfirst j).mp hj) (fun k => ?_) _
  rw [honly hfirst, honly hsecond]

/-- Two payments into one account, and one for an account that does not exist. -/
def threePayments : List Json :=
  [samplePayment "R1" "9901" 5, samplePayment "R2" "9901" 7, samplePayment "R3" "none" 9]

theorem sumsFit_threePayments : SumsFit (provisioned none).tables threePayments := by
  intro id w hw T hnodup hsub
  have hcredit : ∀ payload ∈ threePayments,
      0 ≤ (effectOf (provisioned none).tables payload).creditTo id ∧
        (effectOf (provisioned none).tables payload).creditTo id ≤ 900 := by
    intro payload hmem
    obtain ⟨x, hx, hpos, hle⟩ : ∃ x, effectOf (provisioned none).tables payload = .post x ∧
        0 ≤ x.transaction.amount ∧ x.transaction.amount ≤ 900 := by
      simp only [threePayments, List.mem_cons, List.not_mem_nil, or_false] at hmem
      rcases hmem with rfl | rfl | rfl
      · exact ⟨_, rfl, by decide, by decide⟩
      · exact ⟨_, rfl, by decide, by decide⟩
      · exact ⟨_, rfl, by decide, by decide⟩
    rw [hx, Effect.creditTo, Posting.creditTo]
    split_ifs
    · exact ⟨hpos, hle⟩
    · exact ⟨le_refl 0, by norm_num⟩
  have hwallet : w = 0 := by
    obtain ⟨row, hfind, rfl⟩ := Option.map_eq_some_iff.mp hw
    have hrow : row = _ := List.mem_singleton.mp (List.mem_of_find?_eq_some hfind)
    rw [hrow]
  set credits := T.map fun payload => (effectOf (provisioned none).tables payload).creditTo id
  have hlength : credits.length ≤ 3 := by
    rw [List.length_map]
    exact (hnodup.subperm hsub).length_le
  have hmem : ∀ c ∈ credits, 0 ≤ c ∧ c ≤ 900 := by
    intro c hc
    obtain ⟨payload, hp, rfl⟩ := List.mem_map.mp hc
    exact hcredit payload (hsub hp)
  have hpos : 0 ≤ credits.sum := List.sum_nonneg fun c hc => (hmem c hc).1
  have hle : credits.sum ≤ credits.length • (900 : Int) :=
    List.sum_le_card_nsmul credits 900 fun c hc => (hmem c hc).2
  rw [hwallet, zero_add, ← Int.ofNat_lt, Int.natAbs_of_nonneg hpos]
  refine lt_of_le_of_lt hle ?_
  rw [nsmul_eq_mul]
  unfold prec
  push_cast
  omega

theorem three_payments_in_any_order :
    (deliverAll (provisioned none).tables (threePayments.map (quiet, ·))).summary =
      (deliverAll (provisioned none).tables
        ((threePayments.reverse ++ threePayments).map (quiet, ·))).summary := by
  have hbenign : ∀ l : List Json, ∀ d ∈ l.map (quiet, ·), d.1.Benign := by
    intro l d hd
    obtain ⟨_, -, rfl⟩ := List.mem_map.mp hd
    exact quiet_benign
  refine delivery_order_irrelevant (provisioned none) threePayments _ _ ?_ ?_ sumsFit_threePayments
    ⟨hbenign _, ?_, ?_⟩ ⟨hbenign _, ?_, ?_⟩
  · intro j hj k hk key hjk hkk
    simp only [threePayments, List.mem_cons, List.not_mem_nil, or_false] at hj hk
    rcases hj with rfl | rfl | rfl <;> rcases hk with rfl | rfl | rfl <;>
      first | rfl | exact absurd (hjk.trans hkk.symm) (by decide)
  · intro payload hp requestId p hk
    simp only [threePayments, List.mem_cons, List.not_mem_nil, or_false] at hp
    rcases hp with rfl | rfl | rfl <;> cases hk
    · exact ⟨500, by norm_num [Decimal.IsScaled, Decimal.toRat, Decimal.num, signed]⟩
    · exact ⟨700, by norm_num [Decimal.IsScaled, Decimal.toRat, Decimal.num, signed]⟩
    · exact ⟨900, by norm_num [Decimal.IsScaled, Decimal.toRat, Decimal.num, signed]⟩
  · simp
  · simp
  · simp
  · simp

end LdbBackend
