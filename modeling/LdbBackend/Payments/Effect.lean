import LdbBackend.Payments.Redelivery
import Mathlib.Data.Set.Insert

/-!
# What a delivery adds to the books

A purpose-level account of deliveries. A `Summary` forgets the order of rows. The effect of a payload
depends only on the directory (accounts, and the targets of their owners) and is to mark a request, to
post a payment once, or nothing. Effects of different requests commute and every effect absorbs its own
repetition, because a posting is skipped when its request is marked or recorded.
-/

namespace LdbBackend

open Fixed Effects Table

/-- The books without the order of rows. -/
@[ext] structure Summary where
  wallet : UUID → Option Cents
  transactions : Set Transaction
  suspense : Set (Option String × SuspenseReason × Cents)
  processed : Set String

def Tables.summary (db : Tables) : Summary where
  wallet := db.wallet
  transactions := {t | t ∈ db.books.transactions}
  suspense := {l | l ∈ db.books.suspense}
  processed := {key | db.processed key = true}

/-- A payment to be posted: its transaction, the reason to hold it or the customer to credit, and
whether the delivery gets as far as the mark. -/
structure Posting where
  transaction : Transaction
  held : Option SuspenseReason
  credited : Option UUID
  marks : Bool

inductive Effect
  | none
  | mark (key : String)
  | post (posting : Posting)

def Posting.key (x : Posting) : String := x.transaction.nombaRequestId

/-- The request is marked, or recorded under a transaction. -/
def Summary.Seen (v : Summary) (key : String) : Prop :=
  key ∈ v.processed ∨ ∃ t ∈ v.transactions, t.nombaRequestId = key

def Summary.mark (v : Summary) (key : String) : Summary :=
  { v with processed := insert key v.processed }

namespace Posting

def creditTo (x : Posting) (id : UUID) : Cents :=
  if x.credited = some id then x.transaction.amount else 0

def apply (x : Posting) (v : Summary) : Summary where
  wallet := fun id => (v.wallet id).map (· + x.creditTo id)
  transactions := insert x.transaction v.transactions
  suspense := {l | l ∈ v.suspense ∨ x.held.map (fun r => (some x.key, r, x.transaction.amount)) = some l}
  processed := {k | k ∈ v.processed ∨ (x.marks = true ∧ k = x.key)}

end Posting

open Classical in
noncomputable def Effect.apply (v : Summary) : Effect → Summary
  | .none => v
  | .mark key => v.mark key
  | .post x => if v.Seen x.key then v else x.apply v

/-- The request an effect is about. -/
def Effect.key : Effect → Option String
  | .none => Option.none
  | .mark key => some key
  | .post x => some x.key

theorem post_seen {x : Posting} {v : Summary} (h : v.Seen x.key) : Effect.apply v (.post x) = v :=
  if_pos h

theorem post_new {x : Posting} {v : Summary} (h : ¬ v.Seen x.key) :
    Effect.apply v (.post x) = x.apply v :=
  if_neg h

/-- What is marked already is not done again. -/
theorem apply_done {v : Summary} {a : Effect} (h : ∀ key, a.key = some key → key ∈ v.processed) :
    Effect.apply v a = v := by
  cases a with
  | none => rfl
  | mark key =>
    show v.mark key = v
    rw [Summary.mark, Set.insert_eq_of_mem (h key rfl)]
  | post x => exact post_seen (.inl (h x.key rfl))

/-! ## Effects of different requests -/

theorem seen_apply (x : Posting) (v : Summary) (key : String) :
    (x.apply v).Seen key ↔ x.key = key ∨ v.Seen key := by
  constructor
  · rintro ((hk | ⟨-, rfl⟩) | ⟨t, rfl | ht, hkey⟩)
    · exact .inr (.inl hk)
    · exact .inl rfl
    · exact .inl hkey
    · exact .inr (.inr ⟨t, ht, hkey⟩)
  · rintro (hkey | hk | ⟨t, ht, hkey⟩)
    · exact .inr ⟨x.transaction, .inl rfl, hkey⟩
    · exact .inl (.inl hk)
    · exact .inr ⟨t, .inr ht, hkey⟩

theorem seen_mark {v : Summary} {k key : String} (h : key ≠ k) : (v.mark k).Seen key ↔ v.Seen key := by
  constructor
  · rintro ((rfl | hk) | ht)
    · exact absurd rfl h
    · exact .inl hk
    · exact .inr ht
  · rintro (hk | ht)
    · exact .inl (.inr hk)
    · exact .inr ht

theorem apply_apply_comm (x y : Posting) (v : Summary) :
    y.apply (x.apply v) = x.apply (y.apply v) := by
  ext z
  · simp only [Posting.apply, Option.map_map]
    congr! 2
    funext w
    exact add_right_comm w (x.creditTo z) (y.creditTo z)
  · simp only [Posting.apply, Set.mem_insert_iff]
    tauto
  · simp only [Posting.apply, Set.mem_ofPred_eq]
    tauto
  · simp only [Posting.apply, Set.mem_ofPred_eq]
    tauto

theorem apply_mark_comm (x : Posting) (v : Summary) (k : String) :
    (x.apply v).mark k = x.apply (v.mark k) := by
  ext z
  · rfl
  · rfl
  · rfl
  · simp only [Posting.apply, Summary.mark, Set.mem_insert_iff, Set.mem_ofPred_eq]
    tauto

theorem mark_post_comm {k : String} {x : Posting} (h : x.key ≠ k) (v : Summary) :
    Effect.apply (v.mark k) (.post x) = (Effect.apply v (.post x)).mark k := by
  by_cases hs : v.Seen x.key
  · rw [post_seen hs, post_seen ((seen_mark h).mpr hs)]
  · rw [post_new hs, post_new fun hs' => hs ((seen_mark h).mp hs'), apply_mark_comm]

theorem post_post_comm {x y : Posting} (h : y.key ≠ x.key) (v : Summary) :
    Effect.apply (Effect.apply v (.post x)) (.post y) =
      Effect.apply (Effect.apply v (.post y)) (.post x) := by
  have hxy : (x.apply v).Seen y.key ↔ v.Seen y.key := by
    rw [seen_apply]
    exact or_iff_right (Ne.symm h)
  have hyx : (y.apply v).Seen x.key ↔ v.Seen x.key := by
    rw [seen_apply]
    exact or_iff_right h
  by_cases hx : v.Seen x.key
  · by_cases hy : v.Seen y.key
    · rw [post_seen hx, post_seen hy, post_seen hx]
    · rw [post_seen hx, post_new hy, post_seen (hyx.mpr hx)]
  · by_cases hy : v.Seen y.key
    · rw [post_new hx, post_seen hy, post_seen (hxy.mpr hy), post_new hx]
    · rw [post_new hx, post_new hy, post_new fun hs => hy (hxy.mp hs),
        post_new fun hs => hx (hyx.mp hs), apply_apply_comm]

/-- Effects of different requests commute. -/
theorem Effect.comm {a b : Effect} (h : ∀ key, a.key = some key → b.key ≠ some key) (v : Summary) :
    Effect.apply (Effect.apply v a) b = Effect.apply (Effect.apply v b) a := by
  cases a with
  | none => rfl
  | mark k =>
    cases b with
    | none => rfl
    | mark k' => simp only [Effect.apply, Summary.mark, Set.insert_comm]
    | post y => exact mark_post_comm (fun he => h k rfl (congrArg some he)) v
  | post x =>
    cases b with
    | none => rfl
    | mark k => exact (mark_post_comm (fun he => h x.key rfl (congrArg some he.symm)) v).symm
    | post y => exact post_post_comm (fun he => h x.key rfl (congrArg some he)) v

/-- An effect absorbs its own repetition. -/
theorem Effect.idem (a : Effect) (v : Summary) :
    Effect.apply (Effect.apply v a) a = Effect.apply v a := by
  cases a with
  | none => rfl
  | mark k => simp [Effect.apply, Summary.mark]
  | post x =>
    by_cases hx : v.Seen x.key
    · rw [post_seen hx, post_seen hx]
    · rw [post_new hx, post_seen ((seen_apply x v x.key).mpr (.inl rfl))]

/-! ## Sequences of effects -/

/-- What an effect adds to a wallet, the first time. -/
def Effect.creditTo : Effect → UUID → Cents
  | .post x, id => x.creditTo id
  | _, _ => 0

theorem seen_mono {v : Summary} {key : String} (h : v.Seen key) (a : Effect) :
    (Effect.apply v a).Seen key := by
  cases a with
  | none => exact h
  | mark k => exact h.imp .inr id
  | post x =>
    by_cases hx : v.Seen x.key
    · rw [post_seen hx]; exact h
    · rw [post_new hx]; exact (seen_apply x v key).mpr (.inr h)

theorem wallet_unposted {v : Summary} {a : Effect} (h : ∀ x, a = .post x → v.Seen x.key) :
    (Effect.apply v a).wallet = v.wallet := by
  cases a with
  | none => rfl
  | mark k => rfl
  | post x => rw [post_seen (h x rfl)]

/-- After a sequence of effects every wallet has grown by the credits of some of them, each counted
once and recorded. -/
theorem foldl_selected {K : Type} (effect : K → Effect) (v : Summary) (l : List K) :
    ∃ T : List K, T.Nodup ∧ T ⊆ l ∧
      (∀ k ∈ T, ∃ x, effect k = .post x ∧
        (l.foldl (fun v k => Effect.apply v (effect k)) v).Seen x.key) ∧
      ∀ id, (l.foldl (fun v k => Effect.apply v (effect k)) v).wallet id =
        (v.wallet id).map (· + (T.map fun k => (effect k).creditTo id).sum) := by
  induction l using List.reverseRecOn with
  | nil => exact ⟨[], List.nodup_nil, List.Subset.refl _, by simp, by simp⟩
  | append_singleton l k ih =>
    obtain ⟨T, hnodup, hsub, hseen, hwallet⟩ := ih
    rw [List.foldl_append, List.foldl_cons, List.foldl_nil]
    set u := l.foldl (fun v k => Effect.apply v (effect k)) v
    have hseen' : ∀ j ∈ T, ∃ x, effect j = .post x ∧ (Effect.apply u (effect k)).Seen x.key := by
      intro j hj
      obtain ⟨x, hx, hs⟩ := hseen j hj
      exact ⟨x, hx, seen_mono hs _⟩
    by_cases hpost : ∀ x, effect k = .post x → u.Seen x.key
    · refine ⟨T, hnodup, fun j hj => List.mem_append_left _ (hsub hj), hseen', fun id => ?_⟩
      rw [wallet_unposted hpost, hwallet]
    · push Not at hpost
      obtain ⟨x, hx, hnew⟩ := hpost
      have hk : k ∉ T := by
        intro hmem
        obtain ⟨y, hy, hs⟩ := hseen k hmem
        rw [hx, Effect.post.injEq] at hy
        exact hnew (hy ▸ hs)
      refine ⟨T ++ [k], nodup_append_singleton hnodup hk, ?_, ?_, fun id => ?_⟩
      · exact List.append_subset.mpr ⟨fun j hj => List.mem_append_left _ (hsub hj), by simp⟩
      · intro j hj
        rcases List.mem_append.mp hj with hj | hj
        · exact hseen' j hj
        · rw [List.mem_singleton.mp hj]
          refine ⟨x, hx, ?_⟩
          rw [hx, post_new hnew]
          exact (seen_apply x u x.key).mpr (.inl rfl)
      · rw [hx, post_new hnew]
        simp only [Posting.apply, hwallet, List.map_append, List.map_cons, List.map_nil,
          List.sum_append, List.sum_singleton, hx, Effect.creditTo, Option.map_map]
        congr 1
        funext w
        exact add_assoc w _ _

end LdbBackend
