import LdbBackend.Lib.Prog

/-!
# Interleaved programs and their protocols

A pool is a shared state with any number of programs in flight. One move starts a program, lets one
program execute its next operation, or kills one with an exception; a schedule is any list of moves.

Invariants of a pool are proved against a *protocol*: an automaton per program whose transitions say
which operations the program may perform and where each answer takes it. `Follows` says that a
program keeps to its protocol, and `Views` replaces the programs of a pool by the places of their
automata. `play_invariant` is the induction rule that remains: an invariant of the view has to
survive the start of a call and one protocol transition (`Next`). Most invariants speak of the shared
state and of one program at a time (`Modular`); `modular_next` says what has to be shown for those.
-/

namespace Effects

variable {Op : Type} {Res : Op → Type} {ε α σ κ γ : Type}

/-- A shared state, the programs in flight under their calls, and the operations that took effect,
each with the number of the program that performed it. -/
structure Pool (Op : Type) (Res : Op → Type) (ε α σ κ : Type) where
  state : σ
  threads : List (κ × Prog Op Res ε α)
  trace : List (Nat × Event Op Res)

/-- A scheduler's choice. -/
inductive Move (κ ε : Type)
  | start (c : κ)
  | advance (i : Nat)
  | kill (i : Nat) (e : ε)

/-- What a schedule may do: the calls it may start, and what has to hold of a call, the state and the
trace when the call, as program `i`, executes an operation. -/
structure Assumption (Op : Type) (Res : Op → Type) (σ κ : Type) where
  call : κ → Prop
  step : κ → σ → List (Nat × Event Op Res) → Nat → Op → Prop

namespace Pool

/-- Nothing in flight. -/
def init (s : σ) : Pool Op Res ε α σ κ := ⟨s, [], []⟩

section Play

variable (exec : (o : Op) → σ → Except ε (Res o × σ)) (body : κ → Prog Op Res ε α)

/-- One move; `none` when the chosen program has no operation left to perform. -/
def move (P : Pool Op Res ε α σ κ) : Move κ ε → Option (Pool Op Res ε α σ κ)
  | .start c => some { P with threads := P.threads ++ [(c, body c)] }
  | .advance i =>
    match P.threads[i]? with
    | some (c, .perform o k) =>
      match exec o P.state with
      | .ok (r, s') => some ⟨s', P.threads.set i (c, k r), P.trace ++ [(i, ⟨o, r⟩)]⟩
      | .error e => some { P with threads := P.threads.set i (c, .raise e) }
    | _ => none
  | .kill i e =>
    match P.threads[i]? with
    | some (c, .perform _ _) => some { P with threads := P.threads.set i (c, .raise e) }
    | _ => none

/-- A whole schedule. -/
def play (P : Pool Op Res ε α σ κ) : List (Move κ ε) → Option (Pool Op Res ε α σ κ)
  | [] => some P
  | m :: ms => (P.move exec body m).bind fun P' => play P' ms

/-- The assumption allows a move in this pool. -/
def Allows (B : Assumption Op Res σ κ) (P : Pool Op Res ε α σ κ) : Move κ ε → Prop
  | .start c => B.call c
  | .advance i => ∀ c o k, P.threads[i]? = some (c, .perform o k) → B.step c P.state P.trace i o
  | .kill _ _ => True

/-- Every step of the schedule meets the assumption where it is taken. -/
def Meets (B : Assumption Op Res σ κ) : Pool Op Res ε α σ κ → List (Move κ ε) → Prop
  | _, [] => True
  | P, m :: ms => P.Allows B m ∧ ∀ P', P.move exec body m = some P' → Meets B P' ms

/-- The rest of a schedule meets the assumption in the pool that the first part leaves. -/
theorem Meets.append {exec : (o : Op) → σ → Except ε (Res o × σ)} {body : κ → Prog Op Res ε α}
    {B : Assumption Op Res σ κ} {P P' : Pool Op Res ε α σ κ} {ms ms' : List (Move κ ε)}
    (h : P.Meets exec body B (ms ++ ms')) (hplay : P.play exec body ms = some P') :
    P.Meets exec body B ms ∧ P'.Meets exec body B ms' := by
  induction ms generalizing P with
  | nil =>
    cases hplay
    exact ⟨trivial, h⟩
  | cons m ms ih =>
    obtain ⟨P₁, hm, hrest⟩ := Option.bind_eq_some_iff.mp hplay
    refine ⟨⟨h.1, fun Q hQ => ?_⟩, (ih (h.2 P₁ hm) hrest).2⟩
    rw [hm, Option.some.injEq] at hQ
    exact hQ ▸ (ih (h.2 P₁ hm) hrest).1

theorem Meets.cons {exec : (o : Op) → σ → Except ε (Res o × σ)} {body : κ → Prog Op Res ε α}
    {B : Assumption Op Res σ κ} {P P' : Pool Op Res ε α σ κ} {m : Move κ ε} {ms : List (Move κ ε)}
    (allows : P.Allows B m) (hm : P.move exec body m = some P') (h : P'.Meets exec body B ms) :
    P.Meets exec body B (m :: ms) := by
  refine ⟨allows, fun Q hQ => ?_⟩
  rw [hm, Option.some.injEq] at hQ
  exact hQ ▸ h

end Play

/-- Every program in flight ended with a value. -/
def AllReturned (P : Pool Op Res ε α σ κ) : Prop :=
  ∀ t ∈ P.threads, ∃ a, t.2 = .pure a

def returned : Prog Op Res ε α → Bool
  | .pure _ => true
  | _ => false

theorem allReturned_iff {P : Pool Op Res ε α σ κ} :
    P.AllReturned ↔ (P.threads.all fun t => returned t.2) = true := by
  rw [List.all_eq_true]
  refine forall₂_congr fun t _ => ?_
  cases t.2 with
  | pure a => exact ⟨fun _ => rfl, fun _ => ⟨a, rfl⟩⟩
  | raise e => exact ⟨nofun, nofun⟩
  | perform o k => exact ⟨nofun, nofun⟩

/-- The program has an operation left. -/
def running : Prog Op Res ε α → Bool
  | .perform _ _ => true
  | _ => false

def Active (P : Pool Op Res ε α σ κ) (i : Nat) : Prop := ∃ c o k, P.threads[i]? = some (c, .perform o k)

/-- The calls that a schedule starts. -/
def started : List (Move κ ε) → List κ
  | [] => []
  | .start c :: ms => c :: started ms
  | _ :: ms => started ms

theorem map_fst_set {β δ : Type} {xs : List (β × δ)} {i : Nat} {b : β} {d d' : δ}
    (h : xs[i]? = some (b, d)) : (xs.set i (b, d')).map Prod.fst = xs.map Prod.fst := by
  rw [List.map_set]
  refine List.ext_getElem? fun j => ?_
  rw [List.getElem?_set]
  split_ifs with hij hlt
  · subst hij
    simp [h]
  · subst hij
    rw [List.getElem?_eq_none (Nat.not_lt.mp hlt)]
  · rfl

/-- An assumption on calls alone is met by every schedule that starts only such calls. -/
theorem meets_of_started {exec : (o : Op) → σ → Except ε (Res o × σ)} {body : κ → Prog Op Res ε α}
    {B : Assumption Op Res σ κ} (hstep : ∀ c s tr i o, B.step c s tr i o) {P : Pool Op Res ε α σ κ}
    {ms : List (Move κ ε)} (h : ∀ c ∈ started ms, B.call c) : P.Meets exec body B ms := by
  induction ms generalizing P with
  | nil => trivial
  | cons m ms ih =>
    cases m with
    | start c =>
      refine ⟨h c List.mem_cons_self, fun P' _ => ih fun c' hc' => ?_⟩
      exact h c' (List.mem_cons_of_mem _ hc')
    | advance i => exact ⟨fun c o k _ => hstep c _ _ i o, fun P' _ => ih h⟩
    | kill i e => exact ⟨trivial, fun P' _ => ih h⟩

section Along

variable (exec : (o : Op) → σ → Except ε (Res o × σ)) (body : κ → Prog Op Res ε α)

/-- `R` holds of every move of the schedule and the pool in which it is made. -/
def Along (R : Pool Op Res ε α σ κ → Move κ ε → Prop) :
    Pool Op Res ε α σ κ → List (Move κ ε) → Prop
  | _, [] => True
  | P, m :: ms => R P m ∧ ∀ P', P.move exec body m = some P' → Along R P' ms

theorem meets_iff_along {B : Assumption Op Res σ κ} {P : Pool Op Res ε α σ κ} {ms : List (Move κ ε)} :
    P.Meets exec body B ms ↔ P.Along exec body (fun P m => P.Allows B m) ms := by
  induction ms generalizing P with
  | nil => exact Iff.rfl
  | cons m ms ih => exact and_congr_right fun _ => forall₂_congr fun P' _ => ih

instance decidableAlong (R : Pool Op Res ε α σ κ → Move κ ε → Prop) [∀ P m, Decidable (R P m)] :
    (P : Pool Op Res ε α σ κ) → (ms : List (Move κ ε)) → Decidable (P.Along exec body R ms)
  | _, [] => .isTrue trivial
  | P, m :: ms =>
    match hm : P.move exec body m with
    | none => decidable_of_iff (R P m) ⟨fun h => ⟨h, fun P' h' => by rw [hm] at h'; cases h'⟩, And.left⟩
    | some P' =>
      have := decidableAlong R P' ms
      decidable_of_iff (R P m ∧ P'.Along exec body R ms)
        ⟨fun h => ⟨h.1, fun Q hQ => by rw [hm] at hQ; cases hQ; exact h.2⟩, fun h => ⟨h.1, h.2 P' hm⟩⟩

instance (B : Assumption Op Res σ κ) [DecidablePred B.call]
    [∀ c s tr i o, Decidable (B.step c s tr i o)] (P : Pool Op Res ε α σ κ) :
    (m : Move κ ε) → Decidable (P.Allows B m)
  | .start c => inferInstanceAs (Decidable (B.call c))
  | .kill _ _ => .isTrue trivial
  | .advance i =>
    match hi : P.threads[i]? with
    | some (c, .perform o k) => decidable_of_iff (B.step c P.state P.trace i o)
        ⟨fun h c' o' k' h' => by rw [hi] at h'; cases h'; exact h, fun h => h c o k hi⟩
    | some (_, .pure _) => .isTrue fun c' o' k' h' => by rw [hi] at h'; cases h'
    | some (_, .raise _) => .isTrue fun c' o' k' h' => by rw [hi] at h'; cases h'
    | none => .isTrue fun c' o' k' h' => by rw [hi] at h'; cases h'

instance (B : Assumption Op Res σ κ) [DecidablePred B.call]
    [∀ c s tr i o, Decidable (B.step c s tr i o)] (P : Pool Op Res ε α σ κ) (ms : List (Move κ ε)) :
    Decidable (P.Meets exec body B ms) :=
  decidable_of_iff _ (meets_iff_along exec body).symm

end Along

/-! ### Calls in turn -/

/-- A call of kind `u` starts when all earlier ones have ended. -/
def StartsInTurn (u : κ → Prop) (P : Pool Op Res ε α σ κ) : Move κ ε → Prop
  | .start c => u c → ∀ t ∈ P.threads, u t.1 → running t.2 = false
  | _ => True

/-- Of the calls of kind `u` only the last may still run. -/
def Succeeding (u : κ → Prop) (P : Pool Op Res ε α σ κ) : Prop :=
  ∀ (i j : Nat) (t t' : κ × Prog Op Res ε α), i < j → P.threads[i]? = some t →
    P.threads[j]? = some t' → u t.1 → u t'.1 → running t.2 = false

section InTurn

variable {exec : (o : Op) → σ → Except ε (Res o × σ)} {body : κ → Prog Op Res ε α} {u : κ → Prop}
  {P P' : Pool Op Res ε α σ κ}

instance [DecidablePred u] (P : Pool Op Res ε α σ κ) : (m : Move κ ε) → Decidable (P.StartsInTurn u m)
  | .start c => inferInstanceAs (Decidable (u c → ∀ t ∈ P.threads, u t.1 → running t.2 = false))
  | .advance _ | .kill _ _ => .isTrue trivial

theorem succeeding_init {s : σ} : (init s : Pool Op Res ε α σ κ).Succeeding u :=
  fun i j t t' _ hi => by simp [init] at hi

/-- A running call of kind `u` is the last of its kind. -/
theorem Succeeding.last (h : P.Succeeding u) {i : Nat} {c : κ} {o : Op} {k : Res o → Prog Op Res ε α}
    (hi : P.threads[i]? = some (c, .perform o k)) (hc : u c) {j : Nat} {t : κ × Prog Op Res ε α}
    (hj : P.threads[j]? = some t) (ht : u t.1) : j ≤ i := by
  by_contra hlt
  have hended := h i j _ _ (Nat.not_le.mp hlt) hi hj hc ht
  cases hended

/-- The running program goes on. -/
theorem Succeeding.set (h : P.Succeeding u) {i : Nat} {c : κ} {o : Op} {k : Res o → Prog Op Res ε α}
    (hi : P.threads[i]? = some (c, .perform o k)) (p : Prog Op Res ε α) (s' : σ)
    (tr : List (Nat × Event Op Res)) :
    Succeeding u (⟨s', P.threads.set i (c, p), tr⟩ : Pool Op Res ε α σ κ) := by
  have hlt := (List.getElem?_eq_some_iff.mp hi).1
  intro a b t t' hab ha hb hut hut'
  simp only [List.getElem?_set, if_pos hlt] at ha hb
  by_cases hia : i = a
  · -- a later call of the kind contradicts that this one was running
    rw [if_pos hia, Option.some.injEq] at ha
    rw [if_neg (by omega)] at hb
    subst ha
    have hle := h.last hi hut hb hut'
    omega
  · rw [if_neg hia] at ha
    by_cases hib : i = b
    · rw [if_pos hib, Option.some.injEq] at hb
      subst hb
      exact h a b t (c, .perform o k) hab ha (hib ▸ hi) hut hut'
    · rw [if_neg hib] at hb
      exact h a b t t' hab ha hb hut hut'

theorem Succeeding.move (h : P.Succeeding u) {m : Move κ ε} (hturn : P.StartsInTurn u m)
    (hm : P.move exec body m = some P') : P'.Succeeding u := by
  cases m with
  | start c =>
    cases hm
    intro i j t t' hij hi hj hut hut'
    have hj' := (List.getElem?_eq_some_iff.mp hj).1
    simp only [List.length_append, List.length_singleton] at hj'
    rw [List.getElem?_append_left (by omega)] at hi
    by_cases hlt : j < P.threads.length
    · rw [List.getElem?_append_left hlt] at hj
      exact h i j t t' hij hi hj hut hut'
    · have hlast : j = P.threads.length := by omega
      subst hlast
      rw [List.getElem?_concat_length, Option.some.injEq] at hj
      subst hj
      exact hturn hut' t (List.mem_of_getElem? hi) hut
  | advance i =>
    simp only [Pool.move] at hm
    split at hm
    · next c o k hi =>
      split at hm
      · cases hm; exact h.set hi _ _ _
      · cases hm; exact h.set hi _ _ _
    · cases hm
  | kill i e =>
    simp only [Pool.move] at hm
    split at hm
    · next c o k hi => cases hm; exact h.set hi _ _ _
    · cases hm

end InTurn

/-- A pool holds the calls that its schedule started, in their order. -/
theorem play_calls {exec : (o : Op) → σ → Except ε (Res o × σ)} {body : κ → Prog Op Res ε α}
    {P P' : Pool Op Res ε α σ κ} {ms : List (Move κ ε)} (h : P.play exec body ms = some P') :
    P'.threads.map Prod.fst = P.threads.map Prod.fst ++ started ms := by
  induction ms generalizing P with
  | nil =>
    cases h
    exact (List.append_nil _).symm
  | cons m ms ih =>
    obtain ⟨P₁, hm, hrest⟩ := Option.bind_eq_some_iff.mp h
    rw [ih hrest]
    cases m with
    | start c =>
      cases hm
      simp [started]
    | kill i e =>
      simp only [move] at hm
      split at hm
      · next hi => cases hm; rw [started, map_fst_set hi]; nofun
      · cases hm
    | advance i =>
      simp only [move] at hm
      split at hm
      · next hi =>
        split at hm
        · cases hm; rw [started, map_fst_set hi]; nofun
        · cases hm; rw [started, map_fst_set hi]; nofun
      · cases hm

section Check

variable (exec : (o : Op) → σ → Except ε (Res o × σ)) (body : κ → Prog Op Res ε α)
  (ok : κ → σ → List (Nat × Event Op Res) → Nat → Op → Bool)

/-- `ok` of every operation that the schedule executes. -/
def check : Pool Op Res ε α σ κ → List (Move κ ε) → Bool
  | _, [] => true
  | P, m :: ms =>
    (match m with
      | .advance i =>
        match P.threads[i]? with
        | some (c, .perform o _) => ok c P.state P.trace i o
        | _ => true
      | _ => true) &&
    match P.move exec body m with
    | some P' => check P' ms
    | none => true

variable {exec body ok}

/-- A run of the schedule shows that it meets an assumption that follows from `ok`. -/
theorem meets_of_check {B : Assumption Op Res σ κ} {P : Pool Op Res ε α σ κ} {ms : List (Move κ ε)}
    (hcalls : ∀ c ∈ P.threads.map Prod.fst ++ started ms, B.call c ∧
      ∀ s tr i o, ok c s tr i o = true → B.step c s tr i o)
    (h : check exec body ok P ms = true) : P.Meets exec body B ms := by
  induction ms generalizing P with
  | nil => trivial
  | cons m ms ih =>
    obtain ⟨hm, hrest⟩ := Bool.and_eq_true_iff.mp h
    refine ⟨?_, fun P' hP' => ?_⟩
    · cases m with
      | start c => exact (hcalls c (List.mem_append_right _ List.mem_cons_self)).1
      | kill i e => trivial
      | advance i =>
        intro c o k hi
        simp only [hi] at hm
        refine (hcalls c (List.mem_append_left _ ?_)).2 _ _ _ _ hm
        exact List.mem_map.mpr ⟨_, List.mem_of_getElem? hi, rfl⟩
    · simp only [hP'] at hrest
      have hmoved : P.play exec body [m] = some P' := by
        rw [play, hP']
        rfl
      refine ih (fun c hc => hcalls c ?_) hrest
      rw [play_calls hmoved, List.append_assoc] at hc
      cases m <;> exact hc

end Check

end Pool

/-! ## Protocols -/

/-- An automaton per call: where it begins and what it may do next. -/
structure Protocol (Op : Type) (Res : Op → Type) (κ γ : Type) where
  init : κ → γ
  /-- In place `g` the call may perform `o` and be in place `f r` after the answer `r`. -/
  step : κ → γ → (o : Op) → (Res o → γ) → Prop

namespace Protocol

variable (A : Protocol Op Res κ γ)

/-- From place `g` the program keeps to the protocol whatever the answers are, and where it ends
with a value, `Q` holds of the place and the value. -/
inductive Follows (c : κ) (Q : γ → α → Prop) : γ → Prog Op Res ε α → Prop
  | pure {g : γ} {a : α} : Q g a → Follows c Q g (.pure a)
  | raise {g : γ} {e : ε} : Follows c Q g (.raise e)
  | perform {g : γ} {o : Op} {k : Res o → Prog Op Res ε α} (f : Res o → γ) :
      A.step c g o f → (∀ r, Follows c Q (f r) (k r)) → Follows c Q g (.perform o k)

/-- A pool seen through its protocol: the state, the place of every program, the trace. -/
structure View (Op : Type) (Res : Op → Type) (σ κ γ : Type) where
  state : σ
  places : List (κ × γ)
  trace : List (Nat × Event Op Res)

/-- What one move does to the view. A killed or failed program keeps its last place. -/
inductive Next (exec : (o : Op) → σ → Except ε (Res o × σ)) (B : Assumption Op Res σ κ) :
    View Op Res σ κ γ → View Op Res σ κ γ → Prop
  | start {v : View Op Res σ κ γ} (c : κ) (hc : B.call c) :
      Next exec B v { v with places := v.places ++ [(c, A.init c)] }
  | act {v : View Op Res σ κ γ} (i : Nat) (c : κ) (g : γ) (o : Op) (f : Res o → γ) (r : Res o)
      (s' : σ) (hi : v.places[i]? = some (c, g)) (hstep : A.step c g o f)
      (hexec : exec o v.state = .ok (r, s')) (hB : B.step c v.state v.trace i o) :
      Next exec B v ⟨s', v.places.set i (c, f r), v.trace ++ [(i, ⟨o, r⟩)]⟩

/-- The view of a pool: same state, same trace, and every program follows the protocol from the
place the view has for it. -/
structure Views (Q : κ → γ → α → Prop) (P : Pool Op Res ε α σ κ) (v : View Op Res σ κ γ) : Prop where
  state : v.state = P.state
  trace : v.trace = P.trace
  length : v.places.length = P.threads.length
  follows : ∀ (i : Nat) (c : κ) (p : Prog Op Res ε α), P.threads[i]? = some (c, p) →
    ∃ g, v.places[i]? = some (c, g) ∧ A.Follows c (Q c) g p

variable {A} {exec : (o : Op) → σ → Except ε (Res o × σ)} {body : κ → Prog Op Res ε α}
  {B : Assumption Op Res σ κ} {Q : κ → γ → α → Prop}

/-- The rule of sequencing: the rest takes over in the places where the first part may end. -/
theorem Follows.bind {β : Type} {c : κ} {Q : γ → α → Prop} {R : γ → β → Prop} {g : γ}
    {p : Prog Op Res ε α} {f : α → Prog Op Res ε β} (h : A.Follows c Q g p)
    (hf : ∀ g' a, Q g' a → A.Follows c R g' (f a)) : A.Follows c R g (p >>= f) := by
  induction h with
  | pure hQ => exact hf _ _ hQ
  | raise => exact .raise
  | perform f' hs _ ih => exact .perform f' hs ih

/-- The rule of one operation. -/
theorem Follows.await {c : κ} {Q : γ → α → Prop} {g : γ} {o : Op} {k : Res o → Prog Op Res ε α}
    (f : Res o → γ) (h : A.step c g o f) (hk : ∀ r, A.Follows c Q (f r) (k r)) :
    A.Follows c Q g (Prog.op o >>= k) :=
  .perform f h hk

/-- The rule of a pure computation that may raise. -/
theorem Follows.lift {β : Type} {c : κ} {Q : γ → α → Prop} {g : γ} {e : Except ε β}
    {k : β → Prog Op Res ε α} (hk : ∀ b, A.Follows c Q g (k b)) :
    A.Follows c Q g (Prog.lift e >>= k) := by
  cases e with
  | error e => exact .raise
  | ok b => exact hk b

theorem Follows.map {β : Type} {c : κ} {Q : γ → α → Prop} {R : γ → β → Prop} {g : γ}
    {p : Prog Op Res ε α} {f : α → β} (h : A.Follows c Q g p) (hf : ∀ g' a, Q g' a → R g' (f a)) :
    A.Follows c R g (f <$> p) := by
  rw [map_eq_pure_bind]
  exact h.bind fun g' a hQ => .pure (hf g' a hQ)

theorem Views.init (s : σ) : A.Views Q (Pool.init s : Pool Op Res ε α σ κ) ⟨s, [], []⟩ :=
  ⟨rfl, rfl, rfl, fun i c p h => by simp [Pool.init] at h⟩

theorem Views.start {P : Pool Op Res ε α σ κ} {v : View Op Res σ κ γ} (h : A.Views Q P v) (c : κ)
    (hbody : A.Follows c (Q c) (A.init c) (body c)) :
    A.Views Q { P with threads := P.threads ++ [(c, body c)] }
      { v with places := v.places ++ [(c, A.init c)] } := by
  refine ⟨h.state, h.trace, by simp [h.length], fun i c' p hi => ?_⟩
  simp only [List.getElem?_append, h.length] at hi ⊢
  split_ifs at hi ⊢ with hlt
  · exact h.follows i c' p hi
  · cases hn : i - P.threads.length with
    | zero =>
      simp only [hn, List.getElem?_cons_zero, Option.some.injEq, Prod.mk.injEq] at hi ⊢
      obtain ⟨rfl, rfl⟩ := hi
      exact ⟨_, ⟨rfl, rfl⟩, hbody⟩
    | succ n => simp [hn] at hi

/-- Replacing a program by another that follows the protocol from a new place. -/
theorem Views.set {P : Pool Op Res ε α σ κ} {v : View Op Res σ κ γ} (h : A.Views Q P v) {i : Nat}
    {c : κ} {p : Prog Op Res ε α} {g : γ} (s' : σ) (tr : List (Nat × Event Op Res))
    (hp : A.Follows c (Q c) g p) :
    A.Views Q ⟨s', P.threads.set i (c, p), tr⟩ ⟨s', v.places.set i (c, g), tr⟩ := by
  refine ⟨rfl, rfl, by simp [h.length], fun j c' p' hj => ?_⟩
  simp only [List.getElem?_set, h.length] at hj ⊢
  split_ifs at hj ⊢ with hij hlt
  · simp only [Option.some.injEq, Prod.mk.injEq] at hj ⊢
    obtain ⟨rfl, rfl⟩ := hj
    exact ⟨_, ⟨rfl, rfl⟩, hp⟩
  · exact h.follows j c' p' hj

/-- Stopping a program keeps the view: a raised exception follows any protocol from anywhere. -/
theorem Views.stop {P : Pool Op Res ε α σ κ} {v : View Op Res σ κ γ} (h : A.Views Q P v) {i : Nat}
    {c : κ} {p : Prog Op Res ε α} (hi : P.threads[i]? = some (c, p)) (e : ε) :
    A.Views Q { P with threads := P.threads.set i (c, .raise e) } v := by
  obtain ⟨g, hg, -⟩ := h.follows i c p hi
  refine ⟨h.state, h.trace, by simp [h.length], fun j c' p' hj => ?_⟩
  simp only [List.getElem?_set] at hj
  split_ifs at hj with hij hlt
  · simp only [Option.some.injEq, Prod.mk.injEq] at hj
    obtain ⟨rfl, rfl⟩ := hj
    exact ⟨g, hij ▸ hg, .raise⟩
  · exact h.follows j c' p' hj

/-- The program at a place. -/
theorem Views.thread {P : Pool Op Res ε α σ κ} {v : View Op Res σ κ γ} (h : A.Views Q P v) {i : Nat}
    {c : κ} {g : γ} (hi : v.places[i]? = some (c, g)) : ∃ p, P.threads[i]? = some (c, p) := by
  obtain ⟨hlt, -⟩ := List.getElem?_eq_some_iff.mp hi
  rw [h.length] at hlt
  obtain ⟨g', hg', -⟩ := h.follows i P.threads[i].1 P.threads[i].2 (List.getElem?_eq_getElem hlt)
  rw [hi, Option.some.injEq, Prod.mk.injEq] at hg'
  refine ⟨P.threads[i].2, ?_⟩
  rw [List.getElem?_eq_getElem hlt, hg'.1]

/-- One move of a pool leaves its view alone or is one step of the view, by a running program. -/
theorem Views.move (hbody : ∀ c, B.call c → A.Follows c (Q c) (A.init c) (body c))
    {P P' : Pool Op Res ε α σ κ} {v : View Op Res σ κ γ} (h : A.Views Q P v) {m : Move κ ε}
    (hB : P.Allows B m) (hm : P.move exec body m = some P') :
    A.Views Q P' v ∨ ∃ v', A.Views Q P' v' ∧ A.Next exec B v v' ∧
      ∀ i e, v'.trace = v.trace ++ [(i, e)] → P.Active i := by
  cases m with
  | start c =>
    cases hm
    refine .inr ⟨_, h.start c (hbody c hB), .start c hB, fun i e he => ?_⟩
    simp at he
  | kill i e =>
    simp only [Pool.move] at hm
    split at hm
    · next hi => cases hm; exact .inl (h.stop hi e)
    · cases hm
  | advance i =>
    simp only [Pool.move] at hm
    split at hm
    · next c o k hi =>
      obtain ⟨g, hg, hfol⟩ := h.follows _ _ _ hi
      cases hfol with
      | perform f hs hk =>
        split at hm
        · next r s' he =>
          cases hm
          rw [← h.state] at he
          have hBs := hB c o k hi
          rw [← h.state, ← h.trace] at hBs
          rw [← h.trace]
          refine .inr ⟨_, h.set s' _ (hk r), .act i c g o f r s' hg hs he hBs, fun j e hj => ?_⟩
          have hij : i = j := (Prod.mk.inj (List.cons.inj (List.append_cancel_left hj)).1).1
          exact hij ▸ ⟨c, o, k, hi⟩
        · next e he => cases hm; exact .inl (h.stop hi e)
    · cases hm

/-- The induction rule: an invariant of the view that holds at the start and survives every step of
the view holds after every schedule that meets the assumption. -/
theorem play_invariant (hbody : ∀ c, B.call c → A.Follows c (Q c) (A.init c) (body c))
    {I : View Op Res σ κ γ → Prop} (hnext : ∀ v v', I v → A.Next exec B v v' → I v')
    {P P' : Pool Op Res ε α σ κ} {v : View Op Res σ κ γ} (h : A.Views Q P v) (hI : I v)
    {ms : List (Move κ ε)} (hB : P.Meets exec body B ms) (hplay : P.play exec body ms = some P') :
    ∃ v', A.Views Q P' v' ∧ I v' := by
  induction ms generalizing P v with
  | nil => cases hplay; exact ⟨v, h, hI⟩
  | cons m ms ih =>
    obtain ⟨P₁, hm, hrest⟩ := Option.bind_eq_some_iff.mp hplay
    rcases h.move hbody hB.1 hm with h₁ | ⟨v₁, h₁, hn, -⟩
    · exact ih h₁ hI (hB.2 P₁ hm) hrest
    · exact ih h₁ (hnext v v₁ hI hn) (hB.2 P₁ hm) hrest

/-- What an invariant of the view says of the steps may be assumed of them. -/
theorem Views.meets (hbody : ∀ c, B.call c → A.Follows c (Q c) (A.init c) (body c))
    {I : View Op Res σ κ γ → Prop} (hnext : ∀ v v', I v → A.Next exec B v v' → I v')
    {B' : Assumption Op Res σ κ} (hcall : ∀ c, B.call c → B'.call c)
    (hstep : ∀ v c i o, I v → B.step c v.state v.trace i o → B'.step c v.state v.trace i o)
    {P : Pool Op Res ε α σ κ} {v : View Op Res σ κ γ} (h : A.Views Q P v) (hI : I v)
    {ms : List (Move κ ε)} (hB : P.Meets exec body B ms) : P.Meets exec body B' ms := by
  induction ms generalizing P v with
  | nil => trivial
  | cons m ms ih =>
    refine ⟨?_, fun P' hm => ?_⟩
    · cases m with
      | start c => exact hcall c hB.1
      | kill i e => trivial
      | advance i =>
        intro c o k hi
        have hBs := hB.1 c o k hi
        rw [← h.state, ← h.trace] at hBs ⊢
        exact hstep v c i o hI hBs
    · rcases h.move hbody hB.1 hm with h' | ⟨v', h', hn, -⟩
      · exact ih h' hI (hB.2 P' hm)
      · exact ih h' (hnext v v' hI hn) (hB.2 P' hm)

/-- Calls of kind `u` in turn: one that acts is the last that was started. -/
def ActsLast (u : κ → Prop) (v v' : View Op Res σ κ γ) : Prop :=
  ∀ i e, v'.trace = v.trace ++ [(i, e)] → ∀ c g, v.places[i]? = some (c, g) → u c →
    ∀ j c' g', v.places[j]? = some (c', g') → u c' → j ≤ i

/-- The induction rule for schedules that start the calls of kind `u` in turn. -/
theorem play_in_turn (hbody : ∀ c, B.call c → A.Follows c (Q c) (A.init c) (body c)) {u : κ → Prop}
    {I : View Op Res σ κ γ → Prop}
    (hnext : ∀ v v', I v → A.Next exec B v v' → ActsLast u v v' → I v')
    {P P' : Pool Op Res ε α σ κ} {v : View Op Res σ κ γ} (h : A.Views Q P v) (hI : I v)
    (hs : P.Succeeding u) {ms : List (Move κ ε)} (hB : P.Meets exec body B ms)
    (hu : P.Along exec body (Pool.StartsInTurn u) ms) (hplay : P.play exec body ms = some P') :
    ∃ v', A.Views Q P' v' ∧ I v' := by
  induction ms generalizing P v with
  | nil => cases hplay; exact ⟨v, h, hI⟩
  | cons m ms ih =>
    obtain ⟨P₁, hm, hrest⟩ := Option.bind_eq_some_iff.mp hplay
    have hs₁ := hs.move hu.1 hm
    rcases h.move hbody hB.1 hm with h₁ | ⟨v₁, h₁, hn, hactive⟩
    · exact ih h₁ hI hs₁ (hB.2 P₁ hm) (hu.2 P₁ hm) hrest
    · refine ih h₁ (hnext v v₁ hI hn ?_) hs₁ (hB.2 P₁ hm) (hu.2 P₁ hm) hrest
      intro i e he c g hi hc j c' g' hj hc'
      obtain ⟨d, o, k, hrun⟩ := hactive i e he
      obtain ⟨p, hp⟩ := h.thread hj
      obtain ⟨p', hp'⟩ := h.thread hi
      rw [hrun, Option.some.injEq, Prod.mk.injEq] at hp'
      exact hs.last hrun (hp'.1 ▸ hc) hp hc'

/-- `G` holds of the state and the trace, and `T` of every program at its place. -/
structure Modular (B : Assumption Op Res σ κ) (G : σ → List (Nat × Event Op Res) → Prop)
    (T : σ → List (Nat × Event Op Res) → Nat → κ → γ → Prop) (v : View Op Res σ κ γ) : Prop where
  shared : G v.state v.trace
  program : ∀ i c g, v.places[i]? = some (c, g) → B.call c ∧ T v.state v.trace i c g
  index : ∀ e ∈ v.trace, e.1 < v.places.length

theorem Modular.init {G : σ → List (Nat × Event Op Res) → Prop}
    {T : σ → List (Nat × Event Op Res) → Nat → κ → γ → Prop} {s : σ} (h : G s []) :
    Modular B G T ⟨s, [], []⟩ :=
  ⟨h, fun i c g hi => by simp at hi, fun e he => by cases he⟩

/-- The rule for invariants of one program at a time: the program that acts has to keep its own part
and the shared part, and must not disturb the part of any other. -/
theorem modular_next {G : σ → List (Nat × Event Op Res) → Prop}
    {T : σ → List (Nat × Event Op Res) → Nat → κ → γ → Prop}
    (hstart : ∀ s tr i c, B.call c → G s tr → (∀ e ∈ tr, e.1 ≠ i) → T s tr i c (A.init c))
    (hown : ∀ s tr i c g o f r s', B.call c → G s tr → T s tr i c g → A.step c g o f →
      exec o s = .ok (r, s') → B.step c s tr i o →
      G s' (tr ++ [(i, ⟨o, r⟩)]) ∧ T s' (tr ++ [(i, ⟨o, r⟩)]) i c (f r))
    (hother : ∀ s tr i c g o f r s', B.call c → G s tr → T s tr i c g → A.step c g o f →
      exec o s = .ok (r, s') → B.step c s tr i o →
      ∀ j c' g', j ≠ i → B.call c' → T s tr j c' g' → T s' (tr ++ [(i, ⟨o, r⟩)]) j c' g')
    {v v' : View Op Res σ κ γ} (hI : Modular B G T v) (hn : A.Next exec B v v') :
    Modular B G T v' := by
  cases hn with
  | start c hc =>
    refine ⟨hI.shared, fun i c' g' hi => ?_, fun e he => ?_⟩
    · simp only [List.getElem?_append] at hi
      split_ifs at hi with hlt
      · exact hI.program i c' g' hi
      · have hnew : i - v.places.length = 0 := by
          by_contra hne
          rw [List.getElem?_eq_none (by simp; omega)] at hi
          cases hi
        simp only [hnew, List.getElem?_cons_zero, Option.some.injEq, Prod.mk.injEq] at hi
        obtain ⟨rfl, rfl⟩ := hi
        refine ⟨hc, hstart _ _ _ _ hc hI.shared fun e he heq => ?_⟩
        have := hI.index e he
        omega
    · have := hI.index e he
      simp only [List.length_append, List.length_singleton]
      omega
  | act i c g o f r s' hi hstep hexec hB =>
    obtain ⟨hc, hT⟩ := hI.program i c g hi
    obtain ⟨hG', hT'⟩ := hown _ _ _ _ _ _ _ _ _ hc hI.shared hT hstep hexec hB
    refine ⟨hG', fun j c' g' hj => ?_, fun e he => ?_⟩
    · simp only [List.getElem?_set] at hj
      split_ifs at hj with hij hlt
      · simp only [Option.some.injEq, Prod.mk.injEq] at hj
        obtain ⟨rfl, rfl⟩ := hj
        exact ⟨hc, hij ▸ hT'⟩
      · obtain ⟨hc', hTj⟩ := hI.program j c' g' hj
        exact ⟨hc', hother _ _ _ _ _ _ _ _ _ hc hI.shared hT hstep hexec hB j c' g'
          (Ne.symm hij) hc' hTj⟩
    · simp only [List.length_set]
      rcases List.mem_append.mp he with he | he
      · exact hI.index e he
      · cases List.mem_singleton.mp he
        exact (List.getElem?_eq_some_iff.mp hi).1

/-- The view has the calls of the pool. -/
theorem Views.calls {P : Pool Op Res ε α σ κ} {v : View Op Res σ κ γ} (h : A.Views Q P v) :
    v.places.map Prod.fst = P.threads.map Prod.fst := by
  refine List.ext_getElem (by simp [h.length]) fun i hv hP => ?_
  rw [List.length_map] at hP
  obtain ⟨g, hg, -⟩ := h.follows i P.threads[i].1 P.threads[i].2 (List.getElem?_eq_getElem hP)
  obtain ⟨hlt, heq⟩ := List.getElem?_eq_some_iff.mp hg
  simp [heq]

/-- In a pool whose programs all returned, every program ended where its protocol lets it end. -/
theorem Views.returned {P : Pool Op Res ε α σ κ} {v : View Op Res σ κ γ} (h : A.Views Q P v)
    (hret : P.AllReturned) {i : Nat} {c : κ} {g : γ} (hi : v.places[i]? = some (c, g)) :
    ∃ a, Q c g a := by
  obtain ⟨hlt, -⟩ := List.getElem?_eq_some_iff.mp hi
  rw [h.length] at hlt
  obtain ⟨a, ha⟩ := hret _ (List.getElem_mem hlt)
  obtain ⟨g', hg', hfol⟩ := h.follows i P.threads[i].1 P.threads[i].2 (List.getElem?_eq_getElem hlt)
  rw [hi, Option.some.injEq, Prod.mk.injEq] at hg'
  obtain ⟨rfl, rfl⟩ := hg'
  rw [ha] at hfol
  cases hfol with
  | pure hQ => exact ⟨a, hQ⟩

end Protocol

/-! ## What comes before an event -/

/-- `φ` holds of every event and the events before it. -/
def EachAfter (φ : List (Nat × Event Op Res) → Nat × Event Op Res → Prop) (tr : List (Nat × Event Op Res)) :
    Prop :=
  ∀ before e after, tr = before ++ e :: after → φ before e

theorem EachAfter.nil {φ : List (Nat × Event Op Res) → Nat × Event Op Res → Prop} : EachAfter φ [] :=
  fun before e after h => by simp at h

theorem EachAfter.concat {φ : List (Nat × Event Op Res) → Nat × Event Op Res → Prop}
    {tr : List (Nat × Event Op Res)} {x : Nat × Event Op Res} (h : EachAfter φ tr) (hx : φ tr x) :
    EachAfter φ (tr ++ [x]) := by
  intro before e after heq
  rcases List.eq_nil_or_concat after with rfl | ⟨rest, y, rfl⟩
  · obtain ⟨rfl, he⟩ := List.append_inj' heq rfl
    cases he
    exact hx
  · rw [List.concat_eq_append, ← List.cons_append, ← List.append_assoc] at heq
    exact h before e rest (List.append_inj' heq rfl).1

end Effects
