import LdbBackend.Lib.Outcome
import LdbBackend.Lib.Pool

/-!
# Contests

Programs that perform idle operations until they bid, where only one bid can succeed: it wins the state,
and in a won state every bid is refused. However such programs interleave, and wherever they are killed,
the state is one that a single program leaves when it runs alone and is stopped somewhere
(`contest_stopped`). If nobody is killed and all have ended, it is the state that one of them leaves alone,
and that one ended as it does alone (`contest_ended`).
-/

namespace Effects

variable {Op : Type} {Res : Op → Type} {ε α β σ κ : Type}

namespace Prog

/-- Idle operations, answered as said, until a bid; a program that ends before it bids yields a value of
`R`. -/
inductive Bids (idle bid : Op → Prop) (answers : (o : Op) → Res o → Prop) (R : α → Prop) :
    Prog Op Res ε α → Prop
  | pure {a : α} : R a → Bids idle bid answers R (.pure a)
  | raise {e : ε} : Bids idle bid answers R (.raise e)
  | idle {o : Op} {k : Res o → Prog Op Res ε α} : idle o → (∀ r, answers o r → Bids idle bid answers R (k r)) →
      Bids idle bid answers R (.perform o k)
  | bid {o : Op} {k : Res o → Prog Op Res ε α} : bid o → Bids idle bid answers R (.perform o k)

section Bids

variable {idle bid : Op → Prop} {answers : (o : Op) → Res o → Prop} {R : α → Prop} {S : β → Prop}

/-- The rule of sequencing: the rest goes on where the first part ended without a bid. -/
theorem Bids.bind {p : Prog Op Res ε α} {f : α → Prog Op Res ε β} (hp : p.Bids idle bid answers R)
    (hf : ∀ a, R a → (f a).Bids idle bid answers S) : (p >>= f).Bids idle bid answers S := by
  induction hp with
  | pure ha => exact hf _ ha
  | raise => exact .raise
  | idle ho _ ih => exact .idle ho ih
  | bid ho => exact .bid ho

theorem Bids.await {o : Op} {k : Res o → Prog Op Res ε α} (ho : idle o)
    (hk : ∀ r, answers o r → (k r).Bids idle bid answers R) : (op o >>= k).Bids idle bid answers R :=
  .idle ho hk

theorem Bids.map {p : Prog Op Res ε α} {f : α → β} (hp : p.Bids idle bid answers R) (hf : ∀ a, R a → S (f a)) :
    (f <$> p).Bids idle bid answers S := by
  rw [map_eq_pure_bind]
  exact hp.bind fun a ha => .pure (hf a ha)

end Bids

section Reaches

variable (exec : (o : Op) → σ → Except ε (Res o × σ))

/-- Running alone, the program comes to `p'` in the state `s'`. -/
inductive Reaches : Prog Op Res ε α → σ → Prog Op Res ε α → σ → Prop
  | refl (p : Prog Op Res ε α) (s : σ) : Reaches p s p s
  | step {o : Op} {k : Res o → Prog Op Res ε α} {p' : Prog Op Res ε α} {s s₁ s' : σ} {r : Res o}
      (first : exec o s = .ok (r, s₁)) (rest : Reaches (k r) s₁ p' s') : Reaches (.perform o k) s p' s'

variable {exec} {p : Prog Op Res ε α} {s s' s'' : σ}

theorem Reaches.last {o : Op} {k : Res o → Prog Op Res ε α} {r : Res o}
    (h : Reaches exec p s (.perform o k) s') (he : exec o s' = .ok (r, s'')) :
    Reaches exec p s (k r) s'' := by
  generalize hq : Prog.perform o k = q at h
  induction h with
  | refl p s => subst hq; exact .step he (.refl _ _)
  | step first _ ih => exact .step first (ih he hq)

theorem Reaches.run {p' : Prog Op Res ε α} (h : Reaches exec p s p' s') :
    run exec p' s' = run exec p s := by
  induction h with
  | refl p s => rfl
  | step first _ ih => rw [run_perform_ok exec first, ih]

theorem Reaches.all {q : Op → Prop} {p' : Prog Op Res ε α} (h : Reaches exec p s p' s') (hp : p.All q) :
    p'.All q := by
  induction h with
  | refl p s => exact hp
  | step _ _ ih => exact ih (hp.2 _)

/-- Stopped there, the program leaves that state. -/
theorem Reaches.cut {p' : Prog Op Res ε α} (h : Reaches exec p s p' s') :
    ∃ n, ∀ e, (Prog.run exec (Prog.cut e n p) s).2 = s' := by
  induction h with
  | refl p s =>
    refine ⟨0, fun e => ?_⟩
    cases p <;> rfl
  | step first _ ih =>
    obtain ⟨n, hn⟩ := ih
    refine ⟨n + 1, fun e => ?_⟩
    rw [Prog.cut, run_perform_ok exec first]
    exact hn e

end Reaches

/-- How the program has ended, if it has. -/
def verdict : Prog Op Res ε α → Option (Except ε α)
  | .pure a => some (.ok a)
  | .raise e => some (.error e)
  | .perform _ _ => none

theorem verdict_of_run {exec : (o : Op) → σ → Except ε (Res o × σ)} {p : Prog Op Res ε α} {s : σ}
    {x : Except ε α × σ} (hended : p.verdict ≠ none) (h : run exec p s = x) :
    p.verdict = some x.1 ∧ s = x.2 := by
  cases p with
  | pure a => subst h; exact ⟨rfl, rfl⟩
  | raise e => subst h; exact ⟨rfl, rfl⟩
  | perform o k => exact absurd rfl hended

theorem Bids.ended {idle bid : Op → Prop} {answers : (o : Op) → Res o → Prop} {R : α → Prop}
    {p : Prog Op Res ε α} (h : p.Bids idle bid answers R)
    (hended : p.verdict ≠ none) : (∃ e, p = .raise e) ∨ ∃ a, p = .pure a ∧ R a := by
  cases h with
  | pure ha => exact .inr ⟨_, rfl, ha⟩
  | raise => exact .inl ⟨_, rfl⟩
  | idle _ _ | bid _ => exact absurd rfl hended

end Prog

/-- What every transition of the protocol performs, a program that keeps to it performs. -/
theorem Protocol.Follows.all {γ : Type} {A : Protocol Op Res κ γ} {c : κ} {Q : γ → α → Prop} {q : Op → Prop}
    {g : γ} {p : Prog Op Res ε α} (h : A.Follows c Q g p) (hq : ∀ g o f, A.step c g o f → q o) : p.All q := by
  induction h with
  | pure _ => trivial
  | raise => trivial
  | perform f hstep _ ih => exact ⟨hq _ _ f hstep, ih⟩

/-- What the entrants may do before they bid and how that is answered, what a bid is, which states are won,
which operations do not give a state away again, and with which values an entrant that never bids may end. -/
structure Rules (Op : Type) (Res : Op → Type) (σ κ α : Type) where
  entrant : κ → Prop
  idle : Op → Prop
  answers : (o : Op) → Res o → Prop
  bid : Op → Prop
  safe : Op → Prop
  won : σ → Prop
  waived : α → Prop

/-- The rules mean what they say, and the entrants keep to them. -/
structure Contest (exec : (o : Op) → σ → Except ε (Res o × σ)) (body : κ → Prog Op Res ε α)
    (C : Rules Op Res σ κ α) : Prop where
  idle_keeps : ∀ o s r s', C.idle o → exec o s = .ok (r, s') → s' = s
  answered : ∀ o s r s', C.idle o → exec o s = .ok (r, s') → C.answers o r
  wins : ∀ o s r s', C.bid o → exec o s = .ok (r, s') → C.won s'
  once : ∀ o s r s', C.bid o → C.won s → exec o s ≠ .ok (r, s')
  stays : ∀ o s r s', C.safe o → C.won s → exec o s = .ok (r, s') → C.won s'
  bids : ∀ c, C.entrant c → (body c).Bids C.idle C.bid C.answers C.waived
  safe : ∀ c, C.entrant c → (body c).All C.safe

namespace Contest

open Pool

theorem threads_set {xs : List (κ × Prog Op Res ε α)} {i j : Nat} {x y : κ × Prog Op Res ε α}
    (h : (xs.set i x)[j]? = some y) : (j = i ∧ y = x) ∨ (j ≠ i ∧ xs[j]? = some y) := by
  rw [List.getElem?_set] at h
  split_ifs at h with hij hlt
  · exact .inl ⟨hij.symm, (Option.some.inj h).symm⟩
  · exact .inr ⟨Ne.symm hij, h⟩

theorem threads_append {xs : List (κ × Prog Op Res ε α)} {j : Nat} {x y : κ × Prog Op Res ε α}
    (h : (xs ++ [x])[j]? = some y) : y = x ∨ xs[j]? = some y := by
  rw [List.getElem?_append] at h
  split_ifs at h with hlt
  · exact .inr h
  · exact .inl (List.mem_singleton.mp (List.mem_of_getElem? h))

section States

variable (exec : (o : Op) → σ → Except ε (Res o × σ)) (body : κ → Prog Op Res ε α) (C : Rules Op Res σ κ α)
  (s : σ) (calm : Prop)

/-- An entrant before its bid. -/
structure Entered (c : κ) (p : Prog Op Res ε α) : Prop where
  entrant : C.entrant c
  bids : p.Bids C.idle C.bid C.answers C.waived

/-- An entrant of an open contest: it has only idled, or was stopped. -/
structure Waits (c : κ) (p : Prog Op Res ε α) : Prop extends Entered C c p where
  reaches : Prog.Reaches exec (body c) s p s ∨ ∃ e, p = .raise e
  alone : calm → Prog.run exec p s = Prog.run exec (body c) s

/-- The winner: it comes to `p` alone, and is there or was stopped there. -/
structure Winner (s' : σ) (c : κ) (q : Prog Op Res ε α) : Prop where
  entrant : C.entrant c
  reaches : ∃ p, Prog.Reaches exec (body c) s p s' ∧ (q = p ∨ ∃ e, q = .raise e)
  alone : calm → Prog.run exec q s' = Prog.run exec (body c) s

/-- The pool of a contest that began in the state `s`; `calm` says that nobody was killed. -/
inductive Played (P : Pool Op Res ε α σ κ) : Prop
  | pending (state : P.state = s)
      (threads : ∀ (i : Nat) c p, P.threads[i]? = some (c, p) → Waits exec body C s calm c p)
  | decided (i : Nat) (c : κ) (q : Prog Op Res ε α) (thread : P.threads[i]? = some (c, q))
      (winner : Winner exec body C s calm P.state c q) (won : C.won P.state)
      (others : ∀ (j : Nat) c p, j ≠ i → P.threads[j]? = some (c, p) → Entered C c p)

end States

variable {exec : (o : Op) → σ → Except ε (Res o × σ)} {body : κ → Prog Op Res ε α} {C : Rules Op Res σ κ α}
  {s : σ} {calm : Prop} {P P' : Pool Op Res ε α σ κ} {c : κ} {o : Op} {k : Res o → Prog Op Res ε α}
  {r : Res o} {s' s'' : σ} {e : ε}

theorem Entered.stopped {p : Prog Op Res ε α} (h : Entered C c p) (e : ε) :
    Entered C c (.raise e : Prog Op Res ε α) :=
  ⟨h.entrant, .raise⟩

/-- An entrant that goes on without winning has idled. -/
theorem Entered.next (hC : Contest exec body C) (h : Entered C c (.perform o k))
    (hbid : ¬ C.bid o) (he : exec o s' = .ok (r, s'')) : s'' = s' ∧ Entered C c (k r) := by
  cases h.bids with
  | idle ho hk => exact ⟨hC.idle_keeps o s' r s'' ho he, h.entrant, hk r (hC.answered o s' r s'' ho he)⟩
  | bid ho => exact absurd ho hbid

theorem Waits.start (hC : Contest exec body C) (hc : C.entrant c) : Waits exec body C s calm c (body c) :=
  ⟨⟨hc, hC.bids c hc⟩, .inl (.refl _ _), fun _ => rfl⟩

theorem Waits.refused (h : Waits exec body C s calm c (.perform o k)) (he : exec o s = .error e) :
    Waits exec body C s calm c (.raise e) := by
  refine ⟨h.stopped e, .inr ⟨e, rfl⟩, fun hcalm => ?_⟩
  rw [← h.alone hcalm, Prog.run_perform_error exec he]
  rfl

theorem Waits.next (hC : Contest exec body C) (h : Waits exec body C s calm c (.perform o k))
    (hbid : ¬ C.bid o) (he : exec o s = .ok (r, s')) : s' = s ∧ Waits exec body C s calm c (k r) := by
  obtain ⟨rfl, hentered⟩ := h.toEntered.next hC hbid he
  refine ⟨rfl, hentered, .inl ?_, fun hcalm => ?_⟩
  · rcases h.reaches with hreach | ⟨e, hraise⟩
    · exact hreach.last he
    · cases hraise
  · rw [← h.alone hcalm, Prog.run_perform_ok exec he]

/-- A bid that succeeds makes its program the winner. -/
theorem Waits.wins (h : Waits exec body C s calm c (.perform o k)) (he : exec o s = .ok (r, s')) :
    Winner exec body C s calm s' c (k r) := by
  refine ⟨h.entrant, ⟨k r, ?_, .inl rfl⟩, fun hcalm => ?_⟩
  · rcases h.reaches with hreach | ⟨e, hraise⟩
    · exact hreach.last he
    · cases hraise
  · rw [← h.alone hcalm, Prog.run_perform_ok exec he]

theorem Winner.next (h : Winner exec body C s calm s' c (.perform o k)) (he : exec o s' = .ok (r, s'')) :
    Winner exec body C s calm s'' c (k r) := by
  obtain ⟨p, hreach, hp⟩ := h.reaches
  refine ⟨h.entrant, ⟨k r, ?_, .inl rfl⟩, fun hcalm => ?_⟩
  · rcases hp with rfl | ⟨e, hraise⟩
    · exact hreach.last he
    · cases hraise
  · rw [← h.alone hcalm, Prog.run_perform_ok exec he]

/-- The winner stays the winner when it is stopped. -/
theorem Winner.stopped (h : Winner exec body C s calm s' c (.perform o k))
    (he : calm → exec o s' = .error e) : Winner exec body C s calm s' c (.raise e) := by
  obtain ⟨p, hreach, -⟩ := h.reaches
  refine ⟨h.entrant, ⟨p, hreach, .inr ⟨e, rfl⟩⟩, fun hcalm => ?_⟩
  rw [← h.alone hcalm, Prog.run_perform_error exec (he hcalm)]
  rfl

/-- The operations of the winner are safe. -/
theorem Winner.safe (hC : Contest exec body C) (h : Winner exec body C s calm s' c (.perform o k)) :
    C.safe o := by
  obtain ⟨p, hreach, hp⟩ := h.reaches
  rcases hp with rfl | ⟨e, hraise⟩
  · exact (hreach.all (hC.safe c h.entrant)).1
  · cases hraise

/-! ### One move -/

theorem played_start (hC : Contest exec body C) (h : Played exec body C s calm P) (hc : C.entrant c) :
    Played exec body C s calm { P with threads := P.threads ++ [(c, body c)] } := by
  cases h with
  | pending state threads =>
    refine .pending state fun i c' p hi => ?_
    rcases threads_append hi with heq | hi
    · cases heq
      exact .start hC hc
    · exact threads i c' p hi
  | decided i c₁ q thread winner won others =>
    have hlt := (List.getElem?_eq_some_iff.mp thread).1
    refine .decided i c₁ q (by rw [List.getElem?_append_left hlt]; exact thread) winner won ?_
    intro j c' p hji hj
    rcases threads_append hj with heq | hj
    · cases heq
      exact ⟨hc, hC.bids c hc⟩
    · exact others j c' p hji hj

/-- A program that stops: by a refused operation, or killed when the pool is not calm. -/
theorem played_stop (h : Played exec body C s calm P) {i : Nat} (hi : P.threads[i]? = some (c, .perform o k))
    (he : calm → exec o P.state = .error e) :
    Played exec body C s calm { P with threads := P.threads.set i (c, .raise e) } := by
  have hlt := (List.getElem?_eq_some_iff.mp hi).1
  cases h with
  | pending state threads =>
    refine .pending state fun j c' p hj => ?_
    rcases threads_set hj with ⟨-, heq⟩ | ⟨-, hj⟩
    · cases heq
      have hwaits := threads i c _ hi
      refine ⟨hwaits.stopped e, .inr ⟨e, rfl⟩, fun hcalm => ?_⟩
      exact (hwaits.refused (state ▸ he hcalm)).alone hcalm
    · exact threads j c' p hj
  | decided w c₁ q thread winner won others =>
    by_cases hwi : w = i
    · subst hwi
      rw [hi, Option.some.injEq, Prod.mk.injEq] at thread
      obtain ⟨rfl, rfl⟩ := thread
      refine .decided w c (.raise e) (List.getElem?_set_self hlt) (winner.stopped he) won ?_
      intro j c' p hjw hj
      rcases threads_set hj with ⟨hjw', -⟩ | ⟨-, hj⟩
      · exact absurd hjw' hjw
      · exact others j c' p hjw hj
    · refine .decided w c₁ q (by rw [List.getElem?_set_ne (Ne.symm hwi)]; exact thread) winner won ?_
      intro j c' p hjw hj
      rcases threads_set hj with ⟨hji, heq⟩ | ⟨-, hj⟩
      · cases heq
        exact (others i c _ (Ne.symm hwi) hi).stopped e
      · exact others j c' p hjw hj

/-- A program that goes on. -/
theorem played_go (hC : Contest exec body C) (h : Played exec body C s calm P) {i : Nat}
    (hi : P.threads[i]? = some (c, .perform o k)) (he : exec o P.state = .ok (r, s'))
    (tr : List (Nat × Event Op Res)) :
    Played exec body C s calm ⟨s', P.threads.set i (c, k r), tr⟩ := by
  have hlt := (List.getElem?_eq_some_iff.mp hi).1
  cases h with
  | pending state threads =>
    have hwaits := threads i c _ hi
    rw [state] at he
    by_cases hbid : C.bid o
    · -- the first bid that succeeds decides the contest
      refine .decided i c (k r) (List.getElem?_set_self hlt) (hwaits.wins he) (hC.wins o s r s' hbid he) ?_
      intro j c' p hji hj
      rcases threads_set hj with ⟨hji', -⟩ | ⟨-, hj⟩
      · exact absurd hji' hji
      · exact (threads j c' p hj).toEntered
    · obtain ⟨rfl, hnext⟩ := hwaits.next hC hbid he
      refine .pending rfl fun j c' p hj => ?_
      rcases threads_set hj with ⟨-, heq⟩ | ⟨-, hj⟩
      · cases heq
        exact hnext
      · exact threads j c' p hj
  | decided w c₁ q thread winner won others =>
    by_cases hwi : w = i
    · subst hwi
      rw [hi, Option.some.injEq, Prod.mk.injEq] at thread
      obtain ⟨rfl, rfl⟩ := thread
      refine .decided w c (k r) (List.getElem?_set_self hlt) (winner.next he)
        (hC.stays o _ r s' (winner.safe hC) won he) ?_
      intro j c' p hjw hj
      rcases threads_set hj with ⟨hjw', -⟩ | ⟨-, hj⟩
      · exact absurd hjw' hjw
      · exact others j c' p hjw hj
    · have hentered := others i c _ (Ne.symm hwi) hi
      have hbid : ¬ C.bid o := fun hbid => hC.once o _ r s' hbid won he
      obtain ⟨rfl, hnext⟩ := hentered.next hC hbid he
      refine .decided w c₁ q (by rw [List.getElem?_set_ne (Ne.symm hwi)]; exact thread) winner won ?_
      intro j c' p hjw hj
      rcases threads_set hj with ⟨-, heq⟩ | ⟨-, hj⟩
      · cases heq
        exact hnext
      · exact others j c' p hjw hj

theorem played_move (hC : Contest exec body C) (h : Played exec body C s calm P) {m : Move κ ε}
    (hstart : ∀ c, m = .start c → C.entrant c) (hkill : ∀ i e, m = .kill i e → ¬ calm)
    (hm : P.move exec body m = some P') : Played exec body C s calm P' := by
  cases m with
  | start c =>
    cases hm
    exact played_start hC h (hstart c rfl)
  | kill i e =>
    simp only [Pool.move] at hm
    split at hm
    · next hi => cases hm; exact played_stop h hi fun hcalm => absurd hcalm (hkill i e rfl)
    · cases hm
  | advance i =>
    simp only [Pool.move] at hm
    split at hm
    · next hi =>
      split at hm
      · next he => cases hm; exact played_go hC h hi he _
      · next he => cases hm; exact played_stop h hi fun _ => he
    · cases hm

variable (calm) in
/-- Every schedule of entrants plays a contest. -/
theorem played (hC : Contest exec body C) (h : Played exec body C s calm P) {ms : List (Move κ ε)}
    (hstart : ∀ c ∈ started ms, C.entrant c) (hkill : ∀ i e, .kill i e ∈ ms → ¬ calm)
    (hplay : P.play exec body ms = some P') : Played exec body C s calm P' := by
  induction ms generalizing P with
  | nil =>
    cases hplay
    exact h
  | cons m ms ih =>
    obtain ⟨P₁, hm, hrest⟩ := Option.bind_eq_some_iff.mp hplay
    refine ih (played_move hC h (fun c hc => ?_) (fun i e he => ?_) hm) (fun c hc => ?_)
      (fun i e he => hkill i e (List.mem_cons_of_mem _ he)) hrest
    · subst hc
      exact hstart c List.mem_cons_self
    · subst he
      exact hkill i e List.mem_cons_self
    · refine hstart c ?_
      cases m with
      | start c' => exact List.mem_cons_of_mem _ hc
      | advance i => exact hc
      | kill i e => exact hc

theorem played_init : Played exec body C s calm (Pool.init s) :=
  .pending rfl fun i c p hi => by simp [Pool.init] at hi

/-! ### Whole schedules -/

section Schedule

variable {ms : List (Move κ ε)}

/-- Wherever the entrants are killed, the state is one that a single of them leaves, stopped somewhere. -/
theorem contest_stopped (hC : Contest exec body C) (hstart : ∀ c ∈ started ms, C.entrant c)
    (hplay : (Pool.init s).play exec body ms = some P) :
    P.state = s ∨ ∃ c ∈ started ms, ∃ n, ∀ e, P.state = (Prog.run exec (Prog.cut e n (body c)) s).2 := by
  cases played False hC played_init hstart (fun _ _ _ => not_false) hplay with
  | pending state threads => exact .inl state
  | decided i c q thread winner won others =>
    obtain ⟨p, hreach, -⟩ := winner.reaches
    obtain ⟨n, hn⟩ := hreach.cut
    have hcalls := play_calls hplay
    have hmem : c ∈ P.threads.map Prod.fst := List.mem_map.mpr ⟨_, List.mem_of_getElem? thread, rfl⟩
    rw [hcalls] at hmem
    exact .inr ⟨c, hmem, n, fun e => (hn e).symm⟩

/-- If nobody is killed and all have ended, one of them has ended as it does alone, in the state that it
leaves alone, and the others without a successful bid. -/
theorem contest_ended (hC : Contest exec body C) (hstart : ∀ c ∈ started ms, C.entrant c)
    (hcalm : ∀ i e, .kill i e ∉ ms) (hplay : (Pool.init s).play exec body ms = some P)
    (hended : ∀ t ∈ P.threads, t.2.verdict ≠ none) (hsome : P.threads ≠ []) :
    ∃ (i : Nat) (c : κ) (q : Prog Op Res ε α), P.threads[i]? = some (c, q) ∧
      q.verdict = some (Prog.run exec (body c) s).1 ∧ P.state = (Prog.run exec (body c) s).2 ∧
      ∀ (j : Nat) c' p, j ≠ i → P.threads[j]? = some (c', p) →
        (∃ e, p = .raise e) ∨ ∃ a, p = .pure a ∧ C.waived a := by
  have hp := played True hC played_init hstart (fun i e he => absurd he (hcalm i e)) hplay
  cases hp with
  | pending state threads =>
    obtain ⟨⟨c, q⟩, rest, hthreads⟩ := List.exists_cons_of_ne_nil hsome
    have h0 : P.threads[0]? = some (c, q) := by rw [hthreads]; rfl
    have hwaits := threads 0 c q h0
    have hend := Prog.verdict_of_run (hended _ (List.mem_of_getElem? h0)) (hwaits.alone trivial)
    refine ⟨0, c, q, h0, hend.1, state.trans hend.2, fun j c' p _ hj => ?_⟩
    exact (threads j c' p hj).bids.ended (hended _ (List.mem_of_getElem? hj))
  | decided i c q thread winner won others =>
    have hend := Prog.verdict_of_run (hended _ (List.mem_of_getElem? thread)) (winner.alone trivial)
    refine ⟨i, c, q, thread, hend.1, hend.2, fun j c' p hji hj => ?_⟩
    exact (others j c' p hji hj).bids.ended (hended _ (List.mem_of_getElem? hj))

end Schedule

end Contest

end Effects
