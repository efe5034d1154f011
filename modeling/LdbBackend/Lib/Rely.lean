import LdbBackend.Lib.Pool
import Mathlib.Order.Defs.Unbundled

/-!
# Programs under interference

`Under R Q p s`: whatever the other programs do to the state between the operations of `p`, as long as they
move it along the preorder `R`, every value with which `p` ends satisfies `Q` in the state at that moment and
in all later ones. The rules are those of sequencing and of one operation; `play_under` carries the result over
to a program of a pool that keeps to a protocol whose steps go along `R`.
-/

namespace Effects

variable {Op : Type} {Res : Op → Type} {ε α β σ κ : Type}

namespace Prog

/-- Between two operations of the program the state may move along `R`. -/
def Under (exec : (o : Op) → σ → Except ε (Res o × σ)) (R : σ → σ → Prop) (Q : α → σ → Prop) :
    Prog Op Res ε α → σ → Prop
  | .pure a, s => ∀ s', R s s' → Q a s'
  | .raise _, _ => True
  | .perform o k, s => ∀ s₁, R s s₁ → ∀ r s₂, exec o s₁ = .ok (r, s₂) → Under exec R Q (k r) s₂

section Rules

variable {exec : (o : Op) → σ → Except ε (Res o × σ)} {R : σ → σ → Prop} [IsPreorder σ R]
  {Q : α → σ → Prop} {S : β → σ → Prop} {p : Prog Op Res ε α} {s s' : σ}

omit [IsPreorder σ R] in
theorem Under.raised (e : ε) (s : σ) : (Prog.raise e : Prog Op Res ε α).Under exec R Q s := trivial

/-- The others may act before the program does. -/
theorem Under.later (h : p.Under exec R Q s) (hR : R s s') : p.Under exec R Q s' := by
  cases p with
  | pure a => exact fun s₁ h₁ => h s₁ (trans_of R hR h₁)
  | raise e => trivial
  | perform o k => exact fun s₁ h₁ => h s₁ (trans_of R hR h₁)

omit [IsPreorder σ R] in
theorem Under.imp {Q' : α → σ → Prop} (h : p.Under exec R Q s) (hQ : ∀ a s', Q a s' → Q' a s') :
    p.Under exec R Q' s := by
  induction p generalizing s with
  | pure a => exact fun s' hR => hQ a s' (h s' hR)
  | raise e => trivial
  | perform o k ih => exact fun s₁ hR r s₂ he => ih r (h s₁ hR r s₂ he)

/-- The rule of sequencing. -/
theorem Under.bind {f : α → Prog Op Res ε β} (h : p.Under exec R Q s)
    (hf : ∀ a s', Q a s' → (f a).Under exec R S s') : (p >>= f).Under exec R S s := by
  induction p generalizing s with
  | pure a => exact hf a s (h s (refl_of R s))
  | raise e => trivial
  | perform o k ih => exact fun s₁ hR r s₂ he => ih r (h s₁ hR r s₂ he)

omit [IsPreorder σ R] in
theorem Under.map {f : α → β} (h : p.Under exec R Q s) (hf : ∀ a s', Q a s' → S (f a) s') :
    (f <$> p).Under exec R S s := by
  rw [map_eq_pure_bind]
  induction p generalizing s with
  | pure a => exact fun s' hR => hf a s' (h s' hR)
  | raise e => trivial
  | perform o k ih => exact fun s₁ hR r s₂ he => ih r (h s₁ hR r s₂ he)

end Rules

end Prog

/-! ## In a pool -/

namespace Pool

/-- Program `i` ends as `Q` says, whatever the others do along `R`. -/
def Bears (exec : (o : Op) → σ → Except ε (Res o × σ)) (R : σ → σ → Prop) (Q : α → σ → Prop) (i : Nat) (c : κ)
    (P : Pool Op Res ε α σ κ) : Prop :=
  ∃ p, P.threads[i]? = some (c, p) ∧ p.Under exec R Q P.state

variable {exec : (o : Op) → σ → Except ε (Res o × σ)} {body : κ → Prog Op Res ε α} {R : σ → σ → Prop}
  [IsPreorder σ R] {Q : α → σ → Prop} {P P' : Pool Op Res ε α σ κ} {i : Nat} {c : κ}

theorem Bears.set (h : P.Bears exec R Q i c) {s' : σ} (hR : R P.state s') {j : Nat} {c' : κ}
    {q q' : Prog Op Res ε α} (hj : P.threads[j]? = some (c', q))
    (hown : q.Under exec R Q P.state → q'.Under exec R Q s') (tr : List (Nat × Event Op Res)) :
    Bears exec R Q i c (⟨s', P.threads.set j (c', q'), tr⟩ : Pool Op Res ε α σ κ) := by
  obtain ⟨p, hp, hunder⟩ := h
  by_cases hji : j = i
  · subst hji
    rw [hj, Option.some.injEq, Prod.mk.injEq] at hp
    obtain ⟨rfl, rfl⟩ := hp
    have hlt := (List.getElem?_eq_some_iff.mp hj).1
    exact ⟨q', by simp [List.getElem?_set_self hlt], hown hunder⟩
  · exact ⟨p, by simpa [List.getElem?_set_ne hji] using hp, hunder.later hR⟩

/-- One move along `R`. -/
theorem Bears.move (h : P.Bears exec R Q i c) {m : Move κ ε} (hm : P.move exec body m = some P')
    (hR : R P.state P'.state) : P'.Bears exec R Q i c := by
  cases m with
  | start c' =>
    cases hm
    obtain ⟨p, hp, hunder⟩ := h
    have hlt := (List.getElem?_eq_some_iff.mp hp).1
    exact ⟨p, by simpa [List.getElem?_append_left hlt] using hp, hunder⟩
  | kill j e =>
    simp only [Pool.move] at hm
    split at hm
    · next hj =>
      cases hm
      exact h.set hR hj (fun _ => .raised e P.state) _
    · cases hm
  | advance j =>
    simp only [Pool.move] at hm
    split at hm
    · next c' o k hj =>
      split at hm
      · next r s' he =>
        cases hm
        exact h.set hR hj (fun hown => hown P.state (refl_of R _) r s' he) _
      · next e he =>
        cases hm
        exact h.set hR hj (fun _ => .raised e P.state) _
    · cases hm

/-- The program has returned. -/
theorem Bears.returned {a : α} (h : P.Bears exec R Q i c) (hi : P.threads[i]? = some (c, .pure a)) :
    Q a P.state := by
  obtain ⟨p, hp, hunder⟩ := h
  rw [hi, Option.some.injEq, Prod.mk.injEq] at hp
  obtain ⟨-, rfl⟩ := hp
  exact hunder P.state (refl_of R _)

end Pool

section Protocol

variable {γ : Type} {A : Protocol Op Res κ γ} {exec : (o : Op) → σ → Except ε (Res o × σ)}
  {body : κ → Prog Op Res ε α} {B : Assumption Op Res σ κ} {V : κ → γ → α → Prop} {R : σ → σ → Prop}
  [IsPreorder σ R] {I : Protocol.View Op Res σ κ γ → Prop}

/-- A schedule whose steps keep an invariant and go along `R`: so does the whole, and a program bears the
interference to its end. -/
theorem play_under (hbody : ∀ c, B.call c → A.Follows c (V c) (A.init c) (body c))
    (hnext : ∀ v v', I v → A.Next exec B v v' → I v' ∧ R v.state v'.state) {P P' : Pool Op Res ε α σ κ}
    {v : Protocol.View Op Res σ κ γ} (hv : A.Views V P v) (hI : I v) {ms : List (Move κ ε)}
    (hB : P.Meets exec body B ms) (hplay : P.play exec body ms = some P') :
    (∃ v', A.Views V P' v' ∧ I v') ∧ R P.state P'.state ∧
      ∀ (Q : α → σ → Prop) i c, P.Bears exec R Q i c → P'.Bears exec R Q i c := by
  induction ms generalizing P v with
  | nil =>
    cases hplay
    exact ⟨⟨v, hv, hI⟩, refl_of R _, fun _ _ _ h => h⟩
  | cons m ms ih =>
    obtain ⟨P₁, hm, hrest⟩ := Option.bind_eq_some_iff.mp hplay
    obtain ⟨v₁, hv₁, hI₁, hR⟩ : ∃ v₁, A.Views V P₁ v₁ ∧ I v₁ ∧ R P.state P₁.state := by
      rcases hv.move hbody hB.1 hm with hv₁ | ⟨v₁, hv₁, hn, -⟩
      · refine ⟨v, hv₁, hI, ?_⟩
        rw [← hv.state, ← hv₁.state]
        exact refl_of R _
      · obtain ⟨hI₁, hR⟩ := hnext v v₁ hI hn
        rw [hv.state, hv₁.state] at hR
        exact ⟨v₁, hv₁, hI₁, hR⟩
    obtain ⟨hview, hrest, hbears⟩ := ih hv₁ hI₁ (hB.2 P₁ hm) hrest
    exact ⟨hview, trans_of R hR hrest, fun Q i c h => hbears Q i c (h.move hm hR)⟩

end Protocol

end Effects
