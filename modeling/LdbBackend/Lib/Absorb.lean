import Mathlib.Data.List.Basic

/-!
# Folds of commuting absorbing actions

Actions `f · k` that commute with each other and absorb a repetition of themselves (on the keys in
`S`): a fold over a list of such keys depends only on which keys occur in it
(`foldl_eq_of_same_members`), not on their order or number.
-/

namespace Absorb

variable {K V : Type} {f : V → K → V} {S : K → Prop}

section Commute

variable (hcomm : ∀ j k, S j → S k → ∀ v, f (f v j) k = f (f v k) j)

include hcomm

theorem foldl_comm_one {l : List K} (hl : ∀ j ∈ l, S j) {k : K} (hk : S k) (v : V) :
    l.foldl f (f v k) = f (l.foldl f v) k := by
  induction l generalizing v with
  | nil => rfl
  | cons j l ih =>
    rw [List.foldl_cons, List.foldl_cons, hcomm k j hk (hl j List.mem_cons_self)]
    exact ih (fun i hi => hl i (List.mem_cons_of_mem _ hi)) (f v j)

theorem foldl_swap {l₁ l₂ : List K} (h₁ : ∀ j ∈ l₁, S j) (h₂ : ∀ j ∈ l₂, S j) (v : V) :
    l₂.foldl f (l₁.foldl f v) = l₁.foldl f (l₂.foldl f v) := by
  induction l₂ generalizing v with
  | nil => rfl
  | cons k l₂ ih =>
    rw [List.foldl_cons, List.foldl_cons, ← foldl_comm_one hcomm h₁ (h₂ k List.mem_cons_self)]
    exact ih (fun i hi => h₂ i (List.mem_cons_of_mem _ hi)) (f v k)

variable (hidem : ∀ k, S k → ∀ v, f (f v k) k = f v k)

include hidem

/-- An action that has already been taken is absorbed. -/
theorem foldl_absorb_one {l : List K} (hl : ∀ j ∈ l, S j) {k : K} (hk : k ∈ l) (v : V) :
    f (l.foldl f v) k = l.foldl f v := by
  induction l generalizing v with
  | nil => cases hk
  | cons j l ih =>
    have hrest : ∀ i ∈ l, S i := fun i hi => hl i (List.mem_cons_of_mem _ hi)
    rcases List.mem_cons.mp hk with rfl | hk
    · have hS := hl k List.mem_cons_self
      rw [List.foldl_cons, ← foldl_comm_one hcomm hrest hS, hidem k hS]
    · exact ih hrest hk (f v j)

theorem foldl_absorb {l₁ l₂ : List K} (h₁ : ∀ j ∈ l₁, S j) (hsub : ∀ k ∈ l₂, k ∈ l₁) (v : V) :
    l₂.foldl f (l₁.foldl f v) = l₁.foldl f v := by
  induction l₂ with
  | nil => rfl
  | cons k l₂ ih =>
    rw [List.foldl_cons, foldl_absorb_one hcomm hidem h₁ (hsub k List.mem_cons_self)]
    exact ih fun i hi => hsub i (List.mem_cons_of_mem _ hi)

/-- The fold depends only on the members of the list. -/
theorem foldl_eq_of_same_members {l₁ l₂ : List K} (h₁ : ∀ j ∈ l₁, S j)
    (hsame : ∀ k, k ∈ l₁ ↔ k ∈ l₂) (v : V) : l₁.foldl f v = l₂.foldl f v := by
  have h₂ : ∀ j ∈ l₂, S j := fun j hj => h₁ j ((hsame j).mpr hj)
  calc l₁.foldl f v = l₂.foldl f (l₁.foldl f v) :=
        (foldl_absorb hcomm hidem h₁ (fun k hk => (hsame k).mpr hk) v).symm
    _ = l₁.foldl f (l₂.foldl f v) := foldl_swap hcomm h₁ h₂ v
    _ = l₂.foldl f v := foldl_absorb hcomm hidem h₂ (fun k hk => (hsame k).mp hk) v

end Commute

end Absorb
