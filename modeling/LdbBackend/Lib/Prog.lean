import Mathlib.Data.List.Basic

/-!
# Programs over an operation signature

A program is a tree: it ends with a value, ends with an exception, or performs one operation and
goes on with the answer. Operations are the only points where it touches the shared state, so one
program serves three readings:

* `run` executes it alone against a state, one operation after another (`ops` lists the operations
  that took effect);
* `cut n` is the same program stopped by an exception after its first `n` operations;
* an interleaving (`Lib/Pool.lean`) executes one operation of one program at a time.
-/

namespace Effects

/-- A program whose operations are `Op`, with answers `Res o`, exceptions `ε` and result `α`. -/
inductive Prog (Op : Type) (Res : Op → Type) (ε α : Type) : Type
  | pure (a : α)
  | raise (e : ε)
  | perform (o : Op) (k : Res o → Prog Op Res ε α)

/-- An operation that took effect, with its answer. -/
abbrev Event (Op : Type) (Res : Op → Type) : Type := (o : Op) × Res o

namespace Prog

variable {Op : Type} {Res : Op → Type} {ε α β γ σ : Type}

/-- Sequencing: `f` takes over where the program ends with a value. -/
def bind : Prog Op Res ε α → (α → Prog Op Res ε β) → Prog Op Res ε β
  | .pure a, f => f a
  | .raise e, _ => .raise e
  | .perform o k, f => .perform o fun r => (k r).bind f

instance : Monad (Prog Op Res ε) where
  pure := .pure
  bind := .bind

/-- One operation as a program. -/
def op (o : Op) : Prog Op Res ε (Res o) := .perform o .pure

/-- A pure computation that may raise. -/
def lift : Except ε α → Prog Op Res ε α
  | .ok a => .pure a
  | .error e => .raise e

@[simp] theorem pure_eq (a : α) : (Pure.pure a : Prog Op Res ε α) = .pure a := rfl

@[simp] theorem pure_bind' (a : α) (f : α → Prog Op Res ε β) : (Prog.pure a >>= f) = f a := rfl

@[simp] theorem raise_bind (e : ε) (f : α → Prog Op Res ε β) : (Prog.raise e >>= f) = .raise e := rfl

@[simp] theorem perform_bind (o : Op) (k : Res o → Prog Op Res ε α) (f : α → Prog Op Res ε β) :
    (Prog.perform o k >>= f) = .perform o fun r => k r >>= f := rfl

@[simp] theorem op_bind (o : Op) (f : Res o → Prog Op Res ε β) : (op o >>= f) = .perform o f := rfl

@[simp] theorem lift_ok (a : α) : (lift (.ok a) : Prog Op Res ε α) = .pure a := rfl

@[simp] theorem lift_error (e : ε) : (lift (.error e) : Prog Op Res ε α) = .raise e := rfl

theorem bind_assoc' (p : Prog Op Res ε α) (f : α → Prog Op Res ε β) (g : β → Prog Op Res ε γ) :
    (p >>= f) >>= g = p >>= fun a => f a >>= g := by
  induction p with
  | pure a => rfl
  | raise e => rfl
  | perform o k ih =>
    simp only [perform_bind]
    congr 1
    funext r
    exact ih r

theorem bind_pure' (p : Prog Op Res ε α) : (p >>= Prog.pure) = p := by
  induction p with
  | pure a => rfl
  | raise e => rfl
  | perform o k ih =>
    rw [perform_bind]
    congr 1
    funext r
    exact ih r

instance : LawfulMonad (Prog Op Res ε) :=
  LawfulMonad.mk' _ bind_pure' (fun _ _ => rfl) bind_assoc'

/-! ## Running alone -/

section Run

variable (exec : (o : Op) → σ → Except ε (Res o × σ))

/-- The program run alone: its result and the state it leaves. An operation that raises leaves the
state as it was. -/
def run : Prog Op Res ε α → σ → Except ε α × σ
  | .pure a, s => (.ok a, s)
  | .raise e, s => (.error e, s)
  | .perform o k, s =>
    match exec o s with
    | .ok (r, s') => run (k r) s'
    | .error e => (.error e, s)

/-- The operations that take effect when the program is run alone, in order, with their answers. -/
def ops : Prog Op Res ε α → σ → List (Event Op Res)
  | .pure _, _ => []
  | .raise _, _ => []
  | .perform o k, s =>
    match exec o s with
    | .ok (r, s') => ⟨o, r⟩ :: ops (k r) s'
    | .error _ => []

@[simp] theorem run_pure (a : α) (s : σ) : run exec (.pure a) s = (.ok a, s) := rfl

@[simp] theorem run_raise (e : ε) (s : σ) :
    run exec (.raise e : Prog Op Res ε α) s = (.error e, s) := rfl

@[simp] theorem ops_pure (a : α) (s : σ) : ops exec (.pure a) s = [] := rfl

@[simp] theorem ops_raise (e : ε) (s : σ) : ops exec (.raise e : Prog Op Res ε α) s = [] := rfl

theorem run_perform_ok {o : Op} {k : Res o → Prog Op Res ε α} {s s' : σ} {r : Res o}
    (h : exec o s = .ok (r, s')) : run exec (.perform o k) s = run exec (k r) s' := by
  rw [run, h]

theorem run_perform_error {o : Op} {k : Res o → Prog Op Res ε α} {s : σ} {e : ε}
    (h : exec o s = .error e) : run exec (.perform o k) s = (.error e, s) := by
  rw [run, h]

theorem ops_perform_ok {o : Op} {k : Res o → Prog Op Res ε α} {s s' : σ} {r : Res o}
    (h : exec o s = .ok (r, s')) : ops exec (.perform o k) s = ⟨o, r⟩ :: ops exec (k r) s' := by
  rw [ops, h]

theorem ops_perform_error {o : Op} {k : Res o → Prog Op Res ε α} {s : σ} {e : ε}
    (h : exec o s = .error e) : ops exec (.perform o k) s = [] := by
  rw [ops, h]

/-- The rule of sequencing: run the first part, then the rest from the state it left. -/
theorem run_bind (p : Prog Op Res ε α) (f : α → Prog Op Res ε β) (s : σ) :
    run exec (p >>= f) s =
      match run exec p s with
      | (.ok a, s') => run exec (f a) s'
      | (.error e, s') => (.error e, s') := by
  induction p generalizing s with
  | pure a => rfl
  | raise e => rfl
  | perform o k ih =>
    rw [perform_bind]
    cases h : exec o s with
    | error e => rw [run_perform_error exec h, run_perform_error exec h]
    | ok x => rw [run_perform_ok exec h, run_perform_ok exec h, ih]

theorem run_bind_ok {p : Prog Op Res ε α} {f : α → Prog Op Res ε β} {s s' : σ} {a : α}
    (h : run exec p s = (.ok a, s')) : run exec (p >>= f) s = run exec (f a) s' := by
  rw [run_bind, h]

theorem run_bind_error {p : Prog Op Res ε α} {f : α → Prog Op Res ε β} {s s' : σ} {e : ε}
    (h : run exec p s = (.error e, s')) : run exec (p >>= f) s = (.error e, s') := by
  rw [run_bind, h]

/-- A state property kept by every operation is kept by a whole run. -/
theorem run_invariant {I : σ → Prop}
    (hstep : ∀ o s r s', I s → exec o s = .ok (r, s') → I s')
    (p : Prog Op Res ε α) (s : σ) (h : I s) : I (run exec p s).2 := by
  induction p generalizing s with
  | pure a => exact h
  | raise e => exact h
  | perform o k ih =>
    cases he : exec o s with
    | error e => rw [run_perform_error exec he]; exact h
    | ok x => rw [run_perform_ok exec he]; exact ih _ _ (hstep _ _ _ _ h he)

end Run

/-! ## What a run may do -/

section Along

variable (exec : (o : Op) → σ → Except ε (Res o × σ)) (q : σ → Op → Prop)

/-- Run from `s`, the program only performs operations that `q` allows in the state they meet. -/
def Along : Prog Op Res ε α → σ → Prop
  | .pure _, _ => True
  | .raise _, _ => True
  | .perform o k, s => q s o ∧ ∀ r s', exec o s = .ok (r, s') → Along (k r) s'

variable {exec q}

theorem Along.lift {x : Except ε α} {f : α → Prog Op Res ε β} {s : σ}
    (h : ∀ a, x = .ok a → Along exec q (f a) s) : Along exec q (Prog.lift x >>= f) s := by
  cases x with
  | error e => trivial
  | ok a => exact h a rfl

theorem Along.bind {p : Prog Op Res ε α} {f : α → Prog Op Res ε β} {s : σ} (hp : Along exec q p s)
    (hf : ∀ a s', run exec p s = (.ok a, s') → Along exec q (f a) s') :
    Along exec q (p >>= f) s := by
  induction p generalizing s with
  | pure a => exact hf a s rfl
  | raise e => trivial
  | perform o k ih =>
    refine ⟨hp.1, fun r s' he => ih r (hp.2 r s' he) fun a s'' hrun => hf a s'' ?_⟩
    rw [run_perform_ok exec he]
    exact hrun

/-- A state property kept by every allowed operation is kept by the run. -/
theorem along_invariant {I : σ → Prop}
    (hstep : ∀ o s r s', I s → q s o → exec o s = .ok (r, s') → I s') {p : Prog Op Res ε α} {s : σ}
    (hp : Along exec q p s) (h : I s) : I (run exec p s).2 := by
  induction p generalizing s with
  | pure a => exact h
  | raise e => exact h
  | perform o k ih =>
    cases he : exec o s with
    | error e => rw [run_perform_error exec he]; exact h
    | ok x =>
      rw [run_perform_ok exec he]
      exact ih x.1 (hp.2 x.1 x.2 he) (hstep o s x.1 x.2 h hp.1 he)

end Along

/-! ## Running in two states -/

section Same

variable (exec : (o : Op) → σ → Except ε (Res o × σ))

/-- Run in either state the program has the same result and leaves the state as it was; a value it
returns satisfies `Q`. -/
def Same (s₁ s₂ : σ) (p : Prog Op Res ε α) (Q : α → Prop) : Prop :=
  ∃ r, run exec p s₁ = (r, s₁) ∧ run exec p s₂ = (r, s₂) ∧ ∀ a, r = .ok a → Q a

variable {exec} {s₁ s₂ : σ}

theorem Same.pure {a : α} {Q : α → Prop} (h : Q a) : Same exec s₁ s₂ (.pure a) Q :=
  ⟨.ok a, rfl, rfl, fun _ ha => Except.ok.inj ha ▸ h⟩

theorem Same.raise {e : ε} {Q : α → Prop} : Same exec s₁ s₂ (.raise e) Q :=
  ⟨.error e, rfl, rfl, nofun⟩

/-- An operation that answers alike in both states. -/
theorem Same.op {o : Op} {x : Except ε (Res o)} {Q : Res o → Prop}
    (h₁ : exec o s₁ = x.map fun r => (r, s₁)) (h₂ : exec o s₂ = x.map fun r => (r, s₂))
    (hQ : ∀ r, x = .ok r → Q r) : Same exec s₁ s₂ (Prog.op o) Q := by
  cases x with
  | error e => exact ⟨.error e, run_perform_error exec h₁, run_perform_error exec h₂, nofun⟩
  | ok r =>
    refine ⟨.ok r, run_perform_ok exec h₁, run_perform_ok exec h₂, fun a ha => ?_⟩
    exact Except.ok.inj ha ▸ hQ r rfl

theorem Same.bind {p : Prog Op Res ε α} {f : α → Prog Op Res ε β} {Q : α → Prop} {R : β → Prop}
    (h : Same exec s₁ s₂ p Q) (hf : ∀ a, Q a → Same exec s₁ s₂ (f a) R) :
    Same exec s₁ s₂ (p >>= f) R := by
  obtain ⟨r, h₁, h₂, hQ⟩ := h
  cases r with
  | error e => exact ⟨.error e, run_bind_error exec h₁, run_bind_error exec h₂, nofun⟩
  | ok a =>
    obtain ⟨r', h₁', h₂', hR⟩ := hf a (hQ a rfl)
    exact ⟨r', (run_bind_ok exec h₁).trans h₁', (run_bind_ok exec h₂).trans h₂', hR⟩

theorem Same.result {p : Prog Op Res ε α} {Q : α → Prop} (h : Same exec s₁ s₂ p Q) :
    (run exec p s₁).1 = (run exec p s₂).1 := by
  obtain ⟨r, h₁, h₂, -⟩ := h
  rw [h₁, h₂]

end Same

/-! ## Stopping early -/

/-- The program stopped by the exception `e` in place of its operation number `n`. -/
def cut (e : ε) : Nat → Prog Op Res ε α → Prog Op Res ε α
  | _, .pure a => .pure a
  | _, .raise e' => .raise e'
  | 0, .perform _ _ => .raise e
  | n + 1, .perform o k => .perform o fun r => cut e n (k r)

section Cut

variable (exec : (o : Op) → σ → Except ε (Res o × σ)) (e : ε)

/-- The state a stopped program leaves depends only on the operations it got through. -/
theorem ops_cut (n : Nat) (p : Prog Op Res ε α) (s : σ) :
    ops exec (cut e n p) s = (ops exec p s).take n := by
  induction p generalizing n s with
  | pure a => simp [cut]
  | raise e' => simp [cut]
  | perform o k ih =>
    cases n with
    | zero => simp [cut]
    | succ n =>
      rw [cut]
      cases h : exec o s with
      | error e' => rw [ops_perform_error exec h, ops_perform_error exec h]; rfl
      | ok x => rw [ops_perform_ok exec h, ops_perform_ok exec h, ih, List.take_succ_cons]

end Cut

end Prog

end Effects
