import LdbBackend.Lib.Prog

/-!
# How computations end

What a computation raises (`Throws`), and with which values and exceptions a program ends whatever its
operations answer (`Prog.Ends`). Both follow the code, so a bound on the ends of a long program is found
without running it. Where a run ends badly (`Prog.Fails`) depends on its state; it is found statement by
statement.
-/

namespace Effects

variable {Op : Type} {Res : Op → Type} {ε α β σ : Type}

/-- Every exception of the computation satisfies `Q`. -/
def Throws (Q : ε → Prop) (x : Except ε α) : Prop := ∀ e, x = .error e → Q e

namespace Throws

variable {Q Q' : ε → Prop} {x : Except ε α} {f : α → Except ε β}

theorem ok (a : α) : Throws Q (.ok a : Except ε α) := nofun

theorem pure (a : α) : Throws Q (Pure.pure a : Except ε α) := nofun

theorem error {e : ε} (h : Q e) : Throws Q (.error e : Except ε α) := fun _ he => Except.error.inj he ▸ h

theorem bind (hx : Throws Q x) (hf : ∀ a, Throws Q (f a)) : Throws Q (x >>= f) := by
  cases x with
  | ok a => exact hf a
  | error e => exact .error (hx e rfl)

theorem map (hx : Throws Q x) (g : α → β) : Throws Q (x.map g) := by
  cases x with
  | ok a => exact .ok _
  | error e => exact .error (hx e rfl)

theorem mapM {g : α → Except ε β} (h : ∀ a, Throws Q (g a)) (o : Option α) : Throws Q (o.mapM g) := by
  cases o with
  | none => exact .ok _
  | some a => exact Throws.map (h a) _

theorem imp (hx : Throws Q x) (h : ∀ e, Q e → Q' e) : Throws Q' x := fun e he => h e (hx e he)

end Throws

namespace Prog

/-- Whatever the operations answer, the program ends with a value of `R` or an exception of `Q`. -/
def Ends (R : α → Prop) (Q : ε → Prop) : Prog Op Res ε α → Prop
  | .pure a => R a
  | .raise e => Q e
  | .perform _ k => ∀ r, Ends R Q (k r)

namespace Ends

variable {R R' : α → Prop} {S : β → Prop} {Q Q' : ε → Prop} {p : Prog Op Res ε α} {f : α → Prog Op Res ε β}

theorem bind (hp : p.Ends R Q) (hf : ∀ a, R a → (f a).Ends S Q) : (p >>= f).Ends S Q := by
  induction p with
  | pure a => exact hf a hp
  | raise e => exact hp
  | perform o k ih => exact fun r => ih r (hp r)

theorem imp (hp : p.Ends R Q) (hR : ∀ a, R a → R' a) (hQ : ∀ e, Q e → Q' e) : p.Ends R' Q' := by
  induction p with
  | pure a => exact hR a hp
  | raise e => exact hQ e hp
  | perform o k ih => exact fun r => ih r (hp r)

theorem lift {x : Except ε α} (hx : Throws Q x) : (Prog.lift x : Prog Op Res ε α).Ends (fun _ => True) Q := by
  cases x with
  | ok a => trivial
  | error e => exact hx e rfl

/-- A computation in front of the rest. -/
theorem lift_bind {x : Except ε α} (hx : Throws Q x) (hf : ∀ a, (f a).Ends S Q) : (Prog.lift x >>= f).Ends S Q :=
  (lift hx).bind fun a _ => hf a

theorem ite {c : Prop} [Decidable c] {p' : Prog Op Res ε α} (hp : c → p.Ends R Q) (hp' : ¬ c → p'.Ends R Q) :
    (if c then p else p').Ends R Q := by
  split_ifs with hc
  · exact hp hc
  · exact hp' hc

/-- What holds of the ends of the program and of what the operations raise, holds of the end of its run. -/
theorem run {exec : (o : Op) → σ → Except ε (Res o × σ)} (hp : p.Ends R Q)
    (hexec : ∀ o s, Throws Q (exec o s)) (s : σ) :
    (∀ a, (Prog.run exec p s).1 = .ok a → R a) ∧ Throws Q (Prog.run exec p s).1 := by
  induction p generalizing s with
  | pure a => exact ⟨fun b hb => Except.ok.inj hb ▸ hp, .ok a⟩
  | raise e => exact ⟨nofun, .error hp⟩
  | perform o k ih =>
    cases he : exec o s with
    | error e =>
      rw [run_perform_error exec he]
      exact ⟨nofun, .error (hexec o s e he)⟩
    | ok x =>
      rw [run_perform_ok exec he]
      exact ih x.1 (hp x.1) x.2

end Ends

section Fails

variable (exec : (o : Op) → σ → Except ε (Res o × σ)) (Q : ε → Prop)

variable {exec Q} {s s' : σ} {e : ε} {o : Op} {k : Res o → Prog Op Res ε α} {r : Res o}

end Fails

end Prog

end Effects
