import LdbBackend.Lib.Prog

/-!
# What is visible of a run

The outcome of a program run alone: its result, the state it leaves, and those operations that an
observer sees (`seen`). Symbolic execution of a program is a chain of the rules below, one for each
operation; operations that are not seen leave no trace in the outcome.

`All q` says that every operation a program may perform satisfies `q`. `Leads evs s s'` says that the
operations `evs`, with their answers, lead from one state to the other; those of a run do, and so do the
seen ones alone.
-/

namespace Effects

variable {Op : Type} {Res : Op → Type} {ε α β σ : Type}

structure Outcome (Op : Type) (Res : Op → Type) (ε α σ : Type) where
  result : Except ε α
  state : σ
  events : List (Event Op Res)

namespace Outcome

/-- The outcome of a run that had already shown some events. -/
def after (evs : List (Event Op Res)) (x : Outcome Op Res ε α σ) : Outcome Op Res ε α σ :=
  { x with events := evs ++ x.events }

@[simp] theorem after_nil (x : Outcome Op Res ε α σ) : after [] x = x := rfl

@[simp] theorem after_mk (evs evs' : List (Event Op Res)) (r : Except ε α) (s : σ) :
    after evs ⟨r, s, evs'⟩ = ⟨r, s, evs ++ evs'⟩ := rfl

end Outcome

namespace Prog

section Outcome

variable (exec : (o : Op) → σ → Except ε (Res o × σ)) (seen : Op → Bool)

def outcome (p : Prog Op Res ε α) (s : σ) : Outcome Op Res ε α σ :=
  ⟨(run exec p s).1, (run exec p s).2, (ops exec p s).filter (seen ·.1)⟩

@[simp] theorem outcome_pure (a : α) (s : σ) :
    outcome exec seen (.pure a : Prog Op Res ε α) s = ⟨.ok a, s, []⟩ := rfl

@[simp] theorem outcome_raise (e : ε) (s : σ) :
    outcome exec seen (.raise e : Prog Op Res ε α) s = ⟨.error e, s, []⟩ := rfl

variable {exec seen}

theorem outcome_error {o : Op} {k : Res o → Prog Op Res ε α} {s : σ} {e : ε}
    (h : exec o s = .error e) : outcome exec seen (.perform o k) s = ⟨.error e, s, []⟩ := by
  rw [outcome, run_perform_error exec h, ops_perform_error exec h]
  rfl

theorem outcome_hidden {o : Op} {k : Res o → Prog Op Res ε α} {s s' : σ} {r : Res o}
    (h : exec o s = .ok (r, s')) (ho : seen o = false) :
    outcome exec seen (.perform o k) s = outcome exec seen (k r) s' := by
  rw [outcome, run_perform_ok exec h, ops_perform_ok exec h]
  simp [outcome, ho]

theorem outcome_seen {o : Op} {k : Res o → Prog Op Res ε α} {s s' : σ} {r : Res o}
    (h : exec o s = .ok (r, s')) (ho : seen o = true) :
    outcome exec seen (.perform o k) s = (outcome exec seen (k r) s').after [⟨o, r⟩] := by
  rw [outcome, run_perform_ok exec h, ops_perform_ok exec h]
  simp [outcome, Outcome.after, ho]

theorem ops_bind (p : Prog Op Res ε α) (f : α → Prog Op Res ε β) (s : σ) :
    ops exec (p >>= f) s = ops exec p s ++
      match run exec p s with
      | (.ok a, s') => ops exec (f a) s'
      | (.error _, _) => [] := by
  induction p generalizing s with
  | pure a => rfl
  | raise e => rfl
  | perform o k ih =>
    rw [perform_bind]
    cases h : exec o s with
    | error e => rw [ops_perform_error exec h, ops_perform_error exec h, run_perform_error exec h]; rfl
    | ok x =>
      rw [ops_perform_ok exec h, ops_perform_ok exec h, run_perform_ok exec h, ih, List.cons_append]

/-- The rule of sequencing. -/
theorem outcome_bind_ok {p : Prog Op Res ε α} {f : α → Prog Op Res ε β} {s s' : σ} {a : α}
    {evs : List (Event Op Res)} (h : outcome exec seen p s = ⟨.ok a, s', evs⟩) :
    outcome exec seen (p >>= f) s = (outcome exec seen (f a) s').after evs := by
  simp only [outcome, Outcome.mk.injEq] at h
  obtain ⟨hr, hs, hev⟩ := h
  have hrun : run exec p s = (.ok a, s') := Prod.ext hr hs
  rw [outcome, ops_bind, run_bind_ok exec hrun, hrun, List.filter_append, hev]
  rfl

theorem outcome_bind_error {p : Prog Op Res ε α} {f : α → Prog Op Res ε β} {s s' : σ} {e : ε}
    {evs : List (Event Op Res)} (h : outcome exec seen p s = ⟨.error e, s', evs⟩) :
    outcome exec seen (p >>= f) s = ⟨.error e, s', evs⟩ := by
  simp only [outcome, Outcome.mk.injEq] at h
  obtain ⟨hr, hs, hev⟩ := h
  have hrun : run exec p s = (.error e, s') := Prod.ext hr hs
  rw [outcome, ops_bind, run_bind_error exec hrun, hrun, List.append_nil, hev]

/-- A program whose value is replaced at the end. -/
theorem outcome_bind_pure {p : Prog Op Res ε α} {s s' : σ} {r : Except ε α}
    {evs : List (Event Op Res)} (h : outcome exec seen p s = ⟨r, s', evs⟩) (f : α → β) :
    outcome exec seen (p >>= fun a => .pure (f a)) s = ⟨r.map f, s', evs⟩ := by
  cases r with
  | error e => exact outcome_bind_error h
  | ok a =>
    rw [outcome_bind_ok h, outcome_pure, Outcome.after_mk, List.append_nil]
    rfl

end Outcome

/-! ## Programs of restricted operations -/

/-- Every operation the program may perform satisfies `q`. -/
def All (q : Op → Prop) : Prog Op Res ε α → Prop
  | .pure _ => True
  | .raise _ => True
  | .perform o k => q o ∧ ∀ r, All q (k r)

theorem All.bind {q : Op → Prop} {p : Prog Op Res ε α} {f : α → Prog Op Res ε β} (hp : p.All q)
    (hf : ∀ a, (f a).All q) : (p >>= f).All q := by
  induction p with
  | pure a => exact hf a
  | raise e => trivial
  | perform o k ih => exact ⟨hp.1, fun r => ih r (hp.2 r)⟩

theorem All.imp {q q' : Op → Prop} {p : Prog Op Res ε α} (hp : p.All q) (h : ∀ o, q o → q' o) :
    p.All q' := by
  induction p with
  | pure a => trivial
  | raise e => trivial
  | perform o k ih => exact ⟨h o hp.1, fun r => ih r (hp.2 r)⟩

section All

variable {exec : (o : Op) → σ → Except ε (Res o × σ)} {q : Op → Prop} {p : Prog Op Res ε α}

/-- What all operations satisfy, those of a run do. -/
theorem All.along {q' : σ → Op → Prop} (hp : p.All q) (h : ∀ s o, q o → q' s o) (s : σ) :
    Along exec q' p s := by
  induction p generalizing s with
  | pure a => trivial
  | raise e => trivial
  | perform o k ih => exact ⟨h s o hp.1, fun r s' _ => ih r (hp.2 r) s'⟩

theorem ops_all (hp : p.All q) (s : σ) : ∀ ev ∈ ops exec p s, q ev.1 := by
  induction p generalizing s with
  | pure a => intro ev hev; cases hev
  | raise e => intro ev hev; cases hev
  | perform o k ih =>
    intro ev hev
    cases h : exec o s with
    | error e => rw [ops_perform_error exec h] at hev; cases hev
    | ok x =>
      rw [ops_perform_ok exec h] at hev
      rcases List.mem_cons.mp hev with rfl | hev
      · exact hp.1
      · exact ih _ (hp.2 _) _ ev hev

/-- Operations that keep the state, one after another. -/
theorem run_ops_keep (hkeep : ∀ o s r s', q o → exec o s = .ok (r, s') → s' = s) (s : σ)
    (hops : ∀ ev ∈ ops exec p s, q ev.1) : (run exec p s).2 = s := by
  induction p generalizing s with
  | pure a => rfl
  | raise e => rfl
  | perform o k ih =>
    cases h : exec o s with
    | error e => rw [run_perform_error exec h]
    | ok x =>
      rw [ops_perform_ok exec h] at hops
      have hs : x.2 = s := hkeep _ _ _ _ (hops _ List.mem_cons_self) h
      rw [run_perform_ok exec h, ih _ _ fun ev hev => hops ev (List.mem_cons_of_mem _ hev), hs]

/-- A state property that every operation taken keeps. -/
theorem run_ops_invariant (q : Op → Prop) (I : σ → Prop)
    (hkeep : ∀ o s r s', q o → I s → exec o s = .ok (r, s') → I s') (s : σ)
    (hops : ∀ ev ∈ ops exec p s, q ev.1) (h : I s) : I (run exec p s).2 := by
  induction p generalizing s with
  | pure a => exact h
  | raise e => exact h
  | perform o k ih =>
    cases he : exec o s with
    | error e => rw [run_perform_error exec he]; exact h
    | ok x =>
      rw [ops_perform_ok exec he] at hops
      rw [run_perform_ok exec he]
      exact ih _ _ (fun ev hev => hops ev (List.mem_cons_of_mem _ hev))
        (hkeep _ _ _ _ (hops _ List.mem_cons_self) h he)

/-- What one operation taken establishes and the others keep. -/
theorem run_ops_establish (q : Op → Prop) (I : σ → Prop) {ev : Event Op Res}
    (hset : ∀ s s', exec ev.1 s = .ok (ev.2, s') → I s')
    (hkeep : ∀ o s r s', q o → I s → exec o s = .ok (r, s') → I s') (s : σ)
    (hops : ∀ ev' ∈ ops exec p s, q ev'.1) (hev : ev ∈ ops exec p s) : I (run exec p s).2 := by
  induction p generalizing s with
  | pure a => cases hev
  | raise e => cases hev
  | perform o k ih =>
    cases he : exec o s with
    | error e => rw [ops_perform_error exec he] at hev; cases hev
    | ok x =>
      rw [ops_perform_ok exec he] at hops hev
      rw [run_perform_ok exec he]
      have hrest := fun ev' hev' => hops ev' (List.mem_cons_of_mem _ hev')
      rcases List.mem_cons.mp hev with rfl | hev
      · exact run_ops_invariant q I hkeep _ hrest (hset _ _ he)
      · exact ih _ _ hrest hev

/-- A program without seen operations that keeps the state shows only its result. -/
theorem outcome_unseen {seen : Op → Bool} (hkeep : ∀ o s r s', seen o = false →
      exec o s = .ok (r, s') → s' = s) (hp : p.All (seen · = false)) (s : σ) :
    outcome exec seen p s = ⟨(run exec p s).1, s, []⟩ := by
  rw [outcome, run_ops_keep hkeep s (ops_all hp s)]
  congr 1
  rw [List.filter_eq_nil_iff]
  intro ev hev
  rw [ops_all hp s ev hev]
  exact Bool.false_ne_true

end All

/-! ## Replaying operations -/

section Leads

variable (exec : (o : Op) → σ → Except ε (Res o × σ))

/-- The operations, one after another and with these answers, lead from the first state to the second. -/
inductive Leads : List (Event Op Res) → σ → σ → Prop
  | nil (s : σ) : Leads [] s s
  | cons {ev : Event Op Res} {evs : List (Event Op Res)} {s s₁ s' : σ} (first : exec ev.1 s = .ok (ev.2, s₁))
      (rest : Leads evs s₁ s') : Leads (ev :: evs) s s'

variable {exec}

theorem leads_run (p : Prog Op Res ε α) (s : σ) : Leads exec (ops exec p s) s (run exec p s).2 := by
  induction p generalizing s with
  | pure a => exact .nil s
  | raise e => exact .nil s
  | perform o k ih =>
    cases h : exec o s with
    | error e =>
      rw [ops_perform_error exec h, run_perform_error exec h]
      exact .nil s
    | ok x =>
      rw [ops_perform_ok exec h, run_perform_ok exec h]
      exact .cons h (ih _ _)

/-- Operations that are not seen and keep the state can be left out. -/
theorem Leads.seen {seen : Op → Bool} (hkeep : ∀ o s r s', seen o = false → exec o s = .ok (r, s') → s' = s)
    {evs : List (Event Op Res)} {s s' : σ} (h : Leads exec evs s s') :
    Leads exec (evs.filter (seen ·.1)) s s' := by
  induction h with
  | nil s => exact .nil s
  | @cons ev evs s s₁ s' first rest ih =>
    cases hseen : seen ev.1 with
    | true =>
      simp only [List.filter_cons, hseen, if_true]
      exact .cons first ih
    | false =>
      simp only [List.filter_cons, hseen, Bool.false_eq_true, if_false]
      exact hkeep _ _ _ _ hseen first ▸ ih

theorem leads_outcome {seen : Op → Bool} (hkeep : ∀ o s r s', seen o = false → exec o s = .ok (r, s') → s' = s)
    (p : Prog Op Res ε α) (s : σ) :
    Leads exec (outcome exec seen p s).events s (outcome exec seen p s).state :=
  (leads_run p s).seen hkeep

/-- A relation to the first state that every operation of the list keeps. -/
theorem Leads.keep {q : Op → Prop} {I : σ → Prop} (hkeep : ∀ o s r s', q o → I s → exec o s = .ok (r, s') → I s')
    {evs : List (Event Op Res)} {s s' : σ} (h : Leads exec evs s s') (hevs : ∀ ev ∈ evs, q ev.1) (hs : I s) :
    I s' := by
  induction h with
  | nil s => exact hs
  | cons first rest ih =>
    exact ih (fun ev hev => hevs ev (List.mem_cons_of_mem _ hev))
      (hkeep _ _ _ _ (hevs _ List.mem_cons_self) hs first)

end Leads

end Prog

end Effects
