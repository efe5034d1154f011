import LdbBackend.Concurrent.AppendOnly
import LdbBackend.Lib.Rely

/-!
# The ledger as it grows

As long as no compensation meets a customer with payments, the transactions of one moment are the first ones
of every later moment, and those that follow are newer (`Lengthens`). A call that runs beside the others, or a
reader that comes at several moments, sees the ledger move along this order only.
-/

namespace LdbBackend

open Fixed Effects Table

/-- No two transactions were created at one instant, and none will be created before now. -/
structure Dated (s : Tables) : Prop where
  past : ∀ t ∈ s.transactions, t.createdAt < s.clock
  distinct : (s.transactions.map (·.createdAt)).Nodup

/-- From the tables `s` the ledger went on to `s'`. -/
structure Lengthens (s s' : Tables) : Prop where
  clock : s.clock ≤ s'.clock
  transactions : s.transactions <+: s'.transactions
  newer : ∀ t ∈ s'.transactions, t ∈ s.transactions ∨ s.clock ≤ t.createdAt
  dated : Dated s → Dated s'

theorem Lengthens.of_same {s s' : Tables} (hclock : s.clock ≤ s'.clock) (htx : s'.transactions = s.transactions) :
    Lengthens s s' := by
  refine ⟨hclock, htx ▸ List.prefix_refl _, fun t ht => .inl (htx ▸ ht), fun h => ⟨fun t ht => ?_, ?_⟩⟩
  · exact lt_of_lt_of_le (h.past t (htx ▸ ht)) hclock
  · rw [htx]
    exact h.distinct

theorem Lengthens.trans {s s' s'' : Tables} (h : Lengthens s s') (h' : Lengthens s' s'') : Lengthens s s'' := by
  refine ⟨h.clock.trans h'.clock, h.transactions.trans h'.transactions, fun t ht => ?_, fun hd => ?_⟩
  · rcases h'.newer t ht with hold | hnew
    · exact h.newer t hold
    · exact .inr (h.clock.trans hnew)
  · exact h'.dated (h.dated hd)

instance : IsPreorder Tables Lengthens where
  refl _ := .of_same le_rfl rfl
  trans _ _ _ := .trans

/-- A transaction is added. -/
theorem lengthens_insert {s s' : Tables} {new : NewTransaction} {t : Transaction}
    (h : s.createTransaction new = .ok (t, s')) : Lengthens s s' := by
  obtain ⟨hrow, -, -, rfl⟩ := createTransaction_ok_iff.mp h
  have hnow := (NewTransaction.row_ok hrow).createdAt
  refine ⟨Nat.le_succ _, List.prefix_append _ _, ?_, fun hd => ⟨?_, ?_⟩⟩
  · exact forall_mem_append (fun u hu => .inl hu) (.inr hnow.ge)
  · refine forall_mem_append (fun u hu => ?_) ?_
    · exact Nat.lt_succ_of_lt (hd.past u hu)
    · exact hnow ▸ Nat.lt_succ_self _
  · refine nodup_map_append hd.distinct fun u hu => ?_
    rw [hnow]
    exact (hd.past u hu).ne

section Step

variable {s s' : Tables} {tr : Trace} {i : Nat} {call : Call} {g : Place} {o : Op} {f : Res o → Place} {r : Res o}

/-- One operation of one call. -/
theorem lengthens_next (ha : Acts compensating s tr i call g o f r s') : Lengthens s s' := by
  have hrun := ha.run
  have hclock := ha.keeps.clock
  cases hw : o.writes .transactions with
  | false => exact .of_same hclock ((exec_frame hrun).transactions hw)
  | true =>
    cases o with
    | transactionCreate new => exact lengthens_insert hrun
    | customerDelete id =>
      have hunpaid : s.Unpaid id := ha.allowed
      cases hrun
      rw [deleteCustomer_unpaid hunpaid]
      exact .of_same le_rfl rfl
    | _ => cases hw

end Step

/-! ## Every schedule -/

abbrev Running : Protocol.View Op Res Tables Call Place → Prop :=
  Invariant compensating (fun _ _ => True) fun _ _ _ _ _ => True

theorem running_next {v v' : Protocol.View Op Res Tables Call Place} (h : Running v)
    (hn : service.Next exec compensating v v') : Running v' ∧ Lengthens v.state v'.state := by
  constructor
  · exact invariant_next compensating_harmless (fun _ _ _ _ _ => trivial)
      (fun _ _ _ _ _ _ _ _ _ _ _ _ => ⟨trivial, trivial⟩)
      (fun _ _ _ _ _ _ _ _ _ _ _ _ _ _ _ _ _ _ _ => trivial) h hn
  · cases hn with
    | start c hc => exact .of_same le_rfl rfl
    | act i c g o f r s' hi hstep hexec hB =>
      exact lengthens_next (h.acts compensating_harmless hi hstep hexec hB).1

/-- A pool of calls of the service, as a schedule has left it. -/
def Underway (P : Pool Op Res Err Reply Tables Call) : Prop := ∃ v, service.Views Ends P v ∧ Running v

theorem underway_init (db : Database) : Underway (Pool.init db.tables) :=
  ⟨_, Protocol.Views.init _, Invariant.init db.constraints trivial⟩

/-- The schedule goes on: the ledger grows, and every call bears that. -/
theorem underway_play {P P' : Pool Op Res Err Reply Tables Call} (h : Underway P) {ms : List (Move Call Err)}
    (hB : P.Meets exec Call.handler compensating ms) (hplay : P.play exec Call.handler ms = some P') :
    Underway P' ∧ Lengthens P.state P'.state ∧ ∀ (Q : Reply → Tables → Prop) i call,
      P.Bears exec Lengthens Q i call → P'.Bears exec Lengthens Q i call := by
  obtain ⟨v, hv, hI⟩ := h
  exact play_under (fun call hc => follows_handler hc) (fun _ _ => running_next) hv hI hB hplay

/-- Schedules that write no account compensate nobody. -/
theorem meets_of_check_accounts {s : Tables} {ms : List (Move Call Err)} (hcalls : ∀ c ∈ Pool.started ms, c.scheduled)
    (h : Pool.check exec Call.handler (fun _ _ _ _ o => !o.writes .dedicatedAccounts) (Pool.init s) ms = true) :
    Meets compensating s ms := by
  refine Pool.meets_of_check (fun c hc => ⟨hcalls c hc, fun s tr i o ho => ?_⟩) h
  cases o with
  | customerDelete id => cases ho
  | _ => trivial

end LdbBackend
