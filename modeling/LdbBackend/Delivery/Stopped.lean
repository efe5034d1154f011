import LdbBackend.Delivery.Posted

/-!
# Deliveries that are stopped

A delivery can be stopped by an exception in place of any of its statements. The writes that took effect
are then the first ones of the whole delivery, and those have one of four shapes (`Shape`): no
transaction was inserted, it was inserted and nothing else, or it was followed by the save of the
credited customer or by its suspense entry.
-/

namespace LdbBackend

open Fixed Effects Table

/-- A delivery, with the exception and the statement it stops, if it is stopped. -/
structure Delivery where
  env : Surroundings
  payload : Json
  stop : Option (Err × Nat)

def Delivery.handler (d : Delivery) : Handler Response :=
  match d.stop with
  | none => receive d.env d.payload
  | some (e, n) => Prog.cut e n (receive d.env d.payload)

/-- Statements that leave customers, accounts, transactions and suspense entries alone. -/
def Op.aside : Op → Bool
  | .reconciliationLogCreate _ | .processedCreate _ _ => true
  | o => o.isQuery

theorem exec_aside {o : Op} {db db' : Tables} {r : Res o} (ho : o.aside = true)
    (h : exec o db = .ok (r, db')) : Unposted db db' := by
  cases hq : o.isQuery with
  | true =>
    rw [exec_query hq h]
    exact .refl db
  | false =>
    cases o with
    | reconciliationLogCreate new =>
      obtain ⟨_, -, -, rfl⟩ := createReconciliationLog_ok_iff.mp (written_ok_iff.mp h)
      exact ⟨rfl, rfl, rfl, rfl⟩
    | processedCreate requestId eventType =>
      obtain ⟨-, -, -, rfl⟩ := createProcessedEvent_ok_iff.mp (written_ok_iff.mp h)
      exact ⟨rfl, rfl, rfl, rfl⟩
    | _ => cases hq.symm.trans ho

theorem Unposted.trans {db db' db'' : Tables} (h : Unposted db db') (h' : Unposted db' db'') :
    Unposted db db'' :=
  ⟨h'.accounts.trans h.accounts, h'.transactions.trans h.transactions,
    h'.suspenseLogs.trans h.suspenseLogs, h'.customers.trans h.customers⟩

theorem leads_aside {evs : List (Event Op Res)} {db db' : Tables} (h : Prog.Leads exec evs db db')
    (hevs : ∀ ev ∈ evs, ev.1.aside = true) : Unposted db db' := by
  refine h.keep (q := fun o : Op => o.aside = true) (I := Unposted db) ?_ hevs (.refl db)
  intro o s r s' ho hs he
  exact hs.trans (exec_aside ho he)

section Shape

variable (env : Surroundings) (payload : Json) (db : Tables)

inductive Shape : List (Event Op Res) → Prop
  | aside {evs : List (Event Op Res)} (rest : ∀ ev ∈ evs, ev.1.aside = true) : Shape evs
  | half (new : NewTransaction) (t : Transaction) : Shape [⟨.transactionCreate new, t⟩]
  | credited {requestId : Json} {p : Payment} {account : DedicatedAccount} {row : Customer Cents}
      {t : Transaction} {status : TransactionStatus} {evs : List (Event Op Res)}
      (kind : kindOf payload = .payment requestId p) (credit : Credits p db account row)
      (rest : ∀ ev ∈ evs, ev.1.aside = true) :
      Shape (⟨.transactionCreate ((p.withReference env.reference).newTransaction requestId payload
        (some account) status), t⟩ :: ⟨.customerSave (p.creditedOwner row), ()⟩ :: evs)
  | held (new : NewTransaction) (t : Transaction) (reason : SuspenseReason) (amount : Decimal)
      {evs : List (Event Op Res)} (rest : ∀ ev ∈ evs, ev.1.aside = true) :
      Shape (⟨.transactionCreate new, t⟩ :: ⟨.suspenseLogCreate t reason amount, ()⟩ :: evs)

end Shape

section Prefix

variable {env : Surroundings} {payload requestId : Json} {p : Payment} {db : Tables}
  {evs evs' : List (Event Op Res)}

/-- The first writes of a shape have a shape. -/
theorem Shape.of_prefix (h : Shape env payload db evs) (hpre : evs' <+: evs) :
    Shape env payload db evs' := by
  have hrest : ∀ {w w' : List (Event Op Res)}, (∀ ev ∈ w, ev.1.aside = true) → w' <+: w →
      ∀ ev ∈ w', ev.1.aside = true := fun hw hpre ev hev => hw ev (hpre.subset hev)
  have hnil : Shape env payload db [] := .aside fun ev hev => absurd hev List.not_mem_nil
  cases h with
  | aside rest => exact .aside (hrest rest hpre)
  | half new t =>
    rcases List.prefix_cons_iff.mp hpre with rfl | ⟨w, rfl, hw⟩
    · exact hnil
    · rw [List.prefix_nil.mp hw]
      exact .half new t
  | credited kind credit rest =>
    rcases List.prefix_cons_iff.mp hpre with rfl | ⟨w, rfl, hw⟩
    · exact hnil
    · rcases List.prefix_cons_iff.mp hw with rfl | ⟨w', rfl, hw'⟩
      · exact .half _ _
      · exact .credited kind credit (hrest rest hw')
  | held new t reason amount rest =>
    rcases List.prefix_cons_iff.mp hpre with rfl | ⟨w, rfl, hw⟩
    · exact hnil
    · rcases List.prefix_cons_iff.mp hw with rfl | ⟨w', rfl, hw'⟩
      · exact .half new t
      · exact .held new t reason amount (hrest rest hw')

theorem Shape.append (h : Shape env payload db evs) (hnot : ∀ new t, evs ≠ [⟨.transactionCreate new, t⟩])
    (hevs' : ∀ ev ∈ evs', ev.1.aside = true) : Shape env payload db (evs ++ evs') := by
  have hrest : ∀ {w : List (Event Op Res)}, (∀ ev ∈ w, ev.1.aside = true) →
      ∀ ev ∈ w ++ evs', ev.1.aside = true := fun hw => List.forall_mem_append.mpr ⟨hw, hevs'⟩
  cases h with
  | aside rest => exact .aside (hrest rest)
  | half new t => exact absurd rfl (hnot new t)
  | credited kind credit rest => exact .credited kind credit (hrest rest)
  | held new t reason amount rest => exact .held new t reason amount (hrest rest)

theorem Settles.shape {o : Outcome Op Res Err PaymentResult Tables}
    (hkind : kindOf payload = .payment requestId p)
    (h : Settles env requestId payload (p.withReference env.reference) db o) :
    Shape env payload db o.events := by
  have hcredits : ∀ {account : DedicatedAccount} {row : Customer Cents},
      Credits (p.withReference env.reference) db account row → Credits p db account row :=
    fun hc => ⟨hc.route, hc.active, hc.mem, hc.owner⟩
  cases h with
  | refused insert => exact .aside fun ev hev => absurd hev List.not_mem_nil
  | held hold insert => exact .held _ _ _ _ (by simp [Op.aside])
  | unsaved credit wallet_error => exact .half _ _
  | unlogged credit wallet_ok target_error =>
    exact .credited hkind (hcredits credit.toCredits) fun ev hev => absurd hev List.not_mem_nil
  | undelivered credit wallet_ok target_ok emit =>
    exact .credited hkind (hcredits credit.toCredits) (by simp [Op.aside])
  | credited credit wallet_ok target_ok emit =>
    exact .credited hkind (hcredits credit.toCredits) (by simp [Op.aside])

theorem Delivers.shape {o : Outcome Op Res Err Response Tables} (h : Delivers env payload db o) :
    Shape env payload db o.events := by
  have hnil : Shape env payload db [] := .aside fun ev hev => absurd hev List.not_mem_nil
  cases h with
  | malformed kind => exact hnil
  | duplicate kind done => exact hnil
  | broken kind fresh => exact hnil
  | unmarked kind fresh mark => exact hnil
  | ignored kind fresh mark => exact .aside (by simp [Op.aside])
  | failed kind fresh settle => exact settle.shape kind
  | settled kind fresh settle =>
    refine (settle.shape kind).append ?_ (by simp [Op.aside])
    intro new t heq
    cases settle with
    | held hold insert => cases heq
    | credited credit wallet_ok target_ok emit => cases heq

end Prefix

theorem shape_handler {db : Tables} (h : db.Constraints) (d : Delivery) :
    Shape d.env d.payload db (outcomeOf d.handler db).events := by
  have hd : Delivers d.env d.payload db (outcomeOf (receive d.env d.payload) db) := delivers h
  unfold Delivery.handler
  cases d.stop with
  | none => exact hd.shape
  | some stop =>
    obtain ⟨e, n⟩ := stop
    refine hd.shape.of_prefix ?_
    show (Prog.ops exec (Prog.cut e n (receive d.env d.payload)) db).filter _ <+: _
    rw [Prog.ops_cut]
    exact (List.take_prefix n _).filter _

end LdbBackend
