import LdbBackend.Concurrent.Frame
import LdbBackend.Payments.Wallet

/-!
# At most one credit and one notification

Deliveries and updates interleave and may die anywhere. The check of the idempotency ledger races, so
safety rests on the order of a delivery's statements: the wallet is read before the transaction is
inserted and written after. Every object in flight therefore carries a wallet that the customer's
payments cover, without the payment of its own call (`Covered`), and a request has one inserting call,
which enters `emit_payment_received` once (`Unannounced`).
-/

namespace LdbBackend

open Fixed Effects Table

/-- The transactions whose `emit_payment_received` was entered. -/
def emitted (tr : Trace) : List Transaction :=
  tr.filterMap fun e => match e.2 with
    | ⟨.emitPaymentReceived t, _⟩ => some t
    | _ => none

/-- Deliveries of non-negative amounts with two decimals and updates, while the payments of a customer
that is saved add up within 28 digits. -/
def deliveries : Assumption Op Res Tables Call where
  call
    | .receive _ payload => ∀ requestId p, kindOf payload = .payment requestId p →
        ∃ n : Int, 0 ≤ n ∧ p.amount.IsScaled 2 n
    | .update _ _ _ _ => True
    | _ => False
  step _ s _ _
    | .customerSave customer => s.receivedTotal customer.id < 10 ^ prec
    | _ => True

/-- The wallet of the object and `amount` more are covered by the payments of the customer. -/
def Covered (s : Tables) (customer : Customer Decimal) (amount : Cents) : Prop :=
  ∃ wallet : Int, customer.walletBalance.IsScaled 2 wallet ∧ 0 ≤ wallet ∧
    wallet + amount ≤ s.receivedTotal customer.id

def Unannounced (tr : Trace) (t : Transaction) : Prop :=
  t.nombaRequestId ∉ (emitted tr).map (·.nombaRequestId)

structure Solvent (s : Tables) (tr : Trace) : Prop where
  nonneg : ∀ t ∈ s.transactions, 0 ≤ t.amount
  wallet : ∀ c ∈ s.customers, 0 ≤ c.walletBalance ∧ c.walletBalance ≤ s.receivedTotal c.id
  emitted : ((emitted tr).map (·.nombaRequestId)).Nodup
  announced : ∀ t ∈ LdbBackend.emitted tr, t ∈ s.transactions

/-- What a call in flight still adds to a wallet, and whether it still announces. -/
def Backed (s : Tables) (tr : Trace) : Place → Prop
  | .loaded _ (some customer) | .found customer => Covered s customer 0
  | .inserted _ customer t => Covered s customer t.amount ∧ Unannounced tr t
  | .credited t | .logged t => Unannounced tr t
  | _ => True

section Covered

variable {s s' : Tables} {tr : Trace} {i : Nat} {call : Call} {g : Place} {o : Op} {f : Res o → Place}
  {r : Res o} {t : Transaction} {customer : Customer Decimal} {amount : Cents}

theorem Covered.keeps (h : Covered s customer amount) (hc : s.Constraints) (hk : Keeps s s')
    (hpos : ∀ t ∈ s'.transactions, 0 ≤ t.amount) : Covered s' customer amount := by
  obtain ⟨wallet, hwallet, hnonneg, hle⟩ := h
  exact ⟨wallet, hwallet, hnonneg, hle.trans (receivedTotal_mono hc hk hpos _)⟩

theorem Solvent.covered (h : Solvent s tr) {row : Customer Cents} (hrow : row ∈ s.customers) :
    Covered s row.load 0 := by
  obtain ⟨hnonneg, hle⟩ := h.wallet row hrow
  exact ⟨row.walletBalance, Decimal.isScaled_ofScaled 2 _, hnonneg, by rw [add_zero]; exact hle⟩

/-- Saving a covered object leaves covered wallets. -/
theorem Solvent.save (h : Solvent s tr) (hcov : Covered s customer 0)
    (he : s.saveCustomer customer = .ok s') :
    ∀ c ∈ s'.customers, 0 ≤ c.walletBalance ∧ c.walletBalance ≤ s.receivedTotal c.id := by
  obtain ⟨wallet, hwallet, hnonneg, hle⟩ := hcov
  obtain ⟨stored, hstored, hrows⟩ := saveCustomer_wallets he
  have hsame : stored = wallet := Decimal.eq_of_toColumn hwallet (numericColumn_ok_iff.mp hstored)
  intro c hc
  rcases hrows c hc with ⟨hid, hbalance⟩ | ⟨hold, -⟩
  · rw [hbalance, hsame, hid]
    exact ⟨hnonneg, by rw [add_zero] at hle; exact hle⟩
  · exact h.wallet c hold

/-- The credited object of a payment is covered once its transaction is in. -/
theorem Covered.credit (h : Covered s customer t.amount) (hpays : Pays call t)
    (hcall : deliveries.call call) (hfits : s.receivedTotal customer.id < 10 ^ prec)
    {env : Surroundings} {payload requestId : Json} {p : Payment}
    (hreceive : call = .receive env payload) (kind : kindOf payload = .payment requestId p) :
    Covered s { customer with walletBalance := customer.walletBalance + p.amount } 0 := by
  obtain ⟨wallet, hwallet, hnonneg, hle⟩ := h
  subst hreceive
  cases hpays with
  | intro kind' request amount =>
    rw [kind] at kind'
    cases kind'
    obtain ⟨n, hn, hscaled⟩ := hcall requestId p kind
    have hamount : t.amount = n := Decimal.eq_of_quantize hscaled (decimalField_ok_iff.mp amount)
    rw [hamount] at hle
    have hsum : (0 : Int) ≤ wallet + n := Int.add_nonneg hnonneg hn
    refine ⟨wallet + n, Decimal.add_exact hwallet hscaled ?_, hsum, by rw [add_zero]; exact hle⟩
    exact (Decimal.natAbs_lt_prec hsum).mpr (lt_of_le_of_lt hle hfits)

end Covered

section Emitted

variable {tr : Trace} {i j : Nat} {o : Op} {r : Res o} {t u : Transaction}

theorem emitted_silent (ho : ∀ t, o ≠ .emitPaymentReceived t) :
    emitted (tr ++ [(i, ⟨o, r⟩)]) = emitted tr := by
  unfold emitted
  rw [List.filterMap_append]
  cases o with
  | emitPaymentReceived t => exact absurd rfl (ho t)
  | _ => exact List.append_nil _

theorem emitted_emit : emitted (tr ++ [(i, ⟨.emitPaymentReceived t, ()⟩)]) = emitted tr ++ [t] := by
  unfold emitted
  rw [List.filterMap_append]
  rfl

end Emitted

/-! ## One turn -/

section Turn

variable {s s' : Tables} {tr : Trace} {i : Nat} {call : Call} {g : Place} {o : Op} {f : Res o → Place}
  {r : Res o}

theorem deliveries_harmless : Harmless deliveries := by
  intro call s tr i id hcall _ g f turn
  cases turn with
  | wait waits silent => cases silent
  | compensate => exact hcall.elim

theorem not_delete (hcall : deliveries.call call) (turn : Turn call g o f) (id : UUID) :
    o ≠ .customerDelete id := by
  rintro rfl
  cases turn with
  | wait waits silent => cases silent
  | compensate => exact hcall.elim

/-- The amount of an inserted payment. -/
theorem nonneg_of_pays {t : Transaction} (hcall : deliveries.call call) (h : Pays call t) :
    0 ≤ t.amount := by
  cases h with
  | intro kind request amount =>
    obtain ⟨n, hn, hscaled⟩ := hcall _ _ kind
    rw [Decimal.eq_of_quantize hscaled (decimalField_ok_iff.mp amount)]
    exact hn

theorem amounts_next (ha : Acts deliveries s tr i call g o f r s') (h : ∀ t ∈ s.transactions, 0 ≤ t.amount) :
    ∀ t ∈ s'.transactions, 0 ≤ t.amount := by
  cases hw : o.writes .transactions with
  | false =>
    rw [(exec_frame ha.run).transactions hw]
    exact h
  | true =>
    cases o with
    | customerDelete id => exact absurd rfl (not_delete ha.started ha.turn id)
    | transactionCreate new =>
      have hpays : Pays call r := by
        cases ha.turn with
        | wait waits silent => cases silent
        | hold kind holding => exact (pays_of_insert kind ha.run).1
        | insert kind active => exact (pays_of_insert kind ha.run).1
      obtain ⟨-, -, -, hs'⟩ := createTransaction_ok_iff.mp ha.run
      rw [hs']
      exact forall_mem_append h (nonneg_of_pays ha.started hpays)
    | _ => cases hw

theorem nonneg_next (ha : Acts deliveries s tr i call g o f r s') (h : Solvent s tr) :
    ∀ t ∈ s'.transactions, 0 ≤ t.amount := amounts_next ha h.nonneg

/-- A customer is only saved with a covered wallet. -/
theorem saves_covered {c : Customer Decimal} {f : Res (.customerSave c) → Place}
    {r : Res (.customerSave c)} (ha : Acts deliveries s tr i call g (.customerSave c) f r s')
    (h : Backed s tr g) : Covered s c 0 := by
  have hfits := ha.allowed
  cases ha.turn with
  | wait waits silent => cases silent
  | @save env payload requestId p account customer t kind =>
    exact h.1.credit ha.standing.2.2.2.2 ha.started hfits rfl kind
  | edit => exact h

theorem wallet_next (ha : Acts deliveries s tr i call g o f r s') (h : Solvent s tr)
    (hb : Backed s tr g) : ∀ c ∈ s'.customers, 0 ≤ c.walletBalance ∧
      c.walletBalance ≤ s'.receivedTotal c.id := by
  have hmono := receivedTotal_mono ha.shared.constraints ha.keeps (nonneg_next ha h)
  have hs : ∀ c ∈ s'.customers, 0 ≤ c.walletBalance ∧ c.walletBalance ≤ s.receivedTotal c.id := by
    cases hw : o.writes .customers with
    | false =>
      rw [(exec_frame ha.run).customers hw]
      exact h.wallet
    | true =>
      cases o with
      | customerSave c => exact h.save (saves_covered ha hb) (written_ok_iff.mp ha.run)
      | customerDelete id => exact absurd rfl (not_delete ha.started ha.turn id)
      | customerCreate new =>
        cases ha.turn with
        | wait waits silent => cases silent
        | provide => exact ha.started.elim
      | _ => cases hw
  intro c hc
  exact ⟨(hs c hc).1, (hs c hc).2.trans (hmono c.id)⟩

theorem emitted_next (ha : Acts deliveries s tr i call g o f r s') (h : Solvent s tr)
    (hb : Backed s tr g) : ((emitted (tr ++ [(i, ⟨o, r⟩)])).map (·.nombaRequestId)).Nodup := by
  by_cases ho : ∃ t, o = .emitPaymentReceived t
  · obtain ⟨t, rfl⟩ := ho
    cases ha.turn with
    | wait waits silent => cases silent
    | emit =>
      rw [emitted_emit]
      refine nodup_map_append h.emitted fun u hu heq => ?_
      exact hb (List.mem_map.mpr ⟨u, hu, heq⟩)
  · rw [emitted_silent fun t ht => ho ⟨t, ht⟩]
    exact h.emitted

theorem announced_next (ha : Acts deliveries s tr i call g o f r s') (h : Solvent s tr) :
    ∀ t ∈ emitted (tr ++ [(i, ⟨o, r⟩)]), t ∈ s'.transactions := by
  by_cases ho : ∃ t, o = .emitPaymentReceived t
  · obtain ⟨t, rfl⟩ := ho
    cases ha.turn with
    | wait waits silent => cases silent
    | emit =>
      rw [emitted_emit]
      refine forall_mem_append (fun u hu => ha.keeps.transactions.subset (h.announced u hu)) ?_
      exact ha.keeps.transactions.subset (ha.shared.created i t ha.standing.1)
  · rw [emitted_silent fun t ht => ho ⟨t, ht⟩]
    exact fun u hu => ha.keeps.transactions.subset (h.announced u hu)

theorem solvent_next (ha : Acts deliveries s tr i call g o f r s') (h : Solvent s tr)
    (hb : Backed s tr g) : Solvent s' (tr ++ [(i, ⟨o, r⟩)]) :=
  ⟨nonneg_next ha h, wallet_next ha h hb, emitted_next ha h hb, announced_next ha h⟩

/-- The turn of one call leaves the others backed. -/
theorem backed_other (ha : Acts deliveries s tr i call g o f r s') (h : Solvent s tr) {j : Nat}
    {call' : Call} {g' : Place} (hji : j ≠ i) (hj : Standing s tr j call' g') (hb : Backed s tr g') :
    Backed s' (tr ++ [(i, ⟨o, r⟩)]) g' := by
  have hcov : ∀ c n, Covered s c n → Covered s' c n := fun c n hc =>
    hc.keeps ha.shared.constraints ha.keeps (nonneg_next ha h)
  have hann : ∀ t, Created tr j t → Unannounced tr t → Unannounced (tr ++ [(i, ⟨o, r⟩)]) t := by
    intro t ht hun
    by_cases ho : ∃ u, o = .emitPaymentReceived u
    · obtain ⟨u, rfl⟩ := ho
      cases ha.turn with
      | wait waits silent => cases silent
      | emit =>
        -- the announced transaction was inserted by `i`, so it is not that of `j`
        have hu : Created tr i u := ha.standing.1
        rw [Unannounced, emitted_emit, List.map_append, List.mem_append]
        rintro (hold | hnew)
        · exact hun hold
        · have hreq : t.nombaRequestId = u.nombaRequestId := List.mem_singleton.mp hnew
          have htu := ha.shared.eq_of_request ht hu hreq
          exact hji (ha.shared.owner j i t u ht hu (by rw [htu]))
    · rw [Unannounced, emitted_silent fun u hu => ho ⟨u, hu⟩]
      exact hun
  cases g' with
  | loaded account customer =>
    cases customer with
    | none => trivial
    | some c => exact hcov c 0 hb
  | found c => exact hcov c 0 hb
  | inserted account c t => exact ⟨hcov c _ hb.1, hann t hj.2.2.2.1 hb.2⟩
  | credited t | logged t => exact hann t hj.1 hb
  | _ => trivial

/-- A transaction just inserted is not announced. -/
theorem unannounced_new (h : Solvent s tr) {new : NewTransaction} {t : Transaction}
    (he : s.createTransaction new = .ok (t, s')) :
    Unannounced (tr ++ [(i, ⟨.transactionCreate new, t⟩)]) t := by
  obtain ⟨-, hnew, -, -⟩ := createTransaction_ok_iff.mp he
  rw [Unannounced, emitted_silent fun u hu => by cases hu]
  intro hmem
  obtain ⟨u, hu, hreq⟩ := List.mem_map.mp hmem
  exact hnew u (h.announced u hu) hreq

theorem covered_found (h : Solvent s tr) {p : Customer Cents → Bool} {customer : Customer Decimal}
    (he : (getOrNone p s.customers).map (Option.map Customer.load) = .ok (some customer)) :
    Covered s customer 0 := by
  obtain ⟨row, hrow, -, rfl⟩ := getOrNone_load he
  exact h.covered hrow

/-- A call that acts is backed in its next place. -/
theorem backed_next (ha : Acts deliveries s tr i call g o f r s') (h : Solvent s tr)
    (hb : Backed s tr g) : Backed s' (tr ++ [(i, ⟨o, r⟩)]) (f r) := by
  have hrun := ha.run
  have hstarted := ha.started
  have hstanding := ha.standing
  have hkeeps := ha.keeps
  have hnonneg := nonneg_next ha h
  cases ha.turn with
  | wait waits silent => cases g <;> trivial
  | check key =>
    cases r with
    | true => trivial
    | false =>
      rcases opening_cases (kindOf _) with hg | hg | hg
      all_goals exact hg ▸ trivial
  | byNumber kind =>
    cases r with
    | none => rcases byRef_cases _ with hg | hg <;> exact hg ▸ trivial
    | some a => trivial
  | byReference kind => cases r <;> trivial
  | load =>
    cases hrun
    cases hfind : s.customers.find? _ with
    | none => trivial
    | some row => exact h.covered (List.mem_of_find?_eq_some hfind)
  | @insert env payload requestId p account customer kind active =>
    obtain ⟨hpays, haccount, -⟩ := pays_of_insert kind hrun
    obtain ⟨wallet, hwallet, hpos, hle⟩ := hb
    refine ⟨⟨wallet, hwallet, hpos, ?_⟩, unannounced_new h hrun⟩
    have howner : customer.id = account.customerId := hstanding.2 customer rfl
    rw [howner] at hle ⊢
    rw [receivedTotal_insert hstanding.1 haccount hrun]
    rw [add_zero] at hle
    exact Int.add_le_add_right hle _
  | save kind =>
    rw [Backed, Unannounced, emitted_silent fun u hu => by cases hu]
    exact hb.2
  | logCredit transaction =>
    rw [Backed, Unannounced, emitted_silent fun u hu => by cases hu]
    exact hb
  | resolveById | resolveByExternalId =>
    obtain ⟨hfound, rfl⟩ := answered_ok_iff.mp hrun
    cases r with
    | none => trivial
    | some customer => exact covered_found h hfound
  | findAccount | choose | matchById | matchByRef => cases r <;> trivial
  | ignore | hold | suspend | logSuspense | emit | mark | edit | rename | provide | compensate
  | openAccount | openDedicated | logMatch => trivial

end Turn

/-! ## Every schedule -/

/-- Whatever was credited before is covered by what was received. -/
theorem solvent_init {s : Tables} {credited : Transaction → Bool}
    (hamounts : ∀ t ∈ s.transactions, 0 ≤ t.amount)
    (hwallets : ∀ c ∈ s.customers,
      c.walletBalance = (((s.received c.id).filter credited).map (·.amount)).sum) :
    Solvent s [] := by
  refine ⟨hamounts, fun c hc => ?_, List.nodup_nil, fun t ht => by cases ht⟩
  have hpos : ∀ n ∈ (s.received c.id).map (·.amount), (0 : Int) ≤ n := by
    intro n hn
    obtain ⟨t, ht, rfl⟩ := List.mem_map.mp hn
    exact hamounts t (mem_received.mp ht).1
  have hsub : (((s.received c.id).filter credited).map (·.amount)).Sublist
      ((s.received c.id).map (·.amount)) := List.filter_sublist.map _
  rw [hwallets c hc]
  exact ⟨List.sum_nonneg fun n hn => hpos n (hsub.subset hn), hsub.sum_le_sum hpos⟩

/-- One transaction and one announcement for each request, and no wallet above what was received. -/
structure SafelyCredited (P : Pool Op Res Err Reply Tables Call) : Prop where
  transactions : (P.state.transactions.map (·.nombaRequestId)).Nodup
  announcements : ((emitted P.trace).map (·.nombaRequestId)).Nodup
  wallets : ∀ c ∈ P.state.customers, c.walletBalance ≤ P.state.receivedTotal c.id

/-- For any number of deliveries and updates, interleaved in any order and killed anywhere, every
request is inserted and announced at most once, and no wallet is over-credited. -/
theorem at_most_one_credit (db : Database) (credited : Transaction → Bool)
    (hamounts : ∀ t ∈ db.tables.transactions, 0 ≤ t.amount)
    (hwallets : ∀ c ∈ db.tables.customers,
      c.walletBalance = (((db.tables.received c.id).filter credited).map (·.amount)).sum)
    (schedule : List (Move Call Err)) (hmeets : Meets deliveries db.tables schedule)
    (P : Pool Op Res Err Reply Tables Call) (hplay : play db.tables schedule = some P) :
    SafelyCredited P := by
  have hcall : ∀ call, deliveries.call call → call.scheduled := fun call h => by
    cases call with
    | receive _ _ | update _ _ _ _ => trivial
    | _ => exact h.elim
  have hinit : Invariant deliveries Solvent (fun s tr _ _ g => Backed s tr g) ⟨db.tables, [], []⟩ :=
    Invariant.init db.constraints (solvent_init hamounts hwallets)
  have hnext := fun v v' => @invariant_next deliveries Solvent (fun s tr _ _ g => Backed s tr g)
    deliveries_harmless (fun _ _ _ _ _ => trivial)
    (fun _ _ _ _ _ _ _ _ _ ha h hb => ⟨solvent_next ha h hb, backed_next ha h hb⟩)
    (fun _ _ _ _ _ _ _ _ _ ha h _ _ _ _ hji _ hj hb => backed_other ha h hji hj hb) v v'
  obtain ⟨v, hv, hI⟩ := play_view hcall hnext hinit hmeets hplay
  obtain ⟨hshared, hsolvent⟩ := hI.shared
  rw [hv.state] at hshared
  rw [hv.state, hv.trace] at hsolvent
  exact ⟨hshared.constraints.transaction_request, hsolvent.emitted,
    fun c hc => (hsolvent.wallet c hc).2⟩

/-- Two deliveries of one payment pass the check; one credits, the other is killed and delivered
again. -/
def racing : List (Move Call Err) :=
  [.start (.receive quiet (samplePayment "R1" "9901" 5)),
    .start (.receive quiet (samplePayment "R1" "9901" 5)), .advance 0, .advance 1, .advance 0,
    .advance 0, .advance 0, .advance 0, .kill 1 .cancelled,
    .start (.receive quiet (samplePayment "R1" "9901" 5))]

theorem five_delivers : deliveries.call (.receive quiet (samplePayment "R1" "9901" 5)) := by
  intro requestId p hk
  cases hk
  exact ⟨500, by decide, by norm_num [Decimal.IsScaled, Decimal.toRat, Decimal.num, signed]⟩

theorem racing_meets : Meets deliveries (provisioned none).tables racing := by
  refine .cons five_delivers rfl (.cons five_delivers rfl ?_)
  iterate 5 refine .cons (fun c o k h => by cases h; trivial) rfl ?_
  refine .cons (fun c o k h => ?_) rfl (.cons trivial rfl (.cons five_delivers rfl trivial))
  cases h
  show _ < _
  decide

theorem at_most_one_credit_when_racing :
    ∃ P, play (provisioned none).tables racing = some P ∧ SafelyCredited P := by
  refine ⟨_, rfl, at_most_one_credit (provisioned none) (fun _ => true) ?_ ?_ racing racing_meets _ rfl⟩
  · intro t ht
    cases ht
  · intro c hc
    cases List.mem_singleton.mp hc
    decide

end LdbBackend
