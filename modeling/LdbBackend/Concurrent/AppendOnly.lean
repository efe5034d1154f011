import LdbBackend.Concurrent.Frame
import LdbBackend.Payments.Wallet

/-!
# When the ledger is append-only

The only delete of the service is the compensation in `create`. While Nomba is called the new customer
is visible: `create_dedicated` can give it an account and payments can arrive, and the delete then takes
all of it along (`payment_deleted`). As long as no compensation meets a customer with payments, rows of
the ledger stay, and so do customers with money: a customer has money only if it has payments (`Funded`).
-/

namespace LdbBackend

open Fixed Effects Table

/-- The calls of the service, where a compensation meets a customer without payments. -/
def compensating : Assumption Op Res Tables Call where
  call := Call.scheduled
  step _ s _ _
    | .customerDelete id => s.Unpaid id
    | _ => True

/-- The customer has a payment. -/
def Tables.Paid (db : Tables) (customerId : UUID) : Prop :=
  ∃ a ∈ db.dedicatedAccounts, a.customerId = customerId ∧
    ∃ t ∈ db.transactions, t.dedicatedAccountId = some a.id

/-- Money in the wallet of a customer that came after `clock` comes from payments. -/
def Funded (clock : Nat) (s : Tables) (customerId : UUID) (wallet : Cents) : Prop :=
  clock ≤ customerId → wallet ≠ 0 → s.Paid customerId

/-- What stays of the tables `past`: the rows of the ledger, and the customers with money. -/
structure Remains (past s : Tables) : Prop where
  transactions : past.transactions <+: s.transactions
  suspenseLogs : past.suspenseLogs <+: s.suspenseLogs
  reconciliationLogs : past.reconciliationLogs <+: s.reconciliationLogs
  customers : ∀ c ∈ past.customers, c.walletBalance ≠ 0 → ∃ c' ∈ s.customers, c'.id = c.id

structure Lasting (clock : Nat) (past s : Tables) : Prop where
  later : clock ≤ s.clock
  funded : ∀ c ∈ s.customers, Funded clock s c.id c.walletBalance
  remains : Remains past s
  paid : ∀ c ∈ past.customers, Funded clock s c.id c.walletBalance

/-- A customer that `update` has read is funded; one that `create` may remove is new. -/
def Traced (clock : Nat) (s : Tables) : Place → Prop
  | .found customer => ∀ wallet, numericColumn customer.walletBalance = .ok wallet →
      Funded clock s customer.id wallet
  | .pending customer => clock ≤ customer.id
  | _ => True

section Step

variable {clock : Nat} {past s s' : Tables} {tr : Trace} {i : Nat} {call : Call} {g : Place} {o : Op}
  {f : Res o → Place} {r : Res o} {customerId : UUID} {wallet : Cents}

theorem compensating_harmless : Harmless compensating :=
  fun _ _ _ _ _ _ h _ _ _ => h

theorem Tables.Paid.keeps (h : s.Paid customerId) (hk : Keeps s s') : s'.Paid customerId := by
  obtain ⟨a, ha, howner, t, ht, hta⟩ := h
  obtain ⟨b, hb, hkeys⟩ := hk.paid a ha t ht hta
  exact ⟨b, hb, (keys_owner hkeys).trans howner, t, hk.transactions.subset ht,
    hta.trans (congrArg some (keys_id hkeys).symm)⟩

theorem Funded.keeps (h : Funded clock s customerId wallet) (hk : Keeps s s') :
    Funded clock s' customerId wallet :=
  fun hnew hwallet => (h hnew hwallet).keeps hk

theorem not_unpaid (h : s.Paid customerId) : ¬ s.Unpaid customerId := by
  obtain ⟨a, ha, howner, t, ht, hta⟩ := h
  exact fun hun => hun a ha howner t ht hta

/-- The owner of the account of an inserted transaction is paid. -/
theorem paid_of_inserted (hs : Shared s tr) {account : DedicatedAccount}
    {customer : Customer Decimal} {t : Transaction}
    (h : Standing s tr i call (.inserted account customer t)) : s.Paid customer.id := by
  obtain ⟨hknown, howner, haccount, hcreated, -⟩ := h
  have ht := hs.created i t hcreated
  obtain ⟨b, hb, hid⟩ := hs.constraints.transaction_fk t ht account.id haccount
  refine ⟨b, hb, ?_, t, ht, haccount.trans (congrArg some hid.symm)⟩
  rw [howner]
  exact keys_owner (hknown.keys b hb hid)

/-- A customer is saved with a funded wallet. -/
theorem saves_funded {c : Customer Decimal} {f : Res (.customerSave c) → Place}
    {r : Res (.customerSave c)} (ha : Acts compensating s tr i call g (.customerSave c) f r s')
    (h : Traced clock s g) (hwallet : numericColumn c.walletBalance = .ok wallet) :
    Funded clock s c.id wallet := by
  have hshared := ha.shared
  have hstanding := ha.standing
  cases ha.turn with
  | wait waits silent => cases silent
  | save kind => exact fun _ _ => paid_of_inserted hshared hstanding
  | edit => exact h wallet hwallet

theorem funded_next (ha : Acts compensating s tr i call g o f r s') (h : Lasting clock past s)
    (ht : Traced clock s g) : ∀ c ∈ s'.customers, Funded clock s' c.id c.walletBalance := by
  have hrun := ha.run
  have hkeeps := ha.keeps
  cases hw : o.writes .customers with
  | false =>
    rw [(exec_frame hrun).customers hw]
    exact fun c hc => (h.funded c hc).keeps hkeeps
  | true =>
    intro c hc
    refine Funded.keeps ?_ hkeeps
    cases o with
    | customerCreate new =>
      obtain ⟨row, hrow, -, -, rfl⟩ := createCustomer_ok_iff.mp hrun
      rcases List.mem_append.mp hc with hc | hc
      · exact h.funded c hc
      · rw [List.mem_singleton.mp hc, (NewCustomer.row_ok hrow).2.2.2.1]
        exact fun _ hne => absurd rfl hne
    | customerSave customer =>
      obtain ⟨wallet, hwallet, hrows⟩ := saveCustomer_wallets (written_ok_iff.mp hrun)
      rcases hrows c hc with ⟨hid, hbalance⟩ | ⟨hold, -⟩
      · rw [hid, hbalance]
        exact saves_funded ha ht hwallet
      · exact h.funded c hold
    | customerDelete id =>
      cases hrun
      exact h.funded c (List.mem_of_mem_filter hc)
    | _ => cases hw

/-- Only new customers are removed. -/
theorem removes_new {id : UUID} {f : Res (.customerDelete id) → Place} {r : Res (.customerDelete id)}
    (ha : Acts compensating s tr i call g (.customerDelete id) f r s') (ht : Traced clock s g) :
    clock ≤ id := by
  cases ha.turn with
  | wait waits silent => cases silent
  | compensate => exact ht

/-- A customer with money is not removed. -/
theorem customers_next (ha : Acts compensating s tr i call g o f r s') (h : Lasting clock past s)
    (ht : Traced clock s g) :
    ∀ c ∈ past.customers, c.walletBalance ≠ 0 → ∃ c' ∈ s'.customers, c'.id = c.id := by
  intro c hc hmoney
  obtain ⟨c', hc', hid⟩ := h.remains.customers c hc hmoney
  have hrun := ha.run
  cases hw : o.writes .customers with
  | false =>
    rw [(exec_frame hrun).customers hw]
    exact ⟨c', hc', hid⟩
  | true =>
    cases o with
    | customerCreate new =>
      obtain ⟨row, -, -, -, rfl⟩ := createCustomer_ok_iff.mp hrun
      exact ⟨c', List.mem_append_left _ hc', hid⟩
    | customerSave customer =>
      obtain ⟨target, wallet, -, -, -, rfl⟩ := saveCustomer_ok_iff.mp (written_ok_iff.mp hrun)
      have hids : c.id ∈ (setRow (·.id) (customer.dump target wallet s.clock) s.customers).map
          (·.id) := by
        rw [map_key_setRow, ← hid]
        exact List.mem_map.mpr ⟨c', hc', rfl⟩
      exact List.mem_map.mp hids
    | customerDelete id =>
      have hunpaid : s.Unpaid id := ha.allowed
      have hnew := removes_new ha ht
      have hne : c.id ≠ id := by
        rintro rfl
        exact not_unpaid (h.paid c hc hnew hmoney) hunpaid
      cases hrun
      refine ⟨c', List.mem_filter.mpr ⟨hc', ?_⟩, hid⟩
      rw [hid]
      simpa using hne
    | _ => cases hw

theorem lasting_next (ha : Acts compensating s tr i call g o f r s') (h : Lasting clock past s)
    (ht : Traced clock s g) : Lasting clock past s' := by
  have hk := ha.keeps
  refine ⟨h.later.trans hk.clock, funded_next ha h ht, ⟨?_, ?_, ?_, customers_next ha h ht⟩,
    fun c hc => (h.paid c hc).keeps hk⟩
  · exact h.remains.transactions.trans hk.transactions
  · exact h.remains.suspenseLogs.trans hk.suspenseLogs
  · exact h.remains.reconciliationLogs.trans hk.reconciliationLogs

theorem Traced.keeps {g : Place} (h : Traced clock s g) (hk : Keeps s s') : Traced clock s' g := by
  cases g with
  | found customer => exact fun wallet hwallet => (h wallet hwallet).keeps hk
  | pending customer => exact h
  | _ => trivial

theorem traced_found (hc : s.Constraints) (h : Lasting clock past s) {p : Customer Cents → Bool}
    {customer : Customer Decimal}
    (he : (getOrNone p s.customers).map (Option.map Customer.load) = .ok (some customer)) :
    Traced clock s (.found customer) := by
  obtain ⟨row, hrow, -, rfl⟩ := getOrNone_load he
  intro wallet hwallet
  have hsame : numericColumn row.load.walletBalance = .ok row.walletBalance :=
    numericColumn_ofScaled (hc.customer_columns row hrow).1
  rw [hsame] at hwallet
  cases hwallet
  exact h.funded row hrow

theorem traced_next (ha : Acts compensating s tr i call g o f r s') (h : Lasting clock past s)
    (ht : Traced clock s g) : Traced clock s' (f r) := by
  have hrun := ha.run
  have hc := ha.shared.constraints
  have hkeeps := ha.keeps
  cases ha.turn with
  | wait waits silent => exact ht.keeps hkeeps
  | check key =>
    cases r with
    | true => trivial
    | false =>
      rcases opening_cases (kindOf _) with hg | hg | hg
      all_goals exact hg ▸ trivial
  | byNumber kind =>
    cases r with
    | none => rcases byRef_cases _ with hg | hg <;> exact hg ▸ trivial
    | some a => trivial
  | resolveById | resolveByExternalId =>
    obtain ⟨hfound, rfl⟩ := answered_ok_iff.mp hrun
    cases r with
    | none => trivial
    | some customer => exact traced_found hc h hfound
  | provide =>
    obtain ⟨row, hrow, -, hcustomer, -⟩ := createCustomer_ok_iff.mp hrun
    have hid : r.id = s.clock := by
      rw [hcustomer]
      exact (NewCustomer.row_ok hrow).1
    exact h.later.trans (ge_of_eq hid)
  | byReference | findAccount | choose | matchById | matchByRef => cases r <;> trivial
  | ignore | load | hold | insert | suspend | logSuspense | save | logCredit | emit | mark | edit
  | rename | compensate | openAccount | openDedicated | logMatch => trivial

end Step

/-! ## Every schedule -/

abbrev Enduring (clock : Nat) (past : Tables) :
    Protocol.View Op Res Tables Call Place → Prop :=
  Invariant compensating (fun s _ => Lasting clock past s) fun s _ _ _ g => Traced clock s g

theorem enduring_next {clock : Nat} {past : Tables} {v v' : Protocol.View Op Res Tables Call Place}
    (h : Enduring clock past v) (hn : service.Next exec compensating v v') :
    Enduring clock past v' :=
  invariant_next compensating_harmless (fun _ _ _ _ _ => trivial)
    (fun _ _ _ _ _ _ _ _ _ ha h ht => ⟨lasting_next ha h ht, traced_next ha h ht⟩)
    (fun _ _ _ _ _ _ _ _ _ ha _ _ _ _ _ _ _ _ ht => ht.keeps ha.keeps) h hn

theorem lasting_refl {clock : Nat} {s : Tables} (hclock : clock ≤ s.clock)
    (hfunded : ∀ c ∈ s.customers, Funded clock s c.id c.walletBalance) : Lasting clock s s :=
  ⟨hclock, hfunded, ⟨List.prefix_refl _, List.prefix_refl _, List.prefix_refl _,
    fun c hc _ => ⟨c, hc, rfl⟩⟩, hfunded⟩

/-- In every schedule of the calls of the service, interleaved in any order and with any replies, whose
compensations all meet customers without payments: what one moment has of the ledger, and of customers
with money, every later moment has. -/
theorem ledger_remains (db : Database) (earlier later : List (Move Call Err))
    (hmeets : Meets compensating db.tables (earlier ++ later))
    (P P' : Pool Op Res Err Reply Tables Call) (hplay : play db.tables earlier = some P)
    (hlater : P.play exec Call.handler later = some P') : Remains P.state P'.state := by
  obtain ⟨hmeets₁, hmeets₂⟩ := Pool.Meets.append hmeets hplay
  have hold : ∀ c ∈ db.tables.customers, Funded db.tables.clock db.tables c.id c.walletBalance :=
    fun c hc hnew _ => absurd (db.constraints.customer_fresh c hc) (Nat.not_lt.mpr hnew)
  have hinit : Enduring db.tables.clock db.tables ⟨db.tables, [], []⟩ :=
    Invariant.init db.constraints (lasting_refl le_rfl hold)
  obtain ⟨v, hv, hI⟩ := play_view (fun _ h => h) (fun _ _ => enduring_next) hinit hmeets₁ hplay
  -- the second part starts from the tables of the first
  have hI₂ : Enduring db.tables.clock v.state v :=
    ⟨⟨hI.shared.1, lasting_refl hI.shared.2.later hI.shared.2.funded⟩, hI.program, hI.index⟩
  obtain ⟨v', hv', hI'⟩ := play_on (fun _ h => h) (fun _ _ => enduring_next) hv hI₂ hmeets₂ hlater
  have hremains := hI'.shared.2.remains
  rw [hv.state, hv'.state] at hremains
  exact hremains

/-- A customer whose provisioning will fail. -/
def failing (merchantCustomerId : String) : Call :=
  .create ⟨merchantCustomerId, "Ada", none, none, none, []⟩ 7 (.failure "no account")

/-- One customer has an account and a payment. -/
def onePayment : Database :=
  (provisioned none).after (receive quiet (samplePayment "R1" "9901" 5))

/-- Another customer is inserted, and removed again when Nomba refuses its account. -/
def compensated : List (Move Call Err) := .start (failing "cust-2") :: List.replicate 3 (.advance 0)

theorem compensated_meets :
    Meets compensating onePayment.tables (compensated ++ [.advance 0, .advance 0]) := by
  refine .cons trivial rfl ?_
  iterate 4 refine .cons (fun c o k h => by cases h; trivial) rfl ?_
  refine .cons (fun c o k h => ?_) rfl trivial
  cases h
  intro a ha howner
  have hfirst : a.customerId = 0 := by
    rw [List.mem_singleton.mp ha]
    rfl
  rw [hfirst] at howner
  exact absurd howner (by decide)

theorem ledger_remains_when_compensated :
    ∃ P P', play onePayment.tables compensated = some P ∧
      P.play exec Call.handler [.advance 0, .advance 0] = some P' ∧ Remains P.state P'.state :=
  ⟨_, _, rfl, rfl, ledger_remains onePayment compensated [.advance 0, .advance 0] compensated_meets _ _
    rfl rfl⟩

/-- While `create` waits for Nomba, its customer is given an account, and the account is paid. -/
def overtaken : List (Move Call Err) :=
  .start (failing "cust-1") :: List.replicate 3 (.advance 0) ++
    .start (.createDedicated ⟨"cust-1", none⟩ 7 (.success (.obj [("accountNumber", .str "9901")]))) ::
      List.replicate 5 (.advance 1) ++
    .start (.receive quiet (samplePayment "R1" "9901" 5)) :: List.replicate 9 (.advance 2)

/-- The ledger and the wallets of a state, in numbers. -/
def Tables.census (db : Tables) : Nat × Nat × List Cents :=
  (db.transactions.length, db.reconciliationLogs.length, db.customers.map (·.walletBalance))

/-- The compensation then removes the customer with its money, its payment and its decision. -/
theorem payment_deleted : ∃ P P', play Database.empty.tables overtaken = some P ∧
    P.play exec Call.handler [.advance 0, .advance 0] = some P' ∧
    P.state.census = (1, 1, [500]) ∧ P'.state.census = (0, 0, []) ∧ ¬ Remains P.state P'.state := by
  have hrun : ((play Database.empty.tables overtaken).bind fun P =>
      (P.play exec Call.handler [.advance 0, .advance 0]).map fun P' =>
        (P.state.census, P'.state.census)) = some ((1, 1, [500]), 0, 0, []) := by
    decide +kernel
  obtain ⟨P, hP, hlater⟩ := Option.bind_eq_some_iff.mp hrun
  obtain ⟨P', hP', hcensus⟩ := Option.map_eq_some_iff.mp hlater
  obtain ⟨hbefore, hafter⟩ := Prod.mk.inj hcensus
  refine ⟨P, P', hP, hP', hbefore, hafter, fun h => ?_⟩
  have hlength : P.state.census.1 ≤ P'.state.census.1 := h.transactions.length_le
  rw [hbefore, hafter] at hlength
  omega

end LdbBackend
