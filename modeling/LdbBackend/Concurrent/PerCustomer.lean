import LdbBackend.Concurrent.LostUpdate

/-!
# Turns for each customer

Deliveries to any accounts, where only those for one customer take turns: from the first statement of a
delivery on, no other delivery for its customer executes one before it does (`HasTurn`). Then the wallet that a
delivery has read is still stored when it saves (`Fresh`), for a delivery for another customer does not touch
the row. So no credit is lost, whatever the deliveries for different customers do meanwhile
(`no_credit_lost_in_turns`).
-/

namespace LdbBackend

open Fixed Effects Table

/-- The account that a delivered payment is for. -/
def Call.target (db : Tables) : Call → Option DedicatedAccount
  | .receive _ payload =>
    match kindOf payload with
    | .payment _ p => p.route db
    | _ => none
  | _ => none

/-- Since program `i` began, no other program about its customer has executed a statement. -/
def HasTurn (about : Nat → UUID) (tr : Trace) (i : Nat) : Prop :=
  ∀ e ∈ tr.dropWhile (·.1 ≠ i), about e.1 = about i → e.1 = i

instance (about : Nat → UUID) (tr : Trace) (i : Nat) : Decidable (HasTurn about tr i) :=
  inferInstanceAs (Decidable (∀ e ∈ tr.dropWhile (·.1 ≠ i), about e.1 = about i → e.1 = i))

/-- Deliveries of payments of two decimals to active accounts. Those about one customer take turns. -/
def turning (db : Tables) (about : Nat → UUID) : Assumption Op Res Tables Call where
  call
    | .receive _ payload => ∃ requestId p n account, kindOf payload = .payment requestId p ∧
        p.route db = some account ∧ account.status = .active ∧ p.amount.IsScaled 2 n
    | _ => False
  step call s tr i o := (∀ account, call.target db = some account → about i = account.customerId) ∧
    HasTurn about tr i ∧ ∀ customer, o = .customerSave customer →
      ∀ row ∈ s.customers, row.id = customer.id → FitsAfter row call

/-- The directory of accounts and the ids of the customers are those of `db`, and its marks are kept. -/
structure Settled (db s : Tables) : Prop where
  directory : s.dedicatedAccounts.map DedicatedAccount.keys = db.dedicatedAccounts.map DedicatedAccount.keys
  marks : db.processedWebhookEvents <+: s.processedWebhookEvents
  ids : s.customers.map (·.id) = db.customers.map (·.id)

/-- While it has its turn, the wallet that the delivery has read and not yet saved is the stored one. -/
def Fresh (about : Nat → UUID) (account : DedicatedAccount) (s : Tables) (tr : Trace) (i : Nat) : Place → Prop
  | .loaded _ (some c) | .inserted _ c _ => about i = account.customerId → HasTurn about tr i →
      ∀ row ∈ s.customers, row.id = account.customerId → c.walletBalance = row.load.walletBalance
  | _ => True

/-- A delivery is on the way to its account. -/
def Bound (db : Tables) (about : Nat → UUID) (s : Tables) (tr : Trace) (i : Nat) (call : Call) (g : Place) : Prop :=
  ∀ account, call.target db = some account → Aimed db account s tr i call g ∧ Fresh about account s tr i g

section HasTurn

variable {about : Nat → UUID} {tr : Trace} {i j : Nat} {ev : Event Op Res}

theorem lastRead_begun {c : Customer Decimal} (h : lastRead tr i = some c) : ∃ e ∈ tr, e.1 = i := by
  have hmem := List.mem_of_getLast? h
  obtain ⟨e, he, heq⟩ := List.mem_filterMap.mp hmem
  split_ifs at heq with hi
  exact ⟨e, he, hi⟩

theorem dropWhile_begun (h : ∃ e ∈ tr, e.1 = i) (x : Nat × Event Op Res) :
    (tr ++ [x]).dropWhile (·.1 ≠ i) = tr.dropWhile (·.1 ≠ i) ++ [x] := by
  obtain ⟨e, he, hi⟩ := h
  induction tr with
  | nil => cases he
  | cons y tr ih =>
    by_cases hy : y.1 = i
    · simp [hy]
    · have hrest : e ∈ tr := by
        rcases List.mem_cons.mp he with rfl | hrest
        · exact absurd hi hy
        · exact hrest
      simpa [hy] using ih hrest

/-- Who still has its turn had it before, and the last statement was its own or about another customer. -/
theorem HasTurn.before (h : HasTurn about (tr ++ [(j, ev)]) i) (hbegun : ∃ e ∈ tr, e.1 = i) :
    HasTurn about tr i ∧ (about j = about i → j = i) := by
  unfold HasTurn at h
  rw [dropWhile_begun hbegun] at h
  exact ⟨fun e he => h e (List.mem_append_left _ he),
    h (j, ev) (List.mem_append_right _ (List.mem_singleton_self _))⟩

end HasTurn

section Step

variable {db s s' : Tables} {about : Nat → UUID} {account : DedicatedAccount} {tr : Trace} {i j : Nat}
  {call : Call} {g : Place} {o : Op} {f : Res o → Place} {r : Res o}

theorem turning_harmless : Harmless (turning db about) := by
  intro call s tr i id hcall _ g f turn
  cases turn with
  | wait waits silent => cases silent
  | compensate => exact hcall.elim

theorem turning_target (h : (turning db about).call call) : ∃ account, call.target db = some account ∧
    account.status = .active ∧ (paying db account).call call := by
  cases call with
  | receive env payload =>
    obtain ⟨requestId, p, n, account, kind, route, active, scaled⟩ := h
    refine ⟨account, ?_, active, requestId, p, n, kind, route, scaled⟩
    simp only [Call.target, kind]
    exact route
  | _ => exact h.elim

/-- What a delivery writes of the customers is the owner of its account, and it leaves the accounts. -/
theorem turning_writes (ha : Acts (turning db about) s tr i call g o f r s')
    (htarget : call.target db = some account) (h : Aimed db account s tr i call g) :
    s'.dedicatedAccounts = s.dedicatedAccounts ∧ (s'.customers = s.customers ∨
      ∃ customer, o = .customerSave customer ∧ customer.id = account.customerId) := by
  have hframe := exec_frame ha.run
  have hstarted := ha.started
  have hstanding := ha.standing
  cases ha.turn with
  | wait waits silent =>
    rw [exec_query (isQuery_of_silent silent) ha.run]
    exact ⟨rfl, .inl rfl⟩
  | save kind => exact ⟨hframe.dedicatedAccounts rfl, .inr ⟨_, rfl, hstanding.2.1.trans (keys_owner h.2.1)⟩⟩
  | resolveById | resolveByExternalId | edit | findAccount | rename | provide | compensate | openAccount
  | choose | openDedicated | matchById | matchByRef | logMatch => exact hstarted.elim
  | _ => exact ⟨hframe.dedicatedAccounts rfl, .inl (hframe.customers rfl)⟩

theorem target_mem (h : call.target db = some account) : account ∈ db.dedicatedAccounts := by
  cases call with
  | receive env payload =>
    unfold Call.target at h
    cases hkind : kindOf payload with
    | payment requestId p =>
      simp only [hkind] at h
      exact route_mem h
    | _ => simp [hkind] at h
  | _ => cases h

theorem Settled.steady (h : Settled db s) (hc : db.Constraints) (htarget : call.target db = some account) :
    Steady db account s := by
  obtain ⟨row, hrow, hid⟩ := hc.account_fk account (target_mem htarget)
  have hmem : row.id ∈ s.customers.map (·.id) := h.ids ▸ List.mem_map_of_mem hrow
  obtain ⟨row', hrow', hid'⟩ := List.mem_map.mp hmem
  exact ⟨h.directory, h.marks, row', hrow', hid'.trans hid⟩

theorem settled_next (ha : Acts (turning db about) s tr i call g o f r s')
    (htarget : call.target db = some account) (h : Aimed db account s tr i call g) (hs : Settled db s) :
    Settled db s' := by
  obtain ⟨haccounts, hcustomers⟩ := turning_writes ha htarget h
  refine ⟨haccounts ▸ hs.directory, hs.marks.trans (exec_marks ha.run), ?_⟩
  rcases hcustomers with hsame | ⟨customer, rfl, -⟩
  · rw [hsame]
    exact hs.ids
  · obtain ⟨target, wallet, -, -, -, rfl⟩ := saveCustomer_ok_iff.mp (written_ok_iff.mp ha.run)
    exact (map_key_setRow ..).trans hs.ids

/-- A turn of such a delivery is one whose save is up to date. -/
theorem acts_paying (ha : Acts (turning db about) s tr i call g o f r s') (htarget : call.target db = some account)
    (h : Bound db about s tr i call g) : Acts (paying db account) s tr i call g o f r s' := by
  obtain ⟨account', htarget', -, hpaying⟩ := turning_target ha.started
  obtain rfl : account = account' := Option.some.inj (htarget.symm.trans htarget')
  obtain ⟨haimed, hfresh⟩ := h account htarget
  obtain ⟨habout, hturn, hfits⟩ := ha.allowed
  have hstarted := ha.started
  refine ⟨hpaying, ?_, ha.turn, ha.run, ha.shared, ha.standing, ha.keeps⟩
  cases ha.turn with
  | wait waits silent => cases o <;> trivial
  | save kind =>
    intro howner row hrow hid
    refine ⟨hfits _ rfl row hrow hid, fun c hc => ?_⟩
    obtain rfl := Option.some.inj (hc.symm.trans haimed.2.2)
    exact hfresh (habout account htarget) hturn row hrow (hid.trans howner)
  | resolveById | resolveByExternalId | edit | findAccount | rename | provide | compensate | openAccount
  | choose | openDedicated | matchById | matchByRef | logMatch => exact hstarted.elim
  | _ => trivial

theorem fresh_opening (k : Kind) : Fresh about account s tr i k.opening := by
  rcases opening_cases k with hg | hg | hg <;> rw [hg] <;> trivial

theorem fresh_byRef (p : Payment) : Fresh about account s tr i p.byRef := by
  rcases byRef_cases p with hg | hg <;> rw [hg] <;> trivial

theorem fresh_next (ha : Acts (turning db about) s tr i call g o f r s') (htarget : call.target db = some account)
    (h : Bound db about s tr i call g) : Fresh about account s' (tr ++ [(i, ⟨o, r⟩)]) i (f r) := by
  obtain ⟨haimed, hfresh⟩ := h account htarget
  have hrun := ha.run
  have hstarted := ha.started
  cases ha.turn with
  | load =>
    cases r with
    | none => trivial
    | some c =>
      intro _ _ row hrow hid
      obtain ⟨hfound, rfl⟩ := Prod.mk.inj (Except.ok.inj hrun)
      obtain ⟨row', hfind, rfl⟩ := Option.map_eq_some_iff.mp hfound
      have hid' : row'.id = account.customerId := by
        rw [← keys_owner haimed.2]
        simpa using List.find?_some hfind
      rw [eq_of_key ha.shared.constraints.customer_pk hrow (List.mem_of_find?_eq_some hfind) (hid.trans hid'.symm)]
  | insert kind active =>
    intro habout hturn row hrow hid
    have hcustomers : s'.customers = s.customers := (exec_frame hrun).customers rfl
    obtain ⟨hbefore, -⟩ := hturn.before (lastRead_begun haimed.2.2)
    exact hfresh habout hbefore row (hcustomers ▸ hrow) hid
  | check key =>
    cases r with
    | true => trivial
    | false => exact fresh_opening _
  | byNumber kind =>
    cases r with
    | none => exact fresh_byRef _
    | some a => trivial
  | byReference kind => cases r <;> trivial
  | wait waits silent => cases g <;> trivial
  | resolveById | resolveByExternalId | edit | findAccount | rename | provide | compensate | openAccount
  | choose | openDedicated | matchById | matchByRef | logMatch => exact hstarted.elim
  | _ => trivial

theorem row_other (ha : Acts (turning db about) s tr i call g o f r s') (htarget : call.target db = some account)
    (h : Aimed db account s tr i call g) {row : Customer Cents} (hrow : row ∈ s'.customers)
    (hid : row.id ≠ account.customerId) : row ∈ s.customers := by
  obtain ⟨-, hcustomers⟩ := turning_writes ha htarget h
  rcases hcustomers with hsame | ⟨customer, rfl, howner⟩
  · exact hsame ▸ hrow
  · obtain ⟨target, wallet, -, -, -, rfl⟩ := saveCustomer_ok_iff.mp (written_ok_iff.mp ha.run)
    rcases mem_setRow.mp hrow with ⟨rfl, -⟩ | ⟨hold, -⟩
    · exact absurd howner hid
    · exact hold

/-- The turn of one delivery leaves the others on their way. -/
theorem bound_other (ha : Acts (turning db about) s tr i call g o f r s') (h : Bound db about s tr i call g)
    {call' : Call} {g' : Place} (hji : j ≠ i) (h' : Bound db about s tr j call' g') :
    Bound db about s' (tr ++ [(i, ⟨o, r⟩)]) j call' g' := by
  intro account' htarget'
  obtain ⟨haimed', hfresh'⟩ := h' account' htarget'
  obtain ⟨account, htarget, -⟩ := turning_target ha.started
  have hkept : ∀ c : Customer Decimal, lastRead tr j = some c → (about j = account'.customerId → HasTurn about tr j →
      ∀ row ∈ s.customers, row.id = account'.customerId → c.walletBalance = row.load.walletBalance) →
      about j = account'.customerId → HasTurn about (tr ++ [(i, ⟨o, r⟩)]) j →
        ∀ row ∈ s'.customers, row.id = account'.customerId → c.walletBalance = row.load.walletBalance := by
    intro c hread hstored habout hturn row hrow hid
    obtain ⟨hbefore, hapart⟩ := hturn.before (lastRead_begun hread)
    refine hstored habout hbefore row (row_other ha htarget (h account htarget).1 hrow fun hsame => ?_) hid
    refine hji (hapart ?_).symm
    rw [ha.allowed.1 account htarget, ← hsame, hid, habout]
  refine ⟨aimed_other (exec_marks ha.run).subset hji haimed', ?_⟩
  cases g' with
  | loaded a c =>
    cases c with
    | none => trivial
    | some c => exact hkept c haimed'.2.2 hfresh'
  | inserted a c t => exact hkept c haimed'.2.2 hfresh'
  | _ => trivial

end Step

/-! ## All wallets -/

/-- What a call has credited to the customer. -/
def paidTo (db : Tables) (customerId : UUID) (x : Call × Place) : ℚ :=
  if (x.1.target db).map (·.customerId) = some customerId then paidIn db x else 0

/-- What the call has to pay to the customer. -/
def Call.dueTo (db : Tables) (customerId : UUID) (call : Call) : ℚ :=
  if (call.target db).map (·.customerId) = some customerId then call.due db else 0

/-- Every wallet is the initial one and what has been credited to its customer. -/
structure AllAdding (db : Tables) (about : Nat → UUID) (v : Protocol.View Op Res Tables Call Place) : Prop where
  bound : Invariant (turning db about) (fun s _ => Settled db s) (fun s tr i call g => Bound db about s tr i call g) v
  wallets : ∀ row ∈ db.customers, ∀ row' ∈ v.state.customers, row'.id = row.id →
    row'.stored = row.stored + (v.places.map (paidTo db row.id)).sum
  marks : ∀ e ∈ v.state.processedWebhookEvents, e ∈ db.processedWebhookEvents ∨
    ∃ (j : Nat) (call : Call), v.places[j]? = some (call, Place.marked) ∧ call.requestKey = some e.requestId

section Schedule

variable {db : Tables} {about : Nat → UUID} {v v' : Protocol.View Op Res Tables Call Place}

/-- The wallets grow by what the turn credits. -/
theorem wallets_next (hc : db.Constraints) {s s' : Tables} {account : DedicatedAccount} {tr : Trace} {i : Nat}
    {call : Call} {g : Place} {o : Op} {f : Res o → Place} {r : Res o}
    (ha : Acts (turning db about) s tr i call g o f r s') (htarget : call.target db = some account)
    (hs : Settled db s) (h : Bound db about s tr i call g) {row row' : Customer Cents}
    (hrow' : row' ∈ s'.customers) (hid : row'.id = row.id) : ∃ old ∈ s.customers, old.id = row.id ∧
      row'.stored = old.stored + (paidTo db row.id (call, f r) - paidTo db row.id (call, g)) := by
  have haimed := (h account htarget).1
  simp only [paidTo, htarget, Option.map_some, Option.some_inj]
  by_cases howner : account.customerId = row.id
  · obtain ⟨old, hold, hidold, hgain⟩ := stored_next (acts_paying ha htarget h) (hs.steady hc htarget) haimed hrow'
      (hid.trans howner.symm)
    exact ⟨old, hold, hidold.trans howner, by simpa [howner] using hgain⟩
  · have hne : row'.id ≠ account.customerId := fun hsame => howner (hsame.symm.trans hid)
    exact ⟨row', row_other ha htarget haimed hrow' hne, hid, by simp [howner]⟩

theorem allAdding_next (hc : db.Constraints) (h : AllAdding db about v)
    (hn : service.Next exec (turning db about) v v') : AllAdding db about v' := by
  have hbound := invariant_next turning_harmless (fun _ _ _ _ _ _ _ => ⟨trivial, trivial⟩)
    (fun _ _ _ _ _ _ _ _ _ ha hs hb => by
      obtain ⟨account, htarget, active, -⟩ := turning_target ha.started
      refine ⟨settled_next ha htarget (hb account htarget).1 hs, fun account' htarget' => ?_⟩
      obtain rfl : account = account' := Option.some.inj (htarget.symm.trans htarget')
      exact ⟨aimed_next (acts_paying ha htarget hb) active (hs.steady hc htarget) (hb account htarget).1,
        fresh_next ha htarget hb⟩)
    (fun _ _ _ _ _ _ _ _ _ ha _ hb _ _ _ hji _ _ hb' => bound_other ha hb hji hb') h.bound hn
  cases hn with
  | start c hcall =>
    refine ⟨hbound, fun row hrow row' hrow' hid => ?_, fun e he => ?_⟩
    · rw [h.wallets row hrow row' hrow' hid]
      simp [paidTo, paidIn, Place.credits, service]
    · rcases h.marks e he with hold | ⟨j, call, hj, hkey⟩
      · exact .inl hold
      · refine .inr ⟨j, call, ?_, hkey⟩
        exact (List.getElem?_append_left (List.getElem?_eq_some_iff.mp hj).1).trans hj
  | act i call g o f r s' hi hstep hexec hB =>
    obtain ⟨ha, hs, hb⟩ := h.bound.acts turning_harmless hi hstep hexec hB
    obtain ⟨account, htarget, -⟩ := turning_target ha.started
    refine ⟨hbound, fun row hrow row' hrow' hid => ?_, fun e he => ?_⟩
    · obtain ⟨old, hold, hidold, hgain⟩ := wallets_next hc ha htarget hs hb hrow' hid
      rw [hgain, h.wallets row hrow old hold hidold, add_assoc]
      exact congrArg (row.stored + ·) (sum_map_set hi).symm
    · have hlt := (List.getElem?_eq_some_iff.mp hi).1
      rcases mark_turn (acts_paying ha htarget hb) he with hold | ⟨hmarked, hkey⟩
      · rcases h.marks e hold with hdb | ⟨j, call', hj, hkey⟩
        · exact .inl hdb
        · refine .inr ⟨j, call', ?_, hkey⟩
          have hij : i ≠ j := by
            rintro rfl
            rw [hi, Option.some.injEq, Prod.mk.injEq] at hj
            exact marked_final (hj.2 ▸ ha.turn)
          exact (List.getElem?_set_ne hij).trans hj
      · exact .inr ⟨i, call, by rw [List.getElem?_set_self hlt, hmarked], hkey⟩

/-- A delivery that has returned has credited what it had to. -/
theorem paidTo_returned (h : AllAdding db about v) (hdistinct : (v.places.filterMap (·.1.requestKey)).Nodup)
    (customerId : UUID) {i : Nat} {call : Call} {g : Place} {reply : Reply} (hi : v.places[i]? = some (call, g))
    (hends : Ends call g reply) : paidTo db customerId (call, g) = call.dueTo db customerId := by
  obtain ⟨hcall, -, hbound⟩ := h.bound.program i call g hi
  obtain ⟨account, htarget, -⟩ := turning_target hcall
  unfold paidTo Call.dueTo
  refine if_congr Iff.rfl ?_ rfl
  cases call with
  | receive env payload =>
    rcases hends with rfl | rfl
    · -- the mark that the delivery found is older than all calls, for no other call has its request
      obtain ⟨e, he, hkey⟩ := (hbound account htarget).1
      have hmarked : ¬ Unmarked db (.receive env payload) := by
        rcases h.marks e he with hold | ⟨j, call', hj, hkey'⟩
        · exact fun hun => hun e.requestId hkey e hold rfl
        · have hij := position_of_key hdistinct hi hj hkey hkey'
          rw [hij, hj] at hi
          cases hi
      exact (if_neg hmarked).symm
    · rfl
  | _ => exact hcall.elim

end Schedule

/-- For every number of deliveries of payments to any active accounts under distinct requests, interleaved in
any order in which those for one customer take turns: once all have returned, the wallet of every customer is
the initial one and the sum of the payments to it. -/
theorem no_credit_lost_in_turns (db : Database) (about : Nat → UUID) (schedule : List (Move Call Err))
    (hmeets : Meets (turning db.tables about) db.tables schedule) (P : Pool Op Res Err Reply Tables Call)
    (hplay : play db.tables schedule = some P) (hreturned : P.AllReturned)
    (hdistinct : (P.threads.filterMap (·.1.requestKey)).Nodup) :
    ∀ row ∈ db.tables.customers, ∃ row' ∈ P.state.customers, row'.id = row.id ∧
      row'.stored = row.stored + (P.threads.map (·.1.dueTo db.tables row.id)).sum := by
  have hcall : ∀ call, (turning db.tables about).call call → call.scheduled := fun call h => by
    cases call with
    | receive _ _ => trivial
    | _ => exact h.elim
  have hinit : AllAdding db.tables about ⟨db.tables, [], []⟩ := by
    refine ⟨Invariant.init db.constraints ⟨rfl, List.prefix_refl _, rfl⟩, fun row hrow row' hrow' hid => ?_,
      fun e he => .inl he⟩
    rw [eq_of_key db.constraints.customer_pk hrow' hrow hid]
    exact (add_zero _).symm
  obtain ⟨v, hv, hI⟩ := play_view hcall (fun v v' h hn => allAdding_next db.constraints h hn) hinit hmeets hplay
  have hcalls := hv.calls
  have hkeys : (v.places.filterMap (·.1.requestKey)).Nodup := by
    have hmap := congrArg (List.filterMap Call.requestKey) hcalls
    simp only [List.filterMap_map, Function.comp_def] at hmap
    rw [hmap]
    exact hdistinct
  intro row hrow
  have hpaid : v.places.map (paidTo db.tables row.id) = P.threads.map (·.1.dueTo db.tables row.id) := by
    have hdue : v.places.map (paidTo db.tables row.id) = v.places.map (·.1.dueTo db.tables row.id) := by
      refine List.map_congr_left fun x hx => ?_
      obtain ⟨i, hi⟩ := List.getElem?_of_mem hx
      obtain ⟨reply, hends⟩ := hv.returned hreturned hi
      exact paidTo_returned hI hkeys row.id hi hends
    have hmap := congrArg (List.map (Call.dueTo db.tables row.id)) hcalls
    rw [hdue]
    simpa only [List.map_map, Function.comp_def] using hmap
  have hmem : row.id ∈ v.state.customers.map (·.id) := hI.bound.shared.2.ids ▸ List.mem_map_of_mem hrow
  obtain ⟨row', hrow', hid⟩ := List.mem_map.mp hmem
  refine ⟨row', hv.state ▸ hrow', hid, ?_⟩
  rw [hI.wallets row hrow row' hrow' hid, hpaid]

/-! ## Two customers -/

def neighbours : Database := (provisioned none).after
  (CustomerService.create ⟨"cust-2", "Bea", none, none, none, []⟩ 7 (.success (.obj [("accountNumber", .str "9902")])))

def adaAccount : DedicatedAccount := ⟨1, 0, none, "9901", "Ada", "cust-1", .active, 1, 1⟩

def beaAccount : DedicatedAccount := ⟨3, 2, none, "9902", "Bea", "cust-2", .active, 3, 3⟩

/-- A payment to one account and two to the other. The first two overlap, the third waits for the first. -/
def interleaved : List (Move Call Err) :=
  [.start (.receive quiet (samplePayment "R1" "9901" 5)), .start (.receive quiet (samplePayment "R2" "9902" 7))] ++
    (List.replicate 9 [.advance 0, .advance 1]).flatten ++
    .start (.receive quiet (samplePayment "R3" "9901" 3)) :: List.replicate 9 (.advance 2)

def payee : Nat → UUID
  | 1 => 2
  | _ => 0

/-- What the payment to the other account is read as. -/
def beaPay : Payment := { samplePay 7 with aliasAccountNumber := "9902" }

/-- The call is about the payee, has its turn, and no wallet is large. -/
def turnCheck (call : Call) (s : Tables) (tr : Trace) (i : Nat) (_ : Op) : Bool :=
  ((call.target neighbours.tables).all fun account => payee i = account.customerId) && decide (HasTurn payee tr i) &&
    s.customers.all (·.walletBalance.natAbs ≤ 1000)

theorem interleaved_checks :
    Pool.check exec Call.handler turnCheck (Pool.init neighbours.tables) interleaved = true := by
  decide +kernel

theorem neighbours_accounts : neighbours.tables.dedicatedAccounts = [adaAccount, beaAccount] := by
  decide +kernel

theorem interleaved_routes : (∀ amount, (samplePay amount).route neighbours.tables = some adaAccount) ∧
    beaPay.route neighbours.tables = some beaAccount := by
  constructor
  · intro amount
    simp only [Payment.route, Tables.route, neighbours_accounts]
    rfl
  · simp only [Payment.route, Tables.route, neighbours_accounts]
    rfl

/-- A small payment to one of the accounts is a delivery that may take part. -/
theorem small_turns {payload requestId : Json} {p : Payment} {account : DedicatedAccount} {amount : Int}
    (kind : kindOf payload = .payment requestId p) (hroute : p.route neighbours.tables = some account)
    (active : account.status = .active) (hscaled : p.amount.IsScaled 2 (amount * 100)) (hsmall : amount.natAbs ≤ 7) :
    (turning neighbours.tables payee).call (.receive quiet payload) ∧
      ∀ s tr i o, turnCheck (.receive quiet payload) s tr i o = true →
        (turning neighbours.tables payee).step (.receive quiet payload) s tr i o := by
  refine ⟨⟨requestId, p, amount * 100, account, kind, hroute, active, hscaled⟩, fun s tr i o h => ?_⟩
  simp only [turnCheck, Bool.and_eq_true, List.all_eq_true, decide_eq_true_eq] at h
  obtain ⟨⟨habout, hturn⟩, hwallets⟩ := h
  refine ⟨fun account' htarget => ?_, hturn, fun customer _ row hrow _ requestId' p' n kind' hn => ?_⟩
  · rw [htarget] at habout
    simpa using habout
  · rw [kind] at kind'
    cases kind'
    have hsame : (n : ℚ) / 10 ^ 2 = (amount * 100 : Int) / 10 ^ 2 := hn.symm.trans hscaled
    have hn' : n = amount * 100 := by
      field_simp at hsame
      exact_mod_cast hsame
    have hrow' := hwallets row hrow
    have hprec : 10 ^ 4 ≤ 10 ^ prec := Nat.pow_le_pow_right (by decide) (by decide)
    omega

theorem interleaved_meets : Meets (turning neighbours.tables payee) neighbours.tables interleaved := by
  obtain ⟨hada, hbea⟩ := interleaved_routes
  refine Pool.meets_of_check (fun c hc => ?_) interleaved_checks
  have hstarted : c ∈ [.receive quiet (samplePayment "R1" "9901" 5), .receive quiet (samplePayment "R2" "9902" 7),
    .receive quiet (samplePayment "R3" "9901" 3)] := hc
  simp only [List.mem_cons, List.not_mem_nil, or_false] at hstarted
  rcases hstarted with rfl | rfl | rfl
  · exact small_turns rfl (hada 5) rfl (samplePay_scaled 5) (by decide)
  · exact small_turns (p := beaPay) rfl hbea rfl (samplePay_scaled 7) (by decide)
  · exact small_turns rfl (hada 3) rfl (samplePay_scaled 3) (by decide)

theorem no_credit_lost_next_door : ∃ P, play neighbours.tables interleaved = some P ∧
    ∀ row ∈ neighbours.tables.customers, ∃ row' ∈ P.state.customers, row'.id = row.id ∧
      row'.stored = row.stored + (P.threads.map (·.1.dueTo neighbours.tables row.id)).sum := by
  refine ⟨_, rfl, no_credit_lost_in_turns neighbours payee interleaved interleaved_meets _ rfl ?_ ?_⟩
  · rw [Pool.allReturned_iff]
    decide +kernel
  · decide +kernel

end LdbBackend
