import LdbBackend.Concurrent.Frame
import LdbBackend.Payments.Wallet

/-!
# When no credit is lost

A delivery reads the wallet, changes it in memory and writes it back two statements later, and an update
writes back what it read as well. Credits are lost exactly through a save whose call read an older
wallet (`credit_lost`). If every save of the customer is up to date, the wallet is the initial one and
the payments of the calls that have saved (`Adding`), so in the end all of them.
-/

namespace LdbBackend

open Fixed Effects Table

/-- The customer in the answer of a statement. -/
def answeredCustomer : Event Op Res → Option (Customer Decimal)
  | ⟨.accountFetchCustomer _, c⟩ => c
  | ⟨.customerById _ _, c⟩ => c
  | ⟨.customerByExternalId _ _, c⟩ => c
  | _ => none

/-- The customer that program `i` read last. -/
def lastRead (tr : Trace) (i : Nat) : Option (Customer Decimal) :=
  (tr.filterMap fun e => if e.1 = i then answeredCustomer e.2 else none).getLast?

def Call.requestKey : Call → Option String
  | .receive _ payload => (kindOf payload).key
  | _ => none

/-- The amount of a delivered payment. -/
def Call.amount : Call → ℚ
  | .receive _ payload =>
    match kindOf payload with
    | .payment _ p => p.amount.toRat
    | _ => 0
  | _ => 0

/-- The request of the call was not marked in `db`. -/
def Unmarked (db : Tables) (call : Call) : Prop :=
  ∀ requestId, call.requestKey = some requestId →
    ∀ e ∈ db.processedWebhookEvents, e.requestId ≠ requestId

instance (db : Tables) (call : Call) : Decidable (Unmarked db call) :=
  match h : call.requestKey with
  | none => .isTrue fun requestId hr => by rw [h] at hr; cases hr
  | some key => decidable_of_iff (∀ e ∈ db.processedWebhookEvents, e.requestId ≠ key)
      ⟨fun hall requestId hr => by rw [h] at hr; cases hr; exact hall, fun hall => hall key h⟩

/-- What the call has to pay: a request that was marked before pays nothing more. -/
def Call.due (db : Tables) (call : Call) : ℚ := if Unmarked db call then call.amount else 0

/-- The new wallet of a delivery has at most 28 digits. -/
def FitsAfter (row : Customer Cents) : Call → Prop
  | .receive _ payload => ∀ requestId p n, kindOf payload = .payment requestId p →
      p.amount.IsScaled 2 n → (row.walletBalance + n).natAbs < 10 ^ prec
  | _ => True

/-- Deliveries of payments of two decimals to one account, and updates. Whenever the owner of the
account is saved, the wallet that the call read last is still the stored one. -/
def paying (db : Tables) (account : DedicatedAccount) : Assumption Op Res Tables Call where
  call
    | .receive _ payload => ∃ requestId p n, kindOf payload = .payment requestId p ∧
        p.route db = some account ∧ p.amount.IsScaled 2 n
    | .update _ _ _ _ => True
    | _ => False
  step call s tr i
    | .customerSave customer => customer.id = account.customerId → ∀ row ∈ s.customers,
        row.id = customer.id → FitsAfter row call ∧
          ∀ c, lastRead tr i = some c → c.walletBalance = row.load.walletBalance
    | _ => True

namespace Place

/-- The call has saved its credit. -/
def credits : Place → Bool
  | .credited _ | .logged _ | .settled _ | .marked => true
  | _ => false

end Place

/-- The directory of accounts is that of `db`, its marks are kept, and the owner is there. -/
structure Steady (db : Tables) (account : DedicatedAccount) (s : Tables) : Prop where
  directory : s.dedicatedAccounts.map DedicatedAccount.keys =
    db.dedicatedAccounts.map DedicatedAccount.keys
  marks : db.processedWebhookEvents <+: s.processedWebhookEvents
  owner : ∃ row ∈ s.customers, row.id = account.customerId

/-- A call has read what it will save, and its payment is on the way to the account. -/
def Aimed (db : Tables) (account : DedicatedAccount) (s : Tables) (tr : Trace) (i : Nat)
    (call : Call) : Place → Prop
  | .skipped => ∃ e ∈ s.processedWebhookEvents, call.requestKey = some e.requestId
  | .opened => Unmarked db call ∧ ∀ env payload requestId p, call = .receive env payload →
      kindOf payload = .payment requestId p → p.aliasAccountNumber ≠ ""
  | .unnumbered => Unmarked db call ∧ ∀ env payload requestId p, call = .receive env payload →
      kindOf payload = .payment requestId p →
        db.dedicatedAccounts.find? (·.accountRef = p.aliasAccountReference.text) = some account
  | .unrouted | .held _ _ | .suspended _ _ => False
  | .routed a | .loaded a none => Unmarked db call ∧ a.keys = account.keys
  | .loaded a (some c) | .inserted a c _ => Unmarked db call ∧ a.keys = account.keys ∧
      lastRead tr i = some c
  | .found c => lastRead tr i = some c
  | _ => True

section LastRead

variable {tr : Trace} {i j : Nat} {o : Op} {r : Res o} {c : Customer Decimal}

theorem lastRead_other (h : j ≠ i) : lastRead (tr ++ [(i, ⟨o, r⟩)]) j = lastRead tr j := by
  unfold lastRead
  rw [List.filterMap_append]
  simp [Ne.symm h]

theorem lastRead_silent (h : answeredCustomer ⟨o, r⟩ = none) :
    lastRead (tr ++ [(i, ⟨o, r⟩)]) j = lastRead tr j := by
  unfold lastRead
  rw [List.filterMap_append]
  by_cases hij : i = j <;> simp [hij, h]

theorem lastRead_self (h : answeredCustomer ⟨o, r⟩ = some c) :
    lastRead (tr ++ [(i, ⟨o, r⟩)]) i = some c := by
  unfold lastRead
  rw [List.filterMap_append]
  simp [h]

end LastRead

section Route

variable {db s : Tables} {account a : DedicatedAccount} {p : Payment}

/-- A search by a column among the keys answers alike in two states with one directory. -/
theorem find?_directory (h : s.dedicatedAccounts.map DedicatedAccount.keys =
    db.dedicatedAccounts.map DedicatedAccount.keys)
    (q : UUID × UUID × String × String × AccountStatus → Bool) :
    (s.dedicatedAccounts.find? (q ∘ DedicatedAccount.keys)).map DedicatedAccount.keys =
      (db.dedicatedAccounts.find? (q ∘ DedicatedAccount.keys)).map DedicatedAccount.keys := by
  rw [← List.find?_map, ← List.find?_map, h]

theorem route_byNumber (h : p.route db = some account) (hnumber : p.aliasAccountNumber ≠ "")
    {b : DedicatedAccount}
    (hb : db.dedicatedAccounts.find? (·.accountNumber = p.aliasAccountNumber) = some b) :
    b = account := by
  unfold Payment.route Tables.route at h
  simp only [if_pos hnumber, hb, Option.some_or, Option.some.injEq] at h
  exact h

/-- Where the number leads nowhere, the reference leads to the account. -/
theorem route_byRef (h : p.route db = some account)
    (hnone : p.aliasAccountNumber = "" ∨
      db.dedicatedAccounts.find? (·.accountNumber = p.aliasAccountNumber) = none) :
    p.aliasAccountReference.truthy = true ∧
      db.dedicatedAccounts.find? (·.accountRef = p.aliasAccountReference.text) = some account := by
  have href : (if p.aliasAccountReference.truthy then
      db.dedicatedAccounts.find? (·.accountRef = p.aliasAccountReference.text) else none) =
        some account := by
    unfold Payment.route Tables.route at h
    rcases hnone with hempty | hnone
    · simpa [hempty] using h
    · simpa [hnone] using h
  by_cases ht : p.aliasAccountReference.truthy = true
  · rw [if_pos ht] at href
    exact ⟨ht, href⟩
  · rw [if_neg ht] at href
    cases href

end Route

/-! ## One turn -/

section Turn

variable {db s s' : Tables} {account : DedicatedAccount} {tr : Trace} {i j : Nat} {call : Call}
  {g : Place} {o : Op} {f : Res o → Place} {r : Res o}

theorem paying_harmless : Harmless (paying db account) := by
  intro call s tr i id hcall _ g f turn
  cases turn with
  | wait waits silent => cases silent
  | compensate => exact hcall.elim

/-- Only names of accounts change. -/
theorem directory_next (ha : Acts (paying db account) s tr i call g o f r s')
    (h : Steady db account s) :
    s'.dedicatedAccounts.map DedicatedAccount.keys = db.dedicatedAccounts.map DedicatedAccount.keys := by
  have hrun := ha.run
  have hstarted := ha.started
  have hstanding := ha.standing
  cases hw : o.writes .dedicatedAccounts with
  | false =>
    rw [(exec_frame hrun).dedicatedAccounts hw]
    exact h.directory
  | true =>
    cases ha.turn with
    | wait waits silent =>
      rw [exec_query (isQuery_of_silent silent) hrun]
      exact h.directory
    | rename =>
      obtain ⟨-, rfl⟩ := saveAccount_ok_iff.mp (written_ok_iff.mp hrun)
      refine (map_setRow fun b hb hid => ?_).trans h.directory
      exact (hstanding.keys b hb hid).symm
    | compensate | openAccount | openDedicated => exact hstarted.elim
    | _ => cases hw

/-- Customers are only saved. -/
theorem owner_next (ha : Acts (paying db account) s tr i call g o f r s') (h : Steady db account s) :
    ∃ row ∈ s'.customers, row.id = account.customerId := by
  have hrun := ha.run
  have hstarted := ha.started
  have hturn := ha.turn
  obtain ⟨row, hrow, hid⟩ := h.owner
  cases hw : o.writes .customers with
  | false =>
    rw [(exec_frame hrun).customers hw]
    exact ⟨row, hrow, hid⟩
  | true =>
    cases o with
    | customerSave customer =>
      obtain ⟨target, wallet, -, -, -, rfl⟩ := saveCustomer_ok_iff.mp (written_ok_iff.mp hrun)
      refine List.mem_map.mp ?_
      rw [map_key_setRow, ← hid]
      exact List.mem_map.mpr ⟨row, hrow, rfl⟩
    | customerCreate new =>
      cases hturn with
      | wait waits silent => cases silent
      | provide => exact hstarted.elim
    | customerDelete id =>
      cases hturn with
      | wait waits silent => cases silent
      | compensate => exact hstarted.elim
    | _ => cases hw

theorem steady_next (ha : Acts (paying db account) s tr i call g o f r s')
    (h : Steady db account s) : Steady db account s' :=
  ⟨directory_next ha h, h.marks.trans (exec_marks ha.run), owner_next ha h⟩

/-- The turn of one call leaves the others aimed. -/
theorem aimed_other (hmarks : s.processedWebhookEvents ⊆ s'.processedWebhookEvents) {call' : Call} {g' : Place}
    (hji : j ≠ i) (h : Aimed db account s tr j call' g') :
    Aimed db account s' (tr ++ [(i, ⟨o, r⟩)]) j call' g' := by
  have hread : lastRead (tr ++ [(i, ⟨o, r⟩)]) j = lastRead tr j := lastRead_other hji
  cases g' with
  | skipped =>
    obtain ⟨e, he, hkey⟩ := h
    exact ⟨e, hmarks he, hkey⟩
  | loaded a c =>
    cases c with
    | none => exact h
    | some c => exact ⟨h.1, h.2.1, hread.trans h.2.2⟩
  | inserted a c t => exact ⟨h.1, h.2.1, hread.trans h.2.2⟩
  | found c => exact hread.trans h
  | opened | unnumbered | routed a => exact h
  | unrouted | held _ _ | suspended _ _ => exact h.elim
  | _ => trivial

/-- A delivery goes on to the account. -/
theorem aimed_byRef {env : Surroundings} {payload requestId : Json} {p : Payment}
    (kind : kindOf payload = .payment requestId p) (hun : Unmarked db (.receive env payload))
    (hroute : p.aliasAccountReference.truthy = true ∧
      db.dedicatedAccounts.find? (·.accountRef = p.aliasAccountReference.text) = some account) :
    Aimed db account s tr i (.receive env payload) p.byRef := by
  unfold Payment.byRef
  rw [if_pos hroute.1]
  refine ⟨hun, fun env' payload' requestId' p' hcall kind' => ?_⟩
  cases hcall
  rw [kind] at kind'
  cases kind'
  exact hroute.2

theorem found_directory (column : DedicatedAccount → String)
    (q : UUID × UUID × String × String × AccountStatus → String) (hq : ∀ a, q a.keys = column a)
    (h : Steady db account s) (hkey : (s.dedicatedAccounts.map column).Nodup) {text : String}
    {r : Option DedicatedAccount} (he : getOrNone (column · = text) s.dedicatedAccounts = .ok r) :
    r.map DedicatedAccount.keys =
      (db.dedicatedAccounts.find? (column · = text)).map DedicatedAccount.keys := by
  rw [getOrNone_key hkey] at he
  cases he
  have hsame := find?_directory h.directory fun k => decide (q k = text)
  simpa only [Function.comp_def, hq] using hsame

/-- The check of a delivery finds an old mark, or the payment is still due. -/
theorem aimed_check (hs : Steady db account s) {env : Surroundings} {payload : Json} {key : String}
    (hkey : (kindOf payload).key = some key) {requestId : Json} {p : Payment}
    (kind : kindOf payload = .payment requestId p) (hroute : p.route db = some account) :
    Aimed db account s tr i (.receive env payload)
      (if s.processedWebhookEvents.any (·.requestId = key) then .skipped
        else (kindOf payload).opening) := by
  cases hany : s.processedWebhookEvents.any (·.requestId = key) with
  | true =>
    obtain ⟨e, he, heq⟩ := List.any_eq_true.mp hany
    exact ⟨e, he, hkey.trans (congrArg some (of_decide_eq_true heq).symm)⟩
  | false =>
    have hun : Unmarked db (.receive env payload) := by
      intro key' hkey' e he heq
      have hsame : key' = key := Option.some.inj (hkey'.symm.trans hkey)
      have hnone := List.any_eq_false.mp hany e (hs.marks.subset he)
      rw [heq, hsame] at hnone
      exact hnone (decide_eq_true rfl)
    show Aimed db account _ _ i _ (kindOf payload).opening
    rw [kind]
    show Aimed db account _ _ i _ p.opening
    unfold Payment.opening
    split_ifs with hnumber
    · refine ⟨hun, fun env' payload' requestId' p' hcall kind' => ?_⟩
      cases hcall
      rw [kind] at kind'
      cases kind'
      exact hnumber
    · exact aimed_byRef kind hun (route_byRef hroute (.inl (not_not.mp hnumber)))

/-- The lookup by number finds the account, or leaves it to the reference. -/
theorem aimed_byNumber (hs : Steady db account s) (hc : s.Constraints) {env : Surroundings}
    {payload requestId : Json} {p : Payment} (kind : kindOf payload = .payment requestId p)
    (hroute : p.route db = some account) (h : Aimed db account s tr i (.receive env payload) .opened)
    {r : Option DedicatedAccount}
    (hfound : getOrNone (·.accountNumber = p.aliasAccountNumber) s.dedicatedAccounts = .ok r)
    {tr' : Trace} : Aimed db account s' tr' i (.receive env payload) (r.elim p.byRef .routed) := by
  have hmap := found_directory (·.accountNumber) (fun k => k.2.2.1) (fun _ => rfl) hs
    hc.account_number hfound
  cases hdb : db.dedicatedAccounts.find? (·.accountNumber = p.aliasAccountNumber) with
  | none =>
    rw [hdb] at hmap
    cases r with
    | none => exact aimed_byRef kind h.1 (route_byRef hroute (.inr hdb))
    | some b => cases hmap
  | some b =>
    rw [hdb] at hmap
    cases r with
    | none => cases hmap
    | some b' =>
      rw [route_byNumber hroute (h.2 env payload requestId p rfl kind) hdb] at hmap
      exact ⟨h.1, Option.some.inj hmap⟩

/-- A call that acts is aimed in its next place. -/
theorem aimed_next (ha : Acts (paying db account) s tr i call g o f r s')
    (active : account.status = .active) (hs : Steady db account s)
    (h : Aimed db account s tr i call g) :
    Aimed db account s' (tr ++ [(i, ⟨o, r⟩)]) i call (f r) := by
  have hrun := ha.run
  have hstarted := ha.started
  have hc := ha.shared.constraints
  cases ha.turn with
  | wait waits silent => cases g <;> trivial
  | @check env payload key hkey =>
    obtain ⟨requestId, p, n, kind, hroute, -⟩ := hstarted
    cases hrun
    exact aimed_check hs hkey kind hroute
  | ignore kind =>
    obtain ⟨requestId, p, n, kind', -⟩ := hstarted
    rw [kind] at kind'
    cases kind'
  | @byNumber env payload requestId p kind =>
    obtain ⟨requestId', p', n, kind', hroute, -⟩ := hstarted
    rw [kind] at kind'
    cases kind'
    exact aimed_byNumber hs hc kind hroute h (answered_ok_iff.mp hrun).1
  | @byReference env payload requestId p kind =>
    obtain ⟨hfound, rfl⟩ := answered_ok_iff.mp hrun
    have hmap := found_directory (·.accountRef) (fun k => k.2.2.2.1) (fun _ => rfl) hs
      hc.account_ref hfound
    rw [h.2 env payload requestId p rfl kind] at hmap
    cases r with
    | none => cases hmap
    | some b => exact ⟨h.1, Option.some.inj hmap⟩
  | load =>
    cases r with
    | none => exact h
    | some c => exact ⟨h.1, h.2, lastRead_self rfl⟩
  | hold kind holding =>
    cases holding with
    | unrouted => exact h
    | @inactive account' customer status =>
      have hkeys : account'.keys = account.keys := by
        cases customer with
        | none => exact h.2
        | some c => exact h.2.1
      have hsame : account'.status = account.status := congrArg (fun k => k.2.2.2.2) hkeys
      exact status (hsame.trans active)
  | insert kind active' => exact ⟨h.1, h.2.1, (lastRead_silent rfl).trans h.2.2⟩
  | suspend kind | logSuspense kind => exact h.elim
  | resolveById | resolveByExternalId =>
    cases r with
    | none => trivial
    | some c => exact lastRead_self rfl
  | findAccount => cases r <;> trivial
  | save | logCredit | emit | mark | edit | rename => trivial
  | provide | compensate | openAccount | choose | openDedicated | matchById | matchByRef | logMatch =>
    exact hstarted.elim

end Turn

/-! ## The running sum -/

/-- What a call has credited. -/
def paidIn (db : Tables) (x : Call × Place) : ℚ := if x.2.credits then x.1.due db else 0

def Customer.stored (row : Customer Cents) : ℚ := (Decimal.ofScaled 2 row.walletBalance).toRat

section Sum

variable {db s s' : Tables} {account : DedicatedAccount} {tr : Trace} {i : Nat} {call : Call}
  {g : Place} {o : Op} {f : Res o → Place} {r : Res o}

/-- What the saved owner of the account gains is what its call has to pay. -/
theorem stored_save (ha : Acts (paying db account) s tr i call g o f r s')
    (h : Aimed db account s tr i call g) {customer : Customer Decimal}
    (ho : o = .customerSave customer) (howner : customer.id = account.customerId)
    {row : Customer Cents} (hrow : row ∈ s.customers) (hid : row.id = account.customerId)
    {wallet : Cents} (hwallet : numericColumn customer.walletBalance = .ok wallet) :
    (Decimal.ofScaled 2 wallet).toRat =
      row.stored + (paidIn db (call, f r) - paidIn db (call, g)) := by
  subst ho
  have hallowed := ha.allowed howner row hrow (hid.trans howner.symm)
  have hstarted := ha.started
  cases ha.turn with
  | wait waits silent => cases silent
  | @save env payload requestId p a c t kind =>
    obtain ⟨hfits, hread⟩ := hallowed
    obtain ⟨requestId', p', n, kind', -, hn⟩ := hstarted
    rw [kind] at kind'
    cases kind'
    have hstored : c.walletBalance = row.load.walletBalance := hread c h.2.2
    have hexact : (c.walletBalance + p.amount).IsScaled 2 (row.walletBalance + n) := by
      rw [hstored]
      exact Decimal.add_exact (Decimal.isScaled_ofScaled 2 _) hn (hfits requestId p n kind hn)
    have hsame := Decimal.eq_of_toColumn hexact (numericColumn_ok_iff.mp hwallet)
    have hamount : (Call.receive env payload).amount = p.amount.toRat := by
      simp only [Call.amount, kind]
    have hdue : paidIn db (.receive env payload, .credited t) = p.amount.toRat := by
      show (Call.receive env payload).due db = _
      rw [Call.due, if_pos h.1, hamount]
    have hbefore : paidIn db (.receive env payload, .inserted a c t) = 0 := if_neg nofun
    rw [hdue, hbefore, sub_zero, hsame, Customer.stored, Decimal.toRat_ofScaled,
      Decimal.toRat_ofScaled, hn]
    push_cast
    ring
  | @edit customerId body merchantId nomba c =>
    have hstored : c.walletBalance = row.load.walletBalance := hallowed.2 c h
    have hexact : c.walletBalance.IsScaled 2 row.walletBalance := by
      rw [hstored]
      exact Decimal.isScaled_ofScaled 2 _
    have hsame := Decimal.eq_of_toColumn hexact (numericColumn_ok_iff.mp hwallet)
    have hzero : ∀ g', Place.credits g' = false →
        paidIn db (.update customerId body merchantId nomba, g') = 0 := by
      intro g' hg'
      rw [paidIn, hg']
      rfl
    rw [hsame, hzero _ rfl, hzero _ rfl, sub_zero, add_zero]
    rfl

/-- Only a save changes what a call has credited. -/
theorem paidIn_same (ha : Acts (paying db account) s tr i call g o f r s')
    (h : Aimed db account s tr i call g) (ho : ∀ customer, o ≠ .customerSave customer) :
    paidIn db (call, f r) = paidIn db (call, g) := by
  have hzero : ∀ g', Place.credits g' = false → paidIn db (call, g') = 0 := by
    intro g' hg'
    rw [paidIn, hg']
    rfl
  have hstarted := ha.started
  cases ha.turn with
  | wait waits silent => rfl
  | check key =>
    cases r with
    | true => exact (hzero _ rfl).trans (hzero _ rfl).symm
    | false =>
      refine (hzero _ ?_).trans (hzero _ rfl).symm
      rcases opening_cases (kindOf _) with hg | hg | hg
      all_goals exact congrArg Place.credits hg
  | ignore kind =>
    obtain ⟨requestId, p, n, kind', -⟩ := hstarted
    rw [kind] at kind'
    cases kind'
  | byNumber kind =>
    cases r with
    | none =>
      refine (hzero _ ?_).trans (hzero _ rfl).symm
      rcases byRef_cases _ with hg | hg
      all_goals exact congrArg Place.credits hg
    | some a => exact (hzero _ rfl).trans (hzero _ rfl).symm
  | hold kind holding =>
    cases holding with
    | unrouted => exact h.elim
    | inactive status => exact (hzero _ rfl).trans (hzero _ rfl).symm
  | suspend kind | logSuspense kind => exact h.elim
  | save | edit => exact absurd rfl (ho _)
  | logCredit | emit | mark => rfl
  | byReference | resolveById | findAccount => cases r <;> exact (hzero _ rfl).trans (hzero _ rfl).symm
  | resolveByExternalId seeking =>
    have hbefore : g.credits = false := by cases seeking <;> rfl
    cases r <;> exact (hzero _ rfl).trans (hzero _ hbefore).symm
  | load | insert | rename => exact (hzero _ rfl).trans (hzero _ rfl).symm
  | provide | compensate | openAccount | choose | openDedicated | matchById | matchByRef | logMatch =>
    exact hstarted.elim

/-- The wallet of the owner grows by what the turn credits. -/
theorem stored_next (ha : Acts (paying db account) s tr i call g o f r s')
    (hs : Steady db account s) (h : Aimed db account s tr i call g) {row' : Customer Cents}
    (hrow' : row' ∈ s'.customers) (hid' : row'.id = account.customerId) :
    ∃ row ∈ s.customers, row.id = account.customerId ∧
      row'.stored = row.stored + (paidIn db (call, f r) - paidIn db (call, g)) := by
  obtain ⟨row, hrow, hid⟩ := hs.owner
  by_cases ho : ∃ customer, o = .customerSave customer
  · obtain ⟨customer, rfl⟩ := ho
    obtain ⟨wallet, hwallet, hrows⟩ := saveCustomer_wallets (written_ok_iff.mp ha.run)
    rcases hrows row' hrow' with ⟨hcustomer, hbalance⟩ | ⟨hold, hother⟩
    · refine ⟨row, hrow, hid, ?_⟩
      rw [Customer.stored, hbalance]
      exact stored_save ha h rfl (hcustomer.symm.trans hid') hrow hid hwallet
    · refine ⟨row', hold, hid', ?_⟩
      have hsame : paidIn db (call, f r) = paidIn db (call, g) := by
        have hstanding := ha.standing
        cases ha.turn with
        | wait waits silent => rfl
        | save kind =>
          have hsaved := hstanding.2.1.trans (keys_owner h.2.1)
          exact absurd (hid'.trans hsaved.symm) hother
        | edit => rfl
      rw [hsame, sub_self, add_zero]
  · have hother : ∀ customer, o ≠ .customerSave customer := fun c hc => ho ⟨c, hc⟩
    have hsame := paidIn_same ha h hother
    rw [hsame, sub_self]
    have hcustomers : s'.customers = s.customers := by
      have hstarted := ha.started
      have hturn := ha.turn
      refine (exec_frame ha.run).customers ?_
      cases hw : o.writes .customers with
      | false => rfl
      | true =>
        cases o with
        | customerSave c => exact absurd rfl (hother c)
        | customerCreate new =>
          cases hturn with
          | wait waits silent => cases silent
          | provide => exact hstarted.elim
        | customerDelete id =>
          cases hturn with
          | wait waits silent => cases silent
          | compensate => exact hstarted.elim
        | _ => cases hw
    rw [hcustomers] at hrow'
    exact ⟨row', hrow', hid', (add_zero _).symm⟩

end Sum

/-! ## Every schedule -/

theorem sum_map_set {α : Type} {f : α → ℚ} {xs : List α} {i : Nat} {x y : α} (h : xs[i]? = some x) :
    ((xs.set i y).map f).sum = (xs.map f).sum + (f y - f x) := by
  induction xs generalizing i with
  | nil => cases h
  | cons z zs ih =>
    cases i with
    | zero =>
      cases h
      simp only [List.set_cons_zero, List.map_cons, List.sum_cons]
      ring
    | succ i =>
      have hz := ih h
      simp only [List.set_cons_succ, List.map_cons, List.sum_cons, hz]
      ring

theorem marked_final {call : Call} {o : Op} {f : Res o → Place} (turn : Turn call Place.marked o f) :
    False := by
  cases turn with
  | wait waits silent => cases waits
  | hold kind holding => cases holding
  | resolveByExternalId seeking => cases seeking

/-- The owner's wallet is the initial one and what the calls have credited, and every mark is an old
one or that of a call that has ended. -/
structure Adding (db : Tables) (account : DedicatedAccount) (start : ℚ)
    (v : Protocol.View Op Res Tables Call Place) : Prop where
  aimed : Invariant (paying db account) (fun s _ => Steady db account s)
    (fun s tr i call g => Aimed db account s tr i call g) v
  wallet : ∀ row ∈ v.state.customers, row.id = account.customerId →
    row.stored = start + (v.places.map (paidIn db)).sum
  marks : ∀ e ∈ v.state.processedWebhookEvents, e ∈ db.processedWebhookEvents ∨
    ∃ (j : Nat) (call : Call), v.places[j]? = some (call, Place.marked) ∧
      call.requestKey = some e.requestId

section Schedule

variable {db : Tables} {account : DedicatedAccount} {start : ℚ}
  {v v' : Protocol.View Op Res Tables Call Place}

/-- A mark is written by a call that ends with it. -/
theorem mark_turn {s s' : Tables} {tr : Trace} {i : Nat} {call : Call} {g : Place} {o : Op}
    {f : Res o → Place} {r : Res o} (ha : Acts (paying db account) s tr i call g o f r s')
    {e : ProcessedWebhookEvent} (he : e ∈ s'.processedWebhookEvents) :
    e ∈ s.processedWebhookEvents ∨ f r = Place.marked ∧ call.requestKey = some e.requestId := by
  cases hw : o.writes .processedWebhookEvents with
  | false =>
    rw [(exec_frame ha.run).processedWebhookEvents hw] at he
    exact .inl he
  | true =>
    have hrun := ha.run
    have hturn := ha.turn
    cases o with
    | processedCreate key eventType =>
      obtain ⟨-, -, -, rfl⟩ := createProcessedEvent_ok_iff.mp (written_ok_iff.mp hrun)
      rcases List.mem_append.mp he with he | he
      · exact .inl he
      · right
        rw [List.mem_singleton.mp he]
        cases hturn with
        | wait waits silent => cases silent
        | ignore kind | mark kind => exact ⟨rfl, by rw [Call.requestKey, kind]; rfl⟩
    | _ => cases hw

theorem adding_next (active : account.status = .active) (h : Adding db account start v)
    (hn : service.Next exec (paying db account) v v') : Adding db account start v' := by
  have haimed := invariant_next paying_harmless (fun _ _ _ _ _ => trivial)
    (fun _ _ _ _ _ _ _ _ _ ha hs ht => ⟨steady_next ha hs, aimed_next ha active hs ht⟩)
    (fun _ _ _ _ _ _ _ _ _ ha _ _ _ _ _ hji _ _ ht => aimed_other (exec_marks ha.run).subset hji ht) h.aimed hn
  cases hn with
  | start c hc =>
    refine ⟨haimed, fun row hrow hid => ?_, fun e he => ?_⟩
    · rw [h.wallet row hrow hid]
      simp [paidIn, Place.credits, service]
    · rcases h.marks e he with hold | ⟨j, call, hj, hkey⟩
      · exact .inl hold
      · refine .inr ⟨j, call, ?_, hkey⟩
        exact (List.getElem?_append_left (List.getElem?_eq_some_iff.mp hj).1).trans hj
  | act i call g o f r s' hi hstep hexec hB =>
    obtain ⟨ha, hs, ht⟩ := h.aimed.acts paying_harmless hi hstep hexec hB
    refine ⟨haimed, fun row hrow hid => ?_, fun e he => ?_⟩
    · obtain ⟨old, hold, hidold, hgain⟩ := stored_next ha hs ht hrow hid
      rw [hgain, h.wallet old hold hidold, add_assoc]
      exact congrArg (start + ·) (sum_map_set hi).symm
    · have hlt := (List.getElem?_eq_some_iff.mp hi).1
      rcases mark_turn ha he with hold | ⟨hmarked, hkey⟩
      · rcases h.marks e hold with hdb | ⟨j, call', hj, hkey⟩
        · exact .inl hdb
        · refine .inr ⟨j, call', ?_, hkey⟩
          have hij : i ≠ j := by
            rintro rfl
            rw [hi, Option.some.injEq, Prod.mk.injEq] at hj
            exact marked_final (hj.2 ▸ ha.turn)
          exact (List.getElem?_set_ne hij).trans hj
      · exact .inr ⟨i, call, by rw [List.getElem?_set_self hlt, hmarked], hkey⟩

end Schedule

theorem position_of_key {β : Type} {f : Call × β → Option String} {xs : List (Call × β)}
    (h : (xs.filterMap f).Nodup) {i j : Nat} {x y : Call × β} {key : String} (hi : xs[i]? = some x)
    (hj : xs[j]? = some y) (hx : f x = some key) (hy : f y = some key) : i = j := by
  have hpair := List.pairwise_iff_getElem.mp (List.pairwise_filterMap.mp h)
  obtain ⟨hilt, rfl⟩ := List.getElem?_eq_some_iff.mp hi
  obtain ⟨hjlt, rfl⟩ := List.getElem?_eq_some_iff.mp hj
  rcases Nat.lt_trichotomy i j with hlt | heq | hgt
  · exact absurd rfl (hpair i j hilt hjlt hlt key hx key hy)
  · exact heq
  · exact absurd rfl (hpair j i hjlt hilt hgt key hy key hx)

/-- A call that has returned has credited what it had to. -/
theorem paidIn_returned {db : Tables} {account : DedicatedAccount} {start : ℚ}
    {v : Protocol.View Op Res Tables Call Place} (h : Adding db account start v)
    (hdistinct : (v.places.filterMap (·.1.requestKey)).Nodup) {i : Nat} {call : Call} {g : Place}
    {reply : Reply} (hi : v.places[i]? = some (call, g)) (hends : Ends call g reply) :
    paidIn db (call, g) = call.due db := by
  obtain ⟨hcall, -, haimed⟩ := h.aimed.program i call g hi
  cases call with
  | update customerId body merchantId nomba =>
    have hdue : (Call.update customerId body merchantId nomba).due db = 0 := by
      unfold Call.due
      split_ifs <;> rfl
    unfold paidIn
    split_ifs
    · rfl
    · exact hdue.symm
  | receive env payload =>
    rcases hends with rfl | rfl
    · -- the mark that the delivery found is older than all calls, for no other call has its request
      obtain ⟨e, he, hkey⟩ := haimed
      have hmarked : ¬ Unmarked db (.receive env payload) := by
        rcases h.marks e he with hold | ⟨j, call', hj, hkey'⟩
        · exact fun hun => hun e.requestId hkey e hold rfl
        · have hij := position_of_key hdistinct hi hj hkey hkey'
          rw [hij, hj] at hi
          cases hi
      exact (if_neg hmarked).symm
    · rfl
  | create | createDedicated | simulate | register | nightly => exact hcall.elim

/-- For one account and any number of deliveries of payments to it under distinct requests, with any
number of updates, interleaved in any order: if every save of the owner is up to date, then once all
calls have returned the wallet is the initial one and the sum of the payments. -/
theorem no_credit_lost (db : Database) (account : DedicatedAccount) (row : Customer Cents)
    (hrow : row ∈ db.tables.customers) (howner : row.id = account.customerId)
    (active : account.status = .active) (schedule : List (Move Call Err))
    (hmeets : Meets (paying db.tables account) db.tables schedule)
    (P : Pool Op Res Err Reply Tables Call) (hplay : play db.tables schedule = some P)
    (hreturned : P.AllReturned) (hdistinct : (P.threads.filterMap (·.1.requestKey)).Nodup) :
    ∃ row' ∈ P.state.customers, row'.id = row.id ∧
      row'.stored = row.stored + (P.threads.map (·.1.due db.tables)).sum := by
  have hcall : ∀ call, (paying db.tables account).call call → call.scheduled := fun call h => by
    cases call with
    | receive _ _ | update _ _ _ _ => trivial
    | _ => exact h.elim
  have hinit : Adding db.tables account row.stored ⟨db.tables, [], []⟩ := by
    refine ⟨Invariant.init db.constraints ⟨rfl, List.prefix_refl _, row, hrow, howner⟩,
      fun row' hrow' hid => ?_, fun e he => .inl he⟩
    rw [eq_of_key db.constraints.customer_pk hrow' hrow (hid.trans howner.symm)]
    exact (add_zero _).symm
  obtain ⟨v, hv, hI⟩ := play_view hcall (fun v v' h hn => adding_next active h hn) hinit hmeets hplay
  have hcalls := hv.calls
  have hkeys : (v.places.filterMap (·.1.requestKey)).Nodup := by
    have hsame : v.places.filterMap (·.1.requestKey) = P.threads.filterMap (·.1.requestKey) := by
      have hmap := congrArg (List.filterMap Call.requestKey) hcalls
      simpa only [List.filterMap_map, Function.comp_def] using hmap
    rw [hsame]
    exact hdistinct
  have hpaid : v.places.map (paidIn db.tables) = P.threads.map (·.1.due db.tables) := by
    have hdue : v.places.map (paidIn db.tables) = v.places.map (·.1.due db.tables) := by
      refine List.map_congr_left fun x hx => ?_
      obtain ⟨i, hi⟩ := List.getElem?_of_mem hx
      obtain ⟨reply, hends⟩ := hv.returned hreturned hi
      exact paidIn_returned hI hkeys hi hends
    have hmap := congrArg (List.map (Call.due db.tables)) hcalls
    rw [hdue]
    simpa only [List.map_map, Function.comp_def] using hmap
  obtain ⟨row', hrow', hid⟩ := hI.aimed.shared.2.owner
  refine ⟨row', hv.state ▸ hrow', hid.trans howner.symm, ?_⟩
  rw [hI.wallet row' hrow' hid, hpaid]

/-- The account and the customer of the sample state. -/
def sampleAccount : DedicatedAccount := ⟨1, 0, none, "9901", "Ada", "cust-1", .active, 1, 1⟩

def sampleCustomer : Customer Cents := ⟨0, 7, "cust-1", "Ada", none, none, none, 0, [], 0, 0⟩

theorem sample_rows : (provisioned none).tables.dedicatedAccounts = [sampleAccount] ∧
    (provisioned none).tables.customers = [sampleCustomer] := by
  decide +kernel

/-- What a sample payment of text, number and amount is read as. -/
def samplePay (amount : Int) : Payment where
  amount := ⟨decide (amount < 0), amount.natAbs, 0⟩
  fee := ⟨false, 0, 0⟩
  aliasAccountNumber := "9901"
  aliasAccountReference := .null
  nombaTransactionId := .null
  merchantTxRef := .str ""
  senderName := .null
  senderBank := .null
  narration := .null

theorem samplePay_scaled (amount : Int) : (samplePay amount).amount.IsScaled 2 (amount * 100) := by
  simp only [Decimal.IsScaled, Decimal.toRat, Decimal.num, samplePay, signed_natAbs, zpow_zero]
  push_cast
  ring

theorem sample_paying {payload requestId : Json} {amount : Int}
    (kind : kindOf payload = .payment requestId (samplePay amount)) :
    (paying (provisioned none).tables sampleAccount).call (.receive quiet payload) := by
  refine ⟨requestId, samplePay amount, amount * 100, kind, ?_, samplePay_scaled amount⟩
  simp only [Payment.route, Tables.route, sample_rows.1]
  rfl

/-- The sample state has no marks, so every payment is due. -/
theorem sample_due {payload requestId : Json} {amount : Int}
    (kind : kindOf payload = .payment requestId (samplePay amount)) :
    (Call.receive quiet payload).due (provisioned none).tables = amount := by
  have hunmarked : Unmarked (provisioned none).tables (.receive quiet payload) :=
    fun _ _ e he => by cases he
  have hamount : (Call.receive quiet payload).amount = (samplePay amount).amount.toRat := by
    simp only [Call.amount, kind]
  rw [Call.due, if_pos hunmarked, hamount, samplePay_scaled]
  push_cast
  ring

/-- One delivery after another. -/
def successive : List (Move Call Err) :=
  .start (.receive quiet (samplePayment "R1" "9901" 5)) :: List.replicate 9 (.advance 0) ++
    .start (.receive quiet (samplePayment "R2" "9901" 7)) :: List.replicate 9 (.advance 1)

/-- Both deliveries read the wallet before either writes it. -/
def overlapping : List (Move Call Err) :=
  [.start (.receive quiet (samplePayment "R1" "9901" 5)),
    .start (.receive quiet (samplePayment "R2" "9901" 7))] ++ List.replicate 3 (.advance 0) ++
    List.replicate 3 (.advance 1) ++ List.replicate 6 (.advance 0) ++ List.replicate 6 (.advance 1)

theorem sample_kinds : kindOf (samplePayment "R1" "9901" 5) = .payment (.str "R1") (samplePay 5) ∧
    kindOf (samplePayment "R2" "9901" 7) = .payment (.str "R2") (samplePay 7) :=
  ⟨rfl, rfl⟩

theorem sample_fits {payload requestId : Json} {amount : Int} {row : Customer Cents}
    (kind : kindOf payload = .payment requestId (samplePay amount))
    (hfits : (row.walletBalance + amount * 100).natAbs < 10 ^ prec) :
    FitsAfter row (.receive quiet payload) := by
  intro requestId' p n kind' hn
  rw [kind] at kind'
  cases kind'
  have hsame : (n : ℚ) / 10 ^ 2 = (amount * 100 : Int) / 10 ^ 2 := hn.symm.trans (samplePay_scaled amount)
  have hn' : n = amount * 100 := by
    field_simp at hsame
    exact_mod_cast hsame
  rw [hn']
  exact hfits

theorem successive_meets :
    Meets (paying (provisioned none).tables sampleAccount) (provisioned none).tables successive := by
  refine .cons (sample_paying sample_kinds.1) rfl ?_
  iterate 4 refine .cons (fun c o k h => by cases h; trivial) rfl ?_
  refine .cons (fun c o k h => ?_) rfl ?_
  · cases h
    intro _ row hrow _
    have hwallet : row.walletBalance = 0 := by
      revert row
      decide
    refine ⟨sample_fits sample_kinds.1 (by rw [hwallet]; decide), fun c hc => ?_⟩
    cases hc
    exact (congrArg (Decimal.ofScaled 2) hwallet).symm
  iterate 4 refine .cons (fun c o k h => by cases h; trivial) rfl ?_
  refine .cons (sample_paying sample_kinds.2) rfl ?_
  iterate 4 refine .cons (fun c o k h => by cases h; trivial) rfl ?_
  refine .cons (fun c o k h => ?_) rfl ?_
  · cases h
    intro _ row hrow _
    have hwallet : row.walletBalance = 500 := by
      revert row
      decide
    refine ⟨sample_fits sample_kinds.2 (by rw [hwallet]; decide), fun c hc => ?_⟩
    cases hc
    exact (congrArg (Decimal.ofScaled 2) hwallet).symm
  iterate 4 refine .cons (fun c o k h => by cases h; trivial) rfl ?_
  trivial

theorem no_credit_lost_in_succession : ∃ P, play (provisioned none).tables successive = some P ∧
    ∃ row ∈ P.state.customers, row.id = sampleCustomer.id ∧ row.stored = sampleCustomer.stored +
      (P.threads.map (·.1.due (provisioned none).tables)).sum := by
  refine ⟨_, rfl, no_credit_lost (provisioned none) sampleAccount sampleCustomer ?_ rfl rfl successive
    successive_meets _ rfl ?_ ?_⟩
  · rw [sample_rows.2]
    exact List.mem_singleton.mpr rfl
  · rw [Pool.allReturned_iff]
    decide +kernel
  · decide +kernel

theorem credit_lost : ∃ P, play (provisioned none).tables overlapping = some P ∧ P.AllReturned ∧
    (∀ t ∈ P.threads, (paying (provisioned none).tables sampleAccount).call t.1) ∧
    (P.threads.filterMap (·.1.requestKey)).Nodup ∧
    ∀ row ∈ P.state.customers, row.stored ≠
      sampleCustomer.stored + (P.threads.map (·.1.due (provisioned none).tables)).sum := by
  have hrun : (play (provisioned none).tables overlapping).map (fun P =>
      (P.state.customers.map (·.walletBalance), P.threads.all fun t => Pool.returned t.2)) =
        some ([700], true) := by
    decide +kernel
  obtain ⟨P, hplay, hend⟩ := Option.map_eq_some_iff.mp hrun
  obtain ⟨hwallets, hreturned⟩ := Prod.mk.inj hend
  have hcalls : P.threads.map (·.1) = Pool.started overlapping := Pool.play_calls hplay
  refine ⟨P, hplay, Pool.allReturned_iff.mpr hreturned, fun t ht => ?_, ?_, fun row hrow => ?_⟩
  · have hmem : t.1 ∈ Pool.started overlapping := hcalls ▸ List.mem_map.mpr ⟨t, ht, rfl⟩
    rcases List.mem_cons.mp hmem with h | h
    · rw [h]
      exact sample_paying sample_kinds.1
    · rw [List.mem_singleton.mp h]
      exact sample_paying sample_kinds.2
  · have hkeys : P.threads.filterMap (·.1.requestKey) = ["R1", "R2"] := by
      have hmap := congrArg (List.filterMap Call.requestKey) hcalls
      simp only [List.filterMap_map, Function.comp_def] at hmap
      rw [hmap]
      rfl
    rw [hkeys]
    decide
  · have hdue : P.threads.map (·.1.due (provisioned none).tables) = [5, 7] := by
      have hmap := congrArg (List.map (Call.due (provisioned none).tables)) hcalls
      simp only [List.map_map, Function.comp_def] at hmap
      rw [hmap]
      show [Call.due _ _, Call.due _ _] = _
      rw [sample_due sample_kinds.1, sample_due sample_kinds.2]
      rfl
    have hwallet : row.walletBalance = 700 :=
      List.mem_singleton.mp (hwallets ▸ List.mem_map.mpr ⟨row, hrow, rfl⟩)
    rw [hdue, Customer.stored, Customer.stored, hwallet, Decimal.toRat_ofScaled, Decimal.toRat_ofScaled]
    norm_num [sampleCustomer]

end LdbBackend
