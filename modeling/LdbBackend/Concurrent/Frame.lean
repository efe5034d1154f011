import LdbBackend.Concurrent.Turns
import Mathlib.Data.List.Infix

/-!
# What every turn keeps

While calls interleave, rows of accounts are written back whole and customers are removed. As long as
no removed customer has payments (`Unpaid`), transactions, suspense entries and decisions are only ever
appended, and what a call has read of an account, or inserted as a transaction, stays true
(`Shared`, `Standing`).
-/

namespace LdbBackend

open Fixed Effects Table

abbrev Trace : Type := List (Nat × Event Op Res)

/-- The columns of an account that no call changes. -/
def DedicatedAccount.keys (a : DedicatedAccount) : UUID × UUID × String × String × AccountStatus :=
  (a.id, a.customerId, a.accountNumber, a.accountRef, a.status)

/-- The customer has no payments on its accounts. -/
def Tables.Unpaid (db : Tables) (customerId : UUID) : Prop :=
  ∀ a ∈ db.dedicatedAccounts, a.customerId = customerId →
    ∀ t ∈ db.transactions, t.dedicatedAccountId ≠ some a.id

structure Keeps (db db' : Tables) : Prop where
  clock : db.clock ≤ db'.clock
  accounts : ∀ b ∈ db'.dedicatedAccounts,
    (∃ a ∈ db.dedicatedAccounts, a.keys = b.keys) ∨ db.clock ≤ b.id
  paid : ∀ a ∈ db.dedicatedAccounts, ∀ t ∈ db.transactions, t.dedicatedAccountId = some a.id →
    ∃ b ∈ db'.dedicatedAccounts, b.keys = a.keys
  transactions : db.transactions <+: db'.transactions
  suspenseLogs : db.suspenseLogs <+: db'.suspenseLogs
  reconciliationLogs : db.reconciliationLogs <+: db'.reconciliationLogs

/-- What was read of the account is still so, whether or not the account is still there. -/
structure Known (db : Tables) (a : DedicatedAccount) : Prop where
  older : a.id < db.clock
  keys : ∀ b ∈ db.dedicatedAccounts, b.id = a.id → b.keys = a.keys

section Keeps

variable {db db' : Tables}

theorem keys_id {a b : DedicatedAccount} (h : a.keys = b.keys) : a.id = b.id :=
  congrArg Prod.fst h

theorem keys_owner {a b : DedicatedAccount} (h : a.keys = b.keys) : a.customerId = b.customerId :=
  congrArg (fun k => k.2.1) h

theorem known_of_mem (hc : db.Constraints) {a : DedicatedAccount} (ha : a ∈ db.dedicatedAccounts) :
    Known db a :=
  ⟨hc.account_fresh a ha, fun b hb hid => by rw [eq_of_key hc.account_pk hb ha hid]⟩

theorem Known.keeps {a : DedicatedAccount} (h : Known db a) (hk : Keeps db db') : Known db' a := by
  refine ⟨lt_of_lt_of_le h.older hk.clock, fun b hb hid => ?_⟩
  rcases hk.accounts b hb with ⟨b', hb', hkeys⟩ | hnew
  · rw [← hkeys]
    exact h.keys b' hb' ((keys_id hkeys).trans hid)
  · rw [hid] at hnew
    exact absurd h.older (Nat.not_lt.mpr hnew)

/-- Nothing but other columns of the tables changes. -/
theorem Keeps.of_same (hclock : db.clock ≤ db'.clock)
    (haccounts : db'.dedicatedAccounts = db.dedicatedAccounts)
    (htx : db.transactions <+: db'.transactions) (hsus : db.suspenseLogs <+: db'.suspenseLogs)
    (hlog : db.reconciliationLogs <+: db'.reconciliationLogs) : Keeps db db' := by
  refine ⟨hclock, fun b hb => ?_, fun a ha _ _ _ => ?_, htx, hsus, hlog⟩
  · rw [haccounts] at hb
    exact .inl ⟨b, hb, rfl⟩
  · rw [← haccounts] at ha
    exact ⟨a, ha, rfl⟩

theorem Keeps.refl (db : Tables) : Keeps db db :=
  .of_same le_rfl rfl (List.prefix_refl _) (List.prefix_refl _) (List.prefix_refl _)

theorem deleteCustomer_unpaid {id : UUID} (h : db.Unpaid id) : db.deleteCustomer id = { db with
    customers := db.customers.filter (·.id ≠ id)
    dedicatedAccounts := db.dedicatedAccounts.filter fun a => !decide (a.customerId = id) } := by
  have hon : ∀ t ∈ db.transactions, (db.dedicatedAccounts.any fun a =>
      decide (a.customerId = id) && decide (t.dedicatedAccountId = some a.id)) = false := by
    intro t ht
    rw [List.any_eq_false]
    intro a ha
    by_cases howner : a.customerId = id
    · simp [h a ha howner t ht]
    · simp [howner]
  have hdropped : ∀ i, (db.transactions.any fun t => (db.dedicatedAccounts.any fun a =>
      decide (a.customerId = id) && decide (t.dedicatedAccountId = some a.id)) &&
        decide (t.id = i)) = false := by
    intro i
    rw [List.any_eq_false]
    intro t ht
    simp [hon t ht]
  have htx : db.transactions.filter (fun t => !(db.dedicatedAccounts.any fun a =>
      decide (a.customerId = id) && decide (t.dedicatedAccountId = some a.id))) = db.transactions := by
    rw [List.filter_eq_self]
    intro t ht
    rw [hon t ht]
    rfl
  unfold Tables.deleteCustomer
  simp only [htx, hdropped, Bool.not_false, List.filter_true]

theorem keeps_delete {id : UUID} (h : db.Unpaid id) : Keeps db (db.deleteCustomer id) := by
  rw [deleteCustomer_unpaid h]
  refine ⟨le_rfl, fun b hb => .inl ⟨b, List.mem_of_mem_filter hb, rfl⟩, fun a ha t ht hta => ?_,
    List.prefix_refl _, List.prefix_refl _, List.prefix_refl _⟩
  refine ⟨a, List.mem_filter.mpr ⟨ha, ?_⟩, rfl⟩
  have howner : a.customerId ≠ id := fun ho => h a ha ho t ht hta
  simpa using howner

theorem keeps_saveAccount {a : DedicatedAccount} (hknown : Known db a)
    (he : db.saveAccount a = .ok db') : Keeps db db' := by
  obtain ⟨-, rfl⟩ := saveAccount_ok_iff.mp he
  refine ⟨le_rfl, fun b hb => .inl ?_, fun b hb _ _ _ => ?_, List.prefix_refl _, List.prefix_refl _,
    List.prefix_refl _⟩
  · rcases mem_setRow.mp hb with ⟨rfl, b', hb', hid⟩ | ⟨hmem, -⟩
    · exact ⟨b', hb', hknown.keys b' hb' hid⟩
    · exact ⟨b, hmem, rfl⟩
  · by_cases hid : b.id = a.id
    · refine ⟨{ a with updatedAt := db.clock }, mem_setRow.mpr (.inl ⟨rfl, b, hb, hid⟩), ?_⟩
      exact (hknown.keys b hb hid).symm
    · exact ⟨b, mem_setRow.mpr (.inr ⟨hb, hid⟩), rfl⟩

/-- Every statement keeps what is said above, as long as accounts are saved as they were read and
removed customers have no payments. -/
theorem exec_keeps {o : Op} {r : Res o} (he : exec o db = .ok (r, db'))
    (hsave : ∀ a, o = .accountSave a → Known db a)
    (hdelete : ∀ id, o = .customerDelete id → db.Unpaid id) : Keeps db db' := by
  cases hq : o.isQuery with
  | true => exact exec_query hq he ▸ Keeps.refl db
  | false =>
    cases o with
    | customerCreate new =>
      obtain ⟨row, -, -, -, rfl⟩ := createCustomer_ok_iff.mp he
      exact .of_same (Nat.le_succ _) rfl (List.prefix_refl _) (List.prefix_refl _) (List.prefix_refl _)
    | customerSave c =>
      obtain ⟨_, _, -, -, -, rfl⟩ := saveCustomer_ok_iff.mp (written_ok_iff.mp he)
      exact .of_same le_rfl rfl (List.prefix_refl _) (List.prefix_refl _) (List.prefix_refl _)
    | customerDelete id =>
      cases he
      exact keeps_delete (hdelete id rfl)
    | accountCreate new =>
      obtain ⟨hrow, -, -, rfl⟩ := createAccount_ok_iff.mp he
      refine ⟨Nat.le_succ _, forall_mem_append (fun b hb => .inl ⟨b, hb, rfl⟩) (.inr ?_),
        fun a ha _ _ _ => ⟨a, List.mem_append_left _ ha, rfl⟩, List.prefix_refl _,
        List.prefix_refl _, List.prefix_refl _⟩
      exact ge_of_eq (NewAccount.row_ok hrow).1
    | accountSave a => exact keeps_saveAccount (hsave a rfl) (written_ok_iff.mp he)
    | transactionCreate new =>
      obtain ⟨-, -, -, rfl⟩ := createTransaction_ok_iff.mp he
      exact .of_same (Nat.le_succ _) rfl (List.prefix_append _ _) (List.prefix_refl _)
        (List.prefix_refl _)
    | suspenseLogCreate t reason d =>
      obtain ⟨_, -, -, rfl⟩ := createSuspenseLog_ok_iff.mp (written_ok_iff.mp he)
      exact .of_same (Nat.le_succ _) rfl (List.prefix_refl _) (List.prefix_append _ _)
        (List.prefix_refl _)
    | reconciliationLogCreate new =>
      obtain ⟨_, -, -, rfl⟩ := createReconciliationLog_ok_iff.mp (written_ok_iff.mp he)
      exact .of_same (Nat.le_succ _) rfl (List.prefix_refl _) (List.prefix_refl _)
        (List.prefix_append _ _)
    | processedCreate x e =>
      obtain ⟨-, -, -, rfl⟩ := createProcessedEvent_ok_iff.mp (written_ok_iff.mp he)
      exact .of_same (Nat.le_succ _) rfl (List.prefix_refl _) (List.prefix_refl _) (List.prefix_refl _)
    | registrationCreate m url secret events =>
      rw [createRegistration_ok he]
      exact .of_same (Nat.le_succ _) rfl (List.prefix_refl _) (List.prefix_refl _) (List.prefix_refl _)
    | customerByExternalId _ _ | customerById _ _ | accountByNumber _ | accountByRef _
    | accountFirstByRef _ | accountFirstByCustomer _ | accountFetchCustomer _
    | transactionByNombaId _ | transactionByMerchantTxRef _ | processedExists _
    | registrationsActive _ | emitPaymentReceived _ | post _ _ _ | nombaCreateAccount _ _
    | nombaUpdateAccountName _ _ | nombaListTransactions => cases hq

/-- Marks stay. -/
theorem exec_marks {o : Op} {r : Res o} (he : exec o db = .ok (r, db')) :
    db.processedWebhookEvents <+: db'.processedWebhookEvents := by
  cases hw : o.writes .processedWebhookEvents with
  | false => rw [(exec_frame he).processedWebhookEvents hw]
  | true =>
    cases o with
    | processedCreate key eventType =>
      obtain ⟨-, -, -, rfl⟩ := createProcessedEvent_ok_iff.mp (written_ok_iff.mp he)
      exact List.prefix_append _ _
    | _ => cases hw

/-! ## Payments of a customer -/

/-- The transactions on the accounts of a customer. -/
def Tables.received (db : Tables) (customerId : UUID) : List Transaction :=
  db.transactions.filter fun t => db.dedicatedAccounts.any fun a =>
    a.customerId = customerId ∧ t.dedicatedAccountId = some a.id

def Tables.receivedTotal (db : Tables) (customerId : UUID) : Cents :=
  ((db.received customerId).map (·.amount)).sum

theorem mem_received {customerId : UUID} {t : Transaction} : t ∈ db.received customerId ↔
    t ∈ db.transactions ∧ ∃ a ∈ db.dedicatedAccounts, a.customerId = customerId ∧
      t.dedicatedAccountId = some a.id := by
  simp [Tables.received, List.mem_filter]

/-- A customer's payments stay its payments, in their order, and nothing old is added to them. -/
theorem received_keeps (hc : db.Constraints) (hk : Keeps db db') (customerId : UUID) :
    ∃ rows, (∀ t ∈ rows, t ∈ db'.transactions) ∧
      db'.received customerId = db.received customerId ++ rows := by
  obtain ⟨rows, hrows⟩ := hk.transactions
  refine ⟨rows.filter fun t => db'.dedicatedAccounts.any fun a =>
    a.customerId = customerId ∧ t.dedicatedAccountId = some a.id, fun t ht => ?_, ?_⟩
  · rw [← hrows]
    exact List.mem_append_right _ (List.mem_of_mem_filter ht)
  · rw [Tables.received, ← hrows, List.filter_append]
    congr 1
    refine List.filter_congr fun t ht => ?_
    rw [Bool.eq_iff_iff, List.any_eq_true, List.any_eq_true]
    simp only [decide_eq_true_eq]
    constructor
    · rintro ⟨b, hb, howner, htb⟩
      obtain ⟨a, ha, hab⟩ := hc.transaction_fk t ht b.id htb
      rcases hk.accounts b hb with ⟨a', ha', hkeys⟩ | hnew
      · exact ⟨a', ha', (keys_owner hkeys).trans howner, htb.trans (congrArg some (keys_id hkeys).symm)⟩
      · have hold := hc.account_fresh a ha
        rw [hab] at hold
        exact absurd hold (Nat.not_lt.mpr hnew)
    · rintro ⟨a, ha, howner, hta⟩
      obtain ⟨b, hb, hkeys⟩ := hk.paid a ha t ht hta
      exact ⟨b, hb, (keys_owner hkeys).trans howner, hta.trans (congrArg some (keys_id hkeys).symm)⟩

theorem receivedTotal_mono (hc : db.Constraints) (hk : Keeps db db')
    (hpos : ∀ t ∈ db'.transactions, 0 ≤ t.amount) (customerId : UUID) :
    db.receivedTotal customerId ≤ db'.receivedTotal customerId := by
  obtain ⟨rows, hmem, hrows⟩ := received_keeps hc hk customerId
  rw [Tables.receivedTotal, Tables.receivedTotal, hrows, List.map_append, List.sum_append]
  refine Int.le_add_of_nonneg_right (List.sum_nonneg fun n hn => ?_)
  obtain ⟨t, ht, rfl⟩ := List.mem_map.mp hn
  exact hpos t (hmem t ht)

/-- A payment to an account of the customer is the last one received. -/
theorem received_insert {new : NewTransaction} {t : Transaction} {a : DedicatedAccount}
    (hknown : Known db a) (haccount : t.dedicatedAccountId = some a.id)
    (he : db.createTransaction new = .ok (t, db')) :
    db'.received a.customerId = db.received a.customerId ++ [t] := by
  obtain ⟨hrow, -, hfk, rfl⟩ := createTransaction_ok_iff.mp he
  obtain ⟨b, hb, hid⟩ := hfk a.id haccount
  have howner := keys_owner (hknown.keys b hb hid)
  have hany : (db.dedicatedAccounts.any fun x =>
      x.customerId = a.customerId ∧ t.dedicatedAccountId = some x.id) = true := by
    rw [List.any_eq_true]
    exact ⟨b, hb, by simp [howner, haccount, hid]⟩
  have hone : ([t].filter fun t => db.dedicatedAccounts.any fun x =>
      x.customerId = a.customerId ∧ t.dedicatedAccountId = some x.id) = [t] := by
    rw [List.filter_cons, if_pos hany]
    rfl
  unfold Tables.received
  rw [List.filter_append, hone]

/-- It adds its amount. -/
theorem receivedTotal_insert {new : NewTransaction} {t : Transaction} {a : DedicatedAccount}
    (hknown : Known db a) (haccount : t.dedicatedAccountId = some a.id)
    (he : db.createTransaction new = .ok (t, db')) :
    db'.receivedTotal a.customerId = db.receivedTotal a.customerId + t.amount := by
  rw [Tables.receivedTotal, Tables.receivedTotal, received_insert hknown haccount he, List.map_append,
    List.sum_append]
  simp

end Keeps

/-! ## What the calls share -/

/-- The transaction was inserted by program `i`. -/
def Created (tr : Trace) (i : Nat) (t : Transaction) : Prop :=
  ∃ new, (i, (⟨.transactionCreate new, t⟩ : Event Op Res)) ∈ tr

/-- The transaction records the payment of the call. -/
inductive Pays : Call → Transaction → Prop
  | intro {env : Surroundings} {payload requestId : Json} {p : Payment} {t : Transaction}
      (kind : kindOf payload = .payment requestId p) (request : t.nombaRequestId = requestId.text)
      (amount : decimalField p.amount = .ok t.amount) : Pays (.receive env payload) t

/-- Inserted transactions are there, and one program inserted each. -/
structure Shared (db : Tables) (tr : Trace) : Prop where
  constraints : db.Constraints
  created : ∀ i t, Created tr i t → t ∈ db.transactions
  owner : ∀ i j t u, Created tr i t → Created tr j u → t.id = u.id → i = j

/-- What is true of a call in its place. -/
def Standing (db : Tables) (tr : Trace) (i : Nat) (call : Call) : Place → Prop
  | .routed account | .linked account => Known db account
  | .loaded account customer => Known db account ∧ ∀ c, customer = some c → c.id = account.customerId
  | .inserted account customer t => Known db account ∧ customer.id = account.customerId ∧
      t.dedicatedAccountId = some account.id ∧ Created tr i t ∧ Pays call t
  | .held t _ | .suspended t _ | .credited t | .logged t | .settled t => Created tr i t ∧ Pays call t
  | _ => True

section Shared

variable {db db' : Tables} {tr : Trace} {i j : Nat} {call : Call} {g : Place} {o : Op}
  {f : Res o → Place} {r : Res o} {t u : Transaction}

theorem Created.append (h : Created tr j t) (e : Nat × Event Op Res) : Created (tr ++ [e]) j t := by
  obtain ⟨new, hmem⟩ := h
  exact ⟨new, List.mem_append_left _ hmem⟩

theorem created_self {new : NewTransaction} : Created (tr ++ [(i, ⟨.transactionCreate new, t⟩)]) i t :=
  ⟨new, List.mem_append_right _ (List.mem_singleton.mpr rfl)⟩

theorem created_other (ho : o.inserts = false) (h : Created (tr ++ [(i, ⟨o, r⟩)]) j t) :
    Created tr j t := by
  obtain ⟨new, hmem⟩ := h
  rcases List.mem_append.mp hmem with hmem | hmem
  · exact ⟨new, hmem⟩
  · cases List.mem_singleton.mp hmem
    cases ho

theorem created_insert {new : NewTransaction}
    (h : Created (tr ++ [(i, ⟨.transactionCreate new, u⟩)]) j t) : Created tr j t ∨ j = i ∧ t = u := by
  obtain ⟨new', hmem⟩ := h
  rcases List.mem_append.mp hmem with hmem | hmem
  · exact .inl ⟨new', hmem⟩
  · cases List.mem_singleton.mp hmem
    exact .inr ⟨rfl, rfl⟩

/-- Two inserted transactions of one request are the same. -/
theorem Shared.eq_of_request (h : Shared db tr) (ht : Created tr i t) (hu : Created tr j u)
    (hr : t.nombaRequestId = u.nombaRequestId) : t = u :=
  eq_of_key h.constraints.transaction_request (h.created i t ht) (h.created j u hu) hr

theorem Standing.keeps (h : Standing db tr j call g) (hk : Keeps db db') (e : Nat × Event Op Res) :
    Standing db' (tr ++ [e]) j call g := by
  cases g with
  | routed account | linked account => exact Known.keeps h hk
  | loaded account customer => exact ⟨h.1.keeps hk, h.2⟩
  | inserted account customer t =>
    obtain ⟨hknown, howner, haccount, hcreated, hpays⟩ := h
    exact ⟨hknown.keeps hk, howner, haccount, hcreated.append e, hpays⟩
  | held t _ | suspended t _ | credited t | logged t | settled t => exact ⟨h.1.append e, h.2⟩
  | _ => trivial

theorem turn_keeps (h : Standing db tr i call g) (turn : Turn call g o f)
    (he : exec o db = .ok (r, db')) (hdelete : ∀ id, o = .customerDelete id → db.Unpaid id) :
    Keeps db db' := by
  refine exec_keeps he (fun a ho => ?_) hdelete
  subst ho
  cases turn with
  | wait waits silent => cases silent
  | rename => exact ⟨h.older, h.keys⟩

theorem Shared.next (h : Shared db tr) (hk : Keeps db db') (he : exec o db = .ok (r, db')) :
    Shared db' (tr ++ [(i, ⟨o, r⟩)]) := by
  refine ⟨exec_constraints h.constraints he, fun j t ht => ?_, fun j k t u ht hu hid => ?_⟩
  · cases hi : o.inserts with
    | false => exact hk.transactions.subset (h.created j t (created_other hi ht))
    | true =>
      cases o with
      | transactionCreate new =>
        obtain ⟨-, -, -, rfl⟩ := createTransaction_ok_iff.mp he
        rcases created_insert ht with hold | ⟨-, rfl⟩
        · exact List.mem_append_left _ (h.created j t hold)
        · exact List.mem_append_right _ (List.mem_singleton.mpr rfl)
      | _ => cases hi
  · cases hi : o.inserts with
    | false => exact h.owner j k t u (created_other hi ht) (created_other hi hu) hid
    | true =>
      cases o with
      | transactionCreate new =>
        obtain ⟨hrow, -, -, -⟩ := createTransaction_ok_iff.mp he
        have hnew := (NewTransaction.row_ok hrow).id
        have hold : ∀ l v, Created tr l v → v.id ≠ r.id := fun l v hv =>
          ne_of_fresh (h.constraints.transaction_fresh v (h.created l v hv)) hnew
        rcases created_insert ht with ht' | ⟨hj, htr⟩
        · rcases created_insert hu with hu' | ⟨-, hur⟩
          · exact h.owner j k t u ht' hu' hid
          · exact absurd (hur ▸ hid) (hold j t ht')
        · rcases created_insert hu with hu' | ⟨hk, -⟩
          · exact absurd (htr ▸ hid.symm) (hold k u hu')
          · exact hj.trans hk.symm
      | _ => cases hi

/-- The transaction a payment inserts. -/
theorem pays_of_insert {env : Surroundings} {payload requestId : Json} {p : Payment}
    {account : Option DedicatedAccount} {status : TransactionStatus}
    (kind : kindOf payload = .payment requestId p)
    (he : db.createTransaction ((p.withReference env.reference).newTransaction requestId payload account
      status) = .ok (t, db')) :
    Pays (.receive env payload) t ∧ t.dedicatedAccountId = account.map (·.id) ∧
      t.status = status := by
  have hr := NewTransaction.row_ok (createTransaction_ok_iff.mp he).1
  exact ⟨.intro kind hr.request hr.amount, hr.account, hr.status⟩

/-- A call that acts is right about its next place. -/
theorem Standing.next (hs : Shared db tr) (h : Standing db tr i call g) (turn : Turn call g o f)
    (he : exec o db = .ok (r, db')) (hk : Keeps db db') :
    Standing db' (tr ++ [(i, ⟨o, r⟩)]) i call (f r) := by
  cases turn with
  | wait waits silent => exact h.keeps hk _
  | check key =>
    cases r with
    | true => trivial
    | false =>
      rcases opening_cases (kindOf _) with h | h | h
      all_goals exact h ▸ trivial
  | byNumber kind =>
    obtain ⟨hfound, rfl⟩ := answered_ok_iff.mp he
    cases r with
    | none => rcases byRef_cases _ with h | h <;> exact h ▸ trivial
    | some a => exact known_of_mem hs.constraints (getOrNone_some hfound).1
  | byReference kind =>
    obtain ⟨hfound, rfl⟩ := answered_ok_iff.mp he
    cases r with
    | none => trivial
    | some a => exact known_of_mem hs.constraints (getOrNone_some hfound).1
  | @load env payload account =>
    cases he
    refine ⟨h, fun c hc => ?_⟩
    obtain ⟨row, hrow, rfl⟩ := Option.map_eq_some_iff.mp hc
    simpa using List.find?_some hrow
  | hold kind holding => exact ⟨created_self, (pays_of_insert kind he).1⟩
  | insert kind active =>
    obtain ⟨hpays, haccount, -⟩ := pays_of_insert kind he
    exact ⟨h.1.keeps hk, h.2 _ rfl, haccount, created_self, hpays⟩
  | suspend kind | logSuspense kind | logCredit transaction | emit => exact ⟨h.1.append _, h.2⟩
  | save kind => exact ⟨h.2.2.2.1.append _, h.2.2.2.2⟩
  | findAccount =>
    simp only [exec, Except.ok.injEq, Prod.mk.injEq] at he
    obtain ⟨hfound, rfl⟩ := he
    cases r with
    | none => trivial
    | some a => exact known_of_mem hs.constraints (List.mem_of_find?_eq_some hfound)
  | resolveById | resolveByExternalId | choose | matchById | matchByRef => cases r <;> trivial
  | ignore | mark | edit | rename | provide | compensate | openAccount | openDedicated | logMatch => trivial

end Shared

/-! ## The rule for invariants of a pool -/

/-- A turn of program `i` in the state `s`, as an invariant meets it. -/
structure Acts (B : Assumption Op Res Tables Call) (s : Tables) (tr : Trace) (i : Nat) (call : Call)
    (g : Place) (o : Op) (f : Res o → Place) (r : Res o) (s' : Tables) : Prop where
  started : B.call call
  allowed : B.step call s tr i o
  turn : Turn call g o f
  run : exec o s = .ok (r, s')
  shared : Shared s tr
  standing : Standing s tr i call g
  keeps : Keeps s s'

/-- Customers are removed only while they have no payments. -/
def Harmless (B : Assumption Op Res Tables Call) : Prop :=
  ∀ call s tr i id, B.call call → B.step call s tr i (.customerDelete id) →
    ∀ g f, Turn call g (.customerDelete id) f → s.Unpaid id

/-- An invariant of a pool: what the calls share, and what is true of each in its place. -/
abbrev Invariant (B : Assumption Op Res Tables Call) (G : Tables → Trace → Prop)
    (T : Tables → Trace → Nat → Call → Place → Prop) : Protocol.View Op Res Tables Call Place → Prop :=
  Protocol.Modular B (fun s tr => Shared s tr ∧ G s tr)
    fun s tr i call g => Standing s tr i call g ∧ T s tr i call g

section Rule

variable {B : Assumption Op Res Tables Call} {G : Tables → Trace → Prop}
  {T : Tables → Trace → Nat → Call → Place → Prop}

theorem invariant_next (hB : Harmless B)
    (hstart : ∀ s tr i call, B.call call → T s tr i call .arrived)
    (hown : ∀ s tr i call g o f r s', Acts B s tr i call g o f r s' → G s tr → T s tr i call g →
      G s' (tr ++ [(i, ⟨o, r⟩)]) ∧ T s' (tr ++ [(i, ⟨o, r⟩)]) i call (f r))
    (hother : ∀ s tr i call g o f r s', Acts B s tr i call g o f r s' → G s tr → T s tr i call g →
      ∀ j call' g', j ≠ i → B.call call' → Standing s tr j call' g' → T s tr j call' g' →
        T s' (tr ++ [(i, ⟨o, r⟩)]) j call' g')
    {v v' : Protocol.View Op Res Tables Call Place} (hI : Invariant B G T v)
    (hn : service.Next exec B v v') : Invariant B G T v' := by
  refine Protocol.modular_next (fun s tr i call hcall _ _ => ⟨trivial, hstart s tr i call hcall⟩)
    ?_ ?_ hI hn
  · intro s tr i call g o f r s' hcall hG hT turn run allowed
    have hk := turn_keeps hT.1 turn run fun id ho => by
      subst ho
      exact hB call s tr i id hcall allowed g f turn
    have hacts : Acts B s tr i call g o f r s' := ⟨hcall, allowed, turn, run, hG.1, hT.1, hk⟩
    obtain ⟨hG', hT'⟩ := hown s tr i call g o f r s' hacts hG.2 hT.2
    exact ⟨⟨hG.1.next hk run, hG'⟩, hT.1.next hG.1 turn run hk, hT'⟩
  · intro s tr i call g o f r s' hcall hG hT turn run allowed j call' g' hji hcall' hTj
    have hk := turn_keeps hT.1 turn run fun id ho => by
      subst ho
      exact hB call s tr i id hcall allowed g f turn
    have hacts : Acts B s tr i call g o f r s' := ⟨hcall, allowed, turn, run, hG.1, hT.1, hk⟩
    exact ⟨hTj.1.keeps hk _, hother s tr i call g o f r s' hacts hG.2 hT.2 j call' g' hji hcall' hTj.1
      hTj.2⟩

/-- A turn of a view with an invariant. -/
theorem Invariant.acts (hB : Harmless B) {v : Protocol.View Op Res Tables Call Place}
    (hI : Invariant B G T v) {i : Nat} {call : Call} {g : Place} {o : Op} {f : Res o → Place}
    {r : Res o} {s' : Tables} (hi : v.places[i]? = some (call, g)) (turn : Turn call g o f)
    (run : exec o v.state = .ok (r, s')) (allowed : B.step call v.state v.trace i o) :
    Acts B v.state v.trace i call g o f r s' ∧ G v.state v.trace ∧
      T v.state v.trace i call g := by
  obtain ⟨hcall, hT⟩ := hI.program i call g hi
  refine ⟨⟨hcall, allowed, turn, run, hI.shared.1, hT.1, ?_⟩, hI.shared.2, hT.2⟩
  refine turn_keeps hT.1 turn run fun id ho => ?_
  subst ho
  exact hB call _ _ i id hcall allowed g f turn

/-- A pool of calls over a state the schema admits, after a schedule. -/
abbrev play (s : Tables) (ms : List (Move Call Err)) : Option (Pool Op Res Err Reply Tables Call) :=
  Pool.play exec Call.handler (Pool.init s) ms

/-- Every step of the schedule meets the assumption. -/
abbrev Meets (B : Assumption Op Res Tables Call) (s : Tables) (ms : List (Move Call Err)) : Prop :=
  Pool.Meets exec Call.handler B (Pool.init s) ms

/-- An invariant survives the rest of a schedule. -/
theorem play_on (hcall : ∀ call, B.call call → call.scheduled)
    {I : Protocol.View Op Res Tables Call Place → Prop}
    (hnext : ∀ v v', I v → service.Next exec B v v' → I v') {P P' : Pool Op Res Err Reply Tables Call}
    {v : Protocol.View Op Res Tables Call Place} (hv : service.Views Ends P v) (hI : I v)
    {ms : List (Move Call Err)} (hB : P.Meets exec Call.handler B ms)
    (hplay : P.play exec Call.handler ms = some P') : ∃ v', service.Views Ends P' v' ∧ I v' :=
  Protocol.play_invariant (fun call hc => follows_handler (hcall call hc)) hnext hv hI hB hplay

theorem play_view (hcall : ∀ call, B.call call → call.scheduled)
    {I : Protocol.View Op Res Tables Call Place → Prop}
    (hnext : ∀ v v', I v → service.Next exec B v v' → I v') {s : Tables} (hI : I ⟨s, [], []⟩)
    {ms : List (Move Call Err)} (hB : Meets B s ms) {P : Pool Op Res Err Reply Tables Call}
    (hplay : play s ms = some P) : ∃ v, service.Views Ends P v ∧ I v :=
  play_on hcall hnext (Protocol.Views.init s) hI hB hplay

theorem Invariant.init {s : Tables} (hc : s.Constraints) (hG : G s []) :
    Invariant B G T ⟨s, [], []⟩ := by
  refine Protocol.Modular.init ⟨⟨hc, fun i t ht => ?_, fun i j t u ht => ?_⟩, hG⟩
  · obtain ⟨new, hmem⟩ := ht
    cases hmem
  · obtain ⟨new, hmem⟩ := ht
    cases hmem

end Rule

end LdbBackend
