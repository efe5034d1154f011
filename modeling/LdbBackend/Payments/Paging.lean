import LdbBackend.Payments.StoredCredit
import LdbBackend.Model.Statements
import LdbBackend.Lib.Pages

/-!
# Paging through an account

`list_transactions` orders by `created_at` alone, and the database may arrange transactions of one instant
differently for every page. The pages show every transaction once exactly when no page boundary falls
between transactions of one instant (`pages_complete_iff`); counts, order and sizes are right in any case.
-/

namespace LdbBackend

open Fixed Effects Table Pages

/-- The rows of the pages 1 to `n`, one page after the other. -/
def shownOn (page : ℕ → TransactionPage) (n : ℕ) : List Transaction :=
  (List.range n).flatMap fun k => (page (k + 1)).data

/-- `page k` is page `k` of the account, from 1 on, with `limit` rows on a page. -/
structure Paged (db : Tables) (accountId : UUID) (limit pages total : ℕ) (page : ℕ → TransactionPage) :
    Prop where
  metadata : ∀ k, 1 ≤ k → (page k).metadata = ⟨k, pages, limit, total, (page k).data.length⟩
  full : ∀ k, 1 ≤ k → k < pages → (page k).data.length = limit
  empty : ∀ k, pages < k → (page k).data = []
  newestFirst : (shownOn page pages).Pairwise fun x y => y.createdAt ≤ x.createdAt
  complete : (shownOn page pages).Perm (transactionsOf db accountId)

/-- Whatever order the database answers each query in, the pages are those of the account, and together
they show what the statement shows. -/
def PagesComplete (db : Tables) (accountId merchantId : UUID) (limit : ℕ) : Prop :=
  ∀ orders : ℕ → RowOrder, ∃ (page : ℕ → TransactionPage) (pages total : ℕ),
    (∀ k, 1 ≤ k → listTransactions (orders k) db accountId merchantId ⟨k, limit⟩ = .ok (page k)) ∧
    Paged db accountId limit pages total page ∧
    ∀ order statement, getStatement order db accountId merchantId = .ok statement →
      ((shownOn page pages).map statementItem).Perm statement.transactions

/-- The number of pages that is reported. -/
def pagesOf (limit total : ℕ) : ℕ := max ((total + limit - 1) / limit) 1

section Pages

variable {limit total k : ℕ}

theorem le_pagesOf (hlimit : 1 ≤ limit) : total ≤ pagesOf limit total * limit := by
  by_contra hmore
  have hnext : (pagesOf limit total + 1) * limit ≤ total + limit - 1 := by
    rw [Nat.succ_mul]
    omega
  have hle := (Nat.le_div_iff_mul_le hlimit).mpr hnext
  have hmax : (total + limit - 1) / limit ≤ pagesOf limit total := le_max_left _ _
  omega

theorem mul_le_of_lt_pagesOf (hlimit : 1 ≤ limit) (hk : 1 ≤ k) (h : k < pagesOf limit total) :
    k * limit ≤ total := by
  have hlt : k + 1 ≤ (total + limit - 1) / limit := by
    unfold pagesOf at h
    omega
  have hle := (Nat.le_div_iff_mul_le hlimit).mp hlt
  rw [Nat.succ_mul] at hle
  omega

end Pages

section Account

variable {db : Tables} {accountId merchantId : UUID} {limit : ℕ} {account : DedicatedAccount}
  {customer : Customer Decimal} {order : RowOrder} {k : ℕ}

theorem accountFor_id (hfor : accountFor db accountId merchantId = .ok (account, customer)) :
    account.id = accountId := by
  unfold accountFor at hfor
  cases hget : getOrNone (fun a : DedicatedAccount => decide (a.id = accountId)) db.dedicatedAccounts with
  | error e =>
    rw [hget] at hfor
    cases hfor
  | ok found =>
    rw [hget] at hfor
    cases found with
    | none => cases hfor
    | some a =>
      have hid : a.id = accountId := of_decide_eq_true (getOrNone_some hget).2
      cases hcustomer : (db.customers.find? (·.id = a.customerId)).map Customer.load with
      | none =>
        simp only [bind, Except.bind, hcustomer] at hfor
        cases hfor
      | some customer =>
        simp only [bind, Except.bind, hcustomer] at hfor
        split_ifs at hfor
        · cases hfor
          exact hid

/-- What one page query answers. -/
def pageAnswered (order : RowOrder) (rows : List Transaction) (limit k : ℕ) : TransactionPage where
  metadata := ⟨k, pagesOf limit rows.length, limit, rows.length, (page limit (k - 1) (order.apply rows)).length⟩
  data := page limit (k - 1) (order.apply rows)

theorem listTransactions_eq (hfor : accountFor db accountId merchantId = .ok (account, customer)) :
    listTransactions order db accountId merchantId ⟨k, limit⟩ =
      .ok (pageAnswered order (transactionsOf db accountId) limit k) := by
  unfold listTransactions
  rw [hfor]
  show Except.ok _ = Except.ok _
  rw [accountFor_id hfor]
  rfl

theorem getStatement_transactions (hfor : accountFor db accountId merchantId = .ok (account, customer))
    {statement : Statement} (h : getStatement order db accountId merchantId = .ok statement) :
    statement.transactions = (order.apply (transactionsOf db accountId)).map statementItem := by
  unfold getStatement at h
  rw [hfor] at h
  rw [← accountFor_id hfor]
  cases h
  rfl

/-- The pages of an account that no boundary cuts. -/
theorem paged_of_uncut (hlimit : 1 ≤ limit) (orders : ℕ → RowOrder)
    (huncut : ∀ k, ¬ Cuts (·.createdAt) (transactionsOf db accountId) (k * limit)) :
    Paged db accountId limit (pagesOf limit (transactionsOf db accountId).length)
      (transactionsOf db accountId).length
      fun k => pageAnswered (orders k) (transactionsOf db accountId) limit k := by
  set rows := transactionsOf db accountId
  have hlength : ∀ k, ((orders k).apply rows).length = rows.length := fun k => ((orders k).perm rows).length_eq
  refine ⟨fun k _ => rfl, fun k hk hlt => ?_, fun k hlt => ?_, ?_, ?_⟩
  · refine page_full ?_
    rw [Nat.sub_add_cancel hk, hlength]
    exact mul_le_of_lt_pagesOf hlimit hk hlt
  · refine page_empty ?_
    rw [hlength]
    exact (le_pagesOf hlimit).trans (Nat.mul_le_mul_right limit (by omega))
  · exact pages_descending (fun k => (orders (k + 1)).sorted rows) fun k => (orders (k + 1)).perm rows
  · exact pages_perm (fun k => (orders (k + 1)).sorted rows) (fun k => (orders (k + 1)).perm rows) huncut
      (le_pagesOf hlimit)

/-- An order that arranges `rows` as `arranged`, and all others as `order` does. -/
noncomputable def RowOrder.arranging (order : RowOrder) (rows arranged : List Transaction)
    (hperm : arranged.Perm rows) (hsorted : arranged.Pairwise fun x y => y.createdAt ≤ x.createdAt) :
    RowOrder := by
  classical
  exact {
    apply := fun rows' => if rows' = rows then arranged else order.apply rows'
    perm := fun rows' => by
      split_ifs with h
      · exact h ▸ hperm
      · exact order.perm rows'
    sorted := fun rows' => by
      split_ifs
      · exact hsorted
      · exact order.sorted rows' }

theorem RowOrder.arranging_self {rows arranged : List Transaction} (hperm : arranged.Perm rows)
    (hsorted : arranged.Pairwise fun x y => y.createdAt ≤ x.createdAt) :
    (order.arranging rows arranged hperm hsorted).apply rows = arranged := if_pos rfl

/-- A boundary between transactions of one instant loses one of them in some answers. -/
theorem not_complete_of_cuts (hfor : accountFor db accountId merchantId = .ok (account, customer))
    (hc : db.Constraints) (hlimit : 1 ≤ limit)
    (hcut : Cuts (·.createdAt) (transactionsOf db accountId) (k * limit)) :
    ¬ PagesComplete db accountId merchantId limit := by
  intro hcomplete
  set rows := transactionsOf db accountId
  have hnodup : rows.Nodup := (List.Nodup.of_map _ hc.transaction_pk).filter _
  obtain ⟨arranged, hdescending, hperm, hrepeats⟩ :=
    exists_repeating (newestFirst.sorted rows) (newestFirst.perm rows) hnodup hcut
  have hsorted : arranged.Pairwise fun x y => y.createdAt ≤ x.createdAt := hdescending
  -- the pages up to the boundary come in one order, the others in the other
  set orders : ℕ → RowOrder := fun i =>
    if i ≤ k then newestFirst else newestFirst.arranging rows arranged hperm hsorted with horders
  obtain ⟨page, pages, total, hpages, hpaged, -⟩ := hcomplete orders
  have hanswers : ∀ i, 1 ≤ i → page i = pageAnswered (orders i) rows limit i := by
    intro i hi
    have hboth := (hpages i hi).symm.trans (listTransactions_eq hfor)
    exact Except.ok.inj hboth
  have hpagesOf : pages = pagesOf limit rows.length := by
    have hmeta := hpaged.metadata 1 le_rfl
    rw [hanswers 1 le_rfl] at hmeta
    exact (congrArg PaginationMetadata.pages hmeta).symm
  refine hrepeats pages (hpagesOf ▸ le_pagesOf hlimit) ?_
  have hshown : shownOn page pages = (List.range pages).flatMap fun i =>
      Pages.page limit i (if i < k then newestFirst.apply rows else arranged) := by
    refine List.flatMap_congr fun i _ => ?_
    rw [hanswers (i + 1) (Nat.le_add_left 1 i)]
    show Pages.page limit i ((orders (i + 1)).apply rows) = _
    rw [horders]
    by_cases hi : i < k
    · rw [if_pos hi]
      simp only [Nat.succ_le_of_lt hi, if_true]
    · rw [if_neg hi]
      simp only [show ¬ i + 1 ≤ k by omega, if_false]
      rw [RowOrder.arranging_self]
  rw [← hshown]
  exact hpaged.complete

end Account

/-- For every ledger, every account and every page size: the pages are complete exactly when no page
boundary falls between transactions of one instant. -/
theorem pages_complete_iff (db : Database) (accountId merchantId : UUID) (account : DedicatedAccount)
    (customer : Customer Decimal) (limit : ℕ)
    (hfor : accountFor db.tables accountId merchantId = .ok (account, customer)) (hlimit : 1 ≤ limit) :
    PagesComplete db.tables accountId merchantId limit ↔
      ∀ k, ¬ Cuts (·.createdAt) (transactionsOf db.tables accountId) (k * limit) := by
  constructor
  · intro hcomplete k hcut
    exact not_complete_of_cuts hfor db.constraints hlimit hcut hcomplete
  · intro huncut orders
    have hpaged := paged_of_uncut hlimit orders huncut
    refine ⟨_, _, _, fun k _ => listTransactions_eq hfor, hpaged, fun order statement h => ?_⟩
    rw [getStatement_transactions hfor h]
    exact (hpaged.complete.trans (order.perm _).symm).map statementItem

/-- The same rows, with all transactions at one instant. -/
def Tables.atOnce (db : Tables) : Tables :=
  { db with transactions := db.transactions.map fun t => { t with createdAt := 0 } }

theorem Tables.Constraints.atOnce {db : Tables} (h : db.Constraints) : db.atOnce.Constraints := by
  have hkept : ∀ {β : Type} (f : Transaction → β), (∀ t, f { t with createdAt := 0 } = f t) →
      db.atOnce.transactions.map f = db.transactions.map f := by
    intro β f hf
    show (db.transactions.map _).map f = _
    rw [List.map_map]
    exact List.map_congr_left fun t _ => hf t
  have hmem : ∀ {P : Transaction → Prop}, (∀ t, P t → P { t with createdAt := 0 }) →
      (∀ t ∈ db.transactions, P t) → ∀ t ∈ db.atOnce.transactions, P t := by
    intro P hP hall t ht
    obtain ⟨t', ht', rfl⟩ := List.mem_map.mp ht
    exact hP t' (hall t' ht')
  have hfk : ∀ {i : UUID}, (∃ t ∈ db.transactions, t.id = i) → ∃ t ∈ db.atOnce.transactions, t.id = i := by
    rintro i ⟨t, ht, hid⟩
    exact ⟨_, List.mem_map.mpr ⟨t, ht, rfl⟩, hid⟩
  exact { h with
    transaction_pk := (hkept (·.id) fun _ => rfl) ▸ h.transaction_pk
    transaction_fresh := hmem (fun _ ht => ht) h.transaction_fresh
    transaction_request := (hkept (·.nombaRequestId) fun _ => rfl) ▸ h.transaction_request
    transaction_columns := hmem (fun _ ht => ht) h.transaction_columns
    transaction_fk := hmem (fun _ ht => ht) h.transaction_fk
    suspense_fk := fun l hl => hfk (h.suspense_fk l hl)
    reconciliation_fk := fun l hl => hfk (h.reconciliation_fk l hl) }

/-- Two payments to one account, stored at one instant. -/
def paidTwiceAtOnce : Database where
  tables := (stateAfter (receive quiet (samplePayment "R2" "9901" 5))
    (stateAfter (receive quiet (samplePayment "R1" "9901" 5)) (provisioned none).tables)).atOnce
  constraints := (run_constraints _ (run_constraints _ (provisioned none).constraints)).atOnce

theorem paidTwiceAtOnce_account : ∃ account customer,
    accountFor paidTwiceAtOnce.tables 1 7 = .ok (account, customer) := by
  obtain ⟨⟨account, customer⟩, hfor⟩ := exists_ok_of_isOk (x := accountFor paidTwiceAtOnce.tables 1 7)
    (by decide +kernel)
  exact ⟨account, customer, hfor⟩

/-- A page of two shows both of two payments. -/
theorem pages_complete_for_two : PagesComplete paidTwiceAtOnce.tables 1 7 2 := by
  obtain ⟨account, customer, hfor⟩ := paidTwiceAtOnce_account
  refine (pages_complete_iff paidTwiceAtOnce 1 7 account customer 2 hfor (by omega)).mpr ?_
  rintro k ⟨t, -, hlow, hhigh⟩
  have hrows : (transactionsOf paidTwiceAtOnce.tables 1).length = 2 := by decide +kernel
  have hmost := hhigh.trans_le (hrows ▸ List.countP_le_length)
  omega

/-- On two pages of one, either of two payments can be shown twice and the other not at all. -/
theorem simultaneous_payment_lost : ¬ ∀ (db : Database) (accountId merchantId : UUID)
    (account : DedicatedAccount) (customer : Customer Decimal) (limit : ℕ),
    accountFor db.tables accountId merchantId = .ok (account, customer) → 1 ≤ limit → limit ≤ 100 →
      PagesComplete db.tables accountId merchantId limit := by
  intro hclaim
  obtain ⟨account, customer, hfor⟩ := paidTwiceAtOnce_account
  have hcut : Cuts (·.createdAt) (transactionsOf paidTwiceAtOnce.tables 1) (1 * 1) := by decide +kernel
  exact not_complete_of_cuts hfor paidTwiceAtOnce.constraints le_rfl hcut
    (hclaim paidTwiceAtOnce 1 7 account customer 1 hfor le_rfl (by omega))

end LdbBackend
