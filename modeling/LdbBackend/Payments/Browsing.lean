import LdbBackend.Concurrent.Lengthens
import LdbBackend.Lib.MovingPages
import LdbBackend.Model.Reads
import LdbBackend.Payments.Paging

/-!
# Paging while payments arrive

A reader asks for the pages of an account one after the other, and between its queries the service goes on. New
payments push the older ones to later pages. They are met there again; none is skipped, unless a payment comes
in between the count and the rows of the last page.
-/

namespace LdbBackend

open Fixed Effects Table

/-- A later moment of a run in which no compensation meets a customer with payments. -/
def Afterwards (P P' : Pool Op Res Err Reply Tables Call) : Prop :=
  ∃ ms, P.Meets exec Call.handler compensating ms ∧ P.play exec Call.handler ms = some P'

/-- The moments at which a reader's queries for page `k + 1` are answered. -/
structure Reader (db : Database) where
  found : ℕ → Pool Op Res Err Reply Tables Call
  owned : ℕ → Pool Op Res Err Reply Tables Call
  counted : ℕ → Pool Op Res Err Reply Tables Call
  fetched : ℕ → Pool Op Res Err Reply Tables Call
  first : Afterwards (Pool.init db.tables) (found 0)
  owns : ∀ k, Afterwards (found k) (owned k)
  counts : ∀ k, Afterwards (owned k) (counted k)
  fetches : ∀ k, Afterwards (counted k) (fetched k)
  turns : ∀ k, Afterwards (fetched k) (found (k + 1))

section Moments

variable {db : Database} {P P' : Pool Op Res Err Reply Tables Call} {s s' : Tables}

theorem Afterwards.grown (h : Afterwards P P') (hP : Underway P) : Underway P' ∧ Lengthens P.state P'.state := by
  obtain ⟨ms, hmeets, hplay⟩ := h
  obtain ⟨hunderway, hgrown, -⟩ := underway_play hP hmeets hplay
  exact ⟨hunderway, hgrown⟩

theorem Reader.found_sound (reader : Reader db) (hdated : Dated db.tables) (k : ℕ) :
    Underway (reader.found k) ∧ Dated (reader.found k).state := by
  induction k with
  | zero =>
    obtain ⟨hunderway, hgrown⟩ := reader.first.grown (underway_init db)
    exact ⟨hunderway, hgrown.dated hdated⟩
  | succ k ih =>
    obtain ⟨howned, hto₁⟩ := (reader.owns k).grown ih.1
    obtain ⟨hcounted, hto₂⟩ := (reader.counts k).grown howned
    obtain ⟨hfetched, hto₃⟩ := (reader.fetches k).grown hcounted
    obtain ⟨hfound, hto₄⟩ := (reader.turns k).grown hfetched
    exact ⟨hfound, hto₄.dated (hto₃.dated (hto₂.dated (hto₁.dated ih.2)))⟩

/-- What happens to the ledger from one query to the next. -/
theorem Reader.grown (reader : Reader db) (hdated : Dated db.tables) (k : ℕ) :
    Lengthens (reader.counted k).state (reader.fetched k).state ∧ Dated (reader.fetched k).state ∧
      Lengthens (reader.fetched k).state (reader.fetched (k + 1)).state := by
  obtain ⟨hunderway, hd⟩ := reader.found_sound hdated k
  obtain ⟨howned, hto₁⟩ := (reader.owns k).grown hunderway
  obtain ⟨hcounted, hto₂⟩ := (reader.counts k).grown howned
  obtain ⟨hfetched, hto₃⟩ := (reader.fetches k).grown hcounted
  obtain ⟨hfound, hnext₁⟩ := (reader.turns k).grown hfetched
  obtain ⟨howned', hnext₂⟩ := (reader.owns (k + 1)).grown hfound
  obtain ⟨hcounted', hnext₃⟩ := (reader.counts (k + 1)).grown howned'
  obtain ⟨-, hnext₄⟩ := (reader.fetches (k + 1)).grown hcounted'
  exact ⟨hto₃, hto₃.dated (hto₂.dated (hto₁.dated hd)), hnext₁.trans (hnext₂.trans (hnext₃.trans hnext₄))⟩

/-- The transactions of an account at two moments. -/
theorem Lengthens.transactionsOf (h : Lengthens s s') (hd : Dated s) (accountId : UUID) :
    ∃ new, LdbBackend.transactionsOf s' accountId = LdbBackend.transactionsOf s accountId ++ new ∧
      (∀ x ∈ LdbBackend.transactionsOf s accountId, ∀ y ∈ new, x.createdAt < y.createdAt) ∧
      ((LdbBackend.transactionsOf s accountId ++ new).map (·.createdAt)).Nodup := by
  obtain ⟨rest, hrest⟩ := h.transactions
  have hdistinct := (h.dated hd).distinct
  have hrows : LdbBackend.transactionsOf s' accountId = LdbBackend.transactionsOf s accountId ++
      rest.filter (·.dedicatedAccountId = some accountId) := by
    rw [LdbBackend.transactionsOf, ← hrest, List.filter_append]
    rfl
  refine ⟨_, hrows, fun x hx y hy => ?_, ?_⟩
  · have hy' := List.mem_of_mem_filter hy
    refine lt_of_lt_of_le (hd.past x (List.mem_of_mem_filter hx)) ?_
    rcases h.newer y (hrest ▸ List.mem_append_right _ hy') with hold | hnew
    · -- a row cannot stand in both parts
      rw [← hrest, List.map_append, List.nodup_append] at hdistinct
      exact absurd rfl (hdistinct.2.2 _ (List.mem_map_of_mem hold) _ (List.mem_map_of_mem hy'))
    · exact hnew
  · rw [← hrows]
    exact hdistinct.sublist ((List.filter_sublist).map _)

end Moments

/-- What one query answers. -/
def pageAcross (order : RowOrder) (total : ℕ) (rows : List Transaction) (limit k : ℕ) : TransactionPage where
  metadata := ⟨k + 1, pagesOf limit total, limit, total, (Pages.page limit k (order.apply rows)).length⟩
  data := Pages.page limit k (order.apply rows)

section Query

variable {order : RowOrder} {found owned counted fetched : Tables} {accountId merchantId : UUID} {limit k : ℕ}

theorem listTransactionsAcross_eq {account : DedicatedAccount} {customer : Customer Decimal}
    (hfor : accountForAcross found owned accountId merchantId = .ok (account, customer)) :
    listTransactionsAcross order found owned counted fetched accountId merchantId ⟨k + 1, limit⟩ =
      .ok (pageAcross order (transactionsOf counted accountId).length (transactionsOf fetched accountId) limit k) := by
  unfold listTransactionsAcross
  rw [hfor]
  show Except.ok _ = Except.ok _
  rw [(accountForAcross_ok hfor).1.2]
  rfl

theorem listTransactionsAcross_page {page : TransactionPage}
    (h : listTransactionsAcross order found owned counted fetched accountId merchantId ⟨k + 1, limit⟩ = .ok page) :
    page = pageAcross order (transactionsOf counted accountId).length (transactionsOf fetched accountId) limit k := by
  cases hfor : accountForAcross found owned accountId merchantId with
  | error e =>
    unfold listTransactionsAcross at h
    rw [hfor] at h
    cases h
  | ok r =>
    rw [listTransactionsAcross_eq hfor] at h
    exact (Except.ok.inj h).symm

end Query

/-- What a reader has seen that began in the tables `first` and ended in `last`. -/
structure KeptUp (first last : Tables) (accountId : UUID) (shown : List Transaction) : Prop where
  nothing_lost : ∀ t ∈ transactionsOf first accountId, t ∈ shown
  nothing_else : ∀ t ∈ shown, t ∈ transactionsOf last accountId
  one_for_each : shown.length = (transactionsOf last accountId).length

/-- For every run beside the reader: from the first page on, as long as there are pages, the reader sees every
transaction that was there at the first page, and each one that came since costs it one repetition. -/
theorem pages_keep_up (db : Database) (hdated : Dated db.tables) (reader : Reader db) (orders : ℕ → RowOrder)
    (accountId merchantId : UUID) (limit n : ℕ) (hlimit : 1 ≤ limit) (page : ℕ → TransactionPage)
    (hpages : ∀ k ≤ n, listTransactionsAcross (orders k) (reader.found k).state (reader.owned k).state
      (reader.counted k).state (reader.fetched k).state accountId merchantId ⟨k + 1, limit⟩ = .ok (page (k + 1)))
    (hgoes : ∀ k < n, k + 1 < (page (k + 1)).metadata.pages)
    (hstops : (page (n + 1)).metadata.pages ≤ n + 1)
    (hstill : transactionsOf (reader.fetched n).state accountId = transactionsOf (reader.counted n).state accountId) :
    KeptUp (reader.fetched 0).state (reader.fetched n).state accountId (shownOn page (n + 1)) := by
  set rows : ℕ → List Transaction := fun k => transactionsOf (reader.fetched k).state accountId with hrows
  set arranged : ℕ → List Transaction := fun k => (orders k).apply (rows k) with harranged
  have hlength : ∀ k, (arranged k).length = (rows k).length := fun k => ((orders k).perm _).length_eq
  have hgrow : ∀ k, arranged k <:+ arranged (k + 1) := by
    intro k
    obtain ⟨-, hd, hnext⟩ := reader.grown hdated k
    obtain ⟨new, hnew, hnewer, hdistinct⟩ := hnext.transactionsOf hd accountId
    have hperm : (arranged (k + 1)).Perm (rows k ++ new) := hnew ▸ (orders (k + 1)).perm _
    exact Pages.suffix_of_newer ((orders k).sorted _) ((orders k).perm _) ((orders (k + 1)).sorted _) hperm hnewer
      hdistinct
  have hshown : shownOn page (n + 1) = (List.range (n + 1)).flatMap fun k => Pages.page limit k (arranged k) := by
    refine List.flatMap_congr fun k hk => ?_
    have hpage := listTransactionsAcross_page (hpages k (Nat.le_of_lt_succ (List.mem_range.mp hk)))
    exact congrArg TransactionPage.data hpage
  have hcount : ∀ k < n, (k + 1) * limit ≤ (arranged k).length := by
    intro k hk
    have hmore := hgoes k hk
    rw [listTransactionsAcross_page (hpages k hk.le)] at hmore
    obtain ⟨new, hnew⟩ := (reader.grown hdated k).1.transactions
    have hle : (transactionsOf (reader.counted k).state accountId).length ≤ (rows k).length := by
      rw [hrows]
      simp only [transactionsOf, ← hnew, List.filter_append, List.length_append]
      omega
    rw [hlength]
    exact (mul_le_of_lt_pagesOf hlimit (Nat.le_add_left 1 k) hmore).trans hle
  have hend : (arranged n).length ≤ (n + 1) * limit := by
    rw [listTransactionsAcross_page (hpages n le_rfl)] at hstops
    rw [hlength, hrows]
    simp only [hstill]
    exact (le_pagesOf hlimit).trans (Nat.mul_le_mul_right limit hstops)
  have hlast : n * limit ≤ (arranged n).length := by
    cases n with
    | zero => simp
    | succ n =>
      exact (hcount n (Nat.lt_succ_self n)).trans (hgrow n).length_le
  rw [hshown]
  refine ⟨fun t ht => ?_, fun t ht => ?_, ?_⟩
  · exact Pages.pages_of_growing hgrow hend (((orders 0).perm _).symm.subset ht)
  · exact ((orders n).perm _).subset (Pages.mem_of_shown hgrow ht)
  · rw [Pages.length_pages_of_growing hcount hlast hend, hlength]

/-- One account has two payments. -/
def twoPayments : Database := onePayment.after (receive quiet (samplePayment "R2" "9901" 5))

def thirdPayment : List (Move Call Err) :=
  .start (.receive quiet (samplePayment "R3" "9901" 5)) :: List.replicate 9 (.advance 0)

/-- The pool that the third payment leaves. -/
def paidThird : Pool Op Res Err Reply Tables Call :=
  ((Pool.init twoPayments.tables).play exec Call.handler thirdPayment).getD (Pool.init twoPayments.tables)

theorem Afterwards.refl (P : Pool Op Res Err Reply Tables Call) : Afterwards P P := ⟨[], trivial, rfl⟩

theorem afterwards_paidThird : Afterwards (Pool.init twoPayments.tables) paidThird := by
  have hplays : ((Pool.init twoPayments.tables).play exec Call.handler thirdPayment).isSome = true := by
    decide +kernel
  refine ⟨thirdPayment, meets_of_check_accounts (fun c hc => ?_) (by decide +kernel), ?_⟩
  · rw [List.mem_singleton.mp hc]
    trivial
  · obtain ⟨P, hP⟩ := Option.isSome_iff_exists.mp hplays
    rw [paidThird, hP]
    rfl

/-- The third payment comes between the first page and the second. -/
def readerOfTwo : Reader twoPayments where
  found k := if k = 0 then Pool.init twoPayments.tables else paidThird
  owned k := if k = 0 then Pool.init twoPayments.tables else paidThird
  counted k := if k = 0 then Pool.init twoPayments.tables else paidThird
  fetched k := if k = 0 then Pool.init twoPayments.tables else paidThird
  first := .refl _
  owns k := .refl _
  counts k := .refl _
  fetches k := .refl _
  turns k := by
    cases k with
    | zero => exact afterwards_paidThird
    | succ k => exact .refl _

/-- On pages of one, the reader meets the first payment it saw again on the second page. -/
theorem pages_keep_up_with_third : ∃ shown : List Transaction,
    KeptUp twoPayments.tables paidThird.state 1 shown ∧ shown.length = 3 := by
  obtain ⟨⟨account, customer⟩, hfor⟩ := exists_ok_of_isOk
    (x := accountFor twoPayments.tables 1 7) (by decide +kernel)
  obtain ⟨⟨account', customer'⟩, hfor'⟩ := exists_ok_of_isOk
    (x := accountFor paidThird.state 1 7) (by decide +kernel)
  have htwo : (transactionsOf twoPayments.tables 1).length = 2 := by decide +kernel
  have hthree : (transactionsOf paidThird.state 1).length = 3 := by decide +kernel
  have hdated : Dated twoPayments.tables := ⟨by decide +kernel, by decide +kernel⟩
  have hseen := pages_keep_up twoPayments hdated readerOfTwo (fun _ => newestFirst) 1 7 1 2 le_rfl
    (fun k => pageAcross newestFirst (transactionsOf (readerOfTwo.counted (k - 1)).state 1).length
      (transactionsOf (readerOfTwo.fetched (k - 1)).state 1) 1 (k - 1))
    (fun k hk => ?_) (fun k hk => ?_) ?_ rfl
  · refine ⟨_, hseen, ?_⟩
    rw [hseen.one_for_each]
    exact hthree
  · cases k with
    | zero => exact listTransactionsAcross_eq hfor
    | succ k => exact listTransactionsAcross_eq hfor'
  · have hpages : ∀ k < 2, k + 1 < pagesOf 1 (transactionsOf (readerOfTwo.counted k).state 1).length := by
      decide +kernel
    exact hpages k hk
  · show pagesOf 1 (transactionsOf paidThird.state 1).length ≤ 3
    rw [hthree]
    decide

end LdbBackend
