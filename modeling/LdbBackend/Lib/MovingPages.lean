import LdbBackend.Lib.Pages

/-!
# Pages of a list that grows at the front

The rows come newest first, so new rows push the others to later pages: between two pages `arranged k` becomes
a suffix of `arranged (k + 1)`. A row is then never skipped, since it only moves towards the pages that are still
to come (`pages_of_growing`). Each new row costs one repetition: in the end as many rows were shown as there are
(`length_pages_of_growing`).
-/

namespace Pages

section Suffix

variable {α β : Type} [LinearOrder β] {key : α → β} {rows new l l' : List α}

theorem exists_descending (key : α → β) (rows : List α) : ∃ l : List α, Descending key l ∧ l.Perm rows := by
  refine ⟨rows.mergeSort fun x y => decide (key y ≤ key x), ?_, List.mergeSort_perm rows _⟩
  refine (@List.pairwise_mergeSort _ (fun x y : α => decide (key y ≤ key x)) ?_ ?_ rows).imp of_decide_eq_true
  · intro x y z hxy hyz
    simp only [decide_eq_true_eq] at hxy hyz ⊢
    exact hyz.trans hxy
  · intro x y
    simp only [Bool.or_eq_true, decide_eq_true_eq]
    exact le_total _ _

/-- Rows with greater keys go to the front. -/
theorem suffix_of_newer (hl : Descending key l) (hp : l.Perm rows) (hl' : Descending key l')
    (hp' : l'.Perm (rows ++ new)) (hnewer : ∀ x ∈ rows, ∀ y ∈ new, key x < key y)
    (hdistinct : ((rows ++ new).map key).Nodup) : l <:+ l' := by
  obtain ⟨front, hfront, hpfront⟩ := exists_descending key new
  have hboth : Descending key (front ++ l) := by
    refine List.pairwise_append.mpr ⟨hfront, hl, fun y hy x hx => ?_⟩
    exact (hnewer x (hp.subset hx) y (hpfront.subset hy)).le
  have hperm : l'.Perm (front ++ l) :=
    hp'.trans (List.perm_append_comm.trans (hpfront.symm.append hp.symm))
  have heq : l' = front ++ l := by
    refine List.Perm.eq_of_pairwise (fun x y hx hy hyx hxy => ?_) hl' hboth hperm
    have hmem : ∀ z ∈ l', z ∈ rows ++ new := fun z hz => hp'.subset hz
    exact List.inj_on_of_nodup_map hdistinct (hmem x hx) (hmem y (hperm.symm.subset hy)) (hxy.antisymm hyx)
  exact ⟨front, heq.symm⟩

end Suffix

section Growing

variable {α : Type} {arranged : ℕ → List α} {limit n : ℕ} {x : α}

theorem suffix_of_le (hgrow : ∀ k, arranged k <:+ arranged (k + 1)) {m : ℕ} (h : m ≤ n) :
    arranged m <:+ arranged n := by
  induction n, h using Nat.le_induction with
  | base => exact List.suffix_refl _
  | succ n _ ih => exact ih.trans (hgrow n)

theorem mem_of_shown (hgrow : ∀ k, arranged k <:+ arranged (k + 1))
    (hx : x ∈ (List.range (n + 1)).flatMap fun k => page limit k (arranged k)) : x ∈ arranged n := by
  obtain ⟨k, hk, hx⟩ := List.mem_flatMap.mp hx
  have hle : k ≤ n := Nat.le_of_lt_succ (List.mem_range.mp hk)
  exact (suffix_of_le hgrow hle).subset (List.mem_of_mem_drop (List.mem_of_mem_take hx))

/-- A row that was there at first has been shown or is still to come. -/
theorem shown_or_later (hgrow : ∀ k, arranged k <:+ arranged (k + 1)) (hx : x ∈ arranged 0) :
    x ∈ ((List.range n).flatMap fun k => page limit k (arranged k)) ∨ x ∈ (arranged n).drop (n * limit) := by
  induction n with
  | zero => exact .inr (by simpa using hx)
  | succ n ih =>
    rw [List.range_succ, List.flatMap_append, List.mem_append]
    rcases ih with hshown | hlater
    · exact .inl (.inl hshown)
    · rw [← List.take_append_drop limit ((arranged n).drop (n * limit)), List.mem_append] at hlater
      rcases hlater with hpage | hrest
      · exact .inl (.inr (by simpa [page] using hpage))
      · obtain ⟨front, hfront⟩ := hgrow n
        refine .inr ?_
        rw [List.drop_drop, ← Nat.succ_mul] at hrest
        rw [← hfront, List.drop_append]
        exact List.mem_append_right _ (List.drop_subset_drop_left _ (Nat.sub_le _ _) hrest)

theorem pages_of_growing (hgrow : ∀ k, arranged k <:+ arranged (k + 1)) (hlast : (arranged n).length ≤ (n + 1) * limit)
    (hx : x ∈ arranged 0) : x ∈ (List.range (n + 1)).flatMap fun k => page limit k (arranged k) := by
  rw [List.range_succ, List.flatMap_append, List.mem_append]
  rcases shown_or_later hgrow hx with hshown | hlater
  · exact .inl hshown
  · refine .inr ?_
    have hrest : ((arranged n).drop (n * limit)).length ≤ limit := by
      rw [List.length_drop, Nat.sub_le_iff_le_add, Nat.add_comm, ← Nat.succ_mul]
      exact hlast
    simpa [page, List.take_of_length_le hrest] using hlater

/-- All pages but the last are full. -/
theorem length_pages_of_growing (hfull : ∀ k < n, (k + 1) * limit ≤ (arranged k).length)
    (hlast : n * limit ≤ (arranged n).length) (hend : (arranged n).length ≤ (n + 1) * limit) :
    ((List.range (n + 1)).flatMap fun k => page limit k (arranged k)).length = (arranged n).length := by
  have hbefore : ∀ m ≤ n, ((List.range m).flatMap fun k => page limit k (arranged k)).length = m * limit := by
    intro m hm
    induction m with
    | zero => simp
    | succ m ih =>
      rw [List.range_succ, List.flatMap_append, List.length_append, ih (by omega)]
      simp [page_full (hfull m hm), Nat.succ_mul]
  rw [List.range_succ, List.flatMap_append, List.length_append, hbefore n le_rfl, List.flatMap_singleton, page,
    List.length_take, List.length_drop]
  rw [Nat.succ_mul] at hend
  omega

end Growing

end Pages
