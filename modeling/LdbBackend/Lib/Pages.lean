import Mathlib.Data.List.Perm.Basic
import Mathlib.Data.List.Sort
import Mathlib.Order.Basic

/-!
# Pages of a list in descending order

`page limit k l` is page `k`, counted from zero, of `l`. Each page may come from its own arrangement of
the same rows, as long as the arrangements descend by a key: rows of one key then stand in any order
among themselves, but at the same indices (`key_of_index`). So the rows before a page boundary are the
same in all arrangements unless the boundary cuts through the rows of one key (`Cuts`), and in that case
two arrangements show one of these rows on both sides of it.
-/

namespace Pages

section Page

variable {α : Type} {l : List α} {limit n k : ℕ}

/-- Page `k`, counted from zero, with `limit` rows on a page. -/
def page (limit k : ℕ) (l : List α) : List α := (l.drop (k * limit)).take limit

theorem flatMap_pages (limit n : ℕ) (l : List α) :
    (List.range n).flatMap (fun k => page limit k l) = l.take (n * limit) := by
  induction n with
  | zero => simp
  | succ n ih =>
    rw [List.range_succ, List.flatMap_append, ih, Nat.succ_mul, List.take_add]
    simp [page]

theorem page_add (limit j k : ℕ) (l : List α) : page limit (j + k) l = page limit k (l.drop (j * limit)) := by
  unfold page
  rw [List.drop_drop, Nat.add_mul]

theorem page_full (h : (k + 1) * limit ≤ l.length) : (page limit k l).length = limit := by
  rw [Nat.succ_mul] at h
  unfold page
  rw [List.length_take, List.length_drop]
  omega

theorem page_empty (h : l.length ≤ k * limit) : page limit k l = [] := by
  unfold page
  rw [List.drop_eq_nil_of_le h, List.take_nil]

/-- What precedes a page, followed by the page. -/
theorem take_page (limit k : ℕ) (l : List α) :
    l.take (k * limit) ++ page limit k l = l.take ((k + 1) * limit) := by
  rw [Nat.succ_mul, List.take_add, page]

end Page

section Key

variable {α β : Type} [LinearOrder β] (key : α → β)

/-- Greatest key first. -/
def Descending (l : List α) : Prop := l.Pairwise fun x y => key y ≤ key x

/-- How many rows come before the rows of the key `b`. -/
def above (rows : List α) (b : β) : ℕ := rows.countP fun y => decide (b < key y)

/-- How many rows come before the rows below the key `b`. -/
def upTo (rows : List α) (b : β) : ℕ := rows.countP fun y => decide (b ≤ key y)

/-- The boundary after the first `m` rows lies between rows of one key. -/
def Cuts (rows : List α) (m : ℕ) : Prop := ∃ x ∈ rows, above key rows (key x) < m ∧ m < upTo key rows (key x)

instance (rows : List α) (m : ℕ) : Decidable (Cuts key rows m) := List.decidableBEx _ _

variable {key} {rows l l' pre post : List α} {x z : α} {b : β} {m : ℕ}

theorem above_perm (h : l.Perm rows) : above key l b = above key rows b := h.countP_eq _

theorem upTo_perm (h : l.Perm rows) : upTo key l b = upTo key rows b := h.countP_eq _

/-- In descending order the rows above the key of a row stand before it. -/
theorem above_le_index (hl : Descending key (pre ++ z :: post)) : above key (pre ++ z :: post) (key z) ≤ pre.length := by
  obtain ⟨-, htail, -⟩ := List.pairwise_append.mp hl
  have hnone : (z :: post).countP (fun y => decide (key z < key y)) = 0 := by
    rw [List.countP_eq_zero]
    intro y hy
    rw [decide_eq_true_eq, not_lt]
    rcases List.mem_cons.mp hy with rfl | hmem
    · exact le_rfl
    · exact List.rel_of_pairwise_cons htail hmem
  rw [above, List.countP_append, hnone, Nat.add_zero]
  exact List.countP_le_length

/-- And the rows before it have no smaller key. -/
theorem index_lt_upTo (hl : Descending key (pre ++ z :: post)) : pre.length < upTo key (pre ++ z :: post) (key z) := by
  obtain ⟨-, -, hcross⟩ := List.pairwise_append.mp hl
  have hall : pre.countP (fun y => decide (key z ≤ key y)) = pre.length := by
    rw [List.countP_eq_length]
    intro y hy
    exact decide_eq_true (hcross y hy z List.mem_cons_self)
  have hself : 0 < (z :: post).countP fun y => decide (key z ≤ key y) :=
    List.countP_pos_iff.mpr ⟨z, List.mem_cons_self, decide_eq_true le_rfl⟩
  rw [upTo, List.countP_append, hall]
  omega

/-- A row whose index lies among those of the key `b` has that key. -/
theorem key_of_index (hl : Descending key (pre ++ z :: post))
    (hlow : above key (pre ++ z :: post) b ≤ pre.length) (hhigh : pre.length < upTo key (pre ++ z :: post) b) :
    key z = b := by
  have hsome := index_lt_upTo hl
  have hmost := above_le_index hl
  rcases lt_trichotomy (key z) b with hlt | heq | hgt
  · -- every row from `b` on is above `z`
    have hle : upTo key (pre ++ z :: post) b ≤ above key (pre ++ z :: post) (key z) := by
      refine List.countP_mono_left fun y _ hy => ?_
      exact decide_eq_true (lt_of_lt_of_le hlt (of_decide_eq_true hy))
    omega
  · exact heq
  · have hle : upTo key (pre ++ z :: post) (key z) ≤ above key (pre ++ z :: post) b := by
      refine List.countP_mono_left fun y _ hy => ?_
      exact decide_eq_true (lt_of_lt_of_le hgt (of_decide_eq_true hy))
    omega

theorem take_eq_filter (hl : Descending key l) (hp : l.Perm rows) (hcut : ¬ Cuts key rows m) :
    l.take m = l.filter fun y => decide (above key rows (key y) < m) := by
  have hsplit : ∀ {pre post : List α} {y : α}, l = pre ++ y :: post →
      (above key rows (key y) < m ↔ pre.length < m) := by
    rintro pre post y rfl
    have hmem : y ∈ rows := hp.subset (by simp)
    have hlow := above_le_index hl
    have hhigh := index_lt_upTo hl
    rw [above_perm hp] at hlow
    rw [upTo_perm hp] at hhigh
    constructor
    · intro habove
      by_contra hlate
      exact hcut ⟨y, hmem, habove, by omega⟩
    · intro hearly
      omega
  have hfront : ∀ y ∈ l.take m, decide (above key rows (key y) < m) = true := by
    intro y hy
    obtain ⟨s, t, hst⟩ := List.append_of_mem hy
    have hwhole : l = s ++ y :: (t ++ l.drop m) := by
      rw [← List.cons_append, ← List.append_assoc, ← hst, List.take_append_drop]
    refine decide_eq_true ((hsplit hwhole).mpr ?_)
    have hlength := congrArg List.length hst
    rw [List.length_take, List.length_append, List.length_cons] at hlength
    omega
  have hback : ∀ y ∈ l.drop m, ¬ decide (above key rows (key y) < m) = true := by
    intro y hy habove
    obtain ⟨s, t, hst⟩ := List.append_of_mem hy
    have hwhole : l = (l.take m ++ s) ++ y :: t := by
      rw [List.append_assoc, ← hst, List.take_append_drop]
    have hearly := (hsplit hwhole).mp (of_decide_eq_true habove)
    have hnonempty : 0 < (l.drop m).length := List.length_pos_of_mem hy
    rw [List.length_append, List.length_take] at hearly
    rw [List.length_drop] at hnonempty
    omega
  conv_rhs => rw [← List.take_append_drop m l]
  rw [List.filter_append, List.filter_eq_self.mpr hfront, List.filter_eq_nil_iff.mpr hback, List.append_nil]

/-- The rows before a boundary that cuts through no key are the same in all arrangements. -/
theorem take_perm (hl : Descending key l) (hl' : Descending key l') (hp : l.Perm rows) (hp' : l'.Perm rows)
    (hcut : ¬ Cuts key rows m) : (l.take m).Perm (l'.take m) := by
  rw [take_eq_filter hl hp hcut, take_eq_filter hl' hp' hcut]
  exact (hp.trans hp'.symm).filter _

/-- A boundary that cuts through a key lies between two neighbours of one key. -/
theorem neighbours_of_cuts (hl : Descending key l) (hp : l.Perm rows) (hcut : Cuts key rows m) :
    ∃ pre x y post, l = pre ++ x :: y :: post ∧ pre.length + 1 = m ∧ key x = key y := by
  obtain ⟨z, -, hlow, hhigh⟩ := hcut
  rw [← above_perm hp] at hlow
  rw [← upTo_perm hp] at hhigh
  have hlength : upTo key l (key z) ≤ l.length := List.countP_le_length
  obtain ⟨x, y, post, hdrop⟩ : ∃ x y post, l.drop (m - 1) = x :: y :: post := by
    match h : l.drop (m - 1) with
    | [] | [_] =>
      have hshort := congrArg List.length h
      simp only [List.length_drop, List.length_nil, List.length_singleton] at hshort
      omega
    | x :: y :: post => exact ⟨x, y, post, rfl⟩
  have hwhole : l = l.take (m - 1) ++ x :: y :: post := by
    rw [← hdrop, List.take_append_drop]
  have hpre : (l.take (m - 1)).length = m - 1 := by
    rw [List.length_take]
    omega
  refine ⟨l.take (m - 1), x, y, post, hwhole, by omega, ?_⟩
  have hx : key x = key z := by
    rw [hwhole] at hl hlow hhigh
    exact key_of_index hl (by omega) (by omega)
  have hy : key y = key z := by
    have hnext : l = (l.take (m - 1) ++ [x]) ++ y :: post := by
      rw [List.append_assoc]
      exact hwhole
    have hindex : (l.take (m - 1) ++ [x]).length = m := by
      rw [List.length_append, List.length_singleton]
      omega
    rw [hnext] at hl hlow hhigh
    exact key_of_index hl (by omega) (by omega)
  rw [hx, hy]

/-- Two neighbours of one key can change places. -/
theorem Descending.swap {y : α} (hl : Descending key (pre ++ x :: y :: post)) (h : key x = key y) :
    Descending key (pre ++ y :: x :: post) := by
  unfold Descending at hl ⊢
  simp only [List.pairwise_append, List.pairwise_cons, List.mem_cons, forall_eq_or_imp] at hl ⊢
  obtain ⟨hpre, ⟨⟨hxy, hx⟩, hy, hpost⟩, hcross⟩ := hl
  refine ⟨hpre, ⟨⟨h.le, hy⟩, hx, hpost⟩, fun z hz => ?_⟩
  obtain ⟨hzx, hzy, hz⟩ := hcross z hz
  exact ⟨hzy, hzx, hz⟩

/-- All arrangements show the same keys. -/
theorem map_key_eq (hl : Descending key l) (hl' : Descending key l') (hp : l.Perm l') :
    l.map key = l'.map key := by
  have hsorted : ∀ {l : List α}, Descending key l → (l.map key).Pairwise (· ≥ ·) := fun h => List.pairwise_map.mpr h
  exact (hp.map key).eq_of_pairwise' (hsorted hl) (hsorted hl')

/-! ## Every page from its own arrangement -/

variable {arranged : ℕ → List α} {limit n j k : ℕ}

theorem page_perm (hl : Descending key l) (hl' : Descending key l') (hp : l.Perm rows) (hp' : l'.Perm rows)
    (hstart : ¬ Cuts key rows (k * limit)) (hend : ¬ Cuts key rows ((k + 1) * limit)) :
    (page limit k l).Perm (page limit k l') := by
  have hbefore := take_perm hl hl' hp hp' hstart
  have hthrough := take_perm hl hl' hp hp' hend
  rw [← take_page, ← take_page] at hthrough
  rw [← List.perm_append_left_iff (l'.take (k * limit))]
  exact (hbefore.symm.append_right _).trans hthrough

/-- Where no boundary cuts through a key, the pages together show every row as often as it is there. -/
theorem pages_perm (hl : ∀ k, Descending key (arranged k)) (hp : ∀ k, (arranged k).Perm rows)
    (hcuts : ∀ k, ¬ Cuts key rows (k * limit)) (hn : rows.length ≤ n * limit) :
    ((List.range n).flatMap fun k => page limit k (arranged k)).Perm rows := by
  have hpages : ((List.range n).flatMap fun k => page limit k (arranged k)).Perm
      ((List.range n).flatMap fun k => page limit k (arranged 0)) := by
    refine List.Perm.flatMap_left _ fun k _ => ?_
    exact page_perm (hl k) (hl 0) (hp k) (hp 0) (hcuts k) (hcuts (k + 1))
  rw [flatMap_pages, List.take_of_length_le ((hp 0).length_eq ▸ hn)] at hpages
  exact hpages.trans (hp 0)

/-- In any case they descend. -/
theorem pages_descending (hl : ∀ k, Descending key (arranged k)) (hp : ∀ k, (arranged k).Perm rows) :
    Descending key ((List.range n).flatMap fun k => page limit k (arranged k)) := by
  have hkeys : ((List.range n).flatMap fun k => page limit k (arranged k)).map key =
      ((arranged 0).take (n * limit)).map key := by
    rw [← flatMap_pages, List.map_flatMap, List.map_flatMap]
    congr 1
    funext k
    unfold page
    rw [List.map_take, List.map_drop, List.map_take, List.map_drop,
      map_key_eq (hl k) (hl 0) ((hp k).trans (hp 0).symm)]
  have hfirst : (((arranged 0).take (n * limit)).map key).Pairwise (· ≥ ·) :=
    List.pairwise_map.mpr ((hl 0).sublist (List.take_sublist _ _))
  rw [← hkeys] at hfirst
  exact List.pairwise_map.mp hfirst

/-- Where a boundary cuts through a key, two arrangements between them repeat a row and lose another. -/
theorem exists_repeating (hl : Descending key l) (hp : l.Perm rows) (hnodup : rows.Nodup)
    (hcut : Cuts key rows (j * limit)) : ∃ l', Descending key l' ∧ l'.Perm rows ∧
      ∀ n, rows.length ≤ n * limit →
        ¬ ((List.range n).flatMap fun k => page limit k (if k < j then l else l')).Perm rows := by
  obtain ⟨pre, x, y, post, rfl, hpre, hxy⟩ := neighbours_of_cuts hl hp hcut
  refine ⟨pre ++ y :: x :: post, hl.swap hxy, ?_, ?_⟩
  · exact ((List.Perm.swap x y post).append_left pre).trans hp
  · intro n hn hperm
    have hlength : pre.length + 2 + post.length ≤ n * limit := by
      rw [← hp.length_eq, List.length_append, List.length_cons, List.length_cons] at hn
      omega
    obtain ⟨r, rfl⟩ : ∃ r, n = j + r := by
      refine Nat.exists_eq_add_of_le (Nat.le_of_lt ?_)
      exact Nat.lt_of_mul_lt_mul_right (a := limit) (by omega)
    have hfront : ((List.range j).flatMap fun k =>
        page limit k (if k < j then pre ++ x :: y :: post else pre ++ y :: x :: post)) = pre ++ [x] := by
      have hsame : ((List.range j).flatMap fun k =>
          page limit k (if k < j then pre ++ x :: y :: post else pre ++ y :: x :: post)) =
            (List.range j).flatMap fun k => page limit k (pre ++ x :: y :: post) := by
        refine List.flatMap_congr fun k hk => ?_
        rw [if_pos (List.mem_range.mp hk)]
      rw [hsame, flatMap_pages, ← hpre, List.take_append, List.take_of_length_le (Nat.le_succ _),
        Nat.add_sub_cancel_left]
      rfl
    have hback : ((List.range r).map (j + ·)).flatMap (fun k =>
        page limit k (if k < j then pre ++ x :: y :: post else pre ++ y :: x :: post)) = x :: post := by
      have hsame : ((List.range r).map (j + ·)).flatMap (fun k =>
          page limit k (if k < j then pre ++ x :: y :: post else pre ++ y :: x :: post)) =
            (List.range r).flatMap fun k => page limit k (x :: post) := by
        rw [List.flatMap_map]
        refine List.flatMap_congr fun k _ => ?_
        have hdrop : (pre ++ y :: x :: post).drop (j * limit) = x :: post := by
          rw [← hpre, List.drop_append, List.drop_eq_nil_of_le (Nat.le_succ _), Nat.add_sub_cancel_left]
          rfl
        rw [if_neg (by omega), page_add, hdrop]
      have hrest : (x :: post).length ≤ r * limit := by
        rw [Nat.add_mul] at hlength
        rw [List.length_cons]
        omega
      rw [hsame, flatMap_pages, List.take_of_length_le hrest]
    rw [List.range_add, List.flatMap_append, hfront, hback, List.append_assoc] at hperm
    -- the row before the boundary is shown again, in place of the row after it
    have hrepeated : (x :: x :: post).Perm (x :: y :: post) :=
      (List.perm_append_left_iff pre).mp (hperm.trans hp.symm)
    have htwice : (x :: x :: post).Nodup := by
      have hwhole : (pre ++ x :: y :: post).Nodup := hp.nodup_iff.mpr hnodup
      exact hrepeated.nodup_iff.mpr (List.nodup_append.mp hwhole).2.1
    exact (List.nodup_cons.mp htwice).1 List.mem_cons_self

end Key

end Pages
