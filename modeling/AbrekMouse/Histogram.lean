import Mathlib.Data.List.Sort
import Mathlib.Algebra.BigOperators.Group.List.Basic
import Mathlib.Algebra.GroupWithZero.Nat

/-! # Histograms and order statistics

The `k`-th smallest of some samples, and the bin in which a histogram of them counts up to `k`.
A sample below an edge is one of those that the bins before the edge count (`sum_take_counts`),
and the `k`-th smallest is below an edge exactly if at least `k` samples are
(`orderStatistic_lt_iff`).  So the bin that is found is the bin of the `k`-th smallest.
-/
namespace ProgLib

/-- The bin, from `i` on, in which the count from `cum` on reaches the target. -/
def cumulativeBin (target : ℕ) : List ℕ → ℕ → ℕ → Option ℕ
  | [], _, _ => none
  | h :: hs, i, cum =>
      if target ≤ cum + h then some i else cumulativeBin target hs (i + 1) (cum + h)

/-- The `k`-th smallest, from one on. -/
def orderStatistic {α : Type} [LinearOrder α] (xs : List α) (k : ℕ) : Option α :=
  (xs.insertionSort (· ≤ ·))[k - 1]?

section
variable {target : ℕ}

/-- The bin that is found is the first one that reaches the target. -/
theorem cumulativeBin_eq_some : ∀ {hs : List ℕ} {i cum b : ℕ}, cum < target →
    cumulativeBin target hs i cum = some b →
    ∃ j < hs.length, b = i + j ∧ cum + (hs.take j).sum < target ∧
      target ≤ cum + (hs.take (j + 1)).sum
  | [], _, _, _, _, h => by cases h
  | h :: hs, i, cum, b, hcum, hb => by
      unfold cumulativeBin at hb
      split_ifs at hb with hreach
      · obtain rfl := Option.some.inj hb
        refine ⟨0, Nat.succ_pos _, rfl, ?_, ?_⟩
        · simpa using hcum
        · simpa using hreach
      · obtain ⟨j, hj, rfl, hbelow, hat⟩ := cumulativeBin_eq_some (by omega) hb
        refine ⟨j + 1, Nat.succ_lt_succ hj, by omega, ?_, ?_⟩
        · rw [List.take_succ_cons, List.sum_cons]
          omega
        · rw [List.take_succ_cons, List.sum_cons]
          omega

/-- No bin is found if they all together do not reach it. -/
theorem cumulativeBin_eq_none : ∀ {hs : List ℕ} {i cum : ℕ}, cum < target →
    (cumulativeBin target hs i cum = none ↔ cum + hs.sum < target)
  | [], _, _, hcum => iff_of_true rfl (by simpa using hcum)
  | h :: hs, i, cum, hcum => by
      unfold cumulativeBin
      rw [List.sum_cons]
      split_ifs with hreach
      · exact iff_of_false nofun (by omega)
      · rw [cumulativeBin_eq_none (by omega)]
        omega

end

section
variable {α : Type} {xs : List α}

theorem countP_lt_succ (bin : α → ℕ) (j : ℕ) (xs : List α) :
    xs.countP (bin · < j + 1) = xs.countP (bin · < j) + xs.countP (bin · = j) := by
  induction xs with
  | nil => rfl
  | cons x xs ih =>
      rw [List.countP_cons, List.countP_cons, List.countP_cons, ih]
      simp only [decide_eq_true_eq]
      split_ifs <;> omega

/-- **The bins before an edge** count the samples in them. -/
theorem sum_take_counts (bin : α → ℕ) (xs : List α) {n : ℕ} : ∀ {j : ℕ}, j ≤ n →
    (((List.range n).map fun b => xs.countP (bin · = b)).take j).sum = xs.countP (bin · < j)
  | 0, _ => by simp
  | j + 1, hj => by
      have hbelow := sum_take_counts bin xs (Nat.le_of_succ_le hj)
      rw [List.take_add_one, List.sum_append, hbelow, countP_lt_succ, List.getElem?_map,
        List.getElem?_range hj]
      simp

/-- One more sample in a bin. -/
theorem modify_counts (bin : α → ℕ) (xs : List α) (x : α) (n : ℕ) :
    ((List.range n).map fun b => xs.countP (bin · = b)).modify (bin x) (· + 1) =
      (List.range n).map fun b => (xs ++ [x]).countP (bin · = b) := by
  refine List.ext_getElem (by simp) fun b _ _ => ?_
  rw [List.getElem_modify, List.getElem_map, List.getElem_map, List.getElem_range,
    List.countP_append, List.countP_singleton]
  simp only [decide_eq_true_eq]
  split_ifs <;> rfl

end

section
variable {α : Type} [LinearOrder α]

theorem sorted_getElem_lt_iff {t : α} : ∀ {ys : List α}, ys.Pairwise (· ≤ ·) →
    ∀ (j : ℕ) (hj : j < ys.length), ys[j] < t ↔ j < ys.countP (· < t)
  | [], _, j, hj => absurd hj (Nat.not_lt_zero j)
  | y :: ys, hsorted, j, hj => by
      obtain ⟨hfirst, hrest⟩ := List.pairwise_cons.mp hsorted
      have hnone : ¬y < t → ys.countP (· < t) = 0 := by
        intro hy
        rw [List.countP_eq_zero]
        intro z hz hlt
        exact hy ((hfirst z hz).trans_lt (of_decide_eq_true hlt))
      rw [List.countP_cons]
      cases j with
      | zero =>
          rw [List.getElem_cons_zero]
          by_cases hy : y < t
          · exact iff_of_true hy (by simp [hy])
          · exact iff_of_false hy (by simp [hy, hnone hy])
      | succ j =>
          have hj' : j < ys.length := Nat.lt_of_succ_lt_succ hj
          have ih := sorted_getElem_lt_iff (t := t) hrest j hj'
          rw [List.getElem_cons_succ, ih]
          by_cases hy : y < t
          · simp [hy]
          · simp [hy, hnone hy]

variable {xs : List α} {k : ℕ} {y t : α}

/-- **The `k`-th smallest is below an edge exactly if `k` samples are.** -/
theorem orderStatistic_lt_iff (hk : 0 < k) (h : orderStatistic xs k = some y) :
    y < t ↔ k ≤ xs.countP (· < t) := by
  obtain ⟨hlt, rfl⟩ := List.getElem?_eq_some_iff.mp h
  rw [sorted_getElem_lt_iff (List.pairwise_insertionSort _ _),
    (List.perm_insertionSort (· ≤ ·) xs).countP_eq]
  omega

theorem orderStatistic_mem (h : orderStatistic xs k = some y) : y ∈ xs :=
  (List.perm_insertionSort (· ≤ ·) xs).mem_iff.mp (List.mem_of_getElem? h)

/-- The last one is the largest. -/
theorem le_orderStatistic_length (h : orderStatistic xs xs.length = some y) {x : α}
    (hx : x ∈ xs) : x ≤ y := by
  by_contra hlt
  have hpos : 0 < xs.length := List.length_pos_of_mem hx
  have hall := (orderStatistic_lt_iff hpos h).mp (lt_of_not_ge hlt)
  have heq : xs.countP (· < x) = xs.length := Nat.le_antisymm List.countP_le_length hall
  exact absurd (of_decide_eq_true (List.countP_eq_length.mp heq x hx)) (lt_irrefl x)

/-! ## The largest and the smallest -/

theorem foldl_max_spec : ∀ {xs : List α} {a : α}, a ≤ xs.foldl max a ∧
    (∀ x ∈ xs, x ≤ xs.foldl max a) ∧ (xs.foldl max a = a ∨ xs.foldl max a ∈ xs)
  | [], a => ⟨le_refl a, nofun, .inl rfl⟩
  | x :: xs, a => by
      obtain ⟨hstart, hall, hmem⟩ : max a x ≤ xs.foldl max (max a x) ∧ _ := foldl_max_spec
      refine ⟨(le_max_left a x).trans hstart, ?_, ?_⟩
      · intro y hy
        rcases List.mem_cons.mp hy with rfl | hy
        · exact (le_max_right a y).trans hstart
        · exact hall y hy
      · rw [List.foldl_cons]
        rcases hmem with hmem | hmem
        · rw [hmem]
          rcases le_total a x with hle | hle
          · rw [max_eq_right hle]
            exact .inr List.mem_cons_self
          · exact .inl (max_eq_left hle)
        · exact .inr (List.mem_cons_of_mem x hmem)

theorem foldl_min_le : ∀ {xs : List α} {a : α}, xs.foldl min a ≤ a ∧
    ∀ x ∈ xs, xs.foldl min a ≤ x
  | [], a => ⟨le_refl a, nofun⟩
  | x :: xs, a => by
      obtain ⟨hstart, hall⟩ : xs.foldl min (min a x) ≤ min a x ∧ _ := foldl_min_le
      refine ⟨hstart.trans (min_le_left a x), ?_⟩
      intro y hy
      rcases List.mem_cons.mp hy with rfl | hy
      · exact hstart.trans (min_le_right a y)
      · exact hall y hy

end
end ProgLib
