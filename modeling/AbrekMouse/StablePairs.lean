import AbrekMouse.PairSort
import Mathlib.Data.List.Perm.Basic

/-! # Stability of the pair sort

The pairs of a table as a list.  One pass takes a pair out of the list and puts it back before
some pairs, each with a larger key (`pairs_insertPair`).  So the sort permutes the pairs, and
pairs with the same key stay in their order.
-/
namespace ProgLib.PairSort
variable {α : Type} [Inhabited α] {N n i : ℕ} {d : Vector α N}

/-- The first `n` pairs. -/
def pairs (n : ℕ) (d : Vector α N) : List (α × α) := (List.range n).map (getPair d)

/-- The pairs from `m` on. -/
def segment (m len : ℕ) (d : Vector α N) : List (α × α) := (List.range' m len).map (getPair d)

theorem segment_append (m k l : ℕ) (d : Vector α N) :
    segment m (k + l) d = segment m k d ++ segment (m + k) l d := by
  unfold segment
  rw [← List.map_append, List.range'_append_1]

theorem segment_succ (m l : ℕ) (d : Vector α N) :
    segment m (l + 1) d = getPair d m :: segment (m + 1) l d := by
  unfold segment
  rw [List.range'_succ, List.map_cons]

theorem pairs_eq_segment (n : ℕ) (d : Vector α N) : pairs n d = segment 0 n d := by
  unfold pairs segment
  rw [List.range_eq_range']

theorem segment_congr {m l k : ℕ} {e : Vector α N}
    (h : ∀ j < l, getPair d (m + j) = getPair e (k + j)) : segment m l d = segment k l e := by
  unfold segment
  refine List.ext_getElem (by simp) fun j hj _ => ?_
  rw [List.length_map, List.length_range'] at hj
  rw [List.getElem_map, List.getElem_map, List.getElem_range', List.getElem_range', Nat.one_mul]
  exact h j hj

variable [LT α] [DecidableLT α]

/-- The pair has the key: neither is before the other. -/
def Ties (k : α) (p : α × α) : Prop := ¬p.1 < k ∧ ¬k < p.1

instance (k : α) (p : α × α) : Decidable (Ties k p) := inferInstanceAs (Decidable (_ ∧ _))

/-- **One pass on the list**: the pair goes before some pairs, and their keys are larger. -/
theorem pairs_insertPair (d : Vector α N) (hi : 2 * i + 1 < N) (hn : i < n) :
    ∃ before larger after, pairs n d = before ++ (larger ++ getPair d i :: after) ∧
      pairs n (insertPair d i) = before ++ getPair d i :: (larger ++ after) ∧
      ∀ q ∈ larger, (getPair d i).1 < q.1 := by
  obtain ⟨m, hm, hget, hlarger, -⟩ := insertPair_spec d hi
  obtain ⟨k, rfl⟩ := Nat.exists_eq_add_of_le hm
  obtain ⟨l, rfl⟩ := Nat.exists_eq_add_of_lt hn
  refine ⟨segment 0 m d, segment m k d, segment (m + k + 1) l d, ?_, ?_, ?_⟩
  · rw [pairs_eq_segment, show m + k + l + 1 = m + (k + (l + 1)) by omega, segment_append,
      segment_append, segment_succ, Nat.zero_add]
  · have hbefore : segment 0 m (insertPair d (m + k)) = segment 0 m d := by
      refine segment_congr fun j hj => ?_
      rw [hget, if_neg (by omega), if_neg (by omega)]
    have hshifted : segment (m + 1) k (insertPair d (m + k)) = segment m k d := by
      refine segment_congr fun j hj => ?_
      rw [hget, if_neg (by omega), if_pos (by omega)]
      exact congrArg (getPair d) (by omega)
    have hafter : segment (m + 1 + k) l (insertPair d (m + k)) = segment (m + k + 1) l d := by
      refine segment_congr fun j hj => ?_
      rw [hget, if_neg (by omega), if_neg (by omega)]
      exact congrArg (getPair d) (by omega)
    rw [pairs_eq_segment, show m + k + l + 1 = m + (k + l + 1) by omega, segment_append,
      segment_succ, Nat.zero_add, segment_append, hbefore, hshifted, hafter, hget, if_pos rfl]
  · intro q hq
    obtain ⟨j, hj, rfl⟩ := List.mem_map.mp hq
    obtain ⟨hle, hlt⟩ := List.mem_range'_1.mp hj
    exact hlarger j hle hlt

theorem perm_insertPair (d : Vector α N) (hi : 2 * i + 1 < N) (hn : i < n) :
    (pairs n (insertPair d i)).Perm (pairs n d) := by
  obtain ⟨before, larger, after, hd, hinserted, -⟩ := pairs_insertPair d hi hn
  rw [hd, hinserted]
  exact (List.perm_middle.symm).append_left before

/-- A pair with the key does not pass another one with it. -/
theorem filter_insertPair {P : α → Prop} (hP : WeakOrderOn P) {k : α} (hk : P k)
    (hi : 2 * i + 1 < N) (hn : i < n) (hkeys : ∀ p ∈ pairs n d, P p.1) :
    (pairs n (insertPair d i)).filter (Ties k ·) = (pairs n d).filter (Ties k ·) := by
  obtain ⟨before, larger, after, hd, hinserted, hlarger⟩ := pairs_insertPair d hi hn
  rw [hd] at hkeys
  rw [hd, hinserted, List.filter_append, List.filter_append, List.filter_cons, List.filter_append,
    List.filter_append, List.filter_cons]
  split_ifs with hties
  · -- then no larger pair has it
    have hnone : larger.filter (Ties k ·) = [] := by
      refine List.filter_eq_nil_iff.mpr fun q hq hqties => ?_
      have hties := of_decide_eq_true hties
      have hqties := of_decide_eq_true hqties
      have hPp : P (getPair d i).1 := hkeys _ (by simp)
      have hPq : P q.1 := hkeys q (by simp [hq])
      exact hP.trans hPq hk hPp hqties.2 hties.1 (hlarger q hq)
    rw [hnone, List.nil_append, List.nil_append]
  · rfl

omit [DecidableLT α] in
/-- The keys of the pairs are in ascending order. -/
theorem sorted_iff_pairwise : Sorted n d ↔ (pairs n d).Pairwise fun p q => ¬q.1 < p.1 := by
  unfold pairs
  rw [List.pairwise_map, List.pairwise_iff_getElem]
  simp only [List.length_range, List.getElem_range]
  exact ⟨fun h i j _ hj hij => h i j hij hj, fun h i j hij hj => h i j (by omega) hj hij⟩

/-- **The sort is stable**: it permutes the pairs, and those with one key stay in their order. -/
theorem sortPairs_stable {P : α → Prop} (hP : WeakOrderOn P) (hn : 2 * n ≤ N)
    (hkeys : ∀ p ∈ pairs n d, P p.1) :
    (pairs n (sortPairs n d)).Perm (pairs n d) ∧
      ∀ k, P k → (pairs n (sortPairs n d)).filter (Ties k ·) = (pairs n d).filter (Ties k ·) := by
  rcases Nat.eq_zero_or_pos n with rfl | hpos
  · exact ⟨.refl _, fun _ _ => rfl⟩
  · refine sortPairs_induction (fun _ e => (pairs n e).Perm (pairs n d) ∧
      ∀ k, P k → (pairs n e).filter (Ties k ·) = (pairs n d).filter (Ties k ·)) ?_ ?_ hpos
    · exact ⟨.refl _, fun _ _ => rfl⟩
    · rintro i e - hi ⟨hperm, hfilter⟩
      refine ⟨(perm_insertPair e (by omega) hi).trans hperm, fun k hk => ?_⟩
      rw [← hfilter k hk]
      exact filter_insertPair hP hk (by omega) hi fun p hp => hkeys p (hperm.mem_iff.mp hp)

end ProgLib.PairSort
