import Mathlib.Data.List.Induction
import Mathlib.Data.List.Sort

/-! # Insertion sort in place

The textbook loops over an array, here a list whose elements are set one at a time: the inner
loop moves the larger elements up and sets the key where they end (`shiftDown`), the outer one
takes each element in turn.  What comes out is the sorted list (`insertionSortInPlace_eq`).
-/
namespace ProgLib
variable {α : Type} [LinearOrder α]

/-- The inner loop, from the place that the key was taken from. -/
def shiftDown (key : α) : ℕ → List α → List α
  | 0, xs => xs.set 0 key
  | j + 1, xs =>
      let x := xs.getD j key
      if x > key then shiftDown key j (xs.set (j + 1) x) else xs.set (j + 1) key

/-- One round of the outer loop. -/
def insertAt (xs : List α) (k : ℕ) : List α :=
  match xs[k]? with
  | some key => shiftDown key k xs
  | none => xs

def insertionSortInPlace (xs : List α) : List α :=
  (List.range' 1 (xs.length - 1)).foldl insertAt xs

omit [LinearOrder α] in
theorem set_append_length (xs : List α) (y z : α) (rest : List α) :
    (xs ++ y :: rest).set xs.length z = xs ++ z :: rest := by
  rw [List.set_append_right _ _ le_rfl, Nat.sub_self, List.set_cons_zero]

/-- Behind a sorted part the key is moved to its place in it, and the rest stays. -/
theorem shiftDown_spec (key : α) (xs : List α) : ∀ (y : α) (rest : List α),
    xs.Pairwise (· ≤ ·) → ∃ zs, shiftDown key xs.length (xs ++ y :: rest) = zs ++ rest ∧
      zs.Perm (key :: xs) ∧ zs.Pairwise (· ≤ ·) := by
  induction xs using List.reverseRecOn with
  | nil => exact fun y rest _ => ⟨[key], rfl, .refl _, List.pairwise_singleton _ _⟩
  | append_singleton xs x ih =>
      intro y rest hsorted
      obtain ⟨hxs, -, hlast⟩ := List.pairwise_append.mp hsorted
      have hle : ∀ z ∈ xs, z ≤ x := fun z hz => hlast z hz x (List.mem_singleton.mpr rfl)
      have hlength : (xs ++ [x]).length = xs.length + 1 := List.length_append
      have hhead : (xs ++ [x] ++ y :: rest).getD xs.length key = x := by
        simp
      have hset : ∀ z, (xs ++ [x] ++ y :: rest).set (xs.length + 1) z = xs ++ x :: z :: rest := by
        intro z
        rw [← hlength, set_append_length, List.append_assoc]
        rfl
      rw [hlength, shiftDown, hhead, hset, hset]
      split_ifs with hgreater
      · -- the last element moves up, and the key goes before it
        obtain ⟨zs, hzs, hperm, hzsorted⟩ := ih x (x :: rest) hxs
        refine ⟨zs ++ [x], ?_, ?_, ?_⟩
        · rw [hzs, List.append_assoc]
          rfl
        · exact (hperm.append_right [x]).trans (.refl _)
        · refine List.pairwise_append.mpr ⟨hzsorted, List.pairwise_singleton _ _, ?_⟩
          intro z hz w hw
          rw [List.mem_singleton.mp hw]
          rcases List.mem_cons.mp (hperm.mem_iff.mp hz) with rfl | hold
          · exact hgreater.le
          · exact hle z hold
      · refine ⟨xs ++ [x] ++ [key], ?_, ?_, ?_⟩
        · simp
        · exact List.perm_append_singleton key (xs ++ [x])
        · refine List.pairwise_append.mpr ⟨hsorted, List.pairwise_singleton _ _, ?_⟩
          intro z hz w hw
          rw [List.mem_singleton.mp hw]
          have hx : x ≤ key := not_lt.mp hgreater
          rcases List.mem_append.mp hz with hold | hnew
          · exact (hle z hold).trans hx
          · exact (List.mem_singleton.mp hnew).le.trans hx

/-- After `m` rounds the first `m + 1` elements are sorted, and the others are where they
were. -/
theorem foldl_insertAt (xs : List α) (m : ℕ) (hm : m < xs.length) :
    ∃ zs, (List.range' 1 m).foldl insertAt xs = zs ++ xs.drop (m + 1) ∧
      zs.Perm (xs.take (m + 1)) ∧ zs.Pairwise (· ≤ ·) := by
  induction m with
  | zero =>
      cases xs with
      | nil => cases hm
      | cons x xs => exact ⟨[x], rfl, .refl _, List.pairwise_singleton _ _⟩
  | succ m ih =>
      obtain ⟨zs, hzs, hperm, hsorted⟩ := ih (Nat.lt_of_succ_lt hm)
      have hlength : zs.length = m + 1 := by
        rw [hperm.length_eq, List.length_take]
        omega
      have hdrop : xs.drop (m + 1) = xs[m + 1] :: xs.drop (m + 1 + 1) :=
        List.drop_eq_getElem_cons hm
      have htake : xs.take (m + 1 + 1) = xs.take (m + 1) ++ [xs[m + 1]] :=
        (List.take_append_getElem hm).symm
      have hkey : (zs ++ xs.drop (m + 1))[m + 1]? = some xs[m + 1] := by
        rw [List.getElem?_append_right hlength.le, hlength, Nat.sub_self, hdrop]
        rfl
      generalize xs[m + 1] = key at hdrop htake hkey
      obtain ⟨ws, hws, hwperm, hwsorted⟩ :=
        shiftDown_spec key zs key (xs.drop (m + 1 + 1)) hsorted
      refine ⟨ws, ?_, ?_, hwsorted⟩
      · rw [List.range'_1_concat, List.foldl_append, hzs, Nat.add_comm 1 m]
        change insertAt (zs ++ xs.drop (m + 1)) (m + 1) = _
        unfold insertAt
        rw [hkey]
        dsimp only
        rw [hdrop]
        rwa [hlength] at hws
      · rw [htake]
        exact hwperm.trans ((hperm.cons _).trans (List.perm_append_singleton _ _).symm)

/-- **The loops sort.** -/
theorem insertionSortInPlace_eq (xs : List α) :
    insertionSortInPlace xs = xs.insertionSort (· ≤ ·) := by
  unfold insertionSortInPlace
  rcases Nat.eq_zero_or_pos xs.length with hnil | hpos
  · obtain rfl := List.length_eq_zero_iff.mp hnil
    rfl
  · obtain ⟨zs, hzs, hperm, hsorted⟩ := foldl_insertAt xs (xs.length - 1) (by omega)
    rw [Nat.sub_add_cancel hpos] at hzs hperm
    rw [hzs, List.drop_length, List.append_nil]
    rw [List.take_length] at hperm
    exact (hperm.trans (List.perm_insertionSort _ _).symm).eq_of_pairwise'
      hsorted (List.pairwise_insertionSort _ _)

/-- The order in which the elements come does not matter. -/
theorem insertionSortInPlace_of_perm {xs ys : List α} (h : xs.Perm ys) :
    insertionSortInPlace xs = ys.insertionSort (· ≤ ·) := by
  have hperm : (xs.insertionSort (· ≤ ·)).Perm (ys.insertionSort (· ≤ ·)) :=
    (List.perm_insertionSort _ _).trans (h.trans (List.perm_insertionSort _ _).symm)
  rw [insertionSortInPlace_eq]
  exact hperm.eq_of_pairwise' (List.pairwise_insertionSort _ _) (List.pairwise_insertionSort _ _)

end ProgLib
