import Mathlib.Data.List.Range
import Mathlib.Tactic.Common

/-! # Insertion sort of pairs in a flat table

A fixed table of slots holds key and value of pair `i` in slots `2 * i` and
`2 * i + 1`.  `sortPairs n` sorts its first `n` pairs by key, in place and stably,
by the textbook loops: walk `i` upwards, shift the larger pairs below `i` one place
up, and put pair `i` into the gap.

One pass is described by `insertPair_spec`: it rotates a segment of pairs.  Keys
need to be ordered only on the values that occur (`WeakOrderOn`), so a type with an
incomparable value, such as a nan, can be sorted where that value is absent.
-/
namespace ProgLib.PairSort
variable {α : Type} [Inhabited α] {N : ℕ}

/-- Slot `i`; a slot past the end reads as the default. -/
def rd (d : Vector α N) (i : ℕ) : α := d[i]?.getD default

/-- Write slot `i`; a slot past the end is not written. -/
def wr (d : Vector α N) (i : ℕ) (x : α) : Vector α N := d.setIfInBounds i x

theorem rd_wr (d : Vector α N) (i j : ℕ) (x : α) :
    rd (wr d i x) j = if i = j ∧ j < N then x else rd d j := by
  unfold rd wr
  rw [Vector.getElem?_setIfInBounds]
  by_cases hij : i = j
  · subst hij
    by_cases hN : i < N
    · simp [hN]
    · simp [hN]
  · simp [hij]

theorem ext_rd {d e : Vector α N} (h : ∀ i < N, rd d i = rd e i) : d = e := by
  refine Vector.ext fun i hi => ?_
  simpa [rd, hi] using h i hi

/-- A loop that rewrites each of the first `n` slots from its old value. -/
theorem rd_foldl_wr (f : ℕ → α → α) (n j : ℕ) (d : Vector α N) :
    rd ((List.range n).foldl (fun d i => wr d i (f i (rd d i))) d) j =
      if j < n ∧ j < N then f j (rd d j) else rd d j := by
  induction n with
  | zero => simp
  | succ n ih =>
      rw [List.range_succ, List.foldl_append, List.foldl_cons, List.foldl_nil, rd_wr]
      by_cases hj : n = j
      · subst hj
        rw [ih]
        simp
      · rw [ih, if_neg (by omega)]
        congr 1
        exact propext ⟨fun h => by omega, fun h => by omega⟩

/-- The pair at `i`. -/
def getPair (d : Vector α N) (i : ℕ) : α × α := (rd d (2 * i), rd d (2 * i + 1))

def putPair (d : Vector α N) (i : ℕ) (p : α × α) : Vector α N :=
  wr (wr d (2 * i) p.1) (2 * i + 1) p.2

theorem getPair_putPair (d : Vector α N) {i : ℕ} (hi : 2 * i + 1 < N) (j : ℕ) (p : α × α) :
    getPair (putPair d i p) j = if i = j then p else getPair d j := by
  unfold getPair putPair
  simp only [rd_wr]
  split_ifs <;> first | rfl | omega

/-- Every slot belongs to a pair. -/
theorem ext_getPair {d e : Vector α N} (h : ∀ i, getPair d i = getPair e i) : d = e := by
  refine ext_rd fun i _ => ?_
  have hpair := Prod.mk.inj (h (i / 2))
  have hparity : i = 2 * (i / 2) ∨ i = 2 * (i / 2) + 1 := by omega
  rcases hparity with heven | hodd
  · rw [heven]
    exact hpair.1
  · rw [hodd]
    exact hpair.2

variable [LT α] [DecidableLT α]

/-- Shift pairs up while their key is above `kx`, from the gap at `m` down; the
result is the place of the gap and the table. -/
def shiftUp (kx : α) : ℕ → Vector α N → ℕ × Vector α N
  | 0, d => (0, d)
  | j + 1, d =>
      if rd d (2 * j) > kx then shiftUp kx j (putPair d (j + 1) (getPair d j)) else (j + 1, d)

/-- One pass: take pair `i` out and put it back below every larger pair. -/
def insertPair (d : Vector α N) (i : ℕ) : Vector α N :=
  let p := getPair d i
  let gap := shiftUp p.1 i d
  putPair gap.2 gap.1 p

/-- Insertion sort of the first `n` pairs. -/
def sortPairs (n : ℕ) (d : Vector α N) : Vector α N :=
  (List.range' 1 (n - 1)).foldl insertPair d

/-- The first `n` pairs have their keys in ascending order. -/
def Sorted (n : ℕ) (d : Vector α N) : Prop :=
  ∀ i j, i < j → j < n → ¬rd d (2 * j) < rd d (2 * i)

/-- The comparison behaves as an order on the values that satisfy `P`. -/
structure WeakOrderOn (P : α → Prop) : Prop where
  asymm : ∀ {x y}, P x → P y → x < y → ¬y < x
  trans : ∀ {x y z}, P x → P y → P z → ¬y < x → ¬z < y → ¬z < x

/-! ## One pass -/

/-- While shifting for position `i`, with the gap at `m`: what the table `d₁` is in
terms of the table `d` the pass began with. -/
structure ShiftInv (i m : ℕ) (kx : α) (d d₁ : Vector α N) : Prop where
  below : ∀ q, q ≤ m ∨ i < q → getPair d₁ q = getPair d q
  shifted : ∀ q, m < q → q ≤ i → getPair d₁ q = getPair d (q - 1)
  larger : ∀ q, m ≤ q → q < i → kx < (getPair d q).1

theorem shiftUp_spec {i : ℕ} {kx : α} {d : Vector α N} (hi : 2 * i + 1 < N) :
    ∀ (m : ℕ) (d₁ : Vector α N), m ≤ i → ShiftInv i m kx d d₁ →
      (shiftUp kx m d₁).1 ≤ m ∧ ShiftInv i (shiftUp kx m d₁).1 kx d (shiftUp kx m d₁).2 ∧
        ((shiftUp kx m d₁).1 = 0 ∨ ¬kx < (getPair d ((shiftUp kx m d₁).1 - 1)).1)
  | 0, d₁, _, hinv => ⟨le_rfl, hinv, .inl rfl⟩
  | j + 1, d₁, hj, hinv => by
      have hkey : (getPair d₁ j).1 = (getPair d j).1 := by
        rw [hinv.below j (.inl (by omega))]
      unfold shiftUp
      by_cases hgt : rd d₁ (2 * j) > kx
      · rw [if_pos hgt]
        have hstep : ShiftInv i j kx d (putPair d₁ (j + 1) (getPair d₁ j)) := by
          refine ⟨fun q hq => ?_, fun q hq hqi => ?_, fun q hq hqi => ?_⟩
          · rw [getPair_putPair _ (by omega), if_neg (by omega)]
            exact hinv.below q (by omega)
          · rw [getPair_putPair _ (by omega)]
            split_ifs with heq
            · subst heq
              exact hinv.below j (.inl (by omega))
            · exact hinv.shifted q (by omega) hqi
          · rcases Nat.lt_or_ge j q with hlt | hge
            · exact hinv.larger q (by omega) hqi
            · obtain rfl : q = j := by omega
              rw [← hkey]
              exact hgt
        obtain ⟨hle, hres, hstop⟩ := shiftUp_spec hi j _ (by omega) hstep
        exact ⟨by omega, hres, hstop⟩
      · rw [if_neg hgt]
        refine ⟨le_rfl, hinv, .inr ?_⟩
        intro h
        rw [Nat.add_sub_cancel, ← hkey] at h
        exact hgt h

/-- **One pass rotates a segment**: pair `i` moves down to some place `m`, the pairs
from `m` on move up by one, their keys are above the moved one, and the pair before
`m` is not. -/
theorem insertPair_spec {i : ℕ} (d : Vector α N) (hi : 2 * i + 1 < N) :
    ∃ m ≤ i,
      (∀ q, getPair (insertPair d i) q =
        if m = q then getPair d i
        else if m < q ∧ q ≤ i then getPair d (q - 1) else getPair d q) ∧
      (∀ q, m ≤ q → q < i → (getPair d i).1 < (getPair d q).1) ∧
      (m = 0 ∨ ¬(getPair d i).1 < (getPair d (m - 1)).1) := by
  have hstart : ShiftInv i i (getPair d i).1 d d :=
    ⟨fun _ _ => rfl, fun q _ _ => by omega, fun q _ _ => by omega⟩
  obtain ⟨hle, hinv, hstop⟩ := shiftUp_spec hi i d le_rfl hstart
  refine ⟨_, hle, fun q => ?_, hinv.larger, hstop⟩
  unfold insertPair
  simp only
  rw [getPair_putPair _ (by omega)]
  split_ifs with hgap hseg
  · rfl
  · exact hinv.shifted q hseg.1 hseg.2
  · exact hinv.below q (by omega)

/-- A pass moves pairs about among the first `i + 1` places. -/
theorem exists_getPair_insertPair {i n : ℕ} (d : Vector α N) (hi : 2 * i + 1 < N) (hn : i < n)
    {q : ℕ} (hq : q < n) : ∃ r < n, getPair (insertPair d i) q = getPair d r := by
  obtain ⟨m, hm, hget, -, -⟩ := insertPair_spec d hi
  rw [hget]
  split_ifs
  · exact ⟨i, hn, rfl⟩
  · exact ⟨q - 1, by omega, rfl⟩
  · exact ⟨q, hq, rfl⟩

theorem getPair_insertPair_of_lt {i q : ℕ} (d : Vector α N) (hi : 2 * i + 1 < N) (hq : i < q) :
    getPair (insertPair d i) q = getPair d q := by
  obtain ⟨m, hm, hget, -, -⟩ := insertPair_spec d hi
  rw [hget, if_neg (by omega), if_neg (by omega)]

/-- A pass extends the sorted prefix by one pair. -/
theorem sorted_insertPair {P : α → Prop} (hP : WeakOrderOn P) {i : ℕ} {d : Vector α N}
    (hi : 2 * i + 1 < N) (hkeys : ∀ q ≤ i, P (rd d (2 * q))) (hs : Sorted i d) :
    Sorted (i + 1) (insertPair d i) := by
  obtain ⟨m, hm, hget, hlarger, hstop⟩ := insertPair_spec d hi
  have hbelow : ∀ q, q < m → ¬rd d (2 * i) < rd d (2 * q) := by
    intro q hq
    have hlast : ¬rd d (2 * i) < rd d (2 * (m - 1)) := hstop.resolve_left (by omega)
    rcases Nat.lt_or_ge q (m - 1) with hlt | hge
    · have hpre : ¬rd d (2 * (m - 1)) < rd d (2 * q) := hs q (m - 1) hlt (by omega)
      exact hP.trans (hkeys q (by omega)) (hkeys (m - 1) (by omega)) (hkeys i le_rfl) hpre hlast
    · rwa [show q = m - 1 by omega]
  have hmoved : ∀ q, m ≤ q → q < i → ¬rd d (2 * q) < rd d (2 * i) := fun q hq hqi =>
    hP.asymm (hkeys i le_rfl) (hkeys q (by omega)) (hlarger q hq hqi)
  have hlow : ∀ q, q < m → rd (insertPair d i) (2 * q) = rd d (2 * q) := by
    intro q hq
    have h := congrArg Prod.fst (hget q)
    rw [if_neg (by omega), if_neg (by omega)] at h
    exact h
  have hgap : rd (insertPair d i) (2 * m) = rd d (2 * i) :=
    congrArg Prod.fst ((hget m).trans (if_pos rfl))
  have hhigh : ∀ q, m < q → q ≤ i → rd (insertPair d i) (2 * q) = rd d (2 * (q - 1)) := by
    intro q hq hqi
    have h := congrArg Prod.fst (hget q)
    rw [if_neg (by omega), if_pos ⟨hq, hqi⟩] at h
    exact h
  intro a b hab hb
  -- each place is before the gap, at it, or after it
  rcases Nat.lt_trichotomy b m with hbm | rfl | hbm
  · rw [hlow a (by omega), hlow b hbm]
    exact hs a b hab (by omega)
  · rw [hlow a hab, hgap]
    exact hbelow a hab
  · rw [hhigh b hbm (by omega)]
    rcases Nat.lt_trichotomy a m with ham | rfl | ham
    · rw [hlow a ham]
      exact hs a (b - 1) (by omega) (by omega)
    · rw [hgap]
      exact hmoved (b - 1) (by omega) (by omega)
    · rw [hhigh a ham (by omega)]
      exact hs (a - 1) (b - 1) (by omega) (by omega)

/-- A pass over a sorted table changes nothing. -/
theorem insertPair_of_sorted {i n : ℕ} {d : Vector α N} (hn : 2 * n ≤ N) (hi : i < n)
    (hs : Sorted n d) : insertPair d i = d := by
  have hput : putPair d i (getPair d i) = d := by
    refine ext_getPair fun q => ?_
    rw [getPair_putPair _ (by omega)]
    split_ifs with heq
    · rw [heq]
    · rfl
  have hshift : shiftUp (getPair d i).1 i d = (i, d) := by
    cases i with
    | zero => rfl
    | succ j => exact if_neg (hs j (j + 1) (by omega) hi)
  unfold insertPair
  simp only [hshift]
  exact hput

/-! ## The whole sort -/

/-- **Induction over the passes**: what holds of the table at the start, and is kept
by pass `i` from `i` to `i + 1`, holds at the end. -/
theorem sortPairs_induction {n : ℕ} {d : Vector α N} (motive : ℕ → Vector α N → Prop)
    (hstart : motive 1 d)
    (hpass : ∀ i e, 1 ≤ i → i < n → motive i e → motive (i + 1) (insertPair e i)) (hn : 1 ≤ n) :
    motive n (sortPairs n d) := by
  have hfold : ∀ k i e, 1 ≤ i → i + k ≤ n → motive i e →
      motive (i + k) ((List.range' i k).foldl insertPair e) := by
    intro k
    induction k with
    | zero => intro i e _ _ he; exact he
    | succ k ih =>
        intro i e hi hik he
        rw [List.range'_succ, List.foldl_cons, show i + (k + 1) = i + 1 + k by omega]
        exact ih (i + 1) _ (by omega) (by omega) (hpass i e hi (by omega) he)
  have := hfold (n - 1) 1 d le_rfl (by omega) hstart
  rwa [show 1 + (n - 1) = n by omega] at this

/-- The sort only moves pairs about among the first `n` places. -/
theorem exists_getPair_sortPairs {n : ℕ} (d : Vector α N) (hn : 2 * n ≤ N) {q : ℕ} (hq : q < n) :
    ∃ r < n, getPair (sortPairs n d) q = getPair d r := by
  have hall : ∀ q < n, ∃ r < n, getPair (sortPairs n d) q = getPair d r := by
    refine sortPairs_induction (fun _ e => ∀ q < n, ∃ r < n, getPair e q = getPair d r)
      (fun q hq => ⟨q, hq, rfl⟩) (fun i e _ hi he q hq => ?_) (by omega)
    obtain ⟨r, hr, heq⟩ := exists_getPair_insertPair e (by omega) hi hq
    obtain ⟨s, hs, heq'⟩ := he r hr
    exact ⟨s, hs, heq.trans heq'⟩
  exact hall q hq

/-- The pairs past the first `n` stay. -/
theorem getPair_sortPairs_of_le {n : ℕ} (d : Vector α N) (hn : 2 * n ≤ N) {q : ℕ} (hq : n ≤ q) :
    getPair (sortPairs n d) q = getPair d q := by
  rcases Nat.eq_zero_or_pos n with rfl | hpos
  · rfl
  · exact sortPairs_induction (fun _ e => getPair e q = getPair d q) rfl
      (fun i e _ hi he => (getPair_insertPair_of_lt e (by omega) (by omega)).trans he) hpos

/-- **The sort sorts.** -/
theorem sorted_sortPairs {P : α → Prop} (hP : WeakOrderOn P) {n : ℕ} {d : Vector α N}
    (hn : 2 * n ≤ N) (hkeys : ∀ q < n, P (rd d (2 * q))) : Sorted n (sortPairs n d) := by
  rcases Nat.eq_zero_or_pos n with rfl | hpos
  · exact fun i j _ hj => absurd hj (Nat.not_lt_zero j)
  · refine (sortPairs_induction (n := n) (d := d)
      (fun i e => Sorted i e ∧ ∀ q < n, P (rd e (2 * q))) ?_ ?_ hpos).1
    · exact ⟨fun i j _ _ => by omega, hkeys⟩
    · rintro i e _ hi ⟨hs, hk⟩
      refine ⟨sorted_insertPair hP (by omega) (fun q hq => hk q (by omega)) hs, fun q hq => ?_⟩
      obtain ⟨r, hr, heq⟩ := exists_getPair_insertPair e (by omega) hi hq
      exact (Prod.mk.inj heq).1 ▸ hk r hr

/-- **Sorting a sorted table changes nothing.** -/
theorem sortPairs_of_sorted {n : ℕ} {d : Vector α N} (hn : 2 * n ≤ N) (hs : Sorted n d) :
    sortPairs n d = d := by
  rcases Nat.eq_zero_or_pos n with rfl | hpos
  · rfl
  · exact sortPairs_induction (fun _ e => e = d) rfl
      (fun i e _ hi he => by rw [he, insertPair_of_sorted hn hi hs]) hpos

end ProgLib.PairSort
