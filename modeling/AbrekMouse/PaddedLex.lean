import Mathlib.Order.Lattice
import Mathlib.Algebra.Notation.Defs
import Mathlib.Tactic.Common

/-! # Lexicographic order of lists padded with zeros

Two lists are compared component by component, a missing component counting as zero.
`Older` says so by the first position where they differ; `lt` is the comparison loop.
The order is strict and total up to trailing zeros.
-/
namespace ProgLib.PaddedLex
variable {α : Type} [Zero α] [LinearOrder α]

/-- Component `i`; a missing one is zero. -/
def padded (l : List α) (i : ℕ) : α := l.getD i 0

/-- `a` is smaller than `b` at the first position where they differ. -/
def Older (a b : List α) : Prop :=
  ∃ i, (∀ j < i, padded a j = padded b j) ∧ padded a i < padded b i

/-- The loop once the first list has ended. -/
def ltZeros : List α → Bool
  | [] => false
  | b :: bs => if 0 ≠ b then decide (0 < b) else ltZeros bs

/-- The loop over both lists, up to the longer one. -/
def lt : List α → List α → Bool
  | [], bs => ltZeros bs
  | a :: as, bs => if a ≠ padded bs 0 then decide (a < padded bs 0) else lt as bs.tail

omit [LinearOrder α] in
theorem padded_tail (l : List α) (i : ℕ) : padded l.tail i = padded l (i + 1) := by
  cases l <;> simp [padded]

theorem older_iff_head_tail (a b : List α) :
    Older a b ↔ padded a 0 < padded b 0 ∨ (padded a 0 = padded b 0 ∧ Older a.tail b.tail) := by
  constructor
  · rintro ⟨i, heq, hlt⟩
    cases i with
    | zero => exact .inl hlt
    | succ i =>
        refine .inr ⟨heq 0 (Nat.zero_lt_succ i), i, fun j hj => ?_, ?_⟩
        · rw [padded_tail, padded_tail]
          exact heq (j + 1) (Nat.succ_lt_succ hj)
        · rwa [padded_tail, padded_tail]
  · rintro (hlt | ⟨h0, i, heq, hlt⟩)
    · exact ⟨0, fun j hj => absurd hj (Nat.not_lt_zero j), hlt⟩
    · refine ⟨i + 1, fun j hj => ?_, ?_⟩
      · cases j with
        | zero => exact h0
        | succ j =>
            rw [← padded_tail, ← padded_tail]
            exact heq j (Nat.lt_of_succ_lt_succ hj)
      · rwa [← padded_tail, ← padded_tail]

theorem not_older_nil : ¬Older ([] : List α) [] := fun ⟨_, _, hlt⟩ => lt_irrefl _ hlt

/-- One round of the loop: the components at the front decide, or the rest does. -/
theorem older_iff_round (a b : List α) :
    Older a b ↔
      if padded a 0 ≠ padded b 0 then padded a 0 < padded b 0 else Older a.tail b.tail := by
  rw [older_iff_head_tail]
  split_ifs with hne
  · simp [hne]
  · simp [not_not.mp hne]

theorem ltZeros_iff_older (b : List α) : ltZeros b = true ↔ Older [] b := by
  induction b with
  | nil => simpa [ltZeros] using not_older_nil
  | cons b bs ih =>
      have hb : padded (b :: bs) 0 = b := rfl
      have h0 : padded ([] : List α) 0 = 0 := rfl
      rw [older_iff_round, hb, h0, ltZeros]
      split_ifs
      · exact decide_eq_true_iff
      · exact ih

/-- **The loop decides the order.** -/
theorem lt_iff_older (a b : List α) : lt a b = true ↔ Older a b := by
  induction a generalizing b with
  | nil => exact ltZeros_iff_older b
  | cons a as ih =>
      have ha : padded (a :: as) 0 = a := rfl
      rw [older_iff_round, ha, lt]
      split_ifs
      · exact decide_eq_true_iff
      · exact ih b.tail

instance (a b : List α) : Decidable (Older a b) := decidable_of_iff _ (lt_iff_older a b)

/-- Of two positions the earlier one decides. -/
theorem Older.trans {a b c : List α} (hab : Older a b) (hbc : Older b c) : Older a c := by
  obtain ⟨i, hi, hlti⟩ := hab
  obtain ⟨k, hk, hltk⟩ := hbc
  rcases Nat.lt_trichotomy i k with h | rfl | h
  · exact ⟨i, fun j hj => (hi j hj).trans (hk j (Nat.lt_trans hj h)), hk i h ▸ hlti⟩
  · exact ⟨i, fun j hj => (hi j hj).trans (hk j hj), hlti.trans hltk⟩
  · exact ⟨k, fun j hj => (hi j (Nat.lt_trans hj h)).trans (hk j hj), hi k h ▸ hltk⟩

end ProgLib.PaddedLex
