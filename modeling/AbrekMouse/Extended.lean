import Mathlib.Algebra.Order.Floor.Ring
import Mathlib.Algebra.Order.Group.Abs
import Mathlib.Tactic.Linarith

/-! # Exact arithmetic with infinities

`Extended K` is an ordered field with two infinities and a `nan`: the arithmetic of floating
point without its rounding.  Sums and differences of infinities follow IEEE 754, and a
comparison with `nan` fails.  `toInt` is the conversion to an integer, which drops the
fraction; it is meant for finite values.
-/
namespace ProgLib

/-- Drop the fraction, towards zero. -/
def truncInt {K : Type} [Field K] [LinearOrder K] [FloorRing K] (x : K) : ℤ :=
  if 0 ≤ x then ⌊x⌋ else ⌈x⌉

/-- The numbers of a field with two infinities and a nan, which are computed with as
floating-point numbers are, but without rounding. -/
inductive Extended (K : Type)
  | finite (x : K)
  | posInf
  | negInf
  | nan
deriving DecidableEq

namespace Extended

def isFinite {K : Type} : Extended K → Bool
  | finite _ => true
  | _ => false

/-! ## Sums -/

section
variable {K : Type} [Field K] {a b : Extended K}

instance : Zero (Extended K) := ⟨finite 0⟩

def neg : Extended K → Extended K
  | finite x => finite (-x)
  | posInf => negInf
  | negInf => posInf
  | nan => nan

def add : Extended K → Extended K → Extended K
  | finite x, finite y => finite (x + y)
  | nan, _ => nan
  | _, nan => nan
  | posInf, negInf => nan
  | negInf, posInf => nan
  | posInf, _ => posInf
  | _, posInf => posInf
  | negInf, _ => negInf
  | _, negInf => negInf

instance : Add (Extended K) := ⟨add⟩
instance : Sub (Extended K) := ⟨fun a b => add a (neg b)⟩

theorem add_finite (x y : K) : (finite x + finite y : Extended K) = finite (x + y) := rfl

theorem sub_finite (x y : K) : (finite x - finite y : Extended K) = finite (x - y) :=
  congrArg finite (sub_eq_add_neg x y).symm

/-- An infinity absorbs what is finite, and `nan` absorbs all. -/
instance : AddCommMonoid (Extended K) where
  add_assoc a b c := by
    cases a <;> cases b <;> cases c <;> first | exact congrArg finite (add_assoc _ _ _) | rfl
  add_comm a b := by
    cases a <;> cases b <;> first | exact congrArg finite (add_comm _ _) | rfl
  zero_add a := by
    cases a <;> first | exact congrArg finite (zero_add _) | rfl
  add_zero a := by
    cases a <;> first | exact congrArg finite (add_zero _) | rfl
  nsmul := nsmulRec

end

/-! ## Comparisons -/

section
variable {K : Type} [LinearOrder K] {x lo hi : K}

def lt : Extended K → Extended K → Bool
  | finite x, finite y => x < y
  | nan, _ => false
  | _, nan => false
  | posInf, _ => false
  | _, negInf => false
  | _, posInf => true
  | negInf, _ => true

def le : Extended K → Extended K → Bool
  | finite x, finite y => x ≤ y
  | nan, _ => false
  | _, nan => false
  | negInf, _ => true
  | _, posInf => true
  | posInf, _ => false
  | _, negInf => false

/-- `std::clamp`. -/
def clamp (v lo hi : Extended K) : Extended K :=
  if lt v lo then lo else if lt hi v then hi else v

theorem clamp_finite (x : K) (hlohi : lo ≤ hi) :
    ∃ y, clamp (finite x) (finite lo) (finite hi) = finite y ∧ lo ≤ y ∧ y ≤ hi := by
  unfold clamp lt
  split_ifs with hlow hhigh
  · exact ⟨lo, rfl, le_refl lo, hlohi⟩
  · exact ⟨hi, rfl, hlohi, le_refl hi⟩
  · exact ⟨x, rfl, by simpa using hlow, by simpa using hhigh⟩

theorem clamp_of_mem (hlow : lo ≤ x) (hhigh : x ≤ hi) :
    clamp (finite x) (finite lo) (finite hi) = finite x := by
  unfold clamp lt
  rw [if_neg (by simpa using hlow), if_neg (by simpa using hhigh)]

end

/-! ## Integers -/

variable {K : Type} [Field K] [LinearOrder K]

def abs : Extended K → Extended K
  | finite x => finite |x|
  | posInf => posInf
  | negInf => posInf
  | nan => nan

variable [FloorRing K]

/-- The number without its fraction. -/
def trunc : Extended K → Extended K
  | finite x => finite (truncInt x : K)
  | v => v

/-- The conversion to an integer; what is no finite number becomes 0. -/
def toInt : Extended K → ℤ
  | finite x => truncInt x
  | _ => 0

end Extended

/-! ## Dropping the fraction -/

section
variable {K : Type} [Field K] [LinearOrder K] [FloorRing K] {x y : K}

theorem truncInt_mono (h : x ≤ y) : truncInt x ≤ truncInt y := by
  unfold truncInt
  split_ifs with hx hy hy
  · exact Int.floor_le_floor h
  · exact absurd (hx.trans h) hy
  · have hceil : ⌈x⌉ ≤ 0 := Int.ceil_le.mpr (by simpa using (not_le.mp hx).le)
    exact hceil.trans (Int.floor_nonneg.mpr hy)
  · exact Int.ceil_le_ceil h

/-- The fraction does not carry a number to a whole one. -/
theorem truncInt_bounds {lo hi : ℤ} (hlo : lo < 0) (hhi : 0 < hi) (hlow : lo < x) (hhigh : x < hi) :
    lo < truncInt x ∧ truncInt x < hi := by
  unfold truncInt
  split_ifs with hx
  · exact ⟨hlo.trans_le (Int.floor_nonneg.mpr hx), Int.floor_lt.mpr hhigh⟩
  · have hceil : ⌈x⌉ ≤ 0 := Int.ceil_le.mpr (by simpa using (not_le.mp hx).le)
    exact ⟨Int.lt_ceil.mpr hlow, hceil.trans_lt hhi⟩

variable [IsStrictOrderedRing K]

theorem truncInt_intCast (z : ℤ) : truncInt (z : K) = z := by
  unfold truncInt
  split_ifs
  · exact Int.floor_intCast z
  · exact Int.ceil_intCast z

theorem abs_sub_truncInt_lt (x : K) : |x - truncInt x| < 1 := by
  unfold truncInt
  rw [abs_lt]
  split_ifs
  · have hle := Int.floor_le x
    have hlt := Int.lt_floor_add_one x
    constructor <;> linarith
  · have hle := Int.le_ceil x
    have hlt := Int.ceil_lt_add_one x
    constructor <;> linarith

end
end ProgLib
