import AbrekMouse.Extended
import Mathlib.Algebra.BigOperators.Group.List.Basic
import Mathlib.Data.Rat.Floor
import Mathlib.Tactic.NormNum

/-! # Sub-pixel motion

`apply_motion_math` puts the motion of a frame through the modifier, adds what was left over
from the frame before, and sends out the whole counts.  Here it is in exact arithmetic, and
what the modifier returns is arbitrary.  The two axes do not meet after the modifier, so a run
is two runs of one axis (`frames_eq`), and an axis loses nothing as long as it stays within
the range of `int` (`axisRun_conserved`).
-/
namespace AbrekMouse.MotionMath
open ProgLib
variable {K : Type} [Field K] [LinearOrder K] [FloorRing K]

/-! ## The code -/

def intLo : Extended K := .finite (-2147483648)

/-- The largest `double` that truncates to `INT_MAX`. -/
def intHi : Extended K := .finite (2147483647 + 1 / (1 + 1))

/-- The counts of an axis. -/
def count (motion : Extended K) : ℤ :=
  let t := motion.trunc
  let t := if t.isFinite then t else 0
  (t.clamp intLo intHi).toInt

/-- What an axis keeps for the next frame. -/
def carry (motion : Extended K) (out : ℤ) : Extended K :=
  let remainder := motion - .finite (out : K)
  if !remainder.isFinite || Extended.le (.finite 1) remainder.abs then 0 else remainder

/-- `apply_motion_math`: the counts, and the new remainders. -/
def applyMotionMath (modify : Extended K × Extended K → Extended K × Extended K)
    (d remainder : Extended K × Extended K) : (ℤ × ℤ) × (Extended K × Extended K) :=
  let motion := modify d
  let motion := (motion.1 + remainder.1, motion.2 + remainder.2)
  let out := (count motion.1, count motion.2)
  (out, (carry motion.1 out.1, carry motion.2 out.2))

/-- A frame, with what the modifier does in it. -/
structure Frame (K : Type) where
  modify : Extended K × Extended K → Extended K × Extended K
  d : Extended K × Extended K

/-- The movement of the frame after the modifier. -/
def Frame.modified (f : Frame K) : Extended K × Extended K := f.modify f.d

/-- The counts of all frames, and the remainders after the last. -/
def frames : List (Frame K) → Extended K × Extended K →
    List (ℤ × ℤ) × (Extended K × Extended K)
  | [], remainder => ([], remainder)
  | f :: fs, remainder =>
      let (out, remainder) := applyMotionMath f.modify f.d remainder
      let (outs, remainder) := frames fs remainder
      (out :: outs, remainder)

/-! ## One axis -/

/-- The run of an axis, by its modified values. -/
def axisRun : List (Extended K) → Extended K → List ℤ × Extended K
  | [], remainder => ([], remainder)
  | v :: vs, remainder =>
      let motion := v + remainder
      let (outs, last) := axisRun vs (carry motion (count motion))
      (count motion :: outs, last)

theorem frames_eq (fs : List (Frame K)) (remainder : Extended K × Extended K) :
    ((frames fs remainder).1.map Prod.fst, (frames fs remainder).2.1) =
      axisRun (fs.map fun f => f.modified.1) remainder.1 ∧
    ((frames fs remainder).1.map Prod.snd, (frames fs remainder).2.2) =
      axisRun (fs.map fun f => f.modified.2) remainder.2 := by
  induction fs generalizing remainder with
  | nil => exact ⟨rfl, rfl⟩
  | cons f fs ih =>
      obtain ⟨hx, hy⟩ := ih (applyMotionMath f.modify f.d remainder).2
      rw [List.map_cons, List.map_cons, axisRun, axisRun]
      constructor
      · exact congrArg (fun r => (_ :: r.1, r.2)) hx
      · exact congrArg (fun r => (_ :: r.1, r.2)) hy

/-- What an axis has to send is finite and within the range of `int`, but for a fraction. -/
def InRange (motion : Extended K) : Prop :=
  ∃ x : K, motion = .finite x ∧ -2147483649 < x ∧ x < 2147483648

/-- No sum of a movement and the remainder before it leaves the range of an `int`. -/
def AllInRange : List (Extended K) → Extended K → Prop
  | [], _ => True
  | v :: vs, remainder =>
      InRange (v + remainder) ∧ AllInRange vs (carry (v + remainder) (count (v + remainder)))

/-- Less than one count. -/
def Small (remainder : Extended K) : Prop := ∃ x : K, remainder = .finite x ∧ |x| < 1

variable [IsStrictOrderedRing K]

theorem small_carry (motion : Extended K) (out : ℤ) : Small (carry motion out) := by
  unfold carry
  dsimp only
  split_ifs with hreset
  · exact ⟨0, rfl, by simp⟩
  · rw [Bool.or_eq_true, not_or] at hreset
    obtain ⟨hfinite, hsmall⟩ := hreset
    cases hremainder : motion - .finite (out : K) with
    | finite x =>
        rw [hremainder] at hsmall
        exact ⟨x, rfl, by simpa [Extended.le, Extended.abs] using hsmall⟩
    | posInf | negInf | nan => exact absurd (by rw [hremainder]; rfl) hfinite

/-- The counts fit into an `int`, whatever is to be sent. -/
theorem count_bounds (motion : Extended K) :
    -2147483648 ≤ count motion ∧ count motion ≤ 2147483647 := by
  have hfinite : ∃ x : K, (if motion.trunc.isFinite then motion.trunc else 0) = .finite x := by
    cases motion with
    | finite x => exact ⟨_, rfl⟩
    | posInf | negInf | nan => exact ⟨0, rfl⟩
  obtain ⟨x, hx⟩ := hfinite
  have hlohi : (-2147483648 : K) ≤ 2147483647 + 1 / (1 + 1) := by norm_num
  obtain ⟨y, hy, hlow, hhigh⟩ := Extended.clamp_finite x hlohi
  have hcount : count motion = truncInt y := by
    unfold count
    dsimp only
    rw [hx, intLo, intHi, hy]
    rfl
  have hlo : truncInt (-2147483648 : K) = -2147483648 := by
    have hcast := truncInt_intCast (K := K) (-2147483648)
    push_cast at hcast
    exact hcast
  have hhi : truncInt (2147483647 + 1 / (1 + 1) : K) = 2147483647 := by
    unfold truncInt
    rw [if_pos (by norm_num), Int.floor_eq_iff]
    norm_num
  rw [hcount]
  exact ⟨hlo ▸ truncInt_mono hlow, hhi ▸ truncInt_mono hhigh⟩

/-- Within the range the whole counts go out, and the fraction is kept. -/
theorem count_carry_of_inRange {motion : Extended K} (h : InRange motion) :
    motion = .finite (count motion : K) + carry motion (count motion) := by
  obtain ⟨x, rfl, hlow, hhigh⟩ := h
  have hbounds : -2147483649 < truncInt x ∧ truncInt x < 2147483648 :=
    truncInt_bounds (by decide) (by decide) (by exact_mod_cast hlow) (by exact_mod_cast hhigh)
  have hlo : (-2147483648 : K) ≤ (truncInt x : K) := by
    have hcast : ((-2147483648 : ℤ) : K) ≤ (truncInt x : K) := Int.cast_le.mpr (by omega)
    exact_mod_cast hcast
  have hhi : (truncInt x : K) ≤ 2147483647 + 1 / (1 + 1) := by
    have hcast : (truncInt x : K) ≤ ((2147483647 : ℤ) : K) := Int.cast_le.mpr (by omega)
    refine hcast.trans ?_
    norm_num
  have hcount : count (.finite x) = truncInt x := by
    unfold count intLo intHi
    have htrunc : (Extended.finite x).trunc = .finite (truncInt x : K) := rfl
    have hfinite : (Extended.finite (truncInt x : K)).isFinite = true := rfl
    rw [htrunc]
    dsimp only
    rw [if_pos hfinite, Extended.clamp_of_mem hlo hhi]
    exact truncInt_intCast _
  have hcarry : carry (.finite x) (truncInt x) = .finite (x - truncInt x) := by
    have hsmall := abs_sub_truncInt_lt x
    have hkeep : ¬(!(Extended.finite (x - truncInt x)).isFinite ||
        Extended.le (.finite 1) (Extended.finite (x - truncInt x)).abs) = true := by
      simpa [Extended.isFinite, Extended.le, Extended.abs] using hsmall
    unfold carry
    rw [Extended.sub_finite]
    dsimp only
    rw [if_neg hkeep]
  rw [hcount, hcarry, Extended.add_finite, add_sub_cancel]

theorem axisRun_small {vs : List (Extended K)} (h : vs ≠ []) (remainder : Extended K) :
    Small (axisRun vs remainder).2 := by
  induction vs generalizing remainder with
  | nil => exact absurd rfl h
  | cons v vs ih =>
      cases vs with
      | nil => exact small_carry _ _
      | cons w ws => exact ih (List.cons_ne_nil w ws) _

theorem axisRun_bounds (vs : List (Extended K)) (remainder : Extended K) :
    ∀ out ∈ (axisRun vs remainder).1, -2147483648 ≤ out ∧ out ≤ 2147483647 := by
  induction vs generalizing remainder with
  | nil => nofun
  | cons v vs ih =>
      intro out hout
      rcases List.mem_cons.mp hout with rfl | hrest
      · exact count_bounds _
      · exact ih _ out hrest

/-- **An axis loses nothing and invents nothing** within the range. -/
theorem axisRun_conserved {vs : List (Extended K)} {remainder : Extended K}
    (h : AllInRange vs remainder) :
    .finite ((axisRun vs remainder).1.sum : K) + (axisRun vs remainder).2 =
      remainder + vs.sum := by
  induction vs generalizing remainder with
  | nil =>
      have hzero : (Extended.finite (([] : List ℤ).sum : K)) = 0 :=
        congrArg Extended.finite Int.cast_zero
      rw [axisRun, hzero, List.sum_nil, zero_add, add_zero]
  | cons v vs ih =>
      obtain ⟨hrange, hrest⟩ := h
      have hmotion := count_carry_of_inRange hrange
      have hsum := ih hrest
      rw [axisRun, List.sum_cons, List.sum_cons, Int.cast_add, ← Extended.add_finite, add_assoc,
        hsum, ← add_assoc, ← hmotion, add_comm v remainder, add_assoc]

/-! ## Both axes -/

/-- **Sub-pixel motion is neither lost nor invented.**  Whatever the modifier returns, each call
leaves less than a count on each axis and sends counts that fit into an `int`; and on an axis
that stays in range, the counts and the last remainder are the first remainder and the
motion. -/
theorem subpixel_conserved (fs : List (Frame K)) (remainder : Extended K × Extended K) :
    (fs ≠ [] → Small (frames fs remainder).2.1 ∧ Small (frames fs remainder).2.2) ∧
    (∀ out ∈ (frames fs remainder).1, (-2147483648 ≤ out.1 ∧ out.1 ≤ 2147483647) ∧
      -2147483648 ≤ out.2 ∧ out.2 ≤ 2147483647) ∧
    (AllInRange (fs.map fun f => f.modified.1) remainder.1 →
      .finite (((frames fs remainder).1.map Prod.fst).sum : K) + (frames fs remainder).2.1 =
        remainder.1 + (fs.map fun f => f.modified.1).sum) ∧
    (AllInRange (fs.map fun f => f.modified.2) remainder.2 →
      .finite (((frames fs remainder).1.map Prod.snd).sum : K) + (frames fs remainder).2.2 =
        remainder.2 + (fs.map fun f => f.modified.2).sum) := by
  obtain ⟨hx, hy⟩ := frames_eq fs remainder
  obtain ⟨houtsX, hlastX⟩ := Prod.mk.inj hx
  obtain ⟨houtsY, hlastY⟩ := Prod.mk.inj hy
  refine ⟨fun hfs => ?_, fun out hout => ⟨?_, ?_⟩, fun hrange => ?_, fun hrange => ?_⟩
  · rw [hlastX, hlastY]
    exact ⟨axisRun_small (by simpa using hfs) _, axisRun_small (by simpa using hfs) _⟩
  · exact axisRun_bounds _ _ _ (houtsX ▸ List.mem_map_of_mem hout)
  · exact axisRun_bounds _ _ _ (houtsY ▸ List.mem_map_of_mem hout)
  · rw [houtsX, hlastX]
    exact axisRun_conserved hrange
  · rw [houtsY, hlastY]
    exact axisRun_conserved hrange

/-- Frames along an axis, with a modifier that halves the motion. -/
def halved (x : ℚ) : Frame ℚ where
  modify
    | (.finite x, y) => (.finite (x / 2), y)
    | d => d
  d := (.finite x, 0)

/-- Three counts and one back, halved, are one count. -/
theorem subpixel_conserved_halved :
    .finite (((frames [halved 3, halved (-1)] 0).1.map Prod.fst).sum : ℚ) +
      (frames [halved 3, halved (-1)] 0).2.1 = .finite 1 := by
  have hfirst : Extended.finite (3 / 2 : ℚ) + 0 = .finite (3 / 2) := by decide +kernel
  have hsecond : Extended.finite (-1 / 2 : ℚ) +
      carry (.finite (3 / 2) + 0) (count (Extended.finite (3 / 2 : ℚ) + 0)) = .finite 0 := by
    decide +kernel
  have hrange : AllInRange [.finite (3 / 2 : ℚ), .finite (-1 / 2)] 0 :=
    ⟨⟨_, hfirst, by norm_num, by norm_num⟩, ⟨_, hsecond, by norm_num, by norm_num⟩, trivial⟩
  refine ((subpixel_conserved [halved 3, halved (-1)] 0).2.2.1 hrange).trans ?_
  decide +kernel

end AbrekMouse.MotionMath
