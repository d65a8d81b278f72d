import Mathlib.Tactic.Ring
import Mathlib.Tactic.Linarith
import Mathlib.Algebra.Order.Ring.Nat

/-! # Binary floating-point numbers

IEEE 754 binary formats with one nan.  A finite number is a sign and a magnitude
counted in units of the smallest subnormal, so a magnitude is a natural number and
a format is the set of magnitudes it can hold (`Format.Fits`).  Every operation
computes the exact result as a fraction and rounds it to the nearest magnitude,
ties to even (`Format.round`), overflow giving an infinity.

Rounding leaves a magnitude that fits as it is (`Format.round_of_fits`) and never
passes one (`Format.round_le`); the laws of conversion, of comparison and of
clamping follow from these two.
-/
namespace ProgLib

/-- A binary format: `prec` bits of significand, magnitudes in units of
`2 ^ (-unit)` and below `2 ^ top`. -/
structure Format where
  prec : ℕ
  unit : ℕ
  top : ℕ
  prec_pos : 0 < prec
  one_in_range : prec + unit ≤ top

/-- IEEE 754 binary64, the C++ `double`. -/
def binary64 : Format := ⟨53, 1074, 2098, by decide, by decide⟩

/-- IEEE 754 binary32, the C++ `float`. -/
def binary32 : Format := ⟨24, 149, 277, by decide, by decide⟩

namespace Format
variable (F : Format)

/-- The number of low bits that a magnitude near `m` must leave zero. -/
def shift (m : ℕ) : ℕ := m.log2 + 1 - F.prec

/-- The magnitudes that the format can hold. -/
def Fits (m : ℕ) : Prop := m < 2 ^ F.top ∧ m % 2 ^ F.shift m = 0

instance (m : ℕ) : Decidable (F.Fits m) := inferInstanceAs (Decidable (_ ∧ _))

/-- The magnitude nearest to `num / den`, ties to the even significand.  It may
lie past the top of the format. -/
def round (num den : ℕ) : ℕ :=
  let ulp := 2 ^ F.shift (num / den)
  let k := num / (den * ulp)
  let r := num % (den * ulp)
  if den * ulp < 2 * r ∨ (den * ulp = 2 * r ∧ k % 2 = 1) then (k + 1) * ulp else k * ulp

variable {F}

theorem shift_mono {m n : ℕ} (h : m ≤ n) : F.shift m ≤ F.shift n := by
  have hlog : m.log2 ≤ n.log2 := by
    rcases Nat.eq_zero_or_pos m with rfl | hm
    · simp
    · exact (Nat.le_log2 (by omega)).mpr ((Nat.log2_self_le (by omega)).trans h)
  unfold shift
  omega

/-- A significand of at most `prec` bits, scaled, fits. -/
theorem fits_mul_pow {k e : ℕ} (hk : k < 2 ^ F.prec) (htop : k * 2 ^ e < 2 ^ F.top) :
    F.Fits (k * 2 ^ e) := by
  refine ⟨htop, ?_⟩
  rcases Nat.eq_zero_or_pos k with rfl | hpos
  · simp
  · have hne : k * 2 ^ e ≠ 0 := by positivity
    have hlog : (k * 2 ^ e).log2 < F.prec + e := by
      rw [Nat.log2_lt hne, pow_add]
      exact Nat.mul_lt_mul_of_pos_right hk (by positivity)
    have hshift : F.shift (k * 2 ^ e) ≤ e := by
      unfold shift
      omega
    exact Nat.mod_eq_zero_of_dvd ((pow_dvd_pow 2 hshift).trans (Nat.dvd_mul_left _ _))

/-- **A magnitude fits when it is a scaled significand**: the two ways of saying so
agree. -/
theorem fits_iff {m : ℕ} :
    F.Fits m ↔ m < 2 ^ F.top ∧ ∃ k e, k < 2 ^ F.prec ∧ m = k * 2 ^ e := by
  constructor
  · rintro ⟨htop, hmod⟩
    refine ⟨htop, m / 2 ^ F.shift m, F.shift m, ?_, ?_⟩
    · have hm : m < 2 ^ (m.log2 + 1) := Nat.lt_log2_self
      have hle : m.log2 + 1 ≤ F.prec + F.shift m := by
        unfold shift
        omega
      rw [Nat.div_lt_iff_lt_mul (by positivity), ← pow_add]
      exact hm.trans_le (Nat.pow_le_pow_right (by decide) hle)
    · exact (Nat.div_mul_cancel (Nat.dvd_of_mod_eq_zero hmod)).symm
  · rintro ⟨htop, k, e, hk, rfl⟩
    exact fits_mul_pow hk htop

theorem fits_zero : F.Fits 0 := by
  refine ⟨by positivity, by simp⟩

/-- An integer of at most `prec` bits, counted in units, fits. -/
theorem fits_int {m : ℕ} (h : m < 2 ^ F.prec) : F.Fits (m * 2 ^ F.unit) := by
  refine fits_mul_pow h ?_
  calc m * 2 ^ F.unit < 2 ^ F.prec * 2 ^ F.unit := Nat.mul_lt_mul_of_pos_right h (by positivity)
    _ = 2 ^ (F.prec + F.unit) := (pow_add 2 _ _).symm
    _ ≤ 2 ^ F.top := Nat.pow_le_pow_right (by decide) F.one_in_range

/-- The largest magnitude of the format. -/
def maxMag (F : Format) : ℕ := (2 ^ F.prec - 1) * 2 ^ (F.top - F.prec)

theorem fits_maxMag : F.Fits F.maxMag := by
  have hprec : F.prec ≤ F.top := (Nat.le_add_right _ _).trans F.one_in_range
  have hlt : 2 ^ F.prec - 1 < 2 ^ F.prec := Nat.sub_lt (by positivity) one_pos
  refine fits_mul_pow hlt ?_
  calc (2 ^ F.prec - 1) * 2 ^ (F.top - F.prec)
      < 2 ^ F.prec * 2 ^ (F.top - F.prec) := Nat.mul_lt_mul_of_pos_right hlt (by positivity)
    _ = 2 ^ F.top := by rw [← pow_add, Nat.add_sub_cancel' hprec]

theorem Fits.le_maxMag {m : ℕ} (hm : F.Fits m) : m ≤ F.maxMag := by
  have hprec : F.prec ≤ F.top := (Nat.le_add_right _ _).trans F.one_in_range
  obtain ⟨htop, k, e, hk, rfl⟩ := fits_iff.mp hm
  unfold maxMag
  rcases le_total e (F.top - F.prec) with he | he
  · exact Nat.mul_le_mul (by omega) (Nat.pow_le_pow_right (by decide) he)
  · -- a coarser grid: `k` is below `2 ^ (top - e)`, so the product loses a whole step
    obtain ⟨d, hd⟩ := Nat.exists_eq_add_of_le he
    have hsplit : 2 ^ F.top = 2 ^ F.prec * 2 ^ (F.top - F.prec) := by
      rw [← pow_add, Nat.add_sub_cancel' hprec]
    have hstep : k * 2 ^ e = k * 2 ^ d * 2 ^ (F.top - F.prec) := by
      rw [hd, pow_add]
      ring
    have hlt : k * 2 ^ d < 2 ^ F.prec := by
      rw [hstep, hsplit] at htop
      exact Nat.lt_of_mul_lt_mul_right htop
    rw [hstep]
    exact Nat.mul_le_mul_right _ (by omega)

/-- The remainder of two magnitudes that fit fits: `fmod` is exact. -/
theorem Fits.mod {m n : ℕ} (hm : F.Fits m) (hn : F.Fits n) : F.Fits (m % n) := by
  rcases Nat.eq_zero_or_pos n with rfl | hpos
  · simpa using hm
  obtain ⟨hmt, a, e, ha, hme⟩ := fits_iff.mp hm
  obtain ⟨hnt, b, f, hb, hnf⟩ := fits_iff.mp hn
  refine fits_iff.mpr ⟨(Nat.mod_le m n).trans_lt hmt, ?_⟩
  rcases le_total f e with hfe | hef
  · -- the divisor has the finer grid, and the remainder is below the divisor
    obtain ⟨d, rfl⟩ := Nat.exists_eq_add_of_le hfe
    have hb0 : 0 < b := Nat.pos_of_ne_zero (by rintro rfl; simp [hnf] at hpos)
    refine ⟨a * 2 ^ d % b, f, (Nat.mod_lt _ hb0).trans hb, ?_⟩
    rw [hme, hnf, pow_add, mul_comm (2 ^ f), ← mul_assoc, Nat.mul_mod_mul_right]
  · -- the dividend has the finer grid, and the remainder is at most the dividend
    obtain ⟨d, rfl⟩ := Nat.exists_eq_add_of_le hef
    refine ⟨a % (b * 2 ^ d), e, (Nat.mod_le _ _).trans_lt ha, ?_⟩
    rw [hme, hnf, pow_add, mul_comm (2 ^ e), ← mul_assoc, Nat.mul_mod_mul_right]

/-! ## Rounding -/

/-- **Rounding is exact where it can be.** -/
theorem round_of_fits {m den : ℕ} (hm : F.Fits m) (hden : 0 < den) :
    F.round (m * den) den = m := by
  have hq : m * den / den = m := Nat.mul_div_cancel m hden
  obtain ⟨c, hc⟩ := Nat.dvd_of_mod_eq_zero hm.2
  have hpos : 0 < den * 2 ^ F.shift m := by positivity
  have hm' : m * den = c * (den * 2 ^ F.shift m) := by
    calc m * den = 2 ^ F.shift m * c * den := by rw [← hc]
      _ = c * (den * 2 ^ F.shift m) := by ring
  have hk : m * den / (den * 2 ^ F.shift m) = c := by
    rw [hm']
    exact Nat.mul_div_cancel c hpos
  have hr : m * den % (den * 2 ^ F.shift m) = 0 := by
    rw [hm']
    exact Nat.mul_mod_left c _
  have hkeep : ¬(den * 2 ^ F.shift m < 2 * 0 ∨
      den * 2 ^ F.shift m = 2 * 0 ∧ c % 2 = 1) := by
    omega
  unfold round
  simp only [hq, hk, hr]
  rw [if_neg hkeep, mul_comm]
  exact hc.symm

/-- **Rounding never passes a magnitude that fits.** -/
theorem round_le {num den n : ℕ} (hden : 0 < den) (hn : F.Fits n) (h : num ≤ n * den) :
    F.round num den ≤ n := by
  have hq : num / den ≤ n := Nat.div_le_of_le_mul (by rwa [mul_comm])
  have hdvd : 2 ^ F.shift (num / den) ∣ n :=
    (pow_dvd_pow 2 (shift_mono hq)).trans (Nat.dvd_of_mod_eq_zero hn.2)
  obtain ⟨c, hc⟩ := hdvd
  unfold round
  generalize hu : 2 ^ F.shift (num / den) = u at *
  have hupos : 0 < u := hu ▸ by positivity
  have hsplit := Nat.div_add_mod num (den * u)
  have hr := Nat.mod_lt num (Nat.mul_pos hden hupos)
  have hnum : num ≤ den * u * c := by
    calc num ≤ n * den := h
      _ = den * u * c := by rw [hc]; ring
  dsimp only
  rw [hc, mul_comm u c]
  split_ifs with hup
  · -- rounding up leaves a remainder, so the quotient is strictly below `c`
    have hr0 : 0 < num % (den * u) := by
      rcases hup with hlt | ⟨heq, -⟩
      · omega
      · have := Nat.mul_pos hden hupos
        omega
    refine Nat.mul_le_mul_right u (Nat.succ_le_of_lt ?_)
    exact Nat.lt_of_mul_lt_mul_left (a := den * u) (by omega)
  · refine Nat.mul_le_mul_right u ?_
    exact Nat.div_le_of_le_mul hnum

/-- A rounded magnitude below the top of the format fits. -/
theorem fits_round {num den : ℕ} (htop : F.round num den < 2 ^ F.top) :
    F.Fits (F.round num den) := by
  set e := F.shift (num / den) with he
  have hk : num / (den * 2 ^ e) < 2 ^ F.prec := by
    rw [← Nat.div_div_eq_div_mul, Nat.div_lt_iff_lt_mul (by positivity), ← pow_add]
    refine Nat.lt_log2_self.trans_le (Nat.pow_le_pow_right (by decide) ?_)
    rw [he]
    unfold shift
    omega
  unfold round at htop ⊢
  simp only [← he] at htop ⊢
  split_ifs at htop ⊢ with hup
  · rcases Nat.lt_or_ge (num / (den * 2 ^ e) + 1) (2 ^ F.prec) with hlt | hge
    · exact fits_mul_pow hlt htop
    · -- the significand overflows to the next power of two
      have hval : (num / (den * 2 ^ e) + 1) * 2 ^ e = 1 * 2 ^ (F.prec + e) := by
        rw [show num / (den * 2 ^ e) + 1 = 2 ^ F.prec by omega, one_mul, pow_add]
      rw [hval] at htop ⊢
      exact fits_mul_pow (Nat.one_lt_two_pow F.prec_pos.ne') htop
  · exact fits_mul_pow hk htop

end Format

/-- A number of format `F`; a finite one is a sign and a magnitude. -/
inductive Fp (F : Format)
  | nan
  | inf (neg : Bool)
  | fin (neg : Bool) (mag : ℕ) (fits : F.Fits mag)
deriving DecidableEq

namespace Fp
variable {F G : Format}

/-- Not a number. -/
def isNan : Fp F → Bool
  | nan => true
  | _ => false

/-- Neither infinite nor a nan. -/
def isFinite : Fp F → Bool
  | fin _ _ _ => true
  | _ => false

/-- The place of a number on the line, in units of the format.  Both zeros are at
`0`, and the infinities are just past the largest magnitude. -/
def key : Fp F → ℤ
  | nan => 0
  | inf neg => if neg then -2 ^ F.top else 2 ^ F.top
  | fin neg m _ => if neg then -m else m

/-- The ordered comparisons; a nan is on neither side of any of them. -/
instance : LT (Fp F) := ⟨fun x y => x.isNan = false ∧ y.isNan = false ∧ x.key < y.key⟩
instance : LE (Fp F) := ⟨fun x y => x.isNan = false ∧ y.isNan = false ∧ x.key ≤ y.key⟩

instance (x y : Fp F) : Decidable (x < y) := inferInstanceAs (Decidable (_ ∧ _))
instance (x y : Fp F) : Decidable (x ≤ y) := inferInstanceAs (Decidable (_ ∧ _))

/-- IEEE equality: the zeros are equal, and a nan equals nothing. -/
def eq (x y : Fp F) : Bool := !x.isNan && !y.isNan && x.key == y.key

/-! ## Operations -/

/-- The number nearest to `num / den` units, of the given sign. -/
@[irreducible] def ofRatio (neg : Bool) (num den : ℕ) : Fp F :=
  if h : F.round num den < 2 ^ F.top then fin neg (F.round num den) (Format.fits_round h)
  else inf neg

/-- The number nearest to an integer. -/
def ofInt (z : ℤ) : Fp F := ofRatio (decide (z < 0)) (z.natAbs * 2 ^ F.unit) 1

/-- Decimal literals round once, from the exact decimal. -/
instance : OfScientific (Fp F) :=
  ⟨fun m negExp e =>
    if negExp then ofRatio false (m * 2 ^ F.unit) (10 ^ e)
    else ofRatio false (m * 10 ^ e * 2 ^ F.unit) 1⟩

instance (n : ℕ) : OfNat (Fp F) n := ⟨ofInt n⟩

instance : Neg (Fp F) :=
  ⟨fun
    | nan => nan
    | inf neg => inf !neg
    | fin neg m h => fin (!neg) m h⟩

/-- Addition.  An exact zero is negative only when both operands are. -/
def add : Fp F → Fp F → Fp F
  | nan, _ => nan
  | _, nan => nan
  | inf s, inf t => if s = t then inf s else nan
  | inf s, fin _ _ _ => inf s
  | fin _ _ _, inf t => inf t
  | x@(fin s _ _), y@(fin t _ _) =>
      let z := x.key + y.key
      ofRatio (if z = 0 then s && t else decide (z < 0)) z.natAbs 1

/-- The product, rounded once. -/
def mul : Fp F → Fp F → Fp F
  | nan, _ => nan
  | _, nan => nan
  | inf s, inf t => inf (s ^^ t)
  | inf s, fin t m _ => if m = 0 then nan else inf (s ^^ t)
  | fin s m _, inf t => if m = 0 then nan else inf (s ^^ t)
  | fin s m _, fin t n _ => ofRatio (s ^^ t) (m * n) (2 ^ F.unit)

/-- The remainder of the truncated quotient, with the sign of the dividend. -/
def fmod : Fp F → Fp F → Fp F
  | nan, _ => nan
  | _, nan => nan
  | inf _, _ => nan
  | x@(fin _ _ _), inf _ => x
  | fin s m hm, fin _ n hn => if n = 0 then nan else fin s (m % n) (hm.mod hn)

instance : Add (Fp F) := ⟨add⟩
instance : Mul (Fp F) := ⟨mul⟩

/-- Conversion between formats, rounding the magnitude. -/
def convert : Fp F → Fp G
  | nan => nan
  | inf neg => inf neg
  | fin neg m _ => ofRatio neg (m * 2 ^ G.unit) (2 ^ F.unit)

/-- Truncation towards zero; `0` where the value is not finite. -/
def trunc : Fp F → ℤ
  | fin neg m _ => if neg then -(m / 2 ^ F.unit : ℕ) else (m / 2 ^ F.unit : ℕ)
  | _ => 0

/-! ## Comparison -/

theorem isNan_of_isFinite {x : Fp F} (h : x.isFinite = true) : x.isNan = false := by
  cases x <;> first | rfl | cases h

/-- Finite numbers compare as their places do. -/
theorem lt_iff_key {x y : Fp F} (hx : x.isFinite = true) (hy : y.isFinite = true) :
    x < y ↔ x.key < y.key :=
  ⟨fun h => h.2.2, fun h => ⟨isNan_of_isFinite hx, isNan_of_isFinite hy, h⟩⟩

theorem le_iff_key {x y : Fp F} (hx : x.isFinite = true) (hy : y.isFinite = true) :
    x ≤ y ↔ x.key ≤ y.key :=
  ⟨fun h => h.2.2, fun h => ⟨isNan_of_isFinite hx, isNan_of_isFinite hy, h⟩⟩

theorem lt_irrefl (x : Fp F) : ¬x < x := fun h => Int.lt_irrefl _ h.2.2

theorem lt_asymm {x y : Fp F} (h : x < y) : ¬y < x := fun h' => by
  have := h.2.2
  have := h'.2.2
  omega

/-- The number of largest magnitude. -/
def maxFinite : Fp F := fin false F.maxMag Format.fits_maxMag

theorem isFinite_maxFinite : (maxFinite : Fp F).isFinite = true := rfl

theorem isFinite_neg_maxFinite : (-maxFinite : Fp F).isFinite = true := rfl

theorem not_maxFinite_lt {x : Fp F} (h : x.isFinite = true) : ¬maxFinite < x := by
  rcases x with _ | _ | ⟨neg, m, hm⟩
  · cases h
  · cases h
  · intro hlt
    have hle := hm.le_maxMag
    have hkey := hlt.2.2
    cases neg <;> simp only [maxFinite, key, Bool.false_eq_true, if_true, if_false] at hkey <;>
      omega

theorem not_lt_neg_maxFinite {x : Fp F} (h : x.isFinite = true) : ¬x < -maxFinite := by
  rcases x with _ | _ | ⟨neg, m, hm⟩
  · cases h
  · cases h
  · intro hlt
    have hle := hm.le_maxMag
    have hkey : key _ < key (fin true F.maxMag Format.fits_maxMag) := hlt.2.2
    cases neg <;> simp only [key, Bool.false_eq_true, if_true, if_false] at hkey <;> omega

/-! ## Clamping -/

/-- `x` if it is finite, else a default. -/
@[irreducible] def finiteOr (dflt x : Fp F) : Fp F := if x.isFinite then x else dflt

/-- `if (x < lo) x = lo`. -/
@[irreducible] def floorAt (lo x : Fp F) : Fp F := if x < lo then lo else x

/-- `if (x > hi) x = hi`. -/
@[irreducible] def ceilAt (hi x : Fp F) : Fp F := if x > hi then hi else x

/-- `x` is finite and neither below `lo` nor above `hi`. -/
structure Within (lo hi x : Fp F) : Prop where
  finite : x.isFinite = true
  not_below : ¬x < lo
  not_above : ¬x > hi

theorem finiteOr_finite {dflt : Fp F} (hd : dflt.isFinite = true) (x : Fp F) :
    (finiteOr dflt x).isFinite = true := by
  unfold finiteOr
  split <;> assumption

@[simp] theorem finiteOr_of_finite {dflt x : Fp F} (h : x.isFinite = true) :
    finiteOr dflt x = x := by
  rw [finiteOr, if_pos h]

@[simp] theorem floorAt_of_not_lt {lo x : Fp F} (h : ¬x < lo) : floorAt lo x = x := by
  rw [floorAt, if_neg h]

@[simp] theorem ceilAt_of_not_gt {hi x : Fp F} (h : ¬x > hi) : ceilAt hi x = x := by
  rw [ceilAt, if_neg h]

theorem floorAt_finite {lo x : Fp F} (hlo : lo.isFinite = true) (hx : x.isFinite = true) :
    (floorAt lo x).isFinite = true := by
  unfold floorAt
  split <;> assumption

theorem ceilAt_finite {hi x : Fp F} (hhi : hi.isFinite = true) (hx : x.isFinite = true) :
    (ceilAt hi x).isFinite = true := by
  unfold ceilAt
  split <;> assumption

theorem floorAt_not_lt (lo x : Fp F) : ¬floorAt lo x < lo := by
  unfold floorAt
  split
  · exact lt_irrefl lo
  · assumption

theorem ceilAt_not_gt (hi x : Fp F) : ¬ceilAt hi x > hi := by
  unfold ceilAt
  split
  · exact lt_irrefl hi
  · assumption

/-- A ceiling at or above a floor does not undo it. -/
theorem ceilAt_not_lt {lo hi x : Fp F} (h : ¬hi < lo) (hx : ¬x < lo) : ¬ceilAt hi x < lo := by
  unfold ceilAt
  split <;> assumption

/-- A common ceiling keeps two numbers in order. -/
theorem ceilAt_not_lt_ceilAt {hi x y : Fp F} (hhi : hi.isFinite = true) (hx : x.isFinite = true)
    (hy : y.isFinite = true) (h : ¬x < y) : ¬ceilAt hi x < ceilAt hi y := by
  unfold ceilAt
  simp only [gt_iff_lt, lt_iff_key hhi hx, lt_iff_key hhi hy]
  rw [lt_iff_key hx hy] at h
  split_ifs
  · exact lt_irrefl hi
  · rwa [lt_iff_key hhi hy]
  · rw [lt_iff_key hx hhi]
    omega
  · rwa [lt_iff_key hx hy]

theorem not_lt_trans {x y z : Fp F} (hx : x.isFinite = true) (hy : y.isFinite = true)
    (hz : z.isFinite = true) (hxy : ¬y < x) (hyz : ¬z < y) : ¬z < x := by
  rw [lt_iff_key hy hx] at hxy
  rw [lt_iff_key hz hy] at hyz
  rw [lt_iff_key hz hx]
  omega

/-- **A clamp lands between its bounds.** -/
theorem within_clamp {lo hi x : Fp F} (hlo : lo.isFinite = true) (hhi : hi.isFinite = true)
    (h : ¬hi < lo) (hx : x.isFinite = true) : Within lo hi (ceilAt hi (floorAt lo x)) :=
  ⟨ceilAt_finite hhi (floorAt_finite hlo hx),
    ceilAt_not_lt h (floorAt_not_lt lo x), ceilAt_not_gt hi _⟩

theorem Within.clamp_eq {lo hi x : Fp F} (h : Within lo hi x) : ceilAt hi (floorAt lo x) = x := by
  rw [floorAt_of_not_lt h.not_below, ceilAt_of_not_gt h.not_above]

/-! ## Remainder and sum -/

@[simp] theorem natAbs_key_fin (neg : Bool) {m : ℕ} (hm : F.Fits m) :
    (fin neg m hm).key.natAbs = m := by
  cases neg <;> simp [key]

theorem fmod_fin_fin (s t : Bool) {m n : ℕ} (hm : F.Fits m) (hn : F.Fits n) :
    fmod (fin s m hm) (fin t n hn) =
      if n = 0 then nan else fin s (m % n) (hm.mod hn) := rfl

/-- The remainder is finite and smaller than the divisor. -/
theorem fmod_finite {x y : Fp F} (hx : x.isFinite = true) (hy : y.isFinite = true)
    (hy0 : y.key ≠ 0) :
    (fmod x y).isFinite = true ∧ (fmod x y).key.natAbs < y.key.natAbs := by
  rcases x with _ | _ | ⟨s, m, hm⟩
  · cases hx
  · cases hx
  rcases y with _ | _ | ⟨t, n, hn⟩
  · cases hy
  · cases hy
  have hn0 : n ≠ 0 := by
    rintro rfl
    exact hy0 (by cases t <;> rfl)
  rw [fmod_fin_fin, if_neg hn0, natAbs_key_fin, natAbs_key_fin]
  exact ⟨rfl, Nat.mod_lt m (Nat.pos_of_ne_zero hn0)⟩

/-- A dividend smaller than the divisor is its own remainder. -/
theorem fmod_of_lt {x y : Fp F} (hx : x.isFinite = true) (hy : y.isFinite = true)
    (h : x.key.natAbs < y.key.natAbs) : fmod x y = x := by
  rcases x with _ | _ | ⟨s, m, hm⟩
  · cases hx
  · cases hx
  rcases y with _ | _ | ⟨t, n, hn⟩
  · cases hy
  · cases hy
  rw [natAbs_key_fin, natAbs_key_fin] at h
  rw [fmod_fin_fin, if_neg (by omega)]
  simp only [Nat.mod_eq_of_lt h]

/-- **A rounded sum does not pass a bound that the exact sum respects.** -/
theorem add_between {x y z : Fp F} (hx : x.isFinite = true) (hy : y.isFinite = true)
    (hz : z.isFinite = true) (h0 : 0 ≤ x.key + y.key) (hle : x.key + y.key ≤ z.key) :
    (x + y).isFinite = true ∧ 0 ≤ (x + y).key ∧ (x + y).key ≤ z.key := by
  rcases z with _ | _ | ⟨u, l, hl⟩
  · cases hz
  · cases hz
  rcases x with _ | _ | ⟨s, m, hm⟩
  · cases hx
  · cases hx
  rcases y with _ | _ | ⟨t, n, hn⟩
  · cases hy
  · cases hy
  set w := (fin s m hm).key + (fin t n hn).key with hw
  have hlz : w.natAbs ≤ l := by
    have hl' := natAbs_key_fin u hl
    omega
  have hround : F.round w.natAbs 1 ≤ l := Format.round_le one_pos hl (by omega)
  have hsum : fin s m hm + fin t n hn =
      ofRatio (if w = 0 then s && t else decide (w < 0)) w.natAbs 1 := rfl
  rw [hsum]
  unfold ofRatio
  rw [dif_pos (hround.trans_lt hl.1)]
  refine ⟨rfl, ?_⟩
  rcases eq_or_lt_of_le h0 with hzero | hpos
  · -- an exact zero rounds to a zero, whatever its sign
    have hw0 : w.natAbs = 0 := by omega
    have hr0 : F.round w.natAbs 1 = 0 := by
      simpa [hw0] using Format.round_of_fits (F.fits_zero) one_pos
    have hkey : ∀ b h, (fin b (F.round w.natAbs 1) h : Fp F).key = 0 := by
      intro b h
      have := natAbs_key_fin b h
      omega
    rw [hkey]
    exact ⟨le_rfl, by omega⟩
  · have hneg : (if w = 0 then s && t else decide (w < 0)) = false := by
      rw [if_neg (by omega), decide_eq_false (by omega)]
    have hlk : (fin u l hl).key = l := by
      have := natAbs_key_fin u hl
      omega
    rw [hlk]
    simp only [hneg, key]
    exact ⟨by simp, by simpa using hround⟩

/-! ## Conversion -/

theorem ofRatio_of_fits {m den : ℕ} (hm : F.Fits m) (hden : 0 < den) (neg : Bool) :
    ofRatio neg (m * den) den = fin neg m hm := by
  have hround := Format.round_of_fits hm hden
  unfold ofRatio
  rw [dif_pos (hround.symm ▸ hm.1)]
  simp only [hround]

/-- The integers that the format holds exactly. -/
def Holds (F : Format) (z : ℤ) : Prop := F.Fits (z.natAbs * 2 ^ F.unit)

instance (z : ℤ) : Decidable (Holds F z) := inferInstanceAs (Decidable (F.Fits _))

/-- An integer of at most `prec` bits is a number of the format. -/
theorem holds_of_lt {z : ℤ} (h : z.natAbs < 2 ^ F.prec) : Holds F z := Format.fits_int h

theorem zero_eq_ofInt : (0 : Fp F) = ofInt 0 := rfl

theorem holds_zero : Holds F 0 := holds_of_lt (by rw [Int.natAbs_zero]; positivity)

theorem Holds.ofInt_eq {z : ℤ} (h : Holds F z) :
    ofInt z = fin (decide (z < 0)) (z.natAbs * 2 ^ F.unit) h := by
  unfold ofInt
  rw [← ofRatio_of_fits h one_pos, mul_one]

theorem Holds.key_ofInt {z : ℤ} (h : Holds F z) : (ofInt z : Fp F).key = z * 2 ^ F.unit := by
  rw [h.ofInt_eq]
  rcases lt_or_ge z 0 with hz | hz
  · have habs : (z.natAbs : ℤ) = -z := by omega
    simp [key, hz, habs]
  · have habs : (z.natAbs : ℤ) = z := by omega
    simp [key, not_lt.mpr hz, habs]

/-- **Sums of integers are exact as long as the format holds them.** -/
theorem Holds.add {z w : ℤ} (hz : Holds F z) (hw : Holds F w) (hsum : Holds F (z + w)) :
    (ofInt z + ofInt w : Fp F) = ofInt (z + w) := by
  have hpos : (0 : ℤ) < 2 ^ F.unit := by positivity
  have hkey : (ofInt z : Fp F).key + (ofInt w : Fp F).key = (z + w) * 2 ^ F.unit := by
    rw [hz.key_ofInt, hw.key_ofInt, add_mul]
  have habs : ((z + w) * 2 ^ F.unit).natAbs = (z + w).natAbs * 2 ^ F.unit := by
    rw [Int.natAbs_mul, Int.natAbs_pow]
    rfl
  have hzero : (z + w) * 2 ^ F.unit = 0 ↔ z + w = 0 := by
    rw [mul_eq_zero, or_iff_left hpos.ne']
  have hneg : (z + w) * 2 ^ F.unit < 0 ↔ z + w < 0 :=
    ⟨fun h => neg_of_mul_neg_left h hpos.le, fun h => mul_neg_of_neg_of_pos h hpos⟩
  have hsign : (if (z + w) * 2 ^ F.unit = 0 then decide (z < 0) && decide (w < 0)
      else decide ((z + w) * 2 ^ F.unit < 0)) = decide (z + w < 0) := by
    simp only [hzero, hneg]
    split_ifs with hsame
    · have hboth : ¬(z < 0 ∧ w < 0) := by omega
      rw [← Bool.decide_and, decide_eq_false hboth, decide_eq_false (by omega)]
    · rfl
  rw [hz.ofInt_eq, hw.ofInt_eq] at hkey
  rw [hsum.ofInt_eq, hz.ofInt_eq, hw.ofInt_eq, ← ofRatio_of_fits hsum one_pos, mul_one, ← habs,
    ← hsign, ← hkey]
  rfl

theorem ofInt_of_lt {z : ℤ} (h : z.natAbs < 2 ^ F.prec) :
    ofInt z = fin (decide (z < 0)) (z.natAbs * 2 ^ F.unit) (Format.fits_int h) :=
  (holds_of_lt h).ofInt_eq

theorem isFinite_ofInt {z : ℤ} (h : z.natAbs < 2 ^ F.prec) : (ofInt z : Fp F).isFinite = true := by
  rw [ofInt_of_lt h]
  rfl

theorem key_ofInt {z : ℤ} (h : z.natAbs < 2 ^ F.prec) : (ofInt z : Fp F).key = z * 2 ^ F.unit :=
  (holds_of_lt h).key_ofInt

/-- Rounding does not reach zero from above. -/
theorem round_pos {num : ℕ} (hnum : 0 < num) : 0 < F.round num 1 := by
  have hprec := F.prec_pos
  have hulp : 2 ^ F.shift (num / 1) ≤ num := by
    have hshift : F.shift (num / 1) ≤ num.log2 := by
      rw [Nat.div_one, Format.shift]
      omega
    exact (Nat.pow_le_pow_right (by decide) hshift).trans (Nat.log2_self_le hnum.ne')
  have hpos : 0 < 2 ^ F.shift (num / 1) := by positivity
  have hk : 0 < num / (1 * 2 ^ F.shift (num / 1)) := by
    rw [one_mul]
    exact Nat.div_pos hulp hpos
  unfold Format.round
  dsimp only
  split_ifs
  · exact Nat.mul_pos (Nat.succ_pos _) hpos
  · exact Nat.mul_pos hk hpos

/-- The negative zero. -/
def IsNegZero (x : Fp F) : Prop := ∃ h, x = fin true 0 h

theorem not_isNegZero_ofRatio {neg : Bool} {num : ℕ} (h : neg = true → 0 < num) :
    ¬(ofRatio neg num 1 : Fp F).IsNegZero := by
  rintro ⟨hfits, heq⟩
  unfold ofRatio at heq
  split_ifs at heq
  obtain ⟨hneg, hmag⟩ := Fp.fin.inj heq
  exact absurd hmag (round_pos (h hneg)).ne'

theorem not_isNegZero_ofInt (z : ℤ) : ¬(ofInt z : Fp F).IsNegZero := by
  refine not_isNegZero_ofRatio fun hneg => ?_
  have hz : 0 < z.natAbs := Int.natAbs_pos.mpr (of_decide_eq_true hneg).ne
  positivity

theorem not_isNegZero_zero : ¬(0 : Fp F).IsNegZero := not_isNegZero_ofInt 0

/-- A sum is the negative zero only if both of its summands are. -/
theorem not_isNegZero_add {x y : Fp F} (hx : ¬x.IsNegZero) : ¬(x + y).IsNegZero := by
  rintro ⟨hfits, heq⟩
  change add x y = _ at heq
  cases x with
  | nan => cases heq
  | inf s =>
      cases y with
      | nan => cases heq
      | inf t =>
          change (if s = t then inf s else nan) = _ at heq
          split_ifs at heq
      | fin t n hn => cases heq
  | fin s m hm =>
      cases y with
      | nan => cases heq
      | inf t => cases heq
      | fin t n hn =>
          refine not_isNegZero_ofRatio (fun hsign => ?_) ⟨hfits, heq⟩
          split_ifs at hsign with hzero
          · obtain ⟨rfl, rfl⟩ := (Bool.and_eq_true _ _).mp hsign
            have hm0 : m = 0 := by
              simp only [key, if_true] at hzero
              omega
            subst hm0
            exact absurd ⟨hm, rfl⟩ hx
          · exact Int.natAbs_pos.mpr hzero

theorem zero_add_of_not_isNegZero {x : Fp F} (hx : ¬x.IsNegZero) : 0 + x = x := by
  have hzero : (0 : Fp F) = fin false 0 Format.fits_zero := by
    rw [zero_eq_ofInt, holds_zero.ofInt_eq]
    congr 1
    simp
  rw [hzero]
  cases x with
  | nan => rfl
  | inf s => rfl
  | fin t m hm =>
      have hmag : 0 < m ∨ t = false := by
        by_contra hnot
        obtain ⟨hm0, ht⟩ := not_or.mp hnot
        obtain rfl : m = 0 := by omega
        exact hx ⟨hm, by rw [Bool.eq_true_of_not_eq_false ht]⟩
      have hkey : (fin t m hm).key = if t then -(m : ℤ) else m := rfl
      have hzero : (fin false 0 Format.fits_zero : Fp F).key = 0 := rfl
      have hsum : (fin false 0 Format.fits_zero : Fp F) + fin t m hm =
          ofRatio (if (fin t m hm).key = 0 then false && t else decide ((fin t m hm).key < 0))
            (fin t m hm).key.natAbs 1 := by
        change ofRatio (if _ + _ = 0 then _ else _) _ 1 = _
        rw [hzero, zero_add]
      have hsign : (if (fin t m hm).key = 0 then false && t
          else decide ((fin t m hm).key < 0)) = t := by
        rw [hkey]
        cases t with
        | true =>
            have hpos : 0 < m := hmag.resolve_right Bool.noConfusion
            simp [hpos.ne', hpos]
        | false => simp
      rw [hsum, hsign, natAbs_key_fin]
      have hround := ofRatio_of_fits hm one_pos t
      rwa [mul_one] at hround

theorem ofInt_lt_iff {z w : ℤ} (hz : z.natAbs < 2 ^ F.prec) (hw : w.natAbs < 2 ^ F.prec) :
    (ofInt z : Fp F) < ofInt w ↔ z < w := by
  rw [lt_iff_key (isFinite_ofInt hz) (isFinite_ofInt hw), key_ofInt hz, key_ofInt hw]
  exact Int.mul_lt_mul_right (by positivity)

theorem trunc_ofInt {z : ℤ} (h : z.natAbs < 2 ^ F.prec) : (ofInt z : Fp F).trunc = z := by
  rw [ofInt_of_lt h]
  simp only [trunc, Nat.mul_div_cancel _ (Nat.two_pow_pos F.unit), decide_eq_true_eq]
  split <;> omega

end Fp

/-- Every number of `F` is a number of `G`. -/
structure Format.Sub (F G : Format) : Prop where
  unit : F.unit ≤ G.unit
  prec : F.prec ≤ G.prec
  top : F.top + (G.unit - F.unit) ≤ G.top

theorem binary32_sub_binary64 : binary32.Sub binary64 := ⟨by decide, by decide, by decide⟩

namespace Fp
variable {F G : Format}

theorem fits_widen (hs : F.Sub G) {m : ℕ} (hm : F.Fits m) :
    G.Fits (m * 2 ^ (G.unit - F.unit)) := by
  obtain ⟨htop, k, e, hk, rfl⟩ := Format.fits_iff.mp hm
  refine Format.fits_iff.mpr ⟨?_, k, e + (G.unit - F.unit), ?_, ?_⟩
  · refine (Nat.mul_lt_mul_of_pos_right htop (by positivity)).trans_le ?_
    rw [← pow_add]
    exact Nat.pow_le_pow_right (by decide) hs.top
  · exact hk.trans_le (Nat.pow_le_pow_right (by decide) hs.prec)
  · rw [pow_add, mul_assoc]

/-- Widening is exact. -/
theorem convert_widen (hs : F.Sub G) (neg : Bool) {m : ℕ} (hm : F.Fits m) :
    (convert (fin neg m hm) : Fp G) =
      fin neg (m * 2 ^ (G.unit - F.unit)) (fits_widen hs hm) := by
  have hunits : m * 2 ^ G.unit = m * 2 ^ (G.unit - F.unit) * 2 ^ F.unit := by
    rw [mul_assoc, ← pow_add, Nat.sub_add_cancel hs.unit]
  unfold convert
  simp only
  rw [hunits, ofRatio_of_fits (fits_widen hs hm) (by positivity)]

/-- **Widening and narrowing back is the identity.** -/
theorem convert_convert (hs : F.Sub G) (x : Fp F) : (convert (convert x : Fp G) : Fp F) = x := by
  rcases x with _ | neg | ⟨neg, m, hm⟩
  · rfl
  · rfl
  · have hunits : m * 2 ^ (G.unit - F.unit) * 2 ^ F.unit = m * 2 ^ G.unit := by
      rw [mul_assoc, ← pow_add, Nat.sub_add_cancel hs.unit]
    rw [convert_widen hs]
    unfold convert
    simp only
    rw [hunits, ofRatio_of_fits hm (by positivity)]

theorem isFinite_convert (hs : F.Sub G) {x : Fp F} (h : x.isFinite = true) :
    (convert x : Fp G).isFinite = true := by
  rcases x with _ | neg | ⟨neg, m, hm⟩
  · cases h
  · cases h
  · rw [convert_widen hs]
    rfl

theorem key_convert (hs : F.Sub G) {x : Fp F} (h : x.isFinite = true) :
    (convert x : Fp G).key = x.key * 2 ^ (G.unit - F.unit) := by
  rcases x with _ | neg | ⟨neg, m, hm⟩
  · cases h
  · cases h
  · rw [convert_widen hs]
    cases neg <;> simp [key]

theorem convert_neg (hs : F.Sub G) {x : Fp F} (h : x.isFinite = true) :
    (convert (-x) : Fp G) = -convert x := by
  rcases x with _ | neg | ⟨neg, m, hm⟩
  · cases h
  · cases h
  · rw [convert_widen hs]
    exact convert_widen hs (!neg) hm

/-- Widening keeps the order of finite numbers. -/
theorem convert_lt_iff (hs : F.Sub G) {x y : Fp F} (hx : x.isFinite = true)
    (hy : y.isFinite = true) : (convert x : Fp G) < convert y ↔ x < y := by
  rw [lt_iff_key (isFinite_convert hs hx) (isFinite_convert hs hy), lt_iff_key hx hy,
    key_convert hs hx, key_convert hs hy]
  exact Int.mul_lt_mul_right (by positivity)

end Fp

/-- The C++ `double`. -/
abbrev Double := Fp binary64

/-- The C++ `float`. -/
abbrev Single := Fp binary32

end ProgLib
