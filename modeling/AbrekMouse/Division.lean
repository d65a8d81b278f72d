import AbrekMouse.Binary

/-! # Division and rounding to an integer

Division of binary floating-point numbers, beside the operations of `Fp`, and what is known of
quotients: a finite number divided by one that is not zero is a number (`isNan_div`), and
`trunc (n / d + 0.5)` is the integer nearest to the quotient as long as the format has bits to
spare (`trunc_div_add_half`).  Rounding keeps the order of fractions (`key_ofRatio_mono`), and so
products, quotients and `ceil` keep that of numbers which are not below zero.
-/
namespace ProgLib

namespace Format
variable {F : Format}

/-- A multiple of the unit in the last place that the quotient reaches. -/
theorem mul_le_round {num den c : ℕ} (hden : 0 < den)
    (h : c * 2 ^ F.shift (num / den) * den ≤ num) :
    c * 2 ^ F.shift (num / den) ≤ F.round num den := by
  have hc : c ≤ num / (den * 2 ^ F.shift (num / den)) := by
    refine (Nat.le_div_iff_mul_le (by positivity)).mpr ?_
    calc c * (den * 2 ^ F.shift (num / den)) = c * 2 ^ F.shift (num / den) * den := by ring
      _ ≤ num := h
  unfold round
  dsimp only
  split_ifs
  · exact Nat.mul_le_mul_right _ (hc.trans (Nat.le_succ _))
  · exact Nat.mul_le_mul_right _ hc

/-- Nor does rounding fall below the power of two that the quotient reaches. -/
theorem two_pow_log2_le_round {num den : ℕ} (hden : 0 < den) (hq : num / den ≠ 0) :
    2 ^ (num / den).log2 ≤ F.round num den := by
  have hshift : F.shift (num / den) ≤ (num / den).log2 := by
    have hprec := F.prec_pos
    unfold shift
    omega
  have hpow : 2 ^ ((num / den).log2 - F.shift (num / den)) * 2 ^ F.shift (num / den) =
      2 ^ (num / den).log2 := by
    rw [← pow_add, Nat.sub_add_cancel hshift]
  have hreach : 2 ^ (num / den).log2 * den ≤ num :=
    (Nat.le_div_iff_mul_le hden).mp (Nat.log2_self_le hq)
  have hle := mul_le_round (F := F) hden (hpow.symm ▸ hreach)
  rwa [hpow] at hle

/-- **Rounding does not fall below a magnitude that fits.** -/
theorem le_round {num den n : ℕ} (hden : 0 < den) (hn : F.Fits n) (h : n * den ≤ num) :
    n ≤ F.round num den := by
  have hq : n ≤ num / den := (Nat.le_div_iff_mul_le hden).mpr h
  rcases Nat.eq_zero_or_pos n with rfl | hpos
  · exact Nat.zero_le _
  have hlog : n.log2 ≤ (num / den).log2 :=
    (Nat.le_log2 (by omega)).mpr ((Nat.log2_self_le hpos.ne').trans hq)
  rcases Nat.eq_or_lt_of_le hlog with heq | hlt
  · -- in the binade of the quotient `n` is a multiple of the last place
    have hshift : F.shift n = F.shift (num / den) := by rw [shift, shift, heq]
    obtain ⟨c, hc⟩ := Nat.dvd_of_mod_eq_zero hn.2
    rw [hshift] at hc
    have hmul : n = c * 2 ^ F.shift (num / den) := by rw [hc, mul_comm]
    have hle := mul_le_round (F := F) (c := c) hden (by rwa [← hmul])
    rwa [← hmul] at hle
  · -- below it there is a power of two between them
    have hbelow : n ≤ 2 ^ (num / den).log2 :=
      (Nat.lt_log2_self.trans_le (Nat.pow_le_pow_right (by decide) hlt)).le
    exact hbelow.trans (two_pow_log2_le_round hden (by omega))

/-- With the same unit in the last place a larger magnitude is not rounded to a smaller one. -/
theorem round_mono_of_shift_eq {num num' den : ℕ} (hden : 0 < den) (h : num ≤ num')
    (hshift : F.shift (num / den) = F.shift (num' / den)) : F.round num den ≤ F.round num' den := by
  unfold round
  rw [hshift]
  dsimp only
  generalize hD : den * 2 ^ F.shift (num' / den) = D
  have hD : 0 < D := hD ▸ by positivity
  have hk : num / D ≤ num' / D := Nat.div_le_div_right h
  have hsplit := Nat.div_add_mod num D
  have hsplit' := Nat.div_add_mod num' D
  rcases Nat.eq_or_lt_of_le hk with hsame | hless
  · rw [hsame] at hsplit ⊢
    have hrest : num % D ≤ num' % D := by omega
    split_ifs with hup hup'
    · exact le_refl _
    · omega
    · exact Nat.mul_le_mul_right _ (Nat.le_succ _)
    · exact le_refl _
  · have hstep : (num / D + 1) * 2 ^ F.shift (num' / den) ≤
        num' / D * 2 ^ F.shift (num' / den) := Nat.mul_le_mul_right _ hless
    have hstay : num / D * 2 ^ F.shift (num' / den) ≤
        (num / D + 1) * 2 ^ F.shift (num' / den) := Nat.mul_le_mul_right _ (Nat.le_succ _)
    have hrise : num' / D * 2 ^ F.shift (num' / den) ≤
        (num' / D + 1) * 2 ^ F.shift (num' / den) := Nat.mul_le_mul_right _ (Nat.le_succ _)
    split_ifs
    · exact hstep.trans hrise
    · exact hstep
    · exact hstay.trans (hstep.trans hrise)
    · exact hstay.trans hstep

/-- A larger magnitude is not rounded to a smaller one, as long as the format holds what it is
rounded to: either there is a power of two between them, or they have the same unit in the last
place. -/
theorem round_mono {num num' den : ℕ} (hden : 0 < den) (h : num ≤ num')
    (htop : F.round num' den < 2 ^ F.top) : F.round num den ≤ F.round num' den := by
  have hquot : num / den ≤ num' / den := Nat.div_le_div_right h
  rcases Nat.eq_or_lt_of_le (shift_mono (F := F) hquot) with hshift | hshift
  · exact round_mono_of_shift_eq hden h hshift
  · -- the power of two that the larger one reaches
    have hpos : num' / den ≠ 0 := by
      intro hzero
      rw [hzero] at hquot hshift
      rw [Nat.le_zero.mp hquot] at hshift
      exact Nat.lt_irrefl _ hshift
    have habove := two_pow_log2_le_round (F := F) hden hpos
    have hfits : F.Fits (1 * 2 ^ (num' / den).log2) :=
      fits_mul_pow (Nat.one_lt_two_pow F.prec_pos.ne') ((one_mul _).trans_lt
        (habove.trans_lt htop))
    rw [one_mul] at hfits
    refine (round_le hden hfits ?_).trans habove
    have hbelow : (num / den).log2 < (num' / den).log2 := by
      unfold shift at hshift
      omega
    have hquot : num / den < 2 ^ (num' / den).log2 :=
      Nat.lt_log2_self.trans_le (Nat.pow_le_pow_right (by decide) hbelow)
    exact ((Nat.div_lt_iff_lt_mul hden).mp hquot).le

end Format

namespace Fp
variable {F : Format}

/-- Division.  A number other than zero divided by zero is an infinity. -/
def div : Fp F → Fp F → Fp F
  | nan, _ => nan
  | _, nan => nan
  | inf _, inf _ => nan
  | inf s, fin t _ _ => inf (s ^^ t)
  | fin s _ _, inf t => fin (s ^^ t) 0 F.fits_zero
  | fin s m _, fin t n _ =>
      if n = 0 then if m = 0 then nan else inf (s ^^ t)
      else ofRatio (s ^^ t) (m * 2 ^ F.unit) n

instance : Div (Fp F) := ⟨div⟩

/-- Subtraction is addition of the negation. -/
instance : Sub (Fp F) := ⟨fun x y => x + -y⟩

theorem div_fin_fin {s t : Bool} {m n : ℕ} {hm : F.Fits m} {hn : F.Fits n} (hzero : n ≠ 0) :
    (fin s m hm / fin t n hn : Fp F) = ofRatio (s ^^ t) (m * 2 ^ F.unit) n := if_neg hzero

theorem isNan_ofRatio (neg : Bool) (num den : ℕ) : (ofRatio neg num den : Fp F).isNan = false := by
  unfold ofRatio
  split_ifs <;> rfl

theorem isNan_add {x y : Fp F} (hx : x.isFinite = true) (hy : y.isFinite = true) :
    (x + y).isNan = false := by
  cases x with
  | fin s m hm =>
      cases y with
      | fin t n hn => exact isNan_ofRatio _ _ _
      | nan | inf _ => cases hy
  | nan | inf _ => cases hx

theorem isFinite_neg {x : Fp F} (hx : x.isFinite = true) : (-x).isFinite = true := by
  cases x with
  | fin s m hm => rfl
  | nan | inf _ => cases hx

theorem isNan_sub {x y : Fp F} (hx : x.isFinite = true) (hy : y.isFinite = true) :
    (x - y).isNan = false := isNan_add hx (isFinite_neg hy)

theorem isNan_div {x y : Fp F} (hx : x.isFinite = true) (hy : y.isFinite = true)
    (hzero : y.key ≠ 0) : (x / y).isNan = false := by
  cases x with
  | fin s m hm =>
      cases y with
      | fin t n hn =>
          have hn : n ≠ 0 := by
            rintro rfl
            exact hzero (by cases t <;> rfl)
          rw [div_fin_fin hn]
          exact isNan_ofRatio _ _ _
      | nan | inf _ => cases hy
  | nan | inf _ => cases hx

/-- What is not a nan and not below is above. -/
theorem key_le_of_not_lt {x y : Fp F} (hx : x.isNan = false) (hy : y.isNan = false)
    (h : ¬x < y) : y.key ≤ x.key := by
  by_contra hlt
  exact h ⟨hx, hy, not_le.mp hlt⟩

theorem isNan_div_of_pos {x y : Fp F} (hx : x.isFinite = true) (hy : y.isNan = false)
    (hpos : 0 < y.key) : (x / y).isNan = false := by
  cases y with
  | fin t n hn => exact isNan_div hx rfl hpos.ne'
  | inf t =>
      cases x with
      | fin s m hm => rfl
      | nan | inf _ => cases hx
  | nan => cases hy

/-- A number that is clamped lies between the bounds, whatever it was. -/
theorem clamp_bounds {lo hi x : Fp F} (hx : x.isNan = false) (hle : lo ≤ hi) :
    lo ≤ ceilAt hi (floorAt lo x) ∧ ceilAt hi (floorAt lo x) ≤ hi := by
  obtain ⟨hlo, hhi, hkeys⟩ := hle
  have hfloor : (floorAt lo x).isNan = false ∧ lo.key ≤ (floorAt lo x).key := by
    unfold floorAt
    split_ifs with hbelow
    · exact ⟨hlo, le_rfl⟩
    · exact ⟨hx, key_le_of_not_lt hx hlo hbelow⟩
  generalize floorAt lo x = y at hfloor ⊢
  unfold ceilAt
  split_ifs with habove
  · exact ⟨⟨hlo, hhi, hkeys⟩, hhi, hhi, le_rfl⟩
  · exact ⟨⟨hlo, hfloor.1, hfloor.2⟩, hfloor.1, hhi, key_le_of_not_lt hhi hfloor.1 habove⟩

/-! ## Bounded magnitudes -/

/-- The number is finite and of magnitude at most `2 ^ k`. -/
def AtMost (k : ℕ) (x : Fp F) : Prop := ∃ neg m h, x = fin neg m h ∧ m ≤ 2 ^ k * 2 ^ F.unit

theorem AtMost.isFinite {k : ℕ} {x : Fp F} (h : x.AtMost k) : x.isFinite = true := by
  obtain ⟨neg, m, hm, rfl, -⟩ := h
  rfl

theorem AtMost.mono {j k : ℕ} {x : Fp F} (h : x.AtMost j) (hjk : j ≤ k) : x.AtMost k := by
  obtain ⟨neg, m, hm, rfl, hle⟩ := h
  exact ⟨neg, m, hm, rfl,
    hle.trans (Nat.mul_le_mul_right _ (Nat.pow_le_pow_right (by decide) hjk))⟩

theorem AtMost.ofRatio {k num den : ℕ} (neg : Bool) (hk : k + F.unit < F.top) (hden : 0 < den)
    (h : num ≤ 2 ^ k * 2 ^ F.unit * den) : (Fp.ofRatio neg num den : Fp F).AtMost k := by
  have hfits : F.Fits (1 * 2 ^ (k + F.unit)) :=
    Format.fits_mul_pow (Nat.one_lt_two_pow F.prec_pos.ne')
      (by rw [one_mul]; exact Nat.pow_lt_pow_right (by decide) hk)
  rw [one_mul, pow_add] at hfits
  have hround := Format.round_le hden hfits h
  unfold Fp.ofRatio
  rw [dif_pos (hround.trans_lt hfits.1)]
  exact ⟨_, _, _, rfl, hround⟩

theorem AtMost.ofInt {k : ℕ} {z : ℤ} (hk : k + F.unit < F.top) (h : z.natAbs ≤ 2 ^ k) :
    (Fp.ofInt z : Fp F).AtMost k := by
  refine AtMost.ofRatio _ hk one_pos ?_
  rw [mul_one]
  exact Nat.mul_le_mul_right _ h

theorem AtMost.add {k : ℕ} {x y : Fp F} (hk : k + 1 + F.unit < F.top) (hx : x.AtMost k)
    (hy : y.AtMost k) : (x + y).AtMost (k + 1) := by
  obtain ⟨s, m, hm, rfl, hmle⟩ := hx
  obtain ⟨t, n, hn, rfl, hnle⟩ := hy
  refine AtMost.ofRatio _ hk one_pos ?_
  have hkeys : ((fin s m hm : Fp F).key + (fin t n hn : Fp F).key).natAbs ≤ m + n := by
    cases s <;> cases t <;> simp only [key, Bool.false_eq_true, if_true, if_false] <;> omega
  rw [mul_one, pow_succ]
  calc _ ≤ m + n := hkeys
    _ ≤ 2 ^ k * 2 ^ F.unit + 2 ^ k * 2 ^ F.unit := Nat.add_le_add hmle hnle
    _ = 2 ^ k * 2 * 2 ^ F.unit := by ring

theorem AtMost.mul {j k : ℕ} {x y : Fp F} (hk : j + k + F.unit < F.top) (hx : x.AtMost j)
    (hy : y.AtMost k) : (x * y).AtMost (j + k) := by
  obtain ⟨s, m, hm, rfl, hmle⟩ := hx
  obtain ⟨t, n, hn, rfl, hnle⟩ := hy
  refine AtMost.ofRatio _ hk (by positivity) ?_
  calc m * n ≤ 2 ^ j * 2 ^ F.unit * (2 ^ k * 2 ^ F.unit) := Nat.mul_le_mul hmle hnle
    _ = 2 ^ (j + k) * 2 ^ F.unit * 2 ^ F.unit := by rw [pow_add]; ring

/-- A divisor of at least one makes nothing larger. -/
theorem AtMost.div {k n : ℕ} {x : Fp F} {t : Bool} {hn : F.Fits n} (hk : k + F.unit < F.top)
    (hx : x.AtMost k) (hone : 2 ^ F.unit ≤ n) : (x / fin t n hn).AtMost k := by
  obtain ⟨s, m, hm, rfl, hmle⟩ := hx
  have hpos : 0 < n := (Nat.two_pow_pos F.unit).trans_le hone
  rw [div_fin_fin hpos.ne']
  exact AtMost.ofRatio _ hk hpos (Nat.mul_le_mul hmle hone)

/-! ## Rounding to an integer -/

/-- One half, as C++ writes it. -/
theorem half_eq (hunit : 0 < F.unit) :
    ∃ h, (0.5 : Fp F) = fin false (2 ^ (F.unit - 1)) h := by
  have hfits : F.Fits (1 * 2 ^ (F.unit - 1)) := by
    refine Format.fits_mul_pow (Nat.one_lt_two_pow F.prec_pos.ne') ?_
    rw [one_mul]
    refine Nat.pow_lt_pow_right (by decide) ?_
    have hrange := F.one_in_range
    omega
  rw [one_mul] at hfits
  have hnum : 5 * 2 ^ F.unit = 2 ^ (F.unit - 1) * 10 ^ 1 := by
    obtain ⟨u, hu⟩ := Nat.exists_eq_succ_of_ne_zero hunit.ne'
    rw [hu, Nat.succ_sub_one, pow_succ]
    ring
  refine ⟨hfits, ?_⟩
  change ofRatio false (5 * 2 ^ F.unit) (10 ^ 1) = _
  rw [hnum]
  exact ofRatio_of_fits hfits (by decide) false

/-- Magnitudes of few bits, counted in units that divide one. -/
theorem fits_of_bits {k e : ℕ} (hk : k < 2 ^ F.prec) (he : e ≤ F.unit) : F.Fits (k * 2 ^ e) := by
  refine Format.fits_mul_pow hk ?_
  calc k * 2 ^ e < 2 ^ F.prec * 2 ^ e := (Nat.mul_lt_mul_right (by positivity)).mpr hk
    _ = 2 ^ (F.prec + e) := (pow_add _ _ _).symm
    _ ≤ 2 ^ F.top := Nat.pow_le_pow_right (by decide) (by have hrange := F.one_in_range; omega)

/-- Where a sum of positive magnitudes comes to lie. -/
theorem trunc_add_eq {m n k : ℕ} {hm : F.Fits m} {hn : F.Fits n} {b : ℕ} (hb : F.Fits b)
    (hk : F.Fits (k * 2 ^ F.unit)) (hlow : k * 2 ^ F.unit ≤ m + n) (hhigh : m + n ≤ b)
    (hbelow : b < (k + 1) * 2 ^ F.unit) :
    (fin false m hm + fin false n hn : Fp F).trunc = k := by
  have hge : k * 2 ^ F.unit ≤ F.round (m + n) 1 :=
    Format.le_round one_pos hk (by rwa [mul_one])
  have hle : F.round (m + n) 1 ≤ b := Format.round_le one_pos hb (by rwa [mul_one])
  have hsum : (fin false m hm + fin false n hn : Fp F) = ofRatio false (m + n) 1 := by
    have hkey : (fin false m hm : Fp F).key + (fin false n hn : Fp F).key = ((m + n : ℕ) : ℤ) := by
      rw [Nat.cast_add]
      rfl
    change ofRatio (if (fin false m hm).key + (fin false n hn).key = 0 then false && false
      else decide ((fin false m hm).key + (fin false n hn).key < 0))
      ((fin false m hm).key + (fin false n hn).key).natAbs 1 = _
    rw [hkey, Int.natAbs_natCast, decide_eq_false (by omega), Bool.and_false, ite_self]
  rw [hsum, ofRatio, dif_pos (hle.trans_lt hb.1)]
  change ((F.round (m + n) 1 / 2 ^ F.unit : ℕ) : ℤ) = k
  have hquot : F.round (m + n) 1 / 2 ^ F.unit = k := by
    refine Nat.div_eq_of_lt_le hge ?_
    exact hle.trans_lt hbelow
  rw [hquot]

/-- **Adding a half and truncating gives the nearest integer**, halves up, of a quotient that
leaves the format enough bits. -/
theorem trunc_div_add_half {n d k s : ℕ} (hd : 0 < d) (hds : d ≤ 2 ^ s) (hs : s < F.unit)
    (hn : n < 2 ^ F.prec) (hk : k = (2 * n + d) / (2 * d))
    (hroom : (k + 1) * 2 ^ (s + 1) ≤ 2 ^ F.prec) :
    ((ofInt n / ofInt d + 0.5 : Fp F)).trunc = k := by
  obtain ⟨u, hu⟩ := Nat.exists_eq_add_of_lt hs
  have hlow : 2 * d * k ≤ 2 * n + d := by
    rw [hk]
    exact Nat.mul_div_le _ _
  have hhigh : 2 * n + d < 2 * d * (k + 1) := by
    rw [hk]
    exact Nat.lt_mul_div_succ _ (by omega)
  have hpow : 0 < 2 ^ s := by positivity
  have hdprec : d < 2 ^ F.prec := by
    calc d ≤ 2 ^ s := hds
      _ < 2 ^ (s + 1) := Nat.pow_lt_pow_right (by decide) (Nat.lt_succ_self s)
      _ ≤ (k + 1) * 2 ^ (s + 1) := Nat.le_mul_of_pos_left _ (Nat.succ_pos k)
      _ ≤ 2 ^ F.prec := hroom
  -- the quotient, rounded, lies between half-integers with a margin of one unit in `2 ^ s`
  have hbits : (2 * k + 1) * 2 ^ s - 1 < 2 ^ F.prec ∧ (2 * k + 2) * 2 ^ s - 1 < 2 ^ F.prec ∧
      2 * k + 1 < 2 ^ F.prec := by
    have hsplit : (k + 1) * 2 ^ (s + 1) = (2 * k + 2) * 2 ^ s := by rw [pow_succ]; ring
    have hone : (2 * k + 1) * 2 ^ s + 2 ^ s = (2 * k + 2) * 2 ^ s := by ring
    have hodd : 2 * k + 1 ≤ (2 * k + 1) * 2 ^ s := Nat.le_mul_of_pos_right _ hpow
    omega
  have hupper : F.Fits (((2 * k + 1) * 2 ^ s - 1) * 2 ^ u) := fits_of_bits hbits.1 (by omega)
  have hsumUpper : F.Fits (((2 * k + 2) * 2 ^ s - 1) * 2 ^ u) :=
    fits_of_bits hbits.2.1 (by omega)
  have hunit : 2 ^ F.unit = 2 * 2 ^ s * 2 ^ u := by
    rw [hu, pow_succ, pow_add]
    ring
  have hquotient : n * 2 ^ F.unit * 2 ^ F.unit ≤
      ((2 * k + 1) * 2 ^ s - 1) * 2 ^ u * (d * 2 ^ F.unit) := by
    have hmargin : n * (2 * 2 ^ s) ≤ ((2 * k + 1) * 2 ^ s - 1) * d := by
      rw [Nat.sub_mul, one_mul]
      have hless : 2 * n + 1 ≤ (2 * k + 1) * d := by nlinarith
      have hscaled := Nat.mul_le_mul_right (2 ^ s) hless
      refine Nat.le_sub_of_add_le ?_
      calc n * (2 * 2 ^ s) + d ≤ n * (2 * 2 ^ s) + 2 ^ s := Nat.add_le_add_left hds _
        _ = (2 * n + 1) * 2 ^ s := by ring
        _ ≤ (2 * k + 1) * d * 2 ^ s := hscaled
        _ = (2 * k + 1) * 2 ^ s * d := by ring
    calc n * 2 ^ F.unit * 2 ^ F.unit = n * (2 * 2 ^ s) * (2 ^ u * 2 ^ F.unit) := by
          rw [hunit]
          ring
      _ ≤ ((2 * k + 1) * 2 ^ s - 1) * d * (2 ^ u * 2 ^ F.unit) := Nat.mul_le_mul_right _ hmargin
      _ = _ := by ring
  have hdpos : 0 < d * 2 ^ F.unit := by positivity
  have hround := Format.round_le hdpos hupper hquotient
  obtain ⟨hhalf, hhalf_eq⟩ := half_eq (F := F) (by omega)
  have hdiv : (ofInt (n : ℤ) / ofInt (d : ℤ) : Fp F) =
      ofRatio false (n * 2 ^ F.unit * 2 ^ F.unit) (d * 2 ^ F.unit) := by
    have hexact : ∀ {m : ℕ}, m < 2 ^ F.prec →
        ∃ h, (ofInt (m : ℤ) : Fp F) = fin false (m * 2 ^ F.unit) h := fun hm =>
      ⟨Format.fits_int hm, by rw [ofInt_of_lt (by simpa using hm), decide_eq_false (by omega)]; rfl⟩
    obtain ⟨_, hn_eq⟩ := hexact hn
    obtain ⟨_, hd_eq⟩ := hexact hdprec
    rw [hn_eq, hd_eq, div_fin_fin hdpos.ne']
    rfl
  rw [hdiv, hhalf_eq, ofRatio, dif_pos (hround.trans_lt hupper.1)]
  have hhalfUnit : 2 ^ (F.unit - 1) = 2 ^ s * 2 ^ u := by
    rw [hu, Nat.add_sub_cancel, pow_add]
  refine trunc_add_eq hsumUpper (fits_of_bits (by omega) le_rfl) ?_ ?_ ?_
  · rcases k with - | k
    · rw [Nat.zero_mul]
      exact Nat.zero_le _
    have hlower : F.Fits ((2 * k + 1) * 2 ^ (s + u)) :=
      fits_of_bits (by omega) (by omega)
    have hreach : (2 * k + 1) * 2 ^ (s + u) * (d * 2 ^ F.unit) ≤ n * 2 ^ F.unit * 2 ^ F.unit := by
      have hless : (2 * k + 1) * d ≤ 2 * n := by nlinarith
      calc (2 * k + 1) * 2 ^ (s + u) * (d * 2 ^ F.unit)
          = (2 * k + 1) * d * (2 ^ s * 2 ^ u * 2 ^ F.unit) := by rw [pow_add]; ring
        _ ≤ 2 * n * (2 ^ s * 2 ^ u * 2 ^ F.unit) := Nat.mul_le_mul_right _ hless
        _ = n * (2 * 2 ^ s * 2 ^ u) * 2 ^ F.unit := by ring
        _ = n * 2 ^ F.unit * 2 ^ F.unit := by rw [← hunit]
    calc (k + 1) * 2 ^ F.unit = (2 * k + 1) * 2 ^ (s + u) + 2 ^ (F.unit - 1) := by
          rw [hunit, hhalfUnit, pow_add]
          ring
      _ ≤ _ := Nat.add_le_add_right (Format.le_round hdpos hlower hreach) _
  · calc F.round (n * 2 ^ F.unit * 2 ^ F.unit) (d * 2 ^ F.unit) + 2 ^ (F.unit - 1)
        ≤ ((2 * k + 1) * 2 ^ s - 1) * 2 ^ u + 2 ^ s * 2 ^ u := by
          rw [hhalfUnit]
          exact Nat.add_le_add_right hround _
      _ = ((2 * k + 2) * 2 ^ s - 1) * 2 ^ u := by
          rw [← Nat.add_mul]
          congr 1
          have hone : (2 * k + 1) * 2 ^ s + 2 ^ s = (2 * k + 2) * 2 ^ s := by ring
          have hge : 1 ≤ (2 * k + 1) * 2 ^ s := Nat.mul_pos (by omega) hpow
          omega
  · calc ((2 * k + 2) * 2 ^ s - 1) * 2 ^ u < (2 * k + 2) * 2 ^ s * 2 ^ u := by
          refine (Nat.mul_lt_mul_right (by positivity)).mpr ?_
          have hge : 1 ≤ (2 * k + 2) * 2 ^ s := Nat.mul_pos (by omega) hpow
          omega
      _ = (k + 1) * 2 ^ F.unit := by
          rw [hunit]
          ring

/-! ## Rounding up -/

theorem key_zero : (0 : Fp F).key = 0 := by
  rw [zero_eq_ofInt, holds_zero.key_ofInt, zero_mul]

/-- The least integer that is not below the number, and for an infinity the one just past the
range; a nan counts as zero. -/
def ceil (x : Fp F) : ℤ := -(-x.key / 2 ^ F.unit)

theorem ceil_mono {x y : Fp F} (h : x.key ≤ y.key) : x.ceil ≤ y.ceil :=
  neg_le_neg (Int.ediv_le_ediv (by positivity) (neg_le_neg h))

theorem ceil_le_iff {x : Fp F} {z : ℤ} : x.ceil ≤ z ↔ x.key ≤ z * 2 ^ F.unit := by
  unfold ceil
  rw [neg_le, Int.le_ediv_iff_mul_le (by positivity), neg_mul, neg_le_neg_iff]

/-- A number that is not below zero: its place on the line is its magnitude, or past the range. -/
def Plus (x : Fp F) : Prop := x = inf false ∨ ∃ m h, x = fin false m h

theorem key_inf : (inf false : Fp F).key = 2 ^ F.top := rfl

theorem key_fin {m : ℕ} (h : F.Fits m) : (fin false m h).key = m := rfl

theorem plus_ofRatio (num den : ℕ) : (ofRatio false num den : Fp F).Plus := by
  unfold ofRatio
  split_ifs
  · exact .inr ⟨_, _, rfl⟩
  · exact .inl rfl

theorem plus_ofInt (n : ℕ) : (ofInt n : Fp F).Plus := by
  have hsign : decide ((n : ℤ) < 0) = false := decide_eq_false (by omega)
  unfold ofInt
  rw [hsign]
  exact plus_ofRatio _ _

theorem Plus.key_le {x : Fp F} (h : x.Plus) : x.key ≤ 2 ^ F.top := by
  rcases h with rfl | ⟨m, hm, rfl⟩
  · exact le_refl _
  · rw [key_fin]
    exact_mod_cast hm.1.le

/-- **Rounding keeps the order**, also past the top of the format. -/
theorem key_ofRatio_mono {num num' den : ℕ} (hden : 0 < den) (h : num ≤ num') :
    (ofRatio false num den : Fp F).key ≤ (ofRatio false num' den : Fp F).key := by
  by_cases htop : F.round num' den < 2 ^ F.top
  · have hle := Format.round_mono hden h htop
    unfold ofRatio
    rw [dif_pos htop, dif_pos (hle.trans_lt htop), key_fin, key_fin]
    exact_mod_cast hle
  · have hinf : (ofRatio false num' den : Fp F) = inf false := by
      unfold ofRatio
      rw [dif_neg htop]
    rw [hinf, key_inf]
    exact (plus_ofRatio num den).key_le

theorem mul_fin_fin {m n : ℕ} {hm : F.Fits m} {hn : F.Fits n} :
    (fin false m hm * fin false n hn : Fp F) = ofRatio false (m * n) (2 ^ F.unit) := rfl

/-- A product is not below zero, and grows with a factor that is not zero. -/
theorem Plus.mul {x : Fp F} (hx : x.Plus) {m n : ℕ} (hm : F.Fits m) (hn : F.Fits n) (hpos : 0 < m)
    (hle : m ≤ n) : (x * fin false m hm).Plus ∧
      (x * fin false m hm).key ≤ (x * fin false n hn).key := by
  rcases hx with rfl | ⟨k, hk, rfl⟩
  · have hinf {l : ℕ} (hl : F.Fits l) (hpos : 0 < l) :
        (inf false * fin false l hl : Fp F) = inf false := if_neg hpos.ne'
    rw [hinf hm hpos, hinf hn (hpos.trans_le hle)]
    exact ⟨.inl rfl, le_refl _⟩
  · rw [mul_fin_fin, mul_fin_fin]
    exact ⟨plus_ofRatio _ _, key_ofRatio_mono (by positivity) (Nat.mul_le_mul_left k hle)⟩

/-- So is a quotient, and it grows with the dividend. -/
theorem Plus.div {x y : Fp F} (hx : x.Plus) (hy : y.Plus) {n : ℕ} (hn : F.Fits n) (hpos : 0 < n)
    (hle : x.key ≤ y.key) : (x / fin false n hn).Plus ∧
      (x / fin false n hn).key ≤ (y / fin false n hn).key := by
  have hinf : (inf false / fin false n hn : Fp F) = inf false := rfl
  have hfin {m : ℕ} (hm : F.Fits m) : (fin false m hm / fin false n hn : Fp F) =
      ofRatio false (m * 2 ^ F.unit) n := div_fin_fin hpos.ne'
  rcases hx with rfl | ⟨m, hm, rfl⟩
  · rcases hy with rfl | ⟨m', hm', rfl⟩
    · exact ⟨.inl rfl, le_refl _⟩
    · rw [key_inf, key_fin] at hle
      exact absurd hm'.1 (not_lt.mpr (by exact_mod_cast hle))
  · rw [hfin hm]
    refine ⟨plus_ofRatio _ _, ?_⟩
    rcases hy with rfl | ⟨m', hm', rfl⟩
    · rw [hinf, key_inf]
      exact (plus_ofRatio _ _).key_le
    · rw [key_fin, key_fin] at hle
      rw [hfin hm']
      exact key_ofRatio_mono hpos (Nat.mul_le_mul_right _ (by exact_mod_cast hle))

/-- A rounded fraction is not above a magnitude that the fraction is not above. -/
theorem key_ofRatio_le {num den n : ℕ} (hden : 0 < den) (hn : F.Fits n) (h : num ≤ n * den) :
    (ofRatio false num den : Fp F).key ≤ n := by
  have hle := Format.round_le hden hn h
  unfold ofRatio
  rw [dif_pos (hle.trans_lt hn.1), key_fin]
  exact_mod_cast hle

/-- Nor below one that it is not below. -/
theorem le_key_ofRatio {num den n : ℕ} (hden : 0 < den) (hn : F.Fits n) (h : n * den ≤ num) :
    (n : ℤ) ≤ (ofRatio false num den : Fp F).key := by
  have hle := Format.le_round hden hn h
  unfold ofRatio
  split_ifs
  · rw [key_fin]
    exact_mod_cast hle
  · rw [key_inf]
    exact_mod_cast hn.1.le

theorem ofInt_natCast {n : ℕ} (h : n < 2 ^ F.prec) :
    (ofInt n : Fp F) = fin false (n * 2 ^ F.unit) (Format.fits_int h) := by
  have hsign : decide ((n : ℤ) < 0) = false := decide_eq_false (by omega)
  rw [ofInt_of_lt (z := (n : ℤ)) h]
  simp only [hsign, Int.natAbs_natCast]

theorem hundred_eq (h : 100 < 2 ^ F.prec) :
    (100 : Fp F) = fin false (100 * 2 ^ F.unit) (Format.fits_int h) :=
  ofInt_natCast (n := 100) h

/-- A number just below `d` times `c` is not below `d * c - 1`. -/
theorem le_key_share {c d s : ℕ} (hcs : c ≤ 2 ^ s) (hs : s ≤ F.unit) (hprec : d * c < 2 ^ F.prec) :
    ((d * c - 1) * 2 ^ F.unit : ℕ) ≤
      (ofRatio false (c * 2 ^ F.unit * ((d * 2 ^ s - 1) * 2 ^ (F.unit - s))) (2 ^ F.unit) :
        Fp F).key := by
  refine le_key_ofRatio (by positivity) (Format.fits_int (by omega)) ?_
  have hsplit : 2 ^ F.unit = 2 ^ s * 2 ^ (F.unit - s) := by
    rw [← pow_add, Nat.add_sub_cancel' hs]
  have hle : (d * c - 1) * 2 ^ s ≤ c * (d * 2 ^ s - 1) := by
    rw [Nat.sub_mul, Nat.mul_sub, one_mul, mul_one, mul_comm d c, mul_assoc]
    exact Nat.sub_le_sub_left hcs _
  calc (d * c - 1) * 2 ^ F.unit * 2 ^ F.unit
      = (d * c - 1) * (2 ^ s * 2 ^ (F.unit - s)) * 2 ^ F.unit := by rw [← hsplit]
    _ = (d * c - 1) * 2 ^ s * (2 ^ (F.unit - s) * 2 ^ F.unit) := by ring
    _ ≤ c * (d * 2 ^ s - 1) * (2 ^ (F.unit - s) * 2 ^ F.unit) := Nat.mul_le_mul_right _ hle
    _ = c * 2 ^ F.unit * ((d * 2 ^ s - 1) * 2 ^ (F.unit - s)) := by ring

/-- Nor above `d * c`. -/
theorem key_share_le {c d s : ℕ} (hs : s ≤ F.unit) (hprec : d * c < 2 ^ F.prec) :
    (ofRatio false (c * 2 ^ F.unit * ((d * 2 ^ s - 1) * 2 ^ (F.unit - s))) (2 ^ F.unit) :
      Fp F).key ≤ (d * c * 2 ^ F.unit : ℕ) := by
  refine key_ofRatio_le (by positivity) (Format.fits_int hprec) ?_
  have hsplit : 2 ^ F.unit = 2 ^ s * 2 ^ (F.unit - s) := by
    rw [← pow_add, Nat.add_sub_cancel' hs]
  have hle : c * (d * 2 ^ s - 1) ≤ d * c * 2 ^ s := by
    rw [mul_comm d c, mul_assoc]
    exact Nat.mul_le_mul_left c (Nat.sub_le _ _)
  calc c * 2 ^ F.unit * ((d * 2 ^ s - 1) * 2 ^ (F.unit - s))
      = c * (d * 2 ^ s - 1) * (2 ^ (F.unit - s) * 2 ^ F.unit) := by ring
    _ ≤ d * c * 2 ^ s * (2 ^ (F.unit - s) * 2 ^ F.unit) := Nat.mul_le_mul_right _ hle
    _ = d * c * (2 ^ s * 2 ^ (F.unit - s)) * 2 ^ F.unit := by ring
    _ = d * c * 2 ^ F.unit * 2 ^ F.unit := by rw [← hsplit]

/-- **A quotient by `d` of what is between `d * c - 1` and `d * c` is rounded up to `c`**: it is
between `c - 1 / 2` and `c`, which are numbers of the format. -/
theorem ceil_div_of_between {c d r : ℕ} {hr : F.Fits r} {hn : F.Fits (d * 2 ^ F.unit)} (hc : 0 < c)
    (hd : 2 ≤ d) (hunit : 0 < F.unit) (hprec : d * c < 2 ^ F.prec)
    (hlow : (d * c - 1) * 2 ^ F.unit ≤ r) (hhigh : r ≤ d * c * 2 ^ F.unit) :
    (fin false r hr / fin false (d * 2 ^ F.unit) hn : Fp F).ceil = c := by
  have hhalf : 2 ^ F.unit = 2 * 2 ^ (F.unit - 1) := by
    rw [← pow_succ', Nat.sub_add_cancel hunit]
  have htwo : 2 * c ≤ d * c := Nat.mul_le_mul_right c hd
  have hpos : 0 < d * 2 ^ F.unit := Nat.mul_pos (by omega) (by positivity)
  rw [div_fin_fin hpos.ne', Bool.false_xor]
  refine le_antisymm (ceil_le_iff.mpr ?_) ?_
  · have hle : (ofRatio false (r * 2 ^ F.unit) (d * 2 ^ F.unit) : Fp F).key ≤
        (c * 2 ^ F.unit : ℕ) := by
      refine key_ofRatio_le hpos (Format.fits_int (by omega)) ?_
      calc r * 2 ^ F.unit ≤ d * c * 2 ^ F.unit * 2 ^ F.unit := Nat.mul_le_mul_right _ hhigh
        _ = c * 2 ^ F.unit * (d * 2 ^ F.unit) := by ring
    exact_mod_cast hle
  · by_contra hbelow
    have hle : ((2 * c - 1) * 2 ^ (F.unit - 1) : ℕ) ≤
        (ofRatio false (r * 2 ^ F.unit) (d * 2 ^ F.unit) : Fp F).key := by
      refine le_key_ofRatio hpos (fits_of_bits (by omega) (Nat.sub_le _ _)) ?_
      have hle : (2 * c - 1) * d ≤ 2 * (d * c - 1) := by
        rw [Nat.sub_mul, one_mul, Nat.mul_sub, mul_one, mul_assoc, mul_comm c d]
        omega
      calc (2 * c - 1) * 2 ^ (F.unit - 1) * (d * 2 ^ F.unit)
          = (2 * c - 1) * d * (2 ^ (F.unit - 1) * 2 ^ F.unit) := by ring
        _ ≤ 2 * (d * c - 1) * (2 ^ (F.unit - 1) * 2 ^ F.unit) := Nat.mul_le_mul_right _ hle
        _ = (d * c - 1) * (2 * 2 ^ (F.unit - 1)) * 2 ^ F.unit := by ring
        _ = (d * c - 1) * 2 ^ F.unit * 2 ^ F.unit := by rw [← hhalf]
        _ ≤ r * 2 ^ F.unit := Nat.mul_le_mul_right _ hlow
    have hkey := ceil_le_iff.mp (Int.le_sub_one_of_lt (not_le.mp hbelow))
    have hcast : (((2 * c - 1) * 2 ^ (F.unit - 1) : ℕ) : ℤ) =
        (2 * c - 1) * 2 ^ (F.unit - 1) := by
      push_cast [Nat.cast_sub (show 1 ≤ 2 * c by omega)]
      ring
    have hunits : (2 : ℤ) ^ F.unit = 2 * 2 ^ (F.unit - 1) := by exact_mod_cast hhalf
    rw [hcast] at hle
    rw [hunits] at hkey
    have hstep : (0 : ℤ) < 2 ^ (F.unit - 1) := by positivity
    linarith

/-- **The share of `c` by a number just below `d` is rounded up to `c`.** -/
theorem ceil_share {c d s : ℕ} (hc : 0 < c) (hd : 2 ≤ d) (hcs : c ≤ 2 ^ s) (hs : s ≤ F.unit)
    (hunit : 0 < F.unit) (hprec : d * c < 2 ^ F.prec) (hcf : F.Fits (c * 2 ^ F.unit))
    (hm : F.Fits ((d * 2 ^ s - 1) * 2 ^ (F.unit - s))) (hn : F.Fits (d * 2 ^ F.unit)) :
    (fin false (c * 2 ^ F.unit) hcf * fin false ((d * 2 ^ s - 1) * 2 ^ (F.unit - s)) hm /
      fin false (d * 2 ^ F.unit) hn : Fp F).ceil = c := by
  rw [mul_fin_fin]
  have hplus := plus_ofRatio (F := F) (c * 2 ^ F.unit * ((d * 2 ^ s - 1) * 2 ^ (F.unit - s)))
    (2 ^ F.unit)
  have hlow := le_key_share hcs hs hprec
  have hhigh := key_share_le (F := F) hs hprec
  generalize (ofRatio false (c * 2 ^ F.unit * ((d * 2 ^ s - 1) * 2 ^ (F.unit - s)))
    (2 ^ F.unit) : Fp F) = x at hplus hlow hhigh ⊢
  rcases hplus with rfl | ⟨r, hr, rfl⟩
  · rw [key_inf] at hhigh
    have htop : d * c * 2 ^ F.unit < 2 ^ F.top := (Format.fits_int hprec).1
    exact absurd (Nat.cast_lt.mpr htop) (not_lt.mpr (by exact_mod_cast hhigh))
  · rw [key_fin, Nat.cast_le] at hlow hhigh
    exact ceil_div_of_between hc hd hunit hprec hlow hhigh

/-- The largest multiple of `2 ^ (-46)` below 100. -/
def almostHundred (hprec : 100 * 2 ^ 46 - 1 < 2 ^ F.prec) : Fp F :=
  fin false ((100 * 2 ^ 46 - 1) * 2 ^ (F.unit - 46)) (fits_of_bits hprec (Nat.sub_le _ _))

theorem almostHundred_between (hprec : 100 * 2 ^ 46 - 1 < 2 ^ F.prec) (hunit : 46 ≤ F.unit) :
    (0 : Fp F) < almostHundred hprec ∧ ¬100 ≤ almostHundred hprec := by
  have hfew : 100 < 2 ^ F.prec := Nat.lt_of_lt_of_le (by decide) hprec.le
  have hsplit : 2 ^ F.unit = 2 ^ 46 * 2 ^ (F.unit - 46) := by
    rw [← pow_add, Nat.add_sub_cancel' hunit]
  refine ⟨⟨isNan_of_isFinite (isFinite_ofInt (z := 0) (by positivity)), rfl, ?_⟩, fun hle => ?_⟩
  · rw [key_zero, almostHundred, key_fin]
    positivity
  · rw [hundred_eq hfew] at hle
    have hkey := hle.2.2
    rw [almostHundred, key_fin, key_fin, Nat.cast_le, hsplit, ← mul_assoc] at hkey
    exact absurd (Nat.le_of_mul_le_mul_right hkey (by positivity)) (by decide)

/-- Its share of a count is rounded up to the count. -/
theorem ceil_almostHundred (hprec : 100 * 2 ^ 46 - 1 < 2 ^ F.prec) (hunit : 46 ≤ F.unit) {c : ℕ}
    (hc : 0 < c) (hmany : c < 2 ^ 46) :
    (ofInt c * almostHundred hprec / 100 : Fp F).ceil = c := by
  have hcount : 100 * c < 2 ^ F.prec := by omega
  rw [hundred_eq (Nat.lt_of_lt_of_le (by decide) hprec.le), ofInt_natCast (by omega),
    almostHundred]
  exact ceil_share hc (by decide) hmany.le hunit (by omega) hcount _ _ _

end Fp
end ProgLib
