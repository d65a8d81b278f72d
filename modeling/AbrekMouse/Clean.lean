import AbrekMouse.Sanitize

/-! # Sanitized records

What the clamps establish, as a predicate on the record (`AccelArgs.Clean`,
`Profile.Clean`, `DeviceProfile.Clean`).  A sanitized record is clean, and a clean
record is left as it is, so sanitizing twice is sanitizing once
(`sanitizeDeviceProfile_idem`).
-/
namespace AbrekMouse
open ProgLib ProgLib.Fp ProgLib.PairSort
variable {lim : Limits}

/-! ## The lookup table -/

/-- The table of a clean record: its slots in use are finite and its points are in
order of their key. -/
structure AccelArgs.CleanLut (a : AccelArgs) : Prop where
  length_nonneg : 0 ≤ a.length
  length_le : a.length ≤ lutRawDataCapacity
  finite : ∀ i < a.length.toNat, (rd a.data i).isFinite = true
  sorted : Sorted a.points a.data

theorem points_eq (a : AccelArgs) : a.points = a.length.toNat / 2 := by
  unfold AccelArgs.points
  rcases le_or_gt 0 a.length with h0 | hneg
  · rw [Int.tdiv_eq_ediv_of_nonneg h0]
    omega
  · have hpos : 0 ≤ (-a.length).tdiv 2 := Int.tdiv_nonneg (by omega) (by omega)
    rw [Int.neg_tdiv] at hpos
    omega

theorem points_le (a : AccelArgs) : 2 * a.points ≤ a.length.toNat := by
  rw [points_eq]
  omega

/-- Finite floats are ordered. -/
theorem weakOrderOn_finite : WeakOrderOn fun v : Single => v.isFinite = true where
  asymm _ _ h := lt_asymm h
  trans hx hy hz hxy hyz := by
    rw [lt_iff_key hy hx] at hxy
    rw [lt_iff_key hz hy] at hyz
    rw [lt_iff_key hz hx]
    omega

theorem scrubSlot_finite (v : Single) : (scrubSlot v).isFinite = true :=
  floorAt_finite isFinite_neg_maxFinite
    (ceilAt_finite isFinite_maxFinite (finiteOr_finite (by decide +kernel) v))

theorem scrubSlot_of_finite {v : Single} (h : v.isFinite = true) : scrubSlot v = v := by
  unfold scrubSlot
  rw [finiteOr_of_finite h, ceilAt_of_not_gt (not_maxFinite_lt h),
    floorAt_of_not_lt (not_lt_neg_maxFinite h)]

theorem scrubLut_finite (a : AccelArgs) (hlen : a.length ≤ lutRawDataCapacity) {i : ℕ}
    (hi : i < a.length.toNat) : (rd (scrubLut a).data i).isFinite = true := by
  unfold lutRawDataCapacity at hlen
  unfold scrubLut
  rw [rd_foldl_wr fun _ => scrubSlot, if_pos ⟨hi, by unfold lutRawDataCapacity; omega⟩]
  exact scrubSlot_finite _

theorem scrubLut_of_finite {a : AccelArgs}
    (h : ∀ i < a.length.toNat, (rd a.data i).isFinite = true) : scrubLut a = a := by
  have hdata : (scrubLut a).data = a.data := by
    refine ext_rd fun i hi => ?_
    unfold scrubLut
    rw [rd_foldl_wr fun _ => scrubSlot]
    split_ifs with hlt
    · exact scrubSlot_of_finite (h i hlt.1)
    · rfl
  calc scrubLut a = { a with data := (scrubLut a).data } := rfl
    _ = a := by rw [hdata]

/-- Sorting the points of a table whose slots in use are finite. -/
theorem sortLutData_clean {a : AccelArgs} (h0 : 0 ≤ a.length)
    (hlen : a.length ≤ lutRawDataCapacity)
    (hfin : ∀ i < a.length.toNat, (rd a.data i).isFinite = true) : (sortLutData a).CleanLut := by
  have hpts := points_le a
  have hcap : 2 * a.points ≤ lutRawDataCapacity := by omega
  refine ⟨h0, hlen, fun i hi => ?_, ?_⟩
  · have hpair : ∀ q, getPair (sortLutData a).data q = getPair (sortPairs a.points a.data) q :=
      fun _ => rfl
    have hi' : i < a.length.toNat := hi
    rcases Nat.lt_or_ge (i / 2) a.points with hlt | hge
    · -- a slot of a sorted pair is a slot of some pair that was there
      obtain ⟨r, hr, heq⟩ := exists_getPair_sortPairs a.data hcap hlt
      obtain ⟨hkey, hval⟩ := Prod.mk.inj heq
      have hparity : i = 2 * (i / 2) ∨ i = 2 * (i / 2) + 1 := by omega
      rcases hparity with heven | hodd
      · rw [heven]
        exact hkey ▸ hfin (2 * r) (by omega)
      · rw [hodd]
        exact hval ▸ hfin (2 * r + 1) (by omega)
    · -- the odd slot at the end is in no sorted pair
      have heven : i = 2 * (i / 2) := by
        rw [points_eq] at hge
        omega
      have hstay := (Prod.mk.inj (getPair_sortPairs_of_le a.data hcap hge)).1
      rw [heven]
      exact hstay ▸ hfin (2 * (i / 2)) (by omega)
  · have hpts' : ∀ q < a.points, 2 * q < a.length.toNat := by omega
    exact sorted_sortPairs weakOrderOn_finite hcap fun q hq => hfin (2 * q) (hpts' q hq)

theorem sortLutData_of_clean {a : AccelArgs} (h : a.CleanLut) : sortLutData a = a := by
  have hpts := points_le a
  have hlen := h.length_le
  unfold sortLutData
  rw [sortPairs_of_sorted (by omega) h.sorted]

/-- Only the length and the slots matter. -/
theorem AccelArgs.CleanLut.congr {a b : AccelArgs} (h : a.CleanLut) (hlen : b.length = a.length)
    (hdata : b.data = a.data) : b.CleanLut := by
  obtain ⟨h0, hcap, hfin, hsorted⟩ := h
  have hpts : b.points = a.points := by rw [points_eq, points_eq, hlen]
  exact ⟨hlen ▸ h0, hlen ▸ hcap, hlen ▸ hdata ▸ hfin, hpts ▸ hdata ▸ hsorted⟩

/-! ## The curve of an axis -/

theorem Ceiling.within {lo hi x : Double} (h : Ceiling lo hi) (hlo : lo.isFinite = true)
    (hx : x.isFinite = true) : Within lo hi (ceilAt hi (floorAt lo x)) :=
  within_clamp hlo h.finite h.not_lt hx

theorem zero_finite : (0 : Double).isFinite = true := by decide +kernel
theorem one_finite : (1 : Double).isFinite = true := by decide +kernel
theorem two_finite : (2 : Double).isFinite = true := by decide +kernel

/-- The parameters of a sanitized curve. -/
structure AccelArgs.Clean (lim : Limits) (a : AccelArgs) : Prop where
  lut : a.CleanLut
  inputOffset : Within 0 lim.capXMax a.inputOffset
  outputOffset : Within 0 lim.outputOffsetMax a.outputOffset
  acceleration_finite : a.acceleration.isFinite = true
  acceleration_le : ¬a.acceleration > lim.accelMax
  decayRate : Within 0 lim.decayRateMax a.decayRate
  gamma : Within 0 lim.gammaMax a.gamma
  motivity : Within 0 lim.motivityMax a.motivity
  exponentClassic : Within 1 10 a.exponentClassic
  scale : Within 0.01 lim.scaleMax a.scale
  exponentPower : Within 1e-4 lim.expPowerMax a.exponentPower
  limit : Within 0 lim.limitMax a.limit
  syncSpeed : Within 1e-4 lim.syncSpeedMax a.syncSpeed
  smooth : Within 0 lim.smoothMax a.smooth
  capX : Within 0 lim.capXMax a.cap.x
  capY : Within 0 lim.capYMax a.cap.y
  /-- A decelerating curve has no cap. -/
  cap_off : a.acceleration < 0 → ¬a.cap.y > 0
  /-- A positive natural decay rate is large enough to compute with. -/
  natural_decay : a.mode = .natural → a.decayRate > 0 → ¬a.decayRate < lim.naturalDecayRateMin
  /-- A capped classic curve starts at its input offset. -/
  classic_cap : a.mode = .classic → a.capModeVal = .io ∨ a.capModeVal = .in_ →
    ¬a.cap.x < a.inputOffset

theorem clampLength_range (a : AccelArgs) :
    0 ≤ (clampLength a).length ∧ (clampLength a).length ≤ lutRawDataCapacity := by
  show 0 ≤ min (lutRawDataCapacity : ℤ) (max 0 a.length) ∧
    min (lutRawDataCapacity : ℤ) (max 0 a.length) ≤ lutRawDataCapacity
  unfold lutRawDataCapacity
  omega

variable (lim) in
theorem sanitizeAccelArgs_lut (a : AccelArgs) : (sanitizeAccelArgs lim a).CleanLut := by
  obtain ⟨h0, hcap⟩ := clampLength_range a
  have hsorted : (sortLutData (scrubLut (clampLength a))).CleanLut :=
    sortLutData_clean h0 hcap fun i hi => scrubLut_finite _ hcap hi
  exact hsorted.congr rfl rfl

variable (lim) in
theorem sanitizeAccelArgs_length (a : AccelArgs) :
    (sanitizeAccelArgs lim a).length = (clampLength a).length := by
  simp only [sanitizeAccelArgs, ceilAccelArgs, floorClassicCap, floorAccelArgs, floorNaturalDecay,
    floorDecayRate, floorScale, disableCap, finiteAccelArgs, sortLutData, scrubLut]

/-- The cap of a decelerating curve stays off through the clamps after `disableCap`. -/
theorem cap_off_of_disabled {acc y hi : Double} (hy : y.isFinite = true)
    (hhi : Ceiling 0 hi) (hneg : acc < 0) :
    ¬ceilAt hi (floorAt 0 (if acc < 0 ∧ y > 0 then 0 else y)) > 0 := by
  have hy0 : ¬(0 : Double) < (if acc < 0 ∧ y > 0 then 0 else y) := by
    split_ifs with hif
    · exact lt_irrefl 0
    · exact fun hpos => hif ⟨hneg, hpos⟩
  have hfin : (if acc < 0 ∧ y > 0 then 0 else y : Double).isFinite = true := by
    split_ifs
    · exact zero_finite
    · exact hy
  revert hy0 hfin
  generalize (if acc < 0 ∧ y > 0 then 0 else y : Double) = z
  intro hz0 hz
  have hceil : ¬floorAt 0 z > hi := by
    have hfloor : ¬(0 : Double) < floorAt 0 z := by
      unfold floorAt
      split_ifs
      · exact lt_irrefl 0
      · exact hz0
    exact not_lt_trans (floorAt_finite zero_finite hz) zero_finite hhi.finite hfloor hhi.not_lt
  rw [ceilAt_of_not_gt hceil]
  unfold floorAt
  split_ifs
  · exact lt_irrefl 0
  · exact hz0

/-- A decay rate that is not negative stays so, and ends at zero or above the floor of
natural mode. -/
theorem decayRate_within {d : Double} (hd : d.isFinite = true) (h0 : ¬d < 0) (mode : AccelMode) :
    Within 0 lim.decayRateMax
      (ceilAt lim.decayRateMax
        (if mode = .natural ∧ d > 0 ∧ d < lim.naturalDecayRateMin then
          lim.naturalDecayRateMin else d)) := by
  have hmax : ¬lim.decayRateMax < 0 :=
    not_lt_trans zero_finite lim.naturalDecayRateMin_ok.finite lim.decayRateMax_ok.finite
      lim.naturalDecayRateMin_ok.not_lt lim.decayRateMax_ok.not_lt
  refine ⟨ceilAt_finite lim.decayRateMax_ok.finite ?_, ceilAt_not_lt hmax ?_, ceilAt_not_gt _ _⟩
  · split_ifs
    · exact lim.naturalDecayRateMin_ok.finite
    · exact hd
  · split_ifs
    · exact lim.naturalDecayRateMin_ok.not_lt
    · exact h0

theorem natural_decay_floored {d : Double} {mode : AccelMode} (hmode : mode = .natural)
    (hpos : ceilAt lim.decayRateMax
      (if mode = .natural ∧ d > 0 ∧ d < lim.naturalDecayRateMin then
        lim.naturalDecayRateMin else d) > 0) :
    ¬ceilAt lim.decayRateMax
      (if mode = .natural ∧ d > 0 ∧ d < lim.naturalDecayRateMin then
        lim.naturalDecayRateMin else d) < lim.naturalDecayRateMin := by
  split_ifs at hpos ⊢ with hraise
  · exact ceilAt_not_lt lim.decayRateMax_ok.not_lt (lt_irrefl _)
  · unfold ceilAt at hpos ⊢
    split_ifs at hpos ⊢
    · exact lim.decayRateMax_ok.not_lt
    · exact fun hlt => hraise ⟨hmode, hpos, hlt⟩

/-- The cap of a curve, before its ceiling: not negative, and at the input offset or
above where the mode `p` asks for it. -/
theorem classic_cap_floored {x io : Double} (hx : x.isFinite = true) (hx0 : ¬x < 0)
    (hio : io.isFinite = true) (hio0 : ¬io < 0) (p q : Prop) [Decidable p] [Decidable q] :
    (if p ∧ q ∧ x < io then io else x).isFinite = true ∧
      (¬(if p ∧ q ∧ x < io then io else x) < 0) ∧
      (p → q → ¬(if p ∧ q ∧ x < io then io else x) < io) := by
  split_ifs with hraise
  · exact ⟨hio, hio0, fun _ _ => lt_irrefl io⟩
  · exact ⟨hx, hx0, fun hp hq hlt => hraise ⟨hp, hq, hlt⟩⟩

variable (lim) in
/-- **A sanitized curve is clean.** -/
theorem sanitizeAccelArgs_clean (a : AccelArgs) : (sanitizeAccelArgs lim a).Clean lim := by
  have hfin : ∀ x : Double, (floorAt 0 (finiteOr 0 x)).isFinite = true := fun x =>
    floorAt_finite zero_finite (finiteOr_finite zero_finite x)
  have h0 : ∀ x : Double, ¬floorAt 0 (finiteOr 0 x) < 0 := fun x => floorAt_not_lt 0 _
  obtain ⟨hcap_fin, hcap_0, hcap_io⟩ := classic_cap_floored (hfin a.cap.x) (h0 a.cap.x)
    (hfin a.inputOffset) (h0 a.inputOffset) (a.mode = .classic)
    (a.capModeVal = .io ∨ a.capModeVal = .in_)
  have hcapx := lim.capXMax_ok
  have hacc := ceilAt_not_lt (x := finiteOr 0 a.acceleration) lim.accelMax_ok.not_lt
  refine
    { lut := sanitizeAccelArgs_lut lim a
      inputOffset := hcapx.within zero_finite (finiteOr_finite zero_finite _)
      outputOffset := lim.outputOffsetMax_ok.within zero_finite (finiteOr_finite zero_finite _)
      acceleration_finite := ceilAt_finite lim.accelMax_ok.finite (finiteOr_finite zero_finite _)
      acceleration_le := ceilAt_not_gt _ _
      decayRate := ?_
      gamma := lim.gammaMax_ok.within zero_finite (finiteOr_finite zero_finite _)
      motivity := lim.motivityMax_ok.within zero_finite (finiteOr_finite zero_finite _)
      exponentClassic :=
        within_clamp one_finite (by decide +kernel) (by decide +kernel)
          (finiteOr_finite two_finite _)
      scale := lim.scaleMax_ok.within (by decide +kernel) (finiteOr_finite zero_finite _)
      exponentPower := lim.expPowerMax_ok.within (by decide +kernel) (finiteOr_finite one_finite _)
      limit := lim.limitMax_ok.within zero_finite (finiteOr_finite zero_finite _)
      syncSpeed := lim.syncSpeedMax_ok.within (by decide +kernel) (finiteOr_finite one_finite _)
      smooth := lim.smoothMax_ok.within zero_finite (finiteOr_finite zero_finite _)
      capX := ?_
      capY := ?_
      cap_off := ?_
      natural_decay := ?_
      classic_cap := ?_ }
  all_goals
    dsimp only [sanitizeAccelArgs, ceilAccelArgs, floorClassicCap, floorAccelArgs,
      floorNaturalDecay, floorDecayRate, floorScale, disableCap, finiteAccelArgs, sortLutData,
      scrubLut, clampLength]
  · exact decayRate_within (hfin a.decayRate) (h0 a.decayRate) a.mode
  · exact ⟨ceilAt_finite hcapx.finite hcap_fin, ceilAt_not_lt hcapx.not_lt hcap_0,
      ceilAt_not_gt _ _⟩
  · refine lim.capYMax_ok.within zero_finite ?_
    split_ifs
    · exact zero_finite
    · exact finiteOr_finite zero_finite _
  · intro hneg
    refine cap_off_of_disabled (finiteOr_finite zero_finite _) lim.capYMax_ok ?_
    by_contra hpos
    exact hacc hpos hneg
  · exact natural_decay_floored
  · intro hmode hcap
    exact ceilAt_not_lt_ceilAt hcapx.finite hcap_fin (hfin a.inputOffset) (hcap_io hmode hcap)

/-- **A clean curve is left as it is.** -/
theorem sanitizeAccelArgs_of_clean {a : AccelArgs} (h : a.Clean lim) :
    sanitizeAccelArgs lim a = a := by
  have hclamp : clampLength a = a := by
    unfold clampLength
    rw [max_eq_right h.lut.length_nonneg, min_eq_right h.lut.length_le]
  have hscrub : scrubLut a = a := scrubLut_of_finite h.lut.finite
  have hsort : sortLutData a = a := sortLutData_of_clean h.lut
  have hfinite : finiteAccelArgs a = a := by
    unfold finiteAccelArgs
    rw [finiteOr_of_finite h.acceleration_finite, finiteOr_of_finite h.scale.finite,
      finiteOr_of_finite h.decayRate.finite, finiteOr_of_finite h.exponentClassic.finite,
      h.exponentClassic.clamp_eq, finiteOr_of_finite h.exponentPower.finite,
      finiteOr_of_finite h.inputOffset.finite, finiteOr_of_finite h.outputOffset.finite,
      finiteOr_of_finite h.limit.finite, finiteOr_of_finite h.syncSpeed.finite,
      finiteOr_of_finite h.smooth.finite, finiteOr_of_finite h.motivity.finite,
      finiteOr_of_finite h.gamma.finite, finiteOr_of_finite h.capX.finite,
      finiteOr_of_finite h.capY.finite]
  have hdisable : disableCap a = a := by
    unfold disableCap
    rw [if_neg fun hcap => h.cap_off hcap.1 hcap.2]
  have hscale : floorScale a = a := by
    unfold floorScale
    rw [floorAt_of_not_lt h.scale.not_below]
  have hdecay : floorDecayRate a = a := by
    unfold floorDecayRate
    rw [floorAt_of_not_lt h.decayRate.not_below]
  have hnatural : floorNaturalDecay lim a = a := by
    unfold floorNaturalDecay
    rw [if_neg fun hlow => h.natural_decay hlow.1 hlow.2.1 hlow.2.2]
  have hfloor : floorAccelArgs a = a := by
    unfold floorAccelArgs
    rw [floorAt_of_not_lt h.exponentPower.not_below, floorAt_of_not_lt h.inputOffset.not_below,
      floorAt_of_not_lt h.outputOffset.not_below, floorAt_of_not_lt h.limit.not_below,
      floorAt_of_not_lt h.syncSpeed.not_below, floorAt_of_not_lt h.smooth.not_below,
      floorAt_of_not_lt h.motivity.not_below, floorAt_of_not_lt h.gamma.not_below,
      floorAt_of_not_lt h.capX.not_below, floorAt_of_not_lt h.capY.not_below]
  have hclassic : floorClassicCap a = a := by
    unfold floorClassicCap
    rw [if_neg fun hlow => h.classic_cap hlow.1 hlow.2.1 hlow.2.2]
  have hceil : ceilAccelArgs lim a = a := by
    unfold ceilAccelArgs
    rw [ceilAt_of_not_gt h.scale.not_above, ceilAt_of_not_gt h.exponentPower.not_above,
      ceilAt_of_not_gt h.inputOffset.not_above, ceilAt_of_not_gt h.capX.not_above,
      ceilAt_of_not_gt h.capY.not_above, ceilAt_of_not_gt h.outputOffset.not_above,
      ceilAt_of_not_gt h.limit.not_above, ceilAt_of_not_gt h.acceleration_le,
      ceilAt_of_not_gt h.decayRate.not_above, ceilAt_of_not_gt h.motivity.not_above,
      ceilAt_of_not_gt h.gamma.not_above, ceilAt_of_not_gt h.syncSpeed.not_above,
      ceilAt_of_not_gt h.smooth.not_above]
  unfold sanitizeAccelArgs
  simp only [hclamp, hscrub, hsort, hfinite, hdisable, hscale, hdecay, hnatural, hfloor, hclassic,
    hceil]

/-! ## Profiles -/

/-- An angle of a sanitized profile. -/
structure CleanRotation (x : Double) : Prop where
  finite : x.isFinite = true
  not_neg : ¬x < 0
  below : ¬x ≥ 360
  /-- A zero carries no sign. -/
  unsigned : x.eq 0 = true → x = 0

theorem normalizeRotation_clean {x : Double} (hx : x.isFinite = true) :
    CleanRotation (normalizeRotation x) := by
  have h360 : (360 : Double).isFinite = true := by decide +kernel
  have h360_key : (0 : ℤ) < (360 : Double).key := by decide +kernel
  have h0_key : (0 : Double).key = 0 := by decide +kernel
  have hzero : CleanRotation 0 :=
    ⟨zero_finite, lt_irrefl 0, by decide +kernel, fun _ => rfl⟩
  obtain ⟨hfin, hlt⟩ := fmod_finite hx h360 (by omega)
  unfold normalizeRotation
  dsimp only
  generalize fmod x 360 = r at hfin hlt
  -- after the shift the angle is finite and not negative
  have hshift : (if r < 0 then r + 360 else r).isFinite = true ∧
      ¬(if r < 0 then r + 360 else r) < 0 := by
    split_ifs with hneg
    · rw [lt_iff_key hfin zero_finite] at hneg
      obtain ⟨hsum, h0, -⟩ := add_between hfin h360 h360 (by omega) (by omega)
      refine ⟨hsum, ?_⟩
      rw [lt_iff_key hsum zero_finite]
      omega
    · exact ⟨hfin, hneg⟩
  revert hshift
  generalize (if r < 0 then r + 360 else r) = s
  rintro ⟨hs, hs0⟩
  split_ifs with hz hbig hbig
  · exact hzero
  · exact hzero
  · exact hzero
  · exact ⟨hs, hs0, hbig, fun h => absurd h hz⟩

theorem normalizeRotation_of_clean {x : Double} (h : CleanRotation x) :
    normalizeRotation x = x := by
  have h360 : (360 : Double).isFinite = true := by decide +kernel
  have h0_key : (0 : Double).key = 0 := by decide +kernel
  have hnot_neg := h.not_neg
  rw [lt_iff_key h.finite zero_finite] at hnot_neg
  have hbelow : x.key < (360 : Double).key := by
    have := h.below
    rw [ge_iff_le, le_iff_key h360 h.finite] at this
    omega
  have hmod : fmod x 360 = x := fmod_of_lt h.finite h360 (by omega)
  unfold normalizeRotation
  simp only [hmod, if_neg h.not_neg]
  by_cases hz : x.eq 0 = true
  · rw [if_pos hz, h.unsigned hz]
    exact if_neg (by decide +kernel)
  · rw [if_neg hz, if_neg h.below]

/-- The output resolution of a sanitized profile: off, or at least one. -/
structure CleanOutputDpi (x : Double) : Prop where
  within : Within 0 32000 x
  off_or_one : x > 0 → ¬x < 1

theorem clampOutputDpi_clean {x : Double} (hx : x.isFinite = true) :
    CleanOutputDpi (clampOutputDpi x) := by
  have h32000 : (32000 : Double).isFinite = true := by decide +kernel
  have hraise : ∀ y : Double, y.isFinite = true → ¬y < 0 →
      (if y > 0 ∧ y < 1 then 1 else y).isFinite = true ∧
        (¬(if y > 0 ∧ y < 1 then 1 else y) < 0) ∧
        ((if y > 0 ∧ y < 1 then 1 else y) > 0 → ¬(if y > 0 ∧ y < 1 then 1 else y) < 1) := by
    intro y hy hy0
    split_ifs with hlow
    · exact ⟨one_finite, by decide +kernel, fun _ => lt_irrefl 1⟩
    · exact ⟨hy, hy0, fun hpos hlt => hlow ⟨hpos, hlt⟩⟩
  obtain ⟨hfin, h0, hone⟩ := hraise _ (floorAt_finite zero_finite hx) (floorAt_not_lt 0 x)
  unfold clampOutputDpi
  dsimp only
  generalize (if floorAt 0 x > 0 ∧ floorAt 0 x < 1 then 1 else floorAt 0 x) = y
    at hfin h0 hone ⊢
  refine ⟨⟨ceilAt_finite h32000 hfin, ceilAt_not_lt (by decide +kernel) h0, ceilAt_not_gt _ _⟩, ?_⟩
  rw [ceilAt]
  split_ifs with hbig
  · exact fun _ => by decide +kernel
  · exact hone

theorem clampOutputDpi_of_clean {x : Double} (h : CleanOutputDpi x) : clampOutputDpi x = x := by
  unfold clampOutputDpi
  dsimp only
  rw [floorAt_of_not_lt h.within.not_below, if_neg fun hlow => h.off_or_one hlow.1 hlow.2,
    ceilAt_of_not_gt h.within.not_above]

/-- The speed limits of a sanitized profile. -/
structure CleanSpeeds (lim : Limits) (p : Profile) : Prop where
  speedMin : Within 0 lim.speedMax p.speedMin
  speedMax : Within 0 lim.speedMax p.speedMax
  ordered : p.speedMax > 0 → ¬p.speedMax < p.speedMin

theorem raiseSpeedMax_ordered (x y : Double) : raiseSpeedMax x y > 0 → ¬raiseSpeedMax x y < x := by
  unfold raiseSpeedMax
  split_ifs with hlow
  · exact fun _ => lt_irrefl x
  · exact fun hpos hlt => hlow ⟨hpos, hlt⟩

theorem raiseSpeedMax_within {lo hi x y : Double} (hx : Within lo hi x) (hy : Within lo hi y) :
    Within lo hi (raiseSpeedMax x y) := by
  unfold raiseSpeedMax
  split_ifs
  · exact hx
  · exact hy

theorem raiseSpeedMax_of_ordered {x y : Double} (h : y > 0 → ¬y < x) : raiseSpeedMax x y = y :=
  if_neg fun hlow => h hlow.1 hlow.2

theorem clampSpeeds_clean {p : Profile} (hmin : p.speedMin.isFinite = true)
    (hmax : p.speedMax.isFinite = true) : CleanSpeeds lim (clampSpeeds lim p) := by
  have hceil : ∀ x : Double, x.isFinite = true → ¬x < 0 →
      Within 0 lim.speedMax (ceilAt lim.speedMax x) := fun x hx h0 =>
    ⟨ceilAt_finite lim.speedMax_ok.finite hx, ceilAt_not_lt lim.speedMax_ok.not_lt h0,
      ceilAt_not_gt _ _⟩
  have hmin₁ := floorAt_finite zero_finite hmin
  have hmax₁ := floorAt_finite zero_finite hmax
  have hmin₂ := hceil _ hmin₁ (floorAt_not_lt 0 p.speedMin)
  have hraised : (raiseSpeedMax (floorAt 0 p.speedMin) (floorAt 0 p.speedMax)).isFinite = true ∧
      ¬raiseSpeedMax (floorAt 0 p.speedMin) (floorAt 0 p.speedMax) < 0 := by
    unfold raiseSpeedMax
    split_ifs
    · exact ⟨hmin₁, floorAt_not_lt 0 _⟩
    · exact ⟨hmax₁, floorAt_not_lt 0 _⟩
  have hmax₂ := hceil _ hraised.1 hraised.2
  exact ⟨hmin₂, raiseSpeedMax_within hmin₂ hmax₂, raiseSpeedMax_ordered _ _⟩

theorem clampSpeeds_of_clean {p : Profile} (h : CleanSpeeds lim p) : clampSpeeds lim p = p := by
  unfold clampSpeeds
  dsimp only
  rw [floorAt_of_not_lt h.speedMin.not_below, floorAt_of_not_lt h.speedMax.not_below,
    raiseSpeedMax_of_ordered h.ordered, ceilAt_of_not_gt h.speedMin.not_above,
    ceilAt_of_not_gt h.speedMax.not_above, raiseSpeedMax_of_ordered h.ordered]

/-- The smoothing parameters of a sanitized profile. -/
structure CleanSpeedArgs (sp : SpeedArgs) : Prop where
  lpNorm_finite : sp.lpNorm.isFinite = true
  lpNorm_pos : ¬sp.lpNorm ≤ 0
  inputHalflife : Within 0 smoothHalflifeMax sp.inputSpeedSmoothHalflife
  scaleHalflife : Within 0 smoothHalflifeMax sp.scaleSmoothHalflife
  outputHalflife : Within 0 smoothHalflifeMax sp.outputSpeedSmoothHalflife

theorem clampHalflife_within {x : Double} (hx : x.isFinite = true) :
    Within 0 smoothHalflifeMax (clampHalflife x) :=
  within_clamp zero_finite (by decide +kernel) (by decide +kernel) hx

theorem clampRatio_within {x : Double} (hx : x.isFinite = true) :
    Within 0.01 100 (clampRatio x) :=
  within_clamp (by decide +kernel) (by decide +kernel) (by decide +kernel) hx

theorem clampWeight_within {x : Double} (hx : x.isFinite = true) :
    Within 0 1e6 (clampWeight x) :=
  within_clamp zero_finite (by decide +kernel) (by decide +kernel) hx

theorem clampSpeedArgs_of_clean {sp : SpeedArgs} (h : CleanSpeedArgs sp) :
    clampSpeedArgs sp = sp := by
  unfold clampSpeedArgs clampHalflife
  rw [if_neg h.lpNorm_pos, h.inputHalflife.clamp_eq, h.scaleHalflife.clamp_eq,
    h.outputHalflife.clamp_eq]

/-- A sanitized profile. -/
structure Profile.Clean (lim : Limits) (p : Profile) : Prop where
  rotation : CleanRotation p.degreesRotation
  snap : Within 0 45 p.degreesSnap
  outputDpi : CleanOutputDpi p.outputDpi
  lrRatio : Within 0.01 100 p.lrOutputDpiRatio
  udRatio : Within 0.01 100 p.udOutputDpiRatio
  yxRatio : Within 0.01 100 p.yxOutputDpiRatio
  speeds : CleanSpeeds lim p
  speedArgs : CleanSpeedArgs p.speedProcessorArgs
  domainX : Within 0 1e6 p.domainWeights.x
  domainY : Within 0 1e6 p.domainWeights.y
  rangeX : Within 0 1e6 p.rangeWeights.x
  rangeY : Within 0 1e6 p.rangeWeights.y
  accelX : p.accelX.Clean lim
  accelY : p.accelY.Clean lim

theorem lpNorm_clamp {x : Double} (hx : x.isFinite = true) :
    (if x ≤ 0 then 2 else x).isFinite = true ∧ ¬(if x ≤ 0 then 2 else x) ≤ 0 := by
  split_ifs with h
  · exact ⟨two_finite, by decide +kernel⟩
  · exact ⟨hx, h⟩

variable (lim) in
/-- **A sanitized profile is clean.** -/
theorem sanitizeProfile_clean (p : Profile) : (sanitizeProfile lim p).Clean lim := by
  have hsort : ∀ a : AccelArgs, (sortLutData (sanitizeAccelArgs lim a)).Clean lim := fun a => by
    have hclean := sanitizeAccelArgs_clean lim a
    rwa [sortLutData_of_clean hclean.lut]
  have hspeeds : CleanSpeeds lim (clampSpeeds lim (finiteProfile p)) :=
    clampSpeeds_clean (finiteOr_finite zero_finite _) (finiteOr_finite zero_finite _)
  obtain ⟨hnorm, hnorm_pos⟩ := lpNorm_clamp (finiteOr_finite two_finite p.speedProcessorArgs.lpNorm)
  exact
    { rotation := normalizeRotation_clean (finiteOr_finite zero_finite _)
      snap := within_clamp zero_finite (by decide +kernel) (by decide +kernel)
        (finiteOr_finite zero_finite _)
      outputDpi := clampOutputDpi_clean (finiteOr_finite (by decide +kernel) _)
      lrRatio := clampRatio_within (finiteOr_finite one_finite _)
      udRatio := clampRatio_within (finiteOr_finite one_finite _)
      yxRatio := clampRatio_within (finiteOr_finite one_finite _)
      speeds := ⟨hspeeds.speedMin, hspeeds.speedMax, hspeeds.ordered⟩
      speedArgs :=
        { lpNorm_finite := hnorm
          lpNorm_pos := hnorm_pos
          inputHalflife := clampHalflife_within (finiteOr_finite zero_finite _)
          scaleHalflife := clampHalflife_within (finiteOr_finite zero_finite _)
          outputHalflife := clampHalflife_within (finiteOr_finite zero_finite _) }
      domainX := clampWeight_within (finiteOr_finite one_finite _)
      domainY := clampWeight_within (finiteOr_finite one_finite _)
      rangeX := clampWeight_within (finiteOr_finite one_finite _)
      rangeY := clampWeight_within (finiteOr_finite one_finite _)
      accelX := hsort p.accelX
      accelY := hsort p.accelY }

/-- **A clean profile is left as it is.** -/
theorem sanitizeProfile_of_clean {p : Profile} (h : p.Clean lim) : sanitizeProfile lim p = p := by
  have hfinite : finiteProfile p = p := by
    unfold finiteProfile
    rw [finiteOr_of_finite h.rotation.finite, finiteOr_of_finite h.snap.finite,
      finiteOr_of_finite h.speeds.speedMin.finite, finiteOr_of_finite h.speeds.speedMax.finite,
      finiteOr_of_finite h.lrRatio.finite, finiteOr_of_finite h.udRatio.finite,
      finiteOr_of_finite h.yxRatio.finite, finiteOr_of_finite h.domainX.finite,
      finiteOr_of_finite h.domainY.finite, finiteOr_of_finite h.rangeX.finite,
      finiteOr_of_finite h.rangeY.finite, finiteOr_of_finite h.outputDpi.within.finite,
      finiteOr_of_finite h.speedArgs.lpNorm_finite,
      finiteOr_of_finite h.speedArgs.inputHalflife.finite,
      finiteOr_of_finite h.speedArgs.scaleHalflife.finite,
      finiteOr_of_finite h.speedArgs.outputHalflife.finite]
  have hangles : { p with degreesRotation := normalizeRotation p.degreesRotation
                          degreesSnap := ceilAt 45 (floorAt 0 p.degreesSnap)
                          outputDpi := clampOutputDpi p.outputDpi
                          lrOutputDpiRatio := clampRatio p.lrOutputDpiRatio
                          udOutputDpiRatio := clampRatio p.udOutputDpiRatio
                          yxOutputDpiRatio := clampRatio p.yxOutputDpiRatio } = p := by
    unfold clampRatio
    rw [normalizeRotation_of_clean h.rotation, h.snap.clamp_eq,
      clampOutputDpi_of_clean h.outputDpi, h.lrRatio.clamp_eq, h.udRatio.clamp_eq,
      h.yxRatio.clamp_eq]
  unfold sanitizeProfile
  dsimp only
  rw [hfinite, hangles, clampSpeeds_of_clean h.speeds]
  unfold clampWeight
  rw [clampSpeedArgs_of_clean h.speedArgs, h.domainX.clamp_eq, h.domainY.clamp_eq,
    h.rangeX.clamp_eq, h.rangeY.clamp_eq, sanitizeAccelArgs_of_clean h.accelX,
    sanitizeAccelArgs_of_clean h.accelY, sortLutData_of_clean h.accelX.lut,
    sortLutData_of_clean h.accelY.lut]

/-! ## Device profiles -/

/-- The device settings of a sanitized profile. -/
structure DeviceConfig.Clean (dc : DeviceConfig) : Prop where
  dpi_ge : 1 ≤ dc.dpi
  dpi_le : dc.dpi ≤ 32000
  pollingRate_ge : pollRateMin ≤ dc.pollingRate
  pollingRate_le : dc.pollingRate ≤ pollRateMax

structure DeviceProfile.Clean (lim : Limits) (dp : DeviceProfile) : Prop where
  devCfg : dp.devCfg.Clean
  prof : dp.prof.Clean lim

theorem sanitizeDeviceConfig_clean (dc : DeviceConfig) : (sanitizeDeviceConfig dc).Clean := by
  constructor <;> simp only [sanitizeDeviceConfig, pollRateMin, pollRateMax] <;> omega

theorem sanitizeDeviceConfig_of_clean {dc : DeviceConfig} (h : dc.Clean) :
    sanitizeDeviceConfig dc = dc := by
  unfold sanitizeDeviceConfig
  rw [max_eq_right h.dpi_ge, min_eq_right h.dpi_le, max_eq_right h.pollingRate_ge,
    min_eq_right h.pollingRate_le]

variable (lim) in
theorem sanitizeDeviceProfile_clean (dp : DeviceProfile) :
    (sanitizeDeviceProfile lim dp).Clean lim :=
  ⟨sanitizeDeviceConfig_clean _, sanitizeProfile_clean lim _⟩

theorem sanitizeDeviceProfile_of_clean {dp : DeviceProfile} (h : dp.Clean lim) :
    sanitizeDeviceProfile lim dp = dp := by
  unfold sanitizeDeviceProfile
  rw [sanitizeDeviceConfig_of_clean h.devCfg, sanitizeProfile_of_clean h.prof]

variable (lim) in
/-- **Sanitizing twice is sanitizing once.** -/
theorem sanitizeDeviceProfile_idem (dp : DeviceProfile) :
    sanitizeDeviceProfile lim (sanitizeDeviceProfile lim dp) = sanitizeDeviceProfile lim dp :=
  sanitizeDeviceProfile_of_clean (sanitizeDeviceProfile_clean lim dp)

variable (lim) in
/-- **What the sanitizer promises.**  Whatever the fields of a profile hold, all of its
ranges and the rules that tie two fields together hold at once afterwards, and
sanitizing again changes nothing. -/
theorem sanitizeDeviceProfile_sound (dp : DeviceProfile) :
    (sanitizeDeviceProfile lim dp).Clean lim ∧
      sanitizeDeviceProfile lim (sanitizeDeviceProfile lim dp) = sanitizeDeviceProfile lim dp :=
  ⟨sanitizeDeviceProfile_clean lim dp, sanitizeDeviceProfile_idem lim dp⟩

/-! ## The default values -/

/-- A bounded value, from its comparisons. -/
theorem within_iff {lo hi x : Double} :
    Within lo hi x ↔ x.isFinite = true ∧ ¬x < lo ∧ ¬x > hi :=
  ⟨fun h => ⟨h.finite, h.not_below, h.not_above⟩, fun h => ⟨h.1, h.2.1, h.2.2⟩⟩

instance (lo hi x : Double) : Decidable (Within lo hi x) := decidable_of_iff _ within_iff.symm

theorem emptyLut_clean : AccelArgs.CleanLut {} where
  length_nonneg := le_rfl
  length_le := Int.natCast_nonneg _
  finite i hi := absurd hi (Nat.not_lt_zero i)
  sorted _ j _ hj := absurd hj (Nat.not_lt_zero j)

theorem defaultAccelArgs_clean : AccelArgs.Clean Limits.documented {} where
  lut := emptyLut_clean
  inputOffset := by decide +kernel
  outputOffset := by decide +kernel
  acceleration_finite := by decide +kernel
  acceleration_le := by decide +kernel
  decayRate := by decide +kernel
  gamma := by decide +kernel
  motivity := by decide +kernel
  exponentClassic := by decide +kernel
  scale := by decide +kernel
  exponentPower := by decide +kernel
  limit := by decide +kernel
  syncSpeed := by decide +kernel
  smooth := by decide +kernel
  capX := by decide +kernel
  capY := by decide +kernel
  cap_off := by decide +kernel
  natural_decay := by decide +kernel
  classic_cap := by decide +kernel

theorem defaultProfile_clean : Profile.Clean Limits.documented {} where
  rotation := ⟨by decide +kernel, by decide +kernel, by decide +kernel, fun _ => rfl⟩
  snap := by decide +kernel
  outputDpi := ⟨by decide +kernel, by decide +kernel⟩
  lrRatio := by decide +kernel
  udRatio := by decide +kernel
  yxRatio := by decide +kernel
  speeds := ⟨by decide +kernel, by decide +kernel, by decide +kernel⟩
  speedArgs := ⟨by decide +kernel, by decide +kernel, by decide +kernel, by decide +kernel,
    by decide +kernel⟩
  domainX := by decide +kernel
  domainY := by decide +kernel
  rangeX := by decide +kernel
  rangeY := by decide +kernel
  accelX := defaultAccelArgs_clean
  accelY := defaultAccelArgs_clean

/-- **The default values are clean.** -/
theorem defaults_clean : DeviceProfile.Clean Limits.documented {} :=
  ⟨⟨by decide, by decide, by decide, by decide⟩, defaultProfile_clean⟩

end AbrekMouse
