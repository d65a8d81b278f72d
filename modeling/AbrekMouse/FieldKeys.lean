import AbrekMouse.Checked
import AbrekMouse.ReadBack

/-! # The keys of a settings file

A settings file names what it sets.  Most of its keys hold a number, and for each of these a
table gives the field that it sets and the numbers that the sanitizer leaves alone.

What is kept of a file is said key by key (`AccelArgs.Keeps` and so on): the key is absent, or
what it holds is what the field has.  What a file has to hold for that is said the same way
(`AccelArgs.Fits`).  The two are the same for a record that was read and sanitized
(`accelField_keeps_iff`).
-/
namespace AbrekMouse
open ProgLib ProgLib.Fp ProgLib.PairSort

/-! ## Values -/

/-- A number that a `double` holds. -/
def exactNumber : Json → Prop
  | .float _ => True
  | .int z => Holds binary64 z
  | _ => False

/-- A Boolean as the reader takes it: zero and one count. -/
def boolValue (v : Json) : Option Bool :=
  match v with
  | .bool b => some b
  | v =>
      if v.isNumber then
        if v.double.eq 0 then some false else if v.double.eq 1 then some true else none
      else none

/-- The key is absent, or its value is so. -/
def Holding (j : Json) (key : String) (P : Json → Prop) : Prop := ∀ v, j.get? key = some v → P v

/-- The value of the key is exactly the number that was stored. -/
def KeepsNumber (j : Json) (key : String) (x : Double) : Prop :=
  Holding j key fun v => exactNumber v ∧ v.double = x

/-- The value of the key is the switch that was stored. -/
def KeepsBool (j : Json) (key : String) (b : Bool) : Prop :=
  Holding j key fun v => boolValue v = some b

/-- The value of the key is the text that was stored. -/
def KeepsString (j : Json) (key : String) (s : Bytes) : Prop := Holding j key fun v => v = .str s

/-- The value of the key is exactly the pair of numbers that was stored. -/
def KeepsPair (j : Json) (key : String) (p : Vec2d) : Prop :=
  Holding j key fun v => ∃ x y, v = .arr [x, y] ∧ (exactNumber x ∧ x.double = p.x) ∧
    (exactNumber y ∧ y.double = p.y)

/-- The value of the key is a number that loading leaves alone. -/
def FitsNumber (j : Json) (key : String) (P : Double → Prop) : Prop :=
  Holding j key fun v => exactNumber v ∧ P v.double

/-- The value of the key is a switch. -/
def FitsBool (j : Json) (key : String) : Prop :=
  Holding j key fun v => (boolValue v).isSome = true

/-- The value of the key is a text that loading leaves alone. -/
def FitsString (j : Json) (key : String) (P : Bytes → Prop) : Prop :=
  Holding j key fun v => ∃ s, v = .str s ∧ P s

/-- The value of the key is a pair of numbers that loading leaves alone. -/
def FitsPair (j : Json) (key : String) (P Q : Double → Prop) : Prop :=
  Holding j key fun v => ∃ x y, v = .arr [x, y] ∧ (exactNumber x ∧ P x.double) ∧
    (exactNumber y ∧ Q y.double)

/-! ## The tables -/

/-- A key that holds a number: its field, and the numbers that are left alone there. -/
structure NumberKey (R : Type) where
  key : String
  get : R → Double
  fits : Limits → R → Double → Prop

/-- The acceleration of a curve, with its upper bound. -/
def accelerationKey : NumberKey AccelArgs :=
  ⟨"acceleration", (·.acceleration), fun lim _ x => x.isFinite = true ∧ ¬x > lim.accelMax⟩

/-- The input offset of a curve, with its range. -/
def inputOffsetKey : NumberKey AccelArgs :=
  ⟨"input_offset", (·.inputOffset), fun lim _ => Within 0 lim.capXMax⟩

/-- The numbers of a curve, each with the values that loading leaves alone. -/
def accelNumbers : List (NumberKey AccelArgs) :=
  [accelerationKey,
    ⟨"scale", (·.scale), fun lim _ => Within 0.01 lim.scaleMax⟩,
    ⟨"decay_rate", (·.decayRate), fun lim a x => Within 0 lim.decayRateMax x ∧
      (a.mode = .natural → x > 0 → ¬x < lim.naturalDecayRateMin)⟩,
    ⟨"motivity", (·.motivity), fun lim _ => Within 0 lim.motivityMax⟩,
    ⟨"gamma", (·.gamma), fun lim _ => Within 0 lim.gammaMax⟩,
    ⟨"sync_speed", (·.syncSpeed), fun lim _ => Within 1e-4 lim.syncSpeedMax⟩,
    ⟨"smooth", (·.smooth), fun lim _ => Within 0 lim.smoothMax⟩,
    ⟨"exponent_classic", (·.exponentClassic), fun _ _ => Within 1 10⟩,
    ⟨"exponent_power", (·.exponentPower), fun lim _ => Within 1e-4 lim.expPowerMax⟩,
    ⟨"limit", (·.limit), fun lim _ => Within 0 lim.limitMax⟩,
    inputOffsetKey,
    ⟨"output_offset", (·.outputOffset), fun lim _ => Within 0 lim.outputOffsetMax⟩]

/-- The numbers of the section `speed_processor`, likewise. -/
def speedNumbers : List (NumberKey SpeedArgs) :=
  [⟨"lp_norm", (·.lpNorm), fun _ _ x => x.isFinite = true ∧ ¬x ≤ 0⟩,
    ⟨"input_speed_smooth_halflife", (·.inputSpeedSmoothHalflife),
      fun _ _ => Within 0 smoothHalflifeMax⟩,
    ⟨"scale_smooth_halflife", (·.scaleSmoothHalflife), fun _ _ => Within 0 smoothHalflifeMax⟩,
    ⟨"output_speed_smooth_halflife", (·.outputSpeedSmoothHalflife),
      fun _ _ => Within 0 smoothHalflifeMax⟩]

/-- The other numbers of the section `profile`, likewise. -/
def profileNumbers : List (NumberKey Profile) :=
  [⟨"output_dpi", (·.outputDpi), fun _ _ => CleanOutputDpi⟩,
    ⟨"degrees_rotation", (·.degreesRotation), fun _ _ => CleanRotation⟩,
    ⟨"degrees_snap", (·.degreesSnap), fun _ _ => Within 0 45⟩,
    ⟨"speed_min", (·.speedMin), fun lim _ => Within 0 lim.speedMax⟩,
    ⟨"speed_max", (·.speedMax), fun lim _ => Within 0 lim.speedMax⟩,
    ⟨"yx_output_dpi_ratio", (·.yxOutputDpiRatio), fun _ _ => Within 0.01 100⟩,
    ⟨"lr_output_dpi_ratio", (·.lrOutputDpiRatio), fun _ _ => Within 0.01 100⟩,
    ⟨"ud_output_dpi_ratio", (·.udOutputDpiRatio), fun _ _ => Within 0.01 100⟩]

variable {lim : Limits}

theorem isNumber_of_exact {v : Json} (h : exactNumber v) : v.isNumber = true := by
  cases v <;> first | rfl | exact h.elim

/-- **Numbers are kept just where they fit**: what is stored fits, and what fits stays. -/
theorem keepsNumbers_iff {R : Type} {keys : List (NumberKey R)} {j : Json} {raw stored : R}
    (hread : ∀ k ∈ keys, Holding j k.key fun v => v.isNumber = true → v.double = k.get raw)
    (hstored : ∀ k ∈ keys, k.fits lim raw (k.get stored))
    (hstay : (∀ k ∈ keys, FitsNumber j k.key (k.fits lim raw)) →
      ∀ k ∈ keys, k.fits lim raw (k.get raw) → k.get stored = k.get raw) :
    (∀ k ∈ keys, KeepsNumber j k.key (k.get stored)) ↔
      ∀ k ∈ keys, FitsNumber j k.key (k.fits lim raw) := by
  constructor
  · intro h k hk v hv
    obtain ⟨hexact, hvalue⟩ := h k hk v hv
    exact ⟨hexact, hvalue ▸ hstored k hk⟩
  · intro h k hk v hv
    obtain ⟨hexact, hfits⟩ := h k hk v hv
    have hvalue : v.double = k.get raw := hread k hk v hv (isNumber_of_exact hexact)
    rw [hvalue] at hfits
    exact ⟨hexact, by rw [hvalue, hstay h k hk hfits]⟩

/-- What a clean curve has fits. -/
theorem accelNumbers_fits {a : AccelArgs} (h : a.Clean lim) :
    ∀ k ∈ accelNumbers, k.fits lim a (k.get a) := by
  simp only [accelNumbers, List.forall_mem_cons]
  exact ⟨⟨h.acceleration_finite, h.acceleration_le⟩, h.scale, ⟨h.decayRate, h.natural_decay⟩,
    h.motivity, h.gamma, h.syncSpeed, h.smooth, h.exponentClassic, h.exponentPower, h.limit,
    h.inputOffset, h.outputOffset, List.forall_mem_nil _⟩

/-- Of the curve only the mode matters. -/
theorem accelNumbers_congr {a b : AccelArgs} (h : b.mode = a.mode) :
    ∀ k ∈ accelNumbers, ∀ x, k.fits lim b x → k.fits lim a x := by
  simp [accelNumbers, accelerationKey, inputOffsetKey, h]

theorem sanitized_of_within {lo hi x : Double} (h : Within lo hi x) (dflt : Double) :
    ceilAt hi (floorAt lo (finiteOr dflt x)) = x := by
  rw [finiteOr_of_finite h.finite, h.clamp_eq]

/-- **A number that fits stays**, whatever the other fields of the curve are. -/
theorem sanitizeAccelArgs_get (a : AccelArgs) :
    ∀ k ∈ accelNumbers, k.fits lim a (k.get a) → k.get (sanitizeAccelArgs lim a) = k.get a := by
  simp only [accelNumbers, accelerationKey, inputOffsetKey, List.forall_mem_cons,
    sanitizeAccelArgs, ceilAccelArgs, floorClassicCap, floorAccelArgs, floorNaturalDecay,
    floorDecayRate, floorScale, disableCap, finiteAccelArgs, sortLutData, scrubLut, clampLength]
  refine ⟨fun h => ?_, fun h => sanitized_of_within h 0, fun h => ?_,
    fun h => sanitized_of_within h 0, fun h => sanitized_of_within h 0,
    fun h => sanitized_of_within h 1, fun h => sanitized_of_within h 0,
    fun h => sanitized_of_within h 2, fun h => sanitized_of_within h 1,
    fun h => sanitized_of_within h 0, fun h => sanitized_of_within h 0,
    fun h => sanitized_of_within h 0, List.forall_mem_nil _⟩
  · rw [finiteOr_of_finite h.1, ceilAt_of_not_gt h.2]
  · have hhigh : ¬(a.mode = .natural ∧ a.decayRate > 0 ∧ a.decayRate < lim.naturalDecayRateMin) :=
      fun hlow => h.2 hlow.1 hlow.2.1 hlow.2.2
    have hfloor : floorAt 0 (finiteOr 0 a.decayRate) = a.decayRate := by
      rw [finiteOr_of_finite h.1.finite, floorAt_of_not_lt h.1.not_below]
    simp only [hfloor, if_neg hhigh, ceilAt_of_not_gt h.1.not_above]

/-! ## What is kept of a curve -/

/-- The table as it is written: an even number of points in the order of their keys, each number
of them one that a `float` holds. -/
structure FitsTable (pts : List Json) (d : Vector Single lutRawDataCapacity) : Prop where
  length_le : pts.length ≤ lutRawDataCapacity
  even : pts.length % 2 = 0
  floats : ∀ i < pts.length, (rd d i).isFinite = true ∧ exactNumber (pts.getD i .null) ∧
    (pts.getD i .null).double = convert (rd d i)
  sorted : Sorted (pts.length / 2) d

/-- The number of elements of the table, where there is one. -/
def tableSize (j : Json) : ℕ :=
  match j.get? "lut_data" with
  | some v => v.elems.length
  | none => 0

/-- **The curve has what the object says.** -/
structure AccelArgs.Keeps (j : Json) (a : AccelArgs) : Prop where
  mode : KeepsString j "mode" (modeToStr a.mode)
  gain : KeepsBool j "gain" a.gain
  numbers : ∀ k ∈ accelNumbers, KeepsNumber j k.key (k.get a)
  cap : KeepsPair j "cap" a.cap
  capMode : KeepsString j "cap_mode" (capToStr a.capModeVal)
  table : Holding j "lut_data" fun v => ∃ pts, v = .arr pts ∧ a.length = pts.length ∧
    ∀ i < pts.length, exactNumber (pts.getD i .null) ∧
      (pts.getD i .null).double = convert (rd a.data i)
  length : KeepsNumber j "lut_length" (ofInt a.length)

/-- **The object says what a curve can have**; `a` is what is read of it. -/
structure AccelArgs.Fits (lim : Limits) (j : Json) (a : AccelArgs) : Prop where
  mode : FitsString j "mode" fun _ => True
  gain : FitsBool j "gain"
  numbers : ∀ k ∈ accelNumbers, FitsNumber j k.key (k.fits lim a)
  cap : FitsPair j "cap"
    (fun x => Within 0 lim.capXMax x ∧
      (a.mode = .classic → a.capModeVal = .io ∨ a.capModeVal = .in_ → ¬x < a.inputOffset))
    (fun y => Within 0 lim.capYMax y ∧ (a.acceleration < 0 → ¬y > 0))
  capMode : FitsString j "cap_mode" fun _ => True
  table : Holding j "lut_data" fun v => ∃ pts d, v = .arr pts ∧ FitsTable pts d
  length : FitsNumber j "lut_length" (· = ofInt (tableSize j))

/-- What was read of a key that has to hold a number. -/
theorem requireNumber_eq_ok {j : Json} {key : String} {dflt x : Double}
    (hdflt : dflt.isFinite = true) (h : requireNumber j key dflt = .ok x) :
    x.isFinite = true ∧ Holding j key (fun v => v.double = x) ∧ (j.get? key = none → x = dflt) := by
  unfold requireNumber at h
  unfold Holding
  cases hget : j.get? key with
  | none =>
      rw [hget] at h
      cases h
      exact ⟨hdflt, nofun, fun _ => rfl⟩
  | some v =>
      rw [hget] at h
      dsimp only at h
      split_ifs at h with hnumber hfinite
      cases h
      refine ⟨by simpa using hfinite, ?_, nofun⟩
      rintro w hw
      cases hw
      rfl

/-- What a curve that was read has. -/
structure AccelRead (j : Json) (a : AccelArgs) : Prop where
  mode : modeField j .noaccel = .ok a.mode
  gain : a.gain = boolField j "gain" true
  numbers : ∀ k ∈ accelNumbers, Holding j k.key fun v => v.double = k.get a
  acceleration_finite : a.acceleration.isFinite = true
  acceleration_absent : j.get? "acceleration" = none → a.acceleration = 0.005
  inputOffset_finite : a.inputOffset.isFinite = true
  inputOffset_absent : j.get? "input_offset" = none → a.inputOffset = 0
  cap : a.cap = capField j ⟨15, 1.5⟩
  capMode : capModeField j .out = .ok a.capModeVal
  length : a.length = (lutFields j {}).length
  data : a.data = (lutFields j {}).data

/-- The table is read into a curve that has none yet. -/
theorem lutFields_eq {j : Json} {a b : AccelArgs} (h : lutFields j a = b)
    (hdata : a.data = ({} : AccelArgs).data) (hlength : a.length = 0) :
    b = { a with data := (lutFields j {}).data, length := (lutFields j {}).length } := by
  rw [← h]
  unfold lutFields
  split
  · rw [hdata]
  · show a = { a with data := ({} : AccelArgs).data, length := 0 }
    rw [← hdata, ← hlength]

theorem accelArgsFromJson_read {j : Json} {a : AccelArgs} (h : accelArgsFromJson j = .ok a) :
    AccelRead j a := by
  obtain ⟨mode, hmode, h⟩ := Except.bind_eq_ok_iff.mp h
  obtain ⟨inputOffset, hinput, h⟩ := Except.bind_eq_ok_iff.mp h
  obtain ⟨outputOffset, houtput, h⟩ := Except.bind_eq_ok_iff.mp h
  obtain ⟨acceleration, hacc, h⟩ := Except.bind_eq_ok_iff.mp h
  obtain ⟨decayRate, hdecay, h⟩ := Except.bind_eq_ok_iff.mp h
  obtain ⟨gamma, hgamma, h⟩ := Except.bind_eq_ok_iff.mp h
  obtain ⟨motivity, hmotivity, h⟩ := Except.bind_eq_ok_iff.mp h
  obtain ⟨exponentClassic, hclassic, h⟩ := Except.bind_eq_ok_iff.mp h
  obtain ⟨scale, hscale, h⟩ := Except.bind_eq_ok_iff.mp h
  obtain ⟨exponentPower, hpower, h⟩ := Except.bind_eq_ok_iff.mp h
  obtain ⟨limit, hlimit, h⟩ := Except.bind_eq_ok_iff.mp h
  obtain ⟨syncSpeed, hsync, h⟩ := Except.bind_eq_ok_iff.mp h
  obtain ⟨smooth, hsmooth, h⟩ := Except.bind_eq_ok_iff.mp h
  obtain ⟨capModeVal, hcapMode, h⟩ := Except.bind_eq_ok_iff.mp h
  have ha := Except.ok.inj h
  obtain rfl := lutFields_eq ha rfl rfl
  obtain ⟨hacc_finite, hacc_get, hacc_none⟩ := requireNumber_eq_ok (by decide +kernel) hacc
  obtain ⟨hinput_finite, hinput_get, hinput_none⟩ := requireNumber_eq_ok (by decide +kernel) hinput
  refine
    { mode := hmode
      gain := rfl
      numbers := ?_
      acceleration_finite := hacc_finite
      acceleration_absent := hacc_none
      inputOffset_finite := hinput_finite
      inputOffset_absent := hinput_none
      cap := rfl
      capMode := hcapMode
      length := rfl
      data := rfl }
  simp only [accelNumbers, List.forall_mem_cons]
  exact ⟨hacc_get, (requireNumber_eq_ok (by decide +kernel) hscale).2.1,
    (requireNumber_eq_ok (by decide +kernel) hdecay).2.1,
    (requireNumber_eq_ok (by decide +kernel) hmotivity).2.1,
    (requireNumber_eq_ok (by decide +kernel) hgamma).2.1,
    (requireNumber_eq_ok (by decide +kernel) hsync).2.1,
    (requireNumber_eq_ok (by decide +kernel) hsmooth).2.1,
    (requireNumber_eq_ok (by decide +kernel) hclassic).2.1,
    (requireNumber_eq_ok (by decide +kernel) hpower).2.1,
    (requireNumber_eq_ok (by decide +kernel) hlimit).2.1, hinput_get,
    (requireNumber_eq_ok (by decide +kernel) houtput).2.1, List.forall_mem_nil _⟩

/-! ## Reading one key -/

theorem boolFromJsonLenient_eq (v : Json) (dflt : Bool) :
    boolFromJsonLenient v dflt = (boolValue v).getD dflt := by
  unfold boolFromJsonLenient boolValue
  cases v <;> first | rfl | (dsimp only; split_ifs <;> rfl)

theorem keepsBool_iff {j : Json} {key : String} {b dflt : Bool} (h : b = boolField j key dflt) :
    KeepsBool j key b ↔ FitsBool j key := by
  unfold KeepsBool FitsBool Holding
  refine forall₂_congr fun v hv => ?_
  rw [h, boolField, hv]
  dsimp only
  rw [boolFromJsonLenient_eq]
  cases boolValue v <;> simp

theorem modeToStr_strToMode : ∀ s ∈ validModes, modeToStr (strToMode s) = s := by
  decide

theorem keepsMode_iff {j : Json} {m dflt : AccelMode} (h : modeField j dflt = .ok m) :
    KeepsString j "mode" (modeToStr m) ↔ FitsString j "mode" fun _ => True := by
  unfold KeepsString FitsString Holding
  refine forall₂_congr fun v hv => ⟨fun hs => ⟨_, hs, trivial⟩, ?_⟩
  rintro ⟨s, rfl, -⟩
  unfold modeField at h
  rw [hv] at h
  dsimp only at h
  split_ifs at h with hvalid
  cases h
  rw [modeToStr_strToMode s hvalid]

theorem capToStr_strToCap {s : Bytes} (h : ¬(s ≠ bytes "in" ∧ s ≠ bytes "out" ∧ s ≠ bytes "io")) :
    capToStr (strToCap s) = s := by
  have hcases : s = bytes "in" ∨ s = bytes "out" ∨ s = bytes "io" := by tauto
  rcases hcases with rfl | rfl | rfl <;> decide

theorem keepsCapMode_iff {j : Json} {m dflt : CapMode} (h : capModeField j dflt = .ok m) :
    KeepsString j "cap_mode" (capToStr m) ↔ FitsString j "cap_mode" fun _ => True := by
  unfold KeepsString FitsString Holding
  refine forall₂_congr fun v hv => ⟨fun hs => ⟨_, hs, trivial⟩, ?_⟩
  rintro ⟨s, rfl, -⟩
  unfold capModeField at h
  rw [hv] at h
  dsimp only at h
  split_ifs at h with hbad
  cases h
  rw [capToStr_strToCap hbad]

/-! ## What the sanitizer keeps of a curve -/

section Curve
variable {j : Json} {a : AccelArgs}

variable (lim) in
/-- The names are not sanitized. -/
theorem sanitizeAccelArgs_names (a : AccelArgs) : (sanitizeAccelArgs lim a).mode = a.mode ∧
    (sanitizeAccelArgs lim a).gain = a.gain ∧
    (sanitizeAccelArgs lim a).capModeVal = a.capModeVal := by
  simp only [sanitizeAccelArgs, ceilAccelArgs, floorClassicCap, floorAccelArgs, floorNaturalDecay,
    floorDecayRate, floorScale, disableCap, finiteAccelArgs, sortLutData, scrubLut, clampLength,
    and_self]

variable (lim) in
/-- A clean table is not sanitized. -/
theorem sanitizeAccelArgs_table (h : a.CleanLut) : (sanitizeAccelArgs lim a).length = a.length ∧
    (sanitizeAccelArgs lim a).data = a.data := by
  have hclamp : clampLength a = a := by
    unfold clampLength
    rw [max_eq_right h.length_nonneg, min_eq_right h.length_le]
  have hsort : sortLutData (scrubLut (clampLength a)) = a := by
    rw [hclamp, scrubLut_of_finite h.finite, sortLutData_of_clean h]
  constructor
  · rw [sanitizeAccelArgs_length, hclamp]
  · show (sortLutData (scrubLut (clampLength a))).data = a.data
    rw [hsort]

theorem accelerationKey_mem : accelerationKey ∈ accelNumbers := by simp [accelNumbers]

theorem inputOffsetKey_mem : inputOffsetKey ∈ accelNumbers := by simp [accelNumbers]

theorem lutLength_size {size : ℕ} (hsize : size ≤ lutRawDataCapacity)
    (h : FitsNumber j "lut_length" (· = ofInt size)) : lutLength j size = size := by
  have hcap : (size : ℤ) ≤ lutRawDataCapacity := by exact_mod_cast hsize
  obtain ⟨hlow, hhigh, htrunc⟩ := ofInt_lutLength (Int.natCast_nonneg size) hcap
  unfold lutLength
  cases hget : j.get? "lut_length" with
  | none => simp only [if_neg hlow, if_neg hhigh, htrunc]
  | some v =>
      obtain ⟨hexact, hv⟩ := h v hget
      simp only [isNumber_of_exact hexact, hv, if_true, if_neg hlow, if_neg hhigh, htrunc]

theorem lutSlot_exact {v : Json} {x : Single} (hv : exactNumber v) (hx : x.isFinite = true)
    (h : v.double = convert x) : lutSlot v = x := by
  have hfloat : lutSlot v = lutSlot (.float (convert x)) := by
    unfold lutSlot
    rw [isNumber_of_exact hv, h]
    rfl
  rw [hfloat, lutSlot_float hx]

/-- **A table that fits is read as it is written.** -/
theorem AccelRead.table (hread : AccelRead j a) {pts : List Json}
    {d : Vector Single lutRawDataCapacity} (hget : j.get? "lut_data" = some (.arr pts))
    (hfits : FitsTable pts d) (hlength : FitsNumber j "lut_length" (· = ofInt (tableSize j))) :
    a.length = pts.length ∧ ∀ i < pts.length, rd a.data i = rd d i := by
  have hsize : tableSize j = pts.length := by
    unfold tableSize
    rw [hget]
    rfl
  rw [hsize] at hlength
  have hcount := lutLength_size hfits.length_le hlength
  have heven := hfits.even
  have hcap := hfits.length_le
  rw [hread.length, hread.data]
  simp only [lutFields, hget, hcount, Int.toNat_natCast, min_self]
  constructor
  · omega
  · intro i hi
    obtain ⟨hfinite, hexact, hvalue⟩ := hfits.floats i hi
    rw [rd_foldl_wr (fun i _ => lutSlot (pts.getD i .null)), if_pos ⟨hi, by omega⟩]
    exact lutSlot_exact hexact hfinite hvalue

theorem AccelRead.length_absent (hread : AccelRead j a) (h : j.get? "lut_data" = none) :
    a.length = 0 := by
  rw [hread.length]
  simp only [lutFields, h]

/-- The table of a curve that was read has no odd slot. -/
theorem AccelRead.length_even (hread : AccelRead j a) : 0 ≤ a.length ∧ a.length % 2 = 0 := by
  rw [hread.length]
  unfold lutFields
  split
  · dsimp only
    omega
  · exact ⟨le_rfl, rfl⟩

/-- A table that fits is clean once it is read. -/
theorem AccelRead.cleanLut (hread : AccelRead j a) {pts : List Json}
    {d : Vector Single lutRawDataCapacity} (hget : j.get? "lut_data" = some (.arr pts))
    (hfits : FitsTable pts d) (hlength : FitsNumber j "lut_length" (· = ofInt (tableSize j))) :
    a.CleanLut := by
  obtain ⟨hlen, hdata⟩ := hread.table hget hfits hlength
  have hcap := hfits.length_le
  have hpoints : a.points = pts.length / 2 := by
    rw [points_eq, hlen]
    rfl
  refine ⟨by omega, by omega, fun i hi => ?_, fun i k hik hk => ?_⟩
  · rw [hdata i (by omega)]
    exact (hfits.floats i (by omega)).1
  · rw [hdata _ (by omega), hdata _ (by omega)]
    exact hfits.sorted i k hik (by omega)

/-- Zero is in every range that starts there. -/
theorem within_zero {hi : Double} (h : Ceiling 0 hi) : Within 0 hi 0 :=
  ⟨zero_finite, lt_irrefl 0, h.not_lt⟩

/-- The input offset is in its range if its key fits, for the default is zero. -/
theorem AccelRead.inputOffset_within (hread : AccelRead j a)
    (h : FitsNumber j "input_offset" (Within 0 lim.capXMax)) :
    Within 0 lim.capXMax a.inputOffset := by
  cases hget : j.get? "input_offset" with
  | none =>
      rw [hread.inputOffset_absent hget]
      exact within_zero lim.capXMax_ok
  | some v =>
      have hvalue : v.double = a.inputOffset :=
        hread.numbers inputOffsetKey inputOffsetKey_mem v hget
      rw [← hvalue]
      exact (h v hget).2

/-- **The cap that fits stays.** -/
theorem sanitizeAccelArgs_cap (hacc : a.acceleration.isFinite = true)
    (hinput : Within 0 lim.capXMax a.inputOffset) (hx : Within 0 lim.capXMax a.cap.x)
    (hy : Within 0 lim.capYMax a.cap.y)
    (hclassic : a.mode = .classic → a.capModeVal = .io ∨ a.capModeVal = .in_ →
      ¬a.cap.x < a.inputOffset) (hoff : a.acceleration < 0 → ¬a.cap.y > 0) :
    (sanitizeAccelArgs lim a).cap = a.cap := by
  have hlow : ¬(a.mode = .classic ∧ (a.capModeVal = .io ∨ a.capModeVal = .in_) ∧
      a.cap.x < a.inputOffset) := fun h => hclassic h.1 h.2.1 h.2.2
  have hneg : ¬(a.acceleration < 0 ∧ a.cap.y > 0) := fun h => hoff h.1 h.2
  have hfloor : ∀ {hi x : Double}, Within 0 hi x → floorAt 0 x = x := fun h =>
    floorAt_of_not_lt h.not_below
  simp only [sanitizeAccelArgs, ceilAccelArgs, floorClassicCap, floorAccelArgs, floorNaturalDecay,
    floorDecayRate, floorScale, disableCap, finiteAccelArgs, sortLutData, scrubLut, clampLength,
    finiteOr_of_finite hacc, finiteOr_of_finite hx.finite, finiteOr_of_finite hy.finite,
    finiteOr_of_finite hinput.finite, hfloor hx, hfloor hy, hfloor hinput, if_neg hlow,
    if_neg hneg, ceilAt_of_not_gt hx.not_above, ceilAt_of_not_gt hy.not_above]

theorem AccelRead.keepsNumbers_iff (hread : AccelRead j a) :
    (∀ k ∈ accelNumbers, KeepsNumber j k.key (k.get (sanitizeAccelArgs lim a))) ↔
      ∀ k ∈ accelNumbers, FitsNumber j k.key (k.fits lim a) := by
  obtain ⟨hmode, -⟩ := sanitizeAccelArgs_names lim a
  have hclean := accelNumbers_fits (sanitizeAccelArgs_clean lim a)
  apply AbrekMouse.keepsNumbers_iff
  · exact fun k hk v hv _ => hread.numbers k hk v hv
  · exact fun k hk => accelNumbers_congr hmode k hk _ (hclean k hk)
  · exact fun _ => sanitizeAccelArgs_get a

/-- What is written fits, if it is kept. -/
theorem AccelRead.fits (hread : AccelRead j a) (h : (sanitizeAccelArgs lim a).Keeps j) :
    a.Fits lim j := by
  have hclean := sanitizeAccelArgs_clean lim a
  obtain ⟨hmode, hgain, hcapMode⟩ := sanitizeAccelArgs_names lim a
  have hnumbers := hread.keepsNumbers_iff.mp h.numbers
  have hinput : (sanitizeAccelArgs lim a).inputOffset = a.inputOffset :=
    sanitizeAccelArgs_get a inputOffsetKey inputOffsetKey_mem
      (hread.inputOffset_within (hnumbers inputOffsetKey inputOffsetKey_mem))
  have hlength : (sanitizeAccelArgs lim a).length = (tableSize j : ℤ) := by
    unfold tableSize
    cases hget : j.get? "lut_data" with
    | none =>
        rw [sanitizeAccelArgs_length, clampLength, hread.length_absent hget]
        rfl
    | some v =>
        obtain ⟨pts, rfl, hlen, -⟩ := h.table v hget
        exact hlen
  refine
    { mode := fun v hv => ⟨_, h.mode v hv, trivial⟩
      gain := ?_
      numbers := hnumbers
      cap := ?_
      capMode := fun v hv => ⟨_, h.capMode v hv, trivial⟩
      table := ?_
      length := ?_ }
  · exact (keepsBool_iff hread.gain).mp (hgain ▸ h.gain)
  · intro v hv
    obtain ⟨x, y, rfl, ⟨hx, hxval⟩, ⟨hy, hyval⟩⟩ := h.cap v hv
    refine ⟨x, y, rfl, ⟨hx, hxval ▸ hclean.capX, fun hm hc => ?_⟩, ⟨hy, hyval ▸ hclean.capY, ?_⟩⟩
    · rw [hxval, ← hinput]
      exact hclean.classic_cap (hmode.trans hm) (hcapMode.symm ▸ hc)
    · -- a negative acceleration is written, and kept
      intro hneg
      rw [hyval]
      refine hclean.cap_off ?_
      cases hacc : j.get? "acceleration" with
      | none =>
          rw [hread.acceleration_absent hacc] at hneg
          exact absurd hneg (by decide +kernel)
      | some w =>
          have hkept : w.double = (sanitizeAccelArgs lim a).acceleration :=
            (h.numbers accelerationKey accelerationKey_mem w hacc).2
          have hvalue : w.double = a.acceleration :=
            hread.numbers accelerationKey accelerationKey_mem w hacc
          rwa [← hkept, hvalue]
  · intro v hv
    obtain ⟨pts, rfl, hlen, hpts⟩ := h.table v hv
    have hlut := hclean.lut
    have hcap := hlut.length_le
    have hpoints : (sanitizeAccelArgs lim a).points = pts.length / 2 := by
      rw [points_eq, hlen]
      rfl
    have heven : pts.length % 2 = 0 := by
      obtain ⟨h0, heven⟩ := hread.length_even
      rw [sanitizeAccelArgs_length, clampLength] at hlen
      dsimp only [lutRawDataCapacity] at hlen
      omega
    refine ⟨pts, (sanitizeAccelArgs lim a).data, rfl, by omega, heven, fun i hi => ?_,
      hpoints ▸ hlut.sorted⟩
    exact ⟨hlut.finite i (by omega), hpts i hi⟩
  · intro v hv
    obtain ⟨hexact, hvalue⟩ := h.length v hv
    exact ⟨hexact, by rw [hvalue, hlength]⟩

/-- What fits is kept. -/
theorem AccelRead.keeps (hread : AccelRead j a) (h : a.Fits lim j) :
    (sanitizeAccelArgs lim a).Keeps j := by
  obtain ⟨hmode, hgain, hcapMode⟩ := sanitizeAccelArgs_names lim a
  have hinput := hread.inputOffset_within (h.numbers inputOffsetKey inputOffsetKey_mem)
  have hlength : (sanitizeAccelArgs lim a).length = (tableSize j : ℤ) := by
    unfold tableSize
    cases hget : j.get? "lut_data" with
    | none =>
        rw [sanitizeAccelArgs_length, clampLength, hread.length_absent hget]
        rfl
    | some v =>
        obtain ⟨pts, d, rfl, hfits⟩ := h.table v hget
        have hclean := hread.cleanLut hget hfits h.length
        rw [(sanitizeAccelArgs_table lim hclean).1, (hread.table hget hfits h.length).1]
        rfl
  refine
    { mode := ?_
      gain := ?_
      numbers := hread.keepsNumbers_iff.mpr h.numbers
      cap := ?_
      capMode := ?_
      table := ?_
      length := ?_ }
  · rw [hmode]
    exact (keepsMode_iff hread.mode).mpr h.mode
  · rw [hgain]
    exact (keepsBool_iff hread.gain).mpr h.gain
  · intro v hv
    obtain ⟨x, y, rfl, ⟨hx, hxin, hclassic⟩, ⟨hy, hyin, hoff⟩⟩ := h.cap v hv
    have hcap : a.cap = ⟨x.double, y.double⟩ := by
      rw [hread.cap]
      simp only [capField, hv, numberOr, isNumber_of_exact hx, isNumber_of_exact hy, if_true]
    have hkept : (sanitizeAccelArgs lim a).cap = a.cap := by
      apply sanitizeAccelArgs_cap hread.acceleration_finite hinput
      all_goals rw [hcap]
      · exact hxin
      · exact hyin
      · exact hclassic
      · exact hoff
    rw [hkept, hcap]
    exact ⟨x, y, rfl, ⟨hx, rfl⟩, ⟨hy, rfl⟩⟩
  · rw [hcapMode]
    exact (keepsCapMode_iff hread.capMode).mpr h.capMode
  · intro v hv
    obtain ⟨pts, d, rfl, hfits⟩ := h.table v hv
    obtain ⟨hlen, hdata⟩ := hread.table hv hfits h.length
    obtain ⟨hlen', hdata'⟩ := sanitizeAccelArgs_table lim
      (hread.cleanLut hv hfits h.length)
    refine ⟨pts, rfl, hlen'.trans hlen, fun i hi => ?_⟩
    rw [hdata', hdata i hi]
    exact (hfits.floats i hi).2
  · intro v hv
    obtain ⟨hexact, hvalue⟩ := h.length v hv
    exact ⟨hexact, by rw [hvalue, hlength]⟩

end Curve

end AbrekMouse
