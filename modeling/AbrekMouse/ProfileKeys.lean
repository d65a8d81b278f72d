import AbrekMouse.FieldKeys
import AbrekMouse.Truncation

/-! # What is kept of a file

From the curves up: the smoothing parameters, a profile, a device profile and the whole file.
At each level a record that was read and sanitized keeps what the object says just where the
object fits (`Profile.keeps_iff`, `DeviceProfile.keeps_iff`, `AppConfig.keeps_iff`).
-/
namespace AbrekMouse
open ProgLib ProgLib.Fp
variable {lim : Limits}

/-! ## Reading one key -/

section Fields
variable {j : Json} {key : String}

theorem numberField_holding (dflt : Double) : Holding j key fun v =>
    v.isNumber = true → v.double = numberField j key dflt := by
  intro v hv hnumber
  simp only [numberField, hv, hnumber, if_true]

theorem numberField_absent {dflt : Double} (h : j.get? key = none) :
    numberField j key dflt = dflt := by
  simp only [numberField, h]

/-- Weights are kept just where both fit. -/
theorem keepsWeights_iff {p stored dflt : Vec2d} (hread : p = weightsField j key dflt)
    (hstored : stored = ⟨clampWeight (finiteOr 1 p.x), clampWeight (finiteOr 1 p.y)⟩) :
    KeepsPair j key stored ↔ FitsPair j key (Within 0 1e6) (Within 0 1e6) := by
  have hfinite : ∀ x : Double, (finiteOr 1 x).isFinite = true := finiteOr_finite one_finite
  unfold KeepsPair FitsPair Holding
  refine forall₂_congr fun v hv => ?_
  constructor
  · rintro ⟨x, y, rfl, ⟨hx, hxval⟩, ⟨hy, hyval⟩⟩
    rw [hstored] at hxval hyval
    exact ⟨x, y, rfl, ⟨hx, hxval ▸ clampWeight_within (hfinite _)⟩,
      ⟨hy, hyval ▸ clampWeight_within (hfinite _)⟩⟩
  · rintro ⟨x, y, rfl, ⟨hx, hxin⟩, ⟨hy, hyin⟩⟩
    have hp : p = ⟨x.double, y.double⟩ := by
      rw [hread]
      simp only [weightsField, hv, numberOr, isNumber_of_exact hx, isNumber_of_exact hy, if_true]
    have hkept : stored = p := by
      rw [hstored, hp]
      exact congrArg₂ Vec2d.mk (sanitized_of_within hxin 1) (sanitized_of_within hyin 1)
    rw [hkept, hp]
    exact ⟨x, y, rfl, ⟨hx, rfl⟩, ⟨hy, rfl⟩⟩

/-- A string is kept just where its cap does not cut it. -/
theorem keepsField_iff {fallback dflt : Bytes} {maxlen : ℕ} :
    KeepsString j key (stringField j key fallback dflt maxlen) ↔
      FitsString j key fun s => s.length ≤ maxlen := by
  unfold KeepsString FitsString Holding
  refine forall₂_congr fun v hv => ?_
  rw [stringField, hv]
  dsimp only
  constructor
  · intro hkept
    refine ⟨_, hkept, ?_⟩
    rw [hkept, jsonGetStringLimited]
    split_ifs with hlong
    · exact List.length_take_le _ _
    · exact Nat.not_lt.mp hlong
  · rintro ⟨s, rfl, hlen⟩
    rw [jsonGetStringLimited, if_neg (Nat.not_lt.mpr hlen)]

/-- The name in the buffer is the string just where it fits there and has no NUL. -/
theorem keepsName_iff {dflt : CString maxNameLen} :
    KeepsString j "name" (nameField j dflt).chars ↔
      FitsString j "name" fun s => s.length ≤ maxNameLen ∧ 0 ∉ s := by
  unfold KeepsString FitsString Holding
  refine forall₂_congr fun v hv => ?_
  constructor
  · intro hkept
    exact ⟨_, hkept, (nameField j dflt).length_le, (nameField j dflt).no_nul⟩
  · rintro ⟨s, rfl, hlen, hnul⟩
    unfold nameField
    rw [hv]
    exact congrArg (Json.str ·.chars) (CString.copy_chars ⟨s, hlen, hnul⟩).symm

/-- An integer is kept just where it is in the range. -/
theorem keepsInt_iff {lo hi fallback dflt : ℤ} (hlo : 0 ≤ lo) (hle : lo ≤ hi) (hhi : hi < intMax) :
    KeepsNumber j key (ofInt (min hi (max lo (intField j key fallback dflt)))) ↔
      FitsNumber j key fun x => ∃ z, lo ≤ z ∧ z ≤ hi ∧ x = ofInt z := by
  unfold KeepsNumber FitsNumber Holding
  refine forall₂_congr fun v hv => ?_
  constructor
  · rintro ⟨hexact, hvalue⟩
    exact ⟨hexact, _, by omega, by omega, hvalue⟩
  · rintro ⟨hexact, z, hz, hz', hvalue⟩
    have hread : intField j key fallback dflt = z := by
      unfold intField
      rw [hv]
      exact jsonGetIntSafe_of_double (isNumber_of_exact hexact) hvalue (by omega) (by omega)
    rw [hread, max_eq_right hz, min_eq_right hz']
    exact ⟨hexact, hvalue⟩

end Fields

/-! ## The smoothing parameters -/

structure SpeedArgs.Keeps (j : Json) (sp : SpeedArgs) : Prop where
  whole : KeepsBool j "whole" sp.whole
  numbers : ∀ k ∈ speedNumbers, KeepsNumber j k.key (k.get sp)

structure SpeedArgs.Fits (lim : Limits) (j : Json) (sp : SpeedArgs) : Prop where
  whole : FitsBool j "whole"
  numbers : ∀ k ∈ speedNumbers, FitsNumber j k.key (k.fits lim sp)

/-- The smoothing parameters of a sanitized profile. -/
def sanitizeSpeedArgs (sp : SpeedArgs) : SpeedArgs :=
  clampSpeedArgs
    { sp with
      lpNorm := finiteOr 2 sp.lpNorm
      inputSpeedSmoothHalflife := finiteOr 0 sp.inputSpeedSmoothHalflife
      scaleSmoothHalflife := finiteOr 0 sp.scaleSmoothHalflife
      outputSpeedSmoothHalflife := finiteOr 0 sp.outputSpeedSmoothHalflife }

theorem sanitizeProfile_speedArgs (p : Profile) :
    (sanitizeProfile lim p).speedProcessorArgs = sanitizeSpeedArgs p.speedProcessorArgs := rfl

/-- What is read of the object. -/
theorem speedArgsField_object {q v : Json} (dflt : SpeedArgs)
    (hget : q.get? "speed_processor" = some v) (hobject : v.isObject = true) :
    (speedArgsField q dflt).whole = boolField v "whole" dflt.whole ∧
      ∀ k ∈ speedNumbers, Holding v k.key fun w =>
        w.isNumber = true → w.double = k.get (speedArgsField q dflt) := by
  simp only [speedArgsField, hget, hobject, if_true, speedNumbers, List.forall_mem_cons]
  exact ⟨trivial, numberField_holding _, numberField_holding _, numberField_holding _,
    numberField_holding _, List.forall_mem_nil _⟩

theorem SpeedArgs.keeps_iff {j : Json} {sp : SpeedArgs} {dflt : Bool}
    (hwhole : sp.whole = boolField j "whole" dflt)
    (hread : ∀ k ∈ speedNumbers, Holding j k.key fun v => v.isNumber = true → v.double = k.get sp) :
    (sanitizeSpeedArgs sp).Keeps j ↔ sp.Fits lim j := by
  have hnumbers : (∀ k ∈ speedNumbers, KeepsNumber j k.key (k.get (sanitizeSpeedArgs sp))) ↔
      ∀ k ∈ speedNumbers, FitsNumber j k.key (k.fits lim sp) := by
    apply keepsNumbers_iff hread
    · have hhalf : ∀ x : Double, Within 0 smoothHalflifeMax (clampHalflife (finiteOr 0 x)) :=
        fun x => clampHalflife_within (finiteOr_finite zero_finite x)
      simp only [speedNumbers, List.forall_mem_cons]
      exact ⟨lpNorm_clamp (finiteOr_finite two_finite sp.lpNorm), hhalf _, hhalf _, hhalf _,
        List.forall_mem_nil _⟩
    · intro _
      simp only [speedNumbers, List.forall_mem_cons]
      refine ⟨fun h => ?_, fun h => sanitized_of_within h 0, fun h => sanitized_of_within h 0,
        fun h => sanitized_of_within h 0, List.forall_mem_nil _⟩
      show (if finiteOr 2 sp.lpNorm ≤ 0 then 2 else finiteOr 2 sp.lpNorm) = sp.lpNorm
      rw [finiteOr_of_finite h.1, if_neg h.2]
  constructor
  · exact fun h => ⟨(keepsBool_iff hwhole).mp h.whole, hnumbers.mp h.numbers⟩
  · exact fun h => ⟨(keepsBool_iff hwhole).mpr h.whole, hnumbers.mpr h.numbers⟩

/-! ## Profiles -/

structure Profile.Keeps (j : Json) (p : Profile) : Prop where
  name : KeepsString j "name" p.name.chars
  rawPassthrough : KeepsBool j "raw_passthrough" p.rawPassthrough
  domainWeights : KeepsPair j "domain_weights" p.domainWeights
  rangeWeights : KeepsPair j "range_weights" p.rangeWeights
  accelX : Holding j "accel_x" fun v => v.isObject = true ∧ p.accelX.Keeps v
  accelY : Holding j "accel_y" fun v => v.isObject = true ∧ p.accelY.Keeps v
  numbers : ∀ k ∈ profileNumbers, KeepsNumber j k.key (k.get p)
  speedArgs : Holding j "speed_processor" fun v =>
    v.isObject = true ∧ p.speedProcessorArgs.Keeps v

/-- The object says what a profile can have; `p` is what is read of it. -/
structure Profile.Fits (lim : Limits) (j : Json) (p : Profile) : Prop where
  name : FitsString j "name" fun s => s.length ≤ maxNameLen ∧ 0 ∉ s
  rawPassthrough : FitsBool j "raw_passthrough"
  domainWeights : FitsPair j "domain_weights" (Within 0 1e6) (Within 0 1e6)
  rangeWeights : FitsPair j "range_weights" (Within 0 1e6) (Within 0 1e6)
  accelX : Holding j "accel_x" fun v => v.isObject = true ∧ p.accelX.Fits lim v
  accelY : Holding j "accel_y" fun v => v.isObject = true ∧ p.accelY.Fits lim v
  numbers : ∀ k ∈ profileNumbers, FitsNumber j k.key (k.fits lim p)
  speedArgs : Holding j "speed_processor" fun v =>
    v.isObject = true ∧ p.speedProcessorArgs.Fits lim v

/-- Where both speeds are written, they are in order. -/
def SpeedsOrdered (j : Json) : Prop :=
  Holding j "speed_min" fun u => Holding j "speed_max" fun v =>
    u.isNumber = true → v.isNumber = true → ¬v.double < u.double

/-- What a profile that was read has. -/
structure ProfileRead (j : Json) (p : Profile) : Prop where
  name : ∃ dflt, p.name = nameField j dflt
  rawPassthrough : p.rawPassthrough = boolField j "raw_passthrough" false
  domainWeights : p.domainWeights = weightsField j "domain_weights" ⟨1, 1⟩
  rangeWeights : p.rangeWeights = weightsField j "range_weights" ⟨1, 1⟩
  accelX : accelField j "accel_x" {} = .ok p.accelX
  accelY : accelField j "accel_y" {} = .ok p.accelY
  numbers : ∀ k ∈ profileNumbers, Holding j k.key fun v => v.isNumber = true → v.double = k.get p
  speedMin_absent : j.get? "speed_min" = none → p.speedMin = 0
  speedMax_absent : j.get? "speed_max" = none → p.speedMax = 0
  speedArgs : p.speedProcessorArgs = speedArgsField j {}

theorem profileFromJsonObj_read {j : Json} {p : Profile} (h : profileFromJsonObj j = .ok p) :
    ProfileRead j p := by
  obtain ⟨accelX, hx, h⟩ := Except.bind_eq_ok_iff.mp h
  obtain ⟨accelY, hy, h⟩ := Except.bind_eq_ok_iff.mp h
  obtain rfl := Except.ok.inj h
  refine
    { name := ⟨_, rfl⟩
      rawPassthrough := rfl
      domainWeights := rfl
      rangeWeights := rfl
      accelX := hx
      accelY := hy
      numbers := ?_
      speedMin_absent := numberField_absent
      speedMax_absent := numberField_absent
      speedArgs := rfl }
  simp only [profileNumbers, List.forall_mem_cons]
  exact ⟨numberField_holding _, numberField_holding _, numberField_holding _,
    numberField_holding _, numberField_holding _, numberField_holding _, numberField_holding _,
    numberField_holding _, List.forall_mem_nil _⟩

/-- A curve under its key. -/
theorem keepsCurve_iff {j : Json} {key : String} {a dflt : AccelArgs}
    (hread : accelField j key dflt = .ok a) :
    (Holding j key fun v => v.isObject = true ∧ (sortLutData (sanitizeAccelArgs lim a)).Keeps v) ↔
      Holding j key fun v => v.isObject = true ∧ a.Fits lim v := by
  unfold Holding
  refine forall₂_congr fun v hv => and_congr_right fun hobject => ?_
  unfold accelField at hread
  rw [hv] at hread
  dsimp only at hread
  rw [if_pos hobject] at hread
  have hcurve := accelArgsFromJson_read hread
  rw [sortLutData_of_clean (sanitizeAccelArgs_lut lim a)]
  exact ⟨hcurve.fits, hcurve.keeps⟩

section Profile
variable {j : Json} {p : Profile}

theorem sanitizeProfile_fields (p : Profile) : (sanitizeProfile lim p).name = p.name ∧
    (sanitizeProfile lim p).rawPassthrough = p.rawPassthrough := ⟨rfl, rfl⟩

/-- The speeds fit, and what is written is in order: so is what was read. -/
theorem ProfileRead.speeds (hread : ProfileRead j p)
    (hfits : ∀ k ∈ profileNumbers, FitsNumber j k.key (k.fits lim p)) (hordered : SpeedsOrdered j) :
    Within 0 lim.speedMax p.speedMin ∧ (p.speedMax > 0 → ¬p.speedMax < p.speedMin) := by
  simp only [profileNumbers, List.forall_mem_cons] at hfits
  obtain ⟨-, -, -, hmin, hmax, -⟩ := hfits
  have hnumbers := hread.numbers
  simp only [profileNumbers, List.forall_mem_cons] at hnumbers
  obtain ⟨-, -, -, hgetmin, hgetmax, -⟩ := hnumbers
  cases hu : j.get? "speed_min" with
  | none =>
      rw [hread.speedMin_absent hu]
      exact ⟨within_zero lim.speedMax_ok, fun hpos hneg => lt_asymm hpos hneg⟩
  | some u =>
      have hunumber := isNumber_of_exact (hmin u hu).1
      have hmin' : u.double = p.speedMin := hgetmin u hu hunumber
      refine ⟨hmin' ▸ (hmin u hu).2, fun hpos => ?_⟩
      cases hv : j.get? "speed_max" with
      | none =>
          rw [hread.speedMax_absent hv] at hpos
          exact absurd hpos (lt_irrefl 0)
      | some v =>
          have hvnumber := isNumber_of_exact (hmax v hv).1
          have hmax' : v.double = p.speedMax := hgetmax v hv hvnumber
          rw [← hmin', ← hmax']
          exact hordered u hu v hv hunumber hvnumber

/-- **Numbers of a profile that fit stay.** -/
theorem sanitizeProfile_get (p : Profile) (hmin : Within 0 lim.speedMax p.speedMin)
    (hordered : p.speedMax > 0 → ¬p.speedMax < p.speedMin) :
    ∀ k ∈ profileNumbers, k.fits lim p (k.get p) → k.get (sanitizeProfile lim p) = k.get p := by
  simp only [profileNumbers, List.forall_mem_cons]
  refine ⟨fun h => ?_, fun h => ?_, fun h => sanitized_of_within h 0,
    fun h => sanitized_of_within h 0, fun h => ?_, fun h => sanitized_of_within h 1,
    fun h => sanitized_of_within h 1, fun h => sanitized_of_within h 1, List.forall_mem_nil _⟩
  · show clampOutputDpi (finiteOr normalizedDpi p.outputDpi) = p.outputDpi
    rw [finiteOr_of_finite h.within.finite, clampOutputDpi_of_clean h]
  · show normalizeRotation (finiteOr 0 p.degreesRotation) = p.degreesRotation
    rw [finiteOr_of_finite h.finite, normalizeRotation_of_clean h]
  · have hspeeds : CleanSpeeds lim p := ⟨hmin, h, hordered⟩
    have hraise := raiseSpeedMax_of_ordered hordered
    show raiseSpeedMax (ceilAt lim.speedMax (floorAt 0 (finiteOr 0 p.speedMin)))
      (ceilAt lim.speedMax (raiseSpeedMax (floorAt 0 (finiteOr 0 p.speedMin))
        (floorAt 0 (finiteOr 0 p.speedMax)))) = p.speedMax
    rw [finiteOr_of_finite hmin.finite, finiteOr_of_finite h.finite,
      floorAt_of_not_lt hmin.not_below, floorAt_of_not_lt h.not_below, hraise,
      ceilAt_of_not_gt hmin.not_above, ceilAt_of_not_gt h.not_above, hraise]

/-- **A profile keeps what it fits.** -/
theorem Profile.keeps_iff (hread : ProfileRead j p) (hordered : SpeedsOrdered j) :
    (sanitizeProfile lim p).Keeps j ↔ p.Fits lim j := by
  obtain ⟨dflt, hname⟩ := hread.name
  have hclean := sanitizeProfile_clean lim p
  have hnumbers : (∀ k ∈ profileNumbers, KeepsNumber j k.key (k.get (sanitizeProfile lim p))) ↔
      ∀ k ∈ profileNumbers, FitsNumber j k.key (k.fits lim p) := by
    apply keepsNumbers_iff hread.numbers
    · simp only [profileNumbers, List.forall_mem_cons]
      exact ⟨hclean.outputDpi, hclean.rotation, hclean.snap, hclean.speeds.speedMin,
        hclean.speeds.speedMax, hclean.yxRatio, hclean.lrRatio, hclean.udRatio,
        List.forall_mem_nil _⟩
    · intro hfits
      obtain ⟨hmin, horder⟩ := hread.speeds hfits hordered
      exact sanitizeProfile_get p hmin horder
  have hspeed : (Holding j "speed_processor" fun v => v.isObject = true ∧
      (sanitizeProfile lim p).speedProcessorArgs.Keeps v) ↔
      Holding j "speed_processor" fun v => v.isObject = true ∧ p.speedProcessorArgs.Fits lim v := by
    unfold Holding
    refine forall₂_congr fun v hv => and_congr_right fun hobject => ?_
    obtain ⟨hwhole, hspeeds⟩ := speedArgsField_object {} hv hobject
    rw [sanitizeProfile_speedArgs, hread.speedArgs]
    exact SpeedArgs.keeps_iff hwhole hspeeds
  have hname' : KeepsString j "name" (sanitizeProfile lim p).name.chars ↔
      FitsString j "name" fun s => s.length ≤ maxNameLen ∧ 0 ∉ s := by
    show KeepsString j "name" p.name.chars ↔ _
    rw [hname]
    exact keepsName_iff
  have hdomain : KeepsPair j "domain_weights" (sanitizeProfile lim p).domainWeights ↔
      FitsPair j "domain_weights" (Within 0 1e6) (Within 0 1e6) :=
    keepsWeights_iff hread.domainWeights rfl
  have hrange : KeepsPair j "range_weights" (sanitizeProfile lim p).rangeWeights ↔
      FitsPair j "range_weights" (Within 0 1e6) (Within 0 1e6) :=
    keepsWeights_iff hread.rangeWeights rfl
  have hraw : KeepsBool j "raw_passthrough" (sanitizeProfile lim p).rawPassthrough ↔
      FitsBool j "raw_passthrough" := keepsBool_iff hread.rawPassthrough
  constructor
  · exact fun h =>
      { name := hname'.mp h.name
        rawPassthrough := hraw.mp h.rawPassthrough
        domainWeights := hdomain.mp h.domainWeights
        rangeWeights := hrange.mp h.rangeWeights
        accelX := (keepsCurve_iff hread.accelX).mp h.accelX
        accelY := (keepsCurve_iff hread.accelY).mp h.accelY
        numbers := hnumbers.mp h.numbers
        speedArgs := hspeed.mp h.speedArgs }
  · exact fun h =>
      { name := hname'.mpr h.name
        rawPassthrough := hraw.mpr h.rawPassthrough
        domainWeights := hdomain.mpr h.domainWeights
        rangeWeights := hrange.mpr h.rangeWeights
        accelX := (keepsCurve_iff hread.accelX).mpr h.accelX
        accelY := (keepsCurve_iff hread.accelY).mpr h.accelY
        numbers := hnumbers.mpr h.numbers
        speedArgs := hspeed.mpr h.speedArgs }

end Profile

/-! ## Device profiles -/

structure DeviceProfile.Keeps (j : Json) (dp : DeviceProfile) : Prop where
  name : KeepsString j "name" dp.name
  deviceId : KeepsString j "device_id" dp.deviceId
  matchApp : KeepsString j "match_app" dp.matchApp
  dpi : KeepsNumber j "dpi" (ofInt dp.devCfg.dpi)
  pollingRate : KeepsNumber j "polling_rate" (ofInt dp.devCfg.pollingRate)
  disable : KeepsBool j "disable" dp.devCfg.disable
  profile : Holding j "profile" fun v => v.isObject = true ∧ dp.prof.Keeps v

/-- The object says what a device profile can have; `p` is the profile that is read of it. -/
structure DeviceProfile.Fits (lim : Limits) (j : Json) (p : Profile) : Prop where
  name : FitsString j "name" fun _ => True
  deviceId : FitsString j "device_id" fun s => s.length ≤ maxDpDeviceId ∧ s ∉ allDevicesAliases
  matchApp : FitsString j "match_app" fun s => s.length ≤ maxMatchApp
  dpi : FitsNumber j "dpi" fun x => ∃ z : ℤ, 1 ≤ z ∧ z ≤ 32000 ∧ x = ofInt z
  pollingRate : FitsNumber j "polling_rate" fun x =>
    ∃ z : ℤ, pollRateMin ≤ z ∧ z ≤ pollRateMax ∧ x = ofInt z
  disable : FitsBool j "disable"
  profile : Holding j "profile" fun v => v.isObject = true ∧ p.Fits lim v

/-- A name is within its cap. -/
def ShortName (j : Json) : Prop := ∀ s, j.get? "name" = some (.str s) → s.length ≤ maxNameLen

/-- A device is kept as it is named, unless the name is one of those for every device. -/
theorem keepsDeviceId_iff {j : Json} {id : Bytes}
    (h : id = stringField j "device_id" [] [] maxDpDeviceId) :
    KeepsString j "device_id" (if id ∈ allDevicesAliases then [] else id) ↔
      FitsString j "device_id" fun s => s.length ≤ maxDpDeviceId ∧ s ∉ allDevicesAliases := by
  have hread : ∀ s, j.get? "device_id" = some (.str s) → s.length ≤ maxDpDeviceId → id = s :=
    fun s hs hlen => h.trans (stringField_str hs hlen)
  by_cases halias : id ∈ allDevicesAliases
  · rw [if_pos halias]
    constructor
    · intro hkept v hv
      obtain rfl := hkept v hv
      rw [hread [] hv (Nat.zero_le _)] at halias
      exact absurd halias (by decide)
    · intro hfits v hv
      obtain ⟨s, rfl, hlen, hplain⟩ := hfits v hv
      rw [hread s hv hlen] at halias
      exact absurd halias hplain
  · rw [if_neg halias]
    have hfield : KeepsString j "device_id" id ↔
        FitsString j "device_id" fun s => s.length ≤ maxDpDeviceId := by
      rw [h]
      exact keepsField_iff
    rw [hfield]
    constructor
    · intro hfits v hv
      obtain ⟨s, rfl, hlen⟩ := hfits v hv
      exact ⟨s, rfl, hlen, hread s hv hlen ▸ halias⟩
    · intro hfits v hv
      obtain ⟨s, rfl, hlen, -⟩ := hfits v hv
      exact ⟨s, rfl, hlen⟩

/-- **A device profile keeps what it fits.** -/
theorem DeviceProfile.keeps_iff {j : Json} {dp : DeviceProfile} {p : Profile}
    (hread : deviceProfileFromJson lim j = .ok dp) (hprof : profField j {} = .ok p)
    (hshort : ShortName j) (hordered : Holding j "profile" SpeedsOrdered) :
    dp.Keeps j ↔ DeviceProfile.Fits lim j p := by
  obtain ⟨q, hq, hread⟩ := Except.bind_eq_ok_iff.mp hread
  obtain rfl : p = q := Except.ok.inj (hprof.symm.trans hq)
  obtain rfl := Except.ok.inj hread
  have hprofile :
      (Holding j "profile" fun v => v.isObject = true ∧ (sanitizeProfile lim p).Keeps v) ↔
      Holding j "profile" fun v => v.isObject = true ∧ p.Fits lim v := by
    unfold Holding
    refine forall₂_congr fun v hv => and_congr_right fun hobject => ?_
    unfold profField at hprof
    rw [hv] at hprof
    dsimp only at hprof
    rw [if_pos hobject] at hprof
    exact Profile.keeps_iff (profileFromJsonObj_read hprof) (hordered v hv)
  have hid := keepsDeviceId_iff (j := j) rfl
  have hname : (FitsString j "name" fun s => s.length ≤ maxNameLen) ↔
      FitsString j "name" fun _ => True := by
    unfold FitsString Holding
    refine forall₂_congr fun v hv => exists_congr fun s => and_congr_right fun hs => ?_
    exact iff_true_intro (hshort s (hs ▸ hv))
  have hdpi : KeepsNumber j "dpi" (ofInt (min 32000 (max 1 (intField j "dpi" 800 800)))) ↔
      FitsNumber j "dpi" fun x => ∃ z : ℤ, 1 ≤ z ∧ z ≤ 32000 ∧ x = ofInt z :=
    keepsInt_iff (by decide) (by decide) (by decide)
  have hrate : KeepsNumber j "polling_rate"
      (ofInt (min pollRateMax (max pollRateMin (intField j "polling_rate" 1000 1000)))) ↔
      FitsNumber j "polling_rate" fun x =>
        ∃ z : ℤ, pollRateMin ≤ z ∧ z ≤ pollRateMax ∧ x = ofInt z :=
    keepsInt_iff (by decide) (by decide) (by decide)
  constructor
  · exact fun h =>
      { name := hname.mp (keepsField_iff.mp h.name)
        deviceId := hid.mp h.deviceId
        matchApp := keepsField_iff.mp h.matchApp
        dpi := hdpi.mp h.dpi
        pollingRate := hrate.mp h.pollingRate
        disable := (keepsBool_iff rfl).mp h.disable
        profile := hprofile.mp h.profile }
  · exact fun h =>
      { name := keepsField_iff.mpr (hname.mpr h.name)
        deviceId := hid.mpr h.deviceId
        matchApp := keepsField_iff.mpr h.matchApp
        dpi := hdpi.mpr h.dpi
        pollingRate := hrate.mpr h.pollingRate
        disable := (keepsBool_iff rfl).mpr h.disable
        profile := hprofile.mpr h.profile }

/-! ## Files -/

/-- **The configuration has what the file says.** -/
structure AppConfig.Keeps (j : Json) (cfg : AppConfig) : Prop where
  version : KeepsString j "version" cfg.version
  activeProfile : KeepsString j "active_profile" cfg.activeProfile
  useRawInput : KeepsBool j "use_raw_input" cfg.useRawInput
  profiles : Holding j "profiles" fun v => ∃ pjs, v = .arr pjs ∧
    pjs.Forall₂ (fun pj dp => DeviceProfile.Keeps pj dp) cfg.profiles

/-- **The file says what a configuration can have.** -/
structure FileFits (lim : Limits) (j : Json) : Prop where
  activeProfile : FitsString j "active_profile" fun s => s.length ≤ maxNameLen
  useRawInput : FitsBool j "use_raw_input"
  profiles : ∀ pj ∈ profileElems j, ∃ p, profField pj {} = .ok p ∧ DeviceProfile.Fits lim pj p

/-- The cap of a file cuts nothing: a file with more profiles is refused. -/
theorem readProfiles_file {maxProfiles size : ℕ} (hfile : maxProfiles ≥ maxProfilesFile)
    {js : List Json} {done dps : List DeviceProfile}
    (h : readProfiles lim maxProfiles size done js = .ok dps) :
    ∃ new, dps = done ++ new ∧
      js.Forall₂ (fun pj dp => deviceProfileFromJson lim pj = .ok dp) new := by
  induction js generalizing done with
  | nil =>
      cases h
      exact ⟨[], (List.append_nil _).symm, .nil⟩
  | cons pj js ih =>
      unfold readProfiles at h
      split_ifs at h with hobject hfull
      obtain ⟨dp, hdp, h⟩ := Except.bind_eq_ok_iff.mp h
      obtain ⟨new, rfl, hnew⟩ := ih h
      exact ⟨dp :: new, by rw [List.append_assoc]; rfl, .cons hdp hnew⟩

theorem profilesField_file {j : Json} {maxProfiles : ℕ} (hfile : maxProfiles ≥ maxProfilesFile)
    {dps : List DeviceProfile} (h : profilesField lim j maxProfiles = .ok dps) :
    (profileElems j).Forall₂ (fun pj dp => deviceProfileFromJson lim pj = .ok dp) dps := by
  unfold profilesField at h
  unfold profileElems
  cases hget : j.get? "profiles" with
  | none =>
      rw [hget] at h
      cases h
      exact .nil
  | some v =>
      rw [hget] at h
      dsimp only at h
      split_ifs at h
      obtain ⟨new, rfl, hnew⟩ := readProfiles_file hfile h
      exact hnew

theorem appConfigFromJsonObj_eq_ok {j : Json} {maxProfiles : ℕ} {cfg : AppConfig}
    (h : appConfigFromJsonObj lim j maxProfiles = .ok cfg) :
    ∃ dps, profilesField lim j maxProfiles = .ok dps ∧ cfg =
      { version := versionField j []
        activeProfile :=
          stringField j "active_profile" (bytes "default") (bytes "default") maxNameLen
        useRawInput := boolField j "use_raw_input" true
        profiles := dps } := by
  obtain ⟨-, h⟩ := Except.throw_if_eq_ok_iff.mp h
  obtain ⟨dps, hdps, h⟩ := Except.bind_eq_ok_iff.mp h
  exact ⟨dps, hdps, (Except.ok.inj h).symm⟩

/-- Where a file has profiles, they are the elements of an array. -/
theorem exists_profiles {j : Json} {maxProfiles : ℕ} {dps : List DeviceProfile}
    (h : profilesField lim j maxProfiles = .ok dps) (hsome : dps ≠ []) :
    ∃ pjs, j.get? "profiles" = some (.arr pjs) := by
  unfold profilesField at h
  cases hget : j.get? "profiles" with
  | none =>
      rw [hget] at h
      cases h
      exact absurd rfl hsome
  | some v =>
      rw [hget] at h
      cases v with
      | arr pjs => exact ⟨pjs, rfl⟩
      | null =>
          cases h
          exact absurd rfl hsome
      | _ => cases h

/-- Two relations between the same lists, of which one says what the other asks of the left. -/
theorem forall₂_iff_forall {α β : Type} {R S : α → β → Prop} {P : α → Prop} {as : List α}
    {bs : List β} (h : as.Forall₂ R bs) (hiff : ∀ a ∈ as, ∀ b, R a b → (S a b ↔ P a)) :
    as.Forall₂ S bs ↔ ∀ a ∈ as, P a := by
  induction h with
  | nil => simp
  | cons hab _ ih =>
      rw [List.forall₂_cons, List.forall_mem_cons, hiff _ List.mem_cons_self _ hab,
        ih fun a ha => hiff a (List.mem_cons_of_mem _ ha)]

/-- **A file is kept just where it fits.** -/
theorem AppConfig.keeps_iff {j : Json} {cfg : AppConfig}
    (hread : appConfigFromJsonObj lim j maxProfilesFile = .ok cfg)
    (hversion : j.get? "version" = some (.str rawaccelVersion)) (hsome : cfg.profiles ≠ [])
    (hprofiles : ∀ pj ∈ profileElems j, ShortName pj ∧ Holding pj "profile" SpeedsOrdered) :
    cfg.Keeps j ↔ FileFits lim j := by
  obtain ⟨dps, hdps, rfl⟩ := appConfigFromJsonObj_eq_ok hread
  obtain ⟨pjs, hget⟩ := exists_profiles hdps hsome
  have helems : profileElems j = pjs := by
    unfold profileElems
    rw [hget]
    rfl
  have hall := profilesField_file le_rfl hdps
  have hkeeps : (profileElems j).Forall₂ (fun pj dp => DeviceProfile.Keeps pj dp) dps ↔
      ∀ pj ∈ profileElems j, ∃ p, profField pj {} = .ok p ∧ DeviceProfile.Fits lim pj p := by
    refine forall₂_iff_forall hall fun pj hpj dp hdp => ?_
    obtain ⟨p, hp, -⟩ := Except.bind_eq_ok_iff.mp hdp
    obtain ⟨hshort, hordered⟩ := hprofiles pj hpj
    rw [DeviceProfile.keeps_iff hdp hp hshort hordered]
    constructor
    · exact fun hfits => ⟨p, hp, hfits⟩
    · rintro ⟨q, hq, hfits⟩
      obtain rfl := Except.ok.inj (hp.symm.trans hq)
      exact hfits
  rw [helems] at hkeeps
  constructor
  · intro h
    refine ⟨keepsField_iff.mp h.activeProfile, (keepsBool_iff rfl).mp h.useRawInput, ?_⟩
    obtain ⟨qjs, hqjs, hforall⟩ := h.profiles _ hget
    cases hqjs
    rw [helems]
    exact hkeeps.mp hforall
  · intro h
    refine ⟨?_, keepsField_iff.mpr h.activeProfile, (keepsBool_iff rfl).mpr h.useRawInput, ?_⟩
    · intro v hv
      obtain rfl := Option.some.inj (hversion.symm.trans hv)
      show _ = Json.str (versionField j _)
      rw [versionField, hversion]
    · intro v hv
      obtain rfl := Option.some.inj (hget.symm.trans hv)
      have hfits := h.profiles
      rw [helems] at hfits
      exact ⟨pjs, rfl, hkeeps.mpr hfits⟩

end AbrekMouse
