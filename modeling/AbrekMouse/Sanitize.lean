import AbrekMouse.Config

/-! # Sanitizing a configuration

The clamps that every loaded or saved profile goes through.  Each is written in the
order of the source: numbers that are not finite are replaced first, then come the
lower bounds with the rules that tie two fields together, then the ceilings of the
gauges.
-/
namespace AbrekMouse
open ProgLib ProgLib.Fp ProgLib.PairSort
variable (lim : Limits)

/-! ## The clamps -/

/-- `sanitize_device_config`: the DPI and the polling rate come into their ranges. -/
def sanitizeDeviceConfig (dc : DeviceConfig) : DeviceConfig :=
  { dc with
    dpi := min 32000 (max 1 dc.dpi)
    pollingRate := min pollRateMax (max pollRateMin dc.pollingRate) }

/-- The points of the table are its pairs of slots; an odd slot at the end is none. -/
def AccelArgs.points (a : AccelArgs) : ℕ := (a.length.tdiv 2).toNat

/-- `sort_lut_data`: the points of the table by their keys, equal keys in their old order. -/
def sortLutData (a : AccelArgs) : AccelArgs := { a with data := sortPairs a.points a.data }

/-- The length is that of the buffer at most, and not negative. -/
def clampLength (a : AccelArgs) : AccelArgs :=
  { a with length := min lutRawDataCapacity (max 0 a.length) }

/-- One slot of the table, made finite. -/
def scrubSlot (v : Single) : Single :=
  floorAt (-maxFinite) (ceilAt maxFinite (finiteOr 0 v))

/-- Every slot of the table that counts is scrubbed. -/
def scrubLut (a : AccelArgs) : AccelArgs :=
  { a with
    data := (List.range a.length.toNat).foldl (fun d i => wr d i (scrubSlot (rd d i))) a.data }

/-- What is not a finite number gets its default; the exponent of the classic curve comes into
its range as well. -/
def finiteAccelArgs (a : AccelArgs) : AccelArgs :=
  { a with
    acceleration := finiteOr 0 a.acceleration
    scale := finiteOr 0 a.scale
    decayRate := finiteOr 0 a.decayRate
    exponentClassic := ceilAt 10 (floorAt 1 (finiteOr 2 a.exponentClassic))
    exponentPower := finiteOr 1 a.exponentPower
    inputOffset := finiteOr 0 a.inputOffset
    outputOffset := finiteOr 0 a.outputOffset
    limit := finiteOr 0 a.limit
    syncSpeed := finiteOr 1 a.syncSpeed
    smooth := finiteOr 0 a.smooth
    motivity := finiteOr 0 a.motivity
    gamma := finiteOr 0 a.gamma
    cap := ⟨finiteOr 0 a.cap.x, finiteOr 0 a.cap.y⟩ }

/-- Deceleration is defined only without a cap. -/
def disableCap (a : AccelArgs) : AccelArgs :=
  { a with cap.y := if a.acceleration < 0 ∧ a.cap.y > 0 then 0 else a.cap.y }

/-- The scale is positive. -/
def floorScale (a : AccelArgs) : AccelArgs := { a with scale := floorAt 0.01 a.scale }

/-- The decay rate is not negative. -/
def floorDecayRate (a : AccelArgs) : AccelArgs := { a with decayRate := floorAt 0 a.decayRate }

/-- A decay rate that natural mode cannot compute with is raised; zero may stay. -/
def floorNaturalDecay (a : AccelArgs) : AccelArgs :=
  { a with
    decayRate :=
      if a.mode = .natural ∧ a.decayRate > 0 ∧ a.decayRate < lim.naturalDecayRateMin then
        lim.naturalDecayRateMin
      else a.decayRate }

/-- The lower bounds of the other numbers of a curve. -/
def floorAccelArgs (a : AccelArgs) : AccelArgs :=
  { a with
    exponentPower := floorAt 1e-4 a.exponentPower
    inputOffset := floorAt 0 a.inputOffset
    outputOffset := floorAt 0 a.outputOffset
    limit := floorAt 0 a.limit
    syncSpeed := floorAt 1e-4 a.syncSpeed
    smooth := floorAt 0 a.smooth
    motivity := floorAt 0 a.motivity
    gamma := floorAt 0 a.gamma
    cap := ⟨floorAt 0 a.cap.x, floorAt 0 a.cap.y⟩ }

/-- The capped classic curve starts at its input offset. -/
def floorClassicCap (a : AccelArgs) : AccelArgs :=
  { a with
    cap.x :=
      if a.mode = .classic ∧ (a.capModeVal = .io ∨ a.capModeVal = .in_) ∧
          a.cap.x < a.inputOffset then
        a.inputOffset
      else a.cap.x }

/-- The upper bounds, which are those of the acceleration library. -/
def ceilAccelArgs (a : AccelArgs) : AccelArgs :=
  { a with
    scale := ceilAt lim.scaleMax a.scale
    exponentPower := ceilAt lim.expPowerMax a.exponentPower
    inputOffset := ceilAt lim.capXMax a.inputOffset
    cap := ⟨ceilAt lim.capXMax a.cap.x, ceilAt lim.capYMax a.cap.y⟩
    outputOffset := ceilAt lim.outputOffsetMax a.outputOffset
    limit := ceilAt lim.limitMax a.limit
    acceleration := ceilAt lim.accelMax a.acceleration
    decayRate := ceilAt lim.decayRateMax a.decayRate
    motivity := ceilAt lim.motivityMax a.motivity
    gamma := ceilAt lim.gammaMax a.gamma
    syncSpeed := ceilAt lim.syncSpeedMax a.syncSpeed
    smooth := ceilAt lim.smoothMax a.smooth }

/-- `sanitize_accel_args`, pass by pass: the table, the numbers that are not finite, the lower
bounds, and then the upper ones. -/
def sanitizeAccelArgs (a : AccelArgs) : AccelArgs :=
  let a := clampLength a
  let a := sortLutData (scrubLut a)
  let a := finiteAccelArgs a
  let a := disableCap a
  let a := floorScale a
  let a := floorDecayRate a
  let a := floorNaturalDecay lim a
  let a := floorAccelArgs a
  let a := floorClassicCap a
  ceilAccelArgs lim a

/-- An angle in `[0, 360)`, without a negative zero. -/
def normalizeRotation (x : Double) : Double :=
  let r := fmod x 360
  let r := if r < 0 then r + 360 else r
  let r := if r.eq 0 then 0 else r
  if r ≥ 360 then 0 else r

/-- Zero switches the normalisation off; a positive value is at least one. -/
def clampOutputDpi (x : Double) : Double :=
  let x := floorAt 0 x
  let x := if x > 0 ∧ x < 1 then 1 else x
  ceilAt 32000 x

/-- A speed limit that is on is not below the minimum speed. -/
def raiseSpeedMax (speedMin speedMax : Double) : Double :=
  if speedMax > 0 ∧ speedMax < speedMin then speedMin else speedMax

/-- The two speeds are not negative, in order, and within the limit; the order is restored after
each of the bounds. -/
def clampSpeeds (p : Profile) : Profile :=
  let p := { p with speedMin := floorAt 0 p.speedMin, speedMax := floorAt 0 p.speedMax }
  let p := { p with speedMax := raiseSpeedMax p.speedMin p.speedMax }
  let p := { p with speedMin := ceilAt lim.speedMax p.speedMin
                    speedMax := ceilAt lim.speedMax p.speedMax }
  { p with speedMax := raiseSpeedMax p.speedMin p.speedMax }

/-- What is not a finite number gets its default. -/
def finiteProfile (p : Profile) : Profile :=
  { p with
    degreesRotation := finiteOr 0 p.degreesRotation
    degreesSnap := finiteOr 0 p.degreesSnap
    speedMin := finiteOr 0 p.speedMin
    speedMax := finiteOr 0 p.speedMax
    lrOutputDpiRatio := finiteOr 1 p.lrOutputDpiRatio
    udOutputDpiRatio := finiteOr 1 p.udOutputDpiRatio
    yxOutputDpiRatio := finiteOr 1 p.yxOutputDpiRatio
    domainWeights := ⟨finiteOr 1 p.domainWeights.x, finiteOr 1 p.domainWeights.y⟩
    rangeWeights := ⟨finiteOr 1 p.rangeWeights.x, finiteOr 1 p.rangeWeights.y⟩
    outputDpi := finiteOr normalizedDpi p.outputDpi
    speedProcessorArgs :=
      { p.speedProcessorArgs with
        lpNorm := finiteOr 2 p.speedProcessorArgs.lpNorm
        inputSpeedSmoothHalflife := finiteOr 0 p.speedProcessorArgs.inputSpeedSmoothHalflife
        scaleSmoothHalflife := finiteOr 0 p.speedProcessorArgs.scaleSmoothHalflife
        outputSpeedSmoothHalflife := finiteOr 0 p.speedProcessorArgs.outputSpeedSmoothHalflife } }

/-- The range of the output ratios. -/
def clampRatio (x : Double) : Double := ceilAt 100 (floorAt 0.01 x)

/-- The range of the half-lives of the smoothing. -/
def clampHalflife (x : Double) : Double := ceilAt smoothHalflifeMax (floorAt 0 x)

/-- The range of the weights. -/
def clampWeight (x : Double) : Double := ceilAt 1e6 (floorAt 0 x)

/-- The norm is positive, and the half-lives are in their range. -/
def clampSpeedArgs (sp : SpeedArgs) : SpeedArgs :=
  { sp with
    lpNorm := if sp.lpNorm ≤ 0 then 2 else sp.lpNorm
    inputSpeedSmoothHalflife := clampHalflife sp.inputSpeedSmoothHalflife
    scaleSmoothHalflife := clampHalflife sp.scaleSmoothHalflife
    outputSpeedSmoothHalflife := clampHalflife sp.outputSpeedSmoothHalflife }

/-- `sanitize_profile`: the numbers of the profile, its speeds, and then both of its curves. -/
def sanitizeProfile (p : Profile) : Profile :=
  let p := finiteProfile p
  let p := { p with degreesRotation := normalizeRotation p.degreesRotation
                    degreesSnap := ceilAt 45 (floorAt 0 p.degreesSnap)
                    outputDpi := clampOutputDpi p.outputDpi
                    lrOutputDpiRatio := clampRatio p.lrOutputDpiRatio
                    udOutputDpiRatio := clampRatio p.udOutputDpiRatio
                    yxOutputDpiRatio := clampRatio p.yxOutputDpiRatio }
  let p := clampSpeeds lim p
  { p with
    speedProcessorArgs := clampSpeedArgs p.speedProcessorArgs
    domainWeights := ⟨clampWeight p.domainWeights.x, clampWeight p.domainWeights.y⟩
    rangeWeights := ⟨clampWeight p.rangeWeights.x, clampWeight p.rangeWeights.y⟩
    accelX := sortLutData (sanitizeAccelArgs lim p.accelX)
    accelY := sortLutData (sanitizeAccelArgs lim p.accelY) }

/-- `sanitize_device_profile`: the device settings and the profile, each by its own function. -/
def sanitizeDeviceProfile (dp : DeviceProfile) : DeviceProfile :=
  { dp with devCfg := sanitizeDeviceConfig dp.devCfg, prof := sanitizeProfile lim dp.prof }

end AbrekMouse
