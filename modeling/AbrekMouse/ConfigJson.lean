import AbrekMouse.Json
import AbrekMouse.Sanitize

/-! # The configuration as JSON

The writer and the reader of a settings file, field by field.  The writer is an
object for each record.  The reader takes what has the right type: most fields fall
back to their default, a curve's numbers and names must be right or the whole
configuration is rejected, and every profile that is read is sanitized.
-/
namespace AbrekMouse
open ProgLib ProgLib.Fp ProgLib.PairSort

/-- Why a configuration is not read or not written. -/
inductive ConfigError
  | cannotOpen (path : Bytes)
  | parse (what : Bytes)
  | rootNotObject (got : Bytes)
  | profilesNotArray (got : Bytes)
  | profileNotObject (index : ℕ) (got : Bytes)
  | tooManyProfiles (count maximum : ℕ) (refusing : Bytes)
  | unknownAccelMode (mode : Bytes)
  | unknownCapMode (mode : Bytes)
  | notANumber (key : String) (got : Bytes)
  | notFinite (key : String)
  | dump (what : Bytes)
  | io (what : Bytes)
deriving DecidableEq

/-- A natural number in decimal digits. -/
def decimal (n : ℕ) : Bytes := bytes (toString n)

theorem decimal_eq (n : ℕ) :
    decimal n = (Nat.toDigits 10 n).map fun c => UInt8.ofNat c.toNat := by
  rw [decimal, bytes, ← Nat.toList_repr]
  rfl

/-- The text of the exception. -/
def ConfigError.what : ConfigError → Bytes
  | cannotOpen path => bytes "Cannot open config file: " ++ path
  | parse what => what
  | rootNotObject got => bytes "config root must be an object, got " ++ got
  | profilesNotArray got => bytes "config field 'profiles' must be an array, got " ++ got
  | profileNotObject index got =>
      bytes "config field 'profiles[" ++ decimal index ++ bytes "]' must be an object, got " ++ got
  | tooManyProfiles count maximum refusing =>
      bytes "too many profiles: " ++ decimal count ++ bytes " (maximum " ++ decimal maximum ++
        bytes "); refusing to " ++ refusing
  | unknownAccelMode mode => bytes "unknown accel mode: '" ++ mode ++ bytes "'"
  | unknownCapMode mode => bytes "unknown cap_mode: '" ++ mode ++ bytes "'"
  | notANumber key got =>
      bytes "config field '" ++ bytes key ++ bytes "' must be a number, got " ++ got
  | notFinite key => bytes "config field '" ++ bytes key ++ bytes "' must be finite"
  | dump what => what
  | io what => what

/-! ## Names -/

/-- `str_to_mode`: a word that is no mode is `noaccel`. -/
def strToMode (s : Bytes) : AccelMode :=
  if s = bytes "classic" then .classic
  else if s = bytes "power" then .power
  else if s = bytes "natural" then .natural
  else if s = bytes "jump" then .jump
  else if s = bytes "synchronous" then .synchronous
  else if s = bytes "lookup" then .lookup
  else .noaccel

/-- `mode_to_str`: the word for a mode in the file. -/
def modeToStr : AccelMode → Bytes
  | .classic => bytes "classic"
  | .power => bytes "power"
  | .natural => bytes "natural"
  | .jump => bytes "jump"
  | .synchronous => bytes "synchronous"
  | .lookup => bytes "lookup"
  | .noaccel => bytes "noaccel"

/-- `str_to_cap`: a word that is no cap mode is `out`. -/
def strToCap (s : Bytes) : CapMode :=
  if s = bytes "io" then .io
  else if s = bytes "in" then .in_
  else .out

/-- `cap_to_str`: the word for a cap mode in the file. -/
def capToStr : CapMode → Bytes
  | .io => bytes "io"
  | .in_ => bytes "in"
  | .out => bytes "out"

/-- The words that a file may have for a mode. -/
def validModes : List Bytes :=
  [bytes "noaccel", bytes "classic", bytes "power", bytes "natural", bytes "jump",
    bytes "synchronous", bytes "lookup"]

/-! ## Writing

The members of each object, in the order in which they are assigned. -/

/-- The table of a curve with its length, as long as it is not empty. -/
def lutMembers (a : AccelArgs) : List (String × Json) :=
  if a.length > 0 then
    [("lut_data", .arr ((List.range (min a.length.toNat lutRawDataCapacity)).map
        fun i => .float (convert (rd a.data i)))),
      ("lut_length", .int a.length)]
  else []

/-- The members of a curve in the file. -/
def accelArgsMembers (a : AccelArgs) : List (String × Json) :=
  [("mode", .str (modeToStr a.mode)),
    ("gain", .bool a.gain),
    ("input_offset", .float a.inputOffset),
    ("output_offset", .float a.outputOffset),
    ("acceleration", .float a.acceleration),
    ("decay_rate", .float a.decayRate),
    ("gamma", .float a.gamma),
    ("motivity", .float a.motivity),
    ("exponent_classic", .float a.exponentClassic),
    ("scale", .float a.scale),
    ("exponent_power", .float a.exponentPower),
    ("limit", .float a.limit),
    ("sync_speed", .float a.syncSpeed),
    ("smooth", .float a.smooth),
    ("cap", .arr [.float a.cap.x, .float a.cap.y]),
    ("cap_mode", .str (capToStr a.capModeVal))] ++ lutMembers a

theorem accelArgsMembers_nodup (a : AccelArgs) : ((accelArgsMembers a).map Prod.fst).Nodup := by
  unfold accelArgsMembers lutMembers
  split <;> simp

/-- `accel_args_to_json`: a curve as an object of the file. -/
def accelArgsToJson (a : AccelArgs) : Json := .object (accelArgsMembers a)

/-- The members of the section `speed_processor`. -/
def speedArgsMembers (sp : SpeedArgs) : List (String × Json) :=
  [("whole", .bool sp.whole),
    ("lp_norm", .float sp.lpNorm),
    ("input_speed_smooth_halflife", .float sp.inputSpeedSmoothHalflife),
    ("scale_smooth_halflife", .float sp.scaleSmoothHalflife),
    ("output_speed_smooth_halflife", .float sp.outputSpeedSmoothHalflife)]

theorem speedArgsMembers_nodup (sp : SpeedArgs) : ((speedArgsMembers sp).map Prod.fst).Nodup := by
  simp [speedArgsMembers]

/-- The members of the settings of the acceleration library in the file. -/
def profileMembers (p : Profile) : List (String × Json) :=
  [("name", .str p.name.chars),
    ("raw_passthrough", .bool p.rawPassthrough),
    ("domain_weights", .arr [.float p.domainWeights.x, .float p.domainWeights.y]),
    ("range_weights", .arr [.float p.rangeWeights.x, .float p.rangeWeights.y]),
    ("accel_x", accelArgsToJson p.accelX),
    ("accel_y", accelArgsToJson p.accelY),
    ("output_dpi", .float p.outputDpi),
    ("yx_output_dpi_ratio", .float p.yxOutputDpiRatio),
    ("degrees_rotation", .float p.degreesRotation),
    ("degrees_snap", .float p.degreesSnap),
    ("speed_min", .float p.speedMin),
    ("speed_max", .float p.speedMax),
    ("lr_output_dpi_ratio", .float p.lrOutputDpiRatio),
    ("ud_output_dpi_ratio", .float p.udOutputDpiRatio),
    ("speed_processor", .object (speedArgsMembers p.speedProcessorArgs))]

theorem profileMembers_nodup (p : Profile) : ((profileMembers p).map Prod.fst).Nodup := by
  simp [profileMembers]

/-- `profile_to_json_obj`: those settings as an object of the file. -/
def profileToJsonObj (p : Profile) : Json := .object (profileMembers p)

/-- The application of a profile, where it has one. -/
def matchAppMembers (dp : DeviceProfile) : List (String × Json) :=
  if dp.matchApp ≠ [] then [("match_app", .str dp.matchApp)] else []

/-- The members of a profile in the file. -/
def deviceProfileMembers (dp : DeviceProfile) : List (String × Json) :=
  [("name", .str dp.name),
    ("device_id", .str dp.deviceId)] ++ matchAppMembers dp ++
  [("dpi", .int dp.devCfg.dpi),
    ("polling_rate", .int dp.devCfg.pollingRate),
    ("disable", .bool dp.devCfg.disable),
    ("profile", profileToJsonObj dp.prof),
    ("version", .str rawaccelVersion)]

theorem deviceProfileMembers_nodup (dp : DeviceProfile) :
    ((deviceProfileMembers dp).map Prod.fst).Nodup := by
  unfold deviceProfileMembers matchAppMembers
  split <;> simp

/-- `device_profile_to_json`: a profile as an object of the file. -/
def deviceProfileToJson (dp : DeviceProfile) : Json := .object (deviceProfileMembers dp)

/-! ## Reading -/

/-- A Boolean, or a number that is exactly zero or one. -/
def boolFromJsonLenient (v : Json) (fallback : Bool) : Bool :=
  match v with
  | .bool b => b
  | v =>
      if v.isNumber then
        if v.double.eq 0 then false else if v.double.eq 1 then true else fallback
      else fallback

/-- A switch of the file, read leniently, or its default where the file has none. -/
def boolField (j : Json) (key : String) (dflt : Bool) : Bool :=
  match j.get? key with
  | some v => boolFromJsonLenient v dflt
  | none => dflt

/-- A number where there is one, else the default. -/
def numberField (j : Json) (key : String) (dflt : Double) : Double :=
  match j.get? key with
  | some v => if v.isNumber then v.double else dflt
  | none => dflt

/-- A number that has to be one where the key is present. -/
def requireNumber (j : Json) (key : String) (dflt : Double) : Except ConfigError Double :=
  match j.get? key with
  | none => .ok dflt
  | some v =>
      if !v.isNumber then .error (.notANumber key v.typeName)
      else if !v.double.isFinite then .error (.notFinite key)
      else .ok v.double

/-- The mode of a curve; a word that the program does not know is an error, a value of another
type is passed over. -/
def modeField (j : Json) (dflt : AccelMode) : Except ConfigError AccelMode :=
  match j.get? "mode" with
  | some (.str s) =>
      if s ∈ validModes then .ok (strToMode s) else .error (.unknownAccelMode s)
  | _ => .ok dflt

/-- The cap mode of a curve; a word that the program does not know is an error. -/
def capModeField (j : Json) (dflt : CapMode) : Except ConfigError CapMode :=
  match j.get? "cap_mode" with
  | some (.str s) =>
      if s ≠ bytes "in" ∧ s ≠ bytes "out" ∧ s ≠ bytes "io" then .error (.unknownCapMode s)
      else .ok (strToCap s)
  | _ => .ok dflt

/-- The number, or the default where the value is none. -/
def numberOr (v : Json) (dflt : Double) : Double := if v.isNumber then v.double else dflt

/-- The cap takes the elements that are there. -/
def capField (j : Json) (dflt : Vec2d) : Vec2d :=
  match j.get? "cap" with
  | some (.arr (x :: y :: _)) => ⟨numberOr x dflt.x, numberOr y dflt.y⟩
  | some (.arr [x]) => ⟨numberOr x dflt.x, dflt.y⟩
  | _ => dflt

/-- Weights take an array of at least two elements. -/
def weightsField (j : Json) (key : String) (dflt : Vec2d) : Vec2d :=
  match j.get? key with
  | some (.arr (x :: y :: _)) => ⟨numberOr x dflt.x, numberOr y dflt.y⟩
  | _ => dflt

/-- `FLT_HI`: the largest `float`, as a `double`. -/
def fltHi : Double := convert (maxFinite : Single)

/-- One element of the table: a finite number within the range of a `float`. -/
def lutSlot (v : Json) : Single :=
  let x := if v.isNumber then v.double else 0
  let x := finiteOr 0 x
  let x := ceilAt fltHi x
  let x := floorAt (-fltHi) x
  convert x

/-- The claimed length of the table, clamped to its capacity. -/
def lutLength (j : Json) (size : ℕ) : ℤ :=
  let raw : Double :=
    match j.get? "lut_length" with
    | some v => if v.isNumber then v.double else 0
    | none => ofInt size
  let raw := if !raw.isFinite ∨ raw < 0 then 0 else raw
  let raw := if raw > ofInt lutRawDataCapacity then ofInt lutRawDataCapacity else raw
  raw.trunc

/-- The table of the file, as many slots as the length allows; without one the default stays. -/
def lutFields (j : Json) (a : AccelArgs) : AccelArgs :=
  match j.get? "lut_data" with
  | some (.arr pts) =>
      let n := min (lutLength j pts.length).toNat pts.length
      { a with
        data := (List.range n).foldl (fun d i => wr d i (lutSlot (pts.getD i .null))) a.data
        length := n / 2 * 2 }
  | _ => a

/-- `accel_args_from_json`: the fields of a curve in the order of the source, so that the first
field of a wrong type is the error. -/
def accelArgsFromJson (j : Json) : Except ConfigError AccelArgs := do
  let a : AccelArgs := {}
  let mode ← modeField j a.mode
  let gain := boolField j "gain" a.gain
  let inputOffset ← requireNumber j "input_offset" a.inputOffset
  let outputOffset ← requireNumber j "output_offset" a.outputOffset
  let acceleration ← requireNumber j "acceleration" a.acceleration
  let decayRate ← requireNumber j "decay_rate" a.decayRate
  let gamma ← requireNumber j "gamma" a.gamma
  let motivity ← requireNumber j "motivity" a.motivity
  let exponentClassic ← requireNumber j "exponent_classic" a.exponentClassic
  let scale ← requireNumber j "scale" a.scale
  let exponentPower ← requireNumber j "exponent_power" a.exponentPower
  let limit ← requireNumber j "limit" a.limit
  let syncSpeed ← requireNumber j "sync_speed" a.syncSpeed
  let smooth ← requireNumber j "smooth" a.smooth
  let cap := capField j a.cap
  let capModeVal ← capModeField j a.capModeVal
  return lutFields j
    { a with mode, gain, inputOffset, outputOffset, acceleration, decayRate, gamma, motivity,
             exponentClassic, scale, exponentPower, limit, syncSpeed, smooth, cap, capModeVal }

/-- A curve, where the key holds an object. -/
def accelField (j : Json) (key : String) (dflt : AccelArgs) : Except ConfigError AccelArgs :=
  match j.get? key with
  | some v => if v.isObject then accelArgsFromJson v else .ok dflt
  | none => .ok dflt

/-- The section `speed_processor`, if it is an object. -/
def speedArgsField (j : Json) (sp : SpeedArgs) : SpeedArgs :=
  match j.get? "speed_processor" with
  | some v =>
      if v.isObject then
        { whole := boolField v "whole" sp.whole
          lpNorm := numberField v "lp_norm" sp.lpNorm
          inputSpeedSmoothHalflife :=
            numberField v "input_speed_smooth_halflife" sp.inputSpeedSmoothHalflife
          scaleSmoothHalflife := numberField v "scale_smooth_halflife" sp.scaleSmoothHalflife
          outputSpeedSmoothHalflife :=
            numberField v "output_speed_smooth_halflife" sp.outputSpeedSmoothHalflife }
      else sp
  | none => sp

/-- The name in the buffer of a profile. -/
def nameField (j : Json) (dflt : CString maxNameLen) : CString maxNameLen :=
  match j.get? "name" with
  | some (.str s) => .copy maxNameLen s
  | _ => dflt

/-- `profile_from_json_obj`: the settings of the acceleration library, read and sanitized. -/
def profileFromJsonObj (j : Json) : Except ConfigError Profile := do
  let p : Profile := {}
  let accelX ← accelField j "accel_x" p.accelX
  let accelY ← accelField j "accel_y" p.accelY
  return {
    name := nameField j p.name
    rawPassthrough := boolField j "raw_passthrough" p.rawPassthrough
    domainWeights := weightsField j "domain_weights" p.domainWeights
    rangeWeights := weightsField j "range_weights" p.rangeWeights
    accelX, accelY
    outputDpi := numberField j "output_dpi" p.outputDpi
    yxOutputDpiRatio := numberField j "yx_output_dpi_ratio" p.yxOutputDpiRatio
    degreesRotation := numberField j "degrees_rotation" p.degreesRotation
    degreesSnap := numberField j "degrees_snap" p.degreesSnap
    speedMin := numberField j "speed_min" p.speedMin
    speedMax := numberField j "speed_max" p.speedMax
    lrOutputDpiRatio := numberField j "lr_output_dpi_ratio" p.lrOutputDpiRatio
    udOutputDpiRatio := numberField j "ud_output_dpi_ratio" p.udOutputDpiRatio
    speedProcessorArgs := speedArgsField j p.speedProcessorArgs }

/-- The least value of an `int`. -/
def intMin : ℤ := -2147483648

/-- The greatest value of an `int`. -/
def intMax : ℤ := 2147483647

/-- An integer read through a `double` and clamped to the range of `int`. -/
def jsonGetIntSafe (v : Json) (fallback : ℤ) : ℤ :=
  if !v.isNumber then fallback
  else if !v.double.isFinite then fallback
  else if v.double < ofInt intMin then intMin
  else if v.double ≥ ofInt intMax then intMax
  else v.double.trunc

/-- `json_get_string_limited`: a text cut off at a length, or the fallback where the value is no
text. -/
def jsonGetStringLimited (v : Json) (fallback : Bytes) (maxlen : ℕ) : Bytes :=
  match v with
  | .str s => if s.length > maxlen then s.take maxlen else s
  | _ => fallback

/-- The length of a device id, at most. -/
def maxDpDeviceId : ℕ := 256

/-- The length of the name of an application, at most. -/
def maxMatchApp : ℕ := 128

/-- A string field with a cap on its bytes. -/
def stringField (j : Json) (key : String) (fallback dflt : Bytes) (maxlen : ℕ) : Bytes :=
  match j.get? key with
  | some v => jsonGetStringLimited v fallback maxlen
  | none => dflt

/-- The written forms of "every device". -/
def allDevicesAliases : List Bytes := [bytes "(all)", bytes "all", bytes "*"]

/-- An integer of the file, or its default where the file has none. -/
def intField (j : Json) (key : String) (fallback dflt : ℤ) : ℤ :=
  match j.get? key with
  | some v => jsonGetIntSafe v fallback
  | none => dflt

/-- The section `profile`, or the default where it is no object. -/
def profField (j : Json) (dflt : Profile) : Except ConfigError Profile :=
  match j.get? "profile" with
  | some v => if v.isObject then profileFromJsonObj v else .ok dflt
  | none => .ok dflt

/-- `device_profile_from_json`: a profile of the file, sanitized. -/
def deviceProfileFromJson (lim : Limits) (j : Json) : Except ConfigError DeviceProfile := do
  let dp : DeviceProfile := {}
  let deviceId := stringField j "device_id" [] dp.deviceId maxDpDeviceId
  let prof ← profField j dp.prof
  return sanitizeDeviceProfile lim {
    name := stringField j "name" [] dp.name maxNameLen
    deviceId := if deviceId ∈ allDevicesAliases then [] else deviceId
    matchApp := stringField j "match_app" [] dp.matchApp maxMatchApp
    devCfg := {
      dpi := intField j "dpi" 800 dp.devCfg.dpi
      pollingRate := intField j "polling_rate" 1000 dp.devCfg.pollingRate
      disable := boolField j "disable" dp.devCfg.disable }
    prof }

/-- The loop over the elements of `profiles`; `size` is the number of elements and
`done` what was read so far. -/
def readProfiles (lim : Limits) (maxProfiles size : ℕ) :
    List DeviceProfile → List Json → Except ConfigError (List DeviceProfile)
  | done, [] => .ok done
  | done, pj :: rest =>
      if !pj.isObject then .error (.profileNotObject done.length pj.typeName)
      else if done.length ≥ maxProfiles then
        -- the file is refused, a pushed configuration is cut short
        if maxProfiles ≥ maxProfilesFile then
          .error (.tooManyProfiles size maxProfiles (bytes "load"))
        else .ok done
      else do
        let dp ← deviceProfileFromJson lim pj
        readProfiles lim maxProfiles size (done ++ [dp]) rest

/-- The list of profiles, up to a number of them; null stands for none. -/
def profilesField (lim : Limits) (j : Json) (maxProfiles : ℕ) :
    Except ConfigError (List DeviceProfile) :=
  match j.get? "profiles" with
  | none => .ok []
  | some v =>
      if !v.isArray ∧ !v.isNull then .error (.profilesNotArray v.typeName)
      else readProfiles lim maxProfiles v.elems.length [] v.elems

/-- The version that the file names, if it is a text. -/
def versionField (j : Json) (dflt : Bytes) : Bytes :=
  match j.get? "version" with
  | some (.str s) => s
  | _ => dflt

/-- `app_config_from_json_obj`: the whole configuration; the first profile that cannot be read
is the error. -/
def appConfigFromJsonObj (lim : Limits) (j : Json) (maxProfiles : ℕ) :
    Except ConfigError AppConfig := do
  let cfg : AppConfig := {}
  if !j.isObject ∧ !j.isNull then throw (.rootNotObject j.typeName)
  let profiles ← profilesField lim j maxProfiles
  return {
    version := versionField j cfg.version
    activeProfile := stringField j "active_profile" (bytes "default") cfg.activeProfile maxNameLen
    useRawInput := boolField j "use_raw_input" cfg.useRawInput
    profiles }

end AbrekMouse
