import AbrekMouse.Cli

/-! # `set-param`

The command that sets one parameter of a profile.  The value is read according to the key,
checked against the range of its field, assigned, and the profile is sanitized before it is
saved.  The ranges are those of the sanitizer, so an assigned value survives by itself; the
rules of the sanitizer that tie two fields together are met for some keys only.

`StoredAsAsked` says that the saved configuration is the loaded one with the named field set
and nothing else changed, and `set_param_iff` says for which edits that holds.
-/
namespace AbrekMouse
open ProgLib ProgLib.Fp

/-! ## Reading a number -/

/-- The value of a hexadecimal digit. -/
def hexDigitValue (c : UInt8) : Option ℕ :=
  if isDigit c then some (c.toNat - 0x30)
  else if 0x61 ≤ c ∧ c ≤ 0x66 then some (c.toNat - 0x57)
  else if 0x41 ≤ c ∧ c ≤ 0x46 then some (c.toNat - 0x37)
  else none

/-- The value of a decimal digit. -/
def decimalDigit (c : UInt8) : Option ℕ := if isDigit c then some (c.toNat - 0x30) else none

/-- The digits at the front: their value after `value`, how many there are, and the rest. -/
def scanDigits (digit : UInt8 → Option ℕ) (base : ℕ) : ℕ → ℕ → Bytes → ℕ × ℕ × Bytes
  | value, count, [] => (value, count, [])
  | value, count, c :: s =>
      match digit c with
      | some d => scanDigits digit base (value * base + d) (count + 1) s
      | none => (value, count, c :: s)

/-- Digits with a point: their value as an integer, how many are behind the point, and the
rest. -/
def scanMantissa (digit : UInt8 → Option ℕ) (base : ℕ) (s : Bytes) : Option (ℕ × ℕ × Bytes) :=
  let (whole, n, rest) := scanDigits digit base 0 0 s
  let (value, behind, rest) :=
    if rest.head? = some 0x2E then scanDigits digit base whole 0 rest.tail else (whole, 0, rest)
  if n + behind = 0 then none else some (value, behind, rest)

/-- The sign in front of a number, if there is one. -/
def scanSign (s : Bytes) : Bool × Bytes :=
  if s.head? = some 0x2D then (true, s.tail)
  else if s.head? = some 0x2B then (false, s.tail)
  else (false, s)

/-- An exponent behind one of the marks `m`, if there are digits in it. -/
def scanExponent (marks : Bytes) (s : Bytes) : ℤ × Bytes :=
  match s with
  | [] => (0, [])
  | c :: rest =>
      let (neg, rest) := scanSign rest
      let (e, n, rest) := scanDigits decimalDigit 10 0 0 rest
      if c ∈ marks ∧ 0 < n then (if neg then -e else e, rest) else (0, s)

/-- The number nearest to `value * base ^ e`; `none` where that is out of range: an infinity,
or a subnormal number that is not exact. -/
def scaled? (neg : Bool) (value base : ℕ) (e : ℤ) : Option Double :=
  let num := value * base ^ e.toNat * 2 ^ binary64.unit
  let den := base ^ (-e).toNat
  let tiny := 4 * num < (2 ^ (binary64.prec + 1) - 1) * den
  let r := binary64.round num den
  if 2 ^ binary64.top ≤ r ∨ (tiny ∧ r * den ≠ num) then none else some (ofRatio neg num den)

/-- An ASCII letter in lower case. -/
def toLowerAscii (c : UInt8) : UInt8 := if 0x41 ≤ c ∧ c ≤ 0x5A then c + 0x20 else c

/-- The text begins with the word, in any case. -/
def startsWithWord (word s : Bytes) : Bool := (s.take word.length).map toLowerAscii = word

/-- `(n-char-sequence)` behind a nan. -/
def dropNanPayload (s : Bytes) : Bytes :=
  let body := s.tail.dropWhile fun c =>
    (hexDigitValue (toLowerAscii c)).isSome ||
      (0x67 ≤ toLowerAscii c && toLowerAscii c ≤ 0x7A) || c = 0x5F
  if s.head? = some 0x28 ∧ body.head? = some 0x29 then body.tail else s

/-- `std::stod`: the number at the front and what follows it; `none` where it throws. -/
def stod (val : Bytes) : Option (Double × Bytes) :=
  let (neg, s) := scanSign (val.dropWhile isSpace)
  if startsWithWord (bytes "infinity") s then some (.inf neg, s.drop 8)
  else if startsWithWord (bytes "inf") s then some (.inf neg, s.drop 3)
  else if startsWithWord (bytes "nan") s then some (.nan, dropNanPayload (s.drop 3))
  else
    let hex :=
      if startsWithWord (bytes "0x") s then scanMantissa hexDigitValue 16 (s.drop 2) else none
    match hex with
    | some (value, behind, rest) =>
        let (e, rest) := scanExponent (bytes "pP") rest
        (scaled? neg value 2 (e - 4 * behind)).map (·, rest)
    | none =>
        match scanMantissa decimalDigit 10 s with
        | none => none
        | some (value, behind, rest) =>
            let (e, rest) := scanExponent (bytes "eE") rest
            (scaled? neg value 10 (e - behind)).map (·, rest)

example : stod (bytes " -1.5e1x") = some (-15, bytes "x") := by decide +kernel
example : stod (bytes "0x.8p1") = some (1, []) := by decide +kernel
example : stod (bytes "1e-400") = none := by decide +kernel

/-- `std::floor` -/
def floor : Double → Double
  | .fin neg m _ =>
      ofRatio neg ((if neg then (m + (2 ^ binary64.unit - 1)) / 2 ^ binary64.unit
        else m / 2 ^ binary64.unit) * 2 ^ binary64.unit) 1
  | x => x

/-- `finite_double_to_int` -/
def finiteDoubleToInt (v : Double) : ℤ :=
  if v.isNan then 0
  else if v < ofInt intMin then intMin
  else if v ≥ ofInt intMax then intMax
  else v.trunc

/-! ## Keys and values -/

/-- The numbers of a curve, which a key sets on both axes. -/
inductive CurveKey
  | acceleration | exponentClassic | exponentPower | limit | decayRate | inputOffset
  | outputOffset | scale | syncSpeed | smooth | motivity | gamma | capX | capY
deriving DecidableEq

/-- The numbers of a profile besides its curves. -/
inductive ProfileKey
  | rotation | snap | dpi | pollingRate | speedMin | speedMax | outputDpi | lrRatio | udRatio
  | yxRatio | lpNorm | inputSmoothHalflife | scaleSmoothHalflife | outputSmoothHalflife
  | domainWeights | domainWeightX | domainWeightY | rangeWeights | rangeWeightX | rangeWeightY
deriving DecidableEq

/-- The keys of `set-param`: words and switches, the numbers of both curves, and the numbers of
the profile. -/
inductive ParamKey
  | mode | gain | capMode | raw | disable | deviceId | matchApp | distanceMode
  | curve (key : CurveKey)
  | number (key : ProfileKey)
deriving DecidableEq

/-- `all_keys`, apart from `use_raw_input`. -/
def allKeys : List (Bytes × ParamKey) :=
  [(bytes "mode", .mode), (bytes "gain", .gain), (bytes "cap_mode", .capMode),
    (bytes "cap_x", .curve .capX), (bytes "cap_y", .curve .capY),
    (bytes "acceleration", .curve .acceleration),
    (bytes "exponent_classic", .curve .exponentClassic),
    (bytes "exponent_power", .curve .exponentPower), (bytes "limit", .curve .limit),
    (bytes "decay_rate", .curve .decayRate), (bytes "input_offset", .curve .inputOffset),
    (bytes "output_offset", .curve .outputOffset), (bytes "scale", .curve .scale),
    (bytes "sync_speed", .curve .syncSpeed), (bytes "smooth", .curve .smooth),
    (bytes "motivity", .curve .motivity), (bytes "gamma", .curve .gamma), (bytes "raw", .raw),
    (bytes "device_id", .deviceId), (bytes "rotation", .number .rotation),
    (bytes "snap", .number .snap), (bytes "dpi", .number .dpi),
    (bytes "polling_rate", .number .pollingRate), (bytes "speed_min", .number .speedMin),
    (bytes "speed_max", .number .speedMax), (bytes "output_dpi", .number .outputDpi),
    (bytes "lr_ratio", .number .lrRatio), (bytes "ud_ratio", .number .udRatio),
    (bytes "yx_ratio", .number .yxRatio), (bytes "distance_mode", .distanceMode),
    (bytes "lp_norm", .number .lpNorm),
    (bytes "input_smooth_halflife", .number .inputSmoothHalflife),
    (bytes "scale_smooth_halflife", .number .scaleSmoothHalflife),
    (bytes "output_smooth_halflife", .number .outputSmoothHalflife),
    (bytes "domain_weights", .number .domainWeights),
    (bytes "domain_weight_x", .number .domainWeightX),
    (bytes "domain_weight_y", .number .domainWeightY),
    (bytes "range_weights", .number .rangeWeights),
    (bytes "range_weight_x", .number .rangeWeightX),
    (bytes "range_weight_y", .number .rangeWeightY), (bytes "disable", .disable),
    (bytes "match_app", .matchApp)]

/-- Why a parameter is not set. -/
inductive ParamError
  | profileNotFound (name : Bytes)
  | topLevelKey
  | unknownKey (key : Bytes)
  | invalidNumeric (val : Bytes)
  | trailingGarbage (val : Bytes)
  | notFinite (val : Bytes)
  | notInteger (key val : Bytes)
  | outOfRange (key val : Bytes) (lo hi : Double)
  | aboveMax (key val : Bytes) (hi : Double)
  | notPositive (key val : Bytes)
  | belowInputOffset (val : Bytes) (worst : Double)
  | aboveCap (val : Bytes) (worst : Double)
  | tinyDecayRate (val : Bytes) (least : Double)
  | invalidMode (val : Bytes)
  | invalidBool (key val : Bytes)
  | invalidCapMode (val : Bytes)
  | invalidDistanceMode (val : Bytes)
  | tooLong (key : Bytes) (size max : ℕ)
  | minAboveMax (v speedMax : Double)
  | maxBelowMin (v speedMin : Double)
deriving DecidableEq

/-- The values of `distance_mode`, which stand for a norm. -/
inductive DistanceMode
  | separate | chebyshev | lp | euclidean
deriving DecidableEq

/-- A value for one or more fields of a curve. -/
inductive CurveEdit
  | number (key : CurveKey) (v : Double)
  | mode (m : AccelMode)
  | gain (b : Bool)
  | capMode (m : CapMode)
deriving DecidableEq

/-- A value that was read for a key. -/
inductive ParamEdit
  | curve (e : CurveEdit)
  | number (key : ProfileKey) (v : Double)
  | raw (b : Bool)
  | disable (b : Bool)
  | matchApp (s : Bytes)
  | deviceId (id : Bytes)
  | distanceMode (m : DistanceMode)
deriving DecidableEq

/-! ## Checks -/

/-- The number that a value is, all of it, and finite. -/
def readNumber (val : Bytes) : Except ParamError Double :=
  match stod val with
  | none => .error (.invalidNumeric val)
  | some (v, rest) =>
      if rest.dropWhile isSpace ≠ [] then .error (.trailingGarbage val)
      else if !v.isFinite then .error (.notFinite val)
      else .ok v

/-- The number is within its range. -/
def rangeOk (key val : Bytes) (v lo hi : Double) : Except ParamError Unit :=
  if v ≥ lo ∧ v ≤ hi then .ok () else .error (.outOfRange key val lo hi)

/-- The number is an integer within its range. -/
def intOk (key val : Bytes) (v lo hi : Double) : Except ParamError Unit :=
  if v.eq (floor v) then rangeOk key val v lo hi else .error (.notInteger key val)

variable (lim : Limits)

/-- The larger of two numbers, as the messages show it. -/
def worse (x y : Double) : Double := if y > x then y else x

/-- The range check of a key of the curves, which may look at the curves of both axes. -/
def CurveKey.check (a ay : AccelArgs) (key val : Bytes) (v : Double) :
    CurveKey → Except ParamError Unit
  | .acceleration => if v > lim.accelMax then .error (.aboveMax key val lim.accelMax) else .ok ()
  | .exponentClassic => rangeOk key val v 1 10
  | .exponentPower => rangeOk key val v 1e-4 lim.expPowerMax
  | .limit => rangeOk key val v 0 lim.limitMax
  | .decayRate => do
      rangeOk key val v 0 lim.decayRateMax
      if v > 0 ∧ v < lim.naturalDecayRateMin then
        throw (.tinyDecayRate val lim.naturalDecayRateMin)
  | .inputOffset => do
      rangeOk key val v 0 lim.capXMax
      if v > a.cap.x ∨ v > ay.cap.x then throw (.aboveCap val (worse a.cap.x ay.cap.x))
  | .outputOffset => rangeOk key val v 0 lim.outputOffsetMax
  | .scale => rangeOk key val v 0.01 lim.scaleMax
  | .syncSpeed => rangeOk key val v 1e-4 lim.syncSpeedMax
  | .smooth => rangeOk key val v 0 lim.smoothMax
  | .motivity => rangeOk key val v 0 lim.motivityMax
  | .gamma => rangeOk key val v 0 lim.gammaMax
  | .capX => do
      rangeOk key val v 0 lim.capXMax
      if v < a.inputOffset ∨ v < ay.inputOffset then
        throw (.belowInputOffset val (worse a.inputOffset ay.inputOffset))
  | .capY => rangeOk key val v 0 lim.capYMax

/-- The check of a number of the profile; the speeds are compared with each other when they
are assigned. -/
def ProfileKey.check (p : Profile) (key val : Bytes) (v : Double) :
    ProfileKey → Except ParamError Unit
  | .rotation => .ok ()
  | .snap => rangeOk key val v 0 45
  | .dpi => intOk key val v 1 32000
  | .pollingRate => intOk key val v (ofInt pollRateMin) (ofInt pollRateMax)
  | .speedMin => do
      rangeOk key val v 0 lim.speedMax
      if p.speedMax > 0 ∧ v > p.speedMax then throw (.minAboveMax v p.speedMax)
  | .speedMax => do
      rangeOk key val v 0 lim.speedMax
      if v > 0 ∧ v < p.speedMin then throw (.maxBelowMin v p.speedMin)
  | .outputDpi => if v.eq 0 then .ok () else rangeOk key val v 1 32000
  | .lrRatio | .udRatio | .yxRatio => rangeOk key val v 0.01 100
  | .lpNorm => if v ≤ 0 then .error (.notPositive key val) else .ok ()
  | .inputSmoothHalflife | .scaleSmoothHalflife | .outputSmoothHalflife =>
      rangeOk key val v 0 smoothHalflifeMax
  | .domainWeights | .domainWeightX | .domainWeightY | .rangeWeights | .rangeWeightX
  | .rangeWeightY => rangeOk key val v 0 1e6

/-- The mode that a value names. -/
def parseMode (val : Bytes) : Except ParamError AccelMode :=
  if val = bytes "classic" then .ok .classic
  else if val = bytes "power" then .ok .power
  else if val = bytes "natural" then .ok .natural
  else if val = bytes "jump" then .ok .jump
  else if val = bytes "synchronous" then .ok .synchronous
  else if val = bytes "lookup" then .ok .lookup
  else if val ∈ [bytes "noaccel", bytes "off", bytes "none"] then .ok .noaccel
  else .error (.invalidMode val)

/-- The switch that a value stands for; only these words are taken. -/
def parseStrictBool (key val : Bytes) : Except ParamError Bool :=
  if val ∈ [bytes "1", bytes "true", bytes "yes", bytes "on"] then .ok true
  else if val ∈ [bytes "0", bytes "false", bytes "no", bytes "off"] then .ok false
  else .error (.invalidBool key val)

/-- The cap mode that a value names. -/
def parseCapMode (val : Bytes) : Except ParamError CapMode :=
  if val = bytes "in" then .ok .in_
  else if val = bytes "out" then .ok .out
  else if val ∈ [bytes "io", bytes "in_out", bytes "both"] then .ok .io
  else .error (.invalidCapMode val)

/-- The distance mode that a value names, under either of its words. -/
def parseDistanceMode (val : Bytes) : Except ParamError DistanceMode :=
  if val ∈ [bytes "separate", bytes "manhattan"] then .ok .separate
  else if val ∈ [bytes "max", bytes "chebyshev"] then .ok .chebyshev
  else if val = bytes "lp" then .ok .lp
  else if val = bytes "euclidean" then .ok .euclidean
  else .error (.invalidDistanceMode val)

/-- The value without the blanks around it. -/
def trimBlanks (val : Bytes) : Bytes :=
  let blank (c : UInt8) : Bool := c ∈ bytes " \t\r\n"
  ((val.dropWhile blank).reverse.dropWhile blank).reverse

/-- The application that a value names, without the blanks around it; one that is too long is
refused. -/
def parseMatchApp (val : Bytes) : Except ParamError Bytes :=
  let v := trimBlanks val
  if v.length > maxMatchApp then .error (.tooLong (bytes "match_app") v.length maxMatchApp)
  else .ok v

/-- The device id that a value is; the words for all devices stand for the empty one. -/
def parseDeviceId (val : Bytes) : Except ParamError Bytes :=
  let id := if val ∈ allDevicesAliases then [] else val
  if id.length > maxDpDeviceId then
    .error (.tooLong (bytes "device_id") id.length maxDpDeviceId)
  else .ok id

/-- What a key and a value ask for, where the command does not refuse them. -/
def readEdit (dp : DeviceProfile) (key val : Bytes) : Except ParamError ParamEdit :=
  if key = bytes "use_raw_input" then .error .topLevelKey
  else
    match allKeys.lookup key with
    | none => .error (.unknownKey key)
    | some .mode => do return .curve (.mode (← parseMode val))
    | some .gain => do return .curve (.gain (← parseStrictBool key val))
    | some .capMode => do return .curve (.capMode (← parseCapMode val))
    | some .raw => do return .raw (← parseStrictBool key val)
    | some .disable => do return .disable (← parseStrictBool key val)
    | some .deviceId => do return .deviceId (← parseDeviceId val)
    | some .matchApp => do return .matchApp (← parseMatchApp val)
    | some .distanceMode => do return .distanceMode (← parseDistanceMode val)
    | some (.curve k) => do
        let v ← readNumber val
        k.check lim dp.prof.accelX dp.prof.accelY key val v
        return .curve (.number k v)
    | some (.number k) => do
        let v ← readNumber val
        k.check lim dp.prof key val v
        return .number k v

/-! ## Assignments -/

/-- The number of a curve takes its new value. -/
def CurveKey.set (v : Double) (a : AccelArgs) : CurveKey → AccelArgs
  | .acceleration => { a with acceleration := v }
  | .exponentClassic => { a with exponentClassic := v }
  | .exponentPower => { a with exponentPower := v }
  | .limit => { a with limit := v }
  | .decayRate => { a with decayRate := v }
  | .inputOffset => { a with inputOffset := v }
  | .outputOffset => { a with outputOffset := v }
  | .scale => { a with scale := v }
  | .syncSpeed => { a with syncSpeed := v }
  | .smooth => { a with smooth := v }
  | .motivity => { a with motivity := v }
  | .gamma => { a with gamma := v }
  | .capX => { a with cap.x := v }
  | .capY => { a with cap.y := v }

/-- The change of one curve. -/
def CurveEdit.apply (a : AccelArgs) : CurveEdit → AccelArgs
  | .number k v => k.set v a
  | .mode m => { a with mode := m }
  | .gain b => { a with gain := b }
  | .capMode m => { a with capModeVal := m }

/-- The number of a profile takes its new value. -/
def ProfileKey.set (v : Double) (dp : DeviceProfile) : ProfileKey → DeviceProfile
  | .rotation => { dp with prof.degreesRotation := v }
  | .snap => { dp with prof.degreesSnap := v }
  | .dpi => { dp with devCfg.dpi := finiteDoubleToInt v }
  | .pollingRate => { dp with devCfg.pollingRate := finiteDoubleToInt v }
  | .speedMin => { dp with prof.speedMin := v }
  | .speedMax => { dp with prof.speedMax := v }
  | .outputDpi => { dp with prof.outputDpi := v }
  | .lrRatio => { dp with prof.lrOutputDpiRatio := v }
  | .udRatio => { dp with prof.udOutputDpiRatio := v }
  | .yxRatio => { dp with prof.yxOutputDpiRatio := v }
  | .lpNorm => { dp with prof.speedProcessorArgs.lpNorm := v }
  | .inputSmoothHalflife => { dp with prof.speedProcessorArgs.inputSpeedSmoothHalflife := v }
  | .scaleSmoothHalflife => { dp with prof.speedProcessorArgs.scaleSmoothHalflife := v }
  | .outputSmoothHalflife => { dp with prof.speedProcessorArgs.outputSpeedSmoothHalflife := v }
  | .domainWeights => { dp with prof.domainWeights := ⟨v, v⟩ }
  | .domainWeightX => { dp with prof.domainWeights.x := v }
  | .domainWeightY => { dp with prof.domainWeights.y := v }
  | .rangeWeights => { dp with prof.rangeWeights := ⟨v, v⟩ }
  | .rangeWeightX => { dp with prof.rangeWeights.x := v }
  | .rangeWeightY => { dp with prof.rangeWeights.y := v }

/-- A norm that means "max" does not outlive the switch to `lp`. -/
def DistanceMode.apply (sp : SpeedArgs) : DistanceMode → SpeedArgs
  | .separate => { sp with whole := false }
  | .chebyshev => { sp with whole := true, lpNorm := 9999 }
  | .lp => { sp with whole := true, lpNorm := if sp.lpNorm ≥ 16 then 2 else sp.lpNorm }
  | .euclidean => { sp with whole := true, lpNorm := 2 }

/-- The change of a profile; a change of the curves goes to both axes. -/
def ParamEdit.apply (dp : DeviceProfile) : ParamEdit → DeviceProfile
  | .curve e => { dp with prof := { dp.prof with accelX := e.apply dp.prof.accelX
                                                 accelY := e.apply dp.prof.accelY } }
  | .number k v => k.set v dp
  | .raw b => { dp with prof.rawPassthrough := b }
  | .disable b => { dp with devCfg.disable := b }
  | .matchApp s => { dp with matchApp := s }
  | .deviceId id => { dp with deviceId := id }
  | .distanceMode m =>
      { dp with prof.speedProcessorArgs := m.apply dp.prof.speedProcessorArgs }

/-- The configuration that `cmd_set_param` saves. -/
def setParamEdit (cfg : AppConfig) (name key val : Bytes) : Except ParamError AppConfig :=
  match cfg.profileNamed name with
  | none => .error (.profileNotFound name)
  | some dp => do
      let e ← readEdit lim dp key val
      return { cfg with
        profiles :=
          updateNamed name (fun dp => sanitizeDeviceProfile lim (e.apply dp)) cfg.profiles }

variable {Text : Type} (J : JsonText Text)

/-- `cmd_set_param`: the change is checked, made, saved, and handed to the daemon. -/
def cmdSetParam (env : CliEnv) (cfg : AppConfig) (file : Option Text) (name key val : Bytes) :
    CmdEnd ParamError × Option Text :=
  runEdit J lim env (setParamEdit lim cfg name key val) file

/-! ## What was asked for -/

/-- `v` modulo a full turn, as the nearest number; what that rounds up to a full turn is
zero. -/
def moduloTurn (v : Double) : Double :=
  let r : Double := ofRatio false (v.key % (360 : Double).key).toNat 1
  if r ≥ 360 then 0 else r

/-- The profile with the named field as it was asked for, and nothing else changed. -/
def ParamEdit.asked (dp : DeviceProfile) : ParamEdit → DeviceProfile
  | .number .rotation v => { dp with prof.degreesRotation := moduloTurn v }
  | e => e.apply dp

/-- The saved configuration, loaded again, has the field as asked for, and all the rest as it
was. -/
def StoredAsAsked (cfg : AppConfig) (name : Bytes) (e : ParamEdit) (path : Bytes)
    (file : Option Text) : Prop :=
  ∃ loaded, loadConfig J lim path file = .ok loaded ∧
    loaded.activeProfile = cfg.activeProfile ∧
    loaded.useRawInput = cfg.useRawInput ∧
    loaded.profiles.Forall₂ DeviceProfile.SameProfile (updateNamed name e.asked cfg.profiles)

/-- No rule of the sanitizer that ties two fields together is broken by the edit of a
curve. -/
def CurveEdit.Suits (a : AccelArgs) : CurveEdit → Prop
  | .number .acceleration v => v < 0 → ¬a.cap.y > 0
  | .number .capY v => v > 0 → ¬a.acceleration < 0
  | .mode .natural => a.decayRate > 0 → ¬a.decayRate < lim.naturalDecayRateMin
  | .mode .classic => a.capModeVal = .io ∨ a.capModeVal = .in_ → ¬a.cap.x < a.inputOffset
  | .capMode .io | .capMode .in_ => a.mode = .classic → ¬a.cap.x < a.inputOffset
  | _ => True

/-- An edit of a curve suits both axes. -/
def ParamEdit.Suits (dp : DeviceProfile) : ParamEdit → Prop
  | .curve e => e.Suits lim dp.prof.accelX ∧ e.Suits lim dp.prof.accelY
  | _ => True


/-! ## Angles -/

theorem zero_key : (0 : Double).key = 0 := by decide +kernel

/-- Rounding keeps a positive number positive. -/
theorem key_ofRatio_pos {F : Format} {num : ℕ} (h : 0 < num) :
    0 < (ofRatio false num 1 : Fp F).key := by
  unfold ofRatio
  split_ifs
  · exact Int.natCast_pos.mpr (round_pos h)
  · show (0 : ℤ) < 2 ^ F.top
    positivity

theorem ofRatio_zero {F : Format} : (ofRatio false 0 1 : Fp F) = 0 := by
  have hround := ofRatio_of_fits (F := F) Format.fits_zero one_pos false
  have hzero : (0 : Fp F) = fin false 0 Format.fits_zero := by
    rw [zero_eq_ofInt, holds_zero.ofInt_eq]
    congr 1
    simp
  rw [hzero]
  exact hround

theorem fin_lt_zero_iff {s : Bool} {k : ℕ} {hk : binary64.Fits k} :
    (fin s k hk : Double) < 0 ↔ s = true ∧ k ≠ 0 := by
  rw [lt_iff_key rfl zero_finite, zero_key]
  cases s
  · simp [key]
  · simp only [key, if_true, true_and]
    omega

theorem eq_zero_iff {x : Double} (hx : x.isFinite = true) : x.eq 0 = true ↔ x.key = 0 := by
  have hzero : (0 : Double).isNan = false := isNan_of_isFinite zero_finite
  simp only [Fp.eq, isNan_of_isFinite hx, hzero, zero_key, Bool.not_false, Bool.true_and,
    beq_iff_eq]

/-- The angle that is left once whole turns are taken off, of either sign. -/
theorem rest_of_turn {t : Double} (ht : t.isFinite = true) (hpos : 0 < t.key) {v : Double}
    (hv : v.isFinite = true) :
    (let r := fmod v t
     let r := if r < 0 then r + t else r
     if r.eq 0 then 0 else r) = ofRatio false (v.key % t.key).toNat 1 := by
  rcases t with _ | _ | ⟨u, n, hn⟩
  · cases ht
  · cases ht
  rcases v with _ | _ | ⟨s, m, hm⟩
  · cases hv
  · cases hv
  obtain rfl : u = false := by
    cases u
    · rfl
    · simp only [key, if_true] at hpos
      omega
  have hn0 : 0 < n := by simpa [key] using hpos
  have hlt := Nat.mod_lt m hn0
  have hmod : fmod (fin s m hm) (fin false n hn) = fin s (m % n) (hm.mod hn) := by
    rw [fmod_fin_fin, if_neg hn0.ne']
  have hkey : (fin false n hn : Double).key = n := rfl
  dsimp only
  rw [hmod, hkey]
  by_cases hres : m % n = 0
  · -- whole turns, and the zero that is left may have a sign
    have hnot : ¬(fin s (m % n) (hm.mod hn) : Double) < 0 := fun h => (fin_lt_zero_iff.mp h).2 hres
    have hzero : (fin s (m % n) (hm.mod hn) : Double).eq 0 = true := by
      rw [eq_zero_iff rfl]
      cases s <;> simp [key, hres]
    have hdvd : (n : ℤ) ∣ (fin s m hm : Double).key := by
      have hm' : (n : ℤ) ∣ m := Int.natCast_dvd_natCast.mpr (Nat.dvd_of_mod_eq_zero hres)
      cases s
      · exact hm'
      · exact Int.dvd_neg.mpr hm'
    rw [if_neg hnot, if_pos hzero, Int.emod_eq_zero_of_dvd hdvd]
    exact ofRatio_zero.symm
  · rcases s with _ | _
    · have hnot : ¬(fin false (m % n) (hm.mod hn) : Double) < 0 := fun h =>
        Bool.false_ne_true (fin_lt_zero_iff.mp h).1
      have hzero : ¬(fin false (m % n) (hm.mod hn) : Double).eq 0 = true := by
        rw [eq_zero_iff rfl]
        simp only [key, Bool.false_eq_true, if_false]
        omega
      have hround := ofRatio_of_fits (hm.mod hn) one_pos false
      rw [if_neg hnot, if_neg hzero, ← hround]
      show _ = ofRatio false ((m : ℤ) % n).toNat 1
      rw [mul_one, ← Int.natCast_mod, Int.toNat_natCast]
    · have hneg : (fin true (m % n) (hm.mod hn) : Double) < 0 := fin_lt_zero_iff.mpr ⟨rfl, hres⟩
      have hsum : (fin true (m % n) (hm.mod hn) + fin false n hn : Double) =
          ofRatio false (n - m % n) 1 := by
        have hz : (fin true (m % n) (hm.mod hn) : Double).key + (fin false n hn : Double).key =
            ((n - m % n : ℕ) : ℤ) := by
          simp only [key, if_true, Bool.false_eq_true, if_false]
          omega
        show add _ _ = _
        simp only [add, hz]
        have hsign : ¬((n - m % n : ℕ) : ℤ) < 0 := by omega
        rw [if_neg (by omega), decide_eq_false hsign, Int.natAbs_natCast]
      -- the residue of a negative angle
      have hres' : (fin true m hm : Double).key % n = ((n - m % n : ℕ) : ℤ) := by
        show (-(m : ℤ)) % n = _
        have hsplit := Nat.div_add_mod m n
        have hneg : (-(m : ℤ)) = ((n - m % n : ℕ) : ℤ) + n * -((m / n : ℕ) + 1 : ℤ) := by
          have hcast : (m : ℤ) = n * (m / n : ℕ) + (m % n : ℕ) := by exact_mod_cast hsplit.symm
          rw [Int.ofNat_sub hlt.le, hcast]
          ring
        rw [hneg, Int.add_mul_emod_self_left]
        exact Int.emod_eq_of_lt (by omega) (by omega)
      rw [if_pos hneg, hsum, hres', Int.toNat_natCast]
      refine if_neg fun h => ?_
      have hpos : 0 < (ofRatio false (n - m % n) 1 : Double).key := key_ofRatio_pos (by omega)
      simp only [Fp.eq, Bool.and_eq_true, beq_iff_eq, zero_key] at h
      omega

/-- **The angle that the sanitizer stores is the one asked for modulo a full turn.** -/
theorem normalizeRotation_eq {v : Double} (hv : v.isFinite = true) :
    normalizeRotation v = moduloTurn v := by
  have hrest := rest_of_turn (t := 360) (by decide +kernel) (by decide +kernel) hv
  unfold normalizeRotation moduloTurn
  dsimp only at hrest ⊢
  rw [hrest]
/-! ## Accepted values -/

variable {lim} {a ay : AccelArgs} {dp : DeviceProfile} {key val : Bytes} {v : Double}

theorem within_of_rangeOk {lo hi : Double} (hv : v.isFinite = true)
    (h : rangeOk key val v lo hi = .ok ()) : Within lo hi v := by
  unfold rangeOk at h
  split_ifs at h with hrange
  obtain ⟨⟨-, -, hlo⟩, -, -, hhi⟩ := hrange
  refine ⟨hv, fun hlt => ?_, fun hgt => ?_⟩
  · have := hlt.2.2
    omega
  · have := hgt.2.2
    omega

/-- What the check of a number establishes for one axis. -/
def CurveKey.InRange (lim : Limits) (a : AccelArgs) (v : Double) : CurveKey → Prop
  | .acceleration => ¬v > lim.accelMax
  | .exponentClassic => Within 1 10 v
  | .exponentPower => Within 1e-4 lim.expPowerMax v
  | .limit => Within 0 lim.limitMax v
  | .decayRate => Within 0 lim.decayRateMax v ∧ (v > 0 → ¬v < lim.naturalDecayRateMin)
  | .inputOffset => Within 0 lim.capXMax v ∧ ¬a.cap.x < v
  | .outputOffset => Within 0 lim.outputOffsetMax v
  | .scale => Within 0.01 lim.scaleMax v
  | .syncSpeed => Within 1e-4 lim.syncSpeedMax v
  | .smooth => Within 0 lim.smoothMax v
  | .motivity => Within 0 lim.motivityMax v
  | .gamma => Within 0 lim.gammaMax v
  | .capX => Within 0 lim.capXMax v ∧ ¬v < a.inputOffset
  | .capY => Within 0 lim.capYMax v

/-- A check that is followed by another. -/
theorem check_then {x : Except ParamError Unit} {p : Prop} [Decidable p] {e : ParamError}
    (h : (do x; if p then throw e) = .ok ()) : x = .ok () ∧ ¬p := by
  cases x with
  | error e' => cases h
  | ok u =>
      refine ⟨rfl, fun hp => ?_⟩
      simp only [bind, Except.bind, if_pos hp] at h
      cases h

/-- **An accepted number is in range on both axes.** -/
theorem inRange_of_check {k : CurveKey} (hv : v.isFinite = true)
    (h : k.check lim a ay key val v = .ok ()) : k.InRange lim a v ∧ k.InRange lim ay v := by
  cases k
  case acceleration =>
    change (if v > lim.accelMax then Except.error _ else Except.ok ()) = _ at h
    split_ifs at h with hhigh
    exact ⟨hhigh, hhigh⟩
  case decayRate =>
    obtain ⟨hrange, htiny⟩ := check_then h
    have hboth := And.intro (within_of_rangeOk hv hrange) fun hpos hlt => htiny ⟨hpos, hlt⟩
    exact ⟨hboth, hboth⟩
  case inputOffset =>
    obtain ⟨hrange, habove⟩ := check_then h
    rw [not_or] at habove
    have hwithin := within_of_rangeOk hv hrange
    exact ⟨⟨hwithin, habove.1⟩, hwithin, habove.2⟩
  case capX =>
    obtain ⟨hrange, hbelow⟩ := check_then h
    rw [not_or] at hbelow
    have hwithin := within_of_rangeOk hv hrange
    exact ⟨⟨hwithin, hbelow.1⟩, hwithin, hbelow.2⟩
  all_goals exact ⟨within_of_rangeOk hv h, within_of_rangeOk hv h⟩

/-! ## Edits of a curve -/

/-- **A number that is in range keeps a curve clean just when it suits the curve.** -/
theorem clean_set_iff {k : CurveKey} (h : a.Clean lim) (hv : v.isFinite = true)
    (hrange : k.InRange lim a v) :
    (k.set v a).Clean lim ↔ (CurveEdit.number k v).Suits lim a := by
  have hlut : (k.set v a).CleanLut := by
    cases k <;> exact h.lut.congr rfl rfl
  cases k
  case acceleration =>
    refine ⟨fun hclean => hclean.cap_off, fun hsuits => ?_⟩
    exact { h with lut := hlut, acceleration_finite := hv, acceleration_le := hrange,
                   cap_off := hsuits }
  case capY =>
    refine ⟨fun hclean hpos hneg => hclean.cap_off hneg hpos, fun hsuits => ?_⟩
    exact { h with lut := hlut, capY := hrange, cap_off := fun hneg hpos => hsuits hpos hneg }
  case decayRate =>
    refine iff_of_true ?_ trivial
    exact { h with lut := hlut, decayRate := hrange.1, natural_decay := fun _ => hrange.2 }
  case inputOffset =>
    refine iff_of_true ?_ trivial
    exact { h with lut := hlut, inputOffset := hrange.1, classic_cap := fun _ _ => hrange.2 }
  case capX =>
    refine iff_of_true ?_ trivial
    exact { h with lut := hlut, capX := hrange.1, classic_cap := fun _ _ => hrange.2 }
  all_goals refine iff_of_true ?_ trivial
  case exponentClassic => exact { h with lut := hlut, exponentClassic := hrange }
  case exponentPower => exact { h with lut := hlut, exponentPower := hrange }
  case limit => exact { h with lut := hlut, limit := hrange }
  case outputOffset => exact { h with lut := hlut, outputOffset := hrange }
  case scale => exact { h with lut := hlut, scale := hrange }
  case syncSpeed => exact { h with lut := hlut, syncSpeed := hrange }
  case smooth => exact { h with lut := hlut, smooth := hrange }
  case motivity => exact { h with lut := hlut, motivity := hrange }
  case gamma => exact { h with lut := hlut, gamma := hrange }

/-- Another mode keeps a curve clean just when it suits the curve. -/
theorem clean_mode_iff {m : AccelMode} (h : a.Clean lim) :
    AccelArgs.Clean lim { a with mode := m } ↔ (CurveEdit.mode m).Suits lim a := by
  have hlut : AccelArgs.CleanLut { a with mode := m } := h.lut.congr rfl rfl
  have hkeep (hnatural : m = .natural → a.decayRate > 0 → ¬a.decayRate < lim.naturalDecayRateMin)
      (hclassic : m = .classic → a.capModeVal = .io ∨ a.capModeVal = .in_ →
        ¬a.cap.x < a.inputOffset) : AccelArgs.Clean lim { a with mode := m } :=
    { h with lut := hlut, natural_decay := hnatural, classic_cap := hclassic }
  cases m
  case natural =>
    refine ⟨fun hclean => hclean.natural_decay rfl, fun hsuits => ?_⟩
    exact hkeep (fun _ => hsuits) fun hmode => nomatch hmode
  case classic =>
    refine ⟨fun hclean => hclean.classic_cap rfl, fun hsuits => ?_⟩
    exact hkeep (fun hmode => nomatch hmode) fun _ => hsuits
  all_goals
    exact iff_of_true (hkeep (fun hmode => nomatch hmode) fun hmode => nomatch hmode) trivial

theorem clean_capMode_iff {m : CapMode} (h : a.Clean lim) :
    AccelArgs.Clean lim { a with capModeVal := m } ↔ (CurveEdit.capMode m).Suits lim a := by
  have hlut : AccelArgs.CleanLut { a with capModeVal := m } := h.lut.congr rfl rfl
  have hkeep (hclassic : a.mode = .classic → m = .io ∨ m = .in_ → ¬a.cap.x < a.inputOffset) :
      AccelArgs.Clean lim { a with capModeVal := m } :=
    { h with lut := hlut, classic_cap := hclassic }
  cases m
  case out => exact iff_of_true (hkeep fun _ hcap => by simp at hcap) trivial
  case io =>
    refine ⟨fun hclean hmode => hclean.classic_cap hmode (.inl rfl), fun hsuits => ?_⟩
    exact hkeep fun hmode _ => hsuits hmode
  case in_ =>
    refine ⟨fun hclean hmode => hclean.classic_cap hmode (.inr rfl), fun hsuits => ?_⟩
    exact hkeep fun hmode _ => hsuits hmode

/-- What an accepted edit of a curve is known to hold. -/
def CurveEdit.Accepted (lim : Limits) (a : AccelArgs) : CurveEdit → Prop
  | .number k v => v.isFinite = true ∧ k.InRange lim a v
  | _ => True

/-- **An accepted edit keeps a curve clean just when it suits the curve.** -/
theorem clean_apply_iff {e : CurveEdit} (h : a.Clean lim) (he : e.Accepted lim a) :
    (e.apply a).Clean lim ↔ e.Suits lim a := by
  cases e with
  | number k v => exact clean_set_iff h he.1 he.2
  | mode m => exact clean_mode_iff h
  | capMode m => exact clean_capMode_iff h
  | gain b =>
      refine iff_of_true ?_ trivial
      exact { h with lut := h.lut.congr rfl rfl }

/-! ## Edits of a profile -/

/-- What the check of a number of the profile establishes. -/
def ProfileKey.InRange (lim : Limits) (p : Profile) (v : Double) : ProfileKey → Prop
  | .rotation => True
  | .snap => Within 0 45 v
  | .dpi => Within 1 32000 v
  | .pollingRate => Within (ofInt pollRateMin) (ofInt pollRateMax) v
  | .speedMin => Within 0 lim.speedMax v ∧ (p.speedMax > 0 → ¬p.speedMax < v)
  | .speedMax => Within 0 lim.speedMax v ∧ (v > 0 → ¬v < p.speedMin)
  | .outputDpi => v.eq 0 = true ∨ Within 1 32000 v
  | .lrRatio | .udRatio | .yxRatio => Within 0.01 100 v
  | .lpNorm => ¬v ≤ 0
  | .inputSmoothHalflife | .scaleSmoothHalflife | .outputSmoothHalflife =>
      Within 0 smoothHalflifeMax v
  | .domainWeights | .domainWeightX | .domainWeightY | .rangeWeights | .rangeWeightX
  | .rangeWeightY => Within 0 1e6 v

theorem within_of_intOk {lo hi : Double} (hv : v.isFinite = true)
    (h : intOk key val v lo hi = .ok ()) : Within lo hi v := by
  unfold intOk at h
  split_ifs at h
  exact within_of_rangeOk hv h

theorem profile_inRange_of_check {p : Profile} {k : ProfileKey} (hv : v.isFinite = true)
    (h : k.check lim p key val v = .ok ()) : k.InRange lim p v := by
  cases k
  case rotation => trivial
  case dpi => exact within_of_intOk hv h
  case pollingRate => exact within_of_intOk hv h
  case speedMin =>
    obtain ⟨hrange, habove⟩ := check_then h
    exact ⟨within_of_rangeOk hv hrange, fun hpos hlt => habove ⟨hpos, hlt⟩⟩
  case speedMax =>
    obtain ⟨hrange, hbelow⟩ := check_then h
    exact ⟨within_of_rangeOk hv hrange, fun hpos hlt => hbelow ⟨hpos, hlt⟩⟩
  case outputDpi =>
    change (if v.eq 0 = true then Except.ok () else _) = _ at h
    by_cases hzero : v.eq 0 = true
    · exact .inl hzero
    · rw [if_neg hzero] at h
      exact .inr (within_of_rangeOk hv h)
  case lpNorm =>
    change (if v ≤ 0 then Except.error _ else Except.ok ()) = _ at h
    split_ifs at h with hpos
    exact hpos
  all_goals exact within_of_rangeOk hv h

/-- What an accepted edit is known to hold. -/
def ParamEdit.Accepted (lim : Limits) (dp : DeviceProfile) : ParamEdit → Prop
  | .curve e => e.Accepted lim dp.prof.accelX ∧ e.Accepted lim dp.prof.accelY
  | .number k v => v.isFinite = true ∧ k.InRange lim dp.prof v
  | .matchApp s => s.length ≤ maxMatchApp
  | .deviceId id => id.length ≤ maxDpDeviceId ∧ id ∉ allDevicesAliases
  | _ => True

theorem readNumber_finite (h : readNumber val = .ok v) : v.isFinite = true := by
  unfold readNumber at h
  split at h
  · cases h
  · split_ifs at h with hrest hfinite
    cases h
    simpa using hfinite

/-- The value of a read that succeeds. -/
theorem exists_of_map {α β : Type} {x : Except ParamError α} {f : α → β} {b : β}
    (h : (do return f (← x)) = Except.ok b) : ∃ y, x = .ok y ∧ b = f y := by
  cases x with
  | error e => cases h
  | ok y =>
      cases h
      exact ⟨y, rfl, rfl⟩

/-- The number of a check that succeeds. -/
theorem exists_of_checked {x : Except ParamError Double} {check : Double → Except ParamError Unit}
    {f : Double → ParamEdit} {e : ParamEdit}
    (h : (do let v ← x; check v; return f v) = Except.ok e) :
    ∃ v, x = .ok v ∧ check v = .ok () ∧ e = f v := by
  cases x with
  | error e => cases h
  | ok v =>
      refine ⟨v, rfl, ?_⟩
      simp only [bind, Except.bind] at h
      cases hcheck : check v with
      | error e =>
          rw [hcheck] at h
          cases h
      | ok u =>
          rw [hcheck] at h
          cases h
          exact ⟨rfl, rfl⟩

/-- **What the command accepts.** -/
theorem readEdit_accepted {e : ParamEdit} (h : readEdit lim dp key val = .ok e) :
    e.Accepted lim dp := by
  unfold readEdit at h
  split_ifs at h
  cases hkey : allKeys.lookup key with
  | none =>
      rw [hkey] at h
      cases h
  | some k =>
      rw [hkey] at h
      cases k
      case mode | gain | capMode =>
        obtain ⟨m, -, rfl⟩ := exists_of_map h
        exact ⟨trivial, trivial⟩
      case raw | disable | distanceMode =>
        obtain ⟨m, -, rfl⟩ := exists_of_map h
        trivial
      case matchApp =>
        obtain ⟨s, hs, rfl⟩ := exists_of_map h
        unfold parseMatchApp at hs
        dsimp only at hs
        split_ifs at hs with hlong
        cases hs
        exact Nat.not_lt.mp hlong
      case deviceId =>
        obtain ⟨id, hid, rfl⟩ := exists_of_map h
        unfold parseDeviceId at hid
        dsimp only at hid
        by_cases halias : val ∈ allDevicesAliases
        · rw [if_pos halias] at hid
          cases hid
          exact ⟨Nat.zero_le _, by decide⟩
        · rw [if_neg halias] at hid
          split_ifs at hid with hlong
          cases hid
          exact ⟨Nat.not_lt.mp hlong, halias⟩
      case curve k =>
        obtain ⟨v, hv, hcheck, rfl⟩ := exists_of_checked h
        obtain ⟨hx, hy⟩ := inRange_of_check (readNumber_finite hv) hcheck
        exact ⟨⟨readNumber_finite hv, hx⟩, readNumber_finite hv, hy⟩
      case number k =>
        obtain ⟨v, hv, hcheck, rfl⟩ := exists_of_checked h
        exact ⟨readNumber_finite hv, profile_inRange_of_check (readNumber_finite hv) hcheck⟩

/-- A number between two positive integers becomes an integer between them. -/
theorem finiteDoubleToInt_bounds (lo hi : ℤ) (hlo : 0 < lo) (hle : lo ≤ hi) (hhi : hi < intMax)
    (h : Within (ofInt lo) (ofInt hi) v) : lo ≤ finiteDoubleToInt v ∧ finiteDoubleToInt v ≤ hi := by
  have hbits : intMax.natAbs < 2 ^ binary64.prec := by decide
  have hkey {z : ℤ} (h0 : 0 ≤ z) (hz : z ≤ intMax) : (ofInt z : Double).isFinite = true ∧
      (ofInt z : Double).key = z * 2 ^ binary64.unit :=
    ⟨isFinite_ofInt (by omega), key_ofInt (by omega)⟩
  obtain ⟨hlo_fin, hlo_key⟩ := hkey (z := lo) (by omega) (by omega)
  obtain ⟨hhi_fin, hhi_key⟩ := hkey (z := hi) (by omega) (by omega)
  obtain ⟨hmax_fin, hmax_key⟩ := hkey (z := intMax) (by decide) le_rfl
  have hunit : (0 : ℤ) < 2 ^ binary64.unit := by positivity
  have hbelow := h.not_below
  have habove := h.not_above
  have hfin := h.finite
  rw [lt_iff_key hfin hlo_fin, hlo_key, not_lt] at hbelow
  rw [gt_iff_lt, lt_iff_key hhi_fin hfin, hhi_key, not_lt] at habove
  have hpos : 0 < v.key := (Int.mul_pos hlo hunit).trans_le hbelow
  have hmin : ¬v < ofInt intMin := by
    intro hlt
    have hneg : (ofInt intMin : Double).key < 0 := by decide +kernel
    have := hlt.2.2
    omega
  have hmax : ¬v ≥ ofInt intMax := by
    intro hge
    rw [ge_iff_le, le_iff_key hmax_fin hfin, hmax_key] at hge
    exact absurd (hge.trans habove) (not_le.mpr (Int.mul_lt_mul_of_pos_right hhi hunit))
  unfold finiteDoubleToInt
  rw [isNan_of_isFinite hfin, if_neg Bool.false_ne_true, if_neg hmin, if_neg hmax]
  rcases v with _ | _ | ⟨s, m, hm⟩
  · cases hfin
  · cases hfin
  obtain rfl : s = false := by
    cases s
    · rfl
    · simp only [key, if_true] at hpos
      omega
  show lo ≤ ((m / 2 ^ binary64.unit : ℕ) : ℤ) ∧ ((m / 2 ^ binary64.unit : ℕ) : ℤ) ≤ hi
  have hm_key : (fin false m hm : Double).key = m := rfl
  rw [hm_key] at hbelow habove
  rw [Int.natCast_div, Nat.cast_pow, Nat.cast_ofNat]
  refine ⟨(Int.le_ediv_iff_mul_le hunit).mpr hbelow, ?_⟩
  exact Int.ediv_le_of_le_mul hunit habove

/-- What is as good as zero, or a resolution of at least one, is a clean resolution. -/
theorem cleanOutputDpi_of_accepted (hv : v.isFinite = true)
    (h : v.eq 0 = true ∨ Within 1 32000 v) : CleanOutputDpi v := by
  rcases h with hzero | hone
  · have hkey := (eq_zero_iff hv).mp hzero
    have h32000 : (32000 : Double).isFinite = true := by decide +kernel
    have hpos : 0 < (32000 : Double).key := by decide +kernel
    refine ⟨⟨hv, fun hlt => ?_, fun hgt => ?_⟩, fun hgt => ?_⟩
    · rw [lt_iff_key hv zero_finite, zero_key] at hlt
      omega
    · rw [gt_iff_lt, lt_iff_key h32000 hv] at hgt
      omega
    · rw [gt_iff_lt, lt_iff_key zero_finite hv, zero_key] at hgt
      omega
  · refine ⟨⟨hv, fun hlt => hone.not_below ?_, hone.not_above⟩, fun _ => hone.not_below⟩
    have hone_pos : (0 : Double).key < (1 : Double).key := by decide +kernel
    rw [lt_iff_key hv zero_finite] at hlt
    rw [lt_iff_key hv one_finite]
    omega

/-- **An accepted number, as asked for, keeps a profile clean.** -/
theorem clean_number {k : ProfileKey} (h : dp.Clean lim) (hv : v.isFinite = true)
    (hrange : k.InRange lim dp.prof v) : ((ParamEdit.number k v).asked dp).Clean lim := by
  obtain ⟨hdev, hprof⟩ := h
  cases k
  case rotation =>
    refine ⟨hdev, { hprof with rotation := ?_, speeds := ?_ }⟩
    · show CleanRotation (moduloTurn v)
      exact normalizeRotation_eq hv ▸ normalizeRotation_clean hv
    · exact ⟨hprof.speeds.speedMin, hprof.speeds.speedMax, hprof.speeds.ordered⟩
  case snap => exact ⟨hdev, { hprof with snap := hrange, speeds := { hprof.speeds with } }⟩
  case dpi =>
    obtain ⟨hge, hle⟩ := finiteDoubleToInt_bounds 1 32000 (by decide) (by decide) (by decide)
      hrange
    exact ⟨{ hdev with dpi_ge := hge, dpi_le := hle }, hprof⟩
  case pollingRate =>
    obtain ⟨hge, hle⟩ := finiteDoubleToInt_bounds pollRateMin pollRateMax (by decide) (by decide)
      (by decide) hrange
    exact ⟨{ hdev with pollingRate_ge := hge, pollingRate_le := hle }, hprof⟩
  case speedMin =>
    refine ⟨hdev, { hprof with speeds := ?_ }⟩
    exact { hprof.speeds with speedMin := hrange.1, ordered := hrange.2 }
  case speedMax =>
    refine ⟨hdev, { hprof with speeds := ?_ }⟩
    exact { hprof.speeds with speedMax := hrange.1, ordered := hrange.2 }
  case outputDpi =>
    exact ⟨hdev, { hprof with outputDpi := cleanOutputDpi_of_accepted hv hrange
                              speeds := { hprof.speeds with } }⟩
  case lrRatio => exact ⟨hdev, { hprof with lrRatio := hrange, speeds := { hprof.speeds with } }⟩
  case udRatio => exact ⟨hdev, { hprof with udRatio := hrange, speeds := { hprof.speeds with } }⟩
  case yxRatio => exact ⟨hdev, { hprof with yxRatio := hrange, speeds := { hprof.speeds with } }⟩
  case lpNorm =>
    exact ⟨hdev, { hprof with speedArgs := { hprof.speedArgs with lpNorm_finite := hv
                                                                  lpNorm_pos := hrange }
                              speeds := { hprof.speeds with } }⟩
  case inputSmoothHalflife =>
    exact ⟨hdev, { hprof with speedArgs := { hprof.speedArgs with inputHalflife := hrange }
                              speeds := { hprof.speeds with } }⟩
  case scaleSmoothHalflife =>
    exact ⟨hdev, { hprof with speedArgs := { hprof.speedArgs with scaleHalflife := hrange }
                              speeds := { hprof.speeds with } }⟩
  case outputSmoothHalflife =>
    exact ⟨hdev, { hprof with speedArgs := { hprof.speedArgs with outputHalflife := hrange }
                              speeds := { hprof.speeds with } }⟩
  case domainWeights =>
    exact ⟨hdev, { hprof with domainX := hrange, domainY := hrange
                              speeds := { hprof.speeds with } }⟩
  case domainWeightX =>
    exact ⟨hdev, { hprof with domainX := hrange, speeds := { hprof.speeds with } }⟩
  case domainWeightY =>
    exact ⟨hdev, { hprof with domainY := hrange, speeds := { hprof.speeds with } }⟩
  case rangeWeights =>
    exact ⟨hdev, { hprof with rangeX := hrange, rangeY := hrange
                              speeds := { hprof.speeds with } }⟩
  case rangeWeightX =>
    exact ⟨hdev, { hprof with rangeX := hrange, speeds := { hprof.speeds with } }⟩
  case rangeWeightY =>
    exact ⟨hdev, { hprof with rangeY := hrange, speeds := { hprof.speeds with } }⟩

theorem cleanSpeedArgs_apply {sp : SpeedArgs} (h : CleanSpeedArgs sp) (m : DistanceMode) :
    CleanSpeedArgs (m.apply sp) := by
  have h9999 : (9999 : Double).isFinite = true ∧ ¬(9999 : Double) ≤ 0 := by decide +kernel
  have htwo : (2 : Double).isFinite = true ∧ ¬(2 : Double) ≤ 0 := by decide +kernel
  cases m with
  | separate => exact { h with }
  | chebyshev => exact { h with lpNorm_finite := h9999.1, lpNorm_pos := h9999.2 }
  | euclidean => exact { h with lpNorm_finite := htwo.1, lpNorm_pos := htwo.2 }
  | lp =>
      have hnorm : (if sp.lpNorm ≥ 16 then 2 else sp.lpNorm).isFinite = true ∧
          ¬(if sp.lpNorm ≥ 16 then 2 else sp.lpNorm) ≤ 0 := by
        split_ifs
        · exact htwo
        · exact ⟨h.lpNorm_finite, h.lpNorm_pos⟩
      exact { h with lpNorm_finite := hnorm.1, lpNorm_pos := hnorm.2 }

/-- **An accepted edit, as asked for, keeps a profile clean just when it suits it.** -/
theorem clean_asked_iff {e : ParamEdit} (h : dp.Clean lim) (he : e.Accepted lim dp) :
    (e.asked dp).Clean lim ↔ e.Suits lim dp := by
  obtain ⟨hdev, hprof⟩ := h
  cases e with
  | curve e =>
      rw [ParamEdit.Suits, ← clean_apply_iff hprof.accelX he.1, ← clean_apply_iff hprof.accelY he.2]
      refine ⟨fun hclean => ⟨hclean.prof.accelX, hclean.prof.accelY⟩, fun ⟨hx, hy⟩ => ?_⟩
      exact ⟨hdev, hprof.withCurves hx hy⟩
  | number k v => exact iff_of_true (clean_number ⟨hdev, hprof⟩ he.1 he.2) trivial
  | raw b => exact iff_of_true ⟨hdev, { hprof with speeds := { hprof.speeds with } }⟩ trivial
  | disable b => exact iff_of_true ⟨{ hdev with }, hprof⟩ trivial
  | matchApp s => exact iff_of_true ⟨hdev, hprof⟩ trivial
  | deviceId id => exact iff_of_true ⟨hdev, hprof⟩ trivial
  | distanceMode m =>
      refine iff_of_true ⟨hdev, { hprof with speeds := { hprof.speeds with }
                                             speedArgs := ?_ }⟩ trivial
      exact cleanSpeedArgs_apply hprof.speedArgs m

theorem sanitizeProfile_rotation (p : Profile) (x : Double) :
    sanitizeProfile lim { p with degreesRotation := x } =
      { sanitizeProfile lim p with degreesRotation := normalizeRotation (finiteOr 0 x) } := rfl

/-- Sanitizing what was assigned is sanitizing what was asked for. -/
theorem sanitize_apply (dp : DeviceProfile) {e : ParamEdit} (he : e.Accepted lim dp) :
    sanitizeDeviceProfile lim (e.apply dp) = sanitizeDeviceProfile lim (e.asked dp) := by
  by_cases hrotation : ∃ v, e = .number .rotation v
  · obtain ⟨v, rfl⟩ := hrotation
    have hturn := normalizeRotation_eq he.1
    have hclean : CleanRotation (moduloTurn v) := hturn ▸ normalizeRotation_clean he.1
    have hangle : normalizeRotation (finiteOr 0 v) =
        normalizeRotation (finiteOr 0 (moduloTurn v)) := by
      rw [finiteOr_of_finite he.1, hturn, finiteOr_of_finite hclean.finite,
        normalizeRotation_of_clean hclean]
    have hprof : sanitizeProfile lim { dp.prof with degreesRotation := v } =
        sanitizeProfile lim { dp.prof with degreesRotation := moduloTurn v } :=
      calc sanitizeProfile lim { dp.prof with degreesRotation := v }
          = { sanitizeProfile lim dp.prof with
              degreesRotation := normalizeRotation (finiteOr 0 v) } := sanitizeProfile_rotation _ _
        _ = { sanitizeProfile lim dp.prof with
              degreesRotation := normalizeRotation (finiteOr 0 (moduloTurn v)) } := by rw [hangle]
        _ = sanitizeProfile lim { dp.prof with degreesRotation := moduloTurn v } :=
          (sanitizeProfile_rotation _ _).symm
    exact congrArg (fun p => { dp with devCfg := sanitizeDeviceConfig dp.devCfg, prof := p }) hprof
  · have hasked : e.asked dp = e.apply dp := by
      unfold ParamEdit.asked
      split
      · exact absurd ⟨_, rfl⟩ hrotation
      · rfl
    rw [hasked]

/-! ## The saved configuration -/

/-- A curve that agrees with a clean one is clean. -/
theorem AccelArgs.SameCurve.clean {b : AccelArgs} (h : a.SameCurve b) (ha : a.Clean lim) :
    b.Clean lim := by
  have hlength : b.length = a.length := by rw [← h.fields]
  have hlut : b.CleanLut := by
    have hle := points_le a
    have hpoints : b.points = a.points := by rw [points_eq, points_eq, hlength]
    refine ⟨hlength ▸ ha.lut.length_nonneg, hlength ▸ ha.lut.length_le, fun i hi => ?_,
      fun i j hij hj => ?_⟩
    · rw [hlength] at hi
      exact h.slots i hi ▸ ha.lut.finite i hi
    · rw [hpoints] at hj
      rw [← h.slots _ (by omega), ← h.slots _ (by omega)]
      exact ha.lut.sorted i j hij hj
  rw [← h.fields] at hlut ⊢
  exact ha.withData hlut

theorem DeviceProfile.SameProfile.clean {dp dq : DeviceProfile} (h : dp.SameProfile dq)
    (hdp : dp.Clean lim) : dq.Clean lim := by
  have hx := h.accelX.clean hdp.prof.accelX
  have hy := h.accelY.clean hdp.prof.accelY
  rw [← h.fields]
  exact ⟨hdp.devCfg, hdp.prof.withCurves hx hy⟩

/-- **What is stored is what was asked for just when that is clean.** -/
theorem sameProfile_asked_iff (h : dp.Clean lim) {e : ParamEdit} (he : e.Accepted lim dp) :
    (sanitizeDeviceProfile lim (e.apply dp)).trim.SameProfile (e.asked dp) ↔ e.Suits lim dp := by
  rw [← clean_asked_iff h he]
  refine ⟨fun hsame => hsame.clean (sanitizeDeviceProfile_clean lim _).trim, fun hclean => ?_⟩
  rw [sanitize_apply dp he, sanitizeDeviceProfile_of_clean hclean]
  exact hclean.trim_sameProfile

/-- An accepted edit keeps the caps, and the tables as long as they were. -/
theorem readable_sanitize_apply (h : dp.Readable lim) {e : ParamEdit} (he : e.Accepted lim dp) :
    (sanitizeDeviceProfile lim (e.apply dp)).Readable lim := by
  obtain ⟨-, hcapped, heven⟩ := h
  have hboth : (e.apply dp).Capped ∧ (e.apply dp).prof.Even := by
    cases e with
    | curve e =>
        have hlength : ∀ a : AccelArgs, (e.apply a).length = a.length := by
          intro a
          cases e with
          | number k v => cases k <;> rfl
          | mode m | gain b | capMode m => rfl
        refine ⟨{ hcapped with }, ?_, ?_⟩
        · exact (hlength dp.prof.accelX).symm ▸ heven.1
        · exact (hlength dp.prof.accelY).symm ▸ heven.2
    | number k v => cases k <;> exact ⟨{ hcapped with }, heven⟩
    | raw b | disable b | distanceMode m => exact ⟨{ hcapped with }, heven⟩
    | matchApp s => exact ⟨{ hcapped with matchApp := he }, heven⟩
    | deviceId id => exact ⟨{ hcapped with deviceId := he.1, not_alias := he.2 }, heven⟩
  exact ⟨sanitizeDeviceProfile_clean lim _, { hboth.1 with }, sanitizeProfile_even lim hboth.2⟩

/-- **What `set-param` stores.**  Of a sanitized configuration, wherever the command reports
success: the saved configuration has the named field as asked for and all the rest as it was,
if and only if the edit suits the profile.  It does not where a rule of the sanitizer that ties
two fields together is not checked for the key: a cap with a deceleration, natural mode with a
tiny decay rate, and the capped classic curve with an input offset above its cap. -/
theorem set_param_iff {J : JsonText Text} {env : CliEnv} {cfg : AppConfig} {file : Option Text}
    {name key val : Bytes} (h : cfg.Sanitized lim)
    (hrc : (cmdSetParam lim J env cfg file name key val).1.rc = 0) (path : Bytes) :
    ∃ dp e, cfg.profileNamed name = some dp ∧ readEdit lim dp key val = .ok e ∧
      (StoredAsAsked lim J cfg name e path (cmdSetParam lim J env cfg file name key val).2 ↔
        e.Suits lim dp) := by
  obtain ⟨cfg', hedit, hsave⟩ := runEdit_saved (CmdEnd.saved_of_rc hrc)
  unfold setParamEdit at hedit
  cases hdp : cfg.profileNamed name with
  | none =>
      rw [hdp] at hedit
      cases hedit
  | some dp =>
      rw [hdp] at hedit
      obtain ⟨e, he, rfl⟩ := exists_of_map hedit
      refine ⟨dp, e, rfl, he, ?_⟩
      have haccepted := readEdit_accepted he
      have hclean : ∀ dq ∈ cfg.profiles, dq.Clean lim := fun dq hdq => (h.profiles dq hdq).clean
      obtain ⟨hmem, -⟩ := profileNamed_mem hdp
      have hsanitized : AppConfig.Sanitized lim
          { cfg with
            profiles := updateNamed name
              (fun dp => sanitizeDeviceProfile lim (e.apply dp)) cfg.profiles } := by
        refine ⟨h.activeProfile, fun dq hdq => ?_⟩
        rcases mem_updateNamed hdq with hold | ⟨dr, hdr, rfl⟩
        · exact h.profiles dq hold
        · obtain rfl : dr = dp := Option.some.inj (hdr.symm.trans hdp)
          exact readable_sanitize_apply (h.profiles dr hmem) haccepted
      obtain ⟨loaded, hload, hactive, hraw, hprofiles⟩ := loadConfig_of_save hsanitized hsave path
      have hstored : StoredAsAsked lim J cfg name e path
          (cmdSetParam lim J env cfg file name key val).2 ↔
          loaded.profiles.Forall₂ DeviceProfile.SameProfile
            (updateNamed name e.asked cfg.profiles) := by
        constructor
        · rintro ⟨loaded', hload', -, -, hall⟩
          obtain rfl : loaded' = loaded := Except.ok.inj (hload'.symm.trans hload)
          exact hall
        · exact fun hall => ⟨loaded, hload, hactive, hraw, hall⟩
      rw [hstored, hprofiles, List.forall₂_map_left_iff,
        forall₂_updateNamed hdp fun dq hdq => (hclean dq hdq).trim_sameProfile]
      exact sameProfile_asked_iff (hclean dp hmem) haccepted

/-- A configuration with one profile, of the default values. -/
def oneProfile : AppConfig := { activeProfile := bytes "p", profiles := [{ name := bytes "p" }] }

theorem oneProfile_sanitized : oneProfile.Sanitized Limits.documented where
  activeProfile := by decide
  profiles := by
    refine List.forall_mem_singleton.mpr ⟨?_, ⟨?_, ?_, ?_, ?_⟩, ?_, ?_⟩
    · exact ⟨defaults_clean.devCfg, defaults_clean.prof⟩
    all_goals decide

theorem set_param_iff_smooth :
    ∃ dp e, oneProfile.profileNamed (bytes "p") = some dp ∧
      readEdit Limits.documented dp (bytes "smooth") (bytes "0.25") = .ok e ∧
      (StoredAsAsked Limits.documented JsonText.trees oneProfile (bytes "p") e
        (bytes "settings.json") (cmdSetParam Limits.documented JsonText.trees {} oneProfile none
          (bytes "p") (bytes "smooth") (bytes "0.25")).2 ↔ e.Suits Limits.documented dp) :=
  set_param_iff oneProfile_sanitized (by decide +kernel) (bytes "settings.json")

/-- **A deceleration takes the cap away.**  `set-param p acceleration -0.5` reports success,
and the cap of the profile is gone. -/
theorem deceleration_drops_cap :
    readEdit Limits.documented { name := bytes "p" } (bytes "acceleration") (bytes "-0.5") =
      .ok (.curve (.number .acceleration (-0.5))) ∧
    (cmdSetParam Limits.documented JsonText.trees {} oneProfile none
      (bytes "p") (bytes "acceleration") (bytes "-0.5")).1.rc = 0 ∧
    ¬StoredAsAsked Limits.documented JsonText.trees oneProfile (bytes "p")
      (.curve (.number .acceleration (-0.5))) (bytes "settings.json")
      (cmdSetParam Limits.documented JsonText.trees {} oneProfile none
        (bytes "p") (bytes "acceleration") (bytes "-0.5")).2 := by
  refine ⟨by decide +kernel, by decide +kernel, ?_⟩
  rintro ⟨loaded, hload, -, -, hall⟩
  have hcaps : (loadConfig JsonText.trees Limits.documented (bytes "settings.json")
      (cmdSetParam Limits.documented JsonText.trees {} oneProfile none
        (bytes "p") (bytes "acceleration") (bytes "-0.5")).2).map
      (fun cfg => cfg.profiles.map fun dp => dp.prof.accelX.cap.y) = .ok [0] := by decide +kernel
  rw [hload] at hcaps
  have hzero : loaded.profiles.map (fun dp => dp.prof.accelX.cap.y) = [0] := Except.ok.inj hcaps
  generalize loaded.profiles = dps at hall hzero
  cases hall with
  | cons hsame _ =>
      have hcap := congrArg (fun a => a.cap.y) hsame.accelX.fields
      have hdropped := (List.cons.inj hzero).1
      exact absurd (hdropped.symm.trans hcap) (by decide +kernel)

end AbrekMouse
