import AbrekMouse.FeatureExchanges

/-! # Writing the settings of a mouse

`set_dpi`, `set_polling_rate` and `set_lift_off_distance`.  A mouse in onboard mode rejects
them, so each first switches the onboard profiles of its target off; they are switched on
again at shutdown.
-/
namespace AbrekMouse
open ProgLib

/-! ## Report rates -/

/-- The polling rates of the extended feature, by their codes. -/
def extendedRates : List UInt32 := [125, 250, 500, 1000, 2000, 4000, 8000]

/-- The rates for the report periods in milliseconds. -/
def legacyRates : List UInt32 := [1000, 500, 333, 250, 200, 166, 142, 125]

/-- `hz_to_rate_code`: the code of a polling rate, if the feature has it. -/
def hzToRateCode (extended : Bool) (hz : UInt32) : Option UInt8 :=
  if extended then (extendedRates.findIdx? (· = hz)).map fun i => UInt8.ofNat i
  else (legacyRates.findIdx? (· = hz)).map fun i => UInt8.ofNat (i + 1)

/-- The reply to GetReportRateList has the bit of the rate. -/
def reportRateOffers : Bytes → UInt8 → Bool
  | rates :: _, code => rates >>> (code - 1) &&& 0x01 ≠ 0
  | _, _ => false

/-- The reply of the extended feature has the bit of the rate. -/
def extendedRateOffers : Bytes → UInt8 → Bool
  | hi :: lo :: _, code => readBe16 hi lo &&& 1 <<< code.toUInt16 ≠ 0
  | _, _ => false

/-! ## DPI levels -/

/-- `hidpp_dpi_info`: what a device tells of its sensor, its levels and its present settings. -/
structure DpiInfo where
  extended : Bool := false
  supportsY : Bool := false
  supportsLiftOffDistance : Bool := false
  dpiDefault : UInt16
  dpiCurrent : UInt16
  dpiCurrentY : UInt16 := 0
  liftOffDistance : UInt8 := 0
  dpiLevels : List UInt16 := []
  dpiMin : UInt16 := 0
  dpiMax : UInt16 := 0

/-- The levels from `next` up to `last`, as long as there is room. -/
def pushLevels (step last : ℕ) : ℕ → ℕ → List UInt16 → List UInt16
  | 0, _, levels => levels
  | room + 1, next, levels =>
      if next ≤ last then pushLevels step last room (next + step) (levels ++ [UInt16.ofNat next])
      else levels

/-- A step marker: levels at the distance of the step, and then the last one. -/
def stepLevels (step last : UInt16) (levels : List UInt16) : List UInt16 :=
  match levels.getLast? with
  | none => levels
  | some back =>
      if step ≠ 0 ∧ back < last then
        let levels := pushLevels step.toNat last.toNat (2048 - levels.length)
          (back.toNat + step.toNat) levels
        if levels.length < 2048 ∧ levels.getLast? ≠ some last then levels ++ [last] else levels
      else levels

/-- A word from 0xE000 on is a step, and the next word the last level of it. -/
def decodeDpiLevels : Bytes → List UInt16 → List UInt16
  | hi :: lo :: rest, levels =>
      if readBe16 hi lo = 0 then levels
      else if readBe16 hi lo >>> 13 = 0x07 then
        match rest with
        | lastHi :: lastLo :: rest =>
            decodeDpiLevels rest
              (stepLevels (readBe16 hi lo &&& 0x1FFF) (readBe16 lastHi lastLo) levels)
        | _ => levels
      else decodeDpiLevels rest (levels ++ [readBe16 hi lo])
  | _, levels => levels

namespace DpiInfo

/-- The levels of a list, with the range that they span; without one the range stays. -/
def withLevels (info : DpiInfo) (levels : List UInt16) : DpiInfo :=
  { info with
    dpiLevels := levels
    dpiMin := levels.headD info.dpiMin
    dpiMax := levels.getLastD info.dpiMax }

/-- What EXTENDED_ADJUSTABLE_DPI says of the current levels. -/
def ofExtended (caps current : Bytes) : DpiInfo :=
  let supportsY := byteAt caps 2 &&& 0x01 ≠ 0
  let supportsLiftOffDistance := byteAt caps 2 &&& 0x02 ≠ 0
  let word (k : ℕ) := readBe16 (byteAt current k) (byteAt current (k + 1))
  { extended := true
    supportsY := supportsY
    supportsLiftOffDistance := supportsLiftOffDistance
    dpiDefault := word 3
    dpiCurrent := if word 1 ≠ 0 then word 1 else word 3
    dpiCurrentY :=
      if supportsY ∧ 9 ≤ current.length then if word 5 ≠ 0 then word 5 else word 7 else 0
    liftOffDistance :=
      if supportsLiftOffDistance ∧ 10 ≤ current.length then byteAt current 9 else 0 }

/-- What ADJUSTABLE_DPI says of the current level. -/
def ofLegacy (current : Bytes) : DpiInfo :=
  let word (k : ℕ) := readBe16 (byteAt current k) (byteAt current (k + 1))
  { dpiDefault := word 3
    dpiCurrent := if word 1 ≠ 0 then word 1 else word 3 }

end DpiInfo

namespace FeatureSession
variable (devices : UInt8 → HidppDevice) (net : Network)

/-- A request to a feature by its id. -/
def request (feature : UInt16) (function : UInt8) (params : Bytes) (target : UInt8) :
    StateM FeatureSession (Option Bytes) := do
  match ← resolveFeatureIndex devices net feature target with
  | some index => sendFeatureRequest devices net index function params target
  | none => return none

/-- GetDpiList, chunk by chunk, up to the final zeros.  A chunk begins with a header. -/
def readDpiList (feature : UInt16) (function : UInt8) (header : ℕ) (target : UInt8) :
    ℕ → ℕ → Bytes → ℕ → StateM FeatureSession Bytes
  | 0, _, bytes, _ => return bytes
  | left + 1, chunk, bytes, timeouts => do
      if ← timeUp net then return bytes
      else
        let reply ← request devices net feature function [0, 0, UInt8.ofNat chunk] target
        match reply.filter (header < ·.length) with
        | none =>
            if 3 ≤ timeouts + 1 then return bytes
            else readDpiList feature function header target left (chunk + 1) bytes (timeouts + 1)
        | some reply =>
            if [0, 0] <:+ bytes ++ reply.drop header then return bytes ++ reply.drop header
            else
              readDpiList feature function header target left (chunk + 1)
                (bytes ++ reply.drop header) 0

/-- The sensor of a device with the older feature: its present value, and its list of levels. -/
def getLegacyDpiInfo (target : UInt8) : StateM FeatureSession (Option DpiInfo) := do
  let current ← request devices net 0x2201 0x2 [0, 0, 0] target
  match current.filter (5 ≤ ·.length) with
  | none => return none
  | some current =>
      let bytes ← readDpiList devices net 0x2201 0x1 1 target 256 0 [] 0
      return some ((DpiInfo.ofLegacy current).withLevels (decodeDpiLevels bytes []))

/-- EXTENDED_ADJUSTABLE_DPI goes first; if it is not there, or does not say what the level is,
ADJUSTABLE_DPI is asked. -/
def getDpiInfo (target : UInt8) : StateM FeatureSession (Option DpiInfo) := do
  let caps ← request devices net 0x2202 0x1 [0, 0, 0] target
  match caps.filter (3 ≤ ·.length) with
  | none => getLegacyDpiInfo devices net target
  | some caps =>
      let current ← request devices net 0x2202 0x5 [0, 0, 0] target
      match current.filter (5 ≤ ·.length) with
      -- advertised, but not answered in the current format
      | none => getLegacyDpiInfo devices net target
      | some current =>
          let bytes ← readDpiList devices net 0x2202 0x2 3 target 256 0 [] 0
          return some ((DpiInfo.ofExtended caps current).withLevels (decodeDpiLevels bytes []))

/-! ## Onboard profiles -/

/-- The onboard profiles of the target have been switched off. -/
def markDisabled (target : UInt8) : StateM FeatureSession PUnit :=
  modify fun s => { s with
    onboardProfilesDisabledByUs := true
    disabled := s.disabled ++ [target] }

/-- The device has its onboard mode back, and the flag is cleared. -/
def markRestored (target : UInt8) : StateM FeatureSession PUnit :=
  modify fun s => { s with
    onboardProfilesDisabledByUs := false
    restored := s.restored ++ [target] }

/-- Does the reply leave open that an onboard profile is active? -/
def onboardActive : Option Bytes → Bool
  | some (state :: _) => state = 0x01
  | _ => true

/-- `disable_onboard_profiles_for_write`: a device in onboard mode is switched to host mode, and
the flag tells of it once that was acknowledged. -/
def disableOnboardProfilesForWrite (target : UInt8) : StateM FeatureSession Bool := do
  let s ← get
  let target := s.transport.targetOf target
  match ← resolveFeatureIndex devices net 0x8100 target with
  -- a plain mouse has nothing to switch off
  | none => return true
  | some index =>
      let reply ← sendFeatureRequest devices net index 0x20 [] target
      -- some mice do not answer this read, and are taken to be in onboard mode
      if onboardActive reply then
        match ← sendFeatureRequest devices net index 0x10 [0x02] target with
        | some _ => do
            markDisabled target
            return true
        | none => return false
      else return true

/-- `restore_onboard_profiles`: the device is switched back, if the flag is set. -/
def restoreOnboardProfiles (target : UInt8) : StateM FeatureSession Bool := do
  let s ← get
  if s.onboardProfilesDisabledByUs then
    let target := s.transport.targetOf target
    match ← resolveFeatureIndex devices net 0x8100 target with
    | none => return true
    | some index =>
        match ← sendFeatureRequest devices net index 0x10 [0x01] target with
        | some _ => do
            markRestored target
            return true
        | none => return false
  else return true

/-! ## The settings -/

/-- `set_dpi`: a value that the device does not list is not sent. -/
def setDpi (dpi : UInt16) (target : UInt8) : StateM FeatureSession Bool := do
  -- whether this succeeds or not
  let _ ← disableOnboardProfilesForWrite devices net target
  match ← getDpiInfo devices net target with
  | none => return false
  | some info =>
      if dpi = 0 ∨ dpi ∉ info.dpiLevels then return false
      else
        match ← resolveFeatureIndex devices net (if info.extended then 0x2202 else 0x2201)
          target with
        | none => return false
        | some index =>
            let hi := (dpi >>> 8).toUInt8
            let lo := dpi.toUInt8
            if info.extended then
              let lod := if info.supportsLiftOffDistance then max 1 (min info.liftOffDistance 3)
                else 0
              return (← sendFeatureRequest devices net index 0x6 [0, hi, lo, hi, lo, lod]
                target).isSome
            else
              return (← sendFeatureRequest devices net index 0x3 [0, hi, lo] target).isSome

/-- A rate is written if the device offers it. -/
def writeRate (feature : UInt16) (listFunction setFunction : UInt8)
    (offers : Bytes → UInt8 → Bool) (code : Option UInt8) (target : UInt8) :
    StateM FeatureSession Bool := do
  match code with
  | none => return false
  | some code =>
      match ← resolveFeatureIndex devices net feature target with
      | none => return false
      | some index =>
          let supported ← sendFeatureRequest devices net index listFunction [] target
          if supported.any (offers · code) then
            return (← sendFeatureRequest devices net index setFunction [code, 0, 0] target).isSome
          else return false

/-- REPORT_RATE has a bit for each period. -/
def setReportRate (hz : UInt32) (target : UInt8) : StateM FeatureSession Bool :=
  writeRate devices net 0x8060 0x0 0x2 reportRateOffers (hzToRateCode false hz) target

/-- EXTENDED_ADJUSTABLE_REPORT_RATE has a bit for each code. -/
def setExtendedReportRate (hz : UInt32) (target : UInt8) : StateM FeatureSession Bool :=
  writeRate devices net 0x8061 0x1 0x3 extendedRateOffers (hzToRateCode true hz) target

/-- `set_polling_rate`: by the older feature, and by the extended one where that has failed. -/
def setPollingRate (hz : UInt32) (target : UInt8) : StateM FeatureSession Bool := do
  let _ ← disableOnboardProfilesForWrite devices net target
  -- the extended rates are tried if the others do not have it
  if ← setReportRate devices net hz target then return true
  else setExtendedReportRate devices net hz target

/-- The distances are 1 for low, 2 for medium and 3 for high. -/
def setLiftOffDistance (distance target : UInt8) : StateM FeatureSession Bool := do
  let _ ← disableOnboardProfilesForWrite devices net target
  match ← getDpiInfo devices net target with
  | none => return false
  | some info =>
      if ¬info.extended ∨ ¬info.supportsLiftOffDistance ∨ distance < 1 ∨ 3 < distance then
        return false
      else
        match ← resolveFeatureIndex devices net 0x2202 target with
        | none => return false
        | some index =>
            let y := if info.supportsY ∧ info.dpiCurrentY ≠ 0 then info.dpiCurrentY
              else info.dpiCurrent
            return (← sendFeatureRequest devices net index 0x6
              [0, (info.dpiCurrent >>> 8).toUInt8, info.dpiCurrent.toUInt8, (y >>> 8).toUInt8,
                y.toUInt8, distance] target).isSome

/-! ## What the settings keep -/

namespace Frame
variable {devices net} {R : FeatureSession → FeatureSession → Prop} (hR : Frame devices net R)
variable {feature id : UInt16} {function target : UInt8} {params : Bytes}
include hR

theorem request : Keeps R (request devices net feature function params target) := by
  unfold FeatureSession.request
  refine hR.seq (hR.resolveFeatureIndex _ _) fun index => ?_
  split
  · exact hR.send _ _ _ _
  · exact hR.ret _

theorem readDpiList (header left : ℕ) : ∀ (chunk : ℕ) (bytes : Bytes) (timeouts : ℕ),
    Keeps R (readDpiList devices net feature function header target left chunk bytes
      timeouts) := by
  -- on the chunks that are left
  induction left with
  | zero => exact fun _ bytes _ => hR.ret bytes
  | succ left ih =>
      intro chunk bytes timeouts
      unfold FeatureSession.readDpiList
      refine hR.seq hR.timeUp fun up => ?_
      split
      · exact hR.ret _
      refine hR.seq hR.request fun reply => ?_
      split
      · split
        · exact hR.ret _
        · exact ih _ _ _
      · split
        · exact hR.ret _
        · exact ih _ _ _

theorem getLegacyDpiInfo : Keeps R (getLegacyDpiInfo devices net target) := by
  unfold FeatureSession.getLegacyDpiInfo
  refine hR.seq hR.request fun current => ?_
  split
  · exact hR.ret _
  · exact hR.seq (hR.readDpiList _ _ _ _ _) fun bytes => hR.ret _

theorem getDpiInfo : Keeps R (getDpiInfo devices net target) := by
  unfold FeatureSession.getDpiInfo
  refine hR.seq hR.request fun caps => ?_
  split
  · exact hR.getLegacyDpiInfo
  refine hR.seq hR.request fun current => ?_
  split
  · exact hR.getLegacyDpiInfo
  · exact hR.seq (hR.readDpiList _ _ _ _ _) fun bytes => hR.ret _

theorem writeRate {listFunction setFunction : UInt8} {offers : Bytes → UInt8 → Bool}
    {code : Option UInt8} :
    Keeps R (writeRate devices net feature listFunction setFunction offers code target) := by
  unfold FeatureSession.writeRate
  split
  · exact hR.ret _
  refine hR.seq (hR.resolveFeatureIndex _ _) fun index => ?_
  split
  · exact hR.ret _
  refine hR.seq (hR.send _ _ _ _) fun supported => ?_
  split
  · exact hR.seq (hR.send _ _ _ _) fun _ => hR.ret _
  · exact hR.ret _

/-- After the onboard profiles, a DPI write keeps what its requests keep. -/
theorem setDpi (dpi : UInt16) (s : FeatureSession) :
    R (disableOnboardProfilesForWrite devices net target s).2
      (setDpi devices net dpi target s).2 := by
  unfold FeatureSession.setDpi
  rw [bind_apply]
  refine hR.seq hR.getDpiInfo (fun info => ?_) _
  split
  · exact hR.ret _
  split
  · exact hR.ret _
  refine hR.seq (hR.resolveFeatureIndex _ _) fun index => ?_
  split
  · exact hR.ret _
  split
  · exact hR.seq (hR.send _ _ _ _) fun _ => hR.ret _
  · exact hR.seq (hR.send _ _ _ _) fun _ => hR.ret _

theorem setPollingRate (hz : UInt32) (s : FeatureSession) :
    R (disableOnboardProfilesForWrite devices net target s).2
      (setPollingRate devices net hz target s).2 := by
  unfold FeatureSession.setPollingRate
  rw [bind_apply]
  refine hR.seq hR.writeRate (fun written => ?_) _
  split
  · exact hR.ret _
  · exact hR.writeRate

theorem setLiftOffDistance (distance : UInt8) (s : FeatureSession) :
    R (disableOnboardProfilesForWrite devices net target s).2
      (setLiftOffDistance devices net distance target s).2 := by
  unfold FeatureSession.setLiftOffDistance
  rw [bind_apply]
  refine hR.seq hR.getDpiInfo (fun info => ?_) _
  split
  · exact hR.ret _
  split
  · exact hR.ret _
  refine hR.seq (hR.resolveFeatureIndex _ _) fun index => ?_
  split
  · exact hR.ret _
  · exact hR.seq (hR.send _ _ _ _) fun _ => hR.ret _

end Frame
end FeatureSession
end AbrekMouse
