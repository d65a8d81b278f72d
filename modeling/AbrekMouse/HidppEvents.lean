import AbrekMouse.FeatureSession
import AbrekMouse.HidppIdentity

/-! # What a notification says

The battery formats of the HID++ features and registers, and the classification of a
notification by the feature map of the device that it is read for.
-/
namespace AbrekMouse
open ProgLib

/-! ## Battery formats -/

namespace BatteryInfo

/-- Millivolts and percent, on the way from empty to full. -/
def curve : List (ℕ × ℕ) :=
  [(3500, 0), (3579, 2), (3646, 5), (3671, 10), (3717, 20), (3751, 30), (3778, 40), (3811, 50),
    (3859, 60), (3922, 70), (3989, 80), (4067, 90), (4186, 100)]

/-- The level between the two points of the curve around the voltage, to the nearest
percent. -/
def levelAt (voltage : ℕ) : List (ℕ × ℕ) → ℕ
  | (lowV, lowP) :: (highV, highP) :: rest =>
      if voltage ≤ highV then
        (2 * (lowP * (highV - lowV) + (highP - lowP) * (voltage - lowV)) + (highV - lowV)) /
          (2 * (highV - lowV))
      else levelAt voltage ((highV, highP) :: rest)
  | _ => 0

/-- `battery_info_from_voltage`: the level is interpolated on a curve. -/
def ofVoltage (voltage : UInt16) (flags : UInt8) : BatteryInfo :=
  { level :=
      if 4186 ≤ voltage then 100
      else if 3500 < voltage then UInt8.ofNat (levelAt voltage.toNat curve)
      else 0
    charging := flags &&& 0x80 ≠ 0 ∧ flags &&& 0x07 = 0 }

/-- The coarse level of UNIFIED_BATTERY, where there is no percentage. -/
def coarseLevel (level : UInt8) : UInt8 :=
  if level = 8 then 90
  else if level = 4 then 50
  else if level = 2 then 20
  else if level = 1 then 5
  else 255

/-- The status tells that the battery is being charged. -/
def statusCharges (status : UInt8) : Bool := status = 0x01 || status = 0x02 || status = 0x04

/-- The status tells that the battery is in use. -/
def statusOnline (status : UInt8) : Bool := status ≠ 0x05 && status ≠ 0x06 && status ≠ 0xFF

/-- `parse_unified_battery`. -/
def parseUnified : Bytes → Option BatteryInfo
  | discharge :: level :: status :: _ => some
      { level :=
          if discharge = 0 ∧ level = 0 ∧ status = 0xFF then 255
          else if discharge ≤ 100 ∧ discharge ≠ 0 then discharge
          else coarseLevel level
        charging := statusCharges status
        online := statusOnline status }
  | _ => none

/-- `parse_battery_status_feature`. -/
def parseStatus : Bytes → Option BatteryInfo
  | discharge :: _ :: status :: _ => some
      { level := if discharge = 0 ∨ 100 < discharge then 255 else discharge
        charging := statusCharges status
        online := statusOnline status }
  | _ => none

/-- Register 0x0D of HID++ 1.0. -/
def parseCharge : Bytes → Option BatteryInfo
  | charge :: _ :: status :: _ => some
      { level := if charge ≤ 100 then charge else 255
        charging := status &&& 0xF0 = 0x50 }
  | _ => none

/-- Register 0x07 of HID++ 1.0: a code for the level, and charging flags. -/
def parseLegacy : Bytes → Option BatteryInfo
  | code :: charging :: _ :: _ => some
      { level :=
          if code = 7 then 90
          else if code = 5 then 50
          else if code = 3 then 20
          else if code = 1 then 5
          else 255
        charging := charging &&& 0x21 = 0x21 }
  | _ => none

/-- `parse_centurion_battery`. -/
def parseCenturion : Bytes → Option BatteryInfo
  | soc :: _ :: status :: _ => some
      { level := if soc ≤ 100 then soc else 255
        charging := status = 1 || status = 2 }
  | _ => none

/-- A reply with a voltage in it. -/
def parseVoltage : Bytes → Option BatteryInfo
  | hi :: lo :: flags :: _ => some (ofVoltage (readBe16 hi lo) flags)
  | _ => none

end BatteryInfo

/-! ## Events -/

/-- What the daemon makes of a notification. -/
inductive EventKind | battery | connection | illumination | generic | unhandled
deriving DecidableEq

/-- `hidpp_notification_event`. -/
structure NotificationEvent where
  deviceIndex : UInt8
  payload : Bytes
  featureId : UInt16 := 0
  kind : EventKind := .unhandled
  battery : Option BatteryInfo := none
  connected : Bool := false
deriving DecidableEq

namespace HidppDev

/-- The feature at a dynamic index. -/
def featureId (d : HidppDev) (index : UInt8) : Option UInt16 :=
  (d.features.find? (·.2 = index)).map Prod.fst

/-- The lighting features are a parameter: their events differ from others in the log line
only. -/
def classifyFeature (lights : List UInt16) (payload : Bytes) (id : UInt16)
    (event : NotificationEvent) : NotificationEvent :=
  if id = 0x1000 then { event with kind := .battery, battery := BatteryInfo.parseStatus payload }
  else if id = 0x1004 then
    { event with kind := .battery, battery := BatteryInfo.parseUnified payload }
  else if id = 0x0104 then
    { event with kind := .battery, battery := BatteryInfo.parseCenturion payload }
  else if id = 0x1001 then
    { event with kind := .battery, battery := BatteryInfo.parseVoltage payload }
  else if id = 0x1D4B then { event with kind := .connection, connected := true }
  else if id ∈ lights then { event with kind := .illumination }
  else { event with kind := .generic }

/-- `classify_hidpp_notification`. -/
def classify (lights : List UInt16) (d : HidppDev) (n : HidppNotification) : NotificationEvent :=
  let event : NotificationEvent := { deviceIndex := n.deviceIndex, payload := n.payload }
  match n.type with
  | .legacyBattery =>
      { event with
        featureId := n.subId.toUInt16
        kind := .battery
        battery :=
          if n.subId = 0x0D then BatteryInfo.parseCharge n.payload
          else BatteryInfo.parseLegacy n.payload }
  | .legacyIllumination => { event with featureId := n.subId.toUInt16, kind := .illumination }
  | .hidpp10 =>
      let event := { event with featureId := n.subId.toUInt16 }
      if n.subId = 0x40 then { event with kind := .connection, connected := false }
      else if n.subId = 0x41 then
        { event with kind := .connection, connected := byteAt n.payload 0 &&& 0x40 = 0 }
      else if n.subId = 0x42 then
        { event with kind := .connection, connected := n.address &&& 0x01 = 0 }
      else if n.subId = 0x4B then { event with kind := .connection, connected := true }
      else event
  | .hidpp20 =>
      match if n.featureIndex = 0 then none else d.featureId n.featureIndex with
      -- not an index of the device, and not guessed
      | none => event
      | some id => classifyFeature lights n.payload id { event with featureId := id }

/-- The battery level that a notification carries. -/
def batteryOf (lights : List UInt16) (d : HidppDev) (n : HidppNotification) :
    Option BatteryInfo :=
  let event := d.classify lights n
  if event.kind = .battery then event.battery else none

end HidppDev

/-- 4007 mV land in the 80 percent bucket. -/
example : let b := BatteryInfo.ofVoltage 0x0FA7 0x80
    80 ≤ b.level ∧ b.level ≤ 89 ∧ b.charging = true := by decide +kernel

end AbrekMouse
