import AbrekMouse.Utf8
import Mathlib.Tactic.SplitIfs

/-! # HID++ reports

The reports that a receiver and its devices exchange with the host: what counts as an
error, as a packet and as a notification.  A report is the bytes that one `read` returns.
-/
namespace AbrekMouse
open ProgLib

/-- A byte of a report. -/
def byteAt (data : Bytes) (k : ℕ) : UInt8 := data.getD k 0

/-- The report ids of HID++. -/
def isHidppReport (c : UInt8) : Bool := c = 0x10 || c = 0x11 || c = 0x12

/-- `is_hidpp_error`: a report that tells of an error, of either generation. -/
def isHidppError (data : Bytes) : Bool :=
  4 ≤ data.length && isHidppReport (byteAt data 0) &&
    (byteAt data 2 = 0xFF || byteAt data 2 = 0x8F)

/-- The high nibble of a request byte, or the bare function. -/
def normalizeFunctionId (functionId : UInt8) : UInt8 :=
  if functionId ≤ 0x0F then functionId else functionId >>> 4 &&& 0x0F

/-- The byte that carries a function and a software id. -/
def functionByte (function softwareId : UInt8) : UInt8 := function <<< 4 ||| softwareId &&& 0x0F

/-! ## Packets -/

/-- The three lengths of a packet. -/
inductive PacketForm | short | long | veryLong
deriving DecidableEq

namespace PacketForm

/-- The report id of a packet of that length. -/
def reportId : PacketForm → UInt8
  | short => 0x10
  | long => 0x11
  | veryLong => 0x12

/-- The length of a packet, with its report id. -/
def size : PacketForm → ℕ
  | short => 7
  | long => 20
  | veryLong => 64

end PacketForm

/-- `hidpp_packet`: the header of a request and its parameters. -/
structure HidppPacket where
  reportId : UInt8
  deviceIndex : UInt8
  featureIndex : UInt8
  functionId : UInt8
  softwareId : UInt8
  params : Bytes
deriving DecidableEq

namespace HidppPacket

/-- `to_bytes`: the packet as it is written to the node. -/
def toBytes (p : HidppPacket) : Bytes :=
  [p.reportId, p.deviceIndex, p.featureIndex,
    functionByte (normalizeFunctionId p.functionId) p.softwareId] ++ p.params

/-- `from_bytes` of a packet of the form. -/
def fromBytes (form : PacketForm) (data : Bytes) : Option HidppPacket :=
  if data.length ≠ form.size ∨ byteAt data 0 ≠ form.reportId then none
  else some
    { reportId := byteAt data 0
      deviceIndex := byteAt data 1
      featureIndex := byteAt data 2
      functionId := byteAt data 3 >>> 4
      softwareId := byteAt data 3 &&& 0x0F
      params := data.drop 4 }

end HidppPacket

/-! ## Notifications -/

/-- The kinds of notifications that the library tells apart. -/
inductive NotificationKind | legacyBattery | legacyIllumination | hidpp20 | hidpp10
deriving DecidableEq

/-- `hidpp_notification`: a report that no request has asked for. -/
structure HidppNotification where
  reportId : UInt8
  deviceIndex : UInt8
  subId : UInt8
  address : UInt8
  featureIndex : UInt8
  type : NotificationKind
  payload : Bytes
deriving DecidableEq

namespace HidppNotification

/-- HID++ 2.0 notifications have the software id 0, those of HID++ 1.0 a sub-id from 0x40
to 0x7F; two old forms are known by their sub-id. -/
def fromBytes (data : Bytes) : Option HidppNotification :=
  let subId := byteAt data 2
  let address := byteAt data 3
  let hidpp10 := 0x40 ≤ subId
  let legacyBattery := (subId = 0x07 ∨ subId = 0x0D) ∧ data.length = 7 ∧ byteAt data 6 = 0
  let legacyIllumination := subId = 0x17 ∧ data.length = 7
  let hidpp20 := subId < 0x40 ∧ address &&& 0x0F = 0
  if data.length ≠ 7 ∧ data.length ≠ 20 ∧ data.length ≠ 64 then none
  else if ¬isHidppReport (byteAt data 0) then none
  else if subId &&& 0x80 ≠ 0 then none
  else if ¬hidpp10 ∧ ¬legacyBattery ∧ ¬legacyIllumination ∧ ¬hidpp20 then none
  else if subId = 0 then none
  else some
    { reportId := byteAt data 0
      deviceIndex := byteAt data 1
      subId := subId
      address := address
      featureIndex := subId
      type :=
        if legacyBattery then .legacyBattery
        else if legacyIllumination then .legacyIllumination
        else if hidpp20 then .hidpp20
        else .hidpp10
      payload := data.drop 4 }

end HidppNotification

/-- An error is no notification. -/
theorem fromBytes_of_isHidppError {data : Bytes} (h : isHidppError data = true) :
    HidppNotification.fromBytes data = none := by
  have hsub : byteAt data 2 &&& 0x80 ≠ 0 := by
    simp only [isHidppError, Bool.and_eq_true, Bool.or_eq_true, decide_eq_true_eq] at h
    rcases h.2 with h | h
    · rw [h]
      decide
    · rw [h]
      decide
  unfold HidppNotification.fromBytes
  dsimp only
  split_ifs with hlength hreport
  · rfl
  · rfl
  · rfl

/-- A notification has the length of a packet. -/
theorem fromBytes_of_length {data : Bytes}
    (h : data.length ≠ 7 ∧ data.length ≠ 20 ∧ data.length ≠ 64) :
    HidppNotification.fromBytes data = none :=
  if_pos h

end AbrekMouse
