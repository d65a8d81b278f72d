import AbrekMouse.PairingInfo
import AbrekMouse.RefusedWrites

/-! # What a device says of itself

`get_device_info` asks a HID++ 2.0 device for its names, its firmware and its unit.  A name
comes in pieces, each at an offset, and the next offset is 16 on.  A reply has 16 bytes.  Those
of the friendly name begin with the offset, so 15 are left for the name, and the sixteenth is
never asked for: a longer friendly name is incomplete, and then it is not kept at all
(`names_exact_iff`).

The id of the feature DEVICE_UNIT_ID is a parameter.
-/
namespace AbrekMouse
open ProgLib

/-! ## Firmware -/

/-- A part of the firmware with its name and version. -/
structure HidppFirmwareRecord where
  level : UInt8
  name : Bytes := []
  major : UInt8 := 0
  minor : UInt8 := 0
  build : UInt16 := 0
  transportFlags : UInt8 := 0
  modelId : Bytes := []
  extrasHex : Bytes := []

/-- `parse_firmware_record`: the level tells how the rest is laid out. -/
def hidppParseFirmwareRecord : Bytes → Option HidppFirmwareRecord
  | [] => none
  | first :: rest =>
      let payload := first :: rest
      let full : Bool := 8 ≤ payload.length
      let level := first &&& 0x0F
      some {
        level := level
        name := if 4 ≤ payload.length then boundedString (rest.take 3) else []
        major :=
          if full then byteAt payload 4
          -- the record of the hardware is a level and a revision
          else if level = 2 ∧ 2 ≤ payload.length then byteAt payload 1 else 0
        minor := if full then byteAt payload 5 else 0
        build := if full then readBe16 (byteAt payload 6) (byteAt payload 7) else 0
        transportFlags := if 9 ≤ payload.length then byteAt payload 8 else 0
        modelId := if 15 ≤ payload.length then bytesToHex ((payload.drop 9).take 6) else []
        extrasHex := bytesToHex (payload.drop (if full then 8 else 1)) }

/-! ## The information -/

/-- `hidpp_device_info`: what the library tells of a device. -/
structure HidppDeviceInfo where
  protocolVersion : UInt8
  target : UInt8
  name : Bytes := []
  friendlyName : Bytes := []
  deviceKind : UInt8 := 0
  unitId : Bytes := []
  transportFlags : UInt8 := 0
  modelId : Bytes := []
  serial : Bytes := []
  bluetoothId : Bytes := []
  bluetoothLeId : Bytes := []
  wirelessPid : Bytes := []
  usbId : Bytes := []
  firmwareRecords : List HidppFirmwareRecord := []
  firmwareName : Bytes := []
  firmwareMajor : UInt8 := 0
  firmwareMinor : UInt8 := 0
  firmwareBuild : UInt16 := 0
  firmwareVersion : UInt32 := 0

namespace HidppDeviceInfo
variable (info : HidppDeviceInfo)

/-- The next two digits of the model, if the transport has the flag. -/
def takeId (bit : UInt8) (idOffset : ℕ) : Bytes × ℕ :=
  if info.transportFlags &&& bit = 0 ∨ info.modelId.length < idOffset + 2 then ([], idOffset)
  else ((info.modelId.drop idOffset).take 2, idOffset + 2)

/-- The ids of the transports that the device has, taken from its firmware entry in their order. -/
def withIds : HidppDeviceInfo :=
  let (bluetooth, idOffset) := info.takeId 0x01 0
  let (bluetoothLe, idOffset) := info.takeId 0x02 idOffset
  let (wireless, idOffset) := info.takeId 0x04 idOffset
  let (usb, _) := info.takeId 0x08 idOffset
  { info with
    bluetoothId := bluetooth
    bluetoothLeId := bluetoothLe
    wirelessPid := wireless
    usbId := usb }

/-- The number of firmware records comes with the identity of the device. -/
def withIdentity (count : Bytes) : HidppDeviceInfo :=
  if 13 ≤ count.length then
    let unitId := bytesToHex ((count.drop 1).take 4)
    withIds { info with
      unitId := unitId
      transportFlags := byteAt count 6
      modelId := bytesToHex ((count.drop 7).take 6)
      serial := if info.serial = [] then unitId else info.serial }
  else info

/-- All records are kept, and the first of the firmware itself is the version. -/
def withRecord (parsed : HidppFirmwareRecord) : HidppDeviceInfo :=
  let info := { info with firmwareRecords := info.firmwareRecords ++ [parsed] }
  if info.firmwareName = [] ∧ (parsed.level = 0 ∨ parsed.level = 1) then
    { info with
      firmwareName := parsed.name
      firmwareMajor := parsed.major
      firmwareMinor := parsed.minor
      firmwareBuild := parsed.build
      firmwareVersion := parsed.major.toUInt32 <<< 24 ||| parsed.minor.toUInt32 <<< 16 |||
        parsed.build.toUInt32 }
  else info

/-- The names are the same. -/
def SameNames (info info' : HidppDeviceInfo) : Prop :=
  info'.name = info.name ∧ info'.friendlyName = info.friendlyName

theorem SameNames.trans {info info' info'' : HidppDeviceInfo} (h : info.SameNames info')
    (h' : info'.SameNames info'') : info.SameNames info'' :=
  ⟨h'.1.trans h.1, h'.2.trans h.2⟩

theorem withIdentity_names (count : Bytes) : info.SameNames (info.withIdentity count) := by
  unfold withIdentity
  split
  · exact ⟨rfl, rfl⟩
  · exact ⟨rfl, rfl⟩

theorem withRecord_names (parsed : HidppFirmwareRecord) :
    info.SameNames (info.withRecord parsed) := by
  unfold withRecord
  dsimp only
  split_ifs
  · exact ⟨rfl, rfl⟩
  · exact ⟨rfl, rfl⟩

end HidppDeviceInfo

namespace FeatureSession
variable (devices : UInt8 → HidppDevice) (net : Network)

/-- `feature_request`: a request to a feature by its id, which is resolved first. -/
def featureRequest (feature : UInt16) (function : UInt8) (params : Bytes) (target : UInt8) :
    StateM FeatureSession (Option Bytes) := do
  if feature = 0 ∨ 16 < params.length then return none
  else
    let s ← get
    request devices net feature function params (s.transport.targetOf target)

/-- A name, piece by piece.  The pieces begin behind the first `skip` bytes of the replies. -/
def readName (feature : UInt16) (skip length : ℕ) (target : UInt8) :
    ℕ → ℕ → Bytes → StateM FeatureSession Bytes
  | 0, _, name => return name
  | left + 1, offset, name => do
      if offset < length then
        let chunk ← featureRequest devices net feature 0x10 [UInt8.ofNat offset] target
        match chunk.filter (skip < ·.length) with
        | none => return name
        | some chunk =>
            let wanted := min 16 (length - offset)
            readName feature skip length target left (offset + 16)
              (name ++ (chunk.drop skip).take wanted)
      else return name

/-- The name of the device, chunk by chunk. -/
def readDeviceName (target : UInt8) (info : HidppDeviceInfo) :
    StateM FeatureSession HidppDeviceInfo := do
  match ← featureRequest devices net 0x0005 0 [] target with
  | some (length :: _) =>
      let length := min length.toNat 255
      let name ← readName devices net 0x0005 0 length target length 0 []
      return { info with name := name }
  | _ => return info

/-- The kind of the device. -/
def readDeviceKind (target : UInt8) (info : HidppDeviceInfo) :
    StateM FeatureSession HidppDeviceInfo := do
  match ← featureRequest devices net 0x0005 0x20 [] target with
  | some (kind :: _) => return { info with deviceKind := kind }
  | _ => return info

/-- A friendly name is kept if it is complete. -/
def readFriendlyName (target : UInt8) (info : HidppDeviceInfo) :
    StateM FeatureSession HidppDeviceInfo := do
  match ← featureRequest devices net 0x0007 0 [] target with
  | some (length :: _) =>
      let length := min length.toNat 255
      let name ← readName devices net 0x0007 1 length target length 0 []
      return if name.length = length then { info with friendlyName := name } else info
  | _ => return info

/-- The firmware records from `index` on, until three in a row have failed. -/
def readRecords (target : UInt8) :
    ℕ → ℕ → ℕ → HidppDeviceInfo → StateM FeatureSession HidppDeviceInfo
  | 0, _, _, info => return info
  | left + 1, index, timeouts, info => do
      match ← featureRequest devices net 0x0003 0x10 [UInt8.ofNat index] target with
      | none =>
          if 3 ≤ timeouts + 1 then return info
          else readRecords target left (index + 1) (timeouts + 1) info
      | some record =>
          let info := match hidppParseFirmwareRecord record with
            | some parsed => info.withRecord parsed
            | none => info
          readRecords target left (index + 1) 0 info

/-- The firmware entries, with the serial number where there is one. -/
def readFirmware (target : UInt8) (info : HidppDeviceInfo) :
    StateM FeatureSession HidppDeviceInfo := do
  match ← featureRequest devices net 0x0003 0 [] target with
  | some (records :: rest) =>
      readRecords devices net target (min records.toNat 8) 0 0
        (info.withIdentity (records :: rest))
  | _ => return info

/-- The id of the unit, if four bytes of it come. -/
def readUnitId (unitIdFeature : UInt16) (target : UInt8) (info : HidppDeviceInfo) :
    StateM FeatureSession HidppDeviceInfo := do
  let unit ← featureRequest devices net unitIdFeature 0 [] target
  match unit.filter (4 ≤ ·.length) with
  | some unit => return { info with unitId := bytesToHex (unit.take 4) }
  | none => return info

/-- A part that is read if its feature is there. -/
def readIf (present : Bool) (read : HidppDeviceInfo → StateM FeatureSession HidppDeviceInfo)
    (info : HidppDeviceInfo) : StateM FeatureSession HidppDeviceInfo :=
  if present then read info else return info

/-- The queries in the order of the source, each for a feature that the device has. -/
def readDeviceInfo (hasFeature : UInt16 → Bool) (unitIdFeature : UInt16) (target : UInt8) :
    StateM FeatureSession HidppDeviceInfo := do
  let s ← get
  let info : HidppDeviceInfo :=
    { protocolVersion := 2
      target := s.transport.targetOf target }
  let info ← readIf (hasFeature 0x0005) (readDeviceName devices net target) info
  let info ← readIf (hasFeature 0x0005) (readDeviceKind devices net target) info
  let info ← readIf (hasFeature 0x0007) (readFriendlyName devices net target) info
  let info ← readIf (hasFeature 0x0003) (readFirmware devices net target) info
  let info ← readIf (hasFeature unitIdFeature) (readUnitId devices net unitIdFeature target) info
  return if info.serial = [] then { info with serial := info.unitId } else info

/-- `get_device_info`: the features are listed first, and a device with neither names nor firmware
entries tells nothing. -/
def getDeviceInfo (unitIdFeature : UInt16) (target : UInt8) :
    StateM FeatureSession (Option HidppDeviceInfo) := do
  let features ← getFeatureSet devices net target
  let hasFeature (id : UInt16) : Bool := features.any (·.1 = id)
  if ¬hasFeature 0x0003 ∧ ¬hasFeature 0x0005 then return none
  else return some (← readDeviceInfo devices net hasFeature unitIdFeature target)

end FeatureSession

/-! ## Names in pieces -/

/-- The pieces of a name, at offsets that are 16 apart. -/
def namePieces (width : ℕ) (name : Bytes) : ℕ → ℕ → Bytes
  | 0, _ => []
  | left + 1, offset =>
      if offset < name.length then
        (name.drop offset).take width ++ namePieces width name left (offset + 16)
      else []

variable {name friendly : Bytes}

/-- Pieces of 16 bytes make the name. -/
theorem namePieces_full : ∀ {left offset : ℕ}, name.length ≤ offset + 16 * left →
    namePieces 16 name left offset = name.drop offset
  | 0, _, h => (List.drop_eq_nil_of_le h).symm
  | left + 1, offset, h => by
      unfold namePieces
      split_ifs with hoffset
      · rw [namePieces_full (by omega), ← List.drop_drop, List.take_append_drop]
      · exact (List.drop_eq_nil_of_le (by omega)).symm

/-- A name that fits into one piece is there. -/
theorem namePieces_one {width left : ℕ} (hwidth : width ≤ 16) (h : name.length ≤ width)
    (hleft : name.length ≤ left) : namePieces width name left 0 = name := by
  cases left with
  | zero => exact (List.eq_nil_of_length_eq_zero (Nat.le_zero.mp hleft)).symm
  | succ left =>
      unfold namePieces
      split_ifs with hpos
      · have hrest : namePieces width name left (0 + 16) = [] := by
          cases left with
          | zero => rfl
          | succ left => exact if_neg (by omega)
        rw [hrest, List.append_nil, List.drop_zero, List.take_of_length_le h]
      · exact (List.eq_nil_of_length_eq_zero (by omega)).symm

theorem length_namePieces {width : ℕ} (hwidth : width ≤ 16) : ∀ {left offset : ℕ},
    (namePieces width name left offset).length ≤ name.length - offset
  | 0, _ => Nat.zero_le _
  | left + 1, offset => by
      unfold namePieces
      split_ifs with hoffset
      · have hrest : (namePieces width name left (offset + 16)).length ≤
            name.length - (offset + 16) := length_namePieces hwidth
        rw [List.length_append, List.length_take, List.length_drop]
        omega
      · exact Nat.zero_le _

/-- **Of a longer name, a byte is missing.** -/
theorem length_namePieces_lt {width left : ℕ} (hwidth : width < 16) (h : width < name.length) :
    (namePieces width name left 0).length < name.length := by
  cases left with
  | zero => exact Nat.zero_lt_of_lt h
  | succ left =>
      have hrest : (namePieces width name left (0 + 16)).length ≤ name.length - (0 + 16) :=
        length_namePieces (Nat.le_of_lt hwidth)
      unfold namePieces
      rw [if_pos (Nat.zero_lt_of_lt h), List.length_append, List.length_take, List.length_drop]
      omega

/-! ## Devices with names -/

/-- The device holds a name of this feature: function 0 says how long it is, and function 1
replies with what is at an offset, in 16 bytes that begin with a header. -/
structure HidppDevice.HoldsName (d : HidppDevice) (feature : UInt16) (header : UInt8 → Bytes)
    (name : Bytes) : Prop where
  present : d.indexOf feature ≠ 0
  length : ∀ r, d.Asks r feature 0 → ∃ rest, d.reply r = some (UInt8.ofNat name.length :: rest)
  chunk : ∀ r offset, d.Asks r feature 1 → r.params = [offset] →
    ∃ rest, d.reply r = some (header offset ++ rest) ∧ (header offset ++ rest).length = 16 ∧
      (name.drop offset.toNat).take rest.length <+: rest

/-- What is wanted of a reply is the piece of the name. -/
theorem take_wanted {rest : Bytes} {offset : ℕ} (hrest : rest.length ≤ 16)
    (h : (name.drop offset).take rest.length <+: rest) :
    rest.take (min 16 (name.length - offset)) = (name.drop offset).take rest.length := by
  have hlength : ((name.drop offset).take rest.length).length =
      min rest.length (name.length - offset) := by
    rw [List.length_take, List.length_drop]
  by_cases hshort : name.length - offset ≤ rest.length
  · -- the name ends in this piece
    have hwanted : min 16 (name.length - offset) =
        ((name.drop offset).take rest.length).length := by omega
    rw [hwanted]
    exact (List.prefix_iff_eq_take.mp h).symm
  · have hsame := h.eq_of_length (by omega)
    rw [hsame]
    exact List.take_of_length_le (by omega)

namespace FeatureSession
variable {devices : UInt8 → HidppDevice} {net : Network} {V : UInt8 → UInt16 → UInt8 → Bytes → Prop}
open HidppDeviceInfo (SameNames)
variable {base : FeatureSession} {id unitIdFeature : UInt16} {function wire target : UInt8}
variable {params : Bytes} {header : UInt8 → Bytes} {width : ℕ} {info : HidppDeviceInfo}

theorem featureRequest_present (hnet : net.Answers) (hwire : normalizeFunctionId function = wire)
    (hparams : params.length ≤ 16) (hid : id ≠ 0) (hread : (id, wire) ∉ stateChanging)
    (hthere : (devices (base.transport.targetOf target)).indexOf id ≠ 0) :
    Hoare (Traced devices V base) (featureRequest devices net id function params target)
      fun taken s => Traced devices V base s ∧
        ∃ r, (devices (base.transport.targetOf target)).Asks r id wire ∧ r.params = params ∧
          taken = (devices (base.transport.targetOf target)).reply r := by
  intro s hs
  have htarget := targetOf_targetOf base.transport target
  unfold featureRequest
  rw [if_neg (by rintro (h | h); exacts [hid h, Nat.not_lt.mpr hparams h])]
  rw [bind_apply, get_apply]
  dsimp only
  rw [hs.targetOf]
  rw [← htarget] at hthere
  obtain ⟨hs, h⟩ := request_present (V := V) hnet hwire hparams hid hread hthere s hs
  rw [htarget] at h
  exact ⟨hs, h⟩

/-- The device says how long the name is. -/
theorem length_answered (hnet : net.Answers) (hid : id ≠ 0) (hread : (id, 0) ∉ stateChanging)
    (h : (devices (base.transport.targetOf target)).HoldsName id header name) :
    Hoare (Traced devices V base) (featureRequest devices net id 0 [] target)
      fun taken s => Traced devices V base s ∧
        ∃ rest, taken = some (UInt8.ofNat name.length :: rest) := by
  intro s hs
  have hwire : normalizeFunctionId 0 = 0 := rfl
  have hparams : List.length ([] : Bytes) ≤ 16 := Nat.zero_le _
  obtain ⟨hs, r, hasks, -, htaken⟩ :=
    featureRequest_present hnet hwire hparams hid hread h.present s hs
  obtain ⟨rest, hreply⟩ := h.length r hasks
  exact ⟨hs, rest, htaken.trans hreply⟩

/-- The device gives the piece at an offset. -/
theorem piece_answered (hnet : net.Answers) (hid : id ≠ 0) (hread : (id, 1) ∉ stateChanging)
    {offset : ℕ} (hoffset : offset < 256)
    (h : (devices (base.transport.targetOf target)).HoldsName id header name) :
    Hoare (Traced devices V base)
      (featureRequest devices net id 0x10 [UInt8.ofNat offset] target)
      fun taken s => Traced devices V base s ∧
        ∃ rest, taken = some (header (UInt8.ofNat offset) ++ rest) ∧
          (header (UInt8.ofNat offset) ++ rest).length = 16 ∧
          (name.drop offset).take rest.length <+: rest := by
  intro s hs
  have hwire : normalizeFunctionId 0x10 = 1 := rfl
  have hparams : List.length [UInt8.ofNat offset] ≤ 16 := Nat.le_add_left 1 15
  obtain ⟨hs, r, hasks, hasked, htaken⟩ :=
    featureRequest_present hnet hwire hparams hid hread h.present s hs
  obtain ⟨rest, hreply, hlength, hpiece⟩ := h.chunk r _ hasks hasked
  rw [UInt8.toNat_ofNat', Nat.mod_eq_of_lt hoffset] at hpiece
  exact ⟨hs, rest, htaken.trans hreply, hlength, hpiece⟩

/-- **The name that is read is made of the pieces.** -/
theorem readName_pieces (hnet : net.Answers) (id : UInt16) (hid : id ≠ 0)
    (hread : (id, 1) ∉ stateChanging) (skip : ℕ) (hskip : skip < 16)
    (hheader : ∀ offset, (header offset).length = skip) (hname : name.length ≤ 255)
    (h : (devices (base.transport.targetOf target)).HoldsName id header name) :
    ∀ (left offset : ℕ) (read : Bytes),
    Hoare (Traced devices V base)
      (readName devices net id skip name.length target left offset read)
      fun result s => Traced devices V base s ∧
        result = read ++ namePieces (16 - skip) name left offset := by
  intro left
  -- on the pieces that are left
  induction left with
  | zero => exact fun _ read => Hoare.pure fun s hs => ⟨hs, (List.append_nil read).symm⟩
  | succ left ih =>
      intro offset read
      unfold readName namePieces
      split_ifs with hoffset
      · refine Hoare.bind (piece_answered hnet hid hread (by omega) h) fun taken => ?_
        rintro s ⟨hs, rest, rfl, hlength, hpiece⟩
        rw [List.length_append, hheader] at hlength
        have hrest : rest.length = 16 - skip := by omega
        have hfilter : (some (header (UInt8.ofNat offset) ++ rest)).filter (skip < ·.length) =
            some (header (UInt8.ofNat offset) ++ rest) := by
          rw [Option.filter_eq_some_iff, List.length_append, hheader, decide_eq_true_iff]
          exact ⟨rfl, by omega⟩
        rw [hfilter]
        dsimp only
        rw [List.drop_left' (hheader _), take_wanted (by omega) hpiece, hrest, ← List.append_assoc]
        exact ih _ _ s hs
      · exact Hoare.pure fun s hs => ⟨hs, (List.append_nil read).symm⟩

theorem readDeviceName_name (hnet : net.Answers) (hname : name.length ≤ 255)
    (h : (devices (base.transport.targetOf target)).HoldsName 0x0005 (fun _ => []) name) :
    Hoare (Traced devices V base) (readDeviceName devices net target info) fun info' s =>
      Traced devices V base s ∧ info' = { info with name := name } := by
  refine Hoare.bind (length_answered hnet (by decide) (by decide) h) fun taken => ?_
  rintro s ⟨hs, rest, rfl⟩
  dsimp only
  have hlength : min (UInt8.ofNat name.length).toNat 255 = name.length := by
    rw [UInt8.toNat_ofNat', Nat.mod_eq_of_lt (by omega), Nat.min_eq_left hname]
  rw [hlength]
  obtain ⟨hs, hread⟩ := readName_pieces hnet 0x0005 (by decide) (by decide) 0 (by decide)
    (fun _ => rfl) hname h name.length 0 [] s hs
  rw [Nat.sub_zero, namePieces_full (by omega), List.nil_append, List.drop_zero] at hread
  rw [bind_apply, hread]
  exact ⟨hs, rfl⟩

theorem readFriendlyName_name (hnet : net.Answers) (hpos : 0 < friendly.length)
    (hfriendly : friendly.length ≤ 255) (hinfo : info.friendlyName = [])
    (h : (devices (base.transport.targetOf target)).HoldsName 0x0007 (fun o => [o]) friendly) :
    Hoare (Traced devices V base) (readFriendlyName devices net target info) fun info' s =>
      Traced devices V base s ∧ info'.name = info.name ∧
        (info'.friendlyName = friendly ↔ friendly.length ≤ 15) := by
  refine Hoare.bind (length_answered hnet (by decide) (by decide) h) fun taken => ?_
  rintro s ⟨hs, rest, rfl⟩
  dsimp only
  have hlength : min (UInt8.ofNat friendly.length).toNat 255 = friendly.length := by
    rw [UInt8.toNat_ofNat', Nat.mod_eq_of_lt (by omega), Nat.min_eq_left hfriendly]
  rw [hlength]
  obtain ⟨hs, hread⟩ := readName_pieces hnet 0x0007 (by decide) (by decide) 1 (by decide)
    (fun _ => rfl) hfriendly h friendly.length 0 [] s hs
  rw [List.nil_append] at hread
  rw [bind_apply, hread]
  by_cases hshort : friendly.length ≤ 15
  · rw [namePieces_one (by decide) hshort le_rfl, if_pos rfl]
    exact ⟨hs, rfl, iff_of_true rfl hshort⟩
  · have hlt : (namePieces 15 friendly friendly.length 0).length < friendly.length :=
      length_namePieces_lt (by decide) (Nat.lt_of_not_le hshort)
    rw [if_neg (Nat.ne_of_lt hlt)]
    refine ⟨hs, rfl, iff_of_false (fun hsame => ?_) hshort⟩
    have hempty : [] = friendly := hinfo.symm.trans hsame
    rw [← hempty] at hpos
    exact absurd hpos (Nat.lt_irrefl 0)

theorem readDeviceKind_names (hnet : net.Answers)
    (hthere : (devices (base.transport.targetOf target)).indexOf 0x0005 ≠ 0) :
    Hoare (Traced devices V base) (readDeviceKind devices net target info) fun info' s =>
      Traced devices V base s ∧ SameNames info info' := by
  intro s hs
  have hwire : normalizeFunctionId 0x20 = 2 := rfl
  have hparams : List.length ([] : Bytes) ≤ 16 := Nat.zero_le _
  obtain ⟨hs, -⟩ := featureRequest_present hnet hwire hparams (by decide) (by decide) hthere s hs
  unfold readDeviceKind
  rw [bind_apply]
  generalize featureRequest devices net 0x0005 0x20 [] target s = asked at hs ⊢
  obtain ⟨_ | _ | ⟨kind, rest⟩, s⟩ := asked
  · exact ⟨hs, rfl, rfl⟩
  · exact ⟨hs, rfl, rfl⟩
  · exact ⟨hs, rfl, rfl⟩

theorem readRecords_names (left : ℕ) : ∀ (index timeouts : ℕ) (info : HidppDeviceInfo)
    (s : FeatureSession),
    SameNames info (readRecords devices net target left index timeouts info s).1 := by
  -- on the records that are left
  induction left with
  | zero => exact fun _ _ _ _ => ⟨rfl, rfl⟩
  | succ left ih =>
      intro index timeouts info s
      unfold readRecords
      rw [bind_apply]
      generalize featureRequest devices net 0x0003 0x10 [UInt8.ofNat index] target s = asked
      obtain ⟨_ | record, s⟩ := asked
      · dsimp only
        split_ifs
        · exact ⟨rfl, rfl⟩
        · exact ih _ _ _ _
      · dsimp only
        refine SameNames.trans ?_ (ih _ _ _ _)
        cases hidppParseFirmwareRecord record with
        | none => exact ⟨rfl, rfl⟩
        | some parsed => exact info.withRecord_names parsed

theorem readFirmware_names (s : FeatureSession) :
    SameNames info (readFirmware devices net target info s).1 := by
  unfold readFirmware
  rw [bind_apply]
  generalize featureRequest devices net 0x0003 0 [] target s = asked
  obtain ⟨_ | _ | ⟨records, rest⟩, s⟩ := asked
  · exact ⟨rfl, rfl⟩
  · exact ⟨rfl, rfl⟩
  · exact (info.withIdentity_names _).trans (readRecords_names _ _ _ _ _)

theorem readUnitId_names (s : FeatureSession) :
    SameNames info (readUnitId devices net unitIdFeature target info s).1 := by
  unfold readUnitId
  rw [bind_apply]
  generalize featureRequest devices net unitIdFeature 0 [] target s = asked
  cases asked.1.filter (4 ≤ ·.length) with
  | none => exact ⟨rfl, rfl⟩
  | some unit => exact ⟨rfl, rfl⟩

theorem readIf_names {present : Bool}
    {read : HidppDeviceInfo → StateM FeatureSession HidppDeviceInfo}
    (h : ∀ info s, SameNames info (read info s).1) (s : FeatureSession) :
    SameNames info (readIf present read info s).1 := by
  unfold readIf
  split
  · exact h info s
  · exact ⟨rfl, rfl⟩

/-- What is read of the names stays as it is. -/
theorem readDeviceInfo_names (hnet : net.Answers) {hasFeature : UInt16 → Bool}
    (hname : name.length ≤ 255) (hpos : 0 < friendly.length) (hfriendly : friendly.length ≤ 255)
    (hholds : (devices (base.transport.targetOf target)).HoldsName 0x0005 (fun _ => []) name)
    (hholdsFriendly :
      (devices (base.transport.targetOf target)).HoldsName 0x0007 (fun o => [o]) friendly)
    (hhas : hasFeature 0x0005 = true) (hhasFriendly : hasFeature 0x0007 = true) :
    Hoare (Traced devices V base) (readDeviceInfo devices net hasFeature unitIdFeature target)
      fun info _ => info.name = name ∧ (info.friendlyName = friendly ↔ friendly.length ≤ 15) := by
  unfold readDeviceInfo
  rw [hhas, hhasFriendly]
  refine Hoare.bind (Q := fun _ s => Traced devices V base s) (fun s hs => hs) fun s₀ => ?_
  refine Hoare.bind (readDeviceName_name hnet hname hholds) fun info => ?_
  refine Hoare.bind (Q := fun info s => Traced devices V base s ∧ info.name = name ∧
    info.friendlyName = []) ?_ fun info => ?_
  · rintro s ⟨hs, hinfo⟩
    obtain ⟨hs, hsame⟩ := readDeviceKind_names hnet hholds.present s hs
    exact ⟨hs, hsame.1.trans (congrArg _ hinfo), hsame.2.trans (congrArg _ hinfo)⟩
  refine Hoare.bind (Q := fun info _ => info.name = name ∧
    (info.friendlyName = friendly ↔ friendly.length ≤ 15)) ?_ fun info => ?_
  · rintro s ⟨hs, hnamed, hempty⟩
    obtain ⟨-, hsame, hiff⟩ := readFriendlyName_name hnet hpos hfriendly hempty hholdsFriendly s hs
    exact ⟨hsame.trans hnamed, hiff⟩
  -- nothing else is a name
  rintro s ⟨hnamed, hiff⟩
  rw [bind_apply, bind_apply]
  have hfirmware : SameNames info (readIf (hasFeature 0x0003) (readFirmware devices net target)
      info s).1 := readIf_names (fun _ _ => readFirmware_names _) s
  generalize readIf (hasFeature 0x0003) (readFirmware devices net target) info s = firmware
    at hfirmware ⊢
  have hunit : SameNames firmware.1 (readIf (hasFeature unitIdFeature)
      (readUnitId devices net unitIdFeature target) firmware.1 firmware.2).1 :=
    readIf_names (fun _ _ => readUnitId_names _) _
  generalize readIf (hasFeature unitIdFeature) (readUnitId devices net unitIdFeature target)
    firmware.1 firmware.2 = unit at hunit ⊢
  obtain ⟨hsame, hsameFriendly⟩ := hfirmware.trans hunit
  have hserial : SameNames unit.1
      (if unit.1.serial = [] then { unit.1 with serial := unit.1.unitId } else unit.1) := by
    split
    · exact ⟨rfl, rfl⟩
    · exact ⟨rfl, rfl⟩
  refine ⟨hserial.1.trans (hsame.trans hnamed), ?_⟩
  rw [← hiff, ← hsameFriendly]
  exact Eq.congr_left hserial.2

/-- A feature that is there is in the feature set. -/
theorem hasFeature_of_present (hnet : net.Answers) {s : FeatureSession}
    (hs : s.CachesComplete devices)
    (hthere : (devices (s.transport.targetOf target)).indexOf id ≠ 0) :
    (getFeatureSet devices net target s).1.any (·.1 = id) = true := by
  have hextends : Extends (Exchange.Answered devices) s (getFeatureSet devices net target s).2 :=
    getFeatureSet_extends (yields_answered hnet) s
  have hperm := getFeatureSet_complete hs (answeredFrom_of_extends hextends)
  have hindexed : (id, UInt8.ofNat ((devices (s.transport.targetOf target)).indexOf id)) ∈
      (devices (s.transport.targetOf target)).table := by
    refine List.mem_filterMap.mpr ⟨(devices (s.transport.targetOf target)).indexOf id,
      List.mem_range.mpr (Nat.lt_succ_of_le HidppDevice.indexOf_le), ?_⟩
    rw [HidppDevice.idAt_indexOf hthere]
    rfl
  exact List.any_eq_true.mpr ⟨_, hperm.mem_iff.mpr hindexed, decide_eq_true rfl⟩

/-- **Both names are returned exactly if the friendly name has at most 15 bytes.** -/
theorem names_exact_iff (hnet : net.Answers) {s : FeatureSession} (hs : s.CachesComplete devices)
    (hname : 1 ≤ name.length ∧ name.length ≤ 255)
    (hfriendly : 1 ≤ friendly.length ∧ friendly.length ≤ 255)
    (hholds : (devices (s.transport.targetOf target)).HoldsName 0x0005 (fun _ => []) name)
    (hholdsFriendly :
      (devices (s.transport.targetOf target)).HoldsName 0x0007 (fun o => [o]) friendly) :
    ((getDeviceInfo devices net unitIdFeature target s).1.map fun info =>
      (info.name, info.friendlyName)) = some (name, friendly) ↔ friendly.length ≤ 15 := by
  have hnamed := hasFeature_of_present hnet hs hholds.present
  have hfriend := hasFeature_of_present hnet hs hholdsFriendly.present
  have hsound : (getFeatureSet devices net target s).2.Sound devices :=
    ask_sound hnet.unconfused (.getFeatureSet target) ⟨hs.indices, hs.faithful⟩
  have hextends : Extends (fun _ => True) s (getFeatureSet devices net target s).2 :=
    getFeatureSet_extends yields_true s
  have htraced : Traced devices (fun _ _ _ _ => True) (getFeatureSet devices net target s).2
    (getFeatureSet devices net target s).2 := .refl hsound.indices
  rw [← hextends.targetOf] at hholds hholdsFriendly
  let hasFeature : UInt16 → Bool := fun id =>
    (getFeatureSet devices net target s).1.any (·.1 = id)
  have hnames : Hoare (Traced devices (fun _ _ _ _ => True) _)
      (readDeviceInfo devices net hasFeature unitIdFeature target) _ :=
    readDeviceInfo_names hnet hname.2 hfriendly.1 hfriendly.2 hholds hholdsFriendly hnamed hfriend
  obtain ⟨hnames, hiff⟩ := hnames _ htraced
  unfold getDeviceInfo
  rw [bind_apply]
  dsimp only
  rw [if_neg (fun h => h.2 hnamed)]
  rw [← hiff]
  constructor
  · intro h
    exact (Prod.mk.inj (Option.some.inj h)).2
  · intro h
    exact congrArg some (Prod.ext hnames h)

/-- The bytes at an offset, with zeros behind the name. -/
def pieceAt (name : Bytes) (n offset : ℕ) : Bytes :=
  (List.range n).map fun k => byteAt name (offset + k)

theorem length_pieceAt (name : Bytes) (n offset : ℕ) : (pieceAt name n offset).length = n := by
  unfold pieceAt
  rw [List.length_map, List.length_range]

theorem getElem_pieceAt (name : Bytes) (n offset : ℕ) {k : ℕ}
    (hk : k < (pieceAt name n offset).length) :
    (pieceAt name n offset)[k] = byteAt name (offset + k) :=
  (List.getElem_map _).trans (congrArg (fun k => byteAt name (offset + k)) (List.getElem_range _))

theorem take_isPrefix_pieceAt (name : Bytes) (n offset : ℕ) :
    (name.drop offset).take n <+: pieceAt name n offset := by
  rw [List.prefix_iff_eq_take]
  refine List.ext_getElem ?_ fun k hk _ => ?_
  · rw [List.length_take, List.length_take, List.length_drop, length_pieceAt]
    omega
  · rw [List.length_take, List.length_drop] at hk
    rw [List.getElem_take, List.getElem_drop, List.getElem_take, getElem_pieceAt, byteAt,
      List.getD_eq_getElem?_getD, List.getElem?_eq_getElem (by omega), Option.getD_some]

/-- A mouse with these names. -/
def namedMouse (name friendly : Bytes) : HidppDevice where
  features := [⟨0x0001, 0, 0⟩, ⟨0x0005, 0, 0⟩, ⟨0x0007, 0, 0⟩]
  other r :=
    let offset := byteAt r.params 0
    if r.asked.feature = 2 then
      if r.asked.function = 0 then [UInt8.ofNat name.length] else pieceAt name 16 offset.toNat
    else if r.asked.function = 0 then [UInt8.ofNat friendly.length]
    else offset :: pieceAt friendly 15 offset.toNat
  length_le := by simp
  id_ne_zero := by simp
  has_featureSet := by simp

variable {r : FeatureRequest}

theorem namedMouse_asks (h : (namedMouse name friendly).Asks r 0x0005 function) :
    r.asked.feature = 2 ∧ r.asked.function = function := by
  obtain ⟨hindex, hfunction⟩ := h
  refine ⟨UInt8.toNat_inj.mp ?_, hfunction⟩
  rcases hn : r.asked.feature.toNat with _ | _ | _ | _ | n
  · rw [hn] at hindex
    exact absurd (Option.some.inj hindex) (by decide)
  · rw [hn] at hindex
    exact absurd (Option.some.inj hindex) (by decide)
  · rfl
  · rw [hn] at hindex
    exact absurd (Option.some.inj hindex) (by decide)
  · rw [hn] at hindex
    cases hindex

theorem namedMouse_asksFriendly (h : (namedMouse name friendly).Asks r 0x0007 function) :
    r.asked.feature = 3 ∧ r.asked.function = function := by
  obtain ⟨hindex, hfunction⟩ := h
  refine ⟨UInt8.toNat_inj.mp ?_, hfunction⟩
  rcases hn : r.asked.feature.toNat with _ | _ | _ | _ | n
  · rw [hn] at hindex
    exact absurd (Option.some.inj hindex) (by decide)
  · rw [hn] at hindex
    exact absurd (Option.some.inj hindex) (by decide)
  · rw [hn] at hindex
    exact absurd (Option.some.inj hindex) (by decide)
  · rfl
  · rw [hn] at hindex
    cases hindex

theorem namedMouse_holdsName (name friendly : Bytes) :
    (namedMouse name friendly).HoldsName 0x0005 (fun _ => []) name := by
  have hreply : ∀ r function, (namedMouse name friendly).Asks r 0x0005 function →
      (namedMouse name friendly).reply r = some (if r.asked.function = 0 then
        [UInt8.ofNat name.length] else pieceAt name 16 (byteAt r.params 0).toNat) := by
    intro r function hasks
    rw [HidppDevice.reply_other hasks.1 (by decide) (by decide), namedMouse]
    dsimp only
    rw [if_pos (namedMouse_asks hasks).1]
  refine ⟨Nat.succ_ne_zero 1, fun r hasks => ?_, fun r offset hasks hparams => ?_⟩
  · rw [hreply r 0 hasks, if_pos hasks.2]
    exact ⟨[], rfl⟩
  · rw [hreply r 1 hasks, if_neg (by rw [hasks.2]; decide), hparams]
    refine ⟨pieceAt name 16 offset.toNat, rfl, length_pieceAt _ _ _, ?_⟩
    rw [length_pieceAt]
    exact take_isPrefix_pieceAt _ _ _

theorem namedMouse_holdsFriendly (name friendly : Bytes) :
    (namedMouse name friendly).HoldsName 0x0007 (fun o => [o]) friendly := by
  have hreply : ∀ r function, (namedMouse name friendly).Asks r 0x0007 function →
      (namedMouse name friendly).reply r = some (if r.asked.function = 0 then
        [UInt8.ofNat friendly.length] else
          byteAt r.params 0 :: pieceAt friendly 15 (byteAt r.params 0).toNat) := by
    intro r function hasks
    rw [HidppDevice.reply_other hasks.1 (by decide) (by decide), namedMouse]
    dsimp only
    rw [if_neg (by rw [(namedMouse_asksFriendly hasks).1]; decide)]
  refine ⟨Nat.succ_ne_zero 2, fun r hasks => ?_, fun r offset hasks hparams => ?_⟩
  · rw [hreply r 0 hasks, if_pos hasks.2]
    exact ⟨[], rfl⟩
  · rw [hreply r 1 hasks, if_neg (by rw [hasks.2]; decide), hparams]
    refine ⟨pieceAt friendly 15 offset.toNat, rfl, congrArg Nat.succ (length_pieceAt _ _ _), ?_⟩
    rw [length_pieceAt]
    exact take_isPrefix_pieceAt _ _ _

/-- The two names of a mouse on a receiver. -/
def namesOf (name friendly : Bytes) : Option (Bytes × Bytes) :=
  (getDeviceInfo (fun _ => namedMouse name friendly) answering 0 0xFF receiver).1.map fun info =>
    (info.name, info.friendlyName)

theorem receiver_caches (devices : UInt8 → HidppDevice) : receiver.CachesComplete devices :=
  cachesComplete_of_none (fun _ he => absurd he List.not_mem_nil) rfl rfl rfl

/-- A name of 17 bytes and a friendly name of 15. -/
theorem names_exact_iff_fifteen :
    namesOf (List.replicate 17 0x4D) (List.replicate 15 0x46) =
      some (List.replicate 17 0x4D, List.replicate 15 0x46) :=
  (names_exact_iff (fun _ => ⟨rfl, rfl⟩) (receiver_caches _) (by decide) (by decide)
    (namedMouse_holdsName _ _) (namedMouse_holdsFriendly _ _)).mpr (by decide)

/-- A friendly name of 16 bytes is not returned. -/
theorem sixteen_bytes_lost :
    ∃ name friendly : Bytes, name.length = 1 ∧ friendly.length = 16 ∧
      (namedMouse name friendly).HoldsName 0x0005 (fun _ => []) name ∧
      (namedMouse name friendly).HoldsName 0x0007 (fun o => [o]) friendly ∧
      namesOf name friendly ≠ some (name, friendly) :=
  ⟨[0x4D], List.replicate 16 0x46, rfl, rfl, namedMouse_holdsName _ _,
    namedMouse_holdsFriendly _ _, by decide +kernel⟩

end FeatureSession
end AbrekMouse
