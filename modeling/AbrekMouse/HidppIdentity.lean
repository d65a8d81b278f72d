import AbrekMouse.Utf8
import Mathlib.Data.List.Find
import Mathlib.Data.List.Infix
import Mathlib.Data.List.TakeWhile
import Mathlib.Tactic.SplitIfs

/-! # Which mouse is which

A mouse and a HID++ device are the same if the id of one names the other.  A write looks for
the device of a mouse by the last field of its id; a reading looks for the mouse of a device
anywhere in the ids, and a battery level is kept only if there is one such mouse.  The three
agree exactly if each key that occurs in an id is its last field, of one mouse and of one
device (`writes_and_reads_agree_iff`).
-/
namespace AbrekMouse
open ProgLib

/-! ## The parties -/

/-- `hidpp_battery_info`; the level 255 is unknown. -/
structure BatteryInfo where
  level : UInt8 := 255
  charging : Bool := false
  online : Bool := true
deriving DecidableEq

/-- `hidpp_device`, as far as the daemon uses it. -/
structure HidppDev where
  hidrawPath : Bytes
  deviceIndex : UInt8
  vendorId : UInt16
  productId : UInt16
  serial : Bytes := []
  protocolVersion : ℕ := 2
  features : List (UInt16 × UInt8) := []
  batteryLevel : UInt8 := 255
  lastBatteryMs : ℕ := 0
  lastDpiCheckMs : ℕ := 0
deriving DecidableEq

/-- What the daemon knows of a grabbed mouse from its hardware. -/
structure Readings where
  deviceId : Bytes
  dpi : ℤ := 800
  detectedDpi : ℤ := -1
  detectedBattery : ℤ := -1
deriving DecidableEq

def colon : UInt8 := 0x3A

/-- A hexadecimal digit, in lower case. -/
def hexDigit (k : ℕ) : UInt8 := if k < 10 then 0x30 + UInt8.ofNat k else 0x57 + UInt8.ofNat k

/-- `%04x`. -/
def hex4 (v : UInt16) : Bytes := [12, 8, 4, 0].map fun shift => hexDigit (v.toNat >>> shift % 16)

namespace HidppDev
variable (d : HidppDev)

/-- The serial number, or the vendor and the product if there is none. -/
def key : Bytes :=
  if d.serial ≠ [] then d.serial else hex4 d.vendorId ++ colon :: hex4 d.productId

/-- The key of the device stands in the id of the mouse. -/
def occursIn (m : Readings) : Bool := d.key <:+: m.deviceId

end HidppDev

/-- The text before the first colon, and the text after it. -/
def cutAtColon (s : Bytes) : Option (Bytes × Bytes) :=
  if colon ∈ s then some (s.takeWhile (· ≠ colon), (s.dropWhile (· ≠ colon)).tail) else none

/-- The last part of an id. -/
def afterLastColon (s : Bytes) : Bytes := (s.reverse.takeWhile (· ≠ colon)).reverse

/-- The last field of an id, or its vendor and product if the last field is empty. -/
def needleOf (deviceId : Bytes) : Bytes :=
  if colon ∈ deviceId ∧ afterLastColon deviceId ≠ [] then afterLastColon deviceId
  else match cutAtColon deviceId with
    | none => []
    | some (_, rest) => match cutAtColon rest with
        | none => []
        | some (vendor, rest') => match cutAtColon rest' with
            | some (product, _) => vendor ++ colon :: product
            | none => rest

/-! ## The searches -/

/-- The device that a write to a mouse goes to. -/
def findHidppDevice (devs : List HidppDev) (isOpen : Bytes → Bool) (deviceId : Bytes) :
    Option HidppDev :=
  let needle := needleOf deviceId
  if needle = [] then none else devs.find? fun d => d.key = needle && isOpen d.hidrawPath

/-- `find_hidpp_transport`: the node of the device that was found, with its index. -/
def findHidppTransport (devs : List HidppDev) (isOpen : Bytes → Bool) (deviceId : Bytes) :
    Option (Bytes × UInt8) :=
  (findHidppDevice devs isOpen deviceId).map fun d => (d.hidrawPath, d.deviceIndex)

/-- A level that is known is kept if one mouse is meant, and only then. -/
def applyHidppBattery (d : HidppDev) (b : BatteryInfo) (mice : List Readings) : List Readings :=
  if b.level = 255 then mice
  else if mice.countP d.occursIn = 1 then
    mice.map fun m => if d.occursIn m then { m with detectedBattery := b.level.toNat } else m
  else mice

/-- `apply_hidpp_dpi`: every mouse whose id has the key of the device gets the value; 0 is none. -/
def applyHidppDpi (d : HidppDev) (dpi : UInt16) (mice : List Readings) : List Readings :=
  if dpi = 0 then mice
  else mice.map fun m =>
    if d.occursIn m then { m with dpi := dpi.toNat, detectedDpi := dpi.toNat } else m

/-! ## Agreement -/

variable {devs : List HidppDev} {isOpen : Bytes → Bool} {mice : List Readings} {d : HidppDev}

/-- The readings of a device go to the mouse whose writes go to the device, and to no
other. -/
def Agree (devs : List HidppDev) (isOpen : Bytes → Bool) (mice : List Readings) : Prop :=
  ∀ d ∈ devs,
    (∀ b : BatteryInfo, b.level ≠ 255 → applyHidppBattery d b mice = mice.map fun m =>
      if findHidppDevice devs isOpen m.deviceId = some d then
        { m with detectedBattery := b.level.toNat }
      else m) ∧
    ∀ dpi : UInt16, dpi ≠ 0 → applyHidppDpi d dpi mice = mice.map fun m =>
      if findHidppDevice devs isOpen m.deviceId = some d then
        { m with dpi := dpi.toNat, detectedDpi := dpi.toNat }
      else m

/-- A key that occurs in an id is its last field; it occurs in one id only, and no device
before has it too. -/
def KeysIdentify (devs : List HidppDev) (mice : List Readings) : Prop :=
  ∀ d ∈ devs, mice.countP d.occursIn ≤ 1 ∧
    ∀ m ∈ mice, d.occursIn m = true →
      needleOf m.deviceId = d.key ∧ devs.find? (·.key = d.key) = some d

theorem cutAtColon_eq {s a b : Bytes} (h : cutAtColon s = some (a, b)) :
    s = a ++ colon :: b := by
  unfold cutAtColon at h
  split_ifs at h with hmem
  cases h
  have hne : s.dropWhile (· ≠ colon) ≠ [] := by
    intro hnil
    rw [List.dropWhile_eq_nil_iff] at hnil
    exact of_decide_eq_true (hnil colon hmem) rfl
  obtain ⟨c, rest, hrest⟩ := List.exists_cons_of_ne_nil hne
  have hhead : c = colon := by
    have hnot := List.head_dropWhile_not (· ≠ colon) hne
    simp only [hrest, List.head_cons, decide_eq_false_iff_not, not_not] at hnot
    exact hnot
  calc s = s.takeWhile (· ≠ colon) ++ s.dropWhile (· ≠ colon) :=
        (List.takeWhile_append_dropWhile).symm
    _ = s.takeWhile (· ≠ colon) ++ colon :: (s.dropWhile (· ≠ colon)).tail := by
        rw [hrest, hhead, List.tail_cons]

theorem afterLastColon_infix (s : Bytes) : afterLastColon s <:+: s := by
  have h : s.reverse.takeWhile (· ≠ colon) <+: s.reverse := List.takeWhile_prefix _
  have hsuffix := List.reverse_suffix.mpr h
  rw [List.reverse_reverse] at hsuffix
  exact hsuffix.isInfix

/-- What a write looks for is part of the id. -/
theorem needleOf_infix (deviceId : Bytes) : needleOf deviceId <:+: deviceId := by
  unfold needleOf
  split_ifs
  · exact afterLastColon_infix deviceId
  split
  · exact List.nil_infix
  rename_i bus rest hrest
  have hsuffix : rest <:+ deviceId := by
    rw [cutAtColon_eq hrest]
    exact (List.suffix_cons _ _).trans (List.suffix_append _ _)
  split
  · exact List.nil_infix
  rename_i vendor rest' hrest'
  split
  · rename_i product rest'' hrest''
    have hprefix : vendor ++ colon :: product <+: rest := by
      rw [cutAtColon_eq hrest', cutAtColon_eq hrest'']
      exact ⟨colon :: rest'', by simp⟩
    exact hprefix.isInfix.trans hsuffix.isInfix
  · exact hsuffix.isInfix

theorem occursIn_of_needleOf {m : Readings} (h : needleOf m.deviceId = d.key) :
    d.occursIn m = true :=
  decide_eq_true (h ▸ needleOf_infix m.deviceId)

/-- With every transport open, a write goes to the first device with the key. -/
theorem findHidppDevice_eq (hopen : ∀ d ∈ devs, isOpen d.hidrawPath = true) (deviceId : Bytes) :
    findHidppDevice devs isOpen deviceId =
      if needleOf deviceId = [] then none else devs.find? (·.key = needleOf deviceId) := by
  unfold findHidppDevice
  dsimp only
  split_ifs
  · rfl
  · exact List.find?_congr fun d hd => by rw [hopen d hd, Bool.and_true]

theorem key_ne_nil (d : HidppDev) : d.key ≠ [] := by
  unfold HidppDev.key
  split_ifs with h
  · exact h
  · exact List.append_ne_nil_of_right_ne_nil _ (List.cons_ne_nil _ _)

theorem findHidppDevice_iff (hopen : ∀ d ∈ devs, isOpen d.hidrawPath = true) {m : Readings} :
    findHidppDevice devs isOpen m.deviceId = some d ↔
      needleOf m.deviceId = d.key ∧ devs.find? (·.key = d.key) = some d := by
  rw [findHidppDevice_eq hopen]
  constructor
  · intro h
    split_ifs at h with hneedle
    have hfound := List.find?_some h
    have hkey : d.key = needleOf m.deviceId := of_decide_eq_true hfound
    exact ⟨hkey.symm, hkey ▸ h⟩
  · rintro ⟨hneedle, hfirst⟩
    rw [hneedle, if_neg (key_ne_nil d)]
    exact hfirst

/-- A mouse and a level that it does not have yet. -/
theorem exists_level (m : Readings) :
    ∃ b : BatteryInfo, b.level ≠ 255 ∧ { m with detectedBattery := b.level.toNat } ≠ m := by
  by_cases h : m.detectedBattery = 0
  · refine ⟨{ level := 1 }, by decide, fun heq => ?_⟩
    have hone : ((1 : UInt8).toNat : ℤ) = m.detectedBattery := congrArg Readings.detectedBattery heq
    rw [h] at hone
    cases hone
  · refine ⟨{ level := 0 }, by decide, fun heq => ?_⟩
    exact h (congrArg Readings.detectedBattery heq).symm

theorem exists_dpi (m : Readings) : ∃ dpi : UInt16, dpi ≠ 0 ∧
    { m with dpi := dpi.toNat, detectedDpi := dpi.toNat } ≠ m := by
  by_cases h : m.dpi = 1
  · refine ⟨2, by decide, fun heq => ?_⟩
    have htwo : ((2 : UInt16).toNat : ℤ) = m.dpi := congrArg Readings.dpi heq
    rw [h] at htwo
    cases htwo
  · refine ⟨1, by decide, fun heq => ?_⟩
    exact h (congrArg Readings.dpi heq).symm

/-- **A mouse gets the readings of the device that its writes go to, and of no other,
exactly if the keys identify the mice.** -/
theorem writes_and_reads_agree_iff (hopen : ∀ d ∈ devs, isOpen d.hidrawPath = true) :
    Agree devs isOpen mice ↔ KeysIdentify devs mice := by
  constructor
  · intro hagree d hd
    obtain ⟨hbattery, hdpi⟩ := hagree d hd
    -- where the key occurs, a DPI reading is kept, so the writes must go to the device
    have hfound : ∀ m ∈ mice, d.occursIn m = true →
        findHidppDevice devs isOpen m.deviceId = some d := by
      intro m hm hoccurs
      obtain ⟨dpi, hzero, hchanges⟩ := exists_dpi m
      have hmap := hdpi dpi hzero
      rw [applyHidppDpi, if_neg hzero] at hmap
      have hm' := (List.map_inj_left.mp hmap) m hm
      rw [if_pos hoccurs] at hm'
      by_contra hother
      rw [if_neg hother] at hm'
      exact hchanges hm'
    refine ⟨?_, fun m hm hoccurs => (findHidppDevice_iff hopen).mp (hfound m hm hoccurs)⟩
    -- and were there two such mice, neither would get a level
    by_contra hmany
    have hpos : 0 < mice.countP d.occursIn := by omega
    obtain ⟨m, hm, hoccurs⟩ := List.countP_pos_iff.mp hpos
    obtain ⟨b, hknown, hchanges⟩ := exists_level m
    have hmap := hbattery b hknown
    rw [applyHidppBattery, if_neg hknown, if_neg (by omega)] at hmap
    have hm' := (List.map_inj_left.mp ((List.map_id mice).trans hmap)) m hm
    rw [if_pos (hfound m hm hoccurs)] at hm'
    exact hchanges hm'.symm
  · intro hkeys d hd
    obtain ⟨hcount, hlast⟩ := hkeys d hd
    have hfound : ∀ m ∈ mice,
        (findHidppDevice devs isOpen m.deviceId = some d ↔ d.occursIn m = true) := by
      intro m hm
      rw [findHidppDevice_iff hopen]
      exact ⟨fun h => occursIn_of_needleOf h.1, hlast m hm⟩
    refine ⟨fun b hknown => ?_, fun dpi hzero => ?_⟩
    · rw [applyHidppBattery, if_neg hknown]
      split_ifs with hone
      · exact List.map_congr_left fun m hm => by simp only [hfound m hm]
      · have hnone := List.countP_eq_zero.mp (show mice.countP d.occursIn = 0 by omega)
        refine ((List.map_congr_left fun m hm => ?_).trans (List.map_id mice)).symm
        exact if_neg fun h => hnone m hm ((hfound m hm).mp h)
    · rw [applyHidppDpi, if_neg hzero]
      exact List.map_congr_left fun m hm => by simp only [hfound m hm]

/-- A mouse with a serial number. -/
def serialDev : HidppDev :=
  { hidrawPath := bytes "/dev/hidraw1", deviceIndex := 1, vendorId := 0x046D, productId := 0x407F,
    serial := bytes "4f2a" }

theorem writes_and_reads_agree_serial :
    Agree [serialDev] (fun _ => true) [{ deviceId := bytes "usb:046d:407f:4f2a" }] := by
  refine (writes_and_reads_agree_iff fun _ _ => rfl).mpr ?_
  unfold KeysIdentify
  decide +kernel

/-- A mouse without one. -/
def wiredDev : HidppDev :=
  { hidrawPath := bytes "/dev/hidraw0", deviceIndex := 0xFF, vendorId := 0x046D,
    productId := 0xC08B }

/-- Its readings are kept, but nothing is written to it. -/
theorem reads_without_writes : ¬Agree [wiredDev] (fun _ => true)
    [{ deviceId := bytes "usb:046d:c08b:phys:usb-0000:00:14.0-1/input0" }] := by
  intro hagree
  have hdpi := (hagree wiredDev (List.mem_singleton_self _)).2 1600 (by decide)
  revert hdpi
  decide +kernel

end AbrekMouse
