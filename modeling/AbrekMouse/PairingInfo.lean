import AbrekMouse.FeatureSession
import AbrekMouse.StateRel

/-! # The pairing slots of a receiver

`get_pairing_info` reads the receiver information of a HID++ 1.0 receiver, one sub-register
after the other.  It asks for the device index 0xFF, by which it means the receiver; for
`read_register` the same value stands for the device that is selected.  So the requests go to
the receiver only if no other device is selected (`packets_addressed`), and then each slot
that is returned is one of the receiver (`getPairingInfo_reported`).

What arrives in answer to a packet is an input, and so is whether the packet is written.
-/
namespace AbrekMouse
open ProgLib

/-! ## Texts -/

/-- A digit of an upper-case hexadecimal number. -/
def upperHexDigit (nibble : UInt8) : UInt8 := if nibble < 10 then 48 + nibble else 55 + nibble

/-- `bytes_to_hex`: two digits for each byte. -/
def bytesToHex (data : Bytes) : Bytes :=
  data.flatMap fun (b : UInt8) => [upperHexDigit (b >>> 4), upperHexDigit (b &&& 0x0F)]

/-- `bounded_string`: the bytes before the first zero. -/
def boundedString (data : Bytes) : Bytes := data.takeWhile (· ≠ 0)

/-! ## Slots -/

/-- `hidpp_pairing_slot`: a slot of a receiver, with the device that is paired there. -/
structure HidppPairingSlot where
  slot : UInt8
  occupied : Bool
  pid : UInt16
  connectionType : UInt8
  name : Bytes := []
  serial : Bytes := []
deriving DecidableEq

/-- `hidpp_parse_receiver_pairing`: the reply for a slot, which the two kinds of receivers lay
out differently. -/
def hidppParseReceiverPairing (payload : Bytes) (slot : UInt8) (bolt : Bool) :
    Option HidppPairingSlot :=
  if slot = 0 then none
  else if bolt then
    if payload.length < 4 then none
    else some {
      slot := slot
      occupied := byteAt payload 1 ≠ 0 ∨ byteAt payload 2 ≠ 0 ∨ byteAt payload 3 ≠ 0
      -- the low byte comes first
      pid := readBe16 (byteAt payload 3) (byteAt payload 2)
      connectionType := 3
      serial := if 8 ≤ payload.length then bytesToHex ((payload.drop 4).take 4) else [] }
  else if payload.length < 8 then none
  else some {
    slot := slot
    occupied := byteAt payload 3 ≠ 0 ∨ byteAt payload 4 ≠ 0
    pid := readBe16 (byteAt payload 3) (byteAt payload 4)
    connectionType := 1 }

namespace HidppPairingSlot
variable (p : HidppPairingSlot)

/-- The name from its register, if that has answered. -/
def withName : Option Bytes → HidppPairingSlot
  | some payload =>
      if 2 ≤ payload.length then
        { p with name :=
            boundedString ((payload.drop 2).take (min (byteAt payload 1).toNat
              (payload.length - 2))) }
      else p
  | none => p

/-- The serial number of the slot, if its register was read. -/
def withSerial : Option Bytes → HidppPairingSlot
  | some payload =>
      if 5 ≤ payload.length then { p with serial := bytesToHex ((payload.drop 1).take 4) } else p
  | none => p

end HidppPairingSlot

/-! ## Receivers -/

/-- The product id of the Bolt receiver. -/
def boltReceiver : UInt16 := 0xc548

/-- The receivers with one slot. -/
def singleReceivers : List UInt16 :=
  [0xc518, 0xc51a, 0xc51b, 0xc521, 0xc525, 0xc526, 0xc52e, 0xc52f, 0xc531, 0xc535, 0xc539,
    0xc53a, 0xc53d, 0xc53f, 0xc541, 0xc545, 0xc547, 0xc54d]

/-- The slots of a receiver by its product; an unknown product has none. -/
def slotCount (productId : UInt16) : ℕ :=
  if productId = 0xc517 then 4
  else if productId = 0xc52b ∨ productId = 0xc532 ∨ productId = boltReceiver then 6
  else if productId = 0xc534 ∨ productId = 0xc537 then 2
  else if productId ∈ singleReceivers then 1
  else 0

/-- The register of the receiver information. -/
def receiverInfo : UInt16 := 0x02B5

/-- The sub-register of a slot. -/
def slotRegister (bolt : Bool) (slot : ℕ) : UInt8 :=
  if bolt then UInt8.ofNat (0x50 + slot) else UInt8.ofNat (0x20 + slot - 1)

/-- The register with the name of the device in a slot. -/
def nameRegister (slot : ℕ) : UInt8 := UInt8.ofNat (0x40 + slot - 1)

/-- The register with the serial number of the device in a slot. -/
def serialRegister (slot : ℕ) : UInt8 := UInt8.ofNat (0x30 + slot - 1)

/-- The slots as the receiver information has them, if there is a plausible number. -/
def countReported (count : ℕ) : Option Bytes → ℕ
  | some info =>
      if 7 ≤ info.length ∧ 1 ≤ byteAt info 6 ∧ byteAt info 6 ≤ 6 then (byteAt info 6).toNat
      else count
  | none => count

/-! ## Reading -/

/-- A transport of a receiver, with the packets that it has been given to write. -/
structure ReceiverSession where
  transport : HidppTransport
  productId : UInt16
  packets : List Bytes := []

/-- What becomes of the packets, by their place. -/
structure ReceiverNet where
  written : ℕ → Bool
  /-- The reports that arrive in time. -/
  reports : ℕ → Bytes → List Bytes
  timeUp : ℕ → Bool

/-- The loop of `read_register`: the reports up to the one that ends it. -/
def awaitRegister (wait : Wait) : List Bytes → Option Bytes
  | [] => none
  | data :: reports =>
      match wait.onReport data with
      | .finish (.payload payload) => payload
      | _ => awaitRegister wait reports

namespace ReceiverSession
variable (net : ReceiverNet)

/-- `read_register`: one packet and what comes of it; no packet is sent for a register or
parameters that do not fit. -/
def readRegister (register : UInt16) (params : Bytes) (target : UInt8) :
    StateM ReceiverSession (Option Bytes) := fun s =>
  if 0x02FF < register ∨ 3 < params.length then (none, s)
  else
    let target := s.transport.targetOf target
    let request := 0x8100 ||| register
    let packet := [0x10, target, (request >>> 8).toUInt8, request.toUInt8] ++ params ++
      List.replicate (3 - params.length) 0
    let place := s.packets.length
    (if net.written place then
        awaitRegister (.register target request params) (net.reports place packet)
      else none,
      { s with packets := s.packets ++ [packet] })

/-- A sub-register of the receiver information. -/
def readInfo (subregister : UInt8) : StateM ReceiverSession (Option Bytes) :=
  readRegister net receiverInfo [subregister] 0xFF

/-- Is the time for the slots up? -/
def timeUp : StateM ReceiverSession Bool := fun s => (net.timeUp s.packets.length, s)

/-- `kIdentifyTimeoutStreak`. -/
def identifyTimeoutStreak : ℕ := 3

/-- The rest of a slot: name and serial have registers of their own. -/
def readDetails (bolt : Bool) (slot : ℕ) (parsed : HidppPairingSlot) :
    StateM ReceiverSession HidppPairingSlot := do
  if !bolt && parsed.occupied then
    let name ← readInfo net (nameRegister slot)
    let serial ← readInfo net (serialRegister slot)
    return (parsed.withName name).withSerial serial
  else return parsed

/-- The slots from `slot` on. -/
def readSlots (bolt : Bool) : ℕ → ℕ → ℕ → List HidppPairingSlot →
    StateM ReceiverSession (List HidppPairingSlot)
  | 0, _, _, slots => return slots
  | left + 1, slot, timeouts, slots => do
      if ← timeUp net then return slots
      else
        match ← readInfo net (slotRegister bolt slot) with
        | none =>
            if identifyTimeoutStreak ≤ timeouts + 1 then return slots
            else readSlots bolt left (slot + 1) (timeouts + 1) slots
        | some payload =>
            match hidppParseReceiverPairing payload (UInt8.ofNat slot) bolt with
            | none => readSlots bolt left (slot + 1) 0 slots
            | some parsed => do
                let parsed ← readDetails net bolt slot parsed
                readSlots bolt left (slot + 1) 0 (slots ++ [parsed])

/-- `get_pairing_info`; it makes no use of its target. -/
def getPairingInfo : StateM ReceiverSession (List HidppPairingSlot) := do
  let productId := (← get).productId
  let bolt : Bool := productId = boltReceiver
  if slotCount productId = 0 then return []
  else if bolt then readSlots net bolt (slotCount productId) 1 0 []
  else do
    let info ← readInfo net 0x03
    readSlots net bolt (countReported (slotCount productId) info) 1 0 []

/-! ## Where the packets go -/

/-- A program writes packets to one device, the selected one. -/
structure Addressed (s s' : ReceiverSession) : Prop where
  transport : s'.transport = s.transport
  packets : ∃ more, s'.packets = s.packets ++ more ∧
    ∀ packet ∈ more, byteAt packet 1 = s.transport.deviceIndex

namespace Addressed
variable {s t u : ReceiverSession}

theorem refl (s : ReceiverSession) : Addressed s s :=
  ⟨rfl, [], (List.append_nil _).symm, nofun⟩

theorem trans (h : Addressed s t) (h' : Addressed t u) : Addressed s u := by
  obtain ⟨hst, more, hmore, hto⟩ := h
  obtain ⟨htu, more', hmore', hto'⟩ := h'
  refine ⟨htu.trans hst, more ++ more', ?_, fun packet hpacket => ?_⟩
  · rw [hmore', hmore, List.append_assoc]
  · rcases List.mem_append.mp hpacket with hmem | hmem
    · exact hto packet hmem
    · exact (hto' packet hmem).trans (congrArg HidppTransport.deviceIndex hst)

end Addressed

/-- A read of the receiver information writes a packet, whatever comes of it. -/
theorem packets_readInfo (subregister : UInt8) (s : ReceiverSession) :
    ∃ packet, (readInfo net subregister s).2 = { s with packets := s.packets ++ [packet] } ∧
      byteAt packet 1 = s.transport.deviceIndex ∧
      (readInfo net subregister s).1 =
        if net.written s.packets.length then
          awaitRegister (.register s.transport.deviceIndex 0x83B5 [subregister])
            (net.reports s.packets.length packet)
        else none := by
  have hregister : ¬(0x02FF < receiverInfo ∨ 3 < [subregister].length) := by
    rw [not_or]
    exact ⟨by decide, by simp⟩
  have htarget : s.transport.targetOf 0xFF = s.transport.deviceIndex := rfl
  unfold readInfo readRegister
  rw [if_neg hregister, htarget]
  exact ⟨_, rfl, rfl, rfl⟩

theorem readInfo_addressed (subregister : UInt8) : Keeps Addressed (readInfo net subregister) := by
  intro s
  obtain ⟨packet, hstate, hto, -⟩ := packets_readInfo net subregister s
  rw [hstate]
  refine ⟨rfl, [packet], rfl, fun p hp => ?_⟩
  rw [List.mem_singleton.mp hp]
  exact hto

theorem readDetails_addressed (bolt : Bool) (slot : ℕ) (parsed : HidppPairingSlot) :
    Keeps Addressed (readDetails net bolt slot parsed) := by
  unfold readDetails
  split_ifs
  · refine Keeps.bind Addressed.trans (readInfo_addressed net _) fun name => ?_
    refine Keeps.bind Addressed.trans (readInfo_addressed net _) fun serial => ?_
    exact Keeps.pure Addressed.refl _
  · exact Keeps.pure Addressed.refl _

theorem readSlots_addressed (bolt : Bool) (left slot timeouts : ℕ)
    (slots : List HidppPairingSlot) :
    Keeps Addressed (readSlots net bolt left slot timeouts slots) := by
  induction left generalizing slot timeouts slots with
  | zero => exact Keeps.pure Addressed.refl _
  | succ left ih =>
      unfold readSlots
      refine Keeps.bind Addressed.trans (fun s => Addressed.refl s) fun up => ?_
      cases up with
      | true => exact Keeps.pure Addressed.refl _
      | false =>
          refine Keeps.bind Addressed.trans (readInfo_addressed net _) fun payload => ?_
          cases payload with
          | none =>
              dsimp only
              split_ifs
              · exact Keeps.pure Addressed.refl _
              · exact ih _ _ _
          | some payload =>
              dsimp only
              split
              · exact ih _ _ _
              · exact Keeps.bind Addressed.trans (readDetails_addressed net _ _ _)
                  fun parsed => ih _ _ _

/-- **Every packet goes to the selected device.** -/
theorem getPairingInfo_addressed : Keeps Addressed (getPairingInfo net) := by
  unfold getPairingInfo
  refine Keeps.bind Addressed.trans (Keeps.get Addressed.refl) fun s => ?_
  dsimp only
  split_ifs
  · exact Keeps.pure Addressed.refl _
  · exact readSlots_addressed net _ _ _ _ _
  · exact Keeps.bind Addressed.trans (readInfo_addressed net _) fun info =>
      readSlots_addressed net _ _ _ _ _

end ReceiverSession

/-! ## What the receiver reports -/

section
variable (receiver : UInt8 → Option Bytes)

/-- What arrives from the index 0xFF is from the receiver, and holds its registers. -/
def Serves (net : ReceiverNet) : Prop :=
  ∀ place packet, ∀ data ∈ net.reports place packet, byteAt data 1 = 0xFF →
    isHidppError data = false → byteAt data 2 = 0x83 → byteAt data 3 = 0xB5 →
    receiver (byteAt data 4) = some (data.drop 4)

/-- A slot of the receiver, with the name and the serial as far as they were read. -/
def Reported (bolt : Bool) (p : HidppPairingSlot) : Prop :=
  ∃ slot payload parsed name serial, receiver (slotRegister bolt slot) = some payload ∧
    hidppParseReceiverPairing payload (UInt8.ofNat slot) bolt = some parsed ∧
    (∀ text, name = some text → receiver (nameRegister slot) = some text) ∧
    (∀ text, serial = some text → receiver (serialRegister slot) = some text) ∧
    p = if !bolt && parsed.occupied then (parsed.withName name).withSerial serial else parsed

end

variable {receiver : UInt8 → Option Bytes} {net : ReceiverNet}

theorem isRegisterReply_info {subregister : UInt8} {data : Bytes}
    (h : isRegisterReply 0xFF 0x83B5 [subregister] data = true) :
    byteAt data 1 = 0xFF ∧ byteAt data 2 = 0x83 ∧ byteAt data 3 = 0xB5 ∧
      byteAt data 4 = subregister := by
  have hrequest : (0x83B5 : UInt16) &&& 0x00FF = 0x00B5 := by decide
  have hhigh : ((0x83B5 : UInt16) >>> 8).toUInt8 = 0x83 := by decide
  have hlow : (0x83B5 : UInt16).toUInt8 = 0xB5 := by decide
  have hsub : byteAt [subregister] 0 = subregister := rfl
  unfold isRegisterReply at h
  rw [hhigh, hlow, hsub] at h
  simp only [hrequest, Bool.and_eq_true, Bool.or_eq_true, Bool.not_eq_true', Bool.and_eq_false_iff,
    Bool.or_eq_false_iff, decide_eq_true_eq, decide_eq_false_iff_not, not_not, ne_eq,
    List.cons_ne_nil, not_false_eq_true, not_true_eq_false, false_or] at h
  obtain ⟨⟨⟨⟨-, hdevice⟩, htop⟩, hbottom⟩, -, hecho⟩ := h
  exact ⟨hdevice, htop, hbottom, hecho⟩

theorem awaitRegister_cons (target : UInt8) (request : UInt16) (params data : Bytes)
    (reports : List Bytes) :
    awaitRegister (.register target request params) (data :: reports) =
      if isHidppError data then
        if byteAt data 1 = target then none
        else awaitRegister (.register target request params) reports
      else if isRegisterReply target request params data then some (data.drop 4)
      else awaitRegister (.register target request params) reports := by
  have hreaction : (Wait.register target request params).onReport data =
      if isHidppError data then
        if byteAt data 1 = target then .finish (.payload none) else .ignore
      else if isRegisterReply target request params data then
        .finish (.payload (some (data.drop 4)))
      else .ignore := rfl
  rw [awaitRegister, hreaction]
  split_ifs <;> rfl

/-- What is taken for the answer of the receiver is the receiver's. -/
theorem Serves.awaitRegister (h : Serves receiver net) {place : ℕ} {packet : Bytes}
    {subregister : UInt8} {payload : Bytes}
    (hread : awaitRegister (.register 0xFF 0x83B5 [subregister]) (net.reports place packet) =
      some payload) : receiver subregister = some payload := by
  have hall : ∀ reports : List Bytes, (∀ data ∈ reports, data ∈ net.reports place packet) →
      AbrekMouse.awaitRegister (.register 0xFF 0x83B5 [subregister]) reports = some payload →
      receiver subregister = some payload := by
    intro reports
    induction reports with
    | nil =>
        intro _ hnone
        cases hnone
    | cons data reports ih =>
        intro hmem hread
        have hrest := ih fun d hd => hmem d (List.mem_cons_of_mem _ hd)
        rw [awaitRegister_cons] at hread
        split_ifs at hread with herror hdevice hreply
        · exact hrest hread
        · obtain ⟨hdevice, htop, hbottom, hecho⟩ := isRegisterReply_info hreply
          have hserved := h place packet data (hmem data List.mem_cons_self) hdevice
            ((Bool.not_eq_true _).mp herror) htop hbottom
          rw [hecho] at hserved
          rw [hserved]
          exact hread
        · exact hrest hread
  exact hall _ (fun data hdata => hdata) hread

namespace ReceiverSession

/-- The receiver itself is selected. -/
def OnReceiver (s : ReceiverSession) : Prop := s.transport.deviceIndex = 0xFF

theorem readInfo_served (h : Serves receiver net) (subregister : UInt8) :
    Hoare OnReceiver (readInfo net subregister) fun read s => s.OnReceiver ∧
      ∀ payload, read = some payload → receiver subregister = some payload := by
  intro s hs
  obtain ⟨packet, hstate, -, hresult⟩ := packets_readInfo net subregister s
  have hindex : s.transport.deviceIndex = 0xFF := hs
  refine ⟨by rw [hstate]; exact hs, fun payload hpayload => ?_⟩
  rw [hresult, hindex] at hpayload
  split_ifs at hpayload
  exact h.awaitRegister hpayload

theorem readDetails_reported (h : Serves receiver net) {bolt : Bool} {slot : ℕ} {payload : Bytes}
    {parsed : HidppPairingSlot} (hpayload : receiver (slotRegister bolt slot) = some payload)
    (hparsed : hidppParseReceiverPairing payload (UInt8.ofNat slot) bolt = some parsed) :
    Hoare OnReceiver (readDetails net bolt slot parsed) fun p s => s.OnReceiver ∧
      Reported receiver bolt p := by
  unfold readDetails
  split_ifs with hdetails
  · refine Hoare.bind (readInfo_served h _) fun name => ?_
    refine Hoare.bind (m := readInfo net (serialRegister slot))
      (Q := fun serial s => s.OnReceiver ∧
        (∀ text, name = some text → receiver (nameRegister slot) = some text) ∧
        ∀ text, serial = some text → receiver (serialRegister slot) = some text) ?_ ?_
    · intro s hs
      obtain ⟨hindex, hserial⟩ := readInfo_served h (serialRegister slot) s hs.1
      exact ⟨hindex, hs.2, hserial⟩
    · rintro serial s ⟨hs, hname, hserial⟩
      refine ⟨hs, slot, payload, parsed, name, serial, hpayload, hparsed, hname, hserial, ?_⟩
      rw [if_pos hdetails]
      rfl
  · intro s hs
    refine ⟨hs, slot, payload, parsed, none, none, hpayload, hparsed, nofun, nofun, ?_⟩
    rw [if_neg hdetails]
    rfl

theorem readSlots_reported (h : Serves receiver net) (bolt : Bool) (left slot timeouts : ℕ)
    {slots : List HidppPairingSlot} (hslots : ∀ p ∈ slots, Reported receiver bolt p) :
    Hoare OnReceiver (readSlots net bolt left slot timeouts slots) fun slots _ =>
      ∀ p ∈ slots, Reported receiver bolt p := by
  induction left generalizing slot timeouts slots with
  | zero => exact fun s _ => hslots
  | succ left ih =>
      unfold readSlots
      refine Hoare.bind (m := timeUp net) (Q := fun _ s => s.OnReceiver) (fun s hs => hs)
        fun up => ?_
      cases up with
      | true => exact fun s _ => hslots
      | false =>
          refine Hoare.bind (readInfo_served h _) fun read => ?_
          cases read with
          | none =>
              dsimp only
              split_ifs
              · exact fun s _ => hslots
              · exact fun s hs => ih _ _ hslots s hs.1
          | some payload =>
              dsimp only
              split
              · exact fun s hs => ih _ _ hslots s hs.1
              · rename_i parsed hparsed
                intro s hs
                have hdetails := readDetails_reported h (hs.2 payload rfl) hparsed s hs.1
                refine ih (slot + 1) 0 (fun p hp => ?_) _ hdetails.1
                rcases List.mem_append.mp hp with hold | hnew
                · exact hslots p hold
                · rw [List.mem_singleton.mp hnew]
                  exact hdetails.2

/-- **With the receiver selected, each slot is one of the receiver.** -/
theorem getPairingInfo_reported (h : Serves receiver net) {s : ReceiverSession}
    (hs : s.OnReceiver) :
    ∀ p ∈ (getPairingInfo net s).1, Reported receiver (s.productId = boltReceiver) p := by
  have hnone : ∀ p ∈ ([] : List HidppPairingSlot),
      Reported receiver (decide (s.productId = boltReceiver)) p := nofun
  unfold getPairingInfo
  rw [bind_apply, get_apply]
  dsimp only
  split_ifs with hcount hbolt
  · exact hnone
  · exact readSlots_reported h _ _ _ _ hnone s hs
  · have hinfo := readInfo_served h 0x03 s hs
    exact readSlots_reported h _ _ _ _ hnone _ hinfo.1

/-! ## All slots -/

end ReceiverSession

section
variable (receiver : UInt8 → Option Bytes)

/-- What a slot holds. -/
def slotReported (bolt : Bool) (slot : ℕ) : Option HidppPairingSlot :=
  ((receiver (slotRegister bolt slot)).bind
    (hidppParseReceiverPairing · (UInt8.ofNat slot) bolt)).map fun parsed =>
      if !bolt && parsed.occupied then
        (parsed.withName (receiver (nameRegister slot))).withSerial
          (receiver (serialRegister slot))
      else parsed

/-- How many slots the receiver has. -/
def slotsOf (productId : UInt16) : ℕ :=
  if slotCount productId = 0 then 0
  else if productId = boltReceiver then slotCount productId
  else countReported (slotCount productId) (receiver 0x03)

/-- What the slots of the receiver hold. -/
def reportedSlots (productId : UInt16) : List HidppPairingSlot :=
  (List.range' 1 (slotsOf receiver productId)).filterMap
    (slotReported receiver (productId = boltReceiver))

/-- All is written, and the receiver answers in time; it has a register for each slot. -/
structure Prompt (productId : UInt16) (net : ReceiverNet) : Prop where
  written : ∀ place, net.written place = true
  inTime : ∀ place, net.timeUp place = false
  answered : ∀ place subregister,
    net.reports place [0x10, 0xFF, 0x83, 0xB5, subregister, 0, 0] =
      (receiver subregister).toList.map ([0x11, 0xFF, 0x83, 0xB5] ++ ·)
  shape : ∀ subregister payload, receiver subregister = some payload →
    payload.length = 16 ∧ byteAt payload 0 = subregister
  slots : ∀ slot, 1 ≤ slot → slot ≤ slotsOf receiver productId →
    (receiver (slotRegister (productId = boltReceiver) slot)).isSome = true

end

/-- A long report with a register of the receiver answers the request for it. -/
theorem awaitRegister_report {subregister : UInt8} {payload : Bytes}
    (hlength : payload.length = 16) (hecho : byteAt payload 0 = subregister) :
    awaitRegister (.register 0xFF 0x83B5 [subregister]) [[0x11, 0xFF, 0x83, 0xB5] ++ payload] =
      some payload := by
  have herror : isHidppError ([0x11, 0xFF, 0x83, 0xB5] ++ payload) = false := by
    simp [isHidppError, byteAt, isHidppReport]
  have hreply : isRegisterReply 0xFF 0x83B5 [subregister]
      ([0x11, 0xFF, 0x83, 0xB5] ++ payload) = true := by
    have hbyte : byteAt ([0x11, 0xFF, 0x83, 0xB5] ++ payload) 4 = subregister := hecho
    have hsize : ([0x11, 0xFF, 0x83, 0xB5] ++ payload : Bytes).length = 20 := by
      rw [List.length_append, hlength]
      rfl
    have htop : ((0x83B5 : UInt16) >>> 8).toUInt8 = 0x83 := by decide
    unfold isRegisterReply
    rw [hbyte, hsize, htop]
    simp [byteAt]
  rw [awaitRegister_cons, herror, hreply]
  rfl

namespace ReceiverSession
variable {s : ReceiverSession} {productId : UInt16}

theorem readInfo_prompt (h : Prompt receiver productId net) (hs : s.OnReceiver)
    (subregister : UInt8) :
    (readInfo net subregister s).1 = receiver subregister ∧
      (readInfo net subregister s).2.OnReceiver := by
  have hindex : s.transport.deviceIndex = 0xFF := hs
  have hread : readInfo net subregister s =
      (awaitRegister (.register 0xFF 0x83B5 [subregister])
        (net.reports s.packets.length [0x10, 0xFF, 0x83, 0xB5, subregister, 0, 0]),
      { s with packets := s.packets ++ [[0x10, 0xFF, 0x83, 0xB5, subregister, 0, 0]] }) := by
    have hregister : ¬(0x02FF < receiverInfo ∨ 3 < [subregister].length) := by
      rw [not_or]
      exact ⟨by decide, by simp⟩
    have htarget : s.transport.targetOf 0xFF = 0xFF := hindex
    unfold readInfo readRegister
    rw [if_neg hregister, htarget]
    dsimp only
    rw [if_pos (h.written _)]
    rfl
  rw [hread, h.answered]
  refine ⟨?_, hs⟩
  cases hregister : receiver subregister with
  | none => rfl
  | some payload =>
      obtain ⟨hlength, hecho⟩ := h.shape subregister payload hregister
      exact awaitRegister_report hlength hecho

theorem readDetails_prompt (h : Prompt receiver productId net) (hs : s.OnReceiver) (bolt : Bool)
    (slot : ℕ) (parsed : HidppPairingSlot) :
    (readDetails net bolt slot parsed s).1 =
      (if !bolt && parsed.occupied then
        (parsed.withName (receiver (nameRegister slot))).withSerial
          (receiver (serialRegister slot))
      else parsed) ∧ (readDetails net bolt slot parsed s).2.OnReceiver := by
  unfold readDetails
  split_ifs
  · obtain ⟨hname, hafter⟩ := readInfo_prompt h hs (nameRegister slot)
    obtain ⟨hserial, hlast⟩ := readInfo_prompt h hafter (serialRegister slot)
    rw [bind_apply, bind_apply, pure_apply, hname, hserial]
    exact ⟨rfl, hlast⟩
  · exact ⟨rfl, hs⟩

theorem readSlots_prompt (h : Prompt receiver productId net) (hs : s.OnReceiver) {bolt : Bool}
    {left slot : ℕ} (timeouts : ℕ) (slots : List HidppPairingSlot)
    (hslots : ∀ i, slot ≤ i → i < slot + left →
      (receiver (slotRegister bolt i)).isSome = true) :
    (readSlots net bolt left slot timeouts slots s).1 =
      slots ++ (List.range' slot left).filterMap (slotReported receiver bolt) := by
  induction left generalizing slot timeouts slots s with
  | zero => exact (List.append_nil slots).symm
  | succ left ih =>
      obtain ⟨hread, hafter⟩ := readInfo_prompt h hs (slotRegister bolt slot)
      obtain ⟨payload, hpayload⟩ := Option.isSome_iff_exists.mp
        (hslots slot (Nat.le_refl _) (Nat.lt_add_of_pos_right (Nat.succ_pos left)))
      have hrest : ∀ i, slot + 1 ≤ i → i < slot + 1 + left →
          (receiver (slotRegister bolt i)).isSome = true :=
        fun i hlow hhigh => hslots i (by omega) (by omega)
      have hup : timeUp net s = (false, s) := congrArg (·, s) (h.inTime _)
      rw [readSlots, bind_apply, hup, List.range'_succ, List.filterMap_cons]
      dsimp only
      rw [if_neg Bool.false_ne_true, bind_apply, hread, hpayload]
      have hslot : slotReported receiver bolt slot =
          (hidppParseReceiverPairing payload (UInt8.ofNat slot) bolt).map fun parsed =>
            if !bolt && parsed.occupied then
              (parsed.withName (receiver (nameRegister slot))).withSerial
                (receiver (serialRegister slot))
            else parsed := by
        rw [slotReported, hpayload]
        rfl
      rw [hslot]
      dsimp only
      cases hparsed : hidppParseReceiverPairing payload (UInt8.ofNat slot) bolt with
      | none => exact ih hafter _ _ hrest
      | some parsed =>
          obtain ⟨hdetails, hlast⟩ := readDetails_prompt h hafter bolt slot parsed
          dsimp only [Option.map_some]
          rw [bind_apply, ih hlast _ _ hrest, hdetails, List.append_assoc, List.singleton_append]

/-- With the receiver selected and prompt, all of its slots are returned. -/
theorem getPairingInfo_prompt (h : Prompt receiver s.productId net) (hs : s.OnReceiver) :
    (getPairingInfo net s).1 = reportedSlots receiver s.productId := by
  have hslots : ∀ i, 1 ≤ i → i < 1 + slotsOf receiver s.productId →
      (receiver (slotRegister (s.productId = boltReceiver) i)).isSome = true :=
    fun i hlow hhigh => h.slots i hlow (by omega)
  unfold getPairingInfo reportedSlots
  unfold slotsOf at hslots ⊢
  rw [bind_apply, get_apply]
  dsimp only
  by_cases hcount : slotCount s.productId = 0
  · rw [if_pos hcount, if_pos hcount]
    rfl
  rw [if_neg hcount] at hslots ⊢
  rw [if_neg hcount]
  by_cases hbolt : s.productId = boltReceiver
  · rw [if_pos hbolt] at hslots ⊢
    rw [if_pos (decide_eq_true hbolt), readSlots_prompt h hs 0 [] hslots]
    rfl
  · obtain ⟨hinfo, hafter⟩ := readInfo_prompt h hs 0x03
    rw [if_neg hbolt] at hslots ⊢
    rw [if_neg (by simpa using hbolt), bind_apply, hinfo, readSlots_prompt h hafter 0 [] hslots]
    rfl

/-! ## The selected device -/

theorem Addressed.length_le {s t : ReceiverSession} (h : Addressed s t) :
    s.packets.length ≤ t.packets.length := by
  obtain ⟨more, hmore, -⟩ := h.packets
  rw [hmore, List.length_append]
  exact Nat.le_add_right _ _

theorem packets_lt_readInfo (subregister : UInt8) (s : ReceiverSession) :
    s.packets.length < (readInfo net subregister s).2.packets.length := by
  obtain ⟨packet, hstate, -⟩ := packets_readInfo net subregister s
  rw [hstate, List.length_append]
  exact Nat.lt_succ_self _

/-- As long as there is time, the first slot is asked for. -/
theorem packets_lt_readSlots (bolt : Bool) (left slot timeouts : ℕ)
    (slots : List HidppPairingSlot) (hup : net.timeUp s.packets.length = false) :
    s.packets.length <
      (readSlots net bolt (left + 1) slot timeouts slots s).2.packets.length := by
  have hlook : timeUp net s = (false, s) := congrArg (·, s) hup
  have hfirst := @packets_lt_readInfo net (slotRegister bolt slot) s
  rw [readSlots, bind_apply, hlook]
  dsimp only
  rw [if_neg Bool.false_ne_true, bind_apply]
  refine Nat.lt_of_lt_of_le hfirst (Addressed.length_le ?_)
  cases (readInfo net (slotRegister bolt slot) s).1 with
  | none =>
      dsimp only
      split_ifs
      · exact Addressed.refl _
      · exact readSlots_addressed net _ _ _ _ _ _
  | some payload =>
      dsimp only
      cases hidppParseReceiverPairing payload (UInt8.ofNat slot) bolt with
      | none => exact readSlots_addressed net _ _ _ _ _ _
      | some parsed =>
          have hrest : Keeps Addressed (readDetails net bolt slot parsed >>= fun parsed =>
              readSlots net bolt left (slot + 1) 0 (slots ++ [parsed])) :=
            Keeps.bind Addressed.trans (readDetails_addressed net bolt slot parsed)
              fun parsed => readSlots_addressed net bolt left (slot + 1) 0 (slots ++ [parsed])
          exact hrest _

/-- A known product is asked, unless the time of a Bolt receiver is up before its first slot. -/
theorem packets_lt_getPairingInfo (hcount : slotCount s.productId ≠ 0)
    (hup : s.productId = boltReceiver → net.timeUp s.packets.length = false) :
    s.packets.length < (getPairingInfo net s).2.packets.length := by
  unfold getPairingInfo
  rw [bind_apply, get_apply]
  dsimp only
  rw [if_neg hcount]
  by_cases hbolt : s.productId = boltReceiver
  · rw [decide_eq_true hbolt, if_pos rfl]
    obtain ⟨left, hleft⟩ := Nat.exists_eq_succ_of_ne_zero hcount
    rw [hleft]
    exact packets_lt_readSlots true left 1 0 [] (hup hbolt)
  · rw [decide_eq_false hbolt, if_neg Bool.false_ne_true, bind_apply]
    exact Nat.lt_of_lt_of_le (packets_lt_readInfo 0x03 s)
      (readSlots_addressed net _ _ _ _ _ _).length_le

/-- The packets that a call writes. -/
def sent (net : ReceiverNet) (s : ReceiverSession) : List Bytes :=
  (getPairingInfo net s).2.packets.drop s.packets.length

theorem mem_sent_addressed {packet : Bytes} (h : packet ∈ s.sent net) :
    byteAt packet 1 = s.transport.deviceIndex := by
  obtain ⟨more, hmore, hto⟩ := (getPairingInfo_addressed net s).packets
  rw [sent, hmore, List.drop_left] at h
  exact hto packet h

/-- An unknown product is not asked. -/
theorem getPairingInfo_unknown (hcount : slotCount s.productId = 0) :
    getPairingInfo net s = ([], s) := by
  unfold getPairingInfo
  rw [bind_apply, get_apply]
  dsimp only
  rw [if_pos hcount]
  rfl

/-- Nor is a Bolt receiver whose time is up at once. -/
theorem getPairingInfo_late (hbolt : s.productId = boltReceiver)
    (hup : net.timeUp s.packets.length = true) : getPairingInfo net s = ([], s) := by
  have hlook : timeUp net s = (true, s) := congrArg (·, s) hup
  have hcount : slotCount boltReceiver = 6 := by decide
  unfold getPairingInfo
  rw [bind_apply, get_apply]
  dsimp only
  rw [hbolt, hcount, if_neg (by decide), decide_eq_true rfl, if_pos rfl, readSlots, bind_apply,
    hlook]
  dsimp only
  rw [if_pos rfl]
  rfl

/-- **Receiver registers are read from the receiver** exactly if the receiver is selected, or
if nothing is read at all. -/
theorem registers_from_receiver (receiver : UInt8 → Option Bytes) (net : ReceiverNet)
    (s : ReceiverSession) (hserves : Serves receiver net) :
    ((∀ packet ∈ s.sent net, byteAt packet 1 = 0xFF) ∧
      (∀ p ∈ (getPairingInfo net s).1, Reported receiver (s.productId = boltReceiver) p) ∧
      (Prompt receiver s.productId net →
        (getPairingInfo net s).1 = reportedSlots receiver s.productId)) ↔
    s.transport.deviceIndex = 0xFF ∨ slotCount s.productId = 0 ∨
      s.productId = boltReceiver ∧ net.timeUp s.packets.length = true := by
  constructor
  · rintro ⟨haddressed, -, -⟩
    by_contra hnot
    rw [not_or, not_or, not_and] at hnot
    obtain ⟨hindex, hcount, hlate⟩ := hnot
    have hasked := packets_lt_getPairingInfo hcount fun hbolt =>
      (Bool.not_eq_true _).mp (hlate hbolt)
    have hsent : s.sent net ≠ [] := List.drop_eq_nil_iff.not.mpr (Nat.not_le.mpr hasked)
    obtain ⟨packet, hpacket⟩ := List.exists_mem_of_ne_nil _ hsent
    exact hindex ((mem_sent_addressed hpacket).symm.trans (haddressed packet hpacket))
  · have hidle : getPairingInfo net s = ([], s) →
        (∀ packet ∈ s.sent net, byteAt packet 1 = 0xFF) ∧
        ∀ p ∈ (getPairingInfo net s).1, Reported receiver (s.productId = boltReceiver) p := by
      intro hnone
      unfold sent
      rw [hnone, List.drop_length]
      exact ⟨nofun, nofun⟩
    rintro (hindex | hcount | ⟨hbolt, hup⟩)
    · exact ⟨fun packet hpacket => (mem_sent_addressed hpacket).trans hindex,
        getPairingInfo_reported hserves hindex, fun hprompt => getPairingInfo_prompt hprompt hindex⟩
    · have hnone := @getPairingInfo_unknown net _ hcount
      refine ⟨(hidle hnone).1, (hidle hnone).2, fun _ => ?_⟩
      rw [hnone, reportedSlots, slotsOf, if_pos hcount]
      rfl
    · have hnone := getPairingInfo_late hbolt hup
      refine ⟨(hidle hnone).1, (hidle hnone).2, fun hprompt => ?_⟩
      exact absurd ((hprompt.inTime _).symm.trans hup) Bool.false_ne_true

/-! ## A receiver with a mouse -/

/-- A Unifying receiver with two slots; a mouse is paired to the first. -/
def unifying : UInt8 → Option Bytes
  | 0x03 => some ([0x03, 0, 0, 0, 0, 0, 2] ++ List.replicate 9 0)
  | 0x20 => some ([0x20, 8, 9, 0x40, 0x82] ++ List.replicate 11 0)
  | 0x21 => some (0x21 :: List.replicate 15 0)
  | 0x40 => some ([0x40, 2, 0x4D, 0x58] ++ List.replicate 12 0)
  | 0x30 => some ([0x30, 0xA1, 0xB2, 0xC3, 0xD4] ++ List.replicate 11 0)
  | _ => none

/-- The receiver answers what is addressed to it. -/
def served (receiver : UInt8 → Option Bytes) : ReceiverNet where
  written _ := true
  reports _ packet :=
    if byteAt packet 1 = 0xFF then
      (receiver (byteAt packet 4)).toList.map ([0x11, 0xFF, 0x83, 0xB5] ++ ·)
    else []
  timeUp _ := false

theorem served_serves {receiver : UInt8 → Option Bytes}
    (hecho : ∀ subregister payload, receiver subregister = some payload →
      byteAt payload 0 = subregister) : Serves receiver (served receiver) := by
  intro place packet data hdata _ _ _ _
  have hreports : (served receiver).reports place packet =
      if byteAt packet 1 = 0xFF then
        (receiver (byteAt packet 4)).toList.map ([0x11, 0xFF, 0x83, 0xB5] ++ ·)
      else [] := rfl
  rw [hreports] at hdata
  split_ifs at hdata
  · obtain ⟨payload, hpayload, rfl⟩ := List.mem_map.mp hdata
    have hregister := Option.mem_toList.mp hpayload
    have hfirst : byteAt ([0x11, 0xFF, 0x83, 0xB5] ++ payload) 4 = byteAt packet 4 :=
      hecho _ _ hregister
    rw [hfirst]
    exact hregister
  · cases hdata

theorem unifying_echo (subregister : UInt8) (payload : Bytes)
    (h : unifying subregister = some payload) : byteAt payload 0 = subregister := by
  unfold unifying at h
  split at h <;> cases h <;> rfl

/-- A transport of the receiver, with a device selected. -/
def selected (idx : UInt8) : ReceiverSession :=
  { transport := { nextSwId := 1, deviceIndex := idx }, productId := 0xc52b }

theorem unifying_prompt : Prompt unifying 0xc52b (served unifying) := by
  refine ⟨fun _ => rfl, fun _ => rfl, fun _ _ => rfl, fun subregister payload h => ?_,
    fun slot hlow hhigh => ?_⟩
  · refine ⟨?_, unifying_echo subregister payload h⟩
    unfold unifying at h
    split at h <;> cases h <;> rfl
  · have htwo : slotsOf unifying 0xc52b = 2 := by decide
    rw [htwo] at hhigh
    obtain rfl | rfl : slot = 1 ∨ slot = 2 := by omega
    · decide
    · decide

/-- With the receiver selected, its two slots are returned. -/
theorem registers_from_receiver_unifying :
    (getPairingInfo (served unifying) (selected 0xFF)).1 = reportedSlots unifying 0xc52b ∧
    (reportedSlots unifying 0xc52b).map HidppPairingSlot.pid = [0x4082, 0] := by
  have hslots := (registers_from_receiver unifying (served unifying) (selected 0xFF)
    (served_serves unifying_echo)).mpr (.inl rfl)
  exact ⟨hslots.2.2 unifying_prompt, by decide +kernel⟩

/-- With the mouse selected, the receiver is not asked at all. -/
theorem selected_mouse_asked :
    ¬∀ (net : ReceiverNet) (s : ReceiverSession), ∀ packet ∈ s.sent net,
      byteAt packet 1 = 0xFF := by
  intro hall
  have hmouse : (selected 1).sent (served unifying) = [[0x10, 1, 0x83, 0xB5, 3, 0, 0],
      [0x10, 1, 0x83, 0xB5, 0x20, 0, 0], [0x10, 1, 0x83, 0xB5, 0x21, 0, 0],
      [0x10, 1, 0x83, 0xB5, 0x22, 0, 0]] := by
    decide +kernel
  have hfirst := hall (served unifying) (selected 1) [0x10, 1, 0x83, 0xB5, 3, 0, 0]
    (by rw [hmouse]; exact List.mem_cons_self)
  exact absurd hfirst (by decide)

end ReceiverSession
end AbrekMouse
