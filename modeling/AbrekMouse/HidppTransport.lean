import AbrekMouse.Hidpp
import AbrekMouse.Machine

/-! # The HID++ transport

One transport serves every device behind a hidraw node.  A call writes its request and
then reads reports until one answers it or its time is up; the other reports it reads on
the way are dropped, or kept if they are notifications.

Reports arrive at any time and wait to be read.  Each carries the number of the feature
request that it answers, if it answers one, and may answer it at any time after the
request; nothing in the transport sees the number.
-/
namespace AbrekMouse
open ProgLib

/-! ## Calls -/

/-- The calls that read reports; `sendPacket` is `send_short`, `send_long` or
`send_very_long`. -/
inductive TransportCall
  | sendFeatureRequest (feature function : UInt8) (params : Bytes) (target : UInt8)
  | sendPacket (form : PacketForm) (feature function : UInt8) (params : Bytes) (target : UInt8)
  | readRegister (register : UInt16) (params : Bytes) (target : UInt8)
  | probeHidpp10 (target : UInt8)
  | receiveNotification
  | drainNotifications (maxCount : ℕ)

/-- What a call returns. -/
inductive CallResult
  | payload (payload : Option Bytes)
  | packet (packet : Option HidppPacket)
  | found (found : Bool)
  | notification (notification : Option HidppNotification)
  | notifications (notifications : List HidppNotification)
deriving DecidableEq

/-- The bytes of a feature request that its answer repeats. -/
structure Asked where
  device : UInt8
  feature : UInt8
  function : UInt8
  softwareId : UInt8
deriving DecidableEq

/-- The wait loops. -/
inductive Wait
  | feature (asked : Asked)
  | packet (form : PacketForm) (asked : Asked)
  | register (target : UInt8) (request : UInt16) (params : Bytes)
  | probe (target : UInt8)
  | receive
  | drain (maxCount : ℕ) (notifications : List HidppNotification)

/-- What a wait loop does with a report. -/
inductive Reaction
  | ignore
  | stash (n : HidppNotification)
  /-- A notification is handed out, and the loop goes on. -/
  | hand (n : HidppNotification) (wait : Wait)
  | handLast (n : HidppNotification) (result : CallResult)
  | finish (result : CallResult)

/-- A report that answers nothing is kept if it is a notification. -/
def stashed (data : Bytes) : Reaction :=
  match HidppNotification.fromBytes data with
  | some n => .stash n
  | none => .ignore

namespace Asked

/-- The error repeats the device and the software id. -/
def isError (a : Asked) (data : Bytes) : Bool :=
  byteAt data 1 = a.device && byteAt data 3 &&& 0x0F = a.softwareId

/-- The reply repeats the device, the feature, the function and the software id. -/
def isReply (a : Asked) (data : Bytes) : Bool :=
  byteAt data 1 = a.device && byteAt data 2 = a.feature && byteAt data 3 >>> 4 = a.function &&
    byteAt data 3 &&& 0x0F = a.softwareId

/-- An answer to the request: a reply, or an error. -/
def IsAnswer (a : Asked) (data : Bytes) : Prop :=
  byteAt data 1 = a.device ∧ byteAt data 3 = functionByte a.function a.softwareId ∧
    (byteAt data 2 = a.feature ∨ isHidppError data = true)

instance (a : Asked) (data : Bytes) : Decidable (a.IsAnswer data) :=
  inferInstanceAs (Decidable (_ ∧ _ ∧ (_ ∨ _)))

end Asked

/-- The reply to a register read repeats the device and the register, and the sub-register
of the receiver information. -/
def isRegisterReply (target : UInt8) (request : UInt16) (params data : Bytes) : Bool :=
  (data.length = 7 || data.length = 20) && byteAt data 1 = target &&
    byteAt data 2 = (request >>> 8).toUInt8 && byteAt data 3 = request.toUInt8 &&
    !(request &&& 0x00FF = 0x00B5 && params ≠ [] &&
      (data.length < 5 || byteAt data 4 ≠ byteAt params 0))

namespace Wait

/-- What a waiting call does with a report: it is its reply or its error, it is kept for others,
or it is skipped. -/
def onReport (data : Bytes) : Wait → Reaction
  | feature asked =>
      if isHidppError data then
        -- errors of other requests are skipped
        if asked.isError data then .finish (.payload none) else .ignore
      else if data.length ≠ 7 ∧ data.length ≠ 20 ∧ data.length ≠ 64 then .ignore
      else if asked.isReply data then .finish (.payload (some (data.drop 4)))
      else stashed data
  | packet form asked =>
      if isHidppError data then
        if asked.isError data then .finish (.packet none) else .ignore
      else match HidppPacket.fromBytes form data with
        | some rsp =>
            if rsp.featureIndex = asked.feature ∧ rsp.functionId = asked.function ∧
                rsp.softwareId = asked.softwareId ∧ rsp.deviceIndex = asked.device then
              .finish (.packet (some rsp))
            else stashed data
        | none => stashed data
  -- no stash in this loop, and no look at the software id of an error
  | register target request params =>
      if isHidppError data then
        if byteAt data 1 = target then .finish (.payload none) else .ignore
      else if isRegisterReply target request params data then
        .finish (.payload (some (data.drop 4)))
      else .ignore
  | probe target =>
      if (data.length ≠ 7 ∧ data.length ≠ 20) ∨ byteAt data 1 ≠ target then .ignore
      -- an error also shows that there is a HID++ 1.0 device
      else if byteAt data 2 = 0x81 ∧ byteAt data 3 = 0x00 then .finish (.found true)
      else if byteAt data 2 = 0x8F ∧ byteAt data 3 = 0x00 then .finish (.found true)
      else .ignore
  | receive =>
      match HidppNotification.fromBytes data with
      | some n => .handLast n (.notification (some n))
      | none => .ignore
  | drain maxCount notifications =>
      match HidppNotification.fromBytes data with
      | some n =>
          if notifications.length + 1 < maxCount then
            .hand n (.drain maxCount (notifications ++ [n]))
          else .handLast n (.notifications (notifications ++ [n]))
      | none => .ignore

/-- What the call returns when its time is up, or the node is gone. -/
def onTimeout : Wait → CallResult
  | feature _ | register .. => .payload none
  | packet .. => .packet none
  | probe _ => .found false
  | receive => .notification none
  | drain _ notifications => .notifications notifications

/-- The feature request whose answer the loop waits for. -/
def asked? : Wait → Option Asked
  | feature asked | packet _ asked => some asked
  | _ => none

end Wait

/-! ## The transport and its node -/

/-- The software id of the next request, the device that is spoken to, and the notifications
that came while a call was waiting. -/
structure HidppTransport where
  nextSwId : UInt8
  deviceIndex : UInt8
  pendingNotifications : List HidppNotification := []
  isOpen : Bool := true

namespace HidppTransport
variable (t : HidppTransport)

/-- `next_sw_id`: the id, and the transport after it.  The id 0 is left out. -/
def takeSwId : UInt8 × HidppTransport :=
  let next := t.nextSwId + 1 &&& 0x0F
  (t.nextSwId &&& 0x0F, { t with nextSwId := if next = 0 then 1 else next })

/-- The device that is asked: 0xFF stands for the one that the transport speaks to. -/
def targetOf (target : UInt8) : UInt8 := if target ≠ 0xFF then target else t.deviceIndex

/-- At most 16 notifications are kept. -/
def stash (n : HidppNotification) : HidppTransport :=
  if t.pendingNotifications.length < 16 then
    { t with pendingNotifications := t.pendingNotifications ++ [n] }
  else t

end HidppTransport

/-- A call begins, a report arrives, or the time of a call is up. -/
inductive LineStep
  /-- A call; is its request written? -/
  | call (c : TransportCall) (written : Bool)
  /-- A report arrives, perhaps the answer to a feature request. -/
  | arrive (source : Option ℕ) (data : Bytes)
  | read
  | expire
  | hangUp
  | setDeviceIndex (idx : UInt8)
  | clearFeatureCache

/-- A transport, and the node that it reads. -/
structure HidrawLine where
  transport : HidppTransport
  wait : Option Wait := none
  unread : List (Option ℕ × Bytes) := []
  /-- What the last call has returned. -/
  result : Option CallResult := none
  /-- The feature requests so far. -/
  asked : List Asked := []
  arrived : List Bytes := []
  /-- The notifications handed out. -/
  handed : List HidppNotification := []
  /-- The requests whose answer has ended another call. -/
  mistaken : List ℕ := []

namespace HidrawLine
variable (s : HidrawLine)

/-- The call returns. -/
def return_ (r : CallResult) : HidrawLine := { s with wait := none, result := some r }

/-- The request is written, and the loop entered. -/
def enter (written : Bool) (w : Wait) : HidrawLine :=
  if written ∧ s.transport.isOpen then { s with wait := some w } else s.return_ w.onTimeout

/-- A feature request takes a software id. -/
def ask (written : Bool) (feature function target : UInt8) (wait : Asked → Wait) : HidrawLine :=
  let asked : Asked :=
    { device := s.transport.targetOf target
      feature := feature
      function := normalizeFunctionId function
      softwareId := s.transport.takeSwId.1 }
  enter { s with transport := s.transport.takeSwId.2, asked := s.asked ++ [asked] } written
    (wait asked)

/-- A call writes its request and waits, unless its parameters are too long. -/
def call (written : Bool) : TransportCall → HidrawLine
  | .sendFeatureRequest feature function params target =>
      if 16 < params.length then s.return_ (.payload none)
      else s.ask written feature function target .feature
  | .sendPacket form feature function _ target =>
      s.ask written feature function target (.packet form)
  | .readRegister register params target =>
      if 0x02FF < register ∨ 3 < params.length then s.return_ (.payload none)
      else s.enter written
        (.register (s.transport.targetOf target) (0x8100 ||| register) params)
  | .probeHidpp10 target => s.enter written (.probe (s.transport.targetOf target))
  -- the stash is left to the drain
  | .receiveNotification =>
      if s.transport.isOpen then { s with wait := some .receive }
      else s.return_ (.notification none)
  | .drainNotifications maxCount =>
      if maxCount = 0 ∨ ¬s.transport.isOpen then s.return_ (.notifications [])
      else
        let notifications := s.transport.pendingNotifications.take maxCount
        let s : HidrawLine := { s with
          transport := { s.transport with
            pendingNotifications := s.transport.pendingNotifications.drop maxCount }
          handed := s.handed ++ notifications }
        if maxCount ≤ notifications.length then s.return_ (.notifications notifications)
        else { s with wait := some (.drain maxCount notifications) }

/-- The answer ends a call that it does not belong to. -/
def mistakes (w : Wait) : Option ℕ → List ℕ
  | some i => if w.asked?.isSome ∧ i + 1 = s.asked.length then [] else [i]
  | none => []

/-- The loop reads a report. -/
def react (w : Wait) (source : Option ℕ) : Reaction → HidrawLine
  | .ignore => s
  | .stash n => { s with transport := s.transport.stash n }
  | .hand n w => { s with handed := s.handed ++ [n], wait := some w }
  | .handLast n r => { s.return_ r with handed := s.handed ++ [n] }
  | .finish r => { s.return_ r with mistaken := s.mistaken ++ s.mistakes w source }

/-- One call at a time; a report that names its request is an answer to it. -/
def step : LineStep → Option HidrawLine
  | .call c written => if s.wait.isNone then some (s.call written c) else none
  | .arrive source data =>
      if ∀ i, source = some i → ∃ a, s.asked[i]? = some a ∧ a.IsAnswer data then
        some { s with unread := s.unread ++ [(source, data)], arrived := s.arrived ++ [data] }
      else none
  | .read =>
      match s.wait, s.unread with
      | some w, (source, data) :: unread =>
          some (react { s with unread := unread } w source (w.onReport data))
      | _, _ => none
  | .expire => s.wait.map fun w => s.return_ w.onTimeout
  | .hangUp => s.wait.map fun w =>
      { s.return_ w.onTimeout with transport := { s.transport with isOpen := false } }
  | .setDeviceIndex idx => some { s with
      transport := { s.transport with pendingNotifications := [], deviceIndex := idx } }
  | .clearFeatureCache => some { s with
      transport := { s.transport with pendingNotifications := [] } }

/-- Nothing has been asked, and nothing has arrived. -/
def machine : Machine HidrawLine LineStep where
  Start s := ∃ t : HidppTransport, 1 ≤ t.nextSwId ∧ t.nextSwId ≤ 15 ∧
    t.pendingNotifications = [] ∧ s = { transport := t }
  step := step

/-- A transport that has been used for nothing. -/
def unused : HidrawLine := { transport := { nextSwId := 1, deviceIndex := 0xFF } }

theorem unused_start : machine.Start unused :=
  ⟨unused.transport, by decide, by decide, rfl, rfl⟩

/-- A long report about the device 1. -/
def longReport (feature function : UInt8) : Bytes :=
  [0x11, 0x01, feature, function] ++ List.replicate 16 0

end HidrawLine
end AbrekMouse
