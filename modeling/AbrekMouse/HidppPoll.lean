import AbrekMouse.HidppEvents

/-! # Polling the HID++ devices

The worker looks for new nodes every two seconds.  About once a second it asks each device
for its battery and its DPI, if that is due, and then drains each node once: a notification
goes to the device of the node that it names, or to the first device of the node if it
names none of them.

What a poll learns from the nodes is an input of it.
-/
namespace AbrekMouse
open ProgLib

/-- What a poll learns from the nodes and their devices. -/
structure HidppWorld where
  now : ℕ
  /-- The hidraw nodes of the vendor. -/
  paths : List Bytes
  identify : Bytes → List HidppDev
  /-- Is the transport that the worker has for a path still open? -/
  alive : Bytes → Bool
  opens : Bytes → Bool
  battery : Bytes → UInt8 → Option BatteryInfo
  /-- The current DPI. -/
  dpi : Bytes → UInt8 → Option UInt16
  /-- Is it still open when the node is drained? -/
  drainable : Bytes → Bool
  drained : Bytes → List HidppNotification
  lights : List UInt16

/-- What the worker keeps, and the mice that its readings go to. -/
structure HidppWorker where
  devs : List HidppDev := []
  /-- The transports, by path; each has a number of its own. -/
  transports : List (Bytes × ℕ) := []
  opened : ℕ := 0
  nonHidppPaths : List Bytes := []
  rescanMs : ℕ := 0
  drainMs : ℕ := 0
  mice : List Readings := []

namespace HidppWorker
variable (p : HidppWorld) (w : HidppWorker)

/-! ## The rescan -/

/-- A node that is not known yet; devices without HID++ are only shown. -/
def identifyPath (w : HidppWorker) (path : Bytes) : HidppWorker :=
  if path ∈ w.nonHidppPaths then w
  else if w.devs.any (·.hidrawPath = path) then w
  else
    let found := (p.identify path).filter (·.protocolVersion ≠ 0)
    if found = [] then { w with nonHidppPaths := w.nonHidppPaths ++ [path] }
    else { w with devs := w.devs ++ found }

/-- Devices whose node is gone are forgotten with their transports. -/
def forgetGone : HidppWorker :=
  let gone := w.devs.filter (·.hidrawPath ∉ p.paths)
  { w with
    devs := w.devs.filter (·.hidrawPath ∈ p.paths)
    transports := w.transports.filter fun t => ∀ d ∈ gone, d.hidrawPath ≠ t.1
    nonHidppPaths := w.nonHidppPaths.filter (· ∈ p.paths) }

/-- The nodes are looked for anew, every two seconds. -/
def rescan : HidppWorker :=
  if p.now < w.rescanMs then w
  else p.paths.foldl (identifyPath p) { w.forgetGone p with rescanMs := p.now + 2000 }

/-! ## The queries -/

/-- A device of the list changes. -/
def setDev (i : ℕ) (f : HidppDev → HidppDev) : HidppWorker := { w with devs := w.devs.modify i f }

/-- The transport of a path: a new one if there is none, or if it is not open any more. -/
def openTransport (path : Bytes) : HidppWorker :=
  if (w.transports.lookup path).isSome ∧ p.alive path then w
  else
    { w with
      transports := (path, w.opened) :: w.transports.filter (·.1 ≠ path)
      opened := w.opened + 1 }

/-- There is an open transport for the path, the one that was kept or a new one. -/
def isOpen (path : Bytes) : Bool :=
  if (w.transports.lookup path).isSome ∧ p.alive path then true else p.opens path

/-- A device is asked for its battery every 60 s. -/
def queryBattery (i : ℕ) (d : HidppDev) : HidppWorker :=
  if p.now < d.lastBatteryMs + 60000 then w
  else
    let w := w.setDev i fun d => { d with lastBatteryMs := p.now }
    match p.battery d.hidrawPath d.deviceIndex with
    | none => w
    | some b => { w.setDev i fun d => { d with batteryLevel := b.level } with
        mice := applyHidppBattery d b w.mice }

/-- And for its DPI every 5 s.  A DPI that differs between the axes is also written back, which
changes nothing here. -/
def queryDpi (i : ℕ) (d : HidppDev) : HidppWorker :=
  if p.now < d.lastDpiCheckMs + 5000 then w
  else
    let w := w.setDev i fun d => { d with lastDpiCheckMs := p.now }
    match p.dpi d.hidrawPath d.deviceIndex with
    | none => w
    | some dpi => { w with mice := applyHidppDpi d dpi w.mice }

/-- A device is asked for its battery and its DPI, each when its time has come. -/
def queryDevice (w : HidppWorker) (i : ℕ) : HidppWorker :=
  match w.devs[i]? with
  | none => w
  | some d =>
      let opened := w.isOpen p d.hidrawPath
      let w := w.openTransport p d.hidrawPath
      if opened then (w.queryBattery p i d).queryDpi p i d else w

/-- The devices are asked one after the other. -/
def queryDevices : HidppWorker := (List.range w.devs.length).foldl (queryDevice p) w

/-! ## The drain -/

/-- The device that a notification from the node is for. -/
def targetOf (devs : List HidppDev) (path : Bytes) (n : HidppNotification) : Option ℕ :=
  match devs.findIdx? fun d => d.hidrawPath = path && d.deviceIndex = n.deviceIndex with
  | some i => some i
  -- a broadcast, or an index that has not been identified yet
  | none => devs.findIdx? (·.hidrawPath = path)

/-- A notification goes to the device that it names, if that one is known. -/
def handle (path : Bytes) (w : HidppWorker) (n : HidppNotification) : HidppWorker :=
  match (targetOf w.devs path n).bind fun i => w.devs[i]?.map (i, ·) with
  | none => w
  | some (i, d) =>
      match d.batteryOf p.lights n with
      | none => w
      | some b => { w.setDev i fun d => { d with batteryLevel := b.level } with
          mice := applyHidppBattery d b w.mice }

/-- The notifications of a node, in their order. -/
def drainPath (w : HidppWorker) (path : Bytes) : HidppWorker :=
  if (w.transports.lookup path).isSome ∧ p.drainable path then
    (p.drained path).foldl (handle p path) w
  else w

/-- Every node is drained once, however many devices it has. -/
def drain : HidppWorker := (w.devs.map (·.hidrawPath)).eraseDups.foldl (drainPath p) w

/-- `poll_hidpp_notifications`. -/
def poll : HidppWorker :=
  let w := w.rescan p
  if p.now < w.drainMs then w
  else (({ w with drainMs := p.now + 1000 }).queryDevices p).drain p

end HidppWorker
end AbrekMouse
