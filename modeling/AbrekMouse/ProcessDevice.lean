import AbrekMouse.Uinput

/-! # Reading a device

`processDevice` drains what a mouse has to report and writes it to the virtual device,
frame by frame.  In accel mode the motion of a frame is summed and its other events are
queued, and all of it goes out at the frame's `SYN_REPORT`.  A frame that is not
finished when there is no more to read, or when the kernel says that it has dropped
events, is parked in the device, and the next call starts from it.  In raw passthrough
each event goes out at once.

What `read` and `write` answer is an input.  The motion pipeline is a parameter: the
counts that a flush puts out, and the timing and statistics that it keeps.
-/
namespace AbrekMouse
open ProgLib

/-! ## The device -/

/-- The timing, the remainders and the statistics of a device, as `M`. -/
structure MotionEngine (M : Type) where
  /-- `flush_motion`, up to the write of its counts. -/
  flushMotion (rawPassthrough : Bool) (dx dy : Double) (frameEvUs : UInt64) (m : M) : (ℤ × ℤ) × M
  /-- The rest of it: the statistics, once the counts are in the batch. -/
  recordFlush : M → M := id
  /-- `last_frame_ev_us` and `last_time_ms` move to the end of a frame. -/
  closeFrame (frameEvUs : UInt64) (m : M) : M
  /-- They move to the end of a dropped window. -/
  closeDrop (ev : InputEvent) (m : M) : M

/-- What `process_device` reads and writes of a `mouse_device`. -/
structure InputDevice (M : Type) where
  hasUidev : Bool := true
  uinput : Uinput
  rawPassthrough : Bool := false
  motion : M
  disconnected : Bool := false
  synDropped : Bool := false
  pendingDx : Double := 0
  pendingDy : Double := 0
  hasPendingMotion : Bool := false
  pendingEvents : EventBuffer InputEvent := {}
  /-- The events that found no room; the code counts them modulo `2 ^ 64`. -/
  evTailOverruns : ℕ := 0

/-- The local variables of a call, with the device. -/
structure Call (M : Type) where
  dev : InputDevice M
  out : WriteBatch := {}
  dx : Double := 0
  dy : Double := 0
  hasMotion : Bool := false
  queued : EventBuffer InputEvent := {}
  wroteUnsynced : Bool := false

/-- How a `read` of the device ends. -/
inductive ReadResult
  | got (evs : List InputEvent)
  | again
  | interrupted
  /-- `EIO`, `ENODEV` or `EBADF`. -/
  | deviceError
  | otherError
  | endOfFile

/-- The events that one call reads, at most. -/
def maxDrainPerBatch : ℕ := 4096

variable {M : Type} (E : MotionEngine M) (answers : ℕ → WriteResult)

namespace Call
variable (c : Call M)

/-! ## Output -/

/-- The virtual device and the batch for it. -/
def output : Output := ⟨c.dev.uinput, c.out⟩

/-- The virtual device and the batch are put back. -/
def withOutput (o : Output) : Call M :=
  { c with dev := { c.dev with uinput := o.uinput }, out := o.batch }

/-- The device is marked as gone. -/
def disconnect : Call M := { c with dev := { c.dev with disconnected := true } }

/-- Where the output fails the call returns, and the device is given up. -/
def emit (f : Output → Except Output Output) : Except (Call M) (Call M) :=
  match f c.output with
  | .ok o => .ok (c.withOutput o)
  | .error o => .error (c.withOutput o).disconnect

/-- `flush_pending_motion`. -/
def flushPendingMotion (frameEvUs : UInt64) : Except (Call M) (Call M) :=
  if c.hasMotion then
    let (counts, motion) := E.flushMotion c.dev.rawPassthrough c.dx c.dy frameEvUs c.dev.motion
    { c with dev := { c.dev with motion := motion } }.emit
        (fun o => o.addRel answers counts.1 counts.2) >>= fun c =>
      .ok { c with
        dx := 0
        dy := 0
        hasMotion := false
        dev := { c.dev with motion := E.recordFlush c.dev.motion } }
  else .ok c

/-- `flush_queued`. -/
def flushQueued : Except (Call M) (Call M) :=
  c.emit (fun o => c.queued.evs.foldlM (fun o e => o.addFlushIfFull answers e.toOutEvent) o) >>=
    fun c => .ok { c with queued := {} }

/-- An event that goes out at once. -/
def forward (ev : InputEvent) : Except (Call M) (Call M) :=
  c.emit (fun o => o.write answers [ev.toOutEvent]) >>= fun c =>
    .ok { c with wroteUnsynced := true }

/-- A wheel event or a SYN subtype; one too many is dropped. -/
def queueOrDrop (ev : InputEvent) : Call M :=
  match c.queued.add ev with
  | some queued => { c with queued := queued }
  | none => c

/-- A button; one too many goes out at once, after those that were queued. -/
def queueOrForward (ev : InputEvent) : Except (Call M) (Call M) :=
  match c.queued.add ev with
  | some queued => .ok { c with queued := queued }
  | none => c.flushQueued answers >>= fun c => c.emit (fun o => o.flush answers) >>= fun c =>
      c.forward answers ev

/-! ## The parked frame -/

/-- The unfinished frame goes behind what is parked; what does not fit is counted. -/
def park : Call M :=
  if c.hasMotion ∨ c.queued.evs ≠ [] then
    let parked := c.dev.pendingEvents.fill c.queued.evs
    let added := parked.evs.length - c.dev.pendingEvents.evs.length
    { c with dev := { c.dev with
        pendingDx := c.dev.pendingDx + c.dx
        pendingDy := c.dev.pendingDy + c.dy
        hasPendingMotion := true
        pendingEvents := parked
        evTailOverruns := c.dev.evTailOverruns + (c.queued.evs.length - added) } }
  else c

/-- `SYN_DROPPED`. -/
def openDrop : Call M :=
  let c := c.park
  { c with
    dx := 0
    dy := 0
    hasMotion := false
    queued := {}
    dev := { c.dev with synDropped := true } }

/-- A dropped window ends. -/
def closeDrop (ev : InputEvent) : Call M :=
  { c with dev := { c.dev with synDropped := false, motion := E.closeDrop ev c.dev.motion } }

/-- A genuine `SYN_REPORT`: the whole frame goes out in one write. -/
def closeFrame (frameEvUs : UInt64) : Except (Call M) (Call M) :=
  c.flushPendingMotion E answers frameEvUs >>= fun c => c.flushQueued answers >>= fun c =>
    { c with dev := { c.dev with motion := E.closeFrame frameEvUs c.dev.motion } }.emit
      (fun o => o.addSyn answers) >>= fun c => c.emit (fun o => o.flush answers) >>= fun c =>
    .ok { c with wroteUnsynced := false }

end Call

/-! ## The loop -/

/-- One event of a read. -/
def processEvent (c : Call M) (ev : InputEvent) : Except (Call M) (Call M) :=
  if ev.type = evSyn then
    if ev.code = synDropped then .ok c.openDrop
    -- inside a dropped window only the next `SYN_REPORT` counts
    else if c.dev.synDropped then .ok (if ev.code = synReport then c.closeDrop E ev else c)
    else if ev.code ≠ synReport then
      if c.dev.rawPassthrough then c.forward answers ev else .ok (c.queueOrDrop ev)
    else c.closeFrame E answers ev.frameEvUs
  else if c.dev.synDropped then .ok c
  else if ev.type = evRel then
    if ev.code = relX ∨ ev.code = relY then
      if c.dev.rawPassthrough then c.forward answers ev
      else if ev.code = relX then .ok { c with dx := c.dx + Fp.ofInt ev.value, hasMotion := true }
      else .ok { c with dy := c.dy + Fp.ofInt ev.value, hasMotion := true }
    else if c.dev.rawPassthrough then c.forward answers ev
    else .ok (c.queueOrDrop ev)
  else if c.dev.rawPassthrough then c.forward answers ev
  else c.queueOrForward answers ev

/-- The reads of a call; the first number is how many it may still make, and after the
last of the list there is nothing to read. -/
def drain : ℕ → List ReadResult → Call M → Except (Call M) (Call M)
  | 0, _, c => .ok c
  | _, [], c => .ok c
  | n + 1, .got evs :: reads, c =>
      if evs = [] then .ok c
      else evs.foldlM (processEvent E answers) c >>= drain n reads
  | n + 1, .interrupted :: reads, c => drain n reads c
  | _ + 1, .again :: _, c => .ok c
  | _ + 1, .deviceError :: _, c => .ok c.disconnect
  | _ + 1, .otherError :: _, c => .ok c
  | _ + 1, .endOfFile :: _, c => .ok c.disconnect

/-- What was parked is the start of the first frame. -/
def mergeTail (dev : InputDevice M) : Call M :=
  if dev.hasPendingMotion then
    let queued := EventBuffer.fill {} dev.pendingEvents.evs
    { dev := { dev with
        hasPendingMotion := false
        pendingDx := 0
        pendingDy := 0
        pendingEvents := {}
        evTailOverruns := dev.evTailOverruns +
          (dev.pendingEvents.evs.length - queued.evs.length) }
      dx := dev.pendingDx
      dy := dev.pendingDy
      hasMotion := true
      queued := queued }
  else { dev := dev }

/-- The end of a call: the unfinished frame is parked, and what was written without a
`SYN_REPORT` gets one, except in raw passthrough. -/
def finish (c : Call M) : Except (Call M) (Call M) :=
  let c := c.park
  if c.wroteUnsynced ∧ !c.dev.rawPassthrough then
    c.emit (fun o => o.write answers [.syn]) >>= fun c => .ok { c with wroteUnsynced := false }
  else .ok c

/-- `process_device`.  It ends with `.error` where it returned because a write had
failed. -/
def processDevice (dev : InputDevice M) (reads : List ReadResult) :
    Except (InputDevice M) (InputDevice M) :=
  if dev.hasUidev then
    match drain E answers maxDrainPerBatch reads (mergeTail dev) >>= finish answers with
    | .ok c => .ok c.dev
    | .error c => .error c.dev
  else .ok dev

/-- The events that a call reads. -/
def eventsRead : ℕ → List ReadResult → List InputEvent
  | 0, _ => []
  | _, [] => []
  | n + 1, .got evs :: reads => if evs = [] then [] else evs ++ eventsRead n reads
  | n + 1, .interrupted :: reads => eventsRead n reads
  | _ + 1, _ :: _ => []

@[simp] theorem mergeTail_uinput (dev : InputDevice M) :
    (mergeTail dev).dev.uinput = dev.uinput := by
  unfold mergeTail
  split_ifs <;> rfl

namespace InputDevice

/-- The events that a call of this device reads. -/
def inputs (dev : InputDevice M) (reads : List ReadResult) : List InputEvent :=
  if dev.hasUidev then eventsRead maxDrainPerBatch reads else []

/-- The calls of a run; it goes on while no write fails. -/
def run (E : MotionEngine M) (answers : ℕ → WriteResult) (dev : InputDevice M)
    (calls : List (List ReadResult)) : Except (InputDevice M) (InputDevice M) :=
  calls.foldlM (processDevice E answers) dev

end InputDevice

/-! ## Cut points -/

/-- A device has made the calls `calls`, given by the events that they read; the current
one has read `es` so far, no write has failed, and `c` is where it stands. -/
inductive Midway (E : MotionEngine M) (answers : ℕ → WriteResult) (dev : InputDevice M) :
    List (List InputEvent) → List InputEvent → Call M → Prop
  | start : Midway E answers dev [] [] (mergeTail dev)
  | event {calls : List (List InputEvent)} {es : List InputEvent} {c c' : Call M}
      {ev : InputEvent} : Midway E answers dev calls es c →
      processEvent E answers c ev = .ok c' → Midway E answers dev calls (es ++ [ev]) c'
  | disconnect {calls : List (List InputEvent)} {es : List InputEvent} {c : Call M} :
      Midway E answers dev calls es c → Midway E answers dev calls es c.disconnect
  | next {calls : List (List InputEvent)} {es : List InputEvent} {c c' : Call M} :
      Midway E answers dev calls es c → finish answers c = .ok c' →
      Midway E answers dev (calls ++ [es]) [] (mergeTail c'.dev)

/-- The device after the calls `calls`. -/
inductive Settled (E : MotionEngine M) (answers : ℕ → WriteResult) (dev : InputDevice M) :
    List (List InputEvent) → InputDevice M → Prop
  | start : Settled E answers dev [] dev
  | call {calls : List (List InputEvent)} {es : List InputEvent} {c c' : Call M} :
      Midway E answers dev calls es c → finish answers c = .ok c' →
      Settled E answers dev (calls ++ [es]) c'.dev

variable {E answers}

/-- What a call never changes. -/
structure Call.Constant (c c' : Call M) : Prop where
  hasUidev : c'.dev.hasUidev = c.dev.hasUidev
  rawPassthrough : c'.dev.rawPassthrough = c.dev.rawPassthrough

namespace Call.Constant
variable {c c' c'' : Call M}

theorem refl (c : Call M) : Constant c c := ⟨rfl, rfl⟩

theorem trans (h : Constant c c') (h' : Constant c' c'') : Constant c c'' :=
  ⟨h'.hasUidev.trans h.hasUidev, h'.rawPassthrough.trans h.rawPassthrough⟩

theorem of_emit {f : Output → Except Output Output} (h : c.emit f = .ok c') : Constant c c' := by
  unfold emit at h
  split at h
  · cases h
    exact ⟨rfl, rfl⟩
  · cases h

theorem of_flushPendingMotion {frame : UInt64} (h : c.flushPendingMotion E answers frame = .ok c') :
    Constant c c' := by
  unfold flushPendingMotion at h
  split_ifs at h
  · obtain ⟨d, hd, hc'⟩ := Except.bind_eq_ok_iff.mp h
    cases hc'
    have hemit := of_emit hd
    exact ⟨hemit.hasUidev, hemit.rawPassthrough⟩
  · cases h
    exact refl c

theorem of_flushQueued (h : c.flushQueued answers = .ok c') : Constant c c' := by
  obtain ⟨d, hd, hc'⟩ := Except.bind_eq_ok_iff.mp h
  cases hc'
  have hemit := of_emit hd
  exact ⟨hemit.hasUidev, hemit.rawPassthrough⟩

theorem of_forward {ev : InputEvent} (h : c.forward answers ev = .ok c') : Constant c c' := by
  obtain ⟨d, hd, hc'⟩ := Except.bind_eq_ok_iff.mp h
  cases hc'
  have hemit := of_emit hd
  exact ⟨hemit.hasUidev, hemit.rawPassthrough⟩

theorem of_queueOrDrop (c : Call M) (ev : InputEvent) : Constant c (c.queueOrDrop ev) := by
  unfold queueOrDrop
  split <;> exact ⟨rfl, rfl⟩

theorem of_queueOrForward {ev : InputEvent} (h : c.queueOrForward answers ev = .ok c') :
    Constant c c' := by
  unfold queueOrForward at h
  split at h
  · cases h
    exact ⟨rfl, rfl⟩
  · obtain ⟨c₁, h₁, h⟩ := Except.bind_eq_ok_iff.mp h
    obtain ⟨c₂, h₂, h₃⟩ := Except.bind_eq_ok_iff.mp h
    exact ((of_flushQueued h₁).trans (of_emit h₂)).trans (of_forward h₃)

theorem of_park (c : Call M) : Constant c c.park := by
  unfold park
  split_ifs <;> exact ⟨rfl, rfl⟩

theorem of_closeFrame {frame : UInt64} (h : c.closeFrame E answers frame = .ok c') :
    Constant c c' := by
  obtain ⟨c₁, h₁, h⟩ := Except.bind_eq_ok_iff.mp h
  obtain ⟨c₂, h₂, h⟩ := Except.bind_eq_ok_iff.mp h
  obtain ⟨c₃, h₃, h⟩ := Except.bind_eq_ok_iff.mp h
  obtain ⟨c₄, h₄, h⟩ := Except.bind_eq_ok_iff.mp h
  cases h
  have h₃' : Constant c₂ c₃ := ⟨(of_emit h₃).hasUidev, (of_emit h₃).rawPassthrough⟩
  have hall := (((of_flushPendingMotion h₁).trans (of_flushQueued h₂)).trans h₃').trans (of_emit h₄)
  exact ⟨hall.hasUidev, hall.rawPassthrough⟩

theorem of_processEvent {ev : InputEvent} (h : processEvent E answers c ev = .ok c') :
    Constant c c' := by
  unfold processEvent at h
  split_ifs at h
  all_goals first
    | exact of_forward h
    | exact of_closeFrame h
    | exact of_queueOrForward h
    | cases h
  · exact ⟨(of_park c).hasUidev, (of_park c).rawPassthrough⟩
  all_goals first
    | exact of_queueOrDrop c ev
    | exact ⟨rfl, rfl⟩

theorem of_mergeTail (dev : InputDevice M) : Constant { dev := dev } (mergeTail dev) := by
  unfold mergeTail
  split_ifs <;> exact ⟨rfl, rfl⟩

theorem of_finish (h : finish answers c = .ok c') : Constant c c' := by
  unfold finish at h
  dsimp only at h
  split_ifs at h
  · obtain ⟨d, hd, hc'⟩ := Except.bind_eq_ok_iff.mp h
    cases hc'
    have hall := (of_park c).trans (of_emit hd)
    exact ⟨hall.hasUidev, hall.rawPassthrough⟩
  · cases h
    exact of_park c

end Call.Constant

namespace Midway
variable {dev : InputDevice M} {calls : List (List InputEvent)} {es : List InputEvent}
  {c c' : Call M}

theorem constant (h : Midway E answers dev calls es c) : Call.Constant { dev := dev } c := by
  induction h with
  | start => exact .of_mergeTail dev
  | event _ hev ih => exact ih.trans (.of_processEvent hev)
  | disconnect _ ih => exact ⟨ih.hasUidev, ih.rawPassthrough⟩
  | @next calls es c c' hc hfinish ih =>
      have hall := ih.trans (.of_finish hfinish)
      have hmerge := Call.Constant.of_mergeTail c'.dev
      exact ⟨hmerge.hasUidev.trans hall.hasUidev, hmerge.rawPassthrough.trans hall.rawPassthrough⟩

theorem append_nil (h : Midway E answers dev calls es c) :
    Midway E answers dev calls (es ++ []) c := by
  rwa [List.append_nil]

theorem foldlM {evs : List InputEvent} (h : Midway E answers dev calls es c)
    (hok : evs.foldlM (processEvent E answers) c = .ok c') :
    Midway E answers dev calls (es ++ evs) c' := by
  induction evs generalizing es c with
  | nil =>
      cases hok
      exact h.append_nil
  | cons ev evs ih =>
      obtain ⟨c₁, h₁, hok⟩ := Except.bind_eq_ok_iff.mp hok
      rw [List.append_cons]
      exact ih (.event h h₁) hok

theorem drain {reads : List ReadResult} {n : ℕ} (h : Midway E answers dev calls es c)
    (hok : drain E answers n reads c = .ok c') :
    Midway E answers dev calls (es ++ eventsRead n reads) c' := by
  induction reads generalizing n es c with
  | nil =>
      cases n <;> cases hok <;> exact h.append_nil
  | cons r reads ih =>
      cases n with
      | zero =>
          cases hok
          exact h.append_nil
      | succ n =>
          cases r with
          | got evs =>
              unfold AbrekMouse.drain at hok
              unfold eventsRead
              split_ifs at hok ⊢
              · cases hok
                exact h.append_nil
              · obtain ⟨c₁, h₁, hok⟩ := Except.bind_eq_ok_iff.mp hok
                rw [← List.append_assoc]
                exact ih (h.foldlM h₁) hok
          | interrupted => exact ih h hok
          | again | otherError =>
              cases hok
              exact h.append_nil
          | deviceError | endOfFile =>
              cases hok
              exact h.disconnect.append_nil

end Midway

namespace Settled
variable {dev d d' : InputDevice M} {calls : List (List InputEvent)}

theorem mergeTail (h : Settled E answers dev calls d) :
    Midway E answers dev calls [] (mergeTail d) := by
  cases h with
  | start => exact .start
  | call hc hfinish => exact .next hc hfinish

theorem hasUidev (h : Settled E answers dev calls d) : d.hasUidev = dev.hasUidev := by
  cases h with
  | start => rfl
  | call hc hfinish => exact (hc.constant.trans (.of_finish hfinish)).hasUidev

theorem processDevice {reads : List ReadResult} (h : Settled E answers dev calls d)
    (huidev : dev.hasUidev = true) (hok : processDevice E answers d reads = .ok d') :
    Settled E answers dev (calls ++ [dev.inputs reads]) d' := by
  unfold AbrekMouse.processDevice at hok
  unfold InputDevice.inputs
  rw [if_pos (h.hasUidev.trans huidev)] at hok
  rw [if_pos huidev]
  split at hok
  · rename_i c hc
    cases hok
    obtain ⟨c₁, h₁, hfinish⟩ := Except.bind_eq_ok_iff.mp hc
    exact .call (h.mergeTail.drain h₁) hfinish
  · cases hok

end Settled

namespace InputDevice
variable {dev dev' : InputDevice M} {calls : List (List ReadResult)}

/-- **A run is made of events and cuts.** -/
theorem settled_run (huidev : dev.hasUidev = true) (hok : dev.run E answers calls = .ok dev') :
    Settled E answers dev (calls.map dev.inputs) dev' := by
  have hrun : ∀ (calls : List (List ReadResult)) (done : List (List InputEvent))
      (d : InputDevice M), Settled E answers dev done d → d.run E answers calls = .ok dev' →
      Settled E answers dev (done ++ calls.map dev.inputs) dev' := by
    intro calls
    induction calls with
    | nil =>
        intro done d hd hok
        cases hok
        rwa [List.map_nil, List.append_nil]
    | cons reads calls ih =>
        intro done d hd hok
        obtain ⟨d₁, h₁, hok⟩ := Except.bind_eq_ok_iff.mp hok
        rw [List.map_cons, List.append_cons]
        exact ih _ _ (hd.processDevice huidev h₁) hok
  exact hrun calls [] dev .start hok

/-- Without a virtual device nothing is read. -/
theorem run_idle (huidev : dev.hasUidev = false) (hok : dev.run E answers calls = .ok dev') :
    dev' = dev ∧ ∀ reads, dev.inputs reads = [] := by
  have hcall : ∀ reads, processDevice E answers dev reads = .ok dev := by
    intro reads
    simp [processDevice, huidev]
  constructor
  · induction calls with
    | nil => exact (Except.ok.inj hok).symm
    | cons reads calls ih =>
        rw [run, List.foldlM_cons, hcall] at hok
        exact ih hok
  · intro reads
    simp [inputs, huidev]

end InputDevice
end AbrekMouse
