import AbrekMouse.AccelMode

/-! # Buttons and wheel in accel mode

Seen without motion, `processDevice` in accel mode is the lists of `Buffers`: each event
acts on them as `Buffers.event` says, and a call as `Buffers.call`
(`buffers_processDevice`).  So the buttons and the wheel come out complete and in order
where the load of the input fits.

It does not where a window opens inside a call.  What had been queued is parked, for
the next call to start from, and the frames that the same call finishes after the
window overtake it.
-/
namespace AbrekMouse
open ProgLib

/-- The events that are neither motion nor boundaries. -/
def nonMotion (es : List OutEvent) : List OutEvent := es.filter OutEvent.nonMotion

theorem nonMotion_append (es fs : List OutEvent) :
    nonMotion (es ++ fs) = nonMotion es ++ nonMotion fs := List.filter_append _ _

variable {M : Type} {E : MotionEngine M} {answers : ℕ → WriteResult}

namespace Call
variable {c c' : Call M}

/-! ## The buffers of a call -/

/-- The lists that a call works on. -/
def buffers (c : Call M) : Buffers where
  written := nonMotion c.dev.uinput.written
  parked := c.dev.pendingEvents.evs.map InputEvent.toOutEvent
  queued := c.queued.evs.map InputEvent.toOutEvent
  dropped := c.dev.synDropped

/-- Between two events of accel mode nothing is in the batch, what is parked is marked,
and only non-motion events are parked or queued. -/
structure Tidy (c : Call M) : Prop where
  uidev : c.dev.hasUidev = true
  accel : c.dev.rawPassthrough = false
  out : c.out.evs = []
  pending : c.dev.pendingEvents.evs ≠ [] → c.dev.hasPendingMotion = true
  parked : ∀ e ∈ c.dev.pendingEvents.evs, e.toOutEvent.nonMotion
  queued : ∀ e ∈ c.queued.evs, e.toOutEvent.nonMotion

theorem nonMotion_motionEvents {frame : UInt64} : nonMotion (c.motionEvents E frame) = [] := by
  have hrel : ∀ v, (OutEvent.rel relX v).nonMotion = false ∧
      (OutEvent.rel relY v).nonMotion = false := fun v => ⟨rfl, rfl⟩
  unfold motionEvents nonMotion
  split_ifs <;> simp [hrel]

theorem Tidy.nonMotion_queued (h : c.Tidy) :
    nonMotion (c.queued.evs.map InputEvent.toOutEvent) = c.buffers.queued := by
  refine List.filter_eq_self.mpr fun e he => ?_
  obtain ⟨ev, hev, rfl⟩ := List.mem_map.mp he
  exact h.queued ev hev

/-- Of a frame only the queue is not motion. -/
theorem Tidy.nonMotion_frameEvents {frame : UInt64} (h : c.Tidy) :
    nonMotion (c.frameEvents E frame) = c.buffers.queued := by
  have hsyn : nonMotion [.syn] = [] := rfl
  rw [frameEvents, nonMotion_append, nonMotion_append, nonMotion_motionEvents, h.nonMotion_queued,
    hsyn, List.nil_append, List.append_nil]

/-! ## Events -/

theorem park_pendingEvents : c.park.dev.pendingEvents.evs = c.dev.pendingEvents.evs ++
    c.queued.evs.take (pendingEventsMax - c.dev.pendingEvents.evs.length) := by
  unfold park
  split_ifs with hframe
  · rfl
  · rw [not_or, not_not] at hframe
    rw [hframe.2, List.take_nil, List.append_nil]

theorem park_dev : c.park.dev.hasUidev = c.dev.hasUidev ∧
    c.park.dev.rawPassthrough = c.dev.rawPassthrough ∧
    c.park.dev.synDropped = c.dev.synDropped := by
  unfold park
  split_ifs <;> exact ⟨rfl, rfl, rfl⟩

theorem Tidy.park_pending (h : c.Tidy) (hparked : c.park.dev.pendingEvents.evs ≠ []) :
    c.park.dev.hasPendingMotion = true := by
  unfold park at hparked ⊢
  split_ifs at hparked ⊢
  · rfl
  · exact h.pending hparked

theorem Tidy.park_parked (h : c.Tidy) :
    ∀ e ∈ c.park.dev.pendingEvents.evs, e.toOutEvent.nonMotion := by
  rw [park_pendingEvents]
  intro e he
  rcases List.mem_append.mp he with hparked | hqueued
  · exact h.parked e hparked
  · exact h.queued e (List.mem_of_mem_take hqueued)

theorem park_fill :
    c.park.dev.pendingEvents.evs.map InputEvent.toOutEvent = c.buffers.fill := by
  rw [park_pendingEvents, List.map_append, List.map_take, Buffers.fill, buffers, List.length_map]

variable {ev : InputEvent}

theorem openDrop_buffers (h : c.Tidy) : c.openDrop.Tidy ∧
    c.openDrop.buffers =
      { c.buffers with parked := c.buffers.fill, queued := [], dropped := true } := by
  have hout : c.park.out = c.out := congrArg Output.batch park_output
  have huinput : c.park.dev.uinput = c.dev.uinput := congrArg Output.uinput park_output
  refine ⟨⟨park_dev.1.trans h.uidev, park_dev.2.1.trans h.accel, hout ▸ h.out, h.park_pending,
    h.park_parked, fun e he => (by cases he)⟩, ?_⟩
  rw [← park_fill]
  simp only [buffers, openDrop, huinput, List.map_nil]

/-- **An event acts on the buffers as it should.** -/
theorem buffers_accelStep (h : c.Tidy) (hstep : AccelStep E c ev c') :
    c'.Tidy ∧ c'.buffers = c.buffers.event ev.toOutEvent := by
  have hwindow : c.buffers.dropped = c.dev.synDropped := rfl
  have hlength : c.buffers.queued.length = c.queued.evs.length := List.length_map _
  unfold Buffers.event
  rw [hwindow]
  cases hstep with
  | opened hdrop =>
      rw [if_pos hdrop]
      exact openDrop_buffers h
  | closed hopen hreport =>
      rw [if_neg hreport.not_isDropped, if_pos hopen]
      refine ⟨⟨h.uidev, h.accel, h.out, h.pending, h.parked, h.queued⟩, ?_⟩
      simp only [hreport, decide_true, Bool.not_true]
      rfl
  | skipped hopen hdrop hreport =>
      rw [if_neg hdrop, if_pos hopen]
      refine ⟨h, ?_⟩
      simp only [hreport, decide_false, Bool.not_false]
      rw [← hopen]
      rfl
  | @frame o hopen hreport hempty hwritten =>
      rw [if_neg hreport.not_isDropped, if_neg (Bool.eq_false_iff.mp hopen), if_pos hreport]
      refine ⟨⟨h.uidev, h.accel, hempty, h.pending, h.parked, fun e he => (by cases he)⟩, ?_⟩
      have hall := congrArg nonMotion hwritten
      rw [nonMotion_append, h.nonMotion_frameEvents] at hall
      simp only [buffers, withFrame, withFlushed, hall, List.map_nil]
  | motionX hopen hrel hx =>
      have hmotion : ev.IsMotion := ⟨hrel, .inl hx⟩
      rw [if_neg hmotion.not_boundary.2, if_neg (Bool.eq_false_iff.mp hopen),
        if_neg hmotion.not_boundary.1, if_pos hmotion]
      exact ⟨⟨h.uidev, h.accel, h.out, h.pending, h.parked, h.queued⟩, rfl⟩
  | motionY hopen hrel hy =>
      have hmotion : ev.IsMotion := ⟨hrel, .inr hy⟩
      rw [if_neg hmotion.not_boundary.2, if_neg (Bool.eq_false_iff.mp hopen),
        if_neg hmotion.not_boundary.1, if_pos hmotion]
      exact ⟨⟨h.uidev, h.accel, h.out, h.pending, h.parked, h.queued⟩, rfl⟩
  | @queued queued hopen hev hadd =>
      obtain ⟨hmotion, hreport, hdrop⟩ := OutEvent.nonMotion_iff.mp hev
      obtain ⟨hroom, hevs⟩ := EventBuffer.add_eq_some hadd
      rw [if_neg hdrop, if_neg (Bool.eq_false_iff.mp hopen), if_neg hreport, if_neg hmotion,
        if_pos (hlength ▸ hroom)]
      refine ⟨⟨h.uidev, h.accel, h.out, h.pending, h.parked, fun e he => ?_⟩, ?_⟩
      · rw [hevs] at he
        rcases List.mem_append.mp he with hqueued | hlast
        · exact h.queued e hqueued
        · exact List.mem_singleton.mp hlast ▸ hev
      · simp only [buffers, hevs, List.map_append, List.map_cons, List.map_nil]
  | lost hopen hev hlossy hadd =>
      obtain ⟨hmotion, hreport, hdrop⟩ := OutEvent.nonMotion_iff.mp hev
      rw [if_neg hdrop, if_neg (Bool.eq_false_iff.mp hopen), if_neg hreport, if_neg hmotion,
        if_neg (hlength ▸ EventBuffer.add_eq_none hadd), if_pos hlossy]
      exact ⟨h, rfl⟩
  | @forwarded o hopen hev hlossy hadd hempty hwritten =>
      obtain ⟨hmotion, hreport, hdrop⟩ := OutEvent.nonMotion_iff.mp hev
      rw [if_neg hdrop, if_neg (Bool.eq_false_iff.mp hopen), if_neg hreport, if_neg hmotion,
        if_neg (hlength ▸ EventBuffer.add_eq_none hadd), if_neg hlossy]
      refine ⟨⟨h.uidev, h.accel, hempty, h.pending, h.parked, fun e he => (by cases he)⟩, ?_⟩
      have hlast : nonMotion [ev.toOutEvent] = [ev.toOutEvent] :=
        List.filter_cons_of_pos hev
      have hall := congrArg nonMotion hwritten
      rw [nonMotion_append, nonMotion_append, h.nonMotion_queued, hlast] at hall
      simp only [buffers, withOutput, hall, List.map_nil]

theorem buffers_processEvent (h : c.Tidy) (hok : processEvent E answers c ev = .ok c') :
    c'.Tidy ∧ c'.buffers = c.buffers.event ev.toOutEvent :=
  buffers_accelStep h (accelStep_of_ok h.accel h.out hok)

theorem Tidy.disconnect (h : c.Tidy) : c.disconnect.Tidy :=
  ⟨h.uidev, h.accel, h.out, h.pending, h.parked, h.queued⟩

end Call

/-! ## Calls -/

namespace InputDevice
variable {dev dev' : InputDevice M}

/-- The lists of a device between two calls. -/
def buffers (dev : InputDevice M) : Buffers := ({ dev := dev } : Call M).buffers

/-- A call that begins with the device is tidy. -/
def Tidy (dev : InputDevice M) : Prop := ({ dev := dev } : Call M).Tidy

theorem buffers_mergeTail (h : dev.Tidy) :
    (mergeTail dev).Tidy ∧ (mergeTail dev).buffers = dev.buffers.startCall := by
  cases hpending : dev.hasPendingMotion with
  | true =>
      rw [mergeTail_eq hpending]
      refine ⟨⟨h.uidev, h.accel, rfl, fun hparked => absurd rfl hparked, fun e he => (by cases he),
        h.parked⟩, ?_⟩
      simp only [Call.buffers, buffers, Buffers.startCall, List.map_nil]
  | false =>
      have hnone : dev.pendingEvents.evs = [] := by
        by_contra hparked
        exact absurd (h.pending hparked) (by simp [hpending])
      unfold mergeTail
      rw [hpending, if_neg Bool.false_ne_true]
      refine ⟨h, ?_⟩
      simp only [Call.buffers, buffers, Buffers.startCall, hnone, List.map_nil]

theorem buffers_finish {c c' : Call M} (h : c.Tidy) (hok : finish answers c = .ok c') :
    c'.dev.Tidy ∧ c'.dev.buffers = c.buffers.endCall := by
  obtain ⟨uinput, hdev, hwritten⟩ := finish_eq_ok h.accel hok
  have hsame : nonMotion uinput.written = nonMotion c.dev.uinput.written := by
    have hsyn : nonMotion (if c.wroteUnsynced then [.syn] else []) = [] := by
      split_ifs <;> rfl
    rw [hwritten, nonMotion_append, hsyn, List.append_nil]
  rw [hdev]
  refine ⟨⟨Call.park_dev.1.trans h.uidev, Call.park_dev.2.1.trans h.accel, rfl, h.park_pending,
    h.park_parked, fun e he => (by cases he)⟩, ?_⟩
  simp only [buffers, Call.buffers, Buffers.endCall, Call.park_fill, Call.park_dev, hsame,
    List.map_nil]

/-- What a call of a device reads. -/
def events (dev : InputDevice M) (reads : List ReadResult) : List OutEvent :=
  if dev.hasUidev then (eventsRead maxDrainPerBatch reads).map InputEvent.toOutEvent else []

theorem events_eq (dev : InputDevice M) :
    dev.events = fun reads => (dev.inputs reads).map InputEvent.toOutEvent := by
  funext reads
  unfold events inputs
  split_ifs <;> rfl

theorem flatMap_events (dev : InputDevice M) (calls : List (List ReadResult)) :
    calls.flatMap dev.events = (calls.flatMap dev.inputs).map InputEvent.toOutEvent := by
  rw [events_eq, List.map_flatMap]

end InputDevice

/-- **Wherever the calls are cut**, the device has acted on the buffers as it should. -/
theorem Midway.buffers {dev : InputDevice M} {calls : List (List InputEvent)}
    {es : List InputEvent} {c : Call M} (h : Midway E answers dev calls es c)
    (htidy : dev.Tidy) :
    c.Tidy ∧ c.buffers = (es.map InputEvent.toOutEvent).foldl Buffers.event
      (dev.buffers.run (calls.map (List.map InputEvent.toOutEvent))).startCall := by
  induction h with
  | start => exact InputDevice.buffers_mergeTail htidy
  | @event calls es c c' ev hc hok ih =>
      obtain ⟨hc', hbuffers⟩ := Call.buffers_processEvent ih.1 hok
      refine ⟨hc', ?_⟩
      rw [hbuffers, ih.2, List.map_append, List.foldl_append]
      rfl
  | disconnect hc ih => exact ⟨ih.1.disconnect, ih.2⟩
  | @next calls es c c' hc hfinish ih =>
      obtain ⟨hdev, hbuffers⟩ := InputDevice.buffers_finish ih.1 hfinish
      obtain ⟨hmerge, hstart⟩ := InputDevice.buffers_mergeTail hdev
      refine ⟨hmerge, ?_⟩
      rw [hstart, hbuffers, ih.2, List.map_append, Buffers.run, Buffers.run, List.foldl_append]
      rfl

namespace InputDevice
variable {dev dev' : InputDevice M}

theorem buffers_run {calls : List (List ReadResult)} (h : dev.Tidy)
    (hok : dev.run E answers calls = .ok dev') :
    dev'.buffers = dev.buffers.run (calls.map dev.events) := by
  have hcalls : calls.map dev.events =
      (calls.map dev.inputs).map (List.map InputEvent.toOutEvent) := by
    rw [events_eq, List.map_map]
    rfl
  rw [hcalls]
  have hsettled := settled_run h.uidev hok
  generalize calls.map dev.inputs = reads at hsettled ⊢
  cases hsettled with
  | start => rfl
  | @call done es c c' hc hfinish =>
      obtain ⟨htidy, hbuffers⟩ := hc.buffers h
      rw [(buffers_finish htidy hfinish).2, hbuffers, List.map_append, Buffers.run, Buffers.run,
        List.foldl_append]
      rfl

/-- What was written, with what is still parked, is what the calls read outside every
window. -/
def Delivers (dev dev' : InputDevice M) (calls : List (List ReadResult)) : Prop :=
  nonMotion dev'.uinput.written ++ dev'.pendingEvents.evs.map InputEvent.toOutEvent =
    nonMotion dev.uinput.written ++ outside dev.synDropped (calls.flatMap dev.events)

instance (dev dev' : InputDevice M) (calls : List (List ReadResult)) :
    Decidable (dev.Delivers dev' calls) := inferInstanceAs (Decidable (_ = _))

end InputDevice

/-- Calls that read nothing fit. -/
theorem fits_of_nil {dropped : Bool} {calls : List (List OutEvent)} (h : ∀ es ∈ calls, es = []) :
    Fits dropped calls := by
  unfold Fits
  induction calls with
  | nil => rfl
  | cons es calls ih =>
      obtain rfl := h es List.mem_cons_self
      exact ih fun fs hfs => h fs (List.mem_cons_of_mem _ hfs)

/-- **No loss, duplication or reordering of buttons and wheel where the input fits.**
In accel mode, from nothing parked and as long as no write fails, the events of any
sequence of calls are delivered in order if they fit, and only then where they can be
told apart. -/
theorem buttons_in_order (dev dev' : InputDevice M) (calls : List (List ReadResult))
    (haccel : dev.rawPassthrough = false) (hparked : dev.pendingEvents.evs = [])
    (hok : dev.run E answers calls = .ok dev') :
    (Fits dev.synDropped (calls.map dev.events) → dev.Delivers dev' calls) ∧
    ((outside dev.synDropped (calls.flatMap dev.events)).Nodup → dev.Delivers dev' calls →
      Fits dev.synDropped (calls.map dev.events)) := by
  cases huidev : dev.hasUidev with
  | false =>
      obtain ⟨rfl, hinputs⟩ := InputDevice.run_idle huidev hok
      have hevents : ∀ reads, dev'.events reads = [] := by simp [InputDevice.events_eq, hinputs]
      have hnone : calls.flatMap dev'.events = [] := by simp [hevents]
      refine ⟨fun _ => ?_, fun _ _ => fits_of_nil (by simp [hevents])⟩
      rw [InputDevice.Delivers, hnone, hparked]
      rfl
  | true =>
      have htidy : dev.Tidy := ⟨huidev, haccel, rfl, fun h => absurd hparked h,
        by simp [hparked], fun e he => (by cases he)⟩
      have hbuffers := InputDevice.buffers_run htidy hok
      have hqueued : dev.buffers.queued = [] := rfl
      have hnone : dev.buffers.parked = [] := by
        simp only [InputDevice.buffers, Call.buffers, hparked, List.map_nil]
      have horder := dev.buffers.run_in_order (calls.map dev.events) hnone hqueued
      rw [← hbuffers, ← List.flatMap_def] at horder
      exact horder

/-! ## Runs -/

/-- A pipeline that puts out no counts. -/
def MotionEngine.still : MotionEngine Unit where
  flushMotion _ _ _ _ m := ((0, 0), m)
  closeFrame _ m := m
  closeDrop _ m := m

def idleMouse : InputDevice Unit where
  uinput := { fd := 3 }
  motion := ()

/-- The device takes whatever it is given. -/
def takesAll : ℕ → WriteResult := fun _ => .wrote (pendingEventsMax * inputEventSize)

def btnLeft (value : ℤ) : InputEvent := ⟨⟨evKey, 272, value⟩, 0, 0⟩

def synOf (code : UInt16) : InputEvent := ⟨⟨evSyn, code, 0⟩, 0, 0⟩

/-- A press whose frame ends in the next call, with a release behind it. -/
def splitClick : List (List ReadResult) :=
  [[.got [btnLeft 1]], [.got [synOf synReport, btnLeft 0]]]

/-- A run that was evaluated. -/
theorem InputDevice.run_eq_ok_of_any {dev : InputDevice M} {calls : List (List ReadResult)}
    {p : InputDevice M → Bool} (h : (dev.run E answers calls).toOption.any p = true) :
    ∃ dev', dev.run E answers calls = .ok dev' ∧ p dev' = true := by
  obtain ⟨dev', hdev', hp⟩ := (Option.any_eq_true _ _).mp h
  cases hrun : dev.run E answers calls with
  | error d =>
      rw [hrun] at hdev'
      cases hdev'
  | ok d =>
      rw [hrun] at hdev'
      cases hdev'
      exact ⟨_, rfl, hp⟩

theorem buttons_in_order_splitClick :
    ∃ dev', idleMouse.run MotionEngine.still takesAll splitClick = .ok dev' ∧
      nonMotion dev'.uinput.written ++ dev'.pendingEvents.evs.map InputEvent.toOutEvent =
        [(btnLeft 1).toOutEvent, (btnLeft 0).toOutEvent] := by
  have hrun : (idleMouse.run MotionEngine.still takesAll splitClick).toOption.any
      (fun _ => true) = true := by
    decide +kernel
  obtain ⟨dev', hok, -⟩ := InputDevice.run_eq_ok_of_any hrun
  have hdelivers := (buttons_in_order idleMouse dev' splitClick rfl rfl hok).1 (by decide +kernel)
  exact ⟨dev', hok, hdelivers.trans (by decide +kernel)⟩

/-- A button is pressed, the kernel drops events, and the button is released: all in one
call. -/
def droppedClick : List (List ReadResult) :=
  [[.got [btnLeft 1, synOf synDropped, synOf synReport, btnLeft 0, synOf synReport]]]

/-- The release is written, and the press is parked and will follow it. -/
theorem release_before_press :
    ¬∀ calls dev', ((calls.flatMap idleMouse.events).filter OutEvent.nonMotion).length ≤ 16 →
      idleMouse.run MotionEngine.still takesAll calls = .ok dev' →
      idleMouse.Delivers dev' calls := by
  intro hdelivers
  have hrun : (idleMouse.run MotionEngine.still takesAll droppedClick).toOption.any
      (fun dev' => !decide (idleMouse.Delivers dev' droppedClick)) = true := by
    decide +kernel
  obtain ⟨dev', hok, hnot⟩ := InputDevice.run_eq_ok_of_any hrun
  have hyes := hdelivers droppedClick dev' (by decide +kernel) hok
  rw [decide_eq_true hyes] at hnot
  cases hnot

end AbrekMouse
