import AbrekMouse.ProcessDevice
import AbrekMouse.FrameBuffers

/-! # One event in accel mode

What `processEvent` can do to a call when the device is not in raw passthrough, said
once (`AccelStep`).  A frame that is closed takes its motion and its queue with it and
puts out `frameEvents`; every other event at most opens or closes a window, sums
something up or queues something.
-/
namespace AbrekMouse
open ProgLib
variable {M : Type} {E : MotionEngine M} {answers : ℕ → WriteResult}

/-! ## The flushes -/

/-- The arguments of a call of `flush_motion`. -/
structure FlushCall where
  dx : Double
  dy : Double
  frameEvUs : UInt64
deriving DecidableEq

/-- The pipeline that also keeps a list of its flushes. -/
def MotionEngine.logged (E : MotionEngine M) : MotionEngine (M × List FlushCall) where
  flushMotion rawPassthrough dx dy frameEvUs m :=
    let (counts, motion) := E.flushMotion rawPassthrough dx dy frameEvUs m.1
    (counts, motion, m.2 ++ [⟨dx, dy, frameEvUs⟩])
  recordFlush m := (E.recordFlush m.1, m.2)
  closeFrame frameEvUs m := (E.closeFrame frameEvUs m.1, m.2)
  closeDrop ev m := (E.closeDrop ev m.1, m.2)

/-! ## Output -/

theorem Output.foldlM_addFlushIfFull_ok {evs : List InputEvent} {o o' : Output}
    (h : evs.foldlM (fun o e => o.addFlushIfFull answers e.toOutEvent) o = .ok o') :
    o'.stream = o.stream ++ evs.map InputEvent.toOutEvent := by
  induction evs generalizing o with
  | nil =>
      cases h
      rw [List.map_nil, List.append_nil]
  | cons e evs ih =>
      obtain ⟨p, hp, hrest⟩ := Except.bind_eq_ok_iff.mp h
      rw [ih hrest, addFlushIfFull_ok hp, List.append_assoc, List.map_cons, List.singleton_append]

namespace Call
variable {c c' : Call M}

theorem emit_eq_ok_iff {f : Output → Except Output Output} :
    c.emit f = .ok c' ↔ ∃ o, f c.output = .ok o ∧ c' = c.withOutput o := by
  unfold emit
  cases f c.output with
  | ok o => simp [eq_comm]
  | error o => simp

/-! ## The end of a frame -/

variable (E c)

/-- The flush of the frame's motion. -/
def flushed (frameEvUs : UInt64) : (ℤ × ℤ) × M :=
  E.flushMotion c.dev.rawPassthrough c.dx c.dy frameEvUs c.dev.motion

/-- The counts of the frame, with the zeros left out. -/
def motionEvents (frameEvUs : UInt64) : List OutEvent :=
  if c.hasMotion then
    (if (c.flushed E frameEvUs).1.1 ≠ 0 then [.rel relX (c.flushed E frameEvUs).1.1] else []) ++
      (if (c.flushed E frameEvUs).1.2 ≠ 0 then [.rel relY (c.flushed E frameEvUs).1.2] else [])
  else []

/-- What a frame puts out. -/
def frameEvents (frameEvUs : UInt64) : List OutEvent :=
  c.motionEvents E frameEvUs ++ c.queued.evs.map InputEvent.toOutEvent ++ [.syn]

/-- The pipeline after the flush. -/
def flushedMotion (frameEvUs : UInt64) : M :=
  if c.hasMotion then E.recordFlush (c.flushed E frameEvUs).2 else c.dev.motion

/-- The call with its motion flushed. -/
def withFlushed (frameEvUs : UInt64) (o : Output) : Call M :=
  { c with
    dev := { c.dev with uinput := o.uinput, motion := c.flushedMotion E frameEvUs }
    out := o.batch
    dx := if c.hasMotion then 0 else c.dx
    dy := if c.hasMotion then 0 else c.dy
    hasMotion := false }

/-- The call with its frame closed. -/
def withFrame (frameEvUs : UInt64) (o : Output) : Call M :=
  { c.withFlushed E frameEvUs o with
    dev := { c.dev with
      uinput := o.uinput
      motion := E.closeFrame frameEvUs (c.flushedMotion E frameEvUs) }
    queued := {}
    wroteUnsynced := false }

variable {E c}

theorem flushPendingMotion_eq_ok {frame : UInt64}
    (h : c.flushPendingMotion E answers frame = .ok c') :
    ∃ o, c' = c.withFlushed E frame o ∧
      o.stream = c.output.stream ++ c.motionEvents E frame := by
  unfold flushPendingMotion at h
  split_ifs at h with hmotion
  · obtain ⟨d, hd, hc'⟩ := Except.bind_eq_ok_iff.mp h
    obtain ⟨o, ho, rfl⟩ := emit_eq_ok_iff.mp hd
    cases hc'
    refine ⟨o, ?_, ?_⟩
    · simp only [withFlushed, flushedMotion, hmotion, if_true]
      rfl
    · have hrel := Output.addRel_ok ho
      simp only [motionEvents, hmotion, if_true, ← List.append_assoc]
      exact hrel
  · cases h
    refine ⟨c.output, ?_, ?_⟩
    · obtain ⟨dev, out, dx, dy, hasMotion, queued, wroteUnsynced⟩ := c
      obtain rfl : hasMotion = false := by simpa using hmotion
      rfl
    · simp only [motionEvents, hmotion, if_false, List.append_nil, Bool.false_eq_true]

theorem flushQueued_eq_ok (h : c.flushQueued answers = .ok c') :
    ∃ o, c' = { c.withOutput o with queued := {} } ∧
      o.stream = c.output.stream ++ c.queued.evs.map InputEvent.toOutEvent := by
  obtain ⟨d, hd, hc'⟩ := Except.bind_eq_ok_iff.mp h
  obtain ⟨o, ho, rfl⟩ := emit_eq_ok_iff.mp hd
  cases hc'
  exact ⟨o, rfl, Output.foldlM_addFlushIfFull_ok ho⟩

theorem flush_eq_ok (h : c.emit (fun o => o.flush answers) = .ok c') :
    ∃ o, c' = c.withOutput o ∧ o.batch.evs = [] ∧ o.uinput.written = c.output.stream := by
  obtain ⟨o, ho, rfl⟩ := emit_eq_ok_iff.mp h
  obtain ⟨hstream, hempty⟩ := Output.flush_ok ho
  refine ⟨o, rfl, hempty, ?_⟩
  rw [← hstream, Output.stream, hempty, List.append_nil]

theorem output_stream (hout : c.out.evs = []) : c.output.stream = c.dev.uinput.written := by
  rw [Output.stream, output, hout, List.append_nil]

/-- **The end of a frame**, from an empty batch. -/
theorem closeFrame_eq_ok {frame : UInt64} (hout : c.out.evs = [])
    (h : c.closeFrame E answers frame = .ok c') :
    ∃ o, c' = c.withFrame E frame o ∧ o.batch.evs = [] ∧
      o.uinput.written = c.dev.uinput.written ++ c.frameEvents E frame := by
  obtain ⟨c₁, h₁, h⟩ := Except.bind_eq_ok_iff.mp h
  obtain ⟨c₂, h₂, h⟩ := Except.bind_eq_ok_iff.mp h
  obtain ⟨c₃, h₃, h⟩ := Except.bind_eq_ok_iff.mp h
  obtain ⟨c₄, h₄, h⟩ := Except.bind_eq_ok_iff.mp h
  cases h
  obtain ⟨o₁, rfl, hstream₁⟩ := flushPendingMotion_eq_ok h₁
  obtain ⟨o₂, rfl, hstream₂⟩ := flushQueued_eq_ok h₂
  obtain ⟨o₃, ho₃, rfl⟩ := emit_eq_ok_iff.mp h₃
  obtain ⟨o₄, rfl, hempty, hwritten⟩ := flush_eq_ok h₄
  refine ⟨o₄, rfl, hempty, ?_⟩
  calc o₄.uinput.written = o₃.stream := hwritten
    _ = o₂.stream ++ [.syn] := (Output.addFlushIfFull_ok ho₃).trans rfl
    _ = o₁.stream ++ c.queued.evs.map InputEvent.toOutEvent ++ [.syn] := by
        rw [hstream₂]
        rfl
    _ = c.dev.uinput.written ++ c.frameEvents E frame := by
        rw [hstream₁, output_stream hout]
        simp only [frameEvents, List.append_assoc]

/-! ## The other events -/

/-- A button that no longer fits goes out, behind the queue. -/
theorem queueOrForward_eq_ok {ev : InputEvent} (hout : c.out.evs = [])
    (hfull : c.queued.add ev = none) (h : c.queueOrForward answers ev = .ok c') :
    ∃ o, c' = { c.withOutput o with queued := {}, wroteUnsynced := true } ∧ o.batch.evs = [] ∧
      o.uinput.written = c.dev.uinput.written ++
        (c.queued.evs.map InputEvent.toOutEvent ++ [ev.toOutEvent]) := by
  unfold queueOrForward at h
  rw [hfull] at h
  obtain ⟨c₁, h₁, h⟩ := Except.bind_eq_ok_iff.mp h
  obtain ⟨c₂, h₂, h₃⟩ := Except.bind_eq_ok_iff.mp h
  obtain ⟨o₁, rfl, hstream₁⟩ := flushQueued_eq_ok h₁
  obtain ⟨o₂, rfl, hempty, hwritten₂⟩ := flush_eq_ok h₂
  obtain ⟨d, hd, hc'⟩ := Except.bind_eq_ok_iff.mp h₃
  obtain ⟨o₃, ho₃, rfl⟩ := emit_eq_ok_iff.mp hd
  cases hc'
  obtain ⟨hwritten₃, hbatch⟩ := Output.write_ok ho₃
  refine ⟨o₃, rfl, (congrArg EventBuffer.evs hbatch).trans hempty, ?_⟩
  calc o₃.uinput.written = o₂.uinput.written ++ [ev.toOutEvent] := hwritten₃
    _ = o₁.stream ++ [ev.toOutEvent] := by
        rw [hwritten₂]
        rfl
    _ = _ := by rw [hstream₁, output_stream hout, List.append_assoc]

theorem park_output : c.park.output = c.output := by
  unfold park
  split_ifs <;> rfl

end Call

/-- What an event can do to a call in accel mode. -/
inductive AccelStep (E : MotionEngine M) (c : Call M) (ev : InputEvent) : Call M → Prop
  | opened : ev.IsDropped → AccelStep E c ev c.openDrop
  | closed : c.dev.synDropped = true → ev.IsReport → AccelStep E c ev (c.closeDrop E ev)
  | skipped : c.dev.synDropped = true → ¬ev.IsDropped → ¬ev.IsReport → AccelStep E c ev c
  | frame {o : Output} : c.dev.synDropped = false → ev.IsReport → o.batch.evs = [] →
      o.uinput.written = c.dev.uinput.written ++ c.frameEvents E ev.frameEvUs →
      AccelStep E c ev (c.withFrame E ev.frameEvUs o)
  | motionX : c.dev.synDropped = false → ev.type = evRel → ev.code = relX →
      AccelStep E c ev { c with dx := c.dx + Fp.ofInt ev.value, hasMotion := true }
  | motionY : c.dev.synDropped = false → ev.type = evRel → ev.code = relY →
      AccelStep E c ev { c with dy := c.dy + Fp.ofInt ev.value, hasMotion := true }
  | queued {queued : EventBuffer InputEvent} : c.dev.synDropped = false → ev.nonMotion = true →
      c.queued.add ev = some queued → AccelStep E c ev { c with queued := queued }
  | lost : c.dev.synDropped = false → ev.nonMotion = true → ev.IsLossy →
      c.queued.add ev = none → AccelStep E c ev c
  | forwarded {o : Output} : c.dev.synDropped = false → ev.nonMotion = true → ¬ev.IsLossy →
      c.queued.add ev = none → o.batch.evs = [] →
      o.uinput.written = c.dev.uinput.written ++
        (c.queued.evs.map InputEvent.toOutEvent ++ [ev.toOutEvent]) →
      AccelStep E c ev { c.withOutput o with queued := {}, wroteUnsynced := true }

namespace AccelStep
variable {c c' : Call M} {ev : InputEvent}

/-- Outside a window a report closes the frame. -/
theorem report (h : AccelStep E c ev c') (hopen : c.dev.synDropped = false)
    (hreport : ev.IsReport) :
    ∃ o, c' = c.withFrame E ev.frameEvUs o ∧ o.batch.evs = [] ∧
      o.uinput.written = c.dev.uinput.written ++ c.frameEvents E ev.frameEvUs := by
  cases h with
  | opened hdrop => exact absurd hdrop hreport.not_isDropped
  | closed hwindow => exact absurd (hwindow.symm.trans hopen) (by decide)
  | skipped hwindow => exact absurd (hwindow.symm.trans hopen) (by decide)
  | frame _ _ hempty hwritten => exact ⟨_, rfl, hempty, hwritten⟩
  | motionX _ hrel => exact absurd (hrel.symm.trans hreport.1) (by decide)
  | motionY _ hrel => exact absurd (hrel.symm.trans hreport.1) (by decide)
  | queued _ hev => exact absurd hreport (OutEvent.nonMotion_iff.mp hev).2.1
  | lost _ hev => exact absurd hreport (OutEvent.nonMotion_iff.mp hev).2.1
  | forwarded _ hev => exact absurd hreport (OutEvent.nonMotion_iff.mp hev).2.1

/-- Motion is summed. -/
theorem moves (h : AccelStep E c ev c') (hopen : c.dev.synDropped = false)
    (hmotion : ev.IsMotion) :
    c' = { c with
      dx := if ev.code = relX then c.dx + Fp.ofInt ev.value else c.dx
      dy := if ev.code = relX then c.dy else c.dy + Fp.ofInt ev.value
      hasMotion := true } := by
  cases h with
  | opened hdrop => exact absurd hdrop hmotion.not_boundary.2
  | closed hwindow => exact absurd (hwindow.symm.trans hopen) (by decide)
  | skipped hwindow => exact absurd (hwindow.symm.trans hopen) (by decide)
  | frame _ hreport => exact absurd hreport hmotion.not_boundary.1
  | motionX _ _ hx => rw [if_pos hx, if_pos hx]
  | motionY _ _ hy =>
      have hx : ev.code ≠ relX := fun hx => absurd (hx.symm.trans hy) (by decide)
      rw [if_neg hx, if_neg hx]
  | queued _ hev => exact absurd hmotion (OutEvent.nonMotion_iff.mp hev).1
  | lost _ hev => exact absurd hmotion (OutEvent.nonMotion_iff.mp hev).1
  | forwarded _ hev => exact absurd hmotion (OutEvent.nonMotion_iff.mp hev).1

/-- What else fits is queued. -/
theorem queues (h : AccelStep E c ev c') (hopen : c.dev.synDropped = false)
    (hev : ev.nonMotion = true) (hroom : c.queued.evs.length < pendingEventsMax) :
    ∃ queued, queued.evs = c.queued.evs ++ [ev] ∧ c' = { c with queued := queued } := by
  obtain ⟨hmotion, hreport, hdrop⟩ := OutEvent.nonMotion_iff.mp hev
  cases h with
  | opened hdrop' => exact absurd hdrop' hdrop
  | closed hwindow => exact absurd (hwindow.symm.trans hopen) (by decide)
  | skipped hwindow => exact absurd (hwindow.symm.trans hopen) (by decide)
  | frame _ hreport' => exact absurd hreport' hreport
  | motionX _ hrel hx => exact absurd ⟨hrel, .inl hx⟩ hmotion
  | motionY _ hrel hy => exact absurd ⟨hrel, .inr hy⟩ hmotion
  | queued _ _ hadd => exact ⟨_, (EventBuffer.add_eq_some hadd).2, rfl⟩
  | lost _ _ _ hadd => exact absurd hroom (EventBuffer.add_eq_none hadd)
  | forwarded _ _ _ hadd => exact absurd hroom (EventBuffer.add_eq_none hadd)

end AccelStep

theorem AccelStep.queueOrDrop {c : Call M} {ev : InputEvent} (hopen : c.dev.synDropped = false)
    (hev : ev.nonMotion = true) (hlossy : ev.IsLossy) : AccelStep E c ev (c.queueOrDrop ev) := by
  unfold Call.queueOrDrop
  cases hadd : c.queued.add ev with
  | some queued => exact .queued hopen hev hadd
  | none => exact .lost hopen hev hlossy hadd

theorem AccelStep.queueOrForward {c c' : Call M} {ev : InputEvent} (hout : c.out.evs = [])
    (hopen : c.dev.synDropped = false) (hev : ev.nonMotion = true) (hlossy : ¬ev.IsLossy)
    (hok : c.queueOrForward answers ev = .ok c') : AccelStep E c ev c' := by
  cases hadd : c.queued.add ev with
  | some queued =>
      unfold Call.queueOrForward at hok
      rw [hadd] at hok
      cases hok
      exact .queued hopen hev hadd
  | none =>
      obtain ⟨o, rfl, hempty, hwritten⟩ := Call.queueOrForward_eq_ok hout hadd hok
      exact .forwarded hopen hev hlossy hadd hempty hwritten

/-- **The branches of `processEvent` in accel mode.** -/
theorem accelStep_of_ok {c c' : Call M} {ev : InputEvent} (haccel : c.dev.rawPassthrough = false)
    (hout : c.out.evs = []) (hok : processEvent E answers c ev = .ok c') : AccelStep E c ev c' := by
  unfold processEvent at hok
  simp only [haccel, Bool.false_eq_true, if_false] at hok
  by_cases hsyn : ev.type = evSyn
  · have hmotion : ¬ev.IsMotion := fun hmotion => absurd (hsyn.symm.trans hmotion.1) (by decide)
    rw [if_pos hsyn] at hok
    split_ifs at hok with hdrop hwindow hreport hcode
    · cases hok
      exact .opened ⟨hsyn, hdrop⟩
    · cases hok
      exact .closed hwindow ⟨hsyn, hreport⟩
    · cases hok
      exact .skipped hwindow (fun h => hdrop h.2) (fun h => hreport h.2)
    · cases hok
      have hev : ev.nonMotion = true :=
        OutEvent.nonMotion_iff.mpr ⟨hmotion, fun h => hcode h.2, fun h => hdrop h.2⟩
      exact .queueOrDrop (Bool.eq_false_of_not_eq_true hwindow) hev (.inl hsyn)
    · obtain ⟨o, rfl, hempty, hwritten⟩ := Call.closeFrame_eq_ok hout hok
      exact .frame (Bool.eq_false_of_not_eq_true hwindow) ⟨hsyn, not_not.mp hcode⟩ hempty hwritten
  have hdrop : ¬ev.IsDropped := fun hdrop => hsyn hdrop.1
  have hreport : ¬ev.IsReport := fun hreport => hsyn hreport.1
  rw [if_neg hsyn] at hok
  by_cases hwindow : c.dev.synDropped = true
  · rw [if_pos hwindow] at hok
    cases hok
    exact .skipped hwindow hdrop hreport
  rw [if_neg hwindow] at hok
  have hopen := Bool.eq_false_of_not_eq_true hwindow
  by_cases hrel : ev.type = evRel
  · rw [if_pos hrel] at hok
    split_ifs at hok with haxis hx
    · cases hok
      exact .motionX hopen hrel hx
    · cases hok
      exact .motionY hopen hrel (haxis.resolve_left hx)
    · cases hok
      have hev : ev.nonMotion = true :=
        OutEvent.nonMotion_iff.mpr ⟨fun hmotion => haxis hmotion.2, hreport, hdrop⟩
      exact .queueOrDrop hopen hev (.inr hrel)
  · have hev : ev.nonMotion = true :=
      OutEvent.nonMotion_iff.mpr ⟨fun hmotion => hrel hmotion.1, hreport, hdrop⟩
    rw [if_neg hrel] at hok
    exact .queueOrForward hout hopen hev (not_or.mpr ⟨hsyn, hrel⟩) hok

/-- **The end of a call.** -/
theorem finish_eq_ok {c c' : Call M} (haccel : c.dev.rawPassthrough = false)
    (hok : finish answers c = .ok c') :
    ∃ uinput, c'.dev = { c.park.dev with uinput := uinput } ∧
      uinput.written = c.dev.uinput.written ++ (if c.wroteUnsynced then [.syn] else []) := by
  have haccel' : c.park.dev.rawPassthrough = false :=
    (Call.Constant.of_park c).rawPassthrough.trans haccel
  have hwrote : c.park.wroteUnsynced = c.wroteUnsynced := by
    unfold Call.park
    split_ifs <;> rfl
  have huinput : c.park.dev.uinput = c.dev.uinput := congrArg Output.uinput Call.park_output
  unfold finish at hok
  simp only [hwrote, haccel', Bool.not_false, and_true] at hok
  split_ifs at hok ⊢
  · obtain ⟨d, hd, hok⟩ := Except.bind_eq_ok_iff.mp hok
    obtain ⟨o, ho, rfl⟩ := Call.emit_eq_ok_iff.mp hd
    cases hok
    refine ⟨o.uinput, rfl, ?_⟩
    rw [(Output.write_ok ho).1, ← huinput]
    rfl
  · cases hok
    refine ⟨c.park.dev.uinput, rfl, ?_⟩
    rw [huinput, List.append_nil]

/-- What was parked is the start of the first frame, all of it. -/
theorem mergeTail_eq {dev : InputDevice M} (hpending : dev.hasPendingMotion = true) :
    mergeTail dev =
      { dev := { dev with
          hasPendingMotion := false, pendingDx := 0, pendingDy := 0, pendingEvents := {} }
        dx := dev.pendingDx
        dy := dev.pendingDy
        hasMotion := true
        queued := dev.pendingEvents } := by
  have hevs : EventBuffer.fill {} dev.pendingEvents.evs = dev.pendingEvents := by
    have htake : dev.pendingEvents.evs.take pendingEventsMax = dev.pendingEvents.evs :=
      List.take_of_length_le dev.pendingEvents.bound
    unfold EventBuffer.fill
    simp only [List.nil_append, List.length_nil, Nat.sub_zero, htake]
  unfold mergeTail
  rw [if_pos hpending, hevs]
  simp only [Nat.sub_self, Nat.add_zero]

end AbrekMouse
