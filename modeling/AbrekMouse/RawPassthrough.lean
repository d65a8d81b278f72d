import AbrekMouse.EventOrder

/-! # Raw passthrough

With `raw_passthrough` the device is a forwarder: what it writes is what it reads, event
by event, without the dropped windows (`raw_forwards`).  The frame machinery is shared
with accel mode, so the point is that it stays idle: nothing is ever queued, no motion
is summed, and so nothing is parked and no frame is closed that the source did not
close (`Forwarding`).
-/
namespace AbrekMouse
open ProgLib
variable {M : Type} {E : MotionEngine M} {answers : ℕ → WriteResult}

/-- What becomes of one event; a `SYN_REPORT` is written anew, with value zero. -/
def forwardedEvent (dropped : Bool) (e : OutEvent) : List OutEvent :=
  if dropped || e.IsDropped then [] else [if e.IsReport then .syn else e]

/-- The input without its windows. -/
def forwarded : Bool → List OutEvent → List OutEvent
  | _, [] => []
  | dropped, e :: es => forwardedEvent dropped e ++ forwarded (windowAfter dropped e) es

theorem forwarded_append (dropped : Bool) (es fs : List OutEvent) :
    forwarded dropped (es ++ fs) =
      forwarded dropped es ++ forwarded (es.foldl windowAfter dropped) fs := by
  induction es generalizing dropped with
  | nil => rfl
  | cons e es ih => simp only [List.cons_append, forwarded, ih, List.append_assoc, List.foldl_cons]

namespace Call
variable {c c' : Call M}

/-- The frame machinery is idle. -/
structure Forwarding (c : Call M) : Prop where
  raw : c.dev.rawPassthrough = true
  out : c.out.evs = []
  still : c.hasMotion = false
  queued : c.queued.evs = []
  unparked : c.dev.hasPendingMotion = false

theorem Forwarding.park (h : c.Forwarding) : c.park = c := by
  unfold Call.park
  rw [if_neg (by simp [h.still, h.queued])]

theorem Forwarding.disconnect (h : c.Forwarding) : c.disconnect.Forwarding :=
  ⟨h.raw, h.out, h.still, h.queued, h.unparked⟩

/-- An event that is forwarded is the next one written. -/
theorem Forwarding.forward {ev : InputEvent} (h : c.Forwarding)
    (hok : c.forward answers ev = .ok c') :
    c'.Forwarding ∧ c'.dev.synDropped = c.dev.synDropped ∧
      c'.dev.uinput.written = c.dev.uinput.written ++ [ev.toOutEvent] := by
  obtain ⟨d, hd, hc'⟩ := Except.bind_eq_ok_iff.mp hok
  obtain ⟨o, ho, rfl⟩ := emit_eq_ok_iff.mp hd
  cases hc'
  obtain ⟨hwritten, hbatch⟩ := Output.write_ok ho
  have hout : o.batch.evs = [] := (congrArg EventBuffer.evs hbatch).trans h.out
  exact ⟨⟨h.raw, hout, h.still, h.queued, h.unparked⟩, rfl, hwritten⟩

/-- A frame that holds nothing is closed by its `SYN_REPORT` alone. -/
theorem Forwarding.closeFrame {frame : UInt64} (h : c.Forwarding)
    (hok : c.closeFrame E answers frame = .ok c') :
    c'.Forwarding ∧ c'.dev.synDropped = c.dev.synDropped ∧
      c'.dev.uinput.written = c.dev.uinput.written ++ [.syn] := by
  obtain ⟨c₁, h₁, hok⟩ := Except.bind_eq_ok_iff.mp hok
  obtain ⟨c₂, h₂, hok⟩ := Except.bind_eq_ok_iff.mp hok
  obtain ⟨c₃, h₃, hok⟩ := Except.bind_eq_ok_iff.mp hok
  obtain ⟨c₄, h₄, hok⟩ := Except.bind_eq_ok_iff.mp hok
  cases hok
  -- there is no motion to flush and no event to add
  have hc₁ : c = c₁ := by simpa [flushPendingMotion, h.still] using h₁
  subst hc₁
  obtain ⟨d, hd, hc₂⟩ := Except.bind_eq_ok_iff.mp h₂
  obtain ⟨o₂, ho₂, rfl⟩ := emit_eq_ok_iff.mp hd
  rw [h.queued] at ho₂
  cases ho₂
  cases hc₂
  obtain ⟨o₃, ho₃, rfl⟩ := emit_eq_ok_iff.mp h₃
  obtain ⟨o₄, ho₄, rfl⟩ := emit_eq_ok_iff.mp h₄
  have hstream := Output.addFlushIfFull_ok ho₃
  obtain ⟨hflush, hempty⟩ := Output.flush_ok ho₄
  refine ⟨⟨h.raw, hempty, h.still, rfl, h.unparked⟩, rfl, ?_⟩
  have hwritten : o₄.uinput.written = o₄.stream := by
    rw [Output.stream, hempty, List.append_nil]
  calc o₄.uinput.written = o₃.stream := hwritten.trans hflush
    _ = c.dev.uinput.written ++ c.out.evs ++ [.syn] := hstream
    _ = c.dev.uinput.written ++ [.syn] := by rw [h.out, List.append_nil]

/-- **One event in raw passthrough.** -/
theorem Forwarding.processEvent {ev : InputEvent} (h : c.Forwarding)
    (hok : processEvent E answers c ev = .ok c') :
    c'.Forwarding ∧ c'.dev.synDropped = windowAfter c.dev.synDropped ev.toOutEvent ∧
      c'.dev.uinput.written =
        c.dev.uinput.written ++ forwardedEvent c.dev.synDropped ev.toOutEvent := by
  unfold AbrekMouse.processEvent at hok
  by_cases hdrop : ev.toOutEvent.IsDropped
  · rw [if_pos hdrop.1, if_pos hdrop.2] at hok
    cases hok
    unfold openDrop
    rw [h.park]
    refine ⟨⟨h.raw, h.out, rfl, rfl, h.unparked⟩, ?_, ?_⟩
    · rw [windowAfter, if_pos hdrop]
    · simp [forwardedEvent, hdrop]
  by_cases hwindow : c.dev.synDropped = true
  · have hnone : forwardedEvent c.dev.synDropped ev.toOutEvent = [] := by
      simp [forwardedEvent, hwindow]
    rw [hnone, List.append_nil, windowAfter, if_neg hdrop]
    by_cases hreport : ev.toOutEvent.IsReport
    · have hcode : synReport ≠ synDropped := by decide
      simp only [hreport.1, hreport.2, hcode, hwindow, if_true, if_false] at hok
      cases hok
      rw [if_pos hreport]
      exact ⟨⟨h.raw, h.out, h.still, h.queued, h.unparked⟩, rfl, rfl⟩
    · rw [if_neg hreport]
      have hsame : c' = c := by
        split_ifs at hok with hsyn hcode hend
        · exact absurd ⟨hsyn, hcode⟩ hdrop
        · exact absurd ⟨hsyn, hend⟩ hreport
        · exact (Except.ok.inj hok).symm
        · exact (Except.ok.inj hok).symm
      rw [hsame]
      exact ⟨h, rfl, rfl⟩
  rw [windowAfter, if_neg hdrop]
  by_cases hreport : ev.toOutEvent.IsReport
  · have hcode : synReport ≠ synDropped := by decide
    simp only [hreport.1, hreport.2, hcode, hwindow, if_true, if_false, ne_eq,
      not_true_eq_false, Bool.false_eq_true] at hok
    obtain ⟨hc', hdropped, hwritten⟩ := h.closeFrame hok
    refine ⟨hc', ?_, ?_⟩
    · rw [hdropped, if_pos hreport]
      simpa using hwindow
    · rw [hwritten]
      simp [forwardedEvent, hwindow, hdrop, hreport]
  · -- whatever else it is, it goes out as it came
    have hforward : c.forward answers ev = .ok c' := by
      simp only [h.raw, hwindow, if_true, if_false, Bool.false_eq_true] at hok
      split_ifs at hok with hsyn hcode hend
      · exact absurd ⟨hsyn, hcode⟩ hdrop
      · exact hok
      · exact absurd ⟨hsyn, not_not.mp hend⟩ hreport
      all_goals exact hok
    obtain ⟨hc', hdropped, hwritten⟩ := h.forward hforward
    refine ⟨hc', ?_, ?_⟩
    · rw [hdropped, if_neg hreport]
    · rw [hwritten]
      simp [forwardedEvent, hwindow, hdrop, hreport]

end Call

/-! ## Runs -/

/-- Wherever the calls are cut, the input so far was forwarded. -/
theorem Midway.forwarding {dev : InputDevice M} {calls : List (List InputEvent)}
    {es : List InputEvent} {c : Call M} (h : Midway E answers dev calls es c)
    (hraw : dev.rawPassthrough = true) (hparked : dev.hasPendingMotion = false) :
    c.Forwarding ∧
      c.dev.synDropped =
        ((calls.flatten ++ es).map InputEvent.toOutEvent).foldl windowAfter dev.synDropped ∧
      c.dev.uinput.written = dev.uinput.written ++
        forwarded dev.synDropped ((calls.flatten ++ es).map InputEvent.toOutEvent) := by
  have hmerge : ∀ d : InputDevice M, d.hasPendingMotion = false → mergeTail d = { dev := d } := by
    intro d hd
    unfold mergeTail
    rw [if_neg (by simp [hd])]
  induction h with
  | start =>
      rw [hmerge dev hparked]
      exact ⟨⟨hraw, rfl, rfl, rfl, hparked⟩, rfl, (List.append_nil _).symm⟩
  | @event calls es c c' ev hc hok ih =>
      obtain ⟨hforwarding, hdropped, hwritten⟩ := ih
      obtain ⟨hc', hdropped', hwritten'⟩ := hforwarding.processEvent hok
      rw [← List.append_assoc, List.map_append]
      refine ⟨hc', ?_, ?_⟩
      · rw [hdropped', hdropped, List.foldl_append]
        rfl
      · rw [hwritten', hwritten, forwarded_append, hdropped, List.append_assoc]
        exact congrArg _ (congrArg _ (List.append_nil _).symm)
  | disconnect hc ih => exact ⟨ih.1.disconnect, ih.2⟩
  | @next calls es c c' hc hfinish ih =>
      obtain ⟨hforwarding, hdropped, hwritten⟩ := ih
      have hsame : c' = c := by
        simp only [finish, hforwarding.park, hforwarding.raw, Bool.not_true, Bool.false_eq_true,
          and_false, if_false] at hfinish
        exact (Except.ok.inj hfinish).symm
      have hflatten : (calls ++ [es]).flatten ++ [] = calls.flatten ++ es := by simp
      rw [hsame, hmerge c.dev hforwarding.unparked, hflatten]
      exact ⟨⟨hforwarding.raw, rfl, rfl, rfl, hforwarding.unparked⟩, hdropped, hwritten⟩

/-- **Raw passthrough is a forwarder.**  Whatever the events and however they are cut into
reads and calls, with nothing parked and as long as no write fails, what is written is
the input without its windows, and nothing else. -/
theorem raw_forwards (dev dev' : InputDevice M) (calls : List (List ReadResult))
    (hraw : dev.rawPassthrough = true) (hparked : dev.hasPendingMotion = false)
    (hok : dev.run E answers calls = .ok dev') :
    dev'.uinput.written =
      dev.uinput.written ++ forwarded dev.synDropped (calls.flatMap dev.events) := by
  rw [InputDevice.flatMap_events]
  cases huidev : dev.hasUidev with
  | false =>
      obtain ⟨rfl, hinputs⟩ := InputDevice.run_idle huidev hok
      have hnone : calls.flatMap dev'.inputs = [] := by simp [hinputs]
      rw [hnone]
      exact (List.append_nil _).symm
  | true =>
      have hmidway := (InputDevice.settled_run huidev hok).mergeTail
      obtain ⟨-, -, hwritten⟩ := hmidway.forwarding hraw hparked
      rw [List.append_nil, ← List.flatMap_def, mergeTail_uinput] at hwritten
      exact hwritten

/-- A motion and a click in one frame, cut after the motion, and a window behind it. -/
def cutFrame : List (List ReadResult) :=
  [[.got [⟨.rel relX 5, 0, 0⟩]], [.got [btnLeft 1, synOf synReport], .got [synOf synDropped]],
    [.got [btnLeft 0, synOf synReport]]]

theorem raw_forwards_cutFrame :
    ∃ dev', { idleMouse with rawPassthrough := true }.run MotionEngine.still takesAll cutFrame =
        .ok dev' ∧
      dev'.uinput.written = [.rel relX 5, (btnLeft 1).toOutEvent, .syn] := by
  have hrun : ({ idleMouse with rawPassthrough := true }.run MotionEngine.still takesAll
      cutFrame).toOption.any (fun _ => true) = true := by
    decide +kernel
  obtain ⟨dev', hok, -⟩ := InputDevice.run_eq_ok_of_any hrun
  refine ⟨dev', hok, ?_⟩
  have hwritten := raw_forwards _ dev' cutFrame rfl rfl hok
  exact hwritten.trans (by decide +kernel)

end AbrekMouse
