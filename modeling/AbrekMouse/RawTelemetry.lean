import AbrekMouse.EventOrder
import AbrekMouse.FlushMotion
import AbrekMouse.Machine

/-! # Statistics in raw passthrough

Raw passthrough is meant to carry no telemetry: `apply_profile` clears the counter and the
latency histogram, and nothing should fill them before the next profile.  What is recorded
comes from `flush_motion` and from the write of a batch, and in raw passthrough only a
`SYN_REPORT` outside a dropped window leads there (`RawEvent`).  It does each time: the batch
with the `SYN_REPORT` is written and timed, and what was parked before the switch is flushed
first.
-/
namespace ProgLib

/-- A checked computation ends in `P`, or fails in `Q`. -/
def Except.Ends {ε α : Type} (P : α → Prop) (Q : ε → Prop) : Except ε α → Prop
  | .ok a => P a
  | .error e => Q e

namespace Except.Ends
variable {ε α β : Type} {P P' : α → Prop} {Q Q' : ε → Prop} {x : Except ε α}

theorem mono (h : Except.Ends P Q x) (hP : ∀ a, P a → P' a) (hQ : ∀ e, Q e → Q' e) :
    Except.Ends P' Q' x := by
  cases x with
  | ok a => exact hP a h
  | error e => exact hQ e h

theorem bind {R : β → Prop} {f : α → Except ε β} (h : Except.Ends P Q x)
    (hf : ∀ a, P a → Except.Ends R Q (f a)) : Except.Ends R Q (x >>= f) := by
  cases x with
  | ok a => exact hf a h
  | error e => exact h

end Except.Ends
end ProgLib

namespace AbrekMouse
open ProgLib

/-! ## Profiles and records -/

/-- What is recorded of a device. -/
structure Recorded where
  /-- The calls of `flush_motion`. -/
  flushes : ℕ
  /-- The counter of the telemetry. -/
  telemetrySamples : UInt64
  /-- The samples in the latency histogram. -/
  latSamples : ℕ
deriving DecidableEq

variable {P : Type}

namespace InputDevice
variable (clock : ℕ → Timespec)

/-- `apply_profile`.  For raw passthrough it resets the latency histogram, which also holds
the flushes of the batches. -/
def applyProfile (prof : DeviceProfile) (dev : InputDevice (MotionState P)) :
    InputDevice (MotionState P) :=
  { dev with
    rawPassthrough := prof.prof.rawPassthrough
    motion := dev.motion.applyProfile clock prof
    uinput := if prof.prof.rawPassthrough then { dev.uinput with timed := 0 } else dev.uinput }

def recorded (dev : InputDevice (MotionState P)) : Recorded :=
  ⟨dev.motion.flushes, dev.motion.telemetrySamples, dev.motion.latSamples + dev.uinput.timed⟩

theorem recorded_applyProfile {clock : ℕ → Timespec} {prof : DeviceProfile}
    {dev : InputDevice (MotionState P)} (hraw : prof.prof.rawPassthrough = true) :
    (dev.applyProfile clock prof).recorded = ⟨dev.motion.flushes, 0, 0⟩ := by
  have hmotion : (dev.motion.applyProfile clock prof).flushes = dev.motion.flushes ∧
      (dev.motion.applyProfile clock prof).telemetrySamples = 0 ∧
      (dev.motion.applyProfile clock prof).latSamples = 0 := by
    cases dev.motion
    exact ⟨rfl, rfl, if_pos hraw⟩
  unfold recorded applyProfile
  rw [if_pos hraw, hmotion.1, hmotion.2.1, hmotion.2.2]
  rfl

/-- The device after a call, also where a write has failed. -/
def afterCall {M : Type} (E : MotionEngine M) (answers : ℕ → WriteResult) (dev : InputDevice M)
    (reads : List ReadResult) : InputDevice M :=
  match processDevice E answers dev reads with
  | .ok dev => dev
  | .error dev => dev

end InputDevice

/-- A `SYN_REPORT` comes outside every window. -/
def reportOutside : Bool → List OutEvent → Bool
  | _, [] => false
  | dropped, e :: es => (!dropped && decide e.IsReport) || reportOutside (windowAfter dropped e) es

theorem reportOutside_append (dropped : Bool) (es fs : List OutEvent) :
    reportOutside dropped (es ++ fs) =
      (reportOutside dropped es || reportOutside (es.foldl windowAfter dropped) fs) := by
  induction es generalizing dropped with
  | nil => rfl
  | cons e es ih => simp only [List.cons_append, reportOutside, ih, Bool.or_assoc, List.foldl_cons]

/-! ## One event in raw passthrough -/

/-- What an event does to a call in raw passthrough. -/
inductive RawEvent {M : Type} (E : MotionEngine M) (answers : ℕ → WriteResult) (c : Call M)
    (ev : InputEvent) : Except (Call M) (Call M) → Prop
  | opened : ev.IsDropped → RawEvent E answers c ev (.ok c.openDrop)
  | closed : c.dev.synDropped = true → ev.IsReport →
      RawEvent E answers c ev (.ok (c.closeDrop E ev))
  | skipped : c.dev.synDropped = true → ¬ev.IsDropped → ¬ev.IsReport →
      RawEvent E answers c ev (.ok c)
  | reported : c.dev.synDropped = false → ev.IsReport →
      RawEvent E answers c ev (c.closeFrame E answers ev.frameEvUs)
  | forwarded : c.dev.synDropped = false → ¬ev.IsDropped → ¬ev.IsReport →
      RawEvent E answers c ev (c.forward answers ev)

theorem rawEvent {M : Type} {E : MotionEngine M} {answers : ℕ → WriteResult} {c : Call M}
    (hraw : c.dev.rawPassthrough = true) (ev : InputEvent) :
    RawEvent E answers c ev (processEvent E answers c ev) := by
  unfold processEvent
  by_cases hdrop : ev.IsDropped
  · rw [if_pos hdrop.1, if_pos hdrop.2]
    exact .opened hdrop
  by_cases hreport : ev.IsReport
  · have hcode : ¬synReport = synDropped := by decide
    rw [if_pos hreport.1, hreport.2, if_neg hcode, if_pos rfl, if_neg (not_not.mpr rfl)]
    split_ifs with hwindow
    · exact .closed hwindow hreport
    · exact .reported (Bool.eq_false_of_not_eq_true hwindow) hreport
  by_cases hwindow : c.dev.synDropped = true
  · rw [if_pos hwindow, if_pos hwindow]
    split_ifs with hsyn hcode hend
    · exact absurd ⟨hsyn, hcode⟩ hdrop
    · exact absurd ⟨hsyn, hend⟩ hreport
    · exact .skipped hwindow hdrop hreport
    · exact .skipped hwindow hdrop hreport
  · have hforwarded : RawEvent E answers c ev (c.forward answers ev) :=
      .forwarded (Bool.eq_false_of_not_eq_true hwindow) hdrop hreport
    rw [if_neg hwindow, if_neg hwindow, if_pos hraw, if_pos hraw, if_pos hraw,
      ite_self, ite_self]
    split_ifs with hsyn hcode hend
    · exact absurd ⟨hsyn, hcode⟩ hdrop
    · exact hforwarded
    · exact absurd ⟨hsyn, not_not.mp hend⟩ hreport
    · exact hforwarded

/-! ## What is timed -/

namespace Output
variable {answers : ℕ → WriteResult} {o o' : Output}

theorem timed_write {evs : List OutEvent} :
    Except.Ends (fun p => p.uinput.timed = o.uinput.timed)
      (fun p => p.uinput.timed = o.uinput.timed) (o.write answers evs) := by
  unfold write
  split_ifs
  · rfl
  · split <;> rename_i hwrite <;> exact congrArg (fun r => r.2.timed) hwrite.symm

/-- A batch that goes out is timed. -/
theorem timed_flush (h : o.flush answers = .ok o') :
    o'.uinput.timed = o.uinput.timed + (if o.batch.evs = [] then 0 else 1) := by
  unfold flush at h
  split_ifs at h ⊢
  · cases h
    rfl
  · have htimed : Except.Ends _ _ (o.write answers o.batch.evs) := timed_write
    cases hwrite : o.write answers o.batch.evs with
    | error p =>
        rw [hwrite] at h
        cases h
    | ok p =>
        rw [hwrite] at h htimed
        cases h
        exact congrArg (· + 1) htimed

theorem timed_add {e : OutEvent} (h : o.add e = .ok o') :
    o'.uinput.timed = o.uinput.timed ∧ o'.batch.evs ≠ [] := by
  unfold add at h
  split at h
  · rename_i batch hadd
    cases h
    refine ⟨rfl, ?_⟩
    rw [(EventBuffer.add_eq_some hadd).2]
    exact List.append_ne_nil_of_right_ne_nil _ (List.cons_ne_nil _ _)
  · cases h

theorem timed_addFlushIfFull {e : OutEvent} (h : o.addFlushIfFull answers e = .ok o') :
    o.uinput.timed ≤ o'.uinput.timed ∧ o'.batch.evs ≠ [] := by
  unfold addFlushIfFull at h
  split_ifs at h
  · obtain ⟨p, hflush, hadd⟩ := Except.bind_eq_ok_iff.mp h
    obtain ⟨htimed, hevs⟩ := timed_add hadd
    refine ⟨?_, hevs⟩
    rw [htimed, timed_flush hflush]
    exact Nat.le_add_right _ _
  · obtain ⟨htimed, hevs⟩ := timed_add h
    exact ⟨htimed.ge, hevs⟩

theorem timed_addAxis {code : UInt16} {v : ℤ} (h : o.addAxis answers code v = .ok o') :
    o.uinput.timed ≤ o'.uinput.timed := by
  unfold addAxis at h
  split_ifs at h
  · exact (timed_addFlushIfFull h).1
  · cases h
    exact Nat.le_refl _

theorem timed_foldlM {evs : List InputEvent}
    (h : evs.foldlM (fun o e => o.addFlushIfFull answers e.toOutEvent) o = .ok o') :
    o.uinput.timed ≤ o'.uinput.timed := by
  induction evs generalizing o with
  | nil =>
      cases h
      exact Nat.le_refl _
  | cons e evs ih =>
      obtain ⟨p, hp, hrest⟩ := Except.bind_eq_ok_iff.mp h
      exact Nat.le_trans (timed_addFlushIfFull hp).1 (ih hrest)

end Output

namespace Call
section
variable {M : Type} {E : MotionEngine M} {answers : ℕ → WriteResult} {c c' c'' : Call M}

/-- A part of a frame's end. -/
structure Timed (c c' : Call M) : Prop where
  raw : c'.dev.rawPassthrough = c.dev.rawPassthrough
  dropped : c'.dev.synDropped = c.dev.synDropped
  le : c.dev.uinput.timed ≤ c'.dev.uinput.timed

theorem Timed.trans (h : Timed c c') (h' : Timed c' c'') : Timed c c'' :=
  ⟨h'.raw.trans h.raw, h'.dropped.trans h.dropped, Nat.le_trans h.le h'.le⟩

theorem Timed.of_flushPendingMotion {frame : UInt64}
    (h : c.flushPendingMotion E answers frame = .ok c') : Timed c c' := by
  unfold flushPendingMotion at h
  split_ifs at h
  · obtain ⟨d, hd, hc'⟩ := Except.bind_eq_ok_iff.mp h
    obtain ⟨o, ho, rfl⟩ := emit_eq_ok_iff.mp hd
    cases hc'
    obtain ⟨p, hx, hy⟩ := Except.bind_eq_ok_iff.mp ho
    exact ⟨rfl, rfl, Nat.le_trans (Output.timed_addAxis hx) (Output.timed_addAxis hy)⟩
  · cases h
    exact ⟨rfl, rfl, Nat.le_refl _⟩

theorem Timed.of_flushQueued (h : c.flushQueued answers = .ok c') : Timed c c' := by
  obtain ⟨d, hd, hc'⟩ := Except.bind_eq_ok_iff.mp h
  obtain ⟨o, ho, rfl⟩ := emit_eq_ok_iff.mp hd
  cases hc'
  exact ⟨rfl, rfl, Output.timed_foldlM ho⟩

/-- **The end of a frame is timed**, with motion or without. -/
theorem timed_closeFrame {frame : UInt64} (h : c.closeFrame E answers frame = .ok c') :
    Timed c c' ∧ c.dev.uinput.timed < c'.dev.uinput.timed ∧
      c'.dev.motion = E.closeFrame frame (c.flushedMotion E frame) := by
  obtain ⟨c₁, h₁, h⟩ := Except.bind_eq_ok_iff.mp h
  obtain ⟨c₂, h₂, h⟩ := Except.bind_eq_ok_iff.mp h
  obtain ⟨c₃, h₃, h⟩ := Except.bind_eq_ok_iff.mp h
  obtain ⟨c₄, h₄, h⟩ := Except.bind_eq_ok_iff.mp h
  cases h
  have hbefore := (Timed.of_flushPendingMotion h₁).trans (.of_flushQueued h₂)
  obtain ⟨o₁, rfl, -⟩ := flushPendingMotion_eq_ok h₁
  obtain ⟨o₂, rfl, -⟩ := flushQueued_eq_ok h₂
  obtain ⟨o₃, ho₃, rfl⟩ := emit_eq_ok_iff.mp h₃
  obtain ⟨o₄, ho₄, rfl⟩ := emit_eq_ok_iff.mp h₄
  obtain ⟨hadded, hevs⟩ := Output.timed_addFlushIfFull ho₃
  have hflushed : o₄.uinput.timed =
      o₃.uinput.timed + (if o₃.batch.evs = [] then 0 else 1) := Output.timed_flush ho₄
  rw [if_neg hevs] at hflushed
  have hlt : c.dev.uinput.timed < o₄.uinput.timed :=
    hflushed ▸ Nat.lt_succ_of_le (Nat.le_trans hbefore.le hadded)
  exact ⟨⟨hbefore.raw, hbefore.dropped, Nat.le_of_lt hlt⟩, hlt, rfl⟩

theorem closeDrop_dev (E : MotionEngine M) (c : Call M) (ev : InputEvent) :
    (c.closeDrop E ev).dev.rawPassthrough = c.dev.rawPassthrough ∧
      (c.closeDrop E ev).dev.synDropped = false ∧
      (c.closeDrop E ev).dev.motion = E.closeDrop ev c.dev.motion ∧
      (c.closeDrop E ev).dev.uinput.timed = c.dev.uinput.timed := ⟨rfl, rfl, rfl, rfl⟩

end
end Call

/-! ## Reads in raw passthrough -/

variable {clock : ℕ → Timespec} {modify : Double → Double → Double → P → (ℤ × ℤ) × P}
  {answers : ℕ → WriteResult}

theorem latSamples_closeFrame (frame : UInt64) (m : MotionState P) :
    ((flushMotion clock modify).closeFrame frame m).latSamples = m.latSamples := by
  cases m
  rfl

/-- The end of a window is not recorded. -/
theorem recorded_closeDrop (clock : ℕ → Timespec)
    (modify : Double → Double → Double → P → (ℤ × ℤ) × P) (ev : InputEvent) (m : MotionState P) :
    ((flushMotion clock modify).closeDrop ev m).flushes = m.flushes ∧
    ((flushMotion clock modify).closeDrop ev m).telemetrySamples = m.telemetrySamples ∧
    ((flushMotion clock modify).closeDrop ev m).latSamples = m.latSamples := by
  cases m
  exact ⟨rfl, rfl, rfl⟩

namespace Call
variable {c c' c'' : Call (MotionState P)}

/-- The samples in the latency histogram. -/
def latSamples (c : Call (MotionState P)) : ℕ := c.dev.motion.latSamples + c.dev.uinput.timed

theorem latSamples_flushedMotion (frame : UInt64) : c.dev.motion.latSamples ≤
    (c.flushedMotion (flushMotion clock modify) frame).latSamples := by
  unfold flushedMotion flushed
  split_ifs
  · cases c.dev.rawPassthrough <;> exact Nat.le_add_right _ 1
  · exact Nat.le_refl _

/-- What a part of a call does in raw passthrough, after the events `es`. -/
structure RawPart (c : Call (MotionState P)) (es : List OutEvent) (c' : Call (MotionState P)) :
    Prop where
  raw : c'.dev.rawPassthrough = true
  dropped : c'.dev.synDropped = es.foldl windowAfter c.dev.synDropped
  clear : reportOutside c.dev.synDropped es = false → c'.dev.recorded = c.dev.recorded
  reported : reportOutside c.dev.synDropped es = true → c.latSamples < c'.latSamples

/-- What it leaves where a write fails. -/
def RawFailed (c : Call (MotionState P)) (es : List OutEvent) (c' : Call (MotionState P)) : Prop :=
  reportOutside c.dev.synDropped es = false →
    c'.dev.rawPassthrough = true ∧ c'.dev.recorded = c.dev.recorded

variable {es fs : List OutEvent}

theorem RawPart.nil (h : c.dev.rawPassthrough = true) : RawPart c [] c :=
  ⟨h, rfl, fun _ => rfl, nofun⟩

theorem RawPart.le (h : RawPart c es c') : c.latSamples ≤ c'.latSamples := by
  cases hes : reportOutside c.dev.synDropped es with
  | false => exact (congrArg Recorded.latSamples (h.clear hes)).ge
  | true => exact Nat.le_of_lt (h.reported hes)

theorem RawPart.trans (h : RawPart c es c') (h' : RawPart c' fs c'') :
    RawPart c (es ++ fs) c'' := by
  refine ⟨h'.raw, ?_, ?_, ?_⟩
  · rw [h'.dropped, h.dropped, List.foldl_append]
  · rw [reportOutside_append, ← h.dropped, Bool.or_eq_false_iff]
    rintro ⟨hes, hfs⟩
    rw [h'.clear hfs, h.clear hes]
  · rw [reportOutside_append, ← h.dropped, Bool.or_eq_true]
    rintro (hes | hfs)
    · exact Nat.lt_of_lt_of_le (h.reported hes) h'.le
    · exact Nat.lt_of_le_of_lt h.le (h'.reported hfs)

theorem RawPart.failed (h : RawPart c es c') (h' : RawFailed c' fs c'') :
    RawFailed c (es ++ fs) c'' := by
  unfold RawFailed
  rw [reportOutside_append, ← h.dropped, Bool.or_eq_false_iff]
  rintro ⟨hes, hfs⟩
  obtain ⟨hraw, hrecorded⟩ := h' hfs
  exact ⟨hraw, hrecorded.trans (h.clear hes)⟩

theorem RawFailed.append (h : RawFailed c es c') : RawFailed c (es ++ fs) c' := by
  unfold RawFailed
  rw [reportOutside_append, Bool.or_eq_false_iff]
  exact fun hes => h hes.1

theorem reportOutside_singleton (dropped : Bool) (e : OutEvent) :
    reportOutside dropped [e] = (!dropped && decide e.IsReport) := Bool.or_false _

/-- An event that is no `SYN_REPORT` outside a window. -/
theorem RawPart.of_clear {ev : InputEvent} (hraw : c'.dev.rawPassthrough = true)
    (hdropped : c'.dev.synDropped = windowAfter c.dev.synDropped ev.toOutEvent)
    (hrecorded : c'.dev.recorded = c.dev.recorded)
    (hclear : c.dev.synDropped = true ∨ ¬ev.IsReport) : RawPart c [ev.toOutEvent] c' := by
  refine ⟨hraw, hdropped, fun _ => hrecorded, ?_⟩
  rw [reportOutside_singleton]
  rcases hclear with hwindow | hreport
  · simp [hwindow]
  · simp [hreport]

theorem recorded_park : c.park.dev.recorded = c.dev.recorded := by
  unfold park
  split_ifs <;> rfl

theorem ends_forward {ev : InputEvent} :
    Except.Ends
      (fun d => d.dev.rawPassthrough = c.dev.rawPassthrough ∧
        d.dev.synDropped = c.dev.synDropped ∧ d.dev.recorded = c.dev.recorded)
      (fun d => d.dev.rawPassthrough = c.dev.rawPassthrough ∧
        d.dev.synDropped = c.dev.synDropped ∧ d.dev.recorded = c.dev.recorded)
      (c.forward answers ev) := by
  have htimed : Except.Ends _ _ (c.output.write answers [ev.toOutEvent]) := Output.timed_write
  have hrecorded : ∀ o : Output, o.uinput.timed = c.dev.uinput.timed →
      (c.withOutput o).dev.recorded = c.dev.recorded := by
    intro o ho
    exact congrArg (fun n => Recorded.mk _ _ (_ + n)) ho
  unfold forward emit
  cases hwrite : c.output.write answers [ev.toOutEvent] with
  | error o =>
      rw [hwrite] at htimed
      simp only [hwrite]
      exact ⟨rfl, rfl, hrecorded o htimed⟩
  | ok o =>
      rw [hwrite] at htimed
      simp only [hwrite]
      exact ⟨rfl, rfl, hrecorded o htimed⟩

/-- **One event in raw passthrough** records something exactly if it is a `SYN_REPORT` outside
every window. -/
theorem ends_processEvent (hraw : c.dev.rawPassthrough = true) (ev : InputEvent) :
    Except.Ends (RawPart c [ev.toOutEvent]) (RawFailed c [ev.toOutEvent])
      (processEvent (flushMotion clock modify) answers c ev) := by
  have hev : RawEvent (flushMotion clock modify) answers c ev
      (processEvent (flushMotion clock modify) answers c ev) := rawEvent hraw ev
  generalize processEvent (flushMotion clock modify) answers c ev = r at hev
  cases hev with
  | opened hdrop =>
      refine .of_clear (park_dev.2.1.trans hraw) ?_ recorded_park (.inr fun hreport => ?_)
      · rw [windowAfter, if_pos hdrop]
        rfl
      · exact hreport.not_isDropped hdrop
  | closed hwindow hreport =>
      obtain ⟨hflushes, htelemetry, hlat⟩ := recorded_closeDrop clock modify ev c.dev.motion
      obtain ⟨hsame, hdropped, hmotion, htimed⟩ := closeDrop_dev (flushMotion clock modify) c ev
      refine .of_clear (hsame.trans hraw) ?_ ?_ (.inl hwindow)
      · rw [windowAfter, if_neg hreport.not_isDropped, if_pos hreport, hdropped]
      · unfold InputDevice.recorded
        rw [hmotion, htimed, hflushes, htelemetry, hlat]
  | skipped hwindow hdrop hreport =>
      refine .of_clear hraw ?_ rfl (.inl hwindow)
      rw [windowAfter, if_neg hdrop, if_neg hreport]
  | reported hwindow hreport =>
      have houtside : reportOutside c.dev.synDropped [ev.toOutEvent] = true := by
        rw [reportOutside_singleton, hwindow]
        simpa using hreport
      cases hframe : c.closeFrame (flushMotion clock modify) answers ev.frameEvUs with
      | error d => exact fun hclear => absurd (houtside.symm.trans hclear) (by decide)
      | ok d =>
          obtain ⟨htimed, hlt, hmotion⟩ := timed_closeFrame hframe
          refine ⟨htimed.raw.trans hraw, ?_, fun hclear => ?_, fun _ => ?_⟩
          · rw [htimed.dropped, List.foldl_cons, List.foldl_nil, windowAfter,
              if_neg hreport.not_isDropped, if_pos hreport, hwindow]
          · exact absurd (houtside.symm.trans hclear) (by decide)
          · unfold latSamples
            rw [hmotion, latSamples_closeFrame]
            exact Nat.add_lt_add_of_le_of_lt (latSamples_flushedMotion _) hlt
  | forwarded hwindow hdrop hreport =>
      refine ends_forward.mono (fun d hd => ?_) fun d hd _ => ⟨hd.1.trans hraw, hd.2.2⟩
      refine .of_clear (hd.1.trans hraw) ?_ hd.2.2 (.inr hreport)
      rw [windowAfter, if_neg hdrop, if_neg hreport]
      exact hd.2.1

theorem ends_foldlM (hraw : c.dev.rawPassthrough = true) (evs : List InputEvent) :
    Except.Ends (RawPart c (evs.map InputEvent.toOutEvent))
      (RawFailed c (evs.map InputEvent.toOutEvent))
      (evs.foldlM (processEvent (flushMotion clock modify) answers) c) := by
  induction evs generalizing c with
  | nil => exact RawPart.nil hraw
  | cons ev evs ih =>
      have hev : Except.Ends _ _ (processEvent (flushMotion clock modify) answers c ev) :=
        ends_processEvent hraw ev
      have hcons : (ev :: evs).map InputEvent.toOutEvent =
          [ev.toOutEvent] ++ evs.map InputEvent.toOutEvent := rfl
      rw [List.foldlM_cons, hcons]
      cases hresult : processEvent (flushMotion clock modify) answers c ev with
      | error d =>
          rw [hresult] at hev
          exact RawFailed.append hev
      | ok d =>
          rw [hresult] at hev
          exact (ih hev.raw).mono (fun _ hd => hev.trans hd) fun _ hd => hev.failed hd

theorem RawPart.disconnect (h : RawPart c es c') : RawPart c es c'.disconnect :=
  ⟨h.raw, h.dropped, h.clear, h.reported⟩

theorem ends_drain (hraw : c.dev.rawPassthrough = true) (n : ℕ) (reads : List ReadResult) :
    Except.Ends (RawPart c ((eventsRead n reads).map InputEvent.toOutEvent))
      (RawFailed c ((eventsRead n reads).map InputEvent.toOutEvent))
      (drain (flushMotion clock modify) answers n reads c) := by
  induction reads generalizing n c with
  | nil => cases n <;> exact RawPart.nil hraw
  | cons r reads ih =>
      cases n with
      | zero => exact RawPart.nil hraw
      | succ n =>
          cases r with
          | got evs =>
              unfold drain eventsRead
              split_ifs
              · exact RawPart.nil hraw
              · have hevs : Except.Ends _ _
                  (evs.foldlM (processEvent (flushMotion clock modify) answers) c) :=
                  ends_foldlM hraw evs
                rw [List.map_append]
                cases hresult : evs.foldlM (processEvent (flushMotion clock modify) answers) c with
                | error d =>
                    rw [hresult] at hevs
                    exact RawFailed.append hevs
                | ok d =>
                    rw [hresult] at hevs
                    exact (ih hevs.raw n).mono (fun _ hd => hevs.trans hd)
                      fun _ hd => hevs.failed hd
          | interrupted => exact ih hraw n
          | again | otherError => exact RawPart.nil hraw
          | deviceError | endOfFile => exact (RawPart.nil hraw).disconnect

/-- In raw passthrough a call ends without a `SYN_REPORT` of its own. -/
theorem finish_raw (hraw : c.dev.rawPassthrough = true) :
    finish answers c = .ok c.park := by
  unfold finish
  have hsame : c.park.dev.rawPassthrough = true := park_dev.2.1.trans hraw
  simp only [hsame, Bool.not_true, Bool.false_eq_true, and_false, if_false]

end Call

/-- What a call records, if no write fails and if one does. -/
theorem ends_processDevice {dev : InputDevice (MotionState P)}
    (hraw : dev.rawPassthrough = true) (reads : List ReadResult) :
    Except.Ends
      (fun d => d.rawPassthrough = true ∧
        (d.recorded = dev.recorded ↔ reportOutside dev.synDropped (dev.events reads) = false))
      (fun d => reportOutside dev.synDropped (dev.events reads) = false →
        d.rawPassthrough = true ∧ d.recorded = dev.recorded)
      (processDevice (flushMotion clock modify) answers dev reads) := by
  unfold processDevice InputDevice.events
  split_ifs with huidev
  · have hmerge : (mergeTail dev).dev.rawPassthrough = dev.rawPassthrough ∧
        (mergeTail dev).dev.synDropped = dev.synDropped ∧
        (mergeTail dev).dev.recorded = dev.recorded := by
      unfold mergeTail
      split_ifs <;> exact ⟨rfl, rfl, rfl⟩
    have hdrain : Except.Ends _ _ (drain (flushMotion clock modify) answers maxDrainPerBatch
        reads (mergeTail dev)) := Call.ends_drain (hmerge.1.trans hraw) maxDrainPerBatch reads
    rw [← hmerge.2.1, ← hmerge.2.2]
    cases hresult : drain (flushMotion clock modify) answers maxDrainPerBatch reads
        (mergeTail dev) with
    | error c =>
        rw [hresult] at hdrain
        exact hdrain
    | ok c =>
        rw [hresult] at hdrain
        have hbind : (Except.ok c >>= finish answers) = Except.ok c.park :=
          Call.finish_raw hdrain.raw
        rw [hbind]
        refine ⟨Call.park_dev.2.1.trans hdrain.raw, ?_⟩
        rw [Call.recorded_park]
        refine ⟨fun hsame => ?_, hdrain.clear⟩
        by_contra hreport
        have hlt := hdrain.reported (Bool.eq_true_of_not_eq_false hreport)
        exact Nat.ne_of_gt hlt (congrArg Recorded.latSamples hsame)
  · exact ⟨hraw, iff_of_true rfl rfl⟩

/-! ## Runs -/

/-- A device, whether the last profile was one for raw passthrough, and how often
`flush_motion` had been called when passthrough began. -/
structure RawRun (P : Type) where
  dev : InputDevice (MotionState P)
  raw : Bool := false
  flushesBefore : ℕ := 0

inductive DeviceStep
  | processDevice (reads : List ReadResult)
  | applyProfile (prof : DeviceProfile)

/-- Reads and profiles in any order, from a device in any state. -/
def deviceMachine (clock : ℕ → Timespec) (modify : Double → Double → Double → P → (ℤ × ℤ) × P)
    (answers : ℕ → WriteResult) : Machine (RawRun P) DeviceStep where
  Start s := s.raw = false
  step s
    | .processDevice reads =>
        some { s with dev := s.dev.afterCall (flushMotion clock modify) answers reads }
    | .applyProfile prof =>
        some {
          dev := s.dev.applyProfile clock prof
          raw := prof.prof.rawPassthrough
          flushesBefore := if s.raw then s.flushesBefore else s.dev.motion.flushes }

namespace RawRun
variable (s : RawRun P)

/-- Since passthrough began nothing was recorded. -/
def Quiet : Prop := s.raw = true → s.dev.recorded = ⟨s.flushesBefore, 0, 0⟩

/-- In raw passthrough no call reads a `SYN_REPORT` outside a window. -/
def Unreported : DeviceStep → Prop
  | .processDevice reads =>
      s.raw = true → reportOutside s.dev.synDropped (s.dev.events reads) = false
  | .applyProfile _ => True

instance : DecidablePred s.Unreported := fun l => by
  cases l <;> unfold Unreported <;> infer_instance

/-- The device is in the mode of its last profile. -/
structure Silent : Prop where
  mode : s.raw = true → s.dev.rawPassthrough = true
  quiet : s.Quiet

variable {s}

theorem Silent.processDevice {reads : List ReadResult} (h : s.Silent)
    (hclear : s.Unreported (.processDevice reads)) :
    ({ s with dev := s.dev.afterCall (flushMotion clock modify) answers reads } :
      RawRun P).Silent := by
  have hcall : s.raw = true →
      (s.dev.afterCall (flushMotion clock modify) answers reads).rawPassthrough = true ∧
      (s.dev.afterCall (flushMotion clock modify) answers reads).recorded = s.dev.recorded := by
    intro hraw
    have hends : Except.Ends _ _ (AbrekMouse.processDevice (flushMotion clock modify) answers s.dev
      reads) := ends_processDevice (h.mode hraw) reads
    unfold InputDevice.afterCall
    cases hresult : AbrekMouse.processDevice (flushMotion clock modify) answers s.dev reads with
    | error d =>
        rw [hresult] at hends
        exact hends (hclear hraw)
    | ok d =>
        rw [hresult] at hends
        exact ⟨hends.1, hends.2.mpr (hclear hraw)⟩
  exact ⟨fun hraw => (hcall hraw).1, fun hraw => (hcall hraw).2.trans (h.quiet hraw)⟩

theorem Silent.applyProfile (h : s.Silent) (prof : DeviceProfile) :
    ({ dev := s.dev.applyProfile clock prof
       raw := prof.prof.rawPassthrough
       flushesBefore := if s.raw then s.flushesBefore else s.dev.motion.flushes } :
      RawRun P).Silent := by
  refine ⟨fun hraw => hraw, fun hraw => ?_⟩
  have hprof : prof.prof.rawPassthrough = true := hraw
  have hflushes : (if s.raw then s.flushesBefore else s.dev.motion.flushes) =
      s.dev.motion.flushes := by
    split_ifs with hs
    · exact (congrArg Recorded.flushes (h.quiet hs)).symm
    · rfl
  rw [hflushes]
  exact InputDevice.recorded_applyProfile hprof

end RawRun

/-- **Raw passthrough carries no telemetry as long as it reads no `SYN_REPORT`** outside a
window, and each call that reads one records something. -/
theorem raw_carries_no_telemetry (clock : ℕ → Timespec)
    (modify : Double → Double → Double → P → (ℤ × ℤ) × P) (answers : ℕ → WriteResult)
    (s : RawRun P) (h : (deviceMachine clock modify answers).Run RawRun.Unreported s) :
    s.Quiet ∧
    (s.raw = true → ∀ reads dev',
      processDevice (flushMotion clock modify) answers s.dev reads = .ok dev' →
      (dev'.recorded = s.dev.recorded ↔ s.Unreported (.processDevice reads))) := by
  have hsilent : s.Silent := by
    refine h.invariant (fun s hs => ?_) fun s l t hs hclear hstep => ?_
    · have hs : s.raw = false := hs
      exact ⟨by simp [hs], by simp [RawRun.Quiet, hs]⟩
    · cases l with
      | processDevice reads =>
          cases hstep
          exact hs.processDevice hclear
      | applyProfile prof =>
          cases hstep
          exact hs.applyProfile prof
  refine ⟨hsilent.quiet, fun hraw reads dev' hok => ?_⟩
  have hends : Except.Ends _ _ (processDevice (flushMotion clock modify) answers s.dev reads) :=
    ends_processDevice (hsilent.mode hraw) reads
  rw [hok] at hends
  exact hends.2.trans ⟨fun hclear _ => hclear, fun hclear => hclear hraw⟩

/-! ## The first report after the switch -/

def movingMouse : RawRun Unit where
  dev := { uinput := { fd := 3 }, motion := { pipeline := () } }

theorem movingMouse_start {clock : ℕ → Timespec}
    {modify : Double → Double → Double → Unit → (ℤ × ℤ) × Unit} :
    (deviceMachine clock modify answers).Start movingMouse := rfl

def stoppedClock : ℕ → Timespec := fun _ => ⟨0, 0⟩

/-- The pipeline of no motion. -/
def noMotion : Double → Double → Double → Unit → (ℤ × ℤ) × Unit := fun _ _ _ _ => ((0, 0), ())

def rawProfile : DeviceProfile := { prof := { rawPassthrough := true } }

/-- Motion without its `SYN_REPORT`. -/
def nudge : DeviceStep := .processDevice [.got [⟨.rel relX 3, 0, 0⟩]]

def report : List ReadResult := [.got [synOf synReport]]

/-- What was parked in accel mode stays parked as long as no report comes, and the report is
recorded. -/
theorem raw_carries_no_telemetry_nudged : ∃ s : RawRun Unit, s.Quiet ∧ s.raw = true ∧
    ∀ dev', processDevice (flushMotion stoppedClock noMotion) takesAll s.dev report = .ok dev' →
      dev'.recorded ≠ s.dev.recorded := by
  have hexec : ((deviceMachine stoppedClock noMotion takesAll).exec RawRun.Unreported movingMouse
      [nudge, .applyProfile rawProfile, nudge]).any (fun s =>
        s.raw && reportOutside s.dev.synDropped (s.dev.events report)) = true := by
    decide +kernel
  obtain ⟨s, hs, hcheck⟩ := (Option.any_eq_true _ _).mp hexec
  obtain ⟨hraw, hreport⟩ := (Bool.and_eq_true _ _).mp hcheck
  obtain ⟨hquiet, hcalls⟩ := raw_carries_no_telemetry stoppedClock noMotion takesAll s
    (.exec (.start movingMouse_start) hs)
  refine ⟨s, hquiet, hraw, fun dev' hok hsame => ?_⟩
  have hclear := (hcalls hraw report dev' hok).mp hsame hraw
  exact absurd (hreport.symm.trans hclear) (by decide)

/-- Motion that was parked in accel mode is flushed in raw passthrough, and recorded. -/
theorem parked_motion_recorded :
    ¬∀ s : RawRun Unit, (deviceMachine stoppedClock noMotion takesAll).Reachable s → s.Quiet := by
  intro hall
  have hexec : ((deviceMachine stoppedClock noMotion takesAll).exec (fun _ _ => True) movingMouse
      [nudge, .applyProfile rawProfile, .processDevice report]).any (fun s =>
        s.raw && s.flushesBefore == 0 && s.dev.recorded == ⟨1, 2, 2⟩) = true := by
    decide +kernel
  obtain ⟨s, hs, hcheck⟩ := (Option.any_eq_true _ _).mp hexec
  simp only [Bool.and_eq_true, beq_iff_eq] at hcheck
  obtain ⟨⟨hraw, hbefore⟩, hrecorded⟩ := hcheck
  have hquiet := hall s (.exec (.start movingMouse_start) hs) hraw
  rw [hrecorded, hbefore] at hquiet
  exact absurd hquiet (by decide)

end AbrekMouse
