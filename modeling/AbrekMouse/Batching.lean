import AbrekMouse.FlushMotion
import AbrekMouse.MotionSum

/-! # How the input is cut into calls

A stream without dropped windows, read in any number of calls, should leave the same
flushes and the same output as in a single call.  `Follows` relates the two runs: the
call that reads a piece stands where the call that reads everything stands.

It does so unless a frame without motion is cut behind a button.  What was queued is
parked under the name of motion, the next call takes it for motion, and the frame is
flushed with zero counts, which the single call does not do.  From then on the runs
differ (`Diverged`), so the frames that are cut in this way decide
(`batching_unobservable_iff`).

The two runs happen at different times, so each has its own clock.  The interval of a frame is
taken from the stamps of the kernel where the frame is stamped after the one before it; else
it is taken from the clock, and nothing makes the counts of the two runs the same.  Stamps
that increase leave this to the first frame (`FirstAnchored`).
-/
namespace AbrekMouse
open ProgLib

/-! ## Cut frames -/

/-- What is known of a frame that is not finished. -/
structure FrameCut where
  moved : Bool := false
  /-- Something else than motion was read. -/
  marked : Bool := false
  /-- A call has ended behind it. -/
  cut : Bool := false

namespace FrameCut
variable (f : FrameCut)

/-- Nothing, where a frame ends that had no motion and was cut. -/
def event (e : OutEvent) : Option FrameCut :=
  if e.IsReport then if f.cut && !f.moved then none else some {}
  else if e.IsMotion then some { f with moved := true }
  else some { f with marked := true }

def endCall : FrameCut := { f with cut := f.cut || f.marked }

def events (es : List OutEvent) (o : Option FrameCut) : Option FrameCut :=
  es.foldl (fun o e => o.bind fun f => f.event e) o

/-- After the calls `calls`. -/
def run (calls : List (List OutEvent)) : Option FrameCut :=
  calls.foldl (fun o es => (events es o).map endCall) (some {})

end FrameCut

/-- No frame that ends without motion is cut behind its first event. -/
def Unbroken (calls : List (List OutEvent)) : Prop := (FrameCut.run calls).isSome

instance (calls : List (List OutEvent)) : Decidable (Unbroken calls) :=
  inferInstanceAs (Decidable (_ = true))

/-- At most `pendingEventsMax` events of a frame are queued. -/
def FramesFit (es : List InputEvent) : Prop :=
  ∀ xs ys zs, es = xs ++ ys ++ zs → (∀ e ∈ ys, ¬e.IsReport) →
    (ys.filter fun e => e.nonMotion).length ≤ pendingEventsMax

theorem FramesFit.append_left {es fs : List InputEvent} (h : FramesFit (es ++ fs)) :
    FramesFit es := by
  intro xs ys zs heq hys
  refine h xs ys (zs ++ fs) ?_ hys
  rw [heq, List.append_assoc _ zs fs]

/-! ## Stamps -/

/-- The reports carry times, and these increase. -/
def Stamped (es : List InputEvent) : Prop :=
  (∀ e ∈ es, e.IsReport → e.frameEvUs ≠ 0) ∧
    ((es.filter fun e => e.IsReport).map InputEvent.frameEvUs).Pairwise (· < ·)

instance (es : List InputEvent) : Decidable (Stamped es) :=
  inferInstanceAs (Decidable (_ ∧ _))

/-- If the first frame has motion, it is stamped after the anchor, and the anchor is a stamp. -/
def FirstAnchored (anchor : UInt64) (es : List InputEvent) : Prop :=
  (∃ e ∈ es.takeWhile (fun e => !decide e.IsReport), e.IsMotion) →
    ∀ e ∈ es.find? (fun e => e.IsReport), anchor ≠ 0 ∧ anchor < e.frameEvUs

instance (anchor : UInt64) (es : List InputEvent) : Decidable (FirstAnchored anchor es) :=
  inferInstanceAs (Decidable (_ → _))

/-- The stamp of the last report, or the anchor where there is none. -/
def lastStamp (anchor : UInt64) (es : List InputEvent) : UInt64 :=
  ((es.filter fun e => e.IsReport).map InputEvent.frameEvUs).getLastD anchor

/-- Every frame with motion is stamped after its anchor. -/
def Timed (anchor : UInt64) (es : List InputEvent) : Prop := Stamped es ∧ FirstAnchored anchor es

section Stamps
variable {anchor : UInt64} {es fs : List InputEvent} {ev : InputEvent}

theorem lastStamp_append_of_not (h : ¬ev.IsReport) :
    lastStamp anchor (es ++ [ev]) = lastStamp anchor es := by
  unfold lastStamp
  rw [List.filter_append, List.filter_cons_of_neg (by simpa using h), List.filter_nil,
    List.append_nil]

theorem lastStamp_append_report (h : ev.IsReport) :
    lastStamp anchor (es ++ [ev]) = ev.frameEvUs := by
  unfold lastStamp
  rw [List.filter_append, List.filter_cons_of_pos (by simpa using h), List.filter_nil,
    List.map_append, List.map_singleton, List.getLastD_concat]

theorem Timed.append_left (h : Timed anchor (es ++ fs)) : Timed anchor es := by
  obtain ⟨⟨hstamps, hincreasing⟩, hfirst⟩ := h
  refine ⟨⟨fun e he => hstamps e (List.mem_append_left fs he), ?_⟩, ?_⟩
  · rw [List.filter_append, List.map_append] at hincreasing
    exact (List.pairwise_append.mp hincreasing).1
  · rintro ⟨e, he, hmotion⟩ first hfound
    refine hfirst ⟨e, ?_, hmotion⟩ first ?_
    · rw [List.takeWhile_append]
      split_ifs
      · exact List.mem_append_left _ ((List.takeWhile_prefix _).subset he)
      · exact he
    · rw [List.find?_append, show es.find? (fun e => e.IsReport) = some first from hfound]
      rfl

/-- **A frame with motion** is stamped after the report before it. -/
theorem Timed.anchored (h : Timed anchor (es ++ [ev])) (hreport : ev.IsReport)
    (hmotion : (∀ e ∈ es, ¬e.IsReport) → ∃ e ∈ es, e.IsMotion) :
    lastStamp anchor es ≠ 0 ∧ lastStamp anchor es < ev.frameEvUs := by
  obtain ⟨⟨hstamps, hincreasing⟩, hfirst⟩ := h
  rcases List.eq_nil_or_concat (es.filter fun e => e.IsReport) with hnone | ⟨front, last, hlast⟩
  · -- the first frame
    have hes : ∀ e ∈ es, ¬e.IsReport := fun e he => by
      simpa using List.filter_eq_nil_iff.mp hnone e he
    obtain ⟨e, he, hmoves⟩ := hmotion hes
    unfold lastStamp
    rw [hnone]
    refine hfirst ⟨e, ?_, hmoves⟩ ev ?_
    · rw [List.takeWhile_append_of_pos (by simpa using hes)]
      exact List.mem_append_left _ he
    · rw [List.find?_append, List.find?_eq_none.mpr (by simpa using hes)]
      simp [hreport]
  · have hmem : last ∈ es.filter fun e => e.IsReport := by
      rw [hlast, List.concat_eq_append]
      exact List.mem_append_right _ (List.mem_singleton_self last)
    obtain ⟨hmem, hlastReport⟩ := List.mem_filter.mp hmem
    have hstamp : lastStamp anchor es = last.frameEvUs := by
      unfold lastStamp
      rw [hlast, List.concat_eq_append, List.map_append, List.map_singleton, List.getLastD_concat]
    rw [hstamp]
    refine ⟨hstamps last (List.mem_append_left _ hmem) (of_decide_eq_true hlastReport), ?_⟩
    rw [List.filter_append, List.filter_cons_of_pos (by simpa using hreport), List.map_append,
      List.pairwise_append] at hincreasing
    refine hincreasing.2.2 _ ?_ _ (List.mem_singleton_self _)
    rw [hlast, List.concat_eq_append, List.map_append]
    exact List.mem_append_right _ (List.mem_singleton_self _)

end Stamps

variable {M : Type} {E E' : MotionEngine M} {answers answers' : ℕ → WriteResult}

/-- Two engines put out the same where a frame is stamped after its anchor, whatever their
clocks say; `R` is what they keep the same. -/
structure MotionEngine.SameByStamp (E E' : MotionEngine M) (anchor : M → UInt64)
    (R : M → M → Prop) : Prop where
  refl : ∀ m, R m m
  flush : ∀ {m m' dx dy frame}, R m m' → anchor m ≠ 0 ∧ anchor m < frame →
    (E.flushMotion false dx dy frame m).1 = (E'.flushMotion false dx dy frame m').1 ∧
      R (E.flushMotion false dx dy frame m).2 (E'.flushMotion false dx dy frame m').2
  record : ∀ {m m'}, R m m' → R (E.recordFlush m) (E'.recordFlush m')
  close : ∀ {m m' frame}, R m m' → R (E.closeFrame frame m) (E'.closeFrame frame m')
  anchor_close : ∀ {m frame}, frame ≠ 0 → anchor (E.closeFrame frame m) = frame

/-! ## The two runs -/

/-- A device in accel mode that has no frame parked. -/
structure InputDevice.Idle (dev : InputDevice M) : Prop where
  accel : dev.rawPassthrough = false
  opened : dev.synDropped = false
  unmarked : dev.hasPendingMotion = false
  pendingDx : dev.pendingDx = 0
  pendingDy : dev.pendingDy = 0
  pendingEvents : dev.pendingEvents.evs = []

/-- A call outside every window, with nothing in its batch. -/
structure Call.Steady (c : Call M) : Prop where
  accel : c.dev.rawPassthrough = false
  out : c.out.evs = []
  opened : c.dev.synDropped = false

/-- The call `d` has read `es`, all of it; `c` stands where it stands, its calls having
cut the frame as `f` says.  What the two have put out is the same as far as the frames go by
their stamps. -/
structure Follows (anchor : M → UInt64) (R : M → M → Prop) (dev : InputDevice (M × List FlushCall))
    (es : List InputEvent) (f : FrameCut) (c d : Call (M × List FlushCall)) : Prop where
  split : c.Steady
  whole : d.Steady
  synced : c.wroteUnsynced = false ∧ d.wroteUnsynced = false
  unparked : c.dev.hasPendingMotion = false ∧ c.dev.pendingDx = 0 ∧ c.dev.pendingDy = 0 ∧
    c.dev.pendingEvents.evs = []
  flushes : c.dev.motion.2 = d.dev.motion.2
  motion : Timed (anchor dev.motion.1) es → R c.dev.motion.1 d.dev.motion.1 ∧
    anchor c.dev.motion.1 = lastStamp (anchor dev.motion.1) es
  written : Timed (anchor dev.motion.1) es → c.dev.uinput.written = d.dev.uinput.written
  dx : c.dx = d.dx
  dy : c.dy = d.dy
  queued : c.queued.evs = d.queued.evs
  moved : d.hasMotion = f.moved
  /-- A frame that was cut counts as motion. -/
  cut : c.hasMotion = (f.moved || f.cut)
  marked : f.marked = !d.queued.evs.isEmpty
  still : f.moved = false → d.dx = 0 ∧ d.dy = 0
  positive : ¬d.dx.IsNegZero ∧ ¬d.dy.IsNegZero
  frame : ∃ before frame, es = before ++ frame ∧ (∀ e ∈ frame, ¬e.IsReport) ∧
    d.queued.evs = frame.filter (fun e => e.nonMotion) ∧
    (f.moved = true → ∃ e ∈ frame, e.IsMotion)
  reports : d.dev.uinput.written.countP (·.IsReport) =
    dev.uinput.written.countP (·.IsReport) + es.countP (fun e => e.IsReport)

namespace Call
variable {c d : Call M}

theorem Steady.disconnect (h : c.Steady) : c.disconnect.Steady := ⟨h.accel, h.out, h.opened⟩

/-- A frame ends with its only report. -/
theorem countP_frameEvents {frame : UInt64} (hqueued : ∀ e ∈ c.queued.evs, e.nonMotion = true) :
    (c.frameEvents E frame).countP (·.IsReport) = 1 := by
  have hmotion : (c.motionEvents E frame).countP (·.IsReport) = 0 := by
    have hrel : ∀ v, ¬(OutEvent.rel relX v).IsReport ∧ ¬(OutEvent.rel relY v).IsReport :=
      fun v => ⟨fun h => absurd h.1 (by decide : evRel ≠ evSyn),
        fun h => absurd h.1 (by decide : evRel ≠ evSyn)⟩
    unfold motionEvents
    split_ifs <;> simp [hrel]
  have hnone : (c.queued.evs.map InputEvent.toOutEvent).countP (·.IsReport) = 0 := by
    refine List.countP_eq_zero.mpr fun e he => ?_
    obtain ⟨ev, hev, rfl⟩ := List.mem_map.mp he
    simpa using (OutEvent.nonMotion_iff.mp (hqueued ev hev)).2.1
  rw [frameEvents, List.countP_append, List.countP_append, hmotion, hnone]
  rfl

/-- Two frames that agree are flushed alike, each by its own clock. -/
theorem frame_congr {c d : Call (M × List FlushCall)} {anchor : M → UInt64} {R : M → M → Prop}
    {frame : UInt64} (hE : E.SameByStamp E' anchor R) (hc : c.dev.rawPassthrough = false)
    (hd : d.dev.rawPassthrough = false) (hmotion : R c.dev.motion.1 d.dev.motion.1)
    (hanchor : c.hasMotion = true → anchor c.dev.motion.1 ≠ 0 ∧ anchor c.dev.motion.1 < frame)
    (hdx : c.dx = d.dx) (hdy : c.dy = d.dy) (hmoved : c.hasMotion = d.hasMotion)
    (hqueued : c.queued.evs = d.queued.evs) :
    c.frameEvents E.logged frame = d.frameEvents E'.logged frame ∧
      R (c.flushedMotion E.logged frame).1 (d.flushedMotion E'.logged frame).1 := by
  unfold frameEvents motionEvents flushedMotion
  rw [← hmoved, hqueued]
  cases hflush : c.hasMotion with
  | false => exact ⟨rfl, hmotion⟩
  | true =>
      obtain ⟨hcounts, hafter⟩ := @hE.flush _ _ c.dx c.dy frame hmotion (hanchor hflush)
      have hcounts' : (c.flushed E.logged frame).1 = (d.flushed E'.logged frame).1 := by
        show (E.flushMotion c.dev.rawPassthrough c.dx c.dy frame c.dev.motion.1).1 =
          (E'.flushMotion d.dev.rawPassthrough d.dx d.dy frame d.dev.motion.1).1
        rw [hc, hd, ← hdx, ← hdy]
        exact hcounts
      simp only [if_true]
      rw [hcounts']
      refine ⟨rfl, hE.record ?_⟩
      show R (E.flushMotion c.dev.rawPassthrough c.dx c.dy frame c.dev.motion.1).2
        (E'.flushMotion d.dev.rawPassthrough d.dx d.dy frame d.dev.motion.1).2
      rw [hc, hd, ← hdx, ← hdy]
      exact hafter

/-- The flushes themselves do not depend on the engines. -/
theorem flushes_congr {c d : Call (M × List FlushCall)} (E E' : MotionEngine M) (frame : UInt64)
    (hflushes : c.dev.motion.2 = d.dev.motion.2) (hdx : c.dx = d.dx) (hdy : c.dy = d.dy)
    (hmoved : c.hasMotion = d.hasMotion) :
    (c.flushedMotion E.logged frame).2 = (d.flushedMotion E'.logged frame).2 := by
  unfold flushedMotion
  rw [← hmoved]
  split_ifs
  · show c.dev.motion.2 ++ [⟨c.dx, c.dy, frame⟩] = d.dev.motion.2 ++ [⟨d.dx, d.dy, frame⟩]
    rw [hflushes, hdx, hdy]
  · exact hflushes

end Call

namespace Follows
variable {anchor : M → UInt64} {R : M → M → Prop} {dev : InputDevice (M × List FlushCall)}
  {es : List InputEvent} {f f' : FrameCut} {c c' d d' : Call (M × List FlushCall)}
  {ev : InputEvent}

/-- One more event finds room. -/
theorem room (h : Follows anchor R dev es f c d) (hfit : FramesFit (es ++ [ev]))
    (hev : ev.nonMotion = true) : d.queued.evs.length < pendingEventsMax := by
  obtain ⟨before, frame, rfl, hframe, hqueued, -⟩ := h.frame
  have hall := hfit before (frame ++ [ev]) [] (by simp) fun e he => by
    rcases List.mem_append.mp he with hmem | hlast
    · exact hframe e hmem
    · rw [List.mem_singleton.mp hlast]
      exact (OutEvent.nonMotion_iff.mp hev).2.1
  have hlast : [ev].filter (fun e => e.nonMotion) = [ev] := List.filter_cons_of_pos hev
  rw [List.filter_append, ← hqueued, hlast, List.length_append] at hall
  exact hall

theorem frame_append (h : Follows anchor R dev es f c d) (hreport : ¬ev.IsReport) :
    ∃ before frame, es ++ [ev] = before ++ frame ∧ (∀ e ∈ frame, ¬e.IsReport) ∧
      d.queued.evs ++ [ev].filter (fun e => e.nonMotion) =
        frame.filter (fun e => e.nonMotion) ∧
      (f.moved = true ∨ ev.IsMotion → ∃ e ∈ frame, e.IsMotion) := by
  obtain ⟨before, frame, rfl, hframe, hqueued, hmoved⟩ := h.frame
  refine ⟨before, frame ++ [ev], List.append_assoc _ _ _, fun e he => ?_, ?_, ?_⟩
  · rcases List.mem_append.mp he with hmem | hlast
    · exact hframe e hmem
    · rwa [List.mem_singleton.mp hlast]
  · rw [List.filter_append, hqueued]
  · rintro (hbefore | hmotion)
    · obtain ⟨e, he, hmoves⟩ := hmoved hbefore
      exact ⟨e, List.mem_append_left _ he, hmoves⟩
    · exact ⟨ev, List.mem_append_right _ (List.mem_singleton_self ev), hmotion⟩

/-- An event within a frame leaves the last stamp. -/
theorem motion_append (h : Follows anchor R dev es f c d) (hreport : ¬ev.IsReport) :
    Timed (anchor dev.motion.1) (es ++ [ev]) → R c.dev.motion.1 d.dev.motion.1 ∧
      anchor c.dev.motion.1 = lastStamp (anchor dev.motion.1) (es ++ [ev]) := by
  intro htimed
  rw [lastStamp_append_of_not hreport]
  exact h.motion htimed.append_left

theorem reports_append (h : Follows anchor R dev es f c d) (hreport : ¬ev.IsReport) :
    d.dev.uinput.written.countP (·.IsReport) =
      dev.uinput.written.countP (·.IsReport) + (es ++ [ev]).countP (fun e => e.IsReport) := by
  have hlast : [ev].countP (fun e => decide e.IsReport) = 0 := by simp [hreport]
  rw [List.countP_append, hlast, add_zero]
  exact h.reports

/-- One report for a frame. -/
theorem countP_frameEvents (h : Follows anchor R dev es f c d)
    (E : MotionEngine (M × List FlushCall)) (frame : UInt64) :
    (d.frameEvents E frame).countP (·.IsReport) = 1 := by
  obtain ⟨before, frame, -, -, hqueued, -⟩ := h.frame
  refine Call.countP_frameEvents fun e he => ?_
  rw [hqueued] at he
  exact (List.mem_filter.mp he).2

/-- **A frame that goes by its stamp is flushed alike**, cut or not. -/
theorem flushed_alike (hE : E.SameByStamp E' anchor R) (h : Follows anchor R dev es f c d)
    (hreport : ev.IsReport) (hmoved : c.hasMotion = d.hasMotion)
    (htimed : Timed (anchor dev.motion.1) (es ++ [ev])) :
    c.frameEvents E.logged ev.frameEvUs = d.frameEvents E'.logged ev.frameEvUs ∧
      R (c.flushedMotion E.logged ev.frameEvUs).1 (d.flushedMotion E'.logged ev.frameEvUs).1 := by
  obtain ⟨hmotion, hanchor⟩ := h.motion htimed.append_left
  refine Call.frame_congr hE h.split.accel h.whole.accel hmotion (fun hmoves => ?_) h.dx h.dy
    hmoved h.queued
  rw [hanchor]
  refine htimed.anchored hreport fun _ => ?_
  obtain ⟨before, frame, rfl, -, -, hframe⟩ := h.frame
  obtain ⟨e, he, hmotion⟩ := hframe (by rw [← h.moved, ← hmoved, hmoves])
  exact ⟨e, List.mem_append_right _ he, hmotion⟩

theorem report (hE : E.SameByStamp E' anchor R) (h : Follows anchor R dev es f c d)
    (hc : AccelStep E.logged c ev c') (hd : AccelStep E'.logged d ev d')
    (hreport : ev.IsReport) (hf : f.event ev.toOutEvent = some f') :
    Follows anchor R dev (es ++ [ev]) f' c' d' := by
  obtain ⟨o, rfl, hempty, hwritten⟩ := hc.report h.split.opened hreport
  obtain ⟨o', rfl, hempty', hwritten'⟩ := hd.report h.whole.opened hreport
  unfold FrameCut.event at hf
  rw [if_pos hreport] at hf
  split_ifs at hf with hcut
  cases hf
  -- a cut marks the frame as one with motion; this one has motion anyway
  have hmoved : c.hasMotion = d.hasMotion := by
    rw [h.cut, h.moved]
    cases hm : f.moved <;> simp_all
  have hsame := flushed_alike hE h hreport hmoved
  have hdx : (if d.hasMotion then 0 else d.dx) = 0 ∧ (if d.hasMotion then 0 else d.dy) = 0 := by
    rw [h.moved]
    cases hm : f.moved with
    | true => exact ⟨rfl, rfl⟩
    | false => exact h.still hm
  have hone := h.countP_frameEvents E'.logged ev.frameEvUs
  have hlast : [ev].countP (fun e => decide e.IsReport) = 1 := by simp [hreport]
  exact {
    split := ⟨h.split.accel, hempty, h.split.opened⟩
    whole := ⟨h.whole.accel, hempty', h.whole.opened⟩
    synced := ⟨rfl, rfl⟩
    unparked := h.unparked
    flushes := Call.flushes_congr E E' ev.frameEvUs h.flushes h.dx h.dy hmoved
    motion := fun htimed => by
      rw [lastStamp_append_report hreport]
      have hstamp : ev.frameEvUs ≠ 0 := htimed.1.1 ev (by simp) hreport
      exact ⟨hE.close (hsame htimed).2, hE.anchor_close hstamp⟩
    written := fun htimed => by
      show o.uinput.written = o'.uinput.written
      rw [hwritten, hwritten', (hsame htimed).1, h.written htimed.append_left]
    dx := by
      show (if c.hasMotion then 0 else c.dx) = if d.hasMotion then 0 else d.dx
      rw [hmoved, h.dx]
    dy := by
      show (if c.hasMotion then 0 else c.dy) = if d.hasMotion then 0 else d.dy
      rw [hmoved, h.dy]
    queued := rfl
    moved := rfl
    cut := rfl
    marked := rfl
    still := fun _ => hdx
    positive := by
      show ¬(if d.hasMotion then 0 else d.dx).IsNegZero ∧
        ¬(if d.hasMotion then 0 else d.dy).IsNegZero
      rw [hdx.1, hdx.2]
      exact ⟨Fp.not_isNegZero_zero, Fp.not_isNegZero_zero⟩
    frame := ⟨es ++ [ev], [], (List.append_nil _).symm, fun e he => (by cases he), rfl,
      fun hmoves => (by cases hmoves)⟩
    reports := by
      show o'.uinput.written.countP _ = _
      rw [hwritten', List.countP_append, List.countP_append, hone, h.reports, hlast, add_assoc] }

theorem moves (h : Follows anchor R dev es f c d) (hc : AccelStep E.logged c ev c')
    (hd : AccelStep E'.logged d ev d') (hmotion : ev.IsMotion) :
    Follows anchor R dev (es ++ [ev]) { f with moved := true } c' d' := by
  obtain rfl := hc.moves h.split.opened hmotion
  obtain rfl := hd.moves h.whole.opened hmotion
  have hnone : [ev].filter (fun e => e.nonMotion) = [] :=
    List.filter_cons_of_neg fun hev => (OutEvent.nonMotion_iff.mp hev).1 hmotion
  obtain ⟨before, frame, hframe⟩ := h.frame_append hmotion.not_boundary.1
  rw [hnone, List.append_nil] at hframe
  exact {
    split := ⟨h.split.accel, h.split.out, h.split.opened⟩
    whole := ⟨h.whole.accel, h.whole.out, h.whole.opened⟩
    synced := h.synced
    unparked := h.unparked
    flushes := h.flushes
    motion := h.motion_append hmotion.not_boundary.1
    written := fun htimed => h.written htimed.append_left
    dx := by
      show (if ev.code = relX then c.dx + _ else c.dx) = if ev.code = relX then d.dx + _ else d.dx
      rw [h.dx]
    dy := by
      show (if ev.code = relX then c.dy else c.dy + _) = if ev.code = relX then d.dy else d.dy + _
      rw [h.dy]
    queued := h.queued
    moved := rfl
    cut := rfl
    marked := h.marked
    still := fun hstill => (by cases hstill)
    positive := by
      obtain ⟨hdx, hdy⟩ := h.positive
      show ¬(if ev.code = relX then d.dx + Fp.ofInt ev.value else d.dx).IsNegZero ∧
        ¬(if ev.code = relX then d.dy else d.dy + Fp.ofInt ev.value).IsNegZero
      split_ifs
      · exact ⟨Fp.not_isNegZero_add hdx, hdy⟩
      · exact ⟨hdx, Fp.not_isNegZero_add hdy⟩
    frame := ⟨before, frame, hframe.1, hframe.2.1, hframe.2.2.1,
      fun _ => hframe.2.2.2 (.inr hmotion)⟩
    reports := h.reports_append hmotion.not_boundary.1 }

theorem queues (h : Follows anchor R dev es f c d) (hc : AccelStep E.logged c ev c')
    (hd : AccelStep E'.logged d ev d') (hev : ev.nonMotion = true)
    (hroom : d.queued.evs.length < pendingEventsMax) :
    Follows anchor R dev (es ++ [ev]) { f with marked := true } c' d' := by
  obtain ⟨queued, hqueued, rfl⟩ := hc.queues h.split.opened hev (h.queued.symm ▸ hroom)
  obtain ⟨queued', hqueued', rfl⟩ := hd.queues h.whole.opened hev hroom
  have hlast : [ev].filter (fun e => e.nonMotion) = [ev] := List.filter_cons_of_pos hev
  have hreport := (OutEvent.nonMotion_iff.mp hev).2.1
  obtain ⟨before, frame, hframe⟩ := h.frame_append hreport
  rw [hlast, ← hqueued'] at hframe
  exact {
    split := ⟨h.split.accel, h.split.out, h.split.opened⟩
    whole := ⟨h.whole.accel, h.whole.out, h.whole.opened⟩
    synced := h.synced
    unparked := h.unparked
    flushes := h.flushes
    motion := h.motion_append hreport
    written := fun htimed => h.written htimed.append_left
    dx := h.dx
    dy := h.dy
    queued := by
      show queued.evs = queued'.evs
      rw [hqueued, hqueued', h.queued]
    moved := h.moved
    cut := h.cut
    marked := by
      show true = !queued'.evs.isEmpty
      rw [hqueued']
      cases d.queued.evs <;> rfl
    still := h.still
    positive := h.positive
    frame := ⟨before, frame, hframe.1, hframe.2.1, hframe.2.2.1,
      fun hmoves => hframe.2.2.2 (.inl hmoves)⟩
    reports := h.reports_append hreport }

/-- **One event**, while no cut shows. -/
theorem step (hE : E.SameByStamp E' anchor R) (h : Follows anchor R dev es f c d)
    (hc : AccelStep E.logged c ev c') (hd : AccelStep E'.logged d ev d') (hdrop : ¬ev.IsDropped)
    (hfit : FramesFit (es ++ [ev])) (hf : f.event ev.toOutEvent = some f') :
    Follows anchor R dev (es ++ [ev]) f' c' d' := by
  by_cases hreport : ev.IsReport
  · exact h.report hE hc hd hreport hf
  unfold FrameCut.event at hf
  rw [if_neg hreport] at hf
  split_ifs at hf with hmotion
  · cases hf
    exact h.moves hc hd hmotion
  · cases hf
    have hev := OutEvent.nonMotion_iff.mpr ⟨hmotion, hreport, hdrop⟩
    exact h.queues hc hd hev (h.room hfit hev)

/-- **A cut** of the split run; the frame goes on in the next call. -/
theorem next (h : Follows anchor R dev es f c d) (hok : finish answers c = .ok c') :
    Follows anchor R dev es f.endCall (mergeTail c'.dev) d := by
  obtain ⟨uinput, hdev, hwritten⟩ := finish_eq_ok h.split.accel hok
  rw [h.synced.1, if_neg Bool.false_ne_true, List.append_nil] at hwritten
  obtain ⟨hmark, hpdx, hpdy, hpevs⟩ := h.unparked
  have hmarked : f.marked = !c.queued.evs.isEmpty := by rw [h.queued, h.marked]
  -- a frame that has begun is parked, and taken up by the merge of the next call
  by_cases hframe : c.hasMotion ∨ c.queued.evs ≠ []
  · have hpark : c'.dev = { c.dev with
        uinput := uinput
        pendingDx := c.dev.pendingDx + c.dx
        pendingDy := c.dev.pendingDy + c.dy
        hasPendingMotion := true
        pendingEvents := c.dev.pendingEvents.fill c.queued.evs
        evTailOverruns := c'.dev.evTailOverruns } := by
      rw [hdev, Call.park, if_pos hframe]
    have hpending : c'.dev.hasPendingMotion = true := by rw [hpark]
    -- nothing was parked before, so the sum is the count itself
    have hdx : c'.dev.pendingDx = d.dx := by
      rw [hpark, ← h.dx]
      show c.dev.pendingDx + c.dx = c.dx
      rw [hpdx, Fp.zero_add_of_not_isNegZero (h.dx ▸ h.positive.1)]
    have hdy : c'.dev.pendingDy = d.dy := by
      rw [hpark, ← h.dy]
      show c.dev.pendingDy + c.dy = c.dy
      rw [hpdy, Fp.zero_add_of_not_isNegZero (h.dy ▸ h.positive.2)]
    have hevs : c'.dev.pendingEvents.evs = d.queued.evs := by
      rw [hpark, ← h.queued]
      show c.dev.pendingEvents.evs ++ _ = c.queued.evs
      rw [hpevs, List.nil_append]
      exact List.take_of_length_le c.queued.bound
    -- from here the split run flushes this frame, with motion or without
    have hcut : true = (f.moved || (f.cut || f.marked)) := by
      rcases hframe with hmoved | hqueued
      · rw [← Bool.or_assoc, ← h.cut, hmoved, Bool.true_or]
      · rw [hmarked, List.isEmpty_eq_false_iff.mpr hqueued]
        simp
    rw [mergeTail_eq hpending]
    exact {
      split := ⟨by rw [hpark]; exact h.split.accel, rfl, by rw [hpark]; exact h.split.opened⟩
      whole := h.whole
      synced := ⟨rfl, h.synced.2⟩
      unparked := ⟨rfl, rfl, rfl, rfl⟩
      flushes := by rw [hpark]; exact h.flushes
      motion := by rw [hpark]; exact h.motion
      written := fun htimed => by rw [hpark]; exact hwritten.trans (h.written htimed)
      dx := hdx
      dy := hdy
      queued := hevs
      moved := h.moved
      cut := hcut
      marked := h.marked
      still := h.still
      positive := h.positive
      frame := h.frame
      reports := h.reports }
  · -- no frame has begun, and the cut leaves no trace
    obtain ⟨hstill, hqueued⟩ := not_or.mp hframe
    have hstill : c.hasMotion = false := Bool.eq_false_of_not_eq_true hstill
    have hqueued : c.queued.evs = [] := not_not.mp hqueued
    have hpark : c'.dev = { c.dev with uinput := uinput } := by
      rw [hdev, Call.park, if_neg hframe]
    obtain ⟨hmoved, hcut⟩ := Bool.or_eq_false_iff.mp (h.cut.symm.trans hstill)
    have hpending : c'.dev.hasPendingMotion = false := by rw [hpark]; exact hmark
    have hend : f.endCall = f := by
      have hnone : f.marked = false := by
        rw [hmarked, hqueued]
        rfl
      rw [FrameCut.endCall, hnone, Bool.or_false, ← hnone]
    have hmerge : mergeTail c'.dev = { dev := { c.dev with uinput := uinput } } := by
      rw [mergeTail, hpending, if_neg Bool.false_ne_true, hpark]
    rw [hend, hmerge]
    exact {
      split := ⟨h.split.accel, rfl, h.split.opened⟩
      whole := h.whole
      synced := ⟨rfl, h.synced.2⟩
      unparked := h.unparked
      flushes := h.flushes
      motion := h.motion
      written := fun htimed => hwritten.trans (h.written htimed)
      dx := (h.still hmoved).1.symm
      dy := (h.still hmoved).2.symm
      queued := by rw [← h.queued, hqueued]
      moved := h.moved
      cut := by rw [← h.cut, hstill]
      marked := h.marked
      still := h.still
      positive := h.positive
      frame := h.frame
      reports := h.reports }

theorem start (hR : ∀ m, R m m) (hdev : dev.Idle) :
    Follows anchor R dev [] {} (mergeTail dev) (mergeTail dev) := by
  have hmerge : mergeTail dev = { dev := dev } := by
    rw [mergeTail, hdev.unmarked, if_neg Bool.false_ne_true]
  rw [hmerge]
  exact {
    split := ⟨hdev.accel, rfl, hdev.opened⟩
    whole := ⟨hdev.accel, rfl, hdev.opened⟩
    synced := ⟨rfl, rfl⟩
    unparked := ⟨hdev.unmarked, hdev.pendingDx, hdev.pendingDy, hdev.pendingEvents⟩
    flushes := rfl
    motion := fun _ => ⟨hR _, rfl⟩
    written := fun _ => rfl
    dx := rfl
    dy := rfl
    queued := rfl
    moved := rfl
    cut := rfl
    marked := rfl
    still := fun _ => ⟨rfl, rfl⟩
    positive := ⟨Fp.not_isNegZero_zero, Fp.not_isNegZero_zero⟩
    frame := ⟨[], [], rfl, fun e he => (by cases he), rfl, fun hmoves => (by cases hmoves)⟩
    reports := rfl }

end Follows

/-! ## Where a cut shows -/

/-- The split run has made a flush that the other has not made. -/
structure Diverged (c d : Call (M × List FlushCall)) : Prop where
  split : c.Steady
  whole : d.Steady
  moved : d.hasMotion = true → c.hasMotion = true
  longer : d.dev.motion.2.length < c.dev.motion.2.length

/-- Outside every window only a report with motion before it flushes. -/
theorem AccelStep.flushes {c c' : Call (M × List FlushCall)} {ev : InputEvent} (hc : c.Steady)
    (hdrop : ¬ev.IsDropped) (h : AccelStep E.logged c ev c') : c'.Steady ∧
      c'.hasMotion = (if ev.IsReport then false else decide ev.IsMotion || c.hasMotion) ∧
      c'.dev.motion.2.length = c.dev.motion.2.length +
        if ev.IsReport then c.hasMotion.toNat else 0 := by
  cases h with
  | opened hdrop' => exact absurd hdrop' hdrop
  | closed hwindow => exact absurd (hwindow.symm.trans hc.opened) (by decide)
  | skipped hwindow => exact absurd (hwindow.symm.trans hc.opened) (by decide)
  | frame hopen hreport hempty hwritten =>
      refine ⟨⟨hc.accel, hempty, hc.opened⟩, ?_, ?_⟩
      · rw [if_pos hreport]
        rfl
      · rw [if_pos hreport]
        show (c.flushedMotion E.logged ev.frameEvUs).2.length = _
        unfold Call.flushedMotion
        cases hmoved : c.hasMotion <;> simp [Call.flushed, MotionEngine.logged]
  | motionX hopen hrel hx =>
      have hmotion : ev.IsMotion := ⟨hrel, .inl hx⟩
      rw [if_neg hmotion.not_boundary.1, if_neg hmotion.not_boundary.1, decide_eq_true hmotion]
      exact ⟨⟨hc.accel, hc.out, hc.opened⟩, rfl, rfl⟩
  | motionY hopen hrel hy =>
      have hmotion : ev.IsMotion := ⟨hrel, .inr hy⟩
      rw [if_neg hmotion.not_boundary.1, if_neg hmotion.not_boundary.1, decide_eq_true hmotion]
      exact ⟨⟨hc.accel, hc.out, hc.opened⟩, rfl, rfl⟩
  | queued hopen hev hadd =>
      obtain ⟨hmotion, hreport, -⟩ := OutEvent.nonMotion_iff.mp hev
      rw [if_neg hreport, if_neg hreport, decide_eq_false hmotion]
      exact ⟨⟨hc.accel, hc.out, hc.opened⟩, rfl, rfl⟩
  | lost hopen hev hlossy hadd =>
      obtain ⟨hmotion, hreport, -⟩ := OutEvent.nonMotion_iff.mp hev
      rw [if_neg hreport, if_neg hreport, decide_eq_false hmotion]
      exact ⟨hc, rfl, rfl⟩
  | forwarded hopen hev hlossy hadd hempty hwritten =>
      obtain ⟨hmotion, hreport, -⟩ := OutEvent.nonMotion_iff.mp hev
      rw [if_neg hreport, if_neg hreport, decide_eq_false hmotion]
      exact ⟨⟨hc.accel, hempty, hc.opened⟩, rfl, rfl⟩

namespace Diverged
variable {c c' d d' : Call (M × List FlushCall)} {ev : InputEvent}

theorem step (h : Diverged c d) (hc : AccelStep E.logged c ev c')
    (hd : AccelStep E'.logged d ev d') (hdrop : ¬ev.IsDropped) : Diverged c' d' := by
  obtain ⟨hsplit, hmoved, hlength⟩ := hc.flushes h.split hdrop
  obtain ⟨hwhole, hmoved', hlength'⟩ := hd.flushes h.whole hdrop
  have hlonger := h.longer
  refine ⟨hsplit, hwhole, ?_, ?_⟩
  · rw [hmoved, hmoved']
    split_ifs
    · exact id
    · intro hmotion
      rcases (Bool.or_eq_true _ _).mp hmotion with hmotion | hmotion
      · rw [hmotion, Bool.true_or]
      · rw [h.moved hmotion, Bool.or_true]
  · have hle : d.hasMotion.toNat ≤ c.hasMotion.toNat := by
      cases hmotion : d.hasMotion with
      | true => rw [h.moved hmotion]
      | false => exact Nat.zero_le _
    rw [hlength, hlength']
    split_ifs <;> omega

/-- The flush that only the split run makes. -/
theorem of_follows {anchor : M → UInt64} {R : M → M → Prop}
    {dev : InputDevice (M × List FlushCall)} {es : List InputEvent} {f : FrameCut}
    (h : Follows anchor R dev es f c d) (hc : AccelStep E.logged c ev c')
    (hd : AccelStep E'.logged d ev d') (hdrop : ¬ev.IsDropped)
    (hf : f.event ev.toOutEvent = none) : Diverged c' d' := by
  obtain ⟨hsplit, hmoved, hlength⟩ := hc.flushes h.split hdrop
  obtain ⟨hwhole, hmoved', hlength'⟩ := hd.flushes h.whole hdrop
  unfold FrameCut.event at hf
  split_ifs at hf with hreport hcut
  obtain ⟨hcut, hstill⟩ := (Bool.and_eq_true _ _).mp hcut
  have hstill : f.moved = false := by simpa using hstill
  rw [if_pos hreport] at hmoved hmoved' hlength hlength'
  rw [h.cut, hstill, hcut, h.flushes] at hlength
  rw [h.moved, hstill] at hlength'
  refine ⟨hsplit, hwhole, fun hmotion => ?_, ?_⟩
  · rw [hmoved'] at hmotion
    cases hmotion
  · rw [hlength, hlength']
    exact Nat.lt_succ_self _

theorem next (h : Diverged c d) (hok : finish answers c = .ok c') :
    Diverged (mergeTail c'.dev) d := by
  obtain ⟨uinput, hdev, -⟩ := finish_eq_ok h.split.accel hok
  have hpark : c.park.dev.rawPassthrough = c.dev.rawPassthrough ∧
      c.park.dev.synDropped = c.dev.synDropped ∧ c.park.dev.motion = c.dev.motion := by
    unfold Call.park
    split_ifs <;> exact ⟨rfl, rfl, rfl⟩
  obtain ⟨haccel, hopened, hmotion⟩ := hpark
  cases hpending : c'.dev.hasPendingMotion with
  | true =>
      rw [mergeTail_eq hpending]
      refine ⟨⟨?_, rfl, ?_⟩, h.whole, fun _ => rfl, ?_⟩
      · exact (congrArg InputDevice.rawPassthrough hdev).trans (haccel.trans h.split.accel)
      · exact (congrArg InputDevice.synDropped hdev).trans (hopened.trans h.split.opened)
      · show _ < c'.dev.motion.2.length
        rw [hdev]
        exact hmotion ▸ h.longer
  | false =>
      have hstill : c.hasMotion = false := by
        by_contra hmoved
        have hframe : c.hasMotion = true ∨ c.queued.evs ≠ [] :=
          .inl (Bool.eq_true_of_not_eq_false hmoved)
        rw [hdev, Call.park, if_pos hframe] at hpending
        cases hpending
      have hmerge : mergeTail c'.dev = { dev := c'.dev } := by
        rw [mergeTail, hpending, if_neg Bool.false_ne_true]
      rw [hmerge]
      refine ⟨⟨?_, rfl, ?_⟩, h.whole, fun hmoved => ?_, ?_⟩
      · exact (congrArg InputDevice.rawPassthrough hdev).trans (haccel.trans h.split.accel)
      · exact (congrArg InputDevice.synDropped hdev).trans (hopened.trans h.split.opened)
      · rw [h.moved hmoved] at hstill
        cases hstill
      · show _ < c'.dev.motion.2.length
        rw [hdev]
        exact hmotion ▸ h.longer

end Diverged

/-! ## Runs -/

/-- What the cuts say about the two runs. -/
def Compared (anchor : M → UInt64) (R : M → M → Prop) (dev : InputDevice (M × List FlushCall))
    (es : List InputEvent) (c d : Call (M × List FlushCall)) : Option FrameCut → Prop
  | some f => Follows anchor R dev es f c d
  | none => Diverged c d

namespace Compared
variable {anchor : M → UInt64} {R : M → M → Prop} {dev : InputDevice (M × List FlushCall)}
  {es : List InputEvent} {c c' d d' : Call (M × List FlushCall)} {ev : InputEvent}
  {o : Option FrameCut}

theorem step (hE : E.SameByStamp E' anchor R) (h : Compared anchor R dev es c d o)
    (hok : processEvent E.logged answers c ev = .ok c')
    (hok' : processEvent E'.logged answers' d ev = .ok d') (hdrop : ¬ev.IsDropped)
    (hfit : FramesFit (es ++ [ev])) :
    Compared anchor R dev (es ++ [ev]) c' d' (o.bind fun f => f.event ev.toOutEvent) := by
  cases o with
  | none =>
      exact Diverged.step h (accelStep_of_ok h.split.accel h.split.out hok)
        (accelStep_of_ok h.whole.accel h.whole.out hok') hdrop
  | some f =>
      have hc := accelStep_of_ok h.split.accel h.split.out hok
      have hd := accelStep_of_ok h.whole.accel h.whole.out hok'
      cases hf : f.event ev.toOutEvent with
      | none =>
          rw [Option.bind_some, hf]
          exact Diverged.of_follows h hc hd hdrop hf
      | some f' =>
          rw [Option.bind_some, hf]
          exact Follows.step hE h hc hd hdrop hfit hf

theorem next (h : Compared anchor R dev es c d o) (hok : finish answers c = .ok c') :
    Compared anchor R dev es (mergeTail c'.dev) d (o.map FrameCut.endCall) := by
  cases o with
  | none => exact Diverged.next h hok
  | some f => exact Follows.next h hok

theorem disconnect (h : Compared anchor R dev es c d o) :
    Compared anchor R dev es c.disconnect d o := by
  cases o with
  | none => exact ⟨h.split.disconnect, h.whole, h.moved, h.longer⟩
  | some f =>
      exact ⟨h.split.disconnect, h.whole, h.synced, h.unparked, h.flushes, h.motion, h.written,
        h.dx, h.dy, h.queued, h.moved, h.cut, h.marked, h.still, h.positive, h.frame, h.reports⟩

end Compared

/-- **The two runs at every point of the stream.** -/
theorem Midway.compared {anchor : M → UInt64} {R : M → M → Prop}
    {dev : InputDevice (M × List FlushCall)} {calls : List (List InputEvent)}
    {es : List InputEvent} {c d : Call (M × List FlushCall)} (hE : E.SameByStamp E' anchor R)
    (hdev : dev.Idle) (h : Midway E.logged answers dev calls es c)
    (hdrop : ∀ e ∈ calls.flatten ++ es, ¬e.IsDropped) (hfit : FramesFit (calls.flatten ++ es))
    (hwhole : (calls.flatten ++ es).foldlM (processEvent E'.logged answers') (mergeTail dev) =
      .ok d) :
    Compared anchor R dev (calls.flatten ++ es) c d (FrameCut.events (es.map InputEvent.toOutEvent)
      (FrameCut.run (calls.map (List.map InputEvent.toOutEvent)))) := by
  induction h generalizing d with
  | start =>
      cases hwhole
      exact Follows.start hE.refl hdev
  | @event calls es c c' ev hc hok ih =>
      rw [← List.append_assoc] at hdrop hfit hwhole ⊢
      rw [List.foldlM_append] at hwhole
      obtain ⟨d₀, hd₀, hlast⟩ := Except.bind_eq_ok_iff.mp hwhole
      obtain ⟨d₁, hd₁, hd⟩ := Except.bind_eq_ok_iff.mp hlast
      cases hd
      have hbefore := ih (fun e he => hdrop e (List.mem_append_left _ he)) hfit.append_left hd₀
      have hstep := hbefore.step hE hok hd₁ (hdrop ev (by simp)) hfit
      rw [List.map_append, FrameCut.events, List.foldl_append]
      exact hstep
  | disconnect hc ih => exact (ih hdrop hfit hwhole).disconnect
  | @next calls es c c' hc hfinish ih =>
      rw [List.flatten_append, List.flatten_singleton, List.append_nil] at hdrop hfit hwhole ⊢
      have hcut := (ih hdrop hfit hwhole).next hfinish
      rw [List.map_append, FrameCut.run, List.foldl_append]
      exact hcut

/-- What the reads of a call come to. -/
theorem drain_eq_ok {reads : List ReadResult} {n : ℕ} {c c' : Call M}
    (hok : drain E answers n reads c = .ok c') :
    ∃ d, (eventsRead n reads).foldlM (processEvent E answers) c = .ok d ∧
      (c' = d ∨ c' = d.disconnect) := by
  induction reads generalizing n c with
  | nil =>
      cases n <;> cases hok <;> exact ⟨_, rfl, .inl rfl⟩
  | cons r reads ih =>
      cases n with
      | zero =>
          cases hok
          exact ⟨_, rfl, .inl rfl⟩
      | succ n =>
          cases r with
          | got evs =>
              unfold drain at hok
              unfold eventsRead
              split_ifs at hok ⊢
              · cases hok
                exact ⟨_, rfl, .inl rfl⟩
              · obtain ⟨c₁, h₁, hok⟩ := Except.bind_eq_ok_iff.mp hok
                obtain ⟨d, hd, hc'⟩ := ih hok
                refine ⟨d, ?_, hc'⟩
                rw [List.foldlM_append, h₁]
                exact hd
          | interrupted => exact ih hok
          | again | otherError =>
              cases hok
              exact ⟨_, rfl, .inl rfl⟩
          | deviceError | endOfFile =>
              cases hok
              exact ⟨_, rfl, .inr rfl⟩

theorem Call.Steady.finish {c c' : Call M} (h : c.Steady) (hok : finish answers c = .ok c') :
    c'.dev.motion = c.dev.motion ∧ c'.dev.uinput.written =
      c.dev.uinput.written ++ if c.wroteUnsynced then [.syn] else [] := by
  obtain ⟨uinput, hdev, hwritten⟩ := finish_eq_ok h.accel hok
  have hmotion : c.park.dev.motion = c.dev.motion := by
    unfold Call.park
    split_ifs <;> rfl
  rw [hdev]
  exact ⟨hmotion, hwritten⟩

/-- A device after a single call. -/
theorem processDevice_eq_ok {dev dev' : InputDevice M} {reads : List ReadResult}
    (huidev : dev.hasUidev = true) (hok : dev.run E answers [reads] = .ok dev') :
    ∃ d, (dev.inputs reads).foldlM (processEvent E answers) (mergeTail dev) = .ok d ∧
      (d.Steady → dev'.motion = d.dev.motion ∧ dev'.uinput.written =
        d.dev.uinput.written ++ if d.wroteUnsynced then [.syn] else []) := by
  obtain ⟨d', hcall, hlast⟩ := Except.bind_eq_ok_iff.mp hok
  cases hlast
  unfold processDevice at hcall
  rw [if_pos huidev] at hcall
  split at hcall
  · rename_i c hc
    cases hcall
    obtain ⟨c₁, hdrain, hfinish⟩ := Except.bind_eq_ok_iff.mp hc
    obtain ⟨d, hd, hc₁⟩ := drain_eq_ok hdrain
    refine ⟨d, ?_, fun hsteady => ?_⟩
    · rw [InputDevice.inputs, if_pos huidev]
      exact hd
    · rcases hc₁ with rfl | rfl
      · exact hsteady.finish hfinish
      · exact hsteady.disconnect.finish hfinish
  · cases hcall

theorem unbroken_of_nil {calls : List (List OutEvent)} (h : ∀ es ∈ calls, es = []) :
    Unbroken calls := by
  unfold Unbroken FrameCut.run
  induction calls with
  | nil => rfl
  | cons es calls ih =>
      obtain rfl := h es List.mem_cons_self
      exact ih fun fs hfs => h fs (List.mem_cons_of_mem _ hfs)

/-- The two runs have made the same flushes and written the same, and every report that
was written was read. -/
def Unobservable (dev dev₁ dev₂ : InputDevice (M × List FlushCall)) (es : List InputEvent) : Prop :=
  dev₁.motion.2 = dev₂.motion.2 ∧ dev₁.uinput.written = dev₂.uinput.written ∧
    dev₁.uinput.written.countP (·.IsReport) =
      dev.uinput.written.countP (·.IsReport) + es.countP (fun e => e.IsReport)

/-- **Cuts behind the first event of a frame without motion show**, and no others do where the
frames go by their stamps. -/
theorem InputDevice.unobservable {anchor : M → UInt64} {R : M → M → Prop}
    {dev dev₁ dev₂ : InputDevice (M × List FlushCall)} {calls : List (List ReadResult)}
    {reads : List ReadResult} (hE : E.SameByStamp E' anchor R) (hdev : dev.Idle)
    (hreads : dev.inputs reads = calls.flatMap dev.inputs)
    (hdrop : ∀ e ∈ calls.flatMap dev.inputs, ¬e.IsDropped)
    (hfit : FramesFit (calls.flatMap dev.inputs))
    (hsplit : dev.run E.logged answers calls = .ok dev₁)
    (hwhole : dev.run E'.logged answers' [reads] = .ok dev₂) :
    (Unobservable dev dev₁ dev₂ (calls.flatMap dev.inputs) →
      Unbroken ((calls.map dev.inputs).map (List.map InputEvent.toOutEvent))) ∧
    (Unbroken ((calls.map dev.inputs).map (List.map InputEvent.toOutEvent)) →
      Timed (anchor dev.motion.1) (calls.flatMap dev.inputs) →
      Unobservable dev dev₁ dev₂ (calls.flatMap dev.inputs)) := by
  -- without a virtual device nothing is read
  cases huidev : dev.hasUidev with
  | false =>
      obtain ⟨rfl, hinputs⟩ := InputDevice.run_idle huidev hsplit
      obtain ⟨rfl, -⟩ := InputDevice.run_idle huidev hwhole
      have hnone : calls.flatMap dev₂.inputs = [] := by simp [hinputs]
      rw [hnone]
      exact ⟨fun _ => unbroken_of_nil (by simp [hinputs]), fun _ _ => ⟨rfl, rfl, rfl⟩⟩
  | true =>
      obtain ⟨d, hd, hend⟩ := processDevice_eq_ok huidev hwhole
      have hmid := (InputDevice.settled_run huidev hsplit).mergeTail
      have hflat : (calls.map dev.inputs).flatten ++ [] = calls.flatMap dev.inputs := by
        rw [List.append_nil, List.flatMap_def]
      have hall := hmid.compared (d := d) hE hdev (by rwa [hflat]) (by rwa [hflat])
        (by rw [hflat, ← hreads]; exact hd)
      rw [hflat] at hall
      have hmotion : (mergeTail dev₁).dev.motion = dev₁.motion := by
        unfold mergeTail
        split_ifs <;> rfl
      unfold Unbroken
      cases hcuts : FrameCut.run ((calls.map dev.inputs).map (List.map InputEvent.toOutEvent)) with
      | some f =>
          rw [hcuts] at hall
          -- no cut shows: the two runs flush the same
          have hfollows : Follows anchor R dev _ f (mergeTail dev₁) d := hall
          obtain ⟨hmotion₂, hwritten₂⟩ := hend hfollows.whole
          rw [hfollows.synced.2, if_neg Bool.false_ne_true, List.append_nil] at hwritten₂
          refine ⟨fun _ => rfl, fun _ htimed => ⟨?_, ?_, ?_⟩⟩
          · rw [← hmotion, hmotion₂, hfollows.flushes]
          · rw [← mergeTail_uinput, hwritten₂, hfollows.written htimed]
          · rw [← mergeTail_uinput, hfollows.written htimed, hfollows.reports]
      | none =>
          rw [hcuts] at hall
          -- some cut shows: the split run has flushed once more, and stays ahead
          have hdiverged : Diverged (mergeTail dev₁) d := hall
          obtain ⟨hmotion₂, -⟩ := hend hdiverged.whole
          have hlonger := hdiverged.longer
          rw [hmotion, ← hmotion₂] at hlonger
          refine ⟨fun hsame => ?_, fun hnone => (by cases hnone)⟩
          rw [hsame.1] at hlonger
          exact absurd hlonger (Nat.lt_irrefl _)

/-! ## The pipeline of the daemon -/

namespace FrameTiming

/-- The timing as it is with another last time. -/
def withTime (t : FrameTiming) (x : Double) : FrameTiming := { t with lastTimeMs := x }

variable {t : FrameTiming} {x now now' : Double} {frame : UInt64}

theorem feedRing_lastTimeMs (intervalUs : ℕ) :
    ({ t with lastTimeMs := x }).feedRing intervalUs =
      { t.feedRing intervalUs with lastTimeMs := x } := by
  unfold feedRing computeRate
  dsimp only
  split_ifs <;> rfl

/-- The last time is used for nothing but the interval. -/
theorem flush_withTime : (t.withTime x).flush frame now' = (t.flush frame now).withTime now' := by
  have hinterval : ∀ a, ({ t with lastTimeMs := a }).interval frame = t.interval frame :=
    fun _ => rfl
  unfold flush withTime
  dsimp only
  cases h : t.interval frame with
  | none =>
      rw [(hinterval now').trans h, (hinterval now).trans h]
  | some intervalUs =>
      rw [(hinterval now').trans h, (hinterval now).trans h]
      dsimp only
      rw [feedRing_lastTimeMs, feedRing_lastTimeMs (x := now)]

theorem closeFrame_withTime {time time' : Timespec} :
    (t.withTime x).closeFrame frame time' = (t.closeFrame frame time).withTime time'.nowMs := rfl

/-- The interval of a frame after its anchor does not need a clock. -/
theorem timeMs_eq (h : t.lastFrameEvUs ≠ 0 ∧ t.lastFrameEvUs < frame) :
    (t.withTime x).timeMs frame now' = t.timeMs frame now := by
  have hframe : frame ≠ 0 := fun hzero => by
    rw [hzero] at h
    exact absurd h.2 (UInt64.not_lt.mpr (UInt64.zero_le))
  have hstamps : t.lastFrameEvUs ≠ 0 ∧ frame ≠ 0 ∧ frame > t.lastFrameEvUs :=
    ⟨h.1, hframe, h.2⟩
  unfold timeMs elapsedMs
  rw [if_pos hstamps, if_pos (show (t.withTime x).lastFrameEvUs ≠ 0 ∧ frame ≠ 0 ∧
    frame > (t.withTime x).lastFrameEvUs from hstamps)]
  rfl

end FrameTiming

section Clocks
variable {P : Type}

/-- All but the last time of a clock. -/
def MotionState.SameButTime (m m' : MotionState P) : Prop :=
  m'.pipeline = m.pipeline ∧ ∃ x, m'.timing = m.timing.withTime x

/-- A flush in accel mode that takes the time `now`. -/
def MotionState.flushAt (modify : Double → Double → Double → P → (ℤ × ℤ) × P) (dx dy : Double)
    (frame : UInt64) (now : Double) (m : MotionState P) : (ℤ × ℤ) × MotionState P :=
  let counts := modify (m.timing.timeMs frame now) dx dy m.pipeline
  (counts.1, { m with
    flushes := m.flushes + 1
    ticks := m.ticks + 1
    timing := m.timing.flush frame now
    pipeline := counts.2 })

theorem flushMotion_eq (clock : ℕ → Timespec)
    (modify : Double → Double → Double → P → (ℤ × ℤ) × P) (dx dy : Double) (frame : UInt64)
    (m : MotionState P) : (flushMotion clock modify).flushMotion false dx dy frame m =
      m.flushAt modify dx dy frame (doubleOf (clock m.ticks).nowNs / 1000000) := rfl

theorem MotionState.SameButTime.flushAt
    {modify : Double → Double → Double → P → (ℤ × ℤ) × P} {dx dy now now' : Double}
    {frame : UInt64} {m m' : MotionState P} (h : m.SameButTime m')
    (hanchor : m.timing.lastFrameEvUs ≠ 0 ∧ m.timing.lastFrameEvUs < frame) :
    (m.flushAt modify dx dy frame now).1 = (m'.flushAt modify dx dy frame now').1 ∧
      (m.flushAt modify dx dy frame now).2.SameButTime
        (m'.flushAt modify dx dy frame now').2 := by
  obtain ⟨hpipeline, x, htiming⟩ := h
  have htime : m'.timing.timeMs frame now' = m.timing.timeMs frame now := by
    rw [htiming]
    exact FrameTiming.timeMs_eq hanchor
  have hflush : m'.timing.flush frame now' = (m.timing.flush frame now).withTime now' := by
    rw [htiming]
    exact FrameTiming.flush_withTime
  unfold MotionState.flushAt
  rw [htime, hpipeline]
  exact ⟨rfl, rfl, now', hflush⟩

theorem pipeline_closeFrame (clock : ℕ → Timespec)
    (modify : Double → Double → Double → P → (ℤ × ℤ) × P) (frame : UInt64) (m : MotionState P) :
    ((flushMotion clock modify).closeFrame frame m).pipeline = m.pipeline := by
  cases m
  rfl

/-- **The daemon's flushes go by the stamps**, whatever the two clocks say. -/
theorem flushMotion_sameByStamp (clock clock' : ℕ → Timespec)
    (modify : Double → Double → Double → P → (ℤ × ℤ) × P) :
    (flushMotion clock modify).SameByStamp (flushMotion clock' modify)
      (fun m => m.timing.lastFrameEvUs) MotionState.SameButTime where
  refl m := ⟨rfl, m.timing.lastTimeMs, rfl⟩
  flush := by
    intro m m' dx dy frame hsame hanchor
    rw [flushMotion_eq, flushMotion_eq]
    exact hsame.flushAt hanchor
  record := fun ⟨hpipeline, htiming⟩ => ⟨hpipeline, htiming⟩
  close := by
    rintro m m' frame ⟨hpipeline, x, htiming⟩
    refine ⟨?_, (clock' m'.ticks).nowMs, ?_⟩
    · rw [pipeline_closeFrame, pipeline_closeFrame, hpipeline]
    · show m'.timing.closeFrame frame (clock' m'.ticks) =
        (m.timing.closeFrame frame (clock m.ticks)).withTime (clock' m'.ticks).nowMs
      rw [htiming]
      exact FrameTiming.closeFrame_withTime
  anchor_close := fun hframe => if_pos hframe

/-- **What two runs flush and put out is the same where no frame without motion is cut behind
its first event and the first frame is stamped after its anchor**; and it is never the same
where such a frame is cut.  Each run has its own clock. -/
theorem batching_unobservable_iff (clock clock' : ℕ → Timespec)
    (modify : Double → Double → Double → P → (ℤ × ℤ) × P)
    (dev dev₁ dev₂ : InputDevice (MotionState P × List FlushCall))
    (calls : List (List ReadResult)) (reads : List ReadResult) (hdev : dev.Idle)
    (hreads : dev.inputs reads = calls.flatMap dev.inputs)
    (hdrop : ∀ e ∈ calls.flatMap dev.inputs, ¬e.IsDropped)
    (hfit : FramesFit (calls.flatMap dev.inputs)) (hstamped : Stamped (calls.flatMap dev.inputs))
    (hsplit : dev.run (flushMotion clock modify).logged answers calls = .ok dev₁)
    (hwhole : dev.run (flushMotion clock' modify).logged answers' [reads] = .ok dev₂) :
    (FirstAnchored dev.motion.1.timing.lastFrameEvUs (calls.flatMap dev.inputs) →
      (Unobservable dev dev₁ dev₂ (calls.flatMap dev.inputs) ↔
        Unbroken ((calls.map dev.inputs).map (List.map InputEvent.toOutEvent)))) ∧
    (Unobservable dev dev₁ dev₂ (calls.flatMap dev.inputs) →
      Unbroken ((calls.map dev.inputs).map (List.map InputEvent.toOutEvent))) := by
  obtain ⟨hunbroken, hsame⟩ := InputDevice.unobservable
    (flushMotion_sameByStamp clock clock' modify) hdev hreads hdrop hfit hsplit hwhole
  exact ⟨fun hfirst => ⟨hunbroken, fun h => hsame h ⟨hstamped, hfirst⟩⟩, hunbroken⟩

end Clocks

/-! ## Two clicks -/

theorem framesFit_of_length {es : List InputEvent} (h : es.length ≤ pendingEventsMax) :
    FramesFit es := by
  rintro xs ys zs rfl -
  have hfilter := List.length_filter_le (fun e : InputEvent => e.nonMotion) ys
  simp only [List.length_append] at h
  omega

def synAt (usec : UInt64) : InputEvent := ⟨.syn, 0, usec⟩

/-- A mouse whose last frame is stamped. -/
def stampedMouse : InputDevice (MotionState Unit × List FlushCall) where
  uinput := { fd := 3 }
  motion := ({ timing := { lastFrameEvUs := 500 }, pipeline := () }, [])

/-- A pipeline that leaves the counts as they are. -/
def keepsCounts (_ dx dy : Double) (p : Unit) : (ℤ × ℤ) × Unit := ((rawCount dx, rawCount dy), p)

def clockAt (sec : Int64) : ℕ → Timespec := fun _ => ⟨sec, 0⟩

/-- A press with some motion, whose report comes in the next call. -/
def cutDrag : List (List ReadResult) :=
  [[.got [relOf relX 3, btnLeft 1]], [.got [synAt 1000]]]

theorem batching_unobservable_cutDrag :
    ∃ dev₁ dev₂,
      stampedMouse.run (flushMotion (clockAt 1) keepsCounts).logged takesAll cutDrag = .ok dev₁ ∧
      stampedMouse.run (flushMotion (clockAt 9) keepsCounts).logged takesAll
        [[.got [relOf relX 3, btnLeft 1, synAt 1000]]] = .ok dev₂ ∧
      Unobservable stampedMouse dev₁ dev₂ (cutDrag.flatMap stampedMouse.inputs) := by
  have hsplit : (stampedMouse.run (flushMotion (clockAt 1) keepsCounts).logged takesAll
      cutDrag).toOption.any (fun _ => true) = true := by
    decide +kernel
  have hwhole : (stampedMouse.run (flushMotion (clockAt 9) keepsCounts).logged takesAll
      [[.got [relOf relX 3, btnLeft 1, synAt 1000]]]).toOption.any (fun _ => true) = true := by
    decide +kernel
  obtain ⟨dev₁, hok₁, -⟩ := InputDevice.run_eq_ok_of_any hsplit
  obtain ⟨dev₂, hok₂, -⟩ := InputDevice.run_eq_ok_of_any hwhole
  have hiff := (batching_unobservable_iff (clockAt 1) (clockAt 9) keepsCounts stampedMouse dev₁ dev₂
    cutDrag [.got [relOf relX 3, btnLeft 1, synAt 1000]] ⟨rfl, rfl, rfl, rfl, rfl, rfl⟩ rfl
    (by decide +kernel) (framesFit_of_length (by decide +kernel)) (by decide +kernel) hok₁
    hok₂).1 (by decide +kernel)
  exact ⟨dev₁, dev₂, hok₁, hok₂, hiff.mpr (by decide +kernel)⟩

/-- A press without motion, whose report comes in the next call. -/
def cutPress : List (List ReadResult) := [[.got [btnLeft 1]], [.got [synAt 1000]]]

/-- The press is flushed as motion by the two calls, and not by one. -/
theorem press_flushed :
    ¬∀ calls reads dev₁ dev₂, stampedMouse.inputs reads = calls.flatMap stampedMouse.inputs →
      (∀ e ∈ calls.flatMap stampedMouse.inputs, ¬e.IsDropped) →
      FramesFit (calls.flatMap stampedMouse.inputs) →
      Stamped (calls.flatMap stampedMouse.inputs) →
      stampedMouse.run (flushMotion (clockAt 1) keepsCounts).logged takesAll calls = .ok dev₁ →
      stampedMouse.run (flushMotion (clockAt 1) keepsCounts).logged takesAll [reads] = .ok dev₂ →
      Unobservable stampedMouse dev₁ dev₂ (calls.flatMap stampedMouse.inputs) := by
  intro hunobservable
  have hsplit : (stampedMouse.run (flushMotion (clockAt 1) keepsCounts).logged takesAll
      cutPress).toOption.any (fun dev₁ => decide (dev₁.motion.2 = [⟨0, 0, 1000⟩])) = true := by
    decide +kernel
  have hwhole : (stampedMouse.run (flushMotion (clockAt 1) keepsCounts).logged takesAll
      [[.got [btnLeft 1, synAt 1000]]]).toOption.any
        (fun dev₂ => decide (dev₂.motion.2 = [])) = true := by
    decide +kernel
  obtain ⟨dev₁, hok₁, hlog₁⟩ := InputDevice.run_eq_ok_of_any hsplit
  obtain ⟨dev₂, hok₂, hlog₂⟩ := InputDevice.run_eq_ok_of_any hwhole
  have hsame := (hunobservable cutPress [.got [btnLeft 1, synAt 1000]] dev₁ dev₂ rfl
    (by decide +kernel) (framesFit_of_length (by decide +kernel)) (by decide +kernel) hok₁ hok₂).1
  rw [of_decide_eq_true hlog₁, of_decide_eq_true hlog₂] at hsame
  cases hsame

end AbrekMouse
