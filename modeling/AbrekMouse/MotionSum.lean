import AbrekMouse.EventOrder

/-! # No count is lost

In accel mode the counts of an axis are summed in the call, parked in the device when
the frame is cut, and passed on by a flush.  `MotionSum` does the same with integers, so
what was flushed, what is parked and what is summed always add up to what was read
outside the dropped windows (`MotionSum.total_event`).

The code sums in doubles, and these follow the integers as long as a double holds each
of them (`Tallies`).  Past 2 ^ 53 it need not, and a count can get lost
(`count_rounded_off`).
-/
namespace AbrekMouse
open ProgLib

/-- The two axes of a mouse. -/
inductive Axis | x | y

namespace Axis

/-- The event code of an axis. -/
def code : Axis → UInt16
  | x => relX
  | y => relY

/-- The part of a pair that belongs to the axis. -/
def pick {α : Type} : Axis → α → α → α
  | x, a, _ => a
  | y, _, b => b

/-- A motion event along the axis. -/
def Moves (a : Axis) (e : OutEvent) : Prop := e.type = evRel ∧ e.code = a.code

instance (a : Axis) (e : OutEvent) : Decidable (a.Moves e) := inferInstanceAs (Decidable (_ ∧ _))

variable {a : Axis} {e : OutEvent}

theorem Moves.isMotion (h : a.Moves e) : e.IsMotion := by
  refine ⟨h.1, ?_⟩
  cases a with
  | x => exact .inl h.2
  | y => exact .inr h.2

/-- The count of an event outside a window. -/
def counted (a : Axis) (dropped : Bool) (e : OutEvent) : ℤ :=
  if !dropped && decide (a.Moves e) then e.value else 0

/-- The counts outside every window. -/
def counts (a : Axis) : Bool → List OutEvent → ℤ
  | _, [] => 0
  | dropped, e :: es => a.counted dropped e + counts a (windowAfter dropped e) es

theorem counts_append (a : Axis) (dropped : Bool) (es fs : List OutEvent) :
    a.counts dropped (es ++ fs) =
      a.counts dropped es + a.counts (es.foldl windowAfter dropped) fs := by
  induction es generalizing dropped with
  | nil => rw [List.nil_append, counts, zero_add, List.foldl_nil]
  | cons e es ih => rw [List.cons_append, counts, counts, ih, List.foldl_cons, add_assoc]

end Axis

/-! ## With integers -/

/-- The counts of an axis, by where they are. -/
structure MotionSum where
  flushed : ℤ := 0
  parked : ℤ := 0
  here : ℤ := 0
  dropped : Bool

namespace MotionSum
variable (a : Axis) (s : MotionSum)

/-- A double holds the number. -/
abbrev Exact (z : ℤ) : Prop := Fp.Holds binary64 z

/-- Nothing, where a double does not hold the sum; so below. -/
def park : Option MotionSum :=
  if Exact (s.parked + s.here) then some { s with parked := s.parked + s.here, here := 0 } else none

def event (e : OutEvent) : Option MotionSum :=
  if e.IsDropped then s.park.map fun s => { s with dropped := true }
  else if s.dropped then some { s with dropped := !decide e.IsReport }
  else if e.IsReport then some { s with flushed := s.flushed + s.here, here := 0 }
  else if a.Moves e then
    if Exact e.value ∧ Exact (s.here + e.value) then some { s with here := s.here + e.value }
    else none
  else some s

/-- What was parked is summed first. -/
def startCall : MotionSum := { s with parked := 0, here := s.parked + s.here }

/-- The events that a call has read so far. -/
def events (es : List OutEvent) (o : Option MotionSum) : Option MotionSum :=
  es.foldl (fun o e => o.bind fun s => s.event a e) o

def call (o : Option MotionSum) (es : List OutEvent) : Option MotionSum :=
  (events a es (o.map startCall)).bind park

/-- All of it. -/
def total : ℤ := s.flushed + s.parked + s.here

/-- What becomes of an axis after the calls `calls`. -/
def run (dropped : Bool) (calls : List (List OutEvent)) : Option MotionSum :=
  calls.foldl (call a) (some { dropped := dropped })

/-- The same in the next call, which has read `es`. -/
def midway (dropped : Bool) (calls : List (List OutEvent)) (es : List OutEvent) :
    Option MotionSum :=
  events a es ((run a dropped calls).map startCall)

variable {a s} {t : MotionSum} {e : OutEvent}

/-- Outside a window only the events along the axis count. -/
theorem event_open (hopen : s.dropped = false) (hreport : ¬e.IsReport) (hdrop : ¬e.IsDropped) :
    s.event a e = if a.Moves e then
      if Exact e.value ∧ Exact (s.here + e.value) then some { s with here := s.here + e.value }
      else none
    else some s := by
  unfold event
  rw [if_neg hdrop, if_neg (Bool.eq_false_iff.mp hopen), if_neg hreport]

theorem event_nonMotion (hopen : s.dropped = false) (hev : e.nonMotion = true) :
    s.event a e = some s := by
  obtain ⟨hmotion, hreport, hdrop⟩ := OutEvent.nonMotion_iff.mp hev
  rw [event_open hopen hreport hdrop, if_neg fun hmoves => hmotion hmoves.isMotion]

theorem park_eq_some (h : s.park = some t) :
    t = { s with parked := s.parked + s.here, here := 0 } ∧ Exact t.parked := by
  unfold park at h
  split_ifs at h with hexact
  cases h
  exact ⟨rfl, hexact⟩

theorem total_park (h : s.park = some t) : t.total = s.total ∧ t.dropped = s.dropped := by
  obtain ⟨rfl, -⟩ := park_eq_some h
  refine ⟨?_, rfl⟩
  unfold total
  ring

/-- **A step adds what the event counts.** -/
theorem total_event (h : s.event a e = some t) :
    t.total = s.total + a.counted s.dropped e ∧ t.dropped = windowAfter s.dropped e := by
  unfold event at h
  unfold windowAfter Axis.counted
  -- a window opens: what the frame had so far is parked
  by_cases hdrop : e.IsDropped
  · have hmoves : ¬a.Moves e := fun hmoves => hmoves.isMotion.not_boundary.2 hdrop
    rw [if_pos hdrop] at h ⊢
    obtain ⟨u, hu, rfl⟩ := Option.map_eq_some_iff.mp h
    refine ⟨?_, rfl⟩
    rw [decide_eq_false hmoves, Bool.and_false, if_neg Bool.false_ne_true, add_zero]
    exact (total_park hu).1
  rw [if_neg hdrop] at h ⊢
  -- inside the window every count is thrown away
  by_cases hwindow : s.dropped = true
  · rw [if_pos hwindow] at h
    cases h
    rw [hwindow, Bool.not_true, Bool.false_and, if_neg Bool.false_ne_true, add_zero]
    refine ⟨rfl, ?_⟩
    -- the frame ends, and what it has goes to the flush
    by_cases hreport : e.IsReport <;> simp [hreport]
  rw [if_neg hwindow] at h
  by_cases hreport : e.IsReport
  · have hmoves : ¬a.Moves e := fun hmoves => hmoves.isMotion.not_boundary.1 hreport
    rw [if_pos hreport] at h ⊢
    cases h
    rw [decide_eq_false hmoves, Bool.and_false, if_neg Bool.false_ne_true]
    refine ⟨?_, Bool.eq_false_of_not_eq_true hwindow⟩
    unfold total
    ring
  rw [if_neg hreport] at h ⊢
  rw [Bool.eq_false_of_not_eq_true hwindow, Bool.not_false, Bool.true_and]
  by_cases hmoves : a.Moves e
  · rw [if_pos hmoves] at h
    split_ifs at h
    cases h
    rw [decide_eq_true hmoves, if_pos rfl]
    refine ⟨?_, Bool.eq_false_of_not_eq_true hwindow⟩
    unfold total
    ring
  · rw [if_neg hmoves] at h
    cases h
    rw [decide_eq_false hmoves, if_neg Bool.false_ne_true, add_zero]
    exact ⟨rfl, Bool.eq_false_of_not_eq_true hwindow⟩

/-- Where there is something, all of it comes to `n`. -/
def Comes (o : Option MotionSum) (n : ℤ) (dropped : Bool) : Prop :=
  ∀ s, o = some s → s.total = n ∧ s.dropped = dropped

variable {o : Option MotionSum} {n : ℤ} {dropped : Bool}

theorem Comes.startCall (h : Comes o n dropped) : Comes (o.map startCall) n dropped := by
  intro s' hs'
  obtain ⟨s, hs, rfl⟩ := Option.map_eq_some_iff.mp hs'
  refine ⟨?_, (h s hs).2⟩
  rw [← (h s hs).1]
  unfold total MotionSum.startCall
  ring

theorem Comes.park (h : Comes o n dropped) : Comes (o.bind park) n dropped := by
  intro s' hs'
  obtain ⟨s, hs, hpark⟩ := Option.bind_eq_some_iff.mp hs'
  exact ⟨(total_park hpark).1.trans (h s hs).1, (total_park hpark).2.trans (h s hs).2⟩

theorem Comes.events (h : Comes o n dropped) (es : List OutEvent) :
    Comes (events a es o) (n + a.counts dropped es) (es.foldl windowAfter dropped) := by
  induction es generalizing o n dropped with
  | nil =>
      rw [Axis.counts, add_zero]
      exact h
  | cons e es ih =>
      rw [Axis.counts, ← add_assoc]
      refine ih fun s' hs' => ?_
      obtain ⟨s, hs, hstep⟩ := Option.bind_eq_some_iff.mp hs'
      rw [← (h s hs).1, ← (h s hs).2]
      exact total_event hstep

theorem Comes.call (h : Comes o n dropped) (es : List OutEvent) :
    Comes (call a o es) (n + a.counts dropped es) (es.foldl windowAfter dropped) :=
  (h.startCall.events es).park

theorem comes_foldl (h : Comes o n dropped) (calls : List (List OutEvent)) :
    Comes (calls.foldl (call a) o) (n + a.counts dropped calls.flatten)
      (calls.flatten.foldl windowAfter dropped) := by
  induction calls generalizing o n dropped with
  | nil =>
      rw [List.flatten_nil, Axis.counts, add_zero]
      exact h
  | cons es calls ih =>
      rw [List.flatten_cons, Axis.counts_append, ← add_assoc, List.foldl_append]
      exact ih (h.call es)

theorem comes_run (a : Axis) (dropped : Bool) (calls : List (List OutEvent)) :
    Comes (run a dropped calls) (a.counts dropped calls.flatten)
      (calls.flatten.foldl windowAfter dropped) := by
  have hstart : Comes (some { dropped := dropped }) 0 dropped := by
    intro s hs
    cases hs
    exact ⟨rfl, rfl⟩
  have hall := comes_foldl (a := a) hstart calls
  rwa [zero_add] at hall

/-- **What was read is flushed, parked or summed.** -/
theorem total_midway {calls : List (List OutEvent)} {es : List OutEvent}
    (h : midway a dropped calls es = some t) :
    t.total = a.counts dropped (calls.flatten ++ es) := by
  rw [(((comes_run a dropped calls).startCall.events es) t h).1, Axis.counts_append]

theorem run_append (calls : List (List OutEvent)) (es : List OutEvent) :
    run a dropped (calls ++ [es]) = (midway a dropped calls es).bind park := by
  rw [run, List.foldl_append]
  rfl

theorem midway_append (calls : List (List OutEvent)) (es : List OutEvent) (e : OutEvent) :
    midway a dropped calls (es ++ [e]) =
      (midway a dropped calls es).bind fun s => s.event a e := by
  rw [midway, events, List.foldl_append]
  rfl

end MotionSum

/-! ## With doubles -/

variable {M : Type} {E : MotionEngine M} {answers : ℕ → WriteResult}

/-- The counts that were flushed, in units of the format. -/
def Axis.flushed (a : Axis) (flushes : List FlushCall) : ℤ :=
  (flushes.map fun f => (a.pick f.dx f.dy).key).sum

/-- The doubles of a call follow the integers. -/
structure Tallies (a : Axis) (s : MotionSum) (c : Call (M × List FlushCall)) : Prop where
  accel : c.dev.rawPassthrough = false
  out : c.out.evs = []
  dropped : s.dropped = c.dev.synDropped
  here : a.pick c.dx c.dy = Fp.ofInt s.here
  parked : a.pick c.dev.pendingDx c.dev.pendingDy = Fp.ofInt s.parked
  flushed : a.flushed c.dev.motion.2 = s.flushed * 2 ^ binary64.unit
  exactHere : MotionSum.Exact s.here
  exactParked : MotionSum.Exact s.parked
  still : c.hasMotion = false → s.here = 0
  unparked : c.dev.hasPendingMotion = false → s.parked = 0

theorem Axis.pick_add (a : Axis) (x y z w : Double) :
    a.pick (x + y) (z + w) = a.pick x z + a.pick y w := by
  cases a <;> rfl

theorem Axis.pick_zero (a : Axis) : a.pick (0 : Double) 0 = Fp.ofInt 0 := by
  cases a <;> exact Fp.zero_eq_ofInt

namespace Tallies
variable {a : Axis} {s t : MotionSum} {c c' : Call (M × List FlushCall)} {ev : InputEvent}

/-- What is parked follows, too. -/
theorem park (h : Tallies a s c) (hpark : s.park = some t) :
    a.pick c.park.dev.pendingDx c.park.dev.pendingDy = Fp.ofInt t.parked ∧
      (c.park.dev.hasPendingMotion = false → t.parked = 0) := by
  obtain ⟨rfl, hexact⟩ := MotionSum.park_eq_some hpark
  unfold Call.park
  split_ifs with hframe
  · refine ⟨?_, fun hpending => (by cases hpending)⟩
    rw [← h.exactParked.add h.exactHere hexact, ← h.parked, ← h.here]
    exact a.pick_add _ _ _ _
  · have hhere : s.here = 0 := h.still (Bool.eq_false_of_not_eq_true (not_or.mp hframe).1)
    rw [hhere, add_zero]
    exact ⟨h.parked, h.unparked⟩

/-- The device between two calls. -/
theorem parked_dev {uinput : Uinput} {dropped : Bool} (h : Tallies a s c)
    (hpark : s.park = some t) (hout : c'.out.evs = [])
    (hdev : c'.dev = { c.park.dev with uinput := uinput, synDropped := dropped })
    (hdx : c'.dx = 0) (hdy : c'.dy = 0) : Tallies a { t with dropped := dropped } c' := by
  obtain ⟨hparked, hunparked⟩ := h.park hpark
  have hmotion : c.park.dev.motion = c.dev.motion := by
    unfold Call.park
    split_ifs <;> rfl
  obtain ⟨rfl, hexact⟩ := MotionSum.park_eq_some hpark
  refine ⟨?_, hout, ?_, ?_, ?_, ?_, Fp.holds_zero, hexact, fun _ => rfl, ?_⟩
  · rw [hdev]
    exact (Call.Constant.of_park c).rawPassthrough.trans h.accel
  · rw [hdev]
  · rw [hdx, hdy]
    exact a.pick_zero
  · rw [hdev]
    exact hparked
  · rw [hdev]
    exact (congrArg (fun m => a.flushed m.2) hmotion).trans h.flushed
  · rw [hdev]
    exact hunparked

theorem frame {o : Output} {frame : UInt64} (h : Tallies a s c) (hout : o.batch.evs = []) :
    Tallies a { s with flushed := s.flushed + s.here, here := 0 }
      (c.withFrame E.logged frame o) := by
  have hflushed : a.flushed (c.flushedMotion E.logged frame).2 =
      (s.flushed + s.here) * 2 ^ binary64.unit := by
    unfold Call.flushedMotion
    split_ifs with hmotion
    · have hlast : (a.pick c.dx c.dy).key = s.here * 2 ^ binary64.unit := by
        rw [h.here, h.exactHere.key_ofInt]
      rw [add_mul, ← h.flushed, ← hlast]
      simp only [Axis.flushed, Call.flushed, MotionEngine.logged, List.map_append, List.map_cons,
        List.map_nil, List.sum_append, List.sum_cons, List.sum_nil, add_zero]
    · rw [h.flushed, h.still (Bool.eq_false_of_not_eq_true hmotion), add_zero]
  have hhere : a.pick (if c.hasMotion then 0 else c.dx) (if c.hasMotion then 0 else c.dy) =
      Fp.ofInt 0 := by
    split_ifs with hmotion
    · exact a.pick_zero
    · rw [h.here, h.still (Bool.eq_false_of_not_eq_true hmotion)]
  exact ⟨h.accel, hout, h.dropped, hhere, h.parked, hflushed, Fp.holds_zero, h.exactParked,
    fun _ => rfl, h.unparked⟩

theorem motion {here : ℤ} (h : Tallies a s c) (hexact : MotionSum.Exact here)
    (hdev : c'.dev = c.dev) (hout : c'.out = c.out) (hhere : a.pick c'.dx c'.dy = Fp.ofInt here)
    (hmoved : c'.hasMotion = true) : Tallies a { s with here := here } c' := by
  refine ⟨?_, ?_, ?_, hhere, ?_, ?_, hexact, h.exactParked, fun hstill => ?_, ?_⟩
  · rw [hdev]
    exact h.accel
  · rw [hout]
    exact h.out
  · rw [hdev]
    exact h.dropped
  · rw [hdev]
    exact h.parked
  · rw [hdev]
    exact h.flushed
  · rw [hmoved] at hstill
    cases hstill
  · rw [hdev]
    exact h.unparked

/-- An event along one axis leaves the other alone. -/
theorem motionEvent (h : Tallies a s c) (hopen : c.dev.synDropped = false)
    (hmotion : ev.toOutEvent.IsMotion) (hdev : c'.dev = c.dev) (hout : c'.out = c.out)
    (hhere : a.pick c'.dx c'.dy =
      if a.Moves ev.toOutEvent then a.pick c.dx c.dy + Fp.ofInt ev.value else a.pick c.dx c.dy)
    (hmoved : c'.hasMotion = true) (hevent : s.event a ev.toOutEvent = some t) :
    Tallies a t c' := by
  rw [MotionSum.event_open (h.dropped.trans hopen) hmotion.not_boundary.1
    hmotion.not_boundary.2] at hevent
  rw [h.here] at hhere
  split_ifs at hevent hhere with hmoves hexact
  · cases hevent
    rw [h.exactHere.add hexact.1 hexact.2] at hhere
    exact h.motion hexact.2 hdev hout hhere hmoved
  · cases hevent
    exact h.motion h.exactHere hdev hout hhere hmoved

theorem step (h : Tallies a s c) (hstep : AccelStep E.logged c ev c')
    (hevent : s.event a ev.toOutEvent = some t) : Tallies a t c' := by
  cases hstep with
  | opened hdrop =>
      rw [MotionSum.event, if_pos hdrop] at hevent
      obtain ⟨u, hu, rfl⟩ := Option.map_eq_some_iff.mp hevent
      have hout : c.park.out = c.out := congrArg Output.batch Call.park_output
      exact h.parked_dev hu (hout ▸ h.out) rfl rfl rfl
  | closed hopen hreport =>
      rw [MotionSum.event, if_neg hreport.not_isDropped, if_pos (h.dropped.trans hopen)] at hevent
      cases hevent
      refine ⟨h.accel, h.out, ?_, h.here, h.parked, h.flushed, h.exactHere, h.exactParked,
        h.still, h.unparked⟩
      rw [decide_eq_true hreport]
      rfl
  | skipped hopen hdrop hreport =>
      rw [MotionSum.event, if_neg hdrop, if_pos (h.dropped.trans hopen)] at hevent
      cases hevent
      refine ⟨h.accel, h.out, ?_, h.here, h.parked, h.flushed, h.exactHere, h.exactParked,
        h.still, h.unparked⟩
      rw [decide_eq_false hreport, hopen]
      rfl
  | @frame o hopen hreport hempty hwritten =>
      rw [MotionSum.event, if_neg hreport.not_isDropped,
        if_neg (Bool.eq_false_iff.mp (h.dropped.trans hopen)), if_pos hreport] at hevent
      cases hevent
      exact h.frame hempty
  | motionX hopen hrel hx =>
      refine h.motionEvent hopen ⟨hrel, .inl hx⟩ rfl rfl ?_ rfl hevent
      cases a with
      | x => exact (if_pos ⟨hrel, hx⟩).symm
      | y => exact (if_neg fun hmoves => absurd (hx.symm.trans hmoves.2) (by decide)).symm
  | motionY hopen hrel hy =>
      refine h.motionEvent hopen ⟨hrel, .inr hy⟩ rfl rfl ?_ rfl hevent
      cases a with
      | x => exact (if_neg fun hmoves => absurd (hy.symm.trans hmoves.2) (by decide)).symm
      | y => exact (if_pos ⟨hrel, hy⟩).symm
  | queued hopen hev hadd =>
      rw [MotionSum.event_nonMotion (h.dropped.trans hopen) hev] at hevent
      cases hevent
      exact ⟨h.accel, h.out, h.dropped, h.here, h.parked, h.flushed, h.exactHere, h.exactParked,
        h.still, h.unparked⟩
  | lost hopen hev hlossy hadd =>
      rw [MotionSum.event_nonMotion (h.dropped.trans hopen) hev] at hevent
      cases hevent
      exact h
  | forwarded hopen hev hlossy hadd hempty hwritten =>
      rw [MotionSum.event_nonMotion (h.dropped.trans hopen) hev] at hevent
      cases hevent
      exact ⟨h.accel, hempty, h.dropped, h.here, h.parked, h.flushed, h.exactHere, h.exactParked,
        h.still, h.unparked⟩

theorem finish (h : Tallies a s c) (hpark : s.park = some t) (hok : finish answers c = .ok c') :
    Tallies a t { dev := c'.dev } := by
  obtain ⟨uinput, hdev, -⟩ := finish_eq_ok h.accel hok
  have hdropped : c.park.dev.synDropped = c.dev.synDropped := by
    unfold Call.park
    split_ifs <;> rfl
  have ht : t.dropped = c.park.dev.synDropped := by
    rw [(MotionSum.total_park hpark).2, h.dropped, hdropped]
  have hall : Tallies a { t with dropped := c.park.dev.synDropped } { dev := c'.dev } :=
    h.parked_dev hpark rfl hdev rfl rfl
  rwa [← ht] at hall

theorem mergeTail {dev : InputDevice (M × List FlushCall)} (h : Tallies a s { dev := dev }) :
    Tallies a s.startCall (mergeTail dev) := by
  have hhere : s.here = 0 := h.still rfl
  cases hpending : dev.hasPendingMotion with
  | true =>
      rw [mergeTail_eq hpending]
      have hstart : s.parked + s.here = s.parked := by rw [hhere, add_zero]
      refine ⟨h.accel, rfl, h.dropped, ?_, a.pick_zero, h.flushed, ?_, Fp.holds_zero,
        fun hstill => (by cases hstill), fun _ => rfl⟩
      · exact h.parked.trans (congrArg Fp.ofInt hstart.symm)
      · exact (congrArg MotionSum.Exact hstart).mpr h.exactParked
  | false =>
      have hparked : s.parked = 0 := h.unparked hpending
      have hstart : s.startCall = s := by
        unfold MotionSum.startCall
        rw [hparked, zero_add, ← hparked]
      rw [hstart]
      unfold AbrekMouse.mergeTail
      rw [hpending, if_neg Bool.false_ne_true]
      exact h

end Tallies

/-! ## Runs -/

variable {a : Axis}

/-- **Wherever the calls are cut**, the doubles follow the integers. -/
theorem Midway.tallies {dev : InputDevice (M × List FlushCall)} {calls : List (List InputEvent)}
    {es : List InputEvent} {c : Call (M × List FlushCall)} {s : MotionSum}
    (h : Midway E.logged answers dev calls es c)
    (hstart : Tallies a { dropped := dev.synDropped } { dev := dev })
    (hs : MotionSum.midway a dev.synDropped (calls.map (List.map InputEvent.toOutEvent))
      (es.map InputEvent.toOutEvent) = some s) : Tallies a s c := by
  induction h generalizing s with
  | start =>
      cases hs
      exact hstart.mergeTail
  | @event calls es c c' ev hc hok ih =>
      rw [List.map_append, List.map_singleton, MotionSum.midway_append] at hs
      obtain ⟨t, ht, hevent⟩ := Option.bind_eq_some_iff.mp hs
      have hc' := ih ht
      exact hc'.step (accelStep_of_ok hc'.accel hc'.out hok) hevent
  | disconnect hc ih =>
      have hc' := ih hs
      exact ⟨hc'.accel, hc'.out, hc'.dropped, hc'.here, hc'.parked, hc'.flushed, hc'.exactHere,
        hc'.exactParked, hc'.still, hc'.unparked⟩
  | @next calls es c c' hc hfinish ih =>
      obtain ⟨u, hu, rfl⟩ := Option.map_eq_some_iff.mp hs
      rw [List.map_append, List.map_singleton, MotionSum.run_append] at hu
      obtain ⟨t, ht, hpark⟩ := Option.bind_eq_some_iff.mp hu
      exact ((ih ht).finish hpark hfinish).mergeTail

theorem Tallies.total {s : MotionSum} {c : Call (M × List FlushCall)} (h : Tallies a s c) :
    a.flushed c.dev.motion.2 + (a.pick c.dev.pendingDx c.dev.pendingDy).key +
      (a.pick c.dx c.dy).key = s.total * 2 ^ binary64.unit := by
  rw [h.flushed, h.parked, h.here, h.exactParked.key_ofInt, h.exactHere.key_ofInt,
    MotionSum.total, add_mul, add_mul]

/-- A device that has neither flushed nor parked anything. -/
structure InputDevice.Fresh (dev : InputDevice (M × List FlushCall)) : Prop where
  accel : dev.rawPassthrough = false
  unflushed : dev.motion.2 = []
  unparkedDx : dev.pendingDx = 0
  unparkedDy : dev.pendingDy = 0

theorem InputDevice.Fresh.tallies {dev : InputDevice (M × List FlushCall)} (h : dev.Fresh) :
    Tallies a { dropped := dev.synDropped } { dev := dev } := by
  refine ⟨h.accel, rfl, rfl, a.pick_zero, ?_, ?_, Fp.holds_zero, Fp.holds_zero, fun _ => rfl,
    fun _ => rfl⟩
  · rw [h.unparkedDx, h.unparkedDy]
    exact a.pick_zero
  · rw [h.unflushed, zero_mul]
    rfl

theorem Settled.tallies {dev dev' : InputDevice (M × List FlushCall)}
    {calls : List (List InputEvent)} {s : MotionSum} (h : Settled E.logged answers dev calls dev')
    (hstart : Tallies a { dropped := dev.synDropped } { dev := dev })
    (hs : MotionSum.run a dev.synDropped (calls.map (List.map InputEvent.toOutEvent)) = some s) :
    Tallies a s { dev := dev' } := by
  cases h with
  | start =>
      cases hs
      exact hstart
  | call hc hfinish =>
      rw [List.map_append, List.map_singleton, MotionSum.run_append] at hs
      obtain ⟨t, ht, hpark⟩ := Option.bind_eq_some_iff.mp hs
      exact (hc.tallies hstart ht).finish hpark hfinish

/-- **Counts are conserved** while the doubles are exact: at every point of a run, and
after it, what was flushed and what is parked and summed is what was read outside every
window. -/
theorem motion_conserved (dev : InputDevice (M × List FlushCall)) (hfresh : dev.Fresh) (a : Axis) :
    (∀ calls es c, Midway E.logged answers dev calls es c →
      (MotionSum.midway a dev.synDropped (calls.map (List.map InputEvent.toOutEvent))
        (es.map InputEvent.toOutEvent)).isSome →
      a.flushed c.dev.motion.2 + (a.pick c.dev.pendingDx c.dev.pendingDy).key +
          (a.pick c.dx c.dy).key =
        a.counts dev.synDropped ((calls.flatten ++ es).map InputEvent.toOutEvent) *
          2 ^ binary64.unit) ∧
    (∀ calls dev', dev.run E.logged answers calls = .ok dev' →
      (MotionSum.run a dev.synDropped
        ((calls.map dev.inputs).map (List.map InputEvent.toOutEvent))).isSome →
      a.flushed dev'.motion.2 + (a.pick dev'.pendingDx dev'.pendingDy).key =
        a.counts dev.synDropped ((calls.flatMap dev.inputs).map InputEvent.toOutEvent) *
          2 ^ binary64.unit) := by
  constructor
  · intro calls es c hc hexact
    obtain ⟨s, hs⟩ := Option.isSome_iff_exists.mp hexact
    rw [(hc.tallies hfresh.tallies hs).total, MotionSum.total_midway hs, List.map_append,
      List.map_flatten]
  · intro calls dev' hok hexact
    have hzero : (a.pick (0 : Double) 0).key = 0 := by
      rw [a.pick_zero, Fp.holds_zero.key_ofInt, zero_mul]
    cases huidev : dev.hasUidev with
    | true =>
        obtain ⟨s, hs⟩ := Option.isSome_iff_exists.mp hexact
        have htotal := ((InputDevice.settled_run huidev hok).tallies hfresh.tallies hs).total
        rw [hzero, add_zero] at htotal
        rw [htotal, (MotionSum.comes_run a _ _ s hs).1, List.flatMap_def, List.map_flatten]
    | false =>
        obtain ⟨rfl, hinputs⟩ := InputDevice.run_idle huidev hok
        have hnone : calls.flatMap dev'.inputs = [] := by simp [hinputs]
        have hlog : a.flushed [] = 0 := rfl
        rw [hnone, hfresh.unflushed, hfresh.unparkedDx, hfresh.unparkedDy, hzero, hlog,
          List.map_nil, Axis.counts, zero_mul, add_zero]

/-! ## Where a count is lost -/

def movedMouse : InputDevice (Unit × List FlushCall) where
  uinput := { fd := 3 }
  motion := ((), [])

def relOf (code : UInt16) (value : ℤ) : InputEvent := ⟨.rel code value, 0, 0⟩

/-- A frame that is cut, a window, and a frame that is not finished. -/
def cutStroke : List (List ReadResult) :=
  [[.got [relOf relX 3]],
    [.got [relOf relX 4, synOf synReport, synOf synDropped, relOf relX 5, synOf synReport,
      relOf relX 6]]]

theorem motion_conserved_cutStroke :
    ∃ dev', movedMouse.run MotionEngine.still.logged takesAll cutStroke = .ok dev' ∧
      Axis.x.flushed dev'.motion.2 + (Axis.x.pick dev'.pendingDx dev'.pendingDy).key =
        13 * 2 ^ binary64.unit := by
  have hrun : (movedMouse.run MotionEngine.still.logged takesAll cutStroke).toOption.any
      (fun _ => true) = true := by
    decide +kernel
  obtain ⟨dev', hok, -⟩ := InputDevice.run_eq_ok_of_any hrun
  have hsum := (motion_conserved movedMouse ⟨rfl, rfl, rfl, rfl⟩ .x).2 cutStroke dev' hok
    (by decide +kernel)
  exact ⟨dev', hok, hsum.trans (by decide +kernel)⟩

/-- A frame that is cut, with what it has grown to. -/
def heldMouse (held : Bool) (dx dy : Double) : InputDevice (Unit × List FlushCall) :=
  { movedMouse with pendingDx := dx, pendingDy := dy, hasPendingMotion := held }

/-- One more report of a long stroke. -/
theorem push_heldMouse (held : Bool) (dx dy : Double) (v : ℤ) :
    processDevice MotionEngine.still.logged takesAll (heldMouse held dx dy)
        [.got [relOf relX v]] =
      .ok (heldMouse true ((if held then 0 else dx) + ((if held then dx else 0) + Fp.ofInt v))
        ((if held then 0 else dy) + if held then dy else 0)) := by
  cases held <;> rfl

def push : InputEvent := relOf relX (2 ^ 30)

theorem holds_pushes {n : ℕ} (hn : n ≤ 2 ^ 23) : Fp.Holds binary64 (n * 2 ^ 30) := by
  have habs : ((n : ℤ) * 2 ^ 30).natAbs * 2 ^ binary64.unit = n * 2 ^ (30 + binary64.unit) := by
    rw [Int.natAbs_mul, Int.natAbs_natCast, pow_add, ← mul_assoc]
    rfl
  unfold Fp.Holds
  rw [habs]
  refine Format.fits_mul_pow (hn.trans_lt (by decide)) ?_
  calc n * 2 ^ (30 + binary64.unit) ≤ 2 ^ 23 * 2 ^ (30 + binary64.unit) :=
        Nat.mul_le_mul_right _ hn
    _ < 2 ^ binary64.top := by decide +kernel

theorem push_exact {held : Bool} {z v : ℤ} (hz : Fp.Holds binary64 z) (hv : Fp.Holds binary64 v)
    (hsum : Fp.Holds binary64 (z + v)) (hheld : held = false → z = 0) :
    processDevice MotionEngine.still.logged takesAll (heldMouse held (Fp.ofInt z) (Fp.ofInt 0))
        [.got [relOf relX v]] = .ok (heldMouse true (Fp.ofInt (z + v)) (Fp.ofInt 0)) := by
  have hzero : ∀ {w : ℤ}, Fp.Holds binary64 w →
      (Fp.ofInt 0 + Fp.ofInt w : Double) = Fp.ofInt w := by
    intro w hw
    have hadd := Fp.holds_zero.add hw (by rwa [zero_add])
    rwa [zero_add] at hadd
  rw [push_heldMouse, Fp.zero_eq_ofInt, ite_self, hzero Fp.holds_zero]
  cases held with
  | true =>
      rw [if_pos rfl, if_pos rfl, hz.add hv hsum, hzero hsum]
  | false =>
      obtain rfl := hheld rfl
      rw [ite_self, hzero hv, hzero hv, zero_add]

theorem InputDevice.run_append {dev : InputDevice M} (calls more : List (List ReadResult)) :
    dev.run E answers (calls ++ more) =
      dev.run E answers calls >>= fun d => d.run E answers more :=
  List.foldlM_append

/-- Pushes that no report ends are parked, and the sum is exact up to 2 ^ 53. -/
theorem run_pushes {n : ℕ} (hn : n ≤ 2 ^ 23) :
    movedMouse.run MotionEngine.still.logged takesAll (List.replicate n [.got [push]]) =
      .ok (heldMouse (decide (0 < n)) (Fp.ofInt (n * 2 ^ 30)) (Fp.ofInt 0)) := by
  induction n with
  | zero => rfl
  | succ n ih =>
      have hz : Fp.Holds binary64 (n * 2 ^ 30) := holds_pushes (by omega)
      have hv : Fp.Holds binary64 (2 ^ 30) := Fp.holds_of_lt (by decide +kernel)
      have hnext : (n : ℤ) * 2 ^ 30 + 2 ^ 30 = ((n + 1 : ℕ) : ℤ) * 2 ^ 30 := by
        push_cast
        ring
      have hheld : decide (0 < n) = false → (n : ℤ) * 2 ^ 30 = 0 := by
        intro hnone
        obtain rfl : n = 0 := Nat.eq_zero_of_not_pos (of_decide_eq_false hnone)
        exact zero_mul _
      have hstep : processDevice MotionEngine.still.logged takesAll
          (heldMouse (decide (0 < n)) (Fp.ofInt (n * 2 ^ 30)) (Fp.ofInt 0)) [.got [push]] =
            .ok (heldMouse true (Fp.ofInt ((n + 1 : ℕ) * 2 ^ 30)) (Fp.ofInt 0)) := by
        have hsum := holds_pushes hn
        rw [← hnext] at hsum ⊢
        exact push_exact hz hv hsum hheld
      rw [List.replicate_succ', InputDevice.run_append, ih (by omega),
        decide_eq_true (Nat.succ_pos n)]
      show (processDevice _ _ _ _ >>= pure) = _
      rw [hstep]
      rfl

theorem counts_pushes (n : ℕ) :
    Axis.x.counts false (List.replicate n push.toOutEvent) = n * 2 ^ 30 := by
  induction n with
  | zero => rfl
  | succ n ih =>
      have hcount : Axis.x.counted false push.toOutEvent = 2 ^ 30 := by decide +kernel
      have hwindow : windowAfter false push.toOutEvent = false := by decide +kernel
      rw [List.replicate_succ, Axis.counts, hcount, hwindow, ih]
      push_cast
      ring

/-- After 2 ^ 53 counts one more, and the report. -/
def longStroke : List (List ReadResult) :=
  List.replicate (2 ^ 23) [.got [push]] ++ [[.got [relOf relX 1, synOf synReport]]]

/-- The last count is rounded off. -/
theorem count_rounded_off :
    ¬∀ calls dev', (∀ e ∈ calls.flatMap movedMouse.inputs, -2 ^ 31 ≤ e.value ∧ e.value < 2 ^ 31) →
      movedMouse.run MotionEngine.still.logged takesAll calls = .ok dev' →
      Axis.x.flushed dev'.motion.2 + (Axis.x.pick dev'.pendingDx dev'.pendingDy).key =
        Axis.x.counts false ((calls.flatMap movedMouse.inputs).map InputEvent.toOutEvent) *
          2 ^ binary64.unit := by
  intro hconserved
  have hinputs : longStroke.flatMap movedMouse.inputs =
      List.replicate (2 ^ 23) push ++ [relOf relX 1, synOf synReport] := by
    rw [longStroke, List.flatMap_append, List.flatMap_replicate]
    exact congrArg (· ++ _) List.flatten_replicate_singleton
  have hend : ∀ e ∈ [relOf relX 1, synOf synReport], -2 ^ 31 ≤ e.value ∧ e.value < 2 ^ 31 := by
    decide +kernel
  have hvalues : ∀ e ∈ longStroke.flatMap movedMouse.inputs,
      -2 ^ 31 ≤ e.value ∧ e.value < 2 ^ 31 := by
    rw [hinputs]
    intro e he
    rcases List.mem_append.mp he with hpush | hlast
    · rw [List.eq_of_mem_replicate hpush]
      decide +kernel
    · exact hend e hlast
  have hcounts : Axis.x.counts false ((longStroke.flatMap movedMouse.inputs).map
      InputEvent.toOutEvent) = 2 ^ 53 + 1 := by
    -- the pushes open no window
    have hwindow : ∀ n, (List.replicate n push.toOutEvent).foldl windowAfter false = false := by
      intro n
      induction n with
      | zero => rfl
      | succ n ih => exact ih
    rw [hinputs, List.map_append, List.map_replicate, Axis.counts_append, counts_pushes, hwindow]
    decide +kernel
  -- one more count after 2 ^ 53, which no double holds
  have hlast : ((heldMouse true (Fp.ofInt (2 ^ 53)) (Fp.ofInt 0)).run
      MotionEngine.still.logged takesAll [[.got [relOf relX 1, synOf synReport]]]).toOption.any
        (fun dev' => decide (Axis.x.flushed dev'.motion.2 +
          (Axis.x.pick dev'.pendingDx dev'.pendingDy).key =
            2 ^ 53 * 2 ^ binary64.unit)) = true := by
    decide +kernel
  obtain ⟨dev', hok, hsum⟩ := InputDevice.run_eq_ok_of_any hlast
  have hrun : movedMouse.run MotionEngine.still.logged takesAll longStroke = .ok dev' := by
    rw [longStroke, InputDevice.run_append, run_pushes le_rfl]
    exact hok
  have hall := hconserved longStroke dev' hvalues hrun
  rw [hcounts, of_decide_eq_true hsum] at hall
  revert hall
  decide +kernel

end AbrekMouse
