import AbrekMouse.EventOrder

/-! # Events that are dropped

A frame has room for sixteen events beside its motion.  What the device cannot park is
counted in `ev_tail_overruns`; a wheel event or a SYN subtype that the queue has no room for
is dropped and logged, and not counted.  `Tally` counts these events from the input alone, and
with them every event is accounted for (`Accounts`); so the counter tells of all that was
dropped just when there are none of them (`dropped_counted`).
-/
namespace AbrekMouse
open ProgLib

/-! ## The tally of an input -/

/-- How many events are parked and queued, and how many the queue has refused. -/
structure Tally where
  parked : ℕ := 0
  queued : ℕ := 0
  dropped : Bool
  refused : ℕ := 0

namespace Tally
variable (t : Tally)

def event (e : OutEvent) : Tally :=
  if e.IsDropped then
    { t with parked := min pendingEventsMax (t.parked + t.queued), queued := 0, dropped := true }
  else if t.dropped then { t with dropped := !decide e.IsReport }
  else if e.IsReport then { t with queued := 0 }
  else if e.IsMotion then t
  else if t.queued < pendingEventsMax then { t with queued := t.queued + 1 }
  else if e.IsLossy then { t with refused := t.refused + 1 }
  else { t with queued := 0 }

def startCall : Tally := { t with parked := 0, queued := t.parked }

def endCall : Tally :=
  { t with parked := min pendingEventsMax (t.parked + t.queued), queued := 0 }

def call (es : List OutEvent) : Tally := (es.foldl event t.startCall).endCall

def run (calls : List (List OutEvent)) : Tally := calls.foldl call t

end Tally

/-- No wheel event, other axis or SYN subtype comes while sixteen events are queued. -/
def Roomy (dropped : Bool) (calls : List (List OutEvent)) : Prop :=
  (Tally.run { dropped } calls).refused = 0

instance (dropped : Bool) (calls : List (List OutEvent)) : Decidable (Roomy dropped calls) :=
  inferInstanceAs (Decidable (_ = _))

/-! ## The buffers are counted -/

/-- The tally says how much is in the buffers. -/
structure Tally.Counts (t : Tally) (b : Buffers) : Prop where
  bound : t.parked ≤ pendingEventsMax
  parked : t.parked = b.parked.length
  queued : t.queued = b.queued.length
  dropped : t.dropped = b.dropped

/-- How many of the queued events the device cannot park. -/
def Buffers.excess (b : Buffers) : ℕ := b.parked.length + b.queued.length - pendingEventsMax

theorem Buffers.fill_length (b : Buffers) (hbound : b.parked.length ≤ pendingEventsMax) :
    b.fill.length = min pendingEventsMax (b.parked.length + b.queued.length) := by
  rw [Buffers.fill, List.length_append, List.length_take]
  omega

/-- What an event adds to the counter. -/
def Buffers.overruns (b : Buffers) (e : OutEvent) : ℕ := if e.IsDropped then b.excess else 0

namespace Tally.Counts
variable {t : Tally} {b : Buffers}

theorem event (h : t.Counts b) (e : OutEvent) : (t.event e).Counts (b.event e) := by
  rcases t with ⟨parked, queued, dropped, refused⟩
  obtain ⟨hbound, rfl, rfl, rfl⟩ := h
  have hfill := b.fill_length hbound
  unfold Tally.event Buffers.event
  dsimp only
  split_ifs
  · exact ⟨min_le_left _ _, hfill.symm, rfl, rfl⟩
  · exact ⟨hbound, rfl, rfl, rfl⟩
  · exact ⟨hbound, rfl, rfl, rfl⟩
  · exact ⟨hbound, rfl, rfl, rfl⟩
  · exact ⟨hbound, rfl, by rw [List.length_append]; rfl, rfl⟩
  · exact ⟨hbound, rfl, rfl, rfl⟩
  · exact ⟨hbound, rfl, rfl, rfl⟩

/-- **An event is written, kept, counted or refused.** -/
theorem event_total (h : t.Counts b) (e : OutEvent) :
    (b.event e).all.length + b.overruns e + (t.event e).refused =
      b.all.length + t.refused + (passed b.dropped e).length := by
  obtain ⟨hbound, hparked, hqueued, hdropped⟩ := h
  have hfill := b.fill_length (hparked ▸ hbound)
  unfold Tally.event Buffers.event Buffers.overruns passed OutEvent.nonMotion
  rw [hdropped, hqueued]
  split_ifs <;> simp_all [Buffers.all, Buffers.excess] <;> omega

theorem startCall (h : t.Counts b) : t.startCall.Counts b.startCall :=
  ⟨Nat.zero_le _, rfl, h.parked, h.dropped⟩

theorem endCall (h : t.Counts b) : t.endCall.Counts b.endCall := by
  refine ⟨min_le_left _ _, ?_, rfl, h.dropped⟩
  rw [Buffers.endCall, Tally.endCall, b.fill_length (h.parked ▸ h.bound), h.parked, h.queued]

end Tally.Counts

/-! ## The counter of the device -/

variable {M : Type} {E : MotionEngine M} {answers : ℕ → WriteResult}

namespace Call
variable {c c' : Call M} {ev : InputEvent}

/-- What cannot be parked is counted. -/
theorem park_overruns :
    c.park.dev.evTailOverruns = c.dev.evTailOverruns + c.buffers.excess := by
  have hparked : c.buffers.parked.length = c.dev.pendingEvents.evs.length := List.length_map _
  have hqueued : c.buffers.queued.length = c.queued.evs.length := List.length_map _
  have hbound := c.dev.pendingEvents.bound
  unfold park Buffers.excess
  rw [hparked, hqueued]
  split_ifs with hframe
  · simp only [EventBuffer.fill, List.length_append, List.length_take]
    omega
  · rw [not_or, not_not] at hframe
    rw [hframe.2, List.length_nil]
    omega

/-- Only a `SYN_DROPPED` counts. -/
theorem accelStep_overruns (hstep : AccelStep E c ev c') :
    c'.dev.evTailOverruns = c.dev.evTailOverruns + c.buffers.overruns ev.toOutEvent := by
  have hnone : ¬ev.IsDropped → c.buffers.overruns ev.toOutEvent = 0 := fun hdrop => if_neg hdrop
  cases hstep with
  | opened hdrop =>
      rw [Buffers.overruns, if_pos hdrop]
      exact park_overruns
  | closed _ hreport => exact (hnone hreport.not_isDropped) ▸ rfl
  | skipped _ hdrop => exact (hnone hdrop) ▸ rfl
  | frame _ hreport => exact (hnone hreport.not_isDropped) ▸ rfl
  | motionX _ hrel hx =>
      have hmotion : ev.IsMotion := ⟨hrel, .inl hx⟩
      exact (hnone hmotion.not_boundary.2) ▸ rfl
  | motionY _ hrel hy =>
      have hmotion : ev.IsMotion := ⟨hrel, .inr hy⟩
      exact (hnone hmotion.not_boundary.2) ▸ rfl
  | queued _ hev => exact (hnone (OutEvent.nonMotion_iff.mp hev).2.2) ▸ rfl
  | lost _ hev => exact (hnone (OutEvent.nonMotion_iff.mp hev).2.2) ▸ rfl
  | forwarded _ hev => exact (hnone (OutEvent.nonMotion_iff.mp hev).2.2) ▸ rfl

/-- Every event so far is written, parked, queued, counted, or was refused. -/
structure Accounts (c : Call M) (t : Tally) (total : ℕ) : Prop where
  tidy : c.Tidy
  counts : t.Counts c.buffers
  total : c.buffers.all.length + c.dev.evTailOverruns + t.refused = total

variable {t : Tally} {total : ℕ}

theorem Accounts.event (h : c.Accounts t total) (hok : processEvent E answers c ev = .ok c') :
    c'.Accounts (t.event ev.toOutEvent)
      (total + (passed c.dev.synDropped ev.toOutEvent).length) := by
  have hstep := accelStep_of_ok h.tidy.accel h.tidy.out hok
  obtain ⟨htidy, hbuffers⟩ := buffers_accelStep h.tidy hstep
  refine ⟨htidy, hbuffers ▸ h.counts.event ev.toOutEvent, ?_⟩
  have hevent := h.counts.event_total ev.toOutEvent
  have hbefore := h.total
  have hwindow : c.buffers.dropped = c.dev.synDropped := rfl
  rw [hwindow] at hevent
  rw [hbuffers, accelStep_overruns hstep]
  omega

end Call

namespace InputDevice
variable {dev : InputDevice M} {t : Tally} {total : ℕ}

/-- Nothing is queued between two calls. -/
def Accounts (dev : InputDevice M) (t : Tally) (total : ℕ) : Prop :=
  ({ dev := dev } : Call M).Accounts t total

theorem Accounts.mergeTail (h : dev.Accounts t total) :
    (mergeTail dev).Accounts t.startCall total := by
  obtain ⟨htidy, hbuffers⟩ := buffers_mergeTail h.tidy
  have hoverruns : (AbrekMouse.mergeTail dev).dev.evTailOverruns = dev.evTailOverruns := by
    cases hpending : dev.hasPendingMotion with
    | true => rw [mergeTail_eq hpending]
    | false =>
        unfold AbrekMouse.mergeTail
        rw [hpending, if_neg Bool.false_ne_true]
  have hall : dev.buffers.startCall.all.length = dev.buffers.all.length := by
    simp [Buffers.startCall, Buffers.all, buffers, Call.buffers]
  refine ⟨htidy, hbuffers ▸ h.counts.startCall, ?_⟩
  rw [hbuffers, hoverruns, hall]
  exact h.total

theorem Accounts.finish {c c' : Call M} (h : c.Accounts t total)
    (hok : finish answers c = .ok c') : c'.dev.Accounts t.endCall total := by
  obtain ⟨htidy, hbuffers⟩ := buffers_finish h.tidy hok
  obtain ⟨uinput, hdev, -⟩ := finish_eq_ok h.tidy.accel hok
  have hoverruns : c'.dev.evTailOverruns = c.dev.evTailOverruns + c.buffers.excess := by
    rw [hdev]
    exact Call.park_overruns
  have hfill := c.buffers.fill_length (h.counts.parked ▸ h.counts.bound)
  have hall : c.buffers.endCall.all.length + c.buffers.excess = c.buffers.all.length := by
    simp only [Buffers.endCall, Buffers.all, Buffers.excess, List.length_append, List.length_nil,
      hfill]
    omega
  have hcounts : t.endCall.Counts c'.dev.buffers := hbuffers ▸ h.counts.endCall
  refine ⟨htidy, hcounts, ?_⟩
  have hbefore := h.total
  have hend : c'.dev.buffers.all.length + c'.dev.evTailOverruns + t.refused = total := by
    rw [hbuffers, hoverruns]
    omega
  exact hend

end InputDevice

/-! ## Runs -/

theorem Tally.run_append (t : Tally) (calls : List (List OutEvent)) (es : List OutEvent) :
    t.run (calls ++ [es]) = (t.run calls).call es := by
  rw [run, run, List.foldl_append]
  rfl

/-- Calls that read nothing are refused nothing. -/
theorem Tally.refused_run_of_nil {calls : List (List OutEvent)} (h : ∀ es ∈ calls, es = []) :
    ∀ t : Tally, (t.run calls).refused = t.refused := by
  induction calls with
  | nil => exact fun _ => rfl
  | cons es calls ih =>
      intro t
      obtain rfl := h es List.mem_cons_self
      exact ih (fun fs hfs => h fs (List.mem_cons_of_mem _ hfs)) (t.call [])

/-- The window is open where the events say so. -/
theorem AccelStep.window {c c' : Call M} {ev : InputEvent} (h : c.Tidy)
    (hstep : AccelStep E c ev c') :
    c'.dev.synDropped = windowAfter c.dev.synDropped ev.toOutEvent := by
  have hbuffers := (Call.buffers_accelStep h hstep).2
  exact (congrArg Buffers.dropped hbuffers).trans Buffers.event_dropped

/-- **Wherever the calls are cut**, every event outside the windows is accounted for. -/
theorem Midway.accounts {dev : InputDevice M} {calls : List (List InputEvent)}
    {es : List InputEvent} {c : Call M} (h : Midway E answers dev calls es c) {t : Tally}
    {total : ℕ} (hstart : dev.Accounts t total) :
    c.Accounts ((es.map InputEvent.toOutEvent).foldl Tally.event
        (t.run (calls.map (List.map InputEvent.toOutEvent))).startCall)
      (total + (outside dev.synDropped
        ((calls.flatten ++ es).map InputEvent.toOutEvent)).length) ∧
    c.dev.synDropped =
      ((calls.flatten ++ es).map InputEvent.toOutEvent).foldl windowAfter dev.synDropped := by
  have hmerge : ∀ d : InputDevice M, (mergeTail d).dev.synDropped = d.synDropped := by
    intro d
    unfold mergeTail
    split_ifs <;> rfl
  induction h with
  | start => exact ⟨hstart.mergeTail, hmerge dev⟩
  | @event calls es c c' ev hc hok ih =>
      obtain ⟨haccounts, hwindow⟩ := ih
      have hevent := haccounts.event hok
      have hafter := (accelStep_of_ok haccounts.tidy.accel haccounts.tidy.out hok).window
        haccounts.tidy
      rw [← List.append_assoc, List.map_append, List.map_append, List.foldl_append,
        List.foldl_append, outside_append, ← hwindow, List.length_append, ← Nat.add_assoc]
      refine ⟨?_, hafter⟩
      rw [List.map_singleton, outside, outside, List.append_nil]
      exact hevent
  | disconnect hc ih =>
      obtain ⟨haccounts, hwindow⟩ := ih
      exact ⟨⟨haccounts.tidy.disconnect, haccounts.counts, haccounts.total⟩, hwindow⟩
  | @next calls es c c' hc hfinish ih =>
      obtain ⟨haccounts, hwindow⟩ := ih
      have hend := InputDevice.Accounts.finish haccounts hfinish
      obtain ⟨uinput, hdev, -⟩ := finish_eq_ok haccounts.tidy.accel hfinish
      have hflatten : (calls ++ [es]).flatten ++ [] = calls.flatten ++ es := by simp
      rw [hflatten, hmerge, hdev, Call.park_dev.2.2, @List.map_append _ _ _ calls [es],
        List.map_singleton, Tally.run_append]
      rw [hdev] at hend
      exact ⟨hend.mergeTail, hwindow⟩

/-- What a run leaves uncounted is what the queue has refused. -/
theorem InputDevice.accounts_run {dev dev' : InputDevice M} {calls : List (List ReadResult)}
    {t : Tally} {total : ℕ} (h : dev.Accounts t total)
    (hok : dev.run E answers calls = .ok dev') :
    dev'.Accounts (t.run (calls.map dev.events))
      (total + (outside dev.synDropped (calls.flatMap dev.events)).length) := by
  have hcalls : calls.map dev.events =
      (calls.map dev.inputs).map (List.map InputEvent.toOutEvent) := by
    rw [events_eq, List.map_map]
    rfl
  rw [flatMap_events, hcalls, List.flatMap_def]
  have hsettled := settled_run h.tidy.uidev hok
  generalize calls.map dev.inputs = reads at hsettled ⊢
  cases hsettled with
  | start => exact h
  | @call done es c c' hc hfinish =>
      have hend := Accounts.finish (hc.accounts h).1 hfinish
      rw [List.map_append, List.map_singleton, Tally.run_append, List.flatten_append,
        List.flatten_singleton]
      exact hend

/-- **The counter tells of every event that is dropped** in accel mode, as long as no write
fails, just when none comes that the queue refuses. -/
theorem dropped_counted (dev dev' : InputDevice M) (calls : List (List ReadResult))
    (haccel : dev.rawPassthrough = false) (hparked : dev.pendingEvents.evs = [])
    (hok : dev.run E answers calls = .ok dev') :
    (nonMotion dev.uinput.written).length +
        (outside dev.synDropped (calls.flatMap dev.events)).length + dev.evTailOverruns =
      (nonMotion dev'.uinput.written).length + dev'.pendingEvents.evs.length +
        dev'.evTailOverruns ↔
      Roomy dev.synDropped (calls.map dev.events) := by
  cases huidev : dev.hasUidev with
  | false =>
      obtain ⟨rfl, hinputs⟩ := InputDevice.run_idle huidev hok
      have hevents : ∀ reads, dev'.events reads = [] := by simp [InputDevice.events_eq, hinputs]
      have hnone : calls.flatMap dev'.events = [] := by simp [hevents]
      have hcall : ∀ es ∈ calls.map dev'.events, es = [] := by simp [hevents]
      refine iff_of_true ?_ (Tally.refused_run_of_nil hcall _)
      rw [hnone, hparked]
      rfl
  | true =>
      have htidy : dev.Tidy := ⟨huidev, haccel, rfl, fun h => absurd hparked h,
        by simp [hparked], fun e he => (by cases he)⟩
      have hcounts : Tally.Counts { dropped := dev.synDropped } dev.buffers :=
        ⟨Nat.zero_le _, by simp [InputDevice.buffers, Call.buffers, hparked], rfl, rfl⟩
      have hstart : dev.Accounts { dropped := dev.synDropped }
          ((nonMotion dev.uinput.written).length + dev.evTailOverruns) := by
        refine ⟨htidy, hcounts, ?_⟩
        simp [Buffers.all, Call.buffers, hparked]
      have htotal := (InputDevice.accounts_run hstart hok).total
      have hall : (({ dev := dev' } : Call M).buffers.all).length =
          (nonMotion dev'.uinput.written).length + dev'.pendingEvents.evs.length := by
        simp [Buffers.all, Call.buffers]
      rw [hall] at htotal
      unfold Roomy
      constructor
      · intro hequal
        dsimp only at htotal
        omega
      · intro hnone
        rw [hnone] at htotal
        dsimp only at htotal
        omega

def wheel (value : ℤ) : InputEvent := ⟨⟨evRel, 8, value⟩, 0, 0⟩

/-- Ten buttons before a window and ten behind it. -/
def tenAndTen : List (List ReadResult) :=
  [[.got (List.replicate 10 (btnLeft 1) ++ [synOf synDropped, synOf synReport] ++
    List.replicate 10 (btnLeft 0))]]

/-- Sixteen are parked, and four are counted. -/
theorem dropped_counted_tenAndTen :
    ∃ dev', idleMouse.run MotionEngine.still takesAll tenAndTen = .ok dev' ∧
      dev'.evTailOverruns = 4 ∧
      (nonMotion idleMouse.uinput.written).length +
          (outside idleMouse.synDropped (tenAndTen.flatMap idleMouse.events)).length +
          idleMouse.evTailOverruns =
        (nonMotion dev'.uinput.written).length + dev'.pendingEvents.evs.length +
          dev'.evTailOverruns := by
  have hrun : (idleMouse.run MotionEngine.still takesAll tenAndTen).toOption.any
      (fun dev' => dev'.evTailOverruns = 4) = true := by
    decide +kernel
  obtain ⟨dev', hok, hfour⟩ := InputDevice.run_eq_ok_of_any hrun
  exact ⟨dev', hok, of_decide_eq_true hfour,
    (dropped_counted idleMouse dev' tenAndTen rfl rfl hok).mpr (by decide +kernel)⟩

/-- Of seventeen wheel events in a frame one is dropped, and the counter stays at zero. -/
theorem wheel_dropped_uncounted :
    ¬∀ calls dev', idleMouse.run MotionEngine.still takesAll calls = .ok dev' →
      (nonMotion idleMouse.uinput.written).length +
          (outside idleMouse.synDropped (calls.flatMap idleMouse.events)).length +
          idleMouse.evTailOverruns =
        (nonMotion dev'.uinput.written).length + dev'.pendingEvents.evs.length +
          dev'.evTailOverruns := by
  intro hall
  have hrun : (idleMouse.run MotionEngine.still takesAll
      [[.got (List.replicate 17 (wheel 1) ++ [synOf synReport])]]).toOption.any
      (fun dev' => (nonMotion dev'.uinput.written).length + dev'.pendingEvents.evs.length +
        dev'.evTailOverruns = 16) = true := by
    decide +kernel
  obtain ⟨dev', hok, hsixteen⟩ := InputDevice.run_eq_ok_of_any hrun
  have hcounted := hall _ dev' hok
  rw [of_decide_eq_true hsixteen] at hcounted
  exact absurd hcounted (by decide +kernel)

end AbrekMouse
