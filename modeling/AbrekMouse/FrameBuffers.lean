import AbrekMouse.Uinput

/-! # The events of a frame on their way

The buttons and the wheel, and whatever else is neither motion nor a boundary, are
queued until the end of their frame and parked between two calls.  Here this is told
with lists alone: `Buffers` holds what was written, what is parked and what is queued,
in the order in which the code would put it out, and `outside` is what should come out.

`Load` counts the parked and the queued events of an input and stops where they do not
fit.  As long as it goes on, nothing is lost and nothing overtakes; once it stops,
events that can be told apart never come out right again (`tracks_run`).
-/
namespace AbrekMouse
open ProgLib

/-! ## Kinds of events -/

namespace OutEvent
variable (e : OutEvent)

/-- The kernel has dropped events here. -/
def IsDropped : Prop := e.type = evSyn ∧ e.code = synDropped

/-- A frame ends here. -/
def IsReport : Prop := e.type = evSyn ∧ e.code = synReport

/-- A movement, which is summed and not queued. -/
def IsMotion : Prop := e.type = evRel ∧ (e.code = relX ∨ e.code = relY)

instance : Decidable e.IsDropped := inferInstanceAs (Decidable (_ ∧ _))
instance : Decidable e.IsReport := inferInstanceAs (Decidable (_ ∧ _))
instance : Decidable e.IsMotion := inferInstanceAs (Decidable (_ ∧ _))

/-- A button, a wheel or anything else that a frame passes on. -/
def nonMotion : Bool := !(e.IsMotion ∨ e.IsReport ∨ e.IsDropped)

/-- The events that are dropped where the queue is full. -/
def IsLossy : Prop := e.type = evSyn ∨ e.type = evRel

instance : Decidable e.IsLossy := inferInstanceAs (Decidable (_ ∨ _))

variable {e}

theorem nonMotion_iff : e.nonMotion = true ↔ ¬e.IsMotion ∧ ¬e.IsReport ∧ ¬e.IsDropped := by
  simp [nonMotion]

theorem IsReport.not_isDropped (h : e.IsReport) : ¬e.IsDropped :=
  fun hdrop => absurd (h.2.symm.trans hdrop.2) (by decide)

theorem IsMotion.not_boundary (h : e.IsMotion) : ¬e.IsReport ∧ ¬e.IsDropped :=
  ⟨fun hreport => absurd (h.1.symm.trans hreport.1) (by decide),
    fun hdrop => absurd (h.1.symm.trans hdrop.1) (by decide)⟩

end OutEvent

/-! ## What should come out -/

/-- A window is open from `SYN_DROPPED` to the next `SYN_REPORT`. -/
def windowAfter (dropped : Bool) (e : OutEvent) : Bool :=
  if e.IsDropped then true else if e.IsReport then false else dropped

/-- The event, if it is to be passed on. -/
def passed (dropped : Bool) (e : OutEvent) : List OutEvent :=
  if !dropped && e.nonMotion then [e] else []

/-- The non-motion events outside every window, in source order. -/
def outside : Bool → List OutEvent → List OutEvent
  | _, [] => []
  | dropped, e :: es => passed dropped e ++ outside (windowAfter dropped e) es

/-! ## The buffers -/

/-- The events that have been written, those that are parked in the device, and those that the
call has queued. -/
structure Buffers where
  written : List OutEvent
  parked : List OutEvent
  queued : List OutEvent
  dropped : Bool

namespace Buffers
variable (b : Buffers)

/-- What fits goes behind what is parked. -/
def fill : List OutEvent := b.parked ++ b.queued.take (pendingEventsMax - b.parked.length)

def event (e : OutEvent) : Buffers :=
  if e.IsDropped then { b with parked := b.fill, queued := [], dropped := true }
  else if b.dropped then { b with dropped := !decide e.IsReport }
  else if e.IsReport then { b with written := b.written ++ b.queued, queued := [] }
  else if e.IsMotion then b
  else if b.queued.length < pendingEventsMax then { b with queued := b.queued ++ [e] }
  else if e.IsLossy then b
  else { b with written := b.written ++ (b.queued ++ [e]), queued := [] }

/-- What was parked is queued first. -/
def startCall : Buffers := { b with parked := [], queued := b.parked }

def endCall : Buffers := { b with parked := b.fill, queued := [] }

def call (es : List OutEvent) : Buffers := (es.foldl event b.startCall).endCall

def run (calls : List (List OutEvent)) : Buffers := calls.foldl call b

/-- All of it, in the order of the source. -/
def all : List OutEvent := b.written ++ (b.parked ++ b.queued)

end Buffers

/-! ## The load -/

/-- How much of an input is parked and queued. -/
structure Load where
  parked : ℕ := 0
  queued : ℕ := 0
  dropped : Bool

namespace Load
variable (l : Load)

def event (e : OutEvent) : Option Load :=
  if e.IsDropped then
    if l.parked + l.queued ≤ pendingEventsMax then some ⟨l.parked + l.queued, 0, true⟩ else none
  else if l.dropped then some { l with dropped := !decide e.IsReport }
  else if e.IsReport then
    if l.parked = 0 ∨ l.queued = 0 then some { l with queued := 0 } else none
  else if e.IsMotion then some l
  else if l.queued < pendingEventsMax then some { l with queued := l.queued + 1 }
  else if e.IsLossy then none
  else if l.parked = 0 then some { l with queued := 0 } else none

def startCall : Load := ⟨0, l.parked, l.dropped⟩

def endCall : Option Load :=
  if l.parked + l.queued ≤ pendingEventsMax then some ⟨l.parked + l.queued, 0, l.dropped⟩
  else none

end Load

/-- A call, unless the load has stopped. -/
def loadCall (l : Option Load) (es : List OutEvent) : Option Load :=
  (es.foldl (fun l e => l.bind fun l => l.event e) (l.map Load.startCall)).bind Load.endCall

/-- The input fits: at a `SYN_DROPPED` and at the end of a call at most
`pendingEventsMax` events are parked and queued; an event that would be lost finds room
in the queue; and what is queued is written only while nothing is parked. -/
def Fits (dropped : Bool) (calls : List (List OutEvent)) : Prop :=
  (calls.foldl loadCall (some { dropped := dropped })).isSome

instance (dropped : Bool) (calls : List (List OutEvent)) : Decidable (Fits dropped calls) :=
  inferInstanceAs (Decidable (_ = true))

/-! ## Keeping track -/

/-- The buffers hold all of `s`, behind what was written before. -/
structure Exact (before s : List OutEvent) (b : Buffers) : Prop where
  written : before <+: b.written
  all : b.all = before ++ s

/-- The numbers are those of the buffers, and what is parked fits. -/
structure Load.Counts (l : Load) (b : Buffers) : Prop where
  bound : l.parked ≤ pendingEventsMax
  parked : l.parked = b.parked.length
  queued : l.queued = b.queued.length
  dropped : l.dropped = b.dropped

/-- An event is missing, or one that was written is out of place. -/
structure Broken (before s : List OutEvent) (b : Buffers) : Prop where
  length_le : b.all.length ≤ (before ++ s).length
  broken : b.all.length < (before ++ s).length ∨ ¬b.written <+: before ++ s

/-- What the load says about the buffers after the input `s`. -/
def Tracks (before s : List OutEvent) (b : Buffers) : Option Load → Prop
  | some l => l.Counts b ∧ Exact before s b
  | none => s.Nodup → Broken before s b

variable {before s : List OutEvent} {b b' : Buffers} {l : Load} {e : OutEvent}

/-- What is broken stays so, because what was written stays and an event that is
missing is not made up for. -/
theorem Broken.mono {t : List OutEvent} (h : Broken before s b)
    (hwritten : b.written <+: b'.written)
    (hlength : b'.all.length ≤ b.all.length + t.length) : Broken before (s ++ t) b' := by
  obtain ⟨hle, hbroken⟩ := h
  simp only [List.length_append] at hle
  refine ⟨by simp only [List.length_append]; omega, ?_⟩
  rcases hbroken with hmissing | hplace
  · left
    simp only [List.length_append] at hmissing ⊢
    omega
  · right
    intro hprefix
    refine hplace (List.prefix_of_prefix_length_le (hwritten.trans hprefix) ?_ ?_)
    · rw [← List.append_assoc]
      exact List.prefix_append _ _
    · simp only [Buffers.all, List.length_append] at hle ⊢
      omega

/-- Writing what is queued past something that is parked puts it out of place. -/
theorem Exact.broken_of_overtake {t u : List OutEvent} (h : Exact before s b)
    (hparked : b.parked ≠ []) (hqueued : b.queued ≠ []) (hs : (s ++ t).Nodup)
    (hwritten : b'.written = b.written ++ (b.queued ++ u))
    (hlength : b'.all.length ≤ b.all.length + t.length) : Broken before (s ++ t) b' := by
  have hle := congrArg List.length h.all
  refine ⟨by simp only [List.length_append] at hle ⊢; omega, .inr fun hprefix => ?_⟩
  obtain ⟨w, hw⟩ := h.written
  obtain ⟨p, ps, hp⟩ := List.exists_cons_of_ne_nil hparked
  obtain ⟨q, qs, hq⟩ := List.exists_cons_of_ne_nil hqueued
  have hall := h.all
  rw [Buffers.all, ← hw, List.append_assoc, List.append_cancel_left_eq, hp, hq] at hall
  rw [hwritten, ← hw, ← hall, hq] at hprefix
  simp only [List.append_assoc, List.cons_append, List.prefix_append_right_inj,
    List.cons_prefix_cons] at hprefix
  obtain ⟨rfl, -⟩ := hprefix
  rw [← hall, List.append_assoc] at hs
  have htail := (List.nodup_append.mp hs).2.1
  exact (List.nodup_cons.mp htail).1 (by simp)

namespace Buffers

theorem fill_length_le : b.fill.length ≤ b.parked.length + b.queued.length := by
  simp only [fill, List.length_append, List.length_take]
  omega

theorem fill_of_le (h : b.parked.length + b.queued.length ≤ pendingEventsMax) :
    b.fill = b.parked ++ b.queued := by
  rw [fill, List.take_of_length_le (by omega)]

theorem fill_length_lt (hbound : b.parked.length ≤ pendingEventsMax)
    (h : ¬b.parked.length + b.queued.length ≤ pendingEventsMax) :
    b.fill.length < b.parked.length + b.queued.length := by
  simp only [fill, List.length_append, List.length_take]
  omega

/-- The window opens and closes as it should. -/
theorem event_dropped : (b.event e).dropped = windowAfter b.dropped e := by
  unfold event windowAfter
  split_ifs <;> simp_all

theorem written_event : b.written <+: (b.event e).written := by
  unfold event
  split_ifs <;> simp

theorem all_event_length : (b.event e).all.length ≤ b.all.length + (passed b.dropped e).length := by
  have hfill := fill_length_le (b := b)
  unfold event passed OutEvent.nonMotion all
  split_ifs <;> simp_all <;> omega

end Buffers

theorem Exact.append {t : List OutEvent} (h : Exact before s b)
    (hwritten : b.written <+: b'.written)
    (hall : b'.all = b.all ++ t) : Exact before (s ++ t) b' where
  written := h.written.trans hwritten
  all := by rw [hall, h.all, List.append_assoc]

theorem Exact.broken_of_missing {t : List OutEvent} (h : Exact before s b)
    (hlength : b'.all.length < b.all.length + t.length) : Broken before (s ++ t) b' := by
  have hall := congrArg List.length h.all
  simp only [List.length_append] at hall
  constructor
  · simp only [List.length_append]
    omega
  · left
    simp only [List.length_append]
    omega

/-- One event, by the branches of the code. -/
theorem tracks_event_some (hcounts : l.Counts b) (hexact : Exact before s b) :
    Tracks before (s ++ passed b.dropped e) (b.event e) (l.event e) := by
  obtain ⟨hbound, hparked, hqueued, hdropped⟩ := hcounts
  have hlength : (b.event e).all.length ≤ _ := Buffers.all_event_length
  by_cases hdrop : e.IsDropped
  · have hpassed : passed b.dropped e = [] := by simp [passed, OutEvent.nonMotion, hdrop]
    by_cases hfit : b.parked.length + b.queued.length ≤ pendingEventsMax
    · simp only [Load.event, Buffers.event, hpassed, hdrop, hparked, hqueued, hfit, if_true]
      refine ⟨⟨hfit, ?_, rfl, rfl⟩, hexact.append (List.prefix_refl _) ?_⟩
      · simp only [Buffers.fill_of_le hfit, List.length_append]
      · simp only [Buffers.all, Buffers.fill_of_le hfit, List.append_nil]
    · have hlost := Buffers.fill_length_lt (hparked ▸ hbound) hfit
      simp only [Load.event, Buffers.event, hpassed, hdrop, hparked, hqueued, hfit, if_true,
        if_false]
      refine fun _ => hexact.broken_of_missing ?_
      simp only [Buffers.all, List.length_append, List.length_nil]
      omega
  by_cases hwindow : b.dropped = true
  · simp only [Load.event, Buffers.event, passed, hdrop, hdropped, hwindow, if_true, if_false,
      Bool.not_true, Bool.false_and, Bool.false_eq_true]
    exact ⟨⟨hbound, hparked, hqueued, rfl⟩, hexact.append (List.prefix_refl _)
      (by simp only [Buffers.all, List.append_nil])⟩
  by_cases hreport : e.IsReport
  · have hpassed : passed b.dropped e = [] := by simp [passed, OutEvent.nonMotion, hreport]
    rw [hpassed] at hlength ⊢
    by_cases hfree : b.parked.length = 0 ∨ b.queued.length = 0
    · simp only [Load.event, Buffers.event, hdrop, hdropped, hwindow, hreport, hparked, hqueued,
        hfree, if_true, if_false, Bool.false_eq_true]
      refine ⟨⟨hparked ▸ hbound, rfl, rfl, rfl⟩, hexact.append (List.prefix_append _ _) ?_⟩
      rcases hfree with hnil | hnil <;> simp [Buffers.all, List.length_eq_zero_iff.mp hnil]
    · simp only [not_or, List.length_eq_zero_iff] at hfree
      have hstop : l.event e = none := by
        simp [Load.event, hdrop, hdropped, hwindow, hreport, hparked, hqueued, hfree]
      rw [hstop]
      intro hs
      refine hexact.broken_of_overtake hfree.1 hfree.2 hs (u := []) ?_ hlength
      simp [Buffers.event, hdrop, hwindow, hreport]
  by_cases hmotion : e.IsMotion
  · simp only [Load.event, Buffers.event, passed, OutEvent.nonMotion, hdrop, hdropped, hwindow,
      hreport, hmotion, if_true, if_false, Bool.false_eq_true, decide_true, true_or, Bool.not_true,
      Bool.and_false]
    exact ⟨⟨hbound, hparked, hqueued, hdropped.trans (by simp [hwindow])⟩,
      hexact.append (List.prefix_refl _) (List.append_nil _).symm⟩
  have hpassed : passed b.dropped e = [e] := by
    simp [passed, OutEvent.nonMotion, hwindow, hdrop, hreport, hmotion]
  rw [hpassed] at hlength ⊢
  by_cases hroom : b.queued.length < pendingEventsMax
  · simp only [Load.event, Buffers.event, hdrop, hdropped, hwindow, hreport, hmotion, hqueued,
      hroom, if_true, if_false, Bool.false_eq_true]
    refine ⟨⟨hbound, hparked, ?_, rfl⟩, hexact.append (List.prefix_refl _) ?_⟩
    · simp only [List.length_append, List.length_singleton]
    · simp only [Buffers.all, List.append_assoc]
  by_cases hlossy : e.IsLossy
  · simp only [Load.event, Buffers.event, hdrop, hdropped, hwindow, hreport, hmotion, hqueued,
      hroom, hlossy, if_true, if_false, Bool.false_eq_true]
    exact fun _ => hexact.broken_of_missing (by simp)
  by_cases hfree : b.parked = []
  · simp only [Load.event, Buffers.event, hdrop, hdropped, hwindow, hreport, hmotion, hqueued,
      hroom, hlossy, hparked, hfree, List.length_nil, if_true, if_false, Bool.false_eq_true]
    refine ⟨⟨Nat.zero_le _, rfl, rfl, rfl⟩, hexact.append (List.prefix_append _ _) ?_⟩
    simp [Buffers.all, hfree]
  · have hstop : l.event e = none := by
      simp [Load.event, hdrop, hdropped, hwindow, hreport, hmotion, hqueued, hroom, hlossy,
        hparked, hfree]
    have hqueue : b.queued ≠ [] := fun hnil => hroom (by rw [hnil]; decide)
    rw [hstop]
    intro hs
    refine hexact.broken_of_overtake hfree hqueue hs (u := [e]) ?_ hlength
    simp [Buffers.event, hdrop, hwindow, hreport, hmotion, hroom, hlossy]

theorem tracks_event {o : Option Load} (h : Tracks before s b o) :
    Tracks before (s ++ passed b.dropped e) (b.event e) (o.bind fun l => l.event e) := by
  cases o with
  | none =>
      intro hs
      exact (h (List.nodup_append.mp hs).1).mono Buffers.written_event Buffers.all_event_length
  | some l => exact tracks_event_some h.1 h.2

/-! ## Runs -/

theorem outside_append (dropped : Bool) (es fs : List OutEvent) :
    outside dropped (es ++ fs) =
      outside dropped es ++ outside (es.foldl windowAfter dropped) fs := by
  induction es generalizing dropped with
  | nil => rfl
  | cons e es ih =>
      simp only [List.cons_append, outside, ih, List.append_assoc, List.foldl_cons]

theorem Buffers.dropped_foldl (es : List OutEvent) (b : Buffers) :
    (es.foldl event b).dropped = es.foldl windowAfter b.dropped := by
  induction es generalizing b with
  | nil => rfl
  | cons e es ih => rw [List.foldl_cons, ih, event_dropped, List.foldl_cons]

theorem tracks_foldl (es : List OutEvent) {s : List OutEvent} {b : Buffers} {o : Option Load}
    (h : Tracks before s b o) : Tracks before (s ++ outside b.dropped es) (es.foldl Buffers.event b)
      (es.foldl (fun l e => l.bind fun l => l.event e) o) := by
  induction es generalizing s b o with
  | nil => rwa [outside, List.append_nil]
  | cons e es ih =>
      have hstep := ih (tracks_event (e := e) h)
      rwa [List.append_assoc, Buffers.event_dropped] at hstep

/-- A broken input is not mended where only the buffers change their places. -/
theorem Broken.of_le (h : Broken before s b) (hwritten : b'.written = b.written)
    (hlength : b'.all.length ≤ b.all.length) : Broken before s b' := by
  have hmono := h.mono (t := []) (hwritten ▸ List.prefix_refl _) hlength
  rwa [List.append_nil] at hmono

theorem tracks_startCall {o : Option Load} (h : Tracks before s b o) (hqueued : b.queued = []) :
    Tracks before s b.startCall (o.map Load.startCall) := by
  have hall : b.startCall.all = b.all := by
    simp only [Buffers.startCall, Buffers.all, hqueued, List.nil_append, List.append_nil]
  cases o with
  | none => exact fun hs => (h hs).of_le rfl (congrArg List.length hall).le
  | some l =>
      obtain ⟨hcounts, hexact⟩ := h
      exact ⟨⟨Nat.zero_le _, rfl, hcounts.parked, hcounts.dropped⟩,
        ⟨hexact.written, hall.trans hexact.all⟩⟩

theorem tracks_endCall {o : Option Load} (h : Tracks before s b o) :
    Tracks before s b.endCall (o.bind Load.endCall) := by
  have hlength : b.endCall.all.length ≤ b.all.length := by
    have hfill := Buffers.fill_length_le (b := b)
    simp only [Buffers.endCall, Buffers.all, List.length_append, List.length_nil]
    omega
  cases o with
  | none => exact fun hs => (h hs).of_le rfl hlength
  | some l =>
      obtain ⟨⟨hbound, hparked, hqueued, hdropped⟩, hexact⟩ := h
      simp only [Option.bind_some, Load.endCall, hparked, hqueued]
      split_ifs with hfit
      · refine ⟨⟨hfit, ?_, rfl, hdropped⟩, ⟨hexact.written, ?_⟩⟩
        · simp only [Buffers.endCall, Buffers.fill_of_le hfit, List.length_append]
        · simp only [Buffers.endCall, Buffers.all, Buffers.fill_of_le hfit, List.append_nil]
          exact hexact.all
      · intro _
        have hlost := Buffers.fill_length_lt (hparked ▸ hbound) hfit
        have hbroken : Broken before (s ++ []) b.endCall := hexact.broken_of_missing (by
          simp only [Buffers.endCall, Buffers.all, List.length_append, List.length_nil]
          omega)
        rwa [List.append_nil] at hbroken

theorem tracks_call (es : List OutEvent) {o : Option Load} (h : Tracks before s b o)
    (hqueued : b.queued = []) :
    Tracks before (s ++ outside b.dropped es) (b.call es) (loadCall o es) :=
  tracks_endCall (tracks_foldl es (tracks_startCall h hqueued))

/-- **The load tells what becomes of an input.** -/
theorem tracks_run (calls : List (List OutEvent)) {s : List OutEvent} {b : Buffers}
    {o : Option Load} (h : Tracks before s b o) (hqueued : b.queued = []) :
    Tracks before (s ++ outside b.dropped calls.flatten) (b.run calls)
      (calls.foldl loadCall o) := by
  induction calls generalizing s b o with
  | nil => rwa [List.flatten_nil, outside, List.append_nil]
  | cons es calls ih =>
      have hrest := ih (tracks_call es h hqueued) rfl
      rwa [List.append_assoc, show (b.call es).dropped = es.foldl windowAfter b.dropped from
        Buffers.dropped_foldl es b.startCall, ← outside_append, ← List.flatten_cons] at hrest

theorem Buffers.queued_run (calls : List (List OutEvent)) {b : Buffers} (h : b.queued = []) :
    (b.run calls).queued = [] := by
  induction calls generalizing b with
  | nil => exact h
  | cons es calls ih => exact ih rfl

/-- **What fits comes out in order**, and where the events can be told apart nothing
else does. -/
theorem Buffers.run_in_order (b : Buffers) (calls : List (List OutEvent)) (hparked : b.parked = [])
    (hqueued : b.queued = []) :
    (Fits b.dropped calls → (b.run calls).written ++ (b.run calls).parked =
      b.written ++ outside b.dropped calls.flatten) ∧
    ((outside b.dropped calls.flatten).Nodup → (b.run calls).written ++ (b.run calls).parked =
      b.written ++ outside b.dropped calls.flatten → Fits b.dropped calls) := by
  have hstart : Tracks b.written [] b (some { dropped := b.dropped }) := by
    refine ⟨⟨Nat.zero_le _, ?_, ?_, rfl⟩, List.prefix_refl _, ?_⟩
    · rw [hparked, List.length_nil]
    · rw [hqueued, List.length_nil]
    · rw [Buffers.all, hparked, hqueued, List.append_nil]
  have htracks := tracks_run calls hstart hqueued
  rw [List.nil_append] at htracks
  have hall : (b.run calls).all = (b.run calls).written ++ (b.run calls).parked := by
    rw [Buffers.all, Buffers.queued_run calls hqueued, List.append_nil]
  unfold Fits
  cases hload : calls.foldl loadCall (some { dropped := b.dropped }) with
  | some l =>
      rw [hload] at htracks
      exact ⟨fun _ => hall ▸ htracks.2.all, fun _ _ => rfl⟩
  | none =>
      rw [hload] at htracks
      refine ⟨fun hfits => (by cases hfits), fun hnodup hsame => ?_⟩
      rcases (htracks hnodup).broken with hmissing | hplace
      · rw [hall, hsame] at hmissing
        exact absurd hmissing (Nat.lt_irrefl _)
      · exact absurd (hsame ▸ List.prefix_append _ _) hplace

end AbrekMouse
