import AbrekMouse.Checked
import AbrekMouse.Config

/-! # Writing to the virtual device

Events go out through a non-blocking descriptor.  A write may be cut short or refused
for a while, so `uinputWriteRetry` tries again a bounded number of times; what the
system answers to the n-th call of `write` is a parameter.  A frame is gathered in a
`WriteBatch` and goes out in one write.

`Output` is a batch with the device it is for.  Its operations return `.error` where
the code marks the device as disconnected.
-/
namespace AbrekMouse
open ProgLib

/-! ## Events -/

/-- The part of an `input_event` that a write passes on. -/
structure OutEvent where
  type : UInt16
  code : UInt16
  value : ℤ
deriving DecidableEq

/-- `input_event`, its time as the two numbers that the code casts to `uint64_t`. -/
structure InputEvent extends OutEvent where
  sec : UInt64 := 0
  usec : UInt64 := 0
deriving DecidableEq

/-- `EV_SYN`. -/
def evSyn : UInt16 := 0

/-- `EV_KEY`. -/
def evKey : UInt16 := 1

/-- `EV_REL`. -/
def evRel : UInt16 := 2

/-- `SYN_REPORT`. -/
def synReport : UInt16 := 0

/-- `SYN_DROPPED`. -/
def synDropped : UInt16 := 3

/-- `REL_X`. -/
def relX : UInt16 := 0

/-- `REL_Y`. -/
def relY : UInt16 := 1

/-- A relative movement of an axis. -/
def OutEvent.rel (code : UInt16) (value : ℤ) : OutEvent := ⟨evRel, code, value⟩

/-- The end of a frame. -/
def OutEvent.syn : OutEvent := ⟨evSyn, synReport, 0⟩

/-- Zero stands for an event without a time. -/
def InputEvent.frameEvUs (e : InputEvent) : UInt64 :=
  if e.sec ≠ 0 ∨ e.usec ≠ 0 then e.sec * 1000000 + e.usec else 0

/-- `kPendingEventsMax`. -/
def pendingEventsMax : ℕ := 16

/-- `sizeof(input_event)`. -/
def inputEventSize : ℕ := 24

/-- `std::array<Ev, kPendingEventsMax>` with its count. -/
structure EventBuffer (Ev : Type) where
  evs : List Ev := []
  bound : evs.length ≤ pendingEventsMax := by exact Nat.zero_le _

namespace EventBuffer
variable {Ev : Type} (b : EventBuffer Ev)

/-- One more event, if there is room for it. -/
def add (e : Ev) : Option (EventBuffer Ev) :=
  if h : b.evs.length < pendingEventsMax then
    some ⟨b.evs ++ [e], by rw [List.length_append]; exact h⟩
  else none

/-- What fits of `evs` goes behind what is there. -/
def fill (evs : List Ev) : EventBuffer Ev :=
  ⟨b.evs ++ evs.take (pendingEventsMax - b.evs.length), by
    have hbound := b.bound
    rw [List.length_append, List.length_take]
    omega⟩

variable {b}

theorem add_eq_some {b' : EventBuffer Ev} {e : Ev} (h : b.add e = some b') :
    b.evs.length < pendingEventsMax ∧ b'.evs = b.evs ++ [e] := by
  unfold add at h
  split_ifs at h with hroom
  cases h
  exact ⟨hroom, rfl⟩

theorem add_eq_none {e : Ev} (h : b.add e = none) : ¬b.evs.length < pendingEventsMax := by
  unfold add at h
  split_ifs at h with hroom
  exact hroom

end EventBuffer

/-! ## The descriptor -/

/-- How a `write` to the device ends. -/
inductive WriteResult
  | wrote (bytes : ℕ)
  | interrupted
  | again
  | failed

/-- A `libevdev_uinput` device, and what it has been given. -/
structure Uinput where
  fd : ℤ
  written : List OutEvent := []
  /-- How often `write` was called. -/
  writes : ℕ := 0
  /-- How many flushes of a batch were timed for the latency histogram (`on_write_us`). -/
  timed : ℕ := 0

/-- The writes of one call, at most. -/
def maxAttempts : ℕ := 32

/-- The pauses of one call, at most. -/
def maxEagainSleeps : ℕ := 2

variable (answers : ℕ → WriteResult)

/-- What `uinput_write_retry` keeps from one write to the next. -/
structure WriteState where
  eagainSleeps : ℕ := 0
  done : ℕ := 0
  writes : ℕ

/-- The loop of `uinput_write_retry`, with what is left of its attempts. -/
def writeLoop (nbytes : ℕ) : ℕ → WriteState → Bool × WriteState
  | 0, s => (false, s)
  | attempts + 1, s =>
      let next := { s with writes := s.writes + 1 }
      match answers s.writes with
      | .interrupted => writeLoop nbytes attempts next
      | .again =>
          if s.eagainSleeps + 1 > maxEagainSleeps then (false, next)
          else writeLoop nbytes attempts { next with eagainSleeps := s.eagainSleeps + 1 }
      | .failed => (false, next)
      | .wrote 0 => (false, next)
      | .wrote got =>
          if nbytes ≤ s.done + got then (true, { next with done := s.done + got })
          else writeLoop nbytes attempts { next with done := s.done + got }

/-- The bytes of the events go out in order; an event counts once all of it is out. -/
def Uinput.uinputWriteRetry (evs : List OutEvent) (u : Uinput) : Bool × Uinput :=
  let (ok, s) := writeLoop answers (evs.length * inputEventSize) maxAttempts { writes := u.writes }
  (ok, { u with written := u.written ++ evs.take (s.done / inputEventSize), writes := s.writes })

variable {answers}

theorem writeLoop_done {nbytes : ℕ} :
    ∀ {attempts : ℕ} {s : WriteState}, (writeLoop answers nbytes attempts s).1 = true →
      nbytes ≤ (writeLoop answers nbytes attempts s).2.done
  | 0, _, h => by cases h
  | attempts + 1, s, h => by
      unfold writeLoop at h ⊢
      cases hanswer : answers s.writes with
      | interrupted =>
          simp only [hanswer] at h ⊢
          exact writeLoop_done h
      | again =>
          simp only [hanswer] at h ⊢
          split_ifs at h ⊢
          · exact writeLoop_done h
      | failed => simp only [hanswer, Bool.false_eq_true] at h
      | wrote got =>
          cases got with
          | zero => simp only [hanswer, Bool.false_eq_true] at h
          | succ got =>
              simp only [hanswer] at h ⊢
              split_ifs at h ⊢ with hall
              · exact hall
              · exact writeLoop_done h

/-- A write that succeeds puts out all of its events. -/
theorem Uinput.written_uinputWriteRetry {evs : List OutEvent} {u : Uinput}
    (h : (u.uinputWriteRetry answers evs).1 = true) :
    (u.uinputWriteRetry answers evs).2.written = u.written ++ evs := by
  have hdone : evs.length * inputEventSize ≤ (writeLoop answers (evs.length * inputEventSize)
      maxAttempts { writes := u.writes }).2.done := writeLoop_done h
  have hall := (Nat.le_div_iff_mul_le (by decide : 0 < inputEventSize)).mpr hdone
  simp only [uinputWriteRetry, List.take_of_length_le hall]

/-! ## The batch -/

/-- `write_batch`. -/
abbrev WriteBatch := EventBuffer OutEvent

/-- A batch and the device it is for. -/
structure Output where
  uinput : Uinput
  batch : WriteBatch := {}

namespace Output
variable (answers) (o : Output)

/-- What was written and what is in the batch, as one stream. -/
def stream : List OutEvent := o.uinput.written ++ o.batch.evs

/-- A write to the device that leaves the batch alone. -/
def write (evs : List OutEvent) : Except Output Output :=
  if o.uinput.fd < 0 then .error o
  else
    match o.uinput.uinputWriteRetry answers evs with
    | (true, uinput) => .ok { o with uinput := uinput }
    | (false, uinput) => .error { o with uinput := uinput }

/-- `flush`; without a descriptor the batch stays. -/
def flush : Except Output Output :=
  if o.batch.evs = [] then .ok o
  else if o.uinput.fd < 0 then .error o
  else
    match o.write answers o.batch.evs with
    | .ok o => .ok { o with batch := {}, uinput := { o.uinput with timed := o.uinput.timed + 1 } }
    | .error o =>
        .error { o with batch := {}, uinput := { o.uinput with timed := o.uinput.timed + 1 } }

def add (e : OutEvent) : Except Output Output :=
  match o.batch.add e with
  | some batch => .ok { o with batch := batch }
  | none => .error o

/-- `add_flush_if_full`; `flush_queued` spells it out. -/
def addFlushIfFull (e : OutEvent) : Except Output Output :=
  if o.batch.evs.length ≥ pendingEventsMax then do
    let o ← o.flush answers
    o.add e
  else o.add e

/-- One axis of `add_rel`; a zero is left out. -/
def addAxis (code : UInt16) (v : ℤ) : Except Output Output :=
  if v ≠ 0 then o.addFlushIfFull answers (.rel code v) else .ok o

/-- `add_rel`: an axis that has not moved adds nothing. -/
def addRel (x y : ℤ) : Except Output Output :=
  o.addAxis answers relX x >>= fun o => o.addAxis answers relY y

/-- `add_syn`. -/
def addSyn : Except Output Output := o.addFlushIfFull answers .syn

variable {answers} {o o' : Output}

theorem write_ok {evs : List OutEvent} (h : o.write answers evs = .ok o') :
    o'.uinput.written = o.uinput.written ++ evs ∧ o'.batch = o.batch := by
  unfold write at h
  split_ifs at h
  split at h
  · rename_i uinput hwrite
    cases h
    have hall := Uinput.written_uinputWriteRetry (congrArg Prod.fst hwrite)
    rw [hwrite] at hall
    exact ⟨hall, rfl⟩
  · cases h

/-- A flush empties the batch and leaves the stream as it is. -/
theorem flush_ok (h : o.flush answers = .ok o') : o'.stream = o.stream ∧ o'.batch.evs = [] := by
  unfold flush at h
  split_ifs at h with hempty
  · cases h
    exact ⟨rfl, hempty⟩
  · cases hwrite : o.write answers o.batch.evs with
    | error p =>
        rw [hwrite] at h
        cases h
    | ok p =>
        rw [hwrite] at h
        cases h
        refine ⟨?_, rfl⟩
        rw [stream, List.append_nil]
        exact (write_ok hwrite).1

theorem add_ok {e : OutEvent} (h : o.add e = .ok o') : o'.stream = o.stream ++ [e] := by
  unfold add at h
  split at h
  · rename_i batch hadd
    cases h
    simp only [stream, (EventBuffer.add_eq_some hadd).2, List.append_assoc]
  · cases h

/-- An event that is added is the next of the stream, with or without a flush. -/
theorem addFlushIfFull_ok {e : OutEvent} (h : o.addFlushIfFull answers e = .ok o') :
    o'.stream = o.stream ++ [e] := by
  unfold addFlushIfFull at h
  split_ifs at h
  · obtain ⟨p, hflush, hadd⟩ := Except.bind_eq_ok_iff.mp h
    rw [add_ok hadd, (flush_ok hflush).1]
  · exact add_ok h

theorem addAxis_ok {code : UInt16} {v : ℤ} (h : o.addAxis answers code v = .ok o') :
    o'.stream = o.stream ++ (if v ≠ 0 then [.rel code v] else []) := by
  unfold addAxis at h
  split_ifs at h ⊢
  · exact addFlushIfFull_ok h
  · cases h
    rw [List.append_nil]

theorem addRel_ok {x y : ℤ} (h : o.addRel answers x y = .ok o') :
    o'.stream = o.stream ++ (if x ≠ 0 then [.rel relX x] else []) ++
      (if y ≠ 0 then [.rel relY y] else []) := by
  obtain ⟨p, hx, hy⟩ := Except.bind_eq_ok_iff.mp h
  rw [addAxis_ok hy, addAxis_ok hx]

end Output
end AbrekMouse
