import AbrekMouse.Uinput
import Mathlib.Data.List.Flatten
import Mathlib.Data.List.TakeDrop

/-! # Frames as bytes

A batch goes out as the bytes of its events, and a write may end in the middle of one.  Here
the descriptor takes bytes, the history keeps each flush with what was accepted of it, and
`FrameOutput` refines `Output`, whose descriptor takes events (`flush_simulates`).

A flush puts out a prefix of its batch, and reports whether it was all of it; what has been
added has left in a flush, in order, or is still there (`frame_output`).
-/
namespace AbrekMouse
open ProgLib

/-! ## Bytes -/

/-- The bytes of a number, the lowest first. -/
def leBytes : ℕ → ℕ → List UInt8
  | 0, _ => []
  | width + 1, n => UInt8.ofNat n :: leBytes width (n / 256)

@[simp] theorem leBytes_length : ∀ width n, (leBytes width n).length = width
  | 0, _ => rfl
  | width + 1, n => congrArg (· + 1) (leBytes_length width (n / 256))

/-- The `input_event` of an event, its time left zero. -/
def OutEvent.bytes (e : OutEvent) : List UInt8 :=
  List.replicate 16 0 ++ leBytes 2 e.type.toNat ++ leBytes 2 e.code.toNat ++
    leBytes 4 (BitVec.ofInt 32 e.value).toNat

@[simp] theorem OutEvent.bytes_length (e : OutEvent) : e.bytes.length = inputEventSize := by
  simp [OutEvent.bytes, inputEventSize]

/-- The bytes of a frame, event by event. -/
def frameBytes (evs : List OutEvent) : List UInt8 := evs.flatMap OutEvent.bytes

theorem frameBytes_length (evs : List OutEvent) :
    (frameBytes evs).length = evs.length * inputEventSize := by
  simp [frameBytes, List.length_flatMap, List.map_const']

theorem frameBytes_append (evs evs' : List OutEvent) :
    frameBytes (evs ++ evs') = frameBytes evs ++ frameBytes evs' := List.flatMap_append

/-! ## The retry loop -/

variable (answers : ℕ → WriteResult)

/-- `WriteState`, with the bytes that the descriptor has accepted. -/
structure RetryState extends WriteState where
  accepted : List UInt8 := []

/-- The loop of `uinput_write_retry`; each write is given what is left of the events. -/
def retryLoop (ev : List UInt8) : ℕ → RetryState → Bool × RetryState
  | 0, s => (false, s)
  | attempts + 1, s =>
      let next := { s with writes := s.writes + 1 }
      match answers s.writes with
      | .interrupted => retryLoop ev attempts next
      | .again =>
          if s.eagainSleeps + 1 > maxEagainSleeps then (false, next)
          else retryLoop ev attempts { next with eagainSleeps := s.eagainSleeps + 1 }
      | .failed => (false, next)
      | .wrote 0 => (false, next)
      | .wrote got =>
          let next := { next with
            done := s.done + got, accepted := s.accepted ++ (ev.drop s.done).take got }
          if ev.length ≤ s.done + got then (true, next) else retryLoop ev attempts next

variable {answers} {ev : List UInt8}

/-- Apart from the bytes it is the loop that counts. -/
theorem retryLoop_counts : ∀ (attempts : ℕ) (s : RetryState),
    writeLoop answers ev.length attempts s.toWriteState =
      ((retryLoop answers ev attempts s).1, (retryLoop answers ev attempts s).2.toWriteState)
  | 0, _ => rfl
  | attempts + 1, s => by
      unfold retryLoop writeLoop
      cases hanswer : answers s.writes with
      | interrupted => exact retryLoop_counts attempts { s with writes := s.writes + 1 }
      | again =>
          dsimp only
          split_ifs
          · rfl
          · exact retryLoop_counts attempts
              { s with writes := s.writes + 1, eagainSleeps := s.eagainSleeps + 1 }
      | failed => rfl
      | wrote got =>
          cases got with
          | zero => rfl
          | succ got =>
              simp only
              split_ifs
              · rfl
              · exact retryLoop_counts attempts
                  { s with
                    writes := s.writes + 1, done := s.done + (got + 1)
                    accepted := s.accepted ++ (ev.drop s.done).take (got + 1) }

/-- What the loop keeps: the accepted bytes are those before the offset, which is inside the
events. -/
structure RetryState.Inside (ev : List UInt8) (s : RetryState) : Prop where
  accepted : s.accepted = ev.take s.done
  inside : s.done < ev.length

/-- What the loop comes to: a part of the events, or all of them. -/
structure Retried (ev : List UInt8) (attempts : ℕ) (s : RetryState) (r : Bool × RetryState) :
    Prop where
  accepted : r.2.accepted = ev.take r.2.done
  complete : r.1 = true ↔ ev.length ≤ r.2.done
  attempts : r.2.writes ≤ s.writes + attempts

/-- An attempt that goes on leaves one less. -/
theorem Retried.of_next {attempts : ℕ} {s next : RetryState} {r : Bool × RetryState}
    (h : Retried ev attempts next r) (hwrites : next.writes = s.writes + 1) :
    Retried ev (attempts + 1) s r where
  accepted := h.accepted
  complete := h.complete
  attempts := by
    have hle := h.attempts
    omega

/-- An attempt that gives up. -/
theorem RetryState.Inside.stop {attempts : ℕ} {s next : RetryState} (h : next.Inside ev)
    (hwrites : next.writes ≤ s.writes + attempts) : Retried ev attempts s (false, next) where
  accepted := h.accepted
  complete := iff_of_false Bool.false_ne_true (Nat.not_le.mpr h.inside)
  attempts := hwrites

theorem RetryState.Inside.retried : ∀ (attempts : ℕ) {s : RetryState}, s.Inside ev →
    Retried ev attempts s (retryLoop answers ev attempts s)
  | 0, _, h => h.stop le_rfl
  | attempts + 1, s, h => by
      have hleft : ∀ sleeps, RetryState.Inside ev
          { s with writes := s.writes + 1, eagainSleeps := sleeps } :=
        fun _ => ⟨h.accepted, h.inside⟩
      unfold retryLoop
      cases hanswer : answers s.writes with
      | interrupted => exact .of_next ((hleft s.eagainSleeps).retried attempts) rfl
      | again =>
          dsimp only
          split_ifs
          · exact (hleft s.eagainSleeps).stop (by dsimp only; omega)
          · exact .of_next ((hleft (s.eagainSleeps + 1)).retried attempts) rfl
      | failed => exact (hleft s.eagainSleeps).stop (by dsimp only; omega)
      | wrote got =>
          cases got with
          | zero => exact (hleft s.eagainSleeps).stop (by dsimp only; omega)
          | succ got =>
              -- the new bytes are those that follow the accepted ones
              have hgrown : s.accepted ++ (ev.drop s.done).take (got + 1) =
                  ev.take (s.done + (got + 1)) := by
                rw [h.accepted]
                exact List.take_add.symm
              simp only
              split_ifs with hall
              · exact ⟨hgrown, iff_of_true rfl hall, by dsimp only; omega⟩
              · have hnext : RetryState.Inside ev
                    { s with
                      writes := s.writes + 1, done := s.done + (got + 1)
                      accepted := s.accepted ++ (ev.drop s.done).take (got + 1) } :=
                  ⟨hgrown, Nat.not_le.mp hall⟩
                exact .of_next (hnext.retried attempts) rfl

/-! ## The batch -/

/-- A flush: the events in the batch, those that leave it, what the descriptor accepts, how
often `write` is called, and the result. -/
structure Flush where
  batch : List OutEvent
  left : List OutEvent
  accepted : List UInt8
  attempts : ℕ
  ok : Bool

/-- A batch with its descriptor, and what has been done with them. -/
structure FrameOutput where
  fd : ℤ
  batch : WriteBatch := {}
  writes : ℕ := 0
  accepted : List UInt8 := []
  added : List OutEvent := []
  flushes : List Flush := []

namespace FrameOutput
variable (answers) (o : FrameOutput)

/-- `flush`: the batch is written and emptied; a failed write loses it, and without a descriptor
it stays. -/
def flush : Bool × FrameOutput :=
  if o.batch.evs = [] then (true, { o with flushes := o.flushes ++ [⟨[], [], [], 0, true⟩] })
  else if o.fd < 0 then
    (false, { o with flushes := o.flushes ++ [⟨o.batch.evs, [], [], 0, false⟩] })
  else
    let (ok, s) := retryLoop answers (frameBytes o.batch.evs) maxAttempts { writes := o.writes }
    (ok, { o with
      batch := {}
      writes := s.writes
      accepted := o.accepted ++ s.accepted
      flushes := o.flushes ++
        [⟨o.batch.evs, o.batch.evs, s.accepted, s.writes - o.writes, ok⟩] })

/-- `add`: false where the batch is full. -/
def add (e : OutEvent) : Bool × FrameOutput :=
  match o.batch.add e with
  | some batch => (true, { o with batch := batch, added := o.added ++ [e] })
  | none => (false, o)

/-- The second of two calls is made only if the first succeeds. -/
def andThen (r : Bool × FrameOutput) (f : FrameOutput → Bool × FrameOutput) :
    Bool × FrameOutput :=
  if r.1 then f r.2 else r

/-- `add_flush_if_full`: a full batch is flushed first. -/
def addFlushIfFull (e : OutEvent) : Bool × FrameOutput :=
  if o.batch.evs.length ≥ pendingEventsMax then andThen (o.flush answers) (add · e) else o.add e

/-- An axis that has not moved adds nothing. -/
def addAxis (code : UInt16) (v : ℤ) : Bool × FrameOutput :=
  if v ≠ 0 then o.addFlushIfFull answers (.rel code v) else (true, o)

/-- `add_rel`: both axes, the second one only where the first has succeeded. -/
def addRel (x y : ℤ) : Bool × FrameOutput :=
  andThen (o.addAxis answers relX x) (addAxis answers · relY y)

/-- `add_syn`: the report that ends a frame. -/
def addSyn : Bool × FrameOutput := o.addFlushIfFull answers .syn

end FrameOutput

/-- The calls of `write_batch`. -/
inductive BatchCall
  | add (e : OutEvent)
  | addFlushIfFull (e : OutEvent)
  | addRel (x y : ℤ)
  | addSyn
  | flush

/-- The events that a call is given. -/
def BatchCall.events : BatchCall → List OutEvent
  | .add e => [e]
  | .addFlushIfFull e => [e]
  | .addRel x y => (if x ≠ 0 then [.rel relX x] else []) ++ (if y ≠ 0 then [.rel relY y] else [])
  | .addSyn => [.syn]
  | .flush => []

namespace FrameOutput
variable (answers) (o : FrameOutput)

/-- One call of the batch. -/
def call : BatchCall → Bool × FrameOutput
  | .add e => o.add e
  | .addFlushIfFull e => o.addFlushIfFull answers e
  | .addRel x y => o.addRel answers x y
  | .addSyn => o.addSyn answers
  | .flush => o.flush answers

/-- Calls one after the other, whatever they return. -/
def calls (cs : List BatchCall) : FrameOutput := cs.foldl (fun o c => (o.call answers c).2) o

end FrameOutput

/-! ## What a flush puts out -/

/-- A flush puts out a part of the batch, and says whether it was all.  Without a descriptor
nothing leaves the batch; with one all of it does, also when the flush fails. -/
structure Flush.Honest (fd : ℤ) (f : Flush) : Prop where
  accepted : f.accepted <+: frameBytes f.batch
  complete : f.ok = true ↔ f.accepted = frameBytes f.batch
  attempts : f.attempts ≤ maxAttempts
  left : f.left = if fd < 0 then [] else f.batch
  closed : fd < 0 → f.accepted = []

/-- Each flush is honest, and what was added has left in one of them or is in the batch. -/
structure FrameOutput.Ordered (fd : ℤ) (o : FrameOutput) : Prop where
  descriptor : o.fd = fd
  honest : ∀ f ∈ o.flushes, f.Honest fd
  accepted : o.accepted = o.flushes.flatMap Flush.accepted
  added : o.added = o.flushes.flatMap Flush.left ++ o.batch.evs

theorem frameBytes_eq_nil {evs : List OutEvent} : frameBytes evs = [] ↔ evs = [] := by
  rw [← List.length_eq_zero_iff, frameBytes_length, ← List.length_eq_zero_iff]
  simp [inputEventSize]

namespace FrameOutput.Ordered
variable {fd : ℤ} {o : FrameOutput}

theorem flush (h : o.Ordered fd) : (o.flush answers).2.Ordered fd := by
  have hcons : ∀ f : Flush, f.Honest fd → ∀ f' ∈ o.flushes ++ [f], f'.Honest fd := fun f hf =>
    List.forall_mem_append.mpr ⟨h.honest, List.forall_mem_singleton.mpr hf⟩
  unfold FrameOutput.flush
  rw [h.descriptor]
  split_ifs with hempty hclosed
  · refine ⟨rfl, hcons _ ⟨List.nil_prefix, iff_of_true rfl rfl, Nat.zero_le _,
      (ite_self _).symm, fun _ => rfl⟩, ?_, ?_⟩
    · simpa using h.accepted
    · simpa using h.added
  · refine ⟨rfl, hcons _ ⟨List.nil_prefix,
      iff_of_false Bool.false_ne_true fun hnil => hempty ?_, Nat.zero_le _, (if_pos hclosed).symm,
      fun _ => rfl⟩, ?_, ?_⟩
    · exact frameBytes_eq_nil.mp hnil.symm
    · simpa using h.accepted
    · simpa using h.added
  · have hstart : RetryState.Inside (frameBytes o.batch.evs) { writes := o.writes } :=
      ⟨rfl, List.length_pos_iff.mpr fun hnil => hempty (frameBytes_eq_nil.mp hnil)⟩
    have hretried : Retried (frameBytes o.batch.evs) maxAttempts { writes := o.writes }
        (retryLoop answers (frameBytes o.batch.evs) maxAttempts { writes := o.writes }) :=
      hstart.retried maxAttempts
    generalize retryLoop answers (frameBytes o.batch.evs) maxAttempts { writes := o.writes } = r
      at hretried ⊢
    dsimp only
    refine ⟨rfl, hcons _ ⟨?_, ?_, ?_, (if_neg hclosed).symm,
      fun hnone => absurd hnone hclosed⟩, ?_, ?_⟩
    · rw [hretried.accepted]
      exact List.take_prefix _ _
    · rw [hretried.complete, hretried.accepted]
      exact (List.take_eq_self_iff _).symm
    · have hle := hretried.attempts
      dsimp only at hle ⊢
      omega
    · simp [h.accepted]
    · simp [h.added]

theorem add (h : o.Ordered fd) (e : OutEvent) : (o.add e).2.Ordered fd := by
  unfold FrameOutput.add
  cases hadd : o.batch.add e with
  | none => exact h
  | some batch =>
      refine ⟨h.descriptor, h.honest, h.accepted, ?_⟩
      dsimp only
      rw [(EventBuffer.add_eq_some hadd).2, h.added, List.append_assoc]

theorem andThen {r : Bool × FrameOutput} {f : FrameOutput → Bool × FrameOutput}
    (hfirst : r.2.Ordered fd) (hsecond : ∀ o : FrameOutput, o.Ordered fd → (f o).2.Ordered fd) :
    (FrameOutput.andThen r f).2.Ordered fd := by
  unfold FrameOutput.andThen
  split_ifs
  · exact hsecond r.2 hfirst
  · exact hfirst

theorem addFlushIfFull (h : o.Ordered fd) (e : OutEvent) :
    (o.addFlushIfFull answers e).2.Ordered fd := by
  unfold FrameOutput.addFlushIfFull
  split_ifs
  · exact h.flush.andThen fun _ ho => ho.add e
  · exact h.add e

theorem addAxis (h : o.Ordered fd) (code : UInt16) (v : ℤ) :
    (o.addAxis answers code v).2.Ordered fd := by
  unfold FrameOutput.addAxis
  split_ifs
  · exact h.addFlushIfFull _
  · exact h

theorem call (h : o.Ordered fd) : ∀ c, (o.call answers c).2.Ordered fd
  | .add e => h.add e
  | .addFlushIfFull e => h.addFlushIfFull e
  | .addRel x y => (h.addAxis relX x).andThen fun _ ho => ho.addAxis relY y
  | .addSyn => h.addFlushIfFull .syn
  | .flush => h.flush

theorem calls (h : o.Ordered fd) (cs : List BatchCall) : (o.calls answers cs).Ordered fd :=
  List.foldlRecOn cs _ h fun _ ho c _ => ho.call c

end FrameOutput.Ordered

/-! ## What a call adds -/

namespace FrameOutput
variable {o : FrameOutput}

theorem flush_added : (o.flush answers).2.added = o.added := by
  unfold flush
  split_ifs <;> rfl

theorem add_added {e : OutEvent} (h : (o.add e).1 = true) : (o.add e).2.added = o.added ++ [e] := by
  unfold add at h ⊢
  cases hadd : o.batch.add e with
  | none =>
      rw [hadd] at h
      cases h
  | some batch => rfl

/-- Both calls have succeeded if the pair has. -/
theorem andThen_ok {r : Bool × FrameOutput} {f : FrameOutput → Bool × FrameOutput}
    (h : (andThen r f).1 = true) :
    r.1 = true ∧ (f r.2).1 = true ∧ andThen r f = f r.2 := by
  unfold andThen at h ⊢
  split_ifs at h ⊢ with hfirst
  · exact ⟨hfirst, h, rfl⟩
  · exact absurd h hfirst

theorem addFlushIfFull_added {e : OutEvent} (h : (o.addFlushIfFull answers e).1 = true) :
    (o.addFlushIfFull answers e).2.added = o.added ++ [e] := by
  unfold addFlushIfFull at h ⊢
  split_ifs at h ⊢
  · obtain ⟨-, hadd, hboth⟩ := andThen_ok h
    rw [hboth, add_added hadd, flush_added]
  · exact add_added h

theorem addAxis_added {code : UInt16} {v : ℤ} (h : (o.addAxis answers code v).1 = true) :
    (o.addAxis answers code v).2.added = o.added ++ (if v ≠ 0 then [.rel code v] else []) := by
  unfold addAxis at h ⊢
  split_ifs at h ⊢
  · exact addFlushIfFull_added h
  · exact (List.append_nil _).symm

/-- A call that succeeds adds its events. -/
theorem call_added : ∀ {c : BatchCall}, (o.call answers c).1 = true →
    (o.call answers c).2.added = o.added ++ c.events
  | .add _, h => add_added h
  | .addFlushIfFull _, h => addFlushIfFull_added h
  | .addRel x y, h => by
      obtain ⟨hx, hy, hboth⟩ := andThen_ok h
      have hadded : (addAxis answers (o.addAxis answers relX x).2 relY y).2.added =
          o.added ++ (BatchCall.addRel x y).events := by
        rw [addAxis_added hy, addAxis_added hx, List.append_assoc]
        rfl
      rw [← hadded]
      exact congrArg (fun r : Bool × FrameOutput => r.2.added) hboth
  | .addSyn, h => addFlushIfFull_added h
  | .flush, _ => by
      rw [BatchCall.events, List.append_nil]
      exact flush_added

end FrameOutput

/-! ## The device that takes events -/

/-- The device has been given the events that a flush has put out whole. -/
structure Simulates (b : FrameOutput) (o : Output) : Prop where
  fd : o.uinput.fd = b.fd
  writes : o.uinput.writes = b.writes
  batch : o.batch = b.batch
  written : o.uinput.written =
    b.flushes.flatMap fun f => f.batch.take (f.accepted.length / inputEventSize)

/-- The result of a checked call, and the state after it. -/
def outcome : Except Output Output → Bool × Output
  | .ok o => (true, o)
  | .error o => (false, o)

/-- The calls on `Output`. -/
def Output.call (answers : ℕ → WriteResult) (o : Output) : BatchCall → Except Output Output
  | .add e => o.add e
  | .addFlushIfFull e => o.addFlushIfFull answers e
  | .addRel x y => o.addRel answers x y
  | .addSyn => o.addSyn answers
  | .flush => o.flush answers

/-- The same result, and states that agree. -/
def SameEnd (r : Bool × FrameOutput) (x : Except Output Output) : Prop :=
  r.1 = (outcome x).1 ∧ Simulates r.2 (outcome x).2

variable {b : FrameOutput} {o : Output}

/-- The whole events among the first bytes. -/
theorem take_frameBytes (evs : List OutEvent) (done : ℕ) :
    evs.take (((frameBytes evs).take done).length / inputEventSize) =
      evs.take (done / inputEventSize) := by
  rw [List.length_take, frameBytes_length]
  rcases Nat.le_total done (evs.length * inputEventSize) with hle | hge
  · rw [min_eq_left hle]
  · rw [min_eq_right hge, Nat.mul_div_cancel _ (by decide), List.take_length,
      List.take_of_length_le ((Nat.le_div_iff_mul_le (by decide)).mpr hge)]

theorem flush_simulates (h : Simulates b o) : SameEnd (b.flush answers) (o.flush answers) := by
  rcases o with ⟨⟨fd, written, writes, timed⟩, batch⟩
  obtain ⟨rfl, rfl, rfl, hwritten⟩ := h
  dsimp only at hwritten
  unfold FrameOutput.flush Output.flush
  dsimp only
  split_ifs with hempty hclosed
  · refine ⟨rfl, rfl, rfl, rfl, hwritten.trans ?_⟩
    rw [List.flatMap_append]
    exact (List.append_nil _).symm
  · refine ⟨rfl, rfl, rfl, rfl, hwritten.trans ?_⟩
    rw [List.flatMap_append, List.flatMap_singleton]
    simp
  · have hstart : RetryState.Inside (frameBytes b.batch.evs) { writes := b.writes } :=
      ⟨rfl, List.length_pos_iff.mpr fun hnil => hempty (frameBytes_eq_nil.mp hnil)⟩
    have hretried : Retried (frameBytes b.batch.evs) maxAttempts { writes := b.writes }
        (retryLoop answers (frameBytes b.batch.evs) maxAttempts { writes := b.writes }) :=
      hstart.retried maxAttempts
    have hcounts := @retryLoop_counts answers (frameBytes b.batch.evs) maxAttempts
      { writes := b.writes }
    rw [frameBytes_length] at hcounts
    dsimp only at hcounts
    unfold Output.write Uinput.uinputWriteRetry
    dsimp only
    rw [if_neg hclosed, hcounts]
    generalize retryLoop answers (frameBytes b.batch.evs) maxAttempts { writes := b.writes } = r
      at hretried ⊢
    obtain ⟨ok, s⟩ := r
    have hgrown : written ++ b.batch.evs.take (s.done / inputEventSize) =
        List.flatMap (fun f => f.batch.take (f.accepted.length / inputEventSize))
          (b.flushes ++ [⟨b.batch.evs, b.batch.evs, s.accepted, s.writes - b.writes, ok⟩]) := by
      rw [List.flatMap_append, hwritten, List.flatMap_singleton, hretried.accepted,
        take_frameBytes]
    cases ok with
    | true => exact ⟨rfl, rfl, rfl, rfl, hgrown⟩
    | false => exact ⟨rfl, rfl, rfl, rfl, hgrown⟩

theorem add_simulates (h : Simulates b o) (e : OutEvent) : SameEnd (b.add e) (o.add e) := by
  unfold FrameOutput.add Output.add
  rw [h.batch]
  cases b.batch.add e with
  | none => exact ⟨rfl, h⟩
  | some batch => exact ⟨rfl, h.fd, h.writes, rfl, h.written⟩

theorem andThen_simulates {r : Bool × FrameOutput} {x : Except Output Output}
    {f : FrameOutput → Bool × FrameOutput} {g : Output → Except Output Output} (h : SameEnd r x)
    (hnext : ∀ {b o}, Simulates b o → SameEnd (f b) (g o)) :
    SameEnd (FrameOutput.andThen r f) (x >>= g) := by
  obtain ⟨hresult, hstate⟩ := h
  unfold FrameOutput.andThen
  cases x with
  | ok o =>
      have hok : r.1 = true := hresult
      rw [if_pos hok]
      exact hnext hstate
  | error o =>
      have hfailed : r.1 = false := hresult
      rw [hfailed, if_neg Bool.false_ne_true]
      exact ⟨hresult, hstate⟩

theorem addFlushIfFull_simulates (h : Simulates b o) (e : OutEvent) :
    SameEnd (b.addFlushIfFull answers e) (o.addFlushIfFull answers e) := by
  unfold FrameOutput.addFlushIfFull Output.addFlushIfFull
  rw [h.batch]
  split_ifs
  · exact andThen_simulates (flush_simulates h) fun h => add_simulates h e
  · exact add_simulates h e

theorem addAxis_simulates (h : Simulates b o) (code : UInt16) (v : ℤ) :
    SameEnd (b.addAxis answers code v) (o.addAxis answers code v) := by
  unfold FrameOutput.addAxis Output.addAxis
  split_ifs
  · exact addFlushIfFull_simulates h _
  · exact ⟨rfl, h⟩

/-- The batch over events does what the batch over bytes does. -/
theorem call_simulates (h : Simulates b o) : ∀ c, SameEnd (b.call answers c) (o.call answers c)
  | .add e => add_simulates h e
  | .addFlushIfFull e => addFlushIfFull_simulates h e
  | .addRel x y =>
      andThen_simulates (addAxis_simulates h relX x) fun h => addAxis_simulates h relY y
  | .addSyn => addFlushIfFull_simulates h .syn
  | .flush => flush_simulates h

/-! ## Completeness -/

/-- **A flush puts out a prefix of its batch**, all of it just when it returns true, in at
most 32 writes.  What the calls have added has left the batch in the flushes, in order, or is
still in it; so where no flush has failed, the bytes that are out and those of the batch are
those of what was added.  With a descriptor each flush takes the whole batch out, also when it
fails; without one nothing leaves it. -/
theorem frame_output (answers : ℕ → WriteResult) (fd : ℤ) (cs : List BatchCall) :
    (∀ f ∈ (FrameOutput.calls answers { fd } cs).flushes,
      f.accepted <+: frameBytes f.batch ∧ (f.ok = true ↔ f.accepted = frameBytes f.batch) ∧
        f.attempts ≤ maxAttempts ∧ (f.ok = true → f.left = f.batch) ∧
        f.left = if fd < 0 then [] else f.batch) ∧
    (FrameOutput.calls answers { fd } cs).accepted =
      (FrameOutput.calls answers { fd } cs).flushes.flatMap Flush.accepted ∧
    (FrameOutput.calls answers { fd } cs).added =
      (FrameOutput.calls answers { fd } cs).flushes.flatMap Flush.left ++
        (FrameOutput.calls answers { fd } cs).batch.evs ∧
    (∀ c, ((FrameOutput.calls answers { fd } cs).call answers c).1 = true →
      ((FrameOutput.calls answers { fd } cs).call answers c).2.added =
        (FrameOutput.calls answers { fd } cs).added ++ c.events) ∧
    ((∀ f ∈ (FrameOutput.calls answers { fd } cs).flushes, f.ok = true) →
      (FrameOutput.calls answers { fd } cs).accepted ++
          frameBytes (FrameOutput.calls answers { fd } cs).batch.evs =
        frameBytes (FrameOutput.calls answers { fd } cs).added) := by
  have hstart : FrameOutput.Ordered fd { fd } := ⟨rfl, by simp, rfl, rfl⟩
  have h : (FrameOutput.calls answers { fd } cs).Ordered fd := hstart.calls cs
  generalize FrameOutput.calls answers { fd } cs = o at h ⊢
  have hleft : ∀ f ∈ o.flushes, f.ok = true → f.left = f.batch := by
    intro f hf hok
    obtain ⟨-, hcomplete, -, hleft, hclosed⟩ := h.honest f hf
    rw [hleft]
    split_ifs with hnone
    · exact (frameBytes_eq_nil.mp (hclosed hnone ▸ hcomplete.mp hok).symm).symm
    · rfl
  refine ⟨fun f hf => ?_, h.accepted, h.added, fun c hc => FrameOutput.call_added hc, ?_⟩
  · obtain ⟨haccepted, hcomplete, hattempts, hgiven, -⟩ := h.honest f hf
    exact ⟨haccepted, hcomplete, hattempts, hleft f hf, hgiven⟩
  · intro hall
    rw [h.accepted, h.added, frameBytes_append]
    have hbytes : ∀ flushes : List Flush, (∀ f ∈ flushes, f.accepted = frameBytes f.left) →
        flushes.flatMap Flush.accepted = frameBytes (flushes.flatMap Flush.left) := by
      intro flushes hflushes
      rw [frameBytes, List.flatMap_assoc]
      exact List.flatMap_congr hflushes
    rw [hbytes o.flushes fun f hf => ?_]
    rw [hleft f hf (hall f hf)]
    exact (h.honest f hf).complete.mp (hall f hf)

/-- The first write fails for good, the second goes through. -/
def failsOnce : ℕ → WriteResult
  | 0 => .failed
  | _ => .wrote inputEventSize

/-- The event of the first flush is not among those of the successful ones. -/
theorem failed_flush_drops :
    ¬∀ (answers : ℕ → WriteResult) (cs : List BatchCall),
      (FrameOutput.calls answers { fd := 3 } cs).batch.evs = [] →
      ((FrameOutput.calls answers { fd := 3 } cs).flushes.filter Flush.ok).flatMap Flush.batch =
        (FrameOutput.calls answers { fd := 3 } cs).added := by
  intro hall
  have h := hall failsOnce
    [.add (.rel relX 1), .flush, .add .syn, .flush] (by decide +kernel)
  exact absurd h (by decide +kernel)

end AbrekMouse
