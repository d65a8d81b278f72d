import AbrekMouse.Config
import AbrekMouse.Division
import AbrekMouse.InsertionSort
import AbrekMouse.ProcessDevice

/-! # Flushing the motion of a frame

`flush_motion` measures the time since the last frame, feeds a ring from which the polling
rate of the mouse is measured, and puts the motion through the pipeline.  In raw passthrough
the counts go out as they are.  What `clock_gettime` answers is an input, and so is the
pipeline.  `flushMotion` is the `MotionEngine` of `process_device`.
-/
namespace AbrekMouse
open ProgLib

/-! ## Clocks -/

/-- The answer of a clock. -/
structure Timespec where
  sec : Int64
  nsec : Int64

namespace Timespec
variable (t : Timespec)

/-- `now_ms`. -/
def nowMs : Double := Fp.ofInt t.sec.toInt * 1000 + Fp.ofInt t.nsec.toInt / 1000000

/-- `now_ns`. -/
def nowNs : UInt64 := t.sec.toUInt64 * 1000000000 + t.nsec.toUInt64

/-- `ev_now_us`. -/
def evNowUs : UInt64 := t.sec.toUInt64 * 1000000 + (t.nsec / 1000).toUInt64

end Timespec

/-- `static_cast<double>` of a `uint64_t`. -/
def doubleOf (n : UInt64) : Double := Fp.ofInt n.toNat

/-- `DEFAULT_TIME_MIN`, in milliseconds. -/
def defaultTimeMin : Double := 0.0625

/-- `DEFAULT_TIME_MAX`, in milliseconds. -/
def defaultTimeMax : Double := 100

/-- `POLL_RATE_SAMPLES`. -/
def pollRateSamples : ℕ := 16

/-! ## The timing of a device -/

/-- The timing fields of a `mouse_device`, with the measured rate of its telemetry. -/
structure FrameTiming where
  lastTimeMs : Double := 0
  lastFrameEvUs : UInt64 := 0
  frameEvUsSamples : List ℕ := List.replicate pollRateSamples 0
  frameEvUsCount : ℕ := 0
  frameEvUsNext : ℕ := 0
  pollMedianTick : ℕ := 0
  realPollingRate : ℤ := 0
  detectedPollingRate : ℤ := 0
  pollRate : ℤ := 1000

namespace FrameTiming
variable (t : FrameTiming)

/-- The best rate that is known: measured, detected, or that of the profile. -/
def knownRate : Double :=
  if t.realPollingRate > 0 then Fp.ofInt t.realPollingRate
  else if t.detectedPollingRate > 0 then Fp.ofInt t.detectedPollingRate
  else Fp.ofInt t.pollRate

/-- The time since the last frame, by the stamps of the kernel if both frames have one. -/
def elapsedMs (frameEvUs : UInt64) (now : Double) : Double :=
  if t.lastFrameEvUs ≠ 0 ∧ frameEvUs ≠ 0 ∧ frameEvUs > t.lastFrameEvUs then
    let gap := doubleOf (frameEvUs - t.lastFrameEvUs) / 1000
    -- after a pause the motion is measured against one period of the mouse
    if gap ≥ defaultTimeMax then
      1000 / (if t.knownRate < Fp.ofInt pollRateMin then Fp.ofInt pollRateMin else t.knownRate)
    else gap
  else now - t.lastTimeMs

/-- `time_ms`, as the pipeline gets it. -/
def timeMs (frameEvUs : UInt64) (now : Double) : Double :=
  Fp.ceilAt defaultTimeMax (Fp.floorAt defaultTimeMin (t.elapsedMs frameEvUs now))

/-- The rate of the median interval. -/
def rateHz (medianUs : ℕ) : ℤ := (1000000 / Fp.ofInt medianUs + 0.5 : Double).trunc

/-- The polling rate is measured: that of the median of the ring, if it is plausible. -/
def computeRate : FrameTiming :=
  let n := t.frameEvUsCount
  let medianUs := (insertionSortInPlace (t.frameEvUsSamples.take n)).getD (n / 2) 0
  if medianUs > 0 then
    if 5 ≤ rateHz medianUs ∧ rateHz medianUs ≤ 10000 then
      { t with realPollingRate := rateHz medianUs }
    else t
  else t

/-- An accepted interval goes into the ring, and the rate is measured anew while the ring
fills and then each time it has been filled again. -/
def feedRing (intervalUs : ℕ) : FrameTiming :=
  let t := { t with
    frameEvUsSamples := t.frameEvUsSamples.set t.frameEvUsNext intervalUs
    frameEvUsNext := (t.frameEvUsNext + 1) % pollRateSamples
    frameEvUsCount :=
      if t.frameEvUsCount < pollRateSamples then t.frameEvUsCount + 1 else t.frameEvUsCount }
  if t.frameEvUsCount ≥ 4 then
    if t.frameEvUsCount < pollRateSamples then computeRate { t with pollMedianTick := 0 }
    else if t.pollMedianTick + 1 ≥ pollRateSamples then computeRate { t with pollMedianTick := 0 }
    else { t with pollMedianTick := t.pollMedianTick + 1 }
  else t

/-- The interval that a frame adds to the ring, if it is plausible. -/
def interval (frameEvUs : UInt64) : Option ℕ :=
  if t.lastFrameEvUs ≠ 0 ∧ frameEvUs > t.lastFrameEvUs then
    let intervalUs := frameEvUs - t.lastFrameEvUs
    if intervalUs ≥ 100 ∧ intervalUs ≤ 200000 then some intervalUs.toNat else none
  else none

/-- What `flush_motion` does to the timing. -/
def flush (frameEvUs : UInt64) (now : Double) : FrameTiming :=
  let t := { t with lastTimeMs := now }
  let t := match t.interval frameEvUs with
    | some intervalUs => t.feedRing intervalUs
    | none => t
  { t with lastFrameEvUs := if frameEvUs ≠ 0 then frameEvUs else t.lastFrameEvUs }

/-- A `SYN_REPORT`, with motion or without. -/
def closeFrame (frameEvUs : UInt64) (now : Timespec) : FrameTiming :=
  { t with
    lastFrameEvUs := if frameEvUs ≠ 0 then frameEvUs else t.lastFrameEvUs
    lastTimeMs := now.nowMs }

/-- The `SYN_REPORT` at the end of a dropped window. -/
def closeDrop (ev : InputEvent) (now : Timespec) : FrameTiming :=
  { t with
    lastFrameEvUs :=
      if ev.sec ≠ 0 ∨ ev.usec ≠ 0 then ev.sec * 1000000 + ev.usec else t.lastFrameEvUs
    lastTimeMs := now.nowMs }

/-- `apply_profile`.  Raw passthrough forgets the samples, and leaves the tick. -/
def applyProfile (prof : DeviceProfile) (now evNow : Timespec) : FrameTiming :=
  let t := { t with
    pollRate := min pollRateMax (max pollRateMin prof.devCfg.pollingRate) }
  let t :=
    if prof.prof.rawPassthrough then
      { t with realPollingRate := 0, frameEvUsCount := 0, frameEvUsNext := 0 }
    else t
  { t with
    lastTimeMs := now.nowMs
    lastFrameEvUs := if t.lastFrameEvUs = 0 then evNow.evNowUs else t.lastFrameEvUs }

end FrameTiming

/-! ## The engine -/

/-- Timing, statistics and pipeline of a device. -/
structure MotionState (P : Type) where
  timing : FrameTiming := {}
  /-- The generation counter of the telemetry. -/
  telemetrySamples : UInt64 := 0
  /-- The samples that `flush_motion` has recorded in the latency histogram. -/
  latSamples : ℕ := 0
  /-- How often `flush_motion` was called. -/
  flushes : ℕ := 0
  /-- How often a clock was read. -/
  ticks : ℕ := 0
  pipeline : P

def intLo : Double := -2147483648

/-- The largest `double` that truncates to `INT_MAX`. -/
def intHi : Double := 2147483647.5

/-- The counts of raw passthrough. -/
def rawCount (d : Double) : ℤ := (Fp.ceilAt intHi (Fp.floorAt intLo (Fp.finiteOr 0 d))).trunc

variable {P : Type} (clock : ℕ → Timespec)
  (modify : Double → Double → Double → P → (ℤ × ℤ) × P)

/-- `flush_motion`, with the answers of the clock and the pipeline as far as its counts.  What it
records, it records in both modes. -/
def flushMotion : MotionEngine (MotionState P) where
  flushMotion rawPassthrough dx dy frameEvUs m :=
    let tNow := (clock m.ticks).nowNs
    let m := { m with flushes := m.flushes + 1, ticks := m.ticks + 1 }
    if rawPassthrough then ((rawCount dx, rawCount dy), m)
    else
      let now := doubleOf tNow / 1000000
      let (counts, pipeline) := modify (m.timing.timeMs frameEvUs now) dx dy m.pipeline
      (counts, { m with timing := m.timing.flush frameEvUs now, pipeline := pipeline })
  recordFlush m :=
    { m with telemetrySamples := m.telemetrySamples + 1 + 1, latSamples := m.latSamples + 1 }
  closeFrame frameEvUs m :=
    { m with timing := m.timing.closeFrame frameEvUs (clock m.ticks), ticks := m.ticks + 1 }
  closeDrop ev m :=
    { m with timing := m.timing.closeDrop ev (clock m.ticks), ticks := m.ticks + 1 }

/-- What `apply_profile` does to the motion of a device: the telemetry begins anew, and for
raw passthrough the latency histogram too. -/
def MotionState.applyProfile (prof : DeviceProfile) (m : MotionState P) : MotionState P :=
  { m with
    timing := m.timing.applyProfile prof (clock m.ticks) (clock (m.ticks + 1))
    telemetrySamples := 0
    latSamples := if prof.prof.rawPassthrough then 0 else m.latSamples
    ticks := m.ticks + 2 }

end AbrekMouse
