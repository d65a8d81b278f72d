import AbrekMouse.FlushMotion
import AbrekMouse.Machine
import Mathlib.Data.List.GetD
import Mathlib.Data.List.Rotate

/-! # Interval and polling rate

The time of a frame comes from the stamps of the kernel or from the wall clock, and both may be
anything; what the pipeline gets is always within its bounds.  The ring holds the last accepted
intervals, wherever it begins, so that the rate that is measured is that of their median
(`polling_rate_sane`).
-/
namespace AbrekMouse
open ProgLib

/-! ## Times -/

theorem binary64_range {k : ℕ} (h : k < 1024) : k + binary64.unit < binary64.top := by
  change k + 1074 < 2098
  omega

theorem doubleOf_atMost (n : UInt64) : (doubleOf n).AtMost 64 := by
  refine .ofInt (binary64_range (by decide)) ?_
  rw [Int.natAbs_natCast]
  exact n.toNat_lt.le

/-- A positive integer literal, as a divisor. -/
theorem isFinite_div_ofInt {k : ℕ} {x : Double} (hk : k < 1024) (hx : x.AtMost k) {n : ℕ}
    (hpos : 0 < n) (hn : n < 2 ^ 53) : (x / Fp.ofInt n).AtMost k := by
  rw [Fp.ofInt_of_lt (F := binary64) (z := (n : ℤ)) (by rw [Int.natAbs_natCast]; exact hn)]
  refine hx.div (binary64_range hk) ?_
  rw [Int.natAbs_natCast]
  exact Nat.le_mul_of_pos_left _ hpos

theorem isFinite_nowMs (t : Timespec) : t.nowMs.isFinite = true := by
  have hint : ∀ n : Int64, (Fp.ofInt n.toInt : Double).AtMost 63 := by
    intro n
    refine .ofInt (binary64_range (by decide)) ?_
    have hlow := n.le_toInt
    have hhigh := n.toInt_lt
    omega
  have hthousand : (1000 : Double).AtMost 10 :=
    .ofInt (z := 1000) (binary64_range (by decide)) (by decide)
  have hsec := (hint t.sec).mul (binary64_range (by decide : 63 + 10 < 1024)) hthousand
  have hnsec : (Fp.ofInt t.nsec.toInt / 1000000 : Double).AtMost 63 :=
    isFinite_div_ofInt (n := 1000000) (by decide) (hint t.nsec) (by decide) (by decide)
  exact (hsec.add (binary64_range (by decide : 63 + 10 + 1 < 1024))
    (hnsec.mono (by decide))).isFinite

/-- The time of a flush. -/
def Timespec.flushMs (t : Timespec) : Double := doubleOf t.nowNs / 1000000

theorem isFinite_flushMs (t : Timespec) : t.flushMs.isFinite = true :=
  (isFinite_div_ofInt (n := 1000000) (by decide) (doubleOf_atMost t.nowNs) (by decide)
    (by decide)).isFinite

namespace FrameTiming
variable {t : FrameTiming}

theorem isNan_ofInt (z : ℤ) : (Fp.ofInt z : Double).isNan = false := Fp.isNan_ofRatio _ _ _

theorem isNan_knownRate : t.knownRate.isNan = false := by
  unfold knownRate
  split_ifs <;> exact isNan_ofInt _

/-- No clock and no stamp makes the time of a frame a nan. -/
theorem isNan_elapsedMs (hlast : t.lastTimeMs.isFinite = true) (frameEvUs : UInt64)
    (now : Timespec) : (t.elapsedMs frameEvUs now.flushMs).isNan = false := by
  have hmin : (0 : ℤ) < (Fp.ofInt pollRateMin : Double).key := by
    rw [Fp.key_ofInt (F := binary64) (z := pollRateMin) (by decide)]
    exact mul_pos (by decide) (by positivity)
  unfold elapsedMs
  dsimp only
  split_ifs with hstamps hpause hslow
  · exact Fp.isNan_div_of_pos (Fp.isFinite_ofInt (z := 1000) (by decide)) (isNan_ofInt _) hmin
  · refine Fp.isNan_div_of_pos (Fp.isFinite_ofInt (z := 1000) (by decide)) isNan_knownRate ?_
    exact hmin.trans_le (Fp.key_le_of_not_lt isNan_knownRate (isNan_ofInt _) hslow)
  · exact Fp.isNan_of_isFinite (isFinite_div_ofInt (n := 1000) (by decide) (doubleOf_atMost _)
      (by decide) (by decide)).isFinite
  · exact Fp.isNan_sub (isFinite_flushMs now) hlast

/-- **The pipeline gets a time within its bounds.** -/
theorem timeMs_bounds (hlast : t.lastTimeMs.isFinite = true) (frameEvUs : UInt64)
    (now : Timespec) : defaultTimeMin ≤ t.timeMs frameEvUs now.flushMs ∧
      t.timeMs frameEvUs now.flushMs ≤ defaultTimeMax :=
  Fp.clamp_bounds (isNan_elapsedMs hlast frameEvUs now) (by decide +kernel)

/-! ## The ring -/

/-- The rate of a median interval, rounded. -/
def roundedRate (medianUs : ℕ) : ℕ := (2 * 1000000 + medianUs) / (2 * medianUs)

/-- The interval is one of those that the ring takes. -/
def Plausible (intervalUs : ℕ) : Prop := 100 ≤ intervalUs ∧ intervalUs ≤ 200000

theorem rateHz_eq {medianUs : ℕ} (h : Plausible medianUs) :
    rateHz medianUs = roundedRate medianUs ∧ 5 ≤ roundedRate medianUs ∧
      roundedRate medianUs ≤ 10000 := by
  obtain ⟨hlow, hhigh⟩ := h
  have hfive : 5 ≤ roundedRate medianUs := by
    refine (Nat.le_div_iff_mul_le (by omega)).mpr ?_
    omega
  have hten : roundedRate medianUs ≤ 10000 := by
    refine Nat.lt_succ_iff.mp ((Nat.div_lt_iff_lt_mul (by omega)).mpr ?_)
    omega
  refine ⟨?_, hfive, hten⟩
  refine Fp.trunc_div_add_half (F := binary64) (n := 1000000) (s := 18) (by omega) (by omega)
    (by decide) (by decide) rfl ?_
  have hprec : (10000 + 1) * 2 ^ (18 + 1) ≤ 2 ^ binary64.prec := by decide
  exact (Nat.mul_le_mul_right _ (Nat.succ_le_succ hten)).trans hprec

/-- The last intervals that a ring has room for. -/
def lastIntervals (accepted : List ℕ) : List ℕ :=
  accepted.drop (accepted.length - pollRateSamples)

/-- The rate of the median of the last intervals. -/
def medianRate (accepted : List ℕ) : ℕ :=
  roundedRate (((lastIntervals accepted).insertionSort (· ≤ ·)).getD
    ((lastIntervals accepted).length / 2) 0)

/-- The ring holds the last of the accepted intervals, the newest before `next`. -/
structure Holds (t : FrameTiming) (accepted : List ℕ) : Prop where
  length : t.frameEvUsSamples.length = pollRateSamples
  next : t.frameEvUsNext = accepted.length % pollRateSamples
  count : t.frameEvUsCount = min pollRateSamples accepted.length
  samples : ∀ j < accepted.length, accepted.length ≤ j + pollRateSamples →
    t.frameEvUsSamples[j % pollRateSamples]? = accepted[j]?
  allPlausible : ∀ x ∈ accepted, Plausible x
  stored : ∀ x ∈ t.frameEvUsSamples, x = 0 ∨ Plausible x

namespace Holds
variable {accepted : List ℕ}

theorem next_lt (h : Holds t accepted) : t.frameEvUsNext < pollRateSamples :=
  h.next ▸ Nat.mod_lt _ (by decide)

theorem count_le (h : Holds t accepted) : t.frameEvUsCount ≤ pollRateSamples :=
  h.count ▸ min_le_left _ _

/-- Only the ring matters. -/
theorem of_eq {t' : FrameTiming} (h : Holds t accepted)
    (hsamples : t'.frameEvUsSamples = t.frameEvUsSamples)
    (hcount : t'.frameEvUsCount = t.frameEvUsCount)
    (hnext : t'.frameEvUsNext = t.frameEvUsNext) : Holds t' accepted where
  length := hsamples ▸ h.length
  next := hnext ▸ h.next
  count := hcount ▸ h.count
  samples := hsamples ▸ h.samples
  allPlausible := h.allPlausible
  stored := hsamples ▸ h.stored

/-- What is counted of the ring are the last intervals, in some order. -/
theorem perm (h : Holds t accepted) :
    (t.frameEvUsSamples.take t.frameEvUsCount).Perm (lastIntervals accepted) := by
  unfold lastIntervals
  rw [h.count]
  rcases Nat.le_total accepted.length pollRateSamples with hfew | hfull
  · -- while the ring fills, it holds them in their order
    have hsame : t.frameEvUsSamples.take accepted.length = accepted := by
      refine List.ext_getElem? fun j => ?_
      rcases Nat.lt_or_ge j accepted.length with hj | hj
      · have hslot := h.samples j hj (by omega)
        rw [Nat.mod_eq_of_lt (by omega)] at hslot
        rw [List.getElem?_take_of_lt hj, hslot]
      · rw [List.getElem?_eq_none hj, List.getElem?_eq_none]
        rw [List.length_take]
        omega
    rw [min_eq_right hfew, hsame, Nat.sub_eq_zero_of_le hfew, List.drop_zero]
  · -- afterwards it is turned by the place of the next one
    rw [min_eq_left hfull, ← h.length, List.take_length]
    have hturned : accepted.drop (accepted.length - t.frameEvUsSamples.length) =
        t.frameEvUsSamples.rotate (accepted.length % pollRateSamples) := by
      refine List.ext_getElem? fun i => ?_
      rw [List.getElem?_drop, h.length]
      rcases Nat.lt_or_ge i pollRateSamples with hi | hi
      · have hslot := h.samples (accepted.length - pollRateSamples + i) (by omega) (by omega)
        rw [List.getElem?_rotate (by rw [h.length]; exact hi), h.length, ← hslot]
        congr 1
        rw [Nat.add_mod_mod, Nat.add_comm i,
          ← Nat.add_mod_right (accepted.length - pollRateSamples + i)]
        congr 1
        omega
      · rw [List.getElem?_eq_none (by omega), List.getElem?_eq_none]
        rw [List.length_rotate, h.length]
        exact hi
    rw [hturned]
    exact (List.rotate_perm _ _).symm

end Holds

/-- The ring with one more interval. -/
def pushed (t : FrameTiming) (intervalUs : ℕ) : FrameTiming :=
  { t with
    frameEvUsSamples := t.frameEvUsSamples.set t.frameEvUsNext intervalUs
    frameEvUsNext := (t.frameEvUsNext + 1) % pollRateSamples
    frameEvUsCount :=
      if t.frameEvUsCount < pollRateSamples then t.frameEvUsCount + 1 else t.frameEvUsCount }

/-- The rate is measured with this interval: the ring holds four, and it is filling or has been
filled again. -/
def recomputes (t : FrameTiming) (intervalUs : ℕ) : Bool :=
  4 ≤ (t.pushed intervalUs).frameEvUsCount &&
    ((t.pushed intervalUs).frameEvUsCount < pollRateSamples ||
      pollRateSamples ≤ t.pollMedianTick + 1)

variable {accepted : List ℕ}

theorem Holds.pushed (h : Holds t accepted) {intervalUs : ℕ} (hx : Plausible intervalUs) :
    Holds (t.pushed intervalUs) (accepted ++ [intervalUs]) where
  length := (List.length_set ..).trans h.length
  next := by
    unfold FrameTiming.pushed
    rw [h.next, List.length_append, List.length_singleton, Nat.mod_add_mod]
  count := by
    have hcount := h.count
    unfold FrameTiming.pushed
    dsimp only
    rw [List.length_append, List.length_singleton]
    split_ifs <;> omega
  samples j hj hnew := by
    rw [List.length_append, List.length_singleton] at hj hnew
    unfold FrameTiming.pushed
    dsimp only
    rw [h.next]
    rcases Nat.lt_or_eq_of_le (Nat.lt_succ_iff.mp hj) with hold | rfl
    · -- an older interval is in another slot
      have hslot : accepted.length % pollRateSamples ≠ j % pollRateSamples := by
        unfold pollRateSamples at *
        omega
      rw [List.getElem?_set_ne hslot, List.getElem?_append_left hold]
      exact h.samples j hold (by omega)
    · have hlt : accepted.length % pollRateSamples < t.frameEvUsSamples.length := by
        rw [h.length]
        exact Nat.mod_lt _ (by decide)
      rw [List.getElem?_set_self hlt, List.getElem?_concat_length]
  allPlausible := List.forall_mem_append.mpr ⟨h.allPlausible, List.forall_mem_singleton.mpr hx⟩
  stored x hmem := by
    rcases List.mem_or_eq_of_mem_set hmem with hold | rfl
    · exact h.stored x hold
    · exact .inr hx

theorem mem_lastIntervals {x : ℕ} (h : x ∈ lastIntervals accepted) : x ∈ accepted :=
  List.mem_of_mem_drop h

/-- **The rate is that of the median**, which is always stored. -/
theorem computeRate_eq (h : Holds t accepted) (hsome : 0 < t.frameEvUsCount) :
    t.computeRate = { t with realPollingRate := medianRate accepted } ∧
      5 ≤ medianRate accepted ∧ medianRate accepted ≤ 10000 := by
  have hperm := h.perm
  have hlength : (lastIntervals accepted).length = t.frameEvUsCount := by
    rw [← hperm.length_eq, List.length_take, h.length]
    exact min_eq_left h.count_le
  have hsorted : insertionSortInPlace (t.frameEvUsSamples.take t.frameEvUsCount) =
      (lastIntervals accepted).insertionSort (· ≤ ·) := insertionSortInPlace_of_perm hperm
  have hmedian : Plausible (((lastIntervals accepted).insertionSort (· ≤ ·)).getD
      (t.frameEvUsCount / 2) 0) := by
    have hlt : t.frameEvUsCount / 2 <
        ((lastIntervals accepted).insertionSort (· ≤ ·)).length := by
      rw [List.length_insertionSort, hlength]
      omega
    rw [List.getD_eq_getElem _ _ hlt]
    have hmem := List.getElem_mem hlt
    rw [List.mem_insertionSort] at hmem
    exact h.allPlausible _ (mem_lastIntervals hmem)
  have hrate : medianRate accepted = roundedRate (((lastIntervals accepted).insertionSort
      (· ≤ ·)).getD (t.frameEvUsCount / 2) 0) := by
    rw [medianRate, hlength]
  obtain ⟨heq, hfive, hten⟩ := rateHz_eq hmedian
  unfold computeRate
  dsimp only
  rw [hsorted, hrate, if_pos (Nat.lt_of_lt_of_le (by decide) hmedian.1), heq,
    if_pos ⟨by exact_mod_cast hfive, by exact_mod_cast hten⟩]
  exact ⟨rfl, hfive, hten⟩

/-- The rate has not been measured, or it is plausible. -/
def Measured (rate : ℤ) : Prop := rate = 0 ∨ 5 ≤ rate ∧ rate ≤ 10000

/-- What feeding the ring does. -/
structure Fed (t : FrameTiming) (accepted : List ℕ) (intervalUs : ℕ) (t' : FrameTiming) :
    Prop where
  holds : Holds t' (accepted ++ [intervalUs])
  lastTimeMs : t'.lastTimeMs = t.lastTimeMs
  rate : t'.realPollingRate =
    if t.recomputes intervalUs then (medianRate (accepted ++ [intervalUs]) : ℤ)
    else t.realPollingRate
  measured : Measured t.realPollingRate → Measured t'.realPollingRate

theorem feedRing_fed (h : Holds t accepted) {intervalUs : ℕ} (hx : Plausible intervalUs) :
    Fed t accepted intervalUs (t.feedRing intervalUs) := by
  have hpushed := h.pushed hx
  have hcompute : 4 ≤ (t.pushed intervalUs).frameEvUsCount →
      t.recomputes intervalUs = true →
      Fed t accepted intervalUs ({ t.pushed intervalUs with pollMedianTick := 0 }).computeRate := by
    intro hfour hrecomputes
    have hticked : Holds { t.pushed intervalUs with pollMedianTick := 0 }
        (accepted ++ [intervalUs]) := hpushed.of_eq rfl rfl rfl
    obtain ⟨heq, hfive, hten⟩ := computeRate_eq hticked (by dsimp only; omega)
    rw [heq]
    refine ⟨hticked.of_eq rfl rfl rfl, rfl, ?_, fun _ => .inr ⟨?_, ?_⟩⟩
    · rw [if_pos hrecomputes]
    · exact Int.ofNat_le.mpr hfive
    · exact Int.ofNat_le.mpr hten
  have hkeep : ∀ tick, t.recomputes intervalUs = false →
      Fed t accepted intervalUs { t.pushed intervalUs with pollMedianTick := tick } := by
    intro tick hrecomputes
    refine ⟨hpushed.of_eq rfl rfl rfl, rfl, ?_, id⟩
    rw [hrecomputes, if_neg Bool.false_ne_true]
    rfl
  unfold feedRing
  change Fed t accepted intervalUs
    (if (t.pushed intervalUs).frameEvUsCount ≥ 4 then
      if (t.pushed intervalUs).frameEvUsCount < pollRateSamples then
        computeRate { t.pushed intervalUs with pollMedianTick := 0 }
      else if (t.pushed intervalUs).pollMedianTick + 1 ≥ pollRateSamples then
        computeRate { t.pushed intervalUs with pollMedianTick := 0 }
      else { t.pushed intervalUs with
        pollMedianTick := (t.pushed intervalUs).pollMedianTick + 1 }
    else t.pushed intervalUs)
  have htick : (t.pushed intervalUs).pollMedianTick = t.pollMedianTick := rfl
  rw [htick]
  split_ifs with hfour hfilling hagain
  · exact hcompute hfour (by simp [recomputes, hfour, hfilling])
  · exact hcompute hfour (by simp [recomputes, hfour, hagain])
  · exact hkeep _ (by simp [recomputes, hfilling, hagain])
  · exact hkeep t.pollMedianTick (by simp [recomputes, hfour])

theorem plausible_interval {frameEvUs : UInt64} {intervalUs : ℕ}
    (h : t.interval frameEvUs = some intervalUs) : Plausible intervalUs := by
  unfold interval at h
  dsimp only at h
  split_ifs at h with hlater hband
  cases h
  exact ⟨UInt64.le_iff_toNat_le.mp hband.1, UInt64.le_iff_toNat_le.mp hband.2⟩

theorem isFinite_zero : (0 : Double).isFinite = true := by decide +kernel

/-- What is known of the timing of a device, with the intervals since the last reset. -/
structure Sane (t : FrameTiming) (accepted : List ℕ) : Prop where
  holds : Holds t accepted
  finite : t.lastTimeMs.isFinite = true
  measured : Measured t.realPollingRate

/-- What a flush does to the rate. -/
theorem flush_rate (h : Holds t accepted) (frameEvUs : UInt64) (now : Double) :
    (t.interval frameEvUs = none →
      (t.flush frameEvUs now).realPollingRate = t.realPollingRate) ∧
    ∀ intervalUs, t.interval frameEvUs = some intervalUs →
      (t.flush frameEvUs now).realPollingRate =
        if t.recomputes intervalUs then (medianRate (accepted ++ [intervalUs]) : ℤ)
        else t.realPollingRate := by
  have hsame : ({ t with lastTimeMs := now } : FrameTiming).interval frameEvUs =
      t.interval frameEvUs := rfl
  unfold flush
  dsimp only
  rw [hsame]
  constructor
  · intro hnone
    rw [hnone]
  · intro intervalUs hsome
    have htimed : Holds { t with lastTimeMs := now } accepted := h.of_eq rfl rfl rfl
    rw [hsome]
    exact (feedRing_fed htimed (plausible_interval hsome)).rate

theorem Sane.flush (h : Sane t accepted) (frameEvUs : UInt64) {now : Double}
    (hnow : now.isFinite = true) :
    Sane (t.flush frameEvUs now) (accepted ++ (t.interval frameEvUs).toList) := by
  have hsame : ({ t with lastTimeMs := now } : FrameTiming).interval frameEvUs =
      t.interval frameEvUs := rfl
  have htimed : Holds { t with lastTimeMs := now } accepted := h.holds.of_eq rfl rfl rfl
  unfold FrameTiming.flush
  dsimp only
  rw [hsame]
  cases hinterval : t.interval frameEvUs with
  | none =>
      rw [Option.toList_none, List.append_nil]
      exact ⟨h.holds.of_eq rfl rfl rfl, hnow, h.measured⟩
  | some intervalUs =>
      have hfed := feedRing_fed htimed (plausible_interval hinterval)
      refine ⟨hfed.holds.of_eq rfl rfl rfl, ?_, hfed.measured h.measured⟩
      have hlast := hfed.lastTimeMs
      dsimp only at hlast ⊢
      rw [hlast]
      exact hnow

theorem Sane.closeFrame (h : Sane t accepted) (frameEvUs : UInt64) (now : Timespec) :
    Sane (t.closeFrame frameEvUs now) accepted := by
  unfold FrameTiming.closeFrame
  exact ⟨h.holds.of_eq rfl rfl rfl, isFinite_nowMs now, h.measured⟩

theorem Sane.closeDrop (h : Sane t accepted) (ev : InputEvent) (now : Timespec) :
    Sane (t.closeDrop ev now) accepted := by
  unfold FrameTiming.closeDrop
  exact ⟨h.holds.of_eq rfl rfl rfl, isFinite_nowMs now, h.measured⟩

theorem Sane.applyProfile (h : Sane t accepted) (prof : DeviceProfile)
    (now evNow : Timespec) :
    Sane (t.applyProfile prof now evNow)
      (if prof.prof.rawPassthrough then [] else accepted) := by
  unfold FrameTiming.applyProfile
  dsimp only
  by_cases hraw : prof.prof.rawPassthrough
  · -- the samples stay where they are, and none of them counts
    rw [if_pos hraw, if_pos hraw]
    exact ⟨⟨h.holds.length, rfl, rfl, nofun, nofun, h.holds.stored⟩, isFinite_nowMs now, .inl rfl⟩
  · rw [if_neg hraw, if_neg hraw]
    exact ⟨h.holds.of_eq rfl rfl rfl, isFinite_nowMs now, h.measured⟩

end FrameTiming

/-! ## Runs -/

/-- The timing of a device, its raw passthrough, and the intervals since the last reset. -/
structure TimedRun where
  timing : FrameTiming
  raw : Bool
  accepted : List ℕ

/-- The operations that read or move the timing of a device. -/
inductive TimingStep
  | flushMotion (frameEvUs : UInt64) (now : Timespec)
  | closeFrame (frameEvUs : UInt64) (now : Timespec)
  | closeDrop (ev : InputEvent) (now : Timespec)
  | applyProfile (prof : DeviceProfile) (now evNow : Timespec)

/-- Flushes, frames, windows and profiles, in any order and at any times. -/
def timingMachine : Machine TimedRun TimingStep where
  Start s := ∃ detectedPollingRate pollRate raw,
    s = { timing := { detectedPollingRate, pollRate }, raw, accepted := [] }
  step s
    -- in raw passthrough `flush_motion` leaves the timing
    | .flushMotion frameEvUs now =>
        some (if s.raw then s else { s with
          timing := s.timing.flush frameEvUs now.flushMs
          accepted := s.accepted ++ (s.timing.interval frameEvUs).toList })
    | .closeFrame frameEvUs now => some { s with timing := s.timing.closeFrame frameEvUs now }
    | .closeDrop ev now => some { s with timing := s.timing.closeDrop ev now }
    | .applyProfile prof now evNow =>
        some {
          timing := s.timing.applyProfile prof now evNow
          raw := prof.prof.rawPassthrough
          accepted := if prof.prof.rawPassthrough then [] else s.accepted }

/-- The engine of `process_device` takes the steps of the machine, each at the time that the clock
answers. -/
theorem flushMotion_simulates {P : Type} (clock : ℕ → Timespec)
    (modify : Double → Double → Double → P → (ℤ × ℤ) × P) (m : MotionState P)
    (raw : Bool) (accepted : List ℕ) :
    (∀ dx dy frameEvUs, ∃ accepted', timingMachine.step ⟨m.timing, raw, accepted⟩
        (.flushMotion frameEvUs (clock m.ticks)) =
      some ⟨((flushMotion clock modify).flushMotion raw dx dy frameEvUs m).2.timing, raw,
        accepted'⟩) ∧
    (∀ frameEvUs, timingMachine.step ⟨m.timing, raw, accepted⟩
        (.closeFrame frameEvUs (clock m.ticks)) =
      some ⟨((flushMotion clock modify).closeFrame frameEvUs m).timing, raw, accepted⟩) ∧
    (∀ ev, timingMachine.step ⟨m.timing, raw, accepted⟩ (.closeDrop ev (clock m.ticks)) =
      some ⟨((flushMotion clock modify).closeDrop ev m).timing, raw, accepted⟩) ∧
    ∀ prof, ∃ accepted', timingMachine.step ⟨m.timing, raw, accepted⟩
        (.applyProfile prof (clock m.ticks) (clock (m.ticks + 1))) =
      some ⟨(m.applyProfile clock prof).timing, prof.prof.rawPassthrough, accepted'⟩ := by
  refine ⟨fun dx dy frameEvUs => ?_, fun _ => rfl, fun _ => rfl, fun _ => ⟨_, rfl⟩⟩
  cases raw
  · exact ⟨_, rfl⟩
  · exact ⟨_, rfl⟩

open FrameTiming in
/-- **Interval and polling rate stay sane** in every run: the time of a frame and the ring keep
their bounds, what the ring holds are the last of the accepted intervals, and whenever the rate is
measured it is that of their median. -/
theorem polling_rate_sane (s : TimedRun) (h : timingMachine.Reachable s) :
    (∀ frameEvUs now, defaultTimeMin ≤ s.timing.timeMs frameEvUs (Timespec.flushMs now) ∧
      s.timing.timeMs frameEvUs (Timespec.flushMs now) ≤ defaultTimeMax) ∧
    (s.timing.frameEvUsSamples.length = pollRateSamples ∧
      s.timing.frameEvUsNext < pollRateSamples ∧ s.timing.frameEvUsCount ≤ pollRateSamples) ∧
    (s.timing.frameEvUsCount = min pollRateSamples s.accepted.length ∧
      ∀ j < s.accepted.length, s.accepted.length ≤ j + pollRateSamples →
        s.timing.frameEvUsSamples[j % pollRateSamples]? = s.accepted[j]?) ∧
    (∀ x ∈ s.timing.frameEvUsSamples.take s.timing.frameEvUsCount, 100 ≤ x ∧ x ≤ 200000) ∧
    (∀ x ∈ s.timing.frameEvUsSamples, x = 0 ∨ 100 ≤ x ∧ x ≤ 200000) ∧
    (s.timing.realPollingRate = 0 ∨
      5 ≤ s.timing.realPollingRate ∧ s.timing.realPollingRate ≤ 10000) ∧
    (∀ frameEvUs now, s.timing.interval frameEvUs = none →
      (s.timing.flush frameEvUs now).realPollingRate = s.timing.realPollingRate) ∧
    ∀ frameEvUs now intervalUs, s.timing.interval frameEvUs = some intervalUs →
      (s.timing.flush frameEvUs now).realPollingRate =
        if s.timing.recomputes intervalUs then (medianRate (s.accepted ++ [intervalUs]) : ℤ)
        else s.timing.realPollingRate := by
  have hsane : Sane s.timing s.accepted := by
    refine h.invariant (I := fun s => Sane s.timing s.accepted) ?_ ?_
    · rintro s ⟨detected, rate, raw, rfl⟩
      exact ⟨⟨rfl, rfl, rfl, nofun, nofun, fun x hx => .inl (List.eq_of_mem_replicate hx)⟩,
        isFinite_zero, .inl rfl⟩
    · intro s l s' h _ hstep
      cases l with
      | flushMotion frameEvUs now =>
          cases hstep
          split_ifs
          · exact h
          · exact h.flush frameEvUs (isFinite_flushMs now)
      | closeFrame frameEvUs now =>
          cases hstep
          exact h.closeFrame frameEvUs now
      | closeDrop ev now =>
          cases hstep
          exact h.closeDrop ev now
      | applyProfile prof now evNow =>
          cases hstep
          exact h.applyProfile prof now evNow
  have hring : ∀ x ∈ s.timing.frameEvUsSamples.take s.timing.frameEvUsCount, Plausible x :=
    fun x hx => hsane.holds.allPlausible x
      (mem_lastIntervals (hsane.holds.perm.mem_iff.mp hx))
  refine ⟨timeMs_bounds hsane.finite, ?_, ?_, hring, hsane.holds.stored, hsane.measured, ?_, ?_⟩
  · exact ⟨hsane.holds.length, hsane.holds.next_lt, hsane.holds.count_le⟩
  · exact ⟨hsane.holds.count, hsane.holds.samples⟩
  · exact fun frameEvUs now => (flush_rate hsane.holds frameEvUs now).1
  · exact fun frameEvUs now => (flush_rate hsane.holds frameEvUs now).2

/-- A mouse before its first frame. -/
def atRest : TimedRun := { timing := {}, raw := false, accepted := [] }

/-- Five frames, a millisecond apart. -/
def fiveFrames : List TimingStep :=
  [1000, 2000, 3000, 4000, 5000].map (.flushMotion · ⟨1, 0⟩)

open FrameTiming in
/-- Four intervals of a millisecond are a rate of 1000, and a fifth one keeps it. -/
theorem polling_rate_sane_fiveFrames : ∃ s : TimedRun, timingMachine.Reachable s ∧
    s.timing.realPollingRate = 1000 ∧ s.timing.frameEvUsCount = 4 ∧
    s.timing.frameEvUsSamples[3]? = some 1000 ∧
    (s.timing.flush 6000 0).realPollingRate = medianRate [1000, 1000, 1000, 1000, 1000] := by
  have hexec : (timingMachine.exec (fun _ _ => True) atRest fiveFrames).any (fun s =>
      s.timing.realPollingRate == 1000 && s.accepted == [1000, 1000, 1000, 1000] &&
      s.timing.interval 6000 == some 1000 && s.timing.recomputes 1000) = true := by
    decide +kernel
  obtain ⟨s, hs, hcheck⟩ := (Option.any_eq_true _ _).mp hexec
  simp only [Bool.and_eq_true, beq_iff_eq] at hcheck
  obtain ⟨⟨⟨hrate, haccepted⟩, hinterval⟩, hrecomputes⟩ := hcheck
  have hreachable : timingMachine.Reachable s := .exec (.start ⟨0, 1000, false, rfl⟩) hs
  obtain ⟨-, -, ⟨hcount, hsamples⟩, -, -, -, -, hflush⟩ := polling_rate_sane s hreachable
  have hslot := hsamples 3 (by rw [haccepted]; decide) (by rw [haccepted]; decide)
  have hrate' := hflush 6000 0 1000 hinterval
  rw [haccepted] at hcount hslot hrate'
  rw [if_pos hrecomputes] at hrate'
  exact ⟨s, hreachable, hrate, hcount, hslot, hrate'⟩

end AbrekMouse
