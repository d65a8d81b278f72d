import AbrekMouse.Division
import AbrekMouse.Extended
import AbrekMouse.Histogram
import Mathlib.Data.List.Induction
import Mathlib.Data.Rat.Floor
import Mathlib.Logic.Function.Basic
import Mathlib.Tactic.NormNum
import Mathlib.Tactic.Ring

/-! # Latency statistics

A histogram with an overflow class, and the percentiles of it.  A percentile in the histogram is
the midpoint of a bucket.  The bucket is that of the order statistic, so the midpoint is within
half a bucket of it (`percentile_near`); but in the lower half of the highest bucket the largest
sample is below the midpoint, and then the percentiles rise above `max_us` and fall back to it at
100 (`sound_of_highest`, `highest_of_le_max`).

A percentage is a double, and its rank is computed in doubles: it may be one off the exact one,
zero for the smallest percentages, and past the last sample for the largest counts.  Times are
numbers of an ordered field, without rounding, and samples may be infinite or a nan.  The counters
are natural numbers, so they do not wrap at 64 bits.
-/
namespace AbrekMouse
open ProgLib ProgLib.Fp

variable (K : Type) [Field K] [LinearOrder K] [FloorRing K]

/-- `BUCKETS` -/
def latBuckets : ℕ := 1000

/-- `BUCKET_US` -/
def bucketUs : K := 1 / 2

/-- `RANGE_US` -/
def rangeUs : K := latBuckets * bucketUs K

/-- The counters of a device: the buckets are for the samples below the range, and the others are
only counted.  The counts of the code are these modulo `2 ^ 64`. -/
structure LatStats where
  count : ℕ := 0
  sumUs : K := 0
  minUs : K := 1000000000
  maxUs : K := 0
  hist : List ℕ := List.replicate latBuckets 0
  overflow : ℕ := 0

/-- A copy of the counters. -/
structure LatSnapshot where
  count : ℕ
  sumUs : K
  minUs : K
  maxUs : K
  hist : List ℕ
  overflow : ℕ

variable {K}

/-- The bucket of a sample. -/
def latBucket (x : K) : ℕ := (truncInt (x / bucketUs K)).toNat

/-- What a percentile in a bucket is. -/
def bucketMidpoint (b : ℕ) : K := (b + 1 / 2) * bucketUs K

/-- `ceil(count * pct / 100.0)` in doubles, as an unsigned integer. -/
def percentileTarget (count : ℕ) (pct : Double) : ℕ := (ofInt count * pct / 100 : Double).ceil.toNat

namespace LatStats
variable (s : LatStats K)

/-- A sample that is not finite is dropped, and a negative one counts as zero. -/
def record : Extended K → LatStats K
  | .finite x =>
      let x := if x < 0 then 0 else x
      let s :=
        { s with
          count := s.count + 1
          sumUs := s.sumUs + x
          minUs := if x < s.minUs then x else s.minUs
          maxUs := if x > s.maxUs then x else s.maxUs }
      if x < rangeUs K then { s with hist := s.hist.modify (latBucket x) (· + 1) }
      else { s with overflow := s.overflow + 1 }
  | _ => s

/-- The mean of the samples. -/
def avgUs : K := if 0 < s.count then s.sumUs / s.count else 0

/-- The midpoint of the bucket with the sample at the target, or a share of the overflow. -/
def walk (target : ℕ) : K :=
  match cumulativeBin target s.hist 0 0 with
  | some i => bucketMidpoint i
  | none =>
      if 0 < s.overflow then
        let inRange := s.count - s.overflow
        let pos : K := if inRange < target then ((target - inRange : ℕ) : K) else 0
        let frac := pos / s.overflow
        let frac := if 1 < frac then 1 else frac
        rangeUs K + frac * (s.maxUs - rangeUs K)
      else s.maxUs

/-- The percentile of the live counters. -/
def percentile (pct : Double) : K :=
  if s.count = 0 then 0
  else if pct.isNan then 0
  else if pct ≤ 0 then 0
  else if 100 ≤ pct then s.maxUs
  else s.walk (percentileTarget s.count pct)

/-- The counters as they are. -/
def copy : LatSnapshot K := ⟨s.count, s.sumUs, s.minUs, s.maxUs, s.hist, s.overflow⟩

/-- The counters as they are, and then they are zero. -/
def snapshotAndReset : LatSnapshot K × LatStats K := (s.copy, {})

end LatStats

namespace LatSnapshot
variable (s : LatSnapshot K)

/-- The mean of the samples. -/
def avgUs : K := if 0 < s.count then s.sumUs / s.count else 0

/-- The midpoint of the bucket with the sample at the target, or a share of the overflow. -/
def walk (target : ℕ) : K :=
  match cumulativeBin target s.hist 0 0 with
  | some i => bucketMidpoint i
  | none =>
      if 0 < s.overflow then
        let inRange := s.count - s.overflow
        let pos : K := if inRange < target then ((target - inRange : ℕ) : K) else 0
        let frac := pos / s.overflow
        let frac := if 1 < frac then 1 else frac
        rangeUs K + frac * (s.maxUs - rangeUs K)
      else s.maxUs

/-- The percentile of the copied counters. -/
def percentile (pct : Double) : K :=
  if s.count = 0 then 0
  else if pct.isNan then 0
  else if pct ≤ 0 then 0
  else if 100 ≤ pct then s.maxUs
  else s.walk (percentileTarget s.count pct)

end LatSnapshot

/-! ## Histories -/

/-- What is done with the statistics of some devices. -/
inductive LatOp (ι K : Type)
  | record (i : ι) (latUs : Extended K)
  | reset (i : ι)
  | snapshotAndReset (i : ι)
  | move (dst src : ι)

namespace LatOp
variable {ι : Type} [DecidableEq ι]

/-- What an operation makes of the statistics; a move to itself does nothing. -/
def apply (σ : ι → LatStats K) : LatOp ι K → ι → LatStats K
  | record i latUs => Function.update σ i ((σ i).record latUs)
  | reset i => Function.update σ i {}
  | snapshotAndReset i => Function.update σ i (σ i).snapshotAndReset.2
  | move dst src =>
      if dst = src then σ else Function.update (Function.update σ dst (σ src)) src {}

/-- A sample is not negative, and is finite. -/
def samplesOf : Extended K → List K
  | .finite x => [if x < 0 then 0 else x]
  | _ => []

/-- The samples that the statistics are about. -/
def collect (xs : ι → List K) : LatOp ι K → ι → List K
  | record i latUs => Function.update xs i (xs i ++ samplesOf latUs)
  | reset i => Function.update xs i []
  | snapshotAndReset i => Function.update xs i []
  | move dst src =>
      if dst = src then xs else Function.update (Function.update xs dst (xs src)) src []

/-- The statistics after a history. -/
def run (ops : List (LatOp ι K)) : ι → LatStats K := ops.foldl apply fun _ => {}

/-- The samples since the last reset, after a history. -/
def samples (ops : List (LatOp ι K)) : ι → List K := ops.foldl collect fun _ => []

end LatOp

/-! ## What the counters say of the samples -/

/-- The counters are those of the samples. -/
structure LatStats.Describes (s : LatStats K) (xs : List K) : Prop where
  count : s.count = xs.length
  sumUs : s.sumUs = xs.sum
  minUs : s.minUs = xs.foldl min 1000000000
  maxUs : s.maxUs = xs.foldl max 0
  hist : s.hist = (List.range latBuckets).map fun b => xs.countP (latBucket · = b)
  overflow : s.overflow = xs.countP (rangeUs K ≤ ·)
  nonneg : ∀ x ∈ xs, 0 ≤ x

variable {s : LatStats K} {xs : List K} {x : K}

theorem rangeUs_eq : rangeUs K = 500 := by
  unfold rangeUs bucketUs latBuckets
  norm_num

theorem LatStats.Describes.empty : LatStats.Describes ({} : LatStats K) [] where
  count := rfl
  sumUs := rfl
  minUs := rfl
  maxUs := rfl
  hist := by
    refine List.ext_getElem (by simp) fun b _ _ => ?_
    simp
  overflow := rfl
  nonneg := nofun

section
variable (h : s.Describes xs)
include h

theorem LatStats.Describes.le_maxUs (hx : x ∈ xs) : x ≤ s.maxUs := h.maxUs ▸ foldl_max_spec.2.1 x hx

theorem LatStats.Describes.maxUs_nonneg : 0 ≤ s.maxUs := h.maxUs ▸ foldl_max_spec.1

/-- The largest sample. -/
theorem LatStats.Describes.maxUs_mem (hne : xs ≠ []) : s.maxUs ∈ xs := by
  have hspec : xs.foldl max 0 = 0 ∨ xs.foldl max 0 ∈ xs := foldl_max_spec.2.2
  rcases hspec with hzero | hmem
  · -- then all samples are zero
    obtain ⟨x, hx⟩ := List.exists_mem_of_ne_nil xs hne
    have hmax := h.maxUs.trans hzero
    have hle := h.le_maxUs hx
    rw [hmax] at hle ⊢
    exact le_antisymm hle (h.nonneg x hx) ▸ hx
  · rw [h.maxUs]
    exact hmem

theorem LatStats.Describes.over_le_maxUs (hover : 0 < s.overflow) : rangeUs K ≤ s.maxUs := by
  rw [h.overflow] at hover
  obtain ⟨x, hx, hle⟩ := List.countP_pos_iff.mp hover
  exact (of_decide_eq_true hle).trans (h.le_maxUs hx)

end

variable [IsStrictOrderedRing K]

theorem bucketUs_pos : 0 < bucketUs K := by
  unfold bucketUs
  norm_num

theorem bucketMidpoint_mono {b b' : ℕ} (hb : b ≤ b') :
    (bucketMidpoint b : K) ≤ bucketMidpoint b' := by
  have hcast : (b : K) ≤ b' := Nat.cast_le.mpr hb
  exact mul_le_mul_of_nonneg_right (by linarith) bucketUs_pos.le

theorem bucketMidpoint_lt_range {b : ℕ} (hb : b < latBuckets) :
    (bucketMidpoint b : K) < rangeUs K := by
  have hcast : (b : K) + 1 ≤ latBuckets := by
    have hsucc : ((b + 1 : ℕ) : K) ≤ latBuckets := Nat.cast_le.mpr hb
    rwa [Nat.cast_add, Nat.cast_one] at hsucc
  exact mul_lt_mul_of_pos_right (by linarith) bucketUs_pos

theorem floor_bucket (hx : 0 ≤ x) : (latBucket x : ℤ) = ⌊x / bucketUs K⌋ := by
  have hq : 0 ≤ x / bucketUs K := div_nonneg hx bucketUs_pos.le
  unfold latBucket truncInt
  rw [if_pos hq, Int.toNat_of_nonneg (Int.floor_nonneg.mpr hq)]

/-- A sample is below an edge exactly if its bucket is before it. -/
theorem latBucket_lt_iff (hx : 0 ≤ x) (j : ℕ) : latBucket x < j ↔ x < j * bucketUs K := by
  rw [← Int.ofNat_lt, floor_bucket hx, Int.floor_lt, div_lt_iff₀ bucketUs_pos]
  simp

/-- **A sample is counted.** -/
theorem record_describes (h : s.Describes xs) (v : Extended K) :
    (s.record v).Describes (xs ++ LatOp.samplesOf v) := by
  cases v with
  | finite v =>
      unfold LatStats.record LatOp.samplesOf
      dsimp only
      generalize hx : (if v < 0 then 0 else v) = x
      have hpos : 0 ≤ x := by
        rw [← hx]
        split_ifs with hneg
        · exact le_refl 0
        · exact not_lt.mp hneg
      have hnonneg : ∀ y ∈ xs ++ [x], 0 ≤ y := by
        intro y hy
        rcases List.mem_append.mp hy with hy | hy
        · exact h.nonneg y hy
        · exact List.mem_singleton.mp hy ▸ hpos
      have hmin : (if x < s.minUs then x else s.minUs) = (xs ++ [x]).foldl min 1000000000 := by
        rw [List.foldl_append, ← h.minUs, List.foldl_cons, List.foldl_nil, min_comm, min_def_lt]
      have hmax : (if x > s.maxUs then x else s.maxUs) = (xs ++ [x]).foldl max 0 := by
        rw [List.foldl_append, ← h.maxUs, List.foldl_cons, List.foldl_nil, max_def_lt]
      have hcounted : s.hist.modify (latBucket x) (· + 1) =
          (List.range latBuckets).map fun b => (xs ++ [x]).countP (latBucket · = b) := by
        rw [h.hist, modify_counts]
      have hedge := latBucket_lt_iff hpos latBuckets
      by_cases hrange : x < rangeUs K
      · rw [if_pos hrange]
        refine ⟨?_, ?_, hmin, hmax, hcounted, ?_, hnonneg⟩
        · rw [List.length_append, ← h.count]
          rfl
        · rw [List.sum_append, ← h.sumUs, List.sum_singleton]
        · have hinside : ¬rangeUs K ≤ x := not_le.mpr hrange
          rw [h.overflow, List.countP_append, List.countP_singleton, decide_eq_false hinside]
          rfl
      · rw [if_neg hrange]
        refine ⟨?_, ?_, hmin, hmax, ?_, ?_, hnonneg⟩
        · rw [List.length_append, ← h.count]
          rfl
        · rw [List.sum_append, ← h.sumUs, List.sum_singleton]
        · -- no bucket is that of the sample
          rw [← hcounted, List.modify_eq_self]
          rw [h.hist, List.length_map, List.length_range]
          exact not_lt.mp fun hlt => hrange (hedge.mp hlt)
        · rw [h.overflow, List.countP_append, List.countP_singleton,
            decide_eq_true (not_lt.mp hrange)]
          rfl
  | posInf => exact (List.append_nil xs).symm ▸ h
  | negInf => exact (List.append_nil xs).symm ▸ h
  | nan => exact (List.append_nil xs).symm ▸ h

/-- **Every counter is that of the samples since the last reset**, after any history. -/
theorem run_describes {ι : Type} [DecidableEq ι] (ops : List (LatOp ι K)) :
    ∀ i, (LatOp.run ops i).Describes (LatOp.samples ops i) := by
  unfold LatOp.run LatOp.samples
  -- on the operations, the last one first
  induction ops using List.reverseRecOn with
  | nil => exact fun _ => LatStats.Describes.empty
  | append_singleton ops op ih =>
      rw [List.foldl_append, List.foldl_append, List.foldl_cons, List.foldl_cons, List.foldl_nil,
        List.foldl_nil]
      generalize ops.foldl LatOp.apply (fun _ => {}) = σ at ih ⊢
      generalize ops.foldl LatOp.collect (fun _ => []) = xs at ih ⊢
      have hupdate : ∀ {τ : ι → LatStats K} {ys : ι → List K} {j : ι} {s : LatStats K}
          {zs : List K}, (∀ i, (τ i).Describes (ys i)) → s.Describes zs →
          ∀ i, (Function.update τ j s i).Describes (Function.update ys j zs i) := by
        intro τ ys j s zs hτ hs i
        by_cases hi : i = j
        · subst hi
          rw [Function.update_self, Function.update_self]
          exact hs
        · rw [Function.update_of_ne hi, Function.update_of_ne hi]
          exact hτ i
      cases op with
      | record j latUs => exact hupdate ih (record_describes (ih j) latUs)
      | reset j => exact hupdate ih LatStats.Describes.empty
      | snapshotAndReset j => exact hupdate ih LatStats.Describes.empty
      | move dst src =>
          show ∀ i, ((if dst = src then σ else
            Function.update (Function.update σ dst (σ src)) src {}) i).Describes
              ((if dst = src then xs else
                Function.update (Function.update xs dst (xs src)) src []) i)
          split_ifs
          · exact ih
          · exact hupdate (hupdate ih (ih src)) LatStats.Describes.empty

/-! ## The walk over the buckets -/

namespace LatStats.Describes
variable (h : s.Describes xs)
include h

theorem sum_take {j : ℕ} (hj : j ≤ latBuckets) :
    (s.hist.take j).sum = xs.countP (· < j * bucketUs K) := by
  rw [h.hist, sum_take_counts latBucket xs hj]
  refine List.countP_congr fun x hx => ?_
  rw [decide_eq_true_iff, decide_eq_true_iff, latBucket_lt_iff (h.nonneg x hx)]

theorem sum_hist : s.hist.sum = xs.countP (· < rangeUs K) := by
  have hall := h.sum_take (Nat.le_refl latBuckets)
  rwa [List.take_of_length_le (by rw [h.hist, List.length_map, List.length_range])] at hall

theorem count_eq : s.count = s.hist.sum + s.overflow := by
  rw [h.count, h.sum_hist, h.overflow, List.length_eq_countP_add_countP (· < rangeUs K)]
  refine congrArg _ (List.countP_congr fun x _ => ?_)
  simp

/-- A target in the histogram. -/
theorem walk_inside {t : ℕ} (ht : 0 < t) (hin : t ≤ s.hist.sum) :
    ∃ b < latBuckets, s.walk t = bucketMidpoint b ∧ xs.countP (· < b * bucketUs K) < t ∧
      t ≤ xs.countP (· < (b + 1 : ℕ) * bucketUs K) := by
  have hlength : s.hist.length = latBuckets := by rw [h.hist, List.length_map, List.length_range]
  cases hfound : cumulativeBin t s.hist 0 0 with
  | none =>
      have hsum := (cumulativeBin_eq_none ht).mp hfound
      omega
  | some b =>
      obtain ⟨j, hj, rfl, hbelow, hat⟩ := cumulativeBin_eq_some ht hfound
      rw [hlength] at hj
      rw [Nat.zero_add, h.sum_take hj.le] at hbelow
      rw [Nat.zero_add, h.sum_take hj] at hat
      rw [Nat.zero_add] at hfound
      refine ⟨j, hj, ?_, hbelow, hat⟩
      unfold LatStats.walk
      rw [hfound]

/-- A target in the overflow. -/
theorem walk_over {t : ℕ} (ht : s.hist.sum < t) (hcount : t ≤ s.count) :
    s.walk t = rangeUs K + ((t - s.hist.sum : ℕ) : K) / s.overflow * (s.maxUs - rangeUs K) := by
  have hcount' := h.count_eq
  have hover : 0 < s.overflow := by omega
  have hfound : cumulativeBin t s.hist 0 0 = none :=
    (cumulativeBin_eq_none (by omega)).mpr (by omega)
  have hinRange : s.count - s.overflow = s.hist.sum := by omega
  have hfrac : ((t - s.hist.sum : ℕ) : K) / s.overflow ≤ 1 := by
    rw [div_le_one (Nat.cast_pos.mpr hover), Nat.cast_le]
    omega
  unfold LatStats.walk
  rw [hfound]
  dsimp only
  rw [if_pos hover, hinRange, if_pos ht, if_neg (not_lt.mpr hfrac)]

/-- The walk finds the bucket of the order statistic. -/
theorem walk_latBucket {t : ℕ} (ht : 0 < t) (hin : t ≤ s.hist.sum) {y : K}
    (hy : orderStatistic xs t = some y) : s.walk t = bucketMidpoint (latBucket y) := by
  obtain ⟨b, -, hwalk, hbelow, hat⟩ := h.walk_inside ht hin
  have hpos := h.nonneg y (orderStatistic_mem hy)
  have hlow : ¬y < b * bucketUs K := fun hlt => by
    have hreach := (orderStatistic_lt_iff ht hy).mp hlt
    omega
  have hhigh := (orderStatistic_lt_iff ht hy).mpr hat
  rw [← latBucket_lt_iff hpos] at hlow hhigh
  rw [hwalk]
  exact congrArg bucketMidpoint (by omega)

/-- The order statistic is in the histogram if the walk ends there. -/
theorem orderStatistic_lt_range {t : ℕ} (ht : 0 < t) {y : K}
    (hy : orderStatistic xs t = some y) : y < rangeUs K ↔ t ≤ s.hist.sum := by
  rw [h.sum_hist]
  exact orderStatistic_lt_iff ht hy

theorem walk_mono {t t' : ℕ} (ht : 0 < t) (hle : t ≤ t') (hcount : t' ≤ s.count) :
    s.walk t ≤ s.walk t' := by
  rcases Nat.lt_or_ge s.hist.sum t' with hover' | hin'
  · have hcount' := h.count_eq
    have hmax := h.over_le_maxUs (by omega)
    have hmax : 0 ≤ s.maxUs - rangeUs K := sub_nonneg.mpr hmax
    have hcast : (0 : K) ≤ s.overflow := Nat.cast_nonneg _
    rw [h.walk_over hover' hcount]
    rcases Nat.lt_or_ge s.hist.sum t with hover | hin
    · rw [h.walk_over hover (hle.trans hcount)]
      have hshare : ((t - s.hist.sum : ℕ) : K) ≤ ((t' - s.hist.sum : ℕ) : K) :=
        Nat.cast_le.mpr (Nat.sub_le_sub_right hle _)
      gcongr
    · obtain ⟨b, hb, hwalk, -, -⟩ := h.walk_inside ht hin
      have hshare : (0 : K) ≤ ((t' - s.hist.sum : ℕ) : K) / s.overflow * (s.maxUs - rangeUs K) :=
        mul_nonneg (div_nonneg (Nat.cast_nonneg _) hcast) hmax
      have hmid : (bucketMidpoint b : K) ≤ rangeUs K := (bucketMidpoint_lt_range hb).le
      rw [hwalk]
      linarith
  · obtain ⟨b, -, hwalk, hbelow, -⟩ := h.walk_inside ht (hle.trans hin')
    obtain ⟨b', -, hwalk', -, hat'⟩ := h.walk_inside (ht.trans_le hle) hin'
    rw [hwalk, hwalk']
    have hbuckets : b ≤ b' := by
      by_contra hlt
      -- the edge behind the second bucket is not above the first one
      have hedge : xs.countP (· < (b' + 1 : ℕ) * bucketUs K) ≤ xs.countP (· < b * bucketUs K) := by
        refine List.countP_mono_left fun x _ hx => ?_
        refine decide_eq_true ((of_decide_eq_true hx).trans_le ?_)
        have hcast : ((b' + 1 : ℕ) : K) ≤ b := Nat.cast_le.mpr (by omega)
        exact mul_le_mul_of_nonneg_right hcast bucketUs_pos.le
      omega
    exact bucketMidpoint_mono hbuckets

omit [IsStrictOrderedRing K] in
/-- At rank zero the first bucket is taken, whatever it holds. -/
theorem walk_zero : s.walk 0 = bucketMidpoint 0 := by
  have hfound : cumulativeBin 0 s.hist 0 0 = some 0 := by
    cases hhist : s.hist with
    | nil =>
        have hlength : s.hist.length = latBuckets := by
          rw [h.hist, List.length_map, List.length_range]
        rw [hhist] at hlength
        cases hlength
    | cons b bs => exact if_pos (Nat.zero_le _)
  unfold LatStats.walk
  rw [hfound]

/-- Past the last sample there is the largest. -/
theorem walk_beyond {t : ℕ} (ht : s.count < t) : s.walk t = s.maxUs := by
  have hcount := h.count_eq
  have hfound : cumulativeBin t s.hist 0 0 = none :=
    (cumulativeBin_eq_none (by omega)).mpr (by omega)
  unfold LatStats.walk
  rw [hfound]
  dsimp only
  split_ifs with hover hpos hfrac hfrac
  · rw [one_mul, add_sub_cancel]
  · refine absurd ?_ hfrac
    have hlt : s.overflow < t - (s.count - s.overflow) := by omega
    rw [one_lt_div (Nat.cast_pos.mpr hover), Nat.cast_lt]
    exact hlt
  · rw [one_mul, add_sub_cancel]
  · omega
  · rfl

end LatStats.Describes

/-! ## Ranks -/

/-- A percentage between 0 and 100 is a positive number. -/
theorem between_eq {pct : Double} (hnan : pct.isNan = false) (hpos : ¬pct ≤ 0)
    (hlt : ¬100 ≤ pct) : ∃ m h, pct = fin false m h ∧ 0 < m := by
  have hkey : 0 < pct.key := by
    by_contra hle
    have hzero : (0 : Double).isNan = false := isNan_of_isFinite (isFinite_ofInt (by decide))
    exact hpos ⟨hnan, hzero, key_zero.symm ▸ not_lt.mp hle⟩
  cases pct with
  | nan => cases hnan
  | inf neg =>
      cases neg with
      | true =>
          have hkey : (0 : ℤ) < -2 ^ binary64.top := hkey
          have htop : (0 : ℤ) < 2 ^ binary64.top := by positivity
          omega
      | false =>
          rw [hundred_eq (by decide)] at hlt
          refine absurd ⟨rfl, rfl, ?_⟩ hlt
          exact Plus.key_le (.inr ⟨_, _, rfl⟩)
  | fin neg m hm =>
      cases neg with
      | true =>
          have hkey : 0 < -(m : ℤ) := hkey
          omega
      | false =>
          rw [key_fin] at hkey
          exact ⟨m, hm, rfl, by exact_mod_cast hkey⟩

/-- The ranks grow with the percentages. -/
theorem percentileTarget_mono (count : ℕ) {m n : ℕ} (hm : binary64.Fits m) (hn : binary64.Fits n)
    (hpos : 0 < m) (hle : m ≤ n) :
    percentileTarget count (fin false m hm) ≤ percentileTarget count (fin false n hn) := by
  obtain ⟨hplus, hproduct⟩ := (plus_ofInt count).mul hm hn hpos hle
  have hplus' := ((plus_ofInt count).mul hn hn (hpos.trans_le hle) (le_refl n)).1
  have hhundred : 0 < 100 * 2 ^ binary64.unit := by positivity
  unfold percentileTarget
  rw [hundred_eq (by decide)]
  exact Int.toNat_le_toNat (ceil_mono (hplus.div hplus' _ hhundred hproduct).2)

/-- A percentage just below 100 reaches the last of up to `2 ^ 46` samples. -/
theorem exists_last_target {count : ℕ} (hcount : 0 < count) (hmany : count < 2 ^ 46) :
    ∃ pct : Double, 0 < pct ∧ ¬100 ≤ pct ∧ percentileTarget count pct = count := by
  have hprec : 100 * 2 ^ 46 - 1 < 2 ^ binary64.prec := by decide
  have hunit : 46 ≤ binary64.unit := by decide
  obtain ⟨hpos, hlt⟩ := almostHundred_between hprec hunit
  refine ⟨almostHundred hprec, hpos, hlt, ?_⟩
  unfold percentileTarget
  rw [ceil_almostHundred hprec hunit hcount hmany, Int.toNat_natCast]

/-! ## Percentiles -/

namespace LatStats

/-- The rank of a percentage; from 100 on it is that of the last sample. -/
def rank (s : LatStats K) (pct : Double) : ℕ :=
  if 100 ≤ pct then s.count else percentileTarget s.count pct

omit [FloorRing K] [IsStrictOrderedRing K] in
/-- Where the walk is taken: there is a sample, and the percentage is between 0 and 100. -/
theorem percentile_cases (s : LatStats K) (pct : Double) :
    (s.percentile pct = 0 ∧ (s.count = 0 ∨ pct.isNan = true ∨ pct ≤ 0)) ∨
      (0 < s.count ∧ 100 ≤ pct ∧ s.percentile pct = s.maxUs) ∨
      (0 < s.count ∧ s.percentile pct = s.walk (s.rank pct) ∧
        s.rank pct = percentileTarget s.count pct ∧ ¬100 ≤ pct ∧
        ∃ m h, pct = fin false m h ∧ 0 < m) := by
  unfold percentile
  by_cases hcount : s.count = 0
  · exact .inl ⟨if_pos hcount, .inl hcount⟩
  rw [if_neg hcount]
  by_cases hnan : pct.isNan = true
  · exact .inl ⟨if_pos hnan, .inr (.inl hnan)⟩
  rw [if_neg hnan]
  by_cases hneg : pct ≤ 0
  · exact .inl ⟨if_pos hneg, .inr (.inr hneg)⟩
  rw [if_neg hneg]
  by_cases hfull : 100 ≤ pct
  · exact .inr (.inl ⟨Nat.pos_of_ne_zero hcount, hfull, if_pos hfull⟩)
  · rw [if_neg hfull, rank, if_neg hfull]
    exact .inr (.inr ⟨Nat.pos_of_ne_zero hcount, rfl, rfl, hfull,
      between_eq (Bool.eq_false_of_not_eq_true hnan) hneg hfull⟩)

omit [FloorRing K] [IsStrictOrderedRing K] in
/-- The percentiles of a copy are those of the statistics. -/
theorem copy_percentile (p : Double) : s.copy.percentile p = s.percentile p := rfl

/-- What the statistics of some samples promise. -/
structure Sound (s : LatStats K) (xs : List K) : Prop where
  count : s.count = s.hist.sum + s.overflow
  min_le_max : 0 < s.count → s.minUs ≤ s.maxUs
  mono : ∀ p q : Double, p ≤ q → s.percentile p ≤ s.percentile q
  le_max : ∀ p, s.percentile p ≤ s.maxUs
  near : ∀ pct : Double, 0 < pct → 0 < s.rank pct → ∀ y, orderStatistic xs (s.rank pct) = some y →
    y < rangeUs K → |s.percentile pct - y| ≤ bucketUs K / 2
  copy : ∀ p, s.copy.percentile p = s.percentile p ∧
    s.snapshotAndReset.1.percentile p = s.percentile p

/-- There is no sample, one in the overflow, or the largest is in the upper half of its bucket. -/
def HighestInUpperHalf (xs : List K) : Prop :=
  xs = [] ∨ (∃ x ∈ xs, rangeUs K ≤ x) ∨
    ∃ x ∈ xs, (∀ y ∈ xs, y ≤ x) ∧ bucketMidpoint (latBucket x) ≤ x

namespace Describes
variable (h : s.Describes xs)
include h

omit [IsStrictOrderedRing K] in
theorem min_le_max (hcount : 0 < s.count) : s.minUs ≤ s.maxUs := by
  rw [h.count] at hcount
  obtain ⟨x, hx⟩ := List.exists_mem_of_length_pos hcount
  exact (h.minUs ▸ foldl_min_le.2 x hx).trans (h.le_maxUs hx)

/-- No sample among the first is above the largest, nor is its bucket's midpoint. -/
theorem walk_le_max_inside (hhigh : HighestInUpperHalf xs) {t : ℕ} (ht : 0 < t)
    (hcount : t ≤ s.count) : s.walk t ≤ s.maxUs := by
  have hcount' := h.count_eq
  rcases Nat.eq_zero_or_pos s.overflow with hover | hover
  · obtain ⟨y, hy⟩ : ∃ y, orderStatistic xs t = some y := by
      refine ⟨_, List.getElem?_eq_getElem ?_⟩
      rw [List.length_insertionSort, ← h.count]
      omega
    have hmem := orderStatistic_mem hy
    rw [h.walk_latBucket ht (by omega) hy]
    rcases hhigh with rfl | ⟨x, hx, hrange⟩ | ⟨x, hx, hlargest, hhalf⟩
    · cases hmem
    · have hnone := List.countP_eq_zero.mp (h.overflow.symm.trans hover) x hx
      exact absurd (decide_eq_true hrange) hnone
    · have hbucket : latBucket y ≤ latBucket x := by
        have hedge := (latBucket_lt_iff (h.nonneg x hx) (latBucket x + 1)).mp (Nat.lt_succ_self _)
        exact Nat.le_of_lt_succ ((latBucket_lt_iff (h.nonneg y hmem) _).mpr
          ((hlargest y hmem).trans_lt hedge))
      exact (bucketMidpoint_mono hbucket).trans (hhalf.trans (h.le_maxUs hx))
  · have hrange := h.over_le_maxUs hover
    have hlast := h.walk_mono ht hcount le_rfl
    have hall : s.walk s.count = s.maxUs := by
      have hover' : ((s.count - s.hist.sum : ℕ) : K) = s.overflow := congrArg Nat.cast (by omega)
      have hne : (s.overflow : K) ≠ 0 := Nat.cast_ne_zero.mpr hover.ne'
      rw [h.walk_over (by omega) le_rfl, hover', div_self hne, one_mul, add_sub_cancel]
    exact hall ▸ hlast

/-- The first bucket is below what follows. -/
theorem walk_zero_le {t : ℕ} (ht : 0 < t) (hcount : t ≤ s.count) : s.walk 0 ≤ s.walk t := by
  have hcount' := h.count_eq
  rw [h.walk_zero]
  rcases Nat.lt_or_ge s.hist.sum t with hover | hin
  · have hmax := h.over_le_maxUs (by omega)
    have hshare : (0 : K) ≤ ((t - s.hist.sum : ℕ) : K) / s.overflow * (s.maxUs - rangeUs K) :=
      mul_nonneg (div_nonneg (Nat.cast_nonneg _) (Nat.cast_nonneg _)) (sub_nonneg.mpr hmax)
    have hmid : (bucketMidpoint 0 : K) ≤ rangeUs K := (bucketMidpoint_lt_range (by decide)).le
    rw [h.walk_over hover hcount]
    linarith
  · obtain ⟨b, -, hwalk, -, -⟩ := h.walk_inside ht hin
    rw [hwalk]
    exact bucketMidpoint_mono (Nat.zero_le b)

/-- Whatever the rank is. -/
theorem walk_le_max (hhigh : HighestInUpperHalf xs) (hcount : 0 < s.count) (t : ℕ) :
    s.walk t ≤ s.maxUs := by
  rcases Nat.lt_or_ge s.count t with hbeyond | hle
  · exact (h.walk_beyond hbeyond).le
  · rcases Nat.eq_zero_or_pos t with rfl | ht
    · have hlast := h.walk_le_max_inside hhigh hcount (le_refl _)
      exact (h.walk_zero_le hcount (le_refl _)).trans hlast
    · exact h.walk_le_max_inside hhigh ht hle

theorem walk_mono_all (hhigh : HighestInUpperHalf xs) (hcount : 0 < s.count) {t t' : ℕ}
    (hle : t ≤ t') : s.walk t ≤ s.walk t' := by
  rcases Nat.lt_or_ge s.count t' with hbeyond | hin
  · rw [h.walk_beyond hbeyond]
    exact h.walk_le_max hhigh hcount t
  · rcases Nat.eq_zero_or_pos t with rfl | ht
    · rcases Nat.eq_zero_or_pos t' with rfl | ht'
      · exact le_refl _
      · exact h.walk_zero_le ht' hin
    · exact h.walk_mono ht hle hin

theorem walk_nonneg (t : ℕ) : 0 ≤ s.walk t := by
  have hmid (b : ℕ) : (0 : K) ≤ bucketMidpoint b := by
    have hb : (0 : K) ≤ b := Nat.cast_nonneg b
    exact mul_nonneg (by linarith) bucketUs_pos.le
  rcases Nat.lt_or_ge s.count t with hbeyond | hle
  · rw [h.walk_beyond hbeyond]
    exact h.maxUs_nonneg
  · rcases Nat.eq_zero_or_pos t with rfl | ht
    · rw [h.walk_zero]
      exact hmid 0
    · have hfirst := h.walk_zero_le ht hle
      rw [h.walk_zero] at hfirst
      exact (hmid 0).trans hfirst

theorem percentile_le_max (hhigh : HighestInUpperHalf xs) (p : Double) :
    s.percentile p ≤ s.maxUs := by
  rcases s.percentile_cases p with ⟨hzero, -⟩ | ⟨-, -, hmax⟩ | ⟨hcount, hwalk, -⟩
  · rw [hzero]
    exact h.maxUs_nonneg
  · exact hmax.le
  · rw [hwalk]
    exact h.walk_le_max hhigh hcount _

/-- **A percentile is within half a bucket of the order statistic.** -/
theorem percentile_near {pct : Double} (hpos : 0 < pct) (hrank : 0 < s.rank pct) {y : K}
    (hy : orderStatistic xs (s.rank pct) = some y) (hrange : y < rangeUs K) :
    |s.percentile pct - y| ≤ bucketUs K / 2 := by
  have hmem := orderStatistic_mem hy
  have hcount : 0 < s.count := h.count ▸ List.length_pos_of_mem hmem
  have hhalf : (0 : K) < bucketUs K / 2 := half_pos bucketUs_pos
  rcases s.percentile_cases pct with ⟨-, hnone | hnan | hneg⟩ | ⟨-, hfull, hmax⟩ | ⟨-, hwalk, -⟩
  · omega
  · rw [hpos.2.1] at hnan
    cases hnan
  · exact absurd hpos.2.2 (not_lt.mpr hneg.2.2)
  · -- the last order statistic is the maximum
    rw [rank, if_pos hfull, h.count] at hy
    have hlargest : s.maxUs ≤ y :=
      le_orderStatistic_length hy (h.maxUs_mem (List.ne_nil_of_mem hmem))
    rw [hmax, le_antisymm hlargest (h.le_maxUs hmem), sub_self, abs_zero]
    exact hhalf.le
  · have hin := (h.orderStatistic_lt_range hrank hy).mp hrange
    have hlow := (latBucket_lt_iff (h.nonneg y hmem) (latBucket y)).not.mp (lt_irrefl _)
    have hhigh := (latBucket_lt_iff (h.nonneg y hmem) (latBucket y + 1)).mp (Nat.lt_succ_self _)
    rw [hwalk, h.walk_latBucket hrank hin hy, abs_le]
    unfold bucketMidpoint
    rw [Nat.cast_add, Nat.cast_one, add_mul, one_mul] at hhigh
    rw [add_mul]
    constructor <;> linarith

theorem percentile_nonneg (p : Double) : 0 ≤ s.percentile p := by
  rcases s.percentile_cases p with ⟨hzero, -⟩ | ⟨-, -, hmax⟩ | ⟨-, hwalk, -⟩
  · exact hzero.ge
  · rw [hmax]
    exact h.maxUs_nonneg
  · rw [hwalk]
    exact h.walk_nonneg _

/-- The percentiles grow with the percentages: below 100 their ranks do. -/
theorem percentile_mono (hhigh : HighestInUpperHalf xs) {p q : Double} (hpq : p ≤ q) :
    s.percentile p ≤ s.percentile q := by
  rcases s.percentile_cases p with ⟨hzero, -⟩ | ⟨hcount, hfull, hmax⟩ |
    ⟨hcount, hwalk, htarget, hless, m, hm, rfl, hpos⟩
  · rw [hzero]
    exact h.percentile_nonneg q
  · have hfull' : 100 ≤ q := ⟨hfull.1, hpq.2.1, hfull.2.2.trans hpq.2.2⟩
    rcases s.percentile_cases q with ⟨-, hnone | hnan | hneg⟩ | ⟨-, -, hmax'⟩ | ⟨-, -, -, hless, -⟩
    · omega
    · rw [hfull'.2.1] at hnan
      cases hnan
    · exact absurd (hfull'.2.2.trans hneg.2.2) (by decide +kernel)
    · rw [hmax, hmax']
    · exact absurd hfull' hless
  · rcases s.percentile_cases q with ⟨-, hnone | hnan | hneg⟩ | ⟨-, -, hmax⟩ |
      ⟨-, hwalk', htarget', -, n, hn, rfl, -⟩
    · omega
    · rw [hpq.2.1] at hnan
      cases hnan
    · have hkey := hpq.2.2.trans hneg.2.2
      rw [key_fin, key_zero] at hkey
      omega
    · rw [hmax]
      exact h.percentile_le_max hhigh _
    · have hle : m ≤ n := by
        have hkey := hpq.2.2
        rw [key_fin, key_fin] at hkey
        exact_mod_cast hkey
      rw [hwalk, hwalk', htarget, htarget']
      exact h.walk_mono_all hhigh hcount (percentileTarget_mono s.count hm hn hpos hle)

/-- The percentile just below 100 is that of the largest sample. -/
theorem highest_of_le_max (hmany : xs.length < 2 ^ 46) (hmax : ∀ p, s.percentile p ≤ s.maxUs) :
    HighestInUpperHalf xs := by
  by_cases hne : xs = []
  · exact .inl hne
  by_cases hover : ∃ x ∈ xs, rangeUs K ≤ x
  · exact .inr (.inl hover)
  have hmem := h.maxUs_mem hne
  refine .inr (.inr ⟨s.maxUs, hmem, fun y hy => h.le_maxUs hy, ?_⟩)
  have hcount : 0 < s.count := h.count ▸ List.length_pos_of_mem hmem
  obtain ⟨pct, hpos, hless, hlast⟩ := exists_last_target hcount (h.count ▸ hmany)
  have hwalk : s.percentile pct = s.walk s.count := by
    rcases s.percentile_cases pct with ⟨-, hnone | hnan | hneg⟩ | ⟨-, hfull, -⟩ |
      ⟨-, hwalk, htarget, -⟩
    · omega
    · rw [hpos.2.1] at hnan
      cases hnan
    · exact absurd hpos.2.2 (not_lt.mpr hneg.2.2)
    · exact absurd hfull hless
    · rw [hwalk, htarget, hlast]
  have hlargest : orderStatistic xs s.count = some s.maxUs := by
    obtain ⟨y, hy⟩ : ∃ y, orderStatistic xs xs.length = some y := by
      refine ⟨_, List.getElem?_eq_getElem ?_⟩
      rw [List.length_insertionSort, ← h.count]
      omega
    have hle : s.maxUs ≤ y := le_orderStatistic_length hy hmem
    rw [h.count, hy, le_antisymm hle (h.le_maxUs (orderStatistic_mem hy))]
  have hin : s.count ≤ s.hist.sum := by
    rw [← h.orderStatistic_lt_range hcount hlargest]
    exact not_le.mp fun hle => hover ⟨s.maxUs, hmem, hle⟩
  have hbound := hmax pct
  rwa [hwalk, h.walk_latBucket hcount hin hlargest] at hbound

/-- **The statistics are sound if the largest sample is in the upper half of its bucket**, or in
the overflow, or there is none. -/
theorem sound_of_highest (hhigh : HighestInUpperHalf xs) : s.Sound xs where
  count := h.count_eq
  min_le_max := h.min_le_max
  mono _ _ hpq := h.percentile_mono hhigh hpq
  le_max := h.percentile_le_max hhigh
  near _ hpos hrank _ hy := h.percentile_near hpos hrank hy
  copy p := ⟨copy_percentile p, copy_percentile p⟩

end Describes

/-- **After any history** the statistics of a device are sound if the largest sample since the
last reset is in the upper half of its bucket, or in the overflow, or there is none; and for fewer
than `2 ^ 46` samples only then.  (Of more samples the percentages below 100 may not reach the
last one.) -/
theorem run_sound_iff {ι : Type} [DecidableEq ι] (ops : List (LatOp ι K)) (i : ι) :
    (HighestInUpperHalf (LatOp.samples ops i) →
      (LatOp.run ops i).Sound (LatOp.samples ops i)) ∧
    ((LatOp.samples ops i).length < 2 ^ 46 →
      ((LatOp.run ops i).Sound (LatOp.samples ops i) ↔
        HighestInUpperHalf (LatOp.samples ops i))) := by
  have hdescribes := run_describes ops i
  have hsound : HighestInUpperHalf (LatOp.samples ops i) → (LatOp.run ops i).Sound _ :=
    fun hhigh => hdescribes.sound_of_highest hhigh
  exact ⟨hsound, fun hmany => ⟨fun h => hdescribes.highest_of_le_max hmany h.le_max, hsound⟩⟩

/-- Two samples, and the larger one is in the upper half of its bucket. -/
theorem run_sound_iff_upper :
    let ops : List (LatOp Unit ℚ) := [.record () (.finite 7), .record () (.finite (37 / 5))]
    (LatOp.run ops ()).Sound (LatOp.samples ops ()) := by
  refine ((run_sound_iff _ ()).2 ?_).mpr (.inr (.inr ⟨(37 / 5 : ℚ), ?_, ?_, ?_⟩))
  · decide +kernel
  · decide +kernel
  · decide +kernel
  · decide +kernel

/-- The rank of 99.9 percent of a thousand samples: the double is above 99.9, and the product is
rounded down. -/
example : percentileTarget 1000 99.9 = 999 := by decide +kernel

/-- The median of one sample is above the sample, and above the percentile at 100. -/
theorem single_sample_exceeded :
    let ops : List (LatOp Unit ℚ) := [.record () (.finite (1 / 10))]
    (LatOp.run ops ()).maxUs < (LatOp.run ops ()).percentile 50 ∧
      (LatOp.run ops ()).percentile 100 < (LatOp.run ops ()).percentile 50 ∧
      ¬(LatOp.run ops ()).Sound (LatOp.samples ops ()) := by
  have hmax : (LatOp.run [.record () (.finite (1 / 10 : ℚ))] ()).maxUs <
      (LatOp.run [.record () (.finite (1 / 10 : ℚ))] ()).percentile 50 := by
    decide +kernel
  refine ⟨hmax, ?_, fun hsound => ?_⟩
  · decide +kernel
  · exact absurd (hsound.le_max 50) (not_le.mpr hmax)

end LatStats

end AbrekMouse
