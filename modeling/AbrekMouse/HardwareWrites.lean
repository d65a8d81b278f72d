import AbrekMouse.ApplyConfig
import AbrekMouse.HidppPoll
import Mathlib.Data.Set.Insert

/-! # Writing a profile to the hardware

A profile that is applied to a mouse is written to its hardware too: `apply_profile` looks for
the transport of the mouse and queues what was not attempted on it yet, and the HID++ worker
takes the writes from the queue.  It is also the worker that finds the devices and opens their
transports, whenever it comes to it, and it does not look at the mice then.

If the worker gives no mouse a transport after its profile was applied, the profile of every
mouse is written (`profile_written`).  In the usual order of a boot it does
(`unwritten_at_boot`).
-/
namespace AbrekMouse
open ProgLib

/-! ## Jobs -/

/-- A setting of a mouse that the daemon writes. -/
inductive HwSetting
  | pollingRate (hz : ℤ)
  | dpi (dpi : ℤ)
deriving DecidableEq

/-- A write that is attempted: through which transport, to which device. -/
structure HwWrite where
  transport : ℕ
  devIdx : UInt8
  setting : HwSetting
deriving DecidableEq

/-- `hidpp_hw_job`. -/
structure HwJob where
  transport : ℕ
  devIdx : UInt8
  doPollingRate : Bool
  pollingRate : ℤ
  doDpi : Bool
  dpi : ℤ

namespace HwJob
variable (job : HwJob)

/-- The job has something to write, and a device to write it to. -/
def enqueueable : Bool := job.devIdx ≠ 0xFF && (job.doPollingRate || job.doDpi)

/-- What the worker does for a job, whether the device takes it or not. -/
def writes : List HwWrite :=
  (if job.doPollingRate then [⟨job.transport, job.devIdx, .pollingRate job.pollingRate⟩] else []) ++
    if job.doDpi then [⟨job.transport, job.devIdx, .dpi job.dpi⟩] else []

end HwJob

/-- `hidpp_hw_sync` belongs to a header that is not in the repository: the record of what was
attempted for a mouse.  A rate or DPI is planned exactly if it was not attempted on the
transport. -/
structure HwPlanner (Sync : Type) where
  fresh : Sync
  /-- What was attempted, and on which transport. -/
  rates : Sync → Set (ℕ × ℤ)
  dpis : Sync → Set (ℕ × ℤ)
  /-- Is the rate to be written, and the DPI?  Both count as attempted from now on. -/
  plan : Sync → ℕ → ℤ → ℤ → (Bool × Bool) × Sync
  rates_fresh : rates fresh = ∅
  dpis_fresh : dpis fresh = ∅
  rate_iff : ∀ s t rate dpi, (plan s t rate dpi).1.1 = true ↔ (t, rate) ∉ rates s
  dpi_iff : ∀ s t rate dpi, (plan s t rate dpi).1.2 = true ↔ (t, dpi) ∉ dpis s
  rates_plan : ∀ s t rate dpi, rates (plan s t rate dpi).2 ⊆ insert (t, rate) (rates s)
  dpis_plan : ∀ s t rate dpi, dpis (plan s t rate dpi).2 ⊆ insert (t, dpi) (dpis s)

/-- A grabbed mouse, with the record of what was attempted for it. -/
structure HwMouse (Data Sync : Type) where
  dev : MouseDevice Data
  hwSync : Sync
  /-- The profile that was applied last. -/
  applied : Option DeviceProfile := none

/-- The mice with what was last asked of their hardware, the worker, and the queue of the jobs. -/
structure Hardware (Data Sync : Type) where
  mice : List (HwMouse Data Sync) := []
  worker : HidppWorker := {}
  /-- The transports that are open. -/
  isOpen : ℕ → Bool := fun _ => false
  hidppWq : List HwJob := []
  attempted : List HwWrite := []

variable {Text Data Sync : Type} (E : Engine Data) (P : HwPlanner Sync)

/-- `hidpp_hw_plan_job`. -/
def HwPlanner.planJob (sync : Sync) (transport : ℕ) (rate dpi : ℤ) (devIdx : UInt8) :
    HwJob × Sync :=
  let planned := P.plan sync transport rate dpi
  ({ transport, devIdx, doPollingRate := planned.1.1, pollingRate := rate
     doDpi := planned.1.2, dpi }, planned.2)

/-- A mouse that was just opened. -/
def newDevice (n : Node) (used : List ℕ) : MouseDevice Data :=
  { path := n.path, deviceId := n.deviceId, rdev := n.rdev, fdIn := n.file.fd used
    settings := ⟨{}, E.fresh⟩ }

namespace Hardware
variable (s : Hardware Data Sync)

/-! ## The loop thread -/

/-- `find_hidpp_transport`. -/
def findTransport (deviceId : Bytes) : Option (ℕ × UInt8) :=
  let transportOf path := s.worker.transports.lookup path
  (findHidppTransport s.worker.devs (fun path => (transportOf path).any s.isOpen) deviceId).bind
    fun found => (transportOf found.1).map (·, found.2)

/-- The transport that writes for a mouse go to; the index 0xFF is no device. -/
def writable (deviceId : Bytes) : Option (ℕ × UInt8) :=
  (s.findTransport deviceId).filter (·.2 ≠ 0xFF)

/-- `apply_profile`, and the job that it queues. -/
def applyProfile (m : HwMouse Data Sync) (prof : DeviceProfile) :
    HwMouse Data Sync × List HwJob :=
  let dev := AbrekMouse.applyProfile E m.dev prof
  match s.writable dev.deviceId with
  -- nothing is queued, and nothing asks for the profile again
  | none => ({ m with dev, applied := some prof }, [])
  | some (transport, devIdx) =>
      let planned := P.planJob m.hwSync transport dev.pollRate dev.dpi devIdx
      ({ dev, hwSync := planned.2, applied := some prof },
        if planned.1.enqueueable then [planned.1] else [])

/-- A mouse is released, or kept, perhaps with a profile. -/
def select (sel : MouseDevice Data → Option (Option DeviceProfile)) (m : HwMouse Data Sync) :
    Option (HwMouse Data Sync) × List HwJob :=
  match sel m.dev with
  | none => (none, [])
  | some none => (some m, [])
  | some (some prof) => (some (s.applyProfile E P m prof).1, (s.applyProfile E P m prof).2)

/-- One section under `hidpp_devs_mutex_` and `devices_mutex_`: a loop over the mice. -/
def update (sel : MouseDevice Data → Option (Option DeviceProfile)) : Hardware Data Sync :=
  { s with
    mice := s.mice.filterMap fun m => (s.select E P sel m).1
    hidppWq := s.hidppWq ++ s.mice.flatMap fun m => (s.select E P sel m).2 }

/-- A mouse that was just opened gets its profile. -/
def opened (n : Node) (prof : Option DeviceProfile) : HwMouse Data Sync × List HwJob :=
  let m : HwMouse Data Sync :=
    { dev := newDevice E n (s.mice.map (·.dev.fdIn)), hwSync := P.fresh }
  match prof with
  | some prof => s.applyProfile E P m prof
  | none => (m, [])

/-- The section of one listed mouse; epoll may reject the mouse after all. -/
def grab (n : Node) (prof : Option DeviceProfile) (kept : Bool) : Hardware Data Sync :=
  { s with
    mice := if kept then s.mice ++ [(s.opened E P n prof).1] else s.mice
    hidppWq := s.hidppWq ++ (s.opened E P n prof).2 }

/-! ## The worker -/

/-- `poll_hidpp_notifications`; a transport may be lost to an error. -/
def poll (p : HidppWorld) (lost : ℕ → Bool) : Hardware Data Sync :=
  -- a transport that the worker holds is alive as long as it is open
  let p := { p with
    alive := fun path => match s.worker.transports.lookup path with
      | some transport => s.isOpen transport
      | none => true }
  let worker := s.worker.poll p
  { s with
    worker
    isOpen := fun transport => !lost transport &&
      if transport < s.worker.opened then s.isOpen transport
      else worker.transports.any fun e => e.2 = transport && p.opens e.1 }

/-- One round of `drain_hidpp_writes`: a job is taken, and its writes are attempted. -/
def write (lost : ℕ → Bool) : Hardware Data Sync :=
  match s.hidppWq with
  | [] => s
  | job :: rest =>
      { s with
        hidppWq := rest
        attempted := s.attempted ++ job.writes
        isOpen := fun transport => !lost transport && s.isOpen transport }

end Hardware

/-- A step of the loop thread with one mouse or with all of them, or one of the worker. -/
inductive HwStep (Data : Type)
  | grab (n : Node) (prof : Option DeviceProfile) (kept : Bool)
  | update (sel : MouseDevice Data → Option (Option DeviceProfile))
  | poll (p : HidppWorld) (lost : ℕ → Bool)
  | write (lost : ℕ → Bool)

namespace Hardware
variable (s : Hardware Data Sync)

/-- The sections of the two threads, in any order; nothing is open at first. -/
def machine : Machine (Hardware Data Sync) (HwStep Data) where
  Start s := s = {}
  step s
    | .grab n prof kept => some (s.grab E P n prof kept)
    | .update sel => some (s.update E P sel)
    | .poll p lost => some (s.poll p lost)
    | .write lost => some (s.write lost)

/-- No mouse with a profile has a transport now that it did not have. -/
def NoneLate (s' : Hardware Data Sync) : Prop :=
  ∀ m ∈ s.mice, m.applied ≠ none → ∀ found,
    s'.writable m.dev.deviceId = some found → s.writable m.dev.deviceId = some found

/-- The worker gives no mouse a transport after its profile was applied. -/
def InTime (s : Hardware Data Sync) : HwStep Data → Prop
  | .poll p lost => s.NoneLate (s.poll p lost)
  | .write lost => s.NoneLate (s.write lost)
  | _ => True

/-! ## What is written -/

/-- The write has been attempted or is queued. -/
def Pushed (w : HwWrite) : Prop := w ∈ s.attempted ∨ ∃ job ∈ s.hidppWq, w ∈ job.writes

/-- The rate and the DPI of the profile that was applied last are pushed to the transport of
the mouse, and so is what else was attempted for the mouse on that transport. -/
structure Written (m : HwMouse Data Sync) : Prop where
  fresh : m.applied = none → P.rates m.hwSync = ∅ ∧ P.dpis m.hwSync = ∅
  settings : m.applied ≠ none → ∀ t idx, s.writable m.dev.deviceId = some (t, idx) →
    s.Pushed ⟨t, idx, .pollingRate m.dev.pollRate⟩ ∧ s.Pushed ⟨t, idx, .dpi m.dev.dpi⟩
  rates : ∀ t idx, s.writable m.dev.deviceId = some (t, idx) → ∀ rate,
    (t, rate) ∈ P.rates m.hwSync → s.Pushed ⟨t, idx, .pollingRate rate⟩
  dpis : ∀ t idx, s.writable m.dev.deviceId = some (t, idx) → ∀ dpi,
    (t, dpi) ∈ P.dpis m.hwSync → s.Pushed ⟨t, idx, .dpi dpi⟩

variable {E P s} {s' : Hardware Data Sync} {m : HwMouse Data Sync}

/-- What was written stays so, where no transport has come. -/
theorem Written.mono (h : s.Written P m)
    (hlate : m.applied ≠ none → ∀ found,
      s'.writable m.dev.deviceId = some found → s.writable m.dev.deviceId = some found)
    (hpushed : ∀ w, s.Pushed w → s'.Pushed w) : s'.Written P m where
  fresh := h.fresh
  settings happlied t idx hfound := by
    obtain ⟨hrate, hdpi⟩ := h.settings happlied t idx (hlate happlied _ hfound)
    exact ⟨hpushed _ hrate, hpushed _ hdpi⟩
  rates t idx hfound rate hmem := by
    -- nothing was attempted for a mouse without a profile, so its transport may be late
    by_cases happlied : m.applied = none
    · rw [(h.fresh happlied).1] at hmem
      exact hmem.elim
    · exact hpushed _ (h.rates t idx (hlate happlied _ hfound) rate hmem)
  dpis t idx hfound dpi hmem := by
    by_cases happlied : m.applied = none
    · rw [(h.fresh happlied).2] at hmem
      exact hmem.elim
    · exact hpushed _ (h.dpis t idx (hlate happlied _ hfound) dpi hmem)

theorem Written.new (dev : MouseDevice Data) : s.Written P { dev, hwSync := P.fresh } where
  fresh _ := ⟨P.rates_fresh, P.dpis_fresh⟩
  settings happlied := absurd rfl happlied
  rates t idx _ rate hmem := by
    rw [P.rates_fresh] at hmem
    exact hmem.elim
  dpis t idx _ dpi hmem := by
    rw [P.dpis_fresh] at hmem
    exact hmem.elim

theorem applyProfile_dev (prof : DeviceProfile) :
    (s.applyProfile E P m prof).1.dev = AbrekMouse.applyProfile E m.dev prof := by
  unfold applyProfile
  dsimp only
  split <;> rfl

theorem applyProfile_applied (prof : DeviceProfile) :
    (s.applyProfile E P m prof).1.applied = some prof := by
  unfold applyProfile
  dsimp only
  split <;> rfl

theorem writable_ne {deviceId : Bytes} {t : ℕ} {idx : UInt8}
    (h : s.writable deviceId = some (t, idx)) : idx ≠ 0xFF :=
  of_decide_eq_true (Option.filter_eq_some_iff.mp h).2

/-- A job that has something to do is queued. -/
theorem mem_enqueued {job : HwJob} {w : HwWrite} (hidx : job.devIdx ≠ 0xFF) (hw : w ∈ job.writes) :
    ∃ job' ∈ (if job.enqueueable then [job] else []), w ∈ job'.writes := by
  have hsome : (job.doPollingRate || job.doDpi) = true := by
    by_contra hnone
    obtain ⟨hrate, hdpi⟩ := Bool.or_eq_false_iff.mp ((Bool.not_eq_true _).mp hnone)
    unfold HwJob.writes at hw
    simp [hrate, hdpi] at hw
  have henqueued : job.enqueueable = true := by
    unfold HwJob.enqueueable
    rw [hsome, Bool.and_true]
    exact decide_eq_true hidx
  rw [if_pos henqueued]
  exact ⟨job, List.mem_singleton_self job, hw⟩

/-- **A profile that is applied is written**: what was not attempted on the transport is
queued. -/
theorem Written.applyProfile (h : s.Written P m) (prof : DeviceProfile)
    (hsame : ∀ deviceId, s'.writable deviceId = s.writable deviceId)
    (hpushed : ∀ w, s.Pushed w → s'.Pushed w)
    (hqueued : ∀ job ∈ (s.applyProfile E P m prof).2, job ∈ s'.hidppWq) :
    s'.Written P (s.applyProfile E P m prof).1 := by
  have hsome : (s.applyProfile E P m prof).1.applied ≠ none := by
    rw [applyProfile_applied]
    exact Option.some_ne_none prof
  revert hsome hqueued
  unfold Hardware.applyProfile
  dsimp only
  split
  · rename_i hnone
    intro _ hsome
    rw [applyProfile_deviceId] at hnone
    have habsent : ∀ t idx, s'.writable (AbrekMouse.applyProfile E m.dev prof).deviceId ≠
        some (t, idx) := by
      intro t idx hfound
      rw [hsame, applyProfile_deviceId, hnone] at hfound
      cases hfound
    exact ⟨fun h => absurd h hsome, fun _ t idx h => absurd h (habsent t idx),
      fun t idx h => absurd h (habsent t idx), fun t idx h => absurd h (habsent t idx)⟩
  · rename_i t idx hfound
    intro hqueued hsome
    rw [applyProfile_deviceId] at hfound
    generalize hdev : AbrekMouse.applyProfile E m.dev prof = dev at hqueued hsome ⊢
    have hid : dev.deviceId = m.dev.deviceId := by rw [← hdev, applyProfile_deviceId]
    have hidx : idx ≠ 0xFF := writable_ne hfound
    -- one transport is found, so only what goes to it is asked for
    have hone : ∀ t' idx', s'.writable dev.deviceId = some (t', idx') → t' = t ∧ idx' = idx := by
      intro t' idx' h'
      rw [hsame, hid, hfound] at h'
      cases h'
      exact ⟨rfl, rfl⟩
    have hjob : ∀ w ∈ (P.planJob m.hwSync t dev.pollRate dev.dpi idx).1.writes, s'.Pushed w := by
      intro w hw
      obtain ⟨job, hmem, hwrites⟩ := mem_enqueued hidx hw
      exact .inr ⟨job, hqueued job hmem, hwrites⟩
    -- what is not planned was attempted on this transport before
    have hrate : s'.Pushed ⟨t, idx, .pollingRate dev.pollRate⟩ := by
      by_cases hmem : (t, dev.pollRate) ∈ P.rates m.hwSync
      · exact hpushed _ (h.rates t idx hfound _ hmem)
      · have hdo := (P.rate_iff m.hwSync t dev.pollRate dev.dpi).mpr hmem
        refine hjob _ ?_
        simp [HwJob.writes, HwPlanner.planJob, hdo]
    have hdpi : s'.Pushed ⟨t, idx, .dpi dev.dpi⟩ := by
      by_cases hmem : (t, dev.dpi) ∈ P.dpis m.hwSync
      · exact hpushed _ (h.dpis t idx hfound _ hmem)
      · have hdo := (P.dpi_iff m.hwSync t dev.pollRate dev.dpi).mpr hmem
        refine hjob _ ?_
        simp [HwJob.writes, HwPlanner.planJob, hdo]
    refine ⟨fun h => absurd h hsome, fun _ t' idx' h' => ?_, fun t' idx' h' rate hmem => ?_,
      fun t' idx' h' dpi hmem => ?_⟩
    · obtain ⟨rfl, rfl⟩ := hone t' idx' h'
      exact ⟨hrate, hdpi⟩
    · obtain ⟨rfl, rfl⟩ := hone t' idx' h'
      rcases P.rates_plan _ _ _ _ hmem with hnew | hold
      · rw [(Prod.mk.inj hnew).2]
        exact hrate
      · exact hpushed _ (h.rates _ _ hfound rate hold)
    · obtain ⟨rfl, rfl⟩ := hone t' idx' h'
      rcases P.dpis_plan _ _ _ _ hmem with hnew | hold
      · rw [(Prod.mk.inj hnew).2]
        exact hdpi
      · exact hpushed _ (h.dpis _ _ hfound dpi hold)

/-! ## Runs -/

/-- A mouse is one of those there were, or the one that was just opened. -/
theorem mem_grab {n : Node} {prof : Option DeviceProfile} {kept : Bool}
    (hm : m ∈ (s.grab E P n prof kept).mice) : m ∈ s.mice ∨ m = (s.opened E P n prof).1 := by
  unfold grab at hm
  dsimp only at hm
  split_ifs at hm
  · rcases List.mem_append.mp hm with hold | hnew
    · exact .inl hold
    · exact .inr (List.mem_singleton.mp hnew)
  · exact .inl hm

theorem grab_written (hs : ∀ m ∈ s.mice, s.Written P m) (n : Node) (prof : Option DeviceProfile)
    (kept : Bool) : ∀ m ∈ (s.grab E P n prof kept).mice, (s.grab E P n prof kept).Written P m := by
  have hpushed : ∀ w, s.Pushed w → (s.grab E P n prof kept).Pushed w := by
    rintro w (hw | ⟨job, hjob, hw⟩)
    · exact .inl hw
    · exact .inr ⟨job, List.mem_append_left _ hjob, hw⟩
  intro m hm
  rcases mem_grab hm with hold | rfl
  · exact (hs m hold).mono (fun _ _ h => h) hpushed
  · have hnew : s.Written P { dev := newDevice E n (s.mice.map (·.dev.fdIn)), hwSync := P.fresh } :=
      .new _
    cases prof with
    | none => exact hnew.mono (fun _ _ h => h) hpushed
    | some prof =>
        exact hnew.applyProfile prof (fun _ => rfl) hpushed fun job hjob =>
          List.mem_append_right _ hjob

theorem update_written (hs : ∀ m ∈ s.mice, s.Written P m)
    (sel : MouseDevice Data → Option (Option DeviceProfile)) :
    ∀ m ∈ (s.update E P sel).mice, (s.update E P sel).Written P m := by
  have hpushed : ∀ w, s.Pushed w → (s.update E P sel).Pushed w := by
    rintro w (hw | ⟨job, hjob, hw⟩)
    · exact .inl hw
    · exact .inr ⟨job, List.mem_append_left _ hjob, hw⟩
  intro m hm
  obtain ⟨old, hold, hsel⟩ := List.mem_filterMap.mp hm
  have hqueued : ∀ job ∈ (s.select E P sel old).2, job ∈ (s.update E P sel).hidppWq :=
    fun job hjob => List.mem_append_right _ (List.mem_flatMap.mpr ⟨old, hold, hjob⟩)
  unfold select at hsel hqueued
  split at hsel
  · cases hsel
  · obtain rfl := Option.some.inj hsel
    exact (hs old hold).mono (fun _ _ h => h) hpushed
  · rename_i prof hprof
    obtain rfl := Option.some.inj hsel
    rw [hprof] at hqueued
    exact (hs old hold).applyProfile prof (fun _ => rfl) hpushed hqueued

theorem worker_written (hs : ∀ m ∈ s.mice, s.Written P m) (hmice : s'.mice = s.mice)
    (hlate : s.NoneLate s') (hpushed : ∀ w, s.Pushed w → s'.Pushed w) :
    ∀ m ∈ s'.mice, s'.Written P m := by
  intro m hm
  rw [hmice] at hm
  exact (hs m hm).mono (hlate m hm) hpushed

/-- A job that was taken has been attempted. -/
theorem write_pushed (lost : ℕ → Bool) (w : HwWrite) (h : s.Pushed w) :
    (s.write lost).Pushed w := by
  unfold write
  split
  · exact h
  · rename_i job rest hqueue
    rcases h with hw | ⟨queued, hmem, hw⟩
    · exact .inl (List.mem_append_left _ hw)
    · rw [hqueue] at hmem
      rcases List.mem_cons.mp hmem with rfl | hmem
      · exact .inl (List.mem_append_right _ hw)
      · exact .inr ⟨queued, hmem, hw⟩

theorem write_mice (lost : ℕ → Bool) : (s.write lost).mice = s.mice := by
  unfold write
  split <;> rfl

/-- **Each step keeps what is written**, if the worker gives no mouse a transport late. -/
theorem step_written (hs : ∀ m ∈ s.mice, s.Written P m) {l : HwStep Data} (hguard : InTime s l)
    (hstep : (machine E P).step s l = some s') : ∀ m ∈ s'.mice, s'.Written P m := by
  cases l with
  | grab n prof kept =>
      cases hstep
      exact grab_written hs n prof kept
  | update sel =>
      cases hstep
      exact update_written hs sel
  -- the worker leaves the mice as they are, and only its transports can come late
  | poll p lost =>
      cases hstep
      exact worker_written hs rfl hguard fun _ h => h
  | write lost =>
      cases hstep
      exact worker_written hs (write_mice lost) hguard (write_pushed lost)

/-- The fields of a mouse are those of its profile. -/
def Clamped (m : HwMouse Data Sync) : Prop :=
  ∀ prof, m.applied = some prof →
    m.dev.pollRate = min pollRateMax (max pollRateMin prof.devCfg.pollingRate) ∧
      m.dev.dpi = min 32000 (max 1 prof.devCfg.dpi)

theorem applyProfile_clamped (prof : DeviceProfile) :
    Clamped (s.applyProfile E P m prof).1 := by
  intro prof' happlied
  rw [applyProfile_applied] at happlied
  obtain rfl := Option.some.inj happlied
  rw [applyProfile_dev]
  exact ⟨rfl, rfl⟩

theorem step_clamped (hs : ∀ m ∈ s.mice, Clamped m) {l : HwStep Data}
    (hstep : (machine E P).step s l = some s') : ∀ m ∈ s'.mice, Clamped m := by
  cases l with
  | grab n prof kept =>
      cases hstep
      intro m hm
      rcases mem_grab hm with hold | rfl
      · exact hs m hold
      · cases prof with
        | none => exact fun prof happlied => (by cases happlied)
        | some prof => exact applyProfile_clamped prof
  | update sel =>
      cases hstep
      intro m hm
      obtain ⟨old, hold, hsel⟩ := List.mem_filterMap.mp hm
      unfold select at hsel
      split at hsel
      · cases hsel
      · obtain rfl := Option.some.inj hsel
        exact hs old hold
      · obtain rfl := Option.some.inj hsel
        exact applyProfile_clamped _
  | poll p lost =>
      cases hstep
      exact hs
  | write lost =>
      cases hstep
      rw [write_mice]
      exact hs

variable (E P)

/-- **The profile of every mouse is written**, if the worker never gives a mouse a transport
after its profile was applied: once the queue is empty, the rate and the DPI have been
attempted on the transport of the mouse. -/
theorem profile_written (h : (machine E P).Run InTime s) (hempty : s.hidppWq = []) :
    ∀ m ∈ s.mice, ∀ prof, m.applied = some prof →
      ∀ t idx, s.findTransport m.dev.deviceId = some (t, idx) → idx ≠ 0xFF →
        ⟨t, idx, .pollingRate (min pollRateMax (max pollRateMin prof.devCfg.pollingRate))⟩ ∈
            s.attempted ∧
          ⟨t, idx, .dpi (min 32000 (max 1 prof.devCfg.dpi))⟩ ∈ s.attempted := by
  have hinv : (∀ m ∈ s.mice, s.Written P m) ∧ ∀ m ∈ s.mice, Clamped m := by
    refine h.invariant (I := fun s => (∀ m ∈ s.mice, s.Written P m) ∧ ∀ m ∈ s.mice, Clamped m)
      ?_ ?_
    · intro s hs
      cases hs
      exact ⟨fun m hm => (by cases hm), fun m hm => (by cases hm)⟩
    · intro s l s' hs hguard hstep
      exact ⟨step_written hs.1 hguard hstep, step_clamped hs.2 hstep⟩
  intro m hm prof happlied t idx hfound hidx
  have hwritable : s.writable m.dev.deviceId = some (t, idx) :=
    Option.filter_eq_some_iff.mpr ⟨hfound, decide_eq_true hidx⟩
  have hsome : m.applied ≠ none := by
    rw [happlied]
    exact Option.some_ne_none prof
  obtain ⟨hrate, hdpi⟩ := hinv.2 m hm prof happlied
  obtain ⟨hpushedRate, hpushedDpi⟩ := (hinv.1 m hm).settings hsome t idx hwritable
  rw [hrate] at hpushedRate
  rw [hdpi] at hpushedDpi
  have hattempted : ∀ w, s.Pushed w → w ∈ s.attempted := by
    rintro w (hw | ⟨job, hjob, -⟩)
    · exact hw
    · rw [hempty] at hjob
      cases hjob
  exact ⟨hattempted _ hpushedRate, hattempted _ hpushedDpi⟩

/-! ## The operations of the loop thread -/

/-- One section of the loop thread. -/
def Section (s s' : Hardware Data Sync) : Prop :=
  (∃ n prof kept, s' = s.grab E P n prof kept) ∨ ∃ sel, s' = s.update E P sel

/-- What an operation does with the grabbed devices is a sequence of sections. -/
def Simulated (d d' : Daemon Data) : Prop :=
  ∀ s : Hardware Data Sync, s.mice.map (·.dev) = d.devices →
    ∃ s', Relation.ReflTransGen (Section E P) s s' ∧ s'.mice.map (·.dev) = d'.devices

variable {E P} {d d' d₁ d₂ d₃ : Daemon Data}

theorem Simulated.of_eq (h : d'.devices = d.devices) : Simulated E P d d' := by
  intro s hs
  exact ⟨s, .refl, hs.trans h.symm⟩

theorem Simulated.trans (h₁ : Simulated E P d₁ d₂) (h₂ : Simulated E P d₂ d₃) :
    Simulated E P d₁ d₃ := by
  intro s hs
  obtain ⟨s₁, hrun₁, hs₁⟩ := h₁ s hs
  obtain ⟨s₂, hrun₂, hs₂⟩ := h₂ s₁ hs₁
  exact ⟨s₂, hrun₁.trans hrun₂, hs₂⟩

theorem Simulated.foldl {α : Type} {f : Daemon Data → α → Daemon Data}
    (h : ∀ d a, Simulated E P d (f d a)) (as : List α) :
    ∀ d, Simulated E P d (as.foldl f d) := by
  induction as with
  | nil => exact fun d => .of_eq rfl
  | cons a as ih => exact fun d => (h d a).trans (ih (f d a))

theorem select_dev (sel : MouseDevice Data → Option (Option DeviceProfile)) :
    (s.select E P sel m).1.map (·.dev) = (sel m.dev).map (applySelected E m.dev) := by
  unfold select
  cases sel m.dev with
  | none => rfl
  | some prof =>
      cases prof with
      | none => rfl
      | some prof => exact congrArg some (applyProfile_dev prof)

theorem update_devices (sel : MouseDevice Data → Option (Option DeviceProfile)) :
    (s.update E P sel).mice.map (·.dev) =
      (s.mice.map (·.dev)).filterMap fun dev => (sel dev).map (applySelected E dev) := by
  show (s.mice.filterMap fun m => (s.select E P sel m).1).map (·.dev) = _
  rw [List.map_filterMap, List.filterMap_map]
  exact List.filterMap_congr fun m _ => select_dev sel

/-- A loop that releases some devices and brings the others up to date is one section. -/
theorem Simulated.of_update (keep : MouseDevice Data → Bool)
    (prof : MouseDevice Data → Option DeviceProfile)
    (h : d'.devices = (d.devices.filter keep).map fun dev => applySelected E dev (prof dev)) :
    Simulated E P d d' := by
  intro s hs
  refine ⟨s.update E P fun dev => if keep dev then some (prof dev) else none,
    .single (.inr ⟨_, rfl⟩), ?_⟩
  rw [update_devices, hs, h, ← List.filterMap_eq_map', List.filterMap_filter]
  refine List.filterMap_congr fun dev _ => ?_
  split_ifs <;> rfl

theorem Simulated.of_filter (keep : MouseDevice Data → Bool)
    (h : d'.devices = d.devices.filter keep) : Simulated E P d d' := by
  refine .of_update keep (fun _ => none) ?_
  rw [h]
  exact (List.map_id _).symm

theorem opened_dev (n : Node) (prof : Option DeviceProfile) :
    (s.opened E P n prof).1.dev =
      applySelected E (newDevice E n (s.mice.map (·.dev.fdIn))) prof := by
  cases prof with
  | none => rfl
  | some prof => exact applyProfile_dev prof

theorem openNode_simulated (d : Daemon Data) (scan : Scan) (now : ℕ) (n : Node) :
    Simulated E P d (Daemon.openNode E d scan now n).1 := by
  cases Daemon.opening E d scan now n with
  | denied _ _ _ _ hresult =>
      rw [hresult]
      exact .of_eq rfl
  | duplicate _ _ hresult | rawOff _ hresult | disabled _ _ hresult =>
      rw [hresult]
      exact .of_eq rfl
  | unregistered _ hresult =>
      -- the mouse got its profile before epoll rejected it
      rw [hresult]
      intro s hs
      exact ⟨s.grab E P n (d.profileOf n.deviceId) false, .single (.inl ⟨_, _, _, rfl⟩), hs⟩
  | opened dev hdev _ _ _ _ hresult =>
      rw [hresult]
      intro s hs
      refine ⟨s.grab E P n (d.profileOf n.deviceId) true, .single (.inl ⟨_, _, _, rfl⟩), ?_⟩
      show (s.mice ++ [(s.opened E P n (d.profileOf n.deviceId)).1]).map (·.dev) = _
      rw [List.map_append, hs, List.map_singleton, opened_dev]
      have hfds : s.mice.map (·.dev.fdIn) = d.devices.map (·.fdIn) := by
        rw [← hs, List.map_map]
        rfl
      rw [hfds, hdev]
      rfl

theorem tryNode_simulated (d : Daemon Data) (scan : Scan) (now : ℕ) (n : Node) :
    Simulated E P d (Daemon.tryNode E d scan now n).1 := by
  unfold Daemon.tryNode
  split_ifs
  · exact .of_eq rfl
  · exact .of_eq rfl
  · have herased : Simulated E P d { d with pathDeny := d.pathDeny.erase n.path } := .of_eq rfl
    exact herased.trans (openNode_simulated _ scan now n)

theorem setupDevices_simulated (d : Daemon Data) (mice : List Node) (now : ℕ) :
    Simulated E P d (Daemon.setupDevices E d mice now) := by
  unfold Daemon.setupDevices
  split_ifs
  · exact .of_eq rfl
  · exact .of_eq rfl
  · have hpruned : Simulated E P d (d.pruneDeny mice now) := .of_eq rfl
    exact hpruned.trans (.foldl (fun d n => tryNode_simulated d _ now n) mice _)

theorem doHotplugScan_simulated (d : Daemon Data) (mice : List Node) (now : ℕ) :
    Simulated E P d (Daemon.doHotplugScan E d mice now) := by
  have hscan : ∀ acc : Daemon Data × Bool,
      Simulated E P acc.1 (mice.foldl (Daemon.scanNode E now) acc).1 := by
    intro acc
    rw [Daemon.scanNode_foldl]
    exact .foldl (fun d n => tryNode_simulated d _ now n) mice acc.1
  unfold Daemon.doHotplugScan
  split_ifs
  · exact .of_eq rfl
  · dsimp only
    have hleft : Simulated E P d ((d.pruneDeny mice now).removeGone mice) :=
      .of_filter (Daemon.stillPhysical mice) rfl
    have hend : ∀ d' : Daemon Data, ∀ b, Simulated E P d' { d' with rescanNeeded := b } :=
      fun d' b => .of_eq rfl
    exact (hleft.trans (hscan (_, false))).trans (hend _ _)

theorem cleanupDisconnected_simulated (d : Daemon Data) (failed sameNode : Bytes → Bool)
    (now : ℕ) : Simulated E P d (d.cleanupDisconnected failed sameNode now) :=
  .of_filter (fun dev => !failed dev.path) (d.cleanupDisconnected_devices failed sameNode now)

theorem reapplyDevices_simulated (d : Daemon Data) :
    Simulated E P d (Daemon.reapplyDevices E d) :=
  .of_update (fun dev => !disabled (d.profileOf dev.deviceId)) (fun dev => d.profileOf dev.deviceId)
    rfl

theorem applyIdentity_simulated (d : Daemon Data) :
    Simulated E P d (Daemon.applyIdentity E d) := by
  refine .of_update (fun _ => true) (fun _ => some {}) ?_
  rw [List.filter_true]
  rfl

theorem finishApply_simulated (live rawNow : Bool) (mice : List Node) (now : ℕ)
    (d : Daemon Data) : Simulated E P d (Daemon.finishApply E live rawNow mice now d) := by
  have hupdated : Simulated E P d
      (if !live && !d.devices.isEmpty then Daemon.applyIdentity E d else d) := by
    split_ifs
    · exact applyIdentity_simulated d
    · exact .of_eq rfl
  refine hupdated.trans ?_
  unfold Daemon.finishApply
  dsimp only
  generalize (if !live && !d.devices.isEmpty then Daemon.applyIdentity E d else d) = updated
  split_ifs
  · have hdown : Simulated E P updated { updated with rawInputEnabled := rawNow }.teardownDevices :=
      .of_filter (fun _ => false) (List.filter_false _).symm
    exact (hdown.trans (setupDevices_simulated _ mice now)).trans (.of_eq rfl)
  · exact .of_eq rfl

variable (J : JsonText Text) (hash : Text → UInt64)

/-- **An apply is a sequence of sections.** -/
theorem applyNewConfig_simulated (mice : List Node) (now : ℕ) (newCfg : AppConfig)
    (d : Daemon Data) :
    Simulated E P d (Daemon.applyNewConfig J hash E mice now newCfg d).2 := by
  unfold Daemon.applyNewConfig
  dsimp only
  split
  · exact .of_eq rfl
  · rename_i t _
    have hconfig : Simulated E P d { d with config := newCfg, configHash := hash t } := .of_eq rfl
    exact (hconfig.trans (reapplyDevices_simulated _)).trans (finishApply_simulated _ _ mice now _)

theorem applyActiveApp_simulated (d : Daemon Data) :
    Simulated E P d (Daemon.applyActiveApp E d) := by
  unfold Daemon.applyActiveApp
  dsimp only
  split_ifs
  · exact .of_eq rfl
  · exact .of_eq rfl
  · have hfocus : Simulated E P d
        { d with activeAppDirty := false, currentApp := d.pendingApp } := .of_eq rfl
    exact (hfocus.trans (reapplyDevices_simulated _)).trans (.of_eq rfl)

end Hardware

/-! ## One mouse -/

/-- The rate and the DPI that were attempted last, and on which transport. -/
structure HwSync where
  transport : Option ℕ := none
  pollingRate : ℤ := 0
  dpi : ℤ := 0

/-- The planner of `apply_profile`: a job for what differs from what was written last. -/
def HwSync.planner : HwPlanner HwSync where
  fresh := {}
  rates s := {x | s.transport = some x.1 ∧ s.pollingRate = x.2}
  dpis s := {x | s.transport = some x.1 ∧ s.dpi = x.2}
  plan s t rate dpi :=
    let doRate := s.transport ≠ some t || s.pollingRate ≠ rate
    let doDpi := s.transport ≠ some t || s.dpi ≠ dpi
    ((doRate, doDpi),
      if doRate || doDpi then { transport := some t, pollingRate := rate, dpi } else s)
  rates_fresh := Set.eq_empty_of_forall_notMem fun _ h => by cases h.1
  dpis_fresh := Set.eq_empty_of_forall_notMem fun _ h => by cases h.1
  rate_iff s t rate dpi := by simp [imp_iff_not_or]
  dpi_iff s t rate dpi := by simp [imp_iff_not_or]
  rates_plan s t rate dpi := by
    intro x hx
    dsimp only at hx
    split_ifs at hx
    · obtain ⟨ht, hrate⟩ := hx
      exact .inl (Prod.ext (Option.some.inj ht).symm hrate.symm)
    · exact .inr hx
  dpis_plan s t rate dpi := by
    intro x hx
    dsimp only at hx
    split_ifs at hx
    · obtain ⟨ht, hdpi⟩ := hx
      exact .inl (Prod.ext (Option.some.inj ht).symm hdpi.symm)
    · exact .inr hx

namespace Hardware

/-- The mouse of `serialDev`. -/
def serialMouse : Node :=
  { path := bytes "event3", deviceId := bytes "usb:046d:407f:4f2a", rdev := 3 }

/-- The worker sees the node of the mouse, and it opens. -/
def serialWorld : HidppWorld where
  now := 100000
  paths := [serialDev.hidrawPath]
  identify _ := [serialDev]
  alive _ := true
  opens _ := true
  battery _ _ := none
  dpi _ _ := none
  drainable _ := true
  drained _ := []
  lights := []

/-- The runs with an engine that computes nothing. -/
def plainMachine : Machine (Hardware Unit HwSync) (HwStep Unit) :=
  machine Engine.plain HwSync.planner

theorem write_inTime (s : Hardware Data Sync) : InTime s (.write fun _ => false) := by
  intro m _ _ found hfound
  have hsame : (s.write fun _ => false).writable m.dev.deviceId = s.writable m.dev.deviceId := by
    unfold write
    split <;> rfl
  rw [← hsame]
  exact hfound

/-- The worker comes first. -/
def discovered : Hardware Unit HwSync := ({} : Hardware Unit HwSync).poll serialWorld fun _ => false

/-- Then the mouse is grabbed, and the write is taken. -/
def served : Hardware Unit HwSync :=
  (discovered.grab Engine.plain HwSync.planner serialMouse (some {}) true).write fun _ => false

theorem profile_written_serial :
    plainMachine.Run InTime served ∧ served.mice ≠ [] ∧
      ∀ m ∈ served.mice, ∀ prof, m.applied = some prof →
        ∀ t idx, served.findTransport m.dev.deviceId = some (t, idx) → idx ≠ 0xFF →
          ⟨t, idx, .pollingRate (min pollRateMax (max pollRateMin prof.devCfg.pollingRate))⟩ ∈
              served.attempted ∧
            ⟨t, idx, .dpi (min 32000 (max 1 prof.devCfg.dpi))⟩ ∈ served.attempted := by
  have hpoll : plainMachine.Run InTime discovered :=
    .step (l := .poll serialWorld fun _ => false) (.start rfl) (fun m hm => by cases hm) rfl
  have hgrab : plainMachine.Run InTime
      (discovered.grab Engine.plain HwSync.planner serialMouse (some {}) true) :=
    .step (l := .grab serialMouse (some {}) true) hpoll trivial rfl
  have hserved : plainMachine.Run InTime served :=
    .step (l := .write fun _ => false) hgrab (write_inTime _) rfl
  have hempty : served.hidppWq.isEmpty = true := by decide +kernel
  have hopen : served.mice.isEmpty = false := by decide +kernel
  refine ⟨hserved, fun hnil => ?_, profile_written Engine.plain HwSync.planner hserved
    (List.isEmpty_iff.mp hempty)⟩
  rw [hnil] at hopen
  cases hopen

/-- In the usual order of a boot the mouse comes first. -/
def booted : Hardware Unit HwSync :=
  (({} : Hardware Unit HwSync).grab Engine.plain HwSync.planner serialMouse (some {}) true).poll
    serialWorld fun _ => false

/-- Its transport is open, nothing is queued, and nothing was ever written. -/
theorem unwritten_at_boot :
    ¬∀ s, plainMachine.Reachable s → s.hidppWq = [] →
      ∀ m ∈ s.mice, ∀ prof, m.applied = some prof →
        ∀ t idx, s.findTransport m.dev.deviceId = some (t, idx) → idx ≠ 0xFF →
          ⟨t, idx, .pollingRate (min pollRateMax (max pollRateMin prof.devCfg.pollingRate))⟩ ∈
              s.attempted ∧
            ⟨t, idx, .dpi (min 32000 (max 1 prof.devCfg.dpi))⟩ ∈ s.attempted := by
  intro hall
  have hgrab : plainMachine.Reachable (({} : Hardware Unit HwSync).grab Engine.plain HwSync.planner
      serialMouse (some {}) true) :=
    .step (l := .grab serialMouse (some {}) true) (.start rfl) trivial rfl
  have hbooted : plainMachine.Reachable booted :=
    .step (l := .poll serialWorld fun _ => false) hgrab trivial rfl
  have hempty : booted.hidppWq.isEmpty = true := by decide +kernel
  have hfound : (booted.mice.any fun m => m.applied.isSome &&
      decide (booted.findTransport m.dev.deviceId = some (0, 1))) = true := by
    decide +kernel
  obtain ⟨m, hm, hboth⟩ := List.any_eq_true.mp hfound
  obtain ⟨happlied, htransport⟩ := (Bool.and_eq_true _ _).mp hboth
  obtain ⟨prof, hprof⟩ := Option.isSome_iff_exists.mp happlied
  have hwritten := hall booted hbooted (List.isEmpty_iff.mp hempty) m hm prof hprof 0 1
    (of_decide_eq_true htransport) (by decide)
  have hnone : booted.attempted = [] := rfl
  rw [hnone] at hwritten
  cases hwritten.1

end Hardware
end AbrekMouse
