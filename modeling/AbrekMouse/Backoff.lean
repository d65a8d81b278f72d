import AbrekMouse.Registry
import AbrekMouse.RunLoop

/-! # Backoff windows

A mouse that has failed is left alone for five seconds, under its path and under its id.
A node that is opened while the window of its id runs is put on both lists again, and so a
node that is only skipped moves the windows on: two nodes with one id can keep each other out
for good (`window_refreshed`).  Where no node is skipped that way, every window ends five
seconds after the last failure of its path or id (`windows_bounded`).
-/
namespace AbrekMouse
open ProgLib
variable {Text Data : Type} (J : JsonText Text) (hash : Text → UInt64) (E : Engine Data)

/-! ## Failures -/

/-- A failure of a mouse, with its id if it is known. -/
structure Fault where
  path : Bytes
  deviceId : Bytes
  at_ : ℕ
deriving DecidableEq

/-- The failures that an attempt has met: opening the node, grabbing it, or making the
virtual device.  A skip is none, and neither is a registration that epoll rejects. -/
def Trial.fault (now : ℕ) (t : Trial) : Option Fault :=
  match t.attempt with
  | .failed .cannotOpen => some ⟨t.path, [], now⟩
  | .failed .alreadyGrabbed => some ⟨t.path, t.deviceId, now⟩
  | .failed .virtual => some ⟨t.path, t.deviceId, now⟩
  | _ => none

/-- When a path or an id has failed last; the last failure comes first in the list. -/
def lastFault (key : Fault → Bytes) (faults : List Fault) (k : Bytes) : Option ℕ :=
  (faults.find? fun f => key f = k).map Fault.at_

namespace Daemon

/-- The failures of an operation, the last one first. -/
def faults (d : Daemon Data) : RegistryStep → List Fault
  | .setupDevices mice now => ((d.setupTrials E mice now []).filterMap (Trial.fault now)).reverse
  | .doHotplugScan mice now => ((d.scanTrials E mice now []).filterMap (Trial.fault now)).reverse
  | .applyNewConfig mice now newCfg =>
      ((d.applyNewConfigTrials J hash E mice now newCfg []).filterMap (Trial.fault now)).reverse
  | .cleanup failed sameNode now =>
      ((d.devices.filter fun dev => failed dev.path && sameNode dev.path).map fun dev =>
        { path := dev.path, deviceId := dev.deviceId, at_ := now }).reverse
  | _ => []

/-- The node is opened although the window of its id runs. -/
def refreshes (now : ℕ) (d : Daemon Data) (n : Node) : Bool :=
  d.attempt now n = .failed .backoff && !d.pathDeny.denied n.path now

/-- No round of a loop over the listed mice opens such a node. -/
def refreshless (scan : Scan) (now : ℕ) : Daemon Data → List Node → Bool
  | _, [] => true
  | d, n :: mice => !d.refreshes now n && refreshless scan now (tryNode E d scan now n).1 mice

def setupRefreshless (d : Daemon Data) (mice : List Node) (now : ℕ) : Bool :=
  if mice = [] then true
  else if !d.rawInputEnabled then true
  else refreshless E .setup now (d.pruneDeny mice now) mice

def scanRefreshless (d : Daemon Data) (mice : List Node) (now : ℕ) : Bool :=
  if !d.rawInputEnabled then true
  else refreshless E .hotplug now ((d.pruneDeny mice now).removeGone mice) mice

def finishApplyRefreshless (d : Daemon Data) (live rawNow : Bool) (mice : List Node)
    (now : ℕ) : Bool :=
  if (!live && d.devices.isEmpty) || rawNow != d.rawInputEnabled then
    setupRefreshless E { d with rawInputEnabled := rawNow }.teardownDevices mice now
  else true

def applyNewConfigRefreshless (d : Daemon Data) (mice : List Node) (now : ℕ)
    (newCfg : AppConfig) : Bool :=
  let d := { d with config := newCfg }
  match appConfigToJson J d.config with
  | .error _ => true
  | .ok t =>
      let d := { d with configHash := hash t }
      finishApplyRefreshless E (reapplyDevices E d) (anyLive d) newCfg.useRawInput mice now

/-- No node is opened in the operation while the window of its id runs. -/
def keepsWindows (d : Daemon Data) : RegistryStep → Bool
  | .setupDevices mice now => d.setupRefreshless E mice now
  | .doHotplugScan mice now => d.scanRefreshless E mice now
  | .applyNewConfig mice now newCfg => d.applyNewConfigRefreshless J hash E mice now newCfg
  | _ => true

end Daemon

namespace Daemon
variable {d : Daemon Data} {now : ℕ} {faults : List Fault}

/-- Every window ends five seconds after the last failure of its path, or its id. -/
structure Bounded (faults : List Fault) (d : Daemon Data) : Prop where
  path : ∀ e ∈ d.pathDeny, ∃ t, lastFault Fault.path faults e.1 = some t ∧
    e.2 ≤ t + denyReopenMs
  device : ∀ e ∈ d.devDeny, e.1 ≠ [] ∧ ∃ t, lastFault Fault.deviceId faults e.1 = some t ∧
    e.2 ≤ t + denyReopenMs

namespace Bounded

/-- Windows that are dropped. -/
theorem of_subset {d' : Daemon Data} (h : d.Bounded faults) (hpath : d'.pathDeny ⊆ d.pathDeny)
    (hdev : d'.devDeny ⊆ d.devDeny) : d'.Bounded faults where
  path e he := h.path e (hpath he)
  device e he := h.device e (hdev he)

end Bounded
end Daemon

/-- The last failure comes first. -/
theorem lastFault_cons_self (key : Fault → Bytes) (f : Fault) (faults : List Fault) :
    lastFault key (f :: faults) (key f) = some f.at_ := by
  unfold lastFault
  rw [List.find?_cons_of_pos (by simp)]
  rfl

theorem lastFault_cons_of_ne (key : Fault → Bytes) {f : Fault} {k : Bytes} (h : key f ≠ k)
    (faults : List Fault) : lastFault key (f :: faults) k = lastFault key faults k := by
  unfold lastFault
  rw [List.find?_cons_of_neg (by simpa using h)]

/-- A key that is set has the new deadline, and the others have theirs. -/
theorem DenyList.mem_set {l : DenyList} {key : Bytes} {until_ : ℕ} {e : Bytes × ℕ}
    (h : e ∈ l.set key until_) : e = (key, until_) ∨ e ∈ l ∧ key ≠ e.1 := by
  rcases List.mem_cons.mp h with rfl | he
  · exact .inl rfl
  · obtain ⟨hmem, hne⟩ := List.mem_filter.mp he
    exact .inr ⟨hmem, (of_decide_eq_true hne).symm⟩

namespace Daemon
variable {d : Daemon Data} {now : ℕ} {faults : List Fault}
namespace Bounded

/-- A failure starts both windows anew. -/
theorem deny (h : d.Bounded faults) (path deviceId : Bytes) (now : ℕ) :
    (d.denyReopen path deviceId now).Bounded (⟨path, deviceId, now⟩ :: faults) where
  path e he := by
    rcases DenyList.mem_set he with rfl | ⟨hmem, hne⟩
    · exact ⟨now, lastFault_cons_self Fault.path ⟨path, deviceId, now⟩ faults, le_rfl⟩
    · rw [lastFault_cons_of_ne Fault.path (f := ⟨path, deviceId, now⟩) hne]
      exact h.path e hmem
  device e he := by
    by_cases hid : deviceId ≠ []
    · have he : e ∈ d.devDeny.set deviceId (now + denyReopenMs) := by
        simpa [denyReopen, hid] using he
      rcases DenyList.mem_set he with rfl | ⟨hmem, hne⟩
      · exact ⟨hid, now, lastFault_cons_self Fault.deviceId ⟨path, deviceId, now⟩ faults, le_rfl⟩
      · rw [lastFault_cons_of_ne Fault.deviceId (f := ⟨path, deviceId, now⟩) hne]
        exact h.device e hmem
    · have hmem : e ∈ d.devDeny := by simpa [denyReopen, hid] using he
      obtain ⟨hne, hbound⟩ := h.device e hmem
      have hother : deviceId ≠ e.1 := fun heq => hne (heq ▸ not_not.mp hid)
      refine ⟨hne, ?_⟩
      rw [lastFault_cons_of_ne Fault.deviceId (f := ⟨path, deviceId, now⟩) hother]
      exact hbound

/-- A node that is listed and not open. -/
theorem tryNode (h : d.Bounded faults) (scan : Scan) (n : Node)
    (hskip : d.refreshes now n = false) : (tryNode E d scan now n).1.Bounded
      (((Trial.fault now ⟨n.path, n.deviceId, d.attempt now n⟩).toList) ++ faults) := by
  unfold refreshes at hskip
  unfold Daemon.attempt at hskip ⊢
  unfold Daemon.tryNode
  split_ifs at hskip ⊢ with hopen hdenied
  · exact h
  · exact h
  · have herased : ({ d with pathDeny := d.pathDeny.erase n.path } : Daemon Data).Bounded faults :=
      h.of_subset (List.filter_subset_self _) (List.Subset.refl _)
    generalize ({ d with pathDeny := d.pathDeny.erase n.path } : Daemon Data) = d at *
    cases opening E d scan now n with
    | denied failure deviceId hfailure hattempt hresult hknown =>
        rw [hattempt] at hskip ⊢
        rw [hresult]
        have hdeny := herased.deny n.path deviceId now
        cases failure with
        | cannotOpen =>
            obtain rfl : deviceId = [] := hknown
            exact hdeny
        | alreadyGrabbed =>
            obtain rfl : deviceId = n.deviceId := hknown
            exact hdeny
        | virtual =>
            obtain rfl : deviceId = n.deviceId := hknown
            exact hdeny
        | backoff => simp [hdenied] at hskip
        | epoll => exact absurd rfl hfailure
    | duplicate _ hattempt hresult | rawOff hattempt hresult | disabled _ hattempt hresult
    | unregistered hattempt hresult =>
        rw [hattempt, hresult]
        exact herased
    | opened _ _ _ _ _ hattempt hresult =>
        rw [hattempt, hresult]
        exact herased.of_subset (List.Subset.refl _) (List.Subset.refl _)

/-- A loop over the listed mice. -/
theorem tryNodes (scan : Scan) (mice : List Node) : ∀ {d : Daemon Data} {faults : List Fault},
    d.Bounded faults → refreshless E scan now d mice = true →
    (mice.foldl (fun d n => (Daemon.tryNode E d scan now n).1) d).Bounded
      (((trials E scan now d mice).filterMap (Trial.fault now)).reverse ++ faults) := by
  induction mice with
  | nil => exact fun h _ => h
  | cons n mice ih =>
      intro d faults h hskip
      obtain ⟨hfirst, hrest⟩ := (Bool.and_eq_true _ _).mp hskip
      have hnext := ih (h.tryNode E scan n ((Bool.not_eq_true' _).mp hfirst)) hrest
      -- the failure of the first round comes before those of the rest
      rw [trials, List.filterMap_cons]
      cases hfault : Trial.fault now ⟨n.path, n.deviceId, d.attempt now n⟩ with
      | none =>
          rw [hfault] at hnext
          exact hnext
      | some f =>
          rw [hfault] at hnext
          rw [List.reverse_cons, List.append_assoc]
          exact hnext

theorem setupDevices (h : d.Bounded faults) (mice : List Node)
    (hskip : d.setupRefreshless E mice now = true) :
    (Daemon.setupDevices E d mice now).Bounded
      (((d.setupTrials E mice now []).filterMap (Trial.fault now)).reverse ++ faults) := by
  unfold setupRefreshless at hskip
  unfold Daemon.setupDevices setupTrials
  split_ifs at hskip ⊢
  · exact h
  · exact h
  · refine tryNodes E _ mice ?_ hskip
    exact h.of_subset (List.filter_subset_self _) (List.filter_subset_self _)

theorem doHotplugScan (h : d.Bounded faults) (mice : List Node)
    (hskip : d.scanRefreshless E mice now = true) :
    (Daemon.doHotplugScan E d mice now).Bounded
      (((d.scanTrials E mice now []).filterMap (Trial.fault now)).reverse ++ faults) := by
  unfold scanRefreshless at hskip
  unfold Daemon.doHotplugScan scanTrials
  split_ifs at hskip ⊢
  · exact h
  · have hleft : ((d.pruneDeny mice now).removeGone mice).Bounded faults :=
      h.of_subset (List.filter_subset_self _) (List.filter_subset_self _)
    have hscanned := hleft.tryNodes E _ mice hskip
    rw [← scanNode_foldl E now mice (_, false)] at hscanned
    exact hscanned.of_subset (List.Subset.refl _) (List.Subset.refl _)

theorem finishApply (h : d.Bounded faults) (live rawNow : Bool) (mice : List Node)
    (hskip : d.finishApplyRefreshless E live rawNow mice now = true) :
    (Daemon.finishApply E live rawNow mice now d).Bounded
      (((d.finishApplyTrials E live rawNow mice now []).filterMap (Trial.fault now)).reverse ++
        faults) := by
  -- the identity in place leaves both lists, and the teardown does not see it
  have hsame : ∀ updated, updated = (if !live && !d.devices.isEmpty then applyIdentity E d else d) →
      updated.pathDeny = d.pathDeny ∧ updated.devDeny = d.devDeny ∧
        updated.rawInputEnabled = d.rawInputEnabled ∧
        ({ updated with rawInputEnabled := rawNow } : Daemon Data).teardownDevices =
          ({ d with rawInputEnabled := rawNow } : Daemon Data).teardownDevices := by
    rintro updated rfl
    split_ifs <;> exact ⟨rfl, rfl, rfl, rfl⟩
  unfold finishApplyRefreshless at hskip
  unfold Daemon.finishApply finishApplyTrials
  dsimp only
  generalize hupdated : (if !live && !d.devices.isEmpty then applyIdentity E d else d) = updated
  obtain ⟨hpath, hdev, hraw, hteardown⟩ := hsame updated hupdated.symm
  rw [hraw, Bool.not_not]
  by_cases hrescan : ((!live && d.devices.isEmpty) || rawNow != d.rawInputEnabled) = true
  · rw [if_pos hrescan] at hskip
    rw [if_pos hrescan, if_pos hrescan, hteardown]
    have hclosed : ({ d with rawInputEnabled := rawNow } : Daemon Data).teardownDevices.Bounded
        faults := h.of_subset (List.Subset.refl _) (List.Subset.refl _)
    exact (hclosed.setupDevices E mice hskip).of_subset (List.Subset.refl _) (List.Subset.refl _)
  · rw [if_neg hrescan, if_neg hrescan]
    refine h.of_subset ?_ ?_
    · rw [hpath]
      exact List.Subset.refl _
    · rw [hdev]
      exact List.Subset.refl _

theorem applyNewConfig (h : d.Bounded faults) (mice : List Node) (newCfg : AppConfig)
    (hskip : d.applyNewConfigRefreshless J hash E mice now newCfg = true) :
    (Daemon.applyNewConfig J hash E mice now newCfg d).2.Bounded
      (((d.applyNewConfigTrials J hash E mice now newCfg []).filterMap
        (Trial.fault now)).reverse ++ faults) := by
  unfold applyNewConfigRefreshless at hskip
  unfold Daemon.applyNewConfig applyNewConfigTrials
  dsimp only at hskip ⊢
  cases ht : appConfigToJson J newCfg with
  | error e =>
      rw [ht] at hskip
      exact h.of_subset (List.Subset.refl _) (List.Subset.refl _)
  | ok t =>
      rw [ht] at hskip
      have hreapplied : (reapplyDevices E { d with config := newCfg, configHash := hash t }).Bounded
          faults := h.of_subset (List.Subset.refl _) (List.Subset.refl _)
      exact hreapplied.finishApply E _ _ mice hskip

theorem applyActiveApp (h : d.Bounded faults) : (Daemon.applyActiveApp E d).Bounded faults := by
  unfold Daemon.applyActiveApp
  dsimp only
  split_ifs
  · exact h
  · exact h.of_subset (List.Subset.refl _) (List.Subset.refl _)
  · exact h.of_subset (List.Subset.refl _) (List.Subset.refl _)

/-- Devices that an I/O error ended: those that are still there have failed. -/
theorem foldl_dropDisconnected (sameNode : Bytes → Bool) (now : ℕ)
    (gone : List (MouseDevice Data)) : ∀ {d : Daemon Data} {faults : List Fault},
    d.Bounded faults → (gone.foldl (fun d dev => d.dropDisconnected sameNode now dev) d).Bounded
      (((gone.filter fun dev => sameNode dev.path).map fun dev =>
        (⟨dev.path, dev.deviceId, now⟩ : Fault)).reverse ++ faults) := by
  induction gone with
  | nil => exact fun h => h
  | cons dev gone ih =>
      intro d faults h
      rw [List.foldl_cons]
      by_cases hsame : sameNode dev.path = true
      · have hdropped : (d.dropDisconnected sameNode now dev).Bounded
            (⟨dev.path, dev.deviceId, now⟩ :: faults) := by
          unfold dropDisconnected
          dsimp only
          rw [if_pos hsame]
          have hforgot : ({ d.forget [dev] with
              fdToDev := Function.update d.fdToDev dev.fdIn none
              rescanNeeded := true } : Daemon Data).Bounded faults :=
            h.of_subset (List.Subset.refl _) (List.Subset.refl _)
          exact hforgot.deny dev.path dev.deviceId now
        rw [List.filter_cons_of_pos (p := fun dev : MouseDevice Data => sameNode dev.path) hsame,
          List.map_cons, List.reverse_cons, List.append_assoc]
        exact ih hdropped
      · have hdropped : (d.dropDisconnected sameNode now dev).Bounded faults := by
          unfold dropDisconnected
          dsimp only
          rw [if_neg hsame]
          refine h.of_subset (List.filter_subset_self _) ?_
          split_ifs
          · exact List.filter_subset_self _
          · exact List.Subset.refl _
        rw [List.filter_cons_of_neg (p := fun dev : MouseDevice Data => sameNode dev.path) hsame]
        exact ih hdropped

theorem cleanupDisconnected (h : d.Bounded faults) (failed sameNode : Bytes → Bool) (now : ℕ) :
    (d.cleanupDisconnected failed sameNode now).Bounded
      (((d.devices.filter fun dev => failed dev.path && sameNode dev.path).map fun dev =>
        (⟨dev.path, dev.deviceId, now⟩ : Fault)).reverse ++ faults) := by
  have hdropped := h.foldl_dropDisconnected sameNode now
    (d.devices.filter fun dev => failed dev.path)
  rw [List.filter_filter] at hdropped
  simp only [Bool.and_comm (sameNode _)] at hdropped
  unfold Daemon.cleanupDisconnected
  exact hdropped.of_subset (List.Subset.refl _) (List.Subset.refl _)

end Bounded
end Daemon

/-! ## Runs -/

/-- The daemon, and the failures there were, the last one first. -/
structure BackoffRun (Data : Type) where
  daemon : Daemon Data := {}
  faults : List Fault := []

/-- The operations on the registry; no window runs at first. -/
def backoffMachine : Machine (BackoffRun Data) RegistryStep where
  Start s := s.daemon.pathDeny = [] ∧ s.daemon.devDeny = [] ∧ s.faults = []
  step s l := ((registryMachine J hash E).step s.daemon l).map fun daemon =>
    { daemon, faults := s.daemon.faults J hash E l ++ s.faults }

/-- A window does not run after a new one has been set. -/
theorem DenyList.denied_set_reopen (l : DenyList) (key : Bytes) (now : ℕ) :
    (l.set key (now + denyReopenMs)).denied key now = true := by
  simp [DenyList.denied, DenyList.set, denyReopenMs]

/-- A skipped node leaves the windows just when that of its path runs. -/
theorem Daemon.tryNode_skipped_iff {d : Daemon Data} (scan : Scan) {now : ℕ} {n : Node}
    (hskip : d.attempt now n = .failed .backoff) :
    ((tryNode E d scan now n).1.pathDeny = d.pathDeny ∧
      (tryNode E d scan now n).1.devDeny = d.devDeny) ↔ d.pathDeny.denied n.path now = true := by
  unfold Daemon.attempt at hskip
  unfold Daemon.tryNode
  split_ifs at hskip ⊢ with hopen hdenied
  · exact iff_of_true ⟨rfl, rfl⟩ hdenied
  · refine iff_of_false ?_ hdenied
    rintro ⟨hpath, -⟩
    cases opening E { d with pathDeny := d.pathDeny.erase n.path } scan now n with
    | denied failure deviceId _ _ hresult =>
        -- the skip has set the window of the path
        rw [hresult] at hpath
        have hset := DenyList.denied_set_reopen (d.pathDeny.erase n.path) n.path now
        exact hdenied (hpath ▸ hset)
    | duplicate _ hattempt | rawOff hattempt | disabled _ hattempt | unregistered hattempt =>
        rw [hattempt] at hskip
        cases hskip
    | opened _ _ _ _ _ hattempt =>
        rw [hattempt] at hskip
        cases hskip

/-- **Windows are bounded** in a run in which no node is opened while the window of its id
runs: each ends five seconds after the last failure of its path or its id.  A skip leaves
the windows just when it goes by the path. -/
theorem windows_bounded (s : BackoffRun Data)
    (h : (backoffMachine J hash E).Run
      (fun s l => s.daemon.keepsWindows J hash E l = true) s) :
    (∀ e ∈ s.daemon.pathDeny, ∃ t, lastFault Fault.path s.faults e.1 = some t ∧
      e.2 ≤ t + denyReopenMs) ∧
    (∀ e ∈ s.daemon.devDeny, ∃ t, lastFault Fault.deviceId s.faults e.1 = some t ∧
      e.2 ≤ t + denyReopenMs) ∧
    ∀ scan now n, s.daemon.attempt now n = .failed .backoff →
      (((s.daemon.tryNode E scan now n).1.pathDeny = s.daemon.pathDeny ∧
        (s.daemon.tryNode E scan now n).1.devDeny = s.daemon.devDeny) ↔
          s.daemon.pathDeny.denied n.path now = true) := by
  have hbounded : s.daemon.Bounded s.faults := by
    refine h.invariant (I := fun s => s.daemon.Bounded s.faults) ?_ ?_
    · rintro s ⟨hpath, hdev, -⟩
      constructor
      · simp [hpath]
      · simp [hdev]
    · intro s l s' h hkeeps hstep
      cases l with
      | setupDevices mice now =>
          cases hstep
          exact h.setupDevices E mice hkeeps
      | doHotplugScan mice now =>
          cases hstep
          exact h.doHotplugScan E mice hkeeps
      | applyNewConfig mice now newCfg =>
          cases hstep
          exact h.applyNewConfig J hash E mice newCfg hkeeps
      | setActiveApp app =>
          cases hstep
          exact h.of_subset (List.Subset.refl _) (List.Subset.refl _)
      | applyActiveApp =>
          cases hstep
          exact h.applyActiveApp E
      | cleanup failed sameNode now =>
          cases hstep
          exact h.cleanupDisconnected failed sameNode now
      | teardownDevices =>
          cases hstep
          exact h.of_subset (List.Subset.refl _) (List.Subset.refl _)
  exact ⟨hbounded.path, fun e he => (hbounded.device e he).2,
    fun scan now n hskip => Daemon.tryNode_skipped_iff E scan hskip⟩

/-- A mouse whose virtual device cannot be made. -/
def stubbornMouse : Node :=
  { path := bytes "event3", deviceId := bytes "usb:1", rdev := 3, virtualOk := false }

/-- Another node of the same mouse. -/
def secondNode : Node := { path := bytes "event4", deviceId := bytes "usb:1", rdev := 4 }

theorem noWindows_start :
    (backoffMachine JsonText.trees (fun _ => 0) Engine.plain).Start {} := ⟨rfl, rfl, rfl⟩

/-- Of the mouse that stays away, five seconds after its first failure. -/
theorem windows_bounded_stubborn :
    ∃ s : BackoffRun Unit, s.daemon.devDeny = [(bytes "usb:1", 10000)] ∧
      s.faults = [⟨bytes "event3", bytes "usb:1", 5000⟩, ⟨bytes "event3", bytes "usb:1", 0⟩] ∧
      ∀ e ∈ s.daemon.devDeny, ∃ t, lastFault Fault.deviceId s.faults e.1 = some t ∧
        e.2 ≤ t + denyReopenMs := by
  have hexec : ((backoffMachine JsonText.trees (fun _ => 0) Engine.plain).exec
      (fun s l => s.daemon.keepsWindows JsonText.trees (fun _ => 0) Engine.plain l = true) {}
      [.setupDevices [stubbornMouse] 0, .doHotplugScan [stubbornMouse] 2000,
        .doHotplugScan [stubbornMouse] 5000]).any (fun s =>
      s.daemon.devDeny = [(bytes "usb:1", 10000)] ∧
        s.faults = [⟨bytes "event3", bytes "usb:1", 5000⟩,
          ⟨bytes "event3", bytes "usb:1", 0⟩]) = true := by
    decide +kernel
  obtain ⟨s, hs, hstate⟩ := (Option.any_eq_true _ _).mp hexec
  obtain ⟨hwindow, hfaults⟩ := of_decide_eq_true hstate
  have hrun := Machine.Run.exec (.start noWindows_start) hs
  exact ⟨s, hwindow, hfaults, (windows_bounded _ _ _ s hrun).2.1⟩

/-- Two seconds after the failure the second node is skipped, and the window of the id ends
seven seconds after it. -/
theorem window_refreshed :
    ¬∀ s : BackoffRun Unit,
      (backoffMachine JsonText.trees (fun _ => 0) Engine.plain).Reachable s →
      ∀ e ∈ s.daemon.devDeny, ∃ t, lastFault Fault.deviceId s.faults e.1 = some t ∧
        e.2 ≤ t + denyReopenMs := by
  intro hall
  have hexec : ((backoffMachine JsonText.trees (fun _ => 0) Engine.plain).exec
      (fun _ _ => True) {}
      [.setupDevices [stubbornMouse] 0, .doHotplugScan [stubbornMouse, secondNode] 2000]).any
      (fun s => s.daemon.devDeny = [(bytes "usb:1", 7000)] ∧
        lastFault Fault.deviceId s.faults (bytes "usb:1") = some 0) = true := by
    decide +kernel
  obtain ⟨s, hs, hstate⟩ := (Option.any_eq_true _ _).mp hexec
  obtain ⟨hwindow, hlast⟩ := of_decide_eq_true hstate
  obtain ⟨t, ht, hle⟩ := hall s (.exec (.start noWindows_start) hs) (bytes "usb:1", 7000)
    (by rw [hwindow]; exact List.mem_singleton.mpr rfl)
  rw [hlast] at ht
  obtain rfl := Option.some.inj ht
  exact absurd hle (by decide)

end AbrekMouse
