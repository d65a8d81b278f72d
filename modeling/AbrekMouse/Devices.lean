import AbrekMouse.FindProfile
import Mathlib.Data.Finset.Basic

/-! # The grabbed devices

The loop thread keeps the mice it has grabbed, each with the settings of the profile
that was applied to it last.  Mice come in through `setupDevices` and `doHotplugScan`,
and go out through a scan, a released profile, an I/O error or a teardown.  What the
operating system says about a mouse (`Node`) is an input of the step, as is the time.

`initSettings` belongs to the acceleration engine, which is a parameter: it computes
the data of a curve and leaves the profile as it is.
-/
namespace AbrekMouse
open ProgLib

/-! ## Devices -/

/-- `modifier_settings`: a profile with the data that the engine computed for it. -/
structure Settings (Data : Type) where
  prof : Profile := {}
  data : Data

/-- What the acceleration library makes of a profile, as far as the daemon needs it: the data of
a device that is new, and the settings once they have been initialised. -/
structure Engine (Data : Type) where
  fresh : Data
  initSettings : Settings Data → Settings Data
  /-- The engine fills in its data and keeps the profile. -/
  prof_initSettings : ∀ s, (initSettings s).prof = s.prof

/-- `mouse_device`, with the node that its file is open on. -/
structure MouseDevice (Data : Type) where
  path : Bytes
  deviceId : Bytes
  rdev : ℕ
  fdIn : ℕ := 0
  dpi : ℤ := 800
  pollRate : ℤ := 1000
  settings : Settings Data

/-- How `open_input_device` ends: the node cannot be opened, another program has grabbed it, or
it is open and ours. -/
inductive OpenResult
  | cannotOpen | alreadyGrabbed | opened
deriving DecidableEq

/-- The descriptor that `open` returns is none of those in use. -/
structure OpenFile where
  fd : List ℕ → ℕ
  fresh : ∀ used, fd used ∉ used

/-- The one after the largest. -/
def OpenFile.next : OpenFile where
  fd used := used.max?.getD 0 + 1
  fresh used h := by
    have hle : _ ≤ used.max?.getD 0 := List.le_max?_getD_of_mem h
    omega

/-- A mouse that the system lists, and how grabbing it will end. -/
structure Node where
  path : Bytes
  deviceId : Bytes
  rdev : ℕ
  file : OpenFile := .next
  openResult : OpenResult := .opened
  virtualOk : Bool := true
  epollOk : Bool := true

/-- Why a mouse was not grabbed, for the time being. -/
inductive Failure
  | cannotOpen
  | alreadyGrabbed
  | backoff
  | virtual
  | epoll
deriving DecidableEq

/-- The two loops over the listed mice. -/
inductive Scan
  | setup
  | hotplug

/-- What came of a node that was tried: it was opened, it failed for the time being, or it was
left alone for one of three reasons. -/
inductive Attempt
  | opened
  | failed (failure : Failure)
  | disabled
  | duplicate
  | rawOff
deriving DecidableEq

/-- Until when a key may not be opened again, in milliseconds. -/
abbrev DenyList := List (Bytes × ℕ)

/-- `fd_to_dev_` after it has been built anew. -/
def fdIndex {Data : Type} (devices : List (MouseDevice Data)) : ℕ → Option ℕ :=
  devices.zipIdx.foldl (fun fdToDev p => Function.update fdToDev p.1.fdIn (some p.2))
    fun _ => none

/-- The state of the loop thread. -/
structure Daemon (Data : Type) where
  config : AppConfig := {}
  configHash : UInt64 := 0
  currentApp : Bytes := []
  pendingApp : Bytes := []
  activeAppDirty : Bool := false
  rawInputEnabled : Bool := true
  devices : List (MouseDevice Data) := []
  openedPaths : Finset Bytes := ∅
  openedDeviceIds : Finset Bytes := ∅
  fdToDev : ℕ → Option ℕ := fun _ => none
  pathDeny : DenyList := []
  devDeny : DenyList := []
  rescanNeeded : Bool := false

variable {Data : Type} (E : Engine Data)

/-- `apply_profile`. -/
def applyProfile (dev : MouseDevice Data) (prof : DeviceProfile) : MouseDevice Data :=
  { dev with
    dpi := min 32000 (max 1 prof.devCfg.dpi)
    pollRate := min pollRateMax (max pollRateMin prof.devCfg.pollingRate)
    settings := E.initSettings { dev.settings with prof := prof.prof } }

@[simp] theorem applyProfile_prof (dev : MouseDevice Data) (prof : DeviceProfile) :
    (applyProfile E dev prof).settings.prof = prof.prof := E.prof_initSettings _

@[simp] theorem applyProfile_deviceId (dev : MouseDevice Data) (prof : DeviceProfile) :
    (applyProfile E dev prof).deviceId = dev.deviceId := rfl

/-- A device where a profile was selected, and the device as it is where none was. -/
def applySelected (dev : MouseDevice Data) : Option DeviceProfile → MouseDevice Data
  | some prof => applyProfile E dev prof
  | none => dev

/-- The profile that was selected tells the daemon to leave the device alone. -/
def disabled : Option DeviceProfile → Bool
  | some prof => prof.devCfg.disable
  | none => false

/-! ## The deny lists -/

/-- For how long a node is not tried again after a failure, in milliseconds. -/
def denyReopenMs : ℕ := 5000

/-- A new end for the window of a key. -/
def DenyList.set (l : DenyList) (key : Bytes) (until_ : ℕ) : DenyList :=
  (key, until_) :: l.filter fun e => e.1 ≠ key

/-- The key has no window any more. -/
def DenyList.erase (l : DenyList) (key : Bytes) : DenyList := l.filter fun e => e.1 ≠ key

/-- The window of the key is still running. -/
def DenyList.denied (l : DenyList) (key : Bytes) (now : ℕ) : Bool :=
  match l.lookup key with
  | some until_ => now < until_
  | none => false

namespace Daemon
variable (d : Daemon Data)

/-- `reopen_denied`: the window of the path runs, or that of the mouse, where its id is known. -/
def reopenDenied (path deviceId : Bytes) (now : ℕ) : Bool :=
  d.pathDeny.denied path now || (deviceId ≠ [] && d.devDeny.denied deviceId now)

/-- `deny_reopen`: both windows are set anew, the one of the mouse only where its id is known. -/
def denyReopen (path deviceId : Bytes) (now : ℕ) : Daemon Data :=
  { d with
    pathDeny := d.pathDeny.set path (now + denyReopenMs)
    devDeny := if deviceId ≠ [] then d.devDeny.set deviceId (now + denyReopenMs) else d.devDeny }

/-- `prune_path_deny` and `prune_dev_deny`. -/
def pruneDeny (mice : List Node) (now : ℕ) : Daemon Data :=
  { d with
    pathDeny := d.pathDeny.filter fun e => (mice.any fun n => n.path = e.1) && now < e.2
    devDeny := d.devDeny.filter fun e => now < e.2 }

/-- The profile of a device under the current configuration and application. -/
def profileOf (deviceId : Bytes) : Option DeviceProfile :=
  findProfile d.config d.currentApp deviceId

/-! ## Grabbing -/

/-- The two checks that skip a node, in the order in which the loop makes them; another
node of a mouse that is open is not tried again. -/
def skips (scan : Scan) (n : Node) : Bool :=
  let duplicate : Bool := n.deviceId ≠ [] ∧ n.deviceId ∈ d.openedDeviceIds
  match scan with
  | .setup => !d.rawInputEnabled || duplicate
  | .hotplug => duplicate || !d.rawInputEnabled

/-- A listed node that is not open yet: what happens to it, and whether it has to be
tried again. -/
def openNode (scan : Scan) (now : ℕ) (n : Node) : Daemon Data × Bool :=
  match n.openResult with
  | .cannotOpen => (d.denyReopen n.path [] now, true)
  | .alreadyGrabbed => (d.denyReopen n.path n.deviceId now, true)
  | .opened =>
      -- the same mouse may be denied under another path
      if d.reopenDenied n.path n.deviceId now then (d.denyReopen n.path n.deviceId now, true)
      else if d.skips scan n then (d, false)
      else
        let prof := d.profileOf n.deviceId
        if disabled prof then (d, false)
        else if !n.virtualOk then (d.denyReopen n.path n.deviceId now, true)
        -- no deny entry here: the next scan tries the node at once
        else if !n.epollOk then (d, true)
        else
          let dev : MouseDevice Data :=
            { path := n.path, deviceId := n.deviceId, rdev := n.rdev
              fdIn := n.file.fd (d.devices.map (·.fdIn)), settings := ⟨{}, E.fresh⟩ }
          ({ d with
              devices := d.devices ++ [applySelected E dev prof]
              openedPaths := insert n.path d.openedPaths
              openedDeviceIds :=
                if n.deviceId ≠ [] then insert n.deviceId d.openedDeviceIds
                else d.openedDeviceIds
              fdToDev := Function.update d.fdToDev dev.fdIn (some d.devices.length) }, false)

/-- What `openNode` does with a node, in a word. -/
def openAttempt (now : ℕ) (n : Node) : Attempt :=
  match n.openResult with
  | .cannotOpen => .failed .cannotOpen
  | .alreadyGrabbed => .failed .alreadyGrabbed
  | .opened =>
      if d.reopenDenied n.path n.deviceId now then .failed .backoff
      else if n.deviceId ≠ [] ∧ n.deviceId ∈ d.openedDeviceIds then .duplicate
      else if !d.rawInputEnabled then .rawOff
      else if AbrekMouse.disabled (d.profileOf n.deviceId) then .disabled
      else if !n.virtualOk then .failed .virtual
      else if !n.epollOk then .failed .epoll
      else .opened

/-- One round of the loops over the listed mice: a node that is open is skipped, one in
its deny window too, and a window that expired is dropped. -/
def tryNode (scan : Scan) (now : ℕ) (n : Node) : Daemon Data × Bool :=
  if n.path ∈ d.openedPaths then (d, false)
  else if d.pathDeny.denied n.path now then (d, true)
  else openNode E { d with pathDeny := d.pathDeny.erase n.path } scan now n

/-- `setup_devices`: every listed mouse is tried once, unless there is none or raw input is off. -/
def setupDevices (mice : List Node) (now : ℕ) : Daemon Data :=
  if mice = [] then d
  else if !d.rawInputEnabled then d
  else mice.foldl (fun d n => (tryNode E d .setup now n).1) (d.pruneDeny mice now)

/-- The registry forgets the devices that go. -/
def forget (gone : List (MouseDevice Data)) : Daemon Data :=
  { d with
    openedPaths := d.openedPaths.filter fun path => ∀ dev ∈ gone, dev.path ≠ path
    openedDeviceIds := d.openedDeviceIds.filter fun id =>
      ∀ dev ∈ gone, dev.deviceId = [] ∨ dev.deviceId ≠ id }

/-- A device whose path is still listed, for the node that is open. -/
def stillPhysical (mice : List Node) (dev : MouseDevice Data) : Bool :=
  mice.any fun n => n.path = dev.path && n.rdev = dev.rdev

/-- The devices whose node is no longer listed, or has become another one, are released. -/
def removeGone (mice : List Node) : Daemon Data :=
  let d := d.forget (d.devices.filter fun dev => !stillPhysical mice dev)
  { d with
    devices := d.devices.filter (stillPhysical mice)
    fdToDev := fdIndex (d.devices.filter (stillPhysical mice)) }

/-- One round of the scan, with the flag that asks for another scan. -/
def scanNode (now : ℕ) (acc : Daemon Data × Bool) (n : Node) : Daemon Data × Bool :=
  ((tryNode E acc.1 .hotplug now n).1, acc.2 || (tryNode E acc.1 .hotplug now n).2)

/-- `do_hotplug_scan`: what is gone is released, every listed mouse is tried, and the flag tells
whether one has to be tried again. -/
def doHotplugScan (mice : List Node) (now : ℕ) : Daemon Data :=
  if !d.rawInputEnabled then d
  else
    let scanned := mice.foldl (scanNode E now) ((d.pruneDeny mice now).removeGone mice, false)
    { scanned.1 with rescanNeeded := scanned.2 }

/-- `teardown_devices`: every device is released, and the deny lists stay. -/
def teardownDevices : Daemon Data :=
  { d with
    devices := [], openedPaths := ∅, openedDeviceIds := ∅, fdToDev := fun _ => none }

/-- One device that an I/O error ended: it is denied for a while if its path still leads
to the same node, and no longer denied if not. -/
def dropDisconnected (sameNode : Bytes → Bool) (now : ℕ) (dev : MouseDevice Data) : Daemon Data :=
  let d := { d.forget [dev] with
    fdToDev := Function.update d.fdToDev dev.fdIn none, rescanNeeded := true }
  if sameNode dev.path then d.denyReopen dev.path dev.deviceId now
  else
    { d with
      pathDeny := d.pathDeny.erase dev.path
      devDeny := if dev.deviceId ≠ [] then d.devDeny.erase dev.deviceId else d.devDeny }

/-- The cleanup after a batch of events; `failed` are the paths with an I/O error. -/
def cleanupDisconnected (failed sameNode : Bytes → Bool) (now : ℕ) : Daemon Data :=
  let gone := d.devices.filter fun dev => failed dev.path
  let d := gone.foldl (fun d dev => d.dropDisconnected sameNode now dev) d
  let kept := d.devices.filter fun dev => !failed dev.path
  { d with devices := kept, fdToDev := if gone = [] then d.fdToDev else fdIndex kept }

/-! ## What the grabs keep -/

/-- Configuration, application and switch: what no grab changes. -/
structure SameControl (d d' : Daemon Data) : Prop where
  config : d'.config = d.config
  currentApp : d'.currentApp = d.currentApp
  rawInputEnabled : d'.rawInputEnabled = d.rawInputEnabled

/-- The profile that the current configuration and application give a device: the one
that is selected, or the identity. -/
def effective (deviceId : Bytes) : Profile :=
  match d.profileOf deviceId with
  | some prof => prof.prof
  | none => {}

/-- Every grabbed device has the profile that is effective for it. -/
def Follows : Prop := ∀ dev ∈ d.devices, dev.settings.prof = d.effective dev.deviceId

/-- What a grab does: the control state stays, and devices that follow it still do. -/
structure Grabs (d d' : Daemon Data) : Prop where
  same : SameControl d d'
  follows : d.Follows → d'.Follows

variable {d} {E}

theorem SameControl.effective {d' : Daemon Data} (h : SameControl d d') (deviceId : Bytes) :
    d'.effective deviceId = d.effective deviceId := by
  unfold Daemon.effective profileOf
  rw [h.config, h.currentApp]

/-- A state whose devices are among those there were. -/
theorem Grabs.of_subset {d' : Daemon Data} (h : SameControl d d') (hsub : d'.devices ⊆ d.devices) :
    Grabs d d' :=
  ⟨h, fun hfol dev hdev => (hfol dev (hsub hdev)).trans (h.effective _).symm⟩

theorem Grabs.refl (d : Daemon Data) : Grabs d d := ⟨⟨rfl, rfl, rfl⟩, id⟩

theorem Grabs.trans {d₁ d₂ d₃ : Daemon Data} (h₁ : Grabs d₁ d₂) (h₂ : Grabs d₂ d₃) :
    Grabs d₁ d₃ :=
  ⟨⟨h₂.same.config.trans h₁.same.config, h₂.same.currentApp.trans h₁.same.currentApp,
    h₂.same.rawInputEnabled.trans h₁.same.rawInputEnabled⟩, h₂.follows ∘ h₁.follows⟩

/-- A loop grabs when each of its rounds does. -/
theorem Grabs.foldl {α : Type} {f : Daemon Data → α → Daemon Data} (h : ∀ d a, Grabs d (f d a)) :
    ∀ (as : List α) (d : Daemon Data), Grabs d (as.foldl f d)
  | [], d => .refl d
  | a :: as, d => (h d a).trans (Grabs.foldl h as (f d a))

theorem applySelected_prof (dev : MouseDevice Data) (hfresh : dev.settings.prof = {})
    (sel : Option DeviceProfile) : (applySelected E dev sel).settings.prof =
      match sel with
      | some prof => prof.prof
      | none => {} := by
  cases sel with
  | none => exact hfresh
  | some prof => exact applyProfile_prof E dev prof

@[simp] theorem applySelected_deviceId (dev : MouseDevice Data) (sel : Option DeviceProfile) :
    (applySelected E dev sel).deviceId = dev.deviceId := by
  cases sel <;> rfl

variable (d E)

theorem denyReopen_grabs (path deviceId : Bytes) (now : ℕ) :
    Grabs d (d.denyReopen path deviceId now) := .of_subset ⟨rfl, rfl, rfl⟩ (List.Subset.refl _)

/-- Either order skips the same nodes. -/
theorem skips_iff (scan : Scan) (n : Node) : d.skips scan n = true ↔
    (n.deviceId ≠ [] ∧ n.deviceId ∈ d.openedDeviceIds) ∨ d.rawInputEnabled = false := by
  cases scan
  · simp [skips, or_comm]
  · simp [skips]

/-- What an attempt comes to. -/
inductive Opening (scan : Scan) (now : ℕ) (n : Node) : Prop
  | denied (failure : Failure) (deviceId : Bytes) (hfailure : failure ≠ .epoll)
      (hattempt : d.openAttempt now n = .failed failure)
      (hresult : openNode E d scan now n = (d.denyReopen n.path deviceId now, true))
      (hknown : deviceId = if failure = .cannotOpen then [] else n.deviceId) : Opening scan now n
  | duplicate (hmem : n.deviceId ∈ d.openedDeviceIds)
      (hattempt : d.openAttempt now n = .duplicate)
      (hresult : openNode E d scan now n = (d, false)) : Opening scan now n
  | rawOff (hattempt : d.openAttempt now n = .rawOff)
      (hresult : openNode E d scan now n = (d, false)) : Opening scan now n
  | disabled (hdisabled : AbrekMouse.disabled (d.profileOf n.deviceId) = true)
      (hattempt : d.openAttempt now n = .disabled)
      (hresult : openNode E d scan now n = (d, false)) : Opening scan now n
  | unregistered (hattempt : d.openAttempt now n = .failed .epoll)
      (hresult : openNode E d scan now n = (d, true)) : Opening scan now n
  | opened (dev : MouseDevice Data)
      (hdev : dev =
        { path := n.path, deviceId := n.deviceId, rdev := n.rdev
          fdIn := n.file.fd (d.devices.map (·.fdIn)), settings := ⟨{}, E.fresh⟩ })
      (hnew : ¬(n.deviceId ≠ [] ∧ n.deviceId ∈ d.openedDeviceIds))
      (hraw : d.rawInputEnabled = true)
      (henabled : AbrekMouse.disabled (d.profileOf n.deviceId) = false)
      (hattempt : d.openAttempt now n = .opened)
      (hresult : openNode E d scan now n =
        ({ d with
            devices := d.devices ++ [applySelected E dev (d.profileOf n.deviceId)]
            openedPaths := insert n.path d.openedPaths
            openedDeviceIds :=
              if n.deviceId ≠ [] then insert n.deviceId d.openedDeviceIds
              else d.openedDeviceIds
            fdToDev := Function.update d.fdToDev dev.fdIn (some d.devices.length) }, false)) :
      Opening scan now n

theorem opening (scan : Scan) (now : ℕ) (n : Node) : Opening E d scan now n := by
  have hopen : openNode E d scan now n = openNode E d scan now n := rfl
  have hattempt : d.openAttempt now n = d.openAttempt now n := rfl
  conv_rhs at hopen => unfold openNode
  conv_rhs at hattempt => unfold openAttempt
  cases hresult : n.openResult with
  | cannotOpen =>
      simp only [hresult] at hopen hattempt
      exact .denied _ _ (by decide) hattempt hopen rfl
  | alreadyGrabbed =>
      simp only [hresult] at hopen hattempt
      exact .denied _ _ (by decide) hattempt hopen rfl
  | opened =>
      simp only [hresult] at hopen hattempt
      by_cases hdenied : d.reopenDenied n.path n.deviceId now = true
      · rw [if_pos hdenied] at hopen hattempt
        exact .denied _ _ (by decide) hattempt hopen rfl
      rw [if_neg hdenied] at hopen hattempt
      by_cases hnew : n.deviceId ≠ [] ∧ n.deviceId ∈ d.openedDeviceIds
      · rw [if_pos hnew] at hattempt
        rw [if_pos ((skips_iff d scan n).mpr (.inl hnew))] at hopen
        exact .duplicate hnew.2 hattempt hopen
      rw [if_neg hnew] at hattempt
      by_cases hraw : (!d.rawInputEnabled) = true
      · rw [if_pos hraw] at hattempt
        rw [if_pos ((skips_iff d scan n).mpr (.inr (by simpa using hraw)))] at hopen
        exact .rawOff hattempt hopen
      rw [if_neg hraw] at hattempt
      have hgoes : ¬d.skips scan n = true := fun h =>
        ((skips_iff d scan n).mp h).elim hnew fun hoff => hraw (by simpa using hoff)
      rw [if_neg hgoes] at hopen
      by_cases hdisabled : AbrekMouse.disabled (d.profileOf n.deviceId) = true
      · rw [if_pos hdisabled] at hopen hattempt
        exact .disabled hdisabled hattempt hopen
      rw [if_neg hdisabled] at hopen hattempt
      by_cases hvirtual : (!n.virtualOk) = true
      · rw [if_pos hvirtual] at hopen hattempt
        exact .denied _ _ (by decide) hattempt hopen rfl
      rw [if_neg hvirtual] at hopen hattempt
      by_cases hepoll : (!n.epollOk) = true
      · rw [if_pos hepoll] at hopen hattempt
        exact .unregistered hattempt hopen
      rw [if_neg hepoll] at hopen hattempt
      exact .opened _ rfl hnew (by simpa using hraw) ((Bool.not_eq_true _).mp hdisabled) hattempt
        hopen

theorem openNode_grabs (scan : Scan) (now : ℕ) (n : Node) :
    Grabs d (openNode E d scan now n).1 := by
  cases opening E d scan now n with
  | denied _ _ _ _ hresult =>
      rw [hresult]
      exact d.denyReopen_grabs _ _ _
  | duplicate _ _ hresult | rawOff _ hresult | disabled _ _ hresult | unregistered _ hresult =>
      rw [hresult]
      exact .refl d
  | opened dev hdev _ _ _ _ hresult =>
      -- the new device got the profile selected for it
      rw [hresult]
      refine ⟨⟨rfl, rfl, rfl⟩, fun hfol => ?_⟩
      refine List.forall_mem_append.mpr ⟨hfol, List.forall_mem_singleton.mpr ?_⟩
      rw [applySelected_deviceId, hdev]
      exact applySelected_prof _ rfl _

theorem tryNode_grabs (scan : Scan) (now : ℕ) (n : Node) :
    Grabs d (tryNode E d scan now n).1 := by
  unfold tryNode
  split_ifs
  · exact .refl d
  · exact .refl d
  · refine Grabs.trans ?_ (openNode_grabs E _ scan now n)
    exact .of_subset ⟨rfl, rfl, rfl⟩ (List.Subset.refl _)

theorem setupDevices_grabs (mice : List Node) (now : ℕ) : Grabs d (setupDevices E d mice now) := by
  unfold setupDevices
  split_ifs
  · exact .refl d
  · exact .refl d
  · refine Grabs.trans ?_ (Grabs.foldl (fun d n => tryNode_grabs E d _ now n) mice _)
    exact .of_subset ⟨rfl, rfl, rfl⟩ (List.Subset.refl _)

/-- The rounds of a scan, without the flag. -/
theorem scanNode_foldl (now : ℕ) (mice : List Node) : ∀ acc : Daemon Data × Bool,
    (mice.foldl (scanNode E now) acc).1 =
      mice.foldl (fun d n => (tryNode E d .hotplug now n).1) acc.1 := by
  induction mice with
  | nil => exact fun acc => rfl
  | cons n mice ih => exact fun acc => ih (scanNode E now acc n)

theorem doHotplugScan_grabs (mice : List Node) (now : ℕ) :
    Grabs d (doHotplugScan E d mice now) := by
  have hscan : ∀ acc : Daemon Data × Bool, Grabs acc.1 (mice.foldl (scanNode E now) acc).1 := by
    intro acc
    rw [scanNode_foldl]
    exact Grabs.foldl (fun d n => tryNode_grabs E d _ now n) mice acc.1
  unfold doHotplugScan
  split_ifs
  · exact .refl d
  · dsimp only
    have hstart : Grabs d ((d.pruneDeny mice now).removeGone mice) :=
      .of_subset ⟨rfl, rfl, rfl⟩ (List.filter_subset_self _)
    have hend : ∀ d' : Daemon Data, ∀ b, Grabs d' { d' with rescanNeeded := b } := fun d' b =>
      .of_subset ⟨rfl, rfl, rfl⟩ (List.Subset.refl _)
    exact (hstart.trans (hscan (_, false))).trans (hend _ _)

theorem cleanupDisconnected_grabs (failed sameNode : Bytes → Bool) (now : ℕ) :
    Grabs d (d.cleanupDisconnected failed sameNode now) := by
  have hdrop : ∀ (d : Daemon Data) dev, Grabs d (d.dropDisconnected sameNode now dev) :=
    fun d dev => by
      unfold dropDisconnected
      dsimp only
      split_ifs <;> exact .of_subset ⟨rfl, rfl, rfl⟩ (List.Subset.refl _)
  unfold cleanupDisconnected
  dsimp only
  have hloop := Grabs.foldl hdrop (d.devices.filter fun dev => failed dev.path) d
  exact hloop.trans (.of_subset ⟨rfl, rfl, rfl⟩ (List.filter_subset_self _))

/-- The devices with an I/O error go, and no others. -/
theorem cleanupDisconnected_devices (failed sameNode : Bytes → Bool) (now : ℕ) :
    (d.cleanupDisconnected failed sameNode now).devices =
      d.devices.filter fun dev => !failed dev.path := by
  have hdrop : ∀ (gone : List (MouseDevice Data)) (d : Daemon Data),
      (gone.foldl (fun d dev => d.dropDisconnected sameNode now dev) d).devices = d.devices := by
    intro gone d
    refine List.foldlRecOn (motive := fun e : Daemon Data => e.devices = d.devices) gone _ rfl ?_
    intro e he dev _
    unfold dropDisconnected
    dsimp only
    split_ifs <;> exact he
  unfold cleanupDisconnected
  dsimp only
  rw [hdrop]

/-- After a teardown there is no device that could have a wrong profile. -/
theorem teardownDevices_follows : d.teardownDevices.Follows := fun dev hdev => by
  cases hdev

end Daemon
end AbrekMouse
