import AbrekMouse.Devices
import AbrekMouse.Machine
import AbrekMouse.Truncation

/-! # Applying a configuration and a focus report

`applyNewConfig` replaces the configuration of the loop thread and updates the grabbed
devices in place; `applyActiveApp` takes over the focused application and does the
same.  Both release the devices whose profile became disabled.

Two results.  An apply that throws has already replaced the configuration
(`applyNewConfig_keeps_iff`).  And a focus change that selects no profile leaves the
old settings on the devices, so they follow the configuration in every run whose focus
changes all select something (`follows_of_run`).
-/
namespace AbrekMouse
open ProgLib
variable {Text Data : Type} (J : JsonText Text) (hash : Text → UInt64) (E : Engine Data)

namespace Daemon

/-! ## The two entry points -/

/-- The loop over the grabbed devices: those with a disabled profile are released, the
others get the profile that is selected, if one is. -/
def reapplyDevices (d : Daemon Data) : Daemon Data :=
  let released := d.devices.filter fun dev => disabled (d.profileOf dev.deviceId)
  let kept := d.devices.filter fun dev => !disabled (d.profileOf dev.deviceId)
  let devices := kept.map fun dev => applySelected E dev (d.profileOf dev.deviceId)
  { d.forget released with devices := devices, fdToDev := fdIndex devices }

/-- Some device got a profile. -/
def anyLive (d : Daemon Data) : Bool :=
  d.devices.any fun dev =>
    match d.profileOf dev.deviceId with
    | some prof => !prof.devCfg.disable
    | none => false

/-- The fast path: with devices open and no profile selected, all get the identity. -/
def applyIdentity (d : Daemon Data) : Daemon Data :=
  { d with devices := d.devices.map fun dev => applyProfile E dev {} }

/-- The second half of `apply_new_config`, after the devices were updated in place. -/
def finishApply (live : Bool) (rawNow : Bool) (mice : List Node) (now : ℕ) (d : Daemon Data) :
    Daemon Data :=
  let haveOpen := !d.devices.isEmpty
  let d := if !live && haveOpen then applyIdentity E d else d
  let needFullRescan := !live && !haveOpen
  let rawChanged := rawNow != d.rawInputEnabled
  -- stored first: `setup_devices` looks at the switch
  let d := { d with rawInputEnabled := rawNow }
  let d := if needFullRescan || rawChanged then setupDevices E d.teardownDevices mice now else d
  { d with rescanNeeded := true }

/-- `apply_new_config`: what it throws, and the state it leaves. -/
def applyNewConfig (mice : List Node) (now : ℕ) (newCfg : AppConfig) (d : Daemon Data) :
    Except ConfigError Unit × Daemon Data :=
  -- replaced before it is known that it can be serialised
  let d := { d with config := newCfg }
  match appConfigToJson J d.config with
  | .error e => (.error e, d)
  | .ok t =>
      let d := { d with configHash := hash t }
      (.ok (), finishApply E (anyLive d) newCfg.useRawInput mice now (reapplyDevices E d))

/-- The reload of the loop thread, with the exception that it catches. -/
def reloadConfig (lim : Limits) (path : Bytes) (file : Option Text) (mice : List Node) (now : ℕ)
    (d : Daemon Data) : Except ConfigError Unit × Daemon Data :=
  match loadConfig J lim path file with
  | .error e => (.error e, d)
  | .ok cfg => applyNewConfig J hash E mice now cfg d

/-- The focus report of the graphical program, which the loop thread picks up later. -/
def setActiveApp (app : Bytes) (d : Daemon Data) : Daemon Data :=
  { d with pendingApp := app, activeAppDirty := true }

/-- `apply_active_app`: the devices get the profiles of the new application, and a scan is asked
for. -/
def applyActiveApp (d : Daemon Data) : Daemon Data :=
  if !d.activeAppDirty then d
  else
    let d := { d with activeAppDirty := false }
    if d.pendingApp = d.currentApp then d
    else
      let d := { d with currentApp := d.pendingApp }
      { reapplyDevices E d with rescanNeeded := true }

/-- The configuration of a start: that of the file, or one default profile. -/
def startConfig (lim : Limits) (path : Bytes) (file : Option Text) : AppConfig :=
  match loadConfig J lim path file with
  | .ok cfg => cfg
  | .error _ =>
      { activeProfile := bytes "default"
        profiles := [{ name := bytes "default", devCfg := { dpi := 800, pollingRate := 1000 } }] }

/-- `start`: the configuration of the file, or the default one, and the first setup. -/
def start (lim : Limits) (path : Bytes) (file : Option Text) (mice : List Node) (now : ℕ) :
    Except ConfigError (Daemon Data) := do
  let cfg := startConfig J lim path file
  let t ← appConfigToJson J cfg
  return setupDevices E
    { config := cfg, configHash := hash t, rawInputEnabled := cfg.useRawInput } mice now

/-! ## An apply that throws -/

variable {J hash E}

theorem applyNewConfig_error {mice : List Node} {now : ℕ} {newCfg : AppConfig}
    {d d' : Daemon Data} {e : ConfigError}
    (h : applyNewConfig J hash E mice now newCfg d = (.error e, d')) :
    d' = { d with config := newCfg } ∧ ¬newCfg.Encodable := by
  unfold applyNewConfig at h
  dsimp only at h
  split at h
  · rename_i hdump
    refine ⟨(Prod.mk.inj h).2.symm, fun henc => ?_⟩
    obtain ⟨t, ht⟩ := appConfigToJson_ok_iff.mpr henc
    rw [ht] at hdump
    cases hdump
  · cases (Prod.mk.inj h).1

theorem exists_applyNewConfig_error {mice : List Node} {now : ℕ} {newCfg : AppConfig}
    {d : Daemon Data} (h : ¬newCfg.Encodable) :
    ∃ e, applyNewConfig J hash E mice now newCfg d = (.error e, { d with config := newCfg }) := by
  cases hdump : appConfigToJson J newCfg with
  | ok t => exact absurd (appConfigToJson_ok_iff.mp ⟨t, hdump⟩) h
  | error e =>
      refine ⟨e, ?_⟩
      unfold applyNewConfig
      dsimp only
      rw [hdump]

theorem finishApply_config (live rawNow : Bool) (mice : List Node) (now : ℕ) (d : Daemon Data) :
    (finishApply E live rawNow mice now d).config = d.config := by
  have hsetup : ∀ d₁ : Daemon Data, (setupDevices E d₁ mice now).config = d₁.config := fun d₁ =>
    (setupDevices_grabs E d₁ mice now).same.config
  unfold finishApply
  dsimp only
  split_ifs <;> first | rfl | exact hsetup _

/-- Whether it throws or not, an apply has replaced the configuration. -/
theorem applyNewConfig_config (mice : List Node) (now : ℕ) (newCfg : AppConfig)
    (d : Daemon Data) : (applyNewConfig J hash E mice now newCfg d).2.config = newCfg := by
  unfold applyNewConfig
  dsimp only
  split
  · rfl
  · exact finishApply_config _ _ _ _ _

variable (J hash E)

/-- **An apply that throws keeps the running configuration exactly when there is nothing
to lose.**  It throws when a string of the new configuration is not UTF-8, and by then
the configuration is replaced; the hash, the switch and the devices are as they were. -/
theorem applyNewConfig_keeps_iff (mice : List Node) (now : ℕ) (newCfg : AppConfig)
    (d : Daemon Data) :
    (∀ e d', applyNewConfig J hash E mice now newCfg d = (.error e, d') →
      d'.config = d.config ∧ d'.configHash = d.configHash ∧
      d'.rawInputEnabled = d.rawInputEnabled ∧ d'.devices = d.devices) ↔
    newCfg.Encodable ∨ newCfg = d.config := by
  constructor
  · intro hkeeps
    by_cases henc : newCfg.Encodable
    · exact .inl henc
    · obtain ⟨e, he⟩ := exists_applyNewConfig_error (J := J) henc
      exact .inr (hkeeps e _ he).1
  · intro hcond e d' h
    obtain ⟨rfl, hbad⟩ := applyNewConfig_error h
    rcases hcond with henc | heq
    · exact absurd henc hbad
    · exact ⟨heq, rfl, rfl, rfl⟩

end Daemon

/-- An engine that computes nothing. -/
def Engine.plain : Engine Unit where
  fresh := ()
  initSettings s := s
  prof_initSettings _ := rfl

/-- A reload of a file with one long name throws, and has replaced the configuration. -/
theorem reloadConfig_not_kept :
    loadConfig JsonText.trees Limits.documented (bytes "settings.json")
        (some (textWithActive splitName)) = .ok splitConfig ∧
      ¬∀ e d', Daemon.reloadConfig JsonText.trees (fun _ => 0) Engine.plain Limits.documented
          (bytes "settings.json") (some (textWithActive splitName)) [] 0 {} = (.error e, d') →
        d'.config = ({} : Daemon Unit).config ∧ d'.configHash = ({} : Daemon Unit).configHash ∧
        d'.rawInputEnabled = ({} : Daemon Unit).rawInputEnabled ∧
        d'.devices = ({} : Daemon Unit).devices := by
  have hload := loadConfig_splitName (bytes "settings.json")
  refine ⟨hload, fun hkeeps => ?_⟩
  obtain ⟨e, he⟩ : ∃ e, Daemon.applyNewConfig JsonText.trees (fun _ => 0) Engine.plain [] 0
      splitConfig {} = (.error e, { config := splitConfig }) :=
    Daemon.exists_applyNewConfig_error splitConfig_not_encodable
  have hreload : Daemon.reloadConfig JsonText.trees (fun _ => 0) Engine.plain Limits.documented
      (bytes "settings.json") (some (textWithActive splitName)) [] 0 {} =
        (.error e, { config := splitConfig }) := by
    unfold Daemon.reloadConfig
    rw [hload]
    exact he
  have hversion := congrArg AppConfig.version (hkeeps e _ hreload).1
  exact absurd hversion (by decide)

/-! ## Runs of the loop thread -/

namespace Daemon
variable {E}

/-- A device with the selected profile applied, if it had the identity where none is. -/
theorem applySelected_effective {d : Daemon Data} {dev : MouseDevice Data}
    (h : d.profileOf dev.deviceId ≠ none ∨ dev.settings.prof = {}) :
    (applySelected E dev (d.profileOf dev.deviceId)).settings.prof = d.effective dev.deviceId := by
  unfold effective
  cases hsel : d.profileOf dev.deviceId with
  | some prof => exact applyProfile_prof E dev prof
  | none => exact h.resolve_left fun hne => hne hsel

theorem reapplyDevices_follows {d : Daemon Data}
    (h : ∀ dev ∈ d.devices, d.profileOf dev.deviceId ≠ none ∨ dev.settings.prof = {}) :
    (reapplyDevices E d).Follows := by
  intro dev hdev
  obtain ⟨old, hold, rfl⟩ := List.mem_map.mp hdev
  rw [applySelected_deviceId]
  exact applySelected_effective (h old (List.mem_of_mem_filter hold))

/-- The application filters do not look at the device, so one device has a profile
selected exactly when all have. -/
theorem profileOf_ne_none_iff {d : Daemon Data} {deviceId : Bytes} :
    d.profileOf deviceId ≠ none ↔
      ∃ p ∈ d.config.profiles, profileMatchesApp p d.currentApp = true := by
  unfold profileOf
  rw [ne_eq, findProfile_eq_none]
  simp

theorem applyIdentity_follows {d : Daemon Data}
    (h : ∀ dev ∈ d.devices, d.profileOf dev.deviceId = none) : (applyIdentity E d).Follows := by
  intro dev hdev
  obtain ⟨old, hold, rfl⟩ := List.mem_map.mp hdev
  have hnone : (applyIdentity E d).effective old.deviceId = {} := by
    have hsel : (applyIdentity E d).profileOf old.deviceId = none := h old hold
    unfold effective
    rw [hsel]
  rw [applyProfile_deviceId, hnone]
  exact applyProfile_prof E old {}

/-- **After the in-place update the devices follow the new configuration**: some device
got a profile, so all did, or none is selected and all get the identity. -/
theorem updated_follows (d : Daemon Data) :
    (if !anyLive d && !(reapplyDevices E d).devices.isEmpty then
      applyIdentity E (reapplyDevices E d) else reapplyDevices E d).Follows := by
  by_cases hlive : anyLive d = true
  · obtain ⟨dev, -, hsel⟩ := List.any_eq_true.mp hlive
    have hsome : d.profileOf dev.deviceId ≠ none := fun hnone => by
      rw [hnone] at hsel
      cases hsel
    rw [if_neg (by simp [hlive])]
    exact reapplyDevices_follows fun other _ =>
      .inl (profileOf_ne_none_iff.mpr (profileOf_ne_none_iff.mp hsome))
  · cases hkept : (reapplyDevices E d).devices with
    | nil =>
        intro dev hdev
        rw [List.isEmpty_nil, Bool.not_true, Bool.and_false] at hdev
        simp only [Bool.false_eq_true, if_false, hkept] at hdev
        cases hdev
    | cons first rest =>
        -- a device was kept although none is live, so nothing is selected for it
        have hmem : first ∈ (reapplyDevices E d).devices := by simp [hkept]
        obtain ⟨old, hold, -⟩ := List.mem_map.mp hmem
        obtain ⟨hin, hkeep⟩ := List.mem_filter.mp hold
        have hnone : d.profileOf old.deviceId = none := by
          cases hsel : d.profileOf old.deviceId with
          | none => rfl
          | some prof =>
              refine absurd (List.any_eq_true.mpr ⟨old, hin, ?_⟩) hlive
              rw [hsel] at hkeep ⊢
              exact hkeep
        rw [if_pos (by simp [hlive])]
        refine applyIdentity_follows fun dev _ => ?_
        by_contra hne
        exact profileOf_ne_none_iff.mpr (profileOf_ne_none_iff.mp hne) hnone

theorem finishApply_follows {live rawNow : Bool} {mice : List Node} {now : ℕ} {d : Daemon Data}
    (h : (if !live && !d.devices.isEmpty then applyIdentity E d else d).Follows) :
    (finishApply E live rawNow mice now d).Follows := by
  unfold finishApply
  dsimp only
  generalize (if !live && !d.devices.isEmpty then applyIdentity E d else d) = updated at h ⊢
  split_ifs
  · exact (setupDevices_grabs E _ mice now).follows (teardownDevices_follows _)
  · exact h

theorem applyNewConfig_follows {mice : List Node} {now : ℕ} {newCfg : AppConfig}
    {d d' : Daemon Data} (h : applyNewConfig J hash E mice now newCfg d = (.ok (), d')) :
    d'.Follows := by
  unfold applyNewConfig at h
  dsimp only at h
  split at h
  · cases (Prod.mk.inj h).1
  · obtain rfl := (Prod.mk.inj h).2
    exact finishApply_follows (updated_follows _)

/-- A focus change that selects a profile, or finds the identity on every device. -/
def FocusSelects (d : Daemon Data) : Prop :=
  d.activeAppDirty = true → d.pendingApp ≠ d.currentApp →
    (∃ p ∈ d.config.profiles, profileMatchesApp p d.pendingApp = true) ∨
      ∀ dev ∈ d.devices, dev.settings.prof = {}

theorem applyActiveApp_follows {d : Daemon Data} (hfol : d.Follows) (h : d.FocusSelects) :
    (applyActiveApp E d).Follows := by
  unfold applyActiveApp
  dsimp only
  split_ifs with hdirty hsame
  · exact hfol
  · exact hfol
  · refine reapplyDevices_follows fun dev hdev => ?_
    rcases h (by simpa using hdirty) hsame with hsel | hidentity
    · exact .inl (profileOf_ne_none_iff.mpr hsel)
    · exact .inr (hidentity dev hdev)

end Daemon

/-- The steps of the loop thread, and the focus reports of the other one. -/
inductive LoopStep
  | setActiveApp (app : Bytes)
  | applyActiveApp
  | applyNewConfig (mice : List Node) (now : ℕ) (newCfg : AppConfig)
  | hotplugScan (mice : List Node) (now : ℕ)
  | cleanup (failed sameNode : Bytes → Bool) (now : ℕ)

open Daemon in
/-- The loop thread after a start; a step that throws is not taken. -/
def loopMachine (lim : Limits) : Machine (Daemon Data) LoopStep where
  Start d := ∃ path file mice now, start J hash E lim path file mice now = .ok d
  step d
    | .setActiveApp app => some (d.setActiveApp app)
    | .applyActiveApp => some (applyActiveApp E d)
    | .applyNewConfig mice now newCfg =>
        match applyNewConfig J hash E mice now newCfg d with
        | (.ok _, d') => some d'
        | (.error _, _) => none
    | .hotplugScan mice now => some (doHotplugScan E d mice now)
    | .cleanup failed sameNode now => some (d.cleanupDisconnected failed sameNode now)

/-- The guard of a run: each focus change selects. -/
def LoopStep.Selects (d : Daemon Data) : LoopStep → Prop
  | .applyActiveApp => d.FocusSelects
  | _ => True

/-- **The devices follow the configuration and the focus.**  In a run whose focus changes
each select some profile, or find the identity on every device, every grabbed device
has the profile that `findProfile` selects for it now, or the identity where it selects
none, whatever came before. -/
theorem follows_of_run (lim : Limits) (d : Daemon Data)
    (h : (loopMachine J hash E lim).Run LoopStep.Selects d) :
    ∀ dev ∈ d.devices, dev.settings.prof =
      match findProfile d.config d.currentApp dev.deviceId with
      | some prof => prof.prof
      | none => {} := by
  have hfollows : d.Follows := by
    refine h.invariant ?_ ?_
    · rintro d ⟨path, file, mice, now, hstart⟩
      unfold Daemon.start at hstart
      simp only [bind, Except.bind, pure, Except.pure] at hstart
      split at hstart
      · cases hstart
      · cases hstart
        exact (Daemon.setupDevices_grabs E _ mice now).follows fun dev hdev => by cases hdev
    · intro d l d' hfol hsel hstep
      cases l with
      | setActiveApp app =>
          cases hstep
          exact hfol
      | applyActiveApp =>
          cases hstep
          exact Daemon.applyActiveApp_follows hfol hsel
      | applyNewConfig mice now newCfg =>
          simp only [loopMachine] at hstep
          split at hstep
          · rename_i happly
            cases hstep
            exact Daemon.applyNewConfig_follows J hash happly
          · cases hstep
      | hotplugScan mice now =>
          cases hstep
          exact (Daemon.doHotplugScan_grabs E d mice now).follows hfol
      | cleanup failed sameNode now =>
          cases hstep
          exact (Daemon.cleanupDisconnected_grabs d failed sameNode now).follows hfol
  exact hfollows

/-! ## A focus change that selects nothing -/

/-- One mouse. -/
def oneMouse : List Node := [{ path := bytes "event3", deviceId := bytes "usb:1", rdev := 3 }]

/-- The only profile is for one application. -/
def krita : AppConfig :=
  { profiles := [{ name := bytes "krita", matchApp := bytes "krita"
                   prof := { name := .copy maxNameLen (bytes "krita") } }] }

/-- The runs with an engine that computes nothing and a hash that is always zero. -/
def plainMachine : Machine (Daemon Unit) LoopStep :=
  loopMachine JsonText.trees (fun _ => 0) Engine.plain Limits.documented

/-- A start without a settings file. -/
def started : Daemon Unit :=
  Daemon.setupDevices Engine.plain
    { config := Daemon.startConfig JsonText.trees Limits.documented [] none } oneMouse 0

theorem plainMachine_start : plainMachine.Start started := ⟨[], none, oneMouse, 0, by rfl⟩

theorem follows_of_run_focus :
    ∃ d, plainMachine.Run LoopStep.Selects d ∧ d.currentApp = bytes "krita" ∧ d.devices ≠ [] ∧
      ∀ dev ∈ d.devices, dev.settings.prof =
        match findProfile d.config d.currentApp dev.deviceId with
        | some prof => prof.prof
        | none => {} := by
  have hfocus : plainMachine.Run LoopStep.Selects (started.setActiveApp (bytes "krita")) :=
    .step (l := .setActiveApp (bytes "krita")) (.start plainMachine_start) trivial rfl
  have happly : plainMachine.Run LoopStep.Selects
      (Daemon.applyActiveApp Engine.plain (started.setActiveApp (bytes "krita"))) := by
    refine .step (l := .applyActiveApp) hfocus (fun _ _ => .inl ?_) rfl
    exact ⟨_, List.mem_singleton.mpr rfl, by rfl⟩
  exact ⟨_, happly, by rfl, by decide, follows_of_run JsonText.trees (fun _ => 0) Engine.plain
    Limits.documented _ happly⟩

/-- The mouse still has the profile of the application that lost the focus. -/
def stale (d : Daemon Unit) : Bool :=
  d.devices.any fun dev => dev.settings.prof.name ≠ (d.effective dev.deviceId).name

theorem not_follows_after_focus_loss :
    ¬∀ d, plainMachine.Reachable d → ∀ dev ∈ d.devices, dev.settings.prof =
      match findProfile d.config d.currentApp dev.deviceId with
      | some prof => prof.prof
      | none => {} := by
  intro hall
  have hexec : (plainMachine.exec (fun _ _ => True) started
      [.applyNewConfig [] 0 krita, .setActiveApp (bytes "krita"), .applyActiveApp,
        .setActiveApp (bytes "files"), .applyActiveApp]).any stale = true := by
    decide +kernel
  obtain ⟨d, hd, hstale⟩ := (Option.any_eq_true _ _).mp hexec
  obtain ⟨dev, hdev, hname⟩ := List.any_eq_true.mp hstale
  have hprof := hall d (Machine.Run.exec (.start plainMachine_start) hd) dev hdev
  have heffective : dev.settings.prof = d.effective dev.deviceId := hprof
  rw [heffective] at hname
  simp at hname

end AbrekMouse
