import AbrekMouse.ApplyConfig

/-! # The iterations of the loop thread

`run_loop` takes over a pushed configuration, a focus report and a reload, scans for mice
when it is time to, waits for events, and takes out the devices that failed.  The other
threads leave their requests at any time in between.

No open device is one that the configuration in force leaves alone (`grab_gate`).
-/
namespace AbrekMouse
open ProgLib
variable {Text Data : Type} (J : JsonText Text) (hash : Text → UInt64) (E : Engine Data)

/-! ## Attempts -/

/-- The last attempt to grab a listed mouse. -/
structure Trial where
  path : Bytes
  deviceId : Bytes
  attempt : Attempt
deriving DecidableEq

namespace Daemon
variable (d : Daemon Data)

/-- What `tryNode` does with a node; one that is open counts as opened. -/
def attempt (now : ℕ) (n : Node) : Attempt :=
  if n.path ∈ d.openedPaths then .opened
  else if d.pathDeny.denied n.path now then .failed .backoff
  else openAttempt { d with pathDeny := d.pathDeny.erase n.path } now n

/-- The attempts of a loop over the listed mice. -/
def trials (scan : Scan) (now : ℕ) : Daemon Data → List Node → List Trial
  | _, [] => []
  | d, n :: mice =>
      { path := n.path, deviceId := n.deviceId, attempt := d.attempt now n } ::
        trials scan now (tryNode E d scan now n).1 mice

/-- The attempts of `setup_devices`, if it makes any. -/
def setupTrials (mice : List Node) (now : ℕ) (tried : List Trial) : List Trial :=
  if mice = [] then tried
  else if !d.rawInputEnabled then tried
  else trials E .setup now (d.pruneDeny mice now) mice

/-- The attempts of `do_hotplug_scan`, if it makes any. -/
def scanTrials (mice : List Node) (now : ℕ) (tried : List Trial) : List Trial :=
  if !d.rawInputEnabled then tried
  else trials E .hotplug now ((d.pruneDeny mice now).removeGone mice) mice

/-- The attempts at the end of an apply, where the devices are set up again. -/
def finishApplyTrials (live rawNow : Bool) (mice : List Node) (now : ℕ) (tried : List Trial) :
    List Trial :=
  if (!live && d.devices.isEmpty) || rawNow != d.rawInputEnabled then
    setupTrials E { d with rawInputEnabled := rawNow }.teardownDevices mice now tried
  else tried

/-- The attempts of `apply_new_config`; one that throws makes none. -/
def applyNewConfigTrials (mice : List Node) (now : ℕ) (newCfg : AppConfig) (tried : List Trial) :
    List Trial :=
  let d := { d with config := newCfg }
  match appConfigToJson J d.config with
  | .error _ => tried
  | .ok t =>
      let d := { d with configHash := hash t }
      finishApplyTrials E (reapplyDevices E d) (anyLive d) newCfg.useRawInput mice now tried

/-- A deny window has run out. -/
def denyExpired (now : ℕ) : Bool :=
  (d.pathDeny.any fun e => e.2 ≤ now) || d.devDeny.any fun e => e.2 ≤ now

end Daemon

/-! ## The loop -/

/-- Where the loop thread is; each iteration begins with `push`. -/
inductive LoopPhase
  | start | push | focus | reload | hotplug | heal | wait | cleanup
deriving DecidableEq

/-- The state of the loop thread: the daemon, the place in the round, the flags that other
threads set for it, and what it has tried since the last round of attempts. -/
structure RunLoop (Data : Type) where
  daemon : Daemon Data := {}
  phase : LoopPhase := .start
  /-- `push_cfg_`, if it is pending. -/
  pushCfg : Option AppConfig := none
  reloadFlag : Bool := false
  pendingHotplug : Bool := false
  /-- When the deferred scan was asked for, or zero. -/
  hotplugStartMs : ℕ := 0
  emptyRescanMs : ℕ := 0
  /-- The attempts of the last loop over the listed mice. -/
  tried : List Trial := []

/-- What the loop thread does next, each with what it finds then, and what other threads leave
for it. -/
inductive RunLoopStep (Text : Type)
  /-- `save_worker` has written a configuration that `push_config` has accepted. -/
  | arm (cfg : AppConfig)
  | setActiveApp (app : Bytes)
  | requestReload
  | start (path : Bytes) (file : Option Text) (mice : List Node) (now : ℕ)
  | push (mice : List Node) (now : ℕ)
  | focus
  | reload (path : Bytes) (file : Option Text) (mice : List Node) (now : ℕ)
  | hotplug (mice : List Node) (now : ℕ)
  | heal (mice : List Node) (now : ℕ)
  /-- `epoll_wait` fails, or returns, perhaps with a change in `/dev/input`. -/
  | wait (changed : Option Bool)
  | cleanup (failed sameNode : Bytes → Bool) (now : ℕ)

namespace RunLoop
variable (lim : Limits) (s : RunLoop Data)

/-- `apply_new_config`, with the attempts that it makes. -/
def applyNewConfig (mice : List Node) (now : ℕ) (newCfg : AppConfig) : RunLoop Data :=
  { s with
    daemon := (Daemon.applyNewConfig J hash E mice now newCfg s.daemon).2
    tried := Daemon.applyNewConfigTrials J hash E s.daemon mice now newCfg s.tried }

/-- `do_hotplug_scan`, with the attempts that it makes. -/
def doHotplugScan (mice : List Node) (now : ℕ) : RunLoop Data :=
  { s with
    daemon := Daemon.doHotplugScan E s.daemon mice now
    tried := Daemon.scanTrials E s.daemon mice now s.tried }

/-- `start`: the configuration of the file, or the default one, and the first setup; a
configuration that cannot be serialised ends the start. -/
def start (path : Bytes) (file : Option Text) (mice : List Node) (now : ℕ) :
    Option (RunLoop Data) :=
  match appConfigToJson J (Daemon.startConfig J lim path file) with
  | .error _ => none
  | .ok t =>
      let cfg := Daemon.startConfig J lim path file
      let d := { s.daemon with
        config := cfg, configHash := hash t, rawInputEnabled := cfg.useRawInput }
      some { s with
        daemon := Daemon.setupDevices E d mice now
        tried := Daemon.setupTrials E d mice now s.tried
        phase := .push }

/-- The apply slot is emptied, and its configuration applied. -/
def push (mice : List Node) (now : ℕ) : RunLoop Data :=
  match s.pushCfg with
  | none => { s with phase := .focus }
  -- an apply that throws clears the slot too
  | some cfg => { applyNewConfig J hash E s mice now cfg with pushCfg := none, phase := .focus }

/-- The file is loaded and applied, if a signal has asked for it. -/
def reload (path : Bytes) (file : Option Text) (mice : List Node) (now : ℕ) : RunLoop Data :=
  if s.reloadFlag then
    match loadConfig J lim path file with
    -- a file that cannot be loaded leaves the configuration in force
    | .error _ => { s with reloadFlag := false, phase := .hotplug }
    | .ok cfg =>
        { applyNewConfig J hash E s mice now cfg with reloadFlag := false, phase := .hotplug }
  else { s with phase := .hotplug }

/-- The deferred scan, 80 ms after the first iteration that has seen the change. -/
def hotplug (mice : List Node) (now : ℕ) : RunLoop Data :=
  if s.pendingHotplug then
    -- the clock starts here, not when the change was seen
    if s.hotplugStartMs = 0 then { s with hotplugStartMs := now, phase := .heal }
    else if 80 ≤ now - s.hotplugStartMs then
      { doHotplugScan E s mice now with
        pendingHotplug := false, hotplugStartMs := 0, phase := .heal }
    else { s with phase := .heal }
  else { s with phase := .heal }

/-- A scan every two seconds while nothing is open or a mouse is to be tried again. -/
def heal (mice : List Node) (now : ℕ) : RunLoop Data :=
  let empty := s.daemon.devices.isEmpty
  let s := { s with
    daemon := { s.daemon with
      rescanNeeded := s.daemon.rescanNeeded || s.daemon.denyExpired now } }
  if empty || s.daemon.rescanNeeded then
    if s.emptyRescanMs ≤ now then
      { doHotplugScan E s mice now with emptyRescanMs := now + 2000, phase := .wait }
    else { s with phase := .wait }
  else { s with phase := .wait }

/-- After an error of `epoll_wait` there is no cleanup. -/
def wait : Option Bool → RunLoop Data
  | none => { s with phase := .push }
  | some changed => { s with pendingHotplug := s.pendingHotplug || changed, phase := .cleanup }

/-- The phases of a round come in their order; the steps of other threads may come between any
two. -/
def step : RunLoopStep Text → Option (RunLoop Data)
  -- `push_config` rejects what cannot be serialised
  | .arm cfg =>
      match appConfigToJson J cfg with
      | .error _ => none
      | .ok _ => some { s with pushCfg := some cfg }
  | .setActiveApp app => some { s with daemon := s.daemon.setActiveApp app }
  | .requestReload => some { s with reloadFlag := true }
  | .start path file mice now =>
      if s.phase = .start then start J hash E lim s path file mice now else none
  | .push mice now => if s.phase = .push then some (push J hash E s mice now) else none
  | .focus =>
      if s.phase = .focus then
        some { s with daemon := Daemon.applyActiveApp E s.daemon, phase := .reload }
      else none
  | .reload path file mice now =>
      if s.phase = .reload then some (reload J hash E lim s path file mice now) else none
  | .hotplug mice now => if s.phase = .hotplug then some (hotplug E s mice now) else none
  | .heal mice now => if s.phase = .heal then some (heal E s mice now) else none
  | .wait changed => if s.phase = .wait then some (s.wait changed) else none
  | .cleanup failed sameNode now =>
      if s.phase = .cleanup then
        some { s with
          daemon := s.daemon.cleanupDisconnected failed sameNode now, phase := .push }
      else none

/-- Nothing has been started. -/
def machine : Machine (RunLoop Data) (RunLoopStep Text) where
  Start s := s = {}
  step := step J hash E lim

/-- A configuration that is reloaded can be serialised. -/
def Serialises (s : RunLoop Data) : RunLoopStep Text → Prop
  | .reload path file _ _ => s.reloadFlag = true →
      ∀ cfg, loadConfig J lim path file = .ok cfg → cfg.Encodable
  | _ => True

end RunLoop

/-! ## The gate -/

namespace Daemon
variable {d d' : Daemon Data}

/-- No device is grabbed against the configuration that is in force. -/
structure Gate (d : Daemon Data) : Prop where
  raw : d.devices ≠ [] → d.rawInputEnabled = true
  enabled : ∀ dev ∈ d.devices, AbrekMouse.disabled (d.profileOf dev.deviceId) = false

theorem SameControl.profileOf (h : SameControl d d') (deviceId : Bytes) :
    d'.profileOf deviceId = d.profileOf deviceId := by
  unfold Daemon.profileOf
  rw [h.config, h.currentApp]

/-- What releases devices keeps the gate. -/
theorem Gate.of_subset (hgate : d.Gate) (hsame : SameControl d d')
    (hsub : d'.devices ⊆ d.devices) : d'.Gate where
  raw hne := by
    rw [hsame.rawInputEnabled]
    refine hgate.raw fun hnil => hne ?_
    rw [hnil] at hsub
    exact List.subset_nil.mp hsub
  enabled dev hdev := by
    rw [hsame.profileOf]
    exact hgate.enabled dev (hsub hdev)

theorem Gate.of_nil (hnil : d.devices = []) : d.Gate where
  raw hne := absurd hnil hne
  enabled dev hdev := by
    rw [hnil] at hdev
    cases hdev

theorem openNode_gate (hgate : d.Gate) (scan : Scan) (now : ℕ) (n : Node) :
    (openNode E d scan now n).1.Gate := by
  cases opening E d scan now n with
  | denied _ _ _ _ hresult =>
      rw [hresult]
      exact hgate.of_subset ⟨rfl, rfl, rfl⟩ (List.Subset.refl _)
  | duplicate _ _ hresult | rawOff _ hresult | disabled _ _ hresult | unregistered _ hresult =>
      rw [hresult]
      exact hgate
  | opened dev hdev _ hraw henabled _ hresult =>
      -- the new device has passed both checks
      rw [hresult]
      refine ⟨fun _ => hraw, ?_⟩
      refine List.forall_mem_append.mpr ⟨hgate.enabled, List.forall_mem_singleton.mpr ?_⟩
      rw [applySelected_deviceId, hdev]
      exact henabled

theorem tryNode_gate (hgate : d.Gate) (scan : Scan) (now : ℕ) (n : Node) :
    (tryNode E d scan now n).1.Gate := by
  unfold tryNode
  split_ifs
  · exact hgate
  · exact hgate
  · have herased : ({ d with pathDeny := d.pathDeny.erase n.path } : Daemon Data).Gate :=
      hgate.of_subset ⟨rfl, rfl, rfl⟩ (List.Subset.refl _)
    exact openNode_gate E herased scan now n

theorem setupDevices_gate (hgate : d.Gate) (mice : List Node) (now : ℕ) :
    (setupDevices E d mice now).Gate := by
  unfold setupDevices
  split_ifs
  · exact hgate
  · exact hgate
  · have hpruned : (d.pruneDeny mice now).Gate :=
      hgate.of_subset ⟨rfl, rfl, rfl⟩ (List.Subset.refl _)
    exact List.foldlRecOn mice _ hpruned fun d hd n _ => tryNode_gate E hd _ now n

theorem doHotplugScan_gate (hgate : d.Gate) (mice : List Node) (now : ℕ) :
    (doHotplugScan E d mice now).Gate := by
  unfold doHotplugScan
  split_ifs
  · exact hgate
  · dsimp only
    have hleft : ((d.pruneDeny mice now).removeGone mice).Gate :=
      hgate.of_subset ⟨rfl, rfl, rfl⟩ (List.filter_subset_self _)
    have hscanned : (mice.foldl (scanNode E now)
        ((d.pruneDeny mice now).removeGone mice, false)).1.Gate := by
      rw [scanNode_foldl]
      exact List.foldlRecOn mice _ hleft fun d hd n _ => tryNode_gate E hd _ now n
    exact hscanned.of_subset ⟨rfl, rfl, rfl⟩ (List.Subset.refl _)

/-- The update in place releases what the configuration leaves alone. -/
theorem reapplyDevices_gate (hraw : d.devices ≠ [] → d.rawInputEnabled = true) :
    (reapplyDevices E d).Gate where
  raw hne := by
    refine hraw fun hnil => hne ?_
    unfold reapplyDevices
    simp [hnil]
  enabled dev hdev := by
    obtain ⟨old, hold, rfl⟩ := List.mem_map.mp hdev
    rw [applySelected_deviceId]
    have hkept := (List.mem_filter.mp hold).2
    exact (Bool.not_eq_true' _).mp hkept

theorem applyIdentity_gate (hgate : d.Gate) : (applyIdentity E d).Gate where
  raw hne := by
    refine hgate.raw fun hnil => hne ?_
    unfold applyIdentity
    simp [hnil]
  enabled dev hdev := by
    obtain ⟨old, hold, rfl⟩ := List.mem_map.mp hdev
    exact hgate.enabled old hold

/-- The switch is stored before the devices come back, and if it has moved, none of those
that were open is kept. -/
theorem finishApply_gate (hgate : d.Gate) (live rawNow : Bool) (mice : List Node) (now : ℕ) :
    (finishApply E live rawNow mice now d).Gate := by
  have hupdated : (if !live && !d.devices.isEmpty then applyIdentity E d else d).Gate := by
    split_ifs
    · exact applyIdentity_gate E hgate
    · exact hgate
  unfold finishApply
  dsimp only
  generalize (if !live && !d.devices.isEmpty then applyIdentity E d else d) = updated
    at hupdated ⊢
  split_ifs with hrescan
  · -- every device was let go, so the setup begins with none
    have hsetup := setupDevices_gate E (Gate.of_nil rfl)
      (d := { updated with rawInputEnabled := rawNow }.teardownDevices) mice now
    exact hsetup.of_subset ⟨rfl, rfl, rfl⟩ (List.Subset.refl _)
  · -- the devices that were updated in place stay, under the switch they had
    have hsame : rawNow = updated.rawInputEnabled := by
      by_contra hne
      exact hrescan (by simp [hne])
    exact hupdated.of_subset ⟨rfl, rfl, hsame⟩ (List.Subset.refl _)

theorem finishApply_raw (live rawNow : Bool) (mice : List Node) (now : ℕ) (d : Daemon Data) :
    (finishApply E live rawNow mice now d).rawInputEnabled = rawNow := by
  unfold finishApply
  dsimp only
  split_ifs <;> first | rfl | exact (setupDevices_grabs E _ mice now).same.rawInputEnabled

theorem applyActiveApp_gate (hgate : d.Gate) : (applyActiveApp E d).Gate := by
  unfold applyActiveApp
  dsimp only
  split_ifs
  · exact hgate
  · exact hgate.of_subset ⟨rfl, rfl, rfl⟩ (List.Subset.refl _)
  · have hreapplied := reapplyDevices_gate E
      (d := { d with activeAppDirty := false, currentApp := d.pendingApp }) hgate.raw
    exact hreapplied.of_subset ⟨rfl, rfl, rfl⟩ (List.Subset.refl _)

theorem applyActiveApp_switch (d : Daemon Data) :
    (applyActiveApp E d).config = d.config ∧
      (applyActiveApp E d).rawInputEnabled = d.rawInputEnabled := by
  unfold applyActiveApp
  dsimp only
  split_ifs <;> exact ⟨rfl, rfl⟩

variable {hash} in
theorem applyNewConfig_ok {newCfg : AppConfig} (henc : newCfg.Encodable) (mice : List Node)
    (now : ℕ) (d : Daemon Data) : ∃ h live, (applyNewConfig J hash E mice now newCfg d).2 =
      finishApply E live newCfg.useRawInput mice now
        (reapplyDevices E { d with config := newCfg, configHash := h }) := by
  obtain ⟨t, ht⟩ := appConfigToJson_ok_iff.mpr henc
  unfold applyNewConfig
  dsimp only
  rw [ht]
  exact ⟨_, _, rfl⟩

end Daemon

namespace RunLoop
variable {J hash E} {lim : Limits} {s : RunLoop Data}

/-- The gate is kept, by the switch of the configuration that is applied, and a pushed
configuration will not throw. -/
structure Gated (s : RunLoop Data) : Prop where
  idle : s.phase = .start → s.daemon.devices = []
  gate : s.daemon.Gate
  switch : s.daemon.rawInputEnabled = s.daemon.config.useRawInput
  pushed : ∀ cfg, s.pushCfg = some cfg → cfg.Encodable

theorem Gated.of_same {s' : RunLoop Data} (h : s.Gated) (hgate : s'.daemon.Gate)
    (hsame : Daemon.SameControl s.daemon s'.daemon) (hphase : s'.phase ≠ .start)
    (hpush : s'.pushCfg = s.pushCfg) : s'.Gated where
  idle hstart := absurd hstart hphase
  gate := hgate
  switch := by rw [hsame.rawInputEnabled, hsame.config, h.switch]
  pushed := by
    rw [hpush]
    exact h.pushed

/-- An apply brings the switch and the gate to the new configuration. -/
theorem Gated.applyNewConfig (h : s.Gated) {newCfg : AppConfig} (henc : newCfg.Encodable)
    (mice : List Node) (now : ℕ) {s' : RunLoop Data}
    (hdaemon : s'.daemon = (applyNewConfig J hash E s mice now newCfg).daemon)
    (hphase : s'.phase ≠ .start) (hpush : ∀ cfg, s'.pushCfg = some cfg → cfg.Encodable) :
    s'.Gated := by
  have happlied : s'.daemon = (Daemon.applyNewConfig J hash E mice now newCfg s.daemon).2 := hdaemon
  obtain ⟨t, live, hd⟩ : ∃ t live, (Daemon.applyNewConfig J hash E mice now newCfg s.daemon).2 =
      Daemon.finishApply E live newCfg.useRawInput mice now (Daemon.reapplyDevices E
        { s.daemon with config := newCfg, configHash := t }) :=
    Daemon.applyNewConfig_ok J E henc mice now s.daemon
  refine ⟨fun hstart => absurd hstart hphase, ?_, ?_, hpush⟩
  · have hreapplied := Daemon.reapplyDevices_gate E
      (d := { s.daemon with config := newCfg, configHash := t }) h.gate.raw
    rw [happlied, hd]
    exact Daemon.finishApply_gate E hreapplied _ _ _ _
  · have hconfig : (Daemon.applyNewConfig J hash E mice now newCfg s.daemon).2.config = newCfg :=
      Daemon.applyNewConfig_config mice now newCfg s.daemon
    rw [happlied, hconfig, hd, Daemon.finishApply_raw]

theorem Gated.doHotplugScan (h : s.Gated) (mice : List Node) (now : ℕ) {s' : RunLoop Data}
    (hdaemon : s'.daemon = (doHotplugScan E s mice now).daemon) (hphase : s'.phase ≠ .start)
    (hpush : s'.pushCfg = s.pushCfg) : s'.Gated := by
  have hgate := Daemon.doHotplugScan_gate E h.gate mice now
  have hsame := (Daemon.doHotplugScan_grabs E s.daemon mice now).same
  rw [show Daemon.doHotplugScan E s.daemon mice now = s'.daemon from hdaemon.symm] at hgate hsame
  exact h.of_same hgate hsame hphase hpush

theorem Gated.start (h : s.Gated) (hphase : s.phase = .start) {path : Bytes}
    {file : Option Text} {mice : List Node} {now : ℕ} {s' : RunLoop Data}
    (hstart : start J hash E lim s path file mice now = some s') : s'.Gated := by
  unfold RunLoop.start at hstart
  split at hstart
  · cases hstart
  · cases hstart
    rename_i t _
    generalize hd : ({ s.daemon with
      config := Daemon.startConfig J lim path file, configHash := hash t
      rawInputEnabled := (Daemon.startConfig J lim path file).useRawInput } : Daemon Data) = d
    have hdevices : d.devices = [] := by rw [← hd, h.idle hphase]
    have hswitch : d.rawInputEnabled = d.config.useRawInput := by rw [← hd]
    have hgate := Daemon.setupDevices_gate E (.of_nil hdevices) mice now
    refine ⟨fun hidle => (by cases hidle), hgate, ?_, h.pushed⟩
    obtain ⟨hconfig, -, hraw⟩ := (Daemon.setupDevices_grabs E d mice now).same
    show (Daemon.setupDevices E d mice now).rawInputEnabled =
      (Daemon.setupDevices E d mice now).config.useRawInput
    rw [hraw, hconfig, hswitch]

theorem Gated.push (h : s.Gated) (mice : List Node) (now : ℕ) :
    (push J hash E s mice now).Gated := by
  unfold RunLoop.push
  split
  · exact h.of_same h.gate ⟨rfl, rfl, rfl⟩ (by simp) rfl
  · rename_i cfg hcfg
    exact h.applyNewConfig (h.pushed cfg hcfg) mice now rfl (by simp) (by simp)

theorem Gated.reload (h : s.Gated) {path : Bytes} {file : Option Text}
    (henc : s.reloadFlag = true → ∀ cfg, loadConfig J lim path file = .ok cfg → cfg.Encodable)
    (mice : List Node) (now : ℕ) : (reload J hash E lim s path file mice now).Gated := by
  unfold RunLoop.reload
  split_ifs with hflag
  · split
    · exact h.of_same h.gate ⟨rfl, rfl, rfl⟩ (by simp) rfl
    · rename_i cfg hload
      exact h.applyNewConfig (henc hflag cfg hload) mice now rfl (by simp) h.pushed
  · exact h.of_same h.gate ⟨rfl, rfl, rfl⟩ (by simp) rfl

theorem Gated.hotplug (h : s.Gated) (mice : List Node) (now : ℕ) :
    (hotplug E s mice now).Gated := by
  unfold RunLoop.hotplug
  split_ifs
  · exact h.of_same h.gate ⟨rfl, rfl, rfl⟩ (by simp) rfl
  · exact h.doHotplugScan mice now rfl (by simp) rfl
  · exact h.of_same h.gate ⟨rfl, rfl, rfl⟩ (by simp) rfl
  · exact h.of_same h.gate ⟨rfl, rfl, rfl⟩ (by simp) rfl

theorem Gated.heal (h : s.Gated) (hphase : s.phase ≠ .start) (mice : List Node) (now : ℕ) :
    (heal E s mice now).Gated := by
  have harmed : ({ s with daemon := { s.daemon with
      rescanNeeded := s.daemon.rescanNeeded || s.daemon.denyExpired now } } : RunLoop Data).Gated :=
    h.of_same (h.gate.of_subset ⟨rfl, rfl, rfl⟩ (List.Subset.refl _)) ⟨rfl, rfl, rfl⟩ hphase rfl
  unfold RunLoop.heal
  dsimp only
  split_ifs
  · exact harmed.doHotplugScan mice now rfl (by simp) rfl
  · exact harmed.of_same harmed.gate ⟨rfl, rfl, rfl⟩ (by simp) rfl
  · exact harmed.of_same harmed.gate ⟨rfl, rfl, rfl⟩ (by simp) rfl

/-- **Each step keeps the gate.** -/
theorem Gated.step (h : s.Gated) {l : RunLoopStep Text} (hguard : Serialises J lim s l)
    {s' : RunLoop Data} (hstep : step J hash E lim s l = some s') : s'.Gated := by
  cases l with
  | arm cfg =>
      simp only [RunLoop.step] at hstep
      split at hstep
      · cases hstep
      · rename_i t hdump
        cases hstep
        refine ⟨h.idle, h.gate, h.switch, fun other hother => ?_⟩
        cases hother
        exact appConfigToJson_ok_iff.mp ⟨t, hdump⟩
  | setActiveApp app =>
      cases hstep
      exact ⟨h.idle, h.gate.of_subset ⟨rfl, rfl, rfl⟩ (List.Subset.refl _), h.switch, h.pushed⟩
  | requestReload =>
      cases hstep
      exact ⟨h.idle, h.gate, h.switch, h.pushed⟩
  | start path file mice now =>
      obtain ⟨hphase, hs⟩ := Option.ite_none_right_eq_some.mp hstep
      exact h.start hphase hs
  | push mice now =>
      obtain ⟨-, hs⟩ := Option.ite_none_right_eq_some.mp hstep
      cases hs
      exact h.push mice now
  | focus =>
      obtain ⟨-, hs⟩ := Option.ite_none_right_eq_some.mp hstep
      cases hs
      refine ⟨fun hstart => (by cases hstart), Daemon.applyActiveApp_gate E h.gate, ?_, h.pushed⟩
      obtain ⟨hconfig, hraw⟩ := Daemon.applyActiveApp_switch E s.daemon
      show (Daemon.applyActiveApp E s.daemon).rawInputEnabled =
        (Daemon.applyActiveApp E s.daemon).config.useRawInput
      rw [hraw, hconfig, h.switch]
  | reload path file mice now =>
      obtain ⟨-, hs⟩ := Option.ite_none_right_eq_some.mp hstep
      cases hs
      exact h.reload hguard mice now
  | hotplug mice now =>
      obtain ⟨-, hs⟩ := Option.ite_none_right_eq_some.mp hstep
      cases hs
      exact h.hotplug mice now
  | heal mice now =>
      obtain ⟨hphase, hs⟩ := Option.ite_none_right_eq_some.mp hstep
      cases hs
      exact h.heal (by simp [hphase]) mice now
  | wait changed =>
      obtain ⟨-, hs⟩ := Option.ite_none_right_eq_some.mp hstep
      cases hs
      cases changed with
      | none => exact h.of_same h.gate ⟨rfl, rfl, rfl⟩ (by simp [wait]) rfl
      | some changed => exact h.of_same h.gate ⟨rfl, rfl, rfl⟩ (by simp [wait]) rfl
  | cleanup failed sameNode now =>
      obtain ⟨-, hs⟩ := Option.ite_none_right_eq_some.mp hstep
      cases hs
      have hsame := (Daemon.cleanupDisconnected_grabs s.daemon failed sameNode now).same
      have hsub : (s.daemon.cleanupDisconnected failed sameNode now).devices ⊆
          s.daemon.devices := by
        rw [Daemon.cleanupDisconnected_devices]
        exact List.filter_subset_self _
      exact h.of_same (h.gate.of_subset hsame hsub) hsame (by simp) rfl

variable (J hash E lim)

/-- **No mouse is grabbed against the configuration.**  Whatever the loop thread has gone
through, if a device is open then the configuration uses raw input, and it does not leave
alone any device that is open. -/
theorem grab_gate (h : (machine J hash E lim).Run (Serialises J lim) s) :
    (s.daemon.devices ≠ [] → s.daemon.config.useRawInput = true) ∧
      ∀ dev ∈ s.daemon.devices, ∀ prof,
        findProfile s.daemon.config s.daemon.currentApp dev.deviceId = some prof →
        prof.devCfg.disable = false := by
  have hgated : s.Gated := by
    refine h.invariant ?_ fun s l s' hs hguard hstep => hs.step hguard hstep
    intro s hs
    cases hs
    exact ⟨fun _ => rfl, .of_nil rfl, rfl, fun cfg hcfg => by cases hcfg⟩
  constructor
  · intro hne
    rw [← hgated.switch]
    exact hgated.gate.raw hne
  · intro dev hdev prof hsel
    have henabled := hgated.gate.enabled dev hdev
    unfold Daemon.profileOf at henabled
    rw [hsel] at henabled
    exact henabled

/-! ## One mouse -/

/-- An iteration in which nothing was asked for. -/
def idleRound (mice : List Node) (now : ℕ) : List (RunLoopStep Text) :=
  [.push mice now, .focus, .reload [] none mice now, .hotplug mice now, .heal mice now,
    .wait (some false), .cleanup (fun _ => false) (fun _ => true) now]

/-- The runs with an engine that computes nothing and a hash that is always zero. -/
def plainMachine : Machine (RunLoop Unit) (RunLoopStep Json) :=
  machine JsonText.trees (fun _ => 0) Engine.plain Limits.documented

theorem grab_gate_oneMouse :
    ∃ s, plainMachine.Run (Serialises JsonText.trees Limits.documented) s ∧ s.phase = .push ∧
      s.daemon.devices ≠ [] ∧ (s.daemon.devices ≠ [] → s.daemon.config.useRawInput = true) ∧
      ∀ dev ∈ s.daemon.devices, ∀ prof,
        findProfile s.daemon.config s.daemon.currentApp dev.deviceId = some prof →
        prof.devCfg.disable = false := by
  have hexec : (plainMachine.exec (fun s _ => s.reloadFlag = false) {}
      (.start [] none oneMouse 0 :: idleRound oneMouse 0)).any
        (fun s => s.phase = .push ∧ ¬s.daemon.devices.isEmpty) = true := by
    decide +kernel
  obtain ⟨s, hs, hend⟩ := (Option.any_eq_true _ _).mp hexec
  obtain ⟨hphase, hopen⟩ := of_decide_eq_true hend
  have hrun : plainMachine.Run (Serialises JsonText.trees Limits.documented) s := by
    have hquiet : plainMachine.Run (fun s _ => s.reloadFlag = false) s :=
      Machine.Run.exec (.start rfl) hs
    refine hquiet.mono fun s l hflag => ?_
    cases l with
    | reload path file mice now =>
        intro hset
        rw [hflag] at hset
        cases hset
    | _ => trivial
  exact ⟨s, hrun, hphase, by simpa using hopen,
    grab_gate JsonText.trees (fun _ => 0) Engine.plain Limits.documented hrun⟩

end RunLoop
end AbrekMouse
