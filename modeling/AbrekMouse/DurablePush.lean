import AbrekMouse.Cli
import AbrekMouse.PushPipeline

/-! # What a restart finds

A pushed configuration is saved before it gets to the apply slot, so the file is never behind
what runs: a daemon that starts on it, at any moment, runs the configuration that is in the slot,
or has just been saved for it, or the running one if there is none; and while nothing is on its
way that is the running one (`restart_resumes`).
-/
namespace AbrekMouse
open ProgLib
variable {Text Data : Type} [DecidableEq Text] {J : JsonText Text} {lim : Limits}
variable {hash : Text → UInt64} {E : Engine Data} {configPath : Bytes}

/-! ## Configurations that run alike -/

theorem DeviceProfile.SameProfile.refl (dp : DeviceProfile) : dp.SameProfile dp :=
  ⟨rfl, ⟨rfl, fun _ _ => rfl⟩, ⟨rfl, fun _ _ => rfl⟩⟩

/-- The same settings; the tables of the profiles are compared over their lengths. -/
structure AppConfig.RunsLike (cfg cfg' : AppConfig) : Prop where
  activeProfile : cfg.activeProfile = cfg'.activeProfile
  useRawInput : cfg.useRawInput = cfg'.useRawInput
  profiles : cfg.profiles.Forall₂ DeviceProfile.SameProfile cfg'.profiles

theorem AppConfig.RunsLike.refl (cfg : AppConfig) : cfg.RunsLike cfg where
  activeProfile := rfl
  useRawInput := rfl
  profiles := List.forall₂_same.mpr fun dp _ => .refl dp

omit [DecidableEq Text] in
/-- **A daemon that starts on what was saved runs it.** -/
theorem startConfig_of_saved {cfg : AppConfig} {file : Option Text} (hclean : cfg.Sanitized lim)
    (hsavable : Savable J lim cfg) (path : Bytes) :
    (Daemon.startConfig J lim path (saveConfig J lim none cfg file).2).RunsLike cfg := by
  have hsave : saveConfig J lim none cfg file = (.ok (), (saveConfig J lim none cfg file).2) :=
    Prod.ext (saveConfig_of_savable hsavable file) rfl
  obtain ⟨loaded, hload, hactive, hraw, hprofiles⟩ := loadConfig_of_save hclean hsave path
  unfold Daemon.startConfig
  rw [hload]
  refine ⟨hactive, hraw, ?_⟩
  show loaded.profiles.Forall₂ DeviceProfile.SameProfile cfg.profiles
  rw [hprofiles, List.forall₂_map_left_iff]
  exact List.forall₂_same.mpr fun dp hdp => (hclean.profiles dp hdp).clean.trim_sameProfile

/-! ## The pipeline -/

/-- A push that is queued is sanitized: it was loaded. -/
theorem sanitized_of_checkPush {pendingJson : Option Text} {d : Daemon Data} {t : Text}
    {cfg : AppConfig} (h : checkPush J lim hash pendingJson d t = .enqueue cfg) :
    cfg.Sanitized lim := by
  unfold checkPush at h
  cases hread : appConfigFromJson J lim t with
  | error e =>
      rw [hread] at h
      cases h
  | ok parsed =>
      have hclean : parsed.Sanitized lim := Loader.load_sanitized (l := .push) hread
      rw [hread] at h
      cases hprint : appConfigToJson J parsed with
      | error e =>
          simp only [hprint] at h
          cases h
      | ok newJson =>
          simp only [hprint] at h
          split_ifs at h
          · split at h
            · cases h
            · split_ifs at h
              exact PushCheck.enqueue.inj h ▸ hclean
          · exact PushCheck.enqueue.inj h ▸ hclean

namespace Pipeline
variable {s s' : Pipeline Text Data}

/-- What a restart is going to run. -/
def saved (s : Pipeline Text Data) : AppConfig :=
  match s.save with
  | .arming item => item.cfg
  | _ => if s.pushCfgPending then s.pushCfg else s.daemon.config

omit [DecidableEq Text] in
theorem saved_of_not_arming (h : ∀ item, s.save ≠ .arming item) :
    s.saved = if s.pushCfgPending then s.pushCfg else s.daemon.config := by
  unfold saved
  cases hsave : s.save with
  | arming item => exact absurd hsave (h item)
  | _ => rfl

/-- Every configuration on its way to the file was loaded, and the file is not behind. -/
structure Durable (J : JsonText Text) (lim : Limits) (configPath : Bytes)
    (s : Pipeline Text Data) : Prop where
  queued : ∀ item ∈ s.saveQ, item.cfg.Sanitized lim
  saving : ∀ item, s.save = .saving item → item.cfg.Sanitized lim
  enqueuing : ∀ cfg, s.ipc = .enqueuing cfg → cfg.Sanitized lim
  file : (Daemon.startConfig J lim configPath s.file).RunsLike s.saved

omit [DecidableEq Text] in
/-- Nothing has changed that a restart sees. -/
theorem Durable.of_eq (h : s.Durable J lim configPath) (hsaveQ : s'.saveQ = s.saveQ)
    (hsave : s'.save = s.save) (hipc : ∀ cfg, s'.ipc ≠ .enqueuing cfg)
    (hfile : s'.file = s.file) (hsaved : s'.saved = s.saved) : s'.Durable J lim configPath where
  queued := hsaveQ ▸ h.queued
  saving := hsave ▸ h.saving
  enqueuing cfg hcfg := absurd hcfg (hipc cfg)
  file := by
    rw [hfile, hsaved]
    exact h.file

theorem ipcStep_durable (h : s.Durable J lim configPath)
    (hstep : s.ipcStep J lim hash configPath = some s') : s'.Durable J lim configPath := by
  unfold ipcStep at hstep
  cases hipc : s.ipc with
  | head =>
      rw [hipc] at hstep
      cases hstep
      refine h.of_eq rfl rfl (fun cfg => ?_) rfl rfl
      dsimp only
      split_ifs
      · intro hcfg
        cases hcfg
      · intro hcfg
        cases hcfg
  | polling =>
      rw [hipc] at hstep
      cases hstep
      exact h.of_eq rfl rfl (fun cfg hcfg => by cases hcfg) rfl rfl
  | entered t =>
      rw [hipc] at hstep
      cases hstep
      refine h.of_eq rfl rfl (fun cfg => ?_) rfl rfl
      dsimp only
      split_ifs
      · intro hcfg
        cases hcfg
      · intro hcfg
        cases hcfg
  | checked t =>
      simp only [hipc] at hstep
      split_ifs at hstep
      · split at hstep
        · cases hstep
          exact h.of_eq rfl rfl (fun cfg hcfg => by cases hcfg) rfl rfl
        · cases hstep
          exact h.of_eq rfl rfl (fun cfg hcfg => by cases hcfg) rfl rfl
      · cases hstep
        exact h.of_eq rfl rfl (fun cfg hcfg => by cases hcfg) rfl rfl
  | snapshotted t pendingJson =>
      simp only [hipc] at hstep
      cases hcheck : checkPush J lim hash pendingJson s.daemon t with
      | rejected =>
          rw [hcheck] at hstep
          cases hstep
          exact h.of_eq rfl rfl (fun cfg hcfg => by cases hcfg) rfl rfl
      | skipped cfg sync =>
          rw [hcheck] at hstep
          cases hstep
          exact h.of_eq rfl rfl (fun cfg hcfg => by cases hcfg) rfl rfl
      | enqueue cfg =>
          rw [hcheck] at hstep
          cases hstep
          refine ⟨h.queued, h.saving, ?_, h.file⟩
          intro cfg' hcfg
          cases hcfg
          exact sanitized_of_checkPush hcheck
  | enqueuing cfg =>
      simp only [hipc] at hstep
      cases hstep
      refine ⟨List.forall_mem_singleton.mpr (h.enqueuing cfg hipc), h.saving, ?_, h.file⟩
      intro cfg' hcfg
      cases hcfg
  | exited =>
      rw [hipc] at hstep
      cases hstep

omit [DecidableEq Text] in
/-- The save comes before the apply slot. -/
theorem saveStep_durable (hsound : s.Sound J lim) (h : s.Durable J lim configPath)
    (hstep : s.saveStep J lim = some s') : s'.Durable J lim configPath := by
  unfold saveStep at hstep
  cases hsave : s.save with
  | look =>
      have hfile := h.file
      rw [saved_of_not_arming (by rw [hsave]; exact nofun)] at hfile
      simp only [hsave] at hstep
      split at hstep
      · cases hstep
        refine ⟨h.queued, ?_, h.enqueuing, hfile⟩
        intro item heq
        cases heq
      · rename_i item rest hsaveQ
        cases hstep
        obtain ⟨hitem, hrest⟩ := List.forall_mem_cons.mp (hsaveQ ▸ h.queued)
        refine ⟨hrest, ?_, h.enqueuing, hfile⟩
        intro item' heq
        cases heq
        exact hitem
  | saving item =>
      have hsavable := hsound.saving item hsave
      simp only [hsave, saveConfig_of_savable hsavable] at hstep
      cases hstep
      refine ⟨h.queued, ?_, h.enqueuing, ?_⟩
      · intro item' heq
        cases heq
      · exact startConfig_of_saved (h.saving item hsave) hsavable configPath
  | arming item =>
      have hfile := h.file
      simp only [saved, hsave] at hfile
      simp only [hsave] at hstep
      split_ifs at hstep
      cases hstep
      refine ⟨h.queued, ?_, h.enqueuing, hfile⟩
      intro item' heq
      cases heq
  | test =>
      have hfile := h.file
      rw [saved_of_not_arming (by rw [hsave]; exact nofun)] at hfile
      simp only [hsave] at hstep
      cases hstep
      have hdone : ∀ item, (if s.running then SavePc.look else .exited) ≠ .saving item ∧
          (if s.running then SavePc.look else .exited) ≠ .arming item := by
        intro item
        split_ifs
        · exact ⟨nofun, nofun⟩
        · exact ⟨nofun, nofun⟩
      refine ⟨h.queued, fun item heq => absurd heq (hdone item).1, h.enqueuing, ?_⟩
      rw [saved_of_not_arming fun item => (hdone item).2]
      exact hfile
  | exited =>
      rw [hsave] at hstep
      cases hstep

omit [DecidableEq Text] in
/-- The slot is taken over as it is. -/
theorem loopStep_durable {mice : List Node} {now : ℕ} (hsound : s.Sound J lim)
    (h : s.Durable J lim configPath) (hstep : s.loopStep J hash E mice now = some s') :
    s'.Durable J lim configPath := by
  have hkeep {t : Pipeline Text Data} (hsaveQ : t.saveQ = s.saveQ) (hsave : t.save = s.save)
      (hipc : t.ipc = s.ipc) (hfile : t.file = s.file) (hsaved : t.saved = s.saved) :
      t.Durable J lim configPath := by
    refine ⟨hsaveQ ▸ h.queued, hsave ▸ h.saving, hipc ▸ h.enqueuing, ?_⟩
    rw [hfile, hsaved]
    exact h.file
  unfold loopStep at hstep
  cases hloop : s.loop with
  | head =>
      rw [hloop] at hstep
      cases hstep
      exact hkeep rfl rfl rfl rfl rfl
  | locking =>
      simp only [hloop] at hstep
      split_ifs at hstep with hpending
      · cases hstep
        refine hkeep rfl rfl rfl rfl ?_
        simp only [saved, hpending, if_true]
      · cases hstep
        exact hkeep rfl rfl rfl rfl rfl
  | applied =>
      rw [hloop] at hstep
      cases hstep
      obtain ⟨hpending, hconfig⟩ := hsound.applied hloop
      refine hkeep rfl rfl rfl rfl ?_
      simp only [saved, hpending, hconfig]
      rfl
  | exited =>
      rw [hloop] at hstep
      cases hstep

omit [DecidableEq Text] in
theorem mainStep_durable (h : s.Durable J lim configPath) (hstep : s.mainStep = some s') :
    s'.Durable J lim configPath := by
  unfold mainStep at hstep
  cases hmain : s.main with
  | spinning =>
      simp only [hmain] at hstep
      split_ifs at hstep
      cases hstep
      exact ⟨h.queued, h.saving, h.enqueuing, h.file⟩
  | stoppingIpc =>
      simp only [hmain] at hstep
      split at hstep
      · cases hstep
        exact ⟨h.queued, h.saving, h.enqueuing, h.file⟩
      · cases hstep
  | stopping =>
      simp only [hmain] at hstep
      split at hstep
      · cases hstep
        exact ⟨h.queued, h.saving, h.enqueuing, h.file⟩
      · cases hstep
  | joined =>
      rw [hmain] at hstep
      cases hstep

theorem step_durable {l : PipelineStep Text} (hsound : s.Sound J lim)
    (h : s.Durable J lim configPath) (hstep : s.step J lim hash E configPath l = some s') :
    s'.Durable J lim configPath := by
  cases l with
  | requestStop =>
      cases hstep
      exact ⟨h.queued, h.saving, h.enqueuing, h.file⟩
  | client t =>
      simp only [step] at hstep
      split at hstep
      · cases hstep
        exact h.of_eq rfl rfl (fun cfg hcfg => by cases hcfg) rfl rfl
      · cases hstep
  | hangup =>
      simp only [step] at hstep
      split at hstep
      · split_ifs at hstep
        cases hstep
        exact h.of_eq rfl rfl (fun cfg hcfg => by cases hcfg) rfl rfl
      · cases hstep
  | ipc => exact ipcStep_durable h hstep
  | save => exact saveStep_durable hsound h hstep
  | loop mice now => exact loopStep_durable hsound h hstep
  | main => exact mainStep_durable h hstep

end Pipeline

/-! ## The restart -/

omit [DecidableEq Text] in
theorem start_config {file : Option Text} {mice : List Node} {now : ℕ} {d : Daemon Data}
    (h : Daemon.start J hash E lim configPath file mice now = .ok d) :
    d.config = Daemon.startConfig J lim configPath file := by
  unfold Daemon.start at h
  dsimp only at h
  cases ht : appConfigToJson J (Daemon.startConfig J lim configPath file) with
  | error e =>
      rw [ht] at h
      cases h
  | ok t =>
      rw [ht] at h
      obtain rfl := Except.ok.inj h
      exact (Daemon.setupDevices_grabs E _ mice now).same.config

theorem run_durable {s : Pipeline Text Data}
    (h : (pipelineMachine J lim hash E configPath).Reachable s) :
    s.Sound J lim ∧ s.Durable J lim configPath := by
  refine h.invariant (I := fun s => s.Sound J lim ∧ s.Durable J lim configPath) ?_ ?_
  · rintro s ⟨file, mice, now, d, hstart, rfl⟩
    refine ⟨Pipeline.sound_start d file, nofun, nofun, nofun, ?_⟩
    show (Daemon.startConfig J lim configPath file).RunsLike d.config
    rw [start_config hstart]
    exact .refl _
  · rintro s l t ⟨hsound, hdurable⟩ - hstep
    exact ⟨(Pipeline.step_spec hsound hstep).1, Pipeline.step_durable hsound hdurable hstep⟩

/-- **A restart goes on from the newest configuration that was saved**, at any moment: from the
one in the apply slot or on its way into it, else from the one that was running.  With nothing on
its way that is the running one. -/
theorem restart_resumes {s : Pipeline Text Data}
    (h : (pipelineMachine J lim hash E configPath).Reachable s) :
    (Daemon.startConfig J lim configPath s.file).RunsLike s.saved ∧
      (s.Quiescent →
        (Daemon.startConfig J lim configPath s.file).RunsLike s.daemon.config) := by
  have hfile := (run_durable h).2.file
  refine ⟨hfile, fun hquiet => ?_⟩
  rw [Pipeline.saved_of_not_arming fun item => (hquiet.saving item).2, hquiet.pending] at hfile
  exact hfile

/-- `bb` has been saved, and the loop thread has not seen it yet. -/
theorem restart_resumes_saved : ∃ s, namedMachine.Reachable s ∧
    s.daemon.config = named (bytes "a") ∧ s.saved = named (bytes "bb") ∧
      (Daemon.startConfig JsonText.trees Limits.documented (bytes "settings.json")
        s.file).RunsLike (named (bytes "bb")) := by
  have hexec : (namedMachine.exec (fun _ _ => True) runningA
      (pushes (textWithActive (bytes "bb")) ++ [.ipc, .save, .save])).any
        (fun s => decide (s.daemon.config = named (bytes "a") ∧ s.saved = named (bytes "bb"))) =
      true := by
    decide +kernel
  obtain ⟨s, hs, hstate⟩ := (Option.any_eq_true _ _).mp hexec
  obtain ⟨hrunning, hsaved⟩ := of_decide_eq_true hstate
  have hrun := Machine.Run.exec (.start namedMachine_start) hs
  exact ⟨s, hrun, hrunning, hsaved, hsaved ▸ (restart_resumes hrun).1⟩

end AbrekMouse
