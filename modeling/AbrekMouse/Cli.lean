import AbrekMouse.Truncation
import AbrekMouse.MigrateOnce

/-! # The commands that change the settings file

A command of the command-line tool edits the configuration that was loaded, saves it and
hands it to the daemon.  An edit that is refused and a save that fails leave the file as it
was; the daemon's answer decides the exit code alone.

What every command starts from is what loading establishes (`AppConfig.Sanitized`): clean
profiles, and strings within the caps of the reader.  Such a configuration, saved, is loaded
as it is.
-/
namespace AbrekMouse
open ProgLib
variable {Text : Type} (J : JsonText Text) (lim : Limits)

/-- What a command meets outside the configuration: a system call of the save that fails,
the `--no-daemon` flag, and whether the daemon takes a configuration. -/
structure CliEnv where
  saveFault : Option Bytes := none
  noDaemon : Bool := false
  daemonApplies : AppConfig → Bool := fun _ => true

/-- How a command ends.  After a save it is the daemon that decides. -/
inductive CmdEnd (E : Type)
  | refused (e : E)
  | saveFailed (e : ConfigError)
  | saved (applied : Bool)

/-- The exit code. -/
def CmdEnd.rc {E : Type} : CmdEnd E → ℕ
  | .saved true => 0
  | _ => 1

/-- `daemon_apply_if_enabled`: true as well where no daemon is to be asked. -/
def daemonApplyIfEnabled (env : CliEnv) (cfg : AppConfig) : Bool :=
  env.noDaemon || env.daemonApplies cfg

/-- The end of every command: `safe_save`, then the daemon. -/
def saveAndApply {E : Type} (env : CliEnv) (cfg : AppConfig) (file : Option Text) :
    CmdEnd E × Option Text :=
  match saveConfig J lim env.saveFault cfg file with
  | (.error e, file') => (.saveFailed e, file')
  | (.ok _, file') => (.saved (daemonApplyIfEnabled env cfg), file')

/-- A command: its edit, and what follows where the edit is not refused. -/
def runEdit {E : Type} (env : CliEnv) (edit : Except E AppConfig) (file : Option Text) :
    CmdEnd E × Option Text :=
  match edit with
  | .error e => (.refused e, file)
  | .ok cfg => saveAndApply J lim env cfg file

/-- The first profile of that name. -/
def AppConfig.profileNamed (cfg : AppConfig) (name : Bytes) : Option DeviceProfile :=
  cfg.profiles.find? (·.name = name)

/-- An edit of the first profile of a name. -/
def updateNamed (name : Bytes) (f : DeviceProfile → DeviceProfile) :
    List DeviceProfile → List DeviceProfile
  | [] => []
  | dp :: rest => if dp.name = name then f dp :: rest else dp :: updateNamed name f rest

section Ends

variable {J} {lim} {E : Type} {env : CliEnv}

/-- **A command that does not save leaves the file.** -/
theorem runEdit_file {edit : Except E AppConfig} {file : Option Text}
    (h : ∀ applied, (runEdit J lim env edit file).1 ≠ .saved applied) :
    (runEdit J lim env edit file).2 = file := by
  cases edit with
  | error e => rfl
  | ok cfg =>
      have hfail := @saveConfig_of_error _ J lim env.saveFault cfg file
      simp only [runEdit, saveAndApply] at h ⊢
      rcases hsave : saveConfig J lim env.saveFault cfg file with ⟨_ | _, file'⟩
      · rw [hsave] at hfail
        exact hfail rfl
      · rw [hsave] at h
        exact absurd rfl (h _)

/-- A command that saves has written the configuration that its edit gave. -/
theorem runEdit_saved {edit : Except E AppConfig} {file : Option Text} {applied : Bool}
    (h : (runEdit J lim env edit file).1 = .saved applied) :
    ∃ cfg, edit = .ok cfg ∧
      saveConfig J lim env.saveFault cfg file = (.ok (), (runEdit J lim env edit file).2) := by
  cases edit with
  | error e => cases h
  | ok cfg =>
      refine ⟨cfg, rfl, ?_⟩
      simp only [runEdit, saveAndApply] at h ⊢
      rcases hsave : saveConfig J lim env.saveFault cfg file with ⟨_ | _, file'⟩
      · rw [hsave] at h
        cases h
      · rfl

theorem CmdEnd.saved_of_rc {x : CmdEnd E} (h : x.rc = 0) : x = .saved true := by
  unfold rc at h
  split at h
  · rfl
  · cases h

end Ends

/-! ## What loading establishes -/

/-- A configuration as loading gives it. -/
structure AppConfig.Sanitized (lim : Limits) (cfg : AppConfig) : Prop where
  activeProfile : cfg.activeProfile.length ≤ maxNameLen
  profiles : ∀ dp ∈ cfg.profiles, dp.Readable lim

variable {J} {lim}

theorem activeProfile_length_le {j : Json} {maxProfiles : ℕ} {read : AppConfig}
    (h : appConfigFromJsonObj lim j maxProfiles = .ok read) :
    read.activeProfile.length ≤ maxNameLen := by
  have hcap : ∀ dflt : Bytes, dflt.length ≤ maxNameLen →
      (stringField j "active_profile" (bytes "default") dflt maxNameLen).length ≤ maxNameLen := by
    intro dflt hdflt
    unfold stringField jsonGetStringLimited
    split
    · split
      · split_ifs with hlong
        · exact List.length_take_le maxNameLen _
        · exact Nat.not_lt.mp hlong
      · decide
    · exact hdflt
  simp only [appConfigFromJsonObj, bind, Except.bind, pure, Except.pure, throw, throwThe,
    MonadExceptOf.throw] at h
  split at h
  · cases h
  · split at h
    · cases h
    · cases h
      exact hcap _ (by decide)

/-- **A loaded configuration is sanitized**, whatever it was loaded from. -/
theorem Loader.load_sanitized {l : Loader} {t : Text} {cfg : AppConfig}
    (h : l.load J lim t = .ok cfg) : cfg.Sanitized lim := by
  obtain ⟨j, read, hparse, hread, hcfg⟩ := l.load_eq_ok h
  have hactive := activeProfile_length_le hread
  refine ⟨?_, (descends_of_first hparse h).readable⟩
  obtain ⟨-, hall⟩ := appConfigFromJsonObj_version hread
  have hclean : ∀ dp ∈ read.profiles, dp.Clean lim := by
    intro dp hdp
    obtain ⟨i, hi⟩ := List.mem_iff_getElem?.mp hdp
    obtain ⟨pj, -, hpj⟩ := exists_getElem?_of_forall₂ hall hi
    exact (deviceProfileFromJson_readable hpj).clean
  rw [hcfg, migrateConfig_spec hclean]
  exact hactive

theorem loadConfig_sanitized {path : Bytes} {file : Option Text} {cfg : AppConfig}
    (h : loadConfig J lim path file = .ok cfg) : cfg.Sanitized lim := by
  cases file with
  | none => cases h
  | some t => exact Loader.load_sanitized (l := .file path) h

/-- The tables of a clean profile keep their lengths. -/
theorem DeviceProfile.Readable.evenTables {dp : DeviceProfile} (h : dp.Readable lim) :
    dp.EvenTables := by
  have hkeep : ∀ a : AccelArgs, a.CleanLut → a.length % 2 = 0 →
      (clampLength a).length % 2 = 0 := by
    intro a hlut heven
    have hclamp : (clampLength a).length = a.length := by
      show min (lutRawDataCapacity : ℤ) (max 0 a.length) = a.length
      rw [max_eq_right hlut.length_nonneg, min_eq_right hlut.length_le]
    rw [hclamp]
    exact heven
  exact ⟨hkeep _ h.clean.prof.accelX.lut h.even.1, hkeep _ h.clean.prof.accelY.lut h.even.2⟩

/-- **What was saved is loaded**: the same active profile and switch, and the same profiles
in the same order. -/
theorem loadConfig_of_save {cfg : AppConfig} {fault : Option Bytes} {file file' : Option Text}
    (h : cfg.Sanitized lim) (hsave : saveConfig J lim fault cfg file = (.ok (), file'))
    (path : Bytes) :
    ∃ loaded, loadConfig J lim path file' = .ok loaded ∧
      loaded.activeProfile = cfg.activeProfile ∧ loaded.useRawInput = cfg.useRawInput ∧
      loaded.profiles = cfg.profiles.map DeviceProfile.trim := by
  have hwritten : saveConfig J lim none cfg file = (.ok (), file') := by
    unfold saveConfig at hsave ⊢
    cases hcontent : savedContent J lim cfg with
    | error e =>
        rw [hcontent] at hsave
        cases hsave
    | ok t =>
        rw [hcontent] at hsave
        cases fault with
        | some what => cases hsave
        | none => exact hsave
  obtain ⟨hcount, hencodable⟩ := saveConfig_ok_iff.mp (congrArg Prod.fst hwritten)
  have hstorable : cfg.Storable :=
    ⟨hcount, h.activeProfile, hencodable, fun dp hdp => (h.profiles dp hdp).capped,
      fun dp hdp => (h.profiles dp hdp).evenTables⟩
  obtain ⟨-, hload⟩ := loadConfig_of_saved J lim hstorable path file
  rw [hwritten] at hload
  refine ⟨reloaded lim cfg, hload, rfl, rfl, ?_⟩
  show (cfg.profiles.map (sanitizeDeviceProfile lim)).map DeviceProfile.trim = _
  rw [List.map_map]
  refine List.map_congr_left fun dp hdp => ?_
  exact congrArg DeviceProfile.trim (sanitizeDeviceProfile_of_clean (h.profiles dp hdp).clean)

/-! ## The profile of a name -/

theorem profileNamed_mem {cfg : AppConfig} {name : Bytes} {dp : DeviceProfile}
    (h : cfg.profileNamed name = some dp) : dp ∈ cfg.profiles ∧ dp.name = name := by
  refine ⟨List.mem_of_find?_eq_some h, ?_⟩
  simpa using List.find?_some h

/-- An edit of the profile of a name edits that profile. -/
theorem mem_updateNamed {name : Bytes} {f : DeviceProfile → DeviceProfile}
    {dps : List DeviceProfile} {dq : DeviceProfile} (h : dq ∈ updateNamed name f dps) :
    dq ∈ dps ∨ ∃ dp, dps.find? (·.name = name) = some dp ∧ dq = f dp := by
  induction dps with
  | nil => cases h
  | cons dp rest ih =>
      rw [updateNamed] at h
      by_cases hname : dp.name = name
      · rw [if_pos hname] at h
        rcases List.mem_cons.mp h with rfl | hrest
        · exact .inr ⟨dp, by simp [hname], rfl⟩
        · exact .inl (List.mem_cons_of_mem _ hrest)
      · rw [if_neg hname] at h
        rcases List.mem_cons.mp h with rfl | hrest
        · exact .inl List.mem_cons_self
        · rcases ih hrest with hmem | ⟨dr, hfind, rfl⟩
          · exact .inl (List.mem_cons_of_mem _ hmem)
          · refine .inr ⟨dr, ?_, rfl⟩
            rw [List.find?_cons_of_neg (by simpa using hname)]
            exact hfind

/-- Two edits of the profile of a name: the lists agree pairwise if the other profiles agree
with themselves, just when the two edits of that profile agree. -/
theorem forall₂_updateNamed {name : Bytes} {f g : DeviceProfile → DeviceProfile}
    {R : DeviceProfile → DeviceProfile → Prop} {dps : List DeviceProfile} {dp : DeviceProfile}
    (hfind : dps.find? (·.name = name) = some dp) (hrest : ∀ dq ∈ dps, R dq dq) :
    (updateNamed name f dps).Forall₂ R (updateNamed name g dps) ↔ R (f dp) (g dp) := by
  induction dps with
  | nil => cases hfind
  | cons dq rest ih =>
      rw [updateNamed, updateNamed]
      by_cases hname : dq.name = name
      · rw [List.find?_cons_of_pos (by simpa using hname)] at hfind
        cases hfind
        rw [if_pos hname, if_pos hname, List.forall₂_cons, List.forall₂_same]
        exact and_iff_left fun dr hdr => hrest dr (List.mem_cons_of_mem _ hdr)
      · rw [List.find?_cons_of_neg (by simpa using hname)] at hfind
        rw [if_neg hname, if_neg hname, List.forall₂_cons,
          ih hfind fun dr hdr => hrest dr (List.mem_cons_of_mem _ hdr)]
        exact and_iff_right (hrest dq List.mem_cons_self)

end AbrekMouse
