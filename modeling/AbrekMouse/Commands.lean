import Mathlib.Data.List.Nodup
import AbrekMouse.Import
import AbrekMouse.SetParam
import AbrekMouse.Machine

/-! # Runs of the command-line tool

Each call of the tool loads the settings file, recreates the default profile where there is
none, edits the list of profiles and saves.  Every command keeps the list well formed
(`AppConfig.WellFormed`), except that `create` and `create-preset` leave the active profile to
itself: on a list that is empty and was not repaired they add a profile that is not active
(`profiles_stay_wellFormed`).
-/
namespace AbrekMouse
open ProgLib
variable {Text : Type} (J : JsonLines Text) (lim : Limits)

/-! ## The edits -/

/-- The commands that change the settings file. -/
inductive Command (Text : Type)
  | set (name : Bytes)
  | create (name : Bytes)
  | delete (name : Bytes)
  | duplicate (src dst : Bytes)
  | createPreset (preset name : Bytes)
  | rename (old new : Bytes)
  | importFile (content : Option Text)
  | setParam (name key val : Bytes)

/-- Why a command is refused. -/
inductive CommandError
  | emptyName
  | nameTooLong (size : ℕ)
  | alreadyExists (name : Bytes)
  | profileNotFound (name : Bytes)
  | sourceNotFound (name : Bytes)
  | unknownPreset (preset : Bytes)
  | maximum (name : Bytes)
  | importing (e : ImportError)
  | param (e : ParamError)
deriving DecidableEq

/-- The checks of a name that a command gives to a profile. -/
def checkNewName (cfg : AppConfig) (name : Bytes) : Except CommandError Unit :=
  if name = [] then .error .emptyName
  else if name.length > maxNameLen then .error (.nameTooLong name.length)
  else if name ∈ cfg.names then .error (.alreadyExists name)
  else .ok ()

/-- `push_back`, below the cap on profiles. -/
def pushProfile (cfg : AppConfig) (dp : DeviceProfile) : Except CommandError AppConfig :=
  if cfg.profiles.length ≥ maxProfiles then .error (.maximum dp.name)
  else .ok { cfg with profiles := cfg.profiles ++ [dp] }

/-- `cmd_set`: another active profile, which has to be there. -/
def cmdSet (cfg : AppConfig) (name : Bytes) : Except CommandError AppConfig :=
  if name ∈ cfg.names then .ok { cfg with activeProfile := name }
  else .error (.profileNotFound name)

/-- `cmd_create`: a profile with the defaults under a new name. -/
def cmdCreate (cfg : AppConfig) (name : Bytes) : Except CommandError AppConfig := do
  checkNewName cfg name
  pushProfile cfg
    { name
      devCfg := { dpi := 800, pollingRate := 1000 }
      prof := { accelX := { mode := .noaccel }, accelY := { mode := .noaccel } } }

/-- Every profile of the name goes; an active one is replaced by the first that is left. -/
def cmdDelete (cfg : AppConfig) (name : Bytes) : Except CommandError AppConfig :=
  if name ∉ cfg.names then .error (.profileNotFound name)
  else
    let profiles := cfg.profiles.filter fun dp => dp.name ≠ name
    match profiles with
    | [] => .ok { cfg with activeProfile := [], profiles }
    | dp :: _ =>
        .ok { cfg with
          activeProfile := if cfg.activeProfile = name then dp.name else cfg.activeProfile
          profiles }

/-- `cmd_duplicate`: a profile once more, under a new name. -/
def cmdDuplicate (cfg : AppConfig) (src dst : Bytes) : Except CommandError AppConfig := do
  checkNewName cfg dst
  match cfg.profileNamed src with
  | none => throw (.sourceNotFound src)
  | some dp => pushProfile cfg { dp with name := dst, deviceId := [] }

/-- The presets are not part of the repository; an unknown one has no name. -/
def cmdCreatePreset (makePreset : Bytes → Bytes → DeviceProfile) (cfg : AppConfig)
    (preset name : Bytes) : Except CommandError AppConfig := do
  checkNewName cfg name
  let dp := makePreset preset name
  if dp.name = [] then throw (.unknownPreset preset)
  pushProfile cfg dp

/-- `cmd_rename`: a new name for a profile, and for the active one too if it is that. -/
def cmdRename (cfg : AppConfig) (old new : Bytes) : Except CommandError AppConfig := do
  checkNewName cfg new
  if old ∉ cfg.names then throw (.profileNotFound old)
  return { cfg with
    activeProfile := if cfg.activeProfile = old then new else cfg.activeProfile
    profiles := updateNamed old (fun dp => { dp with name := new }) cfg.profiles }

/-- The configuration that a command saves. -/
def Command.edit (makePreset : Bytes → Bytes → DeviceProfile) (cfg : AppConfig) :
    Command Text → Except CommandError AppConfig
  | .set name => cmdSet cfg name
  | .create name => cmdCreate cfg name
  | .delete name => cmdDelete cfg name
  | .duplicate src dst => cmdDuplicate cfg src dst
  | .createPreset preset name => cmdCreatePreset makePreset cfg preset name
  | .rename old new => cmdRename cfg old new
  | .importFile content => (importEdit J lim cfg content).mapError .importing
  | .setParam name key val => (setParamEdit lim cfg name key val).mapError .param

/-! ## A call -/

/-- What happens in one call: the error of a system call while the default profile is saved,
what the command meets, and the command. -/
structure CliCall (Text : Type) where
  repairFault : Option Bytes := none
  env : CliEnv := {}
  command : Command Text

/-- How a call ends; `created` says that the default profile was saved before the command
ran. -/
inductive CliEnd
  | unreadable (e : ConfigError)
  | notCreated (e : ConfigError)
  | ran (created : Bool) (e : CmdEnd CommandError)

/-- The exit code. -/
def CliEnd.rc : CliEnd → ℕ
  | .ran _ e => e.rc
  | _ => 1

/-- Whether anything was saved. -/
def CliEnd.saved : CliEnd → Bool
  | .ran _ (.saved _) => true
  | .ran created _ => created
  | _ => false

/-- The keys that the tool knows. -/
def topLevelKeys : List String := ["version", "active_profile", "use_raw_input", "profiles"]

/-- `cli3_foreign_profile_key`: the first other key with an array that is not empty, if there
is one; `none` where that cannot be told. -/
def foreignProfileKey (t : Text) : Option (Option String) :=
  match J.parse t with
  | .ok (.obj ms) =>
      some ((ms.find? fun (k, v) => k ∉ topLevelKeys && v.elems ≠ []).map Prod.fst)
  | _ => none

/-- The profile that a new configuration has. -/
def defaultProfile : DeviceProfile :=
  { name := bytes "default", devCfg := { dpi := 800, pollingRate := 1000 } }

/-- The default profile as the only one. -/
def withDefault (cfg : AppConfig) : AppConfig :=
  { cfg with activeProfile := defaultProfile.name, profiles := [defaultProfile] }

/-- A configuration that is created before the command runs. -/
def createDefault (fault : Option Bytes) (cfg : AppConfig) (file : Option Text) :
    Except CliEnd (AppConfig × Bool) × Option Text :=
  match saveConfig J.toJsonText lim fault cfg file with
  | (.error e, file') => (.error (.notCreated e), file')
  | (.ok _, file') => (.ok (cfg, true), file')

/-- Loading, as `main` does it: the configuration, whether it was created, and the file. -/
def mainLoad (path : Bytes) (fault : Option Bytes) (file : Option Text) :
    Except CliEnd (AppConfig × Bool) × Option Text :=
  match file with
  | none => createDefault J lim fault (withDefault {}) none
  | some t =>
      match loadConfig J.toJsonText lim path (some t) with
      | .error e => (.error (.unreadable e), some t)
      | .ok cfg =>
          if cfg.profiles = [] ∧ foreignProfileKey J t = some none then
            createDefault J lim fault (withDefault cfg) (some t)
          else (.ok (cfg, false), some t)

/-- One call of the tool. -/
def runCall (makePreset : Bytes → Bytes → DeviceProfile) (path : Bytes) (file : Option Text)
    (call : CliCall Text) : CliEnd × Option Text :=
  match mainLoad J lim path call.repairFault file with
  | (.error e, file') => (e, file')
  | (.ok (cfg, created), file') =>
      let (e, file'') := runEdit J.toJsonText lim call.env
        (call.command.edit J lim makePreset cfg) file'
      (.ran created e, file'')

/-! ## Well-formed lists -/

/-- The names are fit for a profile and differ, there are not too many of them, and the active
profile is one of them. -/
structure AppConfig.WellFormed (cfg : AppConfig) : Prop where
  named : ∀ name ∈ cfg.names, name ≠ [] ∧ name.length ≤ maxNameLen
  nodup : cfg.names.Nodup
  count : cfg.profiles.length ≤ maxProfiles
  active : cfg.activeProfile ∈ cfg.names ∨ (cfg.activeProfile = [] ∧ cfg.profiles = [])

/-- A settings file, where there is one, loads to a well-formed configuration. -/
def WellFormedFile (path : Bytes) (file : Option Text) : Prop :=
  ∀ t, file = some t →
    ∃ cfg, loadConfig J.toJsonText lim path (some t) = .ok cfg ∧ cfg.WellFormed

/-- A file without profiles that is not repaired. -/
def Unrepaired (path : Bytes) (file : Option Text) : Prop :=
  ∃ t cfg, file = some t ∧ loadConfig J.toJsonText lim path (some t) = .ok cfg ∧
    cfg.profiles = [] ∧ foreignProfileKey J t ≠ some none

/-- The commands that add a profile and leave the active one. -/
def Command.Adds : Command Text → Prop
  | .create _ | .createPreset _ _ => True
  | _ => False

/-- No profile is added to a file that is not repaired. -/
def AddsToRepaired (path : Bytes) (file : Option Text) (call : CliCall Text) : Prop :=
  call.command.Adds → ¬Unrepaired J lim path file

/-- The files that calls of the tool lead to, from well-formed ones. -/
def cliMachine (makePreset : Bytes → Bytes → DeviceProfile) (path : Bytes) :
    Machine (Option Text) (CliCall Text) where
  Start := WellFormedFile J lim path
  step file call := some (runCall J lim makePreset path file call).2

variable {J} {lim}

/-! ## The file -/

/-- A save leaves the text of the configuration, sanitized. -/
theorem exists_text_of_save {cfg : AppConfig} {fault : Option Bytes} {file file' : Option Text}
    (h : saveConfig J.toJsonText lim fault cfg file = (.ok (), file')) :
    ∃ t, file' = some t ∧ savedContent J.toJsonText lim cfg = .ok t := by
  unfold saveConfig at h
  split at h
  · cases h
  · cases h
  · cases h
    exact ⟨_, rfl, by assumption⟩

/-- **What is saved is loaded with the same names** and the same active profile. -/
theorem names_of_save {cfg : AppConfig} {fault : Option Bytes} {file file' : Option Text}
    (hactive : cfg.activeProfile.length ≤ maxNameLen)
    (hnames : ∀ name ∈ cfg.names, name.length ≤ maxNameLen)
    (h : saveConfig J.toJsonText lim fault cfg file = (.ok (), file')) (path : Bytes) :
    ∃ t loaded, file' = some t ∧ loadConfig J.toJsonText lim path (some t) = .ok loaded ∧
      loaded.activeProfile = cfg.activeProfile ∧ loaded.names = cfg.names := by
  obtain ⟨t, ht, hcontent⟩ := exists_text_of_save h
  obtain ⟨hcount, -⟩ := savedContent_ok_iff.mp ⟨t, hcontent⟩
  have hparse := parse_of_saved hcontent
  have hclean : ∀ dp ∈ (sanitizeConfig lim cfg).profiles,
      dp.Clean lim ∧ dp.name.length ≤ maxNameLen :=
    List.forall_mem_map.mpr fun dp hdp =>
      ⟨sanitizeDeviceProfile_clean lim dp, hnames dp.name (List.mem_map_of_mem hdp)⟩
  have hlength : (sanitizeConfig lim cfg).profiles.length ≤ maxProfilesFile := by
    show (cfg.profiles.map _).length ≤ maxProfilesFile
    rw [List.length_map]
    exact hcount
  have hname : (sanitizeConfig lim cfg).activeProfile.length ≤ maxNameLen := hactive
  obtain ⟨read, hread, hversion, hsame, hkept⟩ := appConfigFromJsonObj_names hname hlength hclean
  obtain ⟨hne, hnew⟩ := storedVersion_spec (sanitizeConfig lim cfg).version
  rw [← hversion] at hne hnew
  have hmigrate := migrateConfig_of_not_older lim hne (not_versionLt_version040 hnew)
  refine ⟨t, read, ht, ?_, hsame, hkept.trans ?_⟩
  · simp only [loadConfig, parseJson, hparse, Except.mapError, hread, hmigrate, bind, Except.bind,
      pure, Except.pure]
  · show (cfg.profiles.map _).map _ = cfg.profiles.map _
    rw [List.map_map]
    rfl

namespace AppConfig.WellFormed
variable {cfg cfg' : AppConfig}

/-- It is a matter of the names and the active profile. -/
theorem congr (h : cfg.WellFormed) (hactive : cfg'.activeProfile = cfg.activeProfile)
    (hnames : cfg'.names = cfg.names) : cfg'.WellFormed := by
  have hlength : cfg'.profiles.length = cfg.profiles.length := by
    have hsame := congrArg List.length hnames
    rwa [AppConfig.names, AppConfig.names, List.length_map, List.length_map] at hsame
  refine ⟨hnames ▸ h.named, hnames ▸ h.nodup, hlength ▸ h.count, ?_⟩
  rw [hactive, hnames]
  refine h.active.imp_right fun ⟨hempty, hnone⟩ => ⟨hempty, ?_⟩
  rw [hnone] at hlength
  exact List.length_eq_zero_iff.mp hlength

theorem active_length_le (h : cfg.WellFormed) : cfg.activeProfile.length ≤ maxNameLen := by
  rcases h.active with hmem | ⟨hempty, -⟩
  · exact (h.named _ hmem).2
  · rw [hempty]
    exact Nat.zero_le _

theorem active_mem (h : cfg.WellFormed) (hne : cfg.profiles ≠ []) :
    cfg.activeProfile ∈ cfg.names :=
  h.active.resolve_right fun ⟨_, hnone⟩ => hne hnone

/-- **A well-formed configuration, saved, is a well-formed file.** -/
theorem file_of_save (h : cfg.WellFormed) {fault : Option Bytes} {file file' : Option Text}
    (hsave : saveConfig J.toJsonText lim fault cfg file = (.ok (), file')) (path : Bytes) :
    WellFormedFile J lim path file' := by
  obtain ⟨t, loaded, rfl, hload, hactive, hnames⟩ :=
    names_of_save h.active_length_le (fun name hname => (h.named name hname).2) hsave path
  intro u hu
  obtain rfl := Option.some.inj hu
  exact ⟨loaded, hload, h.congr hactive hnames⟩

/-- A profile of a new name is added. -/
theorem append (h : cfg.WellFormed) (hne : cfg.profiles ≠ []) {dp : DeviceProfile}
    (hname : dp.name ≠ [] ∧ dp.name.length ≤ maxNameLen) (hfresh : dp.name ∉ cfg.names)
    (hcount : cfg.profiles.length < maxProfiles) :
    AppConfig.WellFormed { cfg with profiles := cfg.profiles ++ [dp] } := by
  have hnames : AppConfig.names { cfg with profiles := cfg.profiles ++ [dp] } =
      cfg.names ++ [dp.name] := List.map_append
  refine ⟨?_, ?_, ?_, .inl ?_⟩
  · rw [hnames]
    intro name hmem
    rcases List.mem_append.mp hmem with hold | hnew
    · exact h.named name hold
    · rw [List.mem_singleton.mp hnew]
      exact hname
  · rw [hnames]
    exact h.nodup.append (List.nodup_singleton _) (List.disjoint_singleton.mpr hfresh)
  · show (cfg.profiles ++ [dp]).length ≤ maxProfiles
    rw [List.length_append, List.length_singleton]
    exact hcount
  · rw [hnames]
    exact List.mem_append_left _ (h.active_mem hne)

end AppConfig.WellFormed

theorem withDefault_wellFormed (cfg : AppConfig) : (withDefault cfg).WellFormed where
  named := by
    intro name hname
    rw [List.mem_singleton.mp hname]
    decide
  nodup := List.nodup_singleton _
  count := by show 1 ≤ maxProfiles; decide
  active := .inl (List.mem_singleton_self _)

/-! ## Every edit keeps the list well formed -/

/-- An edit that gives the profile another name gives the list another name. -/
theorem map_name_updateNamed {name : Bytes} {f : DeviceProfile → DeviceProfile}
    {dps : List DeviceProfile} {new : Bytes} (hf : ∀ dp, dp.name = name → (f dp).name = new)
    (hnodup : (dps.map (·.name)).Nodup) :
    (updateNamed name f dps).map (·.name) =
      (dps.map (·.name)).map fun old => if old = name then new else old := by
  induction dps with
  | nil => rfl
  | cons dp dps ih =>
      obtain ⟨hfirst, hrest⟩ := List.nodup_cons.mp hnodup
      rw [updateNamed, List.map_cons, List.map_cons]
      by_cases hname : dp.name = name
      · rw [if_pos hname, if_pos hname, List.map_cons, hf dp hname]
        refine congrArg (new :: ·) (Eq.symm ?_)
        -- no other profile has this name
        refine (List.map_congr_left fun old hold => if_neg ?_).trans (List.map_id _)
        rintro rfl
        rw [← hname] at hold
        exact hfirst hold
      · rw [if_neg hname, if_neg hname, List.map_cons, ih hrest]

theorem ParamEdit.apply_name (e : ParamEdit) (dp : DeviceProfile) :
    (e.apply dp).name = dp.name := by
  cases e with
  | number k v => cases k <;> rfl
  | _ => rfl

variable {cfg cfg' : AppConfig}

theorem checkNewName_eq_ok_iff {name : Bytes} {u : Unit} :
    checkNewName cfg name = .ok u ↔
      (name ≠ [] ∧ name.length ≤ maxNameLen) ∧ name ∉ cfg.names := by
  unfold checkNewName
  by_cases hempty : name = []
  · rw [if_pos hempty]
    exact ⟨nofun, fun h => absurd hempty h.1.1⟩
  · rw [if_neg hempty]
    by_cases hlong : name.length > maxNameLen
    · rw [if_pos hlong]
      exact ⟨nofun, fun h => absurd h.1.2 (Nat.not_le.mpr hlong)⟩
    · rw [if_neg hlong]
      by_cases hold : name ∈ cfg.names
      · rw [if_pos hold]
        exact ⟨nofun, fun h => absurd hold h.2⟩
      · rw [if_neg hold]
        exact ⟨fun _ => ⟨⟨hempty, Nat.not_lt.mp hlong⟩, hold⟩, fun _ => rfl⟩

theorem pushProfile_eq_ok_iff {dp : DeviceProfile} :
    pushProfile cfg dp = .ok cfg' ↔
      cfg.profiles.length < maxProfiles ∧ cfg' = { cfg with profiles := cfg.profiles ++ [dp] } := by
  unfold pushProfile
  by_cases hfull : cfg.profiles.length ≥ maxProfiles
  · rw [if_pos hfull]
    exact ⟨nofun, fun h => absurd h.1 (Nat.not_lt.mpr hfull)⟩
  · rw [if_neg hfull, Except.ok.injEq, eq_comm]
    exact (and_iff_right (Nat.not_le.mp hfull)).symm

/-- **The fallback repairs the active profile**, whatever it was. -/
theorem fallbackActive_wellFormed
    (hnamed : ∀ name ∈ cfg.names, name ≠ [] ∧ name.length ≤ maxNameLen)
    (hnodup : cfg.names.Nodup) (hcount : cfg.profiles.length ≤ maxProfiles) :
    (fallbackActive cfg).WellFormed := by
  unfold fallbackActive
  by_cases hactive : cfg.activeProfile ∈ cfg.names
  · rw [if_pos hactive]
    exact ⟨hnamed, hnodup, hcount, .inl hactive⟩
  · rw [if_neg hactive]
    refine ⟨hnamed, hnodup, hcount, ?_⟩
    show (cfg.names.head?).getD [] ∈ cfg.names ∨ (cfg.names.head?).getD [] = [] ∧ cfg.profiles = []
    cases hprofiles : cfg.profiles with
    | nil =>
        refine .inr ⟨?_, rfl⟩
        rw [AppConfig.names, hprofiles]
        rfl
    | cons dp dps =>
        refine .inl ?_
        rw [AppConfig.names, hprofiles]
        exact List.mem_cons_self

namespace AppConfig.WellFormed

theorem cmdSet {name : Bytes} (h : cfg.WellFormed) (hset : AbrekMouse.cmdSet cfg name = .ok cfg') :
    cfg'.WellFormed := by
  unfold AbrekMouse.cmdSet at hset
  by_cases hname : name ∈ cfg.names
  · rw [if_pos hname] at hset
    cases hset
    exact ⟨h.named, h.nodup, h.count, .inl hname⟩
  · rw [if_neg hname] at hset
    cases hset

/-- A profile is added to a list that has one. -/
theorem push {name : Bytes} {dp : DeviceProfile} {u : Unit} (h : cfg.WellFormed)
    (hne : cfg.profiles ≠ []) (hcheck : checkNewName cfg name = .ok u) (hname : dp.name = name)
    (hpush : pushProfile cfg dp = .ok cfg') : cfg'.WellFormed := by
  obtain ⟨hnamed, hfresh⟩ := checkNewName_eq_ok_iff.mp hcheck
  obtain ⟨hcount, rfl⟩ := pushProfile_eq_ok_iff.mp hpush
  rw [← hname] at hnamed hfresh
  exact h.append hne hnamed hfresh hcount

theorem cmdCreate {name : Bytes} (h : cfg.WellFormed) (hne : cfg.profiles ≠ [])
    (hcreate : AbrekMouse.cmdCreate cfg name = .ok cfg') : cfg'.WellFormed := by
  obtain ⟨u, hcheck, hpush⟩ := Except.bind_eq_ok_iff.mp hcreate
  exact h.push hne hcheck rfl hpush

theorem cmdDuplicate {src dst : Bytes} (h : cfg.WellFormed)
    (hduplicate : AbrekMouse.cmdDuplicate cfg src dst = .ok cfg') : cfg'.WellFormed := by
  obtain ⟨u, hcheck, hfind⟩ := Except.bind_eq_ok_iff.mp hduplicate
  cases hsrc : cfg.profileNamed src with
  | none =>
      rw [hsrc] at hfind
      cases hfind
  | some dp =>
      rw [hsrc] at hfind
      have hne : cfg.profiles ≠ [] := List.ne_nil_of_mem (profileNamed_mem hsrc).1
      exact h.push hne hcheck rfl hfind

theorem cmdCreatePreset {makePreset : Bytes → Bytes → DeviceProfile} {preset name : Bytes}
    (hpreset : (makePreset preset name).name = name ∨ (makePreset preset name).name = [])
    (h : cfg.WellFormed) (hne : cfg.profiles ≠ [])
    (hcreate : AbrekMouse.cmdCreatePreset makePreset cfg preset name = .ok cfg') :
    cfg'.WellFormed := by
  obtain ⟨u, hcheck, hmake⟩ := Except.bind_eq_ok_iff.mp hcreate
  obtain ⟨hknown, hpush⟩ := Except.throw_if_eq_ok_iff.mp hmake
  exact h.push hne hcheck (hpreset.resolve_right hknown) hpush

/-- What is left of the list keeps its names; the active profile is one of them. -/
theorem cmdDelete {name : Bytes} (h : cfg.WellFormed)
    (hdelete : AbrekMouse.cmdDelete cfg name = .ok cfg') : cfg'.WellFormed := by
  unfold AbrekMouse.cmdDelete at hdelete
  by_cases hname : name ∉ cfg.names
  · rw [if_pos hname] at hdelete
    cases hdelete
  · rw [if_neg hname] at hdelete
    have hne : cfg.profiles ≠ [] := by
      rintro hnil
      rw [AppConfig.names, hnil] at hname
      exact hname List.not_mem_nil
    have hsub : ((cfg.profiles.filter fun dp => dp.name ≠ name).map (·.name)).Sublist cfg.names :=
      List.filter_sublist.map _
    have hcount : (cfg.profiles.filter fun dp => dp.name ≠ name).length ≤ maxProfiles :=
      (List.length_filter_le _ _).trans h.count
    have hkept : ∀ other ∈ cfg.names, other ≠ name →
        other ∈ (cfg.profiles.filter fun dp => dp.name ≠ name).map (·.name) := by
      intro other hother hdiff
      obtain ⟨dp, hdp, rfl⟩ := List.mem_map.mp hother
      exact List.mem_map_of_mem (List.mem_filter.mpr ⟨hdp, by simpa using hdiff⟩)
    have hactive := h.active_mem hne
    generalize cfg.profiles.filter (fun dp => dp.name ≠ name) = dps at *
    cases dps with
    | nil =>
        cases hdelete
        exact ⟨fun _ hmem => absurd hmem List.not_mem_nil, List.nodup_nil, hcount, .inr ⟨rfl, rfl⟩⟩
    | cons dp rest =>
        cases hdelete
        refine ⟨fun other hother => h.named other (hsub.subset hother), h.nodup.sublist hsub,
          hcount, .inl ?_⟩
        show (if cfg.activeProfile = name then dp.name else cfg.activeProfile) ∈
          (dp :: rest).map (·.name)
        by_cases hdeleted : cfg.activeProfile = name
        · rw [if_pos hdeleted]
          exact List.mem_cons_self
        · rw [if_neg hdeleted]
          exact hkept _ hactive hdeleted

/-- One name is exchanged for a new one, and the active profile with it. -/
theorem cmdRename {old new : Bytes} (h : cfg.WellFormed)
    (hrename : AbrekMouse.cmdRename cfg old new = .ok cfg') : cfg'.WellFormed := by
  obtain ⟨u, hcheck, hfind⟩ := Except.bind_eq_ok_iff.mp hrename
  obtain ⟨hnamed, hfresh⟩ := checkNewName_eq_ok_iff.mp hcheck
  obtain ⟨hold, hok⟩ := Except.throw_if_eq_ok_iff.mp hfind
  cases hok
  have hne : cfg.profiles ≠ [] := by
    rintro hnil
    rw [AppConfig.names, hnil] at hold
    exact hold List.not_mem_nil
  have hnames : (updateNamed old (fun dp => { dp with name := new }) cfg.profiles).map (·.name) =
      cfg.names.map fun name => if name = old then new else name :=
    map_name_updateNamed (fun _ _ => rfl) h.nodup
  have hlength := congrArg List.length hnames
  rw [List.length_map, List.length_map, AppConfig.names, List.length_map] at hlength
  refine ⟨?_, ?_, hlength ▸ h.count, .inl ?_⟩
  · show ∀ name ∈ (updateNamed old _ cfg.profiles).map (·.name), _
    rw [hnames]
    intro name hname
    obtain ⟨before, hbefore, rfl⟩ := List.mem_map.mp hname
    by_cases hthis : before = old
    · rw [if_pos hthis]
      exact hnamed
    · rw [if_neg hthis]
      exact h.named before hbefore
  · show ((updateNamed old _ cfg.profiles).map (·.name)).Nodup
    rw [hnames]
    refine h.nodup.map_on fun a ha b hb hab => ?_
    by_cases haold : a = old <;> by_cases hbold : b = old
    · rw [haold, hbold]
    · rw [if_pos haold, if_neg hbold] at hab
      exact absurd (hab ▸ hb) hfresh
    · rw [if_neg haold, if_pos hbold] at hab
      exact absurd (hab ▸ ha) hfresh
    · rwa [if_neg haold, if_neg hbold] at hab
  · show _ ∈ (updateNamed old _ cfg.profiles).map (·.name)
    rw [hnames]
    exact List.mem_map_of_mem (f := fun name => if name = old then new else name)
      (h.active_mem hne)

theorem setParamEdit {name key val : Bytes} (h : cfg.WellFormed)
    (hset : AbrekMouse.setParamEdit lim cfg name key val = .ok cfg') : cfg'.WellFormed := by
  unfold AbrekMouse.setParamEdit at hset
  cases hdp : cfg.profileNamed name with
  | none =>
      rw [hdp] at hset
      cases hset
  | some dp =>
      rw [hdp] at hset
      obtain ⟨e, -, rfl⟩ := exists_of_map hset
      refine h.congr rfl ?_
      show (updateNamed name _ cfg.profiles).map (·.name) = cfg.names
      have hkeep : ∀ dp : DeviceProfile, dp.name = name →
          (sanitizeDeviceProfile lim (e.apply dp)).name = name := by
        intro dp hname
        rw [← hname]
        exact ParamEdit.apply_name e dp
      rw [map_name_updateNamed hkeep h.nodup]
      refine (List.map_congr_left fun old _ => ?_).trans (List.map_id _)
      by_cases hthis : old = name
      · rw [if_pos hthis, hthis]
        rfl
      · rw [if_neg hthis]
        rfl

theorem importEdit {content : Option Text} (h : cfg.WellFormed)
    (himport : AbrekMouse.importEdit J lim cfg content = .ok cfg') : cfg'.WellFormed := by
  cases content with
  | none => cases himport
  | some t =>
      obtain ⟨-, himport⟩ := Except.throw_if_eq_ok_iff.mp himport
      obtain ⟨frags, -, himport⟩ := Except.bind_eq_ok_iff.mp himport
      obtain ⟨-, himport⟩ := Except.throw_if_eq_ok_iff.mp himport
      obtain ⟨batch, hbatch, himport⟩ := Except.bind_eq_ok_iff.mp himport
      obtain ⟨hcount, himport⟩ := Except.throw_if_eq_ok_iff.mp himport
      cases himport
      have hbatchNames := readBatch_names hbatch
      have hnames : (batch.map fun p => migrateImported lim
          (if p.2 ≠ [] then p.2 else wrapperVersion frags.wrapper) p.1).map (·.name) =
          batchNames batch := by
        rw [List.map_map]
        exact List.map_congr_left fun p _ => migrateImported_name _ _
      have hwrapped : (applyWrapper cfg frags.wrapper).profiles = cfg.profiles := by
        unfold applyWrapper
        split <;> rfl
      have hall : AppConfig.names { applyWrapper cfg frags.wrapper with
          profiles := (applyWrapper cfg frags.wrapper).profiles ++ batch.map fun p =>
            migrateImported lim (if p.2 ≠ [] then p.2 else wrapperVersion frags.wrapper) p.1 } =
          cfg.names ++ batchNames batch := by
        rw [← hnames, AppConfig.names, hwrapped]
        exact List.map_append
      refine fallbackActive_wellFormed ?_ ?_ ?_
      · rw [hall]
        intro name hname
        rcases List.mem_append.mp hname with hold | hnew
        · exact h.named name hold
        · exact hbatchNames.named name hnew
      · rw [hall]
        refine List.nodup_append.mpr ⟨h.nodup, hbatchNames.nodup, ?_⟩
        rintro name hold other hnew rfl
        exact hbatchNames.fresh name hnew hold
      · show ((applyWrapper cfg frags.wrapper).profiles ++ batch.map _).length ≤ maxProfiles
        rw [hwrapped, List.length_append, List.length_map]
        exact Nat.not_lt.mp hcount

/-- **Every command keeps the list well formed**; one that adds a profile, if there is one. -/
theorem edit {makePreset : Bytes → Bytes → DeviceProfile}
    (hpreset : ∀ preset name, (makePreset preset name).name = name ∨
      (makePreset preset name).name = [])
    (h : cfg.WellFormed) {command : Command Text} (hadds : command.Adds → cfg.profiles ≠ [])
    (hedit : command.edit J lim makePreset cfg = .ok cfg') : cfg'.WellFormed := by
  cases command with
  | set name => exact h.cmdSet hedit
  | create name => exact h.cmdCreate (hadds trivial) hedit
  | delete name => exact h.cmdDelete hedit
  | duplicate src dst => exact h.cmdDuplicate hedit
  | createPreset preset name =>
      exact cmdCreatePreset (hpreset preset name) h (hadds trivial) hedit
  | rename old new => exact h.cmdRename hedit
  | importFile content => exact h.importEdit (Except.mapError_eq_ok_iff.mp hedit)
  | setParam name key val => exact h.setParamEdit (Except.mapError_eq_ok_iff.mp hedit)

end AppConfig.WellFormed

/-! ## Calls and runs -/

variable {path : Bytes} {fault : Option Bytes} {file file' : Option Text}

theorem createDefault_ok {created : Bool}
    (h : createDefault J lim fault cfg file = (.ok (cfg', created), file')) :
    cfg' = cfg ∧ created = true ∧ saveConfig J.toJsonText lim fault cfg file = (.ok (), file') := by
  unfold createDefault at h
  split at h
  · cases h
  · cases h
    exact ⟨rfl, rfl, by assumption⟩

theorem createDefault_error {e : CliEnd}
    (h : createDefault J lim fault cfg file = (.error e, file')) :
    e.saved = false ∧ file' = file := by
  unfold createDefault at h
  split at h
  · rename_i e' file'' hsave
    cases h
    refine ⟨rfl, ?_⟩
    have hkept := saveConfig_of_error J.toJsonText lim (congrArg Prod.fst hsave)
    rwa [hsave] at hkept
  · cases h

/-- A call that ends before its command has not touched the file. -/
theorem mainLoad_error {e : CliEnd} (h : mainLoad J lim path fault file = (.error e, file')) :
    e.saved = false ∧ file' = file := by
  cases file with
  | none => exact createDefault_error h
  | some t =>
      unfold mainLoad at h
      dsimp only at h
      split at h
      · cases h
        exact ⟨rfl, rfl⟩
      · split_ifs at h
        · exact createDefault_error h
        · cases h

/-- A call that creates nothing before its command has not touched the file by then. -/
theorem mainLoad_kept (h : mainLoad J lim path fault file = (.ok (cfg, false), file')) :
    file' = file := by
  cases file with
  | none => exact absurd (createDefault_ok h).2.1 Bool.false_ne_true
  | some t =>
      unfold mainLoad at h
      dsimp only at h
      split at h
      · cases h
      · split_ifs at h
        · exact absurd (createDefault_ok h).2.1 Bool.false_ne_true
        · cases h
          rfl

/-- **What a command starts from**: a well-formed list, which is empty only where the file is
not repaired. -/
theorem mainLoad_ok {created : Bool} (hfile : WellFormedFile J lim path file)
    (h : mainLoad J lim path fault file = (.ok (cfg, created), file')) :
    cfg.WellFormed ∧ WellFormedFile J lim path file' ∧
      (cfg.profiles = [] → Unrepaired J lim path file) := by
  have hcreated : ∀ {cfg₀ : AppConfig},
      createDefault J lim fault (withDefault cfg₀) file = (.ok (cfg, created), file') →
      cfg.WellFormed ∧ WellFormedFile J lim path file' ∧
        (cfg.profiles = [] → Unrepaired J lim path file) := by
    intro cfg₀ hcreate
    obtain ⟨rfl, -, hsave⟩ := createDefault_ok hcreate
    have hwf := withDefault_wellFormed cfg₀
    exact ⟨hwf, hwf.file_of_save hsave path, nofun⟩
  cases file with
  | none => exact hcreated h
  | some t =>
      obtain ⟨loaded, hload, hwf⟩ := hfile t rfl
      unfold mainLoad at h
      dsimp only at h
      rw [hload] at h
      dsimp only at h
      split_ifs at h with hrepair
      · exact hcreated h
      · cases h
        refine ⟨hwf, hfile, fun hempty => ?_⟩
        exact ⟨t, _, rfl, hload, hempty, fun hkey => hrepair ⟨hempty, hkey⟩⟩

theorem CliEnd.saved_of_created (e : CmdEnd CommandError) : (CliEnd.ran true e).saved = true := by
  cases e <;> rfl

variable {makePreset : Bytes → Bytes → DeviceProfile}

/-- **A call that saves nothing leaves the file.** -/
theorem runCall_file {call : CliCall Text}
    (h : (runCall J lim makePreset path file call).1.saved = false) :
    (runCall J lim makePreset path file call).2 = file := by
  unfold runCall at h ⊢
  rcases hload : mainLoad J lim path call.repairFault file with ⟨_ | ⟨cfg, created⟩, file'⟩
  · exact (mainLoad_error hload).2
  · rw [hload] at h
    dsimp only at h ⊢
    have hunsaved : ∀ applied, (runEdit J.toJsonText lim call.env
        (call.command.edit J lim makePreset cfg) file').1 ≠ .saved applied := by
      intro applied hsaved
      rw [hsaved] at h
      cases h
    rw [runEdit_file hunsaved]
    cases created with
    | false => exact mainLoad_kept hload
    | true =>
        rw [CliEnd.saved_of_created] at h
        cases h

/-- **A call keeps a well-formed file well formed**, unless it adds a profile to a file that
is not repaired. -/
theorem runCall_wellFormed
    (hpreset : ∀ preset name, (makePreset preset name).name = name ∨
      (makePreset preset name).name = [])
    {call : CliCall Text} (hfile : WellFormedFile J lim path file)
    (hadds : AddsToRepaired J lim path file call) :
    WellFormedFile J lim path (runCall J lim makePreset path file call).2 := by
  unfold runCall
  rcases hload : mainLoad J lim path call.repairFault file with ⟨_ | ⟨cfg, created⟩, file'⟩
  · dsimp only
    rw [(mainLoad_error hload).2]
    exact hfile
  · obtain ⟨hwf, hfile', hempty⟩ := mainLoad_ok hfile hload
    dsimp only
    by_cases hsaved : ∃ applied, (runEdit J.toJsonText lim call.env
        (call.command.edit J lim makePreset cfg) file').1 = .saved applied
    · obtain ⟨applied, happlied⟩ := hsaved
      obtain ⟨cfg', hedit, hsave⟩ := runEdit_saved happlied
      have hwf' := hwf.edit hpreset (fun h hnil => hadds h (hempty hnil)) hedit
      exact hwf'.file_of_save hsave path
    · rw [runEdit_file fun applied happlied => hsaved ⟨applied, happlied⟩]
      exact hfile'

/-- **The list of profiles stays well formed.**  In every run of the tool from a well-formed
settings file, with whatever arguments, imported files and failing system calls, the file stays
well formed as long as no call adds a profile to a list that is empty and not repaired; and a
call that saves nothing leaves the file as it was. -/
theorem profiles_stay_wellFormed
    (hpreset : ∀ preset name, (makePreset preset name).name = name ∨
      (makePreset preset name).name = [])
    (h : (cliMachine J lim makePreset path).Run (AddsToRepaired J lim path) file) :
    WellFormedFile J lim path file ∧
      ∀ call, (runCall J lim makePreset path file call).1.saved = false →
        (runCall J lim makePreset path file call).2 = file := by
  refine ⟨?_, fun call hsaved => runCall_file hsaved⟩
  refine h.invariant (fun _ hstart => hstart) ?_
  intro before call after hwf hadds hstep
  obtain rfl := Option.some.inj hstep
  exact runCall_wellFormed hpreset hwf hadds

/-- Presets that use the name they are given. -/
def namedPreset (preset name : Bytes) : DeviceProfile :=
  if preset ∈ [bytes "gaming", bytes "office", bytes "precision"] then { name } else {}

theorem namedPreset_name (preset name : Bytes) :
    (namedPreset preset name).name = name ∨ (namedPreset preset name).name = [] := by
  unfold namedPreset
  split_ifs
  · exact .inl rfl
  · exact .inr rfl

theorem wellFormedFile_none : WellFormedFile J lim path none := by
  intro t h
  cases h

/-- The first call on a machine without a settings file. -/
def firstCall : CliCall (List Json) := { command := .create (bytes "p") }

theorem profiles_stay_wellFormed_firstCall :
    (runCall .trees .documented namedPreset (bytes "settings.json") none firstCall).1.rc = 0 ∧
    WellFormedFile .trees .documented (bytes "settings.json")
      (runCall .trees .documented namedPreset (bytes "settings.json") none firstCall).2 ∧
    ∀ call, (runCall .trees .documented namedPreset (bytes "settings.json")
        (runCall .trees .documented namedPreset (bytes "settings.json") none firstCall).2
        call).1.saved = false →
      (runCall .trees .documented namedPreset (bytes "settings.json")
        (runCall .trees .documented namedPreset (bytes "settings.json") none firstCall).2 call).2 =
      (runCall .trees .documented namedPreset (bytes "settings.json") none firstCall).2 := by
  refine ⟨by decide +kernel, ?_⟩
  refine profiles_stay_wellFormed namedPreset_name (.step (.start wellFormedFile_none) ?_ rfl)
  rintro - ⟨t, cfg, hnone, -⟩
  cases hnone

/-- A file of another program version: its list of profiles has another name. -/
def renamedList : List Json :=
  [.object [("active_profile", .str []), ("profile_list", .arr [.object []])]]

/-- **`create` leaves an empty active profile.**  The list of this file counts as empty, and
for the foreign list beside it the file is not repaired; then `create p` succeeds, and no
profile is active. -/
theorem create_leaves_active_empty :
    WellFormedFile .trees .documented (bytes "settings.json") (some renamedList) ∧
    (runCall .trees .documented namedPreset (bytes "settings.json") (some renamedList)
      firstCall).1.rc = 0 ∧
    ¬WellFormedFile .trees .documented (bytes "settings.json")
      (runCall .trees .documented namedPreset (bytes "settings.json") (some renamedList)
        firstCall).2 := by
  refine ⟨?_, by decide +kernel, ?_⟩
  · intro t ht
    obtain rfl := Option.some.inj ht
    refine ⟨{ version := rawaccelVersion, activeProfile := [] }, by decide +kernel, ?_⟩
    exact ⟨fun _ h => absurd h List.not_mem_nil, List.nodup_nil, Nat.zero_le _, .inr ⟨rfl, rfl⟩⟩
  · have hloaded : ((runCall .trees .documented namedPreset (bytes "settings.json")
        (some renamedList) firstCall).2.map fun t =>
          (loadConfig JsonLines.trees.toJsonText .documented (bytes "settings.json") (some t)).map
            fun cfg => (cfg.activeProfile, cfg.names)) = some (.ok ([], [bytes "p"])) := by
      decide +kernel
    intro hfile
    obtain ⟨t, ht, hmap⟩ := Option.map_eq_some_iff.mp hloaded
    obtain ⟨cfg, hload, hwf⟩ := hfile t ht
    rw [hload] at hmap
    have hparts : (cfg.activeProfile, cfg.names) = ([], [bytes "p"]) := Except.ok.inj hmap
    obtain ⟨hactive, hnames⟩ := Prod.mk.inj hparts
    rcases hwf.active with hmem | ⟨-, hnone⟩
    · rw [hactive, hnames] at hmem
      exact absurd hmem (by decide)
    · rw [AppConfig.names, hnone] at hnames
      cases hnames

end AbrekMouse
