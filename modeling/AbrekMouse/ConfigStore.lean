import AbrekMouse.Migrate

/-! # Loading and saving

The entry points: a configuration to and from a JSON text, as a push sends it, and to
and from the settings file.  The JSON library is a parameter; a file is its text, or
`none` where there is none.

The push path keeps at most `maxProfiles` profiles, the file path at most
`maxProfilesFile`, and refuses more.
-/
namespace AbrekMouse
open ProgLib
variable {Text : Type} (J : JsonText Text) (lim : Limits)

/-- The version written to a text: a newer one is kept, anything else is replaced. -/
def storedVersion (v : Bytes) : Bytes :=
  if v = [] ∨ versionLt v rawaccelVersion then rawaccelVersion else v

/-- The members of the settings file. -/
def appConfigMembers (cfg : AppConfig) : List (String × Json) :=
  [("version", .str (storedVersion cfg.version)),
    ("active_profile", .str cfg.activeProfile),
    ("use_raw_input", .bool cfg.useRawInput),
    ("profiles", .arr (cfg.profiles.map deviceProfileToJson))]

theorem appConfigMembers_nodup (cfg : AppConfig) :
    ((appConfigMembers cfg).map Prod.fst).Nodup := by
  simp [appConfigMembers]

/-- `app_config_to_json_obj`: the configuration as one object. -/
def appConfigToJsonObj (cfg : AppConfig) : Json := .object (appConfigMembers cfg)

/-- The text of a value; what the library throws is an error of the configuration. -/
def dumpJson (indent : Option ℕ) (j : Json) : Except ConfigError Text :=
  (J.dump indent j).mapError .dump

/-- The value of a text; what the library throws is an error of the configuration. -/
def parseJson (t : Text) : Except ConfigError Json := (J.parse t).mapError .parse

/-- `app_config_to_json`: the text that goes over the socket, on one line. -/
def appConfigToJson (cfg : AppConfig) : Except ConfigError Text :=
  dumpJson J none (appConfigToJsonObj cfg)

/-- `app_config_from_json`: a text of the socket, read and migrated. -/
def appConfigFromJson (t : Text) : Except ConfigError AppConfig := do
  let j ← parseJson J t
  let cfg ← appConfigFromJsonObj lim j maxProfiles
  return (migrateConfig lim cfg).2

/-- `load_config`: the file, read and migrated; the profiles may be more than those of the
socket. -/
def loadConfig (path : Bytes) (file : Option Text) : Except ConfigError AppConfig :=
  match file with
  | none => .error (.cannotOpen path)
  | some t => do
      let j ← parseJson J t
      let cfg ← appConfigFromJsonObj lim j maxProfilesFile
      return (migrateConfig lim cfg).2

/-- The copy that is written. -/
def sanitizeConfig (cfg : AppConfig) : AppConfig :=
  { cfg with profiles := cfg.profiles.map (sanitizeDeviceProfile lim) }

/-- The content that `save_config` writes, or why it writes none. -/
def savedContent (cfg : AppConfig) : Except ConfigError Text := do
  if cfg.profiles.length > maxProfilesFile then
    throw (.tooManyProfiles cfg.profiles.length maxProfilesFile (bytes "save"))
  let t ← dumpJson J (some 4) (appConfigToJsonObj (sanitizeConfig lim cfg))
  return J.newline t

/-- `save_config`: the result and the file.  `fault` is the error of a system call
that fails before the new file takes the place of the old one. -/
def saveConfig (fault : Option Bytes) (cfg : AppConfig) (file : Option Text) :
    Except ConfigError Unit × Option Text :=
  match savedContent J lim cfg, fault with
  | .error e, _ => (.error e, file)
  | .ok _, some what => (.error (.io what), file)
  | .ok t, none => (.ok (), some t)

/-- A save that fails leaves the file as it was. -/
theorem saveConfig_of_error {fault : Option Bytes} {cfg : AppConfig} {file : Option Text}
    {e : ConfigError} (h : (saveConfig J lim fault cfg file).1 = .error e) :
    (saveConfig J lim fault cfg file).2 = file := by
  unfold saveConfig at h ⊢
  split at h
  · rfl
  · rfl
  · cases h

end AbrekMouse
