import AbrekMouse.Encodable

/-! # Strings cut on loading

The reader cuts names at a number of bytes.  A cut inside a character leaves a string
that is not UTF-8, and a configuration that holds one is accepted but can be neither
pushed nor saved.  `load_writable_iff` says exactly which texts this happens to: those
where the byte after some cap continues a character.
-/
namespace AbrekMouse
open ProgLib
variable {Text : Type} {J : JsonText Text} {lim : Limits}

/-- The two ways into the program: a pushed text and the settings file. -/
inductive Loader
  | push
  | file (path : Bytes)

namespace Loader

def maxProfiles : Loader → ℕ
  | push => AbrekMouse.maxProfiles
  | file _ => maxProfilesFile

def load (J : JsonText Text) (lim : Limits) : Loader → Text → Except ConfigError AppConfig
  | push, t => appConfigFromJson J lim t
  | file path, t => loadConfig J lim path (some t)

end Loader

/-! ## The condition -/

/-- Where member `key` is a string, its cap splits no character. -/
def CutClean (j : Json) (key : String) (cap : ℕ) : Prop :=
  ∀ s, j.get? key = some (.str s) → Utf8.Boundary s cap

/-- The five caps on the strings of a profile.  The name inside the engine's profile is a
C string, so it is cut at its first NUL before its cap applies. -/
structure ProfileCutsClean (pj : Json) : Prop where
  name : CutClean pj "name" maxNameLen
  deviceId : CutClean pj "device_id" maxDpDeviceId
  matchApp : CutClean pj "match_app" maxMatchApp
  profName : ∀ q s, pj.get? "profile" = some q → q.get? "name" = some (.str s) →
    Utf8.Boundary (s.takeWhile (· ≠ 0)) maxNameLen

/-- The elements of `profiles`. -/
def profileElems (j : Json) : List Json :=
  match j.get? "profiles" with
  | some v => v.elems
  | none => []

/-- The elements of `profiles` that are retained. -/
def retained (maxProfiles : ℕ) (j : Json) : List Json := (profileElems j).take maxProfiles

/-- No cap of the reader splits a character of the text's strings. -/
structure CutsClean (maxProfiles : ℕ) (j : Json) : Prop where
  activeProfile : CutClean j "active_profile" maxNameLen
  profiles : ∀ pj ∈ retained maxProfiles j, ProfileCutsClean pj

/-! ## What the reader makes of a string -/

/-- A string that was cut is well formed exactly when the cut split no character. -/
theorem stringField_valid_iff {j : Json} (hj : j.Utf8) (key : String) {fallback dflt : Bytes}
    (hfallback : Utf8.valid fallback = true) (hdflt : Utf8.valid dflt = true) (cap : ℕ) :
    Utf8.valid (stringField j key fallback dflt cap) = true ↔ CutClean j key cap := by
  unfold stringField CutClean
  cases hget : j.get? key with
  | none => simpa using hdflt
  | some v =>
      cases v with
      | str s =>
          have hs : Utf8.valid s = true := Json.utf8_str.mp (hj.get? hget)
          simp only [jsonGetStringLimited, Option.some.injEq, Json.str.injEq, forall_eq']
          split_ifs with hlong
          · exact Utf8.valid_take hs cap
          · exact iff_of_true hs (Utf8.boundary_of_length_le (Nat.not_lt.mp hlong))
      | _ => simpa [jsonGetStringLimited] using hfallback

/-- The text of an empty or an ASCII default. -/
theorem valid_nil : Utf8.valid [] = true := by decide

theorem deviceId_valid_iff {pj : Json} (hpj : pj.Utf8) :
    Utf8.valid (if stringField pj "device_id" [] [] maxDpDeviceId ∈ allDevicesAliases then []
      else stringField pj "device_id" [] [] maxDpDeviceId) = true ↔
      CutClean pj "device_id" maxDpDeviceId := by
  rw [← stringField_valid_iff hpj "device_id" valid_nil valid_nil]
  have halias : ∀ s ∈ allDevicesAliases, Utf8.valid s = true := by decide
  split_ifs with hmem
  · exact iff_of_true valid_nil (halias _ hmem)
  · exact Iff.rfl

theorem profileFromJsonObj_name {j : Json} {p : Profile} (h : profileFromJsonObj j = .ok p) :
    p.name = nameField j (.copy maxNameLen (bytes "default")) := by
  unfold profileFromJsonObj at h
  simp only [bind, Except.bind, pure, Except.pure] at h
  split at h
  · cases h
  · split at h
    · cases h
    · cases h
      rfl

theorem nameField_valid_iff {q : Json} (hq : q.Utf8) :
    Utf8.valid (nameField q (.copy maxNameLen (bytes "default"))).chars = true ↔
      ∀ s, q.get? "name" = some (.str s) → Utf8.Boundary (s.takeWhile (· ≠ 0)) maxNameLen := by
  have hdflt : Utf8.valid (CString.copy maxNameLen (bytes "default")).chars = true := by decide
  unfold nameField
  cases hget : q.get? "name" with
  | none => simpa using hdflt
  | some v =>
      cases v with
      | str s =>
          have hs : Utf8.valid s = true := Json.utf8_str.mp (hq.get? hget)
          simp only [Option.some.injEq, Json.str.injEq, forall_eq']
          exact Utf8.valid_take (Utf8.valid_takeWhile_ne_zero hs) maxNameLen
      | _ => simpa using hdflt

theorem profField_valid_iff {pj : Json} (hpj : pj.Utf8) {p : Profile}
    (h : profField pj {} = .ok p) :
    Utf8.valid p.name.chars = true ↔
      ∀ q s, pj.get? "profile" = some q → q.get? "name" = some (.str s) →
        Utf8.Boundary (s.takeWhile (· ≠ 0)) maxNameLen := by
  have hdflt : Utf8.valid ({} : Profile).name.chars = true := by decide
  unfold profField at h
  cases hget : pj.get? "profile" with
  | none =>
      rw [hget] at h
      cases h
      exact iff_of_true hdflt fun q s hq => by cases hq
  | some v =>
      rw [hget] at h
      simp only at h
      split_ifs at h with hobj
      · rw [profileFromJsonObj_name h, nameField_valid_iff (hpj.get? hget)]
        exact ⟨fun hcut q s hq => Option.some.inj hq ▸ hcut s, fun hcut s => hcut v s rfl⟩
      · -- a value that is not an object is skipped, and has no members
        cases h
        refine iff_of_true hdflt fun q s hq hname => ?_
        cases hq
        cases v with
        | obj m => exact absurd rfl hobj
        | _ => cases hname

/-- **A profile is encodable exactly when no cap split one of its strings.** -/
theorem deviceProfileFromJson_encodable_iff {pj : Json} (hpj : pj.Utf8) {dp : DeviceProfile}
    (h : deviceProfileFromJson lim pj = .ok dp) : dp.Encodable ↔ ProfileCutsClean pj := by
  unfold deviceProfileFromJson at h
  simp only [bind, Except.bind, pure, Except.pure] at h
  split at h
  · cases h
  · rename_i p hp
    cases h
    have hname := stringField_valid_iff hpj "name" valid_nil valid_nil maxNameLen
    have hid := deviceId_valid_iff hpj
    have happ := stringField_valid_iff hpj "match_app" valid_nil valid_nil maxMatchApp
    have hprof := profField_valid_iff hpj hp
    constructor
    · rintro ⟨h₁, h₂, h₃, h₄⟩
      exact ⟨hname.mp h₁, hid.mp h₂, happ.mp h₃, hprof.mp h₄⟩
    · rintro ⟨h₁, h₂, h₃, h₄⟩
      exact ⟨hname.mpr h₁, hid.mpr h₂, happ.mpr h₃, hprof.mpr h₄⟩

/-! ## The list of profiles -/

/-- What the loop read: the elements up to the cap, in order. -/
theorem readProfiles_spec {maxProfiles size : ℕ} {js : List Json} :
    ∀ {done dps : List DeviceProfile}, done.length ≤ maxProfiles →
      readProfiles lim maxProfiles size done js = .ok dps →
      ∃ new, dps = done ++ new ∧ dps.length ≤ maxProfiles ∧
        (js.take (maxProfiles - done.length)).Forall₂
          (fun pj dp => deviceProfileFromJson lim pj = .ok dp) new := by
  induction js with
  | nil =>
      intro done dps hlen h
      cases h
      exact ⟨[], by simp, hlen, by simp⟩
  | cons pj js ih =>
      intro done dps hlen h
      unfold readProfiles at h
      split_ifs at h with hobj hfull hfile
      · cases h
        have hzero : maxProfiles - done.length = 0 := by omega
        exact ⟨[], by simp, hlen, by simp [hzero]⟩
      · cases hdp : deviceProfileFromJson lim pj with
        | error e =>
            rw [hdp] at h
            cases h
        | ok dp =>
            rw [hdp] at h
            have hroom : (done ++ [dp]).length ≤ maxProfiles := by
              simp
              omega
            obtain ⟨new, rfl, hcount, hnew⟩ := ih hroom h
            refine ⟨dp :: new, by simp, hcount, ?_⟩
            have hsucc : maxProfiles - done.length = maxProfiles - (done ++ [dp]).length + 1 := by
              simp
              omega
            rw [hsucc, List.take_succ_cons]
            exact .cons hdp hnew

theorem profilesField_spec {j : Json} {maxProfiles : ℕ} {dps : List DeviceProfile}
    (h : profilesField lim j maxProfiles = .ok dps) :
    dps.length ≤ maxProfiles ∧
      (retained maxProfiles j).Forall₂
        (fun pj dp => deviceProfileFromJson lim pj = .ok dp) dps := by
  unfold profilesField at h
  unfold retained profileElems
  cases hget : j.get? "profiles" with
  | none =>
      rw [hget] at h
      cases h
      simp
  | some v =>
      rw [hget] at h
      simp only at h
      split_ifs at h
      obtain ⟨new, rfl, hcount, hnew⟩ := readProfiles_spec (Nat.zero_le _) h
      exact ⟨hcount, by simpa using hnew⟩

theorem retained_utf8 {j : Json} (hj : j.Utf8) {maxProfiles : ℕ} :
    ∀ pj ∈ retained maxProfiles j, pj.Utf8 := by
  unfold retained profileElems
  cases hget : j.get? "profiles" with
  | none => simp
  | some v => exact fun pj hpj => (hj.get? hget).elems (List.mem_of_mem_take hpj)

/-- Pairwise related lists satisfy predicates that agree on related elements together. -/
theorem forall_iff_of_forall₂ {α β : Type} {R : α → β → Prop} {P : α → Prop} {Q : β → Prop}
    {as : List α} {bs : List β} (h : as.Forall₂ R bs)
    (hiff : ∀ a ∈ as, ∀ b, R a b → (Q b ↔ P a)) : (∀ b ∈ bs, Q b) ↔ ∀ a ∈ as, P a := by
  induction h with
  | nil => simp
  | cons hab _ ih =>
      rw [List.forall_mem_cons, List.forall_mem_cons, hiff _ (by simp) _ hab,
        ih fun a ha => hiff a (by simp [ha])]

/-- **A parsed configuration is encodable exactly when no cap split a character.** -/
theorem appConfigFromJsonObj_encodable_iff {j : Json} (hj : j.Utf8) {maxProfiles : ℕ}
    {cfg : AppConfig} (h : appConfigFromJsonObj lim j maxProfiles = .ok cfg) :
    cfg.profiles.length ≤ maxProfiles ∧ (cfg.Encodable ↔ CutsClean maxProfiles j) := by
  unfold appConfigFromJsonObj at h
  simp only [bind, Except.bind, pure, Except.pure, throw, throwThe, MonadExceptOf.throw] at h
  split at h
  · cases h
  · split at h
    · cases h
    · rename_i dps hdps
      cases h
      obtain ⟨hcount, hall⟩ := profilesField_spec hdps
      have hdefault : Utf8.valid (bytes "default") = true := by decide
      have hactive := stringField_valid_iff hj "active_profile" hdefault hdefault maxNameLen
      have hprofiles := forall_iff_of_forall₂ hall fun pj hpj dp hdp =>
        deviceProfileFromJson_encodable_iff (retained_utf8 hj pj hpj) hdp
      refine ⟨hcount, ?_⟩
      constructor
      · rintro ⟨h₁, h₂⟩
        exact ⟨hactive.mp h₁, hprofiles.mp h₂⟩
      · rintro ⟨h₁, h₂⟩
        exact ⟨hactive.mpr h₁, hprofiles.mpr h₂⟩

/-! ## Loading, then writing -/

variable (lim) in
/-- The migration keeps the strings and the number of profiles. -/
theorem migrateConfig_encodable (cfg : AppConfig) :
    (migrateConfig lim cfg).2.profiles.length = cfg.profiles.length ∧
      ((migrateConfig lim cfg).2.Encodable ↔ cfg.Encodable) := by
  have hgain : (migrateLookupGain cfg).profiles.length = cfg.profiles.length ∧
      ((migrateLookupGain cfg).Encodable ↔ cfg.Encodable) := by
    refine ⟨List.length_map _, ⟨fun ⟨hactive, hall⟩ => ⟨hactive, fun dp hdp => ?_⟩,
      fun ⟨hactive, hall⟩ => ⟨hactive, List.forall_mem_map.mpr fun dp hdp => ?_⟩⟩⟩
    · obtain ⟨hname, hid, happ, hprof⟩ := hall _ (List.mem_map_of_mem hdp)
      exact ⟨hname, hid, happ, hprof⟩
    · obtain ⟨hname, hid, happ, hprof⟩ := hall dp hdp
      exact ⟨hname, hid, happ, hprof⟩
  have hstamp : ∀ c : AppConfig,
      ({ sanitizeConfig lim c with version := rawaccelVersion }).profiles.length =
        c.profiles.length ∧
      (({ sanitizeConfig lim c with version := rawaccelVersion }).Encodable ↔ c.Encodable) :=
    fun c => ⟨List.length_map _, ⟨fun ⟨hactive, hall⟩ =>
      (sanitizeConfig_encodable lim).mp ⟨hactive, hall⟩, fun h =>
      ⟨h.activeProfile, ((sanitizeConfig_encodable lim).mpr h).profiles⟩⟩⟩
  unfold migrateConfig
  split_ifs with hsame
  · exact ⟨rfl, Iff.rfl⟩
  · dsimp only
    split_ifs with hmigrated hdue
    · exact ⟨(hstamp _).1.trans hgain.1, (hstamp _).2.trans hgain.2⟩
    · exact hstamp cfg
    · exact hgain
    · exact ⟨rfl, Iff.rfl⟩

/-- What a loader returned came from a parsed value. -/
theorem Loader.load_eq_ok {l : Loader} {t : Text} {cfg : AppConfig} (h : l.load J lim t = .ok cfg) :
    ∃ j read, J.parse t = .ok j ∧ appConfigFromJsonObj lim j l.maxProfiles = .ok read ∧
      cfg = (migrateConfig lim read).2 := by
  cases l <;>
  · simp only [load, appConfigFromJson, loadConfig, parseJson, bind, Except.bind, pure,
      Except.pure] at h
    cases hparse : J.parse t with
    | error e =>
        rw [hparse] at h
        cases h
    | ok j =>
        simp only [hparse, Except.mapError] at h
        split at h
        · cases h
        · rename_i read hread
          cases h
          exact ⟨j, read, rfl, hread, rfl⟩

theorem Loader.maxProfiles_le : ∀ l : Loader, l.maxProfiles ≤ maxProfilesFile
  | push => by decide
  | file _ => Nat.le_refl maxProfilesFile

theorem saveConfig_ok_iff {cfg : AppConfig} {file : Option Text} :
    (saveConfig J lim none cfg file).1 = .ok () ↔
      cfg.profiles.length ≤ maxProfilesFile ∧ cfg.Encodable := by
  have hsaved : (∃ t, savedContent J lim cfg = .ok t) ↔
      cfg.profiles.length ≤ maxProfilesFile ∧ cfg.Encodable := savedContent_ok_iff
  rw [← hsaved]
  unfold saveConfig
  cases savedContent J lim cfg <;> simp

/-- **What is accepted can be written back exactly when no cap split a character.**  The
configuration a loader returned can be pushed, and saved over any file, if and only if
the byte after each cap of the text's strings continues no character. -/
theorem load_writable_iff (l : Loader) {t : Text} {cfg : AppConfig}
    (h : l.load J lim t = .ok cfg) :
    ((∃ u, appConfigToJson J cfg = .ok u) ∧
      ∀ file, (saveConfig J lim none cfg file).1 = .ok ()) ↔
      ∃ j, J.parse t = .ok j ∧ CutsClean l.maxProfiles j := by
  obtain ⟨j, read, hparse, hread, rfl⟩ := l.load_eq_ok h
  obtain ⟨hcount, henc⟩ := appConfigFromJsonObj_encodable_iff (J.parse_utf8 hparse) hread
  obtain ⟨hlen, hmigrate⟩ := migrateConfig_encodable lim read
  have hle : (migrateConfig lim read).2.profiles.length ≤ maxProfilesFile := by
    rw [hlen]
    exact hcount.trans l.maxProfiles_le
  rw [appConfigToJson_ok_iff]
  simp only [saveConfig_ok_iff, hmigrate, henc, hle, hparse, true_and]
  constructor
  · rintro ⟨hclean, -⟩
    exact ⟨j, rfl, hclean⟩
  · rintro ⟨j', hj', hclean⟩
    obtain rfl : j = j' := Except.ok.inj hj'
    exact ⟨hclean, fun _ => hclean⟩

/-- A text of the current version with no profiles. -/
def textWithActive (name : Bytes) : Json :=
  .object [("version", .str rawaccelVersion), ("active_profile", .str name)]

/-- `é`, well within the cap. -/
theorem load_writable_iff_short :
    ((∃ u, appConfigToJson JsonText.trees
        { version := rawaccelVersion, activeProfile := [0xC3, 0xA9] } = .ok u) ∧
      ∀ file, (saveConfig JsonText.trees Limits.documented none
        { version := rawaccelVersion, activeProfile := [0xC3, 0xA9] } file).1 = .ok ()) ↔
      ∃ j, JsonText.trees.parse (textWithActive [0xC3, 0xA9]) = .ok j ∧
        CutsClean Loader.push.maxProfiles j :=
  load_writable_iff .push (by rfl)

/-- 255 letters and an `é`: the cap falls between its two bytes. -/
def splitName : Bytes := List.replicate 255 0x61 ++ [0xC3, 0xA9]

/-- The configuration that is read from it. -/
def splitConfig : AppConfig :=
  { version := rawaccelVersion, activeProfile := List.replicate 255 0x61 ++ [0xC3] }

theorem splitConfig_not_encodable : ¬splitConfig.Encodable := fun h => by
  have hvalid : Utf8.valid splitConfig.activeProfile = false := by decide +kernel
  rw [h.activeProfile] at hvalid
  cases hvalid

set_option maxRecDepth 4000 in
/-- The settings file with it is loaded. -/
theorem loadConfig_splitName (path : Bytes) :
    loadConfig JsonText.trees Limits.documented path (some (textWithActive splitName)) =
      .ok splitConfig := by rfl

set_option maxRecDepth 4000 in
/-- A text of one long name is accepted by both loaders, and can then neither be pushed
nor saved. -/
theorem load_not_writable :
    Loader.push.load JsonText.trees Limits.documented (textWithActive splitName) =
        .ok splitConfig ∧
      (Loader.file (bytes "settings.json")).load JsonText.trees Limits.documented
        (textWithActive splitName) = .ok splitConfig ∧
      (¬∃ u, appConfigToJson JsonText.trees splitConfig = .ok u) ∧
      ¬∃ file, (saveConfig JsonText.trees Limits.documented none splitConfig file).1 = .ok () := by
  refine ⟨by rfl, loadConfig_splitName (bytes "settings.json"),
    fun hu => splitConfig_not_encodable (appConfigToJson_ok_iff.mp hu), ?_⟩
  rintro ⟨file, hsave⟩
  exact splitConfig_not_encodable (saveConfig_ok_iff.mp hsave).2

end AbrekMouse
