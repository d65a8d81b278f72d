import AbrekMouse.Encodable
import AbrekMouse.ReadBack

/-! # The settings file round trip

A configuration whose strings are well-formed and within the caps of the reader is
saved, and loading the file gives the sanitized configuration back.  The numbers are
arbitrary: what is not finite is replaced before it is written.  What was loaded is
loaded again unchanged after a further save.
-/
namespace AbrekMouse
open ProgLib ProgLib.PairSort
variable {Text : Type} (J : JsonText Text) {lim : Limits}

/-- The tables of a profile are made of whole points once their lengths are clamped. -/
def DeviceProfile.EvenTables (dp : DeviceProfile) : Prop :=
  (clampLength dp.prof.accelX).length % 2 = 0 ∧ (clampLength dp.prof.accelY).length % 2 = 0

/-- The configurations that a file can hold. -/
structure AppConfig.Storable (cfg : AppConfig) : Prop where
  count : cfg.profiles.length ≤ maxProfilesFile
  activeProfile : cfg.activeProfile.length ≤ maxNameLen
  encodable : cfg.Encodable
  capped : ∀ dp ∈ cfg.profiles, dp.Capped
  even : ∀ dp ∈ cfg.profiles, dp.EvenTables

/-- The same curve, the table compared over its length. -/
structure AccelArgs.SameCurve (a b : AccelArgs) : Prop where
  fields : { a with data := b.data } = b
  slots : ∀ i < a.length.toNat, rd a.data i = rd b.data i

/-- The same profile, the tables compared over their lengths. -/
structure DeviceProfile.SameProfile (dp dq : DeviceProfile) : Prop where
  fields : { dp with prof := { dp.prof with accelX := dq.prof.accelX
                                            accelY := dq.prof.accelY } } = dq
  accelX : dp.prof.accelX.SameCurve dq.prof.accelX
  accelY : dp.prof.accelY.SameCurve dq.prof.accelY

theorem AccelArgs.sameCurve_of_data {a : AccelArgs} {d : Vector Single lutRawDataCapacity}
    (h : ∀ i < a.length.toNat, rd d i = rd a.data i) :
    AccelArgs.SameCurve { a with data := d } a := ⟨rfl, h⟩

theorem DeviceProfile.sameProfile_of_curves {dp : DeviceProfile} {x y : AccelArgs}
    (hx : x.SameCurve dp.prof.accelX) (hy : y.SameCurve dp.prof.accelY) :
    DeviceProfile.SameProfile { dp with prof := { dp.prof with accelX := x, accelY := y } } dp :=
  ⟨rfl, hx, hy⟩

theorem AccelArgs.trim_sameCurve {a : AccelArgs} (h : a.length ≤ lutRawDataCapacity) :
    a.trim.SameCurve a :=
  sameCurve_of_data fun i hi => (rd_trim a (by omega)).trans (if_pos (by omega))

theorem DeviceProfile.Clean.trim_sameProfile {dp : DeviceProfile} (h : dp.Clean lim) :
    dp.trim.SameProfile dp :=
  sameProfile_of_curves (AccelArgs.trim_sameCurve h.prof.accelX.lut.length_le)
    (AccelArgs.trim_sameCurve h.prof.accelY.lut.length_le)

theorem AccelArgs.trim_trim (a : AccelArgs) : a.trim.trim = a.trim := by
  have hdata : a.trim.trimData = a.trimData := by
    refine ext_rd fun i hi => ?_
    have hlen : a.trim.length = a.length := rfl
    calc rd a.trim.trimData i
        = if (i : ℤ) < a.length then rd a.trim.data i else 0 := rd_trim a.trim hi
      _ = rd a.trimData i := by
          rw [rd_trim a hi]
          refine Eq.trans ?_ (rd_trim a hi).symm
          split_ifs <;> rfl
  calc a.trim.trim = { a.trim with data := a.trim.trimData } := rfl
    _ = { a.trim with data := a.trimData } := by rw [hdata]

theorem storedVersion_spec (v : Bytes) :
    storedVersion v ≠ [] ∧ ¬versionLt (storedVersion v) rawaccelVersion = true := by
  unfold storedVersion
  split_ifs with hold
  · exact ⟨by decide, by decide⟩
  · exact ⟨fun h => hold (.inl h), fun h => hold (.inr h)⟩

theorem storedVersion_idem (v : Bytes) : storedVersion (storedVersion v) = storedVersion v := by
  obtain ⟨hne, hnew⟩ := storedVersion_spec v
  rw [storedVersion, if_neg (not_or.mpr ⟨hne, hnew⟩)]

variable (lim)

/-- The content that is saved parses as the JSON it was printed from. -/
theorem savedContent_parse {cfg : AppConfig} (hlen : cfg.profiles.length ≤ maxProfilesFile)
    (henc : cfg.Encodable) : ∃ t, savedContent J lim cfg = .ok t ∧
      parseJson J t = .ok (appConfigToJsonObj (sanitizeConfig lim cfg)) := by
  have hutf8 : (appConfigToJsonObj (sanitizeConfig lim cfg)).Utf8 :=
    appConfigToJsonObj_utf8.mpr ((sanitizeConfig_encodable lim).mpr henc)
  have hfinite : (appConfigToJsonObj (sanitizeConfig lim cfg)).Finite :=
    appConfigToJsonObj_finite
      (List.forall_mem_map.mpr fun dp _ => sanitizeDeviceProfile_clean lim dp)
  have hrep : (appConfigToJsonObj (sanitizeConfig lim cfg)).Representable :=
    appConfigToJsonObj_representable
      (List.forall_mem_map.mpr fun dp _ => (sanitizeDeviceProfile_clean lim dp).hasInts)
  obtain ⟨t, ht⟩ := (J.dump_ok_iff (i := some 4)).mpr hutf8
  have hparse := J.parse_newline (J.parse_dump hrep ht)
  rw [Json.printed_of_finite hfinite] at hparse
  refine ⟨J.newline t, ?_, ?_⟩
  · have hcount : ¬cfg.profiles.length > maxProfilesFile := Nat.not_lt.mpr hlen
    simp [savedContent, dumpJson, ht, hcount, Except.mapError, bind, Except.bind, pure, Except.pure]
  · simp [parseJson, hparse, Except.mapError]

/-- What loading a saved configuration gives. -/
def reloaded (cfg : AppConfig) : AppConfig :=
  { cfg with version := storedVersion cfg.version
             profiles := (sanitizeConfig lim cfg).profiles.map DeviceProfile.trim }

/-- **Saving and loading a storable configuration.** -/
theorem loadConfig_of_saved {cfg : AppConfig} (h : cfg.Storable) (path : Bytes)
    (file : Option Text) :
    (saveConfig J lim none cfg file).1 = .ok () ∧
      loadConfig J lim path (saveConfig J lim none cfg file).2 = .ok (reloaded lim cfg) := by
  obtain ⟨t, hsave, hparse⟩ := savedContent_parse J lim h.count h.encodable
  have hsaved : saveConfig J lim none cfg file = (.ok (), some t) := by
    simp only [saveConfig, hsave]
  have hwrite : ∀ dp ∈ (sanitizeConfig lim cfg).profiles,
      dp.Clean lim ∧ dp.Capped ∧ dp.prof.Even :=
    List.forall_mem_map.mpr fun dp hdp => by
      obtain ⟨hname, hid, happ, halias⟩ := h.capped dp hdp
      obtain ⟨hevenX, hevenY⟩ := h.even dp hdp
      exact ⟨sanitizeDeviceProfile_clean lim dp, ⟨hname, hid, happ, halias⟩, hevenX, hevenY⟩
  have hread : appConfigFromJsonObj lim (appConfigToJsonObj (sanitizeConfig lim cfg))
      maxProfilesFile = .ok (reloaded lim cfg) := by
    have hcount : (sanitizeConfig lim cfg).profiles.length ≤ maxProfilesFile := by
      have := h.count
      simpa [sanitizeConfig] using this
    have hactive : (sanitizeConfig lim cfg).activeProfile.length ≤ maxNameLen := h.activeProfile
    exact appConfigFromJsonObj_toJson hactive hcount hwrite
  obtain ⟨hne, hnew⟩ := storedVersion_spec cfg.version
  have hmigrate : migrateConfig lim (reloaded lim cfg) = (false, reloaded lim cfg) :=
    migrateConfig_of_not_older lim hne (not_versionLt_version040 hnew)
  rw [hsaved]
  refine ⟨rfl, ?_⟩
  simp only [loadConfig, hparse, hread, hmigrate, bind, Except.bind, pure, Except.pure]

theorem clampLength_even {a b : AccelArgs} (hlen : b.length = (clampLength a).length)
    (h : (clampLength a).length % 2 = 0) : (clampLength b).length % 2 = 0 := by
  obtain ⟨h0, hcap⟩ := clampLength_range a
  have hb : (clampLength b).length = min (lutRawDataCapacity : ℤ) (max 0 b.length) := rfl
  rwa [hb, hlen, max_eq_right h0, min_eq_right hcap]

/-- What was loaded from a saved file is storable again. -/
theorem reloaded_storable {cfg : AppConfig} (h : cfg.Storable) : (reloaded lim cfg).Storable := by
  have hall : ∀ {P : DeviceProfile → Prop},
      (∀ dp ∈ cfg.profiles, P (sanitizeDeviceProfile lim dp).trim) →
      ∀ dp ∈ (reloaded lim cfg).profiles, P dp := fun hP =>
    List.forall_mem_map.mpr (List.forall_mem_map.mpr hP)
  refine ⟨?_, h.activeProfile, ⟨h.encodable.activeProfile, hall fun dp hdp => ?_⟩,
    hall fun dp hdp => ?_, hall fun dp hdp => ?_⟩
  · have := h.count
    simpa [reloaded, sanitizeConfig] using this
  · obtain ⟨hname, hid, happ, hprof⟩ := h.encodable.profiles dp hdp
    exact ⟨hname, hid, happ, hprof⟩
  · obtain ⟨hname, hid, happ, halias⟩ := h.capped dp hdp
    exact ⟨hname, hid, happ, halias⟩
  · obtain ⟨hevenX, hevenY⟩ := h.even dp hdp
    have hlenX : (sanitizeProfile lim dp.prof).trim.accelX.length =
        (clampLength dp.prof.accelX).length := sanitizeAccelArgs_length lim dp.prof.accelX
    have hlenY : (sanitizeProfile lim dp.prof).trim.accelY.length =
        (clampLength dp.prof.accelY).length := sanitizeAccelArgs_length lim dp.prof.accelY
    exact ⟨clampLength_even hlenX hevenX, clampLength_even hlenY hevenY⟩

/-- A profile that was loaded is saved and loaded as it is. -/
theorem sanitize_trim (dp : DeviceProfile) :
    (sanitizeDeviceProfile lim (sanitizeDeviceProfile lim dp).trim).trim =
      (sanitizeDeviceProfile lim dp).trim := by
  have hclean := (sanitizeDeviceProfile_clean lim dp).trim
  rw [sanitizeDeviceProfile_of_clean hclean]
  generalize sanitizeDeviceProfile lim dp = dq
  unfold DeviceProfile.trim Profile.trim
  simp only [AccelArgs.trim_trim]

theorem reloaded_reloaded (cfg : AppConfig) :
    reloaded lim (reloaded lim cfg) = reloaded lim cfg := by
  have hprofiles : (reloaded lim (reloaded lim cfg)).profiles = (reloaded lim cfg).profiles := by
    simp only [reloaded, sanitizeConfig, List.map_map]
    exact List.map_congr_left fun dp _ => sanitize_trim lim dp
  have hversion : (reloaded lim (reloaded lim cfg)).version = (reloaded lim cfg).version :=
    storedVersion_idem cfg.version
  calc reloaded lim (reloaded lim cfg)
      = { reloaded lim cfg with
          version := (reloaded lim (reloaded lim cfg)).version
          profiles := (reloaded lim (reloaded lim cfg)).profiles } := rfl
    _ = reloaded lim cfg := by rw [hprofiles, hversion]

/-- **The round trip.**  Saving a storable configuration succeeds, and loading the file
gives the sanitized configuration: the same active profile and switch, and the same
profiles in the same order.  What was loaded survives a further save and load
unchanged. -/
theorem loadConfig_saveConfig (cfg : AppConfig) (h : cfg.Storable) (path : Bytes)
    (file : Option Text) :
    ∃ loaded file',
      saveConfig J lim none cfg file = (.ok (), file') ∧
      loadConfig J lim path file' = .ok loaded ∧
      loaded.activeProfile = cfg.activeProfile ∧
      loaded.useRawInput = cfg.useRawInput ∧
      loaded.profiles.Forall₂ DeviceProfile.SameProfile
        (cfg.profiles.map (sanitizeDeviceProfile lim)) ∧
      ∃ file'', saveConfig J lim none loaded file' = (.ok (), file'') ∧
        loadConfig J lim path file'' = .ok loaded := by
  obtain ⟨hsave, hload⟩ := loadConfig_of_saved J lim h path file
  have hagain := loadConfig_of_saved J lim (reloaded_storable lim h) path
    (saveConfig J lim none cfg file).2
  rw [reloaded_reloaded] at hagain
  refine ⟨reloaded lim cfg, _, Prod.ext hsave rfl, hload, rfl, rfl, ?_, _,
    Prod.ext hagain.1 rfl, hagain.2⟩
  have hprofiles : (reloaded lim cfg).profiles =
      (cfg.profiles.map (sanitizeDeviceProfile lim)).map DeviceProfile.trim := rfl
  rw [hprofiles, List.forall₂_map_left_iff, List.forall₂_same]
  exact List.forall_mem_map.mpr fun dp _ => (sanitizeDeviceProfile_clean lim dp).trim_sameProfile

/-- A profile with a nan and an infinity. -/
def nonfiniteProfile : DeviceProfile :=
  { name := bytes "mouse", prof := { outputDpi := .nan, speedMax := .inf false } }

theorem loadConfig_saveConfig_nonfinite :
    ∃ loaded file',
      saveConfig JsonText.trees Limits.documented none { profiles := [nonfiniteProfile] }
        (some .null) = (.ok (), file') ∧
      loadConfig JsonText.trees Limits.documented (bytes "settings.json") file' = .ok loaded ∧
      loaded.activeProfile = bytes "default" ∧
      loaded.useRawInput = true ∧
      loaded.profiles.Forall₂ DeviceProfile.SameProfile
        ([nonfiniteProfile].map (sanitizeDeviceProfile Limits.documented)) ∧
      ∃ file'', saveConfig JsonText.trees Limits.documented none loaded file' = (.ok (), file'') ∧
        loadConfig JsonText.trees Limits.documented (bytes "settings.json") file'' = .ok loaded :=
  loadConfig_saveConfig _ _ _
    { count := by decide
      activeProfile := by decide
      encodable := ⟨by decide, List.forall_mem_singleton.mpr
        ⟨by decide, by decide, by decide, by decide⟩⟩
      capped := List.forall_mem_singleton.mpr ⟨by decide, by decide, by decide, by decide⟩
      even := List.forall_mem_singleton.mpr ⟨by decide, by decide⟩ } _ _

end AbrekMouse
