import AbrekMouse.Clean
import AbrekMouse.ConfigStore

/-! # Which configurations can be written

The JSON of a configuration holds a string for each of its names, besides names of
modes and versions, which are ASCII.  The library prints it exactly when each of
those strings is well-formed UTF-8 (`AppConfig.Encodable`), whatever the numbers are.
A sanitized configuration holds finite numbers only, so its text reads back as the
same JSON; the integers of any configuration have a place in that of the library, since
they are `int`s of the code (`DeviceProfile.HasInts`).
-/
namespace AbrekMouse
open ProgLib ProgLib.Fp ProgLib.PairSort
variable {Text : Type} {J : JsonText Text} {lim : Limits}

/-- The strings of a profile are well-formed UTF-8. -/
structure DeviceProfile.Encodable (dp : DeviceProfile) : Prop where
  name : Utf8.valid dp.name = true
  deviceId : Utf8.valid dp.deviceId = true
  matchApp : Utf8.valid dp.matchApp = true
  profName : Utf8.valid dp.prof.name.chars = true

/-- The strings of a configuration are well-formed UTF-8. -/
structure AppConfig.Encodable (cfg : AppConfig) : Prop where
  activeProfile : Utf8.valid cfg.activeProfile = true
  profiles : ∀ dp ∈ cfg.profiles, dp.Encodable

/-- An `int` of the code. -/
def IsInt (z : ℤ) : Prop := intMin ≤ z ∧ z ≤ intMax

/-- The integers of a profile are `int`s, as those of the code are by their types. -/
structure DeviceProfile.HasInts (dp : DeviceProfile) : Prop where
  dpi : IsInt dp.devCfg.dpi
  pollingRate : IsInt dp.devCfg.pollingRate
  lengthX : IsInt dp.prof.accelX.length
  lengthY : IsInt dp.prof.accelY.length

/-! ## Versions are ASCII -/

theorem isDigit_lt {c : UInt8} (h : isDigit c = true) : c < 0x80 := by
  have hle : c ≤ 0x39 := by simpa [isDigit] using (Bool.and_eq_true_iff.mp h).2
  exact UInt8.lt_of_le_of_lt hle (by decide)

theorem all_isDigit_of_parseComponent {tok : Bytes} {n : ℕ} (h : parseComponent tok = some n) :
    tok.all isDigit = true := by
  unfold parseComponent at h
  split_ifs at h with _ hdigits
  simpa using hdigits

/-- The bytes of a string are those of its tokens, and dots. -/
theorem mem_versionTokens {c : UInt8} : ∀ {v : Bytes}, c ∈ v →
    c = 0x2E ∨ ∃ tok ∈ versionTokens v, c ∈ tok
  | b :: v, h => by
      unfold versionTokens
      split_ifs with hdot
      · rcases List.mem_cons.mp h with rfl | hv
        · exact .inl hdot
        · rcases mem_versionTokens hv with hc | ⟨tok, htok, hc⟩
          · exact .inl hc
          · exact .inr ⟨tok, List.mem_cons_of_mem _ htok, hc⟩
      · rcases List.mem_cons.mp h with rfl | hv
        · refine .inr ?_
          cases versionTokens v with
          | nil => exact ⟨[c], by simp, by simp⟩
          | cons tok toks => exact ⟨c :: tok, by simp, by simp⟩
        · rcases mem_versionTokens hv with hc | ⟨tok, htok, hc⟩
          · exact .inl hc
          · refine .inr ?_
            cases htoks : versionTokens v with
            | nil => simp [htoks] at htok
            | cons tok' toks =>
                rw [htoks] at htok
                rcases List.mem_cons.mp htok with rfl | htok
                · exact ⟨b :: tok, by simp, List.mem_cons_of_mem _ hc⟩
                · exact ⟨tok, List.mem_cons_of_mem _ htok, hc⟩

theorem exists_parseComponent {v : Bytes} {ns : List ℕ} (h : parseVersion v = some ns) :
    ∀ tok ∈ versionTokens v, ∃ n, parseComponent tok = some n := by
  unfold parseVersion at h
  generalize versionTokens v = toks at h
  induction toks generalizing ns with
  | nil => simp
  | cons tok toks ih =>
      simp only [List.mapM_cons, Option.bind_eq_bind, Option.bind_eq_some_iff] at h
      obtain ⟨n, hn, ns', hns', -⟩ := h
      intro tok' htok'
      rcases List.mem_cons.mp htok' with rfl | hmem
      · exact ⟨n, hn⟩
      · exact ih hns' tok' hmem

/-- A string that is a version is ASCII. -/
theorem valid_of_parseVersion {v : Bytes} {ns : List ℕ} (h : parseVersion v = some ns) :
    Utf8.valid v = true := by
  refine Utf8.valid_of_ascii fun c hc => ?_
  rcases mem_versionTokens hc with rfl | ⟨tok, htok, hmem⟩
  · decide
  · obtain ⟨n, hn⟩ := exists_parseComponent h tok htok
    exact isDigit_lt (List.all_eq_true.mp (all_isDigit_of_parseComponent hn) c hmem)

theorem storedVersion_valid (v : Bytes) : Utf8.valid (storedVersion v) = true := by
  unfold storedVersion
  split_ifs with hold
  · decide
  · cases hparse : parseVersion v with
    | none => exact absurd (.inr (by simp [versionLt, hparse])) hold
    | some ns => exact valid_of_parseVersion hparse

/-! ## The strings of the JSON -/

theorem accelArgsToJson_utf8 (a : AccelArgs) : (accelArgsToJson a).Utf8 := by
  have hmode : ∀ m, Utf8.valid (modeToStr m) = true := by
    intro m
    cases m <;> decide
  have hcap : ∀ m, Utf8.valid (capToStr m) = true := by
    intro m
    cases m <;> decide
  have hlut : ∀ p ∈ lutMembers a, p.2.Utf8 := by
    unfold lutMembers
    split_ifs
    · simp only [List.forall_mem_cons, Json.utf8_arr, List.forall_mem_map]
      simp
    · simp
  refine (Json.utf8_object (accelArgsMembers_nodup a)).mpr ?_
  simp only [accelArgsMembers, List.forall_mem_append, List.forall_mem_cons, Json.utf8_str,
    Json.utf8_bool, Json.utf8_float, Json.utf8_arr, hmode, hcap]
  exact ⟨by simp, hlut⟩

theorem profileToJsonObj_utf8 {p : Profile} :
    (profileToJsonObj p).Utf8 ↔ Utf8.valid p.name.chars = true := by
  have hspeed : (Json.object (speedArgsMembers p.speedProcessorArgs)).Utf8 :=
    (Json.utf8_object (speedArgsMembers_nodup _)).mpr (by simp [speedArgsMembers])
  refine (Json.utf8_object (profileMembers_nodup p)).trans ?_
  simp [profileMembers, accelArgsToJson_utf8, hspeed]

theorem deviceProfileToJson_utf8 {dp : DeviceProfile} :
    (deviceProfileToJson dp).Utf8 ↔ dp.Encodable := by
  have hversion : Utf8.valid rawaccelVersion = true := by decide
  have hmatch : (∀ p ∈ matchAppMembers dp, p.2.Utf8) ↔ Utf8.valid dp.matchApp = true := by
    unfold matchAppMembers
    split_ifs with hne
    · simp
    · have hnil : dp.matchApp = [] := not_not.mp hne
      simp [hnil, Utf8.valid, Utf8.run]
  refine (Json.utf8_object (deviceProfileMembers_nodup dp)).trans ?_
  simp only [deviceProfileMembers, List.forall_mem_append, List.forall_mem_cons, hmatch,
    Json.utf8_str, Json.utf8_int, Json.utf8_bool, profileToJsonObj_utf8, hversion]
  constructor
  · rintro ⟨⟨⟨hname, hid, -⟩, happ⟩, -, -, -, hprof, -⟩
    exact ⟨hname, hid, happ, hprof⟩
  · rintro ⟨hname, hid, happ, hprof⟩
    exact ⟨⟨⟨hname, hid, by simp⟩, happ⟩, trivial, trivial, trivial, hprof, trivial, by simp⟩

/-- **The JSON of a configuration holds its own strings.** -/
theorem appConfigToJsonObj_utf8 {cfg : AppConfig} :
    (appConfigToJsonObj cfg).Utf8 ↔ cfg.Encodable := by
  refine (Json.utf8_object (appConfigMembers_nodup cfg)).trans ?_
  simp only [appConfigMembers, List.forall_mem_cons, Json.utf8_str, Json.utf8_bool, Json.utf8_arr,
    List.forall_mem_map, deviceProfileToJson_utf8, storedVersion_valid]
  constructor
  · rintro ⟨-, hactive, -, hprofiles, -⟩
    exact ⟨hactive, hprofiles⟩
  · rintro ⟨hactive, hprofiles⟩
    exact ⟨trivial, hactive, trivial, hprofiles, by simp⟩

/-! ## The numbers of the JSON -/

theorem accelArgsToJson_finite {a : AccelArgs} (h : a.Clean lim) : (accelArgsToJson a).Finite := by
  refine (Json.finite_object (accelArgsMembers_nodup a)).mpr ?_
  have hlut : ∀ p ∈ lutMembers a, p.2.Finite := by
    unfold lutMembers
    split_ifs
    · simp only [List.forall_mem_cons, Json.finite_arr, List.forall_mem_map, Json.finite_float,
        Json.finite_int]
      refine ⟨fun i hi => ?_, trivial, by simp⟩
      have hlt := List.mem_range.mp hi
      exact isFinite_convert binary32_sub_binary64 (h.lut.finite i (by omega))
    · simp
  simp only [accelArgsMembers, List.forall_mem_append, List.forall_mem_cons, Json.finite_str,
    Json.finite_bool, Json.finite_float, Json.finite_arr, h.inputOffset.finite,
    h.outputOffset.finite, h.acceleration_finite, h.decayRate.finite, h.gamma.finite,
    h.motivity.finite, h.exponentClassic.finite, h.scale.finite, h.exponentPower.finite,
    h.limit.finite, h.syncSpeed.finite, h.smooth.finite, h.capX.finite, h.capY.finite]
  exact ⟨by simp, hlut⟩

theorem profileToJsonObj_finite {p : Profile} (h : p.Clean lim) : (profileToJsonObj p).Finite := by
  have hspeed : (Json.object (speedArgsMembers p.speedProcessorArgs)).Finite :=
    (Json.finite_object (speedArgsMembers_nodup _)).mpr (by
      simp [speedArgsMembers, h.speedArgs.lpNorm_finite, h.speedArgs.inputHalflife.finite,
        h.speedArgs.scaleHalflife.finite, h.speedArgs.outputHalflife.finite])
  refine (Json.finite_object (profileMembers_nodup p)).mpr ?_
  simp [profileMembers, accelArgsToJson_finite h.accelX, accelArgsToJson_finite h.accelY, hspeed,
    h.rotation.finite, h.snap.finite, h.outputDpi.within.finite, h.lrRatio.finite,
    h.udRatio.finite, h.yxRatio.finite, h.speeds.speedMin.finite, h.speeds.speedMax.finite,
    h.domainX.finite, h.domainY.finite, h.rangeX.finite, h.rangeY.finite]

theorem deviceProfileToJson_finite {dp : DeviceProfile} (h : dp.Clean lim) :
    (deviceProfileToJson dp).Finite := by
  refine (Json.finite_object (deviceProfileMembers_nodup dp)).mpr ?_
  unfold deviceProfileMembers matchAppMembers
  split_ifs <;> simp [profileToJsonObj_finite h.prof]

theorem appConfigToJsonObj_finite {cfg : AppConfig} (h : ∀ dp ∈ cfg.profiles, dp.Clean lim) :
    (appConfigToJsonObj cfg).Finite := by
  refine (Json.finite_object (appConfigMembers_nodup cfg)).mpr ?_
  simpa [appConfigMembers] using fun dp hdp => deviceProfileToJson_finite (h dp hdp)

/-! ## The integers of the JSON -/

theorem IsInt.representable {z : ℤ} (h : IsInt z) : (Json.int z).Representable := by
  unfold IsInt intMin intMax at h
  exact Json.representable_int.mpr ⟨by omega, by omega⟩

theorem accelArgsToJson_representable {a : AccelArgs} (h : IsInt a.length) :
    (accelArgsToJson a).Representable := by
  refine Json.Representable.object ?_
  have hlut : ∀ p ∈ lutMembers a, p.2.Representable := by
    unfold lutMembers
    split_ifs
    · simp only [List.forall_mem_cons, Json.representable_arr, List.forall_mem_map, h.representable]
      simp
    · simp
  simp only [accelArgsMembers, List.forall_mem_append, List.forall_mem_cons,
    Json.representable_str, Json.representable_bool, Json.representable_float,
    Json.representable_arr]
  exact ⟨by simp, hlut⟩

theorem deviceProfileToJson_representable {dp : DeviceProfile} (h : dp.HasInts) :
    (deviceProfileToJson dp).Representable := by
  have hspeed : (Json.object (speedArgsMembers dp.prof.speedProcessorArgs)).Representable :=
    Json.Representable.object (by simp [speedArgsMembers])
  have hprof : (profileToJsonObj dp.prof).Representable := by
    refine Json.Representable.object ?_
    simp [profileMembers, accelArgsToJson_representable h.lengthX,
      accelArgsToJson_representable h.lengthY, hspeed]
  refine Json.Representable.object ?_
  unfold deviceProfileMembers matchAppMembers
  split_ifs <;>
    simp only [List.forall_mem_append, List.forall_mem_cons, Json.representable_str,
      Json.representable_bool, hprof, h.dpi.representable, h.pollingRate.representable] <;> simp

/-- **The JSON of a configuration is a value of the library**, and so it reads back. -/
theorem appConfigToJsonObj_representable {cfg : AppConfig}
    (h : ∀ dp ∈ cfg.profiles, dp.HasInts) : (appConfigToJsonObj cfg).Representable := by
  refine Json.Representable.object ?_
  simpa [appConfigMembers] using fun dp hdp => deviceProfileToJson_representable (h dp hdp)

theorem DeviceProfile.Clean.hasInts {dp : DeviceProfile} (h : dp.Clean lim) : dp.HasInts := by
  have hlength : ∀ {a : AccelArgs}, a.CleanLut → IsInt a.length := by
    intro a ha
    have hle := ha.length_le
    have hnonneg := ha.length_nonneg
    unfold lutRawDataCapacity at hle
    unfold IsInt intMin intMax
    omega
  obtain ⟨hdpi, hdpi', hrate, hrate'⟩ := h.devCfg
  unfold pollRateMin at hrate
  unfold pollRateMax at hrate'
  refine ⟨?_, ?_, hlength h.prof.accelX.lut, hlength h.prof.accelY.lut⟩
  · unfold IsInt intMin intMax
    omega
  · unfold IsInt intMin intMax
    omega

/-! ## Writing -/

/-- **A push text can be made exactly of an encodable configuration.** -/
theorem appConfigToJson_ok_iff {cfg : AppConfig} :
    (∃ t, appConfigToJson J cfg = .ok t) ↔ cfg.Encodable := by
  rw [← appConfigToJsonObj_utf8, ← J.dump_ok_iff (i := none)]
  unfold appConfigToJson dumpJson
  cases J.dump none (appConfigToJsonObj cfg) <;> simp [Except.mapError]

variable (lim) in
/-- Sanitizing changes no string. -/
theorem sanitizeConfig_encodable {cfg : AppConfig} :
    (sanitizeConfig lim cfg).Encodable ↔ cfg.Encodable := by
  constructor
  · rintro ⟨hactive, hprofiles⟩
    refine ⟨hactive, fun dp hdp => ?_⟩
    obtain ⟨hname, hid, happ, hprof⟩ := hprofiles _ (List.mem_map_of_mem hdp)
    exact ⟨hname, hid, happ, hprof⟩
  · rintro ⟨hactive, hprofiles⟩
    refine ⟨hactive, List.forall_mem_map.mpr fun dp hdp => ?_⟩
    obtain ⟨hname, hid, happ, hprof⟩ := hprofiles dp hdp
    exact ⟨hname, hid, happ, hprof⟩

/-- **A file can be written exactly of an encodable configuration** of at most
`maxProfilesFile` profiles. -/
theorem savedContent_ok_iff {cfg : AppConfig} :
    (∃ t, savedContent J lim cfg = .ok t) ↔
      cfg.profiles.length ≤ maxProfilesFile ∧ cfg.Encodable := by
  rw [← sanitizeConfig_encodable lim, ← appConfigToJsonObj_utf8,
    ← J.dump_ok_iff (i := some 4)]
  unfold savedContent dumpJson
  by_cases hlen : cfg.profiles.length > maxProfilesFile
  · simp [hlen, Nat.not_le.mpr hlen, bind, Except.bind, throw, throwThe, MonadExceptOf.throw]
  · cases J.dump (some 4) (appConfigToJsonObj (sanitizeConfig lim cfg)) <;>
      simp [hlen, Nat.not_lt.mp hlen, bind, Except.bind, Except.mapError, pure, Except.pure]

end AbrekMouse
