import AbrekMouse.Clean
import AbrekMouse.ConfigStore

/-! # Reading back what was written

The object of a clean record is read back as that record, field by field.  Of a
lookup table only the slots in use are written, so the table is read back with zeros
past its length (`AccelArgs.trim`).

The results go up the records: a curve (`accelArgsFromJson_toJson`), a profile
(`profileFromJsonObj_toJson`), a device profile, and the list of profiles.
-/
namespace AbrekMouse
open ProgLib ProgLib.Fp ProgLib.PairSort
variable {lim : Limits}

/-! ## Fields -/

section Fields
variable {j : Json} {key : String}

theorem boolField_bool {b dflt : Bool} (h : j.get? key = some (.bool b)) :
    boolField j key dflt = b := by
  simp only [boolField, h, boolFromJsonLenient]

theorem numberField_float {x dflt : Double} (h : j.get? key = some (.float x)) :
    numberField j key dflt = x := by
  simp only [numberField, h, Json.isNumber, Json.double, if_true]

theorem requireNumber_float {x dflt : Double} (h : j.get? key = some (.float x))
    (hx : x.isFinite = true) : requireNumber j key dflt = .ok x := by
  simp only [requireNumber, h, Json.isNumber, Json.double, hx, Bool.not_true, Bool.false_eq_true,
    if_false]

theorem weightsField_pair {x y : Double} {dflt : Vec2d}
    (h : j.get? key = some (.arr [.float x, .float y])) : weightsField j key dflt = ⟨x, y⟩ := by
  simp only [weightsField, h, numberOr, Json.isNumber, Json.double, if_true]

theorem capField_pair {x y : Double} {dflt : Vec2d}
    (h : j.get? "cap" = some (.arr [.float x, .float y])) : capField j dflt = ⟨x, y⟩ := by
  simp only [capField, h, numberOr, Json.isNumber, Json.double, if_true]

/-- A written mode is one of the names that are accepted, and the name of itself. -/
theorem modeField_modeToStr {m dflt : AccelMode}
    (h : j.get? "mode" = some (.str (modeToStr m))) : modeField j dflt = .ok m := by
  have hname : modeToStr m ∈ validModes ∧ strToMode (modeToStr m) = m := by
    cases m <;> decide
  simp only [modeField, h, if_pos hname.1, hname.2]

theorem capModeField_capToStr {m dflt : CapMode}
    (h : j.get? "cap_mode" = some (.str (capToStr m))) : capModeField j dflt = .ok m := by
  have hname : ¬(capToStr m ≠ bytes "in" ∧ capToStr m ≠ bytes "out" ∧ capToStr m ≠ bytes "io") ∧
      strToCap (capToStr m) = m := by
    cases m <;> decide
  simp only [capModeField, h, if_neg hname.1, hname.2]

/-- A string within its cap is read as it is. -/
theorem stringField_str {s fallback dflt : Bytes} {maxlen : ℕ} (h : j.get? key = some (.str s))
    (hlen : s.length ≤ maxlen) : stringField j key fallback dflt maxlen = s := by
  simp only [stringField, h, jsonGetStringLimited, if_neg (Nat.not_lt.mpr hlen)]

/-- A small integer passes through the `double` unchanged. -/
theorem jsonGetIntSafe_of_double {v : Json} {z fallback : ℤ} (hnumber : v.isNumber = true)
    (hv : v.double = ofInt z) (h0 : 0 ≤ z) (hz : z < intMax) : jsonGetIntSafe v fallback = z := by
  unfold intMax at hz
  have habs : z.natAbs < 2 ^ binary64.prec := by
    show z.natAbs < 2 ^ 53
    omega
  have hmin : intMin.natAbs < 2 ^ binary64.prec := by decide
  have hmax : intMax.natAbs < 2 ^ binary64.prec := by decide
  have hlow : ¬(ofInt z : Double) < ofInt intMin := by
    rw [ofInt_lt_iff habs hmin]
    unfold intMin
    omega
  have hhigh : ¬(ofInt z : Double) ≥ ofInt intMax := by
    have hlt : (ofInt z : Double) < ofInt intMax := (ofInt_lt_iff habs hmax).mpr hz
    rw [ge_iff_le, le_iff_key (isFinite_ofInt hmax) (isFinite_ofInt habs)]
    have := hlt.2.2
    omega
  simp only [jsonGetIntSafe, hnumber, hv, isFinite_ofInt habs, if_neg hlow, if_neg hhigh,
    trunc_ofInt habs, Bool.not_true, Bool.false_eq_true, if_false]

theorem intField_int {z fallback dflt : ℤ} (h : j.get? key = some (.int z)) (h0 : 0 ≤ z)
    (hz : z < intMax) : intField j key fallback dflt = z := by
  unfold intField
  rw [h]
  exact jsonGetIntSafe_of_double rfl rfl h0 hz

end Fields

/-! ## The lookup table -/

/-- The table with zeros in the slots that are not in use. -/
def AccelArgs.trimData (a : AccelArgs) : Vector Single lutRawDataCapacity :=
  a.data.mapIdx fun i v => if (i : ℤ) < a.length then v else 0

def AccelArgs.trim (a : AccelArgs) : AccelArgs := { a with data := a.trimData }

theorem rd_trim (a : AccelArgs) {i : ℕ} (hi : i < lutRawDataCapacity) :
    rd a.trim.data i = if (i : ℤ) < a.length then rd a.data i else 0 := by
  unfold AccelArgs.trim AccelArgs.trimData
  simp [rd, hi]

theorem neg_fltHi : -fltHi = convert (-maxFinite : Single) :=
  (convert_neg binary32_sub_binary64 isFinite_maxFinite).symm

/-- A finite slot is written as a `double` and read back as it was. -/
theorem lutSlot_float {v : Single} (hv : v.isFinite = true) :
    lutSlot (.float (convert v)) = v := by
  have hw : (convert v : Double).isFinite = true := isFinite_convert binary32_sub_binary64 hv
  have hhigh : ¬(convert v : Double) > fltHi := by
    unfold fltHi
    rw [gt_iff_lt, convert_lt_iff binary32_sub_binary64 isFinite_maxFinite hv]
    exact not_maxFinite_lt hv
  have hlow : ¬(convert v : Double) < -fltHi := by
    rw [neg_fltHi, convert_lt_iff binary32_sub_binary64 hv isFinite_neg_maxFinite]
    exact not_lt_neg_maxFinite hv
  simp only [lutSlot, Json.isNumber, Json.double, if_true, finiteOr_of_finite hw,
    ceilAt_of_not_gt hhigh, floorAt_of_not_lt hlow]
  exact convert_convert binary32_sub_binary64 v

/-- A length within the capacity is not clamped. -/
theorem ofInt_lutLength {z : ℤ} (h0 : 0 ≤ z) (hz : z ≤ lutRawDataCapacity) :
    (¬(!(ofInt z : Double).isFinite ∨ (ofInt z : Double) < 0)) ∧
      (¬(ofInt z : Double) > ofInt lutRawDataCapacity) ∧ (ofInt z : Double).trunc = z := by
  unfold lutRawDataCapacity at hz
  have habs : z.natAbs < 2 ^ binary64.prec := by
    show z.natAbs < 2 ^ 53
    omega
  have hcap : (lutRawDataCapacity : ℤ).natAbs < 2 ^ binary64.prec := by decide
  have hzero : (0 : Double) = ofInt 0 := rfl
  refine ⟨?_, ?_, trunc_ofInt habs⟩
  · rw [isFinite_ofInt habs, hzero, ofInt_lt_iff habs (by decide)]
    simpa using h0
  · rw [gt_iff_lt, ofInt_lt_iff hcap habs]
    unfold lutRawDataCapacity
    omega

/-- A length within the capacity is read as it is. -/
theorem lutLength_int {j : Json} {z : ℤ} {size : ℕ} (h : j.get? "lut_length" = some (.int z))
    (h0 : 0 ≤ z) (hz : z ≤ lutRawDataCapacity) : lutLength j size = z := by
  obtain ⟨hlow, hhigh, htrunc⟩ := ofInt_lutLength h0 hz
  simp only [lutLength, h, Json.isNumber, Json.double, if_true, if_neg hlow, if_neg hhigh, htrunc]

/-! ## Curves -/

theorem accelArgsToJson_get? (a : AccelArgs) :
    ∀ p ∈ accelArgsMembers a, (accelArgsToJson a).get? p.1 = some p.2 :=
  Json.get?_object (accelArgsMembers_nodup a)

/-- The table of a written curve is read into the default table. -/
theorem lutFields_toJson {a b : AccelArgs} (h : a.CleanLut) (heven : a.length % 2 = 0)
    (hdata : b.data = .replicate lutRawDataCapacity 0) (hlen : b.length = 0) :
    lutFields (accelArgsToJson a) b = { b with data := a.trim.data, length := a.length } := by
  have h0 := h.length_nonneg
  have hcap := h.length_le
  rcases eq_or_lt_of_le h0 with hzero | hpos
  · -- an empty table is not written, and the default table is its trimmed one
    have hnone : (accelArgsToJson a).get? "lut_data" = none := by
      refine Json.get?_object_of_notMem (accelArgsMembers_nodup a) ?_
      simp [accelArgsMembers, lutMembers, ← hzero]
    have htrim : a.trim.data = b.data := by
      refine ext_rd fun i hi => ?_
      rw [rd_trim a hi, if_neg (by omega), hdata]
      simp [rd, hi]
    simp only [lutFields, hnone, htrim, ← hzero, ← hlen]
  · have hsize : min a.length.toNat lutRawDataCapacity = a.length.toNat := by omega
    have hget : ∀ p ∈ lutMembers a, (accelArgsToJson a).get? p.1 = some p.2 := fun p hp =>
      accelArgsToJson_get? a p (List.mem_append_right _ hp)
    simp only [lutMembers, gt_iff_lt, hpos, if_true, hsize, List.forall_mem_cons] at hget
    obtain ⟨hpts, hlen_get, -⟩ := hget
    have hlength : ∀ size, lutLength (accelArgsToJson a) size = a.length := fun size =>
      lutLength_int hlen_get h0 hcap
    have hread : (List.range a.length.toNat).foldl (fun d i => wr d i (lutSlot
        (((List.range a.length.toNat).map fun i => Json.float (convert (rd a.data i))).getD i
          .null))) b.data = a.trim.data := by
      refine ext_rd fun i hi => ?_
      rw [rd_foldl_wr (fun i _ => lutSlot
        (((List.range a.length.toNat).map fun i => Json.float (convert (rd a.data i))).getD i
          .null)), rd_trim a hi]
      by_cases hlt : i < a.length.toNat
      · have hslot : ((List.range a.length.toNat).map
            fun i => Json.float (convert (rd a.data i))).getD i .null =
            .float (convert (rd a.data i)) := by
          simp [List.getD_eq_getElem?_getD, hlt]
        rw [if_pos ⟨hlt, hi⟩, if_pos (by omega), hslot, lutSlot_float (h.finite i hlt)]
      · rw [if_neg (by omega), if_neg (by omega), hdata]
        simp [rd, hi]
    have hpairs : (a.length.toNat : ℤ) / 2 * 2 = a.length := by omega
    simp only [lutFields, hpts, hlength, List.length_map, List.length_range, min_self, hread,
      hpairs]

/-- The numbers of a written curve are read back, whatever its table. -/
theorem accelArgsFromJson_written {a : AccelArgs} (h : a.Clean lim) :
    accelArgsFromJson (accelArgsToJson a) =
      .ok (lutFields (accelArgsToJson a)
        { a with data := .replicate lutRawDataCapacity 0, length := 0 }) := by
  have hget := accelArgsToJson_get? a
  simp only [accelArgsMembers, List.forall_mem_append, List.forall_mem_cons] at hget
  obtain ⟨⟨hmode, hgain, hinputOffset, houtputOffset, hacceleration, hdecayRate, hgamma, hmotivity,
    hexponentClassic, hscale, hexponentPower, hlimit, hsyncSpeed, hsmooth, hcap, hcapMode, -⟩, -⟩ :=
    hget
  unfold accelArgsFromJson
  simp only [modeField_modeToStr hmode, boolField_bool hgain,
    requireNumber_float hinputOffset h.inputOffset.finite,
    requireNumber_float houtputOffset h.outputOffset.finite,
    requireNumber_float hacceleration h.acceleration_finite,
    requireNumber_float hdecayRate h.decayRate.finite,
    requireNumber_float hgamma h.gamma.finite,
    requireNumber_float hmotivity h.motivity.finite,
    requireNumber_float hexponentClassic h.exponentClassic.finite,
    requireNumber_float hscale h.scale.finite,
    requireNumber_float hexponentPower h.exponentPower.finite,
    requireNumber_float hlimit h.limit.finite,
    requireNumber_float hsyncSpeed h.syncSpeed.finite,
    requireNumber_float hsmooth h.smooth.finite,
    capField_pair hcap, capModeField_capToStr hcapMode, bind, Except.bind, pure, Except.pure]

/-- **A written curve is read back**, with its table trimmed. -/
theorem accelArgsFromJson_toJson {a : AccelArgs} (h : a.Clean lim) (heven : a.length % 2 = 0) :
    accelArgsFromJson (accelArgsToJson a) = .ok a.trim := by
  rw [accelArgsFromJson_written h, lutFields_toJson h.lut heven rfl rfl]
  rfl

/-- Another clean table keeps a clean curve clean. -/
theorem AccelArgs.Clean.withData {a : AccelArgs} {d : Vector Single lutRawDataCapacity}
    (h : a.Clean lim) (hlut : AccelArgs.CleanLut { a with data := d }) :
    AccelArgs.Clean lim { a with data := d } :=
  { h with lut := hlut }

/-- Trimming a clean curve keeps it clean. -/
theorem AccelArgs.Clean.trim {a : AccelArgs} (h : a.Clean lim) : a.trim.Clean lim := by
  have hslot : ∀ i < a.length.toNat, rd a.trim.data i = rd a.data i := fun i hi => by
    have hcap := h.lut.length_le
    rw [rd_trim a (by omega), if_pos (by omega)]
  have hlut : a.trim.CleanLut := by
    have hpts : a.trim.points = a.points := rfl
    have hle := points_le a
    refine ⟨h.lut.length_nonneg, h.lut.length_le, fun i hi => ?_, fun i j hij hj => ?_⟩
    · rw [hslot i hi]
      exact h.lut.finite i hi
    · rw [hpts] at hj
      rw [hslot _ (by omega), hslot _ (by omega)]
      exact h.lut.sorted i j hij hj
  exact h.withData hlut

/-! ## Profiles -/

def Profile.trim (p : Profile) : Profile :=
  { p with accelX := p.accelX.trim, accelY := p.accelY.trim }

/-- Other clean curves keep a clean profile clean. -/
theorem Profile.Clean.withCurves {p : Profile} {x y : AccelArgs} (h : p.Clean lim)
    (hx : x.Clean lim) (hy : y.Clean lim) :
    Profile.Clean lim { p with accelX := x, accelY := y } :=
  { h with
    speeds := ⟨h.speeds.speedMin, h.speeds.speedMax, h.speeds.ordered⟩
    accelX := hx
    accelY := hy }

theorem Profile.Clean.trim {p : Profile} (h : p.Clean lim) : p.trim.Clean lim :=
  h.withCurves h.accelX.trim h.accelY.trim

/-- The tables of a profile are made of whole points. -/
def Profile.Even (p : Profile) : Prop := p.accelX.length % 2 = 0 ∧ p.accelY.length % 2 = 0

theorem profileToJsonObj_get? (p : Profile) :
    ∀ q ∈ profileMembers p, (profileToJsonObj p).get? q.1 = some q.2 :=
  Json.get?_object (profileMembers_nodup p)

theorem speedArgsField_toJson {j : Json} {sp dflt : SpeedArgs}
    (h : j.get? "speed_processor" = some (.object (speedArgsMembers sp))) :
    speedArgsField j dflt = sp := by
  have hget := Json.get?_object (speedArgsMembers_nodup sp)
  have hobj : (Json.object (speedArgsMembers sp)).isObject = true := rfl
  revert hget hobj h
  generalize Json.object (speedArgsMembers sp) = v
  intro h hget hobj
  simp only [speedArgsMembers, List.forall_mem_cons] at hget
  obtain ⟨hwhole, hnorm, hinput, hscale, houtput, -⟩ := hget
  simp only [speedArgsField, h, hobj, if_true, boolField_bool hwhole, numberField_float hnorm,
    numberField_float hinput, numberField_float hscale, numberField_float houtput]

theorem accelField_toJson {j : Json} {key : String} {a dflt : AccelArgs}
    (h : j.get? key = some (accelArgsToJson a)) (hclean : a.Clean lim)
    (heven : a.length % 2 = 0) : accelField j key dflt = .ok a.trim := by
  have hobj : (accelArgsToJson a).isObject = true := rfl
  simp only [accelField, h, hobj, if_true]
  exact accelArgsFromJson_toJson hclean heven

/-- **A written profile is read back.** -/
theorem profileFromJsonObj_toJson {p : Profile} (h : p.Clean lim) (heven : p.Even) :
    profileFromJsonObj (profileToJsonObj p) = .ok p.trim := by
  have hget := profileToJsonObj_get? p
  simp only [profileMembers, List.forall_mem_cons] at hget
  obtain ⟨hchars, hraw, hdomain, hrange, haccelX, haccelY, hdpi, hyx, hrotation, hsnap, hmin, hmax,
    hlr, hud, hspeed, -⟩ := hget
  have hname : ∀ dflt, nameField (profileToJsonObj p) dflt = p.name := fun dflt => by
    simp only [nameField, hchars, CString.copy_chars]
  unfold profileFromJsonObj
  simp only [accelField_toJson haccelX h.accelX heven.1, accelField_toJson haccelY h.accelY heven.2,
    hname, boolField_bool hraw, weightsField_pair hdomain, weightsField_pair hrange,
    numberField_float hdpi, numberField_float hyx, numberField_float hrotation,
    numberField_float hsnap, numberField_float hmin, numberField_float hmax,
    numberField_float hlr, numberField_float hud, speedArgsField_toJson hspeed,
    bind, Except.bind, pure, Except.pure]
  rfl

/-! ## Device profiles -/

def DeviceProfile.trim (dp : DeviceProfile) : DeviceProfile := { dp with prof := dp.prof.trim }

theorem DeviceProfile.Clean.trim {dp : DeviceProfile} (h : dp.Clean lim) : dp.trim.Clean lim :=
  ⟨h.devCfg, h.prof.trim⟩

/-- The strings of a profile are within the caps of the reader, and its device id is
not one that the reader takes for "every device". -/
structure DeviceProfile.Capped (dp : DeviceProfile) : Prop where
  name : dp.name.length ≤ maxNameLen
  deviceId : dp.deviceId.length ≤ maxDpDeviceId
  matchApp : dp.matchApp.length ≤ maxMatchApp
  not_alias : dp.deviceId ∉ allDevicesAliases

theorem deviceProfileToJson_get? (dp : DeviceProfile) :
    ∀ p ∈ deviceProfileMembers dp, (deviceProfileToJson dp).get? p.1 = some p.2 :=
  Json.get?_object (deviceProfileMembers_nodup dp)

/-- An empty application filter is not written, and absent it is read as empty. -/
theorem matchApp_toJson {dp : DeviceProfile} (h : dp.matchApp.length ≤ maxMatchApp) :
    stringField (deviceProfileToJson dp) "match_app" [] [] maxMatchApp = dp.matchApp := by
  by_cases hempty : dp.matchApp = []
  · have hnone : (deviceProfileToJson dp).get? "match_app" = none := by
      refine Json.get?_object_of_notMem (deviceProfileMembers_nodup dp) ?_
      simp [deviceProfileMembers, matchAppMembers, hempty]
    simp only [stringField, hnone, hempty]
  · refine stringField_str (deviceProfileToJson_get? dp ("match_app", .str dp.matchApp) ?_) h
    simp [deviceProfileMembers, matchAppMembers, hempty]

/-- **A written device profile is read back.** -/
theorem deviceProfileFromJson_toJson {dp : DeviceProfile} (h : dp.Clean lim) (hcap : dp.Capped)
    (heven : dp.prof.Even) : deviceProfileFromJson lim (deviceProfileToJson dp) = .ok dp.trim := by
  have hget := deviceProfileToJson_get? dp
  simp only [deviceProfileMembers, List.forall_mem_append, List.forall_mem_cons] at hget
  obtain ⟨⟨⟨hname, hid, -⟩, -⟩, hdpi, hrate, hdisable, hprofile, -⟩ := hget
  have hprof : ∀ dflt, profField (deviceProfileToJson dp) dflt = .ok dp.prof.trim := by
    intro dflt
    have hobj : (profileToJsonObj dp.prof).isObject = true := rfl
    simp only [profField, hprofile, hobj, if_true]
    exact profileFromJsonObj_toJson h.prof heven
  have hdpi_ge := h.devCfg.dpi_ge
  have hdpi_le := h.devCfg.dpi_le
  have hrate_ge := h.devCfg.pollingRate_ge
  have hrate_le := h.devCfg.pollingRate_le
  unfold pollRateMin at hrate_ge
  unfold pollRateMax at hrate_le
  have hmax : (32000 : ℤ) < intMax := by decide
  unfold deviceProfileFromJson
  simp only [hprof, intField_int hdpi (by omega) (by omega),
    intField_int hrate (by omega) (by omega), boolField_bool hdisable,
    stringField_str hid hcap.deviceId, stringField_str hname hcap.name,
    matchApp_toJson hcap.matchApp, if_neg hcap.not_alias, bind, Except.bind, pure, Except.pure]
  exact congrArg Except.ok (sanitizeDeviceProfile_of_clean h.trim)

/-- **A written list of profiles is read back** where it fits the cap. -/
theorem readProfiles_toJson {maxProfiles size : ℕ} {dps : List DeviceProfile}
    (h : ∀ dp ∈ dps, dp.Clean lim ∧ dp.Capped ∧ dp.prof.Even) :
    ∀ done : List DeviceProfile, done.length + dps.length ≤ maxProfiles →
      readProfiles lim maxProfiles size done (dps.map deviceProfileToJson) =
        .ok (done ++ dps.map DeviceProfile.trim) := by
  induction dps with
  | nil =>
      intro done _
      simp [readProfiles]
  | cons dp dps ih =>
      intro done hlen
      obtain ⟨hclean, hcap, heven⟩ := h dp (by simp)
      have hobj : (deviceProfileToJson dp).isObject = true := rfl
      rw [List.length_cons] at hlen
      rw [List.map_cons, readProfiles, hobj, if_neg (by simp), if_neg (by omega)]
      simp only [deviceProfileFromJson_toJson hclean hcap heven, bind, Except.bind]
      rw [ih (fun q hq => h q (by simp [hq])) _ (by simp; omega)]
      simp

/-! ## The configuration -/

/-- **A written configuration is read back**, with the version that was written. -/
theorem appConfigFromJsonObj_toJson {cfg : AppConfig} {maxProfiles : ℕ}
    (hactive : cfg.activeProfile.length ≤ maxNameLen)
    (hlen : cfg.profiles.length ≤ maxProfiles)
    (h : ∀ dp ∈ cfg.profiles, dp.Clean lim ∧ dp.Capped ∧ dp.prof.Even) :
    appConfigFromJsonObj lim (appConfigToJsonObj cfg) maxProfiles =
      .ok { cfg with version := storedVersion cfg.version
                     profiles := cfg.profiles.map DeviceProfile.trim } := by
  have hget : ∀ p ∈ appConfigMembers cfg, (appConfigToJsonObj cfg).get? p.1 = some p.2 :=
    Json.get?_object (appConfigMembers_nodup cfg)
  simp only [appConfigMembers, List.forall_mem_cons] at hget
  obtain ⟨hversion, hname, hraw, hlist, -⟩ := hget
  have hprofiles : profilesField lim (appConfigToJsonObj cfg) maxProfiles =
      .ok (cfg.profiles.map DeviceProfile.trim) := by
    simp only [profilesField, hlist, Json.isArray, Json.isNull, Json.elems, Bool.not_true,
      Bool.false_eq_true, false_and, if_false]
    simpa using readProfiles_toJson h [] (by simpa using hlen)
  have hobj : (appConfigToJsonObj cfg).isObject = true := rfl
  unfold appConfigFromJsonObj
  simp only [hobj, Bool.not_true, Bool.false_eq_true, false_and, if_false, hprofiles, versionField,
    hversion, stringField_str hname hactive, boolField_bool hraw, bind, Except.bind, pure,
    Except.pure]

/-! ## The names

Of a written configuration the names are read back even where its other strings are longer
than the caps, or its tables are not made of whole points. -/

theorem accelField_written {j : Json} {key : String} {a : AccelArgs}
    (h : j.get? key = some (accelArgsToJson a)) (hclean : a.Clean lim) (dflt : AccelArgs) :
    ∃ b, accelField j key dflt = .ok b := by
  have hobj : (accelArgsToJson a).isObject = true := rfl
  simp only [accelField, h, hobj, if_true]
  exact ⟨_, accelArgsFromJson_written hclean⟩

theorem profField_written {dp : DeviceProfile} (h : dp.prof.Clean lim) (dflt : Profile) :
    ∃ p, profField (deviceProfileToJson dp) dflt = .ok p := by
  have hget := deviceProfileToJson_get? dp ("profile", profileToJsonObj dp.prof)
    (by simp [deviceProfileMembers])
  have hmem := profileToJsonObj_get? dp.prof
  simp only [profileMembers, List.forall_mem_cons] at hmem
  obtain ⟨-, -, -, -, haccelX, haccelY, -⟩ := hmem
  obtain ⟨x, hx⟩ := accelField_written haccelX h.accelX ({} : Profile).accelX
  obtain ⟨y, hy⟩ := accelField_written haccelY h.accelY ({} : Profile).accelY
  have hobj : (profileToJsonObj dp.prof).isObject = true := rfl
  simp only [profField, hget, hobj, if_true]
  unfold profileFromJsonObj
  simp only [hx, hy, bind, Except.bind, pure, Except.pure]
  exact ⟨_, rfl⟩

theorem deviceProfileFromJson_name {dp : DeviceProfile} (h : dp.Clean lim)
    (hname : dp.name.length ≤ maxNameLen) :
    ∃ dq, deviceProfileFromJson lim (deviceProfileToJson dp) = .ok dq ∧ dq.name = dp.name := by
  obtain ⟨p, hp⟩ := profField_written h.prof ({} : DeviceProfile).prof
  have hget := deviceProfileToJson_get? dp ("name", .str dp.name) (by simp [deviceProfileMembers])
  unfold deviceProfileFromJson
  simp only [hp, stringField_str hget hname, bind, Except.bind, pure, Except.pure]
  exact ⟨_, rfl, rfl⟩

theorem readProfiles_names {maxProfiles size : ℕ} {dps : List DeviceProfile}
    (h : ∀ dp ∈ dps, dp.Clean lim ∧ dp.name.length ≤ maxNameLen) :
    ∀ done : List DeviceProfile, done.length + dps.length ≤ maxProfiles →
      ∃ read, readProfiles lim maxProfiles size done (dps.map deviceProfileToJson) = .ok read ∧
        read.map (·.name) = (done ++ dps).map (·.name) := by
  induction dps with
  | nil =>
      intro done _
      exact ⟨done, rfl, by rw [List.append_nil]⟩
  | cons dp dps ih =>
      intro done hlen
      obtain ⟨hclean, hname⟩ := h dp List.mem_cons_self
      obtain ⟨dq, hdq, hsame⟩ := deviceProfileFromJson_name hclean hname
      have hobj : (deviceProfileToJson dp).isObject = true := rfl
      rw [List.length_cons] at hlen
      rw [List.map_cons, readProfiles, hobj, if_neg (by simp), if_neg (by omega)]
      simp only [hdq, bind, Except.bind]
      have hdone : (done ++ [dq]).length + dps.length ≤ maxProfiles := by
        rw [List.length_append, List.length_singleton]
        omega
      obtain ⟨read, hread, hnames⟩ :=
        ih (fun q hq => h q (List.mem_cons_of_mem _ hq)) (done ++ [dq]) hdone
      refine ⟨read, hread, hnames.trans ?_⟩
      rw [List.append_assoc, List.singleton_append, List.map_append, List.map_append,
        List.map_cons, List.map_cons, hsame]

/-- **The names of a written configuration are read back**, and so is its active profile. -/
theorem appConfigFromJsonObj_names {cfg : AppConfig} {maxProfiles : ℕ}
    (hactive : cfg.activeProfile.length ≤ maxNameLen)
    (hlen : cfg.profiles.length ≤ maxProfiles)
    (h : ∀ dp ∈ cfg.profiles, dp.Clean lim ∧ dp.name.length ≤ maxNameLen) :
    ∃ read, appConfigFromJsonObj lim (appConfigToJsonObj cfg) maxProfiles = .ok read ∧
      read.version = storedVersion cfg.version ∧
      read.activeProfile = cfg.activeProfile ∧
      read.profiles.map (·.name) = cfg.profiles.map (·.name) := by
  have hget : ∀ p ∈ appConfigMembers cfg, (appConfigToJsonObj cfg).get? p.1 = some p.2 :=
    Json.get?_object (appConfigMembers_nodup cfg)
  simp only [appConfigMembers, List.forall_mem_cons] at hget
  obtain ⟨hversion, hname, -, hlist, -⟩ := hget
  obtain ⟨read, hread, hnames⟩ : ∃ read,
      readProfiles lim maxProfiles cfg.profiles.length [] (cfg.profiles.map deviceProfileToJson) =
        .ok read ∧ read.map (·.name) = cfg.profiles.map (·.name) :=
    readProfiles_names h [] (by simpa using hlen)
  have hprofiles : profilesField lim (appConfigToJsonObj cfg) maxProfiles = .ok read := by
    simp only [profilesField, hlist, Json.isArray, Json.isNull, Json.elems, Bool.not_true,
      Bool.false_eq_true, false_and, if_false, List.length_map]
    exact hread
  have hobj : (appConfigToJsonObj cfg).isObject = true := rfl
  unfold appConfigFromJsonObj
  simp only [hobj, Bool.not_true, Bool.false_eq_true, false_and, if_false, hprofiles, versionField,
    hversion, stringField_str hname hactive, bind, Except.bind, pure, Except.pure]
  exact ⟨_, rfl, rfl, rfl, hnames⟩

end AbrekMouse
