import AbrekMouse.Import

/-! # Export and import

`export` prints profiles, one on each line, and `import` adds them to a configuration.  A text
holds a list of profile values in one of four shapes (`HoldsProfiles`), and what is imported
depends on the values alone: each is read, and its lookup curves are scaled once where the
version it carries, or else that of the wrapper, asks for it (`import_exported`).
-/
namespace AbrekMouse
open ProgLib
variable {Text : Type} (J : JsonLines Text) (lim : Limits)

/-! ## Export -/

/-- Why an export fails. -/
inductive ExportError
  | profileNotFound (name : Bytes)
  | dump (e : ConfigError)

/-- `profile_to_json`: one line. -/
def profileToJson (dp : DeviceProfile) : Except ConfigError Text :=
  dumpJson J.toJsonText none (deviceProfileToJson dp)

/-- The text of each profile, in their order. -/
def exportLines : List DeviceProfile → Except ConfigError (List Text)
  | [] => .ok []
  | dp :: dps => do
      let t ← profileToJson J dp
      let ts ← exportLines dps
      return t :: ts

/-- All profiles where no name is given, else the first one of the name. -/
def exportedProfiles (cfg : AppConfig) (name : Bytes) : Except ExportError (List DeviceProfile) :=
  if name = [] then .ok cfg.profiles
  else
    match cfg.profileNamed name with
    | some dp => .ok [dp]
    | none => .error (.profileNotFound name)

/-- The text that `cmd_export` prints. -/
def cmdExport (cfg : AppConfig) (name : Bytes) : Except ExportError Text := do
  let dps ← exportedProfiles cfg name
  let ts ← (exportLines J dps).mapError .dump
  return J.unlines ts

/-! ## The shapes of a text -/

/-- The text holds the profile values `js` in one of the shapes, with the wrapper around
them. -/
inductive HoldsProfiles (t : Text) : Option Json → List Json → Prop
  | single {j : Json} (parse : J.parse t = .ok j) (object : j.isObject = true)
      (noList : ∀ js, j.get? "profiles" ≠ some (.arr js)) : HoldsProfiles t none [j]
  | wrapper {j : Json} {js : List Json} (parse : J.parse t = .ok j)
      (list : j.get? "profiles" = some (.arr js)) : HoldsProfiles t (some j) js
  | array {j : Json} {js : List Json} (parse : J.parse t = .ok (.arr (j :: js)))
      (object : j.isObject = true) : HoldsProfiles t none (j :: js)
  | stream {e : Bytes} {js : List Json} (parse : J.parse t = .error e)
      (lines : (J.lines t).Forall₂ (fun line j => J.parse line = .ok j) js)
      (objects : ∀ j ∈ js, j.isObject = true) : HoldsProfiles t none js

/-- The version that decides: that of the profile, or else that of the wrapper. -/
def effectiveVersion (wrapper : Option Json) (j : Json) : Bytes :=
  if versionField j [] ≠ [] then versionField j [] else wrapperVersion wrapper

/-- Profiles that can be added to a configuration. -/
structure Addable (target : AppConfig) (dps : List DeviceProfile) : Prop where
  nonempty : dps ≠ []
  named : ∀ dp ∈ dps, dp.name ≠ []
  distinct : (dps.map (·.name)).Nodup
  fresh : ∀ dp ∈ dps, dp.name ∉ target.names
  room : target.profiles.length + dps.length ≤ maxProfiles

variable {J} {lim}

/-- The compact print of a value that was parsed, or could have been, is parsed back. -/
theorem parseJson_of_dump {j : Json} {t : Text} (hj : j.Printable) (h : J.dump none j = .ok t) :
    parseJson J.toJsonText t = .ok j := by
  unfold parseJson
  rw [J.parse_dump hj.representable h, Json.printed_of_finite hj.finite]
  rfl

/-- Values that can be printed are printed one by one, and each text holds its value. -/
theorem dumpElems_of_printable {js : List Json}
    (h : ∀ j ∈ js, j.Printable) :
    ∃ ts, dumpElems J js = (ts, true) ∧
      ts.Forall₂ (fun t j => parseJson J.toJsonText t = .ok j) js := by
  induction js with
  | nil => exact ⟨[], rfl, .nil⟩
  | cons j js ih =>
      obtain ⟨ts, hts, hall⟩ := ih fun j hj => h j (List.mem_cons_of_mem _ hj)
      have hj : j.Printable := h j List.mem_cons_self
      obtain ⟨t, ht⟩ := (J.dump_ok_iff (i := none)).mpr hj.utf8
      refine ⟨t :: ts, ?_, .cons (parseJson_of_dump hj ht) hall⟩
      rw [dumpElems, ht, hts]

theorem elemFragments_of_printable {t : Text} {w : Option Json} {js : List Json}
    (h : ∀ j ∈ js, j.Printable) :
    ∃ texts, elemFragments J t w js = .ok ⟨w, texts⟩ ∧
      texts.Forall₂ (fun fr j => parseJson J.toJsonText fr = .ok j) js := by
  obtain ⟨ts, hts, hall⟩ := dumpElems_of_printable h
  refine ⟨ts, ?_, hall⟩
  rw [elemFragments, hts]

theorem objectFragments_of_isObject {t : Text} {j : Json} (hparse : J.parse t = .ok j)
    (hobject : j.isObject = true) : importFragments J t = objectFragments J t j := by
  unfold importFragments
  rw [hparse]
  cases j with
  | obj ms => rfl
  | _ => cases hobject

/-- **The fragments of a text** are texts of the values that it holds, in order. -/
theorem HoldsProfiles.fragments {t : Text} {w : Option Json} {js : List Json}
    (h : HoldsProfiles J t w js) :
    ∃ texts, importFragments J t = .ok ⟨w, texts⟩ ∧
      texts.Forall₂ (fun fr j => parseJson J.toJsonText fr = .ok j) js := by
  have hread : ∀ {t : Text} {j : Json}, J.parse t = .ok j → parseJson J.toJsonText t = .ok j := by
    intro t j hparse
    unfold parseJson
    rw [hparse]
    rfl
  cases h with
  | @single j hparse hobject hnone =>
      refine ⟨[t], ?_, .cons (hread hparse) .nil⟩
      rw [objectFragments_of_isObject hparse hobject, objectFragments]
      split
      · exact absurd (by assumption) (hnone _)
      · rfl
  | @wrapper j js hparse hlist =>
      have hobject : j.isObject = true := by
        cases j with
        | obj ms => rfl
        | _ => cases hlist
      have hjs : (Json.arr js).Printable := (JsonLines.printable_of_parse hparse).get? hlist
      rw [objectFragments_of_isObject hparse hobject, objectFragments, hlist]
      exact elemFragments_of_printable fun _ => Json.printable_of_arr hjs
  | @array j js hparse hobject =>
      have hjs : (Json.arr (j :: js)).Printable := JsonLines.printable_of_parse hparse
      unfold importFragments
      rw [hparse]
      dsimp only
      rw [if_pos hobject]
      exact elemFragments_of_printable fun _ => Json.printable_of_arr hjs
  | @stream e js hparse hlines hobjects =>
      refine ⟨J.lines t, ?_, hlines.imp fun _ _ => hread⟩
      unfold importFragments
      rw [hparse]
      show streamFragments J t none [] = _
      unfold streamFragments
      refine if_pos (List.all_eq_true.mpr fun line hline => ?_)
      obtain ⟨i, hi⟩ := List.mem_iff_getElem?.mp hline
      obtain ⟨j, hj, hlinej⟩ := exists_getElem?_of_forall₂ hlines.flip hi
      rw [show J.parse line = .ok j from hlinej]
      exact hobjects j (List.mem_of_getElem? hj)

/-! ## What an import adds -/

/-- The texts of values give a batch just when the values do. -/
theorem forall₂_taken_iff {existing : List Bytes} {texts : List Text} {js : List Json}
    (h : texts.Forall₂ (fun fr j => parseJson J.toJsonText fr = .ok j) js)
    {batch : List (DeviceProfile × Bytes)} :
    texts.Forall₂ (fun fr p => ∃ raw, parseJson J.toJsonText fr = .ok raw ∧
      Taken lim existing raw p) batch ↔ js.Forall₂ (Taken lim existing) batch := by
  induction h generalizing batch with
  | nil => exact ⟨fun h => by cases h; exact .nil, fun h => by cases h; exact .nil⟩
  | @cons fr j texts js hparse _ ih =>
      cases batch with
      | nil => exact ⟨nofun, nofun⟩
      | cons p batch =>
          rw [List.forall₂_cons, List.forall₂_cons, ih]
          refine and_congr_left fun _ => ⟨?_, fun htaken => ⟨j, hparse, htaken⟩⟩
          rintro ⟨raw, hraw, htaken⟩
          obtain rfl : raw = j := Except.ok.inj (hraw.symm.trans hparse)
          exact htaken

/-- The profile that is added for one of a batch. -/
def addedProfile (lim : Limits) (wrapper : Option Json) (p : DeviceProfile × Bytes) :
    DeviceProfile :=
  migrateImported lim (if p.2 ≠ [] then p.2 else wrapperVersion wrapper) p.1

theorem fallbackActive_profiles (cfg : AppConfig) :
    (fallbackActive cfg).profiles = cfg.profiles := by
  unfold fallbackActive
  split_ifs
  · rfl
  · rfl

theorem applyWrapper_profiles (cfg : AppConfig) (w : Option Json) :
    (applyWrapper cfg w).profiles = cfg.profiles := by
  unfold applyWrapper
  split <;> rfl

/-- **What is imported** is a matter of the values that the text holds. -/
theorem importEdit_eq_ok_iff {t : Text} {w : Option Json} {js : List Json}
    (h : HoldsProfiles J t w js) {cfg cfg' : AppConfig} :
    importEdit J lim cfg (some t) = .ok cfg' ↔
      J.size t ≤ importMax ∧ js ≠ [] ∧ ∃ batch, js.Forall₂ (Taken lim cfg.names) batch ∧
        (batchNames batch).Nodup ∧ cfg.profiles.length + batch.length ≤ maxProfiles ∧
        cfg' = fallbackActive { applyWrapper cfg w with
          profiles := cfg.profiles ++ batch.map (addedProfile lim w) } := by
  obtain ⟨texts, hfragments, hall⟩ := h.fragments
  have hempty : texts = [] ↔ js = [] := by
    cases hall with
    | nil => exact ⟨fun _ => rfl, fun _ => rfl⟩
    | cons _ _ => exact ⟨nofun, nofun⟩
  have hbatch : ∀ batch, readBatch J lim cfg.names [] texts = .ok batch ↔
      js.Forall₂ (Taken lim cfg.names) batch ∧ (batchNames batch).Nodup := by
    intro batch
    rw [readBatch_eq_ok_iff, ← forall₂_taken_iff hall]
    constructor
    · rintro ⟨rest, hrest, htaken, -, hnodup⟩
      rw [List.nil_append] at hrest
      rw [hrest]
      exact ⟨htaken, hnodup⟩
    · rintro ⟨htaken, hnodup⟩
      exact ⟨batch, rfl, htaken, fun _ _ => List.not_mem_nil, hnodup⟩
  unfold importEdit
  dsimp only
  rw [hfragments]
  constructor
  · intro himport
    obtain ⟨hsize, himport⟩ := Except.throw_if_eq_ok_iff.mp himport
    obtain ⟨frags, hfrags, himport⟩ := Except.bind_eq_ok_iff.mp himport
    obtain rfl := Except.ok.inj hfrags
    obtain ⟨hne, himport⟩ := Except.throw_if_eq_ok_iff.mp himport
    obtain ⟨batch, hread, himport⟩ := Except.bind_eq_ok_iff.mp himport
    obtain ⟨hcount, himport⟩ := Except.throw_if_eq_ok_iff.mp himport
    cases himport
    obtain ⟨htaken, hnodup⟩ := (hbatch batch).mp hread
    refine ⟨Nat.not_lt.mp hsize, fun hjs => hne (hempty.mpr hjs), batch, htaken, hnodup,
      Nat.not_lt.mp hcount, ?_⟩
    rw [applyWrapper_profiles]
    rfl
  · rintro ⟨hsize, hne, batch, htaken, hnodup, hcount, rfl⟩
    refine Except.throw_if_eq_ok_iff.mpr ⟨Nat.not_lt.mpr hsize, ?_⟩
    refine Except.bind_eq_ok_iff.mpr ⟨_, rfl, ?_⟩
    refine Except.throw_if_eq_ok_iff.mpr ⟨fun htexts => hne (hempty.mp htexts), ?_⟩
    refine Except.bind_eq_ok_iff.mpr ⟨batch, (hbatch batch).mpr ⟨htaken, hnodup⟩, ?_⟩
    refine Except.throw_if_eq_ok_iff.mpr ⟨Nat.not_lt.mpr hcount, ?_⟩
    rw [applyWrapper_profiles]
    rfl

theorem migrateImported_of_clean {version : Bytes} {dp : DeviceProfile} (h : dp.Clean lim) :
    migrateImported lim version dp = if Due version then migrateProfile dp else dp := by
  have hspec : (migrateConfig lim { version, profiles := [dp] }).2 = _ :=
    migrateConfig_spec (List.forall_mem_singleton.mpr h)
  unfold migrateImported
  rw [hspec]
  rfl

/-- **One scaling.**  The profile that is added is the one that was read, scaled where its
version asks for it. -/
theorem Taken.scaledFrom {existing : List Bytes} {w : Option Json} {j : Json}
    {p : DeviceProfile × Bytes} (h : Taken lim existing j p) :
    DeviceProfile.ScaledFrom (Due (effectiveVersion w j)) p.1 (addedProfile lim w p) := by
  have hclean := (deviceProfileFromJson_readable h.read).clean
  unfold addedProfile
  rw [h.version, migrateImported_of_clean hclean]
  exact migrateProfile_scaledFrom hclean

/-! ## What an export holds -/

theorem exportLines_spec {dps : List DeviceProfile} {ts : List Text}
    (h : exportLines J dps = .ok ts) :
    ts.Forall₂ (fun t dp => J.dump none (deviceProfileToJson dp) = .ok t) dps := by
  induction dps generalizing ts with
  | nil =>
      cases h
      exact .nil
  | cons dp dps ih =>
      obtain ⟨t, ht, h⟩ := Except.bind_eq_ok_iff.mp h
      obtain ⟨rest, hrest, h⟩ := Except.bind_eq_ok_iff.mp h
      cases h
      exact .cons (Except.mapError_eq_ok_iff.mp ht) (ih hrest)

/-- A profile is not a wrapper. -/
theorem deviceProfileToJson_no_list (dp : DeviceProfile) :
    (deviceProfileToJson dp).get? "profiles" = none := by
  refine Json.get?_object_of_notMem (deviceProfileMembers_nodup dp) ?_
  unfold deviceProfileMembers matchAppMembers
  split <;> simp

/-- **An exported text holds the profiles**, whether it has one line or several. -/
theorem holdsProfiles_of_export {dps : List DeviceProfile} {ts : List Text}
    (hclean : ∀ dp ∈ dps, dp.Clean lim) (hne : dps ≠ []) (h : exportLines J dps = .ok ts) :
    HoldsProfiles J (J.unlines ts) none (dps.map deviceProfileToJson) := by
  have hlines := exportLines_spec h
  have hobject : ∀ t ∈ ts, ∃ j, j.isObject = true ∧ J.dump none j = .ok t := by
    intro t ht
    obtain ⟨i, hi⟩ := List.mem_iff_getElem?.mp ht
    obtain ⟨dp, -, hdump⟩ := exists_getElem?_of_forall₂ hlines.flip hi
    exact ⟨deviceProfileToJson dp, rfl, hdump⟩
  have hparse : ∀ {t : Text} {dp : DeviceProfile}, dp ∈ dps →
      J.dump none (deviceProfileToJson dp) = .ok t → J.parse t = .ok (deviceProfileToJson dp) := by
    intro t dp hdp hdump
    rw [J.parse_dump (deviceProfileToJson_representable (hclean dp hdp).hasInts) hdump,
      Json.printed_of_finite (deviceProfileToJson_finite (hclean dp hdp))]
  have hlength : ts.length = dps.length := hlines.length_eq
  by_cases hone : ts.length = 1
  · obtain ⟨t, rfl⟩ := List.length_eq_one_iff.mp hone
    obtain ⟨dp, rfl⟩ := List.length_eq_one_iff.mp (hlength ▸ hone)
    obtain ⟨hdump, -⟩ := List.forall₂_cons.mp hlines
    refine .single ?_ rfl fun js hjs => ?_
    · exact J.parse_unlines_singleton (hparse List.mem_cons_self hdump)
    · rw [deviceProfileToJson_no_list] at hjs
      cases hjs
  · obtain ⟨e, herror⟩ := J.parse_unlines_of_length_ne_one hobject hone
    refine .stream herror ?_ (List.forall_mem_map.mpr fun _ _ => rfl)
    rw [J.lines_unlines hobject, List.forall₂_map_right_iff]
    clear hobject hlength hone herror h hne
    induction hlines with
    | nil => exact .nil
    | cons hdump _ ih =>
        refine .cons (hparse List.mem_cons_self hdump) (ih ?_ ?_)
        · exact fun dp hdp => hclean dp (List.mem_cons_of_mem _ hdp)
        · exact fun hdp => hparse (List.mem_cons_of_mem _ hdp)

/-- The string of a written profile is within its cap. -/
theorem checkRawStr_of_le {j : Json} {key : String} {field s : Bytes} {cap : ℕ}
    (hget : ∀ v, j.get? key = some v → v = .str s) (h : s.length ≤ cap) :
    checkRawStr j key field cap = .ok () := by
  unfold checkRawStr
  split
  · have hs := hget _ (by assumption)
    cases hs
    exact if_neg (Nat.not_lt.mpr h)
  · rfl

/-- The table of a written curve is within the capacity, and made of whole points. -/
theorem checkLutRaw_of_written {j : Json} {axis : String} {p : Json} {a : AccelArgs}
    (hprofile : j.get? "profile" = some p) (haxis : p.get? axis = some (accelArgsToJson a))
    (hlut : a.CleanLut) (heven : a.length % 2 = 0) : checkLutRaw j axis = .ok () := by
  have h0 := hlut.length_nonneg
  have hcap := hlut.length_le
  unfold checkLutRaw lutElems
  rw [hprofile, Option.bind_some, haxis, Option.bind_some]
  by_cases hpos : a.length > 0
  · have hget : ∀ q ∈ lutMembers a, (accelArgsToJson a).get? q.1 = some q.2 := fun q hq =>
      accelArgsToJson_get? a q (List.mem_append_right _ hq)
    unfold lutMembers at hget
    rw [if_pos hpos] at hget
    obtain ⟨hdata, -⟩ := List.forall_mem_cons.mp hget
    dsimp only at hdata
    rw [hdata]
    dsimp only
    rw [List.length_map, List.length_range]
    refine if_neg ?_
    unfold lutPointsCapacity
    unfold lutRawDataCapacity at hcap ⊢
    omega
  · have hnone : (accelArgsToJson a).get? "lut_data" = none := by
      refine Json.get?_object_of_notMem (accelArgsMembers_nodup a) ?_
      unfold accelArgsMembers lutMembers
      rw [if_neg hpos]
      simp
    rw [hnone]

/-- **A written profile is taken as it is.** -/
theorem taken_of_written {existing : List Bytes} {dp : DeviceProfile} (h : dp.Readable lim)
    (hnamed : dp.name ≠ []) (hfresh : dp.name ∉ existing) :
    Taken lim existing (deviceProfileToJson dp) (dp.trim, rawaccelVersion) := by
  have hget := deviceProfileToJson_get? dp
  have hprofile := hget ("profile", profileToJsonObj dp.prof) (by simp [deviceProfileMembers])
  have hcurves := profileToJsonObj_get? dp.prof
  have hcapped := h.capped
  have hstr : ∀ {key : String} {s : Bytes}, (key, Json.str s) ∈ deviceProfileMembers dp →
      ∀ v, (deviceProfileToJson dp).get? key = some v → v = .str s := by
    intro key s hmem v hv
    exact Option.some.inj (hv.symm.trans (hget (key, .str s) hmem))
  refine ⟨deviceProfileFromJson_toJson h.clean hcapped h.even, ⟨?_, ?_, ?_, ?_, ?_, ?_⟩, hnamed,
    hfresh, ?_⟩
  · exact checkLutRaw_of_written hprofile
      (hcurves ("accel_x", accelArgsToJson dp.prof.accelX) (by simp [profileMembers]))
      h.clean.prof.accelX.lut h.even.1
  · exact checkLutRaw_of_written hprofile
      (hcurves ("accel_y", accelArgsToJson dp.prof.accelY) (by simp [profileMembers]))
      h.clean.prof.accelY.lut h.even.2
  · exact checkRawStr_of_le (hstr (by simp [deviceProfileMembers])) hcapped.name
  · exact checkRawStr_of_le (hstr (by simp [deviceProfileMembers])) hcapped.deviceId
  · by_cases hfilter : dp.matchApp = []
    · have hnone : (deviceProfileToJson dp).get? "match_app" = none := by
        refine Json.get?_object_of_notMem (deviceProfileMembers_nodup dp) ?_
        unfold deviceProfileMembers matchAppMembers
        rw [if_neg (not_not.mpr hfilter)]
        simp
      unfold checkRawStr
      rw [hnone]
    · refine checkRawStr_of_le (hstr ?_) hcapped.matchApp
      unfold deviceProfileMembers matchAppMembers
      rw [if_pos hfilter]
      simp
  · unfold checkProfileName
    rw [hprofile]
    refine checkRawStr_of_le (s := dp.prof.name.chars) (fun v hv => ?_) dp.prof.name.length_le
    have hname := hcurves ("name", .str dp.prof.name.chars) (by simp [profileMembers])
    exact Option.some.inj (hv.symm.trans hname)
  · have hversion := hget ("version", .str rawaccelVersion) (by simp [deviceProfileMembers])
    unfold versionField
    rw [hversion]

/-! ## The two imports -/

/-- **The window imports what the command imports**, where the text is a single profile. -/
theorem importProfileDone_of_importEdit {t : Text} {j : Json} {cfg cfg' : AppConfig}
    (hparse : J.parse t = .ok j) (hobject : j.isObject = true)
    (hnone : ∀ js, j.get? "profiles" ≠ some (.arr js))
    (h : importEdit J lim cfg (some t) = .ok cfg') :
    ∃ cfg'', importProfileDone J lim cfg (some t) = .ok cfg'' ∧
      cfg''.profiles = cfg'.profiles := by
  obtain ⟨hsize, -, batch, hall, -, hcount, rfl⟩ :=
    (importEdit_eq_ok_iff (.single hparse hobject hnone)).mp h
  obtain ⟨p, rest, htaken, hrest, rfl⟩ := List.forall₂_cons_left_iff.mp hall
  obtain rfl := List.forall₂_nil_left_iff.mp hrest
  have hread : parseJson J.toJsonText t = .ok j := by
    unfold parseJson
    rw [hparse]
    rfl
  have hadded : addedProfile lim none p = migrateImported lim (versionField j []) p.1 := by
    unfold addedProfile wrapperVersion
    rw [htaken.version]
    split_ifs with hown
    · rfl
    · rw [not_not.mp hown]
  have hsame : (migrateImported lim (versionField j []) p.1).name = p.1.name :=
    migrateImported_name _ _
  refine ⟨{ cfg with profiles := cfg.profiles ++ [addedProfile lim none p] }, ?_, ?_⟩
  · unfold importProfileDone
    dsimp only
    rw [hparse]
    refine Except.throw_if_eq_ok_iff.mpr ⟨?_, ?_⟩
    · have hmax : importMax ≤ maxImportBytes := by decide
      exact Nat.not_lt.mpr (hsize.trans hmax)
    refine Except.bind_eq_ok_iff.mpr ⟨(), htaken.fits.lutX, ?_⟩
    refine Except.bind_eq_ok_iff.mpr ⟨(), htaken.fits.lutY, ?_⟩
    refine Except.bind_eq_ok_iff.mpr ⟨j, Except.mapError_eq_ok_iff.mpr hread, ?_⟩
    refine Except.bind_eq_ok_iff.mpr ⟨p.1, Except.mapError_eq_ok_iff.mpr htaken.read, ?_⟩
    refine Except.throw_if_eq_ok_iff.mpr ⟨htaken.named, ?_⟩
    refine Except.throw_if_eq_ok_iff.mpr ⟨?_, ?_⟩
    · rw [hsame]
      exact htaken.fresh
    refine Except.throw_if_eq_ok_iff.mpr ⟨Nat.not_le.mpr hcount, ?_⟩
    rw [hadded]
    rfl
  · rw [fallbackActive_profiles]
    rfl

/-- **Export, then import.**  A text that was exported from a loaded configuration holds the
profiles; read as a stream, in a wrapper or in an array, they are added in order and as they
are behind the profiles that are there, if their names are given, different and new, and there
is room.  Whatever a text holds, each profile is read and scaled once, just when the version
that decides is missing, is none, or is before 0.4.0; and a single profile is imported by the
window as by the command. -/
theorem import_exported {cfg target : AppConfig} {name : Bytes} {dps : List DeviceProfile}
    (hcfg : cfg.Sanitized lim) (hexport : exportedProfiles cfg name = .ok dps)
    (hadd : Addable target dps) :
    (∀ t, cmdExport J cfg name = .ok t → HoldsProfiles J t none (dps.map deviceProfileToJson)) ∧
    (∀ t w, HoldsProfiles J t w (dps.map deviceProfileToJson) → J.size t ≤ importMax →
      ∃ cfg' added, importEdit J lim target (some t) = .ok cfg' ∧
        cfg'.profiles = target.profiles ++ added ∧
        added.Forall₂ DeviceProfile.SameProfile dps) ∧
    (∀ (into cfg' : AppConfig) t w js, HoldsProfiles J t w js →
      importEdit J lim into (some t) = .ok cfg' →
      ∃ added, cfg'.profiles = into.profiles ++ added ∧
        js.Forall₂ (fun j dq => ∃ dp, deviceProfileFromJson lim j = .ok dp ∧
          DeviceProfile.ScaledFrom (Due (effectiveVersion w j)) dp dq) added) ∧
    (∀ (into cfg' : AppConfig) t j, J.parse t = .ok j → j.isObject = true →
      (∀ js, j.get? "profiles" ≠ some (.arr js)) →
      importEdit J lim into (some t) = .ok cfg' →
      ∃ cfg'', importProfileDone J lim into (some t) = .ok cfg'' ∧
        cfg''.profiles = cfg'.profiles) := by
  have hreadable : ∀ dp ∈ dps, dp.Readable lim := by
    unfold exportedProfiles at hexport
    by_cases hname : name = []
    · rw [if_pos hname] at hexport
      cases hexport
      exact hcfg.profiles
    · rw [if_neg hname] at hexport
      cases hfind : cfg.profileNamed name with
      | none =>
          rw [hfind] at hexport
          cases hexport
      | some dp =>
          rw [hfind] at hexport
          cases hexport
          exact List.forall_mem_singleton.mpr (hcfg.profiles dp (profileNamed_mem hfind).1)
  refine ⟨fun t ht => ?_, fun t w ht hsize => ?_, fun into cfg' t w js ht himport => ?_, ?_⟩
  · obtain ⟨dps', hdps', ht⟩ := Except.bind_eq_ok_iff.mp ht
    obtain rfl : dps = dps' := Except.ok.inj (hexport.symm.trans hdps')
    obtain ⟨ts, hts, ht⟩ := Except.bind_eq_ok_iff.mp ht
    cases ht
    exact holdsProfiles_of_export (fun dp hdp => (hreadable dp hdp).clean) hadd.nonempty
      (Except.mapError_eq_ok_iff.mp hts)
  · have hbatch : (dps.map deviceProfileToJson).Forall₂ (Taken lim target.names)
        (dps.map fun dp => (dp.trim, rawaccelVersion)) := by
      rw [List.forall₂_map_left_iff, List.forall₂_map_right_iff, List.forall₂_same]
      intro dp hdp
      exact taken_of_written (hreadable dp hdp) (hadd.named dp hdp) (hadd.fresh dp hdp)
    have hnames : batchNames (dps.map fun dp => (dp.trim, rawaccelVersion)) =
        dps.map (·.name) := by
      unfold batchNames
      rw [List.map_map]
      rfl
    have hadded : (dps.map fun dp => (dp.trim, rawaccelVersion)).map (addedProfile lim w) =
        dps.map DeviceProfile.trim := by
      rw [List.map_map]
      refine List.map_congr_left fun dp hdp => ?_
      have hcurrent : rawaccelVersion ≠ [] := by decide
      have hclean : dp.trim.Clean lim := (hreadable dp hdp).clean.trim
      show addedProfile lim w (dp.trim, rawaccelVersion) = dp.trim
      unfold addedProfile
      dsimp only
      rw [if_pos hcurrent, migrateImported_of_clean hclean, if_neg not_due_rawaccelVersion]
    refine ⟨_, dps.map DeviceProfile.trim, (importEdit_eq_ok_iff ht).mpr ⟨hsize, ?_, _, hbatch,
      ?_, ?_, rfl⟩, ?_, ?_⟩
    · exact fun hnil => hadd.nonempty (List.map_eq_nil_iff.mp hnil)
    · rw [hnames]
      exact hadd.distinct
    · rw [List.length_map]
      exact hadd.room
    · rw [fallbackActive_profiles, hadded]
    · rw [List.forall₂_map_left_iff, List.forall₂_same]
      exact fun dp hdp => (hreadable dp hdp).clean.trim_sameProfile
  · obtain ⟨-, -, batch, hall, -, -, rfl⟩ := (importEdit_eq_ok_iff ht).mp himport
    refine ⟨batch.map (addedProfile lim w), fallbackActive_profiles _, ?_⟩
    rw [List.forall₂_map_right_iff]
    exact hall.imp fun j p htaken => ⟨p.1, htaken.read, htaken.scaledFrom⟩
  · exact fun _ _ _ _ hparse hobject hnone himport =>
      importProfileDone_of_importEdit hparse hobject hnone himport

/-! ## Refused imports -/

/-- The import of a whole export. -/
def reimport (J : JsonLines Text) (lim : Limits) (cfg target : AppConfig) :
    Option (Except ImportError AppConfig) :=
  (cmdExport J cfg []).toOption.map fun t => importEdit J lim target (some t)

/-- Loaded profiles with the default values. -/
def defaultsNamed (names : List Bytes) : AppConfig :=
  { profiles := names.map fun name => { name } }

theorem defaultsNamed_sanitized {names : List Bytes}
    (h : ∀ name ∈ names, name.length ≤ maxNameLen) :
    (defaultsNamed names).Sanitized Limits.documented where
  activeProfile := show (bytes "default").length ≤ maxNameLen by decide
  profiles := by
    refine List.forall_mem_map.mpr fun name hname => ?_
    exact ⟨⟨defaults_clean.devCfg, defaults_clean.prof⟩,
      ⟨h name hname, Nat.zero_le _, Nat.zero_le _, show [] ∉ allDevicesAliases by decide⟩, rfl, rfl⟩

/-- A lookup table of two points, with gain. -/
def curve : AccelArgs where
  mode := .lookup
  length := 4
  data := (((Vector.replicate lutRawDataCapacity 0).set 0 1).set 1 2).set 2 3

/-- A profile with that table, as loading gives it. -/
def curveProfile : DeviceProfile :=
  sanitizeDeviceProfile .documented { name := bytes "p", prof := { accelX := curve } }

theorem curveProfile_readable : curveProfile.Readable .documented :=
  ⟨sanitizeDeviceProfile_clean _ _, ⟨by decide, by decide, by decide, by decide⟩,
    sanitizeProfile_even _ ⟨by decide, by decide⟩⟩

/-- Two profiles, the first of them with a table. -/
def twoProfiles : AppConfig := { profiles := [curveProfile, { name := bytes "q" }] }

/-- The configuration into which they are imported. -/
def importTarget : AppConfig := defaultsNamed [bytes "there"]

theorem import_exported_pair :
    curveProfile.prof.accelX.mode = .lookup ∧ curveProfile.prof.accelX.gain = true ∧
    ((cmdExport .trees twoProfiles []).toOption.map fun t => JsonLines.trees.size t) = some 2 ∧
    (∀ t, cmdExport .trees twoProfiles [] = .ok t →
      HoldsProfiles .trees t none (twoProfiles.profiles.map deviceProfileToJson)) ∧
    ∀ t w, HoldsProfiles .trees t w (twoProfiles.profiles.map deviceProfileToJson) →
      JsonLines.trees.size t ≤ importMax →
      ∃ cfg' added, importEdit .trees .documented importTarget (some t) = .ok cfg' ∧
        cfg'.profiles = importTarget.profiles ++ added ∧
        added.Forall₂ DeviceProfile.SameProfile twoProfiles.profiles := by
  have hplain : (defaultsNamed [bytes "q"]).Sanitized Limits.documented :=
    defaultsNamed_sanitized (by decide)
  have hpair : twoProfiles.Sanitized Limits.documented :=
    ⟨hplain.activeProfile, List.forall_mem_cons.mpr ⟨curveProfile_readable, hplain.profiles⟩⟩
  have hadd : Addable importTarget twoProfiles.profiles :=
    ⟨by decide, by decide, by decide, by decide, by decide⟩
  obtain ⟨hholds, himport, -⟩ :=
    import_exported (J := .trees) hpair (rfl : exportedProfiles twoProfiles [] = _) hadd
  exact ⟨rfl, rfl, by decide +kernel, hholds, himport⟩

/-- **An export that is refused.**  A profile without a name, two of one name, and a
configuration without profiles are exported, and what was exported is not imported; nor is a
profile for which there is no room. -/
theorem export_refused :
    (defaultsNamed [[]]).Sanitized .documented ∧
    reimport .trees .documented (defaultsNamed [[]]) {} = some (.error .noName) ∧
    reimport .trees .documented (defaultsNamed [bytes "p", bytes "p"]) {} =
      some (.error (.duplicateInFile (bytes "p"))) ∧
    reimport .trees .documented (defaultsNamed []) {} = some (.error .noProfiles) ∧
    reimport .trees .documented (defaultsNamed [bytes "p"])
      (defaultsNamed (List.replicate 256 (bytes "q"))) = some (.error (.tooMany 1 256)) :=
  ⟨defaultsNamed_sanitized (by decide), by decide +kernel, by decide +kernel, by decide +kernel,
    by decide +kernel⟩

end AbrekMouse
