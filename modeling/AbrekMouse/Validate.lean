import AbrekMouse.ProfileKeys

/-! # Checking a settings file

`validate` loads a file and looks for errors in what was loaded, then compares the numbers of
the file with those that were stored.  It does not look at the keys that hold anything else, nor
at a key whose value has another type than it expects, so a file can pass that is not kept as it
is written.  `validate_keeps_iff` says which files are.
-/
namespace AbrekMouse
open ProgLib ProgLib.Fp
variable {Text : Type} (J : JsonText Text) (lim : Limits)

/-- How `validate` ends: there is no file, it cannot be read, it has errors, it has warnings
only, or neither. -/
inductive ValidateEnd
  | notFound
  | unreadable (e : ConfigError)
  | failed
  | passedWithWarnings
  | allOk
deriving DecidableEq

/-- The exit code. -/
def ValidateEnd.rc : ValidateEnd → ℕ
  | .passedWithWarnings | .allOk => 0
  | _ => 1

/-! ## What was loaded -/

/-- There is no profile, the active one is missing, or a name is empty or taken twice. -/
def hasErrors (cfg : AppConfig) : Bool :=
  let names := cfg.profiles.map (·.name)
  cfg.profiles = [] || (cfg.activeProfile ∉ names) || (¬names.Nodup) || ([] ∈ names)

/-- The table of a lookup curve has half a point at its end. -/
def oddTable (a : AccelArgs) : Bool := a.mode = .lookup && a.length.tmod 2 ≠ 0

/-- A setting of a curve that is in its range and does nothing, or harm. -/
def axisWarn (a : AccelArgs) : Bool :=
  (a.mode = .lookup && a.length = 0) ||
    (a.mode = .jump && a.smooth > 0 && a.smooth * a.cap.x < 1) ||
    (a.mode = .natural && a.decayRate > 0 && a.decayRate < lim.naturalDecayRateMin)

/-- The warnings about the configuration as it was loaded. -/
def loadedWarnings (cfg : AppConfig) : Bool :=
  let deviceIds := (cfg.profiles.map (·.deviceId)).filter (· ≠ [])
  (¬deviceIds.Nodup) || cfg.profiles.any fun dp =>
    oddTable dp.prof.accelX || oddTable dp.prof.accelY || axisWarn lim dp.prof.accelX ||
      axisWarn lim dp.prof.accelY

/-! ## What the file says -/

/-- `fabs`: the number without its sign. -/
def fabs : Double → Double
  | .nan => .nan
  | .inf _ => .inf false
  | .fin _ m h => .fin false m h

/-- A number of the file and the number that was stored. -/
def clampWarn (host : Json) (key : String) (stored : Double) : Bool :=
  match host.get? key with
  | some v => v.isNumber && !(fabs (v.double + -stored) < 1e-9 : Bool)
  | none => false

/-- The same for an element of an array, with the comparison the other way. -/
def elemWarn (v : Json) (stored : Double) : Bool :=
  v.isNumber && (fabs (v.double + -stored) ≥ 1e-9 : Bool)

/-- A weight of the file is not the one that was stored. -/
def weightsWarn (host : Json) (key : String) (stored : Vec2d) : Bool :=
  match host.get? key with
  | some (.arr (x :: y :: _)) => elemWarn x stored.x || elemWarn y stored.y
  | _ => false

/-- A part of the cap of the file is not the one that was stored. -/
def capWarn (host : Json) (stored : Vec2d) : Bool :=
  match host.get? "cap" with
  | some (.arr (x :: y :: _)) => elemWarn x stored.x || elemWarn y stored.y
  | some (.arr [x]) => elemWarn x stored.x
  | _ => false

/-- One of the numbers of the file is not the one that was stored. -/
def numbersWarn {R : Type} (keys : List (NumberKey R)) (host : Json) (stored : R) : Bool :=
  keys.any fun k => clampWarn host k.key (k.get stored)

/-- The checks of an object under a key. -/
def sectionWarn (host : Json) (key : String) (warn : Json → Bool) : Bool :=
  match host.get? key with
  | some v => v.isObject && warn v
  | none => false

/-- `speed_max` will be raised. -/
def speedsWarn (host : Json) : Bool :=
  match host.get? "speed_min", host.get? "speed_max" with
  | some u, some v => u.isNumber && v.isNumber && u.double > v.double
  | _, _ => false

/-- A number or the cap of a curve was changed by loading. -/
def curveWarn (stored : AccelArgs) (host : Json) : Bool :=
  numbersWarn accelNumbers host stored || capWarn host stored.cap

/-- Something in the section `profile` was changed by loading. -/
def profileWarn (stored : Profile) (host : Json) : Bool :=
  numbersWarn profileNumbers host stored ||
    weightsWarn host "domain_weights" stored.domainWeights ||
    weightsWarn host "range_weights" stored.rangeWeights ||
    sectionWarn host "speed_processor" (numbersWarn speedNumbers · stored.speedProcessorArgs) ||
    sectionWarn host "accel_x" (curveWarn stored.accelX) ||
    sectionWarn host "accel_y" (curveWarn stored.accelY) ||
    speedsWarn host

/-- The name is longer than the buffer for it. -/
def longNameWarn (host : Json) : Bool :=
  match host.get? "name" with
  | some (.str s) => s.length > maxNameLen
  | _ => false

/-- Something in a profile of the file was changed by loading. -/
def deviceWarn (host : Json) (stored : DeviceProfile) : Bool :=
  host.isObject &&
    (clampWarn host "dpi" (ofInt stored.devCfg.dpi) ||
      clampWarn host "polling_rate" (ofInt stored.devCfg.pollingRate) ||
      sectionWarn host "profile" (profileWarn stored.prof) ||
      longNameWarn host)

/-- The cross-check of the file with what was loaded from it, profile by profile. -/
def rawWarnings (raw : Json) (cfg : AppConfig) : Bool :=
  match raw.get? "profiles" with
  | some (.arr hosts) => (hosts.zip cfg.profiles).any fun p => deviceWarn p.1 p.2
  | _ => false

/-! ## The command -/

/-- `cmd_validate`: the file is loaded as the daemon loads it, and then read once more as it
stands. -/
def cmdValidate (path : Bytes) (file : Option Text) : ValidateEnd :=
  match file with
  | none => .notFound
  | some t =>
      match loadConfig J lim path (some t) with
      | .error e => .unreadable e
      | .ok cfg =>
          let fromFile :=
            match J.parse t with
            | .ok raw => rawWarnings raw cfg
            | .error _ => false
          if hasErrors cfg then .failed
          else if loadedWarnings lim cfg || fromFile then .passedWithWarnings
          else .allOk

variable {J} {lim}

/-- A file that passes without a warning was loaded, and nothing was found. -/
theorem cmdValidate_eq_allOk {path : Bytes} {file : Option Text}
    (h : cmdValidate J lim path file = .allOk) :
    ∃ t j cfg, file = some t ∧ J.parse t = .ok j ∧ loadConfig J lim path file = .ok cfg ∧
      hasErrors cfg = false ∧ rawWarnings j cfg = false := by
  unfold cmdValidate at h
  cases file with
  | none => cases h
  | some t =>
      dsimp only at h
      cases hload : loadConfig J lim path (some t) with
      | error e =>
          rw [hload] at h
          cases h
      | ok cfg =>
          rw [hload] at h
          dsimp only at h
          split_ifs at h with herrors hwarnings
          obtain ⟨j, hparse, -⟩ := Except.bind_eq_ok_iff.mp hload
          have hj : J.parse t = .ok j := Except.mapError_eq_ok_iff.mp hparse
          rw [hj] at hwarnings
          simp only [Bool.or_eq_true, not_or, Bool.not_eq_true] at hwarnings
          exact ⟨t, j, cfg, rfl, hj, rfl, by simpa using herrors, hwarnings.2⟩

theorem isObject_of_get? {j v : Json} {key : String} (h : j.get? key = some v) :
    j.isObject = true := by
  cases j <;> first | rfl | cases h

theorem sectionWarn_eq_false {host : Json} {key : String} {warn : Json → Bool}
    (h : sectionWarn host key warn = false) :
    Holding host key fun v => v.isObject = true → warn v = false := by
  intro v hv hobject
  unfold sectionWarn at h
  rw [hv] at h
  dsimp only at h
  rwa [hobject, Bool.true_and] at h

theorem speedsWarn_eq_false {host : Json} (h : speedsWarn host = false) : SpeedsOrdered host := by
  intro u hu v hv hunumber hvnumber
  unfold speedsWarn at h
  rw [hu, hv] at h
  dsimp only at h
  rw [hunumber, hvnumber, Bool.true_and, Bool.true_and] at h
  exact of_decide_eq_false h

/-- **No warning of a profile**: its name is short, and its speeds are in order. -/
theorem deviceWarn_eq_false {host : Json} {stored : DeviceProfile}
    (h : deviceWarn host stored = false) :
    ShortName host ∧ Holding host "profile" SpeedsOrdered := by
  unfold deviceWarn at h
  constructor
  · intro s hs
    rw [isObject_of_get? hs, Bool.true_and] at h
    simp only [Bool.or_eq_false_iff] at h
    have hname := h.2
    unfold longNameWarn at hname
    rw [hs] at hname
    exact Nat.not_lt.mp (of_decide_eq_false hname)
  · intro v hv
    rw [isObject_of_get? hv, Bool.true_and] at h
    simp only [Bool.or_eq_false_iff] at h
    intro u hu
    have hprofile := sectionWarn_eq_false h.1.2 v hv (isObject_of_get? hu)
    unfold profileWarn at hprofile
    simp only [Bool.or_eq_false_iff] at hprofile
    exact speedsWarn_eq_false hprofile.2 u hu

theorem exists_mem_zip {α β : Type} {R : α → β → Prop} {as : List α} {bs : List β}
    (h : as.Forall₂ R bs) {a : α} (ha : a ∈ as) : ∃ b, (a, b) ∈ as.zip bs := by
  induction h with
  | nil => cases ha
  | @cons a' b' as bs _ _ ih =>
      rcases List.mem_cons.mp ha with rfl | hmem
      · exact ⟨b', List.mem_cons_self⟩
      · obtain ⟨b, hb⟩ := ih hmem
        exact ⟨b, List.mem_cons_of_mem _ hb⟩

/-- The current version is not migrated. -/
theorem migrateConfig_current {cfg : AppConfig} (h : cfg.version = rawaccelVersion) :
    migrateConfig lim cfg = (false, cfg) := if_pos h

/-- **What a clean check is worth.**  A file that passes without a warning is loaded; and it is
kept as it is written just where every key of it holds what its field can have. -/
theorem validate_keeps_iff {path : Bytes} {file : Option Text}
    (h : cmdValidate J lim path file = .allOk) :
    ∃ t j cfg, file = some t ∧ J.parse t = .ok j ∧ loadConfig J lim path file = .ok cfg ∧
      (j.get? "version" = some (.str rawaccelVersion) → (cfg.Keeps j ↔ FileFits lim j)) := by
  obtain ⟨t, j, cfg, rfl, hparse, hload, herrors, hwarnings⟩ := cmdValidate_eq_allOk h
  refine ⟨t, j, cfg, rfl, hparse, hload, fun hversion => ?_⟩
  obtain ⟨j', hj', hload⟩ := Except.bind_eq_ok_iff.mp hload
  obtain rfl : j = j' := Except.ok.inj (hparse.symm.trans (Except.mapError_eq_ok_iff.mp hj'))
  obtain ⟨read, hread, hload⟩ := Except.bind_eq_ok_iff.mp hload
  obtain ⟨dps, hdps, hfields⟩ := appConfigFromJsonObj_eq_ok hread
  have hcurrent : read.version = rawaccelVersion := by
    rw [hfields]
    show versionField j [] = _
    rw [versionField, hversion]
  rw [migrateConfig_current hcurrent] at hload
  obtain rfl : read = cfg := Except.ok.inj hload
  have hsome : read.profiles ≠ [] := by
    intro hnil
    unfold hasErrors at herrors
    simp [hnil] at herrors
  refine AppConfig.keeps_iff hread hversion hsome fun pj hpj => ?_
  -- each element of the file was compared with the profile it was stored in
  have hprofiles : read.profiles = dps := by rw [hfields]
  obtain ⟨dp, hdp⟩ := exists_mem_zip (profilesField_file le_rfl hdps) hpj
  obtain ⟨hosts, hhosts⟩ := exists_profiles hdps (hprofiles ▸ hsome)
  have helems : profileElems j = hosts := by
    unfold profileElems
    rw [hhosts]
    rfl
  unfold rawWarnings at hwarnings
  rw [hhosts, hprofiles, ← helems] at hwarnings
  exact deviceWarn_eq_false (by simpa using List.any_eq_false.mp hwarnings _ hdp)

/-- A file with one profile, whose resolution is what is given. -/
def fileWithDpi (dpi : Json) : Json :=
  .object [("version", .str rawaccelVersion),
    ("profiles", .arr [.object [("name", .str (bytes "default")), ("dpi", dpi)]])]

theorem validate_keeps_iff_number :
    ∃ t j cfg, some (fileWithDpi (.int 1600)) = some t ∧ JsonText.trees.parse t = .ok j ∧
      loadConfig JsonText.trees Limits.documented (bytes "settings.json")
        (some (fileWithDpi (.int 1600))) = .ok cfg ∧
      (j.get? "version" = some (.str rawaccelVersion) →
        (cfg.Keeps j ↔ FileFits Limits.documented j)) :=
  validate_keeps_iff (by decide +kernel)

/-- A resolution in quotes passes without a warning, and is not stored. -/
theorem quoted_dpi_allOk :
    ¬∀ (lim : Limits) (path : Bytes) (file : Option Json),
      cmdValidate JsonText.trees lim path file = .allOk →
        ∃ t j cfg, file = some t ∧ JsonText.trees.parse t = .ok j ∧
          loadConfig JsonText.trees lim path file = .ok cfg ∧
          (j.get? "version" = some (.str rawaccelVersion) → cfg.Keeps j) := by
  intro hclaim
  let quoted : Json := fileWithDpi (.str (bytes "1600"))
  have hallOk : cmdValidate JsonText.trees Limits.documented [] (some quoted) = .allOk := by
    decide +kernel
  have hparse : JsonText.trees.parse quoted = .ok quoted := by decide +kernel
  have hversion : quoted.get? "version" = some (.str rawaccelVersion) := by decide +kernel
  obtain ⟨t, j, cfg, hfile, hj, -, hkeeps⟩ := hclaim Limits.documented [] (some quoted) hallOk
  obtain rfl := Option.some.inj hfile
  obtain rfl : quoted = j := Except.ok.inj (hparse.symm.trans hj)
  have hprofiles : quoted.get? "profiles" = some (.arr [.object [("name", .str (bytes "default")),
      ("dpi", .str (bytes "1600"))]]) := by decide +kernel
  obtain ⟨pjs, hpjs, hforall⟩ := (hkeeps hversion).profiles _ hprofiles
  obtain rfl := Json.arr.inj hpjs
  obtain ⟨dp, _, hkept, _, _⟩ := List.forall₂_cons_left_iff.mp hforall
  exact (hkept.dpi (.str (bytes "1600")) (by decide +kernel)).1

end AbrekMouse
