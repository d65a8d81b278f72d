import Mathlib.Data.List.Nodup
import AbrekMouse.Checked
import AbrekMouse.Cli
import AbrekMouse.JsonLines

/-! # Importing profiles

`import` takes a file in one of four shapes: a profile, a wrapper with a list of profiles, an
array of profiles, or a stream with one profile on each line.  Every profile is read, checked
against what the reader would cut or drop, and migrated by the version it carries, or else by
that of the wrapper.  The window of the settings program imports a single profile.
-/
namespace AbrekMouse
open ProgLib
variable {Text : Type} (J : JsonLines Text) (lim : Limits)

/-- Why nothing is imported. -/
inductive ImportError
  | cannotOpen
  | tooLarge
  | invalidShape
  | invalidLine
  | noProfiles
  | invalidProfile (e : ConfigError)
  | lutSize (axis : String) (n : ℕ)
  | noName
  | tooLong (field : Bytes) (size max : ℕ)
  | alreadyExists (name : Bytes)
  | duplicateInFile (name : Bytes)
  | tooMany (count existing : ℕ)
deriving DecidableEq

/-- The bytes that are read at most. -/
def importMax : ℕ := 1024 * 1024

/-- The bytes that the window reads at most. -/
def maxImportBytes : ℕ := 4 * 1024 * 1024

/-- The points of a table, at most. -/
def lutPointsCapacity : ℕ := 257

/-! ## The shapes of a file -/

/-- A text for each profile, and the wrapper around them if there is one. -/
structure Fragments (Text : Type) where
  wrapper : Option Json := none
  texts : List Text

/-- `dump` of the elements in turn, up to one that cannot be printed. -/
def dumpElems : List Json → List Text × Bool
  | [] => ([], true)
  | j :: js =>
      match J.dump none j with
      | .error _ => ([], false)
      | .ok t => let (ts, all) := dumpElems js; (t :: ts, all)

/-- The lines of a stream, after the texts that are there already. -/
def streamFragments (t : Text) (wrapper : Option Json) (done : List Text) :
    Except ImportError (Fragments Text) :=
  if (J.lines t).all fun line => (J.parse line).toOption.any Json.isObject then
    .ok ⟨wrapper, done ++ J.lines t⟩
  else .error .invalidLine

/-- The elements as texts; where one cannot be printed, the file is read as a stream. -/
def elemFragments (t : Text) (wrapper : Option Json) (js : List Json) :
    Except ImportError (Fragments Text) :=
  match dumpElems J js with
  | (ts, true) => .ok ⟨wrapper, ts⟩
  | (ts, false) => streamFragments J t wrapper ts

/-- An object: a wrapper with a list of profiles, or a profile by itself. -/
def objectFragments (t : Text) (all : Json) : Except ImportError (Fragments Text) :=
  match all.get? "profiles" with
  | some (.arr js) => elemFragments J t (some all) js
  | _ => .ok ⟨none, [t]⟩

/-- The profiles of an import file: a whole configuration, a list, one profile, or a profile on
each line. -/
def importFragments (t : Text) : Except ImportError (Fragments Text) :=
  match J.parse t with
  | .error _ => streamFragments J t none []
  | .ok (.obj ms) => objectFragments J t (.obj ms)
  | .ok (.arr (j :: js)) =>
      if j.isObject then elemFragments J t none (j :: js) else .error .invalidShape
  | .ok _ => .error .invalidShape

/-! ## One profile -/

/-- The number of elements of the table of an axis, as the text has it. -/
def lutElems (raw : Json) (axis : String) : Option ℕ :=
  match ((raw.get? "profile").bind (·.get? axis)).bind (·.get? "lut_data") with
  | some (.arr js) => some js.length
  | _ => none

/-- The table of the file is within the buffer. -/
def checkLutRaw (raw : Json) (axis : String) : Except ImportError Unit :=
  match lutElems raw axis with
  | none => .ok ()
  | some n =>
      if n % 2 ≠ 0 ∨ n / 2 > lutPointsCapacity then .error (.lutSize axis n) else .ok ()

/-- A string of the text that the reader would cut. -/
def checkRawStr (parent : Json) (key : String) (field : Bytes) (cap : ℕ) :
    Except ImportError Unit :=
  match parent.get? key with
  | some (.str s) => if s.length > cap then .error (.tooLong field s.length cap) else .ok ()
  | _ => .ok ()

/-- The name inside of the section `profile` fits its buffer. -/
def checkProfileName (raw : Json) : Except ImportError Unit :=
  match raw.get? "profile" with
  | some p => checkRawStr p "name" (bytes "profile.name") maxNameLen
  | none => .ok ()

/-- One fragment, beside the profiles that are there and those before it in the file: the
profile and the version it carries. -/
def importFragment (existing batch : List Bytes) (fr : Text) :
    Except ImportError (DeviceProfile × Bytes) := do
  let raw ← (parseJson J.toJsonText fr).mapError .invalidProfile
  let dp ← (deviceProfileFromJson lim raw).mapError .invalidProfile
  checkLutRaw raw "accel_x"
  checkLutRaw raw "accel_y"
  if dp.name = [] then throw .noName
  checkRawStr raw "name" (bytes "name") maxNameLen
  checkRawStr raw "device_id" (bytes "device_id") maxDpDeviceId
  checkRawStr raw "match_app" (bytes "match_app") maxMatchApp
  checkProfileName raw
  if dp.name ∈ existing then throw (.alreadyExists dp.name)
  if dp.name ∈ batch then throw (.duplicateInFile dp.name)
  return (dp, versionField raw [])

/-- The fragments in turn, after the profiles that were read already. -/
def readBatch (existing : List Bytes) :
    List (DeviceProfile × Bytes) → List Text → Except ImportError (List (DeviceProfile × Bytes))
  | done, [] => .ok done
  | done, fr :: frs => do
      let p ← importFragment J lim existing (done.map fun p => p.1.name) fr
      readBatch existing (done ++ [p]) frs

/-- The migration of one imported profile, by a configuration around it. -/
def migrateImported (version : Bytes) (dp : DeviceProfile) : DeviceProfile :=
  (migrateConfig lim { version, profiles := [dp] }).2.profiles.headD dp

/-! ## The command -/

/-- The names of the profiles, in their order. -/
def AppConfig.names (cfg : AppConfig) : List Bytes := cfg.profiles.map (·.name)

/-- The fields of a wrapper that are taken over. -/
def applyWrapper (cfg : AppConfig) : Option Json → AppConfig
  | none => cfg
  | some j =>
      { cfg with
        activeProfile :=
          match j.get? "active_profile" with
          | some (.str s) => s
          | _ => cfg.activeProfile
        useRawInput := boolField j "use_raw_input" cfg.useRawInput }

/-- The version that a wrapper gives to the profiles in it. -/
def wrapperVersion : Option Json → Bytes
  | none => []
  | some j => versionField j []

/-- An active profile that is not there is replaced by the first one. -/
def fallbackActive (cfg : AppConfig) : AppConfig :=
  if cfg.activeProfile ∈ cfg.names then cfg
  else { cfg with activeProfile := (cfg.names.head?).getD [] }

/-- The configuration that `cmd_import` saves. -/
def importEdit (cfg : AppConfig) (content : Option Text) : Except ImportError AppConfig :=
  match content with
  | none => .error .cannotOpen
  | some t => do
      if J.size t > importMax then throw .tooLarge
      let frags ← importFragments J t
      if frags.texts = [] then throw .noProfiles
      let batch ← readBatch J lim cfg.names [] frags.texts
      if cfg.profiles.length + batch.length > maxProfiles then
        throw (.tooMany batch.length cfg.profiles.length)
      let cfg := applyWrapper cfg frags.wrapper
      let migrated := batch.map fun (dp, version) =>
        migrateImported lim (if version ≠ [] then version else wrapperVersion frags.wrapper) dp
      return fallbackActive { cfg with profiles := cfg.profiles ++ migrated }

/-- The configuration of the window after an import. -/
def importProfileDone (cfg : AppConfig) (content : Option Text) : Except ImportError AppConfig :=
  match content with
  | none => .error .cannotOpen
  | some t => do
      if J.size t > maxImportBytes then throw .tooLarge
      -- a text that does not parse passes this check and is refused by the reader
      if let .ok raw := J.parse t then
        checkLutRaw raw "accel_x"
        checkLutRaw raw "accel_y"
      let raw ← (parseJson J.toJsonText t).mapError .invalidProfile
      let dp ← (deviceProfileFromJson lim raw).mapError .invalidProfile
      if dp.name = [] then throw .noName
      let dp := migrateImported lim (versionField raw []) dp
      if dp.name ∈ cfg.names then throw (.alreadyExists dp.name)
      if cfg.profiles.length ≥ maxProfiles then throw (.tooMany 1 cfg.profiles.length)
      return { cfg with profiles := cfg.profiles ++ [dp] }

variable {J} {lim}

/-! ## What is imported -/

/-- What a fragment says is within what the reader keeps. -/
structure RawFits (raw : Json) : Prop where
  lutX : checkLutRaw raw "accel_x" = .ok ()
  lutY : checkLutRaw raw "accel_y" = .ok ()
  name : checkRawStr raw "name" (bytes "name") maxNameLen = .ok ()
  deviceId : checkRawStr raw "device_id" (bytes "device_id") maxDpDeviceId = .ok ()
  matchApp : checkRawStr raw "match_app" (bytes "match_app") maxMatchApp = .ok ()
  profileName : checkProfileName raw = .ok ()

/-- A JSON value gives a profile with the version it carries: a profile within the caps whose
name is new. -/
structure Taken (lim : Limits) (existing : List Bytes) (raw : Json) (p : DeviceProfile × Bytes) :
    Prop where
  read : deviceProfileFromJson lim raw = .ok p.1
  fits : RawFits raw
  named : p.1.name ≠ []
  fresh : p.1.name ∉ existing
  version : p.2 = versionField raw []

theorem Taken.name_length_le {existing : List Bytes} {raw : Json} {p : DeviceProfile × Bytes}
    (h : Taken lim existing raw p) : p.1.name.length ≤ maxNameLen :=
  (deviceProfileFromJson_readable h.read).capped.name

/-- A fragment gives the profile of the value it holds. -/
theorem importFragment_eq_ok_iff {existing batch : List Bytes} {fr : Text}
    {p : DeviceProfile × Bytes} :
    importFragment J lim existing batch fr = .ok p ↔
      ∃ raw, parseJson J.toJsonText fr = .ok raw ∧ Taken lim existing raw p ∧
        p.1.name ∉ batch := by
  unfold importFragment
  constructor
  · intro h
    obtain ⟨raw, hraw, h⟩ := Except.bind_eq_ok_iff.mp h
    obtain ⟨dp, hdp, h⟩ := Except.bind_eq_ok_iff.mp h
    obtain ⟨_, hx, h⟩ := Except.bind_eq_ok_iff.mp h
    obtain ⟨_, hy, h⟩ := Except.bind_eq_ok_iff.mp h
    obtain ⟨hnamed, h⟩ := Except.throw_if_eq_ok_iff.mp h
    obtain ⟨_, hname, h⟩ := Except.bind_eq_ok_iff.mp h
    obtain ⟨_, hid, h⟩ := Except.bind_eq_ok_iff.mp h
    obtain ⟨_, happ, h⟩ := Except.bind_eq_ok_iff.mp h
    obtain ⟨_, hprofile, h⟩ := Except.bind_eq_ok_iff.mp h
    obtain ⟨hexisting, h⟩ := Except.throw_if_eq_ok_iff.mp h
    obtain ⟨hbatch, h⟩ := Except.throw_if_eq_ok_iff.mp h
    cases h
    exact ⟨raw, Except.mapError_eq_ok_iff.mp hraw,
      ⟨Except.mapError_eq_ok_iff.mp hdp, ⟨hx, hy, hname, hid, happ, hprofile⟩, hnamed, hexisting,
        rfl⟩, hbatch⟩
  · rintro ⟨raw, hraw, ⟨hdp, hfits, hnamed, hexisting, hversion⟩, hbatch⟩
    obtain ⟨dp, version⟩ := p
    obtain rfl : version = versionField raw [] := hversion
    refine Except.bind_eq_ok_iff.mpr ⟨raw, Except.mapError_eq_ok_iff.mpr hraw, ?_⟩
    refine Except.bind_eq_ok_iff.mpr ⟨dp, Except.mapError_eq_ok_iff.mpr hdp, ?_⟩
    refine Except.bind_eq_ok_iff.mpr ⟨(), hfits.lutX, ?_⟩
    refine Except.bind_eq_ok_iff.mpr ⟨(), hfits.lutY, ?_⟩
    refine Except.throw_if_eq_ok_iff.mpr ⟨hnamed, ?_⟩
    refine Except.bind_eq_ok_iff.mpr ⟨(), hfits.name, ?_⟩
    refine Except.bind_eq_ok_iff.mpr ⟨(), hfits.deviceId, ?_⟩
    refine Except.bind_eq_ok_iff.mpr ⟨(), hfits.matchApp, ?_⟩
    refine Except.bind_eq_ok_iff.mpr ⟨(), hfits.profileName, ?_⟩
    refine Except.throw_if_eq_ok_iff.mpr ⟨hexisting, ?_⟩
    exact Except.throw_if_eq_ok_iff.mpr ⟨hbatch, rfl⟩

/-- The names of a batch. -/
def batchNames (batch : List (DeviceProfile × Bytes)) : List Bytes := batch.map fun p => p.1.name

/-- **A batch is read** just when every fragment gives a profile and the names differ. -/
theorem readBatch_eq_ok_iff {existing : List Bytes} {frs : List Text} :
    ∀ {done batch : List (DeviceProfile × Bytes)},
      readBatch J lim existing done frs = .ok batch ↔
        ∃ rest, batch = done ++ rest ∧
          frs.Forall₂ (fun fr p => ∃ raw, parseJson J.toJsonText fr = .ok raw ∧
            Taken lim existing raw p) rest ∧
          (∀ p ∈ rest, p.1.name ∉ batchNames done) ∧ (batchNames rest).Nodup := by
  induction frs with
  | nil =>
      intro done batch
      rw [readBatch, Except.ok.injEq]
      constructor
      · rintro rfl
        exact ⟨[], (List.append_nil _).symm, .nil, fun _ h => absurd h List.not_mem_nil,
          List.nodup_nil⟩
      · rintro ⟨rest, rfl, hrest, -, -⟩
        cases hrest
        exact (List.append_nil _).symm
  | cons fr frs ih =>
      intro done batch
      rw [readBatch, Except.bind_eq_ok_iff]
      have hnames : ∀ p, batchNames (done ++ [p]) = batchNames done ++ [p.1.name] :=
        fun p => List.map_append
      constructor
      · rintro ⟨p, hp, hbatch⟩
        obtain ⟨raw, hraw, htaken, hnew⟩ := importFragment_eq_ok_iff.mp hp
        obtain ⟨rest, rfl, hrest, hfresh, hnodup⟩ := ih.mp hbatch
        refine ⟨p :: rest, by rw [List.append_assoc]; rfl, .cons ⟨raw, hraw, htaken⟩ hrest, ?_, ?_⟩
        · intro q hq
          rcases List.mem_cons.mp hq with rfl | hq
          · exact hnew
          · intro hold
            exact hfresh q hq (hnames p ▸ List.mem_append_left _ hold)
        · refine List.nodup_cons.mpr ⟨fun hmem => ?_, hnodup⟩
          obtain ⟨q, hq, hname⟩ := List.mem_map.mp hmem
          refine hfresh q hq ?_
          rw [hnames p, hname]
          exact List.mem_append_right _ (List.mem_singleton_self _)
      · rintro ⟨rest, rfl, hrest, hfresh, hnodup⟩
        cases hrest with
        | cons htaken hrest =>
            rename_i p rest
            obtain ⟨raw, hraw, htaken⟩ := htaken
            obtain ⟨hfirst, hnodup⟩ := List.nodup_cons.mp hnodup
            have hnew := hfresh p List.mem_cons_self
            refine ⟨p, importFragment_eq_ok_iff.mpr ⟨raw, hraw, htaken, hnew⟩, ih.mpr ?_⟩
            refine ⟨rest, by rw [List.append_assoc]; rfl, hrest, fun q hq => ?_, hnodup⟩
            rw [hnames p]
            intro hmem
            rcases List.mem_append.mp hmem with hold | hlast
            · exact hfresh q (List.mem_cons_of_mem _ hq) hold
            · exact hfirst (List.mem_map.mpr ⟨q, hq, List.mem_singleton.mp hlast⟩)

/-- The names of a batch that was read: fit for a profile, new, and different. -/
structure BatchNames (existing : List Bytes) (names : List Bytes) : Prop where
  named : ∀ name ∈ names, name ≠ [] ∧ name.length ≤ maxNameLen
  fresh : ∀ name ∈ names, name ∉ existing
  nodup : names.Nodup

/-- **A batch has names that can be added.** -/
theorem readBatch_names {existing : List Bytes} {frs : List Text}
    {batch : List (DeviceProfile × Bytes)} (h : readBatch J lim existing [] frs = .ok batch) :
    BatchNames existing (batchNames batch) := by
  obtain ⟨rest, hbatch, hrest, -, hnodup⟩ := readBatch_eq_ok_iff.mp h
  rw [List.nil_append] at hbatch
  rw [hbatch]
  have htaken : ∀ name ∈ batchNames rest,
      (name ≠ [] ∧ name.length ≤ maxNameLen) ∧ name ∉ existing := by
    intro name hname
    obtain ⟨p, hp, rfl⟩ := List.mem_map.mp hname
    obtain ⟨i, hi⟩ := List.mem_iff_getElem?.mp hp
    obtain ⟨fr, -, raw, -, htaken⟩ := exists_getElem?_of_forall₂ hrest hi
    exact ⟨⟨htaken.named, htaken.name_length_le⟩, htaken.fresh⟩
  exact ⟨fun name hname => (htaken name hname).1, fun name hname => (htaken name hname).2, hnodup⟩

/-- The migration keeps the names. -/
theorem migrateConfig_names (cfg : AppConfig) : (migrateConfig lim cfg).2.names = cfg.names := by
  have hsanitize : ∀ dps : List DeviceProfile,
      (dps.map (sanitizeDeviceProfile lim)).map (·.name) = dps.map (·.name) := by
    intro dps
    rw [List.map_map]
    rfl
  have hscale : (migrateLookupGain cfg).names = cfg.names := by
    unfold migrateLookupGain AppConfig.names
    rw [List.map_map]
    rfl
  unfold migrateConfig
  dsimp only
  split_ifs
  · rfl
  · exact (hsanitize _).trans hscale
  · exact hsanitize _
  · exact hscale
  · rfl

theorem migrateImported_name (version : Bytes) (dp : DeviceProfile) :
    (migrateImported lim version dp).name = dp.name := by
  have hnames : (migrateConfig lim { version, profiles := [dp] }).2.names = [dp.name] :=
    migrateConfig_names _
  unfold migrateImported
  unfold AppConfig.names at hnames
  generalize (migrateConfig lim { version, profiles := [dp] }).2.profiles = dps at hnames
  cases dps with
  | nil => rfl
  | cons dq dps => exact (List.cons.inj hnames).1

end AbrekMouse
