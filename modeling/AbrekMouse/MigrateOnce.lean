import AbrekMouse.Machine
import AbrekMouse.RoundTrip
import AbrekMouse.Truncation

/-! # The migration happens once

A configuration is read from a text, written and read again, any number of times and
through both paths.  Scaling a curve twice destroys it, so what matters is that the
text read first decides alone: `migrated_once` says that every configuration in any
such history holds the points of the first text, scaled once if its version is older
than 0.4.0 and as they are if not.
-/
namespace AbrekMouse
open ProgLib ProgLib.Fp ProgLib.PairSort
variable {Text : Type} (J : JsonText Text) (lim : Limits)

/-! ## One scaling -/

/-- The value of a point after the migration: times the key where that is positive and
the product is still a `float`. -/
def scaled (x y : Single) : Single :=
  let product : Double := convert y * convert x
  if (convert x : Double) > 0 ∧ product.isFinite ∧ (convert product : Single).isFinite then
    convert product
  else y

theorem getPair_migratePoint (d : Vector Single lutRawDataCapacity) {i : ℕ}
    (hi : 2 * i + 1 < lutRawDataCapacity) (q : ℕ) :
    getPair (migratePoint d i) q =
      (rd d (2 * q),
        if i = q then scaled (rd d (2 * i)) (rd d (2 * i + 1)) else rd d (2 * q + 1)) := by
  have hkey : 2 * i + 1 ≠ 2 * q := by omega
  unfold migratePoint scaled getPair
  dsimp only
  by_cases hq : i = q
  · subst hq
    split_ifs <;> simp_all [rd_wr]
  · split_ifs <;> simp [rd_wr, hkey, hq]

/-- The loop of the migration scales each of its points once. -/
theorem getPair_foldl_migratePoint (d : Vector Single lutRawDataCapacity) {n : ℕ}
    (hn : 2 * n ≤ lutRawDataCapacity) (q : ℕ) :
    getPair ((List.range n).foldl migratePoint d) q =
      (rd d (2 * q),
        if q < n then scaled (rd d (2 * q)) (rd d (2 * q + 1)) else rd d (2 * q + 1)) := by
  induction n with
  | zero => simp [getPair]
  | succ n ih =>
      rw [List.range_succ, List.foldl_append, List.foldl_cons, List.foldl_nil,
        getPair_migratePoint _ (by omega)]
      obtain ⟨hkey, hval⟩ := Prod.mk.inj (ih (by omega))
      by_cases hq : n = q
      · subst hq
        simp_all
      · have hiff : q < n + 1 ↔ q < n := by omega
        simp only [if_neg hq, hkey, hval, hiff]

/-- The points of `b` are those of `a`, scaled where that is due. -/
structure AccelArgs.ScaledFrom (due : Prop) [Decidable due] (a b : AccelArgs) : Prop where
  fields : { b with data := a.data } = a
  points : ∀ i < a.points,
    rd b.data (2 * i) = rd a.data (2 * i) ∧
    rd b.data (2 * i + 1) =
      if due ∧ a.mode = .lookup ∧ a.gain = true then
        scaled (rd a.data (2 * i)) (rd a.data (2 * i + 1))
      else rd a.data (2 * i + 1)

/-- The curves of the profile are scaled if that is due, and nothing else differs. -/
structure DeviceProfile.ScaledFrom (due : Prop) [Decidable due] (dp dq : DeviceProfile) : Prop where
  fields : { dq with prof := { dq.prof with accelX := dp.prof.accelX
                                            accelY := dp.prof.accelY } } = dp
  accelX : AccelArgs.ScaledFrom due dp.prof.accelX dq.prof.accelX
  accelY : AccelArgs.ScaledFrom due dp.prof.accelY dq.prof.accelY

variable {J lim}

/-- The migration of a curve point by point. -/
theorem migrateCurve_eq (a : AccelArgs) :
    ∃ d, migrateCurve a = { a with data := d } ∧
      (a.length ≤ lutRawDataCapacity → ∀ q, getPair d q =
        (rd a.data (2 * q),
          if q < a.points ∧ a.mode = .lookup ∧ a.gain = true then
            scaled (rd a.data (2 * q)) (rd a.data (2 * q + 1))
          else rd a.data (2 * q + 1))) := by
  unfold migrateCurve
  split_ifs with hskip
  · refine ⟨a.data, rfl, fun _ q => ?_⟩
    rw [if_neg]
    · rfl
    · rintro ⟨-, hmode, hgain⟩
      simp [hmode, hgain] at hskip
  · simp only [ne_eq, Bool.not_eq_true', not_or, not_not, Bool.not_eq_false] at hskip
    refine ⟨_, rfl, fun hlen q => ?_⟩
    have hpts := points_le a
    rw [getPair_foldl_migratePoint _ (by omega)]
    simp [hskip]

/-- A migrated point is finite again. -/
theorem scaled_finite {x y : Single} (hy : y.isFinite = true) : (scaled x y).isFinite = true := by
  unfold scaled
  dsimp only
  split_ifs with h
  · exact h.2.2
  · exact hy

/-- The migration keeps a clean curve clean: the keys stay, and so does their order. -/
theorem migrateCurve_clean {a : AccelArgs} (h : a.Clean lim) : (migrateCurve a).Clean lim := by
  obtain ⟨d, hd, hpair⟩ := migrateCurve_eq a
  have hget := hpair h.lut.length_le
  have hkey : ∀ q, rd d (2 * q) = rd a.data (2 * q) := fun q => (Prod.mk.inj (hget q)).1
  have hfin : ∀ i < a.length.toNat, (rd d i).isFinite = true := fun i hi => by
    have hparity : i = 2 * (i / 2) ∨ i = 2 * (i / 2) + 1 := by omega
    rcases hparity with heven | hodd
    · rw [heven, hkey, ← heven]
      exact h.lut.finite i hi
    · have hval := (Prod.mk.inj (hget (i / 2))).2
      have hold : (rd a.data (2 * (i / 2) + 1)).isFinite = true := hodd ▸ h.lut.finite i hi
      rw [hodd, hval]
      split_ifs
      · exact scaled_finite hold
      · exact hold
  rw [hd]
  refine h.withData ⟨h.lut.length_nonneg, h.lut.length_le, hfin, fun i j hij hj => ?_⟩
  rw [hkey, hkey]
  exact h.lut.sorted i j hij hj

/-! ## A profile of the first text -/

section Scaled
variable {due : Prop} [Decidable due]

/-- Both curves of a profile, migrated. -/
def migrateProfile (dp : DeviceProfile) : DeviceProfile :=
  { dp with prof := { dp.prof with accelX := migrateCurve dp.prof.accelX
                                   accelY := migrateCurve dp.prof.accelY } }

theorem migrateProfile_clean {dp : DeviceProfile} (h : dp.Clean lim) :
    (migrateProfile dp).Clean lim :=
  ⟨h.devCfg, h.prof.withCurves (migrateCurve_clean h.prof.accelX)
    (migrateCurve_clean h.prof.accelY)⟩

theorem migrateCurve_scaledFrom {a : AccelArgs} (h : a.Clean lim) :
    AccelArgs.ScaledFrom due a (if due then migrateCurve a else a) := by
  split_ifs with hdue
  · obtain ⟨d, hd, hpair⟩ := migrateCurve_eq a
    rw [hd]
    refine ⟨rfl, fun i hi => ?_⟩
    obtain ⟨hkey, hval⟩ := Prod.mk.inj (hpair h.lut.length_le i)
    exact ⟨hkey, by simpa only [hi, hdue, true_and] using hval⟩
  · exact ⟨rfl, fun i _ => ⟨rfl, by simp only [hdue, false_and, if_false]⟩⟩

/-- A scaled curve stays one when it is written and read back. -/
theorem AccelArgs.ScaledFrom.trim {a b : AccelArgs} (h : AccelArgs.ScaledFrom due a b)
    (hlen : a.length ≤ lutRawDataCapacity) : AccelArgs.ScaledFrom due a b.trim := by
  obtain ⟨hfields, hpoints⟩ := h
  have hsame : b.length = a.length := (congrArg AccelArgs.length hfields :)
  refine ⟨hfields, fun i hi => ?_⟩
  have hpts := points_le a
  rw [rd_trim b (by omega), rd_trim b (by omega), if_pos (by omega), if_pos (by omega)]
  exact hpoints i hi

theorem migrateProfile_scaledFrom {dp : DeviceProfile} (h : dp.Clean lim) :
    DeviceProfile.ScaledFrom due dp (if due then migrateProfile dp else dp) := by
  have hx : AccelArgs.ScaledFrom due dp.prof.accelX _ := migrateCurve_scaledFrom h.prof.accelX
  have hy : AccelArgs.ScaledFrom due dp.prof.accelY _ := migrateCurve_scaledFrom h.prof.accelY
  split_ifs at hx hy ⊢
  · exact ⟨rfl, hx, hy⟩
  · exact ⟨rfl, hx, hy⟩

theorem DeviceProfile.ScaledFrom.trim {dp dq : DeviceProfile}
    (h : DeviceProfile.ScaledFrom due dp dq) (hclean : dp.Clean lim) :
    DeviceProfile.ScaledFrom due dp dq.trim :=
  ⟨h.fields, h.accelX.trim hclean.prof.accelX.lut.length_le,
    h.accelY.trim hclean.prof.accelY.lut.length_le⟩

end Scaled

/-! ## When it is due -/

/-- A version before 0.4.0, or none. -/
def Due (v : Bytes) : Prop :=
  v = [] ∨ Malformed v ∨ ∃ ns, parseVersion v = some ns ∧ PaddedLex.Older ns [0, 4, 0]

theorem due_iff {v : Bytes} : Due v ↔ versionLt v version040 = true := by
  have h040 : parseVersion version040 = some [0, 4, 0] := by decide
  unfold Due
  rw [versionLt_iff, h040]
  constructor
  · rintro (rfl | hbad | ⟨ns, hns, hold⟩)
    · exact .inl (parseVersion_eq_none.mp (by decide))
    · exact .inl hbad
    · exact .inr ⟨ns, _, hns, rfl, hold⟩
  · rintro (hbad | ⟨ns, b, hns, hb, hold⟩)
    · exact .inr (.inl hbad)
    · cases hb
      exact .inr (.inr ⟨ns, hns, hold⟩)

instance (v : Bytes) : Decidable (Due v) := decidable_of_iff _ due_iff.symm

/-- **One migration.**  The profiles are scaled when that is due, and sanitizing what
was sanitized before changes nothing. -/
theorem migrateConfig_spec {cfg : AppConfig} (h : ∀ dp ∈ cfg.profiles, dp.Clean lim) :
    (migrateConfig lim cfg).2 =
      { cfg with
        version := if Due cfg.version then rawaccelVersion else cfg.version
        profiles := cfg.profiles.map fun dp =>
          if Due cfg.version then migrateProfile dp else dp } := by
  by_cases hdue : Due cfg.version
  · have hlt := due_iff.mp hdue
    have hne : cfg.version ≠ rawaccelVersion := fun heq => by
      rw [heq] at hlt
      exact absurd hlt (by decide)
    have hprofiles : (migrateLookupGain cfg).profiles.map (sanitizeDeviceProfile lim) =
        cfg.profiles.map migrateProfile := by
      unfold migrateLookupGain
      rw [List.map_map]
      exact List.map_congr_left fun dp hdp =>
        sanitizeDeviceProfile_of_clean (migrateProfile_clean (h dp hdp))
    simp only [migrateConfig, hne, hlt, hdue, hprofiles, if_true, if_false, or_true]
    rfl
  · have hnew : ¬versionLt cfg.version version040 = true := fun hlt => hdue (due_iff.mpr hlt)
    have hne : cfg.version ≠ [] := fun heq => hdue (.inl heq)
    rw [migrateConfig_of_not_older lim hne hnew]
    simp only [hdue, if_false, List.map_id']

/-! ## Reading keeps to the caps -/

/-- What a read that succeeded bound. -/
theorem ok_of_bind {ε α β : Type} {x : Except ε α} {f : α → Except ε β} {b : β}
    (h : x.bind f = .ok b) : ∃ a, f a = .ok b := by
  cases x with
  | error e => cases h
  | ok a => exact ⟨a, h⟩

theorem lutFields_even {j : Json} {a : AccelArgs} (h : a.length % 2 = 0) :
    (lutFields j a).length % 2 = 0 := by
  unfold lutFields
  split
  · dsimp only
    omega
  · exact h

theorem accelArgsFromJson_even {j : Json} {a : AccelArgs} (h : accelArgsFromJson j = .ok a) :
    a.length % 2 = 0 := by
  simp only [accelArgsFromJson, bind] at h
  -- the mode, the numbers and the cap mode may each fail; the table is read last
  iterate 14 obtain ⟨_, h⟩ := ok_of_bind h
  cases h
  exact lutFields_even rfl

theorem accelField_even {j : Json} {key : String} {a dflt : AccelArgs}
    (h : accelField j key dflt = .ok a) (hdflt : dflt.length % 2 = 0) : a.length % 2 = 0 := by
  unfold accelField at h
  split at h
  · split_ifs at h
    · exact accelArgsFromJson_even h
    · cases h
      exact hdflt
  · cases h
    exact hdflt

theorem profField_even {pj : Json} {p : Profile} (h : profField pj {} = .ok p) : p.Even := by
  have hobj : ∀ {q : Json}, profileFromJsonObj q = .ok p → p.Even := by
    intro q hq
    simp only [profileFromJsonObj, bind, Except.bind, pure, Except.pure] at hq
    split at hq
    · cases hq
    · rename_i x hx
      split at hq
      · cases hq
      · rename_i y hy
        cases hq
        exact ⟨accelField_even hx rfl, accelField_even hy rfl⟩
  unfold profField at h
  split at h
  · split_ifs at h
    · exact hobj h
    · cases h
      exact ⟨rfl, rfl⟩
  · cases h
    exact ⟨rfl, rfl⟩

theorem stringField_length {j : Json} {key : String} {cap : ℕ} :
    (stringField j key [] [] cap).length ≤ cap := by
  unfold stringField jsonGetStringLimited
  split
  · split
    · split_ifs with hlong
      · exact List.length_take_le cap _
      · exact Nat.not_lt.mp hlong
    · exact Nat.zero_le cap
  · exact Nat.zero_le cap

variable (lim) in
theorem sanitizeProfile_even {p : Profile} (h : p.Even) : (sanitizeProfile lim p).Even := by
  have hlength : ∀ a : AccelArgs, a.length % 2 = 0 → (sanitizeAccelArgs lim a).length % 2 = 0 :=
    fun a ha => by
      rw [sanitizeAccelArgs_length]
      unfold clampLength lutRawDataCapacity
      dsimp only
      omega
  exact ⟨hlength p.accelX h.1, hlength p.accelY h.2⟩

/-- What the reader returns is clean, within the caps, and made of whole points. -/
structure DeviceProfile.Readable (lim : Limits) (dp : DeviceProfile) : Prop where
  clean : dp.Clean lim
  capped : dp.Capped
  even : dp.prof.Even

theorem deviceProfileFromJson_readable {pj : Json} {dp : DeviceProfile}
    (h : deviceProfileFromJson lim pj = .ok dp) : dp.Readable lim := by
  unfold deviceProfileFromJson at h
  simp only [bind, Except.bind, pure, Except.pure] at h
  split at h
  · cases h
  · rename_i p hp
    cases h
    have hid : ∀ s : Bytes, s.length ≤ maxDpDeviceId →
        (if s ∈ allDevicesAliases then [] else s).length ≤ maxDpDeviceId ∧
          (if s ∈ allDevicesAliases then [] else s) ∉ allDevicesAliases := fun s hs => by
      split_ifs with halias
      · exact ⟨Nat.zero_le _, by decide⟩
      · exact ⟨hs, halias⟩
    obtain ⟨hlen, halias⟩ := hid _ stringField_length
    exact ⟨sanitizeDeviceProfile_clean lim _,
      ⟨stringField_length, hlen, stringField_length, halias⟩,
      sanitizeProfile_even lim (profField_even hp)⟩

theorem DeviceProfile.Readable.trim {dp : DeviceProfile} (h : dp.Readable lim) :
    dp.trim.Readable lim := by
  obtain ⟨hclean, ⟨hname, hid, happ, halias⟩, hx, hy⟩ := h
  exact ⟨hclean.trim, ⟨hname, hid, happ, halias⟩, hx, hy⟩

theorem DeviceProfile.Readable.migrate {dp : DeviceProfile} (h : dp.Readable lim) :
    (migrateProfile dp).Readable lim := by
  have hlength : ∀ a : AccelArgs, (migrateCurve a).length = a.length := fun a => by
    obtain ⟨d, hd, -⟩ := migrateCurve_eq a
    rw [hd]
  obtain ⟨hclean, ⟨hname, hid, happ, halias⟩, hx, hy⟩ := h
  refine ⟨migrateProfile_clean hclean, ⟨hname, hid, happ, halias⟩, ?_, ?_⟩
  · rw [← hlength] at hx
    exact hx
  · rw [← hlength] at hy
    exact hy

/-! ## Histories -/

/-- The texts that were ever there, and the configuration in memory. -/
structure History (Text : Type) where
  texts : List Text
  cfg : Option AppConfig

/-- Any text may be read, through either loader; what is in memory may be saved or
printed for a push. -/
inductive HistoryStep
  | read (l : Loader) (k : ℕ)
  | save (fault : Option Bytes)
  | toJson

variable (J lim) in
/-- A call that throws leaves the texts and the configuration as they are. -/
def History.step (s : History Text) : HistoryStep → Option (History Text)
  | .read l k =>
      s.texts[k]?.map fun t =>
        match l.load J lim t with
        | .ok cfg => { s with cfg := some cfg }
        | .error _ => s
  | .save fault =>
      s.cfg.map fun cfg =>
        match saveConfig J lim fault cfg none with
        | (.ok _, some t) => { s with texts := s.texts ++ [t] }
        | _ => s
  | .toJson =>
      s.cfg.map fun cfg =>
        match appConfigToJson J cfg with
        | .ok t => { s with texts := s.texts ++ [t] }
        | .error _ => s

variable (J lim) in
/-- The histories of one text. -/
def historyMachine (first : Text) : Machine (History Text) HistoryStep where
  Start s := s = { texts := [first], cfg := none }
  step := History.step J lim

/-- What every configuration of a history keeps of the first text. -/
structure Descends (lim : Limits) (j : Json) (c : AppConfig) : Prop where
  version : ¬Due c.version
  kept : ¬versionLt (versionField j []) rawaccelVersion = true → c.version = versionField j []
  readable : ∀ dp ∈ c.profiles, dp.Readable lim
  count : min (profileElems j).length maxProfiles ≤ c.profiles.length
  source : ∀ (i : ℕ) dp, c.profiles[i]? = some dp → ∃ pj raw, (profileElems j)[i]? = some pj ∧
    deviceProfileFromJson lim pj = .ok raw ∧
    DeviceProfile.ScaledFrom (Due (versionField j [])) raw dp

theorem Loader.le_maxProfiles : ∀ l : Loader, AbrekMouse.maxProfiles ≤ l.maxProfiles
  | push => Nat.le_refl _
  | file _ => (by decide : AbrekMouse.maxProfiles ≤ maxProfilesFile)

/-- The elements that pairwise related lists have at one index are related. -/
theorem exists_getElem?_of_forall₂ {α β : Type} {R : α → β → Prop} {as : List α} {bs : List β}
    (h : as.Forall₂ R bs) {i : ℕ} {b : β} (hb : bs[i]? = some b) :
    ∃ a, as[i]? = some a ∧ R a b := by
  induction h generalizing i with
  | nil => cases hb
  | cons hab _ ih =>
      cases i with
      | zero =>
          cases hb
          exact ⟨_, rfl, hab⟩
      | succ i => exact ih hb

theorem appConfigFromJsonObj_version {j : Json} {maxProfiles : ℕ} {read : AppConfig}
    (h : appConfigFromJsonObj lim j maxProfiles = .ok read) :
    read.version = versionField j [] ∧
      (retained maxProfiles j).Forall₂
        (fun pj dp => deviceProfileFromJson lim pj = .ok dp) read.profiles := by
  unfold appConfigFromJsonObj at h
  simp only [bind, Except.bind, pure, Except.pure, throw, throwThe, MonadExceptOf.throw] at h
  split at h
  · cases h
  · split at h
    · cases h
    · rename_i dps hdps
      cases h
      exact ⟨rfl, (profilesField_spec hdps).2⟩

theorem not_due_rawaccelVersion : ¬Due rawaccelVersion := by decide

/-- What is not older than the current version is not due. -/
theorem not_due_of_current {v : Bytes} (h : ¬versionLt v rawaccelVersion = true) : ¬Due v :=
  fun hdue => not_versionLt_version040 h (due_iff.mp hdue)

/-- **Reading the first text.** -/
theorem descends_of_first {l : Loader} {t : Text} {j : Json} {c : AppConfig}
    (hparse : J.parse t = .ok j) (h : l.load J lim t = .ok c) : Descends lim j c := by
  obtain ⟨j', read, hj', hread, rfl⟩ := l.load_eq_ok h
  obtain rfl : j = j' := Except.ok.inj (hparse.symm.trans hj')
  obtain ⟨hversion, hall⟩ := appConfigFromJsonObj_version hread
  have hraw : ∀ dp ∈ read.profiles, dp.Readable lim := fun dp hdp => by
    obtain ⟨i, hi⟩ := List.mem_iff_getElem?.mp hdp
    obtain ⟨pj, -, hpj⟩ := exists_getElem?_of_forall₂ hall hi
    exact deviceProfileFromJson_readable hpj
  rw [migrateConfig_spec fun dp hdp => (hraw dp hdp).clean, hversion]
  refine ⟨?_, fun hnew => if_neg (not_due_of_current hnew), ?_, ?_, fun i dp hdp => ?_⟩
  · dsimp only
    split_ifs with hdue
    · exact not_due_rawaccelVersion
    · exact hdue
  · refine List.forall_mem_map.mpr fun dp hdp => ?_
    split_ifs
    · exact (hraw dp hdp).migrate
    · exact hraw dp hdp
  · have hlength := hall.length_eq
    have hcap := l.le_maxProfiles
    simp only [retained, List.length_take, List.length_map] at hlength ⊢
    omega
  · rw [List.getElem?_map, Option.map_eq_some_iff] at hdp
    obtain ⟨raw, hget, rfl⟩ := hdp
    obtain ⟨pj, hpj, hok⟩ := exists_getElem?_of_forall₂ hall hget
    have hpj' : (profileElems j)[i]? = some pj := by
      rw [retained, List.getElem?_take] at hpj
      split_ifs at hpj
      exact hpj
    exact ⟨pj, raw, hpj', hok,
      migrateProfile_scaledFrom (deviceProfileFromJson_readable hok).clean⟩

theorem appConfigToJsonObj_get? (cfg : AppConfig) :
    ∀ p ∈ appConfigMembers cfg, (appConfigToJsonObj cfg).get? p.1 = some p.2 :=
  Json.get?_object (appConfigMembers_nodup cfg)

theorem versionField_toJson (cfg : AppConfig) :
    versionField (appConfigToJsonObj cfg) [] = storedVersion cfg.version := by
  have hget := appConfigToJsonObj_get? cfg
  simp only [appConfigMembers, List.forall_mem_cons] at hget
  simp only [versionField, hget.1]

theorem profileElems_toJson (cfg : AppConfig) :
    profileElems (appConfigToJsonObj cfg) = cfg.profiles.map deviceProfileToJson := by
  have hget := appConfigToJsonObj_get? cfg
  simp only [appConfigMembers, List.forall_mem_cons] at hget
  simp only [profileElems, hget.2.2.2.1, Json.elems]

/-- A profile that was read is read back trimmed, by any loader. -/
theorem getElem?_readBack {cfg read : AppConfig} {maxProfiles : ℕ}
    (hreadable : ∀ dp ∈ cfg.profiles, dp.Readable lim)
    (h : (retained maxProfiles (appConfigToJsonObj cfg)).Forall₂
      (fun pj dp => deviceProfileFromJson lim pj = .ok dp) read.profiles) {i : ℕ}
    {dp : DeviceProfile} (hdp : read.profiles[i]? = some dp) :
    ∃ old, cfg.profiles[i]? = some old ∧ old.Readable lim ∧ dp = old.trim := by
  obtain ⟨pj, hpj, hok⟩ := exists_getElem?_of_forall₂ h hdp
  rw [retained, profileElems_toJson, List.getElem?_take] at hpj
  split_ifs at hpj
  rw [List.getElem?_map, Option.map_eq_some_iff] at hpj
  obtain ⟨old, hold, rfl⟩ := hpj
  obtain ⟨hclean, hcapped, heven⟩ := hreadable old (List.mem_of_getElem? hold)
  rw [deviceProfileFromJson_toJson hclean hcapped heven] at hok
  exact ⟨old, hold, ⟨hclean, hcapped, heven⟩, (Except.ok.inj hok).symm⟩

/-- **Reading what was written.**  The version that was written is not due, so the
points come back as they are. -/
theorem descends_of_written {l : Loader} {t : Text} {j : Json} {c c' : AppConfig}
    (hc : Descends lim j c) (hparse : J.parse t = .ok (appConfigToJsonObj c))
    (h : l.load J lim t = .ok c') : Descends lim j c' := by
  obtain ⟨j', read, hj', hread, rfl⟩ := l.load_eq_ok h
  obtain rfl := Except.ok.inj (hparse.symm.trans hj')
  obtain ⟨hversion, hall⟩ := appConfigFromJsonObj_version hread
  rw [versionField_toJson] at hversion
  have hnew : ¬versionLt read.version rawaccelVersion = true := by
    rw [hversion]
    exact (storedVersion_spec c.version).2
  have hne : read.version ≠ [] := by
    rw [hversion]
    exact (storedVersion_spec c.version).1
  rw [migrateConfig_of_not_older lim hne (not_versionLt_version040 hnew)]
  refine ⟨not_due_of_current hnew, fun hcurrent => ?_, fun dp hdp => ?_, ?_, fun i dp hdp => ?_⟩
  · have hkept := hc.kept hcurrent
    have hfirst : storedVersion (versionField j []) = versionField j [] := by
      refine if_neg (not_or.mpr ⟨fun hnil => ?_, hcurrent⟩)
      rw [hnil] at hcurrent
      exact hcurrent (by decide)
    rw [hversion, hkept, hfirst]
  · obtain ⟨i, hi⟩ := List.mem_iff_getElem?.mp hdp
    obtain ⟨old, -, hold, rfl⟩ := getElem?_readBack hc.readable hall hi
    exact hold.trim
  · have hlength := hall.length_eq
    have hcap := l.le_maxProfiles
    have hcount := hc.count
    simp only [retained, profileElems_toJson, List.length_take, List.length_map] at hlength
    dsimp only
    omega
  · obtain ⟨old, hold, -, rfl⟩ := getElem?_readBack hc.readable hall hdp
    obtain ⟨pj, raw, hpj, hok, hscaled⟩ := hc.source i old hold
    exact ⟨pj, raw, hpj, hok, hscaled.trim (deviceProfileFromJson_readable hok).clean⟩

/-- A text that was saved parses as the configuration it was made of. -/
theorem parse_of_saved {cfg : AppConfig} {t : Text} (h : savedContent J lim cfg = .ok t) :
    J.parse t = .ok (appConfigToJsonObj (sanitizeConfig lim cfg)) := by
  obtain ⟨hlen, henc⟩ := savedContent_ok_iff.mp ⟨t, h⟩
  obtain ⟨t', ht', hparse⟩ := savedContent_parse J lim hlen henc
  obtain rfl : t = t' := Except.ok.inj (h.symm.trans ht')
  unfold parseJson at hparse
  cases hj : J.parse t with
  | error e =>
      rw [hj] at hparse
      cases hparse
  | ok j =>
      rw [hj] at hparse
      exact congrArg Except.ok (Except.ok.inj hparse)

/-- A text that was printed for a push parses as the configuration it was made of, with
a `null` in the place of each number that is not finite. -/
theorem parse_of_pushed {cfg : AppConfig} {t : Text} (hints : ∀ dp ∈ cfg.profiles, dp.HasInts)
    (h : appConfigToJson J cfg = .ok t) :
    J.parse t = .ok (appConfigToJsonObj cfg).printed := by
  unfold appConfigToJson dumpJson at h
  cases hdump : J.dump none (appConfigToJsonObj cfg) with
  | error e =>
      rw [hdump] at h
      cases h
  | ok u =>
      rw [hdump] at h
      cases h
      exact J.parse_dump (appConfigToJsonObj_representable hints) hdump

theorem sanitizeConfig_of_clean {cfg : AppConfig} (h : ∀ dp ∈ cfg.profiles, dp.Clean lim) :
    sanitizeConfig lim cfg = cfg := by
  have hprofiles : cfg.profiles.map (sanitizeDeviceProfile lim) = cfg.profiles :=
    (List.map_congr_left fun dp hdp => sanitizeDeviceProfile_of_clean (h dp hdp)).trans
      (List.map_id' _)
  unfold sanitizeConfig
  rw [hprofiles]

/-- Every text of a history is the first one, or holds one of its configurations. -/
structure HistoryInv (J : JsonText Text) (lim : Limits) (first : Text) (s : History Text) :
    Prop where
  texts : ∀ t ∈ s.texts, t = first ∨ ∃ j c, J.parse first = .ok j ∧ Descends lim j c ∧
    J.parse t = .ok (appConfigToJsonObj c)
  cfg : ∀ c, s.cfg = some c → ∃ j, J.parse first = .ok j ∧ Descends lim j c

theorem historyInv_append {first t : Text} {s : History Text} {c : AppConfig}
    (h : HistoryInv J lim first s) (hc : s.cfg = some c)
    (ht : (appConfigToJson J c = .ok t) ∨ savedContent J lim c = .ok t) :
    HistoryInv J lim first { s with texts := s.texts ++ [t] } := by
  refine ⟨List.forall_mem_append.mpr ⟨h.texts, List.forall_mem_singleton.mpr (.inr ?_)⟩, h.cfg⟩
  obtain ⟨j, hj, hdesc⟩ := h.cfg c hc
  have hclean : ∀ dp ∈ c.profiles, dp.Clean lim := fun dp hdp => (hdesc.readable dp hdp).clean
  refine ⟨j, c, hj, hdesc, ?_⟩
  rcases ht with hpush | hsave
  · have hints : ∀ dp ∈ c.profiles, dp.HasInts := fun dp hdp => (hclean dp hdp).hasInts
    rw [parse_of_pushed hints hpush, Json.printed_of_finite (appConfigToJsonObj_finite hclean)]
  · rw [parse_of_saved hsave, sanitizeConfig_of_clean hclean]

theorem historyInv_step {first : Text} {s s' : History Text} {a : HistoryStep}
    (h : HistoryInv J lim first s) (hstep : s.step J lim a = some s') :
    HistoryInv J lim first s' := by
  cases a with
  | read l k =>
      obtain ⟨t, ht, rfl⟩ := Option.map_eq_some_iff.mp hstep
      cases hload : l.load J lim t with
      | error e => exact h
      | ok c =>
          refine ⟨h.texts, fun c' hc' => ?_⟩
          cases hc'
          rcases h.texts t (List.mem_of_getElem? ht) with rfl | ⟨j, c₀, hj, hdesc, hparse⟩
          · obtain ⟨j, _, hj, -⟩ := l.load_eq_ok hload
            exact ⟨j, hj, descends_of_first hj hload⟩
          · exact ⟨j, hj, descends_of_written hdesc hparse hload⟩
  | save fault =>
      obtain ⟨c, hc, rfl⟩ := Option.map_eq_some_iff.mp hstep
      unfold saveConfig
      cases hsave : savedContent J lim c with
      | error e => exact h
      | ok t =>
          cases fault with
          | some what => exact h
          | none => exact historyInv_append h hc (.inr hsave)
  | toJson =>
      obtain ⟨c, hc, rfl⟩ := Option.map_eq_some_iff.mp hstep
      cases hpush : appConfigToJson J c with
      | error e => exact h
      | ok t => exact historyInv_append h hc (.inl hpush)

theorem historyInv_reachable {first : Text} {s : History Text}
    (h : (historyMachine J lim first).Reachable s) : HistoryInv J lim first s := by
  refine h.invariant ?_ ?_
  · rintro s rfl
    exact ⟨List.forall_mem_singleton.mpr (.inl rfl), fun c hc => by cases hc⟩
  · intro s a s' hs _ hstep
    exact historyInv_step hs hstep

/-- Both writers keep a version that is not older than the current one. -/
theorem versionField_of_written {cfg : AppConfig} {t : Text}
    (hcurrent : ¬versionLt cfg.version rawaccelVersion = true)
    (h : savedContent J lim cfg = .ok t ∨
      (∀ dp ∈ cfg.profiles, dp.HasInts) ∧ appConfigToJson J cfg = .ok t) :
    ∃ j, J.parse t = .ok j ∧ versionField j [] = cfg.version := by
  have hstored : storedVersion cfg.version = cfg.version := by
    refine if_neg (not_or.mpr ⟨fun hnil => ?_, hcurrent⟩)
    rw [hnil] at hcurrent
    exact hcurrent (by decide)
  have hget := appConfigToJsonObj_get? cfg
  simp only [appConfigMembers, List.forall_mem_cons] at hget
  rcases h with hsave | ⟨hints, hpush⟩
  · exact ⟨_, parse_of_saved hsave, (versionField_toJson _).trans hstored⟩
  · refine ⟨_, parse_of_pushed hints hpush, ?_⟩
    simp only [versionField, Json.get?_printed, hget.1, Option.map_some, Json.printed, hstored]

variable (J lim)

/-- **The migration happens once, and when it is due.**  Whatever is read, saved and
pushed after a first text, every profile in memory is the profile at its place in that
text, its lookup points scaled once if the version of that text is due and as they are
if not; no profile is lost but those that the push path cuts.  A version that is not
older than the current one is written as it is, and stays so through the history; the
integers of what is pushed are `int`s of the code. -/
theorem migrated_once (first : Text) (s : History Text)
    (h : (historyMachine J lim first).Reachable s) (c : AppConfig) (hc : s.cfg = some c) :
    ∃ j, J.parse first = .ok j ∧
      min (profileElems j).length maxProfiles ≤ c.profiles.length ∧
      (∀ (i : ℕ) dp, c.profiles[i]? = some dp → ∃ pj raw, (profileElems j)[i]? = some pj ∧
        deviceProfileFromJson lim pj = .ok raw ∧
        DeviceProfile.ScaledFrom (Due (versionField j [])) raw dp) ∧
      (¬versionLt (versionField j []) rawaccelVersion = true → c.version = versionField j []) ∧
      ∀ cfg t, ¬versionLt cfg.version rawaccelVersion = true →
        savedContent J lim cfg = .ok t ∨
          (∀ dp ∈ cfg.profiles, dp.HasInts) ∧ appConfigToJson J cfg = .ok t →
        ∃ j', J.parse t = .ok j' ∧ versionField j' [] = cfg.version := by
  obtain ⟨j, hj, hdesc⟩ := (historyInv_reachable h).cfg c hc
  exact ⟨j, hj, hdesc.count, hdesc.source, hdesc.kept, fun _ _ => versionField_of_written⟩

/-- A text of 0.3.0 with one point of a curve: gain 3 at speed 2. -/
def oldText : Json :=
  .object [("version", .str version030), ("profiles", .arr [.object [("profile", .object
    [("accel_x", .object [("mode", .str (bytes "lookup")),
      ("lut_data", .arr [.int 2, .int 3])])])]])]

/-- It is loaded, saved, and the file is pushed. -/
def oldHistory : Option (History Json) :=
  (historyMachine JsonText.trees Limits.documented oldText).exec (fun _ _ => True)
    { texts := [oldText], cfg := none } [.read (.file []) 0, .save none, .read .push 1]

theorem migrated_once_oldText : ∃ s c, oldHistory = some s ∧ s.cfg = some c ∧
    ∃ j, JsonText.trees.parse oldText = .ok j ∧
      min (profileElems j).length maxProfiles ≤ c.profiles.length ∧
      (∀ (i : ℕ) dp, c.profiles[i]? = some dp → ∃ pj raw, (profileElems j)[i]? = some pj ∧
        deviceProfileFromJson Limits.documented pj = .ok raw ∧
        DeviceProfile.ScaledFrom (Due (versionField j [])) raw dp) ∧
      (¬versionLt (versionField j []) rawaccelVersion = true → c.version = versionField j []) ∧
      ∀ cfg t, ¬versionLt cfg.version rawaccelVersion = true →
        savedContent JsonText.trees Limits.documented cfg = .ok t ∨
          (∀ dp ∈ cfg.profiles, dp.HasInts) ∧ appConfigToJson JsonText.trees cfg = .ok t →
        ∃ j', JsonText.trees.parse t = .ok j' ∧ versionField j' [] = cfg.version := by
  have hsome : (oldHistory.bind History.cfg).isSome = true := by decide +kernel
  obtain ⟨c, hbind⟩ := Option.isSome_iff_exists.mp hsome
  obtain ⟨s, hs, hc⟩ := Option.bind_eq_some_iff.mp hbind
  exact ⟨s, c, hs, hc, migrated_once _ _ oldText s (Machine.Run.exec (.start rfl) hs) c hc⟩

end AbrekMouse
