import AbrekMouse.FindProfile

/-! # The profile that `status` reports

`status` prints for each device the profile that it takes to be effective.  It goes through the
scopes of `findProfile`: the device, all devices, the active profile, any profile.  But it does
not look at the application filters.  Where no application is focused, a profile with a filter
is not selected; so what is printed is right exactly if the first profile in the first scope
that is not empty has no filter (`status_profile_iff`).
-/
namespace AbrekMouse
open ProgLib

/-- The scopes, in the order in which they are tried. -/
def profileScopes (cfg : AppConfig) (devId : Bytes) : List (DeviceProfile → Bool) :=
  [fun p => p.deviceId ≠ [] && p.deviceId = devId, fun p => p.deviceId = [],
    fun p => p.name = cfg.activeProfile, fun _ => true]

/-- The effective profile, as `cmd_status` finds it. -/
def statusProfile (cfg : AppConfig) (devId : Bytes) : Option DeviceProfile :=
  (cfg.profiles.find? fun p => p.deviceId ≠ [] && p.deviceId = devId).or <|
  (cfg.profiles.find? fun p => p.deviceId = []).or <|
  (cfg.profiles.find? fun p => p.name = cfg.activeProfile).or <|
  cfg.profiles.head?

/-- The line of a device; without a profile there is none. -/
def statusProfileLine (cfg : AppConfig) (devId : Bytes) : Bytes :=
  match statusProfile cfg devId with
  | none => []
  | some p =>
      bytes "    profile    : " ++ p.name ++
        (if p.deviceId ≠ [] then bytes "  (device-specific)"
        else if p.name = cfg.activeProfile then bytes "  (active)"
        else bytes "  (first-profile fallback)") ++
        (if p.matchApp ≠ [] then
          bytes "  (app-scoped \"" ++ p.matchApp ++ bytes "\" " ++ [0xE2, 0x80, 0x94] ++
            bytes " only while the focused app matches)"
        else []) ++ bytes "\n"

variable {cfg : AppConfig} {devId : Bytes} {profiles : List DeviceProfile} {p : DeviceProfile}
variable {scope : DeviceProfile → Bool} {scopes : List (DeviceProfile → Bool)}

/-- In the first scope that is not empty, the first profile has no filter. -/
def FirstUnfiltered (profiles : List DeviceProfile) : List (DeviceProfile → Bool) → Prop
  | [] => True
  | scope :: scopes =>
      (∀ before p after, profiles = before ++ p :: after → scope p = true →
        (∀ q ∈ before, scope q = false) → p.matchApp = []) ∧
      ((∀ p ∈ profiles, scope p = false) → FirstUnfiltered profiles scopes)

/-- Without a focused application, only profiles without a filter apply. -/
theorem profileMatchesApp_nil : profileMatchesApp p [] = true ↔ p.matchApp = [] := by
  unfold profileMatchesApp
  by_cases hfilter : p.matchApp = []
  · rw [if_pos hfilter]
    exact iff_of_true rfl hfilter
  · rw [if_neg hfilter]
    refine iff_of_false (fun happ => ?_) hfilter
    have hlength : ([] : Bytes).length < p.matchApp.length := List.length_pos_iff.mpr hfilter
    unfold asciiIcontains at happ
    rw [if_neg hfilter, if_pos hlength] at happ
    cases happ

/-- A pass finds the first profile of its scope exactly if that has no filter. -/
theorem firstMatch_nil_eq (h : profiles.find? scope = some p) (hfilter : p.matchApp = []) :
    firstMatch scope [] profiles = some p := by
  obtain ⟨hscope, before, after, hsplit, hbefore⟩ := List.find?_eq_some_iff_append.mp h
  refine List.find?_eq_some_iff_append.mpr ⟨?_, before, after, hsplit, fun q hq => ?_⟩
  · rw [hscope, profileMatchesApp_nil.mpr hfilter]
    rfl
  · have hq := hbefore q hq
    rw [Bool.not_eq_true'] at hq ⊢
    rw [hq, Bool.false_and]

theorem firstUnfiltered_cons_of_some (h : profiles.find? scope = some p) :
    FirstUnfiltered profiles (scope :: scopes) ↔ p.matchApp = [] := by
  obtain ⟨hscope, before, after, hsplit, hbefore⟩ := List.find?_eq_some_iff_append.mp h
  constructor
  · rintro ⟨hfirst, -⟩
    exact hfirst before p after hsplit hscope fun q hq => (Bool.not_eq_true' _).mp (hbefore q hq)
  · intro hfilter
    refine ⟨fun before' q after' hsplit' hscope' hbefore' => ?_, fun hnone => ?_⟩
    · have hq : profiles.find? scope = some q := List.find?_eq_some_iff_append.mpr
        ⟨hscope', before', after', hsplit', fun r hr => (Bool.not_eq_true' _).mpr (hbefore' r hr)⟩
      exact Option.some.inj (h.symm.trans hq) ▸ hfilter
    · have hmem : p ∈ profiles := List.mem_of_find?_eq_some h
      exact absurd (hnone p hmem) (by rw [hscope]; decide)

theorem firstUnfiltered_cons_of_none (h : profiles.find? scope = none) :
    FirstUnfiltered profiles (scope :: scopes) ↔ FirstUnfiltered profiles scopes := by
  have hnone : ∀ p ∈ profiles, scope p = false := by
    intro p hp
    exact (Bool.not_eq_true _).mp (List.find?_eq_none.mp h p hp)
  refine ⟨fun hfirst => hfirst.2 hnone, fun hrest => ⟨?_, fun _ => hrest⟩⟩
  intro before p after hsplit hscope
  have hmem : p ∈ profiles := hsplit ▸ List.mem_append_right _ List.mem_cons_self
  rw [hnone p hmem] at hscope
  cases hscope

/-- **The scopes, with and without the filters.** -/
theorem findSome?_eq_iff : ∀ {scopes : List (DeviceProfile → Bool)},
    scopes.findSome? (fun scope => profiles.find? scope) =
      scopes.findSome? (fun scope => firstMatch scope [] profiles) ↔
    FirstUnfiltered profiles scopes
  | [] => iff_of_true rfl trivial
  | scope :: scopes => by
      rw [List.findSome?_cons, List.findSome?_cons]
      cases hfind : profiles.find? scope with
      | none =>
          have hmatch : firstMatch scope [] profiles = none := by
            refine firstMatch_eq_none.mpr fun p hp hscope => ?_
            exact absurd hscope (List.find?_eq_none.mp hfind p hp)
          rw [hmatch, firstUnfiltered_cons_of_none hfind]
          exact findSome?_eq_iff
      | some p =>
          rw [firstUnfiltered_cons_of_some hfind]
          constructor
          · intro hsame
            -- what is selected passes its filter
            have hselected : (scope :: scopes).findSome?
                (fun scope => firstMatch scope [] profiles) = some p := by
              rw [List.findSome?_cons]
              exact hsame.symm
            obtain ⟨_, -, hpass⟩ := List.exists_of_findSome?_eq_some hselected
            exact profileMatchesApp_nil.mp (firstMatch_mem hpass).2
          · intro hfilter
            rw [firstMatch_nil_eq hfind hfilter]

theorem findSome?_cons_or {α β : Type} (f : α → Option β) (a : α) (as : List α) :
    (a :: as).findSome? f = (f a).or (as.findSome? f) := by
  rw [List.findSome?_cons]
  cases f a with
  | none => rfl
  | some b => rfl

theorem statusProfile_eq : statusProfile cfg devId =
    (profileScopes cfg devId).findSome? fun scope => cfg.profiles.find? scope := by
  have hany : cfg.profiles.find? (fun _ => true) = cfg.profiles.head? := by
    cases cfg.profiles with
    | nil => rfl
    | cons p profiles => rfl
  unfold profileScopes statusProfile
  rw [findSome?_cons_or, findSome?_cons_or, findSome?_cons_or, findSome?_cons_or, hany,
    List.findSome?_nil, Option.or_none]

theorem findProfile_nil_eq : findProfile cfg [] devId =
    (profileScopes cfg devId).findSome? fun scope => firstMatch scope [] cfg.profiles := by
  unfold profileScopes findProfile
  rw [findSome?_cons_or, findSome?_cons_or, findSome?_cons_or, findSome?_cons_or,
    List.findSome?_nil, Option.or_none]

/-- No line is printed only where there are no profiles. -/
theorem statusProfileLine_eq_nil : statusProfileLine cfg devId = [] ↔ cfg.profiles = [] := by
  unfold statusProfileLine
  constructor
  · intro hline
    cases hstatus : statusProfile cfg devId with
    | none =>
        unfold statusProfile at hstatus
        simp only [Option.or_eq_none_iff, List.head?_eq_none_iff] at hstatus
        exact hstatus.2.2.2
    | some p =>
        rw [hstatus] at hline
        cases hline
  · intro hprofiles
    unfold statusProfile
    rw [hprofiles]
    rfl

/-- **`status` reports the profile that the daemon uses exactly if the first profile in the
first scope that is not empty has no filter.** -/
theorem status_profile_iff (cfg : AppConfig) (devId : Bytes) :
    statusProfile cfg devId = findProfile cfg [] devId ↔
      FirstUnfiltered cfg.profiles (profileScopes cfg devId) := by
  rw [statusProfile_eq, findProfile_nil_eq]
  exact findSome?_eq_iff

/-- The first of two profiles for all devices is for one application. -/
def scopedFirst : AppConfig :=
  { profiles := [{ name := bytes "game", matchApp := bytes "krita" }, { name := bytes "desk" }] }

/-- `status` reports it, although no application is focused. -/
theorem status_profile_scoped :
    (statusProfile scopedFirst (bytes "usb:1")).map DeviceProfile.name = some (bytes "game") ∧
      (findProfile scopedFirst [] (bytes "usb:1")).map DeviceProfile.name = some (bytes "desk") ∧
      statusProfile scopedFirst (bytes "usb:1") ≠ findProfile scopedFirst [] (bytes "usb:1") := by
  have hstatus : (statusProfile scopedFirst (bytes "usb:1")).map DeviceProfile.name =
      some (bytes "game") := by decide
  have hdaemon : (findProfile scopedFirst [] (bytes "usb:1")).map DeviceProfile.name =
      some (bytes "desk") := by decide
  refine ⟨hstatus, hdaemon, fun hsame => ?_⟩
  rw [hsame, hdaemon] at hstatus
  exact absurd hstatus (by decide)

end AbrekMouse
