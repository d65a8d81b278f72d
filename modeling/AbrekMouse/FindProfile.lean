import AbrekMouse.Config

/-! # Selecting a profile

`findProfile` makes four passes over the profiles of a configuration: those of the
device, those of all devices, the active one, any.  Each pass takes the first profile
whose application filter the focused application passes.

The second pass comes before the third, so among profiles of all devices the first in
the list is taken, whatever is active (`findProfile_allDevices`).
-/
namespace AbrekMouse
open ProgLib

/-- `std::tolower` of an ASCII letter. -/
def asciiToLower (c : UInt8) : UInt8 := if 0x41 ≤ c ∧ c ≤ 0x5A then c + 0x20 else c

/-- `needle` stands at the front, up to case. -/
def asciiIprefix : Bytes → Bytes → Bool
  | _, [] => true
  | [], _ :: _ => false
  | a :: as, b :: bs => asciiToLower a = asciiToLower b && asciiIprefix as bs

def asciiIcontains (haystack needle : Bytes) : Bool :=
  if needle = [] then true
  else if haystack.length < needle.length then false
  else (List.range (haystack.length - needle.length + 1)).any fun i =>
    asciiIprefix (haystack.drop i) needle

/-- An empty filter lets every application pass. -/
def profileMatchesApp (p : DeviceProfile) (app : Bytes) : Bool :=
  if p.matchApp = [] then true else asciiIcontains app p.matchApp

/-- One pass: the first profile in its scope that the focused application passes. -/
def firstMatch (scope : DeviceProfile → Bool) (currentApp : Bytes) (profiles : List DeviceProfile) :
    Option DeviceProfile :=
  profiles.find? fun p => scope p && profileMatchesApp p currentApp

def findProfile (cfg : AppConfig) (currentApp devId : Bytes) : Option DeviceProfile :=
  (firstMatch (fun p => p.deviceId ≠ [] && p.deviceId = devId) currentApp cfg.profiles).or <|
  (firstMatch (fun p => p.deviceId = []) currentApp cfg.profiles).or <|
  (firstMatch (fun p => p.name = cfg.activeProfile) currentApp cfg.profiles).or <|
  firstMatch (fun _ => true) currentApp cfg.profiles

variable {cfg : AppConfig} {currentApp devId : Bytes} {p : DeviceProfile}

theorem firstMatch_eq_none {scope : DeviceProfile → Bool} {profiles : List DeviceProfile} :
    firstMatch scope currentApp profiles = none ↔
      ∀ p ∈ profiles, scope p = true → profileMatchesApp p currentApp = false := by
  unfold firstMatch
  simp [List.find?_eq_none]

theorem firstMatch_mem {scope : DeviceProfile → Bool} {profiles : List DeviceProfile}
    (h : firstMatch scope currentApp profiles = some p) :
    p ∈ profiles ∧ profileMatchesApp p currentApp = true := by
  unfold firstMatch at h
  have hpass := List.find?_some h
  exact ⟨List.mem_of_find?_eq_some h, (Bool.and_eq_true_iff.mp hpass).2⟩

/-- **Nothing is selected only when no profile passes its application filter**, whatever
the device. -/
theorem findProfile_eq_none : findProfile cfg currentApp devId = none ↔
    ∀ p ∈ cfg.profiles, profileMatchesApp p currentApp = false := by
  unfold findProfile
  simp only [Option.or_eq_none_iff, firstMatch_eq_none]
  constructor
  · rintro ⟨-, -, -, hany⟩ p hp
    exact hany p hp trivial
  · intro hnone
    exact ⟨fun p hp _ => hnone p hp, fun p hp _ => hnone p hp, fun p hp _ => hnone p hp,
      fun p hp _ => hnone p hp⟩

/-- What is selected is a profile of the configuration that passes its filter. -/
theorem findProfile_mem (h : findProfile cfg currentApp devId = some p) :
    p ∈ cfg.profiles ∧ profileMatchesApp p currentApp = true := by
  unfold findProfile at h
  simp only [Option.or_eq_some_iff] at h
  rcases h with h | ⟨-, h | ⟨-, h | ⟨-, h⟩⟩⟩ <;> exact firstMatch_mem h

/-! ## Profiles of all devices -/

/-- Without filters, a device that no profile names gets the first profile of all
devices, where there is one. -/
theorem findProfile_eq_find? (hid : ∀ p ∈ cfg.profiles, p.deviceId ≠ devId)
    (happ : ∀ p ∈ cfg.profiles, p.matchApp = []) (hall : ∃ p ∈ cfg.profiles, p.deviceId = []) :
    findProfile cfg currentApp devId = cfg.profiles.find? fun p => p.deviceId = [] := by
  have hpass : ∀ p ∈ cfg.profiles, profileMatchesApp p currentApp = true := fun p hp => by
    simp [profileMatchesApp, happ p hp]
  have hdevice : firstMatch (fun p => p.deviceId ≠ [] && p.deviceId = devId) currentApp
      cfg.profiles = none := by
    refine firstMatch_eq_none.mpr fun p hp hscope => ?_
    simp [hid p hp] at hscope
  have hsecond : firstMatch (fun p => p.deviceId = []) currentApp cfg.profiles =
      cfg.profiles.find? fun p => p.deviceId = [] := by
    unfold firstMatch
    generalize cfg.profiles = profiles at hpass
    induction profiles with
    | nil => rfl
    | cons q profiles ih =>
        rw [List.find?_cons, List.find?_cons, hpass q (by simp), Bool.and_true,
          ih fun p hp => hpass p (by simp [hp])]
  obtain ⟨q, hq⟩ : ∃ q, cfg.profiles.find? (fun p => p.deviceId = []) = some q := by
    rw [← Option.isSome_iff_exists, List.find?_isSome]
    simpa using hall
  unfold findProfile
  rw [hdevice, hsecond, hq]
  rfl

/-- **The first profile of all devices is effective.**  For a device that no profile
names, in a configuration without filters whose active profile is for all devices, the
first profile of all devices in the list is selected.  So a profile with the active
name is selected exactly when the first one of all devices has that name. -/
theorem findProfile_allDevices (cfg : AppConfig) (currentApp devId : Bytes)
    (hid : ∀ p ∈ cfg.profiles, p.deviceId ≠ devId) (happ : ∀ p ∈ cfg.profiles, p.matchApp = [])
    (hactive : ∃ p ∈ cfg.profiles, p.name = cfg.activeProfile ∧ p.deviceId = []) :
    (∃ before p after, cfg.profiles = before ++ p :: after ∧ p.deviceId = [] ∧
      (∀ q ∈ before, q.deviceId ≠ []) ∧ findProfile cfg currentApp devId = some p) ∧
    ((∃ p, findProfile cfg currentApp devId = some p ∧ p.name = cfg.activeProfile) ↔
      ∃ before p after, cfg.profiles = before ++ p :: after ∧ p.deviceId = [] ∧
        (∀ q ∈ before, q.deviceId ≠ []) ∧ p.name = cfg.activeProfile) := by
  obtain ⟨active, hmem, -, hempty⟩ := hactive
  have hfirst : ∀ p, findProfile cfg currentApp devId = some p ↔ p.deviceId = [] ∧
      ∃ before after, cfg.profiles = before ++ p :: after ∧ ∀ q ∈ before, q.deviceId ≠ [] :=
    fun p => by
      rw [findProfile_eq_find? hid happ ⟨active, hmem, hempty⟩, List.find?_eq_some_iff_append]
      simp
  obtain ⟨p, hp⟩ : ∃ p, findProfile cfg currentApp devId = some p := by
    rw [findProfile_eq_find? hid happ ⟨active, hmem, hempty⟩, ← Option.isSome_iff_exists,
      List.find?_isSome]
    exact ⟨active, hmem, by simpa using hempty⟩
  constructor
  · obtain ⟨hall, before, after, hsplit, hbefore⟩ := (hfirst p).mp hp
    exact ⟨before, p, after, hsplit, hall, hbefore, hp⟩
  · constructor
    · rintro ⟨q, hq, hname⟩
      obtain ⟨hall, before, after, hsplit, hbefore⟩ := (hfirst q).mp hq
      exact ⟨before, q, after, hsplit, hall, hbefore, hname⟩
    · rintro ⟨before, q, after, hsplit, hall, hbefore, hname⟩
      exact ⟨q, (hfirst q).mpr ⟨hall, before, after, hsplit, hbefore⟩, hname⟩

/-- Two profiles of all devices, the second one active. -/
def shadowedActive : AppConfig :=
  { activeProfile := bytes "gaming"
    profiles := [{ name := bytes "office" }, { name := bytes "gaming" }] }

theorem findProfile_allDevices_shadowed :
    (∃ before p after, shadowedActive.profiles = before ++ p :: after ∧ p.deviceId = [] ∧
      (∀ q ∈ before, q.deviceId ≠ []) ∧ findProfile shadowedActive [] (bytes "usb:1") = some p) ∧
    ((∃ p, findProfile shadowedActive [] (bytes "usb:1") = some p ∧
        p.name = shadowedActive.activeProfile) ↔
      ∃ before p after, shadowedActive.profiles = before ++ p :: after ∧ p.deviceId = [] ∧
        (∀ q ∈ before, q.deviceId ≠ []) ∧ p.name = shadowedActive.activeProfile) :=
  findProfile_allDevices shadowedActive [] (bytes "usb:1") (by decide) (by decide)
    ⟨{ name := bytes "gaming" }, by simp [shadowedActive], by decide, by decide⟩

/-- The active profile is not selected, although it is for all devices, no profile has a
filter and none names the device. -/
theorem findProfile_not_active :
    (∀ p ∈ shadowedActive.profiles, p.deviceId ≠ bytes "usb:1") ∧
      (∀ p ∈ shadowedActive.profiles, p.matchApp = []) ∧
      (∃ p ∈ shadowedActive.profiles, p.name = shadowedActive.activeProfile ∧ p.deviceId = []) ∧
      ¬∃ p, findProfile shadowedActive [] (bytes "usb:1") = some p ∧
        p.name = shadowedActive.activeProfile := by
  refine ⟨by decide, by decide,
    ⟨{ name := bytes "gaming" }, by simp [shadowedActive], by decide, by decide⟩, ?_⟩
  rintro ⟨p, hp, hname⟩
  have hfirst : findProfile shadowedActive [] (bytes "usb:1") = some { name := bytes "office" } :=
    by rfl
  obtain rfl := Option.some.inj (hp.symm.trans hfirst)
  exact absurd hname (by decide)

end AbrekMouse
