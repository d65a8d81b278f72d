import AbrekMouse.ApplyConfig
import Mathlib.Data.List.Nodup

/-! # The device registry

Beside the devices the loop thread keeps the paths and the ids that are open, and the index
of each device by its descriptor.  Six operations change them, and a device can leave from
the middle of the list; yet they always say the same (`registry_consistent`).
-/
namespace AbrekMouse
open ProgLib
variable {Text Data : Type} (J : JsonText Text) (hash : Text → UInt64) (E : Engine Data)

/-! ## The index -/

/-- No two devices share a path, an id or a descriptor. -/
def Distinct (devices : List (MouseDevice Data)) : Prop :=
  devices.Pairwise fun a b =>
    a.path ≠ b.path ∧ (a.deviceId = [] ∨ a.deviceId ≠ b.deviceId) ∧ a.fdIn ≠ b.fdIn

instance : Std.Symm fun a b : MouseDevice Data =>
    a.path ≠ b.path ∧ (a.deviceId = [] ∨ a.deviceId ≠ b.deviceId) ∧ a.fdIn ≠ b.fdIn where
  symm := by
    rintro a b ⟨hpath, hid, hfd⟩
    refine ⟨hpath.symm, ?_, hfd.symm⟩
    by_cases hnil : b.deviceId = []
    · exact .inl hnil
    · right
      intro hsame
      rcases hid with hid | hid
      · exact hnil (hsame.trans hid)
      · exact hid hsame.symm

/-- The map leads from the descriptor of each device to its position, and nowhere else. -/
def Indexes (fdToDev : ℕ → Option ℕ) (devices : List (MouseDevice Data)) : Prop :=
  ∀ fd i, fdToDev fd = some i ↔ ∃ dev, devices[i]? = some dev ∧ dev.fdIn = fd

theorem Indexes.nil : Indexes (fun _ => none) ([] : List (MouseDevice Data)) := by
  intro fd i
  refine iff_of_false nofun ?_
  rintro ⟨dev, hdev, -⟩
  cases hdev

/-- One more device, with a descriptor of its own. -/
theorem Indexes.concat {fdToDev : ℕ → Option ℕ} {devices : List (MouseDevice Data)}
    (h : Indexes fdToDev devices) {dev : MouseDevice Data}
    (hfresh : ∀ old ∈ devices, old.fdIn ≠ dev.fdIn) :
    Indexes (Function.update fdToDev dev.fdIn (some devices.length)) (devices ++ [dev]) := by
  intro fd i
  by_cases hfd : fd = dev.fdIn
  · subst hfd
    rw [Function.update_self]
    constructor
    · rintro ⟨⟩
      exact ⟨dev, List.getElem?_concat_length, rfl⟩
    · rintro ⟨other, hat, hsame⟩
      rcases Nat.lt_or_ge i devices.length with hlt | hge
      · rw [List.getElem?_append_left hlt] at hat
        exact absurd hsame (hfresh other (List.mem_of_getElem? hat))
      · have hlt := (List.getElem?_eq_some_iff.mp hat).1
        rw [List.length_append, List.length_singleton] at hlt
        rw [show i = devices.length by omega]
  · rw [Function.update_of_ne hfd, h fd i]
    constructor
    · rintro ⟨other, hat, hother⟩
      have hlt := (List.getElem?_eq_some_iff.mp hat).1
      exact ⟨other, (List.getElem?_append_left hlt).trans hat, hother⟩
    · rintro ⟨other, hat, hother⟩
      rcases Nat.lt_or_ge i devices.length with hlt | hge
      · exact ⟨other, (List.getElem?_append_left hlt).symm.trans hat, hother⟩
      · rw [List.getElem?_append_right hge] at hat
        obtain rfl := List.mem_singleton.mp (List.mem_of_getElem? hat)
        exact absurd hother.symm hfd

/-- Only the descriptors count. -/
theorem Indexes.map {fdToDev : ℕ → Option ℕ} {devices : List (MouseDevice Data)}
    (h : Indexes fdToDev devices) {f : MouseDevice Data → MouseDevice Data}
    (hf : ∀ dev, (f dev).fdIn = dev.fdIn) : Indexes fdToDev (devices.map f) := by
  intro fd i
  rw [h fd i, List.getElem?_map]
  constructor
  · rintro ⟨dev, hat, hfd⟩
    exact ⟨f dev, by rw [hat]; rfl, (hf dev).trans hfd⟩
  · rintro ⟨dev', hat', hfd⟩
    obtain ⟨dev, hat, rfl⟩ := Option.map_eq_some_iff.mp hat'
    exact ⟨dev, hat, (hf dev).symm.trans hfd⟩

/-- An index that is built anew. -/
theorem indexes_fdIndex {devices : List (MouseDevice Data)} (h : Distinct devices) :
    Indexes (fdIndex devices) devices := by
  induction devices using List.reverseRecOn with
  | nil => exact .nil
  | append_singleton devices dev ih =>
      obtain ⟨hdevices, -, hapart⟩ := List.pairwise_append.mp h
      have hindex : fdIndex (devices ++ [dev]) =
          Function.update (fdIndex devices) dev.fdIn (some devices.length) := by
        unfold fdIndex
        rw [List.zipIdx_append, List.foldl_append, Nat.zero_add]
        rfl
      rw [hindex]
      exact (ih hdevices).concat fun old hold =>
        (hapart old hold dev (List.mem_singleton.mpr rfl)).2.2

/-! ## What the containers say -/

namespace Daemon
variable {d d' : Daemon Data}

/-- The three indices say of the grabbed devices what is so, and no two of them share a path, an
id or a descriptor. -/
structure Consistent (d : Daemon Data) : Prop where
  paths : ∀ path, path ∈ d.openedPaths ↔ ∃ dev ∈ d.devices, dev.path = path
  ids : ∀ id, id ∈ d.openedDeviceIds ↔ id ≠ [] ∧ ∃ dev ∈ d.devices, dev.deviceId = id
  distinct : Distinct d.devices
  index : Indexes d.fdToDev d.devices

namespace Consistent

/-- A step that the registry does not see. -/
theorem of_eq (h : d.Consistent) (hdevices : d'.devices = d.devices)
    (hpaths : d'.openedPaths = d.openedPaths) (hids : d'.openedDeviceIds = d.openedDeviceIds)
    (hindex : d'.fdToDev = d.fdToDev) : d'.Consistent where
  paths := by
    rw [hpaths, hdevices]
    exact h.paths
  ids := by
    rw [hids, hdevices]
    exact h.ids
  distinct := hdevices ▸ h.distinct
  index := by
    rw [hindex, hdevices]
    exact h.index

theorem empty (hdevices : d.devices = []) (hpaths : d.openedPaths = ∅)
    (hids : d.openedDeviceIds = ∅) (hindex : d.fdToDev = fun _ => none) : d.Consistent where
  paths path := by
    rw [hpaths, hdevices]
    simp
  ids id := by
    rw [hids, hdevices]
    simp
  distinct := hdevices ▸ List.Pairwise.nil
  index := by
    rw [hindex, hdevices]
    exact .nil

/-- Some devices go, and the registry forgets them. -/
theorem keep (h : d.Consistent) {p : MouseDevice Data → Bool}
    (hdevices : d'.devices = d.devices.filter p)
    (hpaths : d'.openedPaths = (d.forget (d.devices.filter fun dev => !p dev)).openedPaths)
    (hids : d'.openedDeviceIds =
      (d.forget (d.devices.filter fun dev => !p dev)).openedDeviceIds)
    (hindex : d'.fdToDev = fdIndex d'.devices) : d'.Consistent := by
  have hdistinct : Distinct d'.devices := hdevices ▸ h.distinct.filter p
  -- a path or an id that is kept is that of no device that goes
  have happart : ∀ a ∈ d.devices, ∀ b ∈ d.devices, p a = true → p b = false →
      a.path ≠ b.path ∧ (a.deviceId = [] ∨ a.deviceId ≠ b.deviceId) := by
    intro a ha b hb hpa hpb
    have hne : a ≠ b := by
      rintro rfl
      exact absurd (hpa.symm.trans hpb) (by decide)
    obtain ⟨hpath, hid, -⟩ := List.Pairwise.forall h.distinct ha hb hne
    exact ⟨hpath, hid⟩
  refine ⟨fun path => ?_, fun id => ?_, hdistinct, hindex ▸ indexes_fdIndex hdistinct⟩
  · rw [hpaths, hdevices]
    simp only [forget, Finset.mem_filter, h.paths, List.mem_filter]
    constructor
    · rintro ⟨⟨dev, hdev, rfl⟩, hkept⟩
      refine ⟨dev, ⟨hdev, ?_⟩, rfl⟩
      by_contra hgone
      exact hkept dev ⟨hdev, by simpa using hgone⟩ rfl
    · rintro ⟨dev, ⟨hdev, hp⟩, rfl⟩
      refine ⟨⟨dev, hdev, rfl⟩, fun other ⟨hother, hgone⟩ hsame => ?_⟩
      exact (happart dev hdev other hother hp (by simpa using hgone)).1 hsame.symm
  · rw [hids, hdevices]
    simp only [forget, Finset.mem_filter, h.ids, List.mem_filter]
    constructor
    · rintro ⟨⟨hne, dev, hdev, rfl⟩, hkept⟩
      refine ⟨hne, dev, ⟨hdev, ?_⟩, rfl⟩
      by_contra hgone
      rcases hkept dev ⟨hdev, by simpa using hgone⟩ with hnil | hother
      · exact hne hnil
      · exact hother rfl
    · rintro ⟨hne, dev, ⟨hdev, hp⟩, rfl⟩
      refine ⟨⟨hne, dev, hdev, rfl⟩, fun other ⟨hother, hgone⟩ => .inr fun hsame => ?_⟩
      obtain ⟨-, hid⟩ := happart dev hdev other hother hp (by simpa using hgone)
      exact hid.resolve_left hne hsame.symm

/-- A device comes in, with a path, an id and a descriptor of its own. -/
theorem add (h : d.Consistent) {dev : MouseDevice Data} (hpath : dev.path ∉ d.openedPaths)
    (hid : ¬(dev.deviceId ≠ [] ∧ dev.deviceId ∈ d.openedDeviceIds))
    (hfresh : dev.fdIn ∉ d.devices.map (·.fdIn)) (hdevices : d'.devices = d.devices ++ [dev])
    (hpaths : d'.openedPaths = insert dev.path d.openedPaths)
    (hids : d'.openedDeviceIds =
      if dev.deviceId ≠ [] then insert dev.deviceId d.openedDeviceIds else d.openedDeviceIds)
    (hindex : d'.fdToDev = Function.update d.fdToDev dev.fdIn (some d.devices.length)) :
    d'.Consistent where
  paths path := by
    rw [hpaths, hdevices, Finset.mem_insert, h.paths]
    simp only [List.mem_append, List.mem_singleton]
    constructor
    · rintro (rfl | ⟨old, hold, hsame⟩)
      · exact ⟨dev, .inr rfl, rfl⟩
      · exact ⟨old, .inl hold, hsame⟩
    · rintro ⟨old, hold | rfl, hsame⟩
      · exact .inr ⟨old, hold, hsame⟩
      · exact .inl hsame.symm
  ids id := by
    have hmem : id ∈ d'.openedDeviceIds ↔
        id ∈ d.openedDeviceIds ∨ id ≠ [] ∧ dev.deviceId = id := by
      rw [hids]
      split_ifs with hne
      · rw [Finset.mem_insert]
        constructor
        · rintro (rfl | hold)
          · exact .inr ⟨hne, rfl⟩
          · exact .inl hold
        · rintro (hold | ⟨-, rfl⟩)
          · exact .inr hold
          · exact .inl rfl
      · refine ⟨.inl, ?_⟩
        rintro (hold | ⟨hid, rfl⟩)
        · exact hold
        · exact absurd hid hne
    rw [hmem, h.ids, hdevices]
    simp only [List.mem_append, List.mem_singleton]
    constructor
    · rintro (⟨hne, old, hold, hsame⟩ | ⟨hne, hsame⟩)
      · exact ⟨hne, old, .inl hold, hsame⟩
      · exact ⟨hne, dev, .inr rfl, hsame⟩
    · rintro ⟨hne, old, hold | rfl, hsame⟩
      · exact .inl ⟨hne, old, hold, hsame⟩
      · exact .inr ⟨hne, hsame⟩
  distinct := by
    rw [hdevices]
    refine List.pairwise_append.mpr ⟨h.distinct, List.pairwise_singleton _ _, ?_⟩
    intro old hold new hnew
    rw [List.mem_singleton] at hnew
    subst hnew
    refine ⟨fun hsame => hpath ((h.paths _).mpr ⟨old, hold, hsame⟩), ?_, fun hsame => ?_⟩
    · by_cases hnil : old.deviceId = []
      · exact .inl hnil
      · refine .inr fun hsame => hid ?_
        rw [← hsame]
        exact ⟨hnil, (h.ids _).mpr ⟨hnil, old, hold, rfl⟩⟩
    · exact hfresh (List.mem_map.mpr ⟨old, hold, hsame⟩)
  index := by
    rw [hindex, hdevices]
    refine h.index.concat fun old hold hsame => ?_
    exact hfresh (List.mem_map.mpr ⟨old, hold, hsame⟩)

theorem distinct_map {devices : List (MouseDevice Data)} (h : Distinct devices)
    {f : MouseDevice Data → MouseDevice Data}
    (hf : ∀ dev, (f dev).path = dev.path ∧ (f dev).deviceId = dev.deviceId ∧
      (f dev).fdIn = dev.fdIn) : Distinct (devices.map f) := by
  refine List.pairwise_map.mpr (h.imp ?_)
  intro a b hab
  rw [(hf a).1, (hf a).2.1, (hf a).2.2, (hf b).1, (hf b).2.1, (hf b).2.2]
  exact hab

/-- Devices are updated in place. -/
theorem update (h : d.Consistent) {f : MouseDevice Data → MouseDevice Data}
    (hf : ∀ dev, (f dev).path = dev.path ∧ (f dev).deviceId = dev.deviceId ∧
      (f dev).fdIn = dev.fdIn)
    (hdevices : d'.devices = d.devices.map f) (hpaths : d'.openedPaths = d.openedPaths)
    (hids : d'.openedDeviceIds = d.openedDeviceIds) (hindex : Indexes d'.fdToDev d'.devices) :
    d'.Consistent where
  paths path := by
    rw [hpaths, h.paths, hdevices]
    simp only [List.mem_map, exists_exists_and_eq_and, hf]
  ids id := by
    rw [hids, h.ids, hdevices]
    simp only [List.mem_map, exists_exists_and_eq_and, hf]
  distinct := by
    rw [hdevices]
    exact distinct_map h.distinct hf
  index := hindex

variable {E}

theorem applySelected_keeps (dev : MouseDevice Data) (sel : Option DeviceProfile) :
    (applySelected E dev sel).path = dev.path ∧
      (applySelected E dev sel).deviceId = dev.deviceId ∧
      (applySelected E dev sel).fdIn = dev.fdIn := by
  cases sel with
  | none => exact ⟨rfl, rfl, rfl⟩
  | some prof => exact ⟨rfl, rfl, rfl⟩

/-! ## The six operations -/

theorem openNode (h : d.Consistent) {scan : Scan} {now : ℕ} {n : Node}
    (hpath : n.path ∉ d.openedPaths) : (Daemon.openNode E d scan now n).1.Consistent := by
  cases opening E d scan now n with
  | denied _ _ _ _ hresult =>
      rw [hresult]
      exact h.of_eq rfl rfl rfl rfl
  | duplicate _ _ hresult | rawOff _ hresult | disabled _ _ hresult | unregistered _ hresult =>
      rw [hresult]
      exact h
  | opened dev hdev hnew _ _ _ hresult =>
      -- neither its path, nor its id, nor its descriptor is one of those in use
      rw [hresult]
      obtain ⟨hkept, hid, hfd⟩ := applySelected_keeps (E := E) dev (d.profileOf n.deviceId)
      refine h.add ?_ ?_ ?_ rfl ?_ ?_ ?_
      · rw [hkept, hdev]
        exact hpath
      · rw [hid, hdev]
        exact hnew
      · rw [hfd, hdev]
        exact n.file.fresh _
      · rw [hkept, hdev]
      · rw [hid, hdev]
      · rw [hfd]

theorem tryNode (h : d.Consistent) (scan : Scan) (now : ℕ) (n : Node) :
    (Daemon.tryNode E d scan now n).1.Consistent := by
  unfold Daemon.tryNode
  split_ifs with hopen
  · exact h
  · exact h
  · refine openNode ?_ hopen
    exact h.of_eq rfl rfl rfl rfl

theorem setupDevices (h : d.Consistent) (mice : List Node) (now : ℕ) :
    (Daemon.setupDevices E d mice now).Consistent := by
  unfold Daemon.setupDevices
  split_ifs
  · exact h
  · exact h
  · have hpruned : (d.pruneDeny mice now).Consistent := h.of_eq rfl rfl rfl rfl
    exact List.foldlRecOn mice _ hpruned fun d hd n _ => hd.tryNode _ now n

theorem doHotplugScan (h : d.Consistent) (mice : List Node) (now : ℕ) :
    (Daemon.doHotplugScan E d mice now).Consistent := by
  unfold Daemon.doHotplugScan
  split_ifs
  · exact h
  · have hremoved : ((d.pruneDeny mice now).removeGone mice).Consistent :=
      keep (p := stillPhysical mice) h rfl rfl rfl rfl
    have hscanned : (mice.foldl (scanNode E now)
        ((d.pruneDeny mice now).removeGone mice, false)).1.Consistent := by
      rw [scanNode_foldl]
      exact List.foldlRecOn mice _ hremoved fun d hd n _ => hd.tryNode _ now n
    exact hscanned.of_eq rfl rfl rfl rfl

theorem teardownDevices (d : Daemon Data) : d.teardownDevices.Consistent :=
  .empty rfl rfl rfl rfl

theorem reapplyDevices (h : d.Consistent) : (Daemon.reapplyDevices E d).Consistent := by
  have hkept : Consistent
      { d.forget (d.devices.filter fun dev => disabled (d.profileOf dev.deviceId)) with
        devices := d.devices.filter fun dev => !disabled (d.profileOf dev.deviceId)
        fdToDev := fdIndex
          (d.devices.filter fun dev => !disabled (d.profileOf dev.deviceId)) } := by
    refine keep (p := fun dev => !disabled (d.profileOf dev.deviceId)) h rfl ?_ ?_ rfl
    · simp only [Bool.not_not]
    · simp only [Bool.not_not]
  have happlied := fun dev : MouseDevice Data =>
    applySelected_keeps (E := E) dev (d.profileOf dev.deviceId)
  exact hkept.update happlied rfl rfl rfl (indexes_fdIndex (distinct_map hkept.distinct happlied))

theorem applyActiveApp (h : d.Consistent) : (Daemon.applyActiveApp E d).Consistent := by
  unfold Daemon.applyActiveApp
  dsimp only
  split_ifs
  · exact h
  · exact h.of_eq rfl rfl rfl rfl
  · have hfocus : Consistent { d with activeAppDirty := false, currentApp := d.pendingApp } :=
      h.of_eq rfl rfl rfl rfl
    exact hfocus.reapplyDevices.of_eq rfl rfl rfl rfl

theorem finishApply (h : d.Consistent) (live rawNow : Bool) (mice : List Node) (now : ℕ) :
    (Daemon.finishApply E live rawNow mice now d).Consistent := by
  have hupdated : (if !live && !d.devices.isEmpty then applyIdentity E d else d).Consistent := by
    split_ifs
    · have hsame : ∀ dev : MouseDevice Data, (applyProfile E dev {}).path = dev.path ∧
          (applyProfile E dev {}).deviceId = dev.deviceId ∧
          (applyProfile E dev {}).fdIn = dev.fdIn := fun _ => ⟨rfl, rfl, rfl⟩
      exact h.update hsame rfl rfl rfl (h.index.map fun dev => (hsame dev).2.2)
    · exact h
  unfold Daemon.finishApply
  dsimp only
  generalize (if !live && !d.devices.isEmpty then applyIdentity E d else d) = updated at *
  split_ifs
  · exact ((teardownDevices _).setupDevices mice now).of_eq rfl rfl rfl rfl
  · exact hupdated.of_eq rfl rfl rfl rfl

theorem applyNewConfig {J : JsonText Text} {hash : Text → UInt64} (h : d.Consistent)
    (mice : List Node) (now : ℕ) (newCfg : AppConfig) :
    (Daemon.applyNewConfig J hash E mice now newCfg d).2.Consistent := by
  unfold Daemon.applyNewConfig
  dsimp only
  split
  · exact h.of_eq rfl rfl rfl rfl
  · rename_i t _
    have hconfig : Consistent { d with config := newCfg, configHash := hash t } :=
      h.of_eq rfl rfl rfl rfl
    exact hconfig.reapplyDevices.finishApply _ _ mice now

/-- The devices that an error ended are forgotten one by one. -/
theorem foldl_dropDisconnected (sameNode : Bytes → Bool) (now : ℕ)
    (gone : List (MouseDevice Data)) (d : Daemon Data) :
    (gone.foldl (fun d dev => d.dropDisconnected sameNode now dev) d).devices = d.devices ∧
      (gone.foldl (fun d dev => d.dropDisconnected sameNode now dev) d).openedPaths =
        (d.forget gone).openedPaths ∧
      (gone.foldl (fun d dev => d.dropDisconnected sameNode now dev) d).openedDeviceIds =
        (d.forget gone).openedDeviceIds := by
  induction gone generalizing d with
  | nil =>
      refine ⟨rfl, ?_, ?_⟩
      · simp [forget]
      · simp [forget]
  | cons dev gone ih =>
      have hdrop : (d.dropDisconnected sameNode now dev).devices = d.devices ∧
          (d.dropDisconnected sameNode now dev).openedPaths = (d.forget [dev]).openedPaths ∧
          (d.dropDisconnected sameNode now dev).openedDeviceIds =
            (d.forget [dev]).openedDeviceIds := by
        unfold dropDisconnected
        dsimp only
        split_ifs <;> exact ⟨rfl, rfl, rfl⟩
      obtain ⟨hdevices, hpaths, hids⟩ := ih (d.dropDisconnected sameNode now dev)
      refine ⟨hdevices.trans hdrop.1, hpaths.trans ?_, hids.trans ?_⟩
      · rw [forget, hdrop.2.1]
        ext path
        simp [forget, and_assoc]
      · rw [forget, hdrop.2.2]
        ext id
        simp [forget, and_assoc]

theorem cleanupDisconnected (h : d.Consistent) (failed sameNode : Bytes → Bool) (now : ℕ) :
    (d.cleanupDisconnected failed sameNode now).Consistent := by
  unfold Daemon.cleanupDisconnected
  dsimp only
  by_cases hnone : d.devices.filter (fun dev => failed dev.path) = []
  · rw [hnone]
    dsimp only [List.foldl_nil]
    have hall : d.devices.filter (fun dev => !failed dev.path) = d.devices := by
      refine List.filter_eq_self.mpr fun dev hdev => ?_
      have := List.filter_eq_nil_iff.mp hnone dev hdev
      simpa using this
    rw [hall, if_pos rfl]
    exact h.of_eq rfl rfl rfl rfl
  · rw [if_neg hnone]
    obtain ⟨hdevices, hpaths, hids⟩ := foldl_dropDisconnected sameNode now
      (d.devices.filter fun dev => failed dev.path) d
    refine keep (p := fun dev => !failed dev.path) h ?_ ?_ ?_ rfl
    · exact congrArg (List.filter fun dev => !failed dev.path) hdevices
    · simp only [Bool.not_not]
      exact hpaths
    · simp only [Bool.not_not]
      exact hids

end Consistent
end Daemon

/-! ## Runs -/

/-- The operations on the registry, in any order. -/
inductive RegistryStep
  | setupDevices (mice : List Node) (now : ℕ)
  | doHotplugScan (mice : List Node) (now : ℕ)
  | applyNewConfig (mice : List Node) (now : ℕ) (newCfg : AppConfig)
  | setActiveApp (app : Bytes)
  | applyActiveApp
  | cleanup (failed sameNode : Bytes → Bool) (now : ℕ)
  | teardownDevices

open Daemon in
/-- Nothing is open at first.  An apply that throws leaves what it has done. -/
def registryMachine : Machine (Daemon Data) RegistryStep where
  Start d := d.devices = [] ∧ d.openedPaths = ∅ ∧ d.openedDeviceIds = ∅ ∧
    d.fdToDev = fun _ => none
  step d
    | .setupDevices mice now => some (setupDevices E d mice now)
    | .doHotplugScan mice now => some (doHotplugScan E d mice now)
    | .applyNewConfig mice now newCfg => some (applyNewConfig J hash E mice now newCfg d).2
    | .setActiveApp app => some (d.setActiveApp app)
    | .applyActiveApp => some (applyActiveApp E d)
    | .cleanup failed sameNode now => some (d.cleanupDisconnected failed sameNode now)
    | .teardownDevices => some d.teardownDevices

/-- **The containers agree** in every reachable state: the open paths and ids are those of
the devices, no two devices share one, and each descriptor leads to its device. -/
theorem registry_consistent (d : Daemon Data) (h : (registryMachine J hash E).Reachable d) :
    (∀ path, path ∈ d.openedPaths ↔ ∃ dev ∈ d.devices, dev.path = path) ∧
    (∀ id, id ∈ d.openedDeviceIds ↔ id ≠ [] ∧ ∃ dev ∈ d.devices, dev.deviceId = id) ∧
    (d.devices.Pairwise fun a b =>
      a.path ≠ b.path ∧ (a.deviceId = [] ∨ a.deviceId ≠ b.deviceId)) ∧
    ∀ fd i, d.fdToDev fd = some i ↔ ∃ dev, d.devices[i]? = some dev ∧ dev.fdIn = fd := by
  have hconsistent : d.Consistent := by
    refine h.invariant ?_ ?_
    · rintro d ⟨hdevices, hpaths, hids, hindex⟩
      exact .empty hdevices hpaths hids hindex
    · intro d l d' h _ hstep
      cases l with
      | setupDevices mice now =>
          cases hstep
          exact h.setupDevices mice now
      | doHotplugScan mice now =>
          cases hstep
          exact h.doHotplugScan mice now
      | applyNewConfig mice now newCfg =>
          cases hstep
          exact h.applyNewConfig mice now newCfg
      | setActiveApp app =>
          cases hstep
          exact h.of_eq rfl rfl rfl rfl
      | applyActiveApp =>
          cases hstep
          exact h.applyActiveApp
      | cleanup failed sameNode now =>
          cases hstep
          exact h.cleanupDisconnected failed sameNode now
      | teardownDevices =>
          cases hstep
          exact Daemon.Consistent.teardownDevices d
  refine ⟨hconsistent.paths, hconsistent.ids, ?_, hconsistent.index⟩
  exact hconsistent.distinct.imp fun hab => ⟨hab.1, hab.2.1⟩

/-- Two mice. -/
def twoMice : List Node :=
  [{ path := bytes "event3", deviceId := bytes "usb:1", rdev := 3 },
    { path := bytes "event4", deviceId := bytes "usb:2", rdev := 4 }]

theorem registry_consistent_error :
    ∃ d : Daemon Unit, d.devices.map (·.path) = [bytes "event4"] ∧
      (∀ path, path ∈ d.openedPaths ↔ ∃ dev ∈ d.devices, dev.path = path) ∧
      (∀ id, id ∈ d.openedDeviceIds ↔ id ≠ [] ∧ ∃ dev ∈ d.devices, dev.deviceId = id) ∧
      (d.devices.Pairwise fun a b =>
        a.path ≠ b.path ∧ (a.deviceId = [] ∨ a.deviceId ≠ b.deviceId)) ∧
      ∀ fd i, d.fdToDev fd = some i ↔ ∃ dev, d.devices[i]? = some dev ∧ dev.fdIn = fd := by
  have hstart : (registryMachine JsonText.trees (fun _ => 0) Engine.plain).Reachable {} :=
    .start ⟨rfl, rfl, rfl, rfl⟩
  have hopen := hstart.step (l := .doHotplugScan twoMice 0) trivial rfl
  have hfailed := hopen.step (l := .cleanup (fun path => path = bytes "event3") (fun _ => true) 0)
    trivial rfl
  exact ⟨_, by decide +kernel,
    registry_consistent JsonText.trees (fun _ => 0) Engine.plain _ hfailed⟩

end AbrekMouse
