import AbrekMouse.FeatureSession
import AbrekMouse.StateRel
import Mathlib.Data.List.Basic

/-! # What the feature requests leave alone

A program made of feature requests adds to the log, and to what is known of the indices.
It leaves the device index alone, and what has been done with the onboard profiles
(`Extends`).  If the network only ever adds exchanges with some property, all that the
program has added have it.
-/
namespace AbrekMouse
open ProgLib

namespace FeatureSession
variable {devices : UInt8 → HidppDevice} {net : Network} {P : Exchange → Prop}
variable {s t u : FeatureSession} {feature function target featureSetIndex index : UInt8}
variable {id : UInt16} {params : Bytes}

/-- The second session comes from the first by exchanges with the property. -/
structure Extends (P : Exchange → Prop) (s t : FeatureSession) : Prop where
  log : ∃ added, t.log = s.log ++ added ∧ ∀ e ∈ added, P e
  deviceIndex : t.transport.deviceIndex = s.transport.deviceIndex
  known : ∀ key, s.featureIndices key ≠ none → t.featureIndices key ≠ none
  onboard : t.onboardProfilesDisabledByUs = s.onboardProfilesDisabledByUs
  disabled : t.disabled = s.disabled
  restored : t.restored = s.restored

namespace Extends

theorem refl (s : FeatureSession) : Extends P s s :=
  ⟨⟨[], (List.append_nil _).symm, nofun⟩, rfl, fun _ h => h, rfl, rfl, rfl⟩

theorem trans (hst : Extends P s t) (htu : Extends P t u) : Extends P s u := by
  obtain ⟨added, hadded, hP⟩ := hst.log
  obtain ⟨added', hadded', hP'⟩ := htu.log
  refine ⟨⟨added ++ added', ?_, ?_⟩, htu.deviceIndex.trans hst.deviceIndex,
    fun key h => htu.known key (hst.known key h), htu.onboard.trans hst.onboard,
    htu.disabled.trans hst.disabled, htu.restored.trans hst.restored⟩
  · rw [hadded', hadded, List.append_assoc]
  · intro e he
    rcases List.mem_append.mp he with he | he
    · exact hP e he
    · exact hP' e he

theorem isPrefix (h : Extends P s t) : s.log <+: t.log := by
  obtain ⟨added, hadded, _⟩ := h.log
  exact ⟨added, hadded.symm⟩

theorem targetOf (h : Extends P s t) (target : UInt8) :
    t.transport.targetOf target = s.transport.targetOf target := by
  unfold HidppTransport.targetOf
  rw [h.deviceIndex]

end Extends

/-- Whatever the network makes of a request or a look at the clock has the property. -/
structure Yields (devices : UInt8 → HidppDevice) (net : Network) (P : Exchange → Prop) :
    Prop where
  request : ∀ (log : List Exchange) (r : FeatureRequest),
    P (.request r (deliver devices log r (net.outcome log.length)))
  clock : ∀ n, P (.clock (net.timeUp n))

theorem yields_true : Yields devices net fun _ => True := ⟨fun _ _ => trivial, fun _ => trivial⟩

/-- A relation that requests, looks at the clock and cached indices keep, and so whatever
is made of them. -/
structure Frame (devices : UInt8 → HidppDevice) (net : Network)
    (R : FeatureSession → FeatureSession → Prop) : Prop where
  refl : ∀ s, R s s
  trans : ∀ {s t u}, R s t → R t u → R s u
  send : ∀ feature function params target,
    Keeps R (sendFeatureRequest devices net feature function params target)
  timeUp : Keeps R (timeUp net)
  cache : ∀ target id index, Keeps R (cacheFeatureIndex target id index)

namespace Frame
variable {R : FeatureSession → FeatureSession → Prop} (hR : Frame devices net R)
include hR

theorem ret {α : Type} (a : α) : Keeps R (pure a : StateM FeatureSession α) :=
  Keeps.pure hR.refl a

theorem read : Keeps R (get : StateM FeatureSession FeatureSession) := Keeps.get hR.refl

theorem seq {α β : Type} {m : StateM FeatureSession α} {f : α → StateM FeatureSession β}
    (hm : Keeps R m) (hf : ∀ a, Keeps R (f a)) : Keeps R (m >>= f) :=
  Keeps.bind hR.trans hm hf

theorem resolveFeatureIndex (id : UInt16) (target : UInt8) :
    Keeps R (resolveFeatureIndex devices net id target) := by
  unfold FeatureSession.resolveFeatureIndex
  split
  · exact hR.ret _
  refine hR.seq hR.read fun s => ?_
  split
  · exact hR.ret _
  refine hR.seq (hR.send _ _ _ _) fun response => ?_
  split
  · split
    · exact hR.ret _
    · exact hR.seq (hR.cache _ _ _) fun _ => hR.ret _
  · exact hR.ret _

theorem enumerate (left : ℕ) : ∀ (i : ℕ) (features : List FeatureMetadata) (timeouts : ℕ),
    Keeps R (enumerate devices net featureSetIndex target left i features timeouts) := by
  -- on the indices that are left
  induction left with
  | zero => exact fun _ features _ => hR.ret features
  | succ left ih =>
      intro i features timeouts
      unfold FeatureSession.enumerate
      refine hR.seq hR.timeUp fun up => ?_
      split
      · exact hR.ret _
      split
      · exact ih _ _ _
      refine hR.seq (hR.send _ _ _ _) fun frsp => ?_
      split
      · split
        · exact hR.ret _
        · exact ih _ _ _
      · exact hR.seq (hR.cache _ _ _) fun _ => ih _ _ _

end Frame

/-- Nothing but the indices and the log changes. -/
def SameSets (s t : FeatureSession) : Prop :=
  t.featureMetadataSets = s.featureMetadataSets ∧ t.featureSets = s.featureSets

theorem sameSets_frame : Frame devices net SameSets where
  refl s := ⟨rfl, rfl⟩
  trans hst htu := ⟨htu.1.trans hst.1, htu.2.trans hst.2⟩
  send feature function params target s := by
    unfold sendFeatureRequest
    split
    · exact ⟨rfl, rfl⟩
    · exact ⟨rfl, rfl⟩
  timeUp s := ⟨rfl, rfl⟩
  cache target id index s := ⟨rfl, rfl⟩

theorem sendFeatureRequest_extends (hnet : Yields devices net P) :
    Keeps (Extends P) (sendFeatureRequest devices net feature function params target) := by
  intro s
  unfold sendFeatureRequest
  split
  · exact .refl s
  · refine ⟨⟨_, rfl, ?_⟩, ?_, fun _ h => h, rfl, rfl, rfl⟩
    · intro e he
      rw [List.mem_singleton] at he
      subst he
      exact hnet.request _ _
    · rfl

theorem timeUp_extends (hnet : Yields devices net P) : Keeps (Extends P) (timeUp net) := by
  intro s
  refine ⟨⟨_, rfl, ?_⟩, rfl, fun _ h => h, rfl, rfl, rfl⟩
  intro e he
  rw [List.mem_singleton] at he
  subst he
  exact hnet.clock _

theorem cacheFeatureIndex_extends : Keeps (Extends P) (cacheFeatureIndex target id index) := by
  intro s
  refine ⟨(Extends.refl s).log, rfl, ?_, rfl, rfl, rfl⟩
  intro key h
  by_cases hkey : key = (target, id)
  · subst hkey
    simp [cacheFeatureIndex, modify_apply]
  · simpa [cacheFeatureIndex, modify_apply, Function.update_of_ne hkey] using h

theorem extends_frame (hnet : Yields devices net P) : Frame devices net (Extends P) where
  refl := .refl
  trans := .trans
  send _ _ _ _ := sendFeatureRequest_extends hnet
  timeUp := timeUp_extends hnet
  cache _ _ _ := cacheFeatureIndex_extends

theorem grows_frame (devices : UInt8 → HidppDevice) (net : Network) :
    Frame devices net (Extends fun _ => True) :=
  extends_frame yields_true

theorem getFeatureMetadata_extends (hnet : Yields devices net P) :
    Keeps (Extends P) (getFeatureMetadata devices net target) := by
  have hframe := extends_frame hnet
  unfold getFeatureMetadata
  refine hframe.seq hframe.read fun s => ?_
  dsimp only
  split
  · exact hframe.ret _
  refine hframe.seq (hframe.send _ _ _ _) fun fs => ?_
  split
  · split
    · exact hframe.ret _
    refine hframe.seq (hframe.cache _ _ _) fun _ => ?_
    refine hframe.seq (hframe.send _ _ _ _) fun countResponse => ?_
    split
    · refine hframe.seq (hframe.enumerate _ _ _ _) fun features => ?_
      refine hframe.seq ?_ fun _ => hframe.ret _
      exact fun s => ⟨(Extends.refl s).log, rfl, fun _ h => h, rfl, rfl, rfl⟩
    · exact hframe.ret _
  · exact hframe.ret _

theorem getFeatureSet_extends (hnet : Yields devices net P) :
    Keeps (Extends P) (getFeatureSet devices net target) := by
  have hframe := extends_frame hnet
  unfold getFeatureSet
  refine hframe.seq hframe.read fun s => ?_
  dsimp only
  split
  · exact hframe.ret _
  refine hframe.seq (getFeatureMetadata_extends hnet) fun metadata => ?_
  refine hframe.seq ?_ fun _ => hframe.ret _
  exact fun s => ⟨(Extends.refl s).log, rfl, fun _ h => h, rfl, rfl, rfl⟩

theorem supportsFeature_extends (hnet : Yields devices net P) :
    Keeps (Extends P) (supportsFeature devices net id target) := by
  have hframe := extends_frame hnet
  unfold supportsFeature
  split
  · exact hframe.ret _
  · exact hframe.seq (getFeatureSet_extends hnet) fun _ => hframe.ret _

theorem ask_extends (hnet : Yields devices net P) (q : FeatureQuery) (s : FeatureSession) :
    Extends P s (ask devices net q s) := by
  cases q with
  | getFeatureMetadata target => exact getFeatureMetadata_extends hnet s
  | getFeatureSet target => exact getFeatureSet_extends hnet s
  | supportsFeature id target => exact supportsFeature_extends hnet s
  | resolveFeatureIndex id target => exact (extends_frame hnet).resolveFeatureIndex id target s

end FeatureSession
end AbrekMouse
