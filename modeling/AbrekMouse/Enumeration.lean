import AbrekMouse.FeatureExchanges
import AbrekMouse.Machine
import Mathlib.Data.List.Range
import Mathlib.Data.List.Perm.Basic
import Mathlib.Data.List.Nodup

/-! # Feature enumerations

Three caches are filled at different points of a discovery: the index of each feature as it
is found, the metadata at the end of an enumeration however that has ended, and the feature
set from whatever metadata there were.  `get_feature_metadata` caches nothing when one of its
first two requests fails, but `get_feature_set` then caches the empty set.

The runs that keep to complete enumerations are the careful ones (`Careful`): in them a
device that answers is found with all its features (`feature_caches_complete`).
-/
namespace AbrekMouse
open ProgLib

/-! ## What a device says -/

theorem readBe16_split (id : UInt16) : readBe16 (id >>> 8).toUInt8 id.toUInt8 = id := by
  have hid := id.toNat_lt
  have height : UInt16.toNat 8 % 16 = 8 := rfl
  have hor : 2 ^ 8 * (id.toNat / 2 ^ 8) ||| id.toNat % 2 ^ 8 = id.toNat := by
    rw [← Nat.two_pow_add_eq_or_of_lt (Nat.mod_lt _ (by decide)), Nat.div_add_mod]
  have hhigh : id.toNat / 2 ^ 8 % 2 ^ 8 * 2 ^ 8 % 2 ^ 16 = 2 ^ 8 * (id.toNat / 2 ^ 8) := by omega
  apply UInt16.toNat_inj.mp
  simp only [readBe16, UInt16.toNat_or, UInt16.toNat_shiftLeft, UInt8.toNat_toUInt16,
    UInt16.toNat_toUInt8, UInt16.toNat_shiftRight, Nat.shiftLeft_eq, Nat.shiftRight_eq_div_pow]
  rw [height, hhigh]
  exact hor

namespace HidppDevice
variable {d : HidppDevice} {r : FeatureRequest} {id : UInt16} {i : ℕ}

theorem indexOf_le : d.indexOf id ≤ d.features.length := by
  unfold indexOf
  split
  · rename_i i hi
    have hlt := (List.findIdx?_eq_some_iff_getElem.mp hi).1
    omega
  · exact Nat.zero_le _

theorem idAt_indexOf (h : d.indexOf id ≠ 0) : d.idAt (d.indexOf id) = some id := by
  unfold indexOf at h ⊢
  split at h
  · rename_i i hi
    obtain ⟨hlt, hid, _⟩ := List.findIdx?_eq_some_iff_getElem.mp hi
    simpa [idAt, List.getElem?_eq_getElem hlt] using hid
  · exact absurd rfl h

theorem indexOf_featureSet_ne_zero : d.indexOf 0x0001 ≠ 0 := by
  obtain ⟨f, hf, hid⟩ := d.has_featureSet
  unfold indexOf
  split
  · exact Nat.succ_ne_zero _
  · rename_i hnone
    have hall := List.findIdx?_eq_none_iff.mp hnone f hf
    simp [hid] at hall

theorem toNat_indexOf : (UInt8.ofNat (d.indexOf id)).toNat = d.indexOf id := by
  have hle : d.indexOf id ≤ d.features.length := indexOf_le
  have hlength := d.length_le
  rw [UInt8.toNat_ofNat']
  omega

theorem ofNat_indexOf_eq_zero : UInt8.ofNat (d.indexOf id) = 0 ↔ d.indexOf id = 0 := by
  rw [← UInt8.toNat_inj, toNat_indexOf]
  rfl

/-- FEATURE_SET is not at the index of ROOT. -/
theorem featureSetIndex_ne_zero : UInt8.ofNat (d.indexOf 0x0001) ≠ 0 :=
  fun h => indexOf_featureSet_ne_zero (ofNat_indexOf_eq_zero.mp h)

/-- ROOT reports the index of a feature. -/
theorem reply_getFeature (id : UInt16) (hfeature : r.asked.feature = 0)
    (hfunction : r.asked.function = 0)
    (hparams : r.params = [(id >>> 8).toUInt8, id.toUInt8, 0]) :
    d.reply r = some (UInt8.ofNat (d.indexOf id) :: d.other r) := by
  rw [reply, if_pos ⟨hfeature, hfunction⟩, hparams]
  exact congrArg (fun id => some (UInt8.ofNat (d.indexOf id) :: d.other r)) (readBe16_split id)

/-- An index other than that of ROOT is reported for a feature that is there. -/
theorem idAt_toNat_indexOf (h : UInt8.ofNat (d.indexOf id) ≠ 0) :
    d.idAt (UInt8.ofNat (d.indexOf id)).toNat = some id := by
  rw [toNat_indexOf]
  exact idAt_indexOf fun hzero => h (ofNat_indexOf_eq_zero.mpr hzero)

/-- FEATURE_SET.GetCount leaves ROOT out. -/
theorem reply_getCount (hfeature : r.asked.feature = UInt8.ofNat (d.indexOf 0x0001))
    (hfunction : r.asked.function = 0) :
    d.reply r = some (UInt8.ofNat d.features.length :: d.other r) := by
  have hroot : ¬(r.asked.feature = 0 ∧ r.asked.function = 0) := by
    rintro ⟨hzero, _⟩
    exact featureSetIndex_ne_zero (hfeature.symm.trans hzero)
  rw [reply, if_neg hroot, if_pos ⟨hfeature, hfunction⟩]

/-- The metadata of the feature at an index. -/
def metadataAt (d : HidppDevice) (i : ℕ) : Option FeatureMetadata :=
  d.features[i - 1]?.map fun f => ⟨f.id, UInt8.ofNat i, f.type, f.version⟩

theorem parse_reply (hfeature : r.asked.feature = UInt8.ofNat (d.indexOf 0x0001))
    (hfunction : r.asked.function = 1) (hparams : r.params = [UInt8.ofNat i]) (hpos : 0 < i)
    (hi : i ≤ 255) :
    (d.reply r).bind (parseFeatureMetadata (UInt8.ofNat i)) = d.metadataAt i := by
  have hbyte : (byteAt r.params 0).toNat = i := by
    rw [hparams]
    show (UInt8.ofNat i).toNat = i
    rw [UInt8.toNat_ofNat']
    omega
  have hnonzero : byteAt r.params 0 ≠ 0 := by
    intro h
    rw [h] at hbyte
    exact hpos.ne hbyte
  have hone : (1 : UInt8) ≠ 0 := by decide
  rw [reply, if_neg (by rw [hfunction]; exact fun h => hone h.2),
    if_neg (by rw [hfunction]; exact fun h => hone h.2), if_pos ⟨hfeature, hfunction⟩,
    if_neg hnonzero, hbyte, metadataAt]
  cases hf : d.features[i - 1]? with
  | none => rfl
  | some f =>
      have hne : f.id ≠ 0 := d.id_ne_zero f (List.mem_of_getElem? hf)
      simp [FeatureEntry.toBytes, parseFeatureMetadata, readBe16_split, hne]

theorem idAt_of_metadataAt {item : FeatureMetadata} (hpos : 0 < i)
    (h : d.metadataAt i = some item) : d.idAt i = some item.featureId := by
  obtain ⟨i, rfl⟩ := Nat.exists_eq_succ_of_ne_zero hpos.ne'
  obtain ⟨f, hf, rfl⟩ := Option.map_eq_some_iff.mp h
  have hf : d.features[i]? = some f := hf
  rw [idAt, hf]
  rfl

theorem metadataAt_isSome (hpos : 0 < i) (hi : i ≤ d.features.length) :
    ∃ item, d.metadataAt i = some item := by
  have hlt : i - 1 < d.features.length := by omega
  rw [metadataAt, List.getElem?_eq_getElem hlt]
  exact ⟨_, rfl⟩

theorem metadataAt_idAt (hpos : 0 < i) : (d.metadataAt i).map
    (fun item => (item.featureId, item.index)) = (d.idAt i).map fun id => (id, UInt8.ofNat i) := by
  obtain ⟨i, rfl⟩ := Nat.exists_eq_succ_of_ne_zero hpos.ne'
  simp [metadataAt, idAt, Function.comp_def]

end HidppDevice

/-! ## What the transport takes for a reply -/

namespace Exchange
variable (devices : UInt8 → HidppDevice)

/-- Nothing is taken for the reply but the reply. -/
def Faithful : Exchange → Prop
  | request r taken => taken = none ∨ taken = (devices r.asked.device).reply r
  | clock _ => True

/-- The reply comes, and in time. -/
def Answered : Exchange → Prop
  | request r taken => taken = (devices r.asked.device).reply r
  | clock timeUp => timeUp = false

end Exchange

namespace FeatureSession
variable {devices : UInt8 → HidppDevice} {net : Network}
variable {s t u : FeatureSession} {feature function target featureSetIndex index : UInt8}
variable {id : UInt16} {params : Bytes} {taken : Option Bytes} {n : ℕ}

/-- Nothing but replies has been taken for a reply. -/
def Faithful (devices : UInt8 → HidppDevice) (s : FeatureSession) : Prop :=
  ∀ e ∈ s.log, e.Faithful devices

/-- All exchanges after the first `n` have been answered. -/
def AnsweredFrom (devices : UInt8 → HidppDevice) (n : ℕ) (s : FeatureSession) : Prop :=
  ∀ e ∈ s.log.drop n, e.Answered devices

/-- Every cached index is one at which the device has the feature. -/
def IndicesSound (devices : UInt8 → HidppDevice) (s : FeatureSession) : Prop :=
  ∀ target id index, s.featureIndices (target, id) = some index →
    (devices target).idAt index.toNat = some id

theorem Faithful.of_isPrefix (h : s.log <+: t.log) (ht : t.Faithful devices) :
    s.Faithful devices :=
  fun e he => ht e (h.subset he)

theorem AnsweredFrom.of_isPrefix (h : s.log <+: t.log) (ht : t.AnsweredFrom devices n) :
    s.AnsweredFrom devices n := by
  obtain ⟨added, hadded⟩ := h
  intro e he
  refine ht e ?_
  rw [← hadded, List.drop_append]
  exact List.mem_append_left _ he

/-- A session after a request, and what was taken for the reply. -/
structure Sent (devices : UInt8 → HidppDevice) (feature function : UInt8) (params : Bytes)
    (target : UInt8) (s t : FeatureSession) (r : FeatureRequest) (taken : Option Bytes) :
    Prop where
  log : t.log = s.log ++ [.request r taken]
  device : r.asked.device = s.transport.targetOf target
  feature : r.asked.feature = feature
  function : r.asked.function = function
  params : r.params = params
  deviceIndex : t.transport.deviceIndex = s.transport.deviceIndex
  indices : t.featureIndices = s.featureIndices
  metadataSets : t.featureMetadataSets = s.featureMetadataSets
  sets : t.featureSets = s.featureSets

theorem sendFeatureRequest_sent (devices : UInt8 → HidppDevice) (net : Network)
    (s : FeatureSession) (feature function : UInt8) (params : Bytes) (target wire : UInt8)
    (hwire : normalizeFunctionId function = wire) (hparams : params.length ≤ 16) :
    ∃ r, Sent devices feature wire params target s
      (sendFeatureRequest devices net feature function params target s).2 r
      (sendFeatureRequest devices net feature function params target s).1 := by
  unfold sendFeatureRequest
  rw [if_neg (Nat.not_lt.mpr hparams)]
  exact ⟨_, rfl, rfl, rfl, hwire, rfl, rfl, rfl, rfl, rfl⟩

namespace Sent
variable {r : FeatureRequest} (h : Sent devices feature function params target s t r taken)
include h

theorem mem_log : Exchange.request r taken ∈ t.log := by
  rw [h.log]
  exact List.mem_append_right _ (List.mem_singleton_self _)

theorem taken_of_faithful (ht : t.Faithful devices) :
    taken = none ∨ taken = (devices (s.transport.targetOf target)).reply r := by
  have hfaithful := ht _ h.mem_log
  rwa [Exchange.Faithful, h.device] at hfaithful

theorem taken_of_answered (hn : n ≤ s.log.length) (ht : t.AnsweredFrom devices n) :
    taken = (devices (s.transport.targetOf target)).reply r := by
  have hmem : Exchange.request r taken ∈ t.log.drop n := by
    rw [h.log, List.drop_append_of_le_length hn]
    exact List.mem_append_right _ (List.mem_singleton_self _)
  have hanswered := ht _ hmem
  rwa [Exchange.Answered, h.device] at hanswered

theorem targetOf (target : UInt8) : t.transport.targetOf target = s.transport.targetOf target := by
  unfold HidppTransport.targetOf
  rw [h.deviceIndex]

theorem indicesSound (hs : s.IndicesSound devices) : t.IndicesSound devices := by
  unfold IndicesSound
  rw [h.indices]
  exact hs

end Sent

/-! ## Cached indices -/

theorem cacheFeatureIndex_sound (hs : s.IndicesSound devices)
    (hindex : (devices target).idAt index.toNat = some id) :
    (cacheFeatureIndex target id index s).2.IndicesSound devices := by
  intro target' id' index' h
  have h : Function.update s.featureIndices (target, id) index (target', id') = some index' := h
  by_cases hkey : (target', id') = (target, id)
  · obtain ⟨rfl, rfl⟩ := Prod.mk.inj hkey
    rw [Function.update_self] at h
    cases h
    exact hindex
  · rw [Function.update_of_ne hkey] at h
    exact hs _ _ _ h

theorem resolveFeatureIndex_sound (hs : s.IndicesSound devices)
    (hfaithful : (resolveFeatureIndex devices net id target s).2.Faithful devices) :
    (resolveFeatureIndex devices net id target s).2.IndicesSound devices := by
  unfold resolveFeatureIndex at hfaithful ⊢
  by_cases hid : id = 0
  · rw [if_pos hid]
    exact hs
  rw [if_neg hid] at hfaithful ⊢
  simp only [bind_apply, get_apply] at hfaithful ⊢
  cases hcached : s.featureIndices (s.transport.targetOf target, id) with
  | some index => exact hs
  | none =>
      simp only [hcached, bind_apply] at hfaithful ⊢
      obtain ⟨r, hsent⟩ := sendFeatureRequest_sent devices net s 0 0
        [(id >>> 8).toUInt8, id.toUInt8, 0] target 0 (by decide) (Nat.le_add_left 3 13)
      rcases htaken : (sendFeatureRequest devices net 0 0 [(id >>> 8).toUInt8, id.toUInt8, 0]
        target s).1 with _ | _ | ⟨index, rest⟩
      · exact hsent.indicesSound hs
      · exact hsent.indicesSound hs
      · simp only [htaken] at hfaithful ⊢
        by_cases hzero : index = 0
        · rw [if_pos hzero]
          exact hsent.indicesSound hs
        · rw [if_neg hzero] at hfaithful ⊢
          refine cacheFeatureIndex_sound (hsent.indicesSound hs) ?_
          rw [htaken] at hsent
          have hreply := (hsent.taken_of_faithful hfaithful).resolve_left (by simp)
          rw [HidppDevice.reply_getFeature id hsent.feature hsent.function hsent.params] at hreply
          obtain ⟨rfl, _⟩ := List.cons.inj (Option.some.inj hreply)
          exact HidppDevice.idAt_toNat_indexOf hzero

/-! ## The enumeration -/

/-- A cached index comes from the reply of the device. -/
theorem enumerate_sound (net : Network) (left : ℕ)
    (hindex : featureSetIndex = UInt8.ofNat ((devices target).indexOf 0x0001)) :
    ∀ (s : FeatureSession) (i : ℕ) (features : List FeatureMetadata) (timeouts : ℕ),
      s.transport.targetOf target = target → 0 < i → i + left ≤ 256 → s.IndicesSound devices →
      (enumerate devices net featureSetIndex target left i features timeouts s).2.Faithful
        devices →
      (enumerate devices net featureSetIndex target left i features timeouts s).2.IndicesSound
        devices := by
  -- on the indices that are left; the misses so far do not matter
  induction left with
  | zero => exact fun _ _ _ _ _ _ _ hs _ => hs
  | succ left ih =>
      intro s i features timeouts htarget hpos hi hs hfaithful
      unfold enumerate at hfaithful ⊢
      simp only [bind_apply] at hfaithful ⊢
      by_cases hup : (timeUp net s).1 = true
      · rw [if_pos hup]
        exact hs
      rw [if_neg hup] at hfaithful ⊢
      by_cases hskip : i = featureSetIndex.toNat
      · rw [if_pos hskip] at hfaithful ⊢
        exact ih _ _ _ _ htarget (Nat.succ_pos i) (by omega) hs hfaithful
      rw [if_neg hskip] at hfaithful ⊢
      simp only [bind_apply] at hfaithful ⊢
      obtain ⟨r, hsent⟩ := sendFeatureRequest_sent devices net (timeUp net s).2 featureSetIndex 1
        [UInt8.ofNat i] target 1 (by decide) (Nat.le_add_left 1 15)
      have htarget' := (hsent.targetOf target).trans htarget
      have hs' := hsent.indicesSound hs
      cases hmetadata : (sendFeatureRequest devices net featureSetIndex 1 [UInt8.ofNat i] target
          (timeUp net s).2).1.bind (parseFeatureMetadata (UInt8.ofNat i)) with
      | none =>
          simp only [hmetadata] at hfaithful ⊢
          by_cases hstreak : 3 ≤ timeouts + 1
          · rw [if_pos hstreak]
            exact hs'
          · rw [if_neg hstreak] at hfaithful ⊢
            exact ih _ _ _ _ htarget' (Nat.succ_pos i) (by omega) hs' hfaithful
      | some metadata =>
          simp only [hmetadata, bind_apply] at hfaithful ⊢
          refine ih _ _ _ _ htarget' (Nat.succ_pos i) (by omega) (cacheFeatureIndex_sound hs' ?_)
            hfaithful
          have hlater := hfaithful.of_isPrefix
            ((grows_frame devices net).enumerate left _ _ _ _).isPrefix
          -- the reply is the device's, so the index is that of the feature in it
          rcases hsent.taken_of_faithful hlater with htaken | htaken
          · rw [htaken] at hmetadata
            cases hmetadata
          · have htimeUp : (timeUp net s).2.transport.targetOf target = target := htarget
            rw [htaken, htimeUp, HidppDevice.parse_reply (hsent.feature.trans hindex)
              hsent.function hsent.params hpos (by omega)] at hmetadata
            have hlt : (UInt8.ofNat i).toNat = i := by
              rw [UInt8.toNat_ofNat']
              omega
            rw [hlt]
            exact HidppDevice.idAt_of_metadataAt hpos hmetadata

theorem timeUp_answered (hn : n ≤ s.log.length)
    (h : (timeUp net s).2.AnsweredFrom devices n) : (timeUp net s).1 = false := by
  refine h (.clock (timeUp net s).1) ?_
  show _ ∈ List.drop n (s.log ++ [_])
  rw [List.drop_append_of_le_length hn]
  exact List.mem_append_right _ (List.mem_singleton_self _)

/-- What an enumeration adds when every request in it is answered. -/
theorem enumerate_answered (net : Network) (left : ℕ)
    (hindex : featureSetIndex = UInt8.ofNat ((devices target).indexOf 0x0001)) :
    ∀ (s : FeatureSession) (i : ℕ) (features : List FeatureMetadata) (timeouts : ℕ),
      s.transport.targetOf target = target → 0 < i →
      i + left ≤ (devices target).features.length + 1 → n ≤ s.log.length →
      (enumerate devices net featureSetIndex target left i features timeouts s).2.AnsweredFrom
        devices n →
      (enumerate devices net featureSetIndex target left i features timeouts s).1 =
        features ++ ((List.range' i left).filter (· ≠ featureSetIndex.toNat)).filterMap
          (devices target).metadataAt := by
  -- on the indices that are left
  induction left with
  | zero => exact fun _ _ _ _ _ _ _ _ _ => (List.append_nil _).symm
  | succ left ih =>
      intro s i features timeouts htarget hpos hi hn hanswered
      have hlength := (devices target).length_le
      rw [List.range'_succ]
      unfold enumerate at hanswered ⊢
      simp only [bind_apply] at hanswered ⊢
      -- the time is not up, and the next slot is asked
      have hclock : ¬(timeUp net s).1 = true := by
        intro hup
        rw [if_pos hup] at hanswered
        have hfalse := timeUp_answered hn hanswered
        rw [hup] at hfalse
        cases hfalse
      rw [if_neg hclock] at hanswered ⊢
      have hn : n ≤ (timeUp net s).2.log.length := by
        have hlog : (timeUp net s).2.log.length = s.log.length + 1 := by simp [timeUp]
        omega
      have htarget : (timeUp net s).2.transport.targetOf target = target := htarget
      by_cases hskip : i = featureSetIndex.toNat
      · rw [if_pos hskip] at hanswered ⊢
        rw [List.filter_cons_of_neg (by simpa using hskip)]
        exact ih _ _ _ _ htarget (Nat.succ_pos i) (by omega) hn hanswered
      rw [if_neg hskip] at hanswered ⊢
      simp only [bind_apply] at hanswered ⊢
      obtain ⟨r, hsent⟩ := sendFeatureRequest_sent devices net (timeUp net s).2 featureSetIndex 1
        [UInt8.ofNat i] target 1 (by decide) (Nat.le_add_left 1 15)
      have htarget' := (hsent.targetOf target).trans htarget
      have hn' : n ≤ (sendFeatureRequest devices net featureSetIndex 1 [UInt8.ofNat i] target
          (timeUp net s).2).2.log.length := by
        have hlength := congrArg List.length hsent.log
        rw [List.length_append] at hlength
        omega
      -- the count is that of the device, so the slot is one of its features
      obtain ⟨metadata, hmetadata⟩ :=
        (devices target).metadataAt_isSome hpos (show i ≤ _ by omega)
      have hparsed : (sendFeatureRequest devices net featureSetIndex 1 [UInt8.ofNat i] target
          (timeUp net s).2).1.bind (parseFeatureMetadata (UInt8.ofNat i)) = some metadata := by
        -- whatever comes after the request only adds to the log
        have hsentAnswered : (sendFeatureRequest devices net featureSetIndex 1 [UInt8.ofNat i]
            target (timeUp net s).2).2.AnsweredFrom devices n := by
          refine AnsweredFrom.of_isPrefix ?_ hanswered
          generalize (sendFeatureRequest devices net featureSetIndex 1 [UInt8.ofNat i] target
            (timeUp net s).2).1.bind (parseFeatureMetadata (UInt8.ofNat i)) = parsed
          cases parsed with
          | none =>
              dsimp only
              split
              · exact List.prefix_rfl
              · exact ((grows_frame devices net).enumerate left _ _ _ _).isPrefix
          | some metadata =>
              have hframe := grows_frame devices net
              exact (hframe.seq (hframe.cache _ _ _)
                (fun _ => hframe.enumerate left _ _ _) _).isPrefix
        rw [hsent.taken_of_answered hn hsentAnswered, htarget, HidppDevice.parse_reply
          (hsent.feature.trans hindex) hsent.function hsent.params hpos (by omega), hmetadata]
      simp only [hparsed, bind_apply] at hanswered ⊢
      rw [List.filter_cons_of_pos (by simpa using hskip), List.filterMap_cons_some hmetadata]
      refine (ih (cacheFeatureIndex target metadata.featureId (UInt8.ofNat i)
        (sendFeatureRequest devices net featureSetIndex 1 [UInt8.ofNat i] target
          (timeUp net s).2).2).2 _ _ _ htarget' (Nat.succ_pos i) (by omega) hn' hanswered).trans ?_
      exact List.append_assoc features [metadata] _

/-! ## Complete tables -/

/-- The metadata are those of ROOT and of every feature of the device, each once. -/
def Complete (d : HidppDevice) (features : List FeatureMetadata) : Prop :=
  (features.map fun item => (item.featureId, item.index)).Perm d.table

theorem complete_enumeration (d : HidppDevice) : Complete d
    ([⟨0x0000, 0, 0, 0⟩, ⟨0x0001, UInt8.ofNat (d.indexOf 0x0001), 0, 0⟩] ++
      ((List.range' 1 d.features.length).filter
        (· ≠ (UInt8.ofNat (d.indexOf 0x0001)).toNat)).filterMap d.metadataAt) := by
  rw [HidppDevice.toNat_indexOf]
  have hle : d.indexOf 0x0001 ≤ d.features.length := HidppDevice.indexOf_le
  have hne : d.indexOf 0x0001 ≠ 0 := HidppDevice.indexOf_featureSet_ne_zero
  have hmem : d.indexOf 0x0001 ∈ List.range' 1 d.features.length :=
    List.mem_range'_1.mpr ⟨Nat.pos_of_ne_zero hne, by omega⟩
  -- ROOT and FEATURE_SET go first, and the index of FEATURE_SET is left out later
  have hperm : (List.range (d.features.length + 1)).Perm (0 :: d.indexOf 0x0001 ::
      (List.range' 1 d.features.length).filter (· ≠ d.indexOf 0x0001)) := by
    rw [List.range_eq_range', List.range'_succ]
    refine .cons 0 ((List.perm_cons_erase hmem).trans (.cons _ ?_))
    rw [List.Nodup.erase_eq_filter List.nodup_range']
    refine .of_eq (List.filter_congr fun i _ => ?_)
    rw [Bool.eq_iff_iff]
    simp
  unfold Complete HidppDevice.table
  refine .trans (.of_eq ?_) (hperm.filterMap _).symm
  have hidAt : d.idAt (d.indexOf 0x0001) = some 0x0001 := HidppDevice.idAt_indexOf hne
  have hroot : d.idAt 0 = some 0 := rfl
  simp only [List.filterMap_cons, hroot, hidAt, Option.map_some, List.map_append,
    List.map_filterMap]
  refine congrArg ([(0, 0), (0x0001, _)] ++ ·) (List.filterMap_congr fun i hi => ?_)
  have hpos : 0 < i := (List.mem_range'_1.mp (List.mem_of_mem_filter hi)).1
  exact HidppDevice.metadataAt_idAt hpos

/-! ## Discovery -/

theorem targetOf_targetOf (t : HidppTransport) (target : UInt8) :
    t.targetOf (t.targetOf target) = t.targetOf target := by
  unfold HidppTransport.targetOf
  split_ifs
  · rfl
  · rfl
  · rfl

/-- The ways of a discovery, and what it returns. -/
inductive Discovery (devices : UInt8 → HidppDevice) (net : Network) (target : UInt8)
    (s t : FeatureSession) : List FeatureMetadata → Prop
  | cached {features : List FeatureMetadata} :
      s.featureMetadataSets target = some features → t = s →
      Discovery devices net target s t features
  | noFeatureSet {r : FeatureRequest} {taken : Option Bytes} :
      Sent devices 0 0 [0x00, 0x01, 0x00] target s t r taken →
      (∀ index rest, taken = some (index :: rest) → index = 0) →
      Discovery devices net target s t []
  | noCount {u : FeatureSession} {r r' : FeatureRequest} {index : UInt8} {rest : Bytes}
      {taken : Option Bytes} :
      Sent devices 0 0 [0x00, 0x01, 0x00] target s u r (some (index :: rest)) → index ≠ 0 →
      Sent devices index 0 [0, 0, 0] target (cacheFeatureIndex target 0x0001 index u).2 t r'
        taken →
      (∀ count rest, taken ≠ some (count :: rest)) → Discovery devices net target s t []
  | enumerated {u v w : FeatureSession} {r r' : FeatureRequest} {index count : UInt8}
      {rest rest' : Bytes} {features : List FeatureMetadata} :
      Sent devices 0 0 [0x00, 0x01, 0x00] target s u r (some (index :: rest)) → index ≠ 0 →
      Sent devices index 0 [0, 0, 0] target (cacheFeatureIndex target 0x0001 index u).2 v r'
        (some (count :: rest')) →
      enumerate devices net index target count.toNat 1
        [⟨0x0000, 0, 0, 0⟩, ⟨0x0001, index, 0, 0⟩] 0 v = (features, w) →
      t = { w with
        featureMetadataSets := Function.update w.featureMetadataSets target features } →
      Discovery devices net target s t features

theorem getFeatureMetadata_discovery (devices : UInt8 → HidppDevice) (net : Network)
    (s : FeatureSession) (target : UInt8) : Discovery devices net (s.transport.targetOf target) s
    (getFeatureMetadata devices net target s).2 (getFeatureMetadata devices net target s).1 := by
  unfold getFeatureMetadata
  simp only [bind_apply, get_apply]
  cases hcached : s.featureMetadataSets (s.transport.targetOf target) with
  | some features => exact .cached hcached rfl
  | none =>
      simp only [bind_apply]
      obtain ⟨r, hsent⟩ := sendFeatureRequest_sent devices net s 0 0 [0x00, 0x01, 0x00]
        (s.transport.targetOf target) 0 (by decide) (by decide)
      rcases htaken : (sendFeatureRequest devices net 0 0 [0x00, 0x01, 0x00]
        (s.transport.targetOf target) s).1 with _ | _ | ⟨index, rest⟩
      · exact .noFeatureSet hsent (by simp [htaken])
      · exact .noFeatureSet hsent (by simp [htaken])
      · rw [htaken] at hsent
        by_cases hzero : index = 0
        · simp only [if_pos hzero]
          exact .noFeatureSet hsent (by simp [hzero])
        simp only [if_neg hzero, bind_apply]
        obtain ⟨r', hsent'⟩ := sendFeatureRequest_sent devices net
          (cacheFeatureIndex (s.transport.targetOf target) 0x0001 index
            (sendFeatureRequest devices net 0 0 [0x00, 0x01, 0x00]
              (s.transport.targetOf target) s).2).2
          index 0 [0, 0, 0] (s.transport.targetOf target) 0 (by decide) (by decide)
        generalize sendFeatureRequest devices net index 0 [0, 0, 0] _ _ = sent at hsent' ⊢
        obtain ⟨_ | _ | ⟨count, rest'⟩, v⟩ := sent
        · exact .noCount hsent hzero hsent' nofun
        · exact .noCount hsent hzero hsent' nofun
        · exact .enumerated hsent hzero hsent' rfl rfl

theorem enumerate_isPrefix {left i timeouts : ℕ} {features : List FeatureMetadata}
    {run : List FeatureMetadata × FeatureSession}
    (h : enumerate devices net featureSetIndex target left i features timeouts s = run) :
    s.log <+: run.2.log :=
  h ▸ ((grows_frame devices net).enumerate left i features timeouts s).isPrefix

theorem enumerate_sameSets {left i timeouts : ℕ} {features : List FeatureMetadata}
    {run : List FeatureMetadata × FeatureSession}
    (h : enumerate devices net featureSetIndex target left i features timeouts s = run) :
    SameSets s run.2 :=
  h ▸ sameSets_frame.enumerate left i features timeouts s

/-- The index of FEATURE_SET comes from the reply of the device. -/
theorem Sent.featureSetIndex_eq {r : FeatureRequest} {rest : Bytes}
    (h : Sent devices 0 0 [0x00, 0x01, 0x00] target s t r taken)
    (htarget : s.transport.targetOf target = target)
    (hreply : some (index :: rest) = (devices (s.transport.targetOf target)).reply r) :
    index = UInt8.ofNat ((devices target).indexOf 0x0001) := by
  rw [htarget, HidppDevice.reply_getFeature 0x0001 h.feature h.function h.params] at hreply
  exact (List.cons.inj (Option.some.inj hreply)).1

theorem Discovery.sound {features : List FeatureMetadata}
    (h : Discovery devices net target s t features)
    (htarget : s.transport.targetOf target = target) (hs : s.IndicesSound devices)
    (ht : t.Faithful devices) : t.IndicesSound devices := by
  cases h with
  | cached _ hsame => exact hsame ▸ hs
  | noFeatureSet hsent _ => exact hsent.indicesSound hs
  | @noCount u _ _ _ _ _ hsent hne hsent' _ =>
      have hu : u.Faithful devices := ht.of_isPrefix ⟨_, hsent'.log.symm⟩
      have hindex := hsent.featureSetIndex_eq htarget
        ((hsent.taken_of_faithful hu).resolve_left (by simp))
      refine hsent'.indicesSound (cacheFeatureIndex_sound (hsent.indicesSound hs) ?_)
      rw [hindex] at hne ⊢
      exact HidppDevice.idAt_toNat_indexOf hne
  | @enumerated u v w _ _ index count _ _ _ hsent hne hsent' hrun hw =>
      subst hw
      have hwf : w.Faithful devices := ht
      have hv : v.Faithful devices := hwf.of_isPrefix (enumerate_isPrefix hrun)
      have hu : u.Faithful devices := hv.of_isPrefix ⟨_, hsent'.log.symm⟩
      have hindex := hsent.featureSetIndex_eq htarget
        ((hsent.taken_of_faithful hu).resolve_left (by simp))
      have hvs : v.IndicesSound devices := by
        refine hsent'.indicesSound (cacheFeatureIndex_sound (hsent.indicesSound hs) ?_)
        rw [hindex] at hne ⊢
        exact HidppDevice.idAt_toNat_indexOf hne
      have hcount := count.toNat_lt
      have hws : w.IndicesSound devices := by
        have hsound := enumerate_sound net count.toNat hindex v 1
          [⟨0x0000, 0, 0, 0⟩, ⟨0x0001, index, 0, 0⟩] 0 ?_ Nat.one_pos (by omega) hvs
        · rw [hrun] at hsound
          exact hsound hwf
        · rw [hsent'.targetOf, show (cacheFeatureIndex target 0x0001 index u).2.transport =
            u.transport from rfl, hsent.targetOf, htarget]
      exact hws

/-- A discovery leaves the other tables alone. -/
theorem Discovery.sets {features : List FeatureMetadata}
    (h : Discovery devices net target s t features) : t.featureSets = s.featureSets := by
  cases h with
  | cached _ hsame => rw [hsame]
  | noFeatureSet hsent _ => exact hsent.sets
  | noCount hsent _ hsent' _ => exact hsent'.sets.trans hsent.sets
  | @enumerated u v w _ _ index count _ _ _ hsent _ hsent' hrun hw =>
      rw [hw]
      exact (enumerate_sameSets hrun).2.trans (hsent'.sets.trans hsent.sets)

/-- A discovery whose requests are all answered finds the whole table. -/
theorem Discovery.complete {features : List FeatureMetadata}
    (h : Discovery devices net target s t features)
    (htarget : s.transport.targetOf target = target)
    (hs : ∀ features, s.featureMetadataSets target = some features →
      Complete (devices target) features) (ht : t.AnsweredFrom devices s.log.length) :
    Complete (devices target) features := by
  cases h with
  | cached hcached _ => exact hs _ hcached
  | noFeatureSet hsent hnone =>
      -- the device has FEATURE_SET, and says so
      have htaken := hsent.taken_of_answered le_rfl ht
      rw [htarget, HidppDevice.reply_getFeature 0x0001 hsent.feature hsent.function
        hsent.params] at htaken
      exact absurd (hnone _ _ htaken) HidppDevice.featureSetIndex_ne_zero
  | @noCount u _ _ index _ _ hsent _ hsent' hnone =>
      have hu : u.AnsweredFrom devices s.log.length := ht.of_isPrefix ⟨_, hsent'.log.symm⟩
      have hindex := hsent.featureSetIndex_eq htarget (hsent.taken_of_answered le_rfl hu)
      have hlength : s.log.length ≤ u.log.length := by simp [hsent.log]
      have htarget' : (cacheFeatureIndex target 0x0001 index u).2.transport.targetOf target =
        target := (hsent.targetOf target).trans htarget
      have htaken := hsent'.taken_of_answered hlength ht
      rw [htarget', HidppDevice.reply_getCount (hsent'.feature.trans hindex) hsent'.function]
        at htaken
      exact absurd htaken (hnone _ _)
  | @enumerated u v w _ _ index count _ _ _ hsent _ hsent' hrun hw =>
      subst hw
      have hw : w.AnsweredFrom devices s.log.length := ht
      have hv : v.AnsweredFrom devices s.log.length := hw.of_isPrefix (enumerate_isPrefix hrun)
      have hu : u.AnsweredFrom devices s.log.length := hv.of_isPrefix ⟨_, hsent'.log.symm⟩
      have hindex := hsent.featureSetIndex_eq htarget (hsent.taken_of_answered le_rfl hu)
      have hlength : s.log.length ≤ u.log.length := by simp [hsent.log]
      have hlength' : s.log.length ≤ v.log.length :=
        hlength.trans (List.IsPrefix.length_le ⟨_, hsent'.log.symm⟩)
      have htarget' : (cacheFeatureIndex target 0x0001 index u).2.transport.targetOf target =
        target := (hsent.targetOf target).trans htarget
      have htaken := hsent'.taken_of_answered hlength hv
      rw [htarget', HidppDevice.reply_getCount (hsent'.feature.trans hindex) hsent'.function]
        at htaken
      -- the count that is read is the number of features
      have hcount : count.toNat = (devices target).features.length := by
        rw [(List.cons.inj (Option.some.inj htaken)).1, UInt8.toNat_ofNat']
        have hle := (devices target).length_le
        omega
      have hanswered := enumerate_answered net count.toNat hindex v 1
        [⟨0x0000, 0, 0, 0⟩, ⟨0x0001, index, 0, 0⟩] 0 ((hsent'.targetOf target).trans htarget')
        Nat.one_pos (by omega) hlength'
      rw [hrun] at hanswered
      have hfeatures : features = _ := hanswered hw
      rw [hfeatures, hcount, hindex]
      exact complete_enumeration _

/-- A discovery caches only what it has enumerated, after replies to its first two
requests. -/
theorem Discovery.metadataSets {features : List FeatureMetadata}
    (h : Discovery devices net target s t features) (ht : t.Faithful devices) :
    t.featureMetadataSets = s.featureMetadataSets ∨
      t.featureMetadataSets = Function.update s.featureMetadataSets target (some features) ∧
        ∀ e ∈ (t.log.drop s.log.length).take 2, e.Answered devices := by
  cases h with
  | cached _ hsame => exact .inl (by rw [hsame])
  | noFeatureSet hsent _ => exact .inl hsent.metadataSets
  | noCount hsent _ hsent' _ => exact .inl (hsent'.metadataSets.trans hsent.metadataSets)
  | @enumerated u v w r r' index count rest rest' _ hsent _ hsent' hrun hw =>
      subst hw
      have hw : w.Faithful devices := ht
      have hv : v.Faithful devices := hw.of_isPrefix (enumerate_isPrefix hrun)
      have hu : u.Faithful devices := hv.of_isPrefix ⟨_, hsent'.log.symm⟩
      have hsets : w.featureMetadataSets = s.featureMetadataSets :=
        (enumerate_sameSets hrun).1.trans (hsent'.metadataSets.trans hsent.metadataSets)
      obtain ⟨added, hadded⟩ := enumerate_isPrefix hrun
      have hlog : w.log = s.log ++ (.request r (some (index :: rest)) ::
          .request r' (some (count :: rest')) :: added) := by
        have hv : v.log = u.log ++ _ := hsent'.log
        rw [← hadded, hv, hsent.log, List.append_assoc, List.append_assoc]
        rfl
      refine .inr ⟨congrArg (Function.update · target (some features)) hsets, ?_⟩
      show ∀ e ∈ (w.log.drop s.log.length).take 2, e.Answered devices
      rw [hlog, List.drop_left]
      intro e he
      have he : e ∈ [Exchange.request r (some (index :: rest)),
        .request r' (some (count :: rest'))] := he
      rcases List.mem_pair.mp he with rfl | rfl
      · exact (hu _ hsent.mem_log).resolve_left (by simp)
      · exact (hv _ hsent'.mem_log).resolve_left (by simp)

/-! ## Feature sets -/

theorem getFeatureSet_cached {features : List (UInt16 × UInt8)}
    (h : s.featureSets (s.transport.targetOf target) = some features) :
    getFeatureSet devices net target s = (features, s) := by
  unfold getFeatureSet
  simp only [bind_apply, get_apply, h]
  rfl

theorem getFeatureSet_uncached (h : s.featureSets (s.transport.targetOf target) = none) :
    let run := getFeatureMetadata devices net (s.transport.targetOf target) s
    let features := run.1.map fun item => (item.featureId, item.index)
    getFeatureSet devices net target s = (features, { run.2 with
      featureSets :=
        Function.update run.2.featureSets (s.transport.targetOf target) (some features) }) := by
  unfold getFeatureSet
  simp only [bind_apply, get_apply, h]
  rfl

/-- What the caches hold of each device is all of it, and nothing else. -/
structure CachesComplete (devices : UInt8 → HidppDevice) (s : FeatureSession) : Prop where
  faithful : s.Faithful devices
  indices : s.IndicesSound devices
  metadata : ∀ target features, s.featureMetadataSets target = some features →
    Complete (devices target) features
  sets : ∀ target features, s.featureSets target = some features →
    features.Perm (devices target).table

/-- What holds of the entries of a cache and of a new one holds of the new cache. -/
theorem forall_update {α : Type} {cache : UInt8 → Option α} {Q : UInt8 → α → Prop} {a : α}
    (hcache : ∀ target a, cache target = some a → Q target a) (ha : Q target a) :
    ∀ target' a', Function.update cache target (some a) target' = some a' → Q target' a' := by
  intro target' a' h
  by_cases htarget : target' = target
  · subst htarget
    rw [Function.update_self] at h
    exact Option.some.inj h ▸ ha
  · rw [Function.update_of_ne htarget] at h
    exact hcache _ _ h

theorem getFeatureMetadata_caches (hs : s.CachesComplete devices)
    (hfaithful : (getFeatureMetadata devices net target s).2.Faithful devices)
    (hanswered : (∀ e ∈ ((getFeatureMetadata devices net target s).2.log.drop
      s.log.length).take 2, e.Answered devices) →
      (getFeatureMetadata devices net target s).2.AnsweredFrom devices s.log.length) :
    (getFeatureMetadata devices net target s).2.CachesComplete devices := by
  have h := getFeatureMetadata_discovery devices net s target
  have htarget := targetOf_targetOf s.transport target
  refine ⟨hfaithful, h.sound htarget hs.indices hfaithful, ?_, ?_⟩
  · rcases h.metadataSets hfaithful with hsame | ⟨hupdate, hfirst⟩
    · rw [hsame]
      exact hs.metadata
    · rw [hupdate]
      exact forall_update hs.metadata (h.complete htarget (hs.metadata _) (hanswered hfirst))
  · rw [h.sets]
    exact hs.sets

/-- **Answered requests give the whole table.** -/
theorem getFeatureSet_complete (hs : s.CachesComplete devices)
    (hanswered : (getFeatureSet devices net target s).2.AnsweredFrom devices s.log.length) :
    (getFeatureSet devices net target s).1.Perm
      (devices (s.transport.targetOf target)).table := by
  cases hcached : s.featureSets (s.transport.targetOf target) with
  | some features =>
      rw [getFeatureSet_cached hcached]
      exact hs.sets _ _ hcached
  | none =>
      have htarget := targetOf_targetOf s.transport target
      rw [getFeatureSet_uncached hcached] at hanswered ⊢
      have h := getFeatureMetadata_discovery devices net s (s.transport.targetOf target)
      rw [htarget] at h
      exact h.complete htarget (hs.metadata _) hanswered

theorem getFeatureSet_caches (hs : s.CachesComplete devices)
    (hfaithful : (getFeatureSet devices net target s).2.Faithful devices)
    (hanswered : (getFeatureSet devices net target s).2.AnsweredFrom devices s.log.length) :
    (getFeatureSet devices net target s).2.CachesComplete devices := by
  have hcomplete := getFeatureSet_complete hs hanswered
  cases hcached : s.featureSets (s.transport.targetOf target) with
  | some features =>
      rw [getFeatureSet_cached hcached]
      exact hs
  | none =>
      rw [getFeatureSet_uncached hcached] at hfaithful hanswered hcomplete ⊢
      have hm := getFeatureMetadata_caches hs hfaithful fun _ => hanswered
      exact ⟨hm.faithful, hm.indices, hm.metadata, forall_update hm.sets hcomplete⟩

/-! ## Runs -/

/-- A call of the library, for another device, or one that forgets the features. -/
inductive FeatureStep
  | ask (q : FeatureQuery) (net : Network)
  | setDeviceIndex (idx : UInt8)
  | clearFeatureCache

/-- The session after such a call. -/
def step (devices : UInt8 → HidppDevice) (s : FeatureSession) : FeatureStep → FeatureSession
  | .ask q net => ask devices net q s
  | .setDeviceIndex idx => s.setDeviceIndex idx
  | .clearFeatureCache => s.clearFeatureCache

/-- The runs of a session, from a new transport on. -/
def machine (devices : UInt8 → HidppDevice) : Machine FeatureSession FeatureStep where
  Start := New
  step s l := some (step devices s l)

/-- No late reply is taken for another, every request of a feature set is answered, and
every request of a discovery whose first two are. -/
def Careful (devices : UInt8 → HidppDevice) (s : FeatureSession) : FeatureStep → Prop
  | .ask q net =>
      (∀ e ∈ (ask devices net q s).log.drop s.log.length, e.Faithful devices) ∧
        match q with
        | .getFeatureSet _ | .supportsFeature _ _ =>
            ∀ e ∈ (ask devices net q s).log.drop s.log.length, e.Answered devices
        | .getFeatureMetadata _ =>
            (∀ e ∈ ((ask devices net q s).log.drop s.log.length).take 2, e.Answered devices) →
              ∀ e ∈ (ask devices net q s).log.drop s.log.length, e.Answered devices
        | .resolveFeatureIndex _ _ => True
  | .setDeviceIndex _ | .clearFeatureCache => True

theorem faithful_of_extends {P : Exchange → Prop} (h : Extends P s t) (hs : s.Faithful devices)
    (hadded : ∀ e ∈ t.log.drop s.log.length, e.Faithful devices) : t.Faithful devices := by
  obtain ⟨added, hlog⟩ := h.isPrefix
  rw [← hlog, List.drop_left] at hadded
  intro e he
  rw [← hlog] at he
  rcases List.mem_append.mp he with he | he
  · exact hs e he
  · exact hadded e he

theorem ask_caches {q : FeatureQuery} (hs : s.CachesComplete devices)
    (h : Careful devices s (.ask q net)) : (ask devices net q s).CachesComplete devices := by
  obtain ⟨hadded, hanswered⟩ := h
  have hfaithful : (ask devices net q s).Faithful devices :=
    faithful_of_extends (ask_extends yields_true q s) hs.faithful hadded
  cases q with
  | getFeatureMetadata target => exact getFeatureMetadata_caches hs hfaithful hanswered
  | getFeatureSet target => exact getFeatureSet_caches hs hfaithful hanswered
  | supportsFeature id target =>
      by_cases hid : id = 0
      · have hsame : ask devices net (.supportsFeature id target) s = s := by
          simp only [ask, supportsFeature, if_pos hid]
          rfl
        rw [hsame]
        exact hs
      · have hset : ask devices net (.supportsFeature id target) s =
            (getFeatureSet devices net target s).2 := by
          simp only [ask, supportsFeature, if_neg hid]
          rfl
        rw [hset] at hfaithful hanswered ⊢
        exact getFeatureSet_caches hs hfaithful hanswered
  | resolveFeatureIndex id target =>
      have hsets : SameSets s (resolveFeatureIndex devices net id target s).2 :=
        sameSets_frame.resolveFeatureIndex id target s
      refine ⟨hfaithful, resolveFeatureIndex_sound hs.indices hfaithful, ?_, ?_⟩
      · show ∀ _ _, (resolveFeatureIndex devices net id target s).2.featureMetadataSets _ = _ → _
        rw [hsets.1]
        exact hs.metadata
      · show ∀ _ _, (resolveFeatureIndex devices net id target s).2.featureSets _ = _ → _
        rw [hsets.2]
        exact hs.sets

/-- Nothing is known of the devices. -/
theorem cachesComplete_of_none (hlog : s.Faithful devices)
    (hindices : s.featureIndices = fun _ => none)
    (hmetadata : s.featureMetadataSets = fun _ => none) (hsets : s.featureSets = fun _ => none) :
    s.CachesComplete devices := by
  refine ⟨hlog, ?_, ?_, ?_⟩
  · intro target id index h
    rw [hindices] at h
    cases h
  · intro target features h
    rw [hmetadata] at h
    cases h
  · intro target features h
    rw [hsets] at h
    cases h

theorem caches_step {l : FeatureStep} (hs : s.CachesComplete devices)
    (h : Careful devices s l) : (step devices s l).CachesComplete devices := by
  cases l with
  | ask q net => exact ask_caches hs h
  | setDeviceIndex idx => exact cachesComplete_of_none hs.faithful rfl rfl rfl
  | clearFeatureCache => exact cachesComplete_of_none hs.faithful rfl rfl rfl

theorem caches_run (h : (machine devices).Run (Careful devices) s) :
    s.CachesComplete devices := by
  refine h.invariant ?_ ?_
  · rintro s ⟨t, _, _, rfl⟩
    exact cachesComplete_of_none nofun rfl rfl rfl
  · intro s l t hs hguard hstep
    cases hstep
    exact caches_step hs hguard

theorem yields_answered (h : net.Answers) :
    Yields devices net (Exchange.Answered devices) := by
  refine ⟨fun log r => ?_, fun n => (h n).2⟩
  rw [(h _).1]
  rfl

theorem answeredFrom_of_extends (h : Extends (Exchange.Answered devices) s t) :
    t.AnsweredFrom devices s.log.length := by
  obtain ⟨added, hlog, hadded⟩ := h.log
  unfold AnsweredFrom
  rw [hlog, List.drop_left]
  exact hadded

/-- **Careful runs cache nothing but complete enumerations.**  After them, a device that
answers every request is found with its whole table, and each cached index is one at which
the device has the feature. -/
theorem feature_caches_complete (h : (machine devices).Run (Careful devices) s) :
    (∀ target net, net.Answers → (getFeatureSet devices net target s).1.Perm
      (devices (s.transport.targetOf target)).table) ∧ s.IndicesSound devices := by
  have hs := caches_run h
  refine ⟨fun target net hnet => ?_, hs.indices⟩
  exact getFeatureSet_complete hs
    (answeredFrom_of_extends (getFeatureSet_extends (yields_answered hnet) s))

/-! ## Lost replies -/

instance (e : Exchange) : Decidable (e.Faithful devices) :=
  match e with
  | .request r taken =>
      inferInstanceAs (Decidable (taken = none ∨ taken = (devices r.asked.device).reply r))
  | .clock _ => .isTrue trivial

instance (e : Exchange) : Decidable (e.Answered devices) :=
  match e with
  | .request r taken => inferInstanceAs (Decidable (taken = (devices r.asked.device).reply r))
  | .clock timeUp => inferInstanceAs (Decidable (timeUp = false))

instance (l : FeatureStep) : Decidable (Careful devices s l) :=
  match l with
  | .ask (.getFeatureSet _) _ | .ask (.supportsFeature _ _) _
  | .ask (.getFeatureMetadata _) _ => inferInstanceAs (Decidable (_ ∧ _))
  | .ask (.resolveFeatureIndex _ _) _ => inferInstanceAs (Decidable (_ ∧ True))
  | .setDeviceIndex _ | .clearFeatureCache => .isTrue trivial

/-- A mouse that reports its battery. -/
def batteryMouse : HidppDevice where
  features := [⟨0x0001, 0, 0⟩, ⟨0x1000, 0, 0⟩]
  other _ := []
  length_le := by decide
  id_ne_zero := by simp
  has_featureSet := by simp

/-- The n-th exchange is lost. -/
def lossy (n : ℕ) : Network where
  outcome k := if k = n then .lost else .own
  timeUp _ := false

def answering : Network where
  outcome _ := .own
  timeUp _ := false

def unopened : FeatureSession := { transport := { nextSwId := 1, deviceIndex := 0xFF } }

/-- A discovery whose first reply is lost does no harm. -/
theorem feature_caches_complete_lossy :
    let s := unopened.step (fun _ => batteryMouse) (.ask (.getFeatureMetadata 1) (lossy 0))
    (∀ target net, net.Answers → (getFeatureSet (fun _ => batteryMouse) net target s).1.Perm
      batteryMouse.table) ∧ s.IndicesSound fun _ => batteryMouse :=
  feature_caches_complete (.step (.start ⟨_, by decide, by decide, rfl⟩)
    (show Careful (fun _ => batteryMouse) unopened (.ask (.getFeatureMetadata 1) (lossy 0)) by
      decide +kernel) rfl)

/-- The feature set that is found without an answer stays, and is empty. -/
theorem empty_feature_set_cached :
    ∃ s, (machine fun _ => batteryMouse).Reachable s ∧ answering.Answers ∧
      ¬(getFeatureSet (fun _ => batteryMouse) answering 1 s).1.Perm batteryMouse.table := by
  refine ⟨unopened.step (fun _ => batteryMouse) (.ask (.getFeatureSet 1) (lossy 0)),
    .step (.start ⟨_, by decide, by decide, rfl⟩) trivial rfl, fun _ => ⟨rfl, rfl⟩, ?_⟩
  intro h
  have hlength := h.length_eq
  revert hlength
  decide +kernel

end FeatureSession
end AbrekMouse
