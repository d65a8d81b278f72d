import AbrekMouse.OnboardProfiles

/-! # Refused writes

A setter refuses a value that is zero, out of range or not advertised, and writes no other.
But it switches the onboard profiles of its target off before it looks at the value, so a
refusal leaves the device alone only if there was no onboard mode to leave
(`refused_write_leaves_alone_iff`).

A list of DPI levels comes in chunks, and a level can straddle two of them.  The list is read
on behind a chunk that is lost, so what is taken for a level then may be none (`Gapped`).
-/
namespace AbrekMouse
open ProgLib

/-- The requests that change a device, by feature and function: its mode, its DPI and
lift-off distance, its report rate. -/
def stateChanging : List (UInt16 × UInt8) :=
  [(0x8100, 0x1), (0x2201, 0x3), (0x2202, 0x6), (0x8060, 0x2), (0x8061, 0x3)]

/-- No reply is late. -/
def Network.Unconfused (net : Network) : Prop :=
  ∀ n, net.outcome n = .lost ∨ net.outcome n = .own

theorem Network.Answers.unconfused {net : Network} (h : net.Answers) : net.Unconfused :=
  fun n => .inr (h n).1

/-- The settings that the library writes. -/
inductive HardwareWrite
  | dpi (dpi : UInt16)
  | pollingRate (hz : UInt32)
  | liftOffDistance (distance : UInt8)

/-- The value has to be one of the DPI levels. -/
def HardwareWrite.choosesLevel : HardwareWrite → Prop
  | dpi _ => True
  | _ => False

/-! ## What a device advertises -/

namespace HidppDevice

/-- The request goes to a function of a feature of the device. -/
def Asks (d : HidppDevice) (r : FeatureRequest) (id : UInt16) (function : UInt8) : Prop :=
  d.idAt r.asked.feature.toNat = some id ∧ r.asked.function = function

/-- Only ROOT has the id 0. -/
theorem idAt_eq_zero {d : HidppDevice} {index : UInt8} (h : d.idAt index.toNat = some 0) :
    index = 0 := by
  rw [← UInt8.toNat_inj]
  cases hindex : index.toNat with
  | zero => rfl
  | succ i =>
      rw [hindex] at h
      obtain ⟨f, hf, hid⟩ := Option.map_eq_some_iff.mp h
      exact absurd hid (d.id_ne_zero f (List.mem_of_getElem? hf))

/-- What the replies to the requests hold behind their headers. -/
def said (d : HidppDevice) (header : ℕ) (rs : List FeatureRequest) : Bytes :=
  rs.flatMap fun r => ((d.reply r).getD []).drop header

/-- The first `n` chunks of the device's own list: none is left out, and the list has not
ended before the last of them. -/
def SaysDpiList (d : HidppDevice) (id : UInt16) (function : UInt8) (header n : ℕ)
    (bytes : Bytes) : Prop :=
  ∃ rs : List FeatureRequest, n ≤ 256 ∧ (∀ r ∈ rs, d.Asks r id function) ∧
    rs.map FeatureRequest.params =
      (List.range n).map (fun chunk => [0, 0, UInt8.ofNat chunk]) ∧
    bytes = d.said header rs ∧
    ∀ front, front <+: rs → front ≠ rs → ¬[0, 0] <:+ d.said header front

theorem saysDpiList_nil (d : HidppDevice) (id : UInt16) (function : UInt8) (header : ℕ) :
    d.SaysDpiList id function header 0 [] :=
  ⟨[], Nat.zero_le _, nofun, rfl, rfl, fun _ hfront hne => absurd (List.prefix_nil.mp hfront) hne⟩

/-- One more chunk is asked for, and answered. -/
theorem SaysDpiList.snoc {d : HidppDevice} {id : UInt16} {function : UInt8} {header n : ℕ}
    {bytes : Bytes} {r : FeatureRequest} (h : d.SaysDpiList id function header n bytes)
    (hopen : ¬[0, 0] <:+ bytes) (hroom : n < 256) (hasks : d.Asks r id function)
    (hparams : r.params = [0, 0, UInt8.ofNat n]) :
    d.SaysDpiList id function header (n + 1)
      (bytes ++ ((d.reply r).getD []).drop header) := by
  obtain ⟨rs, -, hrs, hchunks, hbytes, hfronts⟩ := h
  refine ⟨rs ++ [r], hroom, ?_, ?_, ?_, ?_⟩
  · intro r' hr'
    rcases List.mem_append.mp hr' with hr' | hr'
    · exact hrs r' hr'
    · exact List.mem_singleton.mp hr' ▸ hasks
  · rw [List.map_append, List.map_singleton, hchunks, hparams, List.range_succ, List.map_append,
      List.map_singleton]
  · rw [hbytes, said, said, List.flatMap_append, List.flatMap_singleton]
  · intro front hfront hne
    rcases List.prefix_concat_iff.mp hfront with hall | hfront
    · exact absurd hall hne
    · by_cases hrs : front = rs
      · rwa [hrs, ← hbytes]
      · exact hfronts front hfront hrs

/-- What the device says of its DPI by EXTENDED_ADJUSTABLE_DPI, the levels apart. -/
inductive SaysDpi (d : HidppDevice) : DpiInfo → Prop
  | extended {r r' : FeatureRequest} {caps current : Bytes} :
      d.Asks r 0x2202 0x1 → d.reply r = some caps → d.Asks r' 0x2202 0x5 →
      d.reply r' = some current → SaysDpi d (DpiInfo.ofExtended caps current)

theorem SaysDpi.extended_eq {d : HidppDevice} {info : DpiInfo} (h : d.SaysDpi info) :
    info.extended = true := by
  cases h
  rfl

/-- What each setter may write, by feature and function. -/
inductive Advertises (d : HidppDevice) : HardwareWrite → UInt16 → UInt8 → Bytes → Prop
  /-- The onboard profiles are switched off. -/
  | hostMode {w : HardwareWrite} : Advertises d w 0x8100 0x1 [0x02]
  | dpi {n : ℕ} {bytes : Bytes} {dpi : UInt16} : d.SaysDpiList 0x2201 0x1 1 n bytes →
      dpi ∈ decodeDpiLevels bytes [] →
      Advertises d (.dpi dpi) 0x2201 0x3 [0, (dpi >>> 8).toUInt8, dpi.toUInt8]
  | extendedDpi {info : DpiInfo} {n : ℕ} {bytes : Bytes} {dpi : UInt16} {lod : UInt8} :
      d.SaysDpiList 0x2202 0x2 3 n bytes → dpi ∈ decodeDpiLevels bytes [] → d.SaysDpi info →
      lod = 0 ∨ info.supportsLiftOffDistance ∧ 1 ≤ lod ∧ lod ≤ 3 →
      Advertises d (.dpi dpi) 0x2202 0x6
        [0, (dpi >>> 8).toUInt8, dpi.toUInt8, (dpi >>> 8).toUInt8, dpi.toUInt8, lod]
  | rate {hz : UInt32} {code : UInt8} {r : FeatureRequest} {rates : Bytes} :
      hzToRateCode false hz = some code → d.Asks r 0x8060 0x0 → d.reply r = some rates →
      reportRateOffers rates code → Advertises d (.pollingRate hz) 0x8060 0x2 [code, 0, 0]
  | extendedRate {hz : UInt32} {code : UInt8} {r : FeatureRequest} {rates : Bytes} :
      hzToRateCode true hz = some code → d.Asks r 0x8061 0x1 → d.reply r = some rates →
      extendedRateOffers rates code → Advertises d (.pollingRate hz) 0x8061 0x3 [code, 0, 0]
  /-- The DPI stays as it is. -/
  | liftOffDistance {info : DpiInfo} {y : UInt16} {distance : UInt8} : d.SaysDpi info →
      info.supportsLiftOffDistance → 1 ≤ distance → distance ≤ 3 →
      y = info.dpiCurrent ∨ y = info.dpiCurrentY →
      Advertises d (.liftOffDistance distance) 0x2202 0x6
        [0, (info.dpiCurrent >>> 8).toUInt8, info.dpiCurrent.toUInt8, (y >>> 8).toUInt8,
          y.toUInt8, distance]

/-- A request that a setter can make of a feature. -/
def Sendable (id : UInt16) (function : UInt8) (params : Bytes) : Prop :=
  normalizeFunctionId function = function ∧ params.length ≤ 16 ∧ id ≠ 0 ∧ id ≠ 0x0001

theorem sendable_dpi (dpi : UInt16) :
    Sendable 0x2201 0x3 [0, (dpi >>> 8).toUInt8, dpi.toUInt8] :=
  ⟨rfl, Nat.le_add_left 3 13, by decide, by decide⟩

theorem sendable_extendedDpi (x y : UInt16) (lod : UInt8) :
    Sendable 0x2202 0x6
      [0, (x >>> 8).toUInt8, x.toUInt8, (y >>> 8).toUInt8, y.toUInt8, lod] :=
  ⟨rfl, Nat.le_add_left 6 10, by decide, by decide⟩

theorem Advertises.sendable {d : HidppDevice} {w : HardwareWrite} {id : UInt16}
    {function : UInt8} {params : Bytes} (h : d.Advertises w id function params) :
    Sendable id function params := by
  cases h with
  | hostMode => exact ⟨rfl, by decide, by decide, by decide⟩
  | dpi => exact sendable_dpi _
  | extendedDpi | liftOffDistance => exact sendable_extendedDpi _ _ _
  | rate | extendedRate => exact ⟨rfl, Nat.le_add_left 3 13, by decide, by decide⟩

/-- A feature other than ROOT and FEATURE_SET replies to every request. -/
theorem reply_other {d : HidppDevice} {r : FeatureRequest} {id : UInt16}
    (h : d.idAt r.asked.feature.toNat = some id) (hroot : id ≠ 0) (hset : id ≠ 0x0001) :
    d.reply r = some (d.other r) := by
  have hfeature : r.asked.feature ≠ UInt8.ofNat (d.indexOf 0x0001) := by
    intro heq
    rw [heq, idAt_toNat_indexOf featureSetIndex_ne_zero] at h
    exact hset (Option.some.inj h).symm
  have hzero : r.asked.feature ≠ 0 := by
    intro heq
    rw [heq] at h
    exact hroot (Option.some.inj h).symm
  unfold reply
  rw [if_neg (fun h => hzero h.1), if_neg (fun h => hfeature h.1),
    if_neg (fun h => hfeature h.1)]

theorem reply_isSome {d : HidppDevice} {r : FeatureRequest} {id : UInt16}
    (h : d.idAt r.asked.feature.toNat = some id) (hroot : id ≠ 0) (hset : id ≠ 0x0001) :
    (d.reply r).isSome := by
  rw [reply_other h hroot hset]
  rfl

end HidppDevice

/-- Whatever changes the state of a device is allowed. -/
def Exchange.Allowed (devices : UInt8 → HidppDevice) (V : UInt8 → UInt16 → UInt8 → Bytes → Prop) :
    Exchange → Prop
  | request r _ => ∀ id, (devices r.asked.device).idAt r.asked.feature.toNat = some id →
      (id, r.asked.function) ∈ stateChanging →
      V r.asked.device id r.asked.function r.params
  | clock _ => True

/-- The features with a list of DPI levels, and their functions to read it. -/
def dpiLists : List (UInt16 × UInt8) := [(0x2201, 0x1), (0x2202, 0x2)]

/-- A request for a chunk of a DPI list, which is answered or not. -/
def Exchange.AsksChunk (devices : UInt8 → HidppDevice) (answered : Bool) : Exchange → Prop
  | request r taken => taken.isSome = answered ∧ ∃ list ∈ dpiLists,
      (devices r.asked.device).Asks r list.1 list.2
  | clock _ => False

instance (devices : UInt8 → HidppDevice) (answered : Bool) :
    ∀ e : Exchange, Decidable (e.AsksChunk devices answered)
  | .request r taken => inferInstanceAs (Decidable (taken.isSome = answered ∧
      ∃ list ∈ dpiLists, (devices r.asked.device).idAt r.asked.feature.toNat = some list.1 ∧
        r.asked.function = list.2))
  | .clock _ => inferInstanceAs (Decidable False)

/-- The reply to a chunk of a DPI list is lost, and a later chunk is answered. -/
def Gapped (devices : UInt8 → HidppDevice) (es : List Exchange) : Prop :=
  ∃ e e', [e, e'].Sublist es ∧ e.AsksChunk devices false ∧ e'.AsksChunk devices true

theorem not_gapped_iff {devices : UInt8 → HidppDevice} {es : List Exchange} :
    ¬Gapped devices es ↔
      es.Pairwise fun e e' => ¬(e.AsksChunk devices false ∧ e'.AsksChunk devices true) := by
  rw [List.pairwise_iff_forall_sublist]
  constructor
  · intro h e e' hsublist hboth
    exact h ⟨e, e', hsublist, hboth.1, hboth.2⟩
  · rintro h ⟨e, e', hsublist, hlost, hanswered⟩
    exact h hsublist ⟨hlost, hanswered⟩

instance (devices : UInt8 → HidppDevice) (es : List Exchange) : Decidable (Gapped devices es) :=
  decidable_of_iff _ (not_iff_comm.mp not_gapped_iff)

theorem Gapped.mono {devices : UInt8 → HidppDevice} {es es' : List Exchange}
    (h : Gapped devices es) (hes : es.Sublist es') : Gapped devices es' := by
  obtain ⟨e, e', hsublist, hlost, hanswered⟩ := h
  exact ⟨e, e', hsublist.trans hes, hlost, hanswered⟩

theorem gapped_snoc {devices : UInt8 → HidppDevice} {es : List Exchange} {e e' : Exchange}
    (he : e ∈ es) (hlost : e.AsksChunk devices false) (hanswered : e'.AsksChunk devices true) :
    Gapped devices (es ++ [e']) :=
  ⟨e, e', (List.singleton_sublist.mpr he).append (List.Sublist.refl [e']), hlost, hanswered⟩

namespace FeatureSession
variable (devices : UInt8 → HidppDevice) (net : Network)

/-- The setting, written by its own function. -/
def write (target : UInt8) : HardwareWrite → StateM FeatureSession Bool
  | .dpi dpi => setDpi devices net dpi target
  | .pollingRate hz => setPollingRate devices net hz target
  | .liftOffDistance distance => setLiftOffDistance devices net distance target

/-- The exchanges of a session since an earlier one. -/
def since (base s : FeatureSession) : List Exchange := s.log.drop base.log.length

/-- The exchanges of a setter. -/
def exchanges (target : UInt8) (w : HardwareWrite) (s : FeatureSession) : List Exchange :=
  since s (write devices net target w s).2

/-- The index of the onboard profiles, as it is known or as the device reports it. -/
def modeIndex (target : UInt8) (s : FeatureSession) : Option UInt8 :=
  (s.featureIndices (target, 0x8100)).or
    (if (devices target).indexOf 0x8100 = 0 then none
      else some (UInt8.ofNat ((devices target).indexOf 0x8100)))

/-- The next request. -/
def nextRequest (index wire : UInt8) (params : Bytes) (target : UInt8) (t : HidppTransport) :
    FeatureRequest :=
  { asked :=
      { device := t.targetOf target
        feature := index
        function := wire
        softwareId := t.takeSwId.1 }
    params := params }

/-- The transport when the mode is read: the index may have to be asked for first. -/
def modeTransport (target : UInt8) (s : FeatureSession) : HidppTransport :=
  if (s.featureIndices (target, 0x8100)).isSome then s.transport else s.transport.takeSwId.2

/-- The target has no onboard profiles, or says that they are off. -/
def InHostMode (target : UInt8) (s : FeatureSession) : Prop :=
  let target := s.transport.targetOf target
  ∀ index, s.modeIndex devices target = some index →
    onboardActive ((devices target).reply
      (nextRequest index 0x2 [] target (s.modeTransport target))) = false

/-! ## What a setter does to the session -/

/-- The session comes from the first by allowed exchanges, and its indices are those of the
devices. -/
structure Traced (devices : UInt8 → HidppDevice) (V : UInt8 → UInt16 → UInt8 → Bytes → Prop)
    (base s : FeatureSession) : Prop where
  sound : s.IndicesSound devices
  deviceIndex : s.transport.deviceIndex = base.transport.deviceIndex
  log : ∃ added, s.log = base.log ++ added ∧
    ∀ e ∈ added, e.Allowed devices V ∧ e.Faithful devices

variable {devices net} {V : UInt8 → UInt16 → UInt8 → Bytes → Prop} {base s : FeatureSession}
variable {t : FeatureSession} {id : UInt16} {index function wire target : UInt8} {params : Bytes}

namespace Traced

theorem refl (h : s.IndicesSound devices) : Traced devices V s s :=
  ⟨h, rfl, [], (List.append_nil _).symm, nofun⟩

/-- What is added to the log is added to what came since the first session. -/
theorem since_append (h : Traced devices V base s) {added : List Exchange}
    (hlog : t.log = s.log ++ added) : since base t = since base s ++ added := by
  obtain ⟨before, hbefore, -⟩ := h.log
  unfold since
  rw [hlog, hbefore, List.append_assoc, List.drop_left, List.drop_left]

theorem targetOf (h : Traced devices V base s) (target : UInt8) :
    s.transport.targetOf target = base.transport.targetOf target := by
  unfold HidppTransport.targetOf
  rw [h.deviceIndex]

/-- One more exchange, and nothing else. -/
theorem append {t : FeatureSession} {e : Exchange} (h : Traced devices V base s)
    (hlog : t.log = s.log ++ [e]) (hindices : t.featureIndices = s.featureIndices)
    (hdevice : t.transport.deviceIndex = s.transport.deviceIndex)
    (he : e.Allowed devices V) (hfaithful : e.Faithful devices) :
    Traced devices V base t := by
  obtain ⟨added, hadded, hallowed⟩ := h.log
  refine ⟨?_, hdevice.trans h.deviceIndex, added ++ [e], ?_, ?_⟩
  · intro target id index
    rw [hindices]
    exact h.sound target id index
  · rw [hlog, hadded, List.append_assoc]
  · intro e' he'
    rcases List.mem_append.mp he' with he' | he'
    · exact hallowed e' he'
    · exact List.mem_singleton.mp he' ▸ ⟨he, hfaithful⟩

theorem timeUp (h : Traced devices V base s) : Traced devices V base (timeUp net s).2 :=
  h.append rfl rfl rfl trivial trivial

theorem cache (h : Traced devices V base s)
    (hindex : (devices target).idAt index.toNat = some id) :
    Traced devices V base (cacheFeatureIndex target id index s).2 :=
  ⟨cacheFeatureIndex_sound h.sound hindex, h.deviceIndex, h.log⟩

end Traced

/-- A reply that is taken is the device's, and one is taken if every request is answered. -/
def Reply (devices : UInt8 → HidppDevice) (net : Network) (target : UInt8) (id : UInt16)
    (wire : UInt8) (params : Bytes) (taken : Option Bytes) : Prop :=
  ∃ r, (devices target).Asks r id wire ∧ r.params = params ∧
    (taken = (devices target).reply r ∨ taken = none ∧ ¬net.Answers)

theorem deliver_unconfused (devices : UInt8 → HidppDevice) (hnet : net.Unconfused)
    (log : List Exchange) (r : FeatureRequest) (n : ℕ) :
    deliver devices log r (net.outcome n) = (devices r.asked.device).reply r ∨
      deliver devices log r (net.outcome n) = none ∧ ¬net.Answers := by
  rcases hnet n with hlost | hown
  · refine .inr ⟨by rw [hlost]; rfl, fun hanswers => ?_⟩
    rw [(hanswers n).1] at hlost
    cases hlost
  · exact .inl (by rw [hown]; rfl)

/-- A request to a feature of the target, if it is allowed. -/
theorem send_traced (hnet : net.Unconfused) (index function wire : UInt8) (params : Bytes)
    (target : UInt8) (F : (UInt8 × UInt16 → Option UInt8) → Prop)
    (hindex : (devices (base.transport.targetOf target)).idAt index.toNat = some id)
    (hwire : normalizeFunctionId function = wire) (hparams : params.length ≤ 16)
    (hV : (id, wire) ∈ stateChanging → V (base.transport.targetOf target) id wire params) :
    Hoare (fun s => Traced devices V base s ∧ F s.featureIndices)
      (sendFeatureRequest devices net index function params target)
      fun taken s => (Traced devices V base s ∧ F s.featureIndices) ∧
        Reply devices net (base.transport.targetOf target) id wire params taken := by
  rintro s ⟨hs, hF⟩
  have htarget := hs.targetOf target
  unfold sendFeatureRequest
  rw [if_neg (Nat.not_lt.mpr hparams)]
  let r : FeatureRequest :=
    { asked :=
        { device := s.transport.targetOf target
          feature := index
          function := normalizeFunctionId function
          softwareId := s.transport.takeSwId.1 }
      params := params }
  have hdeliver := deliver_unconfused devices hnet s.log r s.log.length
  refine ⟨⟨hs.append rfl rfl rfl ?_ (hdeliver.symm.imp_left And.left), hF⟩, r, ⟨hindex, hwire⟩,
    rfl, htarget ▸ hdeliver⟩
  · intro id' hid' hchanging
    dsimp only at hid' hchanging ⊢
    rw [htarget] at hid' ⊢
    rw [hwire] at hchanging ⊢
    -- the index stands for one feature only
    obtain rfl := Option.some.inj (hindex.symm.trans hid')
    exact hV hchanging

/-- The index that a request finds is that of the feature, and known afterwards. -/
theorem resolve_traced (hnet : net.Unconfused) (id : UInt16) (target : UInt8) :
    Hoare (Traced devices V base) (resolveFeatureIndex devices net id target) fun found s =>
      Traced devices V base s ∧ ∀ index, found = some index →
        (devices (base.transport.targetOf target)).idAt index.toNat = some id ∧
          (id ≠ 0 → s.featureIndices (base.transport.targetOf target, id) = some index) := by
  intro s hs
  have htarget := hs.targetOf target
  unfold resolveFeatureIndex
  by_cases hid : id = 0
  · subst hid
    rw [if_pos rfl]
    refine ⟨hs, ?_⟩
    rintro index ⟨⟩
    exact ⟨rfl, fun h => absurd rfl h⟩
  rw [if_neg hid]
  simp only [bind_apply, get_apply]
  cases hcached : s.featureIndices (s.transport.targetOf target, id) with
  | some index =>
      refine ⟨hs, ?_⟩
      rintro index ⟨⟩
      rw [htarget] at hcached
      exact ⟨hs.sound _ _ _ hcached, fun _ => hcached⟩
  | none =>
      -- ROOT is asked, and its reply cached
      simp only [bind_apply]
      obtain ⟨⟨hsent, -⟩, r, ⟨hfeature, hfunction⟩, hparams, htaken⟩ :=
        send_traced hnet 0 0 0 [(id >>> 8).toUInt8, id.toUInt8, 0] target
          (fun _ => True) rfl rfl (Nat.le_add_left 3 13) (fun h => absurd h (by decide)) s
          ⟨hs, trivial⟩
      rcases hresponse : (sendFeatureRequest devices net 0 0 [(id >>> 8).toUInt8, id.toUInt8, 0]
        target s).1 with _ | _ | ⟨index, rest⟩
      · exact ⟨hsent, nofun⟩
      · exact ⟨hsent, nofun⟩
      · simp only
        rw [hresponse] at htaken
        have hroot : r.asked.feature = 0 := HidppDevice.idAt_eq_zero hfeature
        have hreply := htaken.resolve_right fun h => by cases h.1
        rw [HidppDevice.reply_getFeature id hroot hfunction hparams] at hreply
        obtain ⟨rfl, -⟩ := List.cons.inj (Option.some.inj hreply)
        split_ifs with hzero
        · exact ⟨hsent, nofun⟩
        have hidAt := HidppDevice.idAt_toNat_indexOf hzero
        rw [htarget]
        refine ⟨hsent.cache hidAt, ?_⟩
        rintro index ⟨⟩
        exact ⟨hidAt, fun _ => Function.update_self _ _ _⟩

/-- The index of the feature is known. -/
def Knows (target : UInt8) (id : UInt16) (index : UInt8)
    (indices : UInt8 × UInt16 → Option UInt8) : Prop :=
  indices (target, id) = some index

/-- A request by the id of a feature whose index is known is one exchange. -/
theorem request_known (hnet : net.Unconfused) (hwire : normalizeFunctionId function = wire)
    (hparams : params.length ≤ 16) (hid : id ≠ 0) (hread : (id, wire) ∉ stateChanging)
    (hs : Traced devices V base s)
    (hknows : Knows (base.transport.targetOf target) id index s.featureIndices) :
    (Traced devices V base (request devices net id function params target s).2 ∧
      Knows (base.transport.targetOf target) id index
        (request devices net id function params target s).2.featureIndices) ∧
    ∃ r, (devices r.asked.device).Asks r id wire ∧ r.params = params ∧
      r.asked.device = base.transport.targetOf target ∧
      ((request devices net id function params target s).1 = (devices r.asked.device).reply r ∨
        (request devices net id function params target s).1 = none) ∧
      (request devices net id function params target s).2.log =
        s.log ++ [.request r (request devices net id function params target s).1] := by
  have hcached : s.featureIndices (s.transport.targetOf target, id) = some index := by
    rw [hs.targetOf]
    exact hknows
  have hresolve : resolveFeatureIndex devices net id target s = (some index, s) := by
    unfold resolveFeatureIndex
    rw [if_neg hid]
    simp only [bind_apply, get_apply, hcached]
    rfl
  have hindex := hs.sound _ _ _ hknows
  unfold request
  rw [bind_apply, hresolve]
  refine ⟨(send_traced hnet index function wire params target _ hindex hwire hparams
    (fun h => absurd h hread) s ⟨hs, hknows⟩).1, ?_⟩
  have htarget := hs.targetOf target
  simp only
  unfold sendFeatureRequest
  rw [if_neg (Nat.not_lt.mpr hparams)]
  let r : FeatureRequest :=
    { asked :=
        { device := s.transport.targetOf target
          feature := index
          function := normalizeFunctionId function
          softwareId := s.transport.takeSwId.1 }
      params := params }
  refine ⟨r, ⟨?_, hwire⟩, rfl, htarget, ?_, rfl⟩
  · show (devices (s.transport.targetOf target)).idAt index.toNat = some id
    rw [htarget]
    exact hindex
  · exact (deliver_unconfused devices hnet s.log r s.log.length).imp_right And.left

/-- A request by the id of a feature: a payload shows that its index is known. -/
theorem request_traced (hnet : net.Unconfused) (id : UInt16) (function wire : UInt8)
    (hwire : normalizeFunctionId function = wire) (hparams : params.length ≤ 16)
    (hid : id ≠ 0) (hread : (id, wire) ∉ stateChanging) :
    Hoare (Traced devices V base) (request devices net id function params target)
      fun taken s => Traced devices V base s ∧ ∀ payload, taken = some payload →
        (∃ index, Knows (base.transport.targetOf target) id index s.featureIndices) ∧
          ∃ r, (devices (base.transport.targetOf target)).Asks r id wire ∧
            (devices (base.transport.targetOf target)).reply r = some payload := by
  refine Hoare.bind (resolve_traced hnet id target) fun found => ?_
  rintro s ⟨hs, hfound⟩
  cases found with
  | none => exact ⟨hs, nofun⟩
  | some index =>
      obtain ⟨hindex, hknown⟩ := hfound index rfl
      obtain ⟨⟨hsent, hknows⟩, r, hasks, -, htaken⟩ := send_traced hnet index function wire
        params target (Knows (base.transport.targetOf target) id index) hindex hwire hparams
        (fun h => absurd h hread) s ⟨hs, hknown hid⟩
      refine ⟨hsent, fun payload hpayload => ⟨⟨index, hknows⟩, r, hasks, ?_⟩⟩
      rcases htaken with htaken | ⟨htaken, -⟩
      · exact htaken.symm.trans hpayload
      · cases htaken.symm.trans hpayload

/-- What has been read of a list before a chunk is asked for: what the device says in the
chunks before it, or before one that was lost.  Or the list has a gap already. -/
def ListRead (devices : UInt8 → HidppDevice) (base : FeatureSession) (target : UInt8)
    (id : UInt16) (function : UInt8) (header chunk : ℕ) (bytes : Bytes)
    (es : List Exchange) : Prop :=
  (∃ n, (devices (base.transport.targetOf target)).SaysDpiList id function header n bytes ∧
    (n = chunk ∨ ∃ e ∈ es, e.AsksChunk devices false)) ∨ Gapped devices es

namespace ListRead
variable {header chunk : ℕ} {bytes : Bytes} {es es' : List Exchange}

theorem mono (h : ListRead devices base target id function header chunk bytes es)
    (hes : es.Sublist es') : ListRead devices base target id function header chunk bytes es' := by
  rcases h with ⟨n, hsays, hn⟩ | hgap
  · exact .inl ⟨n, hsays, hn.imp_right fun ⟨e, he, hlost⟩ => ⟨e, hes.subset he, hlost⟩⟩
  · exact .inr (hgap.mono hes)

/-- One more chunk is asked for. -/
theorem snoc {r : FeatureRequest} {taken : Option Bytes}
    (h : ListRead devices base target id function header chunk bytes es)
    (hopen : ¬[0, 0] <:+ bytes) (hroom : chunk < 256) (hlist : (id, function) ∈ dpiLists)
    (hasks : (devices r.asked.device).Asks r id function)
    (hparams : r.params = [0, 0, UInt8.ofNat chunk])
    (hdevice : r.asked.device = base.transport.targetOf target)
    (htaken : taken = (devices r.asked.device).reply r ∨ taken = none) :
    ListRead devices base target id function header (chunk + 1)
      (bytes ++ (taken.getD []).drop header) (es ++ [.request r taken]) := by
  rcases h with ⟨n, hsays, hn⟩ | hgap
  · cases taken with
    | none =>
        -- the chunk is lost
        rw [Option.getD_none, List.drop_nil, List.append_nil]
        exact .inl ⟨n, hsays, .inr ⟨_, List.mem_append_right _ (List.mem_singleton_self _), rfl,
          (id, function), hlist, hasks⟩⟩
    | some payload =>
        rcases hn with rfl | ⟨e, he, hlost⟩
        · have hreply := htaken.resolve_right nofun
          rw [hreply]
          rw [hdevice] at hasks ⊢
          exact .inl ⟨n + 1, hsays.snoc hopen hroom hasks hparams, .inl rfl⟩
        · exact .inr (gapped_snoc he hlost ⟨rfl, (id, function), hlist, hasks⟩)
  · exact .inr (hgap.mono (List.sublist_append_left _ _))

end ListRead

/-- What is read of the list is what the device says, as long as there is no gap. -/
theorem readDpiList_traced (hnet : net.Unconfused) (function : UInt8) (header left : ℕ)
    (hwire : normalizeFunctionId function = function) (hid : id ≠ 0)
    (hread : (id, function) ∉ stateChanging) (hlist : (id, function) ∈ dpiLists) :
    ∀ (chunk : ℕ) (bytes : Bytes) (timeouts : ℕ), chunk + left ≤ 256 → ¬[0, 0] <:+ bytes →
    Hoare
      (fun s => (Traced devices V base s ∧
          Knows (base.transport.targetOf target) id index s.featureIndices) ∧
        ListRead devices base target id function header chunk bytes (since base s))
      (readDpiList devices net id function header target left chunk bytes timeouts)
      fun bytes s => Traced devices V base s ∧
        ∃ n, ListRead devices base target id function header n bytes (since base s) := by
  -- on the chunks that are left
  induction left with
  | zero => exact fun chunk bytes _ _ _ => Hoare.pure fun s hs => ⟨hs.1.1, chunk, hs.2⟩
  | succ left ih =>
      intro chunk bytes timeouts hroom hopen
      unfold readDpiList
      refine Hoare.bind (Q := fun _ s => (Traced devices V base s ∧
          Knows (base.transport.targetOf target) id index s.featureIndices) ∧
        ListRead devices base target id function header chunk bytes (since base s))
        ?_ fun up => ?_
      · intro s hs
        refine ⟨⟨hs.1.1.timeUp, hs.1.2⟩, hs.2.mono ?_⟩
        rw [hs.1.1.since_append (t := (FeatureSession.timeUp net s).2) rfl]
        exact List.sublist_append_left _ _
      split
      · exact Hoare.pure fun s hs => ⟨hs.1.1, chunk, hs.2⟩
      rintro s ⟨⟨hs, hknows⟩, hlistRead⟩
      have hlength : List.length [0, 0, UInt8.ofNat chunk] ≤ 16 := Nat.le_add_left 3 13
      obtain ⟨hs', r, hasks, hparams, hdevice, htaken, hlog⟩ :=
        request_known hnet hwire hlength hid hread hs hknows
      have hnext := hlistRead.snoc hopen (by omega) hlist hasks hparams hdevice htaken
      rw [← hs.since_append hlog] at hnext
      rw [bind_apply]
      generalize request devices net id function [0, 0, UInt8.ofNat chunk] target s = sent
        at hs' hnext ⊢
      obtain ⟨reply, s'⟩ := sent
      dsimp only at hs' hnext ⊢
      cases hreply : reply.filter (header < ·.length) with
      | none =>
          -- a missing reply, or a short one, adds nothing
          have hnothing : (reply.getD []).drop header = [] := by
            cases reply with
            | none => exact List.drop_nil
            | some reply => exact List.drop_eq_nil_of_le (by simpa using hreply)
          rw [hnothing, List.append_nil] at hnext
          simp only
          split
          · exact ⟨hs'.1, _, hnext⟩
          · exact ih _ _ _ (by omega) hopen s' ⟨hs', hnext⟩
      | some payload =>
          obtain ⟨rfl, -⟩ := Option.filter_eq_some_iff.mp hreply
          simp only
          split
          · exact ⟨hs'.1, _, hnext⟩
          · rename_i hopen'
            exact ih _ _ _ (by omega) hopen' s' ⟨hs', hnext⟩

/-- What is found of the DPI of a device.  The levels are the device's, as long as there is no
gap. -/
inductive FoundDpi (d : HidppDevice) (devices : UInt8 → HidppDevice) (es : List Exchange) :
    DpiInfo → Prop
  | legacy {current bytes : Bytes} :
      (∃ n, d.SaysDpiList 0x2201 0x1 1 n bytes) ∨ Gapped devices es →
      FoundDpi d devices es ((DpiInfo.ofLegacy current).withLevels (decodeDpiLevels bytes []))
  | extended {info : DpiInfo} {bytes : Bytes} : d.SaysDpi info →
      (∃ n, d.SaysDpiList 0x2202 0x2 3 n bytes) ∨ Gapped devices es →
      FoundDpi d devices es (info.withLevels (decodeDpiLevels bytes []))

theorem ListRead.found {header chunk : ℕ} {bytes : Bytes} {es : List Exchange}
    (h : ListRead devices base target id function header chunk bytes es) :
    (∃ n, (devices (base.transport.targetOf target)).SaysDpiList id function header n bytes) ∨
      Gapped devices es :=
  h.imp_left fun ⟨n, hsays, _⟩ => ⟨n, hsays⟩

theorem listRead_nil {header : ℕ} {es : List Exchange} :
    ListRead devices base target id function header 0 [] es :=
  .inl ⟨0, HidppDevice.saysDpiList_nil _ _ _ _, .inl rfl⟩

theorem getLegacyDpiInfo_traced (hnet : net.Unconfused) (target : UInt8) :
    Hoare (Traced devices V base) (getLegacyDpiInfo devices net target) fun found s =>
      Traced devices V base s ∧ ∀ info, found = some info →
        FoundDpi (devices (base.transport.targetOf target)) devices (since base s) info := by
  unfold getLegacyDpiInfo
  refine Hoare.bind (request_traced hnet 0x2201 0x2 0x2 rfl (Nat.le_add_left 3 13)
    (by decide) (by decide)) fun current => ?_
  rintro s ⟨hs, hreply⟩
  cases hcurrent : current.filter (5 ≤ ·.length) with
  | none => exact ⟨hs, nofun⟩
  | some payload =>
      obtain ⟨rfl, -⟩ := Option.filter_eq_some_iff.mp hcurrent
      obtain ⟨⟨index, hknows⟩, -⟩ := hreply payload rfl
      obtain ⟨hs, n, hlist⟩ := readDpiList_traced hnet 0x1 1 256 rfl (by decide) (by decide)
        (by decide) 0 [] 0 le_rfl (by decide) s ⟨⟨hs, hknows⟩, listRead_nil⟩
      refine ⟨hs, ?_⟩
      rintro info ⟨⟩
      exact .legacy hlist.found

theorem getDpiInfo_traced (hnet : net.Unconfused) (target : UInt8) :
    Hoare (Traced devices V base) (getDpiInfo devices net target) fun found s =>
      Traced devices V base s ∧ ∀ info, found = some info →
        FoundDpi (devices (base.transport.targetOf target)) devices (since base s) info := by
  unfold getDpiInfo
  refine Hoare.bind (request_traced hnet 0x2202 0x1 0x1 rfl (Nat.le_add_left 3 13)
    (by decide) (by decide)) fun caps => ?_
  rintro s ⟨hs, hcapsReply⟩
  cases hcaps : caps.filter (3 ≤ ·.length) with
  | none => exact getLegacyDpiInfo_traced hnet target s hs
  | some payload =>
      obtain ⟨rfl, -⟩ := Option.filter_eq_some_iff.mp hcaps
      obtain ⟨-, r, hasks, hpayload⟩ := hcapsReply payload rfl
      have hstep : Hoare (Traced devices V base) (request devices net 0x2202 0x5 [0, 0, 0] target)
          _ := request_traced hnet 0x2202 0x5 0x5 rfl (by decide) (by decide) (by decide)
      simp only [bind_apply]
      obtain ⟨hs, hcurrentReply⟩ := hstep s hs
      generalize request devices net 0x2202 0x5 [0, 0, 0] target s = sent at hs hcurrentReply ⊢
      obtain ⟨current, s⟩ := sent
      dsimp only at hs hcurrentReply ⊢
      cases hcurrent : current.filter (5 ≤ ·.length) with
      | none => exact getLegacyDpiInfo_traced hnet target s hs
      | some payload' =>
          obtain ⟨rfl, -⟩ := Option.filter_eq_some_iff.mp hcurrent
          obtain ⟨⟨index, hknows⟩, r', hasks', hpayload'⟩ := hcurrentReply payload' rfl
          obtain ⟨hs, n, hlist⟩ := readDpiList_traced hnet 0x2 3 256 rfl (by decide) (by decide)
            (by decide) 0 [] 0 le_rfl (by decide) s ⟨⟨hs, hknows⟩, listRead_nil⟩
          refine ⟨hs, ?_⟩
          rintro info ⟨⟩
          exact .extended (.extended hasks hpayload hasks' hpayload') hlist.found

/-! ## The writes -/

theorem clamp_bounds (lod : UInt8) : 1 ≤ max 1 (min lod 3) ∧ max 1 (min lod 3) ≤ 3 := by
  have hmin : min lod 3 = if lod ≤ 3 then lod else 3 := rfl
  have hmax : max 1 (min lod 3) = if 1 ≤ min lod 3 then min lod 3 else 1 := rfl
  rw [hmax]
  split_ifs with hlow
  · refine ⟨hlow, ?_⟩
    rw [hmin]
    split_ifs with hhigh
    · exact hhigh
    · exact UInt8.le_refl 3
  · exact ⟨UInt8.le_refl 1, by decide⟩

theorem disableOnboardProfilesForWrite_traced (hnet : net.Unconfused) (target : UInt8)
    (hV : V (base.transport.targetOf target) 0x8100 0x1 [0x02]) :
    Hoare (Traced devices V base) (disableOnboardProfilesForWrite devices net target)
      fun _ s => Traced devices V base s := by
  intro s hs
  have htarget : base.transport.targetOf (s.transport.targetOf target) =
      base.transport.targetOf target := by
    rw [← hs.targetOf, targetOf_targetOf, hs.targetOf]
  unfold disableOnboardProfilesForWrite
  rw [bind_apply, get_apply]
  dsimp only
  rw [bind_apply]
  obtain ⟨hs', hfound⟩ :=
    resolve_traced hnet 0x8100 (s.transport.targetOf target) s hs
  generalize resolveFeatureIndex devices net 0x8100 (s.transport.targetOf target) s = resolved
    at hs' hfound ⊢
  obtain ⟨found, s'⟩ := resolved
  dsimp only at hs' hfound ⊢
  cases found with
  | none => exact hs'
  | some index =>
      obtain ⟨hindex, -⟩ := hfound index rfl
      obtain ⟨⟨hread, -⟩, -⟩ := send_traced hnet index 0x20 0x2 []
        (s.transport.targetOf target) (fun _ => True) hindex rfl (Nat.zero_le _)
        (fun h => absurd h (by decide)) s' ⟨hs', trivial⟩
      simp only [bind_apply]
      split_ifs with hactive
      · obtain ⟨⟨hwritten, -⟩, -⟩ := send_traced hnet index 0x10 0x1 [0x02]
          (s.transport.targetOf target) (fun _ => True) hindex rfl (by decide)
          (fun _ => htarget ▸ hV) _ ⟨hread, trivial⟩
        simp only [bind_apply]
        generalize sendFeatureRequest devices net index 0x10 [0x02] _ _ = written at hwritten ⊢
        obtain ⟨_ | _, t⟩ := written
        · exact hwritten
        · exact ⟨hwritten.sound, hwritten.deviceIndex, hwritten.log⟩
      · exact hread

/-- The write goes by a list of levels that has a gap. -/
def Astray (devices : UInt8 → HidppDevice) (base : FeatureSession) (w : HardwareWrite)
    (s : FeatureSession) : Prop :=
  w.choosesLevel ∧ Gapped devices (since base s)

/-- Sending what is advertised for a write, and saying whether it is answered, has `Q`; and so
has what is sent by a list with a gap. -/
def Sends (devices : UInt8 → HidppDevice) (net : Network)
    (V : UInt8 → UInt16 → UInt8 → Bytes → Prop) (base : FeatureSession) (target : UInt8)
    (w : HardwareWrite) (Q : Bool → FeatureSession → Prop) : Prop :=
  ∀ {id : UInt16} {index function : UInt8} {params : Bytes},
    HidppDevice.Sendable id function params →
    (devices (base.transport.targetOf target)).idAt index.toNat = some id →
    Hoare
      (fun s => Traced devices V base s ∧
        ((devices (base.transport.targetOf target)).Advertises w id function params ∨
          Astray devices base w s))
      (do return (← sendFeatureRequest devices net index function params target).isSome) Q

variable {P : FeatureSession → Prop} {Q : Bool → FeatureSession → Prop}

/-- A gap stays in the log. -/
theorem gapped_later (hst : Extends (fun _ => True) s t) (h : Gapped devices (since base s)) :
    Gapped devices (since base t) :=
  h.mono (hst.isPrefix.sublist.drop _)

theorem setDpi_hoare {dpi : UInt16} (hnet : net.Unconfused)
    (hdisable : Hoare P (disableOnboardProfilesForWrite devices net target)
      fun _ s => Traced devices V base s)
    (hrefused : ∀ s, Traced devices V base s → Q false s)
    (hsends : Sends devices net V base target (.dpi dpi) Q) :
    Hoare P (setDpi devices net dpi target) Q := by
  unfold setDpi
  refine Hoare.bind hdisable fun _ => ?_
  refine Hoare.bind (getDpiInfo_traced hnet target) fun found => ?_
  rintro s ⟨hs, hfoundDpi⟩
  cases found with
  | none => exact hrefused s hs
  | some info =>
      have hfoundDpi := hfoundDpi info rfl
      simp only
      by_cases hdpi : dpi = 0 ∨ dpi ∉ info.dpiLevels
      · rw [if_pos hdpi]
        exact hrefused s hs
      rw [if_neg hdpi, bind_apply]
      have hmem : dpi ∈ info.dpiLevels := by
        by_contra hmem
        exact hdpi (.inr hmem)
      have hgrows := (grows_frame devices net).resolveFeatureIndex
        (if info.extended then 0x2202 else 0x2201) target s
      obtain ⟨hs, hfound⟩ := resolve_traced hnet
        (if info.extended then 0x2202 else 0x2201) target s hs
      generalize resolveFeatureIndex devices net (if info.extended then 0x2202 else 0x2201)
        target s = resolved at hs hfound hgrows ⊢
      obtain ⟨_ | index, t⟩ := resolved
      · exact hrefused t hs
      obtain ⟨hindex, -⟩ := hfound index rfl
      cases hfoundDpi with
      | @legacy current bytes hlist =>
          have hext : ((DpiInfo.ofLegacy current).withLevels
            (decodeDpiLevels bytes [])).extended = false := rfl
          simp only [hext, Bool.false_eq_true, if_false] at hindex ⊢
          refine hsends (HidppDevice.sendable_dpi dpi) hindex t ⟨hs, ?_⟩
          rcases hlist with ⟨n, hlist⟩ | hgap
          · exact .inl (.dpi hlist hmem)
          · exact .inr ⟨trivial, gapped_later hgrows hgap⟩
      | @extended info bytes hsays hlist =>
          have hext : (info.withLevels (decodeDpiLevels bytes [])).extended = true :=
            hsays.extended_eq
          simp only [hext, if_true] at hindex ⊢
          refine hsends (HidppDevice.sendable_extendedDpi dpi dpi _) hindex t ⟨hs, ?_⟩
          rcases hlist with ⟨n, hlist⟩ | hgap
          · refine .inl (.extendedDpi hlist hmem hsays ?_)
            split_ifs with hlod
            · exact .inr ⟨hlod, clamp_bounds _⟩
            · exact .inl rfl
          · exact .inr ⟨trivial, gapped_later hgrows hgap⟩

theorem writeRate_hoare {w : HardwareWrite} {feature : UInt16} {listFunction setFunction : UInt8}
    {offers : Bytes → UInt8 → Bool} {code : Option UInt8} (hnet : net.Unconfused)
    (hlist : (feature, listFunction) ∉ stateChanging)
    (hwire : normalizeFunctionId listFunction = listFunction)
    (hrefused : ∀ s, Traced devices V base s → Q false s)
    (hsends : Sends devices net V base target w Q)
    (hadvertises : ∀ {code' r rates}, code = some code' →
      (devices (base.transport.targetOf target)).Asks r feature listFunction →
      (devices (base.transport.targetOf target)).reply r = some rates → offers rates code' →
      (devices (base.transport.targetOf target)).Advertises w feature setFunction
        [code', 0, 0]) :
    Hoare (Traced devices V base)
      (writeRate devices net feature listFunction setFunction offers code target) Q := by
  unfold writeRate
  cases code with
  | none => exact Hoare.pure hrefused
  | some code =>
      refine Hoare.bind (resolve_traced hnet feature target) fun found => ?_
      rintro s ⟨hs, hfound⟩
      cases found with
      | none => exact hrefused s hs
      | some index =>
          obtain ⟨hindex, -⟩ := hfound index rfl
          obtain ⟨⟨hs, -⟩, r, hasks, -, htaken⟩ := send_traced hnet index
            listFunction listFunction [] target (fun _ => True) hindex hwire (Nat.zero_le _)
            (fun h => absurd h hlist) s ⟨hs, trivial⟩
          simp only [bind_apply]
          generalize sendFeatureRequest devices net index listFunction [] target s = sent
            at hs htaken ⊢
          obtain ⟨supported, s⟩ := sent
          by_cases hoffers : supported.any (offers · code) = true
          · simp only [hoffers, if_true]
            obtain ⟨rates, rfl, hoffers⟩ := (Option.any_eq_true _ _).mp hoffers
            have hreply := htaken.resolve_right fun h => by cases h.1
            have hadvertised := hadvertises rfl hasks hreply.symm hoffers
            exact hsends hadvertised.sendable hindex s ⟨hs, .inl hadvertised⟩
          · simp only [hoffers, Bool.false_eq_true, if_false]
            exact hrefused s hs

theorem setPollingRate_hoare {hz : UInt32} (hnet : net.Unconfused)
    (hdisable : Hoare P (disableOnboardProfilesForWrite devices net target)
      fun _ s => Traced devices V base s)
    (hrefused : ∀ s, Traced devices V base s ↔ Q false s)
    (hsends : Sends devices net V base target (.pollingRate hz) Q) :
    Hoare P (setPollingRate devices net hz target) Q := by
  unfold setPollingRate
  refine Hoare.bind hdisable fun _ => ?_
  have hrate : Hoare (Traced devices V base) (setReportRate devices net hz target) Q :=
    writeRate_hoare hnet (by decide) rfl (fun s => (hrefused s).mp) hsends .rate
  refine Hoare.bind hrate fun written => ?_
  cases written with
  | true => exact Hoare.pure fun s hs => hs
  | false =>
      have hextended : Hoare (Traced devices V base)
          (setExtendedReportRate devices net hz target) Q :=
        writeRate_hoare hnet (by decide) rfl (fun s => (hrefused s).mp) hsends .extendedRate
      exact hextended.mono (fun s hs => (hrefused s).mpr hs) fun _ _ h => h

theorem setLiftOffDistance_hoare {distance : UInt8} (hnet : net.Unconfused)
    (hdisable : Hoare P (disableOnboardProfilesForWrite devices net target)
      fun _ s => Traced devices V base s)
    (hrefused : ∀ s, Traced devices V base s → Q false s)
    (hsends : Sends devices net V base target (.liftOffDistance distance) Q) :
    Hoare P (setLiftOffDistance devices net distance target) Q := by
  unfold setLiftOffDistance
  refine Hoare.bind hdisable fun _ => ?_
  refine Hoare.bind (getDpiInfo_traced hnet target) fun found => ?_
  rintro s ⟨hs, hfoundDpi⟩
  cases found with
  | none => exact hrefused s hs
  | some info =>
      have hfoundDpi := hfoundDpi info rfl
      simp only
      by_cases hdistance : ¬info.extended ∨ ¬info.supportsLiftOffDistance ∨ distance < 1 ∨
          3 < distance
      · rw [if_pos hdistance]
        exact hrefused s hs
      rw [if_neg hdistance, bind_apply]
      simp only [not_or, not_not, UInt8.not_lt] at hdistance
      obtain ⟨hext, hsupports, hlow, hhigh⟩ := hdistance
      obtain ⟨hs, hfound⟩ := resolve_traced hnet 0x2202 target s hs
      generalize resolveFeatureIndex devices net 0x2202 target s = resolved at hs hfound ⊢
      obtain ⟨_ | index, s⟩ := resolved
      · exact hrefused s hs
      obtain ⟨hindex, -⟩ := hfound index rfl
      cases hfoundDpi with
      | legacy => cases hext
      | @extended info bytes hsays hlist =>
          refine hsends (HidppDevice.sendable_extendedDpi _ _ _) hindex s ⟨hs, .inl ?_⟩
          refine @HidppDevice.Advertises.liftOffDistance _ info _ _ hsays hsupports hlow hhigh ?_
          split_ifs
          · exact .inr rfl
          · exact .inl rfl

theorem write_hoare {w : HardwareWrite} (hnet : net.Unconfused)
    (hdisable : Hoare P (disableOnboardProfilesForWrite devices net target)
      fun _ s => Traced devices V base s)
    (hrefused : ∀ s, Traced devices V base s → Q false s)
    (hback : ¬w.choosesLevel → ∀ s, Q false s → Traced devices V base s)
    (hsends : Sends devices net V base target w Q) :
    Hoare P (write devices net target w) Q := by
  cases w with
  | dpi dpi => exact setDpi_hoare hnet hdisable hrefused hsends
  | pollingRate hz =>
      exact setPollingRate_hoare hnet hdisable (fun s => ⟨hrefused s, hback id s⟩) hsends
  | liftOffDistance distance => exact setLiftOffDistance_hoare hnet hdisable hrefused hsends

/-! ## Runs -/

/-- No reply in the step is late. -/
def SettingStep.Unconfused : SettingStep → Prop
  | .setDpi _ _ net | .setPollingRate _ _ net | .setLiftOffDistance _ _ net | .ask _ net =>
      net.Unconfused
  | .setDeviceIndex _ | .clearFeatureCache => True

/-- The cached indices are those of the devices, and so are the replies so far. -/
structure Sound (devices : UInt8 → HidppDevice) (s : FeatureSession) : Prop where
  indices : s.IndicesSound devices
  faithful : s.Faithful devices

theorem Traced.toSound {t : FeatureSession} (hs : s.Sound devices) (h : Traced devices V s t) :
    t.Sound devices := by
  obtain ⟨added, hadded, hfaithful⟩ := h.log
  refine ⟨h.sound, fun e he => ?_⟩
  rw [hadded] at he
  rcases List.mem_append.mp he with he | he
  · exact hs.faithful e he
  · exact (hfaithful e he).2

theorem write_sound (hnet : net.Unconfused) (w : HardwareWrite) (target : UInt8)
    (hs : s.Sound devices) : (write devices net target w s).2.Sound devices := by
  have hwrite : Hoare (Traced devices (fun _ _ _ _ => True) s) (write devices net target w)
      fun _ t => Traced devices (fun _ _ _ _ => True) s t := by
    refine write_hoare hnet (disableOnboardProfilesForWrite_traced hnet target trivial)
      (fun _ h => h) (fun _ _ h => h) ?_
    rintro id index function params ⟨hwire, hparams, -⟩ hindex t ⟨ht, -⟩
    exact (send_traced hnet index function function params target (fun _ => True) hindex hwire
      hparams (fun _ => trivial) t ⟨ht, trivial⟩).1.1
  exact (hwrite s (.refl hs.indices)).toSound hs

theorem yields_faithful (hnet : net.Unconfused) :
    Yields devices net (Exchange.Faithful devices) := by
  refine ⟨fun log r => ?_, fun _ => trivial⟩
  exact (deliver_unconfused devices hnet log r log.length).symm.imp_left And.left

theorem getFeatureMetadata_sound (hs : s.IndicesSound devices) (target : UInt8)
    (hfaithful : (getFeatureMetadata devices net target s).2.Faithful devices) :
    (getFeatureMetadata devices net target s).2.IndicesSound devices :=
  (getFeatureMetadata_discovery devices net s target).sound
    (targetOf_targetOf s.transport target) hs hfaithful

theorem getFeatureSet_sound (hs : s.IndicesSound devices) (target : UInt8)
    (hfaithful : (getFeatureSet devices net target s).2.Faithful devices) :
    (getFeatureSet devices net target s).2.IndicesSound devices := by
  cases hcached : s.featureSets (s.transport.targetOf target) with
  | some features =>
      rw [getFeatureSet_cached hcached]
      exact hs
  | none =>
      rw [getFeatureSet_uncached hcached] at hfaithful ⊢
      exact getFeatureMetadata_sound hs _ hfaithful

theorem ask_sound (hnet : net.Unconfused) (q : FeatureQuery) (hs : s.Sound devices) :
    (ask devices net q s).Sound devices := by
  obtain ⟨added, hadded, hnew⟩ := (ask_extends (yields_faithful hnet) q s).log
  have hfaithful : (ask devices net q s).Faithful devices := by
    intro e he
    rw [hadded] at he
    rcases List.mem_append.mp he with he | he
    · exact hs.faithful e he
    · exact hnew e he
  refine ⟨?_, hfaithful⟩
  cases q with
  | getFeatureMetadata target => exact getFeatureMetadata_sound hs.indices target hfaithful
  | getFeatureSet target => exact getFeatureSet_sound hs.indices target hfaithful
  | supportsFeature id target =>
      simp only [ask, supportsFeature] at hfaithful ⊢
      by_cases hid : id = 0
      · rw [if_pos hid]
        exact hs.indices
      · rw [if_neg hid] at hfaithful ⊢
        exact getFeatureSet_sound hs.indices target hfaithful
  | resolveFeatureIndex id target => exact resolveFeatureIndex_sound hs.indices hfaithful

theorem setting_sound {l : SettingStep} (hl : l.Unconfused) (hs : s.Sound devices) :
    (setting devices s l).Sound devices := by
  cases l with
  | setDpi dpi target net => exact write_sound hl (.dpi dpi) target hs
  | setPollingRate hz target net => exact write_sound hl (.pollingRate hz) target hs
  | setLiftOffDistance distance target net =>
      exact write_sound hl (.liftOffDistance distance) target hs
  | ask q net => exact ask_sound hl q hs
  | setDeviceIndex idx => exact ⟨nofun, hs.faithful⟩
  | clearFeatureCache => exact ⟨nofun, hs.faithful⟩

theorem setting_run_sound
    (h : (settingMachine devices).Run (fun _ l => l.Unconfused) s) : s.Sound devices := by
  refine h.invariant ?_ ?_
  · rintro s ⟨t, _, _, rfl⟩
    exact ⟨nofun, nofun⟩
  · intro s l t hs hl hstep
    cases hstep
    exact setting_sound hl hs

/-! ## The mode -/

/-- No request changes the state of a device. -/
def Quiet (_ : UInt8) (_ : UInt16) (_ : UInt8) (_ : Bytes) : Prop := False

theorem sendFeatureRequest_answered (devices : UInt8 → HidppDevice) (hnet : net.Answers)
    (s : FeatureSession) (index function wire : UInt8) (params : Bytes) (target : UInt8)
    (hwire : normalizeFunctionId function = wire) (hparams : params.length ≤ 16) :
    sendFeatureRequest devices net index function params target s =
      let r := nextRequest index wire params target s.transport
      ((devices (s.transport.targetOf target)).reply r,
        { s with
          transport := s.transport.takeSwId.2
          log := s.log ++ [.request r ((devices (s.transport.targetOf target)).reply r)] }) := by
  unfold sendFeatureRequest
  rw [if_neg (Nat.not_lt.mpr hparams), (hnet s.log.length).1, hwire]
  rfl

/-- The index of a feature that is there is found. -/
theorem resolve_present (hnet : net.Answers) (hid : id ≠ 0)
    (hthere : (devices (base.transport.targetOf target)).indexOf id ≠ 0) :
    Hoare (Traced devices V base) (resolveFeatureIndex devices net id target) fun found s =>
      Traced devices V base s ∧ ∃ index, found = some index ∧
        Knows (base.transport.targetOf target) id index s.featureIndices := by
  intro s hs
  have htarget := hs.targetOf target
  obtain ⟨htraced, hknown⟩ := resolve_traced (V := V) hnet.unconfused id target s hs
  have hfound : (resolveFeatureIndex devices net id target s).1.isSome := by
    unfold resolveFeatureIndex
    rw [if_neg hid]
    simp only [bind_apply, get_apply]
    cases hcached : s.featureIndices (s.transport.targetOf target, id) with
    | some index => rfl
    | none =>
        simp only [bind_apply]
        rw [sendFeatureRequest_answered devices hnet s 0 0 0 [_, _, 0] target rfl
          (Nat.le_add_left 3 13), htarget]
        dsimp only
        rw [HidppDevice.reply_getFeature id rfl rfl rfl]
        simp only [HidppDevice.ofNat_indexOf_eq_zero]
        rw [if_neg hthere]
        rfl
  obtain ⟨index, hindex⟩ := Option.isSome_iff_exists.mp hfound
  exact ⟨htraced, index, hindex, (hknown index hindex).2 hid⟩

/-- **A request to a feature that is there** is answered by the device. -/
theorem request_present (hnet : net.Answers) (hwire : normalizeFunctionId function = wire)
    (hparams : params.length ≤ 16) (hid : id ≠ 0) (hread : (id, wire) ∉ stateChanging)
    (hthere : (devices (base.transport.targetOf target)).indexOf id ≠ 0) :
    Hoare (Traced devices V base) (request devices net id function params target)
      fun taken s => Traced devices V base s ∧
        ∃ r, (devices (base.transport.targetOf target)).Asks r id wire ∧ r.params = params ∧
          taken = (devices (base.transport.targetOf target)).reply r := by
  refine Hoare.bind (resolve_present hnet hid hthere) fun found => ?_
  rintro s ⟨hs, index, rfl, hknows⟩
  obtain ⟨⟨hsent, -⟩, r, hasks, hr, htaken⟩ := send_traced hnet.unconfused index function wire
    params target (fun _ => True) (hs.sound _ _ _ hknows) hwire hparams
    (fun h => absurd h hread) s ⟨hs, trivial⟩
  exact ⟨hsent, r, hasks, hr, htaken.resolve_right fun h => h.2 hnet⟩

/-- The index that is found, and the transport then. -/
theorem resolve_mode (devices : UInt8 → HidppDevice) (hnet : net.Answers)
    (htarget : s.transport.targetOf target = target) :
    (resolveFeatureIndex devices net 0x8100 target s).1 = s.modeIndex devices target ∧
      (resolveFeatureIndex devices net 0x8100 target s).2.transport = s.modeTransport target := by
  unfold resolveFeatureIndex modeIndex modeTransport
  rw [if_neg (by decide)]
  simp only [bind_apply, get_apply, htarget]
  cases hcached : s.featureIndices (target, 0x8100) with
  | some index => exact ⟨rfl, rfl⟩
  | none =>
      simp only [bind_apply]
      rw [sendFeatureRequest_answered devices hnet s 0 0 0 [_, _, 0] target rfl
        (Nat.le_add_left 3 13), htarget]
      dsimp only
      rw [HidppDevice.reply_getFeature 0x8100 rfl rfl rfl]
      simp only [HidppDevice.ofNat_indexOf_eq_zero, Option.none_or, Option.isSome_none,
        Bool.false_eq_true, if_false]
      split_ifs
      · exact ⟨rfl, rfl⟩
      · exact ⟨rfl, rfl⟩

/-- The onboard profiles are switched off exactly if the target is not in host mode. -/
theorem disableOnboardProfilesForWrite_quiet (hnet : net.Answers) (target : UInt8)
    (hs : s.IndicesSound devices) :
    (s.InHostMode devices target →
      Traced devices Quiet s (disableOnboardProfilesForWrite devices net target s).2) ∧
    (¬s.InHostMode devices target →
      ∃ e ∈ since s (disableOnboardProfilesForWrite devices net target s).2,
        ¬e.Allowed devices Quiet) := by
  unfold InHostMode disableOnboardProfilesForWrite
  rw [bind_apply, get_apply]
  have htarget := targetOf_targetOf s.transport target
  dsimp only
  generalize s.transport.targetOf target = target at htarget ⊢
  rw [bind_apply]
  obtain ⟨hmode, htransport⟩ := resolve_mode devices hnet htarget
  obtain ⟨htraced, hfound⟩ :=
    resolve_traced hnet.unconfused 0x8100 target s (Traced.refl hs)
  rw [htarget] at hfound
  rw [← hmode, ← htransport]
  generalize resolveFeatureIndex devices net 0x8100 target s = resolved at htraced hfound ⊢
  obtain ⟨_ | index, t⟩ := resolved
  · exact ⟨fun _ => htraced, fun h => absurd nofun h⟩
  obtain ⟨hindex, -⟩ := hfound index rfl
  have htarget' : t.transport.targetOf target = target := (htraced.targetOf target).trans htarget
  -- the mode is read
  obtain ⟨⟨hread, -⟩, -⟩ := send_traced hnet.unconfused index 0x20 0x2 [] target
    (fun _ => True) (htarget.symm ▸ hindex) rfl (Nat.zero_le _) (fun h => absurd h (by decide)) t
    ⟨htraced, trivial⟩
  have hreply : (sendFeatureRequest devices net index 0x20 [] target t).1 =
      (devices target).reply (nextRequest index 0x2 [] target t.transport) := by
    rw [sendFeatureRequest_answered devices hnet t index 0x20 0x2 [] target rfl (Nat.zero_le _),
      htarget']
  simp only [bind_apply]
  have hmode : (∀ index', some index = some index' → onboardActive ((devices target).reply
      (nextRequest index' 0x2 [] target t.transport)) = false) ↔
      onboardActive (sendFeatureRequest devices net index 0x20 [] target t).1 = false := by
    rw [hreply]
    exact ⟨fun h => h index rfl, fun h index' hindex' => Option.some.inj hindex' ▸ h⟩
  rw [hmode]
  generalize sendFeatureRequest devices net index 0x20 [] target t = sent at hread ⊢
  obtain ⟨reply, u⟩ := sent
  cases hactive : onboardActive reply with
  | false => exact ⟨fun _ => hread, fun h => absurd rfl h⟩
  | true =>
      refine ⟨nofun, fun _ => ?_⟩
      -- the profiles are switched off, whatever comes back
      have htarget'' : u.transport.targetOf target = target :=
        (hread.targetOf target).trans htarget
      obtain ⟨added, hadded, -⟩ := hread.log
      simp only [if_true, bind_apply]
      rw [sendFeatureRequest_answered devices hnet u index 0x10 0x1 [0x02] target rfl (by decide)]
      dsimp only at hadded ⊢
      generalize (devices (u.transport.targetOf target)).reply
        (nextRequest index 0x1 [0x02] target u.transport) = written
      refine ⟨.request (nextRequest index 0x1 [0x02] target u.transport) written, ?_, ?_⟩
      · have hmem : ∀ v : FeatureSession,
            v.log = u.log ++ [.request (nextRequest index 0x1 [0x02] target u.transport) written] →
            Exchange.request (nextRequest index 0x1 [0x02] target u.transport) written ∈
              v.log.drop s.log.length := by
          intro v hv
          rw [hv, hadded, List.append_assoc, List.drop_left]
          exact List.mem_append_right _ (List.mem_singleton_self _)
        cases written with
        | none => exact hmem _ rfl
        | some payload => exact hmem _ rfl
      · intro hallowed
        have hchanging : ((0x8100 : UInt16), (0x1 : UInt8)) ∈ stateChanging := by decide
        refine hallowed 0x8100 ?_ hchanging
        show (devices (u.transport.targetOf target)).idAt index.toNat = some 0x8100
        rw [htarget'']
        exact hindex

/-! ## What a setter sends -/

theorem Traced.allowed (h : Traced devices V s t) : ∀ e ∈ since s t,
    e.Allowed devices V := by
  obtain ⟨added, hadded, hallowed⟩ := h.log
  rw [since, hadded, List.drop_left]
  exact fun e he => (hallowed e he).1

/-- What is written is advertised, as long as no level is chosen from a list with a gap. -/
theorem write_advertised (hnet : net.Unconfused) (w : HardwareWrite) (target : UInt8)
    (hs : s.IndicesSound devices)
    (hwhole : w.choosesLevel → ¬Gapped devices (exchanges devices net target w s)) :
    ∀ e ∈ exchanges devices net target w s,
      e.Allowed devices fun device id function params => device = s.transport.targetOf target ∧
        (devices device).Advertises w id function params := by
  let V (device : UInt8) (id : UInt16) (function : UInt8) (params : Bytes) : Prop :=
    device = s.transport.targetOf target ∧ (devices device).Advertises w id function params
  have hwrite : Hoare (Traced devices V s) (write devices net target w)
      fun _ t => Traced devices V s t ∨ Astray devices s w t := by
    refine write_hoare hnet (disableOnboardProfilesForWrite_traced hnet target ⟨rfl, .hostMode⟩)
      (fun _ => .inl) (fun hnot _ h => h.resolve_right fun hastray => hnot hastray.1) ?_
    rintro id index function params ⟨hwire, hparams, -⟩ hindex t ⟨ht, hadvertised | hastray⟩
    · exact .inl (send_traced hnet index function function params target (fun _ => True) hindex
        hwire hparams (fun _ => ⟨rfl, hadvertised⟩) t ⟨ht, trivial⟩).1.1
    · exact .inr ⟨hastray.1,
        gapped_later ((grows_frame devices net).send index function params target t) hastray.2⟩
  rcases hwrite s (.refl hs) with htraced | ⟨hchooses, hgap⟩
  · exact htraced.allowed
  · exact absurd hgap (hwhole hchooses)

/-- In host mode, a refusal sends nothing that changes a device. -/
theorem refused_quiet (hnet : net.Answers) (w : HardwareWrite) (target : UInt8)
    (hs : s.IndicesSound devices) (hmode : s.InHostMode devices target)
    (hrefused : (write devices net target w s).1 = false) :
    ∀ e ∈ exchanges devices net target w s, e.Allowed devices Quiet := by
  have hwrite : Hoare (· = s) (write devices net target w)
      fun written t => written = true ∨ Traced devices Quiet s t := by
    refine write_hoare hnet.unconfused ?_ (fun _ => .inr)
      (fun _ _ h => h.resolve_left Bool.false_ne_true) ?_
    · rintro _ rfl
      exact (disableOnboardProfilesForWrite_quiet hnet target hs).1 hmode
    -- a value that is sent is accepted
    · rintro id index function params ⟨hwire, hparams, hroot, hset⟩ hindex t ⟨ht, -⟩
      refine .inl ?_
      show (sendFeatureRequest devices net index function params target t).1.isSome = true
      rw [sendFeatureRequest_answered devices hnet t index function function params target hwire
        hparams, ht.targetOf]
      exact HidppDevice.reply_isSome hindex hroot hset
  rcases hwrite s rfl with hwritten | hquiet
  · rw [hrefused] at hwritten
    cases hwritten
  · exact hquiet.allowed

theorem disable_isPrefix (devices : UInt8 → HidppDevice) (net : Network) (w : HardwareWrite)
    (target : UInt8) (s : FeatureSession) :
    (disableOnboardProfilesForWrite devices net target s).2.log <+:
      (write devices net target w s).2.log := by
  have hR := grows_frame devices net
  cases w with
  | dpi dpi => exact (hR.setDpi dpi s).isPrefix
  | pollingRate hz => exact (hR.setPollingRate hz s).isPrefix
  | liftOffDistance distance => exact (hR.setLiftOffDistance distance s).isPrefix

/-- In onboard mode, it has switched the mode. -/
theorem not_quiet_of_onboard (hnet : net.Answers) (w : HardwareWrite) (target : UInt8)
    (hs : s.IndicesSound devices) (hmode : ¬s.InHostMode devices target) :
    ¬∀ e ∈ exchanges devices net target w s, e.Allowed devices Quiet := by
  intro hquiet
  obtain ⟨e, he, hchanges⟩ :=
    (disableOnboardProfilesForWrite_quiet hnet target hs).2 hmode
  refine hchanges (hquiet e ?_)
  -- what is sent first is still in the log
  obtain ⟨rest, hrest⟩ := disable_isPrefix devices net w target s
  unfold exchanges since
  rw [← hrest, List.drop_append]
  exact List.mem_append_left _ he

/-- **A setter writes nothing but what the device advertises, unless it has chosen a level from
a list with a gap; and a refusal changes nothing exactly if the device is in host mode
already.** -/
theorem refused_write_leaves_alone_iff
    (h : (settingMachine devices).Run (fun _ l => l.Unconfused) s) (w : HardwareWrite)
    (target : UInt8) :
    (∀ net : Network, net.Unconfused →
      (w.choosesLevel → ¬Gapped devices (exchanges devices net target w s)) →
      ∀ e ∈ exchanges devices net target w s,
        e.Allowed devices fun device id function params => device = s.transport.targetOf target ∧
          (devices device).Advertises w id function params) ∧
    ∀ net : Network, net.Answers → (write devices net target w s).1 = false →
      ((∀ e ∈ exchanges devices net target w s, e.Allowed devices Quiet) ↔
        s.InHostMode devices target) := by
  have hs := (setting_run_sound h).indices
  refine ⟨fun net hnet => write_advertised hnet w target hs, fun net hnet hrefused => ?_⟩
  refine ⟨fun hquiet => ?_, fun hmode => refused_quiet hnet w target hs hmode hrefused⟩
  by_contra hmode
  exact not_quiet_of_onboard hnet w target hs hmode hquiet

/-- The levels 400 to 3600 by 400, in two chunks: the level 2800 straddles them. -/
def levelBytes : Bytes :=
  [0x01, 0x90, 0x03, 0x20, 0x04, 0xB0, 0x06, 0x40, 0x07, 0xD0, 0x09, 0x60, 0x0A, 0xF0,
    0x0C, 0x80, 0x0E, 0x10, 0x00, 0x00]

def levelsMouse : HidppDevice where
  features := [⟨0x0001, 0, 0⟩, ⟨0x2202, 0, 1⟩]
  other r := List.replicate 3 0 ++ if r.asked.function = 0x2 then
      (levelBytes.drop (13 * (byteAt r.params 2).toNat)).take 13
    else List.replicate 13 0
  length_le := by decide
  id_ne_zero := by simp
  has_featureSet := by simp

/-- A mouse without onboard profiles is left alone by a value between its levels, and gets one
of them. -/
theorem refused_write_leaves_alone_levels :
    ((write (fun _ => levelsMouse) answering 0xFF (.dpi 500) receiver).1 = false ∧
      ∀ e ∈ exchanges (fun _ => levelsMouse) answering 0xFF (.dpi 500) receiver,
        e.Allowed (fun _ => levelsMouse) Quiet) ∧
    (write (fun _ => levelsMouse) answering 0xFF (.dpi 2800) receiver).1 = true ∧
      ∀ e ∈ exchanges (fun _ => levelsMouse) answering 0xFF (.dpi 2800) receiver,
        e.Allowed (fun _ => levelsMouse) fun device id function params => device = 1 ∧
          levelsMouse.Advertises (.dpi 2800) id function params := by
  have hrefused : (write (fun _ => levelsMouse) answering 0xFF (.dpi 500) receiver).1 = false := by
    decide +kernel
  have hmode : receiver.InHostMode (fun _ => levelsMouse) 0xFF := by
    have hnone : receiver.modeIndex (fun _ => levelsMouse) 1 = none := by decide +kernel
    intro index hindex
    cases hnone.symm.trans hindex
  have hwhole : ¬Gapped (fun _ => levelsMouse)
      (exchanges (fun _ => levelsMouse) answering 0xFF (.dpi 2800) receiver) := by
    decide +kernel
  have hanswers : answering.Answers := fun _ => ⟨rfl, rfl⟩
  exact ⟨⟨hrefused, ((refused_write_leaves_alone_iff (.start ⟨_, by decide, by decide, rfl⟩)
      (.dpi 500) 0xFF).2 answering hanswers hrefused).mpr hmode⟩, by decide +kernel,
    (refused_write_leaves_alone_iff (.start ⟨_, by decide, by decide, rfl⟩) (.dpi 2800) 0xFF).1
      answering hanswers.unconfused fun _ => hwhole⟩

/-- Without its first chunk the list has one level, which is none of the mouse's. -/
example : (4096 : UInt16) ∉ decodeDpiLevels levelBytes [] ∧
    (write (fun _ => levelsMouse) (lossy 5) 0xFF (.dpi 4096) receiver).1 = true ∧
    Gapped (fun _ => levelsMouse)
      (exchanges (fun _ => levelsMouse) (lossy 5) 0xFF (.dpi 4096) receiver) := by
  decide +kernel

/-- The mouse has no levels, so none is written, but it is not in onboard mode any more. -/
theorem refused_dpi_switches_mode :
    ∃ s, (settingMachine fun _ => gamingMouse).Run (fun _ l => l.Unconfused) s ∧
      answering.Answers ∧ (write (fun _ => gamingMouse) answering 0xFF (.dpi 0) s).1 = false ∧
      ¬∀ e ∈ exchanges (fun _ => gamingMouse) answering 0xFF (.dpi 0) s,
        e.Allowed (fun _ => gamingMouse) Quiet := by
  refine ⟨receiver, .start ⟨_, by decide, by decide, rfl⟩, fun _ => ⟨rfl, rfl⟩, by decide +kernel,
    not_quiet_of_onboard (fun _ => ⟨rfl, rfl⟩) _ _ nofun fun hmode => ?_⟩
  have hactive := hmode 2 (by decide +kernel)
  revert hactive
  decide +kernel

end FeatureSession
end AbrekMouse
