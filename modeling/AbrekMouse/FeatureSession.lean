import AbrekMouse.HidppTransport
import Mathlib.Logic.Function.Basic

/-! # Feature requests and the feature caches

What the transport knows of the features of its devices.  A feature request is one step
here: what the transport takes for the reply is the device's reply, if that comes in time,
or the late reply to an earlier request that looks the same (`Wait.onReport`), or nothing.
The session keeps a log of what came of its requests.
-/
namespace AbrekMouse
open ProgLib

/-! ## Devices -/

/-- Two bytes of a report as a number, the high one first. -/
def readBe16 (hi lo : UInt8) : UInt16 := hi.toUInt16 <<< 8 ||| lo.toUInt16

/-- A request as it goes out: whom it asks for which function of which feature, under which
software id, and its parameters. -/
structure FeatureRequest where
  asked : Asked
  params : Bytes
deriving DecidableEq

/-- A feature of a device: its id, its type and its version, as FEATURE_SET tells of them. -/
structure FeatureEntry where
  id : UInt16
  type : UInt8
  version : UInt8

namespace FeatureEntry

/-- The reply to FEATURE_SET.GetFeatureId. -/
def toBytes (f : FeatureEntry) : Bytes :=
  [(f.id >>> 8).toUInt8, f.id.toUInt8, f.type, f.version]

end FeatureEntry

/-- A device with HID++ 2.0: its features have the indices from 1 on, and one of them is
FEATURE_SET. -/
structure HidppDevice where
  features : List FeatureEntry
  /-- What a reply holds beyond what is asked for, and the replies of the other features. -/
  other : FeatureRequest → Bytes
  length_le : features.length ≤ 255
  id_ne_zero : ∀ f ∈ features, f.id ≠ 0
  has_featureSet : ∃ f ∈ features, f.id = 0x0001

namespace HidppDevice
variable (d : HidppDevice)

/-- The feature at an index; ROOT is at 0. -/
def idAt : ℕ → Option UInt16
  | 0 => some 0
  | i + 1 => d.features[i]?.map FeatureEntry.id

/-- ROOT.GetFeature: the index of a feature, or 0. -/
def indexOf (id : UInt16) : ℕ :=
  match d.features.findIdx? (·.id = id) with
  | some i => i + 1
  | none => 0

/-- ROOT, and every feature that FEATURE_SET advertises. -/
def table : List (UInt16 × UInt8) :=
  (List.range (d.features.length + 1)).filterMap fun i =>
    (d.idAt i).map fun id => (id, UInt8.ofNat i)

/-- The reply of the device: ROOT and FEATURE_SET answer from the list of its features, the
others as `other` has it; past the last feature there is none. -/
def reply (r : FeatureRequest) : Option Bytes :=
  if r.asked.feature = 0 ∧ r.asked.function = 0 then
    some (UInt8.ofNat (d.indexOf (readBe16 (byteAt r.params 0) (byteAt r.params 1))) ::
      d.other r)
  else if r.asked.feature = UInt8.ofNat (d.indexOf 0x0001) ∧ r.asked.function = 0 then
    some (UInt8.ofNat d.features.length :: d.other r)
  else if r.asked.feature = UInt8.ofNat (d.indexOf 0x0001) ∧ r.asked.function = 1 then
    if byteAt r.params 0 = 0 then some (0 :: 0 :: d.other r)
    else d.features[(byteAt r.params 0).toNat - 1]?.map fun f => f.toBytes ++ d.other r
  else some (d.other r)

end HidppDevice

/-- What comes of a request: nothing in time, the reply to it, or the late one to another. -/
inductive Outcome
  | lost
  | own
  | late (k : ℕ)
deriving DecidableEq

/-- The outcomes of the requests, and whether the time for an enumeration is up; both go by
the place in the log. -/
structure Network where
  outcome : ℕ → Outcome
  timeUp : ℕ → Bool

/-- Every request is answered, in time. -/
def Network.Answers (net : Network) : Prop := ∀ n, net.outcome n = .own ∧ net.timeUp n = false

/-- A request and what is taken for the reply to it, or a look at the clock. -/
inductive Exchange
  | request (r : FeatureRequest) (taken : Option Bytes)
  | clock (timeUp : Bool)

/-! ## The caches -/

/-- What the library remembers of a feature: `feature_metadata`, its id with the index at which
the device has it. -/
structure FeatureMetadata where
  featureId : UInt16
  index : UInt8
  type : UInt8
  version : UInt8
deriving DecidableEq

/-- The reply to FEATURE_SET.GetFeatureId, for the index that was asked for; a short reply and
the id 0 tell of no feature. -/
def parseFeatureMetadata (index : UInt8) : Bytes → Option FeatureMetadata
  | hi :: lo :: type :: version :: _ =>
      if readBe16 hi lo = 0 then none
      else some { featureId := readBe16 hi lo, index := index, type := type, version := version }
  | _ => none

/-- The transport with its three caches, by device: single indices, the features with their
metadata, and the list of ids and indices; the log and the last two fields are a history. -/
structure FeatureSession where
  transport : HidppTransport
  featureIndices : UInt8 × UInt16 → Option UInt8 := fun _ => none
  featureMetadataSets : UInt8 → Option (List FeatureMetadata) := fun _ => none
  featureSets : UInt8 → Option (List (UInt16 × UInt8)) := fun _ => none
  onboardProfilesDisabledByUs : Bool := false
  log : List Exchange := []
  /-- The targets whose onboard mode has been switched off, or on, and acknowledged. -/
  disabled : List UInt8 := []
  restored : List UInt8 := []

namespace FeatureSession
variable (devices : UInt8 → HidppDevice) (net : Network)

/-- What the transport takes for the reply to a request. -/
def deliver (log : List Exchange) (r : FeatureRequest) : Outcome → Option Bytes
  | .lost => none
  | .own => (devices r.asked.device).reply r
  | .late k =>
      match log[k]? with
      | some (.request r' _) =>
          if r'.asked = r.asked then (devices r.asked.device).reply r' else none
      | _ => none

/-- `send_feature_request`: the request gets the next software id and is logged with what was
taken for its reply; more than 16 bytes of parameters are not sent. -/
def sendFeatureRequest (feature function : UInt8) (params : Bytes) (target : UInt8) :
    StateM FeatureSession (Option Bytes) := fun s =>
  if 16 < params.length then (none, s)
  else
    let r : FeatureRequest :=
      { asked :=
          { device := s.transport.targetOf target
            feature := feature
            function := normalizeFunctionId function
            softwareId := s.transport.takeSwId.1 }
        params := params }
    -- the place in the log stands for the time of the request
    let taken := deliver devices s.log r (net.outcome s.log.length)
    (taken, { s with transport := s.transport.takeSwId.2, log := s.log ++ [.request r taken] })

/-- Is the time for an enumeration up? -/
def timeUp : StateM FeatureSession Bool := fun s =>
  let up := net.timeUp s.log.length
  (up, { s with log := s.log ++ [.clock up] })

/-- A feature that was found is remembered for the device that was asked. -/
def cacheFeatureIndex (target : UInt8) (id : UInt16) (index : UInt8) :
    StateM FeatureSession PUnit :=
  modify fun s => { s with featureIndices := Function.update s.featureIndices (target, id) index }

/-- `resolve_feature_index`: from the cache, or else from ROOT.GetFeature; an index of 0 says
that the device does not have the feature, and is not remembered. -/
def resolveFeatureIndex (id : UInt16) (target : UInt8) :
    StateM FeatureSession (Option UInt8) := do
  if id = 0 then return some 0
  else
    let s ← get
    match s.featureIndices (s.transport.targetOf target, id) with
    | some index => return some index
    | none =>
        match ← sendFeatureRequest devices net 0 0 [(id >>> 8).toUInt8, id.toUInt8, 0] target with
        | some (index :: _) =>
            if index = 0 then return none
            else do
              cacheFeatureIndex (s.transport.targetOf target) id index
              return some index
        | _ => return none

/-- FEATURE_SET.GetFeatureId for the indices from `i` on, until three in a row have failed. -/
def enumerate (featureSetIndex target : UInt8) :
    ℕ → ℕ → List FeatureMetadata → ℕ → StateM FeatureSession (List FeatureMetadata)
  | 0, _, features, _ => return features
  | left + 1, i, features, timeouts => do
      -- what has been found so far is kept, and cached by the caller
      if ← timeUp net then return features
      else if i = featureSetIndex.toNat then
        enumerate featureSetIndex target left (i + 1) features timeouts
      else
        let frsp ← sendFeatureRequest devices net featureSetIndex 1 [UInt8.ofNat i] target
        match frsp.bind (parseFeatureMetadata (UInt8.ofNat i)) with
        | none =>
            if 3 ≤ timeouts + 1 then return features
            -- isolated misses are passed over
            else enumerate featureSetIndex target left (i + 1) features (timeouts + 1)
        | some metadata => do
            cacheFeatureIndex target metadata.featureId (UInt8.ofNat i)
            enumerate featureSetIndex target left (i + 1) (features ++ [metadata]) 0

/-- `get_feature_metadata`: all features of a device, from the cache or by an enumeration, whose
result is cached even where it was broken off. -/
def getFeatureMetadata (target : UInt8) : StateM FeatureSession (List FeatureMetadata) := do
  let s ← get
  let target := s.transport.targetOf target
  match s.featureMetadataSets target with
  | some features => return features
  | none =>
      match ← sendFeatureRequest devices net 0 0 [0x00, 0x01, 0x00] target with
      | some (featureSetIndex :: _) =>
          -- these failures are not cached
          if featureSetIndex = 0 then return []
          else do
            cacheFeatureIndex target 0x0001 featureSetIndex
            match ← sendFeatureRequest devices net featureSetIndex 0 [0, 0, 0] target with
            | some (count :: _) => do
                -- ROOT is not counted, and FEATURE_SET is known already
                let features ← enumerate devices net featureSetIndex target count.toNat 1
                  [⟨0x0000, 0, 0, 0⟩, ⟨0x0001, featureSetIndex, 0, 0⟩] 0
                modify fun s => { s with
                  featureMetadataSets := Function.update s.featureMetadataSets target features }
                return features
            | _ => return []
      | _ => return []

/-- `get_feature_set`: the ids of the features with their indices, which have a cache of their
own. -/
def getFeatureSet (target : UInt8) : StateM FeatureSession (List (UInt16 × UInt8)) := do
  let s ← get
  let target := s.transport.targetOf target
  match s.featureSets target with
  | some features => return features
  | none => do
      let metadata ← getFeatureMetadata devices net target
      -- also when there are none
      let features := metadata.map fun item => (item.featureId, item.index)
      modify fun s => { s with featureSets := Function.update s.featureSets target features }
      return features

/-- `supports_feature`: does the enumeration have the id? ROOT does not count. -/
def supportsFeature (id : UInt16) (target : UInt8) : StateM FeatureSession Bool := do
  if id = 0 then return false
  else
    let features ← getFeatureSet devices net target
    return features.any (·.1 = id)

/-- What is known of the devices is forgotten. -/
def clearFeatureCache (s : FeatureSession) : FeatureSession :=
  { s with
    transport := { s.transport with pendingNotifications := [] }
    featureIndices := fun _ => none
    featureMetadataSets := fun _ => none
    featureSets := fun _ => none }

/-- `set_device_index`: the transport speaks to another device from now on, and forgets the
features of all of them. -/
def setDeviceIndex (idx : UInt8) (s : FeatureSession) : FeatureSession :=
  let s := s.clearFeatureCache
  { s with transport := { s.transport with deviceIndex := idx } }

/-! ## Runs -/

/-- The calls of the library that read or fill the caches, each for a device. -/
inductive FeatureQuery
  | getFeatureMetadata (target : UInt8)
  | getFeatureSet (target : UInt8)
  | supportsFeature (id : UInt16) (target : UInt8)
  | resolveFeatureIndex (id : UInt16) (target : UInt8)

/-- The session after a query. -/
def ask : FeatureQuery → FeatureSession → FeatureSession
  | .getFeatureMetadata target, s => (getFeatureMetadata devices net target s).2
  | .getFeatureSet target, s => (getFeatureSet devices net target s).2
  | .supportsFeature id target, s => (supportsFeature devices net id target s).2
  | .resolveFeatureIndex id target, s => (resolveFeatureIndex devices net id target s).2

/-- A new transport: nothing has been asked, and nothing is known. -/
def New (s : FeatureSession) : Prop :=
  ∃ t : HidppTransport, 1 ≤ t.nextSwId ∧ t.nextSwId ≤ 15 ∧ s = { transport := t }

end FeatureSession
end AbrekMouse
