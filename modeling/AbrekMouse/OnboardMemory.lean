import AbrekMouse.DeviceInfo

/-! # The onboard profiles

A device with onboard profiles keeps them in sectors of its memory, and a directory of them in a
sector of its own, in RAM or in ROM.  Both are read with one function of the feature, 16 bytes at
a time.  If no reply is late, what is read of a sector is all that was asked for, or nothing
(`sector_read_whole`); and from a device that answers, the profiles that are listed are those of
its directory, and each of them can be read (`profiles_listed`).
-/
namespace AbrekMouse
open ProgLib
open FeatureSession (pieceAt)

/-! ## The parsers -/

/-- What function 0 of the feature tells of the memory: its layout, how many profiles, buttons
and sectors it has, and how long a profile is. -/
structure OnboardProfileInfo where
  memory : UInt8
  activeProfile : UInt8
  macroProfile : UInt8
  profileCount : UInt8
  outOfBounds : UInt8
  buttonCount : UInt8
  sectorCount : UInt8
  profileSize : UInt16
  shift : UInt8
deriving DecidableEq

/-- Only the normal layout of the memory is accepted. -/
def parseOnboardProfileInfo (reply : Bytes) : Option OnboardProfileInfo :=
  if reply.length < 10 then none
  else
    let info : OnboardProfileInfo :=
      { memory := byteAt reply 0
        activeProfile := byteAt reply 1
        macroProfile := byteAt reply 2
        profileCount := byteAt reply 3
        outOfBounds := byteAt reply 4
        buttonCount := byteAt reply 5
        sectorCount := byteAt reply 6
        profileSize := readBe16 (byteAt reply 7) (byteAt reply 8)
        shift := byteAt reply 9 }
    if info.memory ≠ 1 ∨ 5 < info.profileCount ∨ info.sectorCount = 0 ∨ info.profileSize = 0 then
      none
    else some info

theorem parseOnboardProfileInfo_count {reply : Bytes} {info : OnboardProfileInfo}
    (h : parseOnboardProfileInfo reply = some info) : info.profileCount.toNat ≤ 5 := by
  unfold parseOnboardProfileInfo at h
  dsimp only at h
  split_ifs at h with hlength hlayout
  obtain rfl := Option.some.inj h
  obtain ⟨-, hcount, -⟩ := not_or.mp hlayout |>.imp id not_or.mp
  exact UInt8.le_iff_toNat_le.mp (UInt8.not_lt.mp hcount)

/-- A profile of the directory: its number, the sector that it is in, and whether it is switched
on. -/
structure OnboardProfileHeader where
  profile : UInt8
  sector : UInt16
  enabled : UInt8
deriving DecidableEq

/-- An entry of the directory; `FF FF` ends it, and what is no sector ends it too. -/
def parseProfileHeader (sectorCount : UInt8) (i : ℕ) (reply : Bytes) :
    Option OnboardProfileHeader :=
  let sector := readBe16 (byteAt reply 0) (byteAt reply 1)
  if reply.length < 3 then none
  else if byteAt reply 0 = 0xFF ∧ byteAt reply 1 = 0xFF then none
  else if sector = 0 ∨ sectorCount.toUInt16 ≤ sector then none
  else some ⟨UInt8.ofNat (i + 1), sector, byteAt reply 2⟩

/-! ## Reading -/

/-- Where 16 bytes are read. -/
def sectorParams (sector offset : UInt16) : Bytes :=
  [(sector >>> 8).toUInt8, sector.toUInt8, (offset >>> 8).toUInt8, offset.toUInt8]

namespace FeatureSession
variable (devices : UInt8 → HidppDevice) (net : Network)

/-- `get_onboard_profile_info`: the description of the memory, asked for anew by every call; a
layout that is not the normal one is no description. -/
def getOnboardProfileInfo (target : UInt8) : StateM FeatureSession (Option OnboardProfileInfo) := do
  let reply ← featureRequest devices net 0x8100 0 [] target
  return reply.bind parseOnboardProfileInfo

/-- The entries of a directory from `i` on. -/
def readHeaders (sectorCount storage target : UInt8) :
    ℕ → ℕ → List OnboardProfileHeader → StateM FeatureSession (List OnboardProfileHeader)
  | 0, _, result => return result
  | left + 1, i, result => do
      let reply ← featureRequest devices net 0x8100 0x50 [storage, 0, 0, UInt8.ofNat (i * 4)] target
      match reply.bind (parseProfileHeader sectorCount i) with
      | none => return result
      | some header => readHeaders sectorCount storage target left (i + 1) (result ++ [header])

/-- Those in ROM, if there are none in RAM. -/
def getOnboardProfileHeaders (target : UInt8) :
    StateM FeatureSession (List OnboardProfileHeader) := do
  match ← getOnboardProfileInfo devices net target with
  | none => return []
  | some info =>
      let headers ← readHeaders devices net info.sectorCount 0 target info.profileCount.toNat 0 []
      if headers = [] then
        readHeaders devices net info.sectorCount 1 target info.profileCount.toNat 0 []
      else return headers

/-- A sector from `offset` on. -/
def readSectorFrom (sector : UInt16) (size : ℕ) (target : UInt8) :
    ℕ → ℕ → Bytes → StateM FeatureSession (Option Bytes)
  | 0, _, result => return some result
  | left + 1, offset, result => do
      if offset < size then
        let wanted := min 16 (size - offset)
        let reply ← featureRequest devices net 0x8100 0x50
          (sectorParams sector (UInt16.ofNat offset)) target
        match reply.filter fun reply => reply ≠ [] ∧ wanted ≤ reply.length with
        | none => return none
        | some reply =>
            readSectorFrom sector size target left (offset + 16) (result ++ reply.take wanted)
      else return some result

/-- The sectors and sizes that are read. -/
def Readable (info : OnboardProfileInfo) (sector : UInt16) (size : ℕ) : Prop :=
  sector ≠ 0 ∧ sector < info.sectorCount.toUInt16 ∧ size ≠ 0 ∧ size ≤ info.profileSize.toNat ∧
    size ≤ 4096

instance (info : OnboardProfileInfo) (sector : UInt16) (size : ℕ) :
    Decidable (Readable info sector size) :=
  inferInstanceAs (Decidable (_ ∧ _))

/-- `read_onboard_profile_sector`: the first `size` bytes of a sector, if the description of the
memory has that sector and a profile is that long, up to 4096 bytes. -/
def readOnboardProfileSector (sector : UInt16) (size : ℕ) (target : UInt8) :
    StateM FeatureSession (Option Bytes) := do
  match ← getOnboardProfileInfo devices net target with
  | none => return none
  | some info =>
      if Readable info sector size then readSectorFrom devices net sector size target size 0 []
      else return none

end FeatureSession

/-! ## Devices with profiles -/

/-- The device has onboard profiles: function 0 describes them, and function 5 replies with the
16 bytes that are at an offset of a sector, zeros behind its end. -/
structure HidppDevice.HoldsProfiles (d : HidppDevice) (info : OnboardProfileInfo)
    (memory : UInt16 → Bytes) : Prop where
  present : d.indexOf 0x8100 ≠ 0
  described : ∀ r, d.Asks r 0x8100 0 → (d.reply r).bind parseOnboardProfileInfo = some info
  read : ∀ r sector offset, d.Asks r 0x8100 5 → r.params = sectorParams sector offset →
    d.reply r = some (pieceAt (memory sector) 16 offset.toNat)

/-- The entries of a directory from `i` on. -/
def listed (sectorCount : UInt8) (directory : Bytes) : ℕ → ℕ → List OnboardProfileHeader
  | 0, _ => []
  | left + 1, i =>
      match parseProfileHeader sectorCount i (pieceAt directory 16 (i * 4)) with
      | none => []
      | some header => header :: listed sectorCount directory left (i + 1)

/-- The profiles of a device: sector 0 is the directory in RAM, and 0x0100 the one in ROM. -/
def profilesOf (info : OnboardProfileInfo) (memory : UInt16 → Bytes) :
    List OnboardProfileHeader :=
  let inRam := listed info.sectorCount (memory 0) info.profileCount.toNat 0
  if inRam = [] then listed info.sectorCount (memory 0x0100) info.profileCount.toNat 0 else inRam

theorem listed_sector {sectorCount : UInt8} {directory : Bytes} {header : OnboardProfileHeader} :
    ∀ {left i : ℕ}, header ∈ listed sectorCount directory left i →
      header.sector ≠ 0 ∧ header.sector < sectorCount.toUInt16
  | 0, _, h => by cases h
  | left + 1, i, h => by
      unfold listed at h
      cases hparse : parseProfileHeader sectorCount i (pieceAt directory 16 (i * 4)) with
      | none =>
          rw [hparse] at h
          cases h
      | some first =>
          rw [hparse] at h
          rcases List.mem_cons.mp h with rfl | hrest
          · unfold parseProfileHeader at hparse
            dsimp only at hparse
            split_ifs at hparse with hshort hend hsector
            obtain rfl := Option.some.inj hparse
            obtain ⟨hzero, hcount⟩ := not_or.mp hsector
            exact ⟨hzero, UInt16.not_le.mp hcount⟩
          · exact listed_sector hrest

theorem pieceAt_append (memory : Bytes) (n m offset : ℕ) :
    pieceAt memory n offset ++ pieceAt memory m (offset + n) = pieceAt memory (n + m) offset := by
  unfold pieceAt
  rw [List.range_add, List.map_append, List.map_map]
  congr 1
  refine List.map_congr_left fun k _ => ?_
  rw [Function.comp_apply, Nat.add_assoc]

theorem take_pieceAt (memory : Bytes) {n m : ℕ} (offset : ℕ) (h : m ≤ n) :
    (pieceAt memory n offset).take m = pieceAt memory m offset := by
  unfold pieceAt
  rw [← List.map_take, List.take_range, Nat.min_eq_left h]

namespace FeatureSession
variable {devices : UInt8 → HidppDevice} {net : Network} {V : UInt8 → UInt16 → UInt8 → Bytes → Prop}
variable {base s : FeatureSession} {id : UInt16} {function wire target : UInt8} {params : Bytes}
variable {info : OnboardProfileInfo} {memory : UInt16 → Bytes}

/-- The reply that is taken is the device's; there is one if every request is answered. -/
theorem featureRequest_reply (hnet : net.Unconfused) (hwire : normalizeFunctionId function = wire)
    (hparams : params.length ≤ 16) (hid : id ≠ 0) (hread : (id, wire) ∉ stateChanging)
    (hthere : (devices (base.transport.targetOf target)).indexOf id ≠ 0) :
    Hoare (Traced devices V base) (featureRequest devices net id function params target)
      fun taken s => Traced devices V base s ∧ (taken = none ∧ ¬net.Answers ∨
        ∃ r, (devices (base.transport.targetOf target)).Asks r id wire ∧ r.params = params ∧
          taken = (devices (base.transport.targetOf target)).reply r) := by
  intro s hs
  have htarget := targetOf_targetOf base.transport target
  unfold featureRequest
  rw [if_neg (by rintro (h | h); exacts [hid h, Nat.not_lt.mpr hparams h])]
  rw [bind_apply, get_apply]
  dsimp only
  rw [hs.targetOf]
  rw [← htarget] at hthere
  unfold request
  rw [bind_apply]
  obtain ⟨htraced, hfound⟩ := resolve_traced hnet id (base.transport.targetOf target) s hs
  have hknows : net.Answers →
      (resolveFeatureIndex devices net id (base.transport.targetOf target) s).1 ≠ none := by
    intro hanswers hnone
    obtain ⟨-, index, hindex, -⟩ := resolve_present (V := V) hanswers hid hthere s hs
    cases hnone.symm.trans hindex
  cases hindex : (resolveFeatureIndex devices net id (base.transport.targetOf target) s).1 with
  | none => exact ⟨htraced, .inl ⟨rfl, fun hanswers => hknows hanswers hindex⟩⟩
  | some index =>
      obtain ⟨⟨hsent, -⟩, r, hasks, hr, htaken⟩ := send_traced hnet index function wire params
        (base.transport.targetOf target) (fun _ => True) (hfound index hindex).1 hwire hparams
        (fun h => absurd h hread) _ ⟨htraced, trivial⟩
      rw [htarget] at hasks htaken
      exact ⟨hsent, htaken.symm.imp_right fun h => ⟨r, hasks, hr, h⟩⟩

/-- The description of the profiles. -/
theorem profileInfo_reply (hnet : net.Unconfused)
    (h : (devices (base.transport.targetOf target)).HoldsProfiles info memory) :
    Hoare (Traced devices V base) (getOnboardProfileInfo devices net target)
      fun found s => Traced devices V base s ∧
        (found = none ∧ ¬net.Answers ∨ found = some info ∧ info.profileCount.toNat ≤ 5) := by
  unfold getOnboardProfileInfo
  refine Hoare.bind (featureRequest_reply hnet rfl (Nat.zero_le _) (by decide) (by decide)
    h.present) fun taken => ?_
  refine Hoare.pure fun s ⟨hs, htaken⟩ => ⟨hs, ?_⟩
  rcases htaken with ⟨rfl, hlost⟩ | ⟨r, hasks, -, rfl⟩
  · exact .inl ⟨rfl, hlost⟩
  · have hfound := h.described r hasks
    obtain ⟨_, -, hparse⟩ := Option.bind_eq_some_iff.mp hfound
    exact .inr ⟨hfound, parseOnboardProfileInfo_count hparse⟩

/-- 16 bytes of a sector. -/
theorem sectorBytes_reply (hnet : net.Unconfused) (sector : UInt16) (offset : UInt16)
    (h : (devices (base.transport.targetOf target)).HoldsProfiles info memory) :
    Hoare (Traced devices V base)
      (featureRequest devices net 0x8100 0x50 (sectorParams sector offset) target)
      fun taken s => Traced devices V base s ∧ (taken = none ∧ ¬net.Answers ∨
        taken = some (pieceAt (memory sector) 16 offset.toNat)) := by
  intro s hs
  have hwire : normalizeFunctionId 0x50 = 5 := rfl
  have hparams : (sectorParams sector offset).length ≤ 16 := Nat.le_add_left 4 12
  obtain ⟨hsent, htaken⟩ := featureRequest_reply (V := V) hnet hwire hparams (by decide)
    (by decide) h.present s hs
  refine ⟨hsent, htaken.imp_right ?_⟩
  rintro ⟨r, hasks, hr, htaken⟩
  exact htaken.trans (h.read r sector offset hasks hr)

/-- **A sector** is read on, and nothing is skipped. -/
theorem readSectorFrom_reply (hnet : net.Unconfused) (sector : UInt16) {size : ℕ}
    (hsize : size ≤ 4096)
    (h : (devices (base.transport.targetOf target)).HoldsProfiles info memory) :
    ∀ left offset : ℕ, size - offset ≤ left * 16 → ∀ result : Bytes,
      Hoare (Traced devices V base)
        (readSectorFrom devices net sector size target left offset result)
        fun bytes s => Traced devices V base s ∧ (bytes = none ∧ ¬net.Answers ∨
          bytes = some (result ++ pieceAt (memory sector) (size - offset) offset)) := by
  intro left
  -- on the replies that are left
  induction left with
  | zero =>
      intro offset hleft result
      refine Hoare.pure fun s hs => ⟨hs, .inr ?_⟩
      rw [show size - offset = 0 by omega]
      exact congrArg some (List.append_nil result).symm
  | succ left ih =>
      intro offset hleft result
      unfold readSectorFrom
      split_ifs with hoffset
      · have hread := sectorBytes_reply (V := V) hnet sector (UInt16.ofNat offset) h
        rw [UInt16.toNat_ofNat', Nat.mod_eq_of_lt (by omega)] at hread
        refine Hoare.bind hread fun taken => ?_
        rintro s ⟨hs, ⟨rfl, hlost⟩ | rfl⟩
        · exact ⟨hs, .inl ⟨rfl, hlost⟩⟩
        have hfilter : (some (pieceAt (memory sector) 16 offset)).filter (fun reply =>
            reply ≠ [] ∧ min 16 (size - offset) ≤ reply.length) =
              some (pieceAt (memory sector) 16 offset) := by
          rw [Option.filter_eq_some_iff, decide_eq_true_iff, length_pieceAt]
          exact ⟨rfl, List.cons_ne_nil _ _, Nat.min_le_left _ _⟩
        rw [hfilter]
        dsimp only
        obtain ⟨hrest, hbytes⟩ := ih (offset + 16) (by omega)
          (result ++ (pieceAt (memory sector) 16 offset).take (min 16 (size - offset))) s hs
        refine ⟨hrest, hbytes.imp_right fun h => h.trans (congrArg some ?_)⟩
        rw [take_pieceAt _ offset (Nat.min_le_left _ _), List.append_assoc]
        congr 1
        by_cases hlast : size - offset ≤ 16
        · -- the last reply
          rw [Nat.min_eq_right hlast, show size - (offset + 16) = 0 by omega]
          exact List.append_nil _
        · rw [Nat.min_eq_left (by omega), pieceAt_append]
          congr 1
          omega
      · refine Hoare.pure fun s hs => ⟨hs, .inr ?_⟩
        rw [show size - offset = 0 by omega]
        exact congrArg some (List.append_nil result).symm

/-- What is read of a sector, in any session on the devices. -/
theorem readOnboardProfileSector_reply (hnet : net.Unconfused) (sector : UInt16) (size : ℕ)
    (h : (devices (base.transport.targetOf target)).HoldsProfiles info memory) :
    Hoare (Traced devices V base) (readOnboardProfileSector devices net sector size target)
      fun bytes s => Traced devices V base s ∧
        (bytes = none ∧ ¬(net.Answers ∧ Readable info sector size) ∨
          Readable info sector size ∧ bytes = some (pieceAt (memory sector) size 0)) := by
  unfold readOnboardProfileSector
  refine Hoare.bind (profileInfo_reply hnet h) fun found => ?_
  rintro s ⟨hs, ⟨rfl, hlost⟩ | ⟨rfl, -⟩⟩
  · exact ⟨hs, .inl ⟨rfl, fun hall => hlost hall.1⟩⟩
  dsimp only
  split_ifs with hreadable
  · obtain ⟨hread, hbytes⟩ := readSectorFrom_reply (V := V) hnet sector hreadable.2.2.2.2 h size 0
      (by omega) [] s hs
    refine ⟨hread, hbytes.imp (fun h => ⟨h.1, fun hall => h.2 hall.1⟩) fun h => ⟨hreadable, h⟩⟩
  · exact ⟨hs, .inl ⟨rfl, fun hall => hreadable hall.2⟩⟩

/-- **A directory**: what is listed is what it says, as far as it has been answered. -/
theorem readHeaders_reply (hnet : net.Unconfused) (storage : UInt8) (directory : UInt16)
    (hstorage : ∀ i < 5, [storage, 0, 0, UInt8.ofNat (i * 4)] =
      sectorParams directory (UInt16.ofNat (i * 4)))
    (h : (devices (base.transport.targetOf target)).HoldsProfiles info memory) :
    ∀ left i : ℕ, i + left ≤ 5 → ∀ result : List OnboardProfileHeader,
      Hoare (Traced devices V base)
        (readHeaders devices net info.sectorCount storage target left i result)
        fun headers s => Traced devices V base s ∧
          headers <+: result ++ listed info.sectorCount (memory directory) left i ∧
          (net.Answers →
            headers = result ++ listed info.sectorCount (memory directory) left i) := by
  intro left
  -- on the entries that are left
  induction left with
  | zero =>
      intro i _ result
      refine Hoare.pure fun s hs => ⟨hs, List.prefix_append _ _, fun _ => ?_⟩
      exact (List.append_nil result).symm
  | succ left ih =>
      intro i hi result
      unfold readHeaders
      have hread := sectorBytes_reply (V := V) hnet directory (UInt16.ofNat (i * 4)) h
      rw [← hstorage i (by omega), UInt16.toNat_ofNat', Nat.mod_eq_of_lt (by omega)] at hread
      refine Hoare.bind hread fun taken => ?_
      rintro s ⟨hs, ⟨rfl, hlost⟩ | rfl⟩
      · exact ⟨hs, List.prefix_append _ _, fun hanswers => absurd hanswers hlost⟩
      rw [Option.bind_some]
      unfold listed
      cases parseProfileHeader info.sectorCount i (pieceAt (memory directory) 16 (i * 4)) with
      | none => exact ⟨hs, List.prefix_append _ _, fun _ => (List.append_nil result).symm⟩
      | some header =>
          obtain ⟨hrest, hheaders⟩ := ih (i + 1) (by omega) (result ++ [header]) s hs
          rw [List.append_assoc, List.singleton_append] at hheaders
          exact ⟨hrest, hheaders⟩

/-- The profiles that are listed. -/
theorem getOnboardProfileHeaders_reply (hnet : net.Unconfused)
    (h : (devices (base.transport.targetOf target)).HoldsProfiles info memory) :
    Hoare (Traced devices V base) (getOnboardProfileHeaders devices net target)
      fun headers s => Traced devices V base s ∧
        (∃ directory ∈ [(0 : UInt16), 0x0100], headers <+:
          listed info.sectorCount (memory directory) info.profileCount.toNat 0) ∧
        (net.Answers → headers = profilesOf info memory) := by
  unfold getOnboardProfileHeaders
  refine Hoare.bind (profileInfo_reply hnet h) fun found => ?_
  rintro s ⟨hs, ⟨rfl, hlost⟩ | ⟨rfl, hcount⟩⟩
  · exact ⟨hs, ⟨0, List.mem_cons_self, List.nil_prefix⟩, fun hanswers => absurd hanswers hlost⟩
  dsimp only
  rw [← Nat.zero_add info.profileCount.toNat] at hcount
  obtain ⟨hram, hfirst, hall⟩ := readHeaders_reply (V := V) hnet 0 0 (by decide) h
    info.profileCount.toNat 0 hcount [] s hs
  rw [List.nil_append] at hfirst hall
  rw [bind_apply]
  split_ifs with hnone
  · obtain ⟨hrom, hsecond, hwhole⟩ := readHeaders_reply (V := V) hnet 1 0x0100 (by decide) h
      info.profileCount.toNat 0 hcount [] _ hram
    refine ⟨hrom, ⟨0x0100, List.mem_cons_of_mem _ List.mem_cons_self, hsecond⟩, fun hanswers => ?_⟩
    refine (hwhole hanswers).trans ?_
    rw [profilesOf, if_pos ((hall hanswers).symm.trans hnone), List.nil_append]
  · refine ⟨hram, ⟨0, List.mem_cons_self, hfirst⟩, fun hanswers => ?_⟩
    refine (hall hanswers).trans ?_
    rw [profilesOf, if_neg fun heq => hnone ((hall hanswers).trans heq)]

/-- What is read of a sector is all that was asked for; without a reply nothing is read. -/
theorem sector_read_whole (hnet : net.Unconfused) (hs : s.IndicesSound devices) (sector : UInt16)
    (size : ℕ) (target : UInt8)
    (h : (devices (s.transport.targetOf target)).HoldsProfiles info memory) :
    let read := (readOnboardProfileSector devices net sector size target s).1
    (∀ bytes, read = some bytes →
      Readable info sector size ∧ bytes = pieceAt (memory sector) size 0) ∧
    (net.Answers → Readable info sector size → read.isSome) := by
  obtain ⟨-, hread⟩ := readOnboardProfileSector_reply (V := fun _ _ _ _ => True) hnet sector size
    h s (Traced.refl hs)
  refine ⟨fun bytes hbytes => ?_, fun hanswers hreadable => ?_⟩
  · rcases hread with ⟨hnone, -⟩ | ⟨hreadable, hsome⟩
    · cases hnone.symm.trans hbytes
    · exact ⟨hreadable, Option.some.inj (hbytes.symm.trans hsome)⟩
  · rcases hread with ⟨-, hlost⟩ | ⟨-, hsome⟩
    · exact absurd ⟨hanswers, hreadable⟩ hlost
    · exact Option.isSome_iff_exists.mpr ⟨_, hsome⟩

/-- The profiles that are listed are the first of a directory, and all the device has if it
answers; then the whole of each can be read. -/
theorem profiles_listed (hnet : net.Unconfused) (hs : s.IndicesSound devices) (target : UInt8)
    (h : (devices (s.transport.targetOf target)).HoldsProfiles info memory) :
    let listing := getOnboardProfileHeaders devices net target s
    (∃ directory ∈ [(0 : UInt16), 0x0100],
      listing.1 <+: listed info.sectorCount (memory directory) info.profileCount.toNat 0) ∧
    (net.Answers → listing.1 = profilesOf info memory ∧ ∀ header ∈ listing.1, ∀ size,
      0 < size → size ≤ min 4096 info.profileSize.toNat →
        (readOnboardProfileSector devices net header.sector size target listing.2).1 =
          some (pieceAt (memory header.sector) size 0)) := by
  obtain ⟨hafter, hlisted, hall⟩ := getOnboardProfileHeaders_reply (V := fun _ _ _ _ => True) hnet
    h s (Traced.refl hs)
  refine ⟨hlisted, fun hanswers => ⟨hall hanswers, fun header hmem size hsize hle => ?_⟩⟩
  obtain ⟨directory, -, hfirst⟩ := hlisted
  obtain ⟨hzero, hcount⟩ := listed_sector (hfirst.subset hmem)
  have hreadable : Readable info header.sector size :=
    ⟨hzero, hcount, hsize.ne', hle.trans (Nat.min_le_right _ _), hle.trans (Nat.min_le_left _ _)⟩
  obtain ⟨-, hread⟩ := readOnboardProfileSector_reply (V := fun _ _ _ _ => True) hnet
    header.sector size h _ hafter
  rcases hread with ⟨-, hlost⟩ | ⟨-, hsome⟩
  · exact absurd ⟨hanswers, hreadable⟩ hlost
  · exact hsome

/-! ## A mouse with profiles -/

/-- One profile in RAM, of 20 bytes, behind which the directory ends. -/
def profileMemory (sector : UInt16) : Bytes :=
  if sector = 0 then [0, 1, 1, 0, 0xFF, 0xFF] else if sector = 1 then List.replicate 20 0x50 else []

/-- A mouse that keeps it. -/
def profiledMouse : HidppDevice where
  features := [⟨0x0001, 0, 0⟩, ⟨0x8100, 0, 0⟩]
  other r :=
    if r.asked.function = 0 then [1, 1, 0, 5, 0, 8, 2, 0, 20, 0]
    else pieceAt (profileMemory (readBe16 (byteAt r.params 0) (byteAt r.params 1))) 16
      (readBe16 (byteAt r.params 2) (byteAt r.params 3)).toNat
  length_le := by simp
  id_ne_zero := by simp
  has_featureSet := by simp

theorem profiledMouse_holdsProfiles :
    profiledMouse.HoldsProfiles ⟨1, 1, 0, 5, 0, 8, 2, 20, 0⟩ profileMemory where
  present := Nat.succ_ne_zero 1
  described r hasks := by
    rw [HidppDevice.reply_other hasks.1 (by decide) (by decide), profiledMouse]
    dsimp only
    rw [if_pos hasks.2]
    rfl
  read r sector offset hasks hparams := by
    rw [HidppDevice.reply_other hasks.1 (by decide) (by decide), profiledMouse]
    dsimp only
    rw [if_neg (by rw [hasks.2]; decide), hparams]
    exact congrArg₂ (fun sector offset => some (pieceAt (profileMemory sector) 16 offset.toNat))
      (readBe16_split sector) (readBe16_split offset)

/-- All of the profile is read, in two replies. -/
theorem sector_read_whole_twice :
    (readOnboardProfileSector (fun _ => profiledMouse) answering 1 20 0xFF receiver).1 =
      some (List.replicate 20 0x50) := by
  have hnet : answering.Answers := fun _ => ⟨rfl, rfl⟩
  have hs : receiver.IndicesSound fun _ => profiledMouse := nofun
  obtain ⟨hwhole, hread⟩ := sector_read_whole hnet.unconfused hs 1 20 0xFF
    profiledMouse_holdsProfiles
  obtain ⟨bytes, hbytes⟩ := Option.isSome_iff_exists.mp (hread hnet (by decide))
  obtain ⟨-, heq⟩ := hwhole bytes hbytes
  exact hbytes.trans (congrArg some (heq.trans (by decide)))

/-- It is the one that is listed. -/
theorem profiles_listed_one :
    (getOnboardProfileHeaders (fun _ => profiledMouse) answering 0xFF receiver).1 =
      [⟨1, 1, 1⟩] := by
  have hnet : answering.Answers := fun _ => ⟨rfl, rfl⟩
  have hs : receiver.IndicesSound fun _ => profiledMouse := nofun
  obtain ⟨-, hlisted⟩ := profiles_listed hnet.unconfused hs 0xFF profiledMouse_holdsProfiles
  exact (hlisted hnet).1.trans (by decide)

end FeatureSession
end AbrekMouse
