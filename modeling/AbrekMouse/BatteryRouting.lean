import AbrekMouse.HidppPoll

/-! # Where battery levels come from

A poll changes the battery level of a device for the reply to its own query, or for a
notification from its node, read with its own feature map, that names it; or that names no
device of the node, if the device is the first one there.  A mouse gets the level of such a
device if it is the only one that the device can be (`battery_levels_caused`).
-/
namespace AbrekMouse
open ProgLib

/-- What does not change while a device is known. -/
def HidppDev.identity (d : HidppDev) : HidppDev :=
  { d with batteryLevel := 255, lastBatteryMs := 0, lastDpiCheckMs := 0 }

namespace HidppWorker

/-- The notification names the device, or no device of its node, and it is the first. -/
def Addressed (devs : List HidppDev) (i : ℕ) (d : HidppDev) (n : HidppNotification) : Prop :=
  n.deviceIndex = d.deviceIndex ∨
    (∀ d' ∈ devs, d'.hidrawPath = d.hidrawPath → d'.deviceIndex ≠ n.deviceIndex) ∧
      devs.findIdx? (·.hidrawPath = d.hidrawPath) = some i

/-- The device itself is the source of the reading. -/
def Source (p : HidppWorld) (devs : List HidppDev) (i : ℕ) (d : HidppDev) (b : BatteryInfo) :
    Prop :=
  p.battery d.hidrawPath d.deviceIndex = some b ∨
    ∃ n ∈ p.drained d.hidrawPath, Addressed devs i d n ∧ d.batteryOf p.lights n = some b

/-- The devices and the mice are the same ones, and each new level has its source. -/
structure Caused (p : HidppWorld) (base w : HidppWorker) : Prop where
  devs : w.devs.map HidppDev.identity = base.devs.map HidppDev.identity
  mice : w.mice.map Readings.deviceId = base.mice.map Readings.deviceId
  level : ∀ (i : ℕ) (d d' : HidppDev), base.devs[i]? = some d → w.devs[i]? = some d' →
    d'.batteryLevel = d.batteryLevel ∨
      ∃ b, Source p base.devs i d b ∧ d'.batteryLevel = b.level
  detected : ∀ (j : ℕ) (m m' : Readings), base.mice[j]? = some m → w.mice[j]? = some m' →
    m'.detectedBattery = m.detectedBattery ∨
      ∃ (i : ℕ) (d : HidppDev) (b : BatteryInfo), base.devs[i]? = some d ∧
        Source p base.devs i d b ∧ d.occursIn m = true ∧ base.mice.countP d.occursIn = 1 ∧
        m'.detectedBattery = b.level.toNat

variable {p : HidppWorld} {w w' base : HidppWorker} {i j : ℕ} {d d' : HidppDev}
variable {b : BatteryInfo} {m m' : Readings}

theorem countP_occursIn (d : HidppDev) (mice : List Readings) :
    mice.countP d.occursIn = (mice.map Readings.deviceId).countP fun id => d.key <:+: id := by
  rw [List.countP_map]
  rfl

theorem getElem?_map_eq {α β : Type} {f : α → β} {l l' : List α} {a : α}
    (h : l.map f = l'.map f) (ha : l[i]? = some a) : ∃ a', l'[i]? = some a' ∧ f a' = f a := by
  have hi : (l'.map f)[i]? = some (f a) := by
    rw [← h, List.getElem?_map, ha, Option.map_some]
  rw [List.getElem?_map] at hi
  exact Option.map_eq_some_iff.mp hi

namespace Caused

theorem refl (w : HidppWorker) : Caused p w w where
  devs := rfl
  mice := rfl
  level i d d' hd hd' := .inl (by rw [Option.some.inj (hd.symm.trans hd')])
  detected j m m' hm hm' := .inl (by rw [Option.some.inj (hm.symm.trans hm')])

/-- One more change, with its source. -/
theorem step (h : Caused p base w) (hdevs : w'.devs.map HidppDev.identity =
      w.devs.map HidppDev.identity)
    (hmice : w'.mice.map Readings.deviceId = w.mice.map Readings.deviceId)
    (hlevel : ∀ (i : ℕ) (d d' : HidppDev), w.devs[i]? = some d → w'.devs[i]? = some d' →
      d'.batteryLevel = d.batteryLevel ∨
        ∃ b, Source p base.devs i d b ∧ d'.batteryLevel = b.level)
    (hdetected : ∀ (j : ℕ) (m m' : Readings), w.mice[j]? = some m → w'.mice[j]? = some m' →
      m'.detectedBattery = m.detectedBattery ∨
        ∃ (i : ℕ) (d : HidppDev) (b : BatteryInfo), w.devs[i]? = some d ∧
          Source p base.devs i d b ∧ d.occursIn m = true ∧ w.mice.countP d.occursIn = 1 ∧
          m'.detectedBattery = b.level.toNat) : Caused p base w' where
  devs := hdevs.trans h.devs
  mice := hmice.trans h.mice
  level i d d' hd hd' := by
    obtain ⟨d₁, hd₁, -⟩ := getElem?_map_eq hdevs hd'
    obtain ⟨d₀, hd₀, hid⟩ := getElem?_map_eq h.devs hd₁
    obtain rfl := Option.some.inj (hd₀.symm.trans hd)
    rcases hlevel i d₁ d' hd₁ hd' with heq | ⟨b, hb, heq⟩
    · rw [heq]
      exact h.level i _ d₁ hd hd₁
    · refine .inr ⟨b, ?_, heq⟩
      have hsource : Source p base.devs i d₁.identity b := hb
      rw [← hid] at hsource
      exact hsource
  detected j m m' hm hm' := by
    obtain ⟨m₁, hm₁, -⟩ := getElem?_map_eq hmice hm'
    obtain ⟨m₀, hm₀, hid⟩ := getElem?_map_eq h.mice hm₁
    obtain rfl := Option.some.inj (hm₀.symm.trans hm)
    rcases hdetected j m₁ m' hm₁ hm' with heq | ⟨i, d₁, b, hd₁, hb, hoccurs, hone, heq⟩
    · rw [heq]
      exact h.detected j _ m₁ hm hm₁
    · obtain ⟨d₀, hd₀, hid'⟩ := getElem?_map_eq h.devs hd₁
      have hkey : d₀.identity.key = d₁.identity.key := congrArg HidppDev.key hid'
      have hkey : d₀.key = d₁.key := hkey
      refine .inr ⟨i, d₀, b, hd₀, ?_, ?_, ?_, heq⟩
      · have hsource : Source p base.devs i d₁.identity b := hb
        rw [← hid'] at hsource
        exact hsource
      · unfold HidppDev.occursIn at hoccurs ⊢
        rw [hkey, hid]
        exact hoccurs
      · rw [countP_occursIn] at hone ⊢
        rw [hkey, ← h.mice]
        exact hone

/-- Nothing that counts. -/
theorem of_eq (h : Caused p base w) (hdevs : w'.devs = w.devs) (hmice : w'.mice = w.mice) :
    Caused p base w' := by
  refine h.step (by rw [hdevs]) (by rw [hmice]) ?_ ?_
  · intro i d d' hd hd'
    rw [hdevs] at hd'
    exact .inl (by rw [Option.some.inj (hd.symm.trans hd')])
  · intro j m m' hm hm'
    rw [hmice] at hm'
    exact .inl (by rw [Option.some.inj (hm.symm.trans hm')])

theorem map_modify_identity {devs : List HidppDev} {f : HidppDev → HidppDev}
    (hf : ∀ d, (f d).identity = d.identity) :
    (devs.modify i f).map HidppDev.identity = devs.map HidppDev.identity := by
  refine List.ext_getElem? fun k => ?_
  rw [List.getElem?_map, List.getElem?_map, List.getElem?_modify, Option.map_eq_map,
    Option.map_map]
  congr 1
  funext d
  simp only [Function.comp_apply]
  split_ifs
  · exact hf d
  · rfl

/-- A device keeps what it is and its level. -/
theorem setDev (h : Caused p base w) {f : HidppDev → HidppDev}
    (hid : ∀ d, (f d).identity = d.identity)
    (hlevel : ∀ d, (f d).batteryLevel = d.batteryLevel) : Caused p base (w.setDev i f) := by
  refine h.step (map_modify_identity hid) rfl ?_ ?_
  · intro k d d' hd hd'
    rw [HidppWorker.setDev, List.getElem?_modify, hd] at hd'
    cases hd'
    split_ifs
    · exact .inl (hlevel d)
    · exact .inl rfl
  · intro j m m' hm hm'
    exact .inl (by rw [Option.some.inj (hm.symm.trans hm')])

/-- A reading of the device is kept. -/
theorem reading (h : Caused p base w) (hd : w.devs[i]? = some d) (hid : d'.identity = d.identity)
    (hb : Source p base.devs i d b) :
    Caused p base { w.setDev i fun d => { d with batteryLevel := b.level } with
      mice := applyHidppBattery d' b w.mice } := by
  refine h.step (map_modify_identity fun _ => rfl) ?_ ?_ ?_
  · show (applyHidppBattery d' b w.mice).map Readings.deviceId = _
    unfold applyHidppBattery
    split_ifs
    · rfl
    · rw [List.map_map]
      refine List.map_congr_left fun m _ => ?_
      simp only [Function.comp_apply]
      split_ifs
      · rfl
      · rfl
    · rfl
  · intro k d₁ d₂ hd₁ hd₂
    rw [HidppWorker.setDev, List.getElem?_modify, hd₁] at hd₂
    cases hd₂
    split_ifs with hk
    · subst hk
      obtain rfl := Option.some.inj (hd.symm.trans hd₁)
      exact .inr ⟨b, hb, rfl⟩
    · exact .inl rfl
  · intro j m m' hm hm'
    have hkey : d'.identity.key = d.identity.key := congrArg HidppDev.key hid
    have hoccursIn : d'.occursIn = d.occursIn := by
      funext m
      unfold HidppDev.occursIn
      rw [show d'.key = d.key from hkey]
    replace hm' : (applyHidppBattery d' b w.mice)[j]? = some m' := hm'
    unfold applyHidppBattery at hm'
    rw [hoccursIn] at hm'
    split_ifs at hm' with hknown hone
    · exact .inl (by rw [Option.some.inj (hm.symm.trans hm')])
    · rw [List.getElem?_map, hm] at hm'
      cases hm'
      dsimp only
      split_ifs with hoccurs
      · exact .inr ⟨i, d, b, hd, hb, hoccurs, hone, rfl⟩
      · exact .inl rfl
    · exact .inl (by rw [Option.some.inj (hm.symm.trans hm')])

/-- A DPI is kept, and no battery level. -/
theorem dpi (h : Caused p base w) (d : HidppDev) (dpi : UInt16) :
    Caused p base { w with mice := applyHidppDpi d dpi w.mice } := by
  have hkeeps : ∀ m : Readings,
      (if d.occursIn m then { m with dpi := dpi.toNat, detectedDpi := dpi.toNat }
        else m).deviceId = m.deviceId ∧
      (if d.occursIn m then { m with dpi := dpi.toNat, detectedDpi := dpi.toNat }
        else m).detectedBattery = m.detectedBattery := by
    intro m
    split_ifs
    · exact ⟨rfl, rfl⟩
    · exact ⟨rfl, rfl⟩
  refine h.step rfl ?_ ?_ ?_
  · show (applyHidppDpi d dpi w.mice).map Readings.deviceId = _
    unfold applyHidppDpi
    split_ifs
    · rfl
    · rw [List.map_map]
      exact List.map_congr_left fun m _ => (hkeeps m).1
  · intro k d₁ d₂ hd₁ hd₂
    exact .inl (by rw [Option.some.inj (hd₁.symm.trans hd₂)])
  · intro j m m' hm hm'
    replace hm' : (applyHidppDpi d dpi w.mice)[j]? = some m' := hm'
    unfold applyHidppDpi at hm'
    split_ifs at hm'
    · exact .inl (by rw [Option.some.inj (hm.symm.trans hm')])
    · rw [List.getElem?_map, hm] at hm'
      cases hm'
      exact .inl (hkeeps m).2

/-! ## The steps of a poll -/

theorem foldl {α : Type} {f : HidppWorker → α → HidppWorker} {l : List α}
    (hf : ∀ w, ∀ a ∈ l, Caused p base w → Caused p base (f w a)) :
    ∀ {w : HidppWorker}, Caused p base w → Caused p base (l.foldl f w) := by
  induction l with
  | nil => exact id
  | cons a l ih =>
      intro w h
      exact ih (fun w a ha => hf w a (List.mem_cons_of_mem _ ha))
        (hf w a (List.mem_cons_self ..) h)

theorem queryBattery (h : Caused p base w) (hd : w.devs[i]? = some d) :
    Caused p base (w.queryBattery p i d) := by
  unfold HidppWorker.queryBattery
  split_ifs
  · exact h
  have hdue : Caused p base (w.setDev i fun d => { d with lastBatteryMs := p.now }) :=
    h.setDev (fun _ => rfl) fun _ => rfl
  dsimp only
  split
  · exact hdue
  · rename_i b hb
    have hd' : (w.setDev i fun d => { d with lastBatteryMs := p.now }).devs[i]? =
        some { d with lastBatteryMs := p.now } := by
      rw [HidppWorker.setDev, List.getElem?_modify_eq, hd]
      rfl
    exact hdue.reading hd' rfl (.inl hb)

theorem queryDpi (h : Caused p base w) (d : HidppDev) :
    Caused p base (w.queryDpi p i d) := by
  unfold HidppWorker.queryDpi
  split_ifs
  · exact h
  have hdue : Caused p base (w.setDev i fun d => { d with lastDpiCheckMs := p.now }) :=
    h.setDev (fun _ => rfl) fun _ => rfl
  dsimp only
  split
  · exact hdue
  · exact hdue.dpi d _

theorem queryDevice (h : Caused p base w) (i : ℕ) : Caused p base (w.queryDevice p i) := by
  unfold HidppWorker.queryDevice
  split
  · exact h
  rename_i d hd
  have hopened : Caused p base (w.openTransport p d.hidrawPath) := by
    unfold HidppWorker.openTransport
    split_ifs
    · exact h
    · exact h.of_eq rfl rfl
  have hd' : (w.openTransport p d.hidrawPath).devs[i]? = some d := by
    unfold HidppWorker.openTransport
    split_ifs
    · exact hd
    · exact hd
  dsimp only
  split_ifs
  · exact (hopened.queryBattery hd').queryDpi d
  · exact hopened

/-- The device that a notification goes to is addressed by it. -/
theorem addressed_of_targetOf {path : Bytes} {n : HidppNotification}
    (h : targetOf w.devs path n = some i) (hd : w.devs[i]? = some d) :
    d.hidrawPath = path ∧ Addressed w.devs i d n := by
  unfold targetOf at h
  split at h
  · rename_i k hk
    cases h
    obtain ⟨hlt, hmatch, -⟩ := List.findIdx?_eq_some_iff_getElem.mp hk
    obtain rfl := Option.some.inj ((List.getElem?_eq_getElem hlt).symm.trans hd)
    simp only [Bool.and_eq_true, decide_eq_true_eq] at hmatch
    exact ⟨hmatch.1, .inl hmatch.2.symm⟩
  · -- none of the node's devices has the index, and the first one is taken
    rename_i hnone
    obtain ⟨hlt, hpath, -⟩ := List.findIdx?_eq_some_iff_getElem.mp h
    obtain rfl := Option.some.inj ((List.getElem?_eq_getElem hlt).symm.trans hd)
    have hpath : w.devs[i].hidrawPath = path := of_decide_eq_true hpath
    refine ⟨hpath, .inr ⟨fun d' hd' hpath' hindex => ?_, by rw [hpath]; exact h⟩⟩
    have hno := List.findIdx?_eq_none_iff.mp hnone d' hd'
    simp [hpath'.trans hpath, hindex] at hno

/-- Whom a notification addresses does not depend on levels and times. -/
theorem addressed_congr {devs devs' : List HidppDev} {n : HidppNotification}
    (hdevs : devs.map HidppDev.identity = devs'.map HidppDev.identity)
    (h : Addressed devs i d n) : Addressed devs' i d n := by
  refine h.imp_right fun ⟨hnone, hfirst⟩ => ⟨fun d' hd' hpath => ?_, ?_⟩
  · obtain ⟨k, hk⟩ := List.mem_iff_getElem?.mp hd'
    obtain ⟨d₁, hd₁, hid⟩ := getElem?_map_eq hdevs.symm hk
    have hpath₁ : d₁.identity.hidrawPath = d'.identity.hidrawPath :=
      congrArg HidppDev.hidrawPath hid
    have hindex : d₁.identity.deviceIndex = d'.identity.deviceIndex :=
      congrArg HidppDev.deviceIndex hid
    have hne := hnone d₁ (List.mem_of_getElem? hd₁) (hpath₁.trans hpath)
    exact fun heq => hne (hindex.trans heq)
  · have hmap : ∀ devs : List HidppDev, devs.findIdx? (·.hidrawPath = d.hidrawPath) =
        (devs.map HidppDev.identity).findIdx? (·.hidrawPath = d.hidrawPath) := by
      intro devs
      rw [List.findIdx?_map]
      rfl
    rw [hmap, ← hdevs, ← hmap, hfirst]

theorem handle (h : Caused p base w) {path : Bytes} {n : HidppNotification}
    (hn : n ∈ p.drained path) : Caused p base (w.handle p path n) := by
  unfold HidppWorker.handle
  split
  · exact h
  rename_i k d hfound
  obtain ⟨i, htarget, hat⟩ := Option.bind_eq_some_iff.mp hfound
  obtain ⟨d₁, hd, hpair⟩ := Option.map_eq_some_iff.mp hat
  obtain ⟨rfl, rfl⟩ := Prod.mk.inj hpair
  obtain ⟨rfl, haddressed⟩ := addressed_of_targetOf htarget hd
  split
  · exact h
  · rename_i b hb
    exact h.reading hd rfl (.inr ⟨n, hn, addressed_congr h.devs haddressed, hb⟩)

theorem drain (h : Caused p base w) : Caused p base (w.drain p) := by
  refine h.foldl fun w path _ h => ?_
  unfold HidppWorker.drainPath
  split_ifs
  · exact h.foldl fun w n hn h => h.handle hn
  · exact h

end Caused

/-! ## The poll -/

theorem poll_caused (p : HidppWorld) (w : HidppWorker) : Caused p (w.rescan p) (w.poll p) := by
  unfold poll
  dsimp only
  split_ifs
  · exact .refl _
  · have h : Caused p (w.rescan p) { w.rescan p with drainMs := p.now + 1000 } :=
      (Caused.refl _).of_eq rfl rfl
    refine Caused.drain ?_
    exact h.foldl fun w i _ h => h.queryDevice i

/-- A rescan takes devices out and adds new ones. -/
theorem rescan_devs (p : HidppWorld) (w : HidppWorker) : (w.rescan p).mice = w.mice ∧
    ∃ kept new, (w.rescan p).devs = kept ++ new ∧ kept.Sublist w.devs ∧
      ∀ d ∈ new, ∃ path ∈ p.paths, d ∈ p.identify path := by
  -- on the paths: each adds what it was identified as, behind the devices there were
  have hfold : ∀ (paths : List Bytes) (v : HidppWorker),
      (paths.foldl (identifyPath p) v).mice = v.mice ∧
        ∃ new, (paths.foldl (identifyPath p) v).devs = v.devs ++ new ∧
          ∀ d ∈ new, ∃ path ∈ paths, d ∈ p.identify path := by
    intro paths
    induction paths with
    | nil => exact fun v => ⟨rfl, [], (List.append_nil _).symm, nofun⟩
    | cons path paths ih =>
        intro v
        obtain ⟨hmice, new, hdevs, hnew⟩ := ih (identifyPath p v path)
        have hpath : (identifyPath p v path).mice = v.mice ∧
            ∃ found, (identifyPath p v path).devs = v.devs ++ found ∧
              ∀ d ∈ found, d ∈ p.identify path := by
          unfold identifyPath
          split_ifs
          · exact ⟨rfl, [], (List.append_nil _).symm, nofun⟩
          · exact ⟨rfl, [], (List.append_nil _).symm, nofun⟩
          dsimp only
          split_ifs
          · exact ⟨rfl, [], (List.append_nil _).symm, nofun⟩
          · exact ⟨rfl, _, rfl, fun d hd => (List.mem_filter.mp hd).1⟩
        obtain ⟨hmice', found, hdevs', hfound⟩ := hpath
        refine ⟨hmice.trans hmice', found ++ new, ?_, fun d hd => ?_⟩
        · rw [List.foldl_cons, hdevs, hdevs', List.append_assoc]
        · rcases List.mem_append.mp hd with hd | hd
          · exact ⟨path, List.mem_cons_self .., hfound d hd⟩
          · obtain ⟨path', hpath', hd'⟩ := hnew d hd
            exact ⟨path', List.mem_cons_of_mem _ hpath', hd'⟩
  unfold rescan
  split_ifs
  · exact ⟨rfl, w.devs, [], (List.append_nil _).symm, List.Sublist.refl _, nofun⟩
  · obtain ⟨hmice, new, hdevs, hnew⟩ :=
      hfold p.paths { w.forgetGone p with rescanMs := p.now + 2000 }
    exact ⟨hmice, _, new, hdevs, List.filter_sublist, hnew⟩

/-- **Every battery level has its source**: a rescan only takes devices out and adds new
ones; then a device, and a mouse through it, has a new level only if the device has answered
its own query or is addressed by a notification from its node. -/
theorem battery_levels_caused (p : HidppWorld) (w : HidppWorker) :
    ((w.rescan p).mice = w.mice ∧ ∃ kept new, (w.rescan p).devs = kept ++ new ∧
      kept.Sublist w.devs ∧ ∀ d ∈ new, ∃ path ∈ p.paths, d ∈ p.identify path) ∧
    (∀ (i : ℕ) (d d' : HidppDev), (w.rescan p).devs[i]? = some d →
      (w.poll p).devs[i]? = some d' → d'.batteryLevel ≠ d.batteryLevel →
      ∃ b, Source p (w.rescan p).devs i d b ∧ d'.batteryLevel = b.level) ∧
    ∀ (j : ℕ) (m m' : Readings), (w.rescan p).mice[j]? = some m → (w.poll p).mice[j]? = some m' →
      m'.detectedBattery ≠ m.detectedBattery →
      ∃ (i : ℕ) (d : HidppDev) (b : BatteryInfo), (w.rescan p).devs[i]? = some d ∧
        Source p (w.rescan p).devs i d b ∧ d.occursIn m = true ∧
        m'.detectedBattery = b.level.toNat := by
  have h := poll_caused p w
  refine ⟨rescan_devs p w, fun i d d' hd hd' hne => ?_, fun j m m' hm hm' hne => ?_⟩
  · exact (h.level i d d' hd hd').resolve_left hne
  · obtain ⟨i, d, b, hd, hb, hoccurs, -, hlevel⟩ := (h.detected j m m' hm hm').resolve_left hne
    exact ⟨i, d, b, hd, hb, hoccurs, hlevel⟩

/-- A receiver with one mouse that is known, in the middle of a discovery interval. -/
def receiverWorker : HidppWorker :=
  { devs := [{ serialDev with features := [(0x1000, 3)] }]
    transports := [(serialDev.hidrawPath, 0)]
    opened := 1
    rescanMs := 3000
    mice := [{ deviceId := bytes "usb:046d:407f:4f2a" }] }

/-- A battery notification, 75 percent, from the device with the index. -/
def levelNotification (index : UInt8) : HidppNotification :=
  { reportId := 0x11
    deviceIndex := index
    subId := 3
    address := 0
    featureIndex := 3
    type := .hidpp20
    payload := [75, 0, 0] }

/-- A poll that asks nothing and finds the notification. -/
def notified (index : UInt8) : HidppWorld where
  now := 2000
  paths := [serialDev.hidrawPath]
  identify _ := []
  alive _ := true
  opens _ := true
  battery _ _ := none
  dpi _ _ := none
  drainable _ := true
  drained _ := [levelNotification index]
  lights := []

theorem battery_levels_caused_named :
    ∃ (i : ℕ) (d : HidppDev) (b : BatteryInfo),
      (receiverWorker.rescan (notified 1)).devs[i]? = some d ∧
        Source (notified 1) (receiverWorker.rescan (notified 1)).devs i d b ∧
        d.occursIn { deviceId := bytes "usb:046d:407f:4f2a" } = true ∧ (75 : ℤ) = b.level.toNat :=
  (battery_levels_caused (notified 1) receiverWorker).2.2 0
    { deviceId := bytes "usb:046d:407f:4f2a" }
    { deviceId := bytes "usb:046d:407f:4f2a", detectedBattery := 75 } (by decide +kernel)
    (by decide +kernel) (by decide)

/-- A mouse that has been paired since is not known, and its level is painted on the other. -/
theorem unknown_index_painted : ¬∀ (p : HidppWorld) (w : HidppWorker) (i : ℕ) (d d' : HidppDev),
    (w.rescan p).devs[i]? = some d → (w.poll p).devs[i]? = some d' →
    d'.batteryLevel ≠ d.batteryLevel →
    ∃ n ∈ p.drained d.hidrawPath, n.deviceIndex = d.deviceIndex ∨ n.deviceIndex = 0xFF := by
  intro hall
  obtain ⟨d, hd⟩ : ∃ d, receiverWorker.devs[0]? = some d := ⟨_, rfl⟩
  have hpoll : (receiverWorker.poll (notified 2)).devs[0]?.map HidppDev.batteryLevel =
      some 75 := by decide +kernel
  obtain ⟨d', hd', hlevel⟩ := Option.map_eq_some_iff.mp hpoll
  cases hd
  obtain ⟨n, hn, hindex⟩ := hall (notified 2) receiverWorker 0 _ d' rfl hd' (by
    rw [hlevel]
    decide)
  obtain rfl := List.mem_singleton.mp hn
  revert hindex
  decide

end HidppWorker
end AbrekMouse
