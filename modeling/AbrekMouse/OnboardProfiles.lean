import AbrekMouse.HardwareSettings
import AbrekMouse.Enumeration

/-! # The onboard profiles at shutdown

A write switches the onboard profiles of its target off, for each target in turn; one flag
for the transport remembers that some are off.  At shutdown they are switched on again, in
`stop` and once more when the transport goes, for the target that the transport stands for
at that time.  So they come back everywhere exactly if that is the only target that has been
written to (`onboardProfiles_given_back_iff`).
-/
namespace AbrekMouse
open ProgLib

namespace FeatureSession
variable {devices : UInt8 → HidppDevice} {net net' : Network} {s t : FeatureSession}
variable {target : UInt8} {id : UInt16}

/-! ## Runs -/

/-- The calls of the library that write a setting, ask for features, or forget them. -/
inductive SettingStep
  | setDpi (dpi : UInt16) (target : UInt8) (net : Network)
  | setPollingRate (hz : UInt32) (target : UInt8) (net : Network)
  | setLiftOffDistance (distance target : UInt8) (net : Network)
  | ask (q : FeatureQuery) (net : Network)
  | setDeviceIndex (idx : UInt8)
  | clearFeatureCache

/-- The session after such a call. -/
def setting (devices : UInt8 → HidppDevice) (s : FeatureSession) : SettingStep → FeatureSession
  | .setDpi dpi target net => (setDpi devices net dpi target s).2
  | .setPollingRate hz target net => (setPollingRate devices net hz target s).2
  | .setLiftOffDistance distance target net =>
      (setLiftOffDistance devices net distance target s).2
  | .ask q net => ask devices net q s
  | .setDeviceIndex idx => s.setDeviceIndex idx
  | .clearFeatureCache => s.clearFeatureCache

/-- The runs of a session with such calls. -/
def settingMachine (devices : UInt8 → HidppDevice) : Machine FeatureSession SettingStep where
  Start := New
  step s l := some (setting devices s l)

/-- The onboard profiles come back: after `stop` and the end of the transport they are on
wherever they have been switched off, and neither restore succeeds before that. -/
def GivenBack (devices : UInt8 → HidppDevice) (net net' : Network) (s : FeatureSession) : Prop :=
  let stopped := restoreOnboardProfiles devices net 0xFF s
  let closed := restoreOnboardProfiles devices net' 0xFF stopped.2
  (∀ target ∈ s.disabled, target ∈ closed.2.restored) ∧
    (stopped.1 = true → ∀ target ∈ s.disabled, target ∈ stopped.2.restored) ∧
    (closed.1 = true → ∀ target ∈ s.disabled, target ∈ closed.2.restored)

/-! ## The flag -/

/-- The flag is up if onboard profiles have been switched off, and none have come back. -/
structure FlagTells (s : FeatureSession) : Prop where
  flag : s.onboardProfilesDisabledByUs = true ↔ s.disabled ≠ []
  restored : s.restored = []

theorem FlagTells.of_extends {P : Exchange → Prop} (hs : s.FlagTells) (h : Extends P s t) :
    t.FlagTells :=
  ⟨by rw [h.onboard, h.disabled]; exact hs.flag, h.restored.trans hs.restored⟩

theorem FlagTells.markDisabled (hs : s.FlagTells) : (markDisabled target s).2.FlagTells :=
  ⟨by simp [FeatureSession.markDisabled, modify_apply], hs.restored⟩

theorem flagTells_frame (devices : UInt8 → HidppDevice) (net : Network) :
    Frame devices net fun s t => s.FlagTells → t.FlagTells where
  refl _ hs := hs
  trans hst htu hs := htu (hst hs)
  send _ _ _ _ s hs :=
    hs.of_extends ((grows_frame devices net).send _ _ _ _ s)
  timeUp s hs := hs.of_extends ((grows_frame devices net).timeUp s)
  cache _ _ _ s hs := hs.of_extends ((grows_frame devices net).cache _ _ _ s)

theorem disableOnboardProfilesForWrite_flagTells (hs : s.FlagTells) :
    (disableOnboardProfilesForWrite devices net target s).2.FlagTells := by
  have hR := flagTells_frame devices net
  suffices h : Keeps (fun s t => s.FlagTells → t.FlagTells)
      (disableOnboardProfilesForWrite devices net target) from h s hs
  unfold disableOnboardProfilesForWrite
  refine hR.seq hR.read fun s => ?_
  dsimp only
  refine hR.seq (hR.resolveFeatureIndex _ _) fun index => ?_
  split
  · exact hR.ret _
  refine hR.seq (hR.send _ _ _ _) fun reply => ?_
  split
  · refine hR.seq (hR.send _ _ _ _) fun written => ?_
    split
    · exact hR.seq (fun _ hs => hs.markDisabled) fun _ => hR.ret _
    · exact hR.ret _
  · exact hR.ret _

theorem setting_flagTells {l : SettingStep} (hs : s.FlagTells) :
    (setting devices s l).FlagTells := by
  cases l with
  | setDpi dpi target net =>
      exact (flagTells_frame devices net).setDpi dpi s (disableOnboardProfilesForWrite_flagTells hs)
  | setPollingRate hz target net =>
      exact (flagTells_frame devices net).setPollingRate hz s
        (disableOnboardProfilesForWrite_flagTells hs)
  | setLiftOffDistance distance target net =>
      exact (flagTells_frame devices net).setLiftOffDistance distance s
        (disableOnboardProfilesForWrite_flagTells hs)
  | ask q net => exact hs.of_extends (ask_extends yields_true q s)
  | setDeviceIndex idx => exact ⟨hs.flag, hs.restored⟩
  | clearFeatureCache => exact ⟨hs.flag, hs.restored⟩

theorem flagTells_reachable (h : (settingMachine devices).Reachable s) : s.FlagTells := by
  refine h.invariant ?_ ?_
  · rintro s ⟨t, _, _, rfl⟩
    exact ⟨by simp, rfl⟩
  · intro s l t hs _ hstep
    cases hstep
    exact setting_flagTells hs

/-! ## The restore -/

/-- The index of a feature is known, or the device reports one. -/
def Resolves (devices : UInt8 → HidppDevice) (s : FeatureSession) (target : UInt8)
    (id : UInt16) : Prop :=
  s.featureIndices (target, id) ≠ none ∨ (devices target).indexOf id ≠ 0

theorem resolveFeatureIndex_isSome_iff (devices : UInt8 → HidppDevice) (s : FeatureSession)
    (target : UInt8) (id : UInt16) (hnet : net.Answers) (hid : id ≠ 0) :
    (resolveFeatureIndex devices net id target s).1.isSome ↔
      s.Resolves devices (s.transport.targetOf target) id := by
  unfold resolveFeatureIndex Resolves
  rw [if_neg hid]
  simp only [bind_apply, get_apply]
  cases hcached : s.featureIndices (s.transport.targetOf target, id) with
  | some index => simp [pure_apply]
  | none =>
      simp only [bind_apply]
      obtain ⟨r, hsent⟩ := sendFeatureRequest_sent devices net s 0 0
        [(id >>> 8).toUInt8, id.toUInt8, 0] target 0 (by decide) (Nat.le_add_left 3 13)
      have htaken := hsent.taken_of_answered le_rfl
        (answeredFrom_of_extends (sendFeatureRequest_extends (yields_answered hnet) s))
      rw [HidppDevice.reply_getFeature id hsent.feature hsent.function hsent.params] at htaken
      simp only [htaken, ne_eq, not_true_eq_false, false_or]
      rw [← HidppDevice.ofNat_indexOf_eq_zero]
      split_ifs with hzero
      · simp [pure_apply, hzero]
      · simp [bind_apply, pure_apply, hzero]

theorem restore_reply {d : HidppDevice} {r : FeatureRequest} (hfunction : r.asked.function = 1)
    (hparams : r.params = [0x01]) : ∃ payload, d.reply r = some payload := by
  have hone : (1 : UInt8) ≠ 0 := by decide
  have hbyte : byteAt r.params 0 = 1 := by
    rw [hparams]
    rfl
  unfold HidppDevice.reply
  rw [if_neg (by rw [hfunction]; exact fun h => hone h.2),
    if_neg (by rw [hfunction]; exact fun h => hone h.2), hbyte, if_neg hone]
  split_ifs
  · obtain ⟨f, hf, _⟩ := d.has_featureSet
    have hpos : 0 < d.features.length := List.length_pos_of_mem hf
    exact ⟨_, congrArg (Option.map _) (List.getElem?_eq_getElem hpos)⟩
  · exact ⟨_, rfl⟩

theorem restoreOnboardProfiles_idle (devices : UInt8 → HidppDevice) (net : Network)
    (target : UInt8) (hflag : s.onboardProfilesDisabledByUs = false) :
    restoreOnboardProfiles devices net target s = (true, s) := by
  unfold restoreOnboardProfiles
  rw [bind_apply, get_apply, if_neg (by simp [hflag])]
  rfl

/-- Without an index there is nothing to restore. -/
theorem restoreOnboardProfiles_unresolved (target : UInt8) (hnet : net.Answers)
    (hflag : s.onboardProfilesDisabledByUs = true)
    (h : ¬s.Resolves devices (s.transport.targetOf target) 0x8100) :
    (restoreOnboardProfiles devices net target s).1 = true ∧
      (restoreOnboardProfiles devices net target s).2.restored = s.restored := by
  unfold restoreOnboardProfiles
  rw [bind_apply, get_apply, if_pos hflag]
  simp only [bind_apply]
  have hextends := (grows_frame devices net).resolveFeatureIndex 0x8100
    (s.transport.targetOf target) s
  have hresolve := (resolveFeatureIndex_isSome_iff devices s (s.transport.targetOf target) 0x8100
    hnet (by decide)).not.mpr
    (by rwa [targetOf_targetOf])
  cases hindex : (resolveFeatureIndex devices net 0x8100 (s.transport.targetOf target) s).1 with
  | some index => exact absurd (by rw [hindex]; rfl) hresolve
  | none => exact ⟨rfl, hextends.restored⟩

/-- With one, the profiles of the target are switched on. -/
theorem restoreOnboardProfiles_resolved (target : UInt8) (hnet : net.Answers)
    (hflag : s.onboardProfilesDisabledByUs = true)
    (h : s.Resolves devices (s.transport.targetOf target) 0x8100) :
    (restoreOnboardProfiles devices net target s).1 = true ∧
      (restoreOnboardProfiles devices net target s).2.restored =
        s.restored ++ [s.transport.targetOf target] ∧
      (restoreOnboardProfiles devices net target s).2.onboardProfilesDisabledByUs = false := by
  unfold restoreOnboardProfiles
  rw [bind_apply, get_apply, if_pos hflag]
  simp only [bind_apply]
  have hextends := (grows_frame devices net).resolveFeatureIndex 0x8100
    (s.transport.targetOf target) s
  have hresolve := (resolveFeatureIndex_isSome_iff devices s (s.transport.targetOf target) 0x8100
    hnet (by decide)).mpr (by rwa [targetOf_targetOf])
  obtain ⟨index, hindex⟩ := Option.isSome_iff_exists.mp hresolve
  simp only [hindex, bind_apply]
  generalize (resolveFeatureIndex devices net 0x8100 (s.transport.targetOf target) s).2 = u
    at hextends ⊢
  obtain ⟨r, hsent⟩ := sendFeatureRequest_sent devices net u index 0x10 [0x01]
    (s.transport.targetOf target) 1 (by decide) (by decide)
  have htaken := hsent.taken_of_answered le_rfl
    (answeredFrom_of_extends (sendFeatureRequest_extends (yields_answered hnet) u))
  obtain ⟨payload, hpayload⟩ := restore_reply hsent.function hsent.params
    (d := devices (u.transport.targetOf (s.transport.targetOf target)))
  rw [hpayload] at htaken
  simp only [htaken]
  have hrestored := ((grows_frame devices net).send index 0x10 [0x01]
    (s.transport.targetOf target) u).restored
  refine ⟨rfl, ?_, rfl⟩
  exact congrArg (· ++ [_]) (hrestored.trans hextends.restored)

/-! ## What comes back -/

/-- **Onboard mode is given back exactly if the only device that it was taken from is the
one that the transport stands for at shutdown**, and that device still has the profiles
somewhere. -/
theorem onboardProfiles_given_back_iff (h : (settingMachine devices).Reachable s)
    (hnet : net.Answers) : GivenBack devices net net' s ↔
      ∀ target ∈ s.disabled,
        target = s.transport.deviceIndex ∧ s.Resolves devices target 0x8100 := by
  have hs := flagTells_reachable h
  have hdefault : s.transport.targetOf 0xFF = s.transport.deviceIndex := if_neg (by simp)
  -- the flag is down only if nothing has been switched off
  cases hflag : s.onboardProfilesDisabledByUs with
  | false =>
      have hnone : s.disabled = [] := by
        by_contra hsome
        rw [hs.flag.mpr hsome] at hflag
        cases hflag
      simp [GivenBack, hnone]
  | true =>
      have hsome := hs.flag.mp hflag
      obtain ⟨first, hfirst⟩ := List.exists_mem_of_ne_nil _ hsome
      -- both restores go to the default device, whoever has been written to
      by_cases hresolves : s.Resolves devices s.transport.deviceIndex 0x8100
      · obtain ⟨hok, hrestored, hdown⟩ := restoreOnboardProfiles_resolved 0xFF hnet
          hflag (by rwa [hdefault])
        rw [hs.restored, hdefault, List.nil_append] at hrestored
        -- the first one takes the flag down, and the second does nothing
        have hclosed := restoreOnboardProfiles_idle devices net' 0xFF hdown
        simp only [GivenBack, hclosed, hrestored, List.mem_singleton]
        constructor
        · intro hback target htarget
          have heq := hback.1 target htarget
          exact ⟨heq, heq ▸ hresolves⟩
        · intro hback
          exact ⟨fun t ht => (hback t ht).1, fun _ t ht => (hback t ht).1,
            fun _ t ht => (hback t ht).1⟩
      · -- the restore says yes without having restored anything
        obtain ⟨hok, hrestored⟩ := restoreOnboardProfiles_unresolved 0xFF hnet
          hflag (by rwa [hdefault])
        constructor
        · intro hback
          have hmem := hback.2.1 hok first hfirst
          rw [hrestored, hs.restored] at hmem
          cases hmem
        · intro hback
          obtain ⟨heq, hfound⟩ := hback first hfirst
          exact absurd (heq ▸ hfound) hresolves

/-! ## Two mice -/

/-- A mouse in onboard mode, with report rates. -/
def gamingMouse : HidppDevice where
  features := [⟨0x0001, 0, 0⟩, ⟨0x8100, 0, 0⟩, ⟨0x8060, 0, 0⟩]
  other _ := [0x01]
  length_le := by decide
  id_ne_zero := by simp
  has_featureSet := by simp

/-- The transport stands for the mouse with the index 1. -/
def receiver : FeatureSession := { transport := { nextSwId := 1, deviceIndex := 1 } }

/-- A rate for the mouse that the transport stands for. -/
def oneWritten : FeatureSession :=
  receiver.setting (fun _ => gamingMouse) (.setPollingRate 1000 0xFF answering)

/-- And one for another mouse. -/
def bothWritten : FeatureSession :=
  oneWritten.setting (fun _ => gamingMouse) (.setPollingRate 1000 2 answering)

theorem onboardProfiles_given_back_one :
    GivenBack (fun _ => gamingMouse) answering answering oneWritten := by
  have hdisabled : oneWritten.disabled = [1] := by decide +kernel
  have hindex : oneWritten.transport.deviceIndex = 1 := by decide +kernel
  have hrun : (settingMachine fun _ => gamingMouse).Reachable oneWritten :=
    .step (l := .setPollingRate 1000 0xFF answering) (.start ⟨_, by decide, by decide, rfl⟩)
      trivial rfl
  refine (onboardProfiles_given_back_iff hrun fun _ => ⟨rfl, rfl⟩).mpr fun target htarget => ?_
  rw [hdisabled, List.mem_singleton] at htarget
  subst htarget
  exact ⟨hindex.symm, .inr (by decide +kernel)⟩

/-- The other mouse stays in host mode, though both restores succeed. -/
theorem second_mouse_stays_disabled :
    ∃ s, (settingMachine fun _ => gamingMouse).Reachable s ∧ answering.Answers ∧
      ¬GivenBack (fun _ => gamingMouse) answering answering s := by
  refine ⟨bothWritten, .step (l := .setPollingRate 1000 2 answering)
    (.step (l := .setPollingRate 1000 0xFF answering) (.start ⟨_, by decide, by decide, rfl⟩)
      trivial rfl) trivial rfl, fun _ => ⟨rfl, rfl⟩, ?_⟩
  rintro ⟨hback, _, _⟩
  have hdisabled : (2 : UInt8) ∈ bothWritten.disabled := by decide +kernel
  have hrestored := hback 2 hdisabled
  revert hrestored
  decide +kernel

end FeatureSession
end AbrekMouse
