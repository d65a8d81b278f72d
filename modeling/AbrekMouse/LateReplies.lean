import AbrekMouse.BatteryRouting
import AbrekMouse.Correlation
import AbrekMouse.Notifications
import Mathlib.Data.Nat.Bitwise

/-! # Late replies and notifications

A reply to a HID++ 2.0 request is no notification as long as the index of its feature is
below 0x40 and it has none of the two old forms, which are known by the index and not by the
software id.  As long as the answers that arrive are such replies or errors, nothing that a
drain hands out answers a request of this host (`late_replies_are_no_notifications`).
-/
namespace AbrekMouse
open ProgLib

/-- A reply to a HID++ 2.0 request, by what of it the packet formats fix. -/
structure ReplyFrame (form : PacketForm) (data : Bytes) : Prop where
  length : data.length = form.size
  reportId : byteAt data 0 = form.reportId
  feature : 1 ≤ byteAt data 2 ∧ byteAt data 2 ≤ 0x7F
  softwareId : byteAt data 3 &&& 0x0F ≠ 0

/-- The index of the feature is no sub-id of HID++ 1.0, and the report has no old form. -/
def Apart (data : Bytes) : Prop :=
  byteAt data 2 < 0x40 ∧
    ¬((byteAt data 2 = 0x07 ∨ byteAt data 2 = 0x0D) ∧ data.length = 7 ∧ byteAt data 6 = 0) ∧
    ¬(byteAt data 2 = 0x17 ∧ data.length = 7)

instance (data : Bytes) : Decidable (Apart data) := inferInstanceAs (Decidable (_ ∧ _ ∧ _))

/-- A report with a software id that is set apart is no notification. -/
theorem fromBytes_of_apart {data : Bytes} (hid : byteAt data 3 &&& 0x0F ≠ 0) (h : Apart data) :
    HidppNotification.fromBytes data = none := by
  obtain ⟨hlow, hbattery, hillumination⟩ := h
  have hhigh : ¬0x40 ≤ byteAt data 2 := UInt8.not_le.mpr hlow
  have hhidpp20 : ¬(byteAt data 2 < 0x40 ∧ byteAt data 3 &&& 0x0F = 0) := fun h => hid h.2
  unfold HidppNotification.fromBytes
  dsimp only
  -- it has none of the four forms
  simp only [hhigh, hbattery, hillumination, hhidpp20, not_false_eq_true, and_self, if_true,
    ite_self]

theorem land_high_eq_zero_iff {c : UInt8} : c &&& 0x80 = 0 ↔ c ≤ 0x7F := by
  have hbit : (c &&& 0x80).toNat = (c.toNat.testBit 7).toNat * 2 ^ 7 := by
    rw [UInt8.toNat_and]
    exact Nat.and_two_pow c.toNat 7
  have hlt : c.toNat < 2 ^ 8 := c.toNat_lt
  have hle : c ≤ 0x7F ↔ c.toNat < 2 ^ 7 :=
    UInt8.le_iff_toNat_le.trans (Nat.lt_succ_iff (m := c.toNat)).symm
  rw [← UInt8.toNat_inj, hbit, hle]
  by_cases hhigh : c.toNat < 2 ^ 7
  · rw [Nat.testBit_lt_two_pow hhigh]
    exact iff_of_true rfl hhigh
  · rw [Nat.testBit_of_two_pow_le_and_two_pow_add_one_gt (Nat.not_lt.mp hhigh) hlt]
    exact iff_of_false (by decide) hhigh

/-- A report with a high sub-id is no notification. -/
theorem fromBytes_of_high {data : Bytes} (h : 0x7F < byteAt data 2) :
    HidppNotification.fromBytes data = none := by
  have hbit : byteAt data 2 &&& 0x80 ≠ 0 :=
    fun hzero => absurd (land_high_eq_zero_iff.mp hzero) (UInt8.not_le.mpr h)
  unfold HidppNotification.fromBytes
  dsimp only
  rw [if_pos hbit, ite_self, ite_self]

/-- **A reply is no notification exactly if it is set apart.** -/
theorem fromBytes_eq_none_iff {form : PacketForm} {data : Bytes} (h : ReplyFrame form data) :
    HidppNotification.fromBytes data = none ↔ Apart data := by
  refine ⟨fun hnone => ?_, fromBytes_of_apart h.softwareId⟩
  have hlength : ¬(data.length ≠ 7 ∧ data.length ≠ 20 ∧ data.length ≠ 64) := by
    rw [h.length]
    cases form with
    | short => exact fun h => h.1 rfl
    | long => exact fun h => h.2.1 rfl
    | veryLong => exact fun h => h.2.2 rfl
  have hreport : ¬¬isHidppReport (byteAt data 0) = true := by
    rw [h.reportId, not_not]
    cases form with
    | short => rfl
    | long => rfl
    | veryLong => rfl
  have hbit : ¬byteAt data 2 &&& 0x80 ≠ 0 := not_not.mpr (land_high_eq_zero_iff.mpr h.feature.2)
  have hzero : byteAt data 2 ≠ 0 := by
    intro hzero
    have hone := h.feature.1
    rw [hzero] at hone
    exact absurd hone (by decide)
  unfold HidppNotification.fromBytes at hnone
  dsimp only at hnone
  rw [if_neg hlength, if_neg hreport, if_neg hbit] at hnone
  split_ifs at hnone with hform
  obtain ⟨hhigh, hbattery, hillumination, -⟩ := hform
  exact ⟨UInt8.not_le.mp hhigh, hbattery, hillumination⟩

/-! ## What a loop makes of a report -/

namespace Wait
variable {w w' : Wait} {data : Bytes} {n : HidppNotification} {r : CallResult}

theorem fromBytes_of_stashed (h : stashed data = .stash n) :
    HidppNotification.fromBytes data = some n := by
  unfold stashed at h
  split at h
  · rename_i hn
    cases h
    exact hn
  · cases h

theorem fromBytes_of_stash (h : w.onReport data = .stash n) :
    HidppNotification.fromBytes data = some n := by
  cases w with
  | feature asked =>
      rw [onReport] at h
      split_ifs at h
      exact fromBytes_of_stashed h
  | packet form asked =>
      rw [onReport] at h
      split_ifs at h
      split at h
      · split_ifs at h
        exact fromBytes_of_stashed h
      · exact fromBytes_of_stashed h
  | register target request params =>
      rw [onReport] at h
      split_ifs at h
  | probe target =>
      rw [onReport] at h
      split_ifs at h
  | receive =>
      rw [onReport] at h
      split at h
      · cases h
      · cases h
  | drain maxCount ns =>
      rw [onReport] at h
      split at h
      · split_ifs at h
      · cases h

/-- A drain that goes on adds what it hands out to what it returns. -/
theorem drain_of_hand (h : w.onReport data = .hand n w') :
    HidppNotification.fromBytes data = some n ∧
      ∃ maxCount ns, w = .drain maxCount ns ∧ w' = .drain maxCount (ns ++ [n]) := by
  cases w with
  | drain maxCount ns =>
      rw [onReport] at h
      split at h
      · rename_i hn
        split_ifs at h
        cases h
        exact ⟨hn, maxCount, ns, rfl, rfl⟩
      · cases h
  | receive =>
      rw [onReport] at h
      split at h
      · cases h
      · cases h
  | feature asked =>
      rw [onReport] at h
      split_ifs at h
      exact absurd h stashed_ne_hand
  | packet form asked =>
      rw [onReport] at h
      split_ifs at h
      split at h
      · split_ifs at h
        exact absurd h stashed_ne_hand
      · exact absurd h stashed_ne_hand
  | register target request params =>
      rw [onReport] at h
      split_ifs at h
  | probe target =>
      rw [onReport] at h
      split_ifs at h

theorem stashed_ne_handLast : stashed data ≠ .handLast n r := by
  unfold stashed
  split <;> exact nofun

/-- What a call returns with its last notification. -/
theorem result_of_handLast (h : w.onReport data = .handLast n r) :
    HidppNotification.fromBytes data = some n ∧
      (r = .notification (some n) ∨
        ∃ maxCount ns, w = .drain maxCount ns ∧ r = .notifications (ns ++ [n])) := by
  cases w with
  | feature asked =>
      rw [onReport] at h
      split_ifs at h
      exact absurd h stashed_ne_handLast
  | packet form asked =>
      rw [onReport] at h
      split_ifs at h
      split at h
      · split_ifs at h
        exact absurd h stashed_ne_handLast
      · exact absurd h stashed_ne_handLast
  | register target request params =>
      rw [onReport] at h
      split_ifs at h
  | probe target =>
      rw [onReport] at h
      split_ifs at h
  | receive =>
      rw [onReport] at h
      split at h
      · rename_i hn
        cases h
        exact ⟨hn, .inl rfl⟩
      · cases h
  | drain maxCount ns =>
      rw [onReport] at h
      split at h
      · rename_i hn
        split_ifs at h
        cases h
        exact ⟨hn, .inr ⟨maxCount, ns, rfl, rfl⟩⟩
      · cases h

/-- An answer is no list of notifications. -/
theorem result_of_finish (h : w.onReport data = .finish r) :
    ∀ ns, r ≠ .notifications ns := by
  intro ns hr
  subst hr
  cases w with
  | feature asked =>
      rw [onReport] at h
      split_ifs at h
      · cases h
      · cases h
      · exact absurd h stashed_ne_finish
  | packet form asked =>
      rw [onReport] at h
      split_ifs at h
      · cases h
      · split at h
        · split_ifs at h
          · cases h
          · exact absurd h stashed_ne_finish
        · exact absurd h stashed_ne_finish
  | register target request params =>
      rw [onReport] at h
      split_ifs at h
      · cases h
      · cases h
  | probe target =>
      rw [onReport] at h
      split_ifs at h
      · cases h
      · cases h
  | receive => exact receive_not_finish (.inl rfl) h
  | drain maxCount ns => exact receive_not_finish (.inr ⟨maxCount, ns, rfl⟩) h

/-- The report is skipped, or answers the call. -/
def Passes (w : Wait) (data : Bytes) : Prop :=
  w.onReport data = .ignore ∨ ∃ r, w.onReport data = .finish r

/-- A loop that waits for the report, or keeps none. -/
theorem passes_of_not_keeps (h : w.keeps [] data = false) : w.Passes data := by
  by_cases herror : isHidppError data = true
  · exact w.onReport_of_none (fromBytes_of_isHidppError herror)
  by_cases hlength : data.length ≠ 7 ∧ data.length ≠ 20 ∧ data.length ≠ 64
  · exact w.onReport_of_none (fromBytes_of_length hlength)
  cases w with
  | feature asked =>
      have hreply : asked.isReply data = true := by simpa [keeps] using h
      refine .inr ⟨.payload (some (data.drop 4)), ?_⟩
      rw [onReport, if_neg herror, if_neg hlength, if_pos hreply]
  | packet form asked =>
      have hreply : (asked.isReply data = true ∧ data.length = form.size) ∧
          byteAt data 0 = form.reportId := by
        simpa [keeps] using h
      obtain ⟨⟨hreply, hsize⟩, hreport⟩ := hreply
      simp only [Asked.isReply, Bool.and_eq_true, decide_eq_true_eq] at hreply
      obtain ⟨⟨⟨hdevice, hfeature⟩, hfunction⟩, hid⟩ := hreply
      rw [Passes, onReport, if_neg herror, HidppPacket.fromBytes, if_neg (by simp [hsize, hreport])]
      dsimp only
      rw [if_pos ⟨hfeature, hfunction, hid, hdevice⟩]
      exact .inr ⟨_, rfl⟩
  | register target request params =>
      rw [Passes, onReport]
      split_ifs
      · exact .inr ⟨_, rfl⟩
      · exact .inl rfl
  | probe target =>
      rw [Passes, onReport]
      split_ifs
      · exact .inl rfl
      · exact .inr ⟨_, rfl⟩
      · exact .inr ⟨_, rfl⟩
      · exact .inl rfl
  | receive => cases h
  | drain maxCount ns => cases h

end Wait

/-! ## Runs -/

namespace HidrawLine
variable {s t : HidrawLine}

/-- A step that reads nothing and hands nothing out. -/
structure Quiet (s t : HidrawLine) : Prop where
  unread : t.unread = s.unread
  handed : t.handed = s.handed
  pending : ∀ n ∈ t.transport.pendingNotifications, n ∈ s.transport.pendingNotifications
  wait : ∀ maxCount ns, t.wait ≠ some (.drain maxCount ns)
  result : t.result = s.result ∨ ∀ ns, ns ≠ [] → t.result ≠ some (.notifications ns)

namespace Quiet

theorem return_ (s : HidrawLine) {r : CallResult} (hr : ∀ ns, ns ≠ [] → r ≠ .notifications ns) :
    s.Quiet (s.return_ r) where
  unread := rfl
  handed := rfl
  pending _ := id
  wait := nofun
  result := .inr fun ns hne heq => hr ns hne (Option.some.inj heq)

theorem enter (s : HidrawLine) (written : Bool) {w : Wait} (hw : w.drains = false) :
    s.Quiet (s.enter written w) := by
  unfold HidrawLine.enter
  split_ifs
  · refine ⟨rfl, rfl, fun _ => id, ?_, .inl rfl⟩
    rintro maxCount ns ⟨⟩
    cases hw
  · refine .return_ s fun ns _ heq => ?_
    cases w with
    | drain => cases hw
    | _ => cases heq

theorem ask (s : HidrawLine) (written : Bool) (feature function target : UInt8)
    {wait : Asked → Wait} (hw : ∀ a, (wait a).drains = false) :
    s.Quiet (s.ask written feature function target wait) := by
  unfold HidrawLine.ask
  dsimp only
  generalize Asked.mk _ _ _ _ = asked
  have h := enter { s with transport := s.transport.takeSwId.2, asked := s.asked ++ [asked] }
    written (hw asked)
  exact ⟨h.unread, h.handed, h.pending, h.wait, h.result⟩

theorem call (s : HidrawLine) (written : Bool) {c : TransportCall}
    (hc : ∀ maxCount, c ≠ .drainNotifications maxCount) : s.Quiet (s.call written c) := by
  cases c with
  | sendFeatureRequest feature function params target =>
      unfold HidrawLine.call
      dsimp only
      split_ifs
      · exact return_ s nofun
      · exact ask s written feature function target fun _ => rfl
  | sendPacket form feature function params target =>
      exact ask s written feature function target fun _ => rfl
  | readRegister register params target =>
      unfold HidrawLine.call
      dsimp only
      split_ifs
      · exact return_ s nofun
      · exact enter s written rfl
  | probeHidpp10 target => exact enter s written rfl
  | receiveNotification =>
      unfold HidrawLine.call
      dsimp only
      split_ifs
      · exact ⟨rfl, rfl, fun _ => id, nofun, .inl rfl⟩
      · exact return_ s nofun
  | drainNotifications maxCount => exact absurd rfl (hc maxCount)

end Quiet
end HidrawLine

/-- A line, and the reports on it that answer no feature request. -/
structure Overheard where
  line : HidrawLine
  others : List Bytes := []

namespace Overheard

def step (s : Overheard) (l : LineStep) : Option Overheard :=
  (s.line.step l).map fun line =>
    { line := line
      others := match l with
        | .arrive none data => s.others ++ [data]
        | _ => s.others }

def machine : Machine Overheard LineStep where
  Start s := HidrawLine.machine.Start s.line ∧ s.others = []
  step := step

/-- An answer that is not set apart is read by no loop that keeps notifications or hands
them out, unless it waits for this answer. -/
def setApart (s : Overheard) : LineStep → Bool
  | .read => match s.line.wait, s.line.unread with
      | some w, (some _, data) :: _ => Apart data || 0x7F < byteAt data 2 || !w.keeps [] data
      | _, _ => true
  | _ => true

/-- The notification is read from a report that answers nothing. -/
def Heard (s : Overheard) (n : HidppNotification) : Prop :=
  ∃ data ∈ s.others, HidppNotification.fromBytes data = some n

/-- Only what answers nothing becomes a notification. -/
structure Faithful (s : Overheard) : Prop where
  numbered : ∃ first, s.line.Numbered first
  others : ∀ data, (none, data) ∈ s.line.unread → data ∈ s.others
  pending : ∀ n ∈ s.line.transport.pendingNotifications, s.Heard n
  handed : ∀ n ∈ s.line.handed, s.Heard n
  drain : ∀ maxCount ns, s.line.wait = some (.drain maxCount ns) → ∀ n ∈ ns, s.Heard n
  result : ∀ ns, s.line.result = some (.notifications ns) → ∀ n ∈ ns, s.Heard n

namespace Faithful
variable {s : Overheard} {line : HidrawLine} {c : TransportCall} {written : Bool}

/-- A step that reads nothing. -/
theorem of_unread_eq (h : s.Faithful) (hnumbered : ∃ first, line.Numbered first)
    (hunread : line.unread = s.line.unread)
    (hpending : ∀ n ∈ line.transport.pendingNotifications, s.Heard n)
    (hhanded : ∀ n ∈ line.handed, s.Heard n)
    (hdrain : ∀ maxCount ns, line.wait = some (.drain maxCount ns) → ∀ n ∈ ns, s.Heard n)
    (hresult : ∀ ns, line.result = some (.notifications ns) → ∀ n ∈ ns, s.Heard n) :
    Faithful { s with line := line } where
  numbered := hnumbered
  others := by
    rw [hunread]
    exact h.others
  pending := hpending
  handed := hhanded
  drain := hdrain
  result := hresult

/-- A step that hands nothing out. -/
theorem quiet (h : s.Faithful) (hnumbered : ∃ first, line.Numbered first)
    (hquiet : s.line.Quiet line) : Faithful { s with line := line } := by
  refine h.of_unread_eq hnumbered hquiet.unread (fun n hn => h.pending n (hquiet.pending n hn))
    (hquiet.handed ▸ h.handed) (fun maxCount ns hw => absurd hw (hquiet.wait maxCount ns)) ?_
  intro ns hr n hn
  rcases hquiet.result with heq | hne
  · exact h.result ns (heq ▸ hr) n hn
  · exact absurd hr (hne ns (List.ne_nil_of_mem hn))

/-- What a drain finds in the stash has been heard. -/
theorem call (h : s.Faithful) (hnumbered : ∃ first, (s.line.call written c).Numbered first) :
    Faithful { s with line := s.line.call written c } := by
  by_cases hdrain : ∃ maxCount, c = .drainNotifications maxCount
  · obtain ⟨maxCount, rfl⟩ := hdrain
    have htake : ∀ n ∈ s.line.transport.pendingNotifications.take maxCount, s.Heard n :=
      fun n hn => h.pending n (List.mem_of_mem_take hn)
    have hdrop : ∀ n ∈ s.line.transport.pendingNotifications.drop maxCount, s.Heard n :=
      fun n hn => h.pending n (List.mem_of_mem_drop hn)
    have hhanded : ∀ n ∈ s.line.handed ++
        s.line.transport.pendingNotifications.take maxCount, s.Heard n := by
      intro n hn
      rcases List.mem_append.mp hn with hold | hnew
      · exact h.handed n hold
      · exact htake n hnew
    revert hnumbered
    unfold HidrawLine.call
    dsimp only
    split_ifs with hnone hfull
    · exact fun hnumbered => h.quiet hnumbered (.return_ s.line (by simp))
    · intro hnumbered
      refine h.of_unread_eq hnumbered rfl hdrop hhanded nofun ?_
      rintro ns ⟨⟩
      exact htake
    · intro hnumbered
      refine h.of_unread_eq hnumbered rfl hdrop hhanded ?_ h.result
      rintro _ ns ⟨⟩
      exact htake
  · exact h.quiet hnumbered (.call s.line written fun maxCount hc => hdrain ⟨maxCount, hc⟩)

/-- A drain returns what it has so far when its time is up. -/
theorem timeout {w : Wait} {ns : List HidppNotification} (h : s.Faithful)
    (hwait : s.line.wait = some w) (hr : w.onTimeout = .notifications ns) :
    ∀ n ∈ ns, s.Heard n := by
  cases w with
  | drain maxCount ns' =>
      cases hr
      exact h.drain maxCount _ hwait
  | _ => cases hr

/-- What is read as a notification answers nothing. -/
theorem read {w : Wait} {source : Option ℕ} {data : Bytes} {unread : List (Option ℕ × Bytes)}
    (h : s.Faithful) (hunread : s.line.unread = (source, data) :: unread)
    (hwait : s.line.wait = some w)
    (hheard : w.Passes data ∨ ∀ n, HidppNotification.fromBytes data = some n → s.Heard n)
    (hnumbered : ∃ first, (HidrawLine.react { s.line with unread := unread } w source
      (w.onReport data)).Numbered first) :
    Faithful { s with
      line := HidrawLine.react { s.line with unread := unread } w source (w.onReport data) } := by
  have hothers : ∀ data, (none, data) ∈ unread → data ∈ s.others := by
    intro data hd
    refine h.others data ?_
    rw [hunread]
    exact List.mem_cons_of_mem _ hd
  generalize hreaction : w.onReport data = reaction at hnumbered ⊢
  have hadd : ∀ {ns : List HidppNotification} {n}, ¬w.Passes data →
      HidppNotification.fromBytes data = some n → (∀ m ∈ ns, s.Heard m) →
      ∀ m ∈ ns ++ [n], s.Heard m := by
    intro ns n hpasses hn hns m hm
    rcases List.mem_append.mp hm with hold | hnew
    · exact hns m hold
    · rw [List.mem_singleton] at hnew
      exact hnew ▸ hheard.resolve_left hpasses n hn
  cases reaction with
  | ignore => exact { h with numbered := hnumbered, others := hothers }
  | stash n =>
      have hpasses : ¬w.Passes data := by
        rintro (heq | ⟨r, heq⟩)
        · cases hreaction.symm.trans heq
        · cases hreaction.symm.trans heq
      refine { h with numbered := hnumbered, others := hothers, pending := ?_ }
      show ∀ m ∈ (s.line.transport.stash n).pendingNotifications, s.Heard m
      unfold HidppTransport.stash
      split_ifs
      · exact hadd hpasses (Wait.fromBytes_of_stash hreaction) h.pending
      · exact h.pending
  | hand n w' =>
      obtain ⟨hn, maxCount, ns, rfl, rfl⟩ := Wait.drain_of_hand hreaction
      have hpasses : ¬(Wait.drain maxCount ns).Passes data := by
        rintro (heq | ⟨r, heq⟩)
        · cases hreaction.symm.trans heq
        · cases hreaction.symm.trans heq
      refine { h with
        numbered := hnumbered
        others := hothers
        handed := hadd hpasses hn h.handed
        drain := ?_ }
      rintro _ _ ⟨⟩
      exact hadd hpasses hn (h.drain maxCount ns hwait)
  | handLast n r =>
      obtain ⟨hn, hr⟩ := Wait.result_of_handLast hreaction
      have hpasses : ¬w.Passes data := by
        rintro (heq | ⟨r, heq⟩)
        · cases hreaction.symm.trans heq
        · cases hreaction.symm.trans heq
      refine { h with
        numbered := hnumbered
        others := hothers
        handed := hadd hpasses hn h.handed
        drain := nofun
        result := ?_ }
      intro ns' hns'
      replace hns' : r = .notifications ns' := Option.some.inj hns'
      rcases hr with rfl | ⟨maxCount, ns, rfl, rfl⟩
      · cases hns'
      · cases hns'
        exact hadd hpasses hn (h.drain maxCount ns hwait)
  | finish r =>
      exact { h with
        numbered := hnumbered
        others := hothers
        drain := nofun
        result := fun ns hns => absurd (Option.some.inj hns) (Wait.result_of_finish hreaction ns) }

/-- An answer to a feature request has its software id. -/
theorem softwareId_ne_zero {first i : ℕ} {a : Asked} {data : Bytes}
    (hnumbered : s.line.Numbered first) (ha : s.line.asked[i]? = some a)
    (hanswer : a.IsAnswer data) : byteAt data 3 &&& 0x0F ≠ 0 := by
  have hid := hnumbered.ids ha
  have hbounds := swNumber_bounds first i
  rw [HidrawLine.Asked.softwareId_of_isAnswer hanswer (by omega)]
  intro hzero
  rw [hzero] at hid
  have : swNumber first i = 0 := hid.symm.trans rfl
  omega

theorem step {t : Overheard} {l : LineStep} (h : s.Faithful) (hguard : s.setApart l)
    (hstep : s.step l = some t) : t.Faithful := by
  obtain ⟨first, hnumbered⟩ := h.numbered
  obtain ⟨line, hline, rfl⟩ := Option.map_eq_some_iff.mp hstep
  have hnext : ∃ first, line.Numbered first := ⟨first, hnumbered.step hline⟩
  cases l with
  | call c written =>
      change (if _ then _ else _) = _ at hline
      split_ifs at hline
      cases hline
      exact h.call hnext
  | arrive source data =>
      change (if _ then _ else _) = _ at hline
      split_ifs at hline
      cases hline
      cases source with
      | none =>
          have hgrow : ∀ {n}, s.Heard n →
              Heard { line := s.line, others := s.others ++ [data] } n :=
            fun ⟨d, hd, hn⟩ => ⟨d, List.mem_append_left _ hd, hn⟩
          refine ⟨hnext, fun d hd => ?_, fun n hn => hgrow (h.pending n hn),
            fun n hn => hgrow (h.handed n hn), fun m ns hw n hn => hgrow (h.drain m ns hw n hn),
            fun ns hr n hn => hgrow (h.result ns hr n hn)⟩
          rcases List.mem_append.mp hd with hold | hnew
          · exact List.mem_append_left _ (h.others d hold)
          · cases List.mem_singleton.mp hnew
            exact List.mem_append_right _ (List.mem_singleton.mpr rfl)
      | some i =>
          refine { h with numbered := hnext, others := fun d hd => ?_ }
          rcases List.mem_append.mp hd with hold | hnew
          · exact h.others d hold
          · cases List.mem_singleton.mp hnew
  | read =>
      unfold HidrawLine.step at hline
      dsimp only at hline
      split at hline
      · rename_i w source data unread hwait hunread
        cases hline
        refine h.read hunread hwait ?_ hnext
        cases source with
        | none =>
            exact .inr fun n hn => ⟨data, h.others data (hunread ▸ List.mem_cons_self), hn⟩
        | some i =>
            obtain ⟨a, ha, hanswer⟩ := hnumbered.unread (hunread ▸ List.mem_cons_self)
            have hid := softwareId_ne_zero hnumbered ha hanswer
            simp only [setApart, hwait, hunread, Bool.or_eq_true, decide_eq_true_eq,
              Bool.not_eq_true'] at hguard
            rcases hguard with (hapart | hhigh) | hkeeps
            · exact .inl (w.onReport_of_none (fromBytes_of_apart hid hapart))
            · exact .inl (w.onReport_of_none (fromBytes_of_high hhigh))
            · exact .inl (Wait.passes_of_not_keeps hkeeps)
      · cases hline
  | expire =>
      obtain ⟨w, hwait, rfl⟩ := Option.map_eq_some_iff.mp hline
      refine h.of_unread_eq hnext rfl h.pending h.handed nofun fun ns hr => ?_
      exact h.timeout hwait (Option.some.inj hr)
  | hangUp =>
      obtain ⟨w, hwait, rfl⟩ := Option.map_eq_some_iff.mp hline
      refine h.of_unread_eq hnext rfl h.pending h.handed nofun fun ns hr => ?_
      exact h.timeout hwait (Option.some.inj hr)
  | setDeviceIndex idx =>
      cases hline
      exact h.of_unread_eq hnext rfl nofun h.handed h.drain h.result
  | clearFeatureCache =>
      cases hline
      exact h.of_unread_eq hnext rfl nofun h.handed h.drain h.result

theorem start (hstart : machine.Start s) : s.Faithful := by
  obtain ⟨hline, hothers⟩ := hstart
  have hnumbered := HidrawLine.Numbered.start hline
  obtain ⟨transport, -, -, hpending, heq⟩ := hline
  refine ⟨hnumbered, ?_, ?_, ?_, ?_, ?_⟩
  · rw [heq]
    exact nofun
  · rw [heq, hpending]
    exact nofun
  · rw [heq]
    exact nofun
  · rw [heq]
    exact nofun
  · rw [heq]
    exact nofun

end Faithful
variable {s t : Overheard}

/-- A reply that is read against the condition is kept or handed out. -/
theorem taken_of_not_setApart {form : PacketForm} {i : ℕ} {data : Bytes}
    {unread : List (Option ℕ × Bytes)} (hunread : s.line.unread = (some i, data) :: unread)
    (hframe : ReplyFrame form data) (hguard : s.setApart .read = false)
    (hstep : s.step .read = some t) :
    ∃ n, HidppNotification.fromBytes data = some n ∧
      (n ∈ t.line.handed ∨ n ∈ t.line.transport.pendingNotifications ∨
        16 ≤ s.line.transport.pendingNotifications.length) := by
  obtain ⟨line, hline, rfl⟩ := Option.map_eq_some_iff.mp hstep
  cases hwait : s.line.wait with
  | none =>
      simp [setApart, hwait] at hguard
  | some w =>
      simp only [setApart, hwait, hunread, Bool.or_eq_false_iff, decide_eq_false_iff_not,
        Bool.not_eq_false'] at hguard
      obtain ⟨⟨hapart, -⟩, hkeeps⟩ := hguard
      obtain ⟨n, hn⟩ := Option.ne_none_iff_exists'.mp (mt (fromBytes_eq_none_iff hframe).mp hapart)
      refine ⟨n, hn, ?_⟩
      have hreact : line = HidrawLine.react { s.line with unread := unread } w (some i)
          (w.onReport data) := by
        unfold HidrawLine.step at hline
        dsimp only at hline
        split at hline
        · rename_i w' source' data' unread' hwait' hunread'
          obtain rfl := Option.some.inj (hwait'.symm.trans hwait)
          cases hunread'.symm.trans hunread
          exact (Option.some.inj hline).symm
        · cases hline
      subst hreact
      by_cases hdrains : w.drains = true
      · left
        rcases Wait.hand_of_drains hn hdrains with ⟨r, hr⟩ | ⟨maxCount, ns, hr⟩
        · rw [hr]
          exact List.mem_append_right _ (List.mem_singleton.mpr rfl)
        · rw [hr]
          exact List.mem_append_right _ (List.mem_singleton.mpr rfl)
      · right
        rw [Wait.stash_of_keeps hn hkeeps ((Bool.not_eq_true _).mp hdrains)]
        by_cases hroom : s.line.transport.pendingNotifications.length < 16
        · left
          show n ∈ (s.line.transport.stash n).pendingNotifications
          rw [HidppTransport.stash, if_pos hroom]
          exact List.mem_append_right _ (List.mem_singleton.mpr rfl)
        · exact .inr (Nat.not_lt.mp hroom)

/-- The level is the answer to the query of the device, or is read from a report on its line
that answers no request. -/
def Sourced (lines : Bytes → Overheard) (p : HidppWorld) (d : HidppDev) (b : BatteryInfo) : Prop :=
  p.battery d.hidrawPath d.deviceIndex = some b ∨
    ∃ n, (lines d.hidrawPath).Heard n ∧ d.batteryOf p.lights n = some b

theorem sourced_of_source {lines : Bytes → Overheard} {p : HidppWorld} {devs : List HidppDev}
    {i : ℕ} {d : HidppDev} {b : BatteryInfo}
    (hheard : ∀ path, ∀ n ∈ p.drained path, (lines path).Heard n)
    (h : HidppWorker.Source p devs i d b) : Sourced lines p d b := by
  rcases h with hquery | ⟨n, hn, -, hb⟩
  · exact .inl hquery
  · exact .inr ⟨n, hheard _ n hn, hb⟩

/-- **No reply is taken for a notification**, exactly as long as the replies that another loop
reads are set apart. -/
theorem late_replies_are_no_notifications (form : PacketForm) (data : Bytes) (s : Overheard)
    (lines : Bytes → Overheard) (p : HidppWorld) (w : HidppWorker) :
    (ReplyFrame form data → (HidppNotification.fromBytes data = none ↔ Apart data)) ∧
    (machine.Run (fun s l => s.setApart l) s →
      ∀ ns, s.line.result = some (.notifications ns) → ∀ n ∈ ns, s.Heard n) ∧
    ((∀ path, machine.Run (fun s l => s.setApart l) (lines path)) →
      (∀ path, p.drained path = [] ∨
        (lines path).line.result = some (.notifications (p.drained path))) →
      (∀ (i : ℕ) (d d' : HidppDev), (w.rescan p).devs[i]? = some d →
        (w.poll p).devs[i]? = some d' → d'.batteryLevel ≠ d.batteryLevel →
        ∃ b, Sourced lines p d b ∧ d'.batteryLevel = b.level) ∧
      ∀ (j : ℕ) (m m' : Readings), (w.rescan p).mice[j]? = some m →
        (w.poll p).mice[j]? = some m' → m'.detectedBattery ≠ m.detectedBattery →
        ∃ d ∈ (w.rescan p).devs, ∃ b, Sourced lines p d b ∧
          m'.detectedBattery = b.level.toNat) ∧
    ∀ (i : ℕ) (unread : List (Option ℕ × Bytes)) (t : Overheard),
      s.line.unread = (some i, data) :: unread →
      ReplyFrame form data → s.setApart .read = false → s.step .read = some t →
      ∃ n, HidppNotification.fromBytes data = some n ∧
        (n ∈ t.line.handed ∨ n ∈ t.line.transport.pendingNotifications ∨
          16 ≤ s.line.transport.pendingNotifications.length) := by
  have hresult : ∀ s, machine.Run (fun s l => s.setApart l) s →
      ∀ ns, s.line.result = some (.notifications ns) → ∀ n ∈ ns, s.Heard n := by
    intro s hrun
    have hfaithful : s.Faithful :=
      hrun.invariant (fun _ => Faithful.start) fun _ _ _ h hguard hstep => h.step hguard hstep
    exact hfaithful.result
  refine ⟨fromBytes_eq_none_iff, hresult s, ?_, ?_⟩
  · intro hrun hdrained
    have hheard : ∀ path, ∀ n ∈ p.drained path, (lines path).Heard n := by
      intro path n hn
      rcases hdrained path with hnone | hdrain
      · rw [hnone] at hn
        cases hn
      · exact hresult _ (hrun path) _ hdrain n hn
    have hcaused := HidppWorker.poll_caused p w
    refine ⟨fun i d d' hd hd' hne => ?_, fun j m m' hm hm' hne => ?_⟩
    · obtain ⟨b, hb, hlevel⟩ := (hcaused.level i d d' hd hd').resolve_left hne
      exact ⟨b, sourced_of_source hheard hb, hlevel⟩
    · obtain ⟨i, d, b, hd, hb, -, -, hlevel⟩ :=
        (hcaused.detected j m m' hm hm').resolve_left hne
      exact ⟨d, List.mem_of_getElem? hd, b, sourced_of_source hheard hb, hlevel⟩
  · intro i unread t hunread hframe hguard hstep
    exact taken_of_not_setApart hunread hframe hguard hstep

/-- A short report of the device 1. -/
def shortReport (feature function : UInt8) : Bytes := [0x10, 0x01, feature, function, 0, 0, 0]

/-- A request that times out, its late reply, and a notification; both are drained. -/
def lateReply (feature : UInt8) : List LineStep :=
  [.call (.sendFeatureRequest feature 1 [] 1) true, .expire,
    .arrive (some 0) (shortReport feature 0x11), .arrive none (shortReport 0x41 0x10),
    .call (.drainNotifications 8) true, .read, .read, .expire]

/-- Nothing has been asked. -/
def unused : Overheard := { line := HidrawLine.unused }

theorem unused_start : machine.Start unused := ⟨HidrawLine.unused_start, rfl⟩

/-- What the drain has handed over. -/
def drained (s : Overheard) : List HidppNotification :=
  match s.line.result with
  | some (.notifications ns) => ns
  | _ => []

theorem result_of_drained {s : Overheard} {n : HidppNotification} (h : n ∈ s.drained) :
    s.line.result = some (.notifications s.drained) := by
  unfold drained at h ⊢
  split at h
  · assumption
  · cases h

/-- A poll that learns nothing. -/
def deafWorld : HidppWorld where
  now := 0
  paths := []
  identify _ := []
  alive _ := false
  opens _ := false
  battery _ _ := none
  dpi _ _ := none
  drainable _ := false
  drained _ := []
  lights := []

theorem late_replies_are_no_notifications_drained :
    ∃ s ns, machine.Run (fun s l => s.setApart l) s ∧
      s.line.result = some (.notifications ns) ∧ ns.map HidppNotification.subId = [0x41] ∧
      ∀ n ∈ ns, s.Heard n := by
  have hexec : (machine.exec (fun s l => s.setApart l) unused (lateReply 2)).any (fun s =>
      s.drained.map HidppNotification.subId = [0x41]) = true := by
    decide +kernel
  obtain ⟨s, hs, hdrained⟩ := (Option.any_eq_true _ _).mp hexec
  have hids := of_decide_eq_true hdrained
  have hrun := Machine.Run.exec (.start unused_start) hs
  have hresult : s.line.result = some (.notifications s.drained) := by
    cases hns : s.drained with
    | nil =>
        rw [hns] at hids
        cases hids
    | cons n ns =>
        rw [← hns]
        exact result_of_drained (by rw [hns]; exact List.mem_cons_self ..)
  exact ⟨s, s.drained, hrun, hresult, hids,
    (late_replies_are_no_notifications .short [] s (fun _ => unused) deafWorld {}).2.1 hrun _
      hresult⟩

/-- The late reply of the feature with the index 7 is drained as a notification of a battery. -/
theorem late_reply_drained : (¬∀ form data, ReplyFrame form data →
      HidppNotification.fromBytes data = none) ∧
    ¬∀ s, machine.Reachable s → ∀ ns, s.line.result = some (.notifications ns) →
      ∀ n ∈ ns, s.Heard n := by
  refine ⟨fun hall => ?_, fun hall => ?_⟩
  · have hframe : ReplyFrame .short (shortReport 7 0x11) := ⟨rfl, rfl, by decide, by decide⟩
    have hsome : HidppNotification.fromBytes (shortReport 7 0x11) ≠ none := by decide
    exact hsome (hall _ _ hframe)
  · have hexec : (machine.exec (fun _ _ => True) unused (lateReply 7)).any (fun s =>
        ∃ n ∈ s.drained, ∀ data ∈ s.others, HidppNotification.fromBytes data ≠ some n) = true := by
      decide +kernel
    obtain ⟨s, hs, hdrained⟩ := (Option.any_eq_true _ _).mp hexec
    obtain ⟨n, hn, hnot⟩ := of_decide_eq_true hdrained
    obtain ⟨data, hdata, hheard⟩ :=
      hall s (.exec (.start unused_start) hs) _ (result_of_drained hn) n hn
    exact hnot data hdata hheard

end Overheard
end AbrekMouse
