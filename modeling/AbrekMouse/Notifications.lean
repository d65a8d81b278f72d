import AbrekMouse.HidppTransport

/-! # Notifications are conserved

What has been handed out, then what is kept, then what is still unread: together these are
the notifications that have arrived, in order, as long as every loop that reads one
keeps it or hands it out (`notifications_conserved`).

The loops of a register read and of a ping do neither, and `receive_notification` hands
one out before those that are kept.
-/
namespace AbrekMouse
open ProgLib

namespace Wait

/-- The loop keeps the notification, or hands it out behind those that are kept. -/
def keeps (pending : List HidppNotification) (data : Bytes) : Wait → Bool
  | feature asked => !asked.isReply data
  | packet form asked =>
      !(asked.isReply data && data.length = form.size && byteAt data 0 = form.reportId)
  | register .. | probe _ => false
  | receive => pending = []
  | drain .. => true

/-- A loop that hands notifications out. -/
def drains : Wait → Bool
  | receive | drain .. => true
  | _ => false

variable {data : Bytes} {n : HidppNotification} {pending : List HidppNotification}

theorem stash_of_keeps {w : Wait} (hn : HidppNotification.fromBytes data = some n)
    (hkeeps : w.keeps pending data = true) (hdrains : w.drains = false) :
    w.onReport data = .stash n := by
  have herror : ¬isHidppError data = true := by
    intro h
    rw [fromBytes_of_isHidppError h] at hn
    cases hn
  have hlength : ¬(data.length ≠ 7 ∧ data.length ≠ 20 ∧ data.length ≠ 64) := by
    intro h
    rw [fromBytes_of_length h] at hn
    cases hn
  have hstash : stashed data = .stash n := by rw [stashed, hn]
  cases w with
  | feature asked =>
      have hreply : ¬asked.isReply data = true := by simpa [keeps] using hkeeps
      rw [onReport, if_neg herror, if_neg hlength, if_neg hreply, hstash]
  | packet form asked =>
      rw [onReport, if_neg herror]
      split
      · rename_i rsp hrsp
        split_ifs with hreply
        · unfold HidppPacket.fromBytes at hrsp
          split_ifs at hrsp with hform
          cases hrsp
          simp only [not_or, not_not] at hform
          obtain ⟨hfeature, hfunction, hid, hdevice⟩ := hreply
          dsimp only at hfeature hfunction hid hdevice
          simp [keeps, Asked.isReply, hfeature, hfunction, hid, hdevice, hform] at hkeeps
        · exact hstash
      · exact hstash
  | register target request params => cases hkeeps
  | probe target => cases hkeeps
  | receive => cases hdrains
  | drain maxCount ns => cases hdrains

theorem hand_of_drains {w : Wait} (hn : HidppNotification.fromBytes data = some n)
    (hdrains : w.drains = true) :
    (∃ r, w.onReport data = .handLast n r) ∨
      ∃ maxCount ns, w.onReport data = .hand n (drain maxCount ns) := by
  cases w with
  | receive =>
      rw [onReport, hn]
      exact .inl ⟨_, rfl⟩
  | drain maxCount ns =>
      rw [onReport, hn]
      dsimp only
      split_ifs
      · exact .inr ⟨_, _, rfl⟩
      · exact .inl ⟨_, rfl⟩
  | _ => cases hdrains

/-- A report that is no notification is neither kept nor handed out. -/
theorem onReport_of_none (w : Wait) (hn : HidppNotification.fromBytes data = none) :
    w.onReport data = .ignore ∨ ∃ r, w.onReport data = .finish r := by
  have hstash : stashed data = .ignore := by rw [stashed, hn]
  cases w with
  | feature asked =>
      rw [onReport]
      split_ifs
      · exact .inr ⟨_, rfl⟩
      · exact .inl rfl
      · exact .inl rfl
      · exact .inr ⟨_, rfl⟩
      · exact .inl hstash
  | packet form asked =>
      rw [onReport]
      split_ifs
      · exact .inr ⟨_, rfl⟩
      · exact .inl rfl
      · split
        · split_ifs
          · exact .inr ⟨_, rfl⟩
          · exact .inl hstash
        · exact .inl hstash
  | register target request params =>
      rw [onReport]
      split_ifs
      · exact .inr ⟨_, rfl⟩
      · exact .inl rfl
      · exact .inr ⟨_, rfl⟩
      · exact .inl rfl
  | probe target =>
      rw [onReport]
      split_ifs
      · exact .inl rfl
      · exact .inr ⟨_, rfl⟩
      · exact .inr ⟨_, rfl⟩
      · exact .inl rfl
  | receive =>
      rw [onReport, hn]
      exact .inl rfl
  | drain maxCount ns =>
      rw [onReport, hn]
      exact .inl rfl

end Wait

namespace HidrawLine
variable {s t : HidrawLine}

/-- The notifications that have arrived and have not been handed out. -/
def unreadNotifications (s : HidrawLine) : List HidppNotification :=
  s.unread.filterMap fun r => HidppNotification.fromBytes r.2

/-- **Conservation.** -/
def Conserved (s : HidrawLine) : Prop :=
  s.handed ++ s.transport.pendingNotifications ++ s.unreadNotifications =
    s.arrived.filterMap HidppNotification.fromBytes

/-- The device index and the caches stay, and at most 16 notifications are not drained. -/
def tended (s : HidrawLine) : LineStep → Bool
  | .setDeviceIndex _ | .clearFeatureCache => false
  | _ => s.transport.pendingNotifications.length + s.unreadNotifications.length ≤ 16

/-- The loop that reads a notification keeps it, or hands it out in its turn. -/
def kept (s : HidrawLine) : LineStep → Bool
  | .read => match s.wait, s.unread with
      | some w, (_, data) :: _ => (HidppNotification.fromBytes data).isNone ||
          w.keeps s.transport.pendingNotifications data
      | _, _ => true
  | _ => true

/-- Conservation, and nothing is kept while a drain reads. -/
structure Balanced (s : HidrawLine) : Prop where
  conserved : s.Conserved
  drained : ∀ {maxCount ns}, s.wait = some (.drain maxCount ns) →
    s.transport.pendingNotifications = []

namespace Balanced

/-- A step that moves no notification. -/
theorem of_eq (h : s.Balanced) (hhanded : t.handed = s.handed)
    (hpending : t.transport.pendingNotifications = s.transport.pendingNotifications)
    (hunread : t.unreadNotifications = s.unreadNotifications) (harrived : t.arrived = s.arrived)
    (hwait : ∀ maxCount ns, t.wait = some (.drain maxCount ns) →
      s.transport.pendingNotifications = []) : t.Balanced where
  conserved := by rw [Conserved, hhanded, hpending, hunread, harrived, h.conserved]
  drained := fun hw => hpending.trans (hwait _ _ hw)

theorem enter (h : s.Balanced) (written : Bool) {w : Wait} (hw : w.drains = false) :
    (s.enter written w).Balanced := by
  unfold HidrawLine.enter
  split_ifs
  · refine h.of_eq rfl rfl rfl rfl ?_
    rintro maxCount ns ⟨⟩
    cases hw
  · exact h.of_eq rfl rfl rfl rfl nofun

theorem ask (h : s.Balanced) (hidle : s.wait = none) {written : Bool}
    {feature function target : UInt8} {wait : Asked → Wait}
    (hwait : ∀ {asked}, (wait asked).drains = false) :
    (s.ask written feature function target wait).Balanced := by
  unfold HidrawLine.ask
  refine enter ?_ written hwait
  refine h.of_eq rfl rfl rfl rfl ?_
  intro maxCount ns hw
  rw [hidle] at hw
  cases hw

theorem call (h : s.Balanced) (hidle : s.wait = none) (c : TransportCall) (written : Bool) :
    (s.call written c).Balanced := by
  unfold HidrawLine.call
  split
  · split_ifs
    · exact h.of_eq rfl rfl rfl rfl nofun
    · exact h.ask hidle rfl
  · exact h.ask hidle rfl
  · split_ifs
    · exact h.of_eq rfl rfl rfl rfl nofun
    · exact h.enter _ rfl
  · exact h.enter _ rfl
  · split_ifs
    · exact h.of_eq rfl rfl rfl rfl nofun
    · exact h.of_eq rfl rfl rfl rfl nofun
  · rename_i maxCount
    dsimp only
    have hflush : s.handed ++ s.transport.pendingNotifications.take maxCount ++
        s.transport.pendingNotifications.drop maxCount ++ s.unreadNotifications =
        s.arrived.filterMap HidppNotification.fromBytes := by
      rw [List.append_assoc s.handed, List.take_append_drop, h.conserved]
    split_ifs with hnone hfull
    · exact h.of_eq rfl rfl rfl rfl nofun
    · exact ⟨hflush, nofun⟩
    · refine ⟨hflush, fun _ => List.drop_eq_nil_of_le ?_⟩
      rw [List.length_take] at hfull
      omega

/-- A read that keeps the notification, or hands it out in its turn. -/
theorem read (h : s.Balanced) (htended : s.tended .read) (hkept : s.kept .read)
    (hstep : s.step .read = some t) : t.Balanced := by
  unfold HidrawLine.step at hstep
  dsimp only at hstep
  split at hstep
  · rename_i w source data unread hwait hunread
    cases hstep
    have hconserved := h.conserved
    cases hn : HidppNotification.fromBytes data with
    | none =>
        have hnext : ({ s with unread := unread } : HidrawLine).Balanced := by
          refine h.of_eq rfl rfl ?_ rfl fun _ _ => h.drained
          simp only [unreadNotifications, hunread, List.filterMap_cons, hn]
        -- no notification: it is skipped, or ends the call
        rcases w.onReport_of_none hn with hr | ⟨r, hr⟩
        · rw [hr]
          exact hnext
        · rw [hr]
          exact hnext.of_eq rfl rfl rfl rfl nofun
    | some n =>
        have hrest : s.unreadNotifications =
            n :: unread.filterMap (fun r => HidppNotification.fromBytes r.2) := by
          simp only [unreadNotifications, hunread, List.filterMap_cons, hn]
        have hkeeps : w.keeps s.transport.pendingNotifications data = true := by
          simpa [kept, hwait, hunread, hn] using hkept
        -- the stash has room, so nothing is dropped
        have hroom : s.transport.pendingNotifications.length < 16 := by
          have hlength : s.transport.pendingNotifications.length +
              s.unreadNotifications.length ≤ 16 := by
            simpa [tended] using htended
          rw [hrest, List.length_cons] at hlength
          omega
        rw [Conserved, hrest] at hconserved
        -- handed out, behind an empty stash, or stashed
        by_cases hdrains : w.drains = true
        · have hempty : s.transport.pendingNotifications = [] := by
            cases w with
            | receive => exact of_decide_eq_true hkeeps
            | drain maxCount ns => exact h.drained hwait
            | _ => cases hdrains
          have hhanded : (s.handed ++ [n]) ++ s.transport.pendingNotifications ++
              unread.filterMap (fun r => HidppNotification.fromBytes r.2) =
              s.arrived.filterMap HidppNotification.fromBytes := by
            rw [← hconserved, hempty, List.append_nil, List.append_nil, List.append_assoc,
              List.singleton_append]
          rcases Wait.hand_of_drains hn hdrains with ⟨r, hr⟩ | ⟨maxCount, ns, hr⟩
          · rw [hr]
            exact ⟨hhanded, nofun⟩
          · rw [hr]
            exact ⟨hhanded, fun _ => hempty⟩
        · have hdrains := (Bool.not_eq_true _).mp hdrains
          rw [Wait.stash_of_keeps hn hkeeps hdrains]
          have hpending : (s.transport.stash n).pendingNotifications =
              s.transport.pendingNotifications ++ [n] := by
            rw [HidppTransport.stash, if_pos hroom]
          refine ⟨?_, ?_⟩
          · show s.handed ++ (s.transport.stash n).pendingNotifications ++
              unread.filterMap (fun r => HidppNotification.fromBytes r.2) =
              s.arrived.filterMap HidppNotification.fromBytes
            rw [hpending, ← hconserved, ← List.append_assoc s.handed,
              List.append_assoc _ [n], List.singleton_append]
          · intro maxCount ns hw
            obtain rfl := Option.some.inj (hwait.symm.trans hw)
            cases hdrains
  · cases hstep

theorem step {l : LineStep} (h : s.Balanced) (htended : s.tended l) (hkept : s.kept l)
    (hstep : s.step l = some t) : t.Balanced := by
  cases l with
  | call c written =>
      change (if _ then _ else _) = _ at hstep
      split_ifs at hstep with hidle
      cases hstep
      exact h.call (Option.isNone_iff_eq_none.mp hidle) c written
  | arrive source data =>
      change (if _ then _ else _) = _ at hstep
      split_ifs at hstep
      cases hstep
      refine ⟨?_, h.drained⟩
      show s.handed ++ s.transport.pendingNotifications ++
        (s.unread ++ [(source, data)]).filterMap (fun r => HidppNotification.fromBytes r.2) =
        (s.arrived ++ [data]).filterMap HidppNotification.fromBytes
      rw [List.filterMap_append, List.filterMap_append, ← List.append_assoc, ← h.conserved]
      rfl
  | read => exact h.read htended hkept hstep
  | expire | hangUp =>
      obtain ⟨w, -, rfl⟩ := Option.map_eq_some_iff.mp hstep
      exact h.of_eq rfl rfl rfl rfl nofun
  | setDeviceIndex idx | clearFeatureCache => cases htended

end Balanced

theorem Balanced.start (hstart : machine.Start s) : s.Balanced := by
  obtain ⟨transport, -, -, hpending, rfl⟩ := hstart
  refine ⟨?_, fun _ => hpending⟩
  show [] ++ transport.pendingNotifications ++ [] = []
  rw [hpending]
  rfl

/-- **Notifications are conserved**, as long as every loop that reads one keeps it, or hands
it out in its turn. -/
theorem notifications_conserved (s : HidrawLine)
    (hrun : machine.Run (fun s l => s.tended l ∧ s.kept l) s) : s.Conserved := by
  have hbalanced : s.Balanced :=
    hrun.invariant (fun _ => Balanced.start) fun _ _ _ h hguard hstep =>
      h.step hguard.1 hguard.2 hstep
  exact hbalanced.conserved

/-- A notification comes before the reply to a request, and is drained afterwards. -/
def notifiedRequest : List LineStep :=
  [.call (.sendFeatureRequest 2 0 [] 1) true, .arrive none (longReport 0x1D 0x00),
    .arrive (some 0) (longReport 2 0x01), .read, .read, .call (.drainNotifications 8) true,
    .expire]

theorem notifications_conserved_request :
    ∃ s, machine.Run (fun s l => s.tended l ∧ s.kept l) s ∧ s.unread = [] ∧
      s.handed.map HidppNotification.subId = [0x1D] ∧ s.Conserved := by
  have hexec : (machine.exec (fun s l => s.tended l ∧ s.kept l) unused notifiedRequest).any
      (fun s => decide (s.unread = [] ∧
        s.handed.map HidppNotification.subId = [0x1D])) = true := by
    decide +kernel
  obtain ⟨s, hs, hhanded⟩ := (Option.any_eq_true _ _).mp hexec
  obtain ⟨hunread, hhanded⟩ := of_decide_eq_true hhanded
  have hrun := Machine.Run.exec (.start unused_start) hs
  exact ⟨s, hrun, hunread, hhanded, notifications_conserved s hrun⟩

/-- A notification comes while a register read waits. -/
def notifiedRegister : List LineStep :=
  [.call (.readRegister 0x0D [] 1) true, .arrive none (longReport 0x1D 0x00), .read]

/-- It is lost. -/
theorem notification_lost : ¬∀ s, machine.Run (fun s l => s.tended l) s → s.Conserved := by
  intro hall
  have hexec : (machine.exec (fun s l => s.tended l) unused notifiedRegister).any (fun s =>
      decide (s.handed ++ s.transport.pendingNotifications ++ s.unreadNotifications = [] ∧
        s.arrived.filterMap HidppNotification.fromBytes ≠ [])) = true := by
    decide +kernel
  obtain ⟨s, hs, hlost⟩ := (Option.any_eq_true _ _).mp hexec
  obtain ⟨hnone, harrived⟩ := of_decide_eq_true hlost
  have hconserved : s.Conserved := hall s (.exec (.start unused_start) hs)
  exact harrived (hconserved.symm.trans hnone)

end HidrawLine
end AbrekMouse
