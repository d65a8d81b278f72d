import AbrekMouse.HidppTransport
import Mathlib.Tactic.IntervalCases

/-! # Late answers

The software ids go round in fifteen requests, so a late answer to a feature request has
the id of no request that comes fewer than fifteen later.  The loops of the feature
requests look at the id.  The loop of a register read has none to look at, and takes
every error of its target for its own (`late_answers_harmless`, `late_error_aborts`).
-/
namespace AbrekMouse
open ProgLib

/-! ## Software ids -/

theorem toNat_and_nibble (n : UInt8) : (n &&& 0x0F).toNat = n.toNat % 16 := by
  rw [UInt8.toNat_and]
  exact Nat.and_two_pow_sub_one_eq_mod n.toNat 4

theorem functionByte_and (fn sw : UInt8) : functionByte fn sw &&& 0x0F = sw &&& 0x0F := by
  rw [← UInt8.toBitVec_inj]
  simp only [functionByte, UInt8.toBitVec_and, UInt8.toBitVec_or, UInt8.toBitVec_shiftLeft]
  ext i hi
  by_cases hlow : i < 4
  · simp [hlow]
  · have hbit : (15#8)[i] = false := by
      interval_cases i <;> first | omega | simp
    simp [hbit]

theorem takeSwId_toNat (t : HidppTransport) (h : 1 ≤ t.nextSwId.toNat ∧ t.nextSwId.toNat ≤ 15) :
    t.takeSwId.1 = t.nextSwId ∧
      t.takeSwId.2.nextSwId.toNat = t.nextSwId.toNat % 15 + 1 := by
  have hid : t.takeSwId.1 = t.nextSwId := by
    rw [← UInt8.toNat_inj]
    exact (toNat_and_nibble _).trans (Nat.mod_eq_of_lt (by omega))
  have hnext : (t.nextSwId + 1 &&& 0x0F).toNat = (t.nextSwId.toNat + 1) % 16 := by
    rw [toNat_and_nibble, UInt8.toNat_add]
    show (t.nextSwId.toNat + 1) % 256 % 16 = _
    omega
  refine ⟨hid, ?_⟩
  show (if t.nextSwId + 1 &&& 0x0F = 0 then (1 : UInt8) else _).toNat = _
  split_ifs with hzero
  · rw [hzero] at hnext
    have : (0:UInt8).toNat = 0 := rfl
    show 1 = _
    omega
  · have hne : (t.nextSwId + 1 &&& 0x0F).toNat ≠ 0 := fun h => hzero (UInt8.toNat_inj.mp h)
    omega

/-- The software id of the `i`-th request, where the first one is `first`. -/
def swNumber (first i : ℕ) : ℕ := (first - 1 + i) % 15 + 1

theorem swNumber_succ (first i : ℕ) : swNumber first (i + 1) = swNumber first i % 15 + 1 := by
  unfold swNumber
  omega

theorem swNumber_bounds (first i : ℕ) : 1 ≤ swNumber first i ∧ swNumber first i ≤ 15 := by
  unfold swNumber
  omega

/-- Fewer than fifteen requests apart, the ids differ. -/
theorem swNumber_inj {first i j : ℕ} (hle : i ≤ j) (hlt : j < i + 15)
    (h : swNumber first i = swNumber first j) : i = j := by
  unfold swNumber at h
  omega

/-! ## What ends a loop -/

theorem stashed_ne_finish {data : Bytes} {r : CallResult} : stashed data ≠ .finish r := by
  unfold stashed
  split <;> exact nofun

theorem stashed_ne_hand {data : Bytes} {n : HidppNotification} {w : Wait} :
    stashed data ≠ .hand n w := by
  unfold stashed
  split <;> exact nofun

theorem Asked.softwareId_of_isError {a : Asked} {data : Bytes} (h : a.isError data = true) :
    byteAt data 3 &&& 0x0F = a.softwareId := by
  simp only [Asked.isError, Bool.and_eq_true, decide_eq_true_eq] at h
  exact h.2

theorem Asked.softwareId_of_isReply {a : Asked} {data : Bytes} (h : a.isReply data = true) :
    byteAt data 3 &&& 0x0F = a.softwareId := by
  simp only [Asked.isReply, Bool.and_eq_true, decide_eq_true_eq] at h
  exact h.2

namespace Wait

/-- What answers a feature request has its software id. -/
theorem softwareId_of_finish {w : Wait} {a : Asked} {data : Bytes} {r : CallResult}
    (hasked : w.asked? = some a) (h : w.onReport data = .finish r) :
    byteAt data 3 &&& 0x0F = a.softwareId := by
  cases w with
  | feature asked =>
      cases hasked
      rw [onReport] at h
      split_ifs at h with _ herror _ hreply
      · exact Asked.softwareId_of_isError herror
      · exact Asked.softwareId_of_isReply hreply
      · exact absurd h stashed_ne_finish
  | packet form asked =>
      cases hasked
      rw [onReport] at h
      split_ifs at h with _ herror
      · exact Asked.softwareId_of_isError herror
      · split at h
        · rename_i rsp hrsp
          split_ifs at h with hreply
          · rw [← hreply.2.2.1]
            unfold HidppPacket.fromBytes at hrsp
            split_ifs at hrsp
            cases hrsp
            rfl
          · exact absurd h stashed_ne_finish
        · exact absurd h stashed_ne_finish
  | _ => cases hasked

/-- The answer to a ping has the software id 0. -/
theorem byteAt_of_probe_finish {target : UInt8} {data : Bytes} {r : CallResult}
    (h : (probe target).onReport data = .finish r) : byteAt data 3 = 0 := by
  rw [onReport] at h
  split_ifs at h with _ hecho herror
  · exact hecho.2
  · exact herror.2

/-- What ends the wait for a register. -/
theorem register_finish_iff (target : UInt8) (request : UInt16) (params data : Bytes) :
    (∃ r, (register target request params).onReport data = .finish r) ↔
      (isHidppError data = true ∧ byteAt data 1 = target) ∨
        isRegisterReply target request params data = true := by
  rw [onReport]
  split_ifs with herror hdevice hreply
  · exact iff_of_true ⟨_, rfl⟩ (.inl ⟨herror, hdevice⟩)
  · refine iff_of_false (fun ⟨r, h⟩ => nomatch h) ?_
    rintro (⟨-, h⟩ | h)
    · exact hdevice h
    · simp only [isRegisterReply, Bool.and_eq_true, decide_eq_true_eq] at h
      exact hdevice h.1.1.1.2
  · exact iff_of_true ⟨_, rfl⟩ (.inr hreply)
  · refine iff_of_false (fun ⟨r, h⟩ => nomatch h) ?_
    rintro (⟨h, -⟩ | h)
    · exact herror h
    · exact hreply h

/-- The loop that goes on after a notification waits for no answer. -/
theorem asked?_of_hand {w w' : Wait} {data : Bytes} {n : HidppNotification}
    (h : w.onReport data = .hand n w') : w'.asked? = none := by
  cases w with
  | feature asked =>
      rw [onReport] at h
      split_ifs at h
      exact absurd h stashed_ne_hand
  | packet form asked =>
      rw [onReport] at h
      split_ifs at h
      split at h
      · split_ifs at h
        exact absurd h stashed_ne_hand
      · exact absurd h stashed_ne_hand
  | register target request params =>
      rw [onReport] at h
      split_ifs at h
  | probe target =>
      rw [onReport] at h
      split_ifs at h
  | receive =>
      rw [onReport] at h
      split at h <;> cases h
  | drain maxCount ns =>
      rw [onReport] at h
      split at h
      · split_ifs at h
        cases h
        rfl
      · cases h

theorem receive_not_finish {w : Wait} {data : Bytes} {r : CallResult}
    (hw : w = .receive ∨ ∃ maxCount ns, w = .drain maxCount ns) : w.onReport data ≠ .finish r := by
  rcases hw with rfl | ⟨maxCount, ns, rfl⟩
  · rw [onReport]
    split <;> exact nofun
  · rw [onReport]
    split
    · split_ifs <;> exact nofun
    · exact nofun

/-- The report is none that the wait for a register takes, or it answers no feature request. -/
def clear (source : Option ℕ) (data : Bytes) : Wait → Bool
  | register target request params =>
      source.isNone || !(isHidppError data && byteAt data 1 = target) &&
        !isRegisterReply target request params data
  | _ => true

end Wait

/-! ## Runs -/

namespace HidrawLine
variable {s t : HidrawLine}

/-- The answers are read before their software id is used again. -/
def timely (s : HidrawLine) : LineStep → Bool
  | .read => match s.unread with
      | (some i, _) :: _ => s.asked.length ≤ i + 15
      | _ => true
  | _ => true

/-- A register read reads no answer to a feature request that is an error of its target, or
looks like the reply to it. -/
def registerClear (s : HidrawLine) : LineStep → Bool
  | .read => match s.wait, s.unread with
      | some w, (source, data) :: _ => w.clear source data
      | _, _ => true
  | _ => true

/-- The requests have their numbers for software ids, and nothing that has arrived is an
answer to none. -/
structure Numbered (first : ℕ) (s : HidrawLine) : Prop where
  next : s.transport.nextSwId.toNat = swNumber first s.asked.length
  ids : ∀ {i a}, s.asked[i]? = some a → a.softwareId.toNat = swNumber first i
  wait : ∀ {w a}, s.wait = some w → w.asked? = some a →
    s.asked[s.asked.length - 1]? = some a ∧ s.asked ≠ []
  unread : ∀ {i data}, (some i, data) ∈ s.unread → ∃ a, s.asked[i]? = some a ∧ a.IsAnswer data

theorem Asked.softwareId_of_isAnswer {a : Asked} {data : Bytes} (h : a.IsAnswer data)
    (hid : a.softwareId.toNat ≤ 15) : byteAt data 3 &&& 0x0F = a.softwareId := by
  rw [h.2.1, functionByte_and, ← UInt8.toNat_inj, toNat_and_nibble]
  exact Nat.mod_eq_of_lt (by omega)

namespace Numbered
variable {first : ℕ}

/-- A step that asks nothing. -/
theorem of_asked_eq (h : s.Numbered first)
    (hsw : t.transport.nextSwId = s.transport.nextSwId) (hasked : t.asked = s.asked)
    (hwait : ∀ w, t.wait = some w → s.wait = some w ∨ w.asked? = none)
    (hunread : ∀ r ∈ t.unread, r ∈ s.unread ∨
      ∀ i, r.1 = some i → ∃ a, s.asked[i]? = some a ∧ a.IsAnswer r.2) : t.Numbered first where
  next := by rw [hsw, hasked, h.next]
  ids := by
    rw [hasked]
    exact h.ids
  wait := by
    intro w a hw ha
    rw [hasked]
    rcases hwait w hw with hw | hnone
    · exact h.wait hw ha
    · rw [hnone] at ha
      cases ha
  unread := by
    intro i data hmem
    rw [hasked]
    rcases hunread _ hmem with hold | hnew
    · exact h.unread hold
    · exact hnew i rfl

theorem return_ (h : s.Numbered first) (r : CallResult) : (s.return_ r).Numbered first :=
  h.of_asked_eq rfl rfl nofun fun _ => .inl

theorem enter (h : s.Numbered first) (written : Bool) {w : Wait}
    (hw : ∀ a, w.asked? = some a → s.asked[s.asked.length - 1]? = some a ∧ s.asked ≠ []) :
    (s.enter written w).Numbered first := by
  unfold HidrawLine.enter
  split_ifs
  · exact { h with
      wait := by
        rintro _ a ⟨⟩ ha
        exact hw a ha }
  · exact h.return_ _

/-- A feature request has the next number. -/
theorem ask (h : s.Numbered first) (hidle : s.wait = none) {written : Bool}
    {feature function target : UInt8} {wait : Asked → Wait}
    (hwait : ∀ a, (wait a).asked? = some a) :
    (s.ask written feature function target wait).Numbered first := by
  have hbounds := swNumber_bounds first s.asked.length
  rw [← h.next] at hbounds
  obtain ⟨hid, hnext⟩ := takeSwId_toNat s.transport hbounds
  unfold HidrawLine.ask
  dsimp only
  generalize hasked : Asked.mk _ _ _ _ = asked
  have hsw : asked.softwareId = s.transport.nextSwId := by rw [← hasked, hid]
  refine enter { next := ?_, ids := ?_, wait := ?_, unread := ?_ } written ?_
  · show s.transport.takeSwId.2.nextSwId.toNat = swNumber first (s.asked ++ [asked]).length
    rw [hnext, List.length_append, List.length_singleton, swNumber_succ, h.next]
  · intro i a ha
    rcases Nat.lt_or_ge i s.asked.length with hlt | hge
    · rw [List.getElem?_append_left hlt] at ha
      exact h.ids ha
    · rw [List.getElem?_append_right hge] at ha
      have hi : i - s.asked.length = 0 := by
        have hlt := (List.getElem?_eq_some_iff.mp ha).1
        rw [List.length_singleton] at hlt
        omega
      rw [hi] at ha
      cases ha
      rw [hsw, h.next, show i = s.asked.length by omega]
  · intro w a hw
    rw [hidle] at hw
    cases hw
  · intro i data hmem
    obtain ⟨a, ha, hanswer⟩ := h.unread hmem
    have hlt : i < s.asked.length := (List.getElem?_eq_some_iff.mp ha).1
    exact ⟨a, (List.getElem?_append_left hlt).trans ha, hanswer⟩
  · intro a ha
    rw [hwait] at ha
    cases ha
    refine ⟨?_, List.concat_ne_nil _ _⟩
    rw [List.length_append, List.length_singleton, Nat.add_sub_cancel, List.getElem?_concat_length]

theorem call (h : s.Numbered first) (hidle : s.wait = none) (c : TransportCall)
    (written : Bool) : (s.call written c).Numbered first := by
  cases c with
  | sendFeatureRequest feature function params target =>
      unfold HidrawLine.call
      dsimp only
      split_ifs
      · exact h.return_ _
      · exact h.ask hidle fun _ => rfl
  | sendPacket form feature function params target => exact h.ask hidle fun _ => rfl
  | readRegister register params target =>
      unfold HidrawLine.call
      dsimp only
      split_ifs
      · exact h.return_ _
      · exact h.enter written nofun
  | probeHidpp10 target => exact h.enter written nofun
  | receiveNotification =>
      unfold HidrawLine.call
      dsimp only
      split_ifs
      · refine h.of_asked_eq rfl rfl ?_ fun _ => .inl
        rintro _ ⟨⟩
        exact .inr rfl
      · exact h.return_ _
  | drainNotifications maxCount =>
      unfold HidrawLine.call
      dsimp only
      split_ifs
      · exact h.return_ _
      · exact h.of_asked_eq rfl rfl nofun fun _ => .inl
      · refine h.of_asked_eq rfl rfl ?_ fun _ => .inl
        rintro _ ⟨⟩
        exact .inr rfl

theorem react (h : s.Numbered first) (w : Wait) (source : Option ℕ) (data : Bytes) :
    (s.react w source (w.onReport data)).Numbered first := by
  generalize hreaction : w.onReport data = reaction
  cases reaction with
  | ignore => exact h
  | stash n =>
      refine h.of_asked_eq ?_ rfl (fun _ => .inl) fun _ => .inl
      show (s.transport.stash n).nextSwId = _
      unfold HidppTransport.stash
      split_ifs <;> rfl
  | hand n w' =>
      refine h.of_asked_eq rfl rfl ?_ fun _ => .inl
      rintro _ ⟨⟩
      exact .inr (Wait.asked?_of_hand hreaction)
  | handLast n r => exact h.of_asked_eq rfl rfl nofun fun _ => .inl
  | finish r => exact h.of_asked_eq rfl rfl nofun fun _ => .inl

theorem step {l : LineStep} (h : s.Numbered first) (hstep : s.step l = some t) :
    t.Numbered first := by
  cases l with
  | call c written =>
      change (if _ then _ else _) = _ at hstep
      split_ifs at hstep with hidle
      cases hstep
      exact h.call (Option.isNone_iff_eq_none.mp hidle) c written
  | arrive source data =>
      change (if _ then _ else _) = _ at hstep
      split_ifs at hstep with hanswer
      cases hstep
      refine h.of_asked_eq rfl rfl (fun _ => .inl) ?_
      intro r hr
      rcases List.mem_append.mp hr with hold | hnew
      · exact .inl hold
      · rw [List.mem_singleton] at hnew
        subst hnew
        exact .inr hanswer
  | read =>
      unfold HidrawLine.step at hstep
      dsimp only at hstep
      split at hstep
      · rename_i w source data unread hwait hunread
        cases hstep
        refine react (s := { s with unread := unread }) ?_ w source data
        refine h.of_asked_eq rfl rfl (fun _ => .inl) fun r hr => .inl ?_
        rw [hunread]
        exact List.mem_cons_of_mem _ hr
      · cases hstep
  | expire =>
      obtain ⟨w, -, rfl⟩ := Option.map_eq_some_iff.mp hstep
      exact h.return_ _
  | hangUp =>
      obtain ⟨w, -, rfl⟩ := Option.map_eq_some_iff.mp hstep
      exact h.of_asked_eq rfl rfl nofun fun _ => .inl
  | setDeviceIndex idx =>
      cases hstep
      exact h.of_asked_eq rfl rfl (fun _ => .inl) fun _ => .inl
  | clearFeatureCache =>
      cases hstep
      exact h.of_asked_eq rfl rfl (fun _ => .inl) fun _ => .inl

end Numbered

/-- Only an answer that ends a loop is mistaken for another. -/
theorem mistaken_react {w : Wait} {source : Option ℕ} {reaction : Reaction}
    (h : ∀ r, reaction ≠ .finish r) : (s.react w source reaction).mistaken = s.mistaken := by
  cases reaction with
  | finish r => exact absurd rfl (h r)
  | _ => rfl

/-- An answer that is read in time, and ends the wait for an answer, is that answer. -/
theorem mistakes_eq_nil {first : ℕ} {w : Wait} {a b : Asked} {i : ℕ} {data : Bytes}
    {r : CallResult} (h : s.Numbered first) (hwait : s.wait = some w) (hasked : w.asked? = some a)
    (hb : s.asked[i]? = some b) (hanswer : b.IsAnswer data) (htimely : s.asked.length ≤ i + 15)
    (hfinish : w.onReport data = .finish r) : s.mistakes w (some i) = [] := by
  obtain ⟨ha, -⟩ := h.wait hwait hasked
  have hlt : i < s.asked.length := (List.getElem?_eq_some_iff.mp hb).1
  have hid := h.ids hb
  have hbounds := swNumber_bounds first i
  have hsame : b.softwareId = a.softwareId := by
    rw [← Asked.softwareId_of_isAnswer hanswer (by omega)]
    exact Wait.softwareId_of_finish hasked hfinish
  have hnumber : swNumber first i = swNumber first (s.asked.length - 1) := by
    rw [← hid, ← h.ids ha, hsame]
  have hlast : i = s.asked.length - 1 := swNumber_inj (by omega) (by omega) hnumber
  have hsome : w.asked?.isSome = true := by rw [hasked, Option.isSome_some]
  exact if_pos ⟨hsome, by omega⟩

/-- **What a read mistakes.**  Read in time, an answer that ends another call than its own
ends a register read. -/
theorem mistaken_read {first : ℕ} (h : s.Numbered first) (hnone : s.mistaken = [])
    (htimely : s.timely .read) (hstep : s.step .read = some t) :
    t.mistaken = [] ↔ s.registerClear .read := by
  unfold HidrawLine.step at hstep
  dsimp only at hstep
  split at hstep
  · rename_i w source data unread hwait hunread
    cases hstep
    have hclear : s.registerClear .read = w.clear source data := by
      simp only [registerClear, hwait, hunread]
    rw [hclear]
    -- only answers to feature requests can be mistaken
    cases source with
    | none =>
        have hw : w.clear none data = true := by cases w <;> rfl
        refine iff_of_true ?_ hw
        cases w.onReport data with
        | finish r =>
            show s.mistaken ++ [] = []
            rw [hnone, List.append_nil]
        | _ => exact hnone
    | some i =>
        obtain ⟨b, hb, hanswer⟩ := h.unread (hunread ▸ List.mem_cons_self)
        -- the software ids go round in fifteen requests, so in time there is only one
        have hlate : s.asked.length ≤ i + 15 := by
          simpa only [timely, hunread, decide_eq_true_eq] using htimely
        have hstay : (∀ r, w.onReport data ≠ .finish r) →
            (react { s with unread := unread } w (some i) (w.onReport data)).mistaken = [] :=
          fun hgo => (mistaken_react hgo).trans hnone
        -- the feature and packet loops compare the software id, of replies and errors
        have hown : ∀ a, w.asked? = some a →
            (react { s with unread := unread } w (some i) (w.onReport data)).mistaken = [] := by
          intro a ha
          by_cases hfinish : ∃ r, w.onReport data = .finish r
          · obtain ⟨r, hr⟩ := hfinish
            rw [hr]
            show s.mistaken ++ s.mistakes w (some i) = []
            rw [hnone, mistakes_eq_nil h hwait ha hb hanswer hlate hr, List.append_nil]
          · exact hstay (not_exists.mp hfinish)
        cases w with
        | feature a => exact iff_of_true (hown a rfl) rfl
        | packet form a => exact iff_of_true (hown a rfl) rfl
        | register target request params =>
            -- a register read looks at the target of an error, and not at its software id
            have hiff := Wait.register_finish_iff target request params data
            by_cases hfinish : ∃ r, (Wait.register target request params).onReport data = .finish r
            · have hnot := hiff.mp hfinish
              obtain ⟨r, hr⟩ := hfinish
              rw [hr]
              refine iff_of_false (List.concat_ne_nil _ _) ?_
              simpa [Wait.clear, or_iff_not_imp_left] using hnot
            · have hnot := mt hiff.mpr hfinish
              refine iff_of_true (hstay (not_exists.mp hfinish)) ?_
              simpa [Wait.clear, imp_iff_not_or] using hnot
        | probe target =>
            refine iff_of_true (hstay fun r hr => ?_) rfl
            have hid := h.ids hb
            have hbounds := swNumber_bounds first i
            -- a probe waits for replies with the software id 0, which no request has
            have hzero := Asked.softwareId_of_isAnswer hanswer (by omega)
            rw [Wait.byteAt_of_probe_finish hr] at hzero
            rw [← hzero] at hid
            exact absurd (hid.symm.trans (rfl : _ = 0)) (by omega)
        | receive => exact iff_of_true (hstay fun r => Wait.receive_not_finish (.inl rfl)) rfl
        | drain maxCount ns =>
            exact iff_of_true (hstay fun r => Wait.receive_not_finish (.inr ⟨_, _, rfl⟩)) rfl
  · cases hstep

theorem mistaken_enter (written : Bool) (w : Wait) :
    (s.enter written w).mistaken = s.mistaken := by
  unfold HidrawLine.enter
  split_ifs <;> rfl

theorem mistaken_call (c : TransportCall) (written : Bool) :
    (s.call written c).mistaken = s.mistaken := by
  unfold HidrawLine.call
  split
  · split_ifs
    · rfl
    · exact mistaken_enter _ _
  · exact mistaken_enter _ _
  · split_ifs
    · rfl
    · exact mistaken_enter _ _
  · exact mistaken_enter _ _
  · split_ifs <;> rfl
  · dsimp only
    split_ifs <;> rfl

theorem mistaken_step {first : ℕ} {l : LineStep} (h : s.Numbered first) (hnone : s.mistaken = [])
    (htimely : s.timely l) (hstep : s.step l = some t) : t.mistaken = [] ↔ s.registerClear l := by
  cases l with
  | read => exact mistaken_read h hnone htimely hstep
  | call c written =>
      change (if _ then _ else _) = _ at hstep
      split_ifs at hstep
      cases hstep
      exact iff_of_true ((mistaken_call c written).trans hnone) rfl
  | arrive source data =>
      change (if _ then _ else _) = _ at hstep
      split_ifs at hstep
      cases hstep
      exact iff_of_true hnone rfl
  | expire | hangUp =>
      obtain ⟨w, -, rfl⟩ := Option.map_eq_some_iff.mp hstep
      exact iff_of_true hnone rfl
  | setDeviceIndex idx | clearFeatureCache =>
      cases hstep
      exact iff_of_true hnone rfl

theorem Numbered.start (hstart : machine.Start s) : ∃ first, s.Numbered first := by
  obtain ⟨transport, hlow, hhigh, -, rfl⟩ := hstart
  have hlow : 1 ≤ transport.nextSwId.toNat := hlow
  have hhigh : transport.nextSwId.toNat ≤ 15 := hhigh
  refine ⟨transport.nextSwId.toNat, ?_, nofun, nofun, nofun⟩
  show transport.nextSwId.toNat = (transport.nextSwId.toNat - 1 + 0) % 15 + 1
  omega

/-- **Late answers are harmless to everything but register reads.**  In a run that reads the
answers in time, and whose register reads read none that they take for their own, no
answer ends another call than its own; and a step can break this only by such a read. -/
theorem late_answers_harmless (s : HidrawLine)
    (hrun : machine.Run (fun s l => s.timely l ∧ s.registerClear l) s) :
    s.mistaken = [] ∧ ∀ l t, s.timely l → machine.step s l = some t →
      (t.mistaken = [] ↔ s.registerClear l) := by
  obtain ⟨⟨first, h⟩, hnone⟩ : (∃ first, s.Numbered first) ∧ s.mistaken = [] := by
    refine hrun.invariant (I := fun s => (∃ first, s.Numbered first) ∧ s.mistaken = []) ?_ ?_
    · rintro s hstart
      refine ⟨Numbered.start hstart, ?_⟩
      obtain ⟨transport, -, -, -, rfl⟩ := hstart
      rfl
    · rintro s l t ⟨⟨first, h⟩, hnone⟩ ⟨htimely, hclear⟩ hstep
      exact ⟨⟨first, h.step hstep⟩, (mistaken_step h hnone htimely hstep).mpr hclear⟩
  exact ⟨hnone, fun l t htimely hstep => mistaken_step h hnone htimely hstep⟩

/-- A request times out, and its reply comes while the next one waits. -/
def lateReply : List LineStep :=
  [.call (.sendFeatureRequest 5 0 [] 1) true, .expire, .call (.sendFeatureRequest 5 0 [] 1) true,
    .arrive (some 0) (longReport 5 0x01), .arrive (some 1) (longReport 5 0x02), .read, .read]

theorem late_answers_harmless_reply :
    ∃ s, machine.Run (fun s l => s.timely l ∧ s.registerClear l) s ∧ s.unread = [] ∧
      s.result = some (.payload (some (List.replicate 16 0))) ∧ s.mistaken = [] := by
  have hexec : (machine.exec (fun s l => s.timely l ∧ s.registerClear l) unused lateReply).any
      (fun s => decide (s.unread = [] ∧
        s.result = some (.payload (some (List.replicate 16 0))))) = true := by
    decide +kernel
  obtain ⟨s, hs, hresult⟩ := (Option.any_eq_true _ _).mp hexec
  obtain ⟨hunread, hresult⟩ := of_decide_eq_true hresult
  have hrun := Machine.Run.exec (.start unused_start) hs
  exact ⟨s, hrun, hunread, hresult, (late_answers_harmless s hrun).1⟩

/-- A request times out, and its error comes while a register read of the device waits. -/
def lateError : List LineStep :=
  [.call (.sendFeatureRequest 5 0 [] 1) true, .expire, .call (.readRegister 0x0D [] 1) true,
    .arrive (some 0) (longReport 0xFF 0x01), .read]

/-- The register read takes it for its own, and is given up. -/
theorem late_error_aborts : ¬∀ s, machine.Run (fun s l => s.timely l) s → s.mistaken = [] := by
  intro hall
  have hexec : (machine.exec (fun s l => s.timely l) unused lateError).any
      (fun s => decide (s.result = some (.payload none) ∧ s.mistaken = [0])) = true := by
    decide +kernel
  obtain ⟨s, hs, hmistaken⟩ := (Option.any_eq_true _ _).mp hexec
  obtain ⟨-, hmistaken⟩ := of_decide_eq_true hmistaken
  rw [hall s (.exec (.start unused_start) hs)] at hmistaken
  cases hmistaken

end HidrawLine
end AbrekMouse
