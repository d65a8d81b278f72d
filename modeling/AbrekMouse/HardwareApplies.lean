import AbrekMouse.HardwarePanel

/-! # The Applies of the hardware panel

The Applies keep their order, none is made twice, and the newest one is made unless the list of
devices changes (`applies_in_order`); each is for the device that the user has seen as selected,
if no list arrives while the user looks at the combo (`watched_list_misleads`).  No value that was
read is shown for another entry of the list, and no outcome of an Apply is told when its device is
gone from the list, whatever happens (`panel_paints_its_device`).
-/
namespace AbrekMouse
open ProgLib

namespace HwPanel
variable {c : List (UInt16 × UInt8) → LogitechControls} {s t : HwPanel} {l : PanelStep}

/-! ## What the callbacks keep -/

/-- Kept by each thing that a callback does. -/
structure Stable (P : HwPanel → Prop) : Prop where
  flags : ∀ s busy pendingQuery sensitive, P s → P { s with busy, pendingQuery, sensitive }
  thread : ∀ s w, P s → w.Fresh s → P { s with workers := s.workers ++ [w] }
  drop : ∀ s task, P s → s.pendingApply = some task → task.devsVersion ≠ s.devsVersion →
    P s.dropApply
  start : ∀ s task, P s → s.pendingApply = some task → task.devsVersion = s.devsVersion →
    P { s.dropApply with
      started := s.started ++ [task], workers := s.workers ++ [.apply task] }

namespace Stable
variable {P : HwPanel → Prop} (hP : Stable P)
include hP

theorem hwUpdateUiState (h : P s) : P (hwUpdateUiState c s) :=
  hP.flags s s.busy s.pendingQuery _ h

theorem hwThread {w : HwWorker} (h : P s) (hw : w.Fresh s) : P (hwThread c s w) :=
  hP.hwUpdateUiState (hP.flags { s with workers := s.workers ++ [w] } true s.pendingQuery
    s.sensitive (hP.thread s w h hw))

theorem hwStartScan (h : P s) : P (hwStartScan c s) := by
  unfold HwPanel.hwStartScan
  split_ifs
  · exact h
  · exact hP.hwThread h trivial

theorem hwQueryCurrent (h : P s) : P (hwQueryCurrent c s) := by
  unfold HwPanel.hwQueryCurrent
  cases hcur : s.current with
  | none => exact hP.flags s s.busy none s.sensitive h
  | some cur =>
      obtain ⟨idx, dev⟩ := cur
      dsimp only
      split_ifs
      · exact hP.flags s false none _ h
      · exact hP.flags s s.busy (some idx) s.sensitive h
      · exact hP.hwThread (hP.flags s s.busy none s.sensitive h) ⟨rfl, (current_eq_some hcur).2⟩

theorem iterate (reports : ℕ) (h : P s) : P ((HwPanel.hwQueryCurrent c)^[reports] s) := by
  induction reports generalizing s with
  | zero => exact h
  | succ reports ih => exact ih (hP.hwQueryCurrent h)

theorem hwStartPendingApply (h : P s) : P (hwStartPendingApply c s).2 := by
  unfold HwPanel.hwStartPendingApply
  cases hp : s.pendingApply with
  | none => exact h
  | some task =>
      dsimp only
      split_ifs with hv
      · exact hP.drop s task h hp hv
      · have hstarted := hP.start s task h hp (not_not.mp hv)
        exact hP.hwUpdateUiState (hP.flags _ true s.pendingQuery s.sensitive hstarted)

theorem hwAfterQuery (h : P s) : P (hwAfterQuery c s) := by
  unfold HwPanel.hwAfterQuery
  have hu := hP.hwStartPendingApply (c := c) h
  generalize HwPanel.hwStartPendingApply c s = result at hu ⊢
  rcases result with ⟨_ | _, u⟩
  · dsimp only at hu ⊢
    cases u.pendingQuery with
    | none => exact hu
    | some pq =>
        have hnone := hP.flags u u.busy none u.sensitive hu
        dsimp only
        split_ifs
        · exact hP.hwQueryCurrent hnone
        · exact hnone
  · exact hu

theorem released (h : P s) : P (released c s) :=
  hP.hwUpdateUiState (hP.flags s false s.pendingQuery s.sensitive h)

theorem hwQueried {idx v : ℕ} {dev : HidppDev} {read : HwRead} (h : P s)
    (hpaint : v = s.devsVersion → s.selected = some idx →
      P ((HwPanel.released c s).paint dev read)) : P (hwQueried c s idx dev v read) := by
  unfold HwPanel.hwQueried
  refine hP.hwAfterQuery ?_
  split_ifs with hif
  · exact hpaint hif.1 hif.2
  · exact hP.released h

theorem hwApplied {task : HwApplyTask} (h : P s) (hreport : task.devsVersion = s.devsVersion →
    P ((HwPanel.released c s).report task)) : P (hwApplied c s task) := by
  have hv : P (if task.devsVersion = (HwPanel.released c s).devsVersion then
      (HwPanel.released c s).report task else HwPanel.released c s) := by
    split_ifs with hlist
    · exact hreport hlist
    · exact hP.released h
  have hu := hP.hwStartPendingApply (c := c) hv
  unfold HwPanel.hwApplied
  dsimp only
  generalize HwPanel.hwStartPendingApply c _ = result at hu ⊢
  rcases result with ⟨_ | _, u⟩
  · dsimp only at hu ⊢
    split_ifs
    · exact hP.hwQueryCurrent hu
    · exact hP.hwQueryCurrent (hP.flags u u.busy none u.sensitive hu)
    · exact hu
  · exact hu

theorem hwScanned {devs : List HidppDev} {reports : ℕ}
    (hlist : s.popover = true → P (s.relisted devs))
    (hfill : s.popover = false → P (s.refilled devs)) : P (hwScanned c s devs reports) := by
  have hrebuilt : P (rebuilt c s devs reports) := by
    unfold HwPanel.rebuilt
    split_ifs with hpop
    · exact hlist hpop
    · exact hP.iterate reports (hfill (Bool.eq_false_of_not_eq_true hpop))
  have hui := hP.hwUpdateUiState (c := c) hrebuilt
  unfold HwPanel.hwScanned
  dsimp only
  generalize HwPanel.hwUpdateUiState c (rebuilt c s devs reports) = r at hui ⊢
  have hv : P (if devs = [] ∨ s.pendingApply.isSome = true then r
      else HwPanel.hwQueryCurrent c r) := by
    split_ifs
    · exact hui
    · exact hP.hwQueryCurrent hui
  have hu := hP.hwStartPendingApply (c := c) hv
  generalize HwPanel.hwStartPendingApply c _ = result at hu ⊢
  rcases result with ⟨_ | _, u⟩
  · dsimp only at hu ⊢
    split_ifs
    · exact hP.hwQueryCurrent hu
    · exact hu
  · exact hu

end Stable

/-! ## The Applies in order -/

/-- The Applies that have got a worker, and the one that waits. -/
def taken (s : HwPanel) : List HwApplyTask := s.started ++ s.pendingApply.toList

structure Ordered (s : HwPanel) : Prop where
  numbered : s.clicked.map HwApplyTask.number = List.range s.clicked.length
  sub : s.taken.Sublist s.clicked
  old : ∀ task ∈ s.clicked, task.devsVersion ≤ s.devsVersion
  newest : s.cancel = false → ∀ task, s.clicked.getLast? = some task →
    task.devsVersion = s.devsVersion → s.taken.getLast? = some task

theorem Ordered.of_eq (h : Ordered s) (hclicked : t.clicked = s.clicked)
    (htaken : t.taken = s.taken) (hversion : t.devsVersion = s.devsVersion)
    (hcancel : t.cancel = s.cancel) : Ordered t where
  numbered := by
    rw [hclicked]
    exact h.numbered
  sub := by
    rw [hclicked, htaken]
    exact h.sub
  old := by
    rw [hclicked, hversion]
    exact h.old
  newest := by
    rw [hclicked, htaken, hversion, hcancel]
    exact h.newest

theorem Ordered.stable : Stable Ordered where
  flags s busy pendingQuery sensitive h := h.of_eq rfl rfl rfl rfl
  thread s w h _ := h.of_eq rfl rfl rfl rfl
  drop s task h hp hv := by
    have hsub : s.taken = s.started ++ [task] := by
      rw [taken, hp]
      rfl
    have hdrop : s.dropApply.taken = s.started := List.append_nil s.started
    refine ⟨h.numbered, ?_, h.old, ?_⟩
    · rw [hdrop]
      exact (List.sublist_append_left s.started [task]).trans (hsub ▸ h.sub)
    · intro hlive last hlast hlastv
      have hnewest := h.newest hlive last hlast hlastv
      rw [hsub, List.getLast?_concat] at hnewest
      obtain rfl := Option.some.inj hnewest
      exact absurd hlastv hv
  start s task h hp _ := by
    refine h.of_eq rfl ?_ rfl rfl
    show (s.started ++ [task]) ++ [] = s.started ++ s.pendingApply.toList
    rw [hp, List.append_nil]
    rfl

theorem Ordered.relist (h : Ordered s) (devs combo : List HidppDev) (selected : Option ℕ) :
    Ordered { s.relisted devs with combo, selected } where
  numbered := h.numbered
  sub := h.sub
  old := fun task hmem => Nat.le_succ_of_le (h.old task hmem)
  newest := by
    intro _ task hlast hv
    have hle := h.old task (List.mem_of_getLast? hlast)
    have hv : task.devsVersion = s.devsVersion + 1 := hv
    omega

theorem Ordered.onHwApplyClicked (h : Ordered s) (hidle : s.busy = false → s.pendingApply = none)
    (dpi : ℤ) (rate : Option ℕ) (lod : ℤ) : Ordered (onHwApplyClicked c s dpi rate lod) := by
  unfold HwPanel.onHwApplyClicked
  cases s.current with
  | none => exact h
  | some cur =>
      dsimp only
      split_ifs
      · generalize htask : hwTask c s cur.1 cur.2 dpi rate lod = task
        have hnumber : task.number = s.clicked.length := by rw [← htask]; rfl
        have hversion : task.devsVersion = s.devsVersion := by rw [← htask]; rfl
        have hstarted : s.started.Sublist s.clicked :=
          (List.sublist_append_left _ _).trans h.sub
        have hnew {u : HwPanel} (hclicked : u.clicked = s.clicked ++ [task])
            (htaken : u.taken = s.started ++ [task]) (hv : u.devsVersion = s.devsVersion) :
            Ordered u := by
          refine ⟨?_, ?_, ?_, ?_⟩
          · rw [hclicked, List.map_append, h.numbered, List.length_append, List.length_singleton,
              List.range_succ, List.map_singleton, hnumber]
          · rw [hclicked, htaken]
            exact hstarted.append (List.Sublist.refl [task])
          · rw [hclicked, hv]
            intro t ht
            rcases List.mem_append.mp ht with ht | ht
            · exact h.old t ht
            · rw [List.mem_singleton.mp ht]
              exact hversion.le
          · intro _ last hlast _
            rw [hclicked, List.getLast?_concat] at hlast
            rw [htaken, List.getLast?_concat]
            exact hlast
        unfold HwPanel.hwQueueApply
        split_ifs with hbusy
        · exact hnew rfl rfl rfl
        · refine hnew rfl ?_ rfl
          show (s.started ++ [task]) ++ s.pendingApply.toList = _
          rw [hidle (Bool.eq_false_of_not_eq_true hbusy)]
          exact List.append_nil _
      · exact h

theorem Ordered.take {k : ℕ} {f : HwPanel → HwPanel} (h : Ordered s)
    (hf : Ordered (s.ended k) → Ordered (f (s.ended k))) : Ordered (s.take k f) := by
  have hended : Ordered (s.ended k) := h.of_eq rfl rfl rfl rfl
  unfold HwPanel.take
  split_ifs with hcancel
  · refine ⟨h.numbered, ?_, h.old, ?_⟩
    · show (s.started ++ []).Sublist s.clicked
      rw [List.append_nil]
      exact (List.sublist_append_left _ _).trans h.sub
    · intro hlive
      have hlive : s.cancel = false := hlive
      rw [hcancel] at hlive
      cases hlive
  · exact hf hended

theorem step_ordered (hkept : Kept s) (h : Ordered s) (ht : step c s l = some t) :
    Ordered t := by
  cases step_moved ht with
  | select i => exact Ordered.stable.hwQueryCurrent (h.of_eq rfl rfl rfl rfl)
  | popover shown => exact h.of_eq rfl rfl rfl rfl
  | refresh => exact Ordered.stable.hwStartScan h
  | click dpi rate lod hlive =>
      exact h.onHwApplyClicked (fun hidle => ((hkept.tidy hlive).idle hidle).2) dpi rate lod
  | tick =>
      obtain ⟨_, _, heq⟩ := hwNotificationTick_frame s
      rw [heq]
      exact h.of_eq rfl rfl rfl rfl
  | scanned k devs reports =>
      refine h.take fun hended => Ordered.stable.hwScanned ?_ ?_
      · exact fun _ => hended.relist devs _ _
      · exact fun _ => hended.relist devs _ _
  | queried k idx dev v =>
      refine h.take fun hended => Ordered.stable.hwQueried hended fun _ _ => ?_
      exact (Ordered.stable.released (c := c) hended).of_eq rfl rfl rfl rfl
  | applied k task =>
      refine h.take fun hended => Ordered.stable.hwApplied hended fun _ => ?_
      exact (Ordered.stable.released (c := c) hended).of_eq rfl rfl rfl rfl
  | notified k battery idx dev v =>
      obtain ⟨_, _, _, heq⟩ := takeNotification_frame s k idx dev v battery
      rw [heq]
      exact h.of_eq rfl rfl rfl rfl
  | destroy =>
      refine ⟨h.numbered, ?_, h.old, nofun⟩
      show (s.started ++ []).Sublist s.clicked
      rw [List.append_nil]
      exact (List.sublist_append_left _ _).trans h.sub

/-! ## The device that an Apply is for -/

/-- The combo shows the list, and each Apply was for the device selected in it. -/
structure Aimed (s : HwPanel) : Prop where
  combo : s.combo = s.hidppDevs
  clicked : ∀ task ∈ s.clicked, task.aimed = some task.dev

theorem Aimed.stable : Stable Aimed where
  flags _ _ _ _ h := ⟨h.combo, h.clicked⟩
  thread _ _ h _ := ⟨h.combo, h.clicked⟩
  drop _ _ h _ _ := ⟨h.combo, h.clicked⟩
  start _ _ h _ _ := ⟨h.combo, h.clicked⟩

theorem Aimed.onHwApplyClicked (h : Aimed s) (dpi : ℤ) (rate : Option ℕ) (lod : ℤ) :
    Aimed (onHwApplyClicked c s dpi rate lod) := by
  unfold HwPanel.onHwApplyClicked
  cases hcur : s.current with
  | none => exact h
  | some cur =>
      obtain ⟨hsel, hdev⟩ := current_eq_some hcur
      dsimp only
      split_ifs
      · have hnew : ∀ task ∈ s.clicked ++ [hwTask c s cur.1 cur.2 dpi rate lod],
            task.aimed = some task.dev := by
          intro task hmem
          rcases List.mem_append.mp hmem with hmem | hmem
          · exact h.clicked task hmem
          · rw [List.mem_singleton.mp hmem]
            show (s.selected.bind fun i => s.combo[i]?) = some cur.2
            rw [hsel, h.combo]
            exact hdev
        unfold HwPanel.hwQueueApply
        split_ifs
        · exact ⟨h.combo, hnew⟩
        · exact ⟨h.combo, hnew⟩
      · exact h

theorem Aimed.take {k : ℕ} {f : HwPanel → HwPanel} (h : Aimed s)
    (hf : Aimed (s.ended k) → Aimed (f (s.ended k))) : Aimed (s.take k f) := by
  have hended : Aimed (s.ended k) := ⟨h.combo, h.clicked⟩
  unfold HwPanel.take
  split_ifs
  · exact ⟨h.combo, h.clicked⟩
  · exact hf hended

/-- And no list arrives while the user looks at the combo. -/
def Calm (s : HwPanel) (l : PanelStep) : Prop :=
  Steady s l ∧ ∀ k devs reports, l = .scanned k devs reports → s.popover = false

instance (s : HwPanel) (l : PanelStep) : Decidable (Calm s l) := by
  unfold Calm
  cases l with
  | scanned k devs reports =>
      exact decidable_of_iff (Steady s (.scanned k devs reports) ∧ s.popover = false)
        (and_congr_right fun _ => ⟨fun h _ _ _ _ => h, fun h => h k devs reports rfl⟩)
  | _ => exact decidable_of_iff (Steady s _) ⟨fun h => ⟨h, nofun⟩, And.left⟩

theorem step_aimed (h : Aimed s) (hg : Calm s l) (ht : step c s l = some t) : Aimed t := by
  cases step_moved ht with
  | select i => exact Aimed.stable.hwQueryCurrent ⟨h.combo, h.clicked⟩
  | popover shown => exact ⟨h.combo, h.clicked⟩
  | refresh => exact Aimed.stable.hwStartScan h
  | click dpi rate lod => exact h.onHwApplyClicked dpi rate lod
  | tick =>
      obtain ⟨_, _, heq⟩ := hwNotificationTick_frame s
      rw [heq]
      exact ⟨h.combo, h.clicked⟩
  | scanned k devs reports =>
      have hpop := hg.2 k devs reports rfl
      refine h.take fun hended => Aimed.stable.hwScanned ?_ ?_
      · intro hshown
        cases hpop.symm.trans hshown
      · exact fun _ => ⟨rfl, hended.clicked⟩
  | queried k idx dev v =>
      refine h.take fun hended => Aimed.stable.hwQueried hended fun _ _ => ?_
      have hreleased := Aimed.stable.released (c := c) hended
      exact ⟨hreleased.combo, hreleased.clicked⟩
  | applied k task =>
      refine h.take fun hended => Aimed.stable.hwApplied hended fun _ => ?_
      have hreleased := Aimed.stable.released (c := c) hended
      exact ⟨hreleased.combo, hreleased.clicked⟩
  | notified k battery idx dev v =>
      obtain ⟨_, _, _, heq⟩ := takeNotification_frame s k idx dev v battery
      rw [heq]
      exact ⟨h.combo, h.clicked⟩
  | destroy => exact ⟨h.combo, h.clicked⟩

theorem run_ordered (h : (machine c).Run Calm s) : Kept s ∧ Ordered s ∧ Aimed s := by
  refine h.invariant (I := fun s => Kept s ∧ Ordered s ∧ Aimed s) ?_ ?_
  · rintro s rfl
    exact ⟨run_kept (c := c) (.start rfl), ⟨rfl, List.Sublist.refl [], nofun, nofun⟩,
      ⟨rfl, nofun⟩⟩
  · rintro s l t ⟨hkept, hordered, haimed⟩ hg ht
    exact ⟨step_kept hkept hg.1 ht, step_ordered hkept hordered ht, step_aimed haimed hg ht⟩

/-- **The Applies that are made are some of those asked for**, in their order and none twice, each
for the device that was shown as selected.  At rest the newest one has been made, unless the list
has changed since. -/
theorem applies_in_order (h : (machine c).Run Calm s) :
    s.started.Sublist s.clicked ∧ (s.started.map HwApplyTask.number).Pairwise (· < ·) ∧
      (∀ task ∈ s.started, task.aimed = some task.dev) ∧
      (s.cancel = false → s.workers = [] → ∀ task, s.clicked.getLast? = some task →
        task.devsVersion = s.devsVersion → s.started.getLast? = some task) := by
  obtain ⟨hkept, hordered, haimed⟩ := run_ordered h
  have hsub : s.started.Sublist s.clicked := (List.sublist_append_left _ _).trans hordered.sub
  refine ⟨hsub, ?_, fun task hmem => haimed.clicked task (hsub.subset hmem), ?_⟩
  · have hmap := hsub.map HwApplyTask.number
    rw [hordered.numbered] at hmap
    exact List.pairwise_lt_range.sublist hmap
  · intro hlive hidle task hlast hv
    have htidy := hkept.tidy hlive
    have hfree : s.pendingApply = none := by
      rcases htidy.flag with hf | ⟨-, w, hw, -⟩
      · exact (htidy.idle hf.1).2
      · cases hidle.symm.trans hw
    have hnewest := hordered.newest hlive task hlast hv
    rw [taken, hfree] at hnewest
    exact (List.append_nil s.started) ▸ hnewest

theorem applies_in_order_two : ∃ s, (machine panelControls).Run Calm s ∧
    s.clicked.map HwApplyTask.dpi = [800, 1600] ∧ s.started.map HwApplyTask.dpi = [1600] ∧
      s.started.Sublist s.clicked := by
  obtain ⟨s, hrun, hclicked, hstarted⟩ := Machine.exists_run (M := machine panelControls)
    (G := Calm) (P := fun s => s.clicked.map HwApplyTask.dpi = [800, 1600] ∧
      s.started.map HwApplyTask.dpi = [1600]) rfl busyApplies (by decide +kernel)
  exact ⟨s, hrun, hclicked, hstarted, (applies_in_order hrun).1⟩

/-- **An Apply for another device**: the list arrives while the user looks at the combo, which
keeps the names of the old one. -/
theorem watched_list_misleads : ∃ s, (machine panelControls).Run Steady s ∧
    s.started.map (fun task => (task.aimed, task.dev)) =
      [(some bareReceiver, { panelMouse with deviceIndex := 2 })] :=
  Machine.exists_run (M := machine panelControls) (G := Steady) rfl
    [.refresh, .scanned 0 [panelMouse, bareReceiver] 0, .queried 0 dpiRead, .select (some 1),
      .popover true, .refresh, .scanned 0 [panelMouse, { panelMouse with deviceIndex := 2 }] 0,
      .queried 0 dpiRead, .popover false, .click 800 none 0]
    (by decide +kernel)

/-! ## What is shown -/

/-- What was read from the list that is there was read from its device. -/
def Read (s : HwPanel) (idx : ℕ) (dev : HidppDev) (v : ℕ) : Prop :=
  v ≤ s.devsVersion ∧ (v = s.devsVersion → s.hidppDevs[idx]? = some dev)

/-- Each result is shown for the device it was read from, each outcome is told while the list has
the device of the Apply, and what is on its way was copied from the list or from an older one. -/
structure Painted (s : HwPanel) : Prop where
  painted : ∀ p ∈ s.painted, p.2 = some p.1
  reported : ∀ r ∈ s.reported, r.2 = some r.1.dev
  queries : ∀ idx dev v, .query idx dev v ∈ s.workers → s.Read idx dev v
  applies : ∀ task, .apply task ∈ s.workers → s.Read task.idx task.dev task.devsVersion
  waits : ∀ task, s.pendingApply = some task → s.Read task.idx task.dev task.devsVersion
  notifiers : ∀ idx dev v, (idx, dev, v) ∈ s.notifiers → s.Read idx dev v

/-- Nothing is added to what is on its way, or shown. -/
theorem Painted.of_eq (h : Painted s) (hpainted : t.painted = s.painted)
    (hreported : t.reported = s.reported) (hworkers : ∀ w ∈ t.workers, w ∈ s.workers)
    (hwaits : ∀ task, t.pendingApply = some task → s.pendingApply = some task)
    (hnotifiers : ∀ n ∈ t.notifiers, n ∈ s.notifiers)
    (hversion : t.devsVersion = s.devsVersion) (hdevs : t.hidppDevs = s.hidppDevs) :
    Painted t := by
  have hread {idx : ℕ} {dev : HidppDev} {v : ℕ} (h : s.Read idx dev v) : t.Read idx dev v := by
    unfold Read
    rw [hversion, hdevs]
    exact h
  refine ⟨?_, ?_, ?_, ?_, ?_, ?_⟩
  · rw [hpainted]
    exact h.painted
  · rw [hreported]
    exact h.reported
  · exact fun idx dev v hmem => hread (h.queries idx dev v (hworkers _ hmem))
  · exact fun task hmem => hread (h.applies task (hworkers _ hmem))
  · exact fun task htask => hread (h.waits task (hwaits task htask))
  · exact fun idx dev v hmem => hread (h.notifiers idx dev v (hnotifiers _ hmem))

/-- What a new worker has copied is what the list has. -/
theorem Painted.hire {w : HwWorker} (h : Painted s) (hw : w.Fresh s) :
    Painted { s with workers := s.workers ++ [w] } := by
  refine ⟨h.painted, h.reported, ?_, ?_, h.waits, h.notifiers⟩
  · intro idx dev v hmem
    rcases List.mem_append.mp hmem with hmem | hmem
    · exact h.queries idx dev v hmem
    · obtain rfl := (List.mem_singleton.mp hmem).symm
      exact ⟨hw.1.le, fun _ => hw.2⟩
  · intro task hmem
    rcases List.mem_append.mp hmem with hmem | hmem
    · exact h.applies task hmem
    · obtain rfl := (List.mem_singleton.mp hmem).symm
      exact ⟨hw.1.le, fun _ => hw.2⟩

theorem Painted.stable : Stable Painted where
  flags s _ _ _ h := h.of_eq rfl rfl (fun _ => id) (fun _ => id) (fun _ => id) rfl rfl
  thread s w h hw := h.hire hw
  drop s _ h _ _ := h.of_eq rfl rfl (fun _ => id) nofun (fun _ => id) rfl rfl
  start s task h hp hv := by
    have hfresh : HwWorker.Fresh s (.apply task) := ⟨hv, (h.waits task hp).2 hv⟩
    exact (h.hire hfresh).of_eq rfl rfl (fun _ => id) nofun (fun _ => id) rfl rfl

/-- What was read from an older list is not read from the new one. -/
theorem Painted.relist (h : Painted s) (devs combo : List HidppDev) (selected : Option ℕ) :
    Painted { s.relisted devs with combo, selected } := by
  have hread {idx : ℕ} {dev : HidppDev} {v : ℕ} (h : s.Read idx dev v) :
      Read { s.relisted devs with combo, selected } idx dev v := by
    have hle := h.1
    refine ⟨Nat.le_succ_of_le hle, fun hv => ?_⟩
    have hv : v = s.devsVersion + 1 := hv
    omega
  exact ⟨h.painted, h.reported, fun idx dev v hmem => hread (h.queries idx dev v hmem),
    fun task hmem => hread (h.applies task hmem), fun task htask => hread (h.waits task htask),
    fun idx dev v hmem => hread (h.notifiers idx dev v hmem)⟩

/-- A value is shown for the device that it was read from. -/
theorem Painted.paint {idx : ℕ} {dev : HidppDev} {v : ℕ} (h : Painted s)
    (hread : s.Read idx dev v) (hv : v = s.devsVersion) (hsel : s.selected = some idx)
    (shown : HwShown) :
    Painted { s with
      shown, painted := s.painted ++ [(dev, s.current.map Prod.snd)] } := by
  refine ⟨?_, h.reported, h.queries, h.applies, h.waits, h.notifiers⟩
  intro p hmem
  rcases List.mem_append.mp hmem with hmem | hmem
  · exact h.painted p hmem
  · rw [List.mem_singleton.mp hmem, current_of hsel (hread.2 hv)]
    rfl

/-- An outcome is told while the list has the device. -/
theorem Painted.report {task : HwApplyTask} (h : Painted s)
    (hread : s.Read task.idx task.dev task.devsVersion) (hv : task.devsVersion = s.devsVersion) :
    Painted (s.report task) := by
  refine ⟨h.painted, ?_, h.queries, h.applies, h.waits, h.notifiers⟩
  intro r hmem
  rcases List.mem_append.mp hmem with hmem | hmem
  · exact h.reported r hmem
  · rw [List.mem_singleton.mp hmem]
    exact hread.2 hv

theorem Painted.take {k : ℕ} {f : HwPanel → HwPanel} (h : Painted s)
    (hf : Painted (s.ended k) → Painted (f (s.ended k))) : Painted (s.take k f) := by
  have hended : Painted (s.ended k) := h.of_eq rfl rfl
    (fun _ hmem => List.mem_of_mem_eraseIdx hmem) (fun _ => id) (fun _ => id) rfl rfl
  unfold HwPanel.take
  split_ifs
  · exact hended.of_eq rfl rfl (fun _ => id) nofun (fun _ => id) rfl rfl
  · exact hf hended

theorem Painted.takeNotification {k idx : ℕ} {dev : HidppDev} {v : ℕ} (h : Painted s)
    (hk : s.notifiers[k]? = some (idx, dev, v)) (battery : Bool) :
    Painted (s.takeNotification k idx dev v battery) := by
  have hread := h.notifiers idx dev v (List.mem_of_getElem? hk)
  have hended (notifyBusy : Bool) :
      Painted { s with notifyBusy, notifiers := s.notifiers.eraseIdx k } :=
    h.of_eq rfl rfl (fun _ => id) (fun _ => id) (fun _ hmem => List.mem_of_mem_eraseIdx hmem)
      rfl rfl
  unfold HwPanel.takeNotification hwNotified
  dsimp only
  split_ifs with hcancel hif
  · exact hended s.notifyBusy
  · exact (hended false).paint hread hif.2.2.2 hif.1 s.shown
  · exact hended false

theorem Painted.hwNotificationTick (h : Painted s) : Painted s.hwNotificationTick := by
  unfold HwPanel.hwNotificationTick
  split_ifs
  · exact h
  · cases hcur : s.current with
    | none => exact h
    | some cur =>
        dsimp only
        split_ifs
        · exact h
        · refine ⟨h.painted, h.reported, h.queries, h.applies, h.waits, ?_⟩
          intro idx dev v hmem
          rcases List.mem_append.mp hmem with hmem | hmem
          · exact h.notifiers idx dev v hmem
          · cases List.mem_singleton.mp hmem
            exact ⟨le_refl _, fun _ => (current_eq_some hcur).2⟩

/-- An Apply is for the device that the list has in its place. -/
theorem Painted.hwQueueApply {task : HwApplyTask} (h : Painted s) (htask : task.Fresh s) :
    Painted (hwQueueApply c s task) := by
  unfold HwPanel.hwQueueApply
  split_ifs
  · refine ⟨h.painted, h.reported, h.queries, h.applies, ?_, h.notifiers⟩
    intro t ht
    obtain rfl := Option.some.inj ht
    exact ⟨htask.1.le, fun _ => htask.2⟩
  · refine Painted.stable.hwThread ?_ htask
    exact h.of_eq rfl rfl (fun _ => id) (fun _ => id) (fun _ => id) rfl rfl

theorem Painted.onHwApplyClicked (h : Painted s) (dpi : ℤ) (rate : Option ℕ) (lod : ℤ) :
    Painted (onHwApplyClicked c s dpi rate lod) := by
  unfold HwPanel.onHwApplyClicked
  cases hcur : s.current with
  | none => exact h
  | some cur =>
      dsimp only
      split_ifs
      · exact h.hwQueueApply ⟨rfl, (current_eq_some hcur).2⟩
      · exact h

theorem step_painted (h : Painted s) (ht : step c s l = some t) : Painted t := by
  cases step_moved ht with
  | select i =>
      refine Painted.stable.hwQueryCurrent ?_
      exact h.of_eq rfl rfl (fun _ => id) (fun _ => id) (fun _ => id) rfl rfl
  | popover shown => exact h.of_eq rfl rfl (fun _ => id) (fun _ => id) (fun _ => id) rfl rfl
  | refresh => exact Painted.stable.hwStartScan h
  | click dpi rate lod => exact h.onHwApplyClicked dpi rate lod
  | tick => exact h.hwNotificationTick
  | scanned k devs reports =>
      refine h.take fun hended => Painted.stable.hwScanned ?_ ?_
      · exact fun _ => hended.relist devs _ _
      · exact fun _ => hended.relist devs _ _
  | queried k idx dev v read hw =>
      have hread := h.queries idx dev v (List.mem_of_getElem? hw)
      refine h.take fun hended => Painted.stable.hwQueried hended fun hv hsel => ?_
      exact (Painted.stable.released (c := c) hended).paint hread hv hsel _
  | applied k task hw =>
      have hread := h.applies task (List.mem_of_getElem? hw)
      refine h.take fun hended => Painted.stable.hwApplied hended fun hv => ?_
      exact (Painted.stable.released (c := c) hended).report hread hv
  | notified k battery idx dev v hk => exact h.takeNotification hk battery
  | destroy => exact h.of_eq rfl rfl (fun _ => id) nofun (fun _ => id) rfl rfl

/-- **No result is shown for another entry of the list**, whatever is selected, scanned and
notified; and an outcome is only told while the list has the device of the Apply. -/
theorem panel_paints_its_device (h : (machine c).Reachable s) :
    (∀ p ∈ s.painted, p.2 = some p.1) ∧ ∀ r ∈ s.reported, r.2 = some r.1.dev := by
  have hpainted : Painted s := by
    refine h.invariant (I := Painted) ?_ ?_
    · rintro s rfl
      exact ⟨nofun, nofun, nofun, nofun, nofun, nofun⟩
    · exact fun s l t hs _ ht => step_painted hs ht
  exact ⟨hpainted.painted, hpainted.reported⟩

/-- Another mouse is selected while an Apply is made, and its outcome is told all the same. -/
theorem panel_paints_its_device_both : ∃ s, (machine panelControls).Reachable s ∧
    s.painted.map Prod.fst = [panelMouse, panelMouse] ∧
      s.reported.map (fun r => (r.1.dpi, r.2)) = [(800, some panelMouse)] ∧
      s.selected = some 1 ∧
      (∀ p ∈ s.painted, p.2 = some p.1) ∧ ∀ r ∈ s.reported, r.2 = some r.1.dev := by
  obtain ⟨s, hrun, hpainted, hreported, hsel⟩ := Machine.exists_run (M := machine panelControls)
    (G := fun _ _ => True) (P := fun s => s.painted.map Prod.fst = [panelMouse, panelMouse] ∧
      s.reported.map (fun r => (r.1.dpi, r.2)) = [(800, some panelMouse)] ∧
      s.selected = some 1) rfl
    [.refresh, .scanned 0 [panelMouse, { panelMouse with deviceIndex := 2 }] 0,
      .queried 0 dpiRead, .tick, .notified 0 true, .click 800 none 0, .select (some 1),
      .applied 0] (by decide +kernel)
  exact ⟨s, hrun, hpainted, hreported, hsel, panel_paints_its_device hrun⟩

end HwPanel
end AbrekMouse
