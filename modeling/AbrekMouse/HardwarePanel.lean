import AbrekMouse.HidppIdentity
import AbrekMouse.Machine

/-! # The hardware panel

The panel hands the hidraw node to one worker at a time: a scan, a query of the selected device,
or an Apply.  What the user asks for in the meantime waits: of the Applies the newest, and of the
selections the last.  So no two workers use a node at the same time, a worker that ends finds the
list of devices it started with, and when the panel comes to rest, the last result that it has
shown is of the device that is selected (`one_hardware_worker`, `panel_settles`).

All this holds while no device without HID++ is selected during the work of a worker: such a
selection clears the flag of the worker (`bare_selection_doubles`).
-/
namespace AbrekMouse
open ProgLib

/-! ## The panel -/

/-- `logitech_controls`: what the features of a device let the panel set. -/
structure LogitechControls where
  dpi : Bool := false
  reportRate : Bool := false
  reportRateExtended : Bool := false
  lod : Bool := false
deriving DecidableEq

namespace LogitechControls
variable (c : LogitechControls)

/-- One of the two features for the rate is there. -/
def canRate : Bool := c.reportRate || c.reportRateExtended

/-- Is there anything to apply? -/
def any : Bool := c.dpi || c.canRate || c.lod

end LogitechControls

/-- An Apply, with the values of the widgets at the click.  The last two fields are for the
proofs: how many Applies came before, and the device that the list showed as selected. -/
structure HwApplyTask where
  idx : ℕ
  dev : HidppDev
  doDpi : Bool
  doRate : Bool
  doLod : Bool
  dpi : ℕ
  /-- 0 asks for no change. -/
  rateHz : ℕ
  lod : ℕ
  devsVersion : ℕ
  number : ℕ
  aimed : Option HidppDev
deriving DecidableEq

/-- A thread that has the node.  The devices are copies that the main thread has made. -/
inductive HwWorker where
  | scan
  | query (idx : ℕ) (dev : HidppDev) (devsVersion : ℕ)
  | apply (task : HwApplyTask)
deriving DecidableEq

/-- What `hw_update_ui_state` lets the user touch. -/
structure HwSensitive where
  dpiSpin : Bool := false
  rateCombo : Bool := false
  lodCombo : Bool := false
  applyBtn : Bool := false
  refreshBtn : Bool := true
deriving DecidableEq

/-- What a query has found: did the device tell any of its settings, and for which of the widgets
is there a value.  The list of rates is not replaced while the user looks at it. -/
structure HwRead where
  ok : Bool
  dpi : Bool
  rate : Bool
  lod : Bool
deriving DecidableEq

/-- The last result of a query that was shown, and for each widget the device that it last got a
value of. -/
structure HwShown where
  last : Option (HidppDev × HwRead) := none
  dpiSpin : Option HidppDev := none
  rateCombo : Option HidppDev := none
  lodCombo : Option HidppDev := none
deriving DecidableEq

/-- The panel: what the main thread keeps of the devices, the workers and the widgets. -/
structure HwPanel where
  hidppDevs : List HidppDev := []
  devsVersion : ℕ := 0
  /-- The devices whose names are in the combo, and the selected one. -/
  combo : List HidppDev := []
  selected : Option ℕ := none
  popover : Bool := false
  busy : Bool := false
  pendingQuery : Option ℕ := none
  pendingApply : Option HwApplyTask := none
  /-- The threads whose results the main thread has not taken. -/
  workers : List HwWorker := []
  notifyBusy : Bool := false
  notifiers : List (ℕ × HidppDev × ℕ) := []
  cancel : Bool := false
  sensitive : HwSensitive := {}
  shown : HwShown := {}
  /-- Each result shown so far: the device it was read from, and the one selected then. -/
  painted : List (HidppDev × Option HidppDev) := []
  /-- Each Apply whose outcome the status line has told, and the device that the list had in its
  place then. -/
  reported : List (HwApplyTask × Option HidppDev) := []
  /-- The Applies that were accepted, and those that got a worker. -/
  clicked : List HwApplyTask := []
  started : List HwApplyTask := []
deriving DecidableEq

/-- What the user does, and the results that the main thread takes. -/
inductive PanelStep where
  | select (i : Option ℕ)
  | popover (shown : Bool)
  | refresh
  | click (dpi : ℤ) (rate : Option ℕ) (lod : ℤ)
  | tick
  /-- The toolkit reports the selection while the list is rebuilt, some times. -/
  | scanned (k : ℕ) (devs : List HidppDev) (reports : ℕ)
  | queried (k : ℕ) (read : HwRead)
  | applied (k : ℕ)
  | notified (k : ℕ) (battery : Bool)
  | destroy

namespace HwPanel
variable (controls : List (UInt16 × UInt8) → LogitechControls) (s : HwPanel)

/-- The selected device, if the list has it. -/
def current : Option (ℕ × HidppDev) :=
  s.selected.bind fun i => s.hidppDevs[i]?.map fun d => (i, d)

/-- The controls are gated by what the selected device advertises, and off during any work. -/
def hwUpdateUiState : HwPanel :=
  let listed := !s.busy && !s.hidppDevs.isEmpty
  let c : LogitechControls :=
    match s.current with
    | some (_, d) => if listed then controls d.features else {}
    | none => {}
  { s with sensitive := {
      dpiSpin := listed && c.dpi
      rateCombo := listed && c.canRate
      lodCombo := listed && c.lod
      applyBtn := listed && c.any
      refreshBtn := !s.busy } }

/-- A worker gets the node. -/
def hwThread (w : HwWorker) : HwPanel :=
  hwUpdateUiState controls { s with busy := true, workers := s.workers ++ [w] }

/-- A scan of the devices, unless a worker is at work. -/
def hwStartScan : HwPanel :=
  if s.busy then s else hwThread controls s .scan

/-- A query of the selected device, or its selection kept for later while a worker is at work. -/
def hwQueryCurrent : HwPanel :=
  match s.current with
  | none => { s with pendingQuery := none }
  | some (idx, dev) =>
      -- also while a worker is at work
      if dev.protocolVersion = 0 then
        hwUpdateUiState controls { s with pendingQuery := none, busy := false }
      else if s.busy then { s with pendingQuery := some idx }
      else hwThread controls { s with pendingQuery := none } (.query idx dev s.devsVersion)

/-- The Apply that waits is forgotten. -/
def dropApply : HwPanel := { s with pendingApply := none }

/-- The Apply that waits, unless the list has changed since. -/
def hwStartPendingApply : Bool × HwPanel :=
  match s.pendingApply with
  | none => (false, s)
  | some t =>
      if t.devsVersion ≠ s.devsVersion then (false, s.dropApply)
      else
        (true, hwThread controls { s.dropApply with started := s.started ++ [t] } (.apply t))

/-- After a query: the Apply that waits, or the selection that does. -/
def hwAfterQuery : HwPanel :=
  match hwStartPendingApply controls s with
  | (true, s) => s
  | (false, s) =>
      match s.pendingQuery with
      | none => s
      | some pq =>
          let s := { s with pendingQuery := none }
          if pq < s.hidppDevs.length then hwQueryCurrent controls s else s

/-- What was found is put on the widgets, and the status line and the battery tell of it; a widget
for which nothing was found keeps what it has. -/
def paint (dev : HidppDev) (read : HwRead) : HwPanel :=
  { s with
    shown := {
      last := some (dev, read)
      dpiSpin := if read.dpi then some dev else s.shown.dpiSpin
      rateCombo := if read.rate then some dev else s.shown.rateCombo
      lodCombo := if read.lod then some dev else s.shown.lodCombo }
    painted := s.painted ++ [(dev, s.current.map Prod.snd)] }

/-- The status line tells the outcome of an Apply; it names no device. -/
def report (task : HwApplyTask) : HwPanel :=
  { s with reported := s.reported ++ [(task, s.hidppDevs[task.idx]?)] }

/-! ## The results of the workers -/

/-- The list of devices is replaced. -/
def relisted (devs : List HidppDev) : HwPanel :=
  { s with
    busy := false, pendingQuery := none, hidppDevs := devs, devsVersion := s.devsVersion + 1 }

/-- And the combo has its names, with the first one selected. -/
def refilled (devs : List HidppDev) : HwPanel :=
  { s.relisted devs with combo := devs, selected := if devs = [] then none else some 0 }

/-- The combo is filled from the new list, if the user does not look at it. -/
def rebuilt (devs : List HidppDev) (reports : ℕ) : HwPanel :=
  if s.popover then s.relisted devs
  else (hwQueryCurrent controls)^[reports] (s.refilled devs)

/-- The list of a scan: the selected device is queried, unless an Apply waits. -/
def hwScanned (devs : List HidppDev) (reports : ℕ) : HwPanel :=
  let applyQueued := s.pendingApply.isSome
  let s := hwUpdateUiState controls (rebuilt controls s devs reports)
  let s := if devs = [] ∨ applyQueued then s else hwQueryCurrent controls s
  match hwStartPendingApply controls s with
  | (true, s) => s
  | (false, s) => if applyQueued ∧ devs ≠ [] then hwQueryCurrent controls s else s

/-- The node is free again. -/
def released : HwPanel := hwUpdateUiState controls { s with busy := false }

/-- What was read from a list that is gone, or from a device that is not selected any more, is
not shown. -/
def hwQueried (idx : ℕ) (dev : HidppDev) (devsVersion : ℕ) (read : HwRead) : HwPanel :=
  let s := released controls s
  hwAfterQuery controls
    (if devsVersion = s.devsVersion ∧ s.selected = some idx then s.paint dev read else s)

/-- The outcome is told if the list is still there, whatever is selected.  Then the Apply that
waits is started, or the selected device is queried. -/
def hwApplied (task : HwApplyTask) : HwPanel :=
  let s := released controls s
  let s := if task.devsVersion = s.devsVersion then s.report task else s
  match hwStartPendingApply controls s with
  | (true, s) => s
  | (false, s) =>
      if task.devsVersion = s.devsVersion then hwQueryCurrent controls s
      else if s.pendingQuery.isSome then
        hwQueryCurrent controls { s with pendingQuery := none }
      else s

/-! ## The handlers -/

/-- The values of the widgets, as the task takes them. -/
def hwTask (idx : ℕ) (dev : HidppDev) (dpi : ℤ) (rate : Option ℕ) (lod : ℤ) : HwApplyTask :=
  let c := controls dev.features
  { idx, dev
    doDpi := c.dpi
    doRate := c.canRate
    doLod := c.lod
    dpi := (max 100 (min dpi 32000)).toNat
    rateHz := if c.canRate then rate.getD 0 else 0
    lod := (max 1 (min (lod + 1) 3)).toNat
    devsVersion := s.devsVersion
    number := s.clicked.length
    aimed := s.selected.bind fun i => s.combo[i]? }

/-- The Apply starts, or waits in the place of the one that waited. -/
def hwQueueApply (task : HwApplyTask) : HwPanel :=
  if s.busy then { s with clicked := s.clicked ++ [task], pendingApply := some task }
  else
    hwThread controls { s with
      clicked := s.clicked ++ [task], started := s.started ++ [task] } (.apply task)

/-- The Apply button, for the device that is selected in the list. -/
def onHwApplyClicked (dpi : ℤ) (rate : Option ℕ) (lod : ℤ) : HwPanel :=
  match s.current with
  | none => s
  | some (idx, dev) =>
      if (controls dev.features).any then
        hwQueueApply controls s (hwTask controls s idx dev dpi rate lod)
      else s

/-- Devices without HID++ are not polled. -/
def hwNotificationTick : HwPanel :=
  if s.cancel ∨ s.busy ∨ s.notifyBusy ∨ s.hidppDevs = [] then s
  else
    match s.current with
    | none => s
    | some (idx, dev) =>
        if dev.protocolVersion = 0 then s
        else { s with notifyBusy := true, notifiers := s.notifiers ++ [(idx, dev, s.devsVersion)] }

/-- A level that the drained notifications have told is shown for the device it was read from. -/
def hwNotified (idx : ℕ) (dev : HidppDev) (devsVersion : ℕ) (battery : Bool) : HwPanel :=
  let s := { s with notifyBusy := false }
  if s.selected = some idx ∧ battery = true ∧ idx < s.hidppDevs.length ∧
      devsVersion = s.devsVersion then
    { s with painted := s.painted ++ [(dev, s.current.map Prod.snd)] }
  else s

/-- The result of a worker is taken, and the worker is gone. -/
def ended (k : ℕ) : HwPanel := { s with workers := s.workers.eraseIdx k }

/-- After the window is gone a result is only dropped. -/
def take (k : ℕ) (f : HwPanel → HwPanel) : HwPanel :=
  if s.cancel then (s.ended k).dropApply else f (s.ended k)

/-- After the window is gone a notification is only dropped. -/
def takeNotification (k idx : ℕ) (dev : HidppDev) (devsVersion : ℕ) (battery : Bool) : HwPanel :=
  let s := { s with notifiers := s.notifiers.eraseIdx k }
  if s.cancel then s else s.hwNotified idx dev devsVersion battery

/-- The signals reach the panel while the window is there, the results also after it. -/
def step : PanelStep → Option HwPanel
  | .select i =>
      if s.cancel then none else some (hwQueryCurrent controls { s with selected := i })
  | .popover shown => if s.cancel then none else some { s with popover := shown }
  | .refresh => if s.cancel then none else some (hwStartScan controls s)
  | .click dpi rate lod =>
      if s.cancel then none else some (onHwApplyClicked controls s dpi rate lod)
  | .tick => if s.cancel then none else some s.hwNotificationTick
  | .scanned k devs reports =>
      match s.workers[k]? with
      | some .scan => some (s.take k (hwScanned controls · devs reports))
      | _ => none
  | .queried k read =>
      match s.workers[k]? with
      | some (.query idx dev v) => some (s.take k (hwQueried controls · idx dev v read))
      | _ => none
  | .applied k =>
      match s.workers[k]? with
      | some (.apply task) => some (s.take k (hwApplied controls · task))
      | _ => none
  | .notified k battery =>
      match s.notifiers[k]? with
      | some (idx, dev, v) => some (s.takeNotification k idx dev v battery)
      | none => none
  | .destroy =>
      if s.cancel then none
      else some { s.dropApply with cancel := true, pendingQuery := none }

/-- A window that has just been opened, and its runs. -/
def machine : Machine HwPanel PanelStep where
  Start s := s = {}
  step := step controls

/-! ## One worker -/

end HwPanel

/-- The last result is of this device, and what it had found is on the widgets. -/
structure HwShown.Of (shown : HwShown) (dev : HidppDev) (read : HwRead) : Prop where
  last : shown.last = some (dev, read)
  dpi : read.dpi = true → shown.dpiSpin = some dev
  rate : read.rate = true → shown.rateCombo = some dev
  lod : read.lod = true → shown.lodCombo = some dev

/-- The list has the device of the task in its place. -/
def HwApplyTask.Fresh (s : HwPanel) (task : HwApplyTask) : Prop :=
  task.devsVersion = s.devsVersion ∧ s.hidppDevs[task.idx]? = some task.dev

/-- What a worker has copied is what the list has. -/
def HwWorker.Fresh (s : HwPanel) : HwWorker → Prop
  | .scan => True
  | .query idx dev devsVersion => devsVersion = s.devsVersion ∧ s.hidppDevs[idx]? = some dev
  | .apply task => task.Fresh s

namespace HwPanel
variable {c : List (UInt16 × UInt8) → LogitechControls} {s t : HwPanel} {l : PanelStep}

/-- The flag tells whether a worker has the node, and only then an Apply waits. -/
structure Alone (s : HwPanel) : Prop where
  flag : (s.busy = false ∧ s.workers = []) ∨ (s.busy = true ∧ ∃ w, s.workers = [w] ∧ w.Fresh s)
  waits : ∀ task, s.pendingApply = some task → s.busy = true ∧ task.Fresh s

/-- What is put on the widgets is of the device. -/
theorem paint_shown (s : HwPanel) (dev : HidppDev) (read : HwRead) :
    (s.paint dev read).shown.Of dev read where
  last := rfl
  dpi h := if_pos h
  rate h := if_pos h
  lod h := if_pos h

/-- And the panel shows the selected device, or is going to. -/
structure Tidy (s : HwPanel) : Prop extends Alone s where
  stashed : ∀ pq, s.pendingQuery = some pq →
    s.busy = true ∧ ∃ d, s.current = some (pq, d) ∧ d.protocolVersion ≠ 0
  follows : ∀ idx dev v, .query idx dev v ∈ s.workers →
    s.selected = some idx ∨ s.pendingQuery ≠ none ∨ s.current = none
  settled : s.busy = false → ∀ idx d, s.current = some (idx, d) → d.protocolVersion ≠ 0 →
    ∃ read, s.shown.Of d read

/-- No worker has the node. -/
structure Free (s : HwPanel) : Prop where
  busy : s.busy = false
  workers : s.workers = []
  waits : ∀ task, s.pendingApply = some task → task.Fresh s
  stashed : ∀ pq, s.pendingQuery = some pq →
    ∃ d, s.current = some (pq, d) ∧ d.protocolVersion ≠ 0

theorem current_eq_some {idx : ℕ} {d : HidppDev} (h : s.current = some (idx, d)) :
    s.selected = some idx ∧ s.hidppDevs[idx]? = some d := by
  unfold current at h
  cases hsel : s.selected with
  | none => rw [hsel] at h; cases h
  | some i =>
      rw [hsel, Option.bind_some, Option.map_eq_some_iff] at h
      obtain ⟨d', hd', heq⟩ := h
      obtain ⟨rfl, rfl⟩ := Prod.mk.inj heq
      exact ⟨rfl, hd'⟩

theorem current_of {idx : ℕ} {d : HidppDev} (hsel : s.selected = some idx)
    (hd : s.hidppDevs[idx]? = some d) : s.current = some (idx, d) := by
  rw [current, hsel, Option.bind_some, hd, Option.map_some]

/-- A query is started, or is going to be. -/
theorem hwQueryCurrent_tidy (h : Alone s)
    (hbare : s.busy = true → ∀ idx d, s.current = some (idx, d) → d.protocolVersion ≠ 0) :
    Tidy (hwQueryCurrent c s) := by
  unfold hwQueryCurrent
  cases hcur : s.current with
  | none =>
      refine { h with stashed := ?_, follows := ?_, settled := ?_ }
      · intro pq hpq
        cases hpq
      · intro idx dev v _
        exact .inr (.inr hcur)
      · intro _ idx d hd
        cases hcur.symm.trans hd
  | some cur =>
      obtain ⟨idx, dev⟩ := cur
      obtain ⟨hsel, hdev⟩ := current_eq_some hcur
      dsimp only
      split_ifs with hprot hbusy
      · have hidle : s.busy = false := by
          cases hb : s.busy with
          | false => rfl
          | true => exact absurd hprot (hbare hb idx dev hcur)
        have hflag : s.workers = [] := by
          rcases h.flag with hf | hf
          · exact hf.2
          · rw [hidle] at hf
            cases hf.1
        refine ⟨⟨.inl ⟨rfl, hflag⟩, ?_⟩, ?_, ?_, ?_⟩
        · intro task htask
          have hb := (h.waits task htask).1
          rw [hidle] at hb
          cases hb
        · intro pq hpq
          cases hpq
        · intro i d v hmem
          have hmem : HwWorker.query i d v ∈ s.workers := hmem
          rw [hflag] at hmem
          cases hmem
        · intro _ i d hd hne
          have hd : s.current = some (i, d) := hd
          obtain ⟨rfl, rfl⟩ := Prod.mk.inj (Option.some.inj (hcur.symm.trans hd))
          exact absurd hprot hne
      · refine { h with stashed := ?_, follows := ?_, settled := ?_ }
        · intro pq hpq
          obtain rfl := Option.some.inj hpq
          exact ⟨hbusy, dev, hcur, hprot⟩
        · intro i d v _
          exact .inr (.inl nofun)
        · intro hidle
          have hidle : s.busy = false := hidle
          rw [hbusy] at hidle
          cases hidle
      · have hworkers : s.workers = [] := by
          rcases h.flag with hf | hf
          · exact hf.2
          · exact absurd hf.1 hbusy
        refine ⟨⟨.inr ⟨rfl, .query idx dev s.devsVersion, ?_, rfl, hdev⟩, ?_⟩, ?_, ?_, ?_⟩
        · show s.workers ++ [_] = [_]
          rw [hworkers, List.nil_append]
        · intro task htask
          exact absurd (h.waits task htask).1 hbusy
        · intro pq hpq
          cases hpq
        · intro i d v hmem
          have hmem : HwWorker.query i d v ∈ s.workers ++ [.query idx dev s.devsVersion] := hmem
          rw [hworkers, List.nil_append, List.mem_singleton] at hmem
          cases hmem
          exact .inl hsel
        · intro hidle
          cases hidle

theorem Free.alone (h : Free s) (hnone : s.pendingApply = none) : Alone s where
  flag := .inl ⟨h.busy, h.workers⟩
  waits := by
    intro task htask
    cases hnone.symm.trans htask

/-- An Apply gets the free node. -/
theorem Free.apply {task : HwApplyTask} (h : Free s) (hfresh : task.Fresh s) :
    Tidy (hwThread c { s.dropApply with
      started := s.started ++ [task] } (.apply task)) := by
  refine ⟨⟨.inr ⟨rfl, .apply task, ?_, hfresh⟩, ?_⟩, ?_, ?_, ?_⟩
  · show s.workers ++ [_] = [_]
    rw [h.workers, List.nil_append]
  · intro t ht
    cases ht
  · intro pq hpq
    exact ⟨rfl, h.stashed pq hpq⟩
  · intro idx dev v hmem
    have hmem : HwWorker.query idx dev v ∈ s.workers ++ [.apply task] := hmem
    rw [h.workers, List.nil_append, List.mem_singleton] at hmem
    cases hmem
  · intro hidle
    cases hidle

/-- An Apply that waits is started: nothing has changed since. -/
theorem Free.hwStartPendingApply (h : Free s) :
    (s.pendingApply = none ∧ hwStartPendingApply c s = (false, s)) ∨
      ∃ task, s.pendingApply = some task ∧ task.Fresh s ∧ hwStartPendingApply c s =
        (true, hwThread c { s.dropApply with
          started := s.started ++ [task] } (.apply task)) := by
  unfold HwPanel.hwStartPendingApply
  cases hp : s.pendingApply with
  | none => exact .inl ⟨rfl, rfl⟩
  | some task =>
      have hfresh := h.waits task hp
      refine .inr ⟨task, rfl, hfresh, ?_⟩
      dsimp only
      rw [if_neg (not_not_intro hfresh.1)]

theorem Free.hwQueryCurrent (h : Free s) (hnone : s.pendingApply = none) :
    Tidy (hwQueryCurrent c s) := by
  refine hwQueryCurrent_tidy (h.alone hnone) ?_
  intro hbusy
  rw [h.busy] at hbusy
  cases hbusy

theorem Free.hwAfterQuery (h : Free s) (hsettled : s.pendingQuery = none → ∀ idx d,
      s.current = some (idx, d) → d.protocolVersion ≠ 0 → ∃ read, s.shown.Of d read) :
    Tidy (hwAfterQuery c s) := by
  unfold HwPanel.hwAfterQuery
  rcases h.hwStartPendingApply (c := c) with ⟨hnone, heq⟩ | ⟨task, -, hfresh, heq⟩
  · rw [heq]
    dsimp only
    cases hpq : s.pendingQuery with
    | none =>
        refine { h.alone hnone with stashed := ?_, follows := ?_, settled := ?_ }
        · intro pq hsome
          cases hpq.symm.trans hsome
        · intro idx dev v hmem
          rw [h.workers] at hmem
          cases hmem
        · intro _
          exact hsettled hpq
    | some pq =>
        obtain ⟨d, hcur, hprot⟩ := h.stashed pq hpq
        obtain ⟨hsel, hd⟩ := current_eq_some hcur
        have hlt : pq < s.hidppDevs.length := (List.getElem?_eq_some_iff.mp hd).1
        dsimp only
        rw [if_pos hlt]
        refine hwQueryCurrent_tidy ⟨.inl ⟨h.busy, h.workers⟩, ?_⟩ ?_
        · exact (h.alone hnone).waits
        · intro hbusy
          have hbusy : s.busy = true := hbusy
          rw [h.busy] at hbusy
          cases hbusy
  · rw [heq]
    exact h.apply hfresh

/-! ## The steps -/

theorem Alone.idle (h : Alone s) (hidle : s.busy = false) :
    s.workers = [] ∧ s.pendingApply = none := by
  constructor
  · rcases h.flag with hf | hf
    · exact hf.2
    · rw [hidle] at hf
      cases hf.1
  · cases hp : s.pendingApply with
    | none => rfl
    | some task =>
        have hb := (h.waits task hp).1
        rw [hidle] at hb
        cases hb

/-- The worker has ended. -/
theorem Tidy.freed {k : ℕ} (h : Tidy s) (hnil : s.workers.eraseIdx k = []) :
    Free (released c (s.ended k)) where
  busy := rfl
  workers := hnil
  waits task htask := (h.waits task htask).2
  stashed pq hpq := (h.stashed pq hpq).2

theorem Tidy.free (h : Tidy s) (hidle : s.busy = false) : Free s where
  busy := hidle
  workers := (h.idle hidle).1
  waits task htask := (h.waits task htask).2
  stashed pq hpq := (h.stashed pq hpq).2

/-- The worker is the only one. -/
theorem Alone.taken {k : ℕ} {w : HwWorker} (h : Alone s) (hw : s.workers[k]? = some w) :
    w.Fresh s ∧ s.workers.eraseIdx k = [] := by
  rcases h.flag with ⟨-, hnil⟩ | ⟨-, w', heq, hfresh⟩
  · rw [hnil] at hw
    cases hw
  · rw [heq] at hw ⊢
    cases k with
    | zero =>
        cases hw
        exact ⟨hfresh, rfl⟩
    | succ k => cases hw

theorem Alone.select (h : Alone s) (i : Option ℕ) : Alone { s with selected := i } where
  flag := by
    rcases h.flag with hf | ⟨hb, w, hw, hfresh⟩
    · exact .inl hf
    · refine .inr ⟨hb, w, hw, ?_⟩
      cases w with
      | scan => exact hfresh
      | query => exact hfresh
      | apply => exact hfresh
  waits := h.waits

theorem Tidy.hwStartScan (h : Tidy s) : Tidy (hwStartScan c s) := by
  unfold HwPanel.hwStartScan
  split_ifs with hbusy
  · exact h
  · have hidle : s.busy = false := Bool.eq_false_of_not_eq_true hbusy
    have hfree := h.free hidle
    refine ⟨⟨.inr ⟨rfl, .scan, ?_, trivial⟩, ?_⟩, ?_, ?_, ?_⟩
    · show s.workers ++ [_] = [_]
      rw [hfree.workers, List.nil_append]
    · intro task htask
      exact absurd (h.waits task htask).1 hbusy
    · intro pq hpq
      exact absurd (h.stashed pq hpq).1 hbusy
    · intro idx dev v hmem
      have hmem : HwWorker.query idx dev v ∈ s.workers ++ [.scan] := hmem
      rw [hfree.workers, List.nil_append, List.mem_singleton] at hmem
      cases hmem
    · intro hf
      cases hf

theorem Tidy.hwQueried {idx : ℕ} {dev : HidppDev} {v k : ℕ} (h : Tidy s)
    (hw : s.workers[k]? = some (.query idx dev v)) (read : HwRead) :
    Tidy (hwQueried c (s.ended k) idx dev v read) := by
  obtain ⟨⟨hv, hdev⟩, hnil⟩ := h.taken hw
  have hfollows := h.follows idx dev v (List.mem_of_getElem? hw)
  have hfree : Free (released c (s.ended k)) := h.freed hnil
  unfold HwPanel.hwQueried
  dsimp only
  split_ifs with hsel
  · have hsel : s.selected = some idx := hsel.2
    refine Free.hwAfterQuery ⟨hfree.busy, hfree.workers, hfree.waits, hfree.stashed⟩ ?_
    intro _ i d hcur _
    have hcur : s.current = some (i, d) := hcur
    obtain ⟨rfl, rfl⟩ := Prod.mk.inj (Option.some.inj ((current_of hsel hdev).symm.trans hcur))
    exact ⟨read, paint_shown _ dev read⟩
  · refine hfree.hwAfterQuery ?_
    intro hpq i d hcur _
    rcases hfollows with hf | hf | hf
    · exact absurd ⟨hv, hf⟩ hsel
    · exact absurd hpq hf
    · cases hf.symm.trans hcur

theorem Tidy.hwApplied {task : HwApplyTask} {k : ℕ} (h : Tidy s)
    (hw : s.workers[k]? = some (.apply task)) :
    Tidy (hwApplied c (s.ended k) task) := by
  obtain ⟨hfresh, hnil⟩ := h.taken hw
  have hfreed : Free (released c (s.ended k)) := h.freed hnil
  have hfree : Free ((released c (s.ended k)).report task) :=
    ⟨hfreed.busy, hfreed.workers, hfreed.waits, hfreed.stashed⟩
  have hlist : task.devsVersion = (released c (s.ended k)).devsVersion := hfresh.1
  unfold HwPanel.hwApplied
  dsimp only
  rw [if_pos hlist]
  rcases hfree.hwStartPendingApply (c := c) with
    ⟨hnone, heq⟩ | ⟨t, -, ht, heq⟩
  · rw [heq]
    dsimp only
    rw [if_pos (show task.devsVersion = ((released c (s.ended k)).report task).devsVersion from
      hlist)]
    exact hfree.hwQueryCurrent hnone
  · rw [heq]
    exact hfree.apply ht

/-- Only the worker and the query that waits are touched. -/
theorem hwQueryCurrent_frame (c : List (UInt16 × UInt8) → LogitechControls) (s : HwPanel) :
    ∃ busy workers pendingQuery sensitive, hwQueryCurrent c s =
      { s with busy, workers, pendingQuery, sensitive } := by
  unfold hwQueryCurrent
  cases s.current with
  | none => exact ⟨_, _, _, _, rfl⟩
  | some cur =>
      dsimp only
      split_ifs
      · exact ⟨_, _, _, _, rfl⟩
      · exact ⟨_, _, _, _, rfl⟩
      · exact ⟨_, _, _, _, rfl⟩

theorem hwQueryCurrent_dropApply (s : HwPanel) :
    hwQueryCurrent c s.dropApply = (hwQueryCurrent c s).dropApply := by
  have hcur : s.dropApply.current = s.current := rfl
  have hbusy' : s.dropApply.busy = s.busy := rfl
  unfold hwQueryCurrent
  rw [hcur, hbusy']
  cases s.current with
  | none => rfl
  | some cur =>
      dsimp only
      split_ifs
      · rfl
      · rfl
      · rfl

/-- No worker is at work while a device without HID++ is selected. -/
def Honest (s : HwPanel) : Prop :=
  s.busy = true → ∀ idx d, s.current = some (idx, d) → d.protocolVersion ≠ 0

theorem Honest.hwQueryCurrent (h : Honest s) : Honest (hwQueryCurrent c s) := by
  unfold HwPanel.hwQueryCurrent
  cases hcur : s.current with
  | none => exact h
  | some cur =>
      obtain ⟨idx, dev⟩ := cur
      dsimp only
      split_ifs with hprot hbusy
      · intro hf
        cases hf
      · exact h
      · intro _ i d hd
        have hd : s.current = some (i, d) := hd
        obtain ⟨rfl, rfl⟩ := Prod.mk.inj (Option.some.inj (hcur.symm.trans hd))
        exact hprot

/-- The list is new, and its queries may be on their way. -/
structure Rebuilt (devs : List HidppDev) (s : HwPanel) : Prop extends Alone s where
  honest : Honest s
  list : s.hidppDevs = devs
  noApply : s.pendingApply = none
  empty : devs = [] → s.busy = false ∧ s.pendingQuery = none

theorem current_nil (h : s.hidppDevs = []) : s.current = none := by
  unfold current
  rw [h]
  cases s.selected with
  | none => rfl
  | some i => rfl

theorem Rebuilt.hwQueryCurrent {devs : List HidppDev} (h : Rebuilt devs s) :
    Rebuilt devs (hwQueryCurrent c s) := by
  obtain ⟨busy, workers, pendingQuery, sensitive, heq⟩ := hwQueryCurrent_frame c s
  refine { (hwQueryCurrent_tidy h.toAlone h.honest).toAlone with
    honest := h.honest.hwQueryCurrent, list := ?_, noApply := ?_, empty := ?_ }
  · rw [heq]
    exact h.list
  · rw [heq]
    exact h.noApply
  · intro hnil
    have hcur := current_nil (h.list.trans hnil)
    unfold HwPanel.hwQueryCurrent
    rw [hcur]
    exact ⟨(h.empty hnil).1, rfl⟩

theorem Rebuilt.iterate {devs : List HidppDev} (h : Rebuilt devs s) (reports : ℕ) :
    Rebuilt devs ((HwPanel.hwQueryCurrent c)^[reports] s) := by
  induction reports generalizing s with
  | zero => exact h
  | succ reports ih => exact ih h.hwQueryCurrent

theorem rebuilt_spec (hnil : s.workers = []) (hp : s.pendingApply = none) (devs : List HidppDev)
    (reports : ℕ) : Rebuilt devs (rebuilt c s devs reports) := by
  have hbase (combo : List HidppDev) (selected : Option ℕ) : Rebuilt devs { s with
      busy := false, pendingQuery := none, hidppDevs := devs
      devsVersion := s.devsVersion + 1, combo, selected } :=
    { flag := .inl ⟨rfl, hnil⟩
      waits := fun task htask => absurd (hp.symm.trans htask) nofun
      honest := fun hb => Bool.noConfusion hb
      list := rfl
      noApply := hp
      empty := fun _ => ⟨rfl, rfl⟩ }
  unfold rebuilt
  split_ifs
  · exact hbase s.combo s.selected
  · exact (hbase devs _).iterate reports

theorem iterate_frame (reports : ℕ) (s : HwPanel) :
    ∃ busy workers pendingQuery sensitive, (hwQueryCurrent c)^[reports] s =
      { s with busy, workers, pendingQuery, sensitive } := by
  induction reports generalizing s with
  | zero => exact ⟨_, _, _, _, rfl⟩
  | succ reports ih =>
      obtain ⟨_, _, _, _, heq⟩ := hwQueryCurrent_frame c s
      obtain ⟨_, _, _, _, hrest⟩ := ih (hwQueryCurrent c s)
      rw [Function.iterate_succ_apply, hrest, heq]
      exact ⟨_, _, _, _, rfl⟩

theorem rebuilt_frame (s : HwPanel) (devs : List HidppDev) (reports : ℕ) :
    ∃ busy workers pendingQuery sensitive combo selected, rebuilt c s devs reports =
      { s.relisted devs with busy, workers, pendingQuery, sensitive, combo, selected } := by
  unfold rebuilt
  split_ifs
  · exact ⟨_, _, _, _, _, _, rfl⟩
  · obtain ⟨_, _, _, _, heq⟩ := iterate_frame (c := c) reports (s.refilled devs)
    rw [heq]
    exact ⟨_, _, _, _, _, _, rfl⟩

theorem iterate_dropApply (reports : ℕ) (s : HwPanel) :
    (hwQueryCurrent c)^[reports] s.dropApply =
      ((hwQueryCurrent c)^[reports] s).dropApply := by
  induction reports generalizing s with
  | zero => rfl
  | succ reports ih =>
      rw [Function.iterate_succ_apply, Function.iterate_succ_apply, hwQueryCurrent_dropApply, ih]

theorem rebuilt_dropApply (s : HwPanel) (devs : List HidppDev) (reports : ℕ) :
    rebuilt c s.dropApply devs reports = (rebuilt c s devs reports).dropApply := by
  have hpop : s.dropApply.popover = s.popover := rfl
  unfold rebuilt
  rw [hpop]
  split_ifs
  · rfl
  · exact iterate_dropApply reports (s.refilled devs)

/-- The new list is queried, unless it is empty. -/
theorem Rebuilt.tidy {devs : List HidppDev} (h : Rebuilt devs s) :
    Tidy (if devs = [] then s else HwPanel.hwQueryCurrent c s) := by
  split_ifs with hnil
  · have hcur := current_nil (h.list.trans hnil)
    refine { h.toAlone with stashed := ?_, follows := ?_, settled := ?_ }
    · intro pq hpq
      cases (h.empty hnil).2.symm.trans hpq
    · intro idx dev v _
      exact .inr (.inr hcur)
    · intro _ idx d hd
      cases hcur.symm.trans hd
  · exact hwQueryCurrent_tidy h.toAlone h.honest

theorem hwStartPendingApply_none (h : s.pendingApply = none) :
    hwStartPendingApply c s = (false, s) := by
  rw [hwStartPendingApply, h]

theorem hwStartPendingApply_stale {task : HwApplyTask} (h : s.pendingApply = some task)
    (hv : task.devsVersion ≠ s.devsVersion) :
    hwStartPendingApply c s = (false, s.dropApply) := by
  rw [hwStartPendingApply, h]
  exact if_pos hv

theorem hwQueryCurrent_pendingApply (s : HwPanel) :
    (hwQueryCurrent c s).pendingApply = s.pendingApply := by
  obtain ⟨_, _, _, _, heq⟩ := hwQueryCurrent_frame c s
  rw [heq]

/-- The list is taken, and queried; an Apply that waits is for the old one. -/
theorem hwScanned_eq (hp : ∀ task, s.pendingApply = some task →
      task.devsVersion ≤ s.devsVersion) (devs : List HidppDev) (reports : ℕ) :
    hwScanned c s devs reports =
      let t := hwUpdateUiState c (rebuilt c s.dropApply devs reports)
      if devs = [] then t else hwQueryCurrent c t := by
  obtain ⟨_, _, _, _, _, _, hframe⟩ := rebuilt_frame (c := c) s devs reports
  have hpending : (hwUpdateUiState c (rebuilt c s devs reports)).pendingApply =
      s.pendingApply := by
    rw [hframe]
    rfl
  have hversion : (hwUpdateUiState c (rebuilt c s devs reports)).devsVersion =
      s.devsVersion + 1 := by
    rw [hframe]
    rfl
  unfold hwScanned
  dsimp only
  cases happly : s.pendingApply with
  | none =>
      have hdrop : s.dropApply = s := by
        rw [dropApply, ← happly]
      rw [happly] at hpending
      rw [hdrop]
      by_cases hnil : devs = []
      · rw [if_pos (.inl hnil), if_pos hnil, hwStartPendingApply_none hpending]
        exact if_neg fun h => h.2 hnil
      · rw [if_neg (not_or_intro hnil nofun), if_neg hnil,
          hwStartPendingApply_none ((hwQueryCurrent_pendingApply _).trans hpending)]
        exact if_neg fun h => Bool.noConfusion h.1
  | some task =>
      rw [happly] at hpending
      have hle := hp task happly
      have hstale := hwStartPendingApply_stale (c := c) hpending
        (by rw [hversion]; omega)
      rw [if_pos (.inr rfl), hstale, rebuilt_dropApply]
      dsimp only
      by_cases hnil : devs = []
      · rw [if_pos hnil, if_neg fun h => h.2 hnil]
        rfl
      · rw [if_neg hnil, if_pos ⟨rfl, hnil⟩]
        rfl

theorem Tidy.hwScanned {k : ℕ} (h : Tidy s) (hw : s.workers[k]? = some .scan)
    (devs : List HidppDev) (reports : ℕ) : Tidy (hwScanned c
      (s.ended k) devs reports) := by
  obtain ⟨-, hnil⟩ := h.taken hw
  have hrebuilt : Rebuilt devs (rebuilt c
      (s.ended k).dropApply devs reports) :=
    rebuilt_spec hnil rfl devs reports
  rw [hwScanned_eq (s := s.ended k) fun task htask => (h.waits task htask).2.1.le]
  exact Rebuilt.tidy ⟨⟨hrebuilt.flag, hrebuilt.waits⟩, hrebuilt.honest, hrebuilt.list,
    hrebuilt.noApply, hrebuilt.empty⟩

theorem Tidy.hwQueueApply {task : HwApplyTask} (h : Tidy s) (hfresh : task.Fresh s) :
    Tidy (hwQueueApply c s task) := by
  unfold HwPanel.hwQueueApply
  split_ifs with hbusy
  · refine ⟨⟨h.flag, ?_⟩, h.stashed, h.follows, h.settled⟩
    intro t ht
    obtain rfl := Option.some.inj ht
    exact ⟨hbusy, hfresh⟩
  · have hidle : s.busy = false := Bool.eq_false_of_not_eq_true hbusy
    have hfree := h.free hidle
    refine ⟨⟨.inr ⟨rfl, .apply task, ?_, hfresh⟩, ?_⟩, ?_, ?_, ?_⟩
    · show s.workers ++ [_] = [_]
      rw [hfree.workers, List.nil_append]
    · intro t ht
      exact absurd (h.waits t ht).1 hbusy
    · intro pq hpq
      exact ⟨rfl, hfree.stashed pq hpq⟩
    · intro idx dev v hmem
      have hmem : HwWorker.query idx dev v ∈ s.workers ++ [.apply task] := hmem
      rw [hfree.workers, List.nil_append, List.mem_singleton] at hmem
      cases hmem
    · intro hf
      cases hf

theorem Tidy.onHwApplyClicked (h : Tidy s) (dpi : ℤ) (rate : Option ℕ) (lod : ℤ) :
    Tidy (onHwApplyClicked c s dpi rate lod) := by
  unfold HwPanel.onHwApplyClicked
  cases hcur : s.current with
  | none => exact h
  | some cur =>
      dsimp only
      split_ifs
      · exact h.hwQueueApply ⟨rfl, (current_eq_some hcur).2⟩
      · exact h

theorem hwNotificationTick_frame (s : HwPanel) : ∃ notifyBusy notifiers,
    s.hwNotificationTick = { s with notifyBusy, notifiers } := by
  unfold hwNotificationTick
  split_ifs
  · exact ⟨_, _, rfl⟩
  · cases s.current with
    | none => exact ⟨_, _, rfl⟩
    | some cur =>
        dsimp only
        split_ifs
        · exact ⟨_, _, rfl⟩
        · exact ⟨_, _, rfl⟩

theorem takeNotification_frame (s : HwPanel) (k idx : ℕ) (dev : HidppDev) (v : ℕ)
    (battery : Bool) : ∃ notifyBusy notifiers painted,
      s.takeNotification k idx dev v battery = { s with notifyBusy, notifiers, painted } := by
  unfold takeNotification hwNotified
  dsimp only
  split_ifs
  · exact ⟨_, _, _, rfl⟩
  · exact ⟨_, _, _, rfl⟩
  · exact ⟨_, _, _, rfl⟩

/-- What a step can do. -/
inductive Moved (c : List (UInt16 × UInt8) → LogitechControls) (s : HwPanel) :
    PanelStep → HwPanel → Prop
  | select (i : Option ℕ) : s.cancel = false →
      Moved c s (.select i) (hwQueryCurrent c { s with selected := i })
  | popover (shown : Bool) : s.cancel = false →
      Moved c s (.popover shown) { s with popover := shown }
  | refresh : s.cancel = false → Moved c s .refresh (hwStartScan c s)
  | click (dpi : ℤ) (rate : Option ℕ) (lod : ℤ) : s.cancel = false →
      Moved c s (.click dpi rate lod) (onHwApplyClicked c s dpi rate lod)
  | tick : s.cancel = false → Moved c s .tick s.hwNotificationTick
  | scanned (k : ℕ) (devs : List HidppDev) (reports : ℕ) : s.workers[k]? = some .scan →
      Moved c s (.scanned k devs reports) (s.take k (hwScanned c · devs reports))
  | queried (k idx : ℕ) (dev : HidppDev) (v : ℕ) (read : HwRead) :
      s.workers[k]? = some (.query idx dev v) →
      Moved c s (.queried k read) (s.take k (hwQueried c · idx dev v read))
  | applied (k : ℕ) (task : HwApplyTask) : s.workers[k]? = some (.apply task) →
      Moved c s (.applied k) (s.take k (hwApplied c · task))
  | notified (k : ℕ) (battery : Bool) (idx : ℕ) (dev : HidppDev) (v : ℕ) :
      s.notifiers[k]? = some (idx, dev, v) →
      Moved c s (.notified k battery) (s.takeNotification k idx dev v battery)
  | destroy : s.cancel = false →
      Moved c s .destroy { s.dropApply with cancel := true, pendingQuery := none }

theorem step_moved (ht : step c s l = some t) : Moved c s l t := by
  have hui {u : HwPanel} (ht : (if s.cancel then none else some u) = some t) :
      s.cancel = false ∧ u = t := by
    split_ifs at ht with hcancel
    exact ⟨Bool.eq_false_of_not_eq_true hcancel, Option.some.inj ht⟩
  unfold step at ht
  cases l with
  | select i =>
      obtain ⟨hlive, rfl⟩ := hui ht
      exact .select i hlive
  | popover shown =>
      obtain ⟨hlive, rfl⟩ := hui ht
      exact .popover shown hlive
  | refresh =>
      obtain ⟨hlive, rfl⟩ := hui ht
      exact .refresh hlive
  | click dpi rate lod =>
      obtain ⟨hlive, rfl⟩ := hui ht
      exact .click dpi rate lod hlive
  | tick =>
      obtain ⟨hlive, rfl⟩ := hui ht
      exact .tick hlive
  | scanned k devs reports =>
      dsimp only at ht
      split at ht
      next hw =>
        obtain rfl := Option.some.inj ht
        exact .scanned k devs reports hw
      next => cases ht
  | queried k read =>
      dsimp only at ht
      split at ht
      next idx dev v hw =>
        obtain rfl := Option.some.inj ht
        exact .queried k idx dev v read hw
      next => cases ht
  | applied k =>
      dsimp only at ht
      split at ht
      next task hw =>
        obtain rfl := Option.some.inj ht
        exact .applied k task hw
      next => cases ht
  | notified k battery =>
      dsimp only at ht
      split at ht
      next idx dev v hw =>
        obtain rfl := Option.some.inj ht
        exact .notified k battery idx dev v hw
      next => cases ht
  | destroy =>
      obtain ⟨hlive, rfl⟩ := hui ht
      exact .destroy hlive

/-- No device without HID++ is selected during the work of a worker. -/
def Steady (s : HwPanel) : PanelStep → Prop
  | .select (some i) => s.workers ≠ [] → ∀ d ∈ s.hidppDevs[i]?, d.protocolVersion ≠ 0
  | _ => True

instance (s : HwPanel) (l : PanelStep) : Decidable (Steady s l) := by
  unfold Steady
  split
  · infer_instance
  · infer_instance

theorem Tidy.select {i : Option ℕ} (h : Tidy s) (hg : Steady s (.select i)) :
    Tidy (hwQueryCurrent c { s with selected := i }) := by
  refine hwQueryCurrent_tidy (h.toAlone.select i) ?_
  intro hbusy idx d hcur
  have hworkers : s.workers ≠ [] := by
    rcases h.flag with ⟨hidle, -⟩ | ⟨-, w, hw, -⟩
    · have hbusy : s.busy = true := hbusy
      rw [hidle] at hbusy
      cases hbusy
    · rw [hw]
      exact List.cons_ne_nil w []
  obtain ⟨hsel, hd⟩ := current_eq_some hcur
  have hsel : i = some idx := hsel
  subst hsel
  exact hg hworkers d hd

/-- What every run keeps; when the window is gone, only the worker counts. -/
structure Kept (s : HwPanel) : Prop where
  few : s.workers.length ≤ 1
  tidy : s.cancel = false → Tidy s

theorem Alone.few (h : Alone s) : s.workers.length ≤ 1 := by
  rcases h.flag with ⟨-, hnil⟩ | ⟨-, w, hw, -⟩
  · rw [hnil]
    exact Nat.zero_le 1
  · rw [hw]
    exact le_refl 1

theorem Tidy.kept (h : Tidy s) : Kept s := ⟨h.few, fun _ => h⟩

/-- Also the notifications are not the panel's. -/
theorem Kept.of_notify (h : Kept s) (notifyBusy : Bool) (notifiers : List (ℕ × HidppDev × ℕ))
    (painted : List (HidppDev × Option HidppDev)) :
    Kept { s with notifyBusy, notifiers, painted } := by
  refine ⟨h.few, fun hlive => ?_⟩
  have ht := h.tidy hlive
  exact ⟨⟨ht.flag, ht.waits⟩, ht.stashed, ht.follows, ht.settled⟩

/-- A worker's result is taken in the window, or dropped after it. -/
theorem Kept.take {k : ℕ} {f : HwPanel → HwPanel} (h : Kept s)
    (hf : Tidy s → Tidy (f (s.ended k))) : Kept (s.take k f) := by
  unfold HwPanel.take
  split_ifs with hcancel
  · refine ⟨le_trans (List.length_eraseIdx_le _ k) h.few, ?_⟩
    intro hlive
    have hlive : s.cancel = false := hlive
    rw [hcancel] at hlive
    cases hlive
  · exact (hf (h.tidy (Bool.eq_false_of_not_eq_true hcancel))).kept

theorem step_kept (h : Kept s) (hg : Steady s l) (ht : step c s l = some t) : Kept t := by
  cases step_moved ht with
  | select i hlive => exact ((h.tidy hlive).select hg).kept
  | popover shown hlive =>
      have htidy := h.tidy hlive
      exact Tidy.kept ⟨⟨htidy.flag, htidy.waits⟩, htidy.stashed, htidy.follows, htidy.settled⟩
  | refresh hlive => exact (h.tidy hlive).hwStartScan.kept
  | click dpi rate lod hlive => exact ((h.tidy hlive).onHwApplyClicked dpi rate lod).kept
  | tick =>
      obtain ⟨_, _, heq⟩ := hwNotificationTick_frame s
      rw [heq]
      exact h.of_notify _ _ _
  | scanned k devs reports hw => exact h.take fun htidy => htidy.hwScanned hw devs reports
  | queried k idx dev v read hw => exact h.take fun htidy => htidy.hwQueried hw read
  | applied k task hw => exact h.take fun htidy => htidy.hwApplied hw
  | notified k battery idx dev v =>
      obtain ⟨_, _, _, heq⟩ := takeNotification_frame s k idx dev v battery
      rw [heq]
      exact h.of_notify _ _ _
  | destroy => exact ⟨h.few, nofun⟩

theorem run_kept (h : (machine c).Run Steady s) : Kept s := by
  refine h.invariant ?_ fun s l t hs hg ht => step_kept hs hg ht
  rintro s rfl
  refine ⟨Nat.zero_le 1, fun _ => ⟨⟨.inl ⟨rfl, rfl⟩, ?_⟩, ?_, ?_, ?_⟩⟩
  · intro task htask
    cases htask
  · intro pq hpq
    cases hpq
  · intro idx dev v hmem
    cases hmem
  · intro _ idx d hcur
    cases hcur

/-- A mouse, and a receiver without HID++. -/
def panelMouse : HidppDev :=
  ⟨bytes "/dev/hidraw1", 1, 0x046D, 0xC547, [], 4, [(0x2201, 7)], 255, 0, 0⟩

/-- A receiver with no HID++ 2.0 device behind it, so that a scan lists it and no query is made. -/
def bareReceiver : HidppDev :=
  ⟨bytes "/dev/hidraw2", 255, 0x046D, 0xC542, [], 0, [], 255, 0, 0⟩

/-- A device with any feature has a DPI. -/
def panelControls (features : List (UInt16 × UInt8)) : LogitechControls :=
  { dpi := !features.isEmpty }

/-- A query that nothing answers. -/
def noRead : HwRead := ⟨false, false, false, false⟩

/-- A query that finds a DPI, and no more. -/
def dpiRead : HwRead := ⟨true, true, false, false⟩

/-- The list arrives, and two Applies are asked for while the mouse is queried, which fails. -/
def busyApplies : List PanelStep :=
  [.refresh, .scanned 0 [panelMouse, bareReceiver] 1, .click 800 none 0, .click 1600 none 0,
    .queried 0 noRead]

/-- **One worker at a time.**  In the window the flag tells of it, what it has copied is what the
list has, and only while it works something waits, for the same list. -/
theorem one_hardware_worker (h : (machine c).Run Steady s) :
    s.workers.length ≤ 1 ∧ (s.cancel = false →
      (s.busy = true ↔ s.workers ≠ []) ∧ (∀ w ∈ s.workers, w.Fresh s) ∧
      (∀ task, s.pendingApply = some task → s.workers ≠ [] ∧ task.Fresh s) ∧
      ∀ pq, s.pendingQuery = some pq → s.workers ≠ [] ∧ s.selected = some pq) := by
  have hkept := run_kept h
  refine ⟨hkept.few, fun hlive => ?_⟩
  have htidy := hkept.tidy hlive
  have hbusy : s.busy = true → s.workers ≠ [] := by
    intro hb hnil
    rcases htidy.flag with ⟨hidle, -⟩ | ⟨-, w, hw, -⟩
    · cases hidle.symm.trans hb
    · cases hw.symm.trans hnil
  refine ⟨⟨hbusy, ?_⟩, ?_, ?_, ?_⟩
  · intro hne
    by_contra hidle
    exact hne (htidy.idle (Bool.eq_false_of_not_eq_true hidle)).1
  · intro w hmem
    rcases htidy.flag with ⟨-, hnil⟩ | ⟨-, w', hw, hfresh⟩
    · rw [hnil] at hmem
      cases hmem
    · rw [hw, List.mem_singleton] at hmem
      exact hmem ▸ hfresh
  · intro task htask
    obtain ⟨hb, hfresh⟩ := htidy.waits task htask
    exact ⟨hbusy hb, hfresh⟩
  · intro pq hpq
    obtain ⟨hb, d, hcur, -⟩ := htidy.stashed pq hpq
    exact ⟨hbusy hb, (current_eq_some hcur).1⟩

theorem one_hardware_worker_applies : ∃ s, (machine panelControls).Run Steady s ∧
    s.pendingQuery = some 0 ∧ s.selected = some 0 ∧ s.workers.length = 1 := by
  obtain ⟨s, hrun, hpq, hlive, hlength⟩ := Machine.exists_run (M := machine panelControls)
    (G := Steady) (P := fun s => s.pendingQuery = some 0 ∧ s.cancel = false ∧ 0 < s.workers.length)
    rfl busyApplies (by decide +kernel)
  obtain ⟨hfew, hworks⟩ := one_hardware_worker hrun
  exact ⟨s, hrun, hpq, ((hworks hlive).2.2.2 0 hpq).2, by omega⟩

/-- **The panel comes to rest on the selected device**: the last result shown is of it, and what
that had found is on the widgets. -/
theorem panel_settles (h : (machine c).Run Steady s) (hlive : s.cancel = false)
    (hidle : s.workers = []) {idx : ℕ} {d : HidppDev} (hcur : s.current = some (idx, d))
    (hprot : d.protocolVersion ≠ 0) : ∃ read, s.shown.Of d read := by
  have htidy := (run_kept h).tidy hlive
  refine htidy.settled ?_ idx d hcur hprot
  rcases htidy.flag with hf | ⟨-, w, hw, -⟩
  · exact hf.1
  · cases hidle.symm.trans hw

theorem panel_settles_applied : ∃ s, (machine panelControls).Run Steady s ∧
    s.started.length = 1 ∧ s.shown.dpiSpin = some panelMouse ∧
      ∃ read, s.shown.Of panelMouse read := by
  obtain ⟨s, hrun, hlive, hidle, hcur, hstarted, hdpi⟩ := Machine.exists_run
    (M := machine panelControls) (G := Steady) (P := fun s => s.cancel = false ∧ s.workers = [] ∧
      s.current = some (0, panelMouse) ∧ s.started.length = 1 ∧
      s.shown.dpiSpin = some panelMouse) rfl
    (busyApplies ++ [.applied 0, .queried 0 dpiRead]) (by decide +kernel)
  exact ⟨s, hrun, hstarted, hdpi, panel_settles hrun hlive hidle hcur (by decide)⟩

/-- **A selection that doubles the worker**: the receiver is selected during the query of the
mouse, and then the mouse again. -/
theorem bare_selection_doubles : ∃ s, (machine panelControls).Reachable s ∧
    s.workers = [.query 0 panelMouse 1, .query 0 panelMouse 1] :=
  Machine.exists_run (M := machine panelControls) rfl
    [.refresh, .scanned 0 [panelMouse, bareReceiver] 0, .select (some 1), .select (some 0)]
    (by decide +kernel)

end HwPanel
end AbrekMouse
