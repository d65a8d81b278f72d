import AbrekMouse.ApplyConfig

/-! # Pushed configurations on their way

A configuration that was pushed over the socket passes four places: the save queue, the
save in flight, the apply slot and the running configuration.  The serving thread puts
it into the first, the save worker moves it to the third, and the loop thread applies
it; the main thread shuts them down.  Each step below is one section under a lock, or
one load or store of an atomic flag, so a run is an interleaving of the threads.

Seen from outside the four places are one register, holding the newest configuration
(`Pipeline.newest`).  The moves leave it as it is, an accepted push writes it, and a
push that is skipped as no change does not look at it.  That is the one way in which
the last push can be lost (`last_push_wins`).
-/
namespace AbrekMouse
open ProgLib

/-! ## The threads -/

/-- The serving thread: at the head of its loop, waiting for a client, or inside
`push_config`, after the test of `running_`, after the look at the apply slot, and
before the save queue. -/
inductive IpcPc (Text : Type)
  | head
  | polling
  | entered (t : Text)
  | checked (t : Text)
  | snapshotted (t : Text) (pendingJson : Option Text)
  | enqueuing (cfg : AppConfig)
  | exited

/-- A queued configuration, with its place among those that were queued. -/
structure Item where
  id : ℕ
  cfg : AppConfig

/-- The save worker: about to look at the queue, inside `save_config` with the configuration it
took, about to put that one into the apply slot, or at the test of `running_`. -/
inductive SavePc
  | look
  | saving (item : Item)
  | arming (item : Item)
  | test
  | exited

/-- The loop thread holds `push_cfg_mu_` from the apply to the clearing of the flag. -/
inductive LoopPc
  | head | locking | applied | exited
deriving DecidableEq

/-- The main thread: it waits for the stop, then for the serving thread, then for the other two,
and has joined them all at the end. -/
inductive MainPc
  | spinning | stoppingIpc | stopping | joined
deriving DecidableEq

/-- The daemon with its settings file, its flags, the save queue, the apply slot and the places
of its four threads; the last four fields are a history, which steers none of them. -/
structure Pipeline (Text Data : Type) where
  daemon : Daemon Data
  file : Option Text
  running : Bool := true
  ipcRunning : Bool := true
  pushCfg : AppConfig := {}
  pushCfgPending : Bool := false
  saveQ : List Item := []
  ipc : IpcPc Text := .head
  save : SavePc := .look
  loop : LoopPc := .head
  main : MainPc := .spinning
  /-- The configuration of the last `push_config` that returned true. -/
  lastTrue : Option AppConfig := none
  /-- The configurations that were queued. -/
  accepted : List AppConfig := []
  /-- Those that were handed to `save_config`. -/
  handed : List Item := []
  /-- Those that a later one drove out of the queue. -/
  dropped : List Item := []

/-- A step of one of the threads, a request to stop, or a client that comes with a
configuration; `hangup` is the poll that wakes up when the server was stopped. -/
inductive PipelineStep (Text : Type)
  | requestStop
  | client (t : Text)
  | hangup
  | ipc
  | save
  | loop (mice : List Node) (now : ℕ)
  | main

variable {Text Data : Type} [DecidableEq Text] (J : JsonText Text) (lim : Limits)
  (hash : Text → UInt64) (E : Engine Data) (configPath : Bytes)

/-- How the middle of `push_config` ends; a skip may bring the hash up to date. -/
inductive PushCheck
  | rejected
  | skipped (cfg : AppConfig) (sync : Option UInt64)
  | enqueue (cfg : AppConfig)

/-- The comparisons of `push_config`, under `devices_mutex_`. -/
def checkPush (pendingJson : Option Text) (d : Daemon Data) (t : Text) : PushCheck :=
  match appConfigFromJson J lim t with
  | .error _ => .rejected
  | .ok cfg =>
      match appConfigToJson J cfg with
      | .error _ => .rejected
      | .ok newJson =>
          if pendingJson = some newJson then .skipped cfg none
          else if pendingJson = none ∧ hash newJson = d.configHash then .skipped cfg none
          else if pendingJson = none then
            match appConfigToJson J d.config with
            | .error _ => .rejected
            | .ok applied =>
                if newJson = applied then .skipped cfg (some (hash newJson)) else .enqueue cfg
          else .enqueue cfg

namespace Pipeline
variable (s : Pipeline Text Data)

/-- One step of the serving thread: the loop of `ipc_serve_loop` around `push_config`, which
tests `running_`, looks at the apply slot, compares, and queues what is new. -/
def ipcStep : Option (Pipeline Text Data) :=
  match s.ipc with
  | .head => some { s with ipc := if s.ipcRunning then .polling else .exited }
  | .polling => some { s with ipc := .head }
  | .entered t =>
      some { s with ipc := if !s.running ∨ configPath = [] then .head else .checked t }
  | .checked t =>
      -- the loop thread holds `push_cfg_mu_`
      if s.loop = .applied then none
      else if s.pushCfgPending then
        match appConfigToJson J s.pushCfg with
        | .error _ => some { s with ipc := .head }
        | .ok pendingJson => some { s with ipc := .snapshotted t (some pendingJson) }
      else some { s with ipc := .snapshotted t none }
  | .snapshotted t pendingJson =>
      match checkPush J lim hash pendingJson s.daemon t with
      | .rejected => some { s with ipc := .head }
      | .skipped cfg sync =>
          some { s with
            ipc := .head
            lastTrue := some cfg
            daemon := { s.daemon with configHash := sync.getD s.daemon.configHash } }
      | .enqueue cfg => some { s with ipc := .enqueuing cfg }
  | .enqueuing cfg =>
      -- the queue keeps the newest configuration only
      some { s with
        ipc := .head
        lastTrue := some cfg
        dropped := s.dropped ++ s.saveQ
        saveQ := [⟨s.accepted.length, cfg⟩]
        accepted := s.accepted ++ [cfg] }
  | .exited => none

/-- One round of `save_worker`; the system calls of `save_config` succeed. -/
def saveStep : Option (Pipeline Text Data) :=
  match s.save with
  | .look =>
      match s.saveQ with
      | [] => some { s with save := .test }
      | item :: rest => some { s with save := .saving item, saveQ := rest }
  | .saving item =>
      some { s with
        handed := s.handed ++ [item]
        file := (saveConfig J lim none item.cfg s.file).2
        save :=
          match (saveConfig J lim none item.cfg s.file).1 with
          | .ok _ => .arming item
          -- what could not be saved is not applied
          | .error _ => .look }
  | .arming item =>
      if s.loop = .applied then none
      else some { s with pushCfg := item.cfg, pushCfgPending := true, save := .look }
  | .test => some { s with save := if s.running then .look else .exited }
  | .exited => none

/-- The loop thread at the apply slot; what `apply_new_config` throws is caught. -/
def loopStep (mice : List Node) (now : ℕ) : Option (Pipeline Text Data) :=
  match s.loop with
  | .head => some { s with loop := if s.running then .locking else .exited }
  | .locking =>
      if s.pushCfgPending then
        some { s with
          daemon := (Daemon.applyNewConfig J hash E mice now s.pushCfg s.daemon).2
          loop := .applied }
      else some { s with loop := .head }
  | .applied => some { s with pushCfgPending := false, loop := .head }
  | .exited => none

/-- The main thread: it waits for the flag, stops the server and joins its thread, then
stops the daemon and joins the others. -/
def mainStep : Option (Pipeline Text Data) :=
  match s.main with
  | .spinning =>
      if s.running then none else some { s with ipcRunning := false, main := .stoppingIpc }
  | .stoppingIpc =>
      match s.ipc with
      | .exited => some { s with running := false, main := .stopping }
      | _ => none
  | .stopping =>
      match s.loop, s.save with
      | .exited, .exited => some { s with main := .joined }
      | _, _ => none
  | .joined => none

/-- A thread that waits for a lock or for another thread has no step; a stop may be requested at
any time. -/
def step : PipelineStep Text → Option (Pipeline Text Data)
  | .requestStop => some { s with running := false }
  | .client t =>
      match s.ipc with
      | .polling => some { s with ipc := .entered t }
      | _ => none
  | .hangup =>
      match s.ipc with
      | .polling => if s.ipcRunning then none else some { s with ipc := .exited }
      | _ => none
  | .ipc => s.ipcStep J lim hash configPath
  | .save => s.saveStep J lim
  | .loop mice now => s.loopStep J hash E mice now
  | .main => s.mainStep

/-! ## The register -/

/-- The newest configuration on its way, or the running one where there is none. -/
def newest : AppConfig :=
  match s.saveQ.getLast? with
  | some item => item.cfg
  | none =>
      match s.save with
      | .saving item | .arming item => item.cfg
      | _ => if s.pushCfgPending then s.pushCfg else s.daemon.config

/-- Nothing is on its way. -/
structure Quiescent : Prop where
  saveQ : s.saveQ = []
  saving : ∀ item, s.save ≠ .saving item ∧ s.save ≠ .arming item
  pending : s.pushCfgPending = false

omit [DecidableEq Text] in
theorem Quiescent.newest {s : Pipeline Text Data} (h : s.Quiescent) :
    s.newest = s.daemon.config := by
  unfold Pipeline.newest
  rw [h.saveQ, h.pending]
  cases hsave : s.save with
  | saving item => exact absurd hsave (h.saving item).1
  | arming item => exact absurd hsave (h.saving item).2
  | _ => rfl

end Pipeline

/-- The threads after a start of the daemon. -/
def pipelineMachine : Machine (Pipeline Text Data) (PipelineStep Text) where
  Start s := ∃ file mice now d, Daemon.start J hash E lim configPath file mice now = .ok d ∧
    s = { daemon := d, file := file }
  step s := s.step J lim hash E configPath

/-! ## What can be saved -/

/-- `save_config` writes the configuration, if its system calls succeed. -/
def Savable (cfg : AppConfig) : Prop := ∃ t, savedContent J lim cfg = .ok t

section Savable
variable {J lim hash E configPath}

/-- A push that is queued was parsed with at most `maxProfiles` profiles and printed. -/
theorem savable_of_checkPush {pendingJson : Option Text} {d : Daemon Data} {t : Text}
    {cfg : AppConfig} (h : checkPush J lim hash pendingJson d t = .enqueue cfg) :
    Savable J lim cfg := by
  unfold checkPush at h
  cases hread : appConfigFromJson J lim t with
  | error e =>
      rw [hread] at h
      cases h
  | ok parsed =>
      rw [hread] at h
      cases hprint : appConfigToJson J parsed with
      | error e =>
          simp only [hprint] at h
          cases h
      | ok newJson =>
          have hparsed : parsed = cfg := by
            simp only [hprint] at h
            split_ifs at h
            · split at h
              · cases h
              · split_ifs at h
                exact PushCheck.enqueue.inj h
            · exact PushCheck.enqueue.inj h
          subst hparsed
          obtain ⟨j, read, hparse, hobj, rfl⟩ := Loader.push.load_eq_ok hread
          have hcount := (appConfigFromJsonObj_encodable_iff (J.parse_utf8 hparse) hobj).1
          rw [← (migrateConfig_encodable lim read).1] at hcount
          exact savedContent_ok_iff.mpr ⟨hcount.trans Loader.push.maxProfiles_le,
            appConfigToJson_ok_iff.mp ⟨newJson, hprint⟩⟩

omit [DecidableEq Text] in
theorem saveConfig_of_savable {cfg : AppConfig} (h : Savable J lim cfg) (file : Option Text) :
    (saveConfig J lim none cfg file).1 = .ok () := by
  obtain ⟨t, ht⟩ := h
  unfold saveConfig
  rw [ht]

end Savable

namespace Pipeline

/-- What holds in every state: all that was accepted can be saved, and while the loop
thread holds the lock the running configuration is the one in the slot. -/
structure Sound (s : Pipeline Text Data) : Prop where
  queued : ∀ item ∈ s.saveQ, Savable J lim item.cfg
  saving : ∀ item, s.save = .saving item → Savable J lim item.cfg
  enqueuing : ∀ cfg, s.ipc = .enqueuing cfg → Savable J lim cfg
  applied : s.loop = .applied → s.pushCfgPending = true ∧ s.daemon.config = s.pushCfg

/-- The configuration of a push that is about to be skipped as no change. -/
def skipping (s : Pipeline Text Data) : Option AppConfig :=
  match s.ipc with
  | .snapshotted t pendingJson =>
      match checkPush J lim hash pendingJson s.daemon t with
      | .skipped cfg _ => some cfg
      | _ => none
  | _ => none

/-- **The four places are one register.**  A step moves configurations on and leaves the
register as it is, or skips a push, or writes an accepted one. -/
inductive Effect (s : Pipeline Text Data) (l : PipelineStep Text) (s' : Pipeline Text Data) : Prop
  | move (hnewest : s'.newest = s.newest) (hlast : s'.lastTrue = s.lastTrue)
  | skip (cfg : AppConfig) (hl : l = .ipc) (hskip : s.skipping J lim hash = some cfg)
      (hnewest : s'.newest = s.newest) (hlast : s'.lastTrue = some cfg)
  | write (cfg : AppConfig) (hnewest : s'.newest = cfg) (hlast : s'.lastTrue = some cfg)

variable {J lim hash E configPath} {s s' : Pipeline Text Data}

omit [DecidableEq Text] in
/-- A step that only moves a program counter, or a flag that the register ignores. -/
theorem Sound.of_eq (h : s.Sound J lim) (hsaveQ : s'.saveQ = s.saveQ) (hsave : s'.save = s.save)
    (hipc : ∀ cfg, s'.ipc ≠ .enqueuing cfg) (hloop : s'.loop = s.loop)
    (hpending : s'.pushCfgPending = s.pushCfgPending) (hpushCfg : s'.pushCfg = s.pushCfg)
    (hconfig : s'.daemon.config = s.daemon.config) : s'.Sound J lim where
  queued := hsaveQ ▸ h.queued
  saving := hsave ▸ h.saving
  enqueuing cfg hcfg := absurd hcfg (hipc cfg)
  applied hlock := by
    rw [hpending, hconfig, hpushCfg]
    exact h.applied (hloop ▸ hlock)

theorem ipcStep_spec (h : s.Sound J lim) (hstep : s.ipcStep J lim hash configPath = some s') :
    s'.Sound J lim ∧ Effect J lim hash s .ipc s' := by
  unfold ipcStep at hstep
  cases hipc : s.ipc with
  | head =>
      rw [hipc] at hstep
      cases hstep
      refine ⟨h.of_eq rfl rfl (fun cfg => ?_) rfl rfl rfl rfl, .move rfl rfl⟩
      dsimp only
      split_ifs <;> simp
  | polling =>
      rw [hipc] at hstep
      cases hstep
      exact ⟨h.of_eq rfl rfl (by simp) rfl rfl rfl rfl, .move rfl rfl⟩
  | entered t =>
      rw [hipc] at hstep
      cases hstep
      refine ⟨h.of_eq rfl rfl (fun cfg => ?_) rfl rfl rfl rfl, .move rfl rfl⟩
      dsimp only
      split_ifs <;> simp
  | checked t =>
      simp only [hipc] at hstep
      split_ifs at hstep
      · split at hstep <;> cases hstep <;>
          exact ⟨h.of_eq rfl rfl (by simp) rfl rfl rfl rfl, .move rfl rfl⟩
      · cases hstep
        exact ⟨h.of_eq rfl rfl (by simp) rfl rfl rfl rfl, .move rfl rfl⟩
  | snapshotted t pendingJson =>
      simp only [hipc] at hstep
      cases hcheck : checkPush J lim hash pendingJson s.daemon t with
      | rejected =>
          rw [hcheck] at hstep
          cases hstep
          exact ⟨h.of_eq rfl rfl (by simp) rfl rfl rfl rfl, .move rfl rfl⟩
      | skipped cfg sync =>
          rw [hcheck] at hstep
          cases hstep
          exact ⟨h.of_eq rfl rfl (by simp) rfl rfl rfl rfl,
            .skip cfg rfl (by simp only [skipping, hipc, hcheck]) rfl rfl⟩
      | enqueue cfg =>
          rw [hcheck] at hstep
          cases hstep
          refine ⟨⟨h.queued, h.saving, fun cfg' hcfg => ?_, h.applied⟩, .move rfl rfl⟩
          cases hcfg
          exact savable_of_checkPush hcheck
  | enqueuing cfg =>
      simp only [hipc] at hstep
      cases hstep
      refine ⟨⟨?_, h.saving, fun cfg' hcfg => (by cases hcfg), h.applied⟩, .write cfg rfl rfl⟩
      exact List.forall_mem_singleton.mpr (h.enqueuing cfg hipc)
  | exited =>
      rw [hipc] at hstep
      cases hstep

omit [DecidableEq Text] in
/-- The worker takes the front of the queue, and the register is at its back. -/
theorem newest_pop {item : Item} {rest : List Item} (hsaveQ : s.saveQ = item :: rest)
    (hs' : s' = { s with save := .saving item, saveQ := rest }) : s'.newest = s.newest := by
  subst hs'
  unfold newest
  rw [hsaveQ, List.getLast?_cons]
  cases rest.getLast? <;> rfl

theorem saveStep_spec (h : s.Sound J lim) (hstep : s.saveStep J lim = some s') :
    s'.Sound J lim ∧ Effect J lim hash s .save s' := by
  have hmove : ∀ save', (∀ item, save' ≠ SavePc.saving item) →
      Sound J lim { s with save := save' } := fun save' hsave =>
    ⟨h.queued, fun item hitem => absurd hitem (hsave item), h.enqueuing, h.applied⟩
  unfold saveStep at hstep
  cases hsave : s.save with
  | look =>
      simp only [hsave] at hstep
      split at hstep
      · cases hstep
        refine ⟨hmove .test (by simp), .move ?_ rfl⟩
        simp only [newest, hsave]
      · rename_i item rest hsaveQ
        cases hstep
        obtain ⟨hitem, hrest⟩ := List.forall_mem_cons.mp (hsaveQ ▸ h.queued)
        refine ⟨⟨hrest, fun item' heq => ?_, h.enqueuing, h.applied⟩,
          .move (newest_pop hsaveQ rfl) rfl⟩
        cases heq
        exact hitem
  | saving item =>
      simp only [hsave, saveConfig_of_savable (h.saving item hsave)] at hstep
      cases hstep
      refine ⟨⟨h.queued, fun item' heq => (by cases heq), h.enqueuing, h.applied⟩, .move ?_ rfl⟩
      simp only [newest, hsave]
  | arming item =>
      simp only [hsave] at hstep
      split_ifs at hstep with hlock
      cases hstep
      refine ⟨⟨h.queued, fun item' heq => (by cases heq), h.enqueuing,
        fun happlied => absurd happlied hlock⟩, .move ?_ rfl⟩
      simp only [newest, hsave, if_true]
  | test =>
      simp only [hsave] at hstep
      cases hstep
      refine ⟨hmove _ (fun item => by split_ifs <;> simp), .move ?_ rfl⟩
      simp only [newest, hsave]
      split_ifs <;> rfl
  | exited =>
      rw [hsave] at hstep
      cases hstep

theorem loopStep_spec {mice : List Node} {now : ℕ} (h : s.Sound J lim)
    (hstep : s.loopStep J hash E mice now = some s') :
    s'.Sound J lim ∧ Effect J lim hash s (.loop mice now) s' := by
  unfold loopStep at hstep
  cases hloop : s.loop with
  | head =>
      rw [hloop] at hstep
      cases hstep
      refine ⟨⟨h.queued, h.saving, h.enqueuing, fun happlied => ?_⟩, .move rfl rfl⟩
      dsimp only at happlied
      split_ifs at happlied
  | locking =>
      simp only [hloop] at hstep
      split_ifs at hstep with hpending
      · cases hstep
        have hconfig : (Daemon.applyNewConfig J hash E mice now s.pushCfg s.daemon).2.config =
            s.pushCfg := Daemon.applyNewConfig_config mice now s.pushCfg s.daemon
        refine ⟨⟨h.queued, h.saving, h.enqueuing, fun _ => ⟨hpending, hconfig⟩⟩, .move ?_ rfl⟩
        simp only [newest, hpending, if_true]
      · cases hstep
        exact ⟨⟨h.queued, h.saving, h.enqueuing, fun happlied => by cases happlied⟩,
          .move rfl rfl⟩
  | applied =>
      rw [hloop] at hstep
      cases hstep
      obtain ⟨hpending, hconfig⟩ := h.applied hloop
      refine ⟨⟨h.queued, h.saving, h.enqueuing, fun happlied => by cases happlied⟩,
        .move ?_ rfl⟩
      simp only [newest, hpending, hconfig]
      rfl
  | exited =>
      rw [hloop] at hstep
      cases hstep

theorem mainStep_spec (h : s.Sound J lim) (hstep : s.mainStep = some s') :
    s'.Sound J lim ∧ Effect J lim hash s .main s' := by
  have hsame : ∀ running ipcRunning main,
      Sound J lim { s with running := running, ipcRunning := ipcRunning, main := main } :=
    fun _ _ _ => ⟨h.queued, h.saving, h.enqueuing, h.applied⟩
  unfold mainStep at hstep
  cases hmain : s.main with
  | spinning =>
      simp only [hmain] at hstep
      split_ifs at hstep
      cases hstep
      exact ⟨hsame _ _ _, .move rfl rfl⟩
  | stoppingIpc =>
      simp only [hmain] at hstep
      split at hstep
      · cases hstep
        exact ⟨hsame _ _ _, .move rfl rfl⟩
      · cases hstep
  | stopping =>
      simp only [hmain] at hstep
      split at hstep
      · cases hstep
        exact ⟨hsame _ _ _, .move rfl rfl⟩
      · cases hstep
  | joined =>
      rw [hmain] at hstep
      cases hstep

/-- **What a step does.**  It keeps the state sound, and acts on the register. -/
theorem step_spec {l : PipelineStep Text} (h : s.Sound J lim)
    (hstep : s.step J lim hash E configPath l = some s') :
    s'.Sound J lim ∧ Effect J lim hash s l s' := by
  cases l with
  | requestStop =>
      cases hstep
      exact ⟨⟨h.queued, h.saving, h.enqueuing, h.applied⟩, .move rfl rfl⟩
  | client t =>
      simp only [step] at hstep
      split at hstep
      · cases hstep
        exact ⟨h.of_eq rfl rfl (by simp) rfl rfl rfl rfl, .move rfl rfl⟩
      · cases hstep
  | hangup =>
      simp only [step] at hstep
      split at hstep
      · split_ifs at hstep
        cases hstep
        exact ⟨h.of_eq rfl rfl (by simp) rfl rfl rfl rfl, .move rfl rfl⟩
      · cases hstep
  | ipc => exact ipcStep_spec h hstep
  | save => exact saveStep_spec h hstep
  | loop mice now => exact loopStep_spec h hstep
  | main => exact mainStep_spec h hstep

omit [DecidableEq Text] in
theorem sound_start (d : Daemon Data) (file : Option Text) :
    Sound J lim ({ daemon := d, file := file } : Pipeline Text Data) where
  queued item hitem := by cases hitem
  saving item hsave := by cases hsave
  enqueuing cfg hipc := by cases hipc
  applied hloop := by cases hloop

end Pipeline

/-! ## The last push -/

/-- The guard of a run: a push is skipped only if the newest configuration is printed
like it. -/
def SkipsAgree (s : Pipeline Text Data) : PipelineStep Text → Prop
  | .ipc => ∀ cfg ∈ s.skipping J lim hash, appConfigToJson J s.newest = appConfigToJson J cfg
  | _ => True

instance (s : Pipeline Text Data) : ∀ l, Decidable (SkipsAgree J lim hash s l)
  | .ipc => inferInstanceAs (Decidable (∀ cfg ∈ s.skipping J lim hash,
      appConfigToJson J s.newest = appConfigToJson J cfg))
  | .requestStop | .client _ | .hangup | .save | .loop _ _ | .main =>
      inferInstanceAs (Decidable True)

/-- **The last accepted push wins.**  In a run that skips a push only if the newest
configuration on its way, or the running one where there is none, is printed like it,
the running configuration of a state with nothing on its way is printed like the
configuration of the last `push_config` that returned true. -/
theorem last_push_wins (s : Pipeline Text Data)
    (h : (pipelineMachine J lim hash E configPath).Run (SkipsAgree J lim hash) s)
    (hquiet : s.Quiescent) (c : AppConfig) (hc : s.lastTrue = some c) :
    appConfigToJson J s.daemon.config = appConfigToJson J c := by
  have hinv : s.Sound J lim ∧ ∀ c, s.lastTrue = some c →
      appConfigToJson J s.newest = appConfigToJson J c := by
    refine h.invariant (I := fun s => s.Sound J lim ∧ ∀ c, s.lastTrue = some c →
      appConfigToJson J s.newest = appConfigToJson J c) ?_ ?_
    · rintro s ⟨file, mice, now, d, -, rfl⟩
      exact ⟨Pipeline.sound_start d file, fun c hc => by cases hc⟩
    · rintro s l s' ⟨hsound, hlast⟩ hagree hstep
      obtain ⟨hsound', heffect⟩ := Pipeline.step_spec hsound hstep
      refine ⟨hsound', fun c hc => ?_⟩
      cases heffect with
      | move hnewest hsame =>
          rw [hnewest]
          exact hlast c (hsame ▸ hc)
      | skip cfg hl hskip hnewest hcfg =>
          obtain rfl : cfg = c := Option.some.inj (hcfg.symm.trans hc)
          subst hl
          rw [hnewest]
          exact hagree cfg hskip
      | write cfg hnewest hcfg =>
          obtain rfl : cfg = c := Option.some.inj (hcfg.symm.trans hc)
          rw [hnewest]
  rw [← hquiet.newest]
  exact hinv.2 c hc

/-! ## A push that is lost -/

/-- A configuration of no profiles, told apart by the active name. -/
def named (name : Bytes) : AppConfig := { version := rawaccelVersion, activeProfile := name }

/-- A hash that tells the two names apart. -/
def nameHash (t : Json) : UInt64 :=
  match t.get? "active_profile" with
  | some (.str s) => UInt64.ofNat s.length
  | _ => 0

/-- The runs of a daemon whose configurations differ in the active name, with the hash that
tells two names apart. -/
def namedMachine : Machine (Pipeline Json Unit) (PipelineStep Json) :=
  pipelineMachine JsonText.trees Limits.documented nameHash Engine.plain (bytes "settings.json")

/-- The daemon runs the configuration named `a`. -/
def runningA : Pipeline Json Unit where
  daemon := { config := named (bytes "a"), configHash := 1 }
  file := some (textWithActive (bytes "a"))

theorem namedMachine_start : namedMachine.Start runningA :=
  ⟨_, [], 0, _, by rfl, rfl⟩

/-- One client with one push. -/
def pushes (t : Json) : List (PipelineStep Json) := [.ipc, .client t, .ipc, .ipc, .ipc]

/-- A push on its way to the running configuration. -/
def arrives : List (PipelineStep Json) :=
  [.save, .save, .save, .loop [] 0, .loop [] 0, .loop [] 0]

/-- Nothing is on its way, `name` was pushed last, and `running` is the name of the
running configuration. -/
def settled (name running : Bytes) (s : Pipeline Json Unit) : Bool :=
  s.saveQ.isEmpty && (s.save matches .look) && !s.pushCfgPending &&
    s.lastTrue = some (named name) && s.daemon.config = named running

theorem quiescent_of_settled {name running : Bytes} {s : Pipeline Json Unit}
    (h : settled name running s = true) :
    s.Quiescent ∧ s.lastTrue = some (named name) ∧ s.daemon.config = named running := by
  simp only [settled, Bool.and_eq_true, List.isEmpty_iff, Bool.not_eq_true',
    decide_eq_true_eq] at h
  obtain ⟨⟨⟨⟨hsaveQ, hsave⟩, hpending⟩, hlast⟩, hconfig⟩ := h
  refine ⟨⟨hsaveQ, fun item => ?_, hpending⟩, hlast, hconfig⟩
  constructor <;> intro hitem <;> simp [hitem] at hsave

/-- The configuration `bb` is pushed, arrives, and is pushed again. -/
theorem last_push_wins_bb :
    ∃ s, namedMachine.Run (SkipsAgree JsonText.trees Limits.documented nameHash) s ∧
      s.lastTrue = some (named (bytes "bb")) ∧
      appConfigToJson JsonText.trees s.daemon.config =
        appConfigToJson JsonText.trees (named (bytes "bb")) := by
  have hexec : (namedMachine.exec (SkipsAgree JsonText.trees Limits.documented nameHash) runningA
      (pushes (textWithActive (bytes "bb")) ++ [.ipc] ++ arrives ++
        pushes (textWithActive (bytes "bb")))).any (settled (bytes "bb") (bytes "bb")) = true := by
    decide +kernel
  obtain ⟨s, hs, hsettled⟩ := (Option.any_eq_true _ _).mp hexec
  obtain ⟨hquiet, hlast, -⟩ := quiescent_of_settled hsettled
  have hrun := Machine.Run.exec (.start namedMachine_start) hs
  exact ⟨s, hrun, hlast, last_push_wins _ _ _ _ _ s hrun hquiet _ hlast⟩

/-- `bb` is pushed and queued, and `a` is pushed and skipped, because it is what runs;
then `bb` arrives. -/
theorem last_push_lost :
    ¬∀ s, namedMachine.Reachable s → s.Quiescent → ∀ c, s.lastTrue = some c →
      appConfigToJson JsonText.trees s.daemon.config = appConfigToJson JsonText.trees c := by
  intro hwins
  have hexec : (namedMachine.exec (fun _ _ => True) runningA
      (pushes (textWithActive (bytes "bb")) ++ [.ipc] ++ pushes (textWithActive (bytes "a")) ++
        arrives)).any (settled (bytes "a") (bytes "bb")) = true := by
    decide +kernel
  obtain ⟨s, hs, hsettled⟩ := (Option.any_eq_true _ _).mp hexec
  obtain ⟨hquiet, hlast, hconfig⟩ := quiescent_of_settled hsettled
  have hsame := hwins s (Machine.Run.exec (.start namedMachine_start) hs) hquiet _ hlast
  rw [hconfig] at hsame
  have hdiffer : appConfigToJson JsonText.trees (named (bytes "bb")) ≠
      appConfigToJson JsonText.trees (named (bytes "a")) := by
    decide +kernel
  exact hdiffer hsame

end AbrekMouse
