import AbrekMouse.ConfigStore
import AbrekMouse.Machine

/-! # Saving from the window

The window loads the configuration once and writes all of it back at every save.  It remembers
when the file was changed, as it was after the load or the last save, and does not write a file
whose time is another.  Unless another program writes between a look at the time and what follows
it, or while the window has no time to compare with (`edit_lost_unstamped`), no save discards what
the window has not seen, and one is refused only if it would (`no_edit_lost`).

What was saved is pushed by a thread of its own, and the status line tells how the push ended if no
other save has followed (`status_of_newest`); a refused save is none (`refusal_covered`).  If no
thread overtakes an older one (`push_overtakes`), the daemon has taken the newest save last when
the line says that it is applied (`pushes_in_order`).
-/
namespace AbrekMouse
open ProgLib
variable {Text : Type}

/-! ## The file and the window -/

/-- What a write has left in the file.  The number is for the proofs: the window sees the text
and the time. -/
structure FileVersion (Text : Type) where
  text : Text
  mtime : ℤ
  number : ℕ

/-- Where the main thread is: before `load_config`, before the stamp after it, in its loop, or in
`save_config_now` before and after `save_config`. -/
inductive GuiPc | unloaded | loaded | loop | checked | saved
deriving DecidableEq

/-- The settings file and what the window has of it: the configuration, and the time of the file
that it was loaded from or saved to. -/
structure ConfigEditor (Text : Type) where
  file : Option (FileVersion Text) := none
  config : AppConfig := {}
  configMtimeLoaded : Option ℤ := none
  unsaved : Bool := false
  pc : GuiPc := .unloaded
  /-- How many writes there have been, and which of them the window has read or made last. -/
  writes : ℕ := 0
  seen : Option ℕ := none

/-- The configuration that the window starts with. -/
def guiConfig (J : JsonText Text) (lim : Limits) (path : Bytes) (file : Option Text) : AppConfig :=
  let config : AppConfig :=
    match file with
    | none => {}
    | some _ =>
        match loadConfig J lim path file with
        | .ok config => config
        | .error _ =>
            { profiles :=
                [{ name := bytes "default", devCfg := { dpi := 800, pollingRate := 1000 } }] }
  if config.profiles = [] then { config with profiles := [{ name := bytes "default" }] } else config

namespace ConfigEditor
variable (s : ConfigEditor Text)

/-- `config_file_stamp`. -/
def stamp : Option ℤ := s.file.map (·.mtime)

/-- The file was changed since the window has read or written it, as far as it can tell. -/
def Stale : Prop :=
  s.configMtimeLoaded ≠ none ∧ s.stamp ≠ none ∧ s.stamp ≠ s.configMtimeLoaded

instance : Decidable s.Stale := inferInstanceAs (Decidable (_ ∧ _ ∧ _))

/-- Another program replaces the file. -/
def replaced (text : Text) (mtime : ℤ) : ConfigEditor Text :=
  { s with file := some ⟨text, mtime, s.writes⟩, writes := s.writes + 1 }

/-- The version in the file is one that the window has not seen. -/
def Unseen : Prop := ∃ v ∈ s.file, s.seen ≠ some v.number

instance : Decidable s.Unseen := inferInstanceAs (Decidable (∃ v, v ∈ s.file ∧ _))

end ConfigEditor

/-! ## The pushes -/

/-- Where `daemon_push_thread` is.  The request is the daemon's, as the `place`th it takes; it
has none after a restart. -/
inductive PushPc
  | sending
  | waiting (place : Option ℕ)
deriving DecidableEq

/-- A thread that hands a saved text to the daemon, with the number of the save. -/
structure PushThread (Text : Type) where
  gen : ℕ
  json : Text
  pc : PushPc := .sending
deriving DecidableEq

/-- What a thread posts: the verdict of the daemon, if there is one, and whether the signal that
is sent without one has reached it. -/
structure PushResult where
  gen : ℕ
  pushRc : Option Bool
  sighupFallback : Bool := false
deriving DecidableEq

/-- The messages of the status line.  The numbers are for the proofs. -/
inductive GuiStatus
  | ready
  | notSaved
  | saveError
  | saving
  | applied (gen : ℕ)
  | signaled (gen : ℕ)
  | rejected (gen : ℕ)
  | notUpdated (gen : ℕ)
deriving DecidableEq

/-- What the status line tells of a result. -/
def PushResult.status (r : PushResult) : GuiStatus :=
  match r.pushRc with
  | some true => .applied r.gen
  | some false => .rejected r.gen
  | none => if r.sighupFallback then .signaled r.gen else .notUpdated r.gen

/-- The pushes of the window: the number of saves, their threads, and the server that takes
them. -/
structure GuiPushes (Text : Type) where
  pushGen : ℕ := 0
  /-- The texts of the saves, for the proofs: the code has their number only. -/
  pushed : List Text := []
  threads : List (PushThread Text) := []
  /-- The callbacks that the main loop has not run. -/
  posted : List PushResult := []
  status : GuiStatus := .ready
  windowDestroyed : Bool := false
  /-- The requests that have reached the daemon, and those of them that it has answered. -/
  backlog : List (ℕ × Text) := []
  served : List ((ℕ × Text) × Bool) := []

namespace GuiPushes
variable (s : GuiPushes Text)

/-- `daemon_ipc_push_config_async`. -/
def push (json : Text) : GuiPushes Text :=
  { s with
    pushGen := s.pushGen + 1
    pushed := s.pushed ++ [json]
    threads := s.threads ++ [{ gen := s.pushGen + 1, json := json }]
    status := .saving }

/-- The thread ends. -/
def post (k : ℕ) (r : PushResult) : GuiPushes Text :=
  { s with threads := s.threads.eraseIdx k, posted := s.posted ++ [r] }

/-- The request of a thread reaches the daemon. -/
def reach (k : ℕ) : Option (GuiPushes Text) :=
  match s.threads[k]? with
  | some t =>
      if t.pc = .sending then
        some { s with
          threads := s.threads.set k
            { t with pc := .waiting (some (s.served.length + s.backlog.length)) }
          backlog := s.backlog ++ [(t.gen, t.json)] }
      else none
  | none => none

/-- A thread reads its answer. -/
def answered (k : ℕ) : Option (GuiPushes Text) :=
  match s.threads[k]? with
  | some ⟨gen, _, .waiting (some place)⟩ =>
      (s.served[place]?).map fun r => s.post k { gen := gen, pushRc := some r.2 }
  | _ => none

/-- A thread gets no answer, in time or at all, and sends a signal instead. -/
def unanswered (k : ℕ) (signaled : Bool) : Option (GuiPushes Text) :=
  (s.threads[k]?).map fun t =>
    s.post k { gen := t.gen, pushRc := none, sighupFallback := signaled }

/-- The daemon takes or rejects the first request. -/
def serve (ok : Bool) : Option (GuiPushes Text) :=
  match s.backlog with
  | request :: backlog => some { s with backlog := backlog, served := s.served ++ [(request, ok)] }
  | [] => none

end GuiPushes

/-- Nobody is going to answer a request that the old daemon has not answered. -/
def PushThread.orphaned (served : ℕ) (t : PushThread Text) : PushThread Text :=
  match t.pc with
  | .waiting (some place) => if place < served then t else { t with pc := .waiting none }
  | _ => t

namespace GuiPushes
variable (s : GuiPushes Text)

/-- The daemon is started again: what it had not taken is lost, and nobody answers for it. -/
def restart : GuiPushes Text :=
  { s with
    backlog := []
    threads := s.threads.map (PushThread.orphaned s.served.length) }

/-- The main loop runs a callback. -/
def idle : Option (GuiPushes Text) :=
  match s.posted with
  | r :: posted => some { s with
      posted := posted
      status := if r.gen ≠ s.pushGen ∨ s.windowDestroyed then s.status else r.status }
  | [] => none

end GuiPushes

/-! ## The window, the other programs and the daemon -/

/-- The editor, its pushes, and where the window is in a save. -/
structure GuiSave (Text : Type) where
  editor : ConfigEditor Text := {}
  pushes : GuiPushes Text := {}

/-- A step of the window, of another program that writes the file, or of a push. -/
inductive SaveEvent (Text : Type)
  | load
  | stampLoaded
  | edit (config : AppConfig)
  | save
  | write (fault : Option Bytes) (mtime : ℤ)
  | stampSaved
  | replace (text : Text) (mtime : ℤ)
  | remove
  | reach (k : ℕ)
  | answered (k : ℕ)
  | unanswered (k : ℕ) (signaled : Bool)
  | serve (ok : Bool)
  | restart
  | idle
  | destroy

namespace GuiSave
variable (J : JsonText Text) (lim : Limits) (configPath : Bytes) (s : GuiSave Text)

/-- `save_config_now` up to `save_config`. -/
def checkStamp : GuiSave Text :=
  if s.editor.Stale then { s with pushes := { s.pushes with status := .notSaved } }
  else { s with editor := { s.editor with pc := .checked } }

/-- `save_config`, as the window calls it. -/
def write (fault : Option Bytes) (mtime : ℤ) : GuiSave Text :=
  match saveConfig J lim fault s.editor.config (s.editor.file.map (·.text)) with
  | (.ok _, some text) =>
      { s with
        editor := { s.editor.replaced text mtime with
          pc := .saved
          seen := some s.editor.writes } }
  | _ =>
      { s with
        editor := { s.editor with pc := .loop }
        pushes := { s.pushes with status := .saveError } }

/-- `save_config_now` after `save_config`. -/
def stampSaved : GuiSave Text :=
  { s with
    editor := { s.editor with
      configMtimeLoaded := s.editor.stamp
      unsaved := false
      pc := .loop }
    pushes :=
      match appConfigToJson J s.editor.config with
      | .ok json => s.pushes.push json
      | .error _ => { s.pushes with status := .saveError } }

/-- The steps of a save come in their order; the file may be written by others between any two. -/
def step : SaveEvent Text → Option (GuiSave Text)
  | .load =>
      if s.editor.pc = .unloaded then
        some { s with
          editor := { s.editor with
            config := guiConfig J lim configPath (s.editor.file.map (·.text))
            seen := s.editor.file.map (·.number)
            pc := .loaded } }
      else none
  | .stampLoaded =>
      if s.editor.pc = .loaded then
        some { s with
          editor := { s.editor with configMtimeLoaded := s.editor.stamp, pc := .loop } }
      else none
  | .edit config =>
      if s.editor.pc = .loop then
        some { s with editor := { s.editor with config := config, unsaved := true } }
      else none
  | .save => if s.editor.pc = .loop then some s.checkStamp else none
  | .write fault mtime =>
      if s.editor.pc = .checked then some (s.write J lim fault mtime) else none
  | .stampSaved => if s.editor.pc = .saved then some (s.stampSaved J) else none
  | .replace text mtime => some { s with editor := s.editor.replaced text mtime }
  | .remove => some { s with editor := { s.editor with file := none } }
  | .reach k => (s.pushes.reach k).map ({ s with pushes := · })
  | .answered k => (s.pushes.answered k).map ({ s with pushes := · })
  | .unanswered k signaled => (s.pushes.unanswered k signaled).map ({ s with pushes := · })
  | .serve ok => (s.pushes.serve ok).map ({ s with pushes := · })
  | .restart => some { s with pushes := s.pushes.restart }
  | .idle =>
      if s.editor.pc = .loop then (s.pushes.idle).map ({ s with pushes := · }) else none
  | .destroy =>
      if s.editor.pc = .loop then
        some { s with pushes := { s.pushes with windowDestroyed := true } }
      else none

/-- The window is started on any file. -/
def machine : Machine (GuiSave Text) (SaveEvent Text) where
  Start s := ∃ file : Option (FileVersion Text), s = { editor := { file := file, writes := 1 } } ∧
    ∀ v ∈ file, v.number = 0
  step s := s.step J lim configPath

/-! ## The file and the window -/

/-- What a step does to them: what another program does is possible at any time. -/
inductive Moved (e : ConfigEditor Text) : SaveEvent Text → ConfigEditor Text → Prop
  | load (config : AppConfig) : e.pc = .unloaded →
      Moved e .load { e with config := config, seen := e.file.map (·.number), pc := .loaded }
  | stampLoaded : e.pc = .loaded →
      Moved e .stampLoaded { e with configMtimeLoaded := e.stamp, pc := .loop }
  | edit (config : AppConfig) : e.pc = .loop →
      Moved e (.edit config) { e with config := config, unsaved := true }
  | refused : e.pc = .loop → e.Stale → Moved e .save e
  | checked : e.pc = .loop → ¬e.Stale → Moved e .save { e with pc := .checked }
  | failed (fault : Option Bytes) (mtime : ℤ) : e.pc = .checked →
      Moved e (.write fault mtime) { e with pc := .loop }
  | written (fault : Option Bytes) (mtime : ℤ) (text : Text) : e.pc = .checked →
      Moved e (.write fault mtime)
        { e.replaced text mtime with pc := .saved, seen := some e.writes }
  | stampSaved : e.pc = .saved →
      Moved e .stampSaved { e with configMtimeLoaded := e.stamp, unsaved := false, pc := .loop }
  | replaced (text : Text) (mtime : ℤ) : Moved e (.replace text mtime) (e.replaced text mtime)
  | removed : Moved e .remove { e with file := none }
  | still (l : SaveEvent Text) : (∀ text mtime, l ≠ .replace text mtime) → Moved e l e

/-- No other program writes between a look at the file's time and what follows it, nor while there
is no time to compare with; and the time that a write leaves is not the one remembered. -/
def Undisturbed (s : GuiSave Text) : SaveEvent Text → Prop
  | .replace _ mtime => s.editor.pc = .unloaded ∨ s.editor.pc = .loop ∧
      s.editor.configMtimeLoaded ≠ none ∧ s.editor.configMtimeLoaded ≠ some mtime
  | _ => True

instance (s : GuiSave Text) (l : SaveEvent Text) : Decidable (s.Undisturbed l) :=
  match l with
  | .replace _ _ => inferInstanceAs (Decidable (_ ∨ _))
  | .load | .stampLoaded | .edit _ | .save | .write _ _ | .stampSaved | .remove | .reach _
  | .answered _ | .unanswered _ _ | .serve _ | .restart | .idle | .destroy =>
      inferInstanceAs (Decidable True)

/-- A save that is under way or allowed overwrites what the window has seen. -/
structure Tracked (e : ConfigEditor Text) : Prop where
  midway : e.pc ≠ .unloaded → e.pc ≠ .loop → ¬e.Unseen
  fresh : e.pc = .loop → ¬e.Stale → ¬e.Unseen

/-- The time that is remembered is that of the version that was seen. -/
structure Known (e : ConfigEditor Text) : Prop where
  file : ∀ v, e.file = some v → v.number < e.writes
  seen : ∀ n, e.seen = some n → n < e.writes
  stamped : e.pc = .loop ∨ e.pc = .checked → ∀ v, e.file = some v → e.seen = some v.number →
    e.configMtimeLoaded = some v.mtime

variable {J lim configPath} {s t : GuiSave Text} {e : ConfigEditor Text} {l : SaveEvent Text}

theorem step_moved (ht : s.step J lim configPath l = some t) : Moved s.editor l t.editor := by
  cases l with
  | load =>
      simp only [step] at ht
      split_ifs at ht with hpc
      cases ht
      exact .load _ hpc
  | stampLoaded =>
      simp only [step] at ht
      split_ifs at ht with hpc
      cases ht
      exact .stampLoaded hpc
  | edit config =>
      simp only [step] at ht
      split_ifs at ht with hpc
      cases ht
      exact .edit config hpc
  | save =>
      simp only [step] at ht
      split_ifs at ht with hpc
      cases ht
      unfold checkStamp
      split_ifs with hstale
      · exact .refused hpc hstale
      · exact .checked hpc hstale
  | write fault mtime =>
      simp only [step] at ht
      split_ifs at ht with hpc
      cases ht
      unfold write
      split
      · exact .written fault mtime _ hpc
      · exact .failed fault mtime hpc
  | stampSaved =>
      simp only [step] at ht
      split_ifs at ht with hpc
      cases ht
      exact .stampSaved hpc
  | replace text mtime =>
      cases ht
      exact .replaced text mtime
  | remove =>
      cases ht
      exact .removed
  | reach k =>
      obtain ⟨p, -, rfl⟩ := Option.map_eq_some_iff.mp ht
      exact .still _ fun _ _ h => by cases h
  | answered k =>
      obtain ⟨p, -, rfl⟩ := Option.map_eq_some_iff.mp ht
      exact .still _ fun _ _ h => by cases h
  | unanswered k signaled =>
      obtain ⟨p, -, rfl⟩ := Option.map_eq_some_iff.mp ht
      exact .still _ fun _ _ h => by cases h
  | serve ok =>
      obtain ⟨p, -, rfl⟩ := Option.map_eq_some_iff.mp ht
      exact .still _ fun _ _ h => by cases h
  | restart =>
      cases ht
      exact .still _ fun _ _ h => by cases h
  | idle =>
      simp only [step] at ht
      split_ifs at ht
      obtain ⟨p, -, rfl⟩ := Option.map_eq_some_iff.mp ht
      exact .still _ fun _ _ h => by cases h
  | destroy =>
      simp only [step] at ht
      split_ifs at ht
      cases ht
      exact .still _ fun _ _ h => by cases h

theorem Moved.tracked (hm : Moved s.editor l e) (h : Tracked s.editor) (hg : s.Undisturbed l) :
    Tracked e := by
  cases hm with
  | load config hpc =>
      refine ⟨fun _ _ => ?_, fun hloop => by cases hloop⟩
      rintro ⟨v, hv, hseen⟩
      exact hseen (congrArg (Option.map _) hv)
  | stampLoaded hpc =>
      exact ⟨fun _ hloop => absurd rfl hloop, fun _ _ => h.midway (by simp [hpc]) (by simp [hpc])⟩
  | edit config hpc => exact ⟨h.midway, h.fresh⟩
  | refused => exact h
  | checked hpc hfresh => exact ⟨fun _ _ => h.fresh hpc hfresh, fun hloop => by cases hloop⟩
  | failed fault mtime hpc =>
      exact ⟨fun _ hloop => absurd rfl hloop, fun _ _ => h.midway (by simp [hpc]) (by simp [hpc])⟩
  | written fault mtime text hpc =>
      refine ⟨fun _ _ => ?_, fun hloop => by cases hloop⟩
      rintro ⟨v, hv, hseen⟩
      cases hv
      exact hseen rfl
  | stampSaved hpc =>
      exact ⟨fun _ hloop => absurd rfl hloop, fun _ _ => h.midway (by simp [hpc]) (by simp [hpc])⟩
  | replaced text mtime =>
      rcases hg with hpc | ⟨hpc, hsome, hother⟩
      · exact ⟨fun hloaded => absurd hpc hloaded, fun hloop => by cases hpc.symm.trans hloop⟩
      · refine ⟨fun _ hloop => absurd hpc hloop, fun _ hfresh => absurd ⟨hsome, ?_, ?_⟩ hfresh⟩
        · exact Option.some_ne_none mtime
        · exact hother.symm
  | removed =>
      refine ⟨fun _ _ => ?_, fun _ _ => ?_⟩
      · rintro ⟨v, hv, -⟩
        cases hv
      · rintro ⟨v, hv, -⟩
        cases hv
  | still => exact h

theorem Moved.known (hm : Moved s.editor l e) (h : Known s.editor) : Known e := by
  cases hm with
  | load config hpc =>
      refine ⟨h.file, fun n hn => ?_, fun hpc => ?_⟩
      · obtain ⟨v, hv, rfl⟩ := Option.map_eq_some_iff.mp hn
        exact h.file v hv
      · rcases hpc with hpc | hpc
        · cases hpc
        · cases hpc
  | stampLoaded hpc => exact ⟨h.file, h.seen, fun _ v hv _ => congrArg (Option.map _) hv⟩
  | edit config hpc => exact ⟨h.file, h.seen, h.stamped⟩
  | refused => exact h
  | checked hpc _ => exact ⟨h.file, h.seen, fun _ => h.stamped (.inl hpc)⟩
  | failed fault mtime hpc => exact ⟨h.file, h.seen, fun _ => h.stamped (.inr hpc)⟩
  | written fault mtime text hpc =>
      refine ⟨fun v hv => ?_, fun n hn => ?_, fun hpc => ?_⟩
      · cases hv
        exact Nat.lt_succ_self _
      · cases hn
        exact Nat.lt_succ_self _
      · rcases hpc with hpc | hpc
        · cases hpc
        · cases hpc
  | stampSaved hpc => exact ⟨h.file, h.seen, fun _ v hv _ => congrArg (Option.map _) hv⟩
  | replaced text mtime =>
      refine ⟨fun v hv => ?_, fun n hn => (h.seen n hn).trans (Nat.lt_succ_self _), ?_⟩
      · cases hv
        exact Nat.lt_succ_self _
      · intro _ v hv hseen
        -- the window has not seen what has just been written
        cases hv
        exact absurd (h.seen _ hseen) (Nat.lt_irrefl _)
  | removed =>
      refine ⟨fun v hv => ?_, h.seen, fun _ v hv => ?_⟩
      · cases hv
      · cases hv
  | still => exact h

/-- What is found to be changed has been changed. -/
theorem Known.unseen (h : Known e) (hpc : e.pc = .loop) (hstale : e.Stale) : e.Unseen := by
  obtain ⟨-, hsome, hother⟩ := hstale
  cases hfile : e.file with
  | none => exact absurd (congrArg (Option.map _) hfile) hsome
  | some v =>
      refine ⟨v, hfile, fun hseen => hother ?_⟩
      rw [h.stamped (.inl hpc) v hfile hseen]
      exact congrArg (Option.map _) hfile

theorem run_kept (h : (machine J lim configPath).Run Undisturbed s) :
    Tracked s.editor ∧ Known s.editor := by
  refine h.invariant (I := fun s => Tracked s.editor ∧ Known s.editor) ?_ ?_
  · rintro s ⟨file, rfl, hfile⟩
    refine ⟨⟨fun hpc => absurd rfl hpc, fun hpc => ?_⟩, fun v hv => ?_, fun n hn => ?_,
      fun hpc => ?_⟩
    · cases hpc
    · rw [hfile v hv]
      exact Nat.zero_lt_one
    · cases hn
    · rcases hpc with hpc | hpc
      · cases hpc
      · cases hpc
  · rintro s l t ⟨htracked, hknown⟩ hg ht
    have hm := step_moved ht
    exact ⟨hm.tracked htracked hg, hm.known hknown⟩

/-- **No save discards what the window has not seen**, and one is refused only if it would. -/
theorem no_edit_lost (h : (machine J lim configPath).Run Undisturbed s) :
    (s.editor.pc = .loop → (s.editor.Stale ↔ s.editor.Unseen)) ∧
      (s.editor.pc = .checked → ¬s.editor.Unseen) := by
  obtain ⟨htracked, hknown⟩ := run_kept h
  refine ⟨fun hpc => ⟨hknown.unseen hpc, fun hunseen => ?_⟩, fun hpc => ?_⟩
  · by_contra hfresh
    exact htracked.fresh hpc hfresh hunseen
  · exact htracked.midway (by simp [hpc]) (by simp [hpc])

end GuiSave

/-! ## What the status line tells -/

namespace GuiPushes

/-- The requests that the daemon has taken, in its order. -/
def taken (p : GuiPushes Text) : List (ℕ × Text) := p.served.map Prod.fst ++ p.backlog

/-- The text is that of this save. -/
def Logged (p : GuiPushes Text) (gen : ℕ) (json : Text) : Prop :=
  0 < gen ∧ p.pushed[gen - 1]? = some json

/-- The daemon has decided so about the newest save. -/
def Decided (p : GuiPushes Text) (gen : ℕ) (ok : Bool) : Prop :=
  gen = p.pushGen ∧ ∃ json, p.pushed.getLast? = some json ∧ ((gen, json), ok) ∈ p.served

/-- What a message says of the newest save. -/
def Told (p : GuiPushes Text) : GuiStatus → Prop
  | .applied gen => p.Decided gen true
  | .rejected gen => p.Decided gen false
  | .signaled gen | .notUpdated gen => gen = p.pushGen
  | .ready | .notSaved | .saveError | .saving => True

/-- What the pushes and the daemon know of each other. -/
structure Truthful (p : GuiPushes Text) : Prop where
  count : p.pushed.length = p.pushGen
  logged : ∀ t ∈ p.threads, p.Logged t.gen t.json
  waiting : ∀ t ∈ p.threads, ∀ place, t.pc = .waiting (some place) →
    p.taken[place]? = some (t.gen, t.json)
  posted : ∀ r ∈ p.posted, ∀ ok, r.pushRc = some ok →
    ∃ json, p.Logged r.gen json ∧ ((r.gen, json), ok) ∈ p.served
  told : p.Told p.status

variable {p q : GuiPushes Text}

theorem Logged.push {gen : ℕ} {json : Text} (h : p.Logged gen json) (next : Text) :
    (p.push next).Logged gen json := by
  refine ⟨h.1, ?_⟩
  show (p.pushed ++ [next])[gen - 1]? = some json
  rw [List.getElem?_append_left (List.getElem?_eq_some_iff.mp h.2).1]
  exact h.2

theorem Logged.newest {gen : ℕ} {json : Text} (h : p.Logged gen json)
    (hcount : p.pushed.length = p.pushGen) (hgen : gen = p.pushGen) :
    p.pushed.getLast? = some json := by
  rw [List.getLast?_eq_getElem?, hcount, ← hgen]
  exact h.2

theorem Told.mono {status : GuiStatus} (h : p.Told status) (hgen : q.pushGen = p.pushGen)
    (hpushed : q.pushed = p.pushed) (hserved : ∀ r ∈ p.served, r ∈ q.served) : q.Told status := by
  have hdecided : ∀ {gen ok}, p.Decided gen ok → q.Decided gen ok := by
    rintro gen ok ⟨rfl, json, hlast, hmem⟩
    exact ⟨hgen.symm, json, hpushed ▸ hlast, hserved _ hmem⟩
  cases status with
  | applied gen => exact hdecided h
  | rejected gen => exact hdecided h
  | signaled gen => exact Eq.trans h hgen.symm
  | notUpdated gen => exact Eq.trans h hgen.symm
  | ready => trivial
  | notSaved => trivial
  | saveError => trivial
  | saving => trivial

namespace Truthful

theorem withStatus (h : p.Truthful) {status : GuiStatus} (htold : p.Told status) :
    ({ p with status := status } : GuiPushes Text).Truthful :=
  ⟨h.count, h.logged, h.waiting, h.posted, htold.mono rfl rfl fun _ => id⟩

theorem push (h : p.Truthful) (json : Text) : (p.push json).Truthful where
  count := by
    show (p.pushed ++ [json]).length = p.pushGen + 1
    rw [List.length_append, h.count, List.length_singleton]
  logged t ht := by
    rcases List.mem_append.mp ht with ht | ht
    · exact (h.logged t ht).push json
    · obtain rfl := List.mem_singleton.mp ht
      refine ⟨Nat.succ_pos _, ?_⟩
      show (p.pushed ++ [json])[p.pushGen + 1 - 1]? = some json
      rw [Nat.add_sub_cancel, ← h.count]
      exact List.getElem?_concat_length
  waiting t ht place hpc := by
    rcases List.mem_append.mp ht with ht | ht
    · exact h.waiting t ht place hpc
    · obtain rfl := List.mem_singleton.mp ht
      cases hpc
  posted r hr ok hok := by
    obtain ⟨json', hlogged, hmem⟩ := h.posted r hr ok hok
    exact ⟨json', hlogged.push json, hmem⟩
  told := trivial

theorem post (h : p.Truthful) (k : ℕ) {r : PushResult}
    (hr : ∀ ok, r.pushRc = some ok → ∃ json, p.Logged r.gen json ∧ ((r.gen, json), ok) ∈ p.served) :
    (p.post k r).Truthful where
  count := h.count
  logged t ht := h.logged t (List.mem_of_mem_eraseIdx ht)
  waiting t ht := h.waiting t (List.mem_of_mem_eraseIdx ht)
  posted r' hr' := by
    rcases List.mem_append.mp hr' with hr' | hr'
    · exact h.posted r' hr'
    · exact List.mem_singleton.mp hr' ▸ hr
  told := h.told.mono rfl rfl fun _ => id

theorem reach (h : p.Truthful) {k : ℕ} (hq : p.reach k = some q) : q.Truthful := by
  unfold GuiPushes.reach at hq
  cases hthread : p.threads[k]? with
  | none =>
      rw [hthread] at hq
      cases hq
  | some t =>
      simp only [hthread] at hq
      split_ifs at hq with hpc
      cases hq
      have hmem := List.mem_of_getElem? hthread
      have htaken : ∀ (place : ℕ) (r : ℕ × Text), p.taken[place]? = some r →
          (p.served.map Prod.fst ++ (p.backlog ++ [(t.gen, t.json)]))[place]? = some r := by
        intro place r hr
        rw [← List.append_assoc]
        exact (List.getElem?_append_left (List.getElem?_eq_some_iff.mp hr).1).trans hr
      refine ⟨h.count, fun t' ht' => ?_, fun t' ht' place hpc' => ?_, h.posted,
        h.told.mono rfl rfl fun _ => id⟩
      · rcases List.mem_or_eq_of_mem_set ht' with ht' | rfl
        · exact h.logged t' ht'
        · exact h.logged t hmem
      · rcases List.mem_or_eq_of_mem_set ht' with ht' | rfl
        · exact htaken _ _ (h.waiting t' ht' place hpc')
        · cases hpc'
          show (p.served.map Prod.fst ++ (p.backlog ++ [(t.gen, t.json)]))[_]? = _
          have hplace : p.served.length + p.backlog.length =
              (p.served.map Prod.fst ++ p.backlog).length := by
            rw [List.length_append, List.length_map]
          rw [← List.append_assoc, hplace]
          exact List.getElem?_concat_length

theorem answered (h : p.Truthful) {k : ℕ} (hq : p.answered k = some q) : q.Truthful := by
  unfold GuiPushes.answered at hq
  split at hq
  · rename_i gen json place hthread
    obtain ⟨r, hr, rfl⟩ := Option.map_eq_some_iff.mp hq
    have hmem := List.mem_of_getElem? hthread
    have htaken := h.waiting _ hmem place rfl
    have hplace := (List.getElem?_eq_some_iff.mp hr).1
    have hfirst : (p.served.map Prod.fst)[place]? = some r.1 := by
      rw [List.getElem?_map, hr]
      rfl
    have hrequest : r.1 = (gen, json) := by
      refine Option.some.inj (hfirst.symm.trans ?_)
      rw [← htaken]
      exact (List.getElem?_append_left ((List.length_map _).symm ▸ hplace)).symm
    refine h.post k fun ok hok => ⟨json, h.logged _ hmem, ?_⟩
    obtain rfl := Option.some.inj hok
    exact hrequest ▸ List.mem_of_getElem? hr
  · cases hq

theorem serve (h : p.Truthful) {ok : Bool} (hq : p.serve ok = some q) : q.Truthful := by
  unfold GuiPushes.serve at hq
  cases hbacklog : p.backlog with
  | nil =>
      rw [hbacklog] at hq
      cases hq
  | cons request backlog =>
      rw [hbacklog] at hq
      cases hq
      have hserved : ∀ r ∈ p.served, r ∈ p.served ++ [(request, ok)] :=
        fun _ hr => List.mem_append_left _ hr
      refine ⟨h.count, h.logged, fun t ht place hpc => ?_, fun r hr ok' hok => ?_,
        h.told.mono rfl rfl hserved⟩
      · have htaken : taken { p with
            backlog := backlog, served := p.served ++ [(request, ok)] } = p.taken := by
          simp [taken, hbacklog]
        rw [htaken]
        exact h.waiting t ht place hpc
      · obtain ⟨json, hlogged, hmem⟩ := h.posted r hr ok' hok
        exact ⟨json, hlogged, hserved _ hmem⟩

theorem restart (h : p.Truthful) : p.restart.Truthful := by
  have horphaned : ∀ t : PushThread Text, (t.orphaned p.served.length).gen = t.gen ∧
      (t.orphaned p.served.length).json = t.json ∧ ∀ place,
        (t.orphaned p.served.length).pc = .waiting (some place) →
          t.pc = .waiting (some place) ∧ place < p.served.length := by
    rintro ⟨gen, json, _ | _ | place⟩
    · exact ⟨rfl, rfl, fun _ hpc => by cases hpc⟩
    · exact ⟨rfl, rfl, fun _ hpc => by cases hpc⟩
    · unfold PushThread.orphaned
      dsimp only
      split_ifs with hplace
      · refine ⟨rfl, rfl, fun place' hpc => ?_⟩
        cases hpc
        exact ⟨rfl, hplace⟩
      · exact ⟨rfl, rfl, fun _ hpc => by cases hpc⟩
  refine ⟨h.count, fun t ht => ?_, fun t ht place hpc => ?_, h.posted,
    h.told.mono rfl rfl fun _ => id⟩
  · obtain ⟨t, hmem, rfl⟩ := List.mem_map.mp ht
    rw [(horphaned t).1, (horphaned t).2.1]
    exact h.logged t hmem
  · obtain ⟨t, hmem, rfl⟩ := List.mem_map.mp ht
    obtain ⟨hgen, hjson, hwaits⟩ := horphaned t
    obtain ⟨hpc, hplace⟩ := hwaits place hpc
    have htaken := h.waiting t hmem place hpc
    rw [hgen, hjson, ← htaken]
    have hlength : place < (p.served.map Prod.fst).length := (List.length_map _).symm ▸ hplace
    show (p.served.map Prod.fst ++ [])[place]? = (p.served.map Prod.fst ++ p.backlog)[place]?
    rw [List.getElem?_append_left hlength, List.getElem?_append_left hlength]

theorem idle (h : p.Truthful) (hq : p.idle = some q) : q.Truthful := by
  unfold GuiPushes.idle at hq
  cases hposted : p.posted with
  | nil =>
      rw [hposted] at hq
      cases hq
  | cons r posted =>
      rw [hposted] at hq
      cases hq
      have hrest : ∀ r' ∈ posted, r' ∈ p.posted := fun r' hr' =>
        hposted ▸ List.mem_cons_of_mem r hr'
      refine ⟨h.count, h.logged, h.waiting, fun r' hr' => h.posted r' (hrest r' hr'), ?_⟩
      show Told _ (if r.gen ≠ p.pushGen ∨ p.windowDestroyed then p.status else r.status)
      split_ifs with hlate
      · exact h.told.mono rfl rfl fun _ => id
      · -- the callback is that of the newest save
        have hgen : r.gen = p.pushGen := by
          by_contra hne
          exact hlate (.inl hne)
        have hr := h.posted r (hposted ▸ List.mem_cons_self)
        unfold PushResult.status
        cases hrc : r.pushRc with
        | none =>
            dsimp only
            split_ifs
            · exact hgen
            · exact hgen
        | some ok =>
            obtain ⟨json, hlogged, hmem⟩ := hr ok hrc
            have hdecided : p.Decided r.gen ok := ⟨hgen, json, hlogged.newest h.count hgen, hmem⟩
            cases ok with
            | true => exact hdecided
            | false => exact hdecided

end Truthful

/-! ## The order of the pushes -/

/-- The threads and what the daemon has taken are in the order of the saves. -/
structure InOrder (p : GuiPushes Text) : Prop where
  threads : (p.threads.map (·.gen)).Pairwise (· < ·)
  taken : (p.taken.map Prod.fst).Pairwise (· < ·)
  later : ∀ t ∈ p.threads, t.pc = .sending → ∀ r ∈ p.taken, r.1 < t.gen
  bound : ∀ t ∈ p.threads, t.gen ≤ p.pushGen
  boundTaken : ∀ r ∈ p.taken, r.1 ≤ p.pushGen

namespace InOrder

theorem push (h : p.InOrder) (json : Text) : (p.push json).InOrder where
  threads := by
    show ((p.threads ++ [_]).map _).Pairwise _
    rw [List.map_append, List.pairwise_append]
    refine ⟨h.threads, List.pairwise_singleton _ _, fun gen hgen gen' hgen' => ?_⟩
    obtain ⟨t, ht, rfl⟩ := List.mem_map.mp hgen
    obtain rfl := List.mem_singleton.mp hgen'
    exact Nat.lt_succ_of_le (h.bound t ht)
  taken := h.taken
  later t ht hpc r hr := by
    rcases List.mem_append.mp ht with ht | ht
    · exact h.later t ht hpc r hr
    · obtain rfl := List.mem_singleton.mp ht
      exact Nat.lt_succ_of_le (h.boundTaken r hr)
  bound t ht := by
    rcases List.mem_append.mp ht with ht | ht
    · exact (h.bound t ht).trans (Nat.le_succ _)
    · obtain rfl := List.mem_singleton.mp ht
      exact Nat.le_refl _
  boundTaken r hr := (h.boundTaken r hr).trans (Nat.le_succ _)

theorem post (h : p.InOrder) (k : ℕ) (r : PushResult) : (p.post k r).InOrder where
  threads := h.threads.sublist ((List.eraseIdx_sublist _ _).map _)
  taken := h.taken
  later t ht := h.later t (List.mem_of_mem_eraseIdx ht)
  bound t ht := h.bound t (List.mem_of_mem_eraseIdx ht)
  boundTaken := h.boundTaken

/-- No older request is on its way. -/
theorem reach (h : p.InOrder) {k : ℕ} (hturn : ∀ t ∈ p.threads.take k, t.pc ≠ .sending)
    (hq : p.reach k = some q) : q.InOrder := by
  unfold GuiPushes.reach at hq
  cases hthread : p.threads[k]? with
  | none =>
      rw [hthread] at hq
      cases hq
  | some t =>
      simp only [hthread] at hq
      split_ifs at hq with hpc
      cases hq
      obtain ⟨hk, hget⟩ := List.getElem?_eq_some_iff.mp hthread
      have hmem := List.mem_of_getElem? hthread
      have hsplit : p.threads = p.threads.take k ++ t :: p.threads.drop (k + 1) := by
        rw [← hget, List.getElem_cons_drop, List.take_append_drop]
      have hset : ∀ t', p.threads.set k t' = p.threads.take k ++ t' :: p.threads.drop (k + 1) := by
        intro t'
        rw [List.set_eq_take_append_cons_drop, if_pos hk]
      have hnewer : ∀ t' ∈ p.threads.drop (k + 1), t.gen < t'.gen := by
        have hthreads := h.threads
        rw [hsplit, List.map_append, List.map_cons, List.pairwise_append,
          List.pairwise_cons] at hthreads
        exact fun t' ht' => hthreads.2.1.1 t'.gen (List.mem_map_of_mem ht')
      have hlast : ∀ r ∈ p.taken ++ [(t.gen, t.json)], r ∈ p.taken ∨ r.1 = t.gen := by
        intro r hr
        refine (List.mem_append.mp hr).imp_right fun hr => ?_
        rw [List.mem_singleton.mp hr]
      have htaken : ∀ threads, GuiPushes.taken { p with
          threads := threads, backlog := p.backlog ++ [(t.gen, t.json)] } =
            p.taken ++ [(t.gen, t.json)] := fun _ => (List.append_assoc _ _ _).symm
      constructor
      · show ((p.threads.set k _).map _).Pairwise _
        have hthreads := h.threads
        rw [hsplit] at hthreads
        rw [hset]
        simpa using hthreads
      · rw [htaken, List.map_append, List.pairwise_append]
        refine ⟨h.taken, List.pairwise_singleton _ _, fun gen hgen gen' hgen' => ?_⟩
        obtain ⟨r, hr, rfl⟩ := List.mem_map.mp hgen
        obtain rfl := List.mem_singleton.mp hgen'
        exact h.later t hmem hpc r hr
      · intro t' ht' hpc' r hr
        rw [hset] at ht'
        rw [htaken] at hr
        rcases List.mem_append.mp ht' with ht' | ht'
        · exact absurd hpc' (hturn t' ht')
        rcases List.mem_cons.mp ht' with rfl | ht'
        · cases hpc'
        · rcases hlast r hr with hr | hr
          · exact h.later t' (List.mem_of_mem_drop ht') hpc' r hr
          · rw [hr]
            exact hnewer t' ht'
      · intro t' ht'
        rcases List.mem_or_eq_of_mem_set ht' with ht' | rfl
        · exact h.bound t' ht'
        · exact h.bound t hmem
      · intro r hr
        rw [htaken] at hr
        rcases hlast r hr with hr | hr
        · exact h.boundTaken r hr
        · rw [hr]
          exact h.bound t hmem

theorem serve (h : p.InOrder) {ok : Bool} (hq : p.serve ok = some q) : q.InOrder := by
  unfold GuiPushes.serve at hq
  cases hbacklog : p.backlog with
  | nil =>
      rw [hbacklog] at hq
      cases hq
  | cons request backlog =>
      rw [hbacklog] at hq
      cases hq
      have htaken : GuiPushes.taken { p with
          backlog := backlog, served := p.served ++ [(request, ok)] } = p.taken := by
        simp [GuiPushes.taken, hbacklog]
      exact ⟨h.threads, htaken ▸ h.taken, htaken ▸ h.later, h.bound, htaken ▸ h.boundTaken⟩

theorem restart (h : p.InOrder) : p.restart.InOrder := by
  have hgen : ∀ t : PushThread Text, (t.orphaned p.served.length).gen = t.gen ∧
      ((t.orphaned p.served.length).pc = .sending → t.pc = .sending) := by
    rintro ⟨gen, json, _ | _ | place⟩
    · exact ⟨rfl, id⟩
    · exact ⟨rfl, id⟩
    · unfold PushThread.orphaned
      dsimp only
      split_ifs
      · exact ⟨rfl, id⟩
      · exact ⟨rfl, fun hpc => by cases hpc⟩
  have htaken : p.restart.taken.Sublist p.taken := by
    show (p.served.map Prod.fst ++ []).Sublist _
    rw [List.append_nil]
    exact List.sublist_append_left _ _
  refine ⟨?_, h.taken.sublist (htaken.map _), ?_, ?_, fun r hr =>
    h.boundTaken r (htaken.subset hr)⟩
  · have hsame : p.restart.threads.map (·.gen) = p.threads.map (·.gen) := by
      show (p.threads.map _).map _ = _
      rw [List.map_map]
      exact List.map_congr_left fun t _ => (hgen t).1
    rw [hsame]
    exact h.threads
  · intro t ht hpc r hr
    obtain ⟨t, hmem, rfl⟩ := List.mem_map.mp ht
    rw [(hgen t).1]
    exact h.later t hmem ((hgen t).2 hpc) r (htaken.subset hr)
  · intro t ht
    obtain ⟨t, hmem, rfl⟩ := List.mem_map.mp ht
    rw [(hgen t).1]
    exact h.bound t hmem

/-- What is newest was taken last. -/
theorem last (h : p.InOrder) {r : (ℕ × Text) × Bool} (hr : r ∈ p.served)
    (hgen : r.1.1 = p.pushGen) : p.backlog = [] ∧ p.served.getLast? = some r := by
  obtain ⟨before, after, hserved⟩ := List.append_of_mem hr
  have hsplit : p.taken = before.map Prod.fst ++ r.1 :: (after.map Prod.fst ++ p.backlog) := by
    rw [GuiPushes.taken, hserved, List.map_append, List.map_cons, List.append_assoc,
      List.cons_append]
  have htaken := h.taken
  rw [hsplit, List.map_append, List.map_cons, List.pairwise_append, List.pairwise_cons] at htaken
  have hall : ∀ r' ∈ after.map Prod.fst ++ p.backlog, False := by
    intro r' hr'
    have hbound : r'.1 ≤ p.pushGen := by
      refine h.boundTaken r' ?_
      rw [hsplit]
      exact List.mem_append_right _ (List.mem_cons_of_mem _ hr')
    have hlt := htaken.2.1.1 r'.1 (List.mem_map_of_mem hr')
    omega
  obtain ⟨hafter, hbacklog⟩ := List.append_eq_nil_iff.mp (List.eq_nil_iff_forall_not_mem.mpr hall)
  refine ⟨hbacklog, ?_⟩
  rw [hserved, List.map_eq_nil_iff.mp hafter]
  exact List.getLast?_concat

end InOrder
end GuiPushes

namespace GuiSave
variable {J : JsonText Text} {lim : Limits} {configPath : Bytes} {s t : GuiSave Text}
variable {l : SaveEvent Text}

/-- What a step does to the pushes. -/
inductive PushMoved (p : GuiPushes Text) : SaveEvent Text → GuiPushes Text → Prop
  | still (l : SaveEvent Text) : PushMoved p l p
  | status (l : SaveEvent Text) (status : GuiStatus) : p.Told status →
      PushMoved p l { p with status := status }
  | pushed (json : Text) : PushMoved p .stampSaved (p.push json)
  | reach {k : ℕ} {q : GuiPushes Text} : p.reach k = some q → PushMoved p (.reach k) q
  | answered {k : ℕ} {q : GuiPushes Text} : p.answered k = some q → PushMoved p (.answered k) q
  | unanswered {k : ℕ} {signaled : Bool} {q : GuiPushes Text} :
      p.unanswered k signaled = some q → PushMoved p (.unanswered k signaled) q
  | serve {ok : Bool} {q : GuiPushes Text} : p.serve ok = some q → PushMoved p (.serve ok) q
  | restart : PushMoved p .restart p.restart
  | idle {q : GuiPushes Text} : p.idle = some q → PushMoved p .idle q
  | destroy : PushMoved p .destroy { p with windowDestroyed := true }

theorem step_pushes (ht : s.step J lim configPath l = some t) :
    PushMoved s.pushes l t.pushes := by
  cases l with
  | load =>
      simp only [step] at ht
      split_ifs at ht
      cases ht
      exact .still _
  | stampLoaded =>
      simp only [step] at ht
      split_ifs at ht
      cases ht
      exact .still _
  | edit config =>
      simp only [step] at ht
      split_ifs at ht
      cases ht
      exact .still _
  | save =>
      simp only [step] at ht
      split_ifs at ht
      cases ht
      unfold checkStamp
      split_ifs
      · exact .status _ .notSaved trivial
      · exact .still _
  | write fault mtime =>
      simp only [step] at ht
      split_ifs at ht
      cases ht
      unfold write
      split
      · exact .still _
      · exact .status _ .saveError trivial
  | stampSaved =>
      simp only [step] at ht
      split_ifs at ht
      cases ht
      unfold stampSaved
      dsimp only
      split
      · exact .pushed _
      · exact .status _ .saveError trivial
  | replace text mtime =>
      cases ht
      exact .still _
  | remove =>
      cases ht
      exact .still _
  | reach k =>
      obtain ⟨p, hp, rfl⟩ := Option.map_eq_some_iff.mp ht
      exact .reach hp
  | answered k =>
      obtain ⟨p, hp, rfl⟩ := Option.map_eq_some_iff.mp ht
      exact .answered hp
  | unanswered k signaled =>
      obtain ⟨p, hp, rfl⟩ := Option.map_eq_some_iff.mp ht
      exact .unanswered hp
  | serve ok =>
      obtain ⟨p, hp, rfl⟩ := Option.map_eq_some_iff.mp ht
      exact .serve hp
  | restart =>
      cases ht
      exact .restart
  | idle =>
      simp only [step] at ht
      split_ifs at ht
      obtain ⟨p, hp, rfl⟩ := Option.map_eq_some_iff.mp ht
      exact .idle hp
  | destroy =>
      simp only [step] at ht
      split_ifs at ht
      cases ht
      exact .destroy

/-- The requests of two threads reach the daemon in the order of the saves. -/
def InTurn (s : GuiSave Text) : SaveEvent Text → Prop
  | .reach k => ∀ t ∈ s.pushes.threads.take k, t.pc ≠ .sending
  | _ => True

instance (s : GuiSave Text) (l : SaveEvent Text) : Decidable (s.InTurn l) :=
  match l with
  | .reach k => inferInstanceAs (Decidable (∀ t ∈ s.pushes.threads.take k, _))
  | .load | .stampLoaded | .edit _ | .save | .write _ _ | .stampSaved | .replace _ _ | .remove
  | .answered _ | .unanswered _ _ | .serve _ | .restart | .idle | .destroy =>
      inferInstanceAs (Decidable True)

theorem PushMoved.truthful {q : GuiPushes Text} (hm : PushMoved s.pushes l q)
    (h : s.pushes.Truthful) : q.Truthful := by
  cases hm with
  | still => exact h
  | status _ _ htold => exact h.withStatus htold
  | pushed json => exact h.push json
  | reach hq => exact h.reach hq
  | answered hq => exact h.answered hq
  | unanswered hq =>
      obtain ⟨t, -, rfl⟩ := Option.map_eq_some_iff.mp hq
      exact h.post _ fun ok hok => by cases hok
  | serve hq => exact h.serve hq
  | restart => exact h.restart
  | idle hq => exact h.idle hq
  | destroy => exact ⟨h.count, h.logged, h.waiting, h.posted, h.told.mono rfl rfl fun _ => id⟩

theorem PushMoved.inOrder {q : GuiPushes Text} (hm : PushMoved s.pushes l q)
    (h : s.pushes.InOrder) (hg : s.InTurn l) : q.InOrder := by
  cases hm with
  | still => exact h
  | status => exact ⟨h.threads, h.taken, h.later, h.bound, h.boundTaken⟩
  | pushed json => exact h.push json
  | reach hq => exact h.reach hg hq
  | answered hq =>
      unfold GuiPushes.answered at hq
      split at hq
      · obtain ⟨r, -, rfl⟩ := Option.map_eq_some_iff.mp hq
        exact h.post _ _
      · cases hq
  | unanswered hq =>
      obtain ⟨t, -, rfl⟩ := Option.map_eq_some_iff.mp hq
      exact h.post _ _
  | serve hq => exact h.serve hq
  | restart => exact h.restart
  | idle hq =>
      unfold GuiPushes.idle at hq
      split at hq
      · cases hq
        exact ⟨h.threads, h.taken, h.later, h.bound, h.boundTaken⟩
      · cases hq
  | destroy => exact ⟨h.threads, h.taken, h.later, h.bound, h.boundTaken⟩

theorem truthful_start : ({} : GuiPushes Text).Truthful where
  count := rfl
  logged := List.forall_mem_nil _
  waiting := List.forall_mem_nil _
  posted := List.forall_mem_nil _
  told := trivial

theorem truthful_of_run {G : GuiSave Text → SaveEvent Text → Prop}
    (h : (machine J lim configPath).Run G s) : s.pushes.Truthful := by
  refine h.invariant (I := fun s => s.pushes.Truthful) ?_ ?_
  · rintro s ⟨file, rfl, -⟩
    exact truthful_start
  · exact fun s l t hs _ ht => (step_pushes ht).truthful hs

/-- **The status line tells of the newest save**, and what the daemon has decided about it. -/
theorem status_of_newest (h : (machine J lim configPath).Reachable s) :
    s.pushes.Told s.pushes.status :=
  (truthful_of_run h).told

/-- **The daemon takes the saves in their order** if no thread overtakes an older one; when the line
says that the newest one is applied, it is the last that the daemon has taken. -/
theorem pushes_in_order (h : (machine J lim configPath).Run InTurn s) :
    (s.pushes.taken.map Prod.fst).Pairwise (· < ·) ∧
      ∀ gen, s.pushes.status = .applied gen → s.pushes.backlog = [] ∧ ∃ json,
        s.pushes.pushed.getLast? = some json ∧
          s.pushes.served.getLast? = some ((gen, json), true) := by
  have horder : s.pushes.InOrder := by
    refine h.invariant (I := fun s => s.pushes.InOrder) ?_ ?_
    · rintro s ⟨file, rfl, -⟩
      exact ⟨.nil, .nil, List.forall_mem_nil _, List.forall_mem_nil _, List.forall_mem_nil _⟩
    · exact fun s l t hs hg ht => (step_pushes ht).inOrder hs hg
  refine ⟨horder.taken, fun gen hstatus => ?_⟩
  have htold := (truthful_of_run h).told
  rw [hstatus] at htold
  obtain ⟨hgen, json, hnewest, hmem⟩ := htold
  obtain ⟨hbacklog, hlast⟩ := horder.last hmem hgen
  exact ⟨hbacklog, json, hnewest, hlast⟩

/-! ## Runs -/

/-- A window without a file. -/
def newWindow : GuiSave Json := { editor := { writes := 1 } }

/-- The runs of a window on one settings file. -/
def windowMachine : Machine (GuiSave Json) (SaveEvent Json) :=
  machine JsonText.trees Limits.documented (bytes "settings.json")

theorem windowMachine_start : windowMachine.Start newWindow :=
  ⟨none, rfl, fun v hv => by cases hv⟩

/-- A configuration is made and saved; the write leaves this time. -/
def saves (name : Bytes) (mtime : ℤ) : List (SaveEvent Json) :=
  [.edit { activeProfile := name }, .save, .write none mtime, .stampSaved]

/-- The window opens. -/
def opens : List (SaveEvent Json) := [.load, .stampLoaded]

/-- Another program writes after a save. -/
theorem no_edit_lost_after : ∃ s, windowMachine.Run Undisturbed s ∧ s.editor.pc = .loop ∧
    s.editor.Unseen := by
  obtain ⟨s, hrun, hpc, hstale⟩ := Machine.exists_run (G := Undisturbed)
    (P := fun s => s.editor.pc = .loop ∧ s.editor.Stale) windowMachine_start
    (opens ++ saves (bytes "a") 5 ++ [.replace .null 6]) (by decide +kernel)
  exact ⟨s, hrun, hpc, ((no_edit_lost hrun).1 hpc).mp hstale⟩

/-- Another program makes the file that the window did not find, and the save discards it. -/
theorem edit_lost_unstamped : ∃ s, windowMachine.Reachable s ∧ s.editor.pc = .checked ∧
    s.editor.Unseen :=
  Machine.exists_run (P := fun s => s.editor.pc = .checked ∧ s.editor.Unseen) windowMachine_start
    (opens ++ [.replace .null 5, .save]) (by decide +kernel)

/-- One save is applied. -/
theorem status_of_newest_applied : ∃ s, windowMachine.Reachable s ∧
    s.pushes.status = .applied 1 ∧ s.pushes.Decided 1 true := by
  obtain ⟨s, hrun, hstatus⟩ := Machine.exists_run (G := fun _ _ => True)
    (P := fun s => s.pushes.status = .applied 1) windowMachine_start
    (opens ++ saves (bytes "a") 5 ++ [.reach 0, .serve true, .answered 0, .idle])
    (by decide +kernel)
  have htold := status_of_newest hrun
  rw [hstatus] at htold
  exact ⟨s, hrun, hstatus, htold⟩

/-- A save is refused, and the line says that the one before it is applied. -/
theorem refusal_covered : ∃ s, windowMachine.Reachable s ∧ s.pushes.status = .applied 1 ∧
    s.editor.unsaved = true ∧ s.editor.Stale :=
  Machine.exists_run
    (P := fun s => s.pushes.status = .applied 1 ∧ s.editor.unsaved = true ∧ s.editor.Stale)
    windowMachine_start
    (opens ++ saves (bytes "a") 5 ++ [.reach 0, .serve true, .replace .null 6,
      .edit { activeProfile := bytes "b" }, .save, .answered 0, .idle]) (by decide +kernel)

/-- Two saves in their order. -/
theorem pushes_in_order_two : ∃ s, windowMachine.Run InTurn s ∧ ∃ json,
    s.pushes.pushed.getLast? = some json ∧ s.pushes.served.getLast? = some ((2, json), true) := by
  obtain ⟨s, hrun, hstatus⟩ := Machine.exists_run (G := InTurn)
    (P := fun s => s.pushes.status = .applied 2) windowMachine_start
    (opens ++ saves (bytes "a") 5 ++ saves (bytes "b") 6 ++ [.reach 0, .reach 1, .serve true,
      .serve true, .answered 1, .idle]) (by decide +kernel)
  exact ⟨s, hrun, ((pushes_in_order hrun).2 2 hstatus).2⟩

/-- The older save overtakes: the newest one is said to be applied, and the daemon has taken the
older one last. -/
theorem push_overtakes : ∃ s, windowMachine.Reachable s ∧ s.pushes.status = .applied 2 ∧
    s.pushes.served.getLast?.map (·.1.1) = some 1 :=
  Machine.exists_run
    (P := fun s => s.pushes.status = .applied 2 ∧
      s.pushes.served.getLast?.map (·.1.1) = some 1) windowMachine_start
    (opens ++ saves (bytes "a") 5 ++ saves (bytes "b") 6 ++ [.reach 1, .reach 0, .serve true,
      .serve true, .answered 1, .idle]) (by decide +kernel)

end GuiSave
end AbrekMouse
