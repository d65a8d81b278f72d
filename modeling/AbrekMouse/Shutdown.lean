import AbrekMouse.PushPipeline

/-! # Shutting down

At a stop the main thread closes the server, then joins the other threads.  A push that
was queued has to reach `save_config` before that, or give way to a later one.

The worker leaves its loop when it has found the queue empty and then the flag cleared.
A push tests the flag long before it queues, so it can queue between those two looks, or
after the worker has left.  `queued_handed` says that nothing else loses a push.
-/
namespace AbrekMouse
open ProgLib
variable {Text Data : Type} [DecidableEq Text] {J : JsonText Text} {lim : Limits}
  {hash : Text → UInt64} {E : Engine Data} {configPath : Bytes}

namespace Pipeline

/-- The guard of a run: the worker leaves with the queue empty, and nothing is queued
after it has left. -/
def LeavesClean (s : Pipeline Text Data) : PipelineStep Text → Prop
  | .save => (s.save matches .test) → s.running = false → s.saveQ.isEmpty
  | .ipc => (s.ipc matches .enqueuing _) → ¬(s.save matches .exited)
  | _ => True

instance (s : Pipeline Text Data) : ∀ l, Decidable (LeavesClean s l)
  | .save => inferInstanceAs (Decidable ((s.save matches .test) → s.running = false →
      s.saveQ.isEmpty))
  | .ipc => inferInstanceAs (Decidable ((s.ipc matches .enqueuing _) →
      ¬(s.save matches .exited)))
  | .requestStop | .client _ | .hangup | .loop _ _ | .main => inferInstanceAs (Decidable True)

/-- The configuration of a queued item, or a later one, is on its way or was handed to
`save_config`. -/
def Placed (s : Pipeline Text Data) (item : Item) : Prop :=
  item ∈ s.handed ∨ (item ∈ s.dropped ∧ item.id + 1 < s.accepted.length) ∨
    item ∈ s.saveQ ∨ s.save = .saving item

/-- Where everything that was queued is; the worker leaves nothing in the queue, and it
has left when `stop` returns. -/
structure Accounted (s : Pipeline Text Data) : Prop where
  placed : ∀ k cfg, s.accepted[k]? = some cfg → s.Placed ⟨k, cfg⟩
  left : s.save = .exited → s.saveQ = []
  joined : s.main = .joined → s.save = .exited

variable {s s' : Pipeline Text Data}

section
omit [DecidableEq Text]

/-- A step that leaves the queue, the worker and the main thread alone. -/
theorem Accounted.of_eq (h : s.Accounted) (haccepted : s'.accepted = s.accepted)
    (hhanded : s'.handed = s.handed) (hdropped : s'.dropped = s.dropped)
    (hsaveQ : s'.saveQ = s.saveQ) (hsave : s'.save = s.save) (hmain : s'.main = s.main) :
    s'.Accounted where
  placed k cfg hk := by
    unfold Placed
    rw [haccepted, hhanded, hdropped, hsaveQ, hsave]
    exact h.placed k cfg (haccepted ▸ hk)
  left := by
    rw [hsave, hsaveQ]
    exact h.left
  joined := by
    rw [hmain, hsave]
    exact h.joined

/-- While the worker saves nothing, an item stays where it is. -/
theorem Placed.stay {item : Item} (h : s.Placed item) (hsave : ∀ item, s.save ≠ .saving item)
    (haccepted : s'.accepted = s.accepted) (hhanded : s'.handed = s.handed)
    (hdropped : s'.dropped = s.dropped) (hsaveQ : s'.saveQ = s.saveQ) : s'.Placed item := by
  unfold Placed
  rw [haccepted, hhanded, hdropped, hsaveQ]
  rcases h with hhanded | hdropped | hqueued | hsaving
  · exact .inl hhanded
  · exact .inr (.inl hdropped)
  · exact .inr (.inr (.inl hqueued))
  · exact absurd hsaving (hsave item)

/-- A push clears the queue of those that came before it and is alone in it. -/
theorem accounted_enqueue (h : s.Accounted) (hsave : s.save ≠ .exited) (cfg : AppConfig)
    (haccepted : s'.accepted = s.accepted ++ [cfg]) (hhanded : s'.handed = s.handed)
    (hdropped : s'.dropped = s.dropped ++ s.saveQ)
    (hsaveQ : s'.saveQ = [⟨s.accepted.length, cfg⟩]) (hsave' : s'.save = s.save)
    (hmain : s'.main = s.main) : s'.Accounted where
  placed k c hk := by
    unfold Placed
    rw [haccepted, hhanded, hdropped, hsaveQ, hsave', List.length_append, List.length_singleton]
    rw [haccepted, List.getElem?_append] at hk
    split_ifs at hk with hlt
    · rcases h.placed k c hk with hhanded | ⟨hdropped, hnext⟩ | hqueued | hsaving
      · exact .inl hhanded
      · exact .inr (.inl ⟨List.mem_append_left _ hdropped, by dsimp only at hnext ⊢; omega⟩)
      · exact .inr (.inl ⟨List.mem_append_right _ hqueued, by dsimp only; omega⟩)
      · exact .inr (.inr (.inr hsaving))
    · obtain ⟨hbound, hget⟩ := List.getElem?_eq_some_iff.mp hk
      rw [List.length_singleton] at hbound
      obtain rfl : k = s.accepted.length := by omega
      simp only [Nat.sub_self, List.getElem_cons_zero] at hget
      subst hget
      exact .inr (.inr (.inl (List.mem_singleton.mpr rfl)))
  left hleft := absurd (hsave' ▸ hleft) hsave
  joined hjoined := by
    rw [hsave']
    exact h.joined (hmain ▸ hjoined)

end

theorem accounted_ipc (h : s.Accounted) (hclean : LeavesClean s .ipc)
    (hstep : s.ipcStep J lim hash configPath = some s') : s'.Accounted := by
  unfold ipcStep at hstep
  cases hipc : s.ipc with
  | enqueuing cfg =>
      simp only [hipc] at hstep
      cases hstep
      refine accounted_enqueue h (fun hsave => ?_) cfg rfl rfl rfl rfl rfl rfl
      simp [LeavesClean, hipc, hsave] at hclean
  | head | polling | entered t =>
      simp only [hipc] at hstep
      cases hstep
      exact h.of_eq rfl rfl rfl rfl rfl rfl
  | checked t =>
      simp only [hipc] at hstep
      split_ifs at hstep
      · split at hstep <;> cases hstep <;> exact h.of_eq rfl rfl rfl rfl rfl rfl
      · cases hstep
        exact h.of_eq rfl rfl rfl rfl rfl rfl
  | snapshotted t pendingJson =>
      simp only [hipc] at hstep
      split at hstep <;> cases hstep <;> exact h.of_eq rfl rfl rfl rfl rfl rfl
  | exited =>
      rw [hipc] at hstep
      cases hstep

omit [DecidableEq Text] in
theorem accounted_save (h : s.Accounted) (hclean : LeavesClean s .save)
    (hstep : s.saveStep J lim = some s') : s'.Accounted := by
  have hstay : s.save ≠ .exited → ∀ {P : Prop}, s.main = .joined → P :=
    fun hsave _ hjoined => absurd (h.joined hjoined) hsave
  unfold saveStep at hstep
  cases hsave : s.save with
  | look =>
      simp only [hsave] at hstep
      split at hstep
      · cases hstep
        exact ⟨fun k cfg hk => (h.placed k cfg hk).stay (by simp [hsave]) rfl rfl rfl rfl,
          fun hleft => (by cases hleft), hstay (by simp [hsave])⟩
      · rename_i item rest hsaveQ
        cases hstep
        refine ⟨fun k cfg hk => ?_, fun hleft => (by cases hleft), hstay (by simp [hsave])⟩
        rcases h.placed k cfg hk with hhanded | hdropped | hqueued | hsaving
        · exact .inl hhanded
        · exact .inr (.inl hdropped)
        · rw [hsaveQ] at hqueued
          rcases List.mem_cons.mp hqueued with rfl | hrest
          · exact .inr (.inr (.inr rfl))
          · exact .inr (.inr (.inl hrest))
        · cases hsave.symm.trans hsaving
  | saving item =>
      simp only [hsave] at hstep
      cases hstep
      refine ⟨fun k cfg hk => ?_, fun hleft => ?_, hstay (by simp [hsave])⟩
      · rcases h.placed k cfg hk with hhanded | hdropped | hqueued | hsaving
        · exact .inl (List.mem_append_left _ hhanded)
        · exact .inr (.inl hdropped)
        · exact .inr (.inr (.inl hqueued))
        · obtain rfl := SavePc.saving.inj (hsave.symm.trans hsaving)
          exact .inl (List.mem_append_right _ (List.mem_singleton.mpr rfl))
      · dsimp only at hleft
        split at hleft <;> cases hleft
  | arming item =>
      simp only [hsave] at hstep
      split_ifs at hstep
      cases hstep
      exact ⟨fun k cfg hk => (h.placed k cfg hk).stay (by simp [hsave]) rfl rfl rfl rfl,
        fun hleft => (by cases hleft), hstay (by simp [hsave])⟩
  | test =>
      simp only [hsave] at hstep
      cases hstep
      refine ⟨fun k cfg hk => (h.placed k cfg hk).stay (by simp [hsave]) rfl rfl rfl rfl,
        fun hleft => ?_, hstay (by simp [hsave])⟩
      dsimp only at hleft ⊢
      split_ifs at hleft with hrunning
      simpa [LeavesClean, hsave, hrunning] using hclean
  | exited =>
      rw [hsave] at hstep
      cases hstep

omit [DecidableEq Text] in
theorem accounted_main (h : s.Accounted) (hstep : s.mainStep = some s') : s'.Accounted := by
  unfold mainStep at hstep
  cases hmain : s.main with
  | spinning =>
      simp only [hmain] at hstep
      split_ifs at hstep
      cases hstep
      exact ⟨h.placed, h.left, fun hjoined => (by cases hjoined)⟩
  | stoppingIpc =>
      simp only [hmain] at hstep
      split at hstep
      · cases hstep
        exact ⟨h.placed, h.left, fun hjoined => (by cases hjoined)⟩
      · cases hstep
  | stopping =>
      simp only [hmain] at hstep
      split at hstep
      · rename_i hloop hsave
        cases hstep
        exact ⟨h.placed, h.left, fun _ => hsave⟩
      · cases hstep
  | joined =>
      rw [hmain] at hstep
      cases hstep

/-- **No step loses a push**, if the worker leaves nothing behind. -/
theorem accounted_step {l : PipelineStep Text} (h : s.Accounted) (hclean : LeavesClean s l)
    (hstep : s.step J lim hash E configPath l = some s') : s'.Accounted := by
  cases l with
  | requestStop =>
      cases hstep
      exact h.of_eq rfl rfl rfl rfl rfl rfl
  | client t =>
      simp only [step] at hstep
      split at hstep <;> cases hstep
      exact h.of_eq rfl rfl rfl rfl rfl rfl
  | hangup =>
      simp only [step] at hstep
      split at hstep
      · split_ifs at hstep
        cases hstep
        exact h.of_eq rfl rfl rfl rfl rfl rfl
      · cases hstep
  | ipc => exact accounted_ipc h hclean hstep
  | save => exact accounted_save h hclean hstep
  | loop mice now =>
      simp only [step, loopStep] at hstep
      split at hstep
      · cases hstep
        exact h.of_eq rfl rfl rfl rfl rfl rfl
      · split_ifs at hstep <;> cases hstep <;> exact h.of_eq rfl rfl rfl rfl rfl rfl
      · cases hstep
        exact h.of_eq rfl rfl rfl rfl rfl rfl
      · cases hstep
  | main => exact accounted_main h hstep

omit [DecidableEq Text] in
theorem accounted_start (d : Daemon Data) (file : Option Text) :
    Accounted ({ daemon := d, file := file } : Pipeline Text Data) where
  placed k cfg hk := by simp at hk
  left hleft := by cases hleft
  joined hjoined := by cases hjoined

end Pipeline

/-- **No queued push is lost at shutdown.**  In a run in which the worker leaves with
the queue empty and nothing is queued after it has left, once `stop` has joined its
threads each configuration that was queued was handed to `save_config` or driven out by
a later one, and the last one was handed to it. -/
theorem queued_handed (s : Pipeline Text Data)
    (h : (pipelineMachine J lim hash E configPath).Run Pipeline.LeavesClean s)
    (hjoined : s.main = .joined) :
    (∀ k cfg, s.accepted[k]? = some cfg → ⟨k, cfg⟩ ∈ s.handed ∨
      (⟨k, cfg⟩ ∈ s.dropped ∧ k + 1 < s.accepted.length)) ∧
    ∀ cfg, s.accepted.getLast? = some cfg → ⟨s.accepted.length - 1, cfg⟩ ∈ s.handed := by
  have haccounted : s.Accounted := by
    refine h.invariant (I := Pipeline.Accounted) ?_ ?_
    · rintro s ⟨file, mice, now, d, -, rfl⟩
      exact Pipeline.accounted_start d file
    · intro s l t hs hclean hstep
      exact Pipeline.accounted_step hs hclean hstep
  have hexited := haccounted.joined hjoined
  have hplaced : ∀ k cfg, s.accepted[k]? = some cfg → ⟨k, cfg⟩ ∈ s.handed ∨
      (⟨k, cfg⟩ ∈ s.dropped ∧ k + 1 < s.accepted.length) := by
    intro k cfg hk
    rcases haccounted.placed k cfg hk with hhanded | hdropped | hqueued | hsaving
    · exact .inl hhanded
    · exact .inr hdropped
    · rw [haccounted.left hexited] at hqueued
      cases hqueued
    · cases hexited.symm.trans hsaving
  refine ⟨hplaced, fun cfg hlast => ?_⟩
  rw [List.getLast?_eq_getElem?] at hlast
  rcases hplaced _ _ hlast with hhanded | ⟨-, hlater⟩
  · exact hhanded
  · omega

/-! ## A push that is lost -/

/-- The main thread stops the server, then the loop and the worker. -/
def stopped : List (PipelineStep Json) := [.main, .ipc, .main, .loop [] 0]

/-- `stop` has joined, and `name` is all that was queued. -/
def joinedWith (name : Bytes) (s : Pipeline Json Unit) : Bool :=
  s.main = .joined && s.accepted = [named name]

theorem joined_of_joinedWith {name : Bytes} {s : Pipeline Json Unit}
    (h : joinedWith name s = true) : s.main = .joined ∧ s.accepted = [named name] := by
  simpa [joinedWith] using h

/-- `bb` is pushed and arrives, and the daemon is stopped. -/
theorem queued_handed_bb :
    ∃ s, namedMachine.Run Pipeline.LeavesClean s ∧ s.main = .joined ∧
      ⟨0, named (bytes "bb")⟩ ∈ s.handed := by
  have hexec : (namedMachine.exec Pipeline.LeavesClean runningA
      (pushes (textWithActive (bytes "bb")) ++ [.ipc] ++ arrives ++ [.requestStop] ++ stopped ++
        [.save, .save, .main])).any (joinedWith (bytes "bb")) = true := by
    decide +kernel
  obtain ⟨s, hs, hdone⟩ := (Option.any_eq_true _ _).mp hexec
  obtain ⟨hjoined, haccepted⟩ := joined_of_joinedWith hdone
  have hrun := Machine.Run.exec (.start namedMachine_start) hs
  have hhanded := (queued_handed s hrun hjoined).2 (named (bytes "bb")) (by rw [haccepted]; rfl)
  rw [haccepted] at hhanded
  exact ⟨s, hrun, hjoined, hhanded⟩

/-- `bb` is pushed and about to be queued when the daemon is told to stop; the worker
looks at the empty queue, tests the flag and leaves. -/
theorem queued_not_handed :
    ¬∀ s, namedMachine.Reachable s → s.main = .joined → ∀ cfg, s.accepted.getLast? = some cfg →
      ∃ item ∈ s.handed, item.cfg = cfg := by
  intro hkept
  have hexec : (namedMachine.exec (fun _ _ => True) runningA
      (pushes (textWithActive (bytes "bb")) ++ [.requestStop, .save, .save, .ipc] ++ stopped ++
        [.main])).any (fun s => joinedWith (bytes "bb") s && s.handed.isEmpty) = true := by
    decide +kernel
  obtain ⟨s, hs, hdone⟩ := (Option.any_eq_true _ _).mp hexec
  obtain ⟨hdone, hempty⟩ := (Bool.and_eq_true _ _).mp hdone
  obtain ⟨hjoined, haccepted⟩ := joined_of_joinedWith hdone
  obtain ⟨item, hitem, -⟩ := hkept s (Machine.Run.exec (.start namedMachine_start) hs) hjoined
    (named (bytes "bb")) (by rw [haccepted]; rfl)
  rw [List.isEmpty_iff.mp hempty] at hitem
  cases hitem

end AbrekMouse
