import AbrekMouse.RunLoop

/-! # Mice that are tried again

A mouse that could not be grabbed is tried again for three reasons: nothing is open, a scan
has asked for another one, or a deny window runs out.  Every scan, apply, focus change and
I/O error arms one of them.  The setup of a start arms none for a mouse that epoll rejects,
and that mouse is forgotten when another one was grabbed (`forgotten_after_start`); without
such a start no mouse is forgotten (`no_mouse_forgotten`).
-/
namespace AbrekMouse
open ProgLib
variable {Text Data : Type} (J : JsonText Text) (hash : Text → UInt64) (E : Engine Data)

/-! ## The deny lists -/

namespace DenyList
variable {l : DenyList} {key path : Bytes} {now until_ : ℕ}

theorem lookup_erase_ne (h : path ≠ key) : (l.erase key).lookup path = l.lookup path := by
  unfold erase
  induction l with
  | nil => rfl
  | cons e l ih =>
      obtain ⟨k, v⟩ := e
      by_cases hk : k = key
      · have hpath : (path == k) = false := beq_eq_false_iff_ne.mpr (hk ▸ h)
        simpa [hk, List.lookup_cons, hk ▸ hpath] using ih
      · simp only [List.filter_cons, hk, ne_eq, not_false_eq_true, decide_true, if_true,
          List.lookup_cons]
        rw [ih]

theorem denied_set : (l.set key until_).denied key now = decide (now < until_) := by
  simp [denied, set]

theorem denied_set_ne (h : path ≠ key) :
    (l.set key until_).denied path now = l.denied path now := by
  have hpath : (path == key) = false := beq_eq_false_iff_ne.mpr h
  have hlookup : (l.set key until_).lookup path = l.lookup path := by
    unfold set
    rw [List.lookup_cons, hpath]
    exact lookup_erase_ne h
  unfold denied
  rw [hlookup]

theorem denied_erase_ne (h : path ≠ key) : (l.erase key).denied path now = l.denied path now := by
  unfold denied
  rw [lookup_erase_ne h]

theorem exists_of_denied (h : l.denied path now = true) : ∃ e ∈ l, e.1 = path := by
  unfold denied at h
  split at h
  · rename_i u hu
    obtain ⟨l₁, l₂, hl, -⟩ := List.lookup_eq_some_iff.mp hu
    exact ⟨(path, u), by simp [hl], rfl⟩
  · cases h

end DenyList

/-! ## One loop over the listed mice -/

namespace Trial

/-- The reason for which the mouse is not open is one that time or a step may lift, or it is
gone already. -/
def Retryable (d : Daemon Data) (t : Trial) : Prop :=
  match t.attempt with
  | .failed _ => True
  | .disabled => disabled (d.profileOf t.deviceId) = false
  | .duplicate => t.deviceId ∉ d.openedDeviceIds
  | .opened | .rawOff => False

/-- A failure is written down on the deny list, and a gate still holds. -/
def Held (now : ℕ) (d : Daemon Data) (t : Trial) : Prop :=
  match t.attempt with
  | .failed _ => d.pathDeny.denied t.path now = true
  | .disabled => disabled (d.profileOf t.deviceId) = true
  | .duplicate => t.deviceId ∈ d.openedDeviceIds
  | .opened | .rawOff => True

/-- What is held back and may be grabbed by now is on the deny list. -/
theorem Held.denied {d : Daemon Data} {now : ℕ} {t : Trial} (h : t.Held now d)
    (hretry : t.Retryable d) : ∃ e ∈ d.pathDeny, e.1 = t.path := by
  unfold Held at h
  unfold Retryable at hretry
  cases hattempt : t.attempt with
  | failed failure =>
      rw [hattempt] at h
      exact DenyList.exists_of_denied h
  | disabled =>
      rw [hattempt] at h hretry
      exact absurd (hretry.symm.trans h) (by decide)
  | duplicate =>
      rw [hattempt] at h hretry
      exact absurd h hretry
  | opened =>
      rw [hattempt] at hretry
      exact hretry.elim
  | rawOff =>
      rw [hattempt] at hretry
      exact hretry.elim

end Trial

namespace Daemon
variable {d d' d₁ d₂ d₃ : Daemon Data} {now : ℕ}

/-- What a round of the loop keeps: the control state, the ids that are open and the deny
windows that run. -/
structure Tries (now : ℕ) (d d' : Daemon Data) : Prop where
  same : SameControl d d'
  ids : d.openedDeviceIds ⊆ d'.openedDeviceIds
  denied : ∀ path, d.pathDeny.denied path now = true → d'.pathDeny.denied path now = true

theorem Tries.refl (now : ℕ) (d : Daemon Data) : Tries now d d :=
  ⟨⟨rfl, rfl, rfl⟩, Finset.Subset.refl _, fun _ h => h⟩

theorem Tries.trans (h₁ : Tries now d₁ d₂) (h₂ : Tries now d₂ d₃) : Tries now d₁ d₃ where
  same := ⟨h₂.same.config.trans h₁.same.config, h₂.same.currentApp.trans h₁.same.currentApp,
    h₂.same.rawInputEnabled.trans h₁.same.rawInputEnabled⟩
  ids := h₁.ids.trans h₂.ids
  denied path h := h₂.denied path (h₁.denied path h)

/-- What held of a mouse before holds after. -/
theorem Tries.held (h : Tries now d d') {t : Trial} (ht : t.Held now d) : t.Held now d' := by
  unfold Trial.Held at ht ⊢
  cases hattempt : t.attempt with
  | failed failure =>
      rw [hattempt] at ht
      exact h.denied t.path ht
  | disabled =>
      rw [hattempt] at ht
      show AbrekMouse.disabled (d'.profileOf t.deviceId) = true
      rw [h.same.profileOf]
      exact ht
  | duplicate =>
      rw [hattempt] at ht
      exact h.ids ht
  | opened => trivial
  | rawOff => trivial

theorem denyReopen_denied (path deviceId : Bytes) (now : ℕ) (d : Daemon Data) :
    (d.denyReopen path deviceId now).pathDeny.denied path now = true := by
  show (d.pathDeny.set path (now + denyReopenMs)).denied path now = true
  rw [DenyList.denied_set]
  exact decide_eq_true (Nat.lt_add_of_pos_right (by decide))

theorem denyReopen_tries (path deviceId : Bytes) (now : ℕ) (d : Daemon Data) :
    Tries now d (d.denyReopen path deviceId now) := by
  refine ⟨⟨rfl, rfl, rfl⟩, Finset.Subset.refl _, fun other h => ?_⟩
  by_cases hother : other = path
  · rw [hother]
    exact denyReopen_denied path deviceId now d
  · show (d.pathDeny.set path (now + denyReopenMs)).denied other now = true
    rw [DenyList.denied_set_ne hother]
    exact h

variable (d now)

theorem openNode_tries (scan : Scan) (n : Node) : Tries now d (openNode E d scan now n).1 := by
  cases opening E d scan now n with
  | denied _ _ _ _ hresult =>
      rw [hresult]
      exact denyReopen_tries _ _ now d
  | duplicate _ _ hresult | rawOff _ hresult | disabled _ _ hresult | unregistered _ hresult =>
      rw [hresult]
      exact .refl now d
  | opened _ _ _ _ _ _ hresult =>
      rw [hresult]
      refine ⟨⟨rfl, rfl, rfl⟩, ?_, fun _ h => h⟩
      dsimp only
      split_ifs
      · exact Finset.subset_insert _ _
      · exact Finset.Subset.refl _

/-- A window that is dropped had run out. -/
theorem tryNode_tries (scan : Scan) (n : Node) : Tries now d (tryNode E d scan now n).1 := by
  unfold tryNode
  split_ifs with _ hdenied
  · exact .refl now d
  · exact .refl now d
  · refine Tries.trans ?_ (openNode_tries E _ now scan n)
    refine ⟨⟨rfl, rfl, rfl⟩, Finset.Subset.refl _, fun path h => ?_⟩
    by_cases hpath : path = n.path
    · rw [hpath] at h
      exact absurd h hdenied
    · show (d.pathDeny.erase n.path).denied path now = true
      rw [DenyList.denied_erase_ne hpath]
      exact h

/-- A mouse that was not grabbed is held back, unless epoll has rejected it. -/
theorem openNode_held (scan : Scan) (n : Node) (hepoll : d.openAttempt now n ≠ .failed .epoll) :
    Trial.Held now (openNode E d scan now n).1 ⟨n.path, n.deviceId, d.openAttempt now n⟩ := by
  cases opening E d scan now n with
  | denied failure deviceId _ hattempt hresult =>
      rw [hattempt, hresult]
      exact denyReopen_denied _ deviceId now d
  | duplicate hmem hattempt hresult =>
      rw [hattempt, hresult]
      exact hmem
  | disabled hdisabled hattempt hresult =>
      rw [hattempt, hresult]
      exact hdisabled
  | unregistered hattempt _ => exact absurd hattempt hepoll
  | rawOff hattempt _ | opened _ _ _ _ _ hattempt _ =>
      rw [hattempt]
      trivial

theorem tryNode_held (scan : Scan) (n : Node) (hepoll : d.attempt now n ≠ .failed .epoll) :
    Trial.Held now (tryNode E d scan now n).1 ⟨n.path, n.deviceId, d.attempt now n⟩ := by
  unfold attempt at hepoll ⊢
  unfold tryNode
  split_ifs at hepoll ⊢ with hopen hdenied
  · trivial
  · exact hdenied
  · exact openNode_held E _ now scan n hepoll

theorem openNode_missed (scan : Scan) (n : Node) {failure : Failure}
    (h : d.openAttempt now n = .failed failure) : (openNode E d scan now n).2 = true := by
  cases opening E d scan now n with
  | denied _ _ _ _ hresult | unregistered _ hresult => rw [hresult]
  | duplicate _ hattempt _ | rawOff hattempt _ | disabled _ hattempt _
  | opened _ _ _ _ _ hattempt _ =>
      rw [hattempt] at h
      cases h

/-- The flag of a round that failed. -/
theorem tryNode_missed (scan : Scan) (n : Node) {failure : Failure}
    (h : d.attempt now n = .failed failure) : (tryNode E d scan now n).2 = true := by
  unfold attempt at h
  unfold tryNode
  split_ifs at h ⊢
  · rfl
  · exact openNode_missed E _ now scan n h

/-- **Every mouse that the loop has not grabbed is held back at its end**, unless epoll has
rejected it. -/
theorem trials_held (scan : Scan) (mice : List Node) : ∀ d : Daemon Data,
    ∀ t ∈ trials E scan now d mice, t.attempt ≠ .failed .epoll →
    t.Held now (mice.foldl (fun d n => (tryNode E d scan now n).1) d) := by
  induction mice with
  | nil =>
      intro d t ht
      cases ht
  | cons n mice ih =>
      intro d t ht hepoll
      rcases List.mem_cons.mp ht with rfl | ht
      · -- held back by its own round, and by every round after it
        have hfirst := tryNode_held E d now scan n hepoll
        refine List.foldlRecOn (motive := fun d : Daemon Data => Trial.Held now d _) mice _
          hfirst ?_
        intro d hd n _
        exact (tryNode_tries E d now scan n).held hd
      · exact ih _ t ht hepoll

/-- The flag of a scan tells of every failure. -/
theorem scanNode_missed (mice : List Node) : ∀ (d : Daemon Data) (missed : Bool),
    (mice.foldl (scanNode E now) (d, missed)).2 = false → missed = false ∧
      ∀ t ∈ trials E .hotplug now d mice, ∀ failure, t.attempt ≠ .failed failure := by
  induction mice with
  | nil =>
      intro d missed h
      exact ⟨h, fun t ht => by cases ht⟩
  | cons n mice ih =>
      intro d missed h
      obtain ⟨hmissed, hrest⟩ :=
        ih (tryNode E d .hotplug now n).1 (missed || (tryNode E d .hotplug now n).2) h
      obtain ⟨hbefore, hround⟩ := Bool.or_eq_false_iff.mp hmissed
      refine ⟨hbefore, List.forall_mem_cons.mpr ⟨fun failure hfailed => ?_, hrest⟩⟩
      rw [tryNode_missed E d now .hotplug n hfailed] at hround
      cases hround

/-! ## What each operation arms -/

/-- Another scan will come, or the mice that may be grabbed by now have a deny entry. -/
def Armed (d : Daemon Data) (tried : List Trial) : Prop :=
  d.rescanNeeded = true ∨ d.devices = [] ∨
    ∀ t ∈ tried, t.Retryable d → ∃ e ∈ d.pathDeny, e.1 = t.path

variable {d now} {tried : List Trial}

theorem Armed.scan (h : d.Armed tried) (mice : List Node) (now : ℕ) :
    (doHotplugScan E d mice now).Armed (d.scanTrials E mice now tried) := by
  unfold doHotplugScan scanTrials
  split_ifs
  · exact h
  · have hflag := scanNode_missed E now mice ((d.pruneDeny mice now).removeGone mice) false
    cases hmissed : (mice.foldl (scanNode E now)
        ((d.pruneDeny mice now).removeGone mice, false)).2 with
    | true => exact .inl hmissed
    | false =>
        -- nothing has failed, so every mouse is open or held back
        refine .inr (.inr fun t ht hretry => ?_)
        have hheld := trials_held E now _ mice _ t ht ((hflag hmissed).2 t ht .epoll)
        rw [← scanNode_foldl E now mice (_, false)] at hheld
        exact hheld.denied hretry

/-- The setup of a start, where epoll rejects no mouse while another one is grabbed. -/
theorem armed_setup (mice : List Node) (now : ℕ)
    (hepoll : ∀ t ∈ d.setupTrials E mice now [], t.attempt = .failed .epoll →
      (setupDevices E d mice now).devices = []) :
    (setupDevices E d mice now).Armed (d.setupTrials E mice now []) := by
  by_cases hnil : (setupDevices E d mice now).devices = []
  · exact .inr (.inl hnil)
  · -- another mouse is open, and nothing but the deny list leads to the next scan
    refine .inr (.inr fun t ht hretry => ?_)
    have hregistered : t.attempt ≠ .failed .epoll := fun h => hnil (hepoll t ht h)
    unfold setupDevices at hretry ⊢
    unfold setupTrials at ht
    split_ifs at ht hretry ⊢
    · cases ht
    · cases ht
    · exact (trials_held E now _ mice _ t ht hregistered).denied hretry

theorem finishApply_rescan (live rawNow : Bool) (mice : List Node) (now : ℕ) (d : Daemon Data) :
    (finishApply E live rawNow mice now d).rescanNeeded = true := rfl

/-- A focus change arms a scan, for the mice that it no longer leaves alone. -/
theorem Armed.focus (h : d.Armed tried) : (applyActiveApp E d).Armed tried := by
  unfold applyActiveApp
  dsimp only
  split_ifs
  · exact h
  · exact h
  · exact .inl rfl

/-- An I/O error arms a scan too. -/
theorem Armed.cleanup (h : d.Armed tried) (failed sameNode : Bytes → Bool) (now : ℕ) :
    (d.cleanupDisconnected failed sameNode now).Armed tried := by
  have hdrop : ∀ (d : Daemon Data) dev, (d.dropDisconnected sameNode now dev).rescanNeeded = true :=
    fun d dev => by
      unfold dropDisconnected
      dsimp only
      split_ifs <;> rfl
  unfold cleanupDisconnected
  dsimp only
  cases hgone : d.devices.filter fun dev => failed dev.path with
  | nil =>
      -- no device goes, and what was armed before still is
      rcases h with hrescan | hnil | hheld
      · exact .inl hrescan
      · refine .inr (.inl ?_)
        show d.devices.filter _ = []
        rw [hnil, List.filter_nil]
      · exact .inr (.inr hheld)
  | cons first gone =>
      refine .inl (List.foldlRecOn (motive := fun d : Daemon Data => d.rescanNeeded = true) gone _
        (hdrop d first) fun d _ dev _ => hdrop d dev)

end Daemon

namespace RunLoop
variable {J hash E} {lim : Limits} {s : RunLoop Data}

/-! ## Runs -/

/-- A retry is scheduled for the mouse. -/
def Scheduled (s : RunLoop Data) (t : Trial) : Prop :=
  s.daemon.devices = [] ∨ s.daemon.rescanNeeded = true ∨ s.pendingHotplug = true ∨
    (∃ e ∈ s.daemon.pathDeny, e.1 = t.path) ∨ ∃ e ∈ s.daemon.devDeny, e.1 = t.deviceId

/-- A deny window that has run out arms the flag, unless the scan takes place at once. -/
theorem heal_of_expired {now : ℕ} (hexpired : s.daemon.denyExpired now = true) (mice : List Node) :
    (heal E s mice now).daemon.rescanNeeded = true ∨
      (heal E s mice now).tried = Daemon.scanTrials E
        { s.daemon with rescanNeeded := true } mice now s.tried := by
  unfold heal
  dsimp only
  rw [hexpired]
  simp only [Bool.or_true, if_true]
  split_ifs
  · exact .inr rfl
  · exact .inl rfl

/-- What the loop thread has tried is armed, and a pushed configuration will not throw. -/
structure Retrying (s : RunLoop Data) : Prop where
  idle : s.phase = .start → s.tried = []
  pushed : ∀ cfg, s.pushCfg = some cfg → cfg.Encodable
  armed : s.daemon.Armed s.tried

theorem Retrying.of_armed {s' : RunLoop Data} (h : s.Retrying) (hphase : s'.phase ≠ .start)
    (hpush : s'.pushCfg = s.pushCfg) (harmed : s'.daemon.Armed s'.tried) : s'.Retrying where
  idle hstart := absurd hstart hphase
  pushed := by
    rw [hpush]
    exact h.pushed
  armed := harmed

/-- An apply that does not throw arms a scan. -/
theorem applyNewConfig_rescan {newCfg : AppConfig} (henc : newCfg.Encodable) (mice : List Node)
    (now : ℕ) : (applyNewConfig J hash E s mice now newCfg).daemon.rescanNeeded = true := by
  obtain ⟨t, live, hd⟩ : ∃ t live, (Daemon.applyNewConfig J hash E mice now newCfg s.daemon).2 =
      Daemon.finishApply E live newCfg.useRawInput mice now (Daemon.reapplyDevices E
        { s.daemon with config := newCfg, configHash := t }) :=
    Daemon.applyNewConfig_ok J E henc mice now s.daemon
  show (Daemon.applyNewConfig J hash E mice now newCfg s.daemon).2.rescanNeeded = true
  rw [hd]
  exact Daemon.finishApply_rescan E _ _ _ _ _

variable (J hash E lim) in
/-- No mouse is rejected by epoll at the start while another one is grabbed. -/
def Registers (s : RunLoop Data) : RunLoopStep Text → Prop
  | .start path file mice now => ∀ s', start J hash E lim s path file mice now = some s' →
      ∀ t ∈ s'.tried, t.attempt = .failed .epoll → s'.daemon.devices = []
  | _ => True

theorem Retrying.start (h : s.Retrying) (hphase : s.phase = .start) {path : Bytes}
    {file : Option Text} {mice : List Node} {now : ℕ} {s' : RunLoop Data}
    (hstart : start J hash E lim s path file mice now = some s')
    (hepoll : ∀ t ∈ s'.tried, t.attempt = .failed .epoll → s'.daemon.devices = []) :
    s'.Retrying := by
  unfold RunLoop.start at hstart
  split at hstart
  · cases hstart
  · cases hstart
    dsimp only at hepoll
    rw [h.idle hphase] at hepoll
    refine ⟨fun hidle => (by cases hidle), h.pushed, ?_⟩
    dsimp only
    rw [h.idle hphase]
    exact Daemon.armed_setup E mice now hepoll

theorem Retrying.push (h : s.Retrying) (mice : List Node) (now : ℕ) :
    (push J hash E s mice now).Retrying := by
  unfold RunLoop.push
  split
  · exact h.of_armed (by simp) rfl h.armed
  · rename_i cfg hcfg
    exact ⟨fun hidle => (by cases hidle), fun cfg hcfg => (by cases hcfg),
      .inl (applyNewConfig_rescan (h.pushed cfg hcfg) mice now)⟩

theorem Retrying.reload (h : s.Retrying) {path : Bytes} {file : Option Text}
    (henc : s.reloadFlag = true → ∀ cfg, loadConfig J lim path file = .ok cfg → cfg.Encodable)
    (mice : List Node) (now : ℕ) : (reload J hash E lim s path file mice now).Retrying := by
  unfold RunLoop.reload
  split_ifs with hflag
  · split
    · exact h.of_armed (by simp) rfl h.armed
    · rename_i cfg hload
      exact h.of_armed (by simp) rfl (.inl (applyNewConfig_rescan (henc hflag cfg hload) mice now))
  · exact h.of_armed (by simp) rfl h.armed

theorem Retrying.hotplug (h : s.Retrying) (mice : List Node) (now : ℕ) :
    (hotplug E s mice now).Retrying := by
  unfold RunLoop.hotplug
  split_ifs
  · exact h.of_armed (by simp) rfl h.armed
  · exact h.of_armed (by simp) rfl (h.armed.scan E mice now)
  · exact h.of_armed (by simp) rfl h.armed
  · exact h.of_armed (by simp) rfl h.armed

theorem Retrying.heal (h : s.Retrying) (mice : List Node) (now : ℕ) :
    (heal E s mice now).Retrying := by
  have harmed : ({ s.daemon with
      rescanNeeded := s.daemon.rescanNeeded || s.daemon.denyExpired now } : Daemon Data).Armed
        s.tried := by
    rcases h.armed with hrescan | hheld
    · exact .inl (by simp [hrescan])
    · exact .inr hheld
  unfold RunLoop.heal
  dsimp only
  split_ifs
  · exact h.of_armed (by simp) rfl (harmed.scan E mice now)
  · exact h.of_armed (by simp) rfl harmed
  · exact h.of_armed (by simp) rfl harmed

/-- **Each step leaves what it has tried armed.** -/
theorem Retrying.step (h : s.Retrying) {l : RunLoopStep Text} (hserial : Serialises J lim s l)
    (hepoll : Registers J hash E lim s l) {s' : RunLoop Data}
    (hstep : step J hash E lim s l = some s') : s'.Retrying := by
  cases l with
  | arm cfg =>
      simp only [RunLoop.step] at hstep
      split at hstep
      · cases hstep
      · rename_i t hdump
        cases hstep
        refine ⟨h.idle, fun other hother => ?_, h.armed⟩
        cases hother
        exact appConfigToJson_ok_iff.mp ⟨t, hdump⟩
  | setActiveApp app =>
      cases hstep
      exact ⟨h.idle, h.pushed, h.armed⟩
  | requestReload =>
      cases hstep
      exact ⟨h.idle, h.pushed, h.armed⟩
  | start path file mice now =>
      obtain ⟨hphase, hs⟩ := Option.ite_none_right_eq_some.mp hstep
      exact h.start hphase hs (hepoll s' hs)
  | push mice now =>
      obtain ⟨-, hs⟩ := Option.ite_none_right_eq_some.mp hstep
      cases hs
      exact h.push mice now
  | focus =>
      obtain ⟨-, hs⟩ := Option.ite_none_right_eq_some.mp hstep
      cases hs
      exact h.of_armed (by simp) rfl (h.armed.focus E)
  | reload path file mice now =>
      obtain ⟨-, hs⟩ := Option.ite_none_right_eq_some.mp hstep
      cases hs
      exact h.reload hserial mice now
  | hotplug mice now =>
      obtain ⟨-, hs⟩ := Option.ite_none_right_eq_some.mp hstep
      cases hs
      exact h.hotplug mice now
  | heal mice now =>
      obtain ⟨-, hs⟩ := Option.ite_none_right_eq_some.mp hstep
      cases hs
      exact h.heal mice now
  | wait changed =>
      obtain ⟨-, hs⟩ := Option.ite_none_right_eq_some.mp hstep
      cases hs
      cases changed with
      | none => exact h.of_armed (by simp [wait]) rfl h.armed
      | some changed => exact h.of_armed (by simp [wait]) rfl h.armed
  | cleanup failed sameNode now =>
      obtain ⟨-, hs⟩ := Option.ite_none_right_eq_some.mp hstep
      cases hs
      exact h.of_armed (by simp) rfl (h.armed.cleanup failed sameNode now)

variable (J hash E lim)

/-- **No mouse is forgotten.**  In a run whose start has not seen epoll reject a mouse while
it grabbed another one, each mouse of the last loop that is not open, and whose reason was a
failure or holds no longer, has a retry scheduled. -/
theorem no_mouse_forgotten (h : (machine J hash E lim).Run
      (fun s l => Serialises J lim s l ∧ Registers J hash E lim s l) s) :
    ∀ t ∈ s.tried, (∀ dev ∈ s.daemon.devices, dev.path ≠ t.path) → t.Retryable s.daemon →
      s.Scheduled t := by
  have hretrying : s.Retrying := by
    refine h.invariant ?_ fun s l s' hs hguard hstep => hs.step hguard.1 hguard.2 hstep
    intro s hs
    cases hs
    exact ⟨fun _ => rfl, fun cfg hcfg => (by cases hcfg), .inr (.inl rfl)⟩
  intro t ht _ hretry
  rcases hretrying.armed with hrescan | hnil | hheld
  · exact .inr (.inl hrescan)
  · exact .inl hnil
  · exact .inr (.inr (.inr (.inl (hheld t ht hretry))))

/-! ## A mouse that epoll rejects -/

/-- Epoll rejects the second mouse. -/
def unregistered : List Node :=
  oneMouse ++ [{ path := bytes "event4", deviceId := bytes "usb:2", rdev := 4, epollOk := false }]

/-- The mouse could not be registered while another one was grabbed, and nothing is armed. -/
def forgotten (s : RunLoop Unit) (t : Trial) : Bool :=
  t.attempt = .failed .epoll ∧ ¬s.daemon.devices.isEmpty ∧
    (s.daemon.devices.all fun dev => dev.path ≠ t.path) ∧ s.daemon.rescanNeeded = false ∧
    s.pendingHotplug = false ∧ s.daemon.pathDeny = [] ∧ s.daemon.devDeny = []

theorem not_scheduled_of_forgotten {s : RunLoop Unit} {t : Trial} (h : forgotten s t = true) :
    ¬s.Scheduled t := by
  obtain ⟨-, hopen, -, hrescan, hpending, hpath, hdev⟩ := of_decide_eq_true h
  rintro (hnil | harmed | hsoon | ⟨e, he, -⟩ | ⟨e, he, -⟩)
  · exact hopen (List.isEmpty_iff.mpr hnil)
  · exact absurd (hrescan.symm.trans harmed) (by decide)
  · exact absurd (hpending.symm.trans hsoon) (by decide)
  · rw [hpath] at he
    cases he
  · rw [hdev] at he
    cases he

/-- Without a reload, a pushed configuration or an error, the mouse is forgotten at the end of
the first iteration. -/
theorem forgotten_after_start :
    ¬∀ s, plainMachine.Run (fun s _ => s.reloadFlag = false ∧ s.pushCfg = none) s →
      s.phase = .push → s.daemon.rawInputEnabled = true → ∀ t ∈ s.tried,
        (∀ dev ∈ s.daemon.devices, dev.path ≠ t.path) → t.Retryable s.daemon →
          s.Scheduled t := by
  intro hall
  have hexec : (plainMachine.exec (fun s _ => s.reloadFlag = false ∧ s.pushCfg = none) {}
      (.start [] none unregistered 0 :: idleRound unregistered 0)).any
        (fun s => (s.phase = .push ∧ s.daemon.rawInputEnabled = true) ∧
          s.tried.any (forgotten s)) = true := by
    decide +kernel
  obtain ⟨s, hs, hend⟩ := (Option.any_eq_true _ _).mp hexec
  obtain ⟨⟨hphase, hraw⟩, hany⟩ := of_decide_eq_true hend
  obtain ⟨t, ht, hforgotten⟩ := List.any_eq_true.mp hany
  obtain ⟨hepoll, -, hclosed, -⟩ := of_decide_eq_true hforgotten
  have hretry : t.Retryable s.daemon := by
    unfold Trial.Retryable
    rw [hepoll]
    trivial
  refine not_scheduled_of_forgotten hforgotten (hall s (.exec (.start rfl) hs) hphase hraw t ht ?_
    hretry)
  intro dev hdev
  exact of_decide_eq_true (List.all_eq_true.mp hclosed dev hdev)

/-- The second mouse is grabbed by another program. -/
def grabbedElsewhere : List Node :=
  oneMouse ++ [{
    path := bytes "event4", deviceId := bytes "usb:2", rdev := 4, openResult := .alreadyGrabbed }]

theorem no_mouse_forgotten_grabbed :
    ∃ s, plainMachine.Run (fun s l => Serialises JsonText.trees Limits.documented s l ∧
        Registers JsonText.trees (fun _ => 0) Engine.plain Limits.documented s l) s ∧
      (∃ t ∈ s.tried, t.Retryable s.daemon) ∧
      ∀ t ∈ s.tried, (∀ dev ∈ s.daemon.devices, dev.path ≠ t.path) → t.Retryable s.daemon →
        s.Scheduled t := by
  have hstart : (plainMachine.step {} (.start [] none grabbedElsewhere 0)).any (fun s =>
      s.tried.all (fun t => t.attempt ≠ .failed .epoll) ∧
        s.tried.any (fun t => t.attempt = .failed .alreadyGrabbed)) = true := by
    decide +kernel
  obtain ⟨s, hs, htried⟩ := (Option.any_eq_true _ _).mp hstart
  obtain ⟨hregistered, hgrabbed⟩ := of_decide_eq_true htried
  have hrun : plainMachine.Run (fun s l => Serialises JsonText.trees Limits.documented s l ∧
      Registers JsonText.trees (fun _ => 0) Engine.plain Limits.documented s l) s := by
    refine .step (l := .start [] none grabbedElsewhere 0) (.start rfl) ⟨trivial, ?_⟩ hs
    intro s' hs' t ht hepoll
    obtain rfl : s' = s := Option.some.inj (hs'.symm.trans hs)
    exact absurd hepoll (of_decide_eq_true (List.all_eq_true.mp hregistered t ht))
  refine ⟨s, hrun, ?_, no_mouse_forgotten JsonText.trees (fun _ => 0) Engine.plain
    Limits.documented hrun⟩
  obtain ⟨t, ht, hfailed⟩ := List.any_eq_true.mp hgrabbed
  refine ⟨t, ht, ?_⟩
  unfold Trial.Retryable
  rw [of_decide_eq_true hfailed]
  trivial

end RunLoop
end AbrekMouse
