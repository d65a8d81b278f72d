import AbrekMouse.Machine
import Mathlib.Data.Nat.Notation
import Mathlib.Logic.Function.Basic
import Mathlib.Tactic.SplitIfs

/-! # The socket of the daemon

`start_ipc_server` puts a socket at a path and `stop_ipc_server` takes it away.  What it finds
there may be left by a daemon that has died, and is removed, or belong to one that serves, and is
not.  Every system call is a step, so the steps of any number of daemons interleave, and a daemon
can die at any of them.

A socket that does not listen yet, or no longer, looks like one that was left.  Where no daemon
looks at such a socket, or binds while another is about to remove one (`Clear`), the path of a
daemon that serves leads to its own socket (`socket_kept`).  Daemons that exclude each other are
clear of this (`clear_of_alone`).
-/
namespace AbrekMouse
open ProgLib

/-- What is at the path. -/
inductive PathEntry
  | socket (id : ℕ)
  | other
deriving DecidableEq

/-- The next call of a daemon. -/
inductive ServerStage
  | inspect
  | probe
  | unlinkStale
  | bind
  /-- The socket is bound, and does not listen. -/
  | listen (id : ℕ)
  /-- It listens, and the path is not claimed. -/
  | claim (id : ℕ)
  | serve (id : ℕ)
  /-- It was shut down, and its path is to be removed. -/
  | unlinkOwn (id : ℕ)
deriving DecidableEq

namespace ServerStage

/-- The socket that the daemon has at the path. -/
def holds : ServerStage → Option ℕ
  | listen id | claim id | serve id => some id
  | _ => none

/-- The socket on which the daemon listens. -/
def listens : ServerStage → Option ℕ
  | claim id | serve id => some id
  | _ => none

/-- The daemon removes next whatever is at the path. -/
def removes : ServerStage → Bool
  | unlinkStale | unlinkOwn _ => true
  | _ => false

theorem holds_of_listens {stage : ServerStage} {id : ℕ} (h : stage.listens = some id) :
    stage.holds = some id := by
  cases stage with
  | claim | serve => exact h
  | _ => cases h

theorem removes_of_holds {stage : ServerStage} {id : ℕ} (h : stage.holds = some id) :
    stage.removes = false := by
  cases stage with
  | listen | claim | serve => rfl
  | _ => cases h

end ServerStage

/-- A step of a daemon; a call may fail for a reason of its own. -/
inductive SocketStep
  | start (pid : ℕ)
  | call (pid : ℕ) (ok : Bool)
  | die (pid : ℕ)
deriving DecidableEq

/-- The path, the sockets that listen, and the daemons with their next calls. -/
structure SocketState where
  entry : Option PathEntry := none
  listening : ℕ → Bool := fun _ => false
  /-- The sockets from here on are new. -/
  next : ℕ := 0
  daemons : ℕ → Option ServerStage := fun _ => none

namespace SocketState
variable (s : SocketState)

/-- The daemon goes on at the stage, or without a server. -/
def goOn (pid : ℕ) (stage : Option ServerStage) : SocketState :=
  { s with daemons := Function.update s.daemons pid stage }

/-- A `connect` to the path is accepted. -/
def live : Bool :=
  match s.entry with
  | some (.socket id) => s.listening id
  | _ => false

/-- The socket accepts connections from now on, or no longer. -/
def setListening (id : ℕ) (on : Bool) : SocketState :=
  { s with listening := Function.update s.listening id on }

/-- A call that succeeds: `start_ipc_server` and then `stop_ipc_server`. -/
def callOk (pid : ℕ) : ServerStage → SocketState
  | .inspect =>
      match s.entry with
      | none => s.goOn pid (some .bind)
      | some (.socket _) => s.goOn pid (some .probe)
      | some .other => s.goOn pid none
  -- a refused connection, or no file any more
  | .probe => if s.live then s.goOn pid none else s.goOn pid (some .unlinkStale)
  | .unlinkStale => { s.goOn pid (some .bind) with entry := none }
  | .bind =>
      if s.entry = none then
        { s.goOn pid (some (.listen s.next)) with
          entry := some (.socket s.next), next := s.next + 1 }
      else s.goOn pid none
  | .listen id => (s.goOn pid (some (.claim id))).setListening id true
  | .claim id => s.goOn pid (some (.serve id))
  | .serve id => (s.goOn pid (some (.unlinkOwn id))).setListening id false
  | .unlinkOwn _ => { s.goOn pid none with entry := none }

/-- A call that fails ends the start, or the stop.  A socket that was bound is closed, and stays
at the path.  There is nothing to fail in `claim`, nor in `shutdown`. -/
def callFailed (pid : ℕ) : ServerStage → Option SocketState
  | .claim _ | .serve _ => none
  | _ => some (s.goOn pid none)

/-- A daemon that has no server may start; its calls come in their order. -/
def step : SocketStep → Option SocketState
  | .start pid =>
      if s.daemons pid = none then some (s.goOn pid (some .inspect)) else none
  | .call pid ok =>
      (s.daemons pid).bind fun stage =>
        if ok then some (s.callOk pid stage) else s.callFailed pid stage
  -- the kernel closes the descriptors
  | .die pid =>
      (s.daemons pid).map fun stage =>
        match stage.listens with
        | some id => (s.goOn pid none).setListening id false
        | none => s.goOn pid none

/-- No daemon has started; a socket may have been left. -/
def machine : Machine SocketState SocketStep where
  Start s := (s.daemons = fun _ => none) ∧ s.listening = fun _ => false
  step := step

/-- No daemon probes while another has bound its socket and does not listen, and none binds while
another removes what is at the path. -/
def Clear : SocketStep → Prop
  | .call pid true => ∀ other stage, other ≠ pid → s.daemons other = some stage →
      (s.daemons pid = some .probe → ∀ id, stage ≠ .listen id) ∧
      (s.daemons pid = some .bind → stage.removes = false)
  | _ => True

/-- A daemon starts only where no other one is there. -/
def Alone : SocketStep → Prop
  | .start pid => ∀ other, other ≠ pid → s.daemons other = none
  | _ => True

/-! ## What is kept -/

/-- What holds between two steps that are clear. -/
structure Kept : Prop where
  /-- The path leads to the socket of the daemon that has one. -/
  owned : ∀ {p stage id}, s.daemons p = some stage → stage.holds = some id →
    s.entry = some (.socket id)
  sole : ∀ {p q stage stage' id id'}, s.daemons p = some stage → s.daemons q = some stage' →
    stage.holds = some id → stage'.holds = some id' → p = q
  listens : ∀ {p stage id}, s.daemons p = some stage → stage.listens = some id →
    s.listening id = true
  served : ∀ {id}, s.listening id = true → ∃ p stage, s.daemons p = some stage ∧
    stage.listens = some id
  /-- What a daemon is about to remove belongs to nobody. -/
  stale : ∀ {p q stage stage'}, s.daemons p = some stage → s.daemons q = some stage' →
    stage.removes = true → stage'.holds = none

variable {s}

theorem goOn_self {pid : ℕ} {stage : Option ServerStage} :
    (s.goOn pid stage).daemons pid = stage :=
  Function.update_self ..

/-- The daemons of a step are those of before, and the one that has moved. -/
theorem daemons_goOn {pid p : ℕ} {o : Option ServerStage} {stage : ServerStage}
    (h : (s.goOn pid o).daemons p = some stage) :
    (p = pid ∧ o = some stage) ∨ (p ≠ pid ∧ s.daemons p = some stage) := by
  by_cases hpid : p = pid
  · rw [hpid, goOn_self] at h
    exact .inl ⟨hpid, h⟩
  · have hsame : (s.goOn pid o).daemons p = s.daemons p := Function.update_of_ne hpid ..
    rw [hsame] at h
    exact .inr ⟨hpid, h⟩

namespace Kept

theorem start (hs : machine.Start s) : s.Kept := by
  obtain ⟨hnone, hquiet⟩ := hs
  constructor
  case owned | listens | sole | stale =>
    intros
    simp_all
  case served =>
    intro id hid
    rw [hquiet] at hid
    cases hid

/-- A daemon that does not listen goes on to a stage without a socket. -/
theorem move {pid : ℕ} {o : Option ServerStage} (h : s.Kept)
    (hquiet : ∀ stage, s.daemons pid = some stage → stage.listens = none)
    (hholds : ∀ stage, o = some stage → stage.holds = none)
    (hremoves : ∀ stage, o = some stage → stage.removes = true →
      ∀ q stage', q ≠ pid → s.daemons q = some stage' → stage'.holds = none) :
    (s.goOn pid o).Kept := by
  have hlistens : ∀ stage id, o = some stage → stage.listens ≠ some id := by
    intro stage id ho hid
    have hsome := ServerStage.holds_of_listens hid
    rw [hholds stage ho] at hsome
    cases hsome
  constructor
  case owned =>
    intro p stage id hp hid
    rcases daemons_goOn hp with ⟨-, ho⟩ | ⟨-, hp⟩
    · rw [hholds stage ho] at hid
      cases hid
    · exact h.owned hp hid
  case sole =>
    intro p q stage stage' id id' hp hq hid hid'
    rcases daemons_goOn hp with ⟨-, ho⟩ | ⟨-, hp⟩
    · rw [hholds stage ho] at hid
      cases hid
    · rcases daemons_goOn hq with ⟨-, ho⟩ | ⟨-, hq⟩
      · rw [hholds stage' ho] at hid'
        cases hid'
      · exact h.sole hp hq hid hid'
  case listens =>
    intro p stage id hp hid
    rcases daemons_goOn hp with ⟨-, ho⟩ | ⟨-, hp⟩
    · exact absurd hid (hlistens stage id ho)
    · exact h.listens hp hid
  case served =>
    intro id hid
    obtain ⟨p, stage, hp, hlisten⟩ := h.served hid
    have hne : p ≠ pid := by
      rintro rfl
      rw [hquiet stage hp] at hlisten
      cases hlisten
    exact ⟨p, stage, (Function.update_of_ne hne ..).trans hp, hlisten⟩
  case stale =>
    intro p q stage stage' hp hq hremove
    rcases daemons_goOn hq with ⟨-, ho⟩ | ⟨hne, hq⟩
    · exact hholds stage' ho
    · rcases daemons_goOn hp with ⟨-, ho⟩ | ⟨-, hp⟩
      · exact hremoves stage ho hremove q stage' hne hq
      · exact h.stale hp hq hremove

/-- Where nobody has a socket at the path, it may become free. -/
theorem free (h : s.Kept) (hnone : ∀ p stage, s.daemons p = some stage → stage.holds = none) :
    Kept { s with entry := none } where
  owned hp hid := by
    rw [hnone _ _ hp] at hid
    cases hid
  sole hp hq hid hid' := h.sole hp hq hid hid'
  listens hp hid := h.listens hp hid
  served hid := h.served hid
  stale hp hq hremove := h.stale hp hq hremove

/-- A daemon that removes what is at the path finds nobody's socket there. -/
theorem unlink {pid : ℕ} {stage : ServerStage} {o : Option ServerStage} (h : s.Kept)
    (hpid : s.daemons pid = some stage) (hremoves : stage.removes = true)
    (ho : o = none ∨ o = some .bind) : Kept { s.goOn pid o with entry := none } := by
  have hnobody : ∀ p stage', s.daemons p = some stage' → stage'.holds = none :=
    fun p stage' hp => h.stale hpid hp hremoves
  have hstage : ∀ stage', o = some stage' → stage' = .bind := by
    rcases ho with rfl | rfl <;> simp
  have hmove : (s.goOn pid o).Kept := by
    refine h.move ?_ ?_ ?_
    · intro stage' hp
      have hholds := hnobody pid stage' hp
      cases stage' with
      | claim | serve => cases hholds
      | _ => rfl
    · intro stage' ho
      rw [hstage stage' ho]
      rfl
    · intro stage' ho hremove
      rw [hstage stage' ho] at hremove
      cases hremove
  refine hmove.free fun p stage' hp => ?_
  rcases daemons_goOn hp with ⟨-, ho⟩ | ⟨-, hp⟩
  · rw [hstage stage' ho]
    rfl
  · exact hnobody p stage' hp

/-- A socket that listens no more; its daemon was the only one with a socket. -/
theorem silence {pid id : ℕ} {stage : ServerStage} {o : Option ServerStage} (h : s.Kept)
    (hpid : s.daemons pid = some stage) (hid : stage.listens = some id)
    (ho : ∀ stage', o = some stage' → stage'.holds = none) :
    ((s.goOn pid o).setListening id false).Kept := by
  have hholds := ServerStage.holds_of_listens hid
  have hnobody : ∀ {q stage'}, (s.goOn pid o).daemons q = some stage' → stage'.holds = none := by
    intro q stage' hq
    rcases daemons_goOn hq with ⟨-, hgone⟩ | ⟨hne, hq⟩
    · exact ho stage' hgone
    · by_contra hsome
      obtain ⟨id', hid'⟩ := Option.ne_none_iff_exists'.mp hsome
      exact hne (h.sole hq hpid hid' hholds)
  have hno : ∀ {q stage' id'}, (s.goOn pid o).daemons q = some stage' →
      stage'.holds ≠ some id' := by
    intro q stage' id' hq hid'
    rw [hnobody hq] at hid'
    cases hid'
  constructor
  case owned => exact fun hp hid' => absurd hid' (hno hp)
  case sole => exact fun hp _ hid' _ => absurd hid' (hno hp)
  case listens => exact fun hp hid' => absurd (ServerStage.holds_of_listens hid') (hno hp)
  case served =>
    intro id' hlisten
    have hne : id' ≠ id := by
      rintro rfl
      have hoff : ((s.goOn pid o).setListening id' false).listening id' = false :=
        Function.update_self ..
      rw [hoff] at hlisten
      cases hlisten
    have hbefore : s.listening id' = true := (Function.update_of_ne hne ..).symm.trans hlisten
    obtain ⟨q, stage', hq, hid'⟩ := h.served hbefore
    obtain rfl := h.sole hq hpid (ServerStage.holds_of_listens hid') hholds
    rw [hpid] at hq
    rw [← Option.some.inj hq, hid] at hid'
    exact absurd (Option.some.inj hid').symm hne
  case stale => exact fun _ hq _ => hnobody hq

/-- A daemon with a socket goes on with it. -/
theorem keep {pid id : ℕ} {stage stage' : ServerStage} {on : ℕ → Bool} (h : s.Kept)
    (hpid : s.daemons pid = some stage) (hid : stage.holds = some id)
    (hid' : stage'.listens = some id) (hon : on = Function.update s.listening id true) :
    Kept { s.goOn pid (some stage') with listening := on } := by
  subst hon
  have hholds := ServerStage.holds_of_listens hid'
  -- whoever has a socket now had it before
  have hbefore : ∀ {q stage₁ id₁}, (s.goOn pid (some stage')).daemons q = some stage₁ →
      stage₁.holds = some id₁ → ∃ stage₂, s.daemons q = some stage₂ ∧ stage₂.holds = some id₁ := by
    intro q stage₁ id₁ hq hid₁
    rcases daemons_goOn hq with ⟨rfl, ho⟩ | ⟨-, hq⟩
    · rw [← Option.some.inj ho, hholds] at hid₁
      exact ⟨stage, hpid, hid.trans hid₁⟩
    · exact ⟨stage₁, hq, hid₁⟩
  constructor
  case owned =>
    intro q stage₁ id₁ hq hid₁
    obtain ⟨stage₂, hq, hid₂⟩ := hbefore hq hid₁
    exact h.owned hq hid₂
  case sole =>
    intro q q' stage₁ stage₂ id₁ id₂ hq hq' hid₁ hid₂
    obtain ⟨_, hq, hid₁⟩ := hbefore hq hid₁
    obtain ⟨_, hq', hid₂⟩ := hbefore hq' hid₂
    exact h.sole hq hq' hid₁ hid₂
  case listens =>
    intro q stage₁ id₁ hq hid₁
    by_cases hsame : id₁ = id
    · rw [hsame]
      exact Function.update_self ..
    · rcases daemons_goOn hq with ⟨-, ho⟩ | ⟨-, hq⟩
      · rw [← Option.some.inj ho, hid'] at hid₁
        exact absurd (Option.some.inj hid₁).symm hsame
      · exact (Function.update_of_ne hsame ..).trans (h.listens hq hid₁)
  case served =>
    intro id₁ hlisten
    by_cases hsame : id₁ = id
    · exact ⟨pid, stage', goOn_self, hsame ▸ hid'⟩
    · obtain ⟨q, stage₁, hq, hid₁⟩ :=
        h.served ((Function.update_of_ne hsame ..).symm.trans hlisten)
      have hne : q ≠ pid := by
        rintro rfl
        have hlast := h.owned hq (ServerStage.holds_of_listens hid₁)
        rw [h.owned hpid hid] at hlast
        cases hlast
        exact hsame rfl
      exact ⟨q, stage₁, (Function.update_of_ne hne ..).trans hq, hid₁⟩
  case stale =>
    intro p q stage₁ stage₂ hp hq hremove
    by_contra hsome
    obtain ⟨id₂, hid₂⟩ := Option.ne_none_iff_exists'.mp hsome
    obtain ⟨_, hq, hid₂⟩ := hbefore hq hid₂
    rcases daemons_goOn hp with ⟨-, ho⟩ | ⟨-, hp⟩
    · rw [← Option.some.inj ho, ServerStage.removes_of_holds hholds] at hremove
      cases hremove
    · rw [h.stale hp hq hremove] at hid₂
      cases hid₂

/-- A socket is bound where the path is free, and nobody is about to remove it. -/
theorem bind {pid : ℕ} (h : s.Kept) (hfree : s.entry = none) (hpid : s.daemons pid = some .bind)
    (hclear : ∀ q stage, q ≠ pid → s.daemons q = some stage → stage.removes = false) :
    Kept { s.goOn pid (some (.listen s.next)) with
      entry := some (.socket s.next), next := s.next + 1 } := by
  have hnobody : ∀ {q stage id}, s.daemons q = some stage → stage.holds ≠ some id := by
    intro q stage id hq hid
    rw [h.owned hq hid] at hfree
    cases hfree
  have hone : ∀ {q stage id}, (s.goOn pid (some (.listen s.next))).daemons q = some stage →
      stage.holds = some id → q = pid ∧ stage = .listen s.next := by
    intro q stage id hq hid
    rcases daemons_goOn hq with ⟨rfl, ho⟩ | ⟨-, hq⟩
    · exact ⟨rfl, (Option.some.inj ho).symm⟩
    · exact absurd hid (hnobody hq)
  constructor
  case owned =>
    intro q stage id hq hid
    obtain ⟨-, rfl⟩ := hone hq hid
    rw [← Option.some.inj hid]
  case sole => exact fun hp hq hid hid' => (hone hp hid).1.trans (hone hq hid').1.symm
  case listens =>
    intro q stage id hq hid
    obtain ⟨-, rfl⟩ := hone hq (ServerStage.holds_of_listens hid)
    cases hid
  case served =>
    intro id hid
    obtain ⟨q, stage, hq, hlisten⟩ := h.served hid
    exact absurd (ServerStage.holds_of_listens hlisten) (hnobody hq)
  case stale =>
    intro p q stage stage' hp hq hremove
    rcases daemons_goOn hp with ⟨-, ho⟩ | ⟨hne, hp⟩
    · rw [← Option.some.inj ho] at hremove
      cases hremove
    · rw [hclear p stage hne hp] at hremove
      cases hremove

/-- **Every call keeps it**, by the stage of the daemon. -/
theorem callOk {pid : ℕ} {stage : ServerStage} (h : s.Kept) (hpid : s.daemons pid = some stage)
    (hclear : s.Clear (.call pid true)) : (s.callOk pid stage).Kept := by
  have hquiet : stage.listens = none → ∀ stage', s.daemons pid = some stage' →
      stage'.listens = none := by
    intro hnone stage' hp
    rw [hpid] at hp
    rwa [← Option.some.inj hp]
  cases stage with
  | inspect =>
      have hmove : ∀ o : Option ServerStage, (∀ stage', o = some stage' → stage'.holds = none ∧
          stage'.removes = false) → (s.goOn pid o).Kept := by
        intro o ho
        refine h.move (hquiet rfl) (fun stage' hs => (ho stage' hs).1) fun stage' hs hremove => ?_
        rw [(ho stage' hs).2] at hremove
        cases hremove
      rw [SocketState.callOk]
      split
      · exact hmove _ fun stage' hs => Option.some.inj hs ▸ ⟨rfl, rfl⟩
      · exact hmove _ fun stage' hs => Option.some.inj hs ▸ ⟨rfl, rfl⟩
      · exact hmove _ nofun
  | probe =>
      rw [SocketState.callOk]
      split_ifs with hlive
      · exact h.move (hquiet rfl) nofun nofun
      · refine h.move (hquiet rfl) (fun stage' hs => Option.some.inj hs ▸ rfl) ?_
        intro _ _ _ q stage' hne hq
        by_contra hsome
        obtain ⟨id, hid⟩ := Option.ne_none_iff_exists'.mp hsome
        have hnot := (hclear q stage' hne hq).1 hpid
        have hlisten : stage'.listens = some id := by
          cases stage' with
          | listen id' => exact absurd rfl (hnot id')
          | claim | serve => exact hid
          | _ => cases hid
        refine hlive ?_
        rw [live, h.owned hq hid]
        exact h.listens hq hlisten
  | unlinkStale => exact h.unlink hpid rfl (.inr rfl)
  | bind =>
      rw [SocketState.callOk]
      split_ifs with hfree
      · exact h.bind hfree hpid fun q stage' hne hq => (hclear q stage' hne hq).2 hpid
      · exact h.move (hquiet rfl) nofun nofun
  | listen id => exact h.keep hpid rfl rfl rfl
  | claim id =>
      refine h.keep hpid rfl rfl ?_
      rw [← h.listens hpid rfl]
      exact (Function.update_eq_self ..).symm
  | serve id => exact h.silence hpid rfl fun stage' hs => Option.some.inj hs ▸ rfl
  | unlinkOwn id => exact h.unlink hpid rfl (.inl rfl)

theorem step {l : SocketStep} {t : SocketState} (h : s.Kept) (hclear : s.Clear l)
    (hstep : s.step l = some t) : t.Kept := by
  cases l with
  | start pid =>
      rw [SocketState.step] at hstep
      split_ifs at hstep with hnew
      obtain rfl := Option.some.inj hstep
      refine h.move (fun stage hp => ?_) (fun stage hs => Option.some.inj hs ▸ rfl) ?_
      · rw [hnew] at hp
        cases hp
      · intro stage hs hremove
        rw [← Option.some.inj hs] at hremove
        cases hremove
  | call pid ok =>
      obtain ⟨stage, hpid, hcall⟩ := Option.bind_eq_some_iff.mp hstep
      cases ok with
      | true =>
          rw [if_pos rfl] at hcall
          obtain rfl := Option.some.inj hcall
          exact h.callOk hpid hclear
      | false =>
          rw [if_neg Bool.false_ne_true] at hcall
          have hgone : stage.listens = none ∧ t = s.goOn pid none := by
            cases stage with
            | claim | serve => cases hcall
            | _ => exact ⟨rfl, (Option.some.inj hcall).symm⟩
          obtain ⟨hnone, rfl⟩ := hgone
          refine h.move (fun stage' hp => ?_) nofun nofun
          rw [hpid] at hp
          rwa [← Option.some.inj hp]
  | die pid =>
      obtain ⟨stage, hpid, hdie⟩ := Option.map_eq_some_iff.mp hstep
      split at hdie
      next id hid =>
        subst hdie
        exact h.silence hpid hid nofun
      next hnone =>
        subst hdie
        refine h.move (fun stage' hp => ?_) nofun nofun
        rw [hpid] at hp
        rw [← Option.some.inj hp]
        exact hnone

end Kept

theorem kept_of_run (h : machine.Run Clear s) : s.Kept :=
  h.invariant (fun _ hs => .start hs) fun _ _ _ hkept hclear hstep => hkept.step hclear hstep

/-- **The socket of a daemon that serves stays its own.**  In every run that is clear, the path
leads to the socket of the daemon that serves, it is accepting connections, and no other daemon
has a socket there; and whatever accepts connections is the socket of a daemon. -/
theorem socket_kept (h : machine.Run Clear s) : s.Kept :=
  kept_of_run h

/-! ## Daemons that exclude each other -/

/-- There is one daemon at most. -/
def Single (s : SocketState) : Prop :=
  ∀ p q stage stage', s.daemons p = some stage → s.daemons q = some stage' → p = q

/-- A call moves the daemon that makes it. -/
theorem callOk_daemons (pid : ℕ) (stage : ServerStage) :
    ∃ o, (s.callOk pid stage).daemons = (s.goOn pid o).daemons := by
  cases stage <;> rw [callOk] <;> first | exact ⟨_, rfl⟩ | (split <;> exact ⟨_, rfl⟩)

theorem callOk_of_ne {p pid : ℕ} {stage : ServerStage} (h : p ≠ pid) :
    (s.callOk pid stage).daemons p = s.daemons p := by
  obtain ⟨o, hsame⟩ := s.callOk_daemons pid stage
  rw [hsame]
  exact Function.update_of_ne h ..

/-- The daemons after a step are those of before, and the one that starts. -/
theorem daemons_step {l : SocketStep} {t : SocketState} (h : s.step l = some t) {p : ℕ}
    {stage : ServerStage} (hp : t.daemons p = some stage) :
    l = .start p ∨ ∃ stage', s.daemons p = some stage' := by
  have hgoOn : ∀ {pid : ℕ} {o stage'}, s.daemons pid = some stage' →
      (s.goOn pid o).daemons p = some stage → ∃ stage', s.daemons p = some stage' := by
    intro pid o stage' hpid hp
    rcases daemons_goOn hp with ⟨rfl, -⟩ | ⟨-, hp⟩
    · exact ⟨stage', hpid⟩
    · exact ⟨stage, hp⟩
  cases l with
  | start pid =>
      rw [SocketState.step] at h
      split_ifs at h
      obtain rfl := Option.some.inj h
      rcases daemons_goOn hp with ⟨rfl, -⟩ | ⟨-, hp⟩
      · exact .inl rfl
      · exact .inr ⟨stage, hp⟩
  | call pid ok =>
      obtain ⟨stage', hpid, hcall⟩ := Option.bind_eq_some_iff.mp h
      refine .inr ?_
      have hsame : ∃ o, t.daemons = (s.goOn pid o).daemons := by
        cases ok with
        | true =>
            rw [if_pos rfl] at hcall
            obtain rfl := Option.some.inj hcall
            exact callOk_daemons pid stage'
        | false =>
            rw [if_neg Bool.false_ne_true] at hcall
            refine ⟨none, ?_⟩
            cases stage' with
            | claim | serve => cases hcall
            | _ => rw [← Option.some.inj hcall]
      obtain ⟨o, hsame⟩ := hsame
      rw [hsame] at hp
      exact hgoOn hpid hp
  | die pid =>
      obtain ⟨stage', hpid, hdie⟩ := Option.map_eq_some_iff.mp h
      subst hdie
      refine .inr (hgoOn hpid (o := none) ?_)
      revert hp
      split <;> exact id

/-- **Daemons that exclude each other are clear of each other.** -/
theorem clear_of_alone (h : machine.Run Alone s) : machine.Run Clear s := by
  have hboth : machine.Run Clear s ∧ s.Single := by
    induction h with
    | start hs =>
        refine ⟨.start hs, fun p _ stage _ hp => ?_⟩
        rw [hs.1] at hp
        cases hp
    | @step s t l _ halone hstep ih =>
        obtain ⟨hrun, hsingle⟩ := ih
        have hmoved : s.step l = some t := hstep
        refine ⟨hrun.step ?_ hstep, ?_⟩
        · cases l with
          | call pid ok =>
              cases ok with
              | true =>
                  intro other stage hne hother
                  constructor
                  all_goals
                    intro hpid
                    exact absurd (hsingle _ _ _ _ hother hpid) hne
              | false => trivial
          | start | die => trivial
        · intro p q stage stage' hp hq
          rcases daemons_step hmoved hp with rfl | ⟨_, hp'⟩
          · rcases daemons_step hmoved hq with hl | ⟨_, hq'⟩
            · exact SocketStep.start.inj hl
            · by_contra hne
              rw [halone q (Ne.symm hne)] at hq'
              cases hq'
          · rcases daemons_step hmoved hq with rfl | ⟨_, hq'⟩
            · by_contra hne
              rw [halone p hne] at hp'
              cases hp'
            · exact hsingle _ _ _ _ hp' hq'
  exact hboth.1

/-- A daemon is clear of those that serve. -/
theorem clear_of_serving {pid : ℕ} (h : ∀ other stage, other ≠ pid →
    s.daemons other = some stage → ∃ id, stage = .serve id) : s.Clear (.call pid true) := by
  intro other stage hne hother
  obtain ⟨id, rfl⟩ := h other stage hne hother
  exact ⟨fun _ _ hlisten => (by cases hlisten), fun _ => rfl⟩

/-- One successful call of a daemon. -/
theorem step_callOk {pid : ℕ} {stage : ServerStage} (h : s.daemons pid = some stage) :
    machine.step s (.call pid true) = some (s.callOk pid stage) := by
  show (s.daemons pid).bind _ = _
  rw [h]
  rfl

/-- A daemon has died, and left its socket. -/
def leftSocket : SocketState := { entry := some (.socket 0), next := 1 }

/-- The next daemon replaces the socket that was left.  A second one finds that the first is
serving, and leaves its socket alone. -/
theorem socket_kept_leftSocket :
    ∃ s t, machine.Run Clear s ∧ s.daemons 7 = some (.serve 1) ∧ s.daemons 8 = some .probe ∧
      machine.step s (.call 8 true) = some t ∧ t.daemons 8 = none ∧
      t.daemons 7 = some (.serve 1) ∧ t.entry = some (.socket 1) ∧ t.Kept := by
  have hcall : ∀ {s t : SocketState}, machine.Run Alone s → s.step (.call 7 true) = some t →
      machine.Run Alone t := fun h hstep => h.step (l := SocketStep.call 7 true) trivial hstep
  have hleft : machine.Run Alone leftSocket := .start ⟨rfl, rfl⟩
  have hinspect : machine.Run Alone (leftSocket.goOn 7 (some .inspect)) :=
    hleft.step (l := SocketStep.start 7) (fun _ _ => rfl) rfl
  have hunlink := hcall (hcall hinspect rfl) rfl
  have hlisten := hcall (hcall hunlink rfl) rfl
  have hserve := clear_of_alone (hcall (hcall hlisten rfl) rfl)
  obtain ⟨s, hs, hseven, hothers, hentry, hlive⟩ : ∃ s, machine.Run Clear s ∧
      s.daemons 7 = some (.serve 1) ∧ (∀ p, p ≠ 7 → s.daemons p = none) ∧
      s.entry = some (.socket 1) ∧ s.live = true := by
    refine ⟨_, hserve, rfl, fun p hp => ?_, rfl, rfl⟩
    simp [callOk_of_ne hp, goOn, leftSocket, hp]
  -- the second daemon, at whatever stage it is
  have hserving : ∀ o other stage, other ≠ 8 → (s.goOn 8 o).daemons other = some stage →
      ∃ id, stage = .serve id := by
    intro o other stage hne hother
    rcases daemons_goOn hother with ⟨heq, -⟩ | ⟨-, hother⟩
    · exact absurd heq hne
    · by_cases hfirst : other = 7
      · rw [hfirst, hseven] at hother
        exact ⟨1, (Option.some.inj hother).symm⟩
      · rw [hothers other hfirst] at hother
        cases hother
  have hstart := hs.step (l := SocketStep.start 8) trivial (if_pos (hothers 8 (by decide)))
  have hlooked := hstart.step (clear_of_serving (hserving _)) (step_callOk goOn_self)
  have hprobes : (s.goOn 8 (some .inspect)).callOk 8 .inspect = s.goOn 8 (some .probe) := by
    simp [callOk, goOn, hentry]
  have hrefused : (s.goOn 8 (some .probe)).callOk 8 .probe = s.goOn 8 none := by
    refine (if_pos hlive).trans ?_
    simp [goOn]
  rw [hprobes] at hlooked
  have hstep := step_callOk (s := s.goOn 8 (some .probe)) goOn_self
  rw [hrefused] at hstep
  have hgone := hlooked.step (clear_of_serving (hserving _)) hstep
  have hkept : ∀ o, (s.goOn 8 o).daemons 7 = some (.serve 1) :=
    fun o => (Function.update_of_ne (by decide : (7 : ℕ) ≠ 8) o s.daemons).trans hseven
  exact ⟨_, _, hlooked, hkept _, goOn_self, hstep, goOn_self, hkept _, hentry, socket_kept hgone⟩

/-- Where the second daemon looks between `bind` and `listen` of the first, both serve, and only
the second one at the path. -/
example : (machine.exec (fun _ _ => True) {}
    [.start 1, .call 1 true, .call 1 true, .start 2, .call 2 true, .call 2 true, .call 1 true,
      .call 1 true, .call 2 true, .call 2 true, .call 2 true, .call 2 true]).map
      (fun s => (s.daemons 1, s.daemons 2, s.entry)) =
    some (some (.serve 0), some (.serve 1), some (.socket 1)) := by decide

/-! ## Starting again -/

/-- A file of another kind stays, and every daemon that comes to it is refused. -/
def Refusing (s : SocketState) : Prop :=
  s.entry = some .other ∧ ∀ p stage, s.daemons p = some stage → stage = .inspect

theorem Refusing.step {l : SocketStep} {t : SocketState} (h : s.Refusing)
    (hstep : s.step l = some t) : t.Refusing := by
  have hgoOn : ∀ pid (o : Option ServerStage), (∀ stage, o = some stage → stage = .inspect) →
      (s.goOn pid o).Refusing := by
    refine fun pid o ho => ⟨h.1, fun p stage hp => ?_⟩
    rcases daemons_goOn hp with ⟨-, hs⟩ | ⟨-, hp⟩
    · exact ho stage hs
    · exact h.2 p stage hp
  cases l with
  | start pid =>
      rw [SocketState.step] at hstep
      split_ifs at hstep
      obtain rfl := Option.some.inj hstep
      exact hgoOn pid _ fun stage hs => (Option.some.inj hs).symm
  | call pid ok =>
      obtain ⟨stage, hpid, hcall⟩ := Option.bind_eq_some_iff.mp hstep
      obtain rfl := h.2 pid stage hpid
      cases ok with
      | true =>
          rw [if_pos rfl, callOk, h.1] at hcall
          obtain rfl := Option.some.inj hcall
          exact hgoOn pid _ nofun
      | false =>
          rw [if_neg Bool.false_ne_true] at hcall
          obtain rfl := Option.some.inj hcall
          exact hgoOn pid _ nofun
  | die pid =>
      obtain ⟨stage, hpid, rfl⟩ := Option.map_eq_some_iff.mp hstep
      obtain rfl := h.2 pid stage hpid
      exact hgoOn pid _ nofun

theorem Refusing.later {t : SocketState} (h : s.Refusing) (ht : machine.Later s t) :
    t.Refusing := by
  induction ht with
  | refl => exact h
  | tail _ hstep ih =>
      obtain ⟨l, hl⟩ := hstep
      exact ih.step hl

theorem later_callOk {pid : ℕ} {stage : ServerStage} (h : s.daemons pid = some stage) :
    machine.Later s (s.callOk pid stage) :=
  .single ⟨.call pid true, step_callOk h⟩

/-- A daemon that has come to `bind` at a free path serves. -/
theorem later_serves {pid : ℕ} (hpid : s.daemons pid = some .bind) (hfree : s.entry = none) :
    ∃ t, machine.Later s t ∧ t.daemons pid = some (.serve s.next) ∧
      t.entry = some (.socket s.next) ∧ t.live = true := by
  have hbound : s.callOk pid .bind = { s.goOn pid (some (.listen s.next)) with
      entry := some (.socket s.next), next := s.next + 1 } := if_pos hfree
  have h₁ := later_callOk hpid
  rw [hbound] at h₁
  have h₂ := h₁.trans (later_callOk goOn_self)
  have h₃ := h₂.trans (later_callOk goOn_self)
  refine ⟨_, h₃, goOn_self, rfl, ?_⟩
  exact Function.update_self ..

/-- **Once every daemon is gone the next one serves**, however they ended: a socket that was left
is replaced.  A file of another kind is left alone, and nobody serves. -/
theorem server_restarts (h : machine.Run Clear s) (hgone : ∀ p, s.daemons p = none) :
    (s.entry ≠ some .other → ∀ pid, ∃ t id, machine.Later s t ∧
      t.daemons pid = some (.serve id) ∧ t.entry = some (.socket id) ∧ t.live = true) ∧
    (s.entry = some .other → ∀ t, machine.Later s t → t.entry = some .other ∧
      ∀ p id, t.daemons p ≠ some (.serve id)) := by
  have hkept := kept_of_run h
  have hdead : ∀ id, s.listening id = false := by
    intro id
    rw [← Bool.not_eq_true]
    intro hid
    obtain ⟨p, stage, hp, -⟩ := hkept.served hid
    rw [hgone p] at hp
    cases hp
  constructor
  · intro hkind pid
    have hstart : machine.Later s (s.goOn pid (some .inspect)) :=
      .single ⟨.start pid, if_pos (hgone pid)⟩
    have hinspect := hstart.trans (later_callOk goOn_self)
    rcases hentry : s.entry with _ | (id | _)
    · have hbind : (s.goOn pid (some .inspect)).callOk pid .inspect =
          (s.goOn pid (some .inspect)).goOn pid (some .bind) := by
        rw [callOk, show (s.goOn pid (some .inspect)).entry = none from hentry]
      rw [hbind] at hinspect
      obtain ⟨t, ht, hserves⟩ :=
        later_serves (s := (s.goOn pid (some .inspect)).goOn pid (some .bind)) goOn_self hentry
      exact ⟨t, _, hinspect.trans ht, hserves⟩
    · have hprobe : (s.goOn pid (some .inspect)).callOk pid .inspect =
          (s.goOn pid (some .inspect)).goOn pid (some .probe) := by
        rw [callOk, show (s.goOn pid (some .inspect)).entry = some (.socket id) from hentry]
      rw [hprobe] at hinspect
      have hrefused := hinspect.trans (later_callOk goOn_self)
      rw [callOk, if_neg] at hrefused
      · have hunlink := hrefused.trans (later_callOk goOn_self)
        generalize hfree : callOk _ pid .unlinkStale = u at hunlink
        have hbind : u.daemons pid = some .bind := hfree ▸ goOn_self
        obtain ⟨t, ht, hserves⟩ := later_serves hbind (hfree ▸ rfl)
        exact ⟨t, _, hunlink.trans ht, hserves⟩
      · show ¬(match s.entry with | some (.socket id) => s.listening id | _ => false) = true
        rw [hentry]
        exact Bool.not_eq_true _ ▸ hdead id
    · exact absurd hentry hkind
  · intro hkind t ht
    have hrefusing : s.Refusing := ⟨hkind, fun p stage hp => by
      rw [hgone p] at hp
      cases hp⟩
    obtain ⟨hentry, hinspect⟩ := hrefusing.later ht
    refine ⟨hentry, fun p id hp => ?_⟩
    cases hinspect p _ hp

theorem server_restarts_leftSocket :
    ∃ t id, machine.Later leftSocket t ∧ t.daemons 7 = some (.serve id) ∧
      t.entry = some (.socket id) ∧ t.live = true :=
  (server_restarts (s := leftSocket) (.start ⟨rfl, rfl⟩) fun _ => rfl).1 (by decide) 7

end SocketState
end AbrekMouse
