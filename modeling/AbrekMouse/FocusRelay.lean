import AbrekMouse.IpcClient
import AbrekMouse.Machine

/-! # The focus relay

The compositor tells the window which application has the focus; a worker thread passes it on to
the daemon.  A report that fails is sent once more after a second, by the main thread, if the
focus is still the same then; and when the daemon comes back the last one is queued again.  The
daemon takes the requests as they connect, also those that the window no longer waits for.  No
older report reaches it after a newer one, unless a resend queues up behind a newer report, or
a newer report is sent between the check of a retry and the retry (`focus_in_order`); both can
happen (`resend_overtakes`, `retry_overtakes`).
-/
namespace AbrekMouse
open ProgLib

/-! ## The relay -/

/-- A class that the compositor has reported.  The number is for the proofs: the code has the
class only. -/
structure FocusReport where
  wmClass : Bytes
  number : ℕ
deriving DecidableEq

/-- A job with a sender has it checked. -/
structure FocusJob where
  sender : Bool
  report : FocusReport
deriving DecidableEq

/-- Where `focus_worker_main` is. -/
inductive FocusWorker where
  | idle
  | verifying (job : FocusJob)
  | sending (report : FocusReport)
  /-- The request is the daemon's, as the `place`th it takes; it has none after a restart. -/
  | awaiting (report : FocusReport) (place : Option ℕ)
deriving DecidableEq

/-- Where the main thread is: in its loop, or in the callback of a retry. -/
inductive MainThread where
  | loop
  | retrying (report : FocusReport)
  | retried
deriving DecidableEq

/-- The reports on their way from the desktop to the daemon, with the worker that sends them and
the retries of the main thread. -/
structure FocusRelay where
  focusJobs : List FocusJob := []
  worker : FocusWorker := .idle
  lastApp : FocusReport := ⟨[], 0⟩
  /-- The retries whose time has not come. -/
  retries : List FocusReport := []
  main : MainThread := .loop
  /-- The requests that have reached the daemon, and those of them that it has served. -/
  backlog : List FocusReport := []
  served : List FocusReport := []
  ipc : IpcState := {}
  /-- The classes reported so far; the first is that of no report. -/
  log : List Bytes := [[]]
deriving DecidableEq

/-- A report comes, or one of the threads moves on. -/
inductive RelayStep where
  | report (wmClass : Bytes)
  | resend
  | take
  | verify (kwin : Bool)
  | reach
  | fail
  | acked
  | fire
  | retryReach
  | retryEnd
  | serve
  | restart

namespace FocusRelay
variable (s : FocusRelay)

/-- The worker takes a job. -/
def take : Option FocusRelay :=
  match s.worker, s.focusJobs with
  | .idle, job :: jobs => some { s with focusJobs := jobs, worker := .verifying job }
  | _, _ => none

/-- The sender has been looked up. -/
def verify (kwin : Bool) : Option FocusRelay :=
  match s.worker with
  | .verifying job =>
      if job.sender = false ∨ kwin = true then
        some { s with lastApp := job.report, worker := .sending job.report }
      else some { s with worker := .idle }
  | _ => none

/-- The request of the worker reaches the daemon. -/
def reach : Option FocusRelay :=
  match s.worker with
  | .sending report =>
      some { s with
        backlog := s.backlog ++ [report]
        worker := .awaiting report (some (s.served.length + s.backlog.length + 1)) }
  | _ => none

/-- The worker gets no answer, in time or at all. -/
def fail : Option FocusRelay :=
  match s.worker with
  | .sending report => some { s with worker := .idle, retries := s.retries ++ [report] }
  | .awaiting report _ => some { s with worker := .idle, retries := s.retries ++ [report] }
  | _ => none

/-- The daemon has answered the report that the worker waits for. -/
def acked : Option FocusRelay :=
  match s.worker with
  | .awaiting _ (some place) =>
      if place ≤ s.served.length then some { s with worker := .idle } else none
  | _ => none

/-- A retry compares the classes. -/
def fire : Option FocusRelay :=
  match s.main, s.retries with
  | .loop, report :: retries =>
      some { s with
        retries := retries
        main := if s.lastApp.wmClass = report.wmClass then .retrying s.lastApp else .loop }
  | _, _ => none

/-- The report of a retry reaches the daemon. -/
def retryReach : Option FocusRelay :=
  match s.main with
  | .retrying report => some { s with backlog := s.backlog ++ [report], main := .retried }
  | _ => none

/-- The daemon takes the next report. -/
def serve : Option FocusRelay :=
  match s.backlog with
  | report :: backlog =>
      some { s with
        backlog := backlog
        served := s.served ++ [report]
        ipc := s.ipc.reported report.wmClass }
  | [] => none

/-- Another daemon; nobody is going to answer the requests to the old one. -/
def restart : FocusRelay :=
  { s with
    backlog := []
    served := []
    ipc := {}
    worker :=
      match s.worker with
      | .awaiting report _ => .awaiting report none
      | worker => worker }

/-- Reports come while the main loop runs; the worker and the retries take turns with them. -/
def step : RelayStep → Option FocusRelay
  | .report wmClass =>
      if s.main = .loop then
        some { s with
          focusJobs := s.focusJobs ++ [⟨true, ⟨wmClass, s.log.length⟩⟩]
          log := s.log ++ [wmClass] }
      else none
  | .resend =>
      if s.main = .loop then
        some { s with
          focusJobs := if s.lastApp.wmClass = [] then s.focusJobs
            else s.focusJobs ++ [⟨false, s.lastApp⟩] }
      else none
  | .take => s.take
  | .verify kwin => s.verify kwin
  | .reach => s.reach
  | .fail => s.fail
  | .acked => s.acked
  | .fire => s.fire
  | .retryReach => s.retryReach
  | .retryEnd => if s.main = .loop then none else some { s with main := .loop }
  | .serve => s.serve
  | .restart => some s.restart

/-- Nothing has been reported at the start. -/
def machine : Machine FocusRelay RelayStep := ⟨(· = {}), step⟩

/-! ## Order -/

/-- The jobs that are not for the daemon yet. -/
def pending : List FocusJob :=
  match s.worker with
  | .verifying job => job :: s.focusJobs
  | _ => s.focusJobs

/-- What has been sent to the daemon, in the order in which it takes it. -/
def sent : List FocusReport := s.served ++ s.backlog

/-- A newer report is on its way to the daemon than the one that is being retried. -/
def overtakes : Bool :=
  match s.worker, s.main with
  | .sending report, .retrying retry => retry.number < report.number
  | _, _ => false

/-- A resend does not queue up behind a newer report, and no newer report gets to the daemon
between the check of a retry and the retry. -/
def Orderly : RelayStep → Prop
  | .resend => ∀ job ∈ s.pending, job.report.number ≤ s.lastApp.number
  | .reach => s.overtakes = false
  | _ => True

instance (l : RelayStep) : Decidable (s.Orderly l) :=
  match l with
  | .resend => inferInstanceAs (Decidable (∀ job ∈ s.pending, _))
  | .reach => inferInstanceAs (Decidable (_ = false))
  | .report _ | .take | .verify _ | .fail | .acked | .fire | .retryReach | .retryEnd | .serve
  | .restart => inferInstanceAs (Decidable True)

/-- The class of a report is the one that was reported. -/
def Logged (report : FocusReport) : Prop := s.log[report.number]? = some report.wmClass

/-- What holds while the order is kept. -/
structure Ordered : Prop where
  sorted : s.sent.Pairwise fun a b => a.number ≤ b.number
  old : ∀ report ∈ s.sent, report.number ≤ s.lastApp.number
  waiting : s.pending.Pairwise fun a b => a.report.number ≤ b.report.number
  newer : ∀ job ∈ s.pending, s.lastApp.number ≤ job.report.number
  current : ∀ report, (s.worker = .sending report ∨ ∃ place, s.worker = .awaiting report place) →
    report = s.lastApp
  retry : ∀ report, s.main = .retrying report →
    report.number ≤ s.lastApp.number ∧ ∀ other ∈ s.sent, other.number ≤ report.number
  logged : ∀ report ∈ s.lastApp :: (s.pending.map (·.report) ++ s.sent), s.Logged report
  loggedRetry : ∀ report, s.main = .retrying report → s.Logged report
  shown : ∀ report, s.served.getLast? = some report →
    s.ipc.pendingApp = reportedApp report.wmClass

variable {s}

namespace Ordered

theorem start : Ordered {} where
  sorted := .nil
  old := List.forall_mem_nil _
  waiting := .nil
  newer := List.forall_mem_nil _
  current report h := by rcases h with h | ⟨_, h⟩ <;> cases h
  retry _ h := by cases h
  logged := List.forall_mem_singleton.mpr rfl
  loggedRetry _ h := by cases h
  shown _ h := by cases h

theorem number_lt {report : FocusReport} (h : s.Logged report) : report.number < s.log.length :=
  (List.getElem?_eq_some_iff.mp h).1

/-- A longer log holds what it held. -/
theorem logged_append {report : FocusReport} (h : s.Logged report) (wmClass : Bytes) :
    (s.log ++ [wmClass])[report.number]? = some report.wmClass := by
  rw [List.getElem?_append_left (number_lt h)]
  exact h

theorem pending_append (job : FocusJob) :
    pending { s with focusJobs := s.focusJobs ++ [job] } = s.pending ++ [job] := by
  unfold pending
  cases s.worker <;> rfl

theorem report (h : s.Ordered) (wmClass : Bytes) :
    Ordered { s with
      focusJobs := s.focusJobs ++ [⟨true, ⟨wmClass, s.log.length⟩⟩]
      log := s.log ++ [wmClass] } := by
  have hpending : pending { s with
      focusJobs := s.focusJobs ++ [⟨true, ⟨wmClass, s.log.length⟩⟩]
      log := s.log ++ [wmClass] } = s.pending ++ [⟨true, ⟨wmClass, s.log.length⟩⟩] :=
    pending_append (s := { s with log := s.log ++ [wmClass] }) _
  have hlast := number_lt (h.logged _ (List.mem_cons_self ..))
  have hwaiting : ∀ job ∈ s.pending, job.report.number < s.log.length := fun job hjob =>
    number_lt (h.logged _ (List.mem_cons_of_mem _ (List.mem_append_left _
      (List.mem_map_of_mem hjob))))
  refine { h with waiting := ?_, newer := ?_, logged := ?_, loggedRetry := ?_ }
  · rw [hpending]
    refine List.pairwise_append.mpr ⟨h.waiting, List.pairwise_singleton _ _, ?_⟩
    intro job hjob new hnew
    rw [List.mem_singleton.mp hnew]
    exact Nat.le_of_lt (hwaiting job hjob)
  · rw [hpending, List.forall_mem_append, List.forall_mem_singleton]
    exact ⟨h.newer, Nat.le_of_lt hlast⟩
  · intro report hreport
    rw [hpending, List.map_append, List.append_assoc] at hreport
    rcases List.mem_cons.mp hreport with rfl | hreport
    · exact logged_append (h.logged _ (List.mem_cons_self ..)) wmClass
    · rcases List.mem_append.mp hreport with hold | hreport
      · exact logged_append (h.logged _ (List.mem_cons_of_mem _
          (List.mem_append_left _ hold))) wmClass
      · rcases List.mem_cons.mp hreport with rfl | hsent
        · exact List.getElem?_concat_length ..
        · exact logged_append (h.logged _ (List.mem_cons_of_mem _
            (List.mem_append_right _ hsent))) wmClass
  · exact fun report hmain => logged_append (h.loggedRetry report hmain) wmClass

/-- A resend has the newest number that is waiting. -/
theorem resend (h : s.Ordered)
    (hguard : ∀ job ∈ s.pending, job.report.number ≤ s.lastApp.number) :
    Ordered { s with focusJobs := s.focusJobs ++ [⟨false, s.lastApp⟩] } := by
  have hpending := pending_append (s := s) ⟨false, s.lastApp⟩
  refine { h with waiting := ?_, newer := ?_, logged := ?_ }
  · rw [hpending]
    refine List.pairwise_append.mpr ⟨h.waiting, List.pairwise_singleton _ _, ?_⟩
    intro job hjob new hnew
    rw [List.mem_singleton.mp hnew]
    exact hguard job hjob
  · rw [hpending, List.forall_mem_append, List.forall_mem_singleton]
    exact ⟨h.newer, Nat.le_refl _⟩
  · intro report hreport
    rw [hpending, List.map_append, List.append_assoc] at hreport
    rcases List.mem_cons.mp hreport with rfl | hreport
    · exact h.logged _ (List.mem_cons_self ..)
    · rcases List.mem_append.mp hreport with hold | hreport
      · exact h.logged _ (List.mem_cons_of_mem _ (List.mem_append_left _ hold))
      · rcases List.mem_cons.mp hreport with rfl | hsent
        · exact h.logged _ (List.mem_cons_self ..)
        · exact h.logged _ (List.mem_cons_of_mem _ (List.mem_append_right _ hsent))

theorem take (h : s.Ordered) {t : FocusRelay} (hstep : s.take = some t) : t.Ordered := by
  unfold FocusRelay.take at hstep
  split at hstep
  next job jobs hworker hjobs =>
    obtain rfl := Option.some.inj hstep
    have hpending : s.pending = job :: jobs := by rw [pending, hworker, hjobs]
    have hwaiting := h.waiting
    have hnewer := h.newer
    have hlogged := h.logged
    rw [hpending] at hwaiting hnewer hlogged
    refine { h with waiting := hwaiting, newer := hnewer, logged := hlogged, current := ?_ }
    intro report hreport
    rcases hreport with hreport | ⟨_, hreport⟩ <;> cases hreport
  next => cases hstep

/-- The report that is stored is newer than what has been sent, and older than what waits. -/
theorem verify (h : s.Ordered) {kwin : Bool} {t : FocusRelay} (hstep : s.verify kwin = some t) :
    t.Ordered := by
  unfold FocusRelay.verify at hstep
  split at hstep
  next job hworker =>
    have hpending : s.pending = job :: s.focusJobs := by rw [pending, hworker]
    have hwaiting := h.waiting
    have hnewer := h.newer
    have hlogged := h.logged
    rw [hpending] at hwaiting hnewer hlogged
    obtain ⟨hfirst, hwaiting⟩ := List.pairwise_cons.mp hwaiting
    obtain ⟨hjob, hnewer⟩ := List.forall_mem_cons.mp hnewer
    split_ifs at hstep
    · obtain rfl := Option.some.inj hstep
      exact
        { h with
          old := fun report hreport => Nat.le_trans (h.old report hreport) hjob
          waiting := hwaiting
          newer := hfirst
          current := fun report hreport => by
            rcases hreport with hreport | ⟨_, hreport⟩
            · exact (FocusWorker.sending.inj hreport).symm
            · cases hreport
          retry := fun report hmain =>
            ⟨Nat.le_trans (h.retry report hmain).1 hjob, (h.retry report hmain).2⟩
          logged := fun report hreport => hlogged report (List.mem_cons_of_mem _ hreport) }
    · obtain rfl := Option.some.inj hstep
      refine { h with waiting := hwaiting, newer := hnewer, current := ?_, logged := ?_ }
      · intro report hreport
        rcases hreport with hreport | ⟨_, hreport⟩ <;> cases hreport
      · intro report hreport
        rcases List.mem_cons.mp hreport with rfl | hreport
        · exact h.logged _ (List.mem_cons_self ..)
        · exact hlogged report (List.mem_cons_of_mem _ (List.mem_cons_of_mem _ hreport))
  next => cases hstep

/-- A request goes behind those that have been sent. -/
theorem sent_append {backlog : List FocusReport} {report : FocusReport}
    (hsorted : (s.served ++ backlog).Pairwise fun a b => a.number ≤ b.number)
    (hold : ∀ other ∈ s.served ++ backlog, other.number ≤ report.number) :
    (s.served ++ (backlog ++ [report])).Pairwise fun a b => a.number ≤ b.number := by
  rw [← List.append_assoc]
  refine List.pairwise_append.mpr ⟨hsorted, List.pairwise_singleton _ _, ?_⟩
  intro other hother new hnew
  rw [List.mem_singleton.mp hnew]
  exact hold other hother

theorem forall_sent_append {P : FocusReport → Prop} {report : FocusReport}
    (h : ∀ other ∈ s.sent, P other) (hnew : P report) :
    ∀ other ∈ s.served ++ (s.backlog ++ [report]), P other := by
  rw [← List.append_assoc, List.forall_mem_append, List.forall_mem_singleton]
  exact ⟨h, hnew⟩

theorem reach (h : s.Ordered) (hguard : s.overtakes = false) {t : FocusRelay}
    (hstep : s.reach = some t) : t.Ordered := by
  unfold FocusRelay.reach at hstep
  split at hstep
  next report hworker =>
    obtain rfl := Option.some.inj hstep
    have hcurrent := h.current report (.inl hworker)
    have hpending : s.pending = s.focusJobs := by rw [pending, hworker]
    have hwaiting := h.waiting
    have hnewer := h.newer
    have hlogged := h.logged
    rw [hpending] at hwaiting hnewer hlogged
    subst hcurrent
    have hlast := h.logged _ (List.mem_cons_self ..)
    refine
      { h with
        sorted := sent_append h.sorted h.old
        old := forall_sent_append h.old (Nat.le_refl _)
        waiting := hwaiting
        newer := hnewer
        current := ?_
        retry := ?_
        logged := ?_ }
    · intro report hreport
      rcases hreport with hreport | ⟨_, hreport⟩
      · cases hreport
      · exact (FocusWorker.awaiting.inj hreport).1.symm
    · intro retry hmain
      obtain ⟨hle, hsent⟩ := h.retry retry hmain
      rw [overtakes, hworker, show s.main = .retrying retry from hmain] at hguard
      exact ⟨hle, forall_sent_append hsent (Nat.le_of_not_lt (of_decide_eq_false hguard))⟩
    · intro report hreport
      rcases List.mem_cons.mp hreport with rfl | hreport
      · exact hlast
      · rcases List.mem_append.mp hreport with hold | hsent
        · exact hlogged report (List.mem_cons_of_mem _ (List.mem_append_left _ hold))
        · refine forall_sent_append (s := s) (fun other hother => ?_) hlast report hsent
          exact h.logged other (List.mem_cons_of_mem _ (List.mem_append_right _ hother))
  next => cases hstep

/-- The worker goes back to its queue. -/
theorem release (h : s.Ordered) (hpending : s.pending = s.focusJobs) (retries : List FocusReport) :
    Ordered { s with worker := .idle, retries := retries } := by
  have hwaiting := h.waiting
  have hnewer := h.newer
  have hlogged := h.logged
  rw [hpending] at hwaiting hnewer hlogged
  refine { h with waiting := hwaiting, newer := hnewer, logged := hlogged, current := ?_ }
  intro report hreport
  rcases hreport with hreport | ⟨_, hreport⟩ <;> cases hreport

theorem fail (h : s.Ordered) {t : FocusRelay} (hstep : s.fail = some t) : t.Ordered := by
  unfold FocusRelay.fail at hstep
  split at hstep
  next report hworker =>
    obtain rfl := Option.some.inj hstep
    exact h.release (by rw [pending, hworker]) _
  next report place hworker =>
    obtain rfl := Option.some.inj hstep
    exact h.release (by rw [pending, hworker]) _
  next => cases hstep

theorem acked (h : s.Ordered) {t : FocusRelay} (hstep : s.acked = some t) : t.Ordered := by
  unfold FocusRelay.acked at hstep
  split at hstep
  next report place hworker =>
    split_ifs at hstep
    obtain rfl := Option.some.inj hstep
    exact h.release (by rw [pending, hworker]) s.retries
  next => cases hstep

/-- A retry of the class that has the focus is for the report that has it. -/
theorem fire (h : s.Ordered) {t : FocusRelay} (hstep : s.fire = some t) : t.Ordered := by
  unfold FocusRelay.fire at hstep
  split at hstep
  next report retries hmain hretries =>
    obtain rfl := Option.some.inj hstep
    refine { h with retry := ?_, loggedRetry := ?_ }
    · intro retry hretry
      dsimp only at hretry
      split_ifs at hretry
      obtain rfl := MainThread.retrying.inj hretry
      exact ⟨Nat.le_refl _, h.old⟩
    · intro retry hretry
      dsimp only at hretry
      split_ifs at hretry
      obtain rfl := MainThread.retrying.inj hretry
      exact h.logged _ (List.mem_cons_self ..)
  next => cases hstep

theorem retryReach (h : s.Ordered) {t : FocusRelay} (hstep : s.retryReach = some t) :
    t.Ordered := by
  unfold FocusRelay.retryReach at hstep
  split at hstep
  next retry hmain =>
    obtain rfl := Option.some.inj hstep
    obtain ⟨hle, hsent⟩ := h.retry retry hmain
    refine
      { h with
        sorted := sent_append h.sorted hsent
        old := forall_sent_append h.old hle
        retry := nofun
        loggedRetry := nofun
        logged := ?_ }
    intro report hreport
    rcases List.mem_cons.mp hreport with rfl | hreport
    · exact h.logged _ (List.mem_cons_self ..)
    · rcases List.mem_append.mp hreport with hold | hreport
      · exact h.logged report (List.mem_cons_of_mem _ (List.mem_append_left _ hold))
      · refine forall_sent_append (s := s) (fun other hother => ?_)
          (h.loggedRetry retry hmain) report hreport
        exact h.logged other (List.mem_cons_of_mem _ (List.mem_append_right _ hother))
  next => cases hstep

theorem serve (h : s.Ordered) {t : FocusRelay} (hstep : s.serve = some t) : t.Ordered := by
  unfold FocusRelay.serve at hstep
  split at hstep
  next report backlog hbacklog =>
    obtain rfl := Option.some.inj hstep
    have hsent : s.sent = s.served ++ [report] ++ backlog := by
      rw [sent, hbacklog, List.append_assoc, List.singleton_append]
    have hsorted := h.sorted
    have hold := h.old
    have hretry := h.retry
    have hlogged := h.logged
    rw [hsent] at hsorted hold hretry hlogged
    refine { h with
      sorted := hsorted, old := hold, retry := hretry, logged := hlogged, shown := ?_ }
    intro last hlast
    rw [List.getLast?_concat] at hlast
    rw [← Option.some.inj hlast]
    rfl
  next => cases hstep

theorem restart (h : s.Ordered) : s.restart.Ordered := by
  have hpending : s.restart.pending = s.pending := by
    unfold pending FocusRelay.restart
    cases s.worker <;> rfl
  have hlogged : ∀ report ∈ s.lastApp :: s.pending.map (·.report), s.Logged report := by
    intro report hreport
    refine h.logged report ?_
    rcases List.mem_cons.mp hreport with rfl | hreport
    · exact List.mem_cons_self ..
    · exact List.mem_cons_of_mem _ (List.mem_append_left _ hreport)
  constructor
  case sorted => exact .nil
  case old => exact List.forall_mem_nil _
  case waiting =>
    rw [hpending]
    exact h.waiting
  case newer =>
    rw [hpending]
    exact h.newer
  case current =>
    intro report hreport
    unfold FocusRelay.restart at hreport
    dsimp only at hreport ⊢
    cases hworker : s.worker with
    | sending other =>
        rw [hworker] at hreport
        rcases hreport with hreport | ⟨_, hreport⟩
        · exact h.current report (.inl (hworker.trans hreport))
        · cases hreport
    | awaiting other place =>
        rw [hworker] at hreport
        rcases hreport with hreport | ⟨_, hreport⟩
        · cases hreport
        · rw [← (FocusWorker.awaiting.inj hreport).1]
          exact h.current other (.inr ⟨place, hworker⟩)
    | idle | verifying job =>
        rw [hworker] at hreport
        rcases hreport with hreport | ⟨_, hreport⟩ <;> cases hreport
  case retry => exact fun retry hmain => ⟨(h.retry retry hmain).1, List.forall_mem_nil _⟩
  case logged =>
    rw [hpending]
    show ∀ report ∈ s.lastApp :: (s.pending.map (·.report) ++ []), s.Logged report
    rw [List.append_nil]
    exact hlogged
  case loggedRetry => exact h.loggedRetry
  case shown => exact nofun

theorem step (h : s.Ordered) {l : RelayStep} (hguard : s.Orderly l) {t : FocusRelay}
    (hstep : s.step l = some t) : t.Ordered := by
  cases l with
  | report wmClass =>
      rw [FocusRelay.step] at hstep
      split_ifs at hstep
      obtain rfl := Option.some.inj hstep
      exact h.report wmClass
  | resend =>
      rw [FocusRelay.step] at hstep
      split_ifs at hstep
      · obtain rfl := Option.some.inj hstep
        exact h
      · obtain rfl := Option.some.inj hstep
        exact h.resend hguard
  | take => exact h.take hstep
  | verify kwin => exact h.verify hstep
  | reach => exact h.reach hguard hstep
  | fail => exact h.fail hstep
  | acked => exact h.acked hstep
  | fire => exact h.fire hstep
  | retryReach => exact h.retryReach hstep
  | retryEnd =>
      rw [FocusRelay.step] at hstep
      split_ifs at hstep
      obtain rfl := Option.some.inj hstep
      exact { h with retry := nofun, loggedRetry := nofun }
  | serve => exact h.serve hstep
  | restart =>
      obtain rfl := Option.some.inj hstep
      exact h.restart

end Ordered

theorem ordered_of_run (h : machine.Run Orderly s) : s.Ordered :=
  h.invariant (fun _ hs => hs ▸ .start) fun _ _ _ hordered hguard hstep =>
    hordered.step hguard hstep

/-- **No older report reaches the daemon after a newer one**, so that when it has served all that
has been sent, and the report that has the focus among it, it has the application that has the
focus. -/
theorem focus_in_order (h : machine.Run Orderly s) :
    (s.sent.Pairwise fun a b => a.number ≤ b.number) ∧
      (s.backlog = [] → (∃ report ∈ s.served, report.number = s.lastApp.number) →
        s.ipc.pendingApp = reportedApp s.lastApp.wmClass) := by
  have hordered := ordered_of_run h
  refine ⟨hordered.sorted, fun hidle ⟨report, hreport, hnumber⟩ => ?_⟩
  have hsent : s.sent = s.served := by rw [sent, hidle, List.append_nil]
  obtain ⟨before, last, hserved⟩ : ∃ before last, s.served = before ++ [last] := by
    rcases List.eq_nil_or_concat s.served with hnil | ⟨before, last, hconcat⟩
    · rw [hnil] at hreport
      cases hreport
    · exact ⟨before, last, by rw [hconcat, List.concat_eq_append]⟩
  have hlast : last ∈ s.sent := by
    rw [hsent, hserved]
    exact List.mem_append_right _ (List.mem_singleton_self _)
  -- the last one served is as new as the one that has the focus
  have hge : report.number ≤ last.number := by
    have hsorted := hordered.sorted
    rw [hsent, hserved] at hsorted
    rw [hserved] at hreport
    rcases List.mem_append.mp hreport with hbefore | hsame
    · exact (List.pairwise_append.mp hsorted).2.2 report hbefore last (List.mem_singleton_self _)
    · rw [List.mem_singleton.mp hsame]
  have hle := hordered.old last hlast
  have heq : last.number = s.lastApp.number := by omega
  have hlogged := hordered.logged last
    (List.mem_cons_of_mem _ (List.mem_append_right _ hlast))
  have hfocus := hordered.logged _ (List.mem_cons_self ..)
  unfold Logged at hlogged hfocus
  rw [heq, hfocus] at hlogged
  rw [hordered.shown last (by rw [hserved, List.getLast?_concat]), Option.some.inj hlogged]

/-- A report that is served too late for the worker, and another one after it. -/
def slowReport : List RelayStep :=
  [.report (bytes "konsole"), .take, .verify true, .reach, .fail, .report (bytes "firefox"),
    .take, .verify true, .reach, .serve, .serve, .acked, .fire]

theorem focus_in_order_slow :
    ∃ s, machine.Run Orderly s ∧ s.served.map (·.number) = [1, 2] ∧
      s.ipc.pendingApp = reportedApp s.lastApp.wmClass := by
  obtain ⟨s, hrun, hserved, hbacklog, hlast⟩ := machine.exists_run (G := Orderly) rfl slowReport
    (P := fun s => s.served.map (·.number) = [1, 2] ∧ s.backlog = [] ∧
      ∃ report ∈ s.served, report.number = s.lastApp.number) (by decide +kernel)
  exact ⟨s, hrun, hserved, (focus_in_order hrun).2 hbacklog hlast⟩

/-! ## Reports that are overtaken -/

/-- The daemon comes back while a newer report waits for the worker. -/
def resendRace : List RelayStep :=
  [.report (bytes "konsole"), .take, .verify true, .reach, .serve, .acked,
    .restart, .report (bytes "firefox"), .resend, .take, .verify true, .reach, .serve, .acked,
    .take, .verify true, .reach, .serve, .acked]

/-- The worker sends a newer report between the check of a retry and the retry. -/
def retryRace : List RelayStep :=
  [.report (bytes "konsole"), .take, .verify true, .fail, .report (bytes "firefox"), .fire, .take,
    .verify true, .reach, .retryReach, .serve, .acked, .serve, .retryEnd]

/-- The relay has come to rest, and the daemon has the application of a report that is not the
last. -/
def Stale (s : FocusRelay) : Prop :=
  s.backlog = [] ∧ s.pending = [] ∧ s.main = .loop ∧ s.worker = .idle ∧
    s.served.map (·.number) = [2, 1] ∧ s.ipc.pendingApp = bytes "konsole"

instance (s : FocusRelay) : Decidable s.Stale := inferInstanceAs (Decidable (_ ∧ _))

theorem resend_overtakes : ∃ s, machine.Reachable s ∧ s.Stale :=
  machine.exists_run rfl resendRace (by decide +kernel)

theorem retry_overtakes : ∃ s, machine.Reachable s ∧ s.Stale :=
  machine.exists_run rfl retryRace (by decide +kernel)

end FocusRelay
end AbrekMouse
