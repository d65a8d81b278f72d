import AbrekMouse.PidFile

/-! # A single instance

A daemon whose pid file is complete is found by every daemon that begins to look after
that, unless it fails to open or to read the file.  So two of them can run only where the
second began to look too early, or where its look has failed.  Where neither happens
(`Apart`), at most one runs (`single_instance`).

The code takes an exclusive create for enough.  It is one on a single path: with several
candidates a daemon that finds the first one taken takes the next (`two_instances`).
-/
namespace AbrekMouse
open ProgLib
variable {Path : Type}

namespace Stage

/-- The candidates of the stage are among `candidates`. -/
def Within (candidates : List Path) : Stage Path → Prop
  | create _ paths => paths ⊆ candidates
  | write _ path _ _ paths => path ∈ candidates ∧ paths ⊆ candidates
  | unlinkOwn _ _ paths => paths ⊆ candidates
  | running path => path ∈ candidates
  | _ => True

/-- The pid file of the daemon is where it put it, as far as it is written. -/
def Owns (files : Files Path UInt8) (pid : ℕ) : Stage Path → Prop
  | write _ path file done _ =>
      files.names path = some file ∧ files.data file = (pidText pid).take done
  | running path => ∃ file, files.names path = some file ∧ files.data file = pidText pid
  | _ => True

/-- A daemon at this stage will still find the daemon `pid` by its file `path`. -/
def Sees (files : Files Path UInt8) (path : Path) (pid : ℕ) : Stage Path → Prop
  | probeOpen paths => path ∈ paths
  | probeRead file paths => files.names path = some file ∨ path ∈ paths
  | probe _ other paths => other = pid ∨ path ∈ paths
  | _ => False

theorem owns_of_not_made {files : Files Path UInt8} {pid : ℕ} {stage : Stage Path}
    (h : stage.made = false) : stage.Owns files pid := by
  cases stage with
  | write | running => cases h
  | _ => trivial

end Stage

namespace PidFiles
variable {candidates : List Path} {s t : PidFiles Path}

/-- What holds between two steps of guarded runs. -/
structure Orderly (candidates : List Path) (s : PidFiles Path) : Prop where
  time : ∀ {p d}, s.procs p = some d → d.began < s.clock ∧ 0 < p ∧ (p : ℤ) ≤ intMax
  within : ∀ {p d}, s.procs p = some d → d.stage.Within candidates
  owns : ∀ {p d}, s.procs p = some d → d.stage.Owns s.files p
  sole : ∀ {p q d e}, s.procs p = some d → s.procs q = some e →
    d.stage.made = true → e.stage.made = true → p = q
  sees : ∀ {p q d e path}, p ≠ q → s.procs p = some d → s.procs q = some e →
    e.stage = .running path → e.finished < d.began → d.stage.Sees s.files path q

/-- No other daemon has a pid file. -/
def Alone (s : PidFiles Path) (pid : ℕ) : Prop :=
  ∀ q e, q ≠ pid → s.procs q = some e → e.stage.made = false

theorem goOn_self {pid : ℕ} {d : Option (Starter Path)} : (s.goOn pid d).procs pid = d :=
  Function.update_self ..

theorem goOn_of_ne {pid other : ℕ} {d : Option (Starter Path)} (h : other ≠ pid) :
    (s.goOn pid d).procs other = s.procs other :=
  Function.update_of_ne h ..

/-- The daemons of a step are those of before, and the one that has moved. -/
theorem procs_goOn {pid p : ℕ} {o : Option (Starter Path)} {d : Starter Path}
    (h : (s.goOn pid o).procs p = some d) :
    (p = pid ∧ o = some d) ∨ (p ≠ pid ∧ s.procs p = some d) := by
  by_cases hpid : p = pid
  · rw [hpid, goOn_self] at h
    exact .inl ⟨hpid, h⟩
  · rw [goOn_of_ne hpid] at h
    exact .inr ⟨hpid, h⟩

namespace Orderly

/-- A daemon is gone; its pid file stays. -/
theorem gone (h : s.Orderly candidates) (pid : ℕ) : (s.goOn pid none).Orderly candidates := by
  have hprocs : ∀ {p d}, (s.goOn pid none).procs p = some d → s.procs p = some d := by
    intro p d hp
    rcases procs_goOn hp with ⟨-, hnone⟩ | ⟨-, hp⟩
    · cases hnone
    · exact hp
  exact {
    time := fun hp => ⟨Nat.lt_succ_of_lt (h.time (hprocs hp)).1, (h.time (hprocs hp)).2⟩
    within := fun hp => h.within (hprocs hp)
    owns := fun hp => h.owns (hprocs hp)
    sole := fun hp hq => h.sole (hprocs hp) (hprocs hq)
    sees := fun hne hp hq => h.sees hne (hprocs hp) (hprocs hq) }

/-- A daemon moves to a stage without a pid file. -/
theorem move {pid : ℕ} {d : Starter Path} (h : s.Orderly candidates)
    (htime : d.began ≤ s.clock ∧ 0 < pid ∧ (pid : ℤ) ≤ intMax) (hmade : d.stage.made = false)
    (hwithin : d.stage.Within candidates)
    (hsees : ∀ {other e path}, other ≠ pid → s.procs other = some e → e.stage = .running path →
      e.finished < d.began → d.stage.Sees s.files path other) :
    (s.goOn pid (some d)).Orderly candidates := by
  constructor
  case time =>
    intro p e hp
    rcases procs_goOn hp with ⟨rfl, ⟨⟩⟩ | ⟨-, hp⟩
    · exact ⟨Nat.lt_succ_of_le htime.1, htime.2⟩
    · exact ⟨Nat.lt_succ_of_lt (h.time hp).1, (h.time hp).2⟩
  case within =>
    intro p e hp
    rcases procs_goOn hp with ⟨rfl, ⟨⟩⟩ | ⟨-, hp⟩
    · exact hwithin
    · exact h.within hp
  case owns =>
    intro p e hp
    rcases procs_goOn hp with ⟨rfl, ⟨⟩⟩ | ⟨-, hp⟩
    · exact Stage.owns_of_not_made hmade
    · exact h.owns hp
  case sole =>
    intro p q e f hp hq hmade₁ hmade₂
    rcases procs_goOn hp with ⟨rfl, ⟨⟩⟩ | ⟨-, hp⟩
    · exact absurd (hmade.symm.trans hmade₁) Bool.false_ne_true
    · rcases procs_goOn hq with ⟨rfl, ⟨⟩⟩ | ⟨-, hq⟩
      · exact absurd (hmade.symm.trans hmade₂) Bool.false_ne_true
      · exact h.sole hp hq hmade₁ hmade₂
  case sees =>
    intro p q e f path hne hp hq hrunning hlate
    rcases procs_goOn hq with ⟨rfl, ⟨⟩⟩ | ⟨-, hq'⟩
    · rw [hrunning] at hmade
      cases hmade
    · rcases procs_goOn hp with ⟨rfl, ⟨⟩⟩ | ⟨-, hp'⟩
      · exact hsees hne.symm hq' hrunning hlate
      · exact h.sees hne hp' hq' hrunning hlate

/-- A daemon goes on, and still sees what it saw. -/
theorem goto {pid : ℕ} {d : Starter Path} {stage : Stage Path} (h : s.Orderly candidates)
    (hd : s.procs pid = some d) (hmade : stage.made = false)
    (hwithin : stage.Within candidates)
    (hsees : ∀ {other e path}, s.procs other = some e → e.stage = .running path →
      d.stage.Sees s.files path other → stage.Sees s.files path other) :
    (s.goOn pid (some { d with stage := stage })).Orderly candidates :=
  h.move ⟨(h.time hd).1.le, (h.time hd).2⟩ hmade hwithin fun hne hq hrunning hlate =>
    hsees hq hrunning (h.sees hne.symm hd hq hrunning hlate)

/-- Where no other daemon has one, the files may become what they will. -/
theorem alone {pid : ℕ} {o : Option (Starter Path)} {files : Files Path UInt8}
    (h : s.Orderly candidates)
    (halone : s.Alone pid)
    (htime : ∀ d, o = some d → d.began < s.clock ∧ 0 < pid ∧ (pid : ℤ) ≤ intMax)
    (hwithin : ∀ d, o = some d → d.stage.Within candidates)
    (howns : ∀ d, o = some d → d.stage.Owns files pid)
    (hfinished : ∀ d path, o = some d → d.stage = .running path → d.finished = s.clock) :
    Orderly candidates { s.goOn pid o with files := files } := by
  constructor
  case time =>
    intro p e hp
    rcases procs_goOn hp with ⟨rfl, he⟩ | ⟨-, hp⟩
    · exact ⟨Nat.lt_succ_of_lt (htime e he).1, (htime e he).2⟩
    · exact ⟨Nat.lt_succ_of_lt (h.time hp).1, (h.time hp).2⟩
  case within =>
    intro p e hp
    rcases procs_goOn hp with ⟨rfl, he⟩ | ⟨-, hp⟩
    · exact hwithin e he
    · exact h.within hp
  case owns =>
    intro p e hp
    rcases procs_goOn hp with ⟨rfl, he⟩ | ⟨hne, hp⟩
    · exact howns e he
    · exact Stage.owns_of_not_made (halone _ _ hne hp)
  case sole =>
    intro p q e f hp hq hmade₁ hmade₂
    rcases procs_goOn hp with ⟨rfl, -⟩ | ⟨hne, hp⟩
    · rcases procs_goOn hq with ⟨rfl, -⟩ | ⟨hne, hq⟩
      · rfl
      · exact absurd ((halone _ _ hne hq).symm.trans hmade₂) Bool.false_ne_true
    · exact absurd ((halone _ _ hne hp).symm.trans hmade₁) Bool.false_ne_true
  case sees =>
    intro p q e f path hne hp hq hrunning hlate
    rcases procs_goOn hq with ⟨rfl, hf⟩ | ⟨hne', hq'⟩
    · rw [hfinished f path hf hrunning] at hlate
      rcases procs_goOn hp with ⟨rfl, -⟩ | ⟨-, hp'⟩
      · exact absurd rfl hne
      · exact absurd hlate (Nat.lt_asymm (h.time hp').1)
    · have hmade := halone _ _ hne' hq'
      rw [hrunning] at hmade
      cases hmade

theorem alone_goto {pid : ℕ} {d : Starter Path} (files : Files Path UInt8)
    (h : s.Orderly candidates) (halone : s.Alone pid)
    (htime : d.began < s.clock ∧ 0 < pid ∧ (pid : ℤ) ≤ intMax)
    (hwithin : d.stage.Within candidates) (howns : d.stage.Owns files pid)
    (hfinished : ∀ path, d.stage = .running path → d.finished = s.clock) :
    Orderly candidates { s.goOn pid (some d) with files := files } := by
  refine h.alone halone ?_ ?_ ?_ ?_
  · rintro _ ⟨⟩
    exact htime
  · rintro _ ⟨⟩
    exact hwithin
  · rintro _ ⟨⟩
    exact howns
  · rintro _ path ⟨⟩
    exact hfinished path

theorem alone_gone {pid : ℕ} {files : Files Path UInt8} (h : s.Orderly candidates)
    (halone : s.Alone pid) : Orderly candidates { s.goOn pid none with files := files } := by
  refine h.alone halone ?_ ?_ ?_ ?_
  · rintro _ ⟨⟩
  · rintro _ ⟨⟩
  · rintro _ ⟨⟩
  · rintro _ _ ⟨⟩

/-- A daemon that keeps apart from the others, and sees none, has no other beside it. -/
theorem alone_of_apart {pid : ℕ} {d : Starter Path} {stage : Stage Path}
    (h : s.Orderly candidates) (hd : s.procs pid = some d) (hstage : d.stage = stage)
    (hblind : ∀ path other, ¬stage.Sees s.files path other)
    (happart : ∀ other e, other ≠ pid → s.procs other = some e → e.stage.made = true →
      (∃ path, e.stage = .running path) ∧ e.finished < d.began) : s.Alone pid := by
  intro q e hne hq
  by_contra hmade
  obtain ⟨⟨path, hrunning⟩, hearly⟩ := happart q e hne hq (Bool.eq_true_of_not_eq_false hmade)
  exact hblind path q (hstage ▸ h.sees hne.symm hd hq hrunning hearly)

/-- A daemon with a pid file has no other beside it. -/
theorem alone_of_made {pid : ℕ} {d : Starter Path} (h : s.Orderly candidates)
    (hd : s.procs pid = some d) (hmade : d.stage.made = true) : s.Alone pid := by
  intro q e hne hq
  by_contra hmade'
  exact hne (h.sole hq hd (Bool.eq_true_of_not_eq_false hmade') hmade)

/-- **The answers do not miss a daemon that lives.** -/
theorem probe {pid other : ℕ} {d : Starter Path} {paths : List Path} {next : ProbeCall}
    {answer : Answer} {o : Option (Stage Path)} (h : s.Orderly candidates)
    (hd : s.procs pid = some d) (hstage : d.stage = .probe next other paths)
    (htrue : s.Truthful other answer) (hcall : probeCall other paths next answer = some o) :
    (s.goOn pid (o.map fun stage => { d with stage := stage })).Orderly candidates := by
  have hgone : (s.procs other).isSome = false →
      (s.goOn pid (some { d with stage := .probeOpen paths })).Orderly candidates := by
    intro hnone
    refine h.goto hd rfl trivial fun {q e path} hq hrunning hsees => ?_
    rw [hstage] at hsees
    refine hsees.resolve_left fun heq => ?_
    rw [heq, hq] at hnone
    cases hnone
  have hstay : ∀ next, (s.goOn pid (some { d with
      stage := .probe next other paths })).Orderly candidates := by
    intro next'
    refine h.goto hd rfl trivial fun hq hrunning hsees => ?_
    rwa [hstage] at hsees
  cases next with
  | kill =>
      cases answer with
      | kill r =>
          cases r with
          | ok =>
              cases hcall
              exact hstay .comm
          | eperm =>
              cases hcall
              exact h.gone pid
          | esrch =>
              cases hcall
              exact hgone (Bool.eq_false_of_not_eq_true fun hsome => htrue hsome rfl)
      | _ => cases hcall
  | comm =>
      cases answer with
      | comm c =>
          cases c with
          | ours =>
              cases hcall
              exact hstay .stopped
          | other =>
              cases hcall
              exact hgone (Bool.eq_false_of_not_eq_true fun hsome => htrue hsome rfl)
          | unreadable =>
              cases hcall
              exact h.gone pid
      | _ => cases hcall
  | stopped =>
      cases answer with
      | stopped b =>
          cases b with
          | true =>
              cases hcall
              exact hgone (Bool.eq_false_of_not_eq_true fun hsome => nomatch htrue hsome)
          | false =>
              cases hcall
              exact h.gone pid
      | _ => cases hcall

theorem made_clearCall {path : Path} {other : ℕ} {paths : List Path} {next : ClearCall}
    {answer : Answer} {stage : Stage Path}
    (h : clearCall path other paths next answer = some stage) :
    stage.made = false ∧ stage.Within candidates := by
  unfold clearCall at h
  split at h
  all_goals first | (cases h; split_ifs <;> exact ⟨rfl, trivial⟩) | cases h

/-- A call that neither sees nor takes anything. -/
theorem pass {pid : ℕ} {d : Starter Path} {stage next : Stage Path} (h : s.Orderly candidates)
    (hd : s.procs pid = some d) (hstage : d.stage = stage)
    (hblind : ∀ path other, ¬stage.Sees s.files path other)
    (hmade : next.made = false) (hwithin : next.Within candidates) :
    (s.goOn pid (some { d with stage := next })).Orderly candidates :=
  h.goto hd hmade hwithin fun _ _ hsees => absurd (hstage ▸ hsees) (hblind _ _)

/-- **A look that fails misses no daemon that it would have found.** -/
theorem miss {pid : ℕ} {d : Starter Path} {paths : List Path} [DecidableEq Path]
    (h : s.Orderly candidates) (hd : s.procs pid = some d)
    (happart : s.Apart (.call pid .failed))
    (hsees : ∀ {path other}, d.stage.Sees s.files path other →
      s.looksAt path d.stage ∨ path ∈ paths) :
    (s.goOn pid (some { d with stage := .probeOpen paths })).Orderly candidates := by
  refine h.move ⟨(h.time hd).1.le, (h.time hd).2⟩ rfl trivial fun hne hq hrunning hlate => ?_
  rcases hsees (h.sees hne.symm hd hq hrunning hlate) with hlooks | hlater
  · exact absurd hlate (happart d hd _ _ _ hne hq hrunning hlooks).not_gt
  · exact hlater

/-- A running daemon has its file under a candidate, so an absent one is not its. -/
theorem absent {pid : ℕ} {d : Starter Path} {path : Path} {paths : List Path}
    (h : s.Orderly candidates) (hd : s.procs pid = some d)
    (hstage : d.stage = .probeOpen (path :: paths)) (hnone : s.files.names path = none) :
    (s.goOn pid (some { d with stage := .probeOpen paths })).Orderly candidates := by
  refine h.goto hd rfl trivial fun {q e path'} hq hrunning hsees => ?_
  rw [hstage] at hsees
  rcases List.mem_cons.mp hsees with rfl | hlater
  · have hfile := h.owns hq
    rw [hrunning] at hfile
    obtain ⟨file, hname, -⟩ := hfile
    rw [hnone] at hname
    cases hname
  · exact hlater

theorem opened {pid file : ℕ} {d : Starter Path} {path : Path} {paths : List Path}
    (h : s.Orderly candidates) (hd : s.procs pid = some d)
    (hstage : d.stage = .probeOpen (path :: paths)) (hname : s.files.names path = some file) :
    (s.goOn pid (some { d with stage := .probeRead file paths })).Orderly candidates := by
  refine h.goto hd rfl trivial fun {q e path'} hq hrunning hsees => ?_
  rw [hstage] at hsees
  rcases List.mem_cons.mp hsees with rfl | hlater
  · exact .inl hname
  · exact .inr hlater

/-- The file of a running daemon names it. -/
theorem recordedPid_of_running {q file : ℕ} {e : Starter Path} {path : Path}
    (h : s.Orderly candidates) (hq : s.procs q = some e) (hrunning : e.stage = .running path)
    (hname : s.files.names path = some file) :
    recordedPid (pidBuf (s.files.data file)) = some q := by
  have hfile := h.owns hq
  rw [hrunning] at hfile
  obtain ⟨file', hname', hdata⟩ := hfile
  obtain rfl : file = file' := Option.some.inj (hname.symm.trans hname')
  rw [hdata]
  exact recordedPid_pidText (h.time hq).2.1 (h.time hq).2.2

theorem nameless {pid file : ℕ} {d : Starter Path} {paths : List Path}
    (h : s.Orderly candidates) (hd : s.procs pid = some d)
    (hstage : d.stage = .probeRead file paths)
    (hnone : recordedPid (pidBuf (s.files.data file)) = none) :
    (s.goOn pid (some { d with stage := .probeOpen paths })).Orderly candidates := by
  refine h.goto hd rfl trivial fun {q e path} hq hrunning hsees => ?_
  rw [hstage] at hsees
  refine hsees.resolve_left fun hname => ?_
  rw [h.recordedPid_of_running hq hrunning hname] at hnone
  cases hnone

theorem named {pid file other : ℕ} {d : Starter Path} {paths : List Path}
    (h : s.Orderly candidates) (hd : s.procs pid = some d)
    (hstage : d.stage = .probeRead file paths)
    (hsome : recordedPid (pidBuf (s.files.data file)) = some other) :
    (s.goOn pid (some { d with stage := .probe .kill other paths })).Orderly candidates := by
  refine h.goto hd rfl trivial fun {q e path} hq hrunning hsees => ?_
  rw [hstage] at hsees
  rcases hsees with hname | hlater
  · exact .inl (Option.some.inj (hsome.symm.trans (h.recordedPid_of_running hq hrunning hname)))
  · exact .inr hlater

/-- **The exclusive create** is of the only one: whoever has a file before had it complete
before the look. -/
theorem created {pid : ℕ} {d : Starter Path} {retry : Bool} {path : Path} {paths : List Path}
    [DecidableEq Path] (h : s.Orderly candidates) (hd : s.procs pid = some d)
    (happart : s.Apart (.call pid .ok)) (hstage : d.stage = .create retry (path :: paths))
    (hnone : s.files.names path = none) :
    Orderly candidates { s.goOn pid (some { d with
      stage := .write retry path s.files.next 0 paths }) with files := s.files.create path } := by
  have htime := h.time hd
  have hwithin := h.within hd
  rw [hstage] at hwithin
  have halone := h.alone_of_apart hd hstage (fun _ _ => id)
    (happart d hd (by rw [hstage]; exact hnone))
  exact h.alone_goto _ halone htime
    ⟨hwithin List.mem_cons_self, fun p hp => hwithin (List.mem_cons_of_mem _ hp)⟩
    ⟨Files.names_create_self, Files.data_create_self⟩ (fun _ hrunning => nomatch hrunning)

/-- Between the create and the last byte no other daemon has a file. -/
theorem wrote {pid file done bytes : ℕ} {d : Starter Path} {retry : Bool} {path : Path}
    {paths : List Path} (h : s.Orderly candidates) (hd : s.procs pid = some d)
    (hstage : d.stage = .write retry path file done paths) :
    Orderly candidates { s.goOn pid (some { d with
      stage := if done + bytes = (pidText pid).length then .running path
        else .write retry path file (done + bytes) paths
      finished := s.clock }) with
      files := s.files.append file (((pidText pid).drop done).take bytes) } := by
  have halone := h.alone_of_made hd (by rw [hstage]; rfl)
  have htime := h.time hd
  have hwithin := h.within hd
  have howns := h.owns hd
  rw [hstage] at hwithin howns
  have hdata : (s.files.append file (((pidText pid).drop done).take bytes)).data file =
      (pidText pid).take (done + bytes) := by
    rw [Files.data_append_self, howns.2, List.take_add]
  refine h.alone_goto _ halone htime ?_ ?_ (fun _ _ => rfl)
  · dsimp only
    split_ifs
    · exact hwithin.1
    · exact hwithin
  · dsimp only
    split_ifs with hall
    · exact ⟨file, howns.1, hdata.trans (List.take_of_length_le hall.ge)⟩
    · exact ⟨howns.1, hdata⟩

end Orderly

variable [DecidableEq Path]

theorem Orderly.call {pid : ℕ} {d : Starter Path} {answer : Answer} (h : s.Orderly candidates)
    (hd : s.procs pid = some d) (happart : s.Apart (.call pid answer))
    (hcall : s.call candidates pid d answer = some t) : t.Orderly candidates := by
  have htime := h.time hd
  have hwithin := h.within hd
  unfold PidFiles.call at hcall
  dsimp only at hcall
  split at hcall
  · -- probeOpen []
    rename_i hstage
    cases hcall
    refine h.goto hd rfl (List.Subset.refl _) fun hq hrunning hsees => ?_
    rw [hstage] at hsees
    cases hsees
  · rename_i path paths hstage
    split at hcall
    · rename_i hnone
      cases hcall
      exact h.absent hd hstage hnone
    · rename_i file hname
      cases hcall
      exact h.opened hd hstage hname
  · rename_i path paths hstage
    cases hcall
    refine h.miss hd happart fun hsees => ?_
    rw [hstage] at hsees ⊢
    exact (List.mem_cons.mp hsees).imp_left Eq.symm
  · rename_i file paths hstage
    cases hcall
    refine h.miss hd happart fun hsees => ?_
    rw [hstage] at hsees ⊢
    exact hsees
  · rename_i file paths hstage
    split at hcall
    · rename_i hnone
      cases hcall
      exact h.nameless hd hstage hnone
    · rename_i other hsome
      cases hcall
      exact h.named hd hstage hsome
  · rename_i next other paths answer hstage
    split at hcall
    · rename_i htrue
      split at hcall
      · rename_i stage hnext
        cases hcall
        exact h.probe hd hstage htrue hnext
      · rename_i hnext
        cases hcall
        exact h.probe hd hstage htrue hnext
      · cases hcall
    · cases hcall
  · rename_i retry hstage
    cases hcall
    split_ifs
    · exact h.gone pid
    · exact h.pass hd hstage (fun _ _ => id) rfl trivial
  · rename_i retry path paths hstage
    split at hcall
    · rename_i hnone
      cases hcall
      exact h.created hd happart hstage hnone
    · cases hcall
      rw [hstage] at hwithin
      refine h.pass hd hstage (fun _ _ => id) rfl ?_
      exact fun p hp => hwithin (List.mem_cons_of_mem _ hp)
  · rename_i retry path paths hstage
    rw [hstage] at hwithin
    cases hcall
    refine h.pass hd hstage (fun _ _ => id) rfl ?_
    exact fun p hp => hwithin (List.mem_cons_of_mem _ hp)
  · rename_i retry path file done paths bytes hstage
    split at hcall
    · cases hcall
      exact h.wrote hd hstage
    · cases hcall
  · rename_i retry path file done paths hstage
    have halone := h.alone_of_made hd (by rw [hstage]; rfl)
    rw [hstage] at hwithin
    cases hcall
    exact h.alone_goto s.files halone htime hwithin.2 trivial
      (fun _ hrunning => nomatch hrunning)
  · rename_i retry path paths hstage
    have halone := h.alone_of_made hd (by rw [hstage]; rfl)
    rw [hstage] at hwithin
    cases hcall
    exact h.alone_goto _ halone htime hwithin trivial (fun _ hrunning => nomatch hrunning)
  · rename_i retry path paths hstage
    have halone := h.alone_of_made hd (by rw [hstage]; rfl)
    rw [hstage] at hwithin
    cases hcall
    exact h.alone_goto s.files halone htime hwithin trivial
      (fun _ hrunning => nomatch hrunning)
  · cases hcall
    exact h.gone pid
  · rename_i path paths hstage
    split at hcall
    · cases hcall
      exact h.pass hd hstage (fun _ _ => id) rfl trivial
    · cases hcall
      exact h.pass hd hstage (fun _ _ => id) rfl trivial
  · rename_i path paths hstage
    cases hcall
    exact h.pass hd hstage (fun _ _ => id) rfl trivial
  · rename_i path file paths hstage
    cases hcall
    exact h.pass hd hstage (fun _ _ => id) rfl trivial
  · rename_i path file paths hstage
    split at hcall
    · cases hcall
      exact h.pass hd hstage (fun _ _ => id) rfl trivial
    · cases hcall
      exact h.pass hd hstage (fun _ _ => id) rfl trivial
  · rename_i next path other paths hstage
    split at hcall
    · obtain ⟨stage, hnext, rfl⟩ := Option.map_eq_some_iff.mp hcall
      have hclear : stage.made = false ∧ stage.Within candidates := made_clearCall hnext
      exact h.pass hd hstage (fun _ _ => id) hclear.1 hclear.2
    · cases hcall
  · -- a removal as stale, which only an orderly step makes alone
    rename_i counts path paths hstage
    have halone := h.alone_of_apart hd hstage (fun _ _ => id)
      (happart d hd (by rw [hstage]; trivial))
    split at hcall
    · cases hcall
      exact h.alone_goto _ halone htime (List.Subset.refl _) trivial
        (fun _ hrunning => nomatch hrunning)
    · cases hcall
  · rename_i counts path paths hstage
    cases hcall
    split_ifs
    · exact h.pass hd hstage (fun _ _ => id) rfl (List.Subset.refl _)
    · exact h.pass hd hstage (fun _ _ => id) rfl trivial
  · rename_i path hstage
    have halone := h.alone_of_made hd (by rw [hstage]; rfl)
    cases hcall
    exact h.alone_gone halone
  · cases hcall

/-- **Every step that keeps apart is orderly.** -/
theorem Orderly.step {l : PidStep} (h : s.Orderly candidates) (happart : s.Apart l)
    (hstep : s.step candidates l = some t) : t.Orderly candidates := by
  cases l with
  | start pid =>
      change (if _ then _ else _) = _ at hstep
      split_ifs at hstep with hpid
      cases hstep
      refine h.move ⟨le_rfl, hpid.2⟩ rfl trivial fun {q e path} _ hq hrunning _ => ?_
      have hpath := h.within hq
      rwa [hrunning] at hpath
  | call pid answer =>
      obtain ⟨d, hd, hcall⟩ := Option.bind_eq_some_iff.mp hstep
      exact h.call hd happart hcall
  | die pid =>
      obtain ⟨d, -, rfl⟩ := Option.map_eq_some_iff.mp hstep
      exact h.gone pid

theorem Orderly.start (hstart : (machine candidates).Start s) : s.Orderly candidates := by
  have hnone : ∀ {p : ℕ} {d : Starter Path}, ¬s.procs p = some d := by
    intro p d hp
    rw [show s.procs = fun _ => none from hstart] at hp
    cases hp
  exact {
    time := fun hp => absurd hp hnone
    within := fun hp => absurd hp hnone
    owns := fun hp => absurd hp hnone
    sole := fun hp => absurd hp hnone
    sees := fun _ hp => absurd hp hnone }

omit [DecidableEq Path] in
theorem made_of_runs {pid : ℕ} (h : s.Runs pid) :
    ∃ d, s.procs pid = some d ∧ d.stage.made = true := by
  obtain ⟨d, hd, hrunning⟩ := (Option.any_eq_true _ _).mp h
  refine ⟨d, hd, ?_⟩
  split at hrunning
  · rename_i hstage
    rw [hstage]
    rfl
  · cases hrunning

/-- **At most one daemon runs**, as long as daemons keep apart when they take and remove
pid files. -/
theorem single_instance (candidates : List Path) (s : PidFiles Path)
    (hrun : (machine candidates).Run Apart s) (p q : ℕ) (hp : s.Runs p) (hq : s.Runs q) :
    p = q := by
  have horderly : s.Orderly candidates :=
    hrun.invariant (fun _ => Orderly.start) fun _ _ _ h happart => h.step happart
  obtain ⟨d, hd, hmade⟩ := made_of_runs hp
  obtain ⟨e, he, hmade'⟩ := made_of_runs hq
  exact horderly.sole hd he hmade hmade'

/-! ## Two starts -/

/-- The candidates: in the runtime directory of the user, and the two fallbacks. -/
inductive PidPath | xdg | run | tmp
deriving DecidableEq

def pidPaths : List PidPath := [.xdg, .run, .tmp]

/-- No files, and no daemons. -/
def empty : PidFiles PidPath where
  files :=
    { names := fun _ => none
      data := fun _ => []
      next := 0
      names_lt := fun _ _ h => nomatch h }
  procs := fun _ => none

/-- The first candidate is a file that names no pid. -/
def littered : PidFiles PidPath where
  files :=
    { names := fun path => if path = .xdg then some 0 else none
      data := fun _ => [0x78]
      next := 1
      names_lt := by
        intro path file h
        split_ifs at h
        cases h
        exact Nat.zero_lt_one }
  procs := fun _ => none

/-- A run in which no daemon but `pids` has started. -/
def Among (pids : List ℕ) (s : PidFiles PidPath) : Prop :=
  (machine pidPaths).Run Apart s ∧ ∀ other, other ∉ pids → s.procs other = none

theorem Among.start {pids : List ℕ} {p : ℕ} {s : PidFiles PidPath} (h : Among pids s)
    (hpid : 0 < p ∧ (p : ℤ) ≤ intMax) (hnew : p ∉ pids) :
    Among (p :: pids)
      (s.goOn p (some { stage := .probeOpen pidPaths, began := s.clock })) := by
  have hstep : (machine pidPaths).step s (.start p) =
      some (s.goOn p (some { stage := .probeOpen pidPaths, began := s.clock })) :=
    if_pos ⟨by rw [h.2 p hnew]; rfl, hpid⟩
  refine ⟨h.1.step (l := .start p) trivial hstep, fun other hother => ?_⟩
  rw [List.mem_cons, not_or] at hother
  exact (goOn_of_ne hother.1).trans (h.2 other hother.2)

theorem Among.call {pids : List ℕ} {pid : ℕ} {s : PidFiles PidPath}
    {o : Option (Starter PidPath)} {files : Files PidPath UInt8} {a : Answer}
    (h : Among pids s) (hpid : pid ∈ pids) (happart : s.Apart (.call pid a))
    (hstep : (machine pidPaths).step s (.call pid a) =
      some { s.goOn pid o with files := files }) :
    Among pids { s.goOn pid o with files := files } := by
  refine ⟨h.1.step happart hstep, fun other hother => ?_⟩
  exact (goOn_of_ne (ne_of_mem_of_not_mem hpid hother).symm).trans (h.2 other hother)

/-- A daemon by itself keeps apart. -/
theorem Among.apart_one {s : PidFiles PidPath} (h : Among [1] s) (answer : Answer) :
    s.Apart (.call 1 answer) := by
  have hnone : ∀ {other e}, other ≠ 1 → ¬s.procs other = some e := by
    intro other e hne he
    rw [h.2 other fun hmem => hne (List.mem_singleton.mp hmem)] at he
    cases he
  cases answer with
  | ok => exact fun _ _ _ other e hne he => absurd he (hnone hne)
  | failed => exact fun _ _ other e _ hne he => absurd he (hnone hne)
  | _ => trivial

/-- A daemon that only looks takes no name. -/
theorem apart_looks {s : PidFiles PidPath} {pid : ℕ} {d : Starter PidPath}
    (hd : s.procs pid = some d) (hlooks : ¬s.takes d.stage) : s.Apart (.call pid .ok) := by
  intro e he htakes
  rw [hd] at he
  cases he
  exact absurd htakes hlooks

/-- What fails is not the look at the file of the only other daemon. -/
theorem Among.apart_miss {s : PidFiles PidPath} {d e : Starter PidPath} {path : PidPath}
    (h : Among [2, 1] s) (hd : s.procs 2 = some d) (he : s.procs 1 = some e)
    (hrunning : e.stage = .running path) (hmiss : ¬s.looksAt path d.stage) :
    s.Apart (.call 2 .failed) := by
  intro d' hd' other e' path' hne he' hrunning' hlooks
  rw [hd] at hd'
  cases hd'
  by_cases hone : other = 1
  · rw [hone, he] at he'
    cases he'
    rw [hrunning] at hrunning'
    cases hrunning'
    exact absurd hlooks hmiss
  · rw [h.2 other (by simp [hne, hone])] at he'
    cases he'

/-- A daemon that has found another one which is not stopped exits. -/
theorem step_exits {s : PidFiles PidPath} {d : Starter PidPath} {pid other : ℕ}
    {paths : List PidPath} (hd : s.procs pid = some d)
    (hstage : d.stage = .probe .stopped other paths) :
    (machine pidPaths).step s (.call pid (.stopped false)) = some (s.goOn pid none) := by
  have htrue : s.Truthful other (.stopped false) := fun _ => rfl
  obtain ⟨stage, began, finished⟩ := d
  cases hstage
  change (s.procs pid).bind _ = _
  rw [hd]
  exact if_pos htrue

/-- The first daemon passes over the file that names no pid, and creates the second
candidate.  Another one cannot open the first candidate, reads the pid of the first daemon
in the second, and exits. -/
theorem single_instance_second :
    ∃ s t, (machine pidPaths).Run Apart s ∧ s.Apart (.call 2 (.stopped false)) ∧
      (machine pidPaths).step s (.call 2 (.stopped false)) = some t ∧
      (s.procs 2).isSome = true ∧ t.procs 2 = none ∧ t.Runs 1 ∧ ∀ q, t.Runs q → 1 = q := by
  have h₀ : Among [] littered := ⟨.start rfl, fun _ _ => rfl⟩
  have hfirst := h₀.start (p := 1) (by decide) (by decide)
  have one : 1 ∈ [1] := List.mem_singleton_self 1
  have hopened := hfirst.call one (hfirst.apart_one .ok) rfl
  have hgarbage := hopened.call one (hopened.apart_one .ok) rfl
  have hrun := hgarbage.call one (hgarbage.apart_one .ok) rfl
  have htmp := hrun.call one (hrun.apart_one .ok) rfl
  have hlooked := htmp.call one (htmp.apart_one .ok) rfl
  have htaken := hlooked.call one (hlooked.apart_one .ok) rfl
  have hcreated := htaken.call one (htaken.apart_one .ok) rfl
  have hwritten := hcreated.call one (hcreated.apart_one (.wrote 2)) rfl
  have hsecond := hwritten.start (p := 2) (by decide) (by decide)
  have two : 2 ∈ [2, 1] := by decide
  have hmissed := hsecond.call two
    (hsecond.apart_miss rfl rfl rfl (fun hlooks => by cases hlooks)) rfl
  have hfound := hmissed.call two (apart_looks rfl id) rfl
  have hread := hfound.call two (apart_looks rfl id) rfl
  have hlives := hread.call two (a := .kill .ok) trivial rfl
  have hours := hlives.call two (a := .comm .ours) trivial rfl
  obtain ⟨s, hs, d, hd, hstage, hruns⟩ : ∃ s, Among [2, 1] s ∧ ∃ d, s.procs 2 = some d ∧
      d.stage = .probe .stopped 1 [.tmp] ∧ s.Runs 1 :=
    ⟨_, hours, _, rfl, rfl, (by decide +kernel)⟩
  have hexit := hs.1.step (l := PidStep.call 2 (.stopped false)) trivial (step_exits hd hstage)
  have hstays : (s.goOn 2 none).Runs 1 := hruns
  exact ⟨s, s.goOn 2 none, hs.1, trivial, step_exits hd hstage, by rw [hd]; rfl, goOn_self,
    hstays, fun q hq => single_instance pidPaths _ hexit 1 q hstays hq⟩

/-- Two daemons look for others, and only then create their files. -/
def bothLook : List PidStep :=
  [.start 1, .start 2] ++ List.replicate 4 (.call 1 .ok) ++ List.replicate 4 (.call 2 .ok) ++
    [.call 1 .ok, .call 1 (.wrote 2), .call 2 .ok, .call 2 .ok, .call 2 (.wrote 2)]

/-- The second one finds the first candidate taken, and takes the next. -/
theorem two_instances :
    ¬∀ s, (machine pidPaths).Reachable s → ∀ p q, s.Runs p → s.Runs q → p = q := by
  intro hsingle
  have hrun : ((machine pidPaths).exec (fun _ _ => True) empty bothLook).any
      (fun s => decide (s.Runs 1 ∧ s.Runs 2)) = true := by
    decide +kernel
  obtain ⟨s, hs, hboth⟩ := (Option.any_eq_true _ _).mp hrun
  obtain ⟨h₁, h₂⟩ := of_decide_eq_true hboth
  have hstart : (machine pidPaths).Run (fun _ _ => True) empty := .start rfl
  exact absurd (hsingle s (hstart.exec hs) 1 2 h₁ h₂) (by decide)

end PidFiles
end AbrekMouse
