import AbrekMouse.SaveFile

/-! # The settings file is replaced as a whole

A file that the settings path names is complete, and no process writes to it again: what
a process writes to is its temporary file, which has no other name until the call is past
everything that can fail.  So a reader finds one complete content whenever it opens the
path and however long it reads (`save_config_atomic`).
-/
namespace AbrekMouse
open ProgLib

namespace SaveStage

/-- What the temporary file holds at the stage. -/
def Written (content : Bytes) (data : ℕ → Bytes) : SaveStage → Prop
  | write file done => data file = content.take done
  | fsync file | .exists file | link file _ | removeStale file | renameBak file
  | removeBakTmp file | renameLive file => data file = content
  | openTmp _ | unlinkStale | removeTmp _ | syncDir => True

theorem Written.congr {stage : SaveStage} {content : Bytes} {data data' : ℕ → Bytes}
    (h : stage.Written content data)
    (hdata : ∀ file, stage.file? = some file → data' file = data file) :
    stage.Written content data' := by
  cases stage with
  | openTmp | unlinkStale | removeTmp | syncDir => trivial
  | _ => exact (hdata _ rfl).trans h

end SaveStage

namespace SaveFiles
variable {render : AppConfig → Except ConfigError Bytes} {original : Bytes}
  {backup : Option Bytes} {s t : SaveFiles} {pid file : ℕ}

variable (render original) in
/-- The content that was there first, or the whole content of some `save_config`. -/
def Complete (s : SaveFiles) (content : Bytes) : Prop :=
  content = original ∨ ∃ cfg ∈ s.saves, render cfg = .ok content

/-- The temporary file of the process. -/
def Temp (s : SaveFiles) (pid file : ℕ) : Prop :=
  ∃ d, s.savers pid = some d ∧ d.stage.file? = some file

/-- No process writes to the file again, and no call that wrote it throws. -/
structure Kept (s : SaveFiles) (file : ℕ) : Prop where
  lt : file < s.files.next
  temp : ∀ pid, ¬s.Temp pid file
  threw : file ∉ s.threw

variable (render original backup) in
/-- What holds between two steps. -/
structure Consistent (s : SaveFiles) : Prop where
  temp : ∀ {pid file}, s.Temp pid file → s.files.names (.tmp pid) = some file
  sole : ∀ {pid file name}, s.Temp pid file → s.files.names name = some file → name = .tmp pid
  temp_threw : ∀ {pid file}, s.Temp pid file → file ∉ s.threw
  threw_lt : ∀ file ∈ s.threw, file < s.files.next
  written : ∀ {pid d}, s.savers pid = some d → d.stage.Written d.content s.files.data
  content : ∀ {pid d}, s.savers pid = some d → s.Complete render original d.content
  live : ∃ file, s.files.names .live = some file ∧ s.Kept file ∧
    s.Complete render original (s.files.data file)
  bak : ∀ {file}, s.files.names .bak = some file → s.Kept file ∧
    (s.Complete render original (s.files.data file) ∨ backup = some (s.files.data file))
  linked : ∀ {pid d own file}, s.savers pid = some d → d.stage = .renameBak own →
    s.files.names (.bakTmp pid) = some file →
    s.Kept file ∧ s.Complete render original (s.files.data file)

/-- What a step of one process leaves alone. -/
structure Moves (s t : SaveFiles) (pid : ℕ) : Prop where
  next_le : s.files.next ≤ t.files.next
  savers : ∀ {q}, q ≠ pid → t.savers q = s.savers q
  saves : s.saves ⊆ t.saves
  temp : ∀ {file}, t.Temp pid file → file = s.files.next ∨ s.Temp pid file
  threw : ∀ file ∈ t.threw, file ∈ s.threw ∨ s.Temp pid file
  data : ∀ {file}, file < s.files.next → ¬s.Temp pid file →
    t.files.data file = s.files.data file
  tmp : ∀ {q}, q ≠ pid → t.files.names (.tmp q) = s.files.names (.tmp q)
  bakTmp : ∀ {q}, q ≠ pid → t.files.names (.bakTmp q) = s.files.names (.bakTmp q)
  /-- A name gets a new file, or one that another name has. -/
  named : ∀ {name file}, t.files.names name = some file → file = s.files.next ∨
    ∃ old, s.files.names old = some file ∧ (old = name ∨ ∀ q, q ≠ pid → old ≠ .tmp q)

variable (render original backup) in
/-- What a step of the process keeps. -/
structure Safe (pid : ℕ) (s t : SaveFiles) : Prop where
  moves : s.Moves t pid
  consistent : t.Consistent render original backup

theorem Complete.mono {content : Bytes} (h : s.Complete render original content)
    (hsaves : s.saves ⊆ t.saves) : t.Complete render original content := by
  rcases h with h | ⟨cfg, hcfg, h⟩
  · exact .inl h
  · exact .inr ⟨cfg, hsaves hcfg, h⟩

theorem Temp.lt (h : s.Consistent render original backup) (htemp : s.Temp pid file) :
    file < s.files.next :=
  s.files.names_lt _ _ (h.temp htemp)

/-- Two processes have two temporary files. -/
theorem Temp.eq {q : ℕ} (h : s.Consistent render original backup) (htemp : s.Temp pid file)
    (htemp' : s.Temp q file) : pid = q := by
  have hname := h.sole htemp' (h.temp htemp)
  exact SaveName.tmp.inj hname

namespace Moves

theorem temp_of_ne (hm : s.Moves t pid) {q : ℕ} (hq : q ≠ pid) :
    t.Temp q file ↔ s.Temp q file := by
  rw [Temp, Temp, hm.savers hq]

/-- **A kept file stays as it is.** -/
theorem kept (hm : s.Moves t pid) (hk : s.Kept file) :
    t.Kept file ∧ t.files.data file = s.files.data file := by
  refine ⟨⟨hk.lt.trans_le hm.next_le, ?_, ?_⟩, hm.data hk.lt (hk.temp pid)⟩
  · intro q htemp
    by_cases hq : q = pid
    · subst hq
      rcases hm.temp htemp with rfl | htemp
      · exact lt_irrefl _ hk.lt
      · exact hk.temp _ htemp
    · exact hk.temp q ((hm.temp_of_ne hq).mp htemp)
  · intro hthrew
    exact (hm.threw _ hthrew).elim hk.threw (hk.temp pid)

/-- The other processes keep their temporary files to themselves. -/
theorem other (h : s.Consistent render original backup) (hm : s.Moves t pid) {q : ℕ}
    (hq : q ≠ pid) (htemp : t.Temp q file) : t.files.names (.tmp q) = some file ∧
      (∀ name, t.files.names name = some file → name = .tmp q) ∧ file ∉ t.threw := by
  have hold := (hm.temp_of_ne hq).mp htemp
  refine ⟨(hm.tmp hq).trans (h.temp hold), ?_, ?_⟩
  · intro name hname
    rcases hm.named hname with rfl | ⟨old, hold', hor⟩
    · exact absurd (Temp.lt h hold) (lt_irrefl _)
    · have htmp := h.sole hold hold'
      rcases hor with rfl | hne
      · exact htmp
      · exact absurd htmp (hne q hq)
  · intro hthrew
    rcases hm.threw _ hthrew with hthrew | hown
    · exact h.temp_threw hold hthrew
    · exact hq (Temp.eq h hold hown)

/-- What is left to show of a step. -/
theorem safe (h : s.Consistent render original backup) (hm : s.Moves t pid)
    (htemp : ∀ file, t.Temp pid file → t.files.names (.tmp pid) = some file ∧
      (∀ name, t.files.names name = some file → name = .tmp pid) ∧ file ∉ t.threw)
    (hsaver : ∀ d, t.savers pid = some d → d.stage.Written d.content t.files.data ∧
      t.Complete render original d.content)
    (hlive : ∃ file, t.files.names .live = some file ∧ t.Kept file ∧
      t.Complete render original (t.files.data file))
    (hbak : ∀ file, t.files.names .bak = some file → t.Kept file ∧
      (t.Complete render original (t.files.data file) ∨ backup = some (t.files.data file)))
    (hlinked : ∀ d own file, t.savers pid = some d → d.stage = .renameBak own →
      t.files.names (.bakTmp pid) = some file →
      t.Kept file ∧ t.Complete render original (t.files.data file)) :
    Safe render original backup pid s t := by
  have hall : ∀ {q file}, t.Temp q file → t.files.names (.tmp q) = some file ∧
      (∀ name, t.files.names name = some file → name = .tmp q) ∧ file ∉ t.threw := by
    intro q file hq
    by_cases heq : q = pid
    · subst heq
      exact htemp file hq
    · exact other h hm heq hq
  refine ⟨hm, {
    temp := fun hq => (hall hq).1
    sole := fun hq => (hall hq).2.1 _
    temp_threw := fun hq => (hall hq).2.2
    threw_lt := ?_
    written := ?_
    content := ?_
    live := hlive
    bak := fun {_} => hbak _
    linked := ?_ }⟩
  · intro file hthrew
    rcases hm.threw file hthrew with hold | hown
    · exact (h.threw_lt file hold).trans_le hm.next_le
    · exact (Temp.lt h hown).trans_le hm.next_le
  · intro q d hd
    by_cases heq : q = pid
    · subst heq
      exact (hsaver d hd).1
    · rw [hm.savers heq] at hd
      refine (h.written hd).congr fun file hfile => ?_
      have hq : s.Temp q file := ⟨d, hd, hfile⟩
      exact hm.data (Temp.lt h hq) fun hown => heq (Temp.eq h hq hown)
  · intro q d hd
    by_cases heq : q = pid
    · subst heq
      exact (hsaver d hd).2
    · rw [hm.savers heq] at hd
      exact (h.content hd).mono hm.saves
  · intro q d own file hd hstage hname
    by_cases heq : q = pid
    · subst heq
      exact hlinked d own file hd hstage hname
    · rw [hm.savers heq] at hd
      rw [hm.bakTmp heq] at hname
      obtain ⟨hk, hcomplete⟩ := h.linked hd hstage hname
      obtain ⟨hk', hdata⟩ := hm.kept hk
      exact ⟨hk', hdata ▸ hcomplete.mono hm.saves⟩

/-- A step that leaves the names `live` and `bak` alone. -/
theorem aside (h : s.Consistent render original backup) (hm : s.Moves t pid)
    (hlive : t.files.names .live = s.files.names .live)
    (hbak : t.files.names .bak = s.files.names .bak)
    (htemp : ∀ file, t.Temp pid file → t.files.names (.tmp pid) = some file ∧
      (∀ name, t.files.names name = some file → name = .tmp pid) ∧ file ∉ t.threw)
    (hsaver : ∀ d, t.savers pid = some d → d.stage.Written d.content t.files.data ∧
      t.Complete render original d.content)
    (hlinked : ∀ d own file, t.savers pid = some d → d.stage = .renameBak own →
      t.files.names (.bakTmp pid) = some file →
      t.Kept file ∧ t.Complete render original (t.files.data file)) :
    Safe render original backup pid s t := by
  refine hm.safe h htemp hsaver ?_ ?_ hlinked
  · obtain ⟨file, hname, hk, hcomplete⟩ := h.live
    obtain ⟨hk', hdata⟩ := hm.kept hk
    exact ⟨file, hlive.trans hname, hk', hdata ▸ hcomplete.mono hm.saves⟩
  · intro file hname
    obtain ⟨hk, hcomplete⟩ := h.bak (hbak ▸ hname)
    obtain ⟨hk', hdata⟩ := hm.kept hk
    exact ⟨hk', hdata ▸ hcomplete.imp_left (·.mono hm.saves)⟩

end Moves

/-! ## The steps -/

@[simp] theorem savers_goOn_self {o : Option Saver} : (s.goOn pid o).savers pid = o :=
  Function.update_self ..

theorem savers_goOn_of_ne {o : Option Saver} {q : ℕ} (h : q ≠ pid) :
    (s.goOn pid o).savers q = s.savers q :=
  Function.update_of_ne h ..

/-- The process has removed names of its own, if anything. -/
structure Removes (pid : ℕ) (fs files : Files SaveName UInt8) : Prop where
  next : files.next = fs.next
  data : files.data = fs.data
  names : ∀ {name}, name ≠ .tmp pid → name ≠ .bakTmp pid → files.names name = fs.names name
  left : ∀ {name file}, files.names name = some file → fs.names name = some file

theorem Removes.refl (fs : Files SaveName UInt8) : Removes pid fs fs :=
  ⟨rfl, rfl, fun _ _ => rfl, fun h => h⟩

theorem Removes.tmp (fs : Files SaveName UInt8) : Removes pid fs (fs.unlink (.tmp pid)) :=
  ⟨rfl, rfl, fun htmp _ => Files.names_unlink_of_ne htmp, Files.names_unlink_eq_some⟩

theorem Removes.bakTmp (fs : Files SaveName UInt8) : Removes pid fs (fs.unlink (.bakTmp pid)) :=
  ⟨rfl, rfl, fun _ hbak => Files.names_unlink_of_ne hbak, Files.names_unlink_eq_some⟩

namespace Consistent

/-- A step that removes names at most. -/
theorem goOn {o : Option Saver} {files : Files SaveName UInt8} {saves : List AppConfig}
    {threw : List ℕ} (h : s.Consistent render original backup)
    (hremoves : Removes pid s.files files) (hsaves : s.saves ⊆ saves)
    (hthrew : ∀ file ∈ threw, file ∈ s.threw ∨ s.Temp pid file)
    (htemp : ∀ d file, o = some d → d.stage.file? = some file →
      s.Temp pid file ∧ files.names (.tmp pid) = some file ∧ file ∉ threw)
    (hsaver : ∀ d, o = some d → (d.stage.Written d.content s.files.data ∧
      ∀ own, d.stage ≠ .renameBak own) ∧
      Complete render original { s with saves := saves } d.content) :
    Safe render original backup pid s
      { s.goOn pid o with files := files, saves := saves, threw := threw } := by
  have ho : ∀ {d}, (s.goOn pid o).savers pid = some d → o = some d := fun hd =>
    savers_goOn_self.symm.trans hd
  have hm : s.Moves { s.goOn pid o with files := files, saves := saves, threw := threw } pid := {
    next_le := hremoves.next.ge
    savers := savers_goOn_of_ne
    saves := hsaves
    temp := fun ⟨d, hd, hfile⟩ => .inr (htemp d _ (ho hd) hfile).1
    threw := hthrew
    data := fun _ _ => congrFun hremoves.data _
    tmp := fun hq => hremoves.names (by simpa using hq) nofun
    bakTmp := fun hq => hremoves.names nofun (by simpa using hq)
    named := fun hname => .inr ⟨_, hremoves.left hname, .inl rfl⟩ }
  refine hm.aside h (hremoves.names nofun nofun) (hremoves.names nofun nofun) ?_ ?_ ?_
  · rintro file ⟨d, hd, hfile⟩
    obtain ⟨hown, hname, hnot⟩ := htemp d file (ho hd) hfile
    exact ⟨hname, fun _ hother => h.sole hown (hremoves.left hother), hnot⟩
  · intro d hd
    obtain ⟨⟨hwritten, -⟩, hcomplete⟩ := hsaver d (ho hd)
    exact ⟨hwritten.congr fun _ _ => congrFun hremoves.data _, hcomplete⟩
  · intro d own file hd hrename
    exact absurd hrename ((hsaver d (ho hd)).1.2 own)

/-- The call goes on with the same temporary file. -/
theorem goto {d : Saver} {stage : SaveStage} {files : Files SaveName UInt8}
    (h : s.Consistent render original backup) (hd : s.savers pid = some d)
    (hremoves : Removes pid s.files files)
    (hname : files.names (.tmp pid) = s.files.names (.tmp pid) ∨ stage.file? = none)
    (hfile : ∀ file, stage.file? = some file → d.stage.file? = some file)
    (hstage : stage.Written d.content s.files.data ∧ ∀ own, stage ≠ .renameBak own) :
    Safe render original backup pid s
      { s.goOn pid (some { d with stage := stage }) with files := files } := by
  refine h.goOn hremoves (List.Subset.refl _) (fun _ => .inl) ?_ ?_
  · rintro _ file ⟨⟩ hown
    have htemp : s.Temp pid file := ⟨d, hd, hfile file hown⟩
    refine ⟨htemp, ?_, h.temp_threw htemp⟩
    rcases hname with hname | hnone
    · exact hname.trans (h.temp htemp)
    · exact absurd (hown.symm.trans hnone) nofun
  · rintro _ ⟨⟩
    exact ⟨hstage, (h.content hd).mono (List.Subset.refl _)⟩

/-- The call returns, or the process dies. -/
theorem gone (h : s.Consistent render original backup) :
    Safe render original backup pid s (s.goOn pid none) :=
  h.goOn (.refl _) (List.Subset.refl _) (fun _ => .inl) nofun nofun

/-- The call throws. -/
theorem throws {files : Files SaveName UInt8} (h : s.Consistent render original backup)
    (htemp : s.Temp pid file) (hremoves : Removes pid s.files files) :
    Safe render original backup pid s
      { s.goOn pid none with files := files, threw := file :: s.threw } := by
  refine h.goOn hremoves (List.Subset.refl _) ?_ nofun nofun
  intro other hother
  rcases List.mem_cons.mp hother with rfl | hold
  · exact .inr htemp
  · exact .inl hold

/-- The temporary file is new. -/
theorem create {d : Saver} (h : s.Consistent render original backup)
    (hd : s.savers pid = some d) :
    Safe render original backup pid s
      { s.goOn pid (some { d with stage := .write s.files.next 0 }) with
        files := s.files.create (.tmp pid) } := by
  have hnew : ∀ {name file}, (s.files.create (.tmp pid)).names name = some file →
      (name = .tmp pid ∧ file = s.files.next) ∨ s.files.names name = some file := by
    intro name file hname
    by_cases heq : name = .tmp pid
    · rw [heq, Files.names_create_self] at hname
      exact .inl ⟨heq, (Option.some.inj hname).symm⟩
    · rw [Files.names_create_of_ne heq] at hname
      exact .inr hname
  have hown : ∀ {file}, Temp { s.goOn pid (some { d with stage := .write s.files.next 0 }) with
      files := s.files.create (.tmp pid) } pid file → file = s.files.next := by
    rintro file ⟨e, he, hfile⟩
    cases savers_goOn_self.symm.trans he
    exact (Option.some.inj hfile).symm
  have hm : s.Moves { s.goOn pid (some { d with stage := .write s.files.next 0 }) with
      files := s.files.create (.tmp pid) } pid := {
    next_le := Nat.le_succ _
    savers := savers_goOn_of_ne
    saves := List.Subset.refl _
    temp := fun htemp => .inl (hown htemp)
    threw := fun _ => .inl
    data := fun hlt _ => Function.update_of_ne hlt.ne ..
    tmp := fun hq => Files.names_create_of_ne (by simpa using hq)
    bakTmp := fun _ => Files.names_create_of_ne nofun
    named := fun hname => (hnew hname).imp (·.2) fun hold => ⟨_, hold, .inl rfl⟩ }
  refine hm.aside h (Files.names_create_of_ne nofun) (Files.names_create_of_ne nofun) ?_ ?_ ?_
  · intro file htemp
    obtain rfl := hown htemp
    refine ⟨Files.names_create_self, ?_, fun hthrew => lt_irrefl _ (h.threw_lt _ hthrew)⟩
    intro name hname
    rcases hnew hname with ⟨heq, -⟩ | hold
    · exact heq
    · exact absurd (s.files.names_lt _ _ hold) (lt_irrefl _)
  · intro e he
    cases savers_goOn_self.symm.trans he
    exact ⟨Files.data_create_self, (h.content hd).mono (List.Subset.refl _)⟩
  · intro e own file he hstage
    cases savers_goOn_self.symm.trans he
    cases hstage

/-- A part of the content is written. -/
theorem append {d : Saver} {done bytes : ℕ} (h : s.Consistent render original backup)
    (hd : s.savers pid = some d) (hstage : d.stage = .write file done) :
    Safe render original backup pid s
      { s.goOn pid (some { d with stage := .write file (done + bytes) }) with
        files := s.files.append file ((d.content.drop done).take bytes) } := by
  have htemp : s.Temp pid file := ⟨d, hd, by rw [hstage]; rfl⟩
  have hown : ∀ {other},
      Temp { s.goOn pid (some { d with stage := .write file (done + bytes) }) with
        files := s.files.append file ((d.content.drop done).take bytes) } pid other →
      other = file := by
    rintro other ⟨e, he, hfile⟩
    cases savers_goOn_self.symm.trans he
    exact (Option.some.inj hfile).symm
  have hm : s.Moves { s.goOn pid (some { d with stage := .write file (done + bytes) }) with
      files := s.files.append file ((d.content.drop done).take bytes) } pid := {
    next_le := le_rfl
    savers := savers_goOn_of_ne
    saves := List.Subset.refl _
    temp := fun hother => .inr (hown hother ▸ htemp)
    threw := fun _ => .inl
    data := by
      intro other _ hnot
      refine Function.update_of_ne ?_ ..
      rintro rfl
      exact hnot htemp
    tmp := fun _ => rfl
    bakTmp := fun _ => rfl
    named := fun hname => .inr ⟨_, hname, .inl rfl⟩ }
  refine hm.aside h rfl rfl ?_ ?_ ?_
  · intro other hother
    obtain rfl := hown hother
    exact ⟨h.temp htemp, fun _ => h.sole htemp, h.temp_threw htemp⟩
  · intro e he
    cases savers_goOn_self.symm.trans he
    have hdata : s.files.data file = d.content.take done := by
      have hwritten := h.written hd
      rwa [hstage] at hwritten
    refine ⟨?_, (h.content hd).mono (List.Subset.refl _)⟩
    show (s.files.append file _).data file = _
    rw [Files.data_append_self, hdata, List.take_add]
  · intro e own other he hrename
    cases savers_goOn_self.symm.trans he
    cases hrename

/-- The backup is a link to the settings file. -/
theorem link {d : Saver} {own : ℕ} {retry : Bool} (h : s.Consistent render original backup)
    (hd : s.savers pid = some d) (hstage : d.stage = .link own retry) :
    Safe render original backup pid s
      { s.goOn pid (some { d with stage := .renameBak own }) with
        files := s.files.link .live (.bakTmp pid) } := by
  have hold : ∀ {name file}, (s.files.link .live (.bakTmp pid)).names name = some file →
      ∃ old, s.files.names old = some file ∧ (old = name ∨ old = .live) := by
    intro name file hname
    by_cases heq : name = .bakTmp pid
    · rw [heq, Files.names_link_self] at hname
      exact ⟨_, hname, .inr rfl⟩
    · rw [Files.names_link_of_ne heq] at hname
      exact ⟨_, hname, .inl rfl⟩
  have hown : ∀ {file}, Temp { s.goOn pid (some { d with stage := .renameBak own }) with
      files := s.files.link .live (.bakTmp pid) } pid file → s.Temp pid file := by
    rintro file ⟨e, he, hfile⟩
    cases savers_goOn_self.symm.trans he
    exact ⟨d, hd, by rwa [hstage]⟩
  have hm : s.Moves { s.goOn pid (some { d with stage := .renameBak own }) with
      files := s.files.link .live (.bakTmp pid) } pid := {
    next_le := le_rfl
    savers := savers_goOn_of_ne
    saves := List.Subset.refl _
    temp := fun htemp => .inr (hown htemp)
    threw := fun _ => .inl
    data := fun _ _ => rfl
    tmp := fun _ => Files.names_link_of_ne nofun
    bakTmp := fun hq => Files.names_link_of_ne (by simpa using hq)
    named := by
      intro name file hname
      obtain ⟨old, hfile, rfl | rfl⟩ := hold hname
      · exact .inr ⟨_, hfile, .inl rfl⟩
      · exact .inr ⟨_, hfile, .inr fun _ _ => nofun⟩ }
  refine hm.aside h (Files.names_link_of_ne nofun) (Files.names_link_of_ne nofun) ?_ ?_ ?_
  · intro file htemp
    have htemp := hown htemp
    refine ⟨(Files.names_link_of_ne (by simp)).trans (h.temp htemp), ?_, h.temp_threw htemp⟩
    intro name hname
    obtain ⟨old, hfile, rfl | rfl⟩ := hold hname
    · exact h.sole htemp hfile
    · cases h.sole htemp hfile
  · intro e he
    cases savers_goOn_self.symm.trans he
    have hwritten := h.written hd
    rw [hstage] at hwritten
    exact ⟨hwritten, (h.content hd).mono (List.Subset.refl _)⟩
  · intro e own file he hrename hname
    obtain ⟨file', hlive, hk, hcomplete⟩ := h.live
    obtain rfl : file' = file :=
      Option.some.inj (hlive.symm.trans (Files.names_link_self.symm.trans hname))
    exact ⟨(hm.kept hk).1, hcomplete.mono (List.Subset.refl _)⟩

/-- What a process does when it renames a file of its own. -/
theorem moves_rename {o : Option Saver} {src dst : SaveName}
    (hsrc : src = .tmp pid ∨ src = .bakTmp pid) (hdst : dst = .live ∨ dst = .bak)
    (htemp : ∀ d file, o = some d → d.stage.file? = some file → s.Temp pid file) :
    s.Moves { s.goOn pid o with files := s.files.rename src dst } pid := by
  have hne : ∀ {q}, q ≠ pid → SaveName.tmp q ≠ src ∧ SaveName.bakTmp q ≠ src := by
    intro q hq
    rcases hsrc with rfl | rfl
    · exact ⟨by simpa using hq, nofun⟩
    · exact ⟨nofun, by simpa using hq⟩
  have hne' : ∀ {q}, SaveName.tmp q ≠ dst ∧ SaveName.bakTmp q ≠ dst := by
    intro q
    rcases hdst with rfl | rfl
    · exact ⟨nofun, nofun⟩
    · exact ⟨nofun, nofun⟩
  exact {
    next_le := Files.next_rename.ge
    savers := savers_goOn_of_ne
    saves := List.Subset.refl _
    temp := by
      rintro file ⟨d, hd, hfile⟩
      exact .inr (htemp d file (savers_goOn_self.symm.trans hd) hfile)
    threw := fun _ => .inl
    data := fun _ _ => congrFun Files.data_rename _
    tmp := fun hq => Files.names_rename_of_ne (hne hq).1 hne'.1
    bakTmp := fun hq => Files.names_rename_of_ne (hne hq).2 hne'.2
    named := by
      intro name file hname
      rcases Files.names_rename_eq_some hname with hold | hold
      · exact .inr ⟨_, hold, .inl rfl⟩
      · exact .inr ⟨_, hold, .inr fun q hq => (hne hq).1.symm⟩ }

/-- The backup is replaced. -/
theorem renameBak {d : Saver} {own : ℕ} (h : s.Consistent render original backup)
    (hd : s.savers pid = some d) (hstage : d.stage = .renameBak own) :
    Safe render original backup pid s
      { s.goOn pid (some { d with stage := .renameLive own }) with
        files := s.files.rename (.bakTmp pid) .bak } := by
  have htemp : s.Temp pid own := ⟨d, hd, by rw [hstage]; rfl⟩
  have hown : ∀ e file, some { d with stage := .renameLive own } = some e →
      e.stage.file? = some file → s.Temp pid file := by
    rintro _ file ⟨⟩ ⟨⟩
    exact htemp
  have hm := moves_rename (.inr rfl) (.inr rfl) hown
  refine hm.safe h ?_ ?_ ?_ ?_ ?_
  · rintro file ⟨e, he, hfile⟩
    have htemp := hown e file (savers_goOn_self.symm.trans he) hfile
    refine ⟨(Files.names_rename_of_ne (by simp) (by simp)).trans (h.temp htemp), ?_,
      h.temp_threw htemp⟩
    intro name hname
    rcases Files.names_rename_eq_some hname with hold | hold
    · exact h.sole htemp hold
    · cases h.sole htemp hold
  · intro e he
    cases savers_goOn_self.symm.trans he
    have hwritten := h.written hd
    rw [hstage] at hwritten
    exact ⟨(congrFun Files.data_rename _).trans hwritten,
      (h.content hd).mono (List.Subset.refl _)⟩
  · obtain ⟨file, hname, hk, hcomplete⟩ := h.live
    obtain ⟨hk', hdata⟩ := hm.kept hk
    exact ⟨file, (Files.names_rename_of_ne (by simp) (by simp)).trans hname, hk',
      hdata ▸ hcomplete.mono (List.Subset.refl _)⟩
  · intro file hname
    obtain ⟨hk, hcomplete⟩ := h.linked hd hstage (Files.names_rename_self.symm.trans hname)
    obtain ⟨hk', hdata⟩ := hm.kept hk
    exact ⟨hk', .inl (hdata ▸ hcomplete.mono (List.Subset.refl _))⟩
  · intro e own file he hrename
    cases savers_goOn_self.symm.trans he
    cases hrename

/-- **The settings file is replaced.** -/
theorem renameLive {d : Saver} {own : ℕ} (h : s.Consistent render original backup)
    (hd : s.savers pid = some d) (hstage : d.stage = .renameLive own) :
    Safe render original backup pid s
      { s.goOn pid (some { d with stage := .syncDir }) with
        files := s.files.rename (.tmp pid) .live } := by
  have htemp : s.Temp pid own := ⟨d, hd, by rw [hstage]; rfl⟩
  have hdata : s.files.data own = d.content := by
    have hwritten := h.written hd
    rwa [hstage] at hwritten
  have hm : s.Moves { s.goOn pid (some { d with stage := .syncDir }) with
      files := s.files.rename (.tmp pid) .live } pid := by
    refine moves_rename (.inl rfl) (.inl rfl) ?_
    rintro _ file ⟨⟩ ⟨⟩
  have hnone : ∀ {file}, ¬Temp { s.goOn pid (some { d with stage := .syncDir }) with
      files := s.files.rename (.tmp pid) .live } pid file := by
    rintro file ⟨e, he, hfile⟩
    cases savers_goOn_self.symm.trans he
    cases hfile
  refine hm.safe h (fun _ hown => absurd hown hnone) ?_ ?_ ?_ ?_
  · intro e he
    cases savers_goOn_self.symm.trans he
    exact ⟨trivial, (h.content hd).mono (List.Subset.refl _)⟩
  · refine ⟨own, Files.names_rename_self.trans (h.temp htemp), ⟨?_, ?_, h.temp_threw htemp⟩, ?_⟩
    · exact (Temp.lt h htemp).trans_le hm.next_le
    · intro q hq
      by_cases heq : q = pid
      · exact hnone (heq ▸ hq)
      · exact heq (Temp.eq h ((hm.temp_of_ne heq).mp hq) htemp)
    · show Complete render original _ ((s.files.rename _ _).data own)
      rw [Files.data_rename, hdata]
      exact (h.content hd).mono (List.Subset.refl _)
  · intro file hname
    rw [Files.names_rename_of_ne (by simp) (by simp)] at hname
    obtain ⟨hk, hcomplete⟩ := h.bak hname
    obtain ⟨hk', hdata⟩ := hm.kept hk
    exact ⟨hk', hdata ▸ hcomplete.imp_left (·.mono (List.Subset.refl _))⟩
  · intro e own file he hrename
    cases savers_goOn_self.symm.trans he
    cases hrename

/-- **Every call of `save_config` keeps the files consistent.** -/
theorem call {d : Saver} {answer : SaveAnswer} (h : s.Consistent render original backup)
    (hd : s.savers pid = some d) (hcall : s.call pid d answer = some t) :
    Safe render original backup pid s t := by
  have hwritten := h.written hd
  -- a call that leaves the files alone, or only takes the link of the backup away
  have hstay : ∀ {stage : SaveStage},
      (∀ file, stage.file? = some file → d.stage.file? = some file) →
      stage.Written d.content s.files.data → (∀ own, stage ≠ .renameBak own) →
      Safe render original backup pid s (s.goOn pid (some { d with stage := stage })) :=
    fun hfile hnext hstage => h.goto hd (.refl _) (.inl rfl) hfile ⟨hnext, hstage⟩
  have hremove : ∀ {stage : SaveStage},
      (∀ file, stage.file? = some file → d.stage.file? = some file) →
      stage.Written d.content s.files.data → (∀ own, stage ≠ .renameBak own) →
      Safe render original backup pid s { s.goOn pid (some { d with stage := stage }) with
        files := s.files.unlink (.bakTmp pid) } :=
    fun hfile hnext hstage =>
      h.goto hd (.bakTmp _) (.inl (Files.names_unlink_of_ne (by simp))) hfile ⟨hnext, hstage⟩
  unfold SaveFiles.call at hcall
  dsimp only at hcall
  split at hcall
  · -- the temporary file is created, or stands from an earlier crash of this pid
    rename_i retry hstage
    split at hcall
    · cases hcall
      exact h.create hd
    · cases hcall
      split_ifs
      · exact h.gone
      · exact hstay nofun trivial nofun
  · cases hcall
    exact h.gone
  · cases hcall
    exact h.goto hd (.tmp _) (.inr rfl) nofun ⟨trivial, nofun⟩
  · cases hcall
    exact hstay nofun trivial nofun
  · -- what has been written stays a prefix of the content
    rename_i file done bytes hstage
    split_ifs at hcall with hroom
    cases hcall
    exact h.append hd hstage
  · rename_i file done hstage
    split_ifs at hcall with hleft
    cases hcall
    exact hstay (by rw [hstage]; exact fun _ => id) trivial nofun
  · rename_i file done hstage
    split_ifs at hcall with hdone
    cases hcall
    rw [hstage] at hwritten
    -- all of it is in the file before the fsync, and from here on
    have hall : s.files.data file = d.content := by
      rw [hwritten, hdone, List.take_length]
    exact hstay (by rw [hstage]; exact fun _ => id) hall nofun
  · rename_i file hstage
    cases hcall
    rw [hstage] at hwritten
    exact hstay (by rw [hstage]; exact fun _ => id) hwritten nofun
  · rename_i file hstage
    cases hcall
    exact hstay (by rw [hstage]; exact fun _ => id) trivial nofun
  · rename_i file hstage
    cases hcall
    rw [hstage] at hwritten
    split_ifs
    · exact hstay (by rw [hstage]; exact fun _ => id) hwritten nofun
    · exact hstay (by rw [hstage]; exact fun _ => id) hwritten nofun
  · rename_i file hstage
    cases hcall
    rw [hstage] at hwritten
    exact hstay (by rw [hstage]; exact fun _ => id) hwritten nofun
  · rename_i file retry hstage
    rw [hstage] at hwritten
    split at hcall
    · cases hcall
      exact hstay (by rw [hstage]; exact fun _ => id) hwritten nofun
    · cases hcall
      -- the link is a second name of the file that the next rename replaces
      exact h.link hd hstage
    · cases hcall
      split_ifs
      · exact hstay (by rw [hstage]; exact fun _ => id) hwritten nofun
      · exact hstay (by rw [hstage]; exact fun _ => id) hwritten nofun
  · rename_i file retry hstage
    cases hcall
    rw [hstage] at hwritten
    exact hstay (by rw [hstage]; exact fun _ => id) hwritten nofun
  · rename_i file hstage
    cases hcall
    rw [hstage] at hwritten
    exact hremove (by rw [hstage]; exact fun _ => id) hwritten nofun
  · rename_i file hstage
    cases hcall
    rw [hstage] at hwritten
    exact hstay (by rw [hstage]; exact fun _ => id) hwritten nofun
  · rename_i file hstage
    cases hcall
    -- this name becomes the backup, of a configuration that was complete
    exact h.renameBak hd hstage
  · rename_i file hstage
    cases hcall
    rw [hstage] at hwritten
    exact hstay (by rw [hstage]; exact fun _ => id) hwritten nofun
  · rename_i file hstage
    cases hcall
    rw [hstage] at hwritten
    exact hremove (by rw [hstage]; exact fun _ => id) hwritten nofun
  · rename_i file hstage
    cases hcall
    rw [hstage] at hwritten
    exact hstay (by rw [hstage]; exact fun _ => id) hwritten nofun
  · rename_i file hstage
    cases hcall
    -- the only step that changes what a reader of the path sees
    exact h.renameLive hd hstage
  · rename_i file hstage
    cases hcall
    exact hstay (by rw [hstage]; exact fun _ => id) trivial nofun
  · rename_i file hstage
    cases hcall
    -- a save that throws leaves at most its temporary file
    exact h.throws ⟨d, hd, by rw [hstage]; rfl⟩ (.tmp _)
  · rename_i file hstage
    cases hcall
    exact h.throws ⟨d, hd, by rw [hstage]; rfl⟩ (.refl _)
  · cases hcall
    exact h.gone
  · cases hcall
    exact h.gone
  · cases hcall

theorem step {l : SaveStep} (h : s.Consistent render original backup)
    (hstep : s.step render l = some t) : ∃ pid, Safe render original backup pid s t := by
  cases l with
  | start pid cfg =>
      change (if _ then _ else _) = _ at hstep
      split_ifs at hstep
      split at hstep
      · cases hstep
        exact ⟨pid, h.goOn (.refl _) (List.subset_cons_self _ _) (fun _ => .inl) nofun nofun⟩
      · rename_i content hcontent
        cases hstep
        refine ⟨pid, h.goOn (.refl _) (List.subset_cons_self _ _) (fun _ => .inl) ?_ ?_⟩
        · rintro _ file ⟨⟩ ⟨⟩
        · rintro _ ⟨⟩
          exact ⟨⟨trivial, nofun⟩, .inr ⟨cfg, List.mem_cons_self, hcontent⟩⟩
  | call pid answer =>
      obtain ⟨d, hd, hcall⟩ := Option.bind_eq_some_iff.mp hstep
      exact ⟨pid, h.call hd hcall⟩
  | die pid =>
      obtain ⟨d, -, rfl⟩ := Option.map_eq_some_iff.mp hstep
      exact ⟨pid, h.gone⟩

theorem start (hstart : (machine render original backup).Start s) :
    s.Consistent render original backup := by
  obtain ⟨hlive, hbak, hsavers, -, hthrew⟩ := hstart
  have htemp : ∀ {pid file}, ¬s.Temp pid file := by
    rintro pid file ⟨d, hd, -⟩
    rw [hsavers] at hd
    cases hd
  have hsaver : ∀ {pid d}, ¬s.savers pid = some d := by
    intro pid d hd
    rw [hsavers] at hd
    cases hd
  have hkept : ∀ {name file}, s.files.names name = some file → s.Kept file := fun hname =>
    ⟨s.files.names_lt _ _ hname, fun _ => htemp, by rw [hthrew]; exact List.not_mem_nil⟩
  obtain ⟨file, hname, hdata⟩ := Option.map_eq_some_iff.mp hlive
  exact {
    temp := fun h => absurd h htemp
    sole := fun h => absurd h htemp
    temp_threw := fun h => absurd h htemp
    threw_lt := by
      rw [hthrew]
      exact nofun
    written := fun h => absurd h hsaver
    content := fun h => absurd h hsaver
    live := ⟨file, hname, hkept hname, .inl hdata⟩
    bak := by
      intro file hname
      refine ⟨hkept hname, .inr ?_⟩
      rw [← hbak, held, hname, Option.map_some]
    linked := fun h => absurd h hsaver }

theorem reachable (h : (machine render original backup).Reachable s) :
    s.Consistent render original backup :=
  h.invariant (fun _ => start) fun _ _ _ h _ hstep => (h.step hstep).elim fun _ => (·.consistent)

end Consistent

/-- A kept file stays as it is, however long the run. -/
theorem Kept.later (h : s.Consistent render original backup)
    (hst : (machine render original backup).Later s t) (hk : s.Kept file) :
    t.Kept file ∧ t.files.data file = s.files.data file := by
  have hall : t.Consistent render original backup ∧ t.Kept file ∧
      t.files.data file = s.files.data file := by
    induction hst with
    | refl => exact ⟨h, hk, rfl⟩
    | tail _ hstep ih =>
        obtain ⟨hmid, hk, hdata⟩ := ih
        obtain ⟨l, hl⟩ := hstep
        obtain ⟨pid, hsafe⟩ := hmid.step hl
        obtain ⟨hk', hdata'⟩ := hsafe.moves.kept hk
        exact ⟨hsafe.consistent, hk', hdata'.trans hdata⟩
  exact hall.2

/-- **`save_config` is atomic.**  A reader that opens the settings file at `s` and reads it
at any later `t` finds one complete content, which is not that of a call that throws; and
the backup is complete. -/
theorem save_config_atomic {Text : Type} (J : JsonText Text) (encode : Text → Bytes)
    (lim : Limits) (original : Bytes) (backup : Option Bytes) (s t : SaveFiles)
    (hs : (machine (saved J encode lim) original backup).Reachable s)
    (hst : (machine (saved J encode lim) original backup).Later s t) :
    (∃ file, s.files.names .live = some file ∧
      s.Complete (saved J encode lim) original (s.files.data file) ∧
      t.files.data file = s.files.data file ∧ file ∉ t.threw) ∧
    ∀ file, s.files.names .bak = some file →
      (s.Complete (saved J encode lim) original (s.files.data file) ∨
        backup = some (s.files.data file)) ∧
      t.files.data file = s.files.data file := by
  have h := Consistent.reachable hs
  constructor
  · obtain ⟨file, hname, hk, hcomplete⟩ := h.live
    obtain ⟨hk', hdata⟩ := hk.later h hst
    exact ⟨file, hname, hcomplete, hdata, hk'.threw⟩
  · intro file hname
    obtain ⟨hk, hcomplete⟩ := h.bak hname
    exact ⟨hcomplete, (hk.later h hst).2⟩

/-- The text of the default configuration. -/
def defaultText : Bytes :=
  bytes "\x7b\n    \"active_profile\": \"default\",\n    \"profiles\": [],\n" ++
    bytes "    \"use_raw_input\": true,\n    \"version\": \"1.2.8\"\n\x7d\n"

/-- A settings file, and nothing else. -/
def oneFile : SaveFiles where
  files :=
    { names := fun name => if name = .live then some 0 else none
      data := fun _ => bytes "old"
      next := 1
      names_lt := by
        intro name file h
        split at h
        · cases h
          exact Nat.zero_lt_one
        · cases h }
  savers := fun _ => none

/-- The process 7 saves, and every call succeeds. -/
def savesAlone : List SaveStep :=
  [.start 7 {}, .call 7 .ok, .call 7 (.wrote defaultText.length)] ++ List.replicate 6 (.call 7 .ok)

/-- A reader that has opened the old file reads it to its end. -/
theorem save_config_atomic_reader :
    ∃ t : SaveFiles, t.held .live = some defaultText ∧ t.held .bak = some (bytes "old") ∧
      ∃ file, oneFile.files.names .live = some file ∧ t.files.data file = bytes "old" := by
  have hexec : ((machine (saved JsonText.trees (fun _ => defaultText) Limits.documented)
      (bytes "old") none).exec (fun _ _ => True) oneFile savesAlone).any (fun t =>
        decide (t.held .live = some defaultText ∧ t.held .bak = some (bytes "old"))) = true := by
    decide +kernel
  obtain ⟨t, ht, hheld⟩ := (Option.any_eq_true _ _).mp hexec
  obtain ⟨hlive, hbak⟩ := of_decide_eq_true hheld
  obtain ⟨⟨file, hname, -, hdata, -⟩, -⟩ := save_config_atomic JsonText.trees
    (fun _ => defaultText) Limits.documented (bytes "old") none oneFile t
    (.start ⟨rfl, rfl, rfl, rfl, rfl⟩) (.exec ht)
  exact ⟨t, hlive, hbak, file, hname, hdata⟩

end SaveFiles
end AbrekMouse
