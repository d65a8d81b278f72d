import AbrekMouse.FileSystem
import AbrekMouse.Machine
import AbrekMouse.Migrate
import Mathlib.Data.Nat.Digits.Lemmas

/-! # Pid files

A daemon that starts looks at the candidate pid files for a live one, then creates the
first candidate that it can create.  Where it can create none, it removes the first file
that is stale, and tries once more.  Every system call is a step and can fail, the steps of
any number of daemons interleave, and a daemon can die at any of them.

A pid belongs to a daemon of the model, or to some other process or to none.  Of a
daemon `kill` and `/proc` say that it lives; what they say of the others is an input.
-/
namespace AbrekMouse
open ProgLib

/-! ## The text of a pid file -/

/-- `snprintf` of a pid with its newline. -/
def pidText (pid : ℕ) : Bytes :=
  (Nat.digits 10 pid).reverse.map (fun d => UInt8.ofNat (0x30 + d)) ++ [0x0A]

/-- The digits behind the sign; a negative number is of no use. -/
def signedDigits : Bytes → Bytes
  | [] => []
  | c :: rest =>
      if c = 0x2D then [] else (if c = 0x2B then rest else c :: rest).takeWhile isDigit

/-- `strtol` and the checks behind it: a pid, if the text begins with one. -/
def recordedPid (buf : Bytes) : Option ℕ :=
  let digits := signedDigits (buf.dropWhile isSpace)
  if decimalValue digits ≤ 0 ∨ (decimalValue digits : ℤ) > intMax then none
  else some (decimalValue digits)

/-- The buffer of a `read`. -/
def pidBuf (content : Bytes) : Bytes := content.take 31

/-! ## A daemon that starts -/

/-- The next call of `pid_file_is_live` about a pid. -/
inductive ProbeCall | kill | comm | stopped

/-- The next call of `try_clear_stale` about a pid. -/
inductive ClearCall | kill | killStopped | commStopped | stopped | killComm | comm

/-- Where a daemon is; `paths` are the candidates that it still has to go through. -/
inductive Stage (Path : Type)
  | probeOpen (paths : List Path)
  | probeRead (file : ℕ) (paths : List Path)
  | probe (call : ProbeCall) (pid : ℕ) (paths : List Path)
  | create (retry : Bool) (paths : List Path)
  | write (retry : Bool) (path : Path) (file done : ℕ) (paths : List Path)
  /-- A write has failed. -/
  | unlinkOwn (retry : Bool) (path : Path) (paths : List Path)
  | clearOpen (paths : List Path)
  | clearRead (path : Path) (file : ℕ) (paths : List Path)
  | clear (call : ClearCall) (path : Path) (pid : ℕ) (paths : List Path)
  /-- The file counts as removed, or only if it could be. -/
  | unlinkStale (counts : Bool) (path : Path) (paths : List Path)
  | running (path : Path)

namespace Stage
variable {Path : Type}

/-- The daemon has created a pid file. -/
def made : Stage Path → Bool
  | write .. | unlinkOwn .. | running _ => true
  | _ => false

end Stage

/-- A daemon that is starting, running or ending. -/
structure Starter (Path : Type) where
  stage : Stage Path
  /-- When it began to look for others. -/
  began : ℕ
  /-- When its pid file was complete. -/
  finished : ℕ := 0

/-- `kill(pid, 0)`. -/
inductive KillResult | ok | eperm | esrch
deriving DecidableEq

/-- `comm_state`. -/
inductive CommState | ours | other | unreadable
deriving DecidableEq

/-- What a system call answers. -/
inductive Answer
  | ok
  | failed
  | wrote (bytes : ℕ)
  | kill (r : KillResult)
  | comm (c : CommState)
  | stopped (b : Bool)

/-- A daemon starts, a system call of one is answered, or one dies. -/
inductive PidStep
  | start (pid : ℕ)
  | call (pid : ℕ) (answer : Answer)
  | die (pid : ℕ)

/-- The pid files, the daemons by their pids, and a clock that every step moves. -/
structure PidFiles (Path : Type) where
  files : Files Path UInt8
  procs : ℕ → Option (Starter Path)
  clock : ℕ := 0

namespace PidFiles
variable {Path : Type} [DecidableEq Path] (candidates : List Path) (s : PidFiles Path)

/-- The process goes on at the stage, or exits. -/
def goOn (pid : ℕ) (d : Option (Starter Path)) : PidFiles Path :=
  { s with procs := Function.update s.procs pid d, clock := s.clock + 1 }

/-- Of a daemon that lives the answers say so. -/
def Truthful (pid : ℕ) : Answer → Prop
  | .kill r => (s.procs pid).isSome → r ≠ .esrch
  | .comm c => (s.procs pid).isSome → c ≠ .other
  | .stopped b => (s.procs pid).isSome → b = false
  | _ => True

instance (pid : ℕ) : ∀ answer, Decidable (s.Truthful pid answer)
  | .kill r => inferInstanceAs (Decidable ((s.procs pid).isSome → r ≠ .esrch))
  | .comm c => inferInstanceAs (Decidable ((s.procs pid).isSome → c ≠ .other))
  | .stopped b => inferInstanceAs (Decidable ((s.procs pid).isSome → b = false))
  | .ok | .failed | .wrote _ => inferInstanceAs (Decidable True)

/-- `pid_file_is_live`, once it has a pid: the next stage, or none where the daemon
refuses to start. -/
def probeCall (pid : ℕ) (paths : List Path) : ProbeCall → Answer → Option (Option (Stage Path))
  | .kill, .kill .ok => some (some (.probe .comm pid paths))
  -- a process of another user may be the daemon
  | .kill, .kill .eperm => some none
  | .kill, .kill .esrch => some (some (.probeOpen paths))
  | .comm, .comm .ours => some (some (.probe .stopped pid paths))
  | .comm, .comm .other => some (some (.probeOpen paths))
  -- in doubt it is
  | .comm, .comm .unreadable => some none
  | .stopped, .stopped b => some (if b then some (.probeOpen paths) else none)
  | _, _ => none

/-- `try_clear_stale`, once it has a pid. -/
def clearCall (path : Path) (pid : ℕ) (paths : List Path) : ClearCall → Answer → Option (Stage Path)
  | .kill, .kill r =>
      some (if r = .esrch then .unlinkStale true path paths
        else .clear .killStopped path pid paths)
  | .killStopped, .kill r =>
      some (.clear (if r = .ok then .commStopped else .killComm) path pid paths)
  | .commStopped, .comm c =>
      some (.clear (if c = .ours then .stopped else .killComm) path pid paths)
  | .stopped, .stopped b =>
      some (if b then .unlinkStale true path paths else .clear .killComm path pid paths)
  | .killComm, .kill r =>
      some (if r = .ok then .clear .comm path pid paths else .clearOpen paths)
  | .comm, .comm c =>
      some (if c = .other then .unlinkStale true path paths else .clearOpen paths)
  | _, _ => none

/-- A system call of a daemon, or a step between two. -/
def call (pid : ℕ) (d : Starter Path) (answer : Answer) : Option (PidFiles Path) :=
  let goto (stage : Stage Path) := s.goOn pid (some { d with stage := stage })
  match d.stage, answer with
  -- no candidate names a live daemon
  | .probeOpen [], .ok => some (goto (.create false candidates))
  | .probeOpen (path :: paths), .ok =>
      match s.files.names path with
      | none => some (goto (.probeOpen paths))
      | some file => some (goto (.probeRead file paths))
  -- a file that does not open, or cannot be read, counts as that of no live daemon
  | .probeOpen (_ :: paths), .failed => some (goto (.probeOpen paths))
  | .probeRead _ paths, .failed => some (goto (.probeOpen paths))
  | .probeRead file paths, .ok =>
      match recordedPid (pidBuf (s.files.data file)) with
      | none => some (goto (.probeOpen paths))
      | some other => some (goto (.probe .kill other paths))
  | .probe next other paths, answer =>
      if s.Truthful other answer then
        match probeCall other paths next answer with
        | some (some stage) => some (goto stage)
        | some none => some (s.goOn pid none)
        | none => none
      else none
  -- all candidates are taken or cannot be created; the stale ones go, once
  | .create retry [], .ok =>
      some (if retry then s.goOn pid none else goto (.clearOpen candidates))
  -- `O_CREAT | O_EXCL`
  | .create retry (path :: paths), .ok =>
      match s.files.names path with
      | none =>
          some { goto (.write retry path s.files.next 0 paths) with files := s.files.create path }
      | some _ => some (goto (.create retry paths))
  | .create retry (_ :: paths), .failed => some (goto (.create retry paths))
  -- a short write goes on where it has stopped
  | .write retry path file done paths, .wrote bytes =>
      if 0 < bytes ∧ done + bytes ≤ (pidText pid).length then
        let stage := if done + bytes = (pidText pid).length then .running path
          else .write retry path file (done + bytes) paths
        some { s.goOn pid (some { d with stage := stage, finished := s.clock }) with
          files := s.files.append file (((pidText pid).drop done).take bytes) }
      else none
  | .write retry path _ _ paths, .failed => some (goto (.unlinkOwn retry path paths))
  | .unlinkOwn retry path paths, .ok =>
      some { goto (.create retry paths) with files := s.files.unlink path }
  | .unlinkOwn retry _ paths, .failed => some (goto (.create retry paths))
  | .clearOpen [], .ok => some (s.goOn pid none)
  | .clearOpen (path :: paths), .ok =>
      match s.files.names path with
      | none => some (goto (.clearOpen paths))
      | some file => some (goto (.clearRead path file paths))
  | .clearOpen (_ :: paths), .failed => some (goto (.clearOpen paths))
  -- nothing read: as an empty file, which no live daemon has
  | .clearRead path _ paths, .failed => some (goto (.unlinkStale false path paths))
  | .clearRead path file paths, .ok =>
      match recordedPid (pidBuf (s.files.data file)) with
      | none => some (goto (.unlinkStale false path paths))
      | some other => some (goto (.clear .kill path other paths))
  | .clear next path other paths, answer =>
      if s.Truthful other answer then (clearCall path other paths next answer).map goto else none
  | .unlinkStale _ path _, .ok =>
      if (s.files.names path).isSome then
        some { goto (.create true candidates) with files := s.files.unlink path }
      else none
  | .unlinkStale counts _ paths, .failed =>
      some (goto (if counts then .create true candidates else .clearOpen paths))
  -- `remove_pid`, at the end of `main`
  | .running path, .ok => some { s.goOn pid none with files := s.files.unlink path }
  | _, _ => none

/-- A pid that is in use does not start again. -/
def step : PidStep → Option (PidFiles Path)
  | .start pid =>
      if (s.procs pid).isNone ∧ 0 < pid ∧ (pid : ℤ) ≤ intMax then
        some (s.goOn pid (some { stage := .probeOpen candidates, began := s.clock }))
      else none
  | .call pid answer => (s.procs pid).bind fun d => s.call candidates pid d answer
  | .die pid => (s.procs pid).map fun _ => s.goOn pid none

/-- No daemon has started, and the files are whatever they are. -/
def machine : Machine (PidFiles Path) PidStep where
  Start s := s.procs = fun _ => none
  step s l := s.step candidates l

/-- The daemon is past its pid file. -/
def Runs (pid : ℕ) : Prop := (s.procs pid).any (fun d => d.stage matches .running _) = true

instance (pid : ℕ) : Decidable (s.Runs pid) := inferInstanceAs (Decidable (_ = true))

/-! ## Starts that keep apart -/

/-- The stages whose call takes a name or gives one up. -/
def takes : Stage Path → Prop
  | .create _ (path :: _) => s.files.names path = none
  | .unlinkStale .. => True
  | _ => False

/-- The stages whose call opens or reads the pid file of the path, to see whether its
daemon lives. -/
def looksAt (path : Path) : Stage Path → Prop
  | .probeOpen (next :: _) => next = path
  | .probeRead file _ => s.files.names path = some file
  | _ => False

/-- A daemon creates a pid file, or removes one as stale, only where every other daemon
that has created one had it complete before the first began to look.  And the open or the
read of a pid file fails a daemon that looks for others only where no daemon runs that had
the file complete before the look. -/
def Apart (s : PidFiles Path) : PidStep → Prop
  | .call pid .ok => ∀ d, s.procs pid = some d → s.takes d.stage →
      ∀ other e, other ≠ pid → s.procs other = some e → e.stage.made = true →
        (∃ path, e.stage = .running path) ∧ e.finished < d.began
  | .call pid .failed => ∀ d, s.procs pid = some d →
      ∀ other e path, other ≠ pid → s.procs other = some e → e.stage = .running path →
        s.looksAt path d.stage → d.began ≤ e.finished
  | _ => True

end PidFiles

/-! ## What a daemon sees -/

/-- The bytes of decimal digits, the lowest first. -/
def digitBytes (ds : List ℕ) : Bytes := ds.map fun d => UInt8.ofNat (0x30 + d)

theorem toNat_digit {d : ℕ} (hd : d < 10) : (UInt8.ofNat (0x30 + d)).toNat = 0x30 + d := by
  rw [UInt8.toNat_ofNat']
  omega

theorem decimalValue_digitBytes {ds : List ℕ} (hds : ∀ d ∈ ds, d < 10) :
    decimalValue (digitBytes ds).reverse = Nat.ofDigits 10 ds := by
  unfold decimalValue
  rw [List.foldl_reverse]
  induction ds with
  | nil => rfl
  | cons d ds ih =>
      have hd := hds d List.mem_cons_self
      have hrest := ih fun e he => hds e (List.mem_cons_of_mem _ he)
      rw [digitBytes, List.map_cons, List.foldr_cons, ← digitBytes, hrest, Nat.ofDigits_cons,
        toNat_digit hd]
      omega

theorem isDigit_digitBytes {ds : List ℕ} (hds : ∀ d ∈ ds, d < 10) :
    ∀ c ∈ (digitBytes ds).reverse, isDigit c = true := by
  intro c hc
  obtain ⟨d, hd, rfl⟩ := List.mem_map.mp (List.mem_reverse.mp hc)
  have hval := toNat_digit (hds d hd)
  have hlt := hds d hd
  simp only [isDigit, Bool.and_eq_true, decide_eq_true_eq, UInt8.le_iff_toNat_le, hval]
  exact ⟨Nat.le_add_right _ _, by show 0x30 + d ≤ 0x39; omega⟩

/-- A digit is not taken for a blank or a sign. -/
theorem digit_first {c : UInt8} (hc : isDigit c = true) :
    isSpace c = false ∧ c ≠ 0x2D ∧ c ≠ 0x2B := by
  obtain ⟨hlow, hhigh⟩ := (Bool.and_eq_true _ _).mp hc
  have hlow : (0x30 : UInt8) ≤ c := of_decide_eq_true hlow
  refine ⟨?_, ?_, ?_⟩
  · have hblank : c ≠ 0x20 := fun h => absurd (h ▸ hlow) (by decide)
    have hrange : ¬c ≤ 0x0D := fun h => absurd (UInt8.le_trans hlow h) (by decide)
    simp [isSpace, hblank, hrange]
  · exact fun h => absurd (h ▸ hlow) (by decide)
  · exact fun h => absurd (h ▸ hlow) (by decide)

/-- **A pid file that is complete names its daemon.** -/
theorem recordedPid_pidText {pid : ℕ} (hpos : 0 < pid) (hmax : (pid : ℤ) ≤ intMax) :
    recordedPid (pidBuf (pidText pid)) = some pid := by
  have hds : ∀ d ∈ Nat.digits 10 pid, d < 10 := fun d hd => Nat.digits_lt_base (by decide) hd
  have hlength : (Nat.digits 10 pid).length ≤ 10 := by
    rw [Nat.digits_length_le_iff (by decide)]
    have hint : (intMax : ℤ) = 2147483647 := rfl
    omega
  have htext : pidText pid = (digitBytes (Nat.digits 10 pid)).reverse ++ [0x0A] := by
    rw [pidText, digitBytes, List.map_reverse]
  have hbuf : pidBuf (pidText pid) = pidText pid := by
    refine List.take_of_length_le ?_
    rw [htext, List.length_append, List.length_reverse, digitBytes, List.length_map]
    exact (Nat.add_le_add_right hlength 1).trans (by decide)
  have hvalue : decimalValue (digitBytes (Nat.digits 10 pid)).reverse = pid := by
    rw [decimalValue_digitBytes hds, Nat.ofDigits_digits]
  have hdigits := isDigit_digitBytes hds
  have hdecimal : decimalValue (digitBytes (Nat.digits 10 pid)).reverse ≠ 0 := by
    rw [hvalue]
    omega
  rw [hbuf, htext]
  generalize (digitBytes (Nat.digits 10 pid)).reverse = digits at hvalue hdigits hdecimal
  cases digits with
  | nil => exact absurd rfl hdecimal
  | cons c digits =>
      obtain ⟨hblank, hminus, hplus⟩ := digit_first (hdigits c List.mem_cons_self)
      have htake : (c :: digits ++ [0x0A]).takeWhile isDigit = c :: digits := by
        rw [List.takeWhile_append_of_pos hdigits]
        exact List.append_nil _
      unfold recordedPid
      rw [List.cons_append, List.dropWhile_cons_of_neg (by simp [hblank]), signedDigits,
        if_neg hminus, if_neg hplus, ← List.cons_append, htake]
      simp only [hvalue]
      rw [if_neg (not_or.mpr ⟨by omega, not_lt.mpr hmax⟩)]

end AbrekMouse
