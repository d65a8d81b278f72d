import AbrekMouse.ConfigStore
import AbrekMouse.FileSystem
import AbrekMouse.Machine

/-! # Saving the settings file

`save_config` call by call: a temporary file is created, written and synced, the old file
is linked to the backup, and the new one is renamed over it.  Every system call is a step
that can fail, so the steps of any number of processes interleave, and a process can die
at any of them.

A reader takes no step of its own.  It holds the file that the path named when it opened
it, and finds there whatever the file holds when it reads it.
-/
namespace AbrekMouse
open ProgLib

/-! ## The names -/

/-- The files that `save_config` names. -/
inductive SaveName
  | live
  | bak
  | tmp (pid : ℕ)
  | bakTmp (pid : ℕ)
deriving DecidableEq

namespace SaveName

/-- The name in the directory. -/
def text (path : Bytes) : SaveName → Bytes
  | live => path
  | bak => path ++ bytes ".bak"
  | tmp pid => path ++ bytes "." ++ decimal pid ++ bytes ".tmp"
  | bakTmp pid => path ++ bytes "." ++ decimal pid ++ bytes ".bak.tmp"

end SaveName

theorem toNat_of_isDigit {c : Char} (hc : c.isDigit = true) : 0x30 ≤ c.toNat ∧ c.toNat ≤ 0x39 := by
  simp only [Char.isDigit, Bool.and_eq_true, decide_eq_true_eq] at hc
  exact hc

theorem isDigit_decimal {n : ℕ} : ∀ c ∈ decimal n, isDigit c = true := by
  intro b hb
  rw [decimal_eq] at hb
  obtain ⟨c, hc, rfl⟩ := List.mem_map.mp hb
  obtain ⟨hlow, hhigh⟩ := toNat_of_isDigit (Nat.isDigit_of_mem_toDigits (by decide) (by decide) hc)
  simp only [isDigit, Bool.and_eq_true, decide_eq_true_eq, UInt8.le_iff_toNat_le,
    UInt8.toNat_ofNat']
  have hval : c.toNat % 2 ^ 8 = c.toNat := Nat.mod_eq_of_lt (by omega)
  rw [hval]
  exact ⟨hlow, hhigh⟩

theorem decimal_injective : Function.Injective decimal := by
  intro m n h
  have hback : ∀ k, (decimal k).map (fun b => Char.ofNat b.toNat) = Nat.toDigits 10 k := by
    intro k
    rw [decimal_eq, List.map_map]
    refine (List.map_congr_left fun c hc => ?_).trans (List.map_id _)
    obtain ⟨-, hhigh⟩ := toNat_of_isDigit (Nat.isDigit_of_mem_toDigits (by decide) (by decide) hc)
    have hval : c.toNat % 2 ^ 8 = c.toNat := Nat.mod_eq_of_lt (by omega)
    simp only [Function.comp_apply, UInt8.toNat_ofNat', hval, Char.ofNat_toNat, id_eq]
  have hdigits : Nat.toDigits 10 m = Nat.toDigits 10 n := by rw [← hback, ← hback, h]
  rw [← Nat.ofDigitChars_ten_toDigits (n := m), hdigits, Nat.ofDigitChars_ten_toDigits]

/-- The digits of a number do not run into what follows. -/
theorem takeWhile_decimal (n : ℕ) (r : Bytes) :
    (decimal n ++ 0x2E :: r).takeWhile isDigit = decimal n := by
  rw [List.takeWhile_append_of_pos isDigit_decimal, List.takeWhile_cons_of_neg (by decide),
    List.append_nil]

theorem decimal_ne_nil {n : ℕ} : decimal n ≠ [] := by
  rw [decimal_eq]
  exact fun h => Nat.toDigits_ne_nil (List.map_eq_nil_iff.mp h)

/-- **No two of the names are the same file name.** -/
theorem SaveName.text_injective (path : Bytes) : Function.Injective (text path) := by
  have hbak : text path bak = path ++ 0x2E :: bytes "bak" := rfl
  have htmp : ∀ pid, text path (tmp pid) =
      path ++ 0x2E :: (decimal pid ++ 0x2E :: bytes "tmp") := by
    intro pid
    rw [text, List.append_assoc, List.append_assoc]
    rfl
  have hbakTmp : ∀ pid, text path (bakTmp pid) =
      path ++ 0x2E :: (decimal pid ++ 0x2E :: bytes "bak.tmp") := by
    intro pid
    rw [text, List.append_assoc, List.append_assoc]
    rfl
  have hlive : ∀ rest : Bytes, path ≠ path ++ 0x2E :: rest := fun rest h =>
    absurd (congrArg List.length h) (by simp)
  have hdot : ∀ {r r' : Bytes}, path ++ 0x2E :: r = path ++ 0x2E :: r' → r = r' := fun h =>
    (List.cons.inj (List.append_cancel_left h)).2
  have hnumber : ∀ n rest, bytes "bak" ≠ decimal n ++ 0x2E :: rest := by
    intro n rest h
    have hnil := congrArg (List.takeWhile isDigit) h
    rw [takeWhile_decimal] at hnil
    exact decimal_ne_nil hnil.symm
  have hpid : ∀ {m n rest rest'}, decimal m ++ 0x2E :: rest = decimal n ++ 0x2E :: rest' →
      m = n ∧ rest = rest' := by
    intro m n rest rest' h
    have hdigits := congrArg (List.takeWhile isDigit) h
    rw [takeWhile_decimal, takeWhile_decimal] at hdigits
    obtain rfl := decimal_injective hdigits
    exact ⟨rfl, (List.cons.inj (List.append_cancel_left h)).2⟩
  intro a b h
  cases a with
  | live =>
      cases b with
      | live => rfl
      | bak => exact absurd (h.trans hbak) (hlive _)
      | tmp n => exact absurd (h.trans (htmp n)) (hlive _)
      | bakTmp n => exact absurd (h.trans (hbakTmp n)) (hlive _)
  | bak =>
      rw [hbak] at h
      cases b with
      | live => exact absurd h.symm (hlive _)
      | bak => rfl
      | tmp n => exact absurd (hdot (h.trans (htmp n))) (hnumber _ _)
      | bakTmp n => exact absurd (hdot (h.trans (hbakTmp n))) (hnumber _ _)
  | tmp m =>
      rw [htmp] at h
      cases b with
      | live => exact absurd h.symm (hlive _)
      | bak => exact absurd (hdot (h.trans hbak)).symm (hnumber _ _)
      | tmp n => exact congrArg tmp (hpid (hdot (h.trans (htmp n)))).1
      | bakTmp n => exact absurd (hpid (hdot (h.trans (hbakTmp n)))).2 (by decide)
  | bakTmp m =>
      rw [hbakTmp] at h
      cases b with
      | live => exact absurd h.symm (hlive _)
      | bak => exact absurd (hdot (h.trans hbak)).symm (hnumber _ _)
      | tmp n => exact absurd (hpid (hdot (h.trans (htmp n)))).2 (by decide)
      | bakTmp n => exact congrArg bakTmp (hpid (hdot (h.trans (hbakTmp n)))).1

/-! ## The calls -/

/-- Where a call of `save_config` is; `file` is the temporary file it has created. -/
inductive SaveStage
  | openTmp (retry : Bool)
  | unlinkStale
  | write (file done : ℕ)
  | fsync (file : ℕ)
  | exists (file : ℕ)
  | link (file : ℕ) (retry : Bool)
  | removeStale (file : ℕ)
  | renameBak (file : ℕ)
  | removeBakTmp (file : ℕ)
  | renameLive (file : ℕ)
  /-- A call has failed: the temporary file is removed, and the error thrown. -/
  | removeTmp (file : ℕ)
  | syncDir

namespace SaveStage

/-- The temporary file, as long as it is one. -/
def file? : SaveStage → Option ℕ
  | write file _ | fsync file | .exists file | link file _ | removeStale file | renameBak file
  | removeBakTmp file | renameLive file | removeTmp file => some file
  | openTmp _ | unlinkStale | syncDir => none

end SaveStage

/-- A process inside `save_config`, with the text that it saves. -/
structure Saver where
  content : Bytes
  stage : SaveStage

/-- What a system call answers; a `write` may write less than it was given. -/
inductive SaveAnswer
  | ok
  | failed
  | wrote (bytes : ℕ)

/-- A save begins, a system call of one is answered, or a process dies. -/
inductive SaveStep
  | start (pid : ℕ) (cfg : AppConfig)
  | call (pid : ℕ) (answer : SaveAnswer)
  | die (pid : ℕ)

/-- The files, the processes that are saving, and what they were asked to save. -/
structure SaveFiles where
  files : Files SaveName UInt8
  savers : ℕ → Option Saver
  /-- The configurations that were given to `save_config`. -/
  saves : List AppConfig := []
  /-- The temporary files of calls that have thrown. -/
  threw : List ℕ := []

namespace SaveFiles
variable (render : AppConfig → Except ConfigError Bytes) (s : SaveFiles)

/-- The process goes on, or is out of `save_config`. -/
def goOn (pid : ℕ) (d : Option Saver) : SaveFiles :=
  { s with savers := Function.update s.savers pid d }

/-- A system call of `save_config`. -/
def call (pid : ℕ) (d : Saver) (answer : SaveAnswer) : Option SaveFiles :=
  let goto (stage : SaveStage) := s.goOn pid (some { d with stage := stage })
  match d.stage, answer with
  | .openTmp retry, .ok =>
      match s.files.names (.tmp pid) with
      | none =>
          some { goto (.write s.files.next 0) with files := s.files.create (.tmp pid) }
      -- `EEXIST`
      | some _ => some (if retry then s.goOn pid none else goto .unlinkStale)
  | .openTmp _, .failed => some (s.goOn pid none)
  | .unlinkStale, .ok =>
      some { goto (.openTmp true) with files := s.files.unlink (.tmp pid) }
  | .unlinkStale, .failed => some (goto (.openTmp true))
  | .write file done, .wrote bytes =>
      if done < d.content.length ∧ done + bytes ≤ d.content.length then
        some { goto (.write file (done + bytes)) with
          files := s.files.append file ((d.content.drop done).take bytes) }
      else none
  -- the temporary file goes, and the configuration stays what it was
  | .write file done, .failed =>
      if done < d.content.length then some (goto (.removeTmp file)) else none
  | .write file done, .ok =>
      if done = d.content.length then some (goto (.fsync file)) else none
  | .fsync file, .ok => some (goto (.exists file))
  | .fsync file, .failed => some (goto (.removeTmp file))
  | .exists file, .ok =>
      some (goto (if (s.files.names .live).isSome then .link file false else .renameLive file))
  -- the backup is not needed for the save: a failure of it is passed over
  | .exists file, .failed => some (goto (.renameLive file))
  | .link file retry, .ok =>
      match s.files.names .live, s.files.names (.bakTmp pid) with
      | none, _ => some (goto (.renameLive file))
      | some _, none =>
          some { goto (.renameBak file) with files := s.files.link .live (.bakTmp pid) }
      -- `EEXIST`
      | some _, some _ => some (goto (if retry then .renameLive file else .removeStale file))
  | .link file _, .failed => some (goto (.renameLive file))
  | .removeStale file, .ok =>
      some { goto (.link file true) with files := s.files.unlink (.bakTmp pid) }
  | .removeStale file, .failed => some (goto (.link file true))
  | .renameBak file, .ok =>
      some { goto (.renameLive file) with files := s.files.rename (.bakTmp pid) .bak }
  | .renameBak file, .failed => some (goto (.removeBakTmp file))
  | .removeBakTmp file, .ok =>
      some { goto (.renameLive file) with files := s.files.unlink (.bakTmp pid) }
  | .removeBakTmp file, .failed => some (goto (.renameLive file))
  -- the new configuration takes the place of the old one
  | .renameLive _, .ok =>
      some { goto .syncDir with files := s.files.rename (.tmp pid) .live }
  | .renameLive file, .failed => some (goto (.removeTmp file))
  | .removeTmp file, .ok =>
      some { s.goOn pid none with
        files := s.files.unlink (.tmp pid), threw := file :: s.threw }
  | .removeTmp file, .failed => some { s.goOn pid none with threw := file :: s.threw }
  | .syncDir, .ok | .syncDir, .failed => some (s.goOn pid none)
  | _, _ => none

/-- The content is what `render` gives; without one, `save_config` throws. -/
def start (pid : ℕ) (cfg : AppConfig) : Option SaveFiles :=
  if (s.savers pid).isNone then
    match render cfg with
    | .error _ => some { s.goOn pid none with saves := cfg :: s.saves }
    | .ok content =>
        some { s.goOn pid (some { content := content, stage := .openTmp false }) with
          saves := cfg :: s.saves }
  else none

/-- A process that is gone leaves its files as they are. -/
def step : SaveStep → Option SaveFiles
  | .start pid cfg => s.start render pid cfg
  | .call pid answer => (s.savers pid).bind fun d => s.call pid d answer
  | .die pid => (s.savers pid).map fun _ => s.goOn pid none

/-- What the file holds that has the name. -/
def held (name : SaveName) : Option Bytes := (s.files.names name).map s.files.data

/-- The bytes that `save_config` writes for a configuration. -/
def saved {Text : Type} (J : JsonText Text) (encode : Text → Bytes) (lim : Limits)
    (cfg : AppConfig) : Except ConfigError Bytes :=
  (savedContent J lim cfg).map encode

/-- The settings file holds `original`, and no process saves yet.  There may be any other
files, as earlier processes left them. -/
def machine (original : Bytes) (backup : Option Bytes) : Machine SaveFiles SaveStep where
  Start s := s.held .live = some original ∧ s.held .bak = backup ∧
    s.savers = (fun _ => none) ∧ s.saves = [] ∧ s.threw = []
  step s l := s.step render l

end SaveFiles
end AbrekMouse
