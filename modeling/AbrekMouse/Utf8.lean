import Mathlib.Data.List.Basic

/-! # UTF-8 byte strings

A byte string is checked by the automaton of the well-formed byte sequences of
Unicode: a lead byte fixes how many trail bytes follow and the range of the first
one, which leaves out overlong forms, surrogates and anything past U+10FFFF.

The main result says where a well-formed string may be cut: a prefix is well formed
exactly when the byte after it does not continue a character (`valid_take`).
-/
namespace ProgLib

/-- The bytes of a `std::string`. -/
abbrev Bytes := List UInt8

/-- The bytes of an ASCII literal. -/
def bytes (s : String) : Bytes := s.toList.map fun c => UInt8.ofNat c.toNat

instance (s : Bytes) (l : List Bytes) : Decidable (s ∈ l) := inferInstance

namespace Utf8

/-- Where the automaton stands: between characters, or before a trail byte that
must lie in a range and `more` further ones. -/
inductive State
  | accept
  | trail (lo hi : UInt8) (more : ℕ)
deriving DecidableEq

/-- A byte that continues a character. -/
def isContinuation (b : UInt8) : Bool := 0x80 ≤ b && b ≤ 0xBF

/-- One byte; `none` rejects. -/
def step : State → UInt8 → Option State
  | .accept, b =>
      if b < 0x80 then some .accept
      else if b < 0xC2 then none
      else if b ≤ 0xDF then some (.trail 0x80 0xBF 0)
      else if b = 0xE0 then some (.trail 0xA0 0xBF 1)
      else if b = 0xED then some (.trail 0x80 0x9F 1)
      else if b ≤ 0xEF then some (.trail 0x80 0xBF 1)
      else if b = 0xF0 then some (.trail 0x90 0xBF 2)
      else if b ≤ 0xF3 then some (.trail 0x80 0xBF 2)
      else if b = 0xF4 then some (.trail 0x80 0x8F 2)
      else none
  | .trail lo hi more, b =>
      if lo ≤ b ∧ b ≤ hi then
        match more with
        | 0 => some .accept
        | m + 1 => some (.trail 0x80 0xBF m)
      else none

def run : State → Bytes → Option State
  | st, [] => some st
  | st, b :: s => (step st b).bind (run · s)

/-- The well-formed byte strings. -/
def valid (s : Bytes) : Bool := run .accept s = some .accept

/-- Cutting `s` after `n` bytes splits no character: the next byte, if there is
one, starts one. -/
def Boundary (s : Bytes) (n : ℕ) : Prop := ∀ b ∈ s[n]?, isContinuation b = false

instance (s : Bytes) (n : ℕ) : Decidable (Boundary s n) :=
  inferInstanceAs (Decidable (∀ b ∈ s[n]?, isContinuation b = false))

theorem run_append (st : State) (s t : Bytes) :
    run st (s ++ t) = (run st s).bind (run · t) := by
  induction s generalizing st with
  | nil => rfl
  | cons b s ih =>
      simp only [List.cons_append, run, Option.bind_assoc]
      exact Option.bind_congr fun _ _ => ih _

/-- The states reached from `accept` only wait for continuation bytes. -/
def State.Ok : State → Prop
  | .accept => True
  | .trail lo hi _ => 0x80 ≤ lo ∧ hi ≤ 0xBF

theorem step_ok {st st' : State} {b : UInt8} (hst : st.Ok) (h : step st b = some st') :
    st'.Ok := by
  cases st with
  | accept =>
      simp only [step] at h
      split_ifs at h <;> cases h <;> trivial
  | trail lo hi more =>
      simp only [step] at h
      split_ifs at h
      cases more <;> cases h
      · trivial
      · exact ⟨by decide, by decide⟩

theorem run_ok {st st' : State} {s : Bytes} (hst : st.Ok) (h : run st s = some st') :
    st'.Ok := by
  induction s generalizing st with
  | nil => exact Option.some.inj h ▸ hst
  | cons b s ih =>
      obtain ⟨mid, hmid, hrest⟩ := Option.bind_eq_some_iff.mp h
      exact ih (step_ok hst hmid) hrest

/-- Between characters no continuation byte is accepted. -/
theorem isContinuation_of_step_accept {b : UInt8} {st : State}
    (h : step .accept b = some st) : isContinuation b = false := by
  by_contra hc
  obtain ⟨hlo, hhi⟩ : 0x80 ≤ b ∧ b ≤ 0xBF := by simpa [isContinuation] using hc
  have hlow : ¬b < 0x80 := UInt8.not_lt.mpr hlo
  have hgap : b < 0xC2 := UInt8.lt_of_le_of_lt hhi (by decide)
  simp [step, hlow, hgap] at h

/-- Inside a character only a continuation byte is accepted. -/
theorem isContinuation_of_step_trail {lo hi b : UInt8} {more : ℕ} {st : State}
    (hok : (State.trail lo hi more).Ok) (h : step (.trail lo hi more) b = some st) :
    isContinuation b = true := by
  have hin : lo ≤ b ∧ b ≤ hi := by
    by_contra hout
    simp [step, hout] at h
  have hlo := UInt8.le_trans hok.1 hin.1
  have hhi := UInt8.le_trans hin.2 hok.2
  simp [isContinuation, hlo, hhi]

/-- **Where a well-formed string may be cut.**  A prefix of a well-formed string is
well formed exactly when the byte after it continues no character. -/
theorem valid_take {s : Bytes} (hs : valid s = true) (n : ℕ) :
    valid (s.take n) = true ↔ Boundary s n := by
  have hrun : run .accept (s.take n ++ s.drop n) = some .accept := by
    rw [List.take_append_drop]
    exact of_decide_eq_true hs
  rw [run_append] at hrun
  obtain ⟨st, hpre, hpost⟩ := Option.bind_eq_some_iff.mp hrun
  have hstart : State.accept.Ok := trivial
  have hok : st.Ok := run_ok hstart hpre
  have hnext : s[n]? = (s.drop n).head? := by simp
  unfold Boundary valid
  rw [hnext, hpre, decide_eq_true_iff, Option.some.injEq]
  cases st with
  | accept =>
      refine iff_of_true rfl fun b hb => ?_
      cases hrest : s.drop n with
      | nil => simp [hrest] at hb
      | cons c t =>
          rw [hrest] at hb hpost
          obtain rfl : c = b := by simpa using hb
          obtain ⟨mid, hmid, -⟩ := Option.bind_eq_some_iff.mp hpost
          exact isContinuation_of_step_accept hmid
  | trail lo hi more =>
      refine iff_of_false nofun fun hb => ?_
      cases hrest : s.drop n with
      | nil =>
          rw [hrest] at hpost
          cases hpost
      | cons c t =>
          rw [hrest] at hb hpost
          obtain ⟨mid, hmid, -⟩ := Option.bind_eq_some_iff.mp hpost
          have hcont := isContinuation_of_step_trail hok hmid
          rw [hb c rfl] at hcont
          cases hcont

/-- A string that is cut only past its end stays well formed. -/
theorem boundary_of_length_le {s : Bytes} {n : ℕ} (h : s.length ≤ n) : Boundary s n := by
  intro b hb
  rw [List.getElem?_eq_none h] at hb
  cases hb

/-- The string before the first NUL is well formed: a NUL starts a character. -/
theorem valid_takeWhile_ne_zero {s : Bytes} (hs : valid s = true) :
    valid (s.takeWhile (· ≠ 0)) = true := by
  rw [List.takeWhile_eq_take_findIdx_not, valid_take hs]
  intro b hb
  obtain ⟨hlt, rfl⟩ := List.getElem?_eq_some_iff.mp hb
  have hzero := List.findIdx_getElem (w := hlt)
  have hb0 : s[s.findIdx fun c => !decide (c ≠ 0)] = 0 := by simpa using hzero
  rw [hb0]
  decide

/-- ASCII is well formed. -/
theorem valid_of_ascii {s : Bytes} (h : ∀ b ∈ s, b < 0x80) : valid s = true := by
  refine decide_eq_true ?_
  induction s with
  | nil => rfl
  | cons b s ih =>
      have hb : step .accept b = some .accept := by simp [step, h b (by simp)]
      simp only [run, hb, Option.bind_some]
      exact ih fun c hc => h c (by simp [hc])

end Utf8
end ProgLib
