import Mathlib.Logic.Relation

/-! # Labelled machines and their guarded runs

A `Machine` is a partial step function on states, driven by labels.  A label
names the thread that moves and the choice it makes, so an interleaving of
several threads is a sequence of labels, and `none` means that the thread cannot
move in that state.

A run is *guarded* by a relation between states and labels: every step of it is
taken from a state that allows it.  The trivial guard gives every reachable
state (`Reachable`).  An invariant of the start states that every guarded step
keeps holds in every state a guarded run reaches (`Run.invariant`); a schedule
that executes is a run (`run_of_exec`).
-/
namespace ProgLib

/-- A labelled machine: its start states and its partial step function. -/
structure Machine (S L : Type) where
  Start : S → Prop
  step : S → L → Option S

namespace Machine
variable {S L : Type} (M : Machine S L)

/-- `M.Run G s`: some run from a start state ends in `s`, each of its steps being
allowed by `G` in the state it is taken from. -/
inductive Run (G : S → L → Prop) : S → Prop
  | start {s : S} : M.Start s → Run G s
  | step {s t : S} {l : L} : Run G s → G s l → M.step s l = some t → Run G t

/-- The states that some run reaches, whatever its steps. -/
def Reachable (s : S) : Prop := M.Run (fun _ _ => True) s

/-- The second state comes some steps after the first. -/
def Later : S → S → Prop := Relation.ReflTransGen fun s t => ∃ l, M.step s l = some t

variable {M}

/-- **Invariant rule.**  What holds in every start state and is kept by every
guarded step holds in every state a guarded run reaches. -/
theorem Run.invariant {G : S → L → Prop} {I : S → Prop} (hstart : ∀ s, M.Start s → I s)
    (hstep : ∀ s l t, I s → G s l → M.step s l = some t → I t) {s : S} (h : M.Run G s) :
    I s := by
  induction h with
  | start hs => exact hstart _ hs
  | step _ hg ht ih => exact hstep _ _ _ ih hg ht

theorem Reachable.later {s t : S} (h : M.Reachable s) (hst : M.Later s t) : M.Reachable t := by
  induction hst with
  | refl => exact h
  | tail _ hstep ih =>
      obtain ⟨l, hl⟩ := hstep
      exact ih.step trivial hl

/-- A run under a stronger guard is a run under a weaker one. -/
theorem Run.mono {G H : S → L → Prop} (hGH : ∀ s l, G s l → H s l) {s : S} (h : M.Run G s) :
    M.Run H s := by
  induction h with
  | start hs => exact .start hs
  | step _ hg ht ih => exact .step ih (hGH _ _ hg) ht

variable (M)

/-- Execute a schedule, stopping with `none` at a step that the guard forbids or
that the machine cannot take. -/
def exec (G : S → L → Prop) [∀ s l, Decidable (G s l)] : S → List L → Option S
  | s, [] => some s
  | s, l :: ls => if G s l then (M.step s l).bind (exec G · ls) else none

variable {M}

/-- **A schedule that executes is a run.** -/
theorem Run.exec {G : S → L → Prop} [∀ s l, Decidable (G s l)] :
    ∀ {ls : List L} {s t : S}, M.Run G s → M.exec G s ls = some t → M.Run G t
  | [], s, t, hs, h => by
      have hst : s = t := Option.some.inj h
      exact hst ▸ hs
  | l :: ls, s, t, hs, h => by
      unfold Machine.exec at h
      split at h
      · rename_i hg
        obtain ⟨u, hu, ht⟩ := Option.bind_eq_some_iff.mp h
        exact Run.exec (.step hs hg hu) ht
      · cases h

/-- A schedule that executes is a run to a state that can be looked at. -/
theorem exists_run {G : S → L → Prop} [∀ s l, Decidable (G s l)] {P : S → Prop} [DecidablePred P]
    {s : S} (hs : M.Start s) (ls : List L)
    (h : (M.exec G s ls).any (fun t => decide (P t)) = true) : ∃ t, M.Run G t ∧ P t := by
  cases hexec : M.exec G s ls with
  | none =>
      rw [hexec] at h
      cases h
  | some t =>
      rw [hexec] at h
      exact ⟨t, Run.exec (.start hs) hexec, of_decide_eq_true h⟩

theorem Later.exec : ∀ {ls : List L} {s t : S},
    M.exec (fun _ _ => True) s ls = some t → M.Later s t
  | [], s, t, h => by
      have hst : s = t := Option.some.inj h
      exact hst ▸ .refl
  | l :: ls, s, t, h => by
      rw [Machine.exec, if_pos trivial] at h
      obtain ⟨u, hu, ht⟩ := Option.bind_eq_some_iff.mp h
      exact .head ⟨l, hu⟩ (Later.exec ht)

end Machine
end ProgLib
