import Mathlib.Order.Defs.Unbundled

/-! # What a stateful program does to its state

`Keeps R m`: whatever state the program `m` starts in, it leaves one that `R` relates to it.
For a preorder `R` this goes through sequencing and branching, so what the steps of a
program keep, the program keeps.  What a program returns is computed step by step instead
(`bind_apply` and the others).

`Hoare P m Q`: from a state with `P`, the program returns a value and leaves a state that
`Q` relates to it.
-/
namespace ProgLib
universe u
variable {σ α β : Type u} {R : σ → σ → Prop} {m : StateM σ α} {f : α → StateM σ β}

theorem bind_apply (m : StateM σ α) (f : α → StateM σ β) (s : σ) :
    (m >>= f) s = f (m s).1 (m s).2 := rfl

theorem pure_apply (a : α) (s : σ) : (pure a : StateM σ α) s = (a, s) := rfl

theorem get_apply (s : σ) : (get : StateM σ σ) s = (s, s) := rfl

theorem modify_apply (g : σ → σ) (s : σ) : (modify g : StateM σ PUnit) s = (⟨⟩, g s) := rfl

/-- Every run of the program relates the state before to the one after. -/
def Keeps (R : σ → σ → Prop) (m : StateM σ α) : Prop := ∀ s, R s (m s).2

namespace Keeps

theorem pure (hrefl : ∀ s, R s s) (a : α) : Keeps R (Pure.pure a : StateM σ α) := hrefl

theorem get (hrefl : ∀ s, R s s) : Keeps R (MonadState.get : StateM σ σ) := hrefl

theorem modify {g : σ → σ} (h : ∀ s, R s (g s)) :
    Keeps R (modifyThe σ g : StateM σ PUnit) := h

theorem bind (htrans : ∀ {s t u}, R s t → R t u → R s u) (hm : Keeps R m)
    (hf : ∀ a, Keeps R (f a)) : Keeps R (m >>= f) := fun s => htrans (hm s) (hf _ _)

end Keeps

/-- From every state with `P`, what the program returns and leaves behind has `Q`. -/
def Hoare (P : σ → Prop) (m : StateM σ α) (Q : α → σ → Prop) : Prop :=
  ∀ s, P s → Q (m s).1 (m s).2

namespace Hoare
variable {P P' : σ → Prop} {Q Q' : α → σ → Prop} {S : β → σ → Prop}

theorem pure {a : α} (h : ∀ s, P s → Q a s) : Hoare P (Pure.pure a : StateM σ α) Q := h

theorem bind (hm : Hoare P m Q) (hf : ∀ a, Hoare (Q a) (f a) S) : Hoare P (m >>= f) S :=
  fun s hs => hf _ _ (hm s hs)

theorem mono (hm : Hoare P m Q) (hP : ∀ s, P' s → P s) (hQ : ∀ a s, Q a s → Q' a s) :
    Hoare P' m Q' :=
  fun s hs => hQ _ _ (hm s (hP s hs))

end Hoare
end ProgLib
