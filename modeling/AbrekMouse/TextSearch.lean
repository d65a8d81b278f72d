import Mathlib.Data.List.Chain
import Mathlib.Data.List.Infix
import Mathlib.Data.Nat.Notation

/-! # Searching a text

`std::string::find` walks a text from the left; a position is the rest of the text from
there.  What can be skipped is a part that no occurrence starts in: a part that differs from
the needle before its own end (`NoOverlap`), a part without the needle's first character, or a
string whose quotes are escaped (`Guarded`), in which a quoted name is found only where the
string ends with it.
-/
namespace ProgLib.TextSearch
variable {α : Type}

section
variable [DecidableEq α]

/-- The text from the first occurrence on. -/
def find (needle : List α) : List α → Option (List α)
  | [] => if needle = [] then some [] else none
  | c :: s => if needle <+: c :: s then some (c :: s) else find needle s

theorem find_of_starts {needle s : List α} (h : needle <+: s) : find needle s = some s := by
  cases s with
  | nil => rw [find, if_pos (List.prefix_nil.mp h)]
  | cons c s => rw [find, if_pos h]

theorem find_cons_of_not {needle s : List α} {c : α} (h : ¬needle <+: c :: s) :
    find needle (c :: s) = find needle s := by
  rw [find, if_neg h]

theorem find_eq_none_iff {needle s : List α} : find needle s = none ↔ ¬needle <:+: s := by
  induction s with
  | nil =>
      rw [find, List.infix_nil]
      split_ifs with h
      · simp [h]
      · simp [h]
  | cons c s ih =>
      rw [find, List.infix_cons_iff]
      split_ifs with h
      · simp [h]
      · rw [ih]
        simp [h]

theorem isSome_find_iff {needle s : List α} : (find needle s).isSome = true ↔ needle <:+: s := by
  rw [← not_iff_not, Bool.not_eq_true, Option.isSome_eq_false_iff, Option.isNone_iff_eq_none,
    find_eq_none_iff]

/-- A part that no occurrence starts in is skipped. -/
theorem find_append {needle a s : List α}
    (h : ∀ t, t ≠ [] → t <:+ a → ¬needle <+: t ++ s) :
    find needle (a ++ s) = find needle s := by
  induction a with
  | nil => rfl
  | cons c a ih =>
      have hhead := h (c :: a) (List.cons_ne_nil c a) (List.suffix_refl _)
      rw [List.cons_append] at hhead ⊢
      rw [find_cons_of_not hhead]
      exact ih fun t ht hta => h t ht (hta.trans (List.suffix_cons c a))

end

/-- Each end of the part differs from the needle. -/
def NoOverlap (needle a : List α) : Prop :=
  ∀ t ∈ a.tails, t ≠ [] → ¬needle <+: t ∧ ¬t <+: needle

theorem NoOverlap.not_prefix {needle a : List α} (h : NoOverlap needle a) {t : List α} (ht : t ≠ [])
    (hta : t <:+ a) (s : List α) : ¬needle <+: t ++ s := by
  obtain ⟨hshort, hlong⟩ := h t ((List.mem_tails t a).mpr hta) ht
  intro hstarts
  rcases List.prefix_or_prefix_of_prefix hstarts (List.prefix_append t s) with h | h
  · exact hshort h
  · exact hlong h

section
variable [DecidableEq α]

instance (needle a : List α) : Decidable (NoOverlap needle a) := List.decidableBAll _ _

theorem find_append_of_noOverlap {needle a : List α} (h : NoOverlap needle a) (s : List α) :
    find needle (a ++ s) = find needle s :=
  find_append fun _ ht hta => h.not_prefix ht hta s

/-- An occurrence starts with the first character of the needle. -/
theorem find_append_of_notMem {c : α} {needle a : List α} (h : c ∉ a) (s : List α) :
    find (c :: needle) (a ++ s) = find (c :: needle) s := by
  refine find_append fun t ht hta hstarts => ?_
  obtain ⟨d, t, rfl⟩ := List.exists_cons_of_ne_nil ht
  rw [List.cons_append, List.cons_prefix_cons] at hstarts
  exact h (hstarts.1 ▸ hta.subset (List.mem_cons_self ..))

end

/-! ## Escaped quotes -/

section
variable (quote escape : α)

/-- A quote has the escape before it. -/
structure Guarded (v : List α) : Prop where
  head : v.head? ≠ some quote
  chain : v.IsChain fun a b => b = quote → a = escape

variable {quote escape}

theorem Guarded.nil : Guarded quote escape [] := ⟨nofun, List.isChain_nil⟩

theorem Guarded.append {v w : List α} (hv : Guarded quote escape v)
    (hw : Guarded quote escape w) : Guarded quote escape (v ++ w) := by
  constructor
  · cases v with
    | nil => exact hw.head
    | cons c v => exact hv.head
  · refine List.isChain_append.mpr ⟨hv.chain, hw.chain, fun a _ b hb hquote => ?_⟩
    exact absurd (hquote ▸ Option.mem_def.mp hb) hw.head

/-- Without quotes there is nothing to escape. -/
theorem Guarded.of_notMem {v : List α} (h : quote ∉ v) : Guarded quote escape v := by
  constructor
  · intro hhead
    exact h (List.mem_of_mem_head? (Option.mem_def.mpr hhead))
  · induction v with
    | nil => exact List.isChain_nil
    | cons c v ih =>
        obtain ⟨-, hv⟩ := not_or.mp (List.mem_cons.not.mp h)
        refine List.isChain_cons.mpr ⟨fun b hb hquote => ?_, ih hv⟩
        exact absurd (hquote ▸ List.mem_of_mem_head? hb) hv

/-- What follows a character that is not the escape. -/
theorem Guarded.tail {c : α} {v : List α} (h : Guarded quote escape (c :: v))
    (hc : c ≠ escape) : Guarded quote escape v := by
  obtain ⟨hnext, hchain⟩ := List.isChain_cons.mp h.chain
  exact ⟨fun hhead => hc (hnext quote (Option.mem_def.mpr hhead) rfl), hchain⟩

theorem Guarded.of_suffix {v w : List α} (h : Guarded quote escape v)
    (hne : quote ≠ escape) (hw : quote :: w <:+ v) : Guarded quote escape w := by
  have hchain : (quote :: w).IsChain fun a b => b = quote → a = escape := h.chain.suffix hw
  obtain ⟨hnext, hchain⟩ := List.isChain_cons.mp hchain
  exact ⟨fun hhead => hne (hnext quote (Option.mem_def.mpr hhead) rfl), hchain⟩

/-- A name runs up to its first quote, which is the end of the string. -/
theorem Guarded.eq_of_starts {k v u : List α} (hv : Guarded quote escape v) (hk : quote ∉ k)
    (hplain : escape ∉ k) (h : k ++ [quote] <+: v ++ quote :: u) : v = k := by
  induction k generalizing v with
  | nil =>
      cases v with
      | nil => rfl
      | cons c v =>
          rw [List.nil_append, List.cons_append, List.cons_prefix_cons] at h
          exact absurd (by rw [h.1]; rfl) hv.head
  | cons c k ih =>
      obtain ⟨hc, hk⟩ := not_or.mp (List.mem_cons.not.mp hk)
      obtain ⟨hescape, hplain⟩ := not_or.mp (List.mem_cons.not.mp hplain)
      cases v with
      | nil =>
          rw [List.cons_append, List.nil_append, List.cons_prefix_cons] at h
          exact absurd h.1.symm hc
      | cons d v =>
          rw [List.cons_append, List.cons_append, List.cons_prefix_cons] at h
          obtain ⟨rfl, h⟩ := h
          rw [ih (hv.tail (Ne.symm hescape)) hk hplain h]

/-- A quoted name is found in a string where the string ends with it. -/
theorem Guarded.ends_of_starts {k v u t : List α} (hv : Guarded quote escape v)
    (hne : quote ≠ escape) (hk : quote ∉ k) (hplain : escape ∉ k) (ht : t <:+ quote :: v)
    (htne : t ≠ []) (h : quote :: (k ++ [quote]) <+: t ++ quote :: u) : t = quote :: k := by
  obtain ⟨c, w, rfl⟩ := List.exists_cons_of_ne_nil htne
  rw [List.cons_append, List.cons_prefix_cons] at h
  obtain ⟨rfl, h⟩ := h
  have hw : Guarded quote escape w := by
    rcases List.suffix_cons_iff.mp ht with heq | hsuffix
    · rw [(List.cons.inj heq).2]
      exact hv
    · exact hv.of_suffix hne hsuffix
  rw [hw.eq_of_starts hk hplain h]

/-- A string is skipped, unless it ends with the name and what comes after goes on as the
needle does. -/
theorem Guarded.find_append [DecidableEq α] {k n v u : List α} (hv : Guarded quote escape v)
    (hne : quote ≠ escape) (hk : quote ∉ k) (hplain : escape ∉ k)
    (hends : quote :: k <:+ quote :: v → ¬n <+: u) (hnext : ¬k ++ quote :: n <+: u) :
    find (quote :: (k ++ quote :: n)) (quote :: (v ++ [quote]) ++ u) =
      find (quote :: (k ++ quote :: n)) u := by
  refine TextSearch.find_append fun t ht hta hstarts => ?_
  rw [← List.cons_append] at hta
  rcases List.suffix_concat_iff.mp hta with rfl | ⟨t, rfl, htail⟩
  · exact ht rfl
  · cases t with
    | nil => exact hnext (List.cons_prefix_cons.mp hstarts).2
    | cons c t =>
        rw [List.append_assoc, List.singleton_append] at hstarts
        have hname : quote :: (k ++ [quote]) <+: c :: t ++ quote :: u := by
          refine List.IsPrefix.trans ⟨n, ?_⟩ hstarts
          rw [List.cons_append, List.append_assoc, List.singleton_append]
        have heq := hv.ends_of_starts hne hk hplain htail (List.cons_ne_nil c t) hname
        rw [heq] at hstarts htail
        rw [← List.cons_append] at hstarts
        have hrest := (List.prefix_append_right_inj _).mp hstarts
        exact hends htail (List.cons_prefix_cons.mp hrest).2

/-- A string that ends with the name holds its first occurrence. -/
theorem Guarded.find_of_ends [DecidableEq α] {k v : List α} (hv : Guarded quote escape v)
    (hne : quote ≠ escape) (hk : quote ∉ k) (hplain : escape ∉ k)
    (hends : quote :: k <:+ quote :: v) (u : List α) :
    find (quote :: (k ++ [quote])) (quote :: (v ++ [quote]) ++ u) =
      some (quote :: (k ++ [quote]) ++ u) := by
  obtain ⟨before, hsplit⟩ := hends
  have htext : quote :: (v ++ [quote]) ++ u = before ++ (quote :: (k ++ [quote]) ++ u) := by
    rw [← List.cons_append, ← hsplit]
    simp
  rw [htext, TextSearch.find_append fun t ht hta hstarts => ?_]
  · exact find_of_starts (List.prefix_append _ _)
  · obtain ⟨before', rfl⟩ := hta
    have hwhole : t ++ quote :: k <:+ quote :: v := ⟨before', by rw [← hsplit, List.append_assoc]⟩
    have hname : quote :: (k ++ [quote]) <+: t ++ quote :: k ++ quote :: u := by
      simpa using hstarts
    have heq := hv.ends_of_starts hne hk hplain hwhole (by simp) hname
    exact ht (List.append_left_eq_self.mp heq)

end

end ProgLib.TextSearch
