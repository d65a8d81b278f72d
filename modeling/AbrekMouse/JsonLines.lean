import AbrekMouse.Json

/-! # JSON texts in lines

A text may hold one JSON document or a stream of them, one on each line.  `JsonLines` adds to
a JSON library what a reader of such streams relies on: a compactly printed object stands on
one line, one line is the document it holds, and several lines are no document.
-/
namespace ProgLib

namespace Json

mutual
/-- A printed value has no number that is not finite. -/
theorem printed_finite : ∀ {j : Json}, j.printed.Finite
  | null, _, h | bool _, _, h | int _, _, h | str _, _, h => by
      cases List.mem_singleton.mp h
  | float x, y, h => by
      rw [printed] at h
      split at h
      · cases List.mem_singleton.mp h
        assumption
      · cases List.mem_singleton.mp h
  | arr js, _, h => by
      rw [printed, leaves] at h
      exact printedElems_finite h
  | obj m, _, h => by
      rw [printed, leaves] at h
      exact printedMembers_finite h

theorem printedElems_finite : ∀ {js : List Json} {x : Double},
    float x ∈ leavesElems (printedElems js) → x.isFinite = true
  | [], _, h => absurd h List.not_mem_nil
  | j :: js, x, h => by
      rcases List.mem_append.mp h with h | h
      · exact printed_finite x h
      · exact printedElems_finite h

theorem printedMembers_finite : ∀ {m : List (String × Json)} {x : Double},
    float x ∈ leavesMembers (printedMembers m) → x.isFinite = true
  | [], _, h => absurd h List.not_mem_nil
  | (_, v) :: m, x, h => by
      rcases List.mem_append.mp h with h | h
      · exact printed_finite x h
      · exact printedMembers_finite h
end

/-- A member of a value is part of it. -/
theorem Finite.get? {j v : Json} {key : String} (hj : j.Finite) (h : j.get? key = some v) :
    v.Finite := by
  cases j with
  | obj m =>
      obtain ⟨k, hk⟩ := exists_mem_of_lookup h
      exact fun x hx => hj x (mem_leavesMembers.mpr ⟨_, hk, hx⟩)
  | _ => cases h

/-- A value that prints, and whose print reads back as the value. -/
structure Printable (j : Json) : Prop where
  utf8 : j.Utf8
  finite : j.Finite
  representable : j.Representable

theorem Printable.get? {j v : Json} {key : String} (hj : j.Printable) (h : j.get? key = some v) :
    v.Printable :=
  ⟨hj.utf8.get? h, hj.finite.get? h, hj.representable.get? h⟩

theorem printable_of_arr {js : List Json} (h : (arr js).Printable) {j : Json} (hj : j ∈ js) :
    j.Printable :=
  ⟨utf8_arr.mp h.utf8 j hj, finite_arr.mp h.finite j hj, representable_arr.mp h.representable j hj⟩

end Json

/-- A JSON library that reads texts in lines. -/
structure JsonLines (Text : Type) extends JsonText Text where
  /-- The number of bytes. -/
  size : Text → ℕ
  /-- The lines that are not blank, without the blanks around them. -/
  lines : Text → List Text
  /-- The texts in order, each with a line break behind it. -/
  unlines : List Text → Text
  /-- A number that overflows is a parse error. -/
  parse_finite : ∀ {t j}, parse t = .ok j → j.Finite
  lines_unlines : ∀ {ts}, (∀ t ∈ ts, ∃ j, j.isObject = true ∧ dump none j = .ok t) →
    lines (unlines ts) = ts
  parse_unlines_singleton : ∀ {t j}, parse t = .ok j → parse (unlines [t]) = .ok j
  parse_unlines_of_length_ne_one : ∀ {ts},
    (∀ t ∈ ts, ∃ j, j.isObject = true ∧ dump none j = .ok t) →
    ts.length ≠ 1 → ∃ e, parse (unlines ts) = .error e

namespace JsonLines

/-- **What was parsed can be printed.** -/
theorem printable_of_parse {Text : Type} {J : JsonLines Text} {t : Text} {j : Json}
    (h : J.parse t = .ok j) : j.Printable :=
  ⟨J.parse_utf8 h, J.parse_finite h, J.parse_representable h⟩

theorem map_singleton_flatten {α : Type} {ts : List (List α)} (h : ∀ t ∈ ts, ∃ a, t = [a]) :
    ts.flatten.map (fun a => [a]) = ts := by
  induction ts with
  | nil => rfl
  | cons t ts ih =>
      obtain ⟨a, rfl⟩ := h _ List.mem_cons_self
      show [a] :: ts.flatten.map _ = [a] :: ts
      rw [ih fun t ht => h t (List.mem_cons_of_mem _ ht)]

/-- The compact print of a syntax tree: the tree by itself. -/
def dumpTree (j : Json) : Except Bytes (List Json) :=
  if j.Utf8 then .ok [j.printed] else .error (bytes "invalid UTF-8 byte")

theorem dumpTree_singleton {ts : List (List Json)}
    (h : ∀ t ∈ ts, ∃ j, j.isObject = true ∧ dumpTree j = .ok t) : ∀ t ∈ ts, ∃ j, t = [j] := by
  intro t ht
  obtain ⟨j, -, hdump⟩ := h t ht
  unfold dumpTree at hdump
  split at hdump
  · cases hdump
    exact ⟨_, rfl⟩
  · cases hdump

/-- The library whose texts are sequences of syntax trees, one on each line. -/
def trees : JsonLines (List Json) where
  parse
    | [j] =>
        if j.Utf8 ∧ j.Representable then .ok j.printed else .error (bytes "parse error")
    | _ => .error (bytes "parse error")
  dump _ j := dumpTree j
  newline t := t
  size t := t.length
  lines t := t.map fun j => [j]
  unlines ts := ts.flatten
  parse_utf8 := by
    intro t j h
    split at h
    · split at h
      · rename_i hj
        cases h
        exact hj.1.printed
      · cases h
    · cases h
  parse_representable := by
    intro t j h
    split at h
    · split at h
      · rename_i hj
        cases h
        exact Json.representable_printed hj.2
      · cases h
    · cases h
  parse_finite := by
    intro t j h
    split at h
    · split at h
      · cases h
        exact Json.printed_finite
      · cases h
    · cases h
  dump_ok_iff := by
    intro _ j
    unfold dumpTree
    by_cases h : j.Utf8 <;> simp [h]
  parse_dump := by
    intro _ j t hrep h
    unfold dumpTree at h
    split at h
    · rename_i hj
      cases h
      have hsame : j.printed.printed = j.printed := Json.printed_of_finite Json.printed_finite
      have hheld : j.printed.Utf8 ∧ j.printed.Representable :=
        ⟨hj.printed, Json.representable_printed hrep⟩
      exact (if_pos hheld).trans (congrArg Except.ok hsame)
    · cases h
  parse_newline h := h
  lines_unlines h := map_singleton_flatten (dumpTree_singleton h)
  parse_unlines_singleton h := by rwa [List.flatten_singleton]
  parse_unlines_of_length_ne_one := by
    intro ts hts hne
    have hlength := congrArg List.length (map_singleton_flatten (dumpTree_singleton hts))
    rw [List.length_map] at hlength
    rw [← hlength] at hne
    generalize ts.flatten = text at hne
    refine ⟨bytes "parse error", ?_⟩
    split
    · exact absurd rfl hne
    · rfl

end JsonLines
end ProgLib
