import AbrekMouse.Binary
import AbrekMouse.Utf8
import Mathlib.Data.List.Chain

/-! # JSON values and a JSON library

`Json` is the value type of a JSON library: numbers are integers or binary64
numbers, strings are bytes, and an object is a map kept sorted by key.

`JsonText` is such a library's parser and printer over some type of texts.  Its laws
are what a caller relies on: the printer throws exactly on a string that is not
UTF-8, the parser accepts no such string, and parsing what was printed gives the
value back, except that a number that is not finite is printed as `null`.  That is
said of the values that the library can hold (`Json.Representable`).
-/
namespace ProgLib

/-- A JSON value as the library holds it: an integer is told apart from a number that was
written with a point or an exponent. -/
inductive Json
  | null
  | bool (b : Bool)
  | int (z : ℤ)
  | float (x : Double)
  | str (s : Bytes)
  | arr (elems : List Json)
  | obj (members : List (String × Json))

namespace Json

def isNull : Json → Bool
  | null => true
  | _ => false

def isString : Json → Bool
  | str _ => true
  | _ => false

def isNumber : Json → Bool
  | int _ | float _ => true
  | _ => false

def isArray : Json → Bool
  | arr _ => true
  | _ => false

def isObject : Json → Bool
  | obj _ => true
  | _ => false

/-- The name of a value's type in a library's messages. -/
def typeName : Json → Bytes
  | null => bytes "null"
  | bool _ => bytes "boolean"
  | int _ | float _ => bytes "number"
  | str _ => bytes "string"
  | arr _ => bytes "array"
  | obj _ => bytes "object"

/-- A number read as a `double`. -/
def double : Json → Double
  | int z => Fp.ofInt z
  | float x => x
  | _ => 0

/-- The elements of an array; any other value has none. -/
def elems : Json → List Json
  | arr js => js
  | _ => []

/-! ## Equality -/

mutual

/-- Equality of values. -/
def beq : Json → Json → Bool
  | null, null => true
  | bool a, bool b => a == b
  | int a, int b => a == b
  | float a, float b => a = b
  | str a, str b => a == b
  | arr as, arr bs => beqElems as bs
  | obj as, obj bs => beqMembers as bs
  | _, _ => false

def beqElems : List Json → List Json → Bool
  | [], [] => true
  | a :: as, b :: bs => beq a b && beqElems as bs
  | _, _ => false

def beqMembers : List (String × Json) → List (String × Json) → Bool
  | [], [] => true
  | (k, a) :: as, (l, b) :: bs => k == l && beq a b && beqMembers as bs
  | _, _ => false
end

mutual
theorem beq_self : ∀ a : Json, beq a a = true
  | null => rfl
  | bool _ | int _ | str _ => by simp [beq]
  | float _ => by simp [beq]
  | arr as => by
      rw [beq]
      exact beqElems_self as
  | obj as => by
      rw [beq]
      exact beqMembers_self as

theorem beqElems_self : ∀ as : List Json, beqElems as as = true
  | [] => rfl
  | a :: as => by rw [beqElems, beq_self a, beqElems_self as, Bool.and_self]

theorem beqMembers_self : ∀ as : List (String × Json), beqMembers as as = true
  | [] => rfl
  | (k, a) :: as => by simp [beqMembers, beq_self a, beqMembers_self as]
end

mutual
theorem eq_of_beq : ∀ {a b : Json}, beq a b = true → a = b
  | null, b, h => by cases b <;> first | rfl | cases h
  | bool a, b, h => by cases b <;> first | cases h | simpa [beq] using h
  | int a, b, h => by cases b <;> first | cases h | simpa [beq] using h
  | float a, b, h => by cases b <;> first | cases h | simpa [beq] using h
  | str a, b, h => by cases b <;> first | cases h | simpa [beq] using h
  | arr as, b, h => by
      cases b <;> try cases h
      rw [beq] at h
      exact congrArg arr (eq_of_beqElems h)
  | obj as, b, h => by
      cases b <;> try cases h
      rw [beq] at h
      exact congrArg obj (eq_of_beqMembers h)

theorem eq_of_beqElems : ∀ {as bs : List Json}, beqElems as bs = true → as = bs
  | [], [], _ => rfl
  | a :: as, b :: bs, h => by
      obtain ⟨ha, has⟩ := Bool.and_eq_true_iff.mp h
      rw [eq_of_beq ha, eq_of_beqElems has]

theorem eq_of_beqMembers : ∀ {as bs : List (String × Json)}, beqMembers as bs = true → as = bs
  | [], [], _ => rfl
  | (k, a) :: as, (l, b) :: bs, h => by
      obtain ⟨hhead, has⟩ := Bool.and_eq_true_iff.mp h
      obtain ⟨hk, ha⟩ := Bool.and_eq_true_iff.mp hhead
      rw [eq_of_beq ha, eq_of_beqMembers has, beq_iff_eq.mp hk]
end

instance : DecidableEq Json := fun a b =>
  decidable_of_iff (beq a b = true) ⟨eq_of_beq, fun h => h ▸ beq_self a⟩

/-! ## Objects -/

/-- Assignment of one member, keeping the keys sorted. -/
def insert (k : String) (v : Json) : List (String × Json) → List (String × Json)
  | [] => [(k, v)]
  | (k', v') :: m =>
      if k = k' then (k, v) :: m
      else if k < k' then (k, v) :: (k', v') :: m
      else (k', v') :: insert k v m

/-- The object that a sequence of assignments `j[k] = v` builds. -/
def object (ms : List (String × Json)) : Json :=
  obj (ms.foldl (fun m p => insert p.1 p.2 m) [])

/-- The value of the first member with the key. -/
def lookup (k : String) : List (String × Json) → Option Json
  | [] => none
  | (k', v) :: m => if k = k' then some v else lookup k m

/-- The member of key `k`; only an object has members. -/
def get? (j : Json) (k : String) : Option Json :=
  match j with
  | obj m => lookup k m
  | _ => none

/-- Assigning a fresh key adds one member. -/
theorem insert_perm {k : String} {v : Json} {m : List (String × Json)}
    (h : k ∉ m.map Prod.fst) : (insert k v m).Perm ((k, v) :: m) := by
  induction m with
  | nil => exact .refl _
  | cons p m ih =>
      obtain ⟨k', v'⟩ := p
      have hne : k ≠ k' := fun heq => h (by simp [heq])
      have hm : k ∉ m.map Prod.fst := fun hmem => h (by simp [hmem])
      unfold insert
      rw [if_neg hne]
      split
      · exact .refl _
      · exact ((ih hm).cons _).trans (.swap _ _ _)

/-- **Assignments of distinct keys are the members of the object they build.** -/
theorem object_perm {ms : List (String × Json)} (h : (ms.map Prod.fst).Nodup) :
    ∃ m, object ms = obj m ∧ m.Perm ms := by
  have hfold : ∀ m : List (String × Json), ((ms ++ m).map Prod.fst).Nodup →
      (ms.foldl (fun m p => insert p.1 p.2 m) m).Perm (ms ++ m) := by
    clear h
    induction ms with
    | nil => intro m _; exact .refl _
    | cons p ms ih =>
        intro m hnd
        have hp : p.1 ∉ m.map Prod.fst := by
          intro hmem
          simp only [List.cons_append, List.map_cons, List.map_append, List.nodup_cons] at hnd
          exact hnd.1 (List.mem_append_right _ hmem)
        have hperm := insert_perm (v := p.2) hp
        have hstep : (ms ++ insert p.1 p.2 m).Perm (p :: ms ++ m) :=
          (hperm.append_left ms).trans List.perm_middle
        exact (ih _ ((hstep.map Prod.fst).nodup_iff.mpr hnd)).trans hstep
  exact ⟨_, rfl, by simpa using hfold [] (by simpa using h)⟩

/-- A key found in a list without repeated keys is found in any order of it. -/
theorem lookup_eq_some {k : String} {v : Json} {m : List (String × Json)}
    (h : (m.map Prod.fst).Nodup) : lookup k m = some v ↔ (k, v) ∈ m := by
  induction m with
  | nil => simp [lookup]
  | cons p m ih =>
      obtain ⟨k', v'⟩ := p
      obtain ⟨hfresh, hnd⟩ := List.nodup_cons.mp h
      unfold lookup
      split_ifs with heq
      · subst heq
        have hnot : (k, v) ∉ m := fun hmem =>
          hfresh (List.mem_map.mpr ⟨_, hmem, rfl⟩)
        simp [hnot, eq_comm]
      · simp [ih hnd, heq]

theorem exists_mem_of_lookup {key : String} {v : Json} {m : List (String × Json)}
    (h : lookup key m = some v) : ∃ k, (k, v) ∈ m := by
  induction m with
  | nil => cases h
  | cons p m ih =>
      obtain ⟨k', v'⟩ := p
      unfold lookup at h
      split_ifs at h
      · cases h
        exact ⟨k', List.mem_cons_self⟩
      · obtain ⟨k, hk⟩ := ih h
        exact ⟨k, List.mem_cons_of_mem _ hk⟩

/-- **Every assigned member is there.** -/
theorem get?_object {ms : List (String × Json)} (h : (ms.map Prod.fst).Nodup) :
    ∀ p ∈ ms, (object ms).get? p.1 = some p.2 := by
  intro p hp
  obtain ⟨m, hm, hperm⟩ := object_perm h
  rw [hm]
  exact (lookup_eq_some ((hperm.map Prod.fst).nodup_iff.mpr h)).mpr (hperm.mem_iff.mpr hp)

/-- A key that is not assigned is not there. -/
theorem get?_object_of_notMem {ms : List (String × Json)} (h : (ms.map Prod.fst).Nodup)
    {key : String} (hkey : key ∉ ms.map Prod.fst) : (object ms).get? key = none := by
  obtain ⟨m, hm, hperm⟩ := object_perm h
  rw [hm, Option.eq_none_iff_forall_ne_some]
  intro v hv
  have hmem := (lookup_eq_some ((hperm.map Prod.fst).nodup_iff.mpr h)).mp hv
  exact hkey (List.mem_map.mpr ⟨_, hperm.mem_iff.mp hmem, rfl⟩)

/-! ## Leaves -/

mutual
/-- The values that are not containers, in order. -/
def leaves : Json → List Json
  | arr js => leavesElems js
  | obj m => leavesMembers m
  | j => [j]

/-- The leaves of a list of values. -/
def leavesElems : List Json → List Json
  | [] => []
  | j :: js => leaves j ++ leavesElems js

/-- The leaves of a list of members. -/
def leavesMembers : List (String × Json) → List Json
  | [] => []
  | (_, v) :: m => leaves v ++ leavesMembers m
end

@[simp] theorem mem_leavesElems {x : Json} {js : List Json} :
    x ∈ leavesElems js ↔ ∃ j ∈ js, x ∈ leaves j := by
  induction js with
  | nil => simp [leavesElems]
  | cons j js ih => simp [leavesElems, ih]

@[simp] theorem mem_leavesMembers {x : Json} {m : List (String × Json)} :
    x ∈ leavesMembers m ↔ ∃ p ∈ m, x ∈ leaves p.2 := by
  induction m with
  | nil => simp [leavesMembers]
  | cons p m ih => simp [leavesMembers, ih]

theorem mem_leaves_arr {x : Json} {js : List Json} :
    x ∈ leaves (arr js) ↔ ∃ j ∈ js, x ∈ leaves j := by
  rw [leaves, mem_leavesElems]

theorem mem_leaves_object {x : Json} {ms : List (String × Json)}
    (h : (ms.map Prod.fst).Nodup) : x ∈ leaves (object ms) ↔ ∃ p ∈ ms, x ∈ leaves p.2 := by
  obtain ⟨m, hm, hperm⟩ := object_perm h
  rw [hm, leaves, mem_leavesMembers]
  simp only [hperm.mem_iff]

/-- Every string of the value is well-formed UTF-8. -/
def Utf8 (j : Json) : Prop := ∀ s, str s ∈ j.leaves → Utf8.valid s = true

/-- Every number of the value is finite. -/
def Finite (j : Json) : Prop := ∀ x, float x ∈ j.leaves → x.isFinite = true

/-- The check behind `Utf8`. -/
def utf8 (j : Json) : Bool :=
  j.leaves.all fun
    | str s => Utf8.valid s
    | _ => true

theorem utf8_iff {j : Json} : j.utf8 = true ↔ j.Utf8 := by
  unfold utf8 Utf8
  rw [List.all_eq_true]
  constructor
  · exact fun h s hs => h _ hs
  · intro h x hx
    cases x <;> first | rfl | exact h _ hx

instance (j : Json) : Decidable j.Utf8 := decidable_of_iff _ utf8_iff

@[simp] theorem utf8_bool (b : Bool) : (bool b).Utf8 := by simp [Utf8, leaves]
@[simp] theorem utf8_int (z : ℤ) : (int z).Utf8 := by simp [Utf8, leaves]
@[simp] theorem utf8_float (x : Double) : (float x).Utf8 := by simp [Utf8, leaves]
@[simp] theorem utf8_str {s : Bytes} : (str s).Utf8 ↔ Utf8.valid s = true := by
  simp [Utf8, leaves]

@[simp] theorem utf8_arr {js : List Json} : (arr js).Utf8 ↔ ∀ j ∈ js, j.Utf8 := by
  simp only [Utf8, mem_leaves_arr]
  exact ⟨fun h j hj s hs => h s ⟨j, hj, hs⟩, fun h s ⟨j, hj, hs⟩ => h j hj s hs⟩

theorem utf8_object {ms : List (String × Json)} (h : (ms.map Prod.fst).Nodup) :
    (object ms).Utf8 ↔ ∀ p ∈ ms, p.2.Utf8 := by
  simp only [Utf8, mem_leaves_object h]
  exact ⟨fun h p hp s hs => h s ⟨p, hp, hs⟩, fun h s ⟨p, hp, hs⟩ => h p hp s hs⟩

/-- A member of a value is part of it. -/
theorem Utf8.get? {j v : Json} {key : String} (hj : j.Utf8) (h : j.get? key = some v) :
    v.Utf8 := by
  cases j with
  | obj m =>
      obtain ⟨k, hk⟩ := exists_mem_of_lookup h
      exact fun s hs => hj s (mem_leavesMembers.mpr ⟨_, hk, hs⟩)
  | _ => cases h

theorem Utf8.elems {j v : Json} (hj : j.Utf8) (h : v ∈ j.elems) : v.Utf8 := by
  cases j with
  | arr js => exact utf8_arr.mp hj v h
  | _ => cases h

@[simp] theorem finite_bool (b : Bool) : (bool b).Finite := by simp [Finite, leaves]
@[simp] theorem finite_int (z : ℤ) : (int z).Finite := by simp [Finite, leaves]
@[simp] theorem finite_str (s : Bytes) : (str s).Finite := by simp [Finite, leaves]
@[simp] theorem finite_float {x : Double} : (float x).Finite ↔ x.isFinite = true := by
  simp [Finite, leaves]

@[simp] theorem finite_arr {js : List Json} : (arr js).Finite ↔ ∀ j ∈ js, j.Finite := by
  simp only [Finite, mem_leaves_arr]
  exact ⟨fun h j hj x hx => h x ⟨j, hj, hx⟩, fun h x ⟨j, hj, hx⟩ => h j hj x hx⟩

theorem finite_object {ms : List (String × Json)} (h : (ms.map Prod.fst).Nodup) :
    (object ms).Finite ↔ ∀ p ∈ ms, p.2.Finite := by
  simp only [Finite, mem_leaves_object h]
  exact ⟨fun h p hp x hx => h x ⟨p, hp, hx⟩, fun h x ⟨p, hp, hx⟩ => h p hp x hx⟩

/-! ## What the library can hold -/

mutual
/-- An integer has 64 bits, with a sign or without one, and the keys of an object ascend. -/
def representable : Json → Bool
  | int z => -9223372036854775808 ≤ z && z ≤ 18446744073709551615
  | arr js => representableElems js
  | obj m => (m.map Prod.fst).IsChain (· < ·) && representableMembers m
  | _ => true

/-- The same of a list of values. -/
def representableElems : List Json → Bool
  | [] => true
  | j :: js => representable j && representableElems js

/-- The same of the values of a list of members. -/
def representableMembers : List (String × Json) → Bool
  | [] => true
  | (_, v) :: m => representable v && representableMembers m
end

/-- The value is one that the library can hold. -/
def Representable (j : Json) : Prop := j.representable = true

instance (j : Json) : Decidable j.Representable := inferInstanceAs (Decidable (_ = true))

theorem representableElems_iff {js : List Json} :
    representableElems js = true ↔ ∀ j ∈ js, j.Representable := by
  induction js with
  | nil => simp [representableElems]
  | cons j js ih => simp [representableElems, ih, Representable]

theorem representableMembers_iff {m : List (String × Json)} :
    representableMembers m = true ↔ ∀ p ∈ m, p.2.Representable := by
  induction m with
  | nil => simp [representableMembers]
  | cons p m ih => simp [representableMembers, ih, Representable]

@[simp] theorem representable_bool (b : Bool) : (bool b).Representable := rfl
@[simp] theorem representable_float (x : Double) : (float x).Representable := rfl
@[simp] theorem representable_str (s : Bytes) : (str s).Representable := rfl

@[simp] theorem representable_int {z : ℤ} : (int z).Representable ↔
    -9223372036854775808 ≤ z ∧ z ≤ 18446744073709551615 := by
  simp [Representable, representable]

@[simp] theorem representable_arr {js : List Json} :
    (arr js).Representable ↔ ∀ j ∈ js, j.Representable := by
  rw [← representableElems_iff]
  exact Iff.rfl

theorem representable_obj {m : List (String × Json)} : (obj m).Representable ↔
    (m.map Prod.fst).IsChain (· < ·) ∧ ∀ p ∈ m, p.2.Representable := by
  rw [← representableMembers_iff]
  simp [Representable, representable]

theorem mem_insert {k : String} {v : Json} {m : List (String × Json)} {p : String × Json}
    (h : p ∈ insert k v m) : p = (k, v) ∨ p ∈ m := by
  induction m with
  | nil => exact .inl (List.mem_singleton.mp h)
  | cons q m ih =>
      unfold insert at h
      split_ifs at h
      · exact (List.mem_cons.mp h).imp_right (List.mem_cons_of_mem _)
      · exact List.mem_cons.mp h
      · rcases List.mem_cons.mp h with rfl | h
        · exact .inr List.mem_cons_self
        · exact (ih h).imp_right (List.mem_cons_of_mem _)

/-- **An assignment keeps the keys ascending.** -/
theorem insert_ascending {k : String} {v : Json} {m : List (String × Json)}
    (h : (m.map Prod.fst).Pairwise (· < ·)) :
    ((insert k v m).map Prod.fst).Pairwise (· < ·) := by
  induction m with
  | nil => exact List.pairwise_singleton _ _
  | cons p m ih =>
      obtain ⟨k', v'⟩ := p
      obtain ⟨hfirst, hrest⟩ := List.pairwise_cons.mp h
      unfold insert
      split_ifs with heq hlt
      · rw [heq]
        exact h
      · refine List.pairwise_cons.mpr ⟨List.forall_mem_cons.mpr ⟨hlt, ?_⟩, h⟩
        exact fun l hl => String.lt_trans hlt (hfirst l hl)
      · -- the first key stays the first one
        have hafter : k' < k := by
          refine String.not_le.mp fun hle => ?_
          exact heq (String.le_antisymm hle (String.not_lt.mp hlt))
        refine List.pairwise_cons.mpr ⟨List.forall_mem_map.mpr fun p hp => ?_, ih hrest⟩
        rcases mem_insert hp with rfl | hp
        · exact hafter
        · exact hfirst _ (List.mem_map_of_mem hp)

/-- **What is assembled of values that the library can hold is such a value.** -/
theorem Representable.object {ms : List (String × Json)} (h : ∀ p ∈ ms, p.2.Representable) :
    (object ms).Representable := by
  have hfold : ∀ m : List (String × Json), (m.map Prod.fst).Pairwise (· < ·) →
      (∀ p ∈ m, p.2.Representable) →
      (obj (ms.foldl (fun m p => insert p.1 p.2 m) m)).Representable := by
    induction ms with
    | nil =>
        intro m hm hall
        exact representable_obj.mpr ⟨hm.isChain, hall⟩
    | cons p ms ih =>
        intro m hm hall
        obtain ⟨hp, hms⟩ := List.forall_mem_cons.mp h
        refine ih hms _ (insert_ascending hm) fun q hq => ?_
        rcases mem_insert hq with rfl | hq
        · exact hp
        · exact hall q hq
  exact hfold [] .nil nofun

/-- A member of a value is part of it. -/
theorem Representable.get? {j v : Json} {key : String} (hj : j.Representable)
    (h : j.get? key = some v) : v.Representable := by
  cases j with
  | obj m =>
      obtain ⟨k, hk⟩ := exists_mem_of_lookup h
      exact (representable_obj.mp hj).2 _ hk
  | _ => cases h

/-! ## Printing -/

mutual
/-- What a printed value reads back as: the format has no infinities and no nan. -/
def printed : Json → Json
  | float x => if x.isFinite then float x else null
  | arr js => arr (printedElems js)
  | obj m => obj (printedMembers m)
  | j => j

/-- The elements as they are after printing. -/
def printedElems : List Json → List Json
  | [] => []
  | j :: js => printed j :: printedElems js

/-- The members as they are after printing. -/
def printedMembers : List (String × Json) → List (String × Json)
  | [] => []
  | (k, v) :: m => (k, printed v) :: printedMembers m
end

mutual
/-- A value whose numbers are finite prints as itself. -/
theorem printed_of_finite : ∀ {j : Json}, j.Finite → j.printed = j
  | null, _ => rfl
  | bool _, _ => rfl
  | int _, _ => rfl
  | str _, _ => rfl
  | float x, h => by
      have hx : x.isFinite = true := h x (by simp [leaves])
      rw [printed, if_pos hx]
  | arr js, h => by
      rw [printed, printedElems_of_finite fun x hx => h x hx]
  | obj m, h => by
      rw [printed, printedMembers_of_finite fun x hx => h x hx]

theorem printedElems_of_finite : ∀ {js : List Json},
    (∀ x, float x ∈ leavesElems js → x.isFinite = true) → printedElems js = js
  | [], _ => rfl
  | j :: js, h => by
      rw [printedElems, printed_of_finite fun x hx => h x (List.mem_append_left _ hx),
        printedElems_of_finite fun x hx => h x (List.mem_append_right _ hx)]

theorem printedMembers_of_finite : ∀ {m : List (String × Json)},
    (∀ x, float x ∈ leavesMembers m → x.isFinite = true) → printedMembers m = m
  | [], _ => rfl
  | (k, v) :: m, h => by
      rw [printedMembers, printed_of_finite fun x hx => h x (List.mem_append_left _ hx),
        printedMembers_of_finite fun x hx => h x (List.mem_append_right _ hx)]
end

mutual
/-- Printing changes no string. -/
theorem str_mem_leaves_printed {s : Bytes} : ∀ {j : Json},
    str s ∈ j.printed.leaves → str s ∈ j.leaves
  | null, h | bool _, h | int _, h | str _, h => h
  | float x, h => by
      rw [printed] at h
      split at h <;> simp [leaves] at h
  | arr js, h => by
      rw [printed, leaves] at h
      rw [leaves]
      exact str_mem_leavesElems_printed h
  | obj m, h => by
      rw [printed, leaves] at h
      rw [leaves]
      exact str_mem_leavesMembers_printed h

theorem str_mem_leavesElems_printed {s : Bytes} : ∀ {js : List Json},
    str s ∈ leavesElems (printedElems js) → str s ∈ leavesElems js
  | [], h => h
  | j :: js, h => by
      rcases List.mem_append.mp h with h | h
      · exact List.mem_append_left _ (str_mem_leaves_printed h)
      · exact List.mem_append_right _ (str_mem_leavesElems_printed h)

theorem str_mem_leavesMembers_printed {s : Bytes} : ∀ {m : List (String × Json)},
    str s ∈ leavesMembers (printedMembers m) → str s ∈ leavesMembers m
  | [], h => h
  | (_, v) :: m, h => by
      rcases List.mem_append.mp h with h | h
      · exact List.mem_append_left _ (str_mem_leaves_printed h)
      · exact List.mem_append_right _ (str_mem_leavesMembers_printed h)
end

theorem Utf8.printed {j : Json} (h : j.Utf8) : j.printed.Utf8 :=
  fun s hs => h s (str_mem_leaves_printed hs)

theorem keys_printedMembers : ∀ m : List (String × Json),
    (printedMembers m).map Prod.fst = m.map Prod.fst
  | [] => rfl
  | (_, _) :: m => congrArg (_ :: ·) (keys_printedMembers m)

mutual
/-- Printing changes neither an integer nor a key. -/
theorem representable_printed : ∀ {j : Json}, j.Representable → j.printed.Representable
  | null, h | bool _, h | int _, h | str _, h => h
  | float x, _ => by
      rw [printed]
      split <;> rfl
  | arr js, h => by
      rw [printed]
      exact representableElems_printed h
  | obj m, h => by
      obtain ⟨hkeys, hmembers⟩ := (Bool.and_eq_true _ _).mp h
      rw [printed]
      refine (Bool.and_eq_true _ _).mpr ⟨?_, representableMembers_printed hmembers⟩
      rw [keys_printedMembers]
      exact hkeys

theorem representableElems_printed : ∀ {js : List Json},
    representableElems js = true → representableElems (printedElems js) = true
  | [], h => h
  | j :: js, h => by
      obtain ⟨hj, hjs⟩ := (Bool.and_eq_true _ _).mp h
      exact (Bool.and_eq_true _ _).mpr
        ⟨representable_printed hj, representableElems_printed hjs⟩

theorem representableMembers_printed : ∀ {m : List (String × Json)},
    representableMembers m = true → representableMembers (printedMembers m) = true
  | [], h => h
  | (_, v) :: m, h => by
      obtain ⟨hv, hm⟩ := (Bool.and_eq_true _ _).mp h
      exact (Bool.and_eq_true _ _).mpr
        ⟨representable_printed hv, representableMembers_printed hm⟩
end

theorem lookup_printedMembers (key : String) : ∀ m : List (String × Json),
    lookup key (printedMembers m) = (lookup key m).map Json.printed
  | [] => rfl
  | (k, v) :: m => by
      rw [printedMembers, lookup, lookup, lookup_printedMembers key m]
      split <;> rfl

/-- Printing goes through the members of an object. -/
theorem get?_printed (j : Json) (key : String) :
    j.printed.get? key = (j.get? key).map Json.printed := by
  cases j with
  | obj m =>
      rw [Json.printed]
      exact lookup_printedMembers key m
  | float x =>
      rw [Json.printed]
      split <;> rfl
  | _ => rfl

end Json

/-! ## A library -/

/-- A JSON library over texts: the parser, the printer (an indent asks for the
multi-line layout), and the text with a newline after it. -/
structure JsonText (Text : Type) where
  parse : Text → Except Bytes Json
  dump : Option ℕ → Json → Except Bytes Text
  newline : Text → Text
  /-- The parser rejects invalid UTF-8. -/
  parse_utf8 : ∀ {t j}, parse t = .ok j → j.Utf8
  /-- The printer throws on a string that is not valid UTF-8, and on nothing else. -/
  dump_ok_iff : ∀ {i j}, (∃ t, dump i j = .ok t) ↔ j.Utf8
  /-- What the parser returns is a value that the library can hold. -/
  parse_representable : ∀ {t j}, parse t = .ok j → j.Representable
  /-- Printing keeps such a value, every finite number included. -/
  parse_dump : ∀ {i j t}, j.Representable → dump i j = .ok t → parse t = .ok j.printed
  /-- White space after a value is not part of it. -/
  parse_newline : ∀ {t j}, parse t = .ok j → parse (newline t) = .ok j

namespace JsonText

/-- The library whose texts are the syntax trees. -/
def trees : JsonText Json where
  parse j := if j.Utf8 ∧ j.Representable then .ok j else .error (bytes "parse error")
  dump _ j := if j.Utf8 then .ok j.printed else .error (bytes "invalid UTF-8 byte")
  newline t := t
  parse_utf8 := by
    intro t j h
    split at h
    · rename_i hj
      cases h
      exact hj.1
    · cases h
  parse_representable := by
    intro t j h
    split at h
    · rename_i hj
      cases h
      exact hj.2
    · cases h
  dump_ok_iff := by
    intro _ j
    by_cases h : j.Utf8 <;> simp [h]
  parse_dump := by
    intro _ j t hrep h
    split at h
    · rename_i hj
      cases h
      exact if_pos ⟨hj.printed, Json.representable_printed hrep⟩
    · cases h
  parse_newline h := h

end JsonText
end ProgLib
