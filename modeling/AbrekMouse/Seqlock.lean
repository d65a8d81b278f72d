import AbrekMouse.Machine
import Mathlib.Algebra.Group.Nat.Defs
import Mathlib.Data.List.Induction
import Mathlib.Data.Nat.Notation
import Mathlib.Logic.Function.Basic
import Mathlib.Tactic.SplitIfs

/-! # Seqlocks

A writer makes a counter odd, stores fields one by one, and makes the counter even again or
sets it back to zero.  A reader loads the counter, the fields and the counter again, and
accepts what it has read if the counter is even and has not changed.

As long as nobody has moved the counter when the reader finds its old value, the reader
accepts what the fields hold after some of the writes, and never a part of one
(`accepted_settled`).  Where no write sets the counter back while the reader is between its
loads, only the width of the counter is left to matter (`steady_of_monotone`).
-/
namespace ProgLib

/-- The fields of a payload, and what each write stores into which of them, in order. -/
structure Seqlock (ι α W : Type) where
  fields : List ι
  initial : ι → α
  puts : W → List (ι × α)
  /-- Does the write set the counter back to zero? -/
  resets : W → Bool
  /-- How often the reader tries. -/
  attempts : ℕ

namespace Seqlock
variable {ι α W : Type}

/-- The atomic stores. -/
inductive Store (ι α : Type)
  | bump
  | put (i : ι) (a : α)
  | zero

/-- Where the reader is in its attempt, or what it has accepted. -/
inductive Reader (α : Type)
  | idle (accepted : Option (List α))
  /-- The counter is loaded next. -/
  | first (attempt : ℕ)
  /-- The next field is loaded, or the counter again. -/
  | fields (attempt : ℕ) (generation : UInt64) (got : List α)
deriving DecidableEq

/-- The memory, the rest of the write under way, and the reader. -/
structure State (ι α W : Type) where
  counter : UInt64 := 0
  payload : ι → α
  todo : List (Store ι α) := []
  writing : Option W := none
  reader : Reader α := .idle none
  /-- The writes that are complete. -/
  done : List W := []
  /-- The stores to the counter. -/
  moves : ℕ := 0
  /-- Their number at the reader's first load. -/
  seen : ℕ := 0

/-- The writer begins a write, makes its next store, or the reader makes its next load. -/
inductive Label (W : Type)
  | begin (w : W)
  | store
  | read
  | load

variable (L : Seqlock ι α W)

/-- The last store of a write. -/
def closing (w : W) : Store ι α := if L.resets w then .zero else .bump

/-- The stores of a write, in order. -/
def program (w : W) : List (Store ι α) :=
  .bump :: ((L.puts w).map fun p => .put p.1 p.2) ++ [L.closing w]

/-- Another attempt, or none where they are used up. -/
def retry (attempt : ℕ) : Reader α :=
  if attempt + 1 < L.attempts then .first (attempt + 1) else .idle none

theorem retry_ne_fields (attempt : ℕ) {attempt' : ℕ} {generation : UInt64} {got : List α} :
    L.retry attempt ≠ .fields attempt' generation got := by
  unfold retry
  split_ifs <;> exact nofun

theorem retry_ne_accepted (attempt : ℕ) {got : List α} :
    L.retry attempt ≠ .idle (some got) := by
  unfold retry
  split_ifs <;> exact nofun

/-- The next load of the reader. -/
def load (s : State ι α W) : Option (State ι α W) :=
  match s.reader with
  | .idle _ => none
  | .first attempt => some { s with
      reader :=
        -- nobody has written yet, or the last write has set the counter back
        if s.counter = 0 then .idle none
        else if s.counter &&& 1 ≠ 0 then L.retry attempt
        else .fields attempt s.counter []
      seen := s.moves }
  | .fields attempt generation got =>
      match L.fields[got.length]? with
      | some i => some { s with reader := .fields attempt generation (got ++ [s.payload i]) }
      | none => some { s with
          reader := if generation = s.counter then .idle (some got) else L.retry attempt }

variable [DecidableEq ι]

/-- A store of the writer. -/
def apply (s : State ι α W) : Store ι α → State ι α W
  | .bump => { s with counter := s.counter + 1, moves := s.moves + 1 }
  | .put i a => { s with payload := Function.update s.payload i a }
  | .zero => { s with counter := 0, moves := s.moves + 1 }

/-- The two threads take turns in any order. -/
def step (s : State ι α W) : Label W → Option (State ι α W)
  | .begin w =>
      if s.todo.isEmpty then some { s with todo := L.program w, writing := some w } else none
  | .store =>
      match s.todo with
      | [] => none
      | st :: rest => some { apply s st with
          todo := rest
          done := if rest.isEmpty then s.done ++ s.writing.toList else s.done }
  | .read =>
      match s.reader with
      | .idle _ => some { s with reader := .first 0 }
      | _ => none
  | .load => L.load s

/-- The writer has not begun, and the reader is idle. -/
def machine : Machine (State ι α W) (Label W) where
  Start s := s = { payload := L.initial }
  step := L.step

/-! ## What the writes leave behind -/

/-- The fields after some stores to them. -/
def stored (payload : ι → α) (puts : List (ι × α)) : ι → α :=
  puts.foldl (fun payload p => Function.update payload p.1 p.2) payload

/-- The fields after complete writes. -/
def settled (done : List W) : ι → α :=
  done.foldl (fun payload w => stored payload (L.puts w)) L.initial

/-- The counter after complete writes. -/
def generation (done : List W) : UInt64 :=
  done.foldl (fun counter w => if L.resets w then 0 else counter + 2) 0

omit [DecidableEq ι] in
theorem generation_concat (done : List W) (w : W) :
    L.generation (done ++ [w]) = if L.resets w then 0 else L.generation done + 2 := by
  rw [generation, List.foldl_append]
  rfl

theorem settled_concat (done : List W) (w : W) :
    L.settled (done ++ [w]) = stored (L.settled done) (L.puts w) := by
  rw [settled, List.foldl_append]
  rfl

theorem stored_concat (payload : ι → α) (puts : List (ι × α)) (p : ι × α) :
    stored payload (puts ++ [p]) = Function.update (stored payload puts) p.1 p.2 := by
  rw [stored, List.foldl_append]
  rfl

/-- What is stored last is there. -/
theorem stored_of_map (payload v : ι → α) {is : List ι} {i : ι} (hi : i ∈ is) :
    stored payload (is.map fun i => (i, v i)) i = v i := by
  -- from the last store back: what it has not overwritten, those before it have stored
  induction is using List.reverseRecOn with
  | nil => cases hi
  | append_singleton is j ih =>
      rw [List.map_append, List.map_singleton, stored_concat]
      by_cases hij : i = j
      · subst hij
        exact Function.update_self ..
      · rw [Function.update_of_ne hij]
        refine ih ((List.mem_append.mp hi).resolve_right fun hj => ?_)
        exact hij (List.mem_singleton.mp hj)

theorem even_iff {c : UInt64} : c &&& 1 = 0 ↔ c.toNat % 2 = 0 := by
  rw [← UInt64.toNat_inj, UInt64.toNat_and]
  exact Iff.of_eq (congrArg (· = 0) (Nat.and_two_pow_sub_one_eq_mod c.toNat 1))

theorem odd_of_even {c : UInt64} (h : c &&& 1 = 0) : c + 1 &&& 1 ≠ 0 := by
  rw [even_iff] at h
  rw [Ne, even_iff, UInt64.toNat_add]
  show ¬(c.toNat + 1) % 2 ^ 64 % 2 = 0
  omega

omit [DecidableEq ι] in
theorem generation_even (done : List W) : L.generation done &&& 1 = 0 := by
  induction done using List.reverseRecOn with
  | nil =>
      show (0 : UInt64) &&& 1 = 0
      decide
  | append_singleton done w ih =>
      rw [generation_concat]
      split_ifs
      · decide
      · rw [even_iff] at ih ⊢
        rw [UInt64.toNat_add]
        show ((L.generation done).toNat + 2) % 2 ^ 64 % 2 = 0
        omega

/-! ## Runs -/

/-- The reader is about to accept. -/
def accepts (s : State ι α W) : Bool :=
  match s.reader with
  | .fields _ generation got => L.fields.length ≤ got.length && generation = s.counter
  | _ => false

/-- The reader accepts only if nobody has moved the counter since its first load, and only
after good writes. -/
def steady (good : List W → Bool) (s : State ι α W) : Label W → Bool
  | .load => !L.accepts s || s.moves = s.seen && good s.done
  | _ => true

/-- Where the writer is. -/
inductive Phase (s : State ι α W) : Prop
  | rest : s.todo = [] → s.counter = L.generation s.done → s.payload = L.settled s.done → Phase s
  | begun (w : W) : s.writing = some w → s.todo = L.program w →
      s.counter = L.generation s.done → s.payload = L.settled s.done → Phase s
  | stores (w : W) (before after : List (ι × α)) : s.writing = some w →
      L.puts w = before ++ after →
      s.todo = after.map (fun p => Store.put p.1 p.2) ++ [L.closing w] →
      s.counter = L.generation s.done + 1 →
      s.payload = stored (L.settled s.done) before → Phase s

/-- The reader has the fields as they are, unless the counter has been moved; what it has
accepted are the fields after some of the writes. -/
structure Sound (good : List W → Bool) (s : State ι α W) : Prop where
  phase : L.Phase s
  seen : s.seen ≤ s.moves
  reading : ∀ {attempt generation got}, s.reader = .fields attempt generation got →
    s.moves = s.seen → generation = s.counter ∧ s.counter &&& 1 = 0 ∧ s.counter ≠ 0 ∧
      got = (L.fields.take got.length).map s.payload
  accepted : ∀ {got}, s.reader = .idle (some got) → ∃ done, done <+: s.done ∧
    good done = true ∧ L.generation done ≠ 0 ∧ got = L.fields.map (L.settled done)

variable {L} {good : List W → Bool} {s t : State ι α W}

/-- An even counter: no field has been stored to since the last write. -/
theorem Phase.of_even (h : L.Phase s) (heven : s.counter &&& 1 = 0) :
    s.counter = L.generation s.done ∧ s.payload = L.settled s.done := by
  cases h with
  | rest _ hcounter hpayload => exact ⟨hcounter, hpayload⟩
  | begun w _ _ hcounter hpayload => exact ⟨hcounter, hpayload⟩
  | stores w before after _ _ _ hcounter _ =>
      rw [hcounter] at heven
      exact absurd heven (odd_of_even (L.generation_even s.done))

/-- The reader changes nothing. -/
theorem Phase.read (h : L.Phase s) (reader : Reader α) (seen : ℕ) :
    L.Phase { s with reader := reader, seen := seen } := by
  cases h with
  | rest htodo hcounter hpayload => exact .rest htodo hcounter hpayload
  | begun w hwriting htodo hcounter hpayload => exact .begun w hwriting htodo hcounter hpayload
  | stores w before after hwriting hputs htodo hcounter hpayload =>
      exact .stores w before after hwriting hputs htodo hcounter hpayload

theorem step_store_cons {st : Store ι α} {rest : List (Store ι α)} (htodo : s.todo = st :: rest)
    (hrest : rest ≠ []) : L.step s .store = some { apply s st with todo := rest } := by
  have hempty : ¬rest.isEmpty = true := fun h => hrest (List.isEmpty_iff.mp h)
  unfold step
  rw [htodo]
  dsimp only
  rw [if_neg hempty]
  cases st with
  | _ => rfl

theorem step_store_last {st : Store ι α} (htodo : s.todo = [st]) :
    L.step s .store =
      some { apply s st with todo := [], done := s.done ++ s.writing.toList } := by
  unfold step
  rw [htodo]
  rfl

namespace Sound

/-- A step of the writer that moves the counter. -/
theorem move (h : L.Sound good s) (hphase : L.Phase t) (hreader : t.reader = s.reader)
    (hmoves : t.moves = s.moves + 1) (hseen : t.seen = s.seen) (hdone : s.done <+: t.done) :
    L.Sound good t where
  phase := hphase
  seen := by
    have := h.seen
    omega
  reading _ hunmoved := by
    have := h.seen
    omega
  accepted hgot := by
    obtain ⟨done, hprefix, hrest⟩ := h.accepted (hreader ▸ hgot)
    exact ⟨done, hprefix.trans hdone, hrest⟩

theorem begin {w : W} (h : L.Sound good s) (hstep : L.step s (.begin w) = some t) :
    L.Sound good t := by
  change (if _ then _ else _) = _ at hstep
  split_ifs at hstep with hempty
  cases hstep
  have htodo : s.todo = [] := List.isEmpty_iff.mp hempty
  refine { h with phase := ?_ }
  cases h.phase with
  | rest _ hcounter hpayload => exact .begun w rfl rfl hcounter hpayload
  | begun w' _ htodo' => cases htodo'.symm.trans htodo
  | stores w' before after _ _ htodo' =>
      exact absurd (htodo'.symm.trans htodo) (List.concat_ne_nil _ _)

theorem store (h : L.Sound good s) (hstep : L.step s .store = some t) : L.Sound good t := by
  have hwriter := h.phase
  cases hwriter with
  | rest htodo =>
      unfold step at hstep
      rw [htodo] at hstep
      cases hstep
  | begun w hwriting htodo hcounter hpayload =>
      rw [step_store_cons htodo (List.concat_ne_nil _ _)] at hstep
      cases hstep
      refine h.move (.stores w [] (L.puts w) hwriting rfl rfl ?_ hpayload) rfl rfl rfl
        List.prefix_rfl
      exact congrArg (· + 1) hcounter
  | stores w before after hwriting hputs htodo hcounter hpayload =>
      cases after with
      | nil =>
          -- the closing store, with which the write counts as done
          rw [step_store_last htodo, hwriting] at hstep
          cases hstep
          rw [List.append_nil] at hputs
          have hpayload' : s.payload = L.settled (s.done ++ [w]) := by
            rw [hpayload, settled_concat, hputs]
          have hgeneration := L.generation_concat s.done w
          by_cases hresets : L.resets w = true
          · rw [if_pos hresets] at hgeneration
            have hclosing : L.closing w = .zero := if_pos hresets
            rw [hclosing]
            exact h.move (.rest rfl hgeneration.symm hpayload') rfl rfl rfl
              (List.prefix_append _ _)
          · rw [if_neg hresets] at hgeneration
            have hclosing : L.closing w = .bump := if_neg hresets
            rw [hclosing]
            refine h.move (.rest rfl ?_ hpayload') rfl rfl rfl (List.prefix_append _ _)
            show s.counter + 1 = L.generation (s.done ++ [w])
            rw [hgeneration, hcounter, UInt64.add_assoc]
            rfl
      | cons p after =>
          have hodd : s.counter &&& 1 ≠ 0 := by
            rw [hcounter]
            exact odd_of_even (L.generation_even s.done)
          rw [step_store_cons htodo (List.concat_ne_nil _ _)] at hstep
          cases hstep
          -- the counter is odd, so the reader has seen another one
          refine { h with phase := ?_, reading := fun hreader hunmoved => ?_ }
          · refine .stores w (before ++ [p]) after hwriting ?_ rfl hcounter ?_
            · rw [hputs, List.append_assoc, List.singleton_append]
            · show Function.update s.payload p.1 p.2 = stored (L.settled s.done) (before ++ [p])
              rw [stored_concat, hpayload]
          · exact absurd (h.reading hreader hunmoved).2.1 hodd

theorem read (h : L.Sound good s) (hstep : L.step s .read = some t) : L.Sound good t := by
  unfold step at hstep
  dsimp only at hstep
  split at hstep
  · cases hstep
    exact ⟨h.phase.read _ _, h.seen, nofun, nofun⟩
  · cases hstep

theorem load (h : L.Sound good s) (hsteady : L.steady good s .load)
    (hstep : L.step s .load = some t) : L.Sound good t := by
  change L.load s = some t at hstep
  unfold Seqlock.load at hstep
  split at hstep
  · cases hstep
  · rename_i attempt hreader
    cases hstep
    refine ⟨h.phase.read _ _, Nat.le_refl _, fun hreader' _ => ?_, fun hreader' => ?_⟩
    · dsimp only at hreader'
      split_ifs at hreader' with hzero hodd
      · exact absurd hreader' (L.retry_ne_fields attempt)
      · cases hreader'
        exact ⟨rfl, not_not.mp hodd, hzero, rfl⟩
    · dsimp only at hreader'
      split_ifs at hreader' with hzero hodd
      · cases hreader'
      · exact absurd hreader' (L.retry_ne_accepted attempt)
  · rename_i attempt generation got hreader
    split at hstep
    · rename_i i hi
      cases hstep
      refine ⟨h.phase.read _ _, h.seen, fun hreader' hunmoved => ?_, nofun⟩
      cases hreader'
      obtain ⟨hgeneration, heven, hzero, hgot⟩ := h.reading hreader hunmoved
      refine ⟨hgeneration, heven, hzero, ?_⟩
      rw [List.length_append, List.length_singleton, List.take_add_one, hi, List.map_append,
        ← hgot]
      rfl
    · rename_i hall
      cases hstep
      have hlength : L.fields.length ≤ got.length := List.getElem?_eq_none_iff.mp hall
      refine ⟨h.phase.read _ _, h.seen, fun hreader' => ?_, fun hreader' => ?_⟩
      · dsimp only at hreader'
        split_ifs at hreader'
        exact absurd hreader' (L.retry_ne_fields attempt)
      · dsimp only at hreader'
        split_ifs at hreader' with hsame
        · cases hreader'
          simp only [steady, accepts, hreader, hlength, hsame, decide_true, Bool.and_self,
            Bool.not_true, Bool.false_or, Bool.and_eq_true, decide_eq_true_eq] at hsteady
          obtain ⟨hunmoved, hgood⟩ := hsteady
          obtain ⟨-, heven, hzero, hgot⟩ := h.reading hreader hunmoved
          obtain ⟨hcounter, hpayload⟩ := h.phase.of_even heven
          refine ⟨s.done, List.prefix_rfl, hgood, hcounter ▸ hzero, ?_⟩
          rw [List.take_of_length_le hlength] at hgot
          rw [hgot, hpayload]
        · exact absurd hreader' (L.retry_ne_accepted attempt)

theorem step {l : Label W} (h : L.Sound good s) (hsteady : L.steady good s l)
    (hstep : L.step s l = some t) : L.Sound good t := by
  cases l with
  | begin w => exact h.begin hstep
  | store => exact h.store hstep
  | read => exact h.read hstep
  | load => exact h.load hsteady hstep

theorem start (hstart : L.machine.Start s) : L.Sound good s := by
  cases hstart
  exact ⟨.rest rfl rfl rfl, Nat.le_refl _, nofun, nofun⟩

end Sound

/-- **A snapshot is what some of the writes have left behind.** -/
theorem accepted_settled (hrun : L.machine.Run (fun s l => L.steady good s l) s)
    {got : List α} (hgot : s.reader = .idle (some got)) :
    ∃ done, done <+: s.done ∧ good done = true ∧ L.generation done ≠ 0 ∧
      got = L.fields.map (L.settled done) := by
  have hsound : L.Sound good s :=
    hrun.invariant (fun _ => Sound.start) fun _ _ _ h hsteady hstep => h.step hsteady hstep
  exact hsound.accepted hgot

/-! ## Without resets -/

/-- While the reader is between its loads of the counter, no write sets it back, and it does
not go round. -/
def monotone (good : List W → Bool) (s : State ι α W) : Label W → Bool
  | .store => match s.reader, s.todo with
      | .fields .., .zero :: _ => false
      | .fields .., .bump :: _ => s.moves - s.seen + 1 < 2 ^ 64
      | _, _ => true
  | .load => !L.accepts s || good s.done
  | _ => true

/-- The counter has gone on from the value that the reader has. -/
structure Onward (s : State ι α W) : Prop where
  seen : s.seen ≤ s.moves
  reading : ∀ {attempt generation got}, s.reader = .fields attempt generation got →
    s.moves - s.seen < 2 ^ 64 ∧ s.counter = generation + UInt64.ofNat (s.moves - s.seen)

namespace Onward

theorem start (hstart : L.machine.Start s) : Onward s := by
  cases hstart
  exact ⟨Nat.le_refl _, nofun⟩

theorem store (h : Onward s) (hmonotone : L.monotone good s .store)
    (hstep : L.step s .store = some t) : Onward t := by
  unfold step at hstep
  cases htodo : s.todo with
  | nil =>
      rw [htodo] at hstep
      cases hstep
  | cons st rest =>
      rw [htodo] at hstep
      cases hstep
      have hseen := h.seen
      cases st with
      | put i a => exact ⟨hseen, h.reading⟩
      | bump =>
          refine ⟨Nat.le_succ_of_le hseen, fun {attempt generation got} hreader => ?_⟩
          have hreader : s.reader = .fields attempt generation got := hreader
          obtain ⟨-, hcounter⟩ := h.reading hreader
          have hmoves : s.moves + 1 - s.seen = s.moves - s.seen + 1 := by omega
          have hwidth : s.moves - s.seen + 1 < 2 ^ 64 := by
            simpa only [monotone, hreader, htodo, decide_eq_true_eq] using hmonotone
          show s.moves + 1 - s.seen < 2 ^ 64 ∧
            s.counter + 1 = generation + UInt64.ofNat (s.moves + 1 - s.seen)
          rw [hmoves]
          refine ⟨hwidth, ?_⟩
          rw [hcounter, UInt64.add_assoc, UInt64.ofNat_add]
          rfl
      | zero =>
          refine ⟨Nat.le_succ_of_le hseen, fun {attempt generation got} hreader => ?_⟩
          have hreader : s.reader = .fields attempt generation got := hreader
          simp only [monotone, hreader, htodo, Bool.false_eq_true] at hmonotone

theorem load (h : Onward s) (hstep : L.step s .load = some t) : Onward t := by
  change L.load s = some t at hstep
  unfold Seqlock.load at hstep
  split at hstep
  · cases hstep
  · rename_i attempt hreader
    cases hstep
    refine ⟨Nat.le_refl _, fun hreader' => ?_⟩
    dsimp only at hreader'
    split_ifs at hreader' with hzero hodd
    · exact absurd hreader' (L.retry_ne_fields attempt)
    · cases hreader'
      rw [Nat.sub_self]
      exact ⟨by decide, (UInt64.add_zero _).symm⟩
  · rename_i attempt generation got hreader
    split at hstep
    · cases hstep
      refine ⟨h.seen, fun hreader' => ?_⟩
      cases hreader'
      exact h.reading hreader
    · cases hstep
      refine ⟨h.seen, fun hreader' => ?_⟩
      dsimp only at hreader'
      split_ifs at hreader'
      exact absurd hreader' (L.retry_ne_fields attempt)

theorem step {l : Label W} (h : Onward s) (hmonotone : L.monotone good s l)
    (hstep : L.step s l = some t) : Onward t := by
  cases l with
  | begin w =>
      change (if _ then _ else _) = _ at hstep
      split_ifs at hstep
      cases hstep
      exact ⟨h.seen, h.reading⟩
  | store => exact h.store hmonotone hstep
  | read =>
      unfold Seqlock.step at hstep
      dsimp only at hstep
      split at hstep
      · cases hstep
        exact ⟨h.seen, nofun⟩
      · cases hstep
  | load => exact h.load hstep

omit [DecidableEq ι] in
/-- The counter has its old value only if it has not been moved. -/
theorem steady {l : Label W} (h : Onward s) (hmonotone : L.monotone good s l) :
    L.steady good s l := by
  cases l with
  | load =>
      unfold Seqlock.steady
      dsimp only
      by_cases haccepts : L.accepts s = true
      · have hgood : good s.done = true := by simpa [monotone, haccepts] using hmonotone
        have hunmoved : s.moves = s.seen := by
          unfold accepts at haccepts
          split at haccepts
          · rename_i attempt generation got hreader
            rw [Bool.and_eq_true, decide_eq_true_eq, decide_eq_true_eq] at haccepts
            obtain ⟨hwidth, hcounter⟩ := h.reading hreader
            rw [← haccepts.2, ← UInt64.toNat_inj, UInt64.toNat_add,
              UInt64.toNat_ofNat_of_lt' hwidth] at hcounter
            have hlt := generation.toNat_lt
            have hseen := h.seen
            omega
          · cases haccepts
        simp [haccepts, hgood, hunmoved]
      · simp [haccepts]
  | _ => rfl

end Onward

/-- A run in which the counter goes on is steady. -/
theorem steady_of_monotone (hrun : L.machine.Run (fun s l => L.monotone good s l) s) :
    L.machine.Run (fun s l => L.steady good s l) s ∧ Onward s := by
  induction hrun with
  | start hstart => exact ⟨.start hstart, Onward.start hstart⟩
  | step _ hmonotone hstep ih =>
      obtain ⟨hrun, honward⟩ := ih
      exact ⟨hrun.step (honward.steady hmonotone) hstep, honward.step hmonotone hstep⟩

end Seqlock
end ProgLib
