import AbrekMouse.HardwareSettings
import AbrekMouse.RefusedWrites

/-! # DPI lists

A mouse writes its DPI levels as words: a level, or a step marker with the last level of the
step.  A zero word ends the list, and the rest of the last report is zero.  The words come in
chunks of an odd length, so they straddle the chunks, and the host stops at a chunk that ends
with two zero bytes, wherever in a word they are.  In an increasing table two zero bytes come
together only behind it (`Separated`), so what has been read when the host stops is all of it
(`dpi_list_reassembled`).
-/
namespace AbrekMouse
open ProgLib

/-! ## Tables -/

/-- An entry of a list of levels: a level, or a range in steps. -/
inductive DpiEntry
  | level (v : UInt16)
  | steps (step last : UInt16)

/-- The levels from `prev` on at the distance of the step, and the last one. -/
def stepsTo (step last prev : ℕ) : List ℕ :=
  (List.range ((last - prev) / step)).map (fun i => prev + step + i * step) ++
    if step ∣ last - prev then [] else [last]

/-- The levels of a table, behind `prev`. -/
def expand (prev : ℕ) : List DpiEntry → List ℕ
  | [] => []
  | .level v :: es => v.toNat :: expand v.toNat es
  | .steps step last :: es => stepsTo step.toNat last.toNat prev ++ expand last.toNat es

/-- Each level is above the one before it; behind a level there may be steps. -/
def Increasing (prev : ℕ) : List DpiEntry → Prop
  | [] => True
  | .level v :: es => prev < v.toNat ∧ v.toNat ≤ 0xDFFF ∧ Increasing v.toNat es
  | .steps step last :: es => 0 < prev ∧ 1 ≤ step.toNat ∧ step.toNat ≤ 0x1FFF ∧
      prev + step.toNat ≤ last.toNat ∧ Increasing last.toNat es

instance decidableIncreasing : ∀ (prev : ℕ) (es : List DpiEntry), Decidable (Increasing prev es)
  | _, [] => .isTrue trivial
  | prev, .level v :: es =>
      have := decidableIncreasing v.toNat es
      inferInstanceAs (Decidable (prev < v.toNat ∧ v.toNat ≤ 0xDFFF ∧ Increasing v.toNat es))
  | prev, .steps step last :: es =>
      have := decidableIncreasing last.toNat es
      inferInstanceAs (Decidable (0 < prev ∧ 1 ≤ step.toNat ∧ step.toNat ≤ 0x1FFF ∧
        prev + step.toNat ≤ last.toNat ∧ Increasing last.toNat es))

/-- The words of a table. -/
def dpiWords : List DpiEntry → List UInt16
  | [] => []
  | .level v :: es => v :: dpiWords es
  | .steps step last :: es => (0xE000 + step) :: last :: dpiWords es

/-- The bytes of words, the high one first. -/
def wordBytes (words : List UInt16) : Bytes :=
  words.flatMap fun (w : UInt16) => [(w >>> 8).toUInt8, w.toUInt8]

/-! ## Steps -/

variable {step last prev : ℕ} {levels : List UInt16}

theorem pushLevels_eq {n : ℕ} : ∀ {room next : ℕ} {levels : List UInt16}, n ≤ room →
    (∀ i < n, next + i * step ≤ last) → last < next + n * step →
    pushLevels step last room next levels =
      levels ++ (List.range n).map fun i => UInt16.ofNat (next + i * step) := by
  -- on the number of levels that are left
  induction n with
  | zero =>
      intro room next levels _ _ hlast
      have hend : ¬next ≤ last := by omega
      cases room with
      | zero => exact (List.append_nil levels).symm
      | succ room =>
          rw [pushLevels, if_neg hend]
          exact (List.append_nil levels).symm
  | succ n ih =>
      intro room next levels hroom hle hlast
      obtain ⟨room, rfl⟩ : ∃ r, room = r + 1 := ⟨room - 1, by omega⟩
      have hnext : next ≤ last := by simpa using hle 0 (Nat.succ_pos n)
      have hmul : ∀ i, next + step + i * step = next + (i + 1) * step := by
        intro i
        rw [Nat.succ_mul]
        omega
      rw [pushLevels, if_pos hnext, ih (by omega)
        (fun i hi => (hmul i).trans_le (hle (i + 1) (by omega))) (by rw [hmul]; exact hlast),
        List.range_succ_eq_map, List.map_cons, List.map_map, List.append_assoc,
        List.singleton_append]
      have hrest : ((fun i => UInt16.ofNat (next + i * step)) ∘ Nat.succ) =
          fun i => UInt16.ofNat (next + step + i * step) := by
        funext i
        exact congrArg UInt16.ofNat (hmul i).symm
      rw [hrest, Nat.zero_mul, Nat.add_zero]

theorem stepsTo_getLast? (hstep : 1 ≤ step) (hlast : prev + step ≤ last) :
    (stepsTo step last prev).getLast? = some last := by
  have hdiv := Nat.div_add_mod (last - prev) step
  have hpos : 0 < (last - prev) / step := Nat.div_pos (by omega) hstep
  unfold stepsTo
  split_ifs with hdvd
  · obtain ⟨m, hm⟩ : ∃ m, (last - prev) / step = m + 1 := ⟨(last - prev) / step - 1, by omega⟩
    rw [hm, Nat.mul_comm, Nat.succ_mul, Nat.mod_eq_zero_of_dvd hdvd] at hdiv
    rw [hm, List.append_nil, List.range_succ, List.map_append, List.map_cons, List.map_nil,
      List.getLast?_concat]
    exact congrArg some (by omega)
  · exact List.getLast?_concat

/-- **A step marker** puts the levels of the step behind the levels so far. -/
theorem stepLevels_eq {step last back : UInt16} (hback : levels.getLast? = some back)
    (hstep : 1 ≤ step.toNat) (hlast : back.toNat + step.toNat ≤ last.toNat)
    (hroom : levels.length + (stepsTo step.toNat last.toNat back.toNat).length ≤ 2048) :
    stepLevels step last levels =
      levels ++ (stepsTo step.toNat last.toNat back.toNat).map UInt16.ofNat := by
  have hnonzero : step ≠ 0 := by
    rintro rfl
    exact absurd hstep (by decide)
  have hlt : back < last := UInt16.lt_iff_toNat_lt.mpr (by omega)
  have hbound := last.toNat_lt
  unfold stepsTo at hroom ⊢
  generalize hn : (last.toNat - back.toNat) / step.toNat = n at hroom ⊢
  rw [List.length_append, List.length_map, List.length_range] at hroom
  have hdiv := Nat.div_add_mod (last.toNat - back.toNat) step.toNat
  have hmod := Nat.mod_lt (last.toNat - back.toNat) hstep
  have hpos : 0 < n := hn ▸ Nat.div_pos (by omega) hstep
  rw [hn, Nat.mul_comm] at hdiv
  have hpushed : pushLevels step.toNat last.toNat (2048 - levels.length)
      (back.toNat + step.toNat) levels = levels ++ (List.range n).map fun i =>
        UInt16.ofNat (back.toNat + step.toNat + i * step.toNat) := by
    refine pushLevels_eq (by omega) (fun i hi => ?_) (by omega)
    have hmul : (i + 1) * step.toNat ≤ n * step.toNat := Nat.mul_le_mul_right _ hi
    rw [Nat.succ_mul] at hmul
    omega
  obtain ⟨m, rfl⟩ : ∃ m, n = m + 1 := ⟨n - 1, by omega⟩
  have hend : (levels ++ (List.range (m + 1)).map fun i =>
      UInt16.ofNat (back.toNat + step.toNat + i * step.toNat)).getLast? =
      some (UInt16.ofNat (back.toNat + (m + 1) * step.toNat)) := by
    rw [List.range_succ, List.map_append, ← List.append_assoc, List.map_cons, List.map_nil,
      List.getLast?_concat, Nat.succ_mul]
    exact congrArg (fun v => some (UInt16.ofNat v)) (by omega)
  have hlength : (levels ++ (List.range (m + 1)).map fun i =>
      UInt16.ofNat (back.toNat + step.toNat + i * step.toNat)).length =
      levels.length + (m + 1) := by
    rw [List.length_append, List.length_map, List.length_range]
  unfold stepLevels
  rw [hback]
  dsimp only
  rw [if_pos ⟨hnonzero, hlt⟩, hpushed, hend, hlength]
  by_cases hdvd : step.toNat ∣ last.toNat - back.toNat
  · -- the last level is one of the step
    have hrest := Nat.mod_eq_zero_of_dvd hdvd
    have hreached : UInt16.ofNat (back.toNat + (m + 1) * step.toNat) = last := by
      rw [← UInt16.ofNat_toNat (x := last)]
      exact congrArg UInt16.ofNat (by omega)
    rw [if_neg (fun h => h.2 (congrArg some hreached)), if_pos hdvd, List.append_nil, List.map_map]
    rfl
  · rw [if_neg hdvd] at hroom
    have hrest : (last.toNat - back.toNat) % step.toNat ≠ 0 :=
      fun h => hdvd (Nat.dvd_of_mod_eq_zero h)
    have hmissed : UInt16.ofNat (back.toNat + (m + 1) * step.toNat) ≠ last := by
      intro h
      have hvalue := congrArg UInt16.toNat h
      rw [UInt16.toNat_ofNat', Nat.mod_eq_of_lt (by omega)] at hvalue
      omega
    rw [List.length_singleton] at hroom
    rw [if_pos ⟨by omega, fun h => hmissed (Option.some.inj h)⟩, if_neg hdvd, List.map_append,
      List.map_map, List.append_assoc, List.map_cons, List.map_nil, UInt16.ofNat_toNat]
    rfl

/-! ## Words -/

theorem wordBytes_cons (w : UInt16) (words : List UInt16) :
    wordBytes (w :: words) = (w >>> 8).toUInt8 :: w.toUInt8 :: wordBytes words := rfl

theorem length_wordBytes (words : List UInt16) : (wordBytes words).length = 2 * words.length := by
  induction words with
  | nil => rfl
  | cons w words ih =>
      rw [wordBytes_cons, List.length_cons, List.length_cons, List.length_cons, ih]
      omega

theorem toNat_marker {step : UInt16} (h : step.toNat ≤ 0x1FFF) :
    (0xE000 + step).toNat = 0xE000 + step.toNat := by
  rw [UInt16.toNat_add]
  exact Nat.mod_eq_of_lt (by have hE : UInt16.toNat 0xE000 = 0xE000 := rfl; omega)

theorem shiftRight_13 (w : UInt16) : (w >>> 13).toNat = w.toNat / 0x2000 := by
  have hthirteen : UInt16.toNat 13 % 16 = 13 := rfl
  rw [UInt16.toNat_shiftRight, hthirteen, Nat.shiftRight_eq_div_pow]

theorem isMarker_iff (w : UInt16) : w >>> 13 = 0x07 ↔ 0xE000 ≤ w.toNat := by
  have hlt := w.toNat_lt
  have hseven : UInt16.toNat 0x07 = 7 := rfl
  rw [← UInt16.toNat_inj, shiftRight_13, hseven]
  omega

theorem marker_step {step : UInt16} (h : step.toNat ≤ 0x1FFF) :
    (0xE000 + step) &&& 0x1FFF = step := by
  have hmask : UInt16.toNat 0x1FFF = 2 ^ 13 - 1 := rfl
  rw [← UInt16.toNat_inj, UInt16.toNat_and, toNat_marker h, hmask, Nat.and_two_pow_sub_one_eq_mod]
  omega

variable {words : List UInt16} {tail : Bytes}

theorem decode_level {v : UInt16} (hpos : 0 < v.toNat) (hlevel : v.toNat ≤ 0xDFFF) :
    decodeDpiLevels (wordBytes (v :: words) ++ tail) levels =
      decodeDpiLevels (wordBytes words ++ tail) (levels ++ [v]) := by
  have hnonzero : v ≠ 0 := by
    rintro rfl
    exact absurd hpos (by decide)
  have hplain : ¬v >>> 13 = 0x07 := fun h => by
    have hmarker := (isMarker_iff v).mp h
    omega
  rw [wordBytes_cons, List.cons_append, List.cons_append]
  conv_lhs => unfold decodeDpiLevels
  rw [readBe16_split, if_neg hnonzero, if_neg hplain]

theorem decode_steps {step last : UInt16} (hstep : step.toNat ≤ 0x1FFF) :
    decodeDpiLevels (wordBytes ((0xE000 + step) :: last :: words) ++ tail) levels =
      decodeDpiLevels (wordBytes words ++ tail) (stepLevels step last levels) := by
  have hvalue := toNat_marker hstep
  have hnonzero : 0xE000 + step ≠ 0 := by
    intro h
    have hzero : UInt16.toNat 0 = 0 := rfl
    rw [h, hzero] at hvalue
    omega
  have hmarker : (0xE000 + step) >>> 13 = 0x07 := (isMarker_iff _).mpr (by omega)
  rw [wordBytes_cons, wordBytes_cons, List.cons_append, List.cons_append, List.cons_append,
    List.cons_append]
  conv_lhs => unfold decodeDpiLevels
  rw [readBe16_split, if_neg hnonzero, if_pos hmarker]
  dsimp only
  rw [readBe16_split, marker_step hstep]

/-- A zero word ends the list, and so does its first byte alone. -/
theorem decode_zeros (n : ℕ) : decodeDpiLevels (List.replicate n 0) levels = levels := by
  cases n with
  | zero => rfl
  | succ n =>
      cases n with
      | zero => rfl
      | succ n =>
          have hzero : readBe16 0 0 = 0 := by decide
          rw [List.replicate_succ, List.replicate_succ]
          unfold decodeDpiLevels
          rw [if_pos hzero]

/-- **A table is decoded to its levels**, whatever number of zeros comes behind it. -/
theorem decode_table (n : ℕ) : ∀ {es : List DpiEntry} {prev : ℕ} {levels : List UInt16},
    Increasing prev es → (0 < prev → ∃ back, levels.getLast? = some back ∧ back.toNat = prev) →
    levels.length + (expand prev es).length ≤ 2048 →
    decodeDpiLevels (wordBytes (dpiWords es) ++ List.replicate n 0) levels =
      levels ++ (expand prev es).map UInt16.ofNat
  | [], _, levels, _, _, _ => (decode_zeros n).trans (List.append_nil levels).symm
  | .level v :: es, prev, levels, h, hback, hroom => by
      obtain ⟨hlt, hlevel, hrest⟩ := h
      rw [expand, List.length_cons] at hroom
      rw [dpiWords, decode_level (by omega) hlevel, expand, List.map_cons, UInt16.ofNat_toNat,
        decode_table n hrest (fun _ => ⟨v, List.getLast?_concat, rfl⟩)
          (by rw [List.length_append, List.length_singleton]; omega),
        List.append_assoc, List.singleton_append]
  | .steps step last :: es, prev, levels, h, hback, hroom => by
      obtain ⟨hprev, hpos, hstep, hlast, hrest⟩ := h
      obtain ⟨back, hgetLast, rfl⟩ := hback hprev
      rw [expand, List.length_append] at hroom
      rw [dpiWords, decode_steps hstep, stepLevels_eq hgetLast hpos hlast (by omega), expand,
        List.map_append, ← List.append_assoc]
      refine decode_table n hrest (fun _ => ⟨last, ?_, rfl⟩) ?_
      · rw [List.getLast?_append, List.getLast?_map, stepsTo_getLast? hpos hlast, Option.map_some,
          Option.some_or, UInt16.ofNat_toNat]
      · rw [List.length_append, List.length_map]
        omega

/-- The levels of a table are words. -/
theorem lt_of_mem_expand : ∀ {es : List DpiEntry} {prev : ℕ}, Increasing prev es →
    ∀ v ∈ expand prev es, v < 65536
  | [], _, _, _, hv => by cases hv
  | .level w :: es, _, h, v, hv => by
      rcases List.mem_cons.mp hv with rfl | hv
      · exact w.toNat_lt
      · exact lt_of_mem_expand h.2.2 v hv
  | .steps step last :: es, prev, h, v, hv => by
      obtain ⟨-, hpos, -, hlast, hrest⟩ := h
      have hbound := last.toNat_lt
      rcases List.mem_append.mp hv with hv | hv
      · rcases List.mem_append.mp hv with hv | hv
        · obtain ⟨i, hi, rfl⟩ := List.mem_map.mp hv
          have hdiv := Nat.div_mul_le_self (last.toNat - prev) step.toNat
          have hmul : (i + 1) * step.toNat ≤ (last.toNat - prev) / step.toNat * step.toNat :=
            Nat.mul_le_mul_right _ (List.mem_range.mp hi)
          rw [Nat.succ_mul] at hmul
          omega
        · split_ifs at hv
          · cases hv
          · rw [List.mem_singleton.mp hv]
            exact hbound
      · exact lt_of_mem_expand hrest v hv

/-! ## Where two zero bytes come together -/

/-- Between two words there are not two zero bytes. -/
def Separated (w w' : UInt16) : Prop := 256 ∣ w.toNat → 256 ≤ w'.toNat

theorem separated_words : ∀ {es : List DpiEntry} {w : UInt16}, 0 < w.toNat →
    Increasing w.toNat es →
    (∀ v ∈ dpiWords es, v ≠ 0) ∧ List.IsChain Separated (w :: dpiWords es)
  | [], w, _, _ => ⟨nofun, List.isChain_singleton w⟩
  | .level v :: es, w, hw, h => by
      obtain ⟨hlt, -, hrest⟩ := h
      obtain ⟨hnonzero, hchain⟩ := separated_words (by omega) hrest
      have hv : v ≠ 0 := by
        rintro rfl
        exact absurd hlt (Nat.not_lt_zero _)
      have hsep : Separated w v := by
        intro hdvd
        have hle := Nat.le_of_dvd hw hdvd
        omega
      exact ⟨List.forall_mem_cons.mpr ⟨hv, hnonzero⟩, List.isChain_cons_cons.mpr ⟨hsep, hchain⟩⟩
  | .steps step last :: es, w, hw, h => by
      obtain ⟨-, hpos, hstep, hlast, hrest⟩ := h
      obtain ⟨hnonzero, hchain⟩ := separated_words (by omega) hrest
      have hmarker := toNat_marker hstep
      have hnonzeroMarker : 0xE000 + step ≠ 0 := by
        intro h
        have hzero : UInt16.toNat 0 = 0 := rfl
        rw [h, hzero] at hmarker
        omega
      have hnonzeroLast : last ≠ 0 := by
        rintro rfl
        have hzero : UInt16.toNat 0 = 0 := rfl
        omega
      have hsep : Separated w (0xE000 + step) := fun _ => by omega
      -- a step with a zero low byte is at least 256, and so is what it leads to
      have hsepLast : Separated (0xE000 + step) last := by
        rintro ⟨k, hk⟩
        omega
      exact ⟨List.forall_mem_cons.mpr ⟨hnonzeroMarker, List.forall_mem_cons.mpr
          ⟨hnonzeroLast, hnonzero⟩⟩,
        List.isChain_cons_cons.mpr ⟨hsep, List.isChain_cons_cons.mpr ⟨hsepLast, hchain⟩⟩⟩

theorem separated_table {es : List DpiEntry} (h : Increasing 0 es) :
    (∀ v ∈ dpiWords es, v ≠ 0) ∧ List.IsChain Separated (dpiWords es) := by
  cases es with
  | nil => exact ⟨nofun, List.isChain_nil⟩
  | cons e es =>
      cases e with
      | level v =>
          obtain ⟨hlt, -, hrest⟩ := h
          obtain ⟨hnonzero, hchain⟩ := separated_words hlt hrest
          have hv : v ≠ 0 := by
            rintro rfl
            exact absurd hlt (Nat.not_lt_zero _)
          exact ⟨List.forall_mem_cons.mpr ⟨hv, hnonzero⟩, hchain⟩
      | steps step last => exact absurd h.1 (Nat.lt_irrefl 0)

theorem toUInt8_eq_zero {w : UInt16} (h : w.toUInt8 = 0) : 256 ∣ w.toNat := by
  have hbyte := congrArg UInt8.toNat h
  rw [UInt16.toNat_toUInt8] at hbyte
  exact Nat.dvd_of_mod_eq_zero hbyte

theorem high_eq_zero {w : UInt16} (h : (w >>> 8).toUInt8 = 0) : w.toNat < 256 := by
  have hbyte := congrArg UInt8.toNat h
  have height : UInt16.toNat 8 % 16 = 8 := rfl
  have hzero : UInt8.toNat 0 = 0 := rfl
  have hlt := w.toNat_lt
  rw [UInt16.toNat_toUInt8, UInt16.toNat_shiftRight, height, Nat.shiftRight_eq_div_pow, hzero]
    at hbyte
  omega

/-- **Two zero bytes come together only behind the words.** -/
theorem zeros_behind : ∀ {words : List UInt16}, (∀ w ∈ words, w ≠ 0) →
    List.IsChain Separated words → ∀ m, byteAt (wordBytes words) m = 0 →
    byteAt (wordBytes words) (m + 1) = 0 → (wordBytes words).length ≤ m + 1
  | [], _, _, _, _, _ => Nat.zero_le _
  | w :: words, hnonzero, hchain, m, hfirst, hsecond => by
      obtain ⟨hw, hrest⟩ := List.forall_mem_cons.mp hnonzero
      cases m with
      | zero =>
          have hlow := toUInt8_eq_zero hsecond
          have hhigh := high_eq_zero hfirst
          have hzero := Nat.eq_zero_of_dvd_of_lt hlow hhigh
          exact absurd (UInt16.toNat_inj.mp hzero) hw
      | succ m =>
          cases m with
          | zero =>
              cases words with
              | nil => exact Nat.le_refl 2
              | cons w' words =>
                  have hsep := (List.isChain_cons_cons.mp hchain).1
                  have hlow := toUInt8_eq_zero hfirst
                  have hhigh := high_eq_zero hsecond
                  exact absurd (hsep hlow) (Nat.not_le.mpr hhigh)
          | succ m =>
              have hlength := zeros_behind hrest hchain.tail m hfirst hsecond
              rw [wordBytes_cons, List.length_cons, List.length_cons]
              omega

/-! ## Any list of bytes -/

theorem zero_notMem_pushLevels {step last : ℕ} (hlast : last < 65536) :
    ∀ {room next : ℕ} {levels : List UInt16}, 0 < next → (0 : UInt16) ∉ levels →
    (0 : UInt16) ∉ pushLevels step last room next levels
  | 0, _, _, _, h => h
  | room + 1, next, levels, hnext, h => by
      unfold pushLevels
      split_ifs with hle
      · refine zero_notMem_pushLevels hlast (by omega) fun hmem => ?_
        rcases List.mem_append.mp hmem with hmem | hmem
        · exact h hmem
        · have hvalue := congrArg UInt16.toNat (List.mem_singleton.mp hmem)
          rw [UInt16.toNat_ofNat', Nat.mod_eq_of_lt (by omega)] at hvalue
          have hzero : UInt16.toNat 0 = 0 := rfl
          omega
      · exact h

theorem zero_notMem_stepLevels {step last : UInt16} (h : (0 : UInt16) ∉ levels) :
    (0 : UInt16) ∉ stepLevels step last levels := by
  unfold stepLevels
  cases hback : levels.getLast? with
  | none => exact h
  | some back =>
      dsimp only
      have hpushed : step ≠ 0 → (0 : UInt16) ∉ pushLevels step.toNat last.toNat
          (2048 - levels.length) (back.toNat + step.toNat) levels := by
        intro hstep
        have hpos : 0 < step.toNat := Nat.pos_of_ne_zero fun hzero =>
          hstep (UInt16.toNat_inj.mp hzero)
        exact zero_notMem_pushLevels last.toNat_lt (by omega) h
      split_ifs with hsteps hlast
      · intro hmem
        rcases List.mem_append.mp hmem with hmem | hmem
        · exact hpushed hsteps.1 hmem
        · have hlt := UInt16.lt_iff_toNat_lt.mp hsteps.2
          rw [← List.mem_singleton.mp hmem] at hlt
          exact absurd hlt (Nat.not_lt_zero _)
      · exact hpushed hsteps.1
      · exact h

/-- A step marker does not fill the list beyond 2048 levels. -/
theorem length_pushLevels {step last : ℕ} : ∀ {room next : ℕ} {levels : List UInt16},
    (pushLevels step last room next levels).length ≤ levels.length + room
  | 0, _, _ => Nat.le_refl _
  | room + 1, next, levels => by
      unfold pushLevels
      split_ifs
      · refine length_pushLevels.trans_eq ?_
        rw [List.length_append, List.length_singleton]
        omega
      · exact Nat.le_add_right _ _

theorem length_stepLevels {step last : UInt16} :
    (stepLevels step last levels).length ≤ max levels.length 2048 := by
  unfold stepLevels
  cases levels.getLast? with
  | none => exact Nat.le_max_left _ _
  | some back =>
      dsimp only
      have hpushed : (pushLevels step.toNat last.toNat (2048 - levels.length)
          (back.toNat + step.toNat) levels).length ≤ levels.length + (2048 - levels.length) :=
        length_pushLevels
      split_ifs with hsteps hlast
      · rw [List.length_append, List.length_singleton]
        exact Nat.le_trans hlast.1 (Nat.le_max_right _ _)
      · omega
      · exact Nat.le_max_left _ _

/-- **No level is zero**, whatever the bytes are. -/
theorem zero_notMem_decode (bytes : Bytes) {levels : List UInt16} (h : (0 : UInt16) ∉ levels) :
    (0 : UInt16) ∉ decodeDpiLevels bytes levels := by
  fun_induction decodeDpiLevels bytes levels with
  | case1 => exact h
  | case2 _ _ _ _ _ _ _ _ ih => exact ih (zero_notMem_stepLevels h)
  | case3 => exact h
  | case4 _ _ _ _ hword _ ih =>
      refine ih fun hmem => ?_
      rcases List.mem_append.mp hmem with hmem | hmem
      · exact h hmem
      · exact hword (List.mem_singleton.mp hmem).symm
  | case5 => exact h

/-! ## Chunks -/

/-- The first bytes of a list, with zeros behind it. -/
def padded (bytes : Bytes) (n : ℕ) : Bytes := (List.range n).map (byteAt bytes)

theorem byteAt_eq_zero {bytes : Bytes} {n : ℕ} (h : bytes.length ≤ n) : byteAt bytes n = 0 := by
  rw [byteAt, List.getD_eq_getElem?_getD, List.getElem?_eq_none h, Option.getD_none]

/-- The bytes of a chunk. -/
def chunkOf (bytes : Bytes) (width chunk : ℕ) : Bytes :=
  (List.range width).map fun k => byteAt bytes (chunk * width + k)

variable {bytes : Bytes}

theorem padded_chunk (width chunk : ℕ) :
    padded bytes (chunk * width) ++ chunkOf bytes width chunk =
      padded bytes ((chunk + 1) * width) := by
  rw [Nat.succ_mul, padded, padded, chunkOf, List.range_add, List.map_append, List.map_map]
  rfl

theorem padded_succ_succ (n : ℕ) :
    padded bytes (n + 2) = padded bytes n ++ [byteAt bytes n, byteAt bytes (n + 1)] := by
  rw [padded, padded, List.range_succ, List.range_succ, List.map_append, List.map_append,
    List.append_assoc]
  rfl

theorem padded_length (n : ℕ) :
    padded bytes (bytes.length + n) = bytes ++ List.replicate n 0 := by
  have hbytes : (List.range bytes.length).map (byteAt bytes) = bytes := by
    refine List.ext_getElem (by simp) fun i _ h => ?_
    rw [List.getElem_map, List.getElem_range, byteAt, List.getD_eq_getElem?_getD,
      List.getElem?_eq_getElem h, Option.getD_some]
  have hzeros : (byteAt bytes ∘ fun i => bytes.length + i) = fun _ => (0 : UInt8) := by
    funext i
    exact byteAt_eq_zero (Nat.le_add_right _ _)
  rw [padded, List.range_add, List.map_append, hbytes, List.map_map, hzeros, List.map_const',
    List.length_range]

/-- The host sees the end of the list by the last two bytes. -/
theorem zeros_suffix_padded (n : ℕ) :
    [0, 0] <:+ padded bytes (n + 2) ↔ byteAt bytes n = 0 ∧ byteAt bytes (n + 1) = 0 := by
  rw [padded_succ_succ]
  constructor
  · intro h
    have hlast := List.suffix_of_suffix_length_le h
      (List.suffix_append (padded bytes n) [byteAt bytes n, byteAt bytes (n + 1)]) (Nat.le_refl 2)
    have heq := hlast.eq_of_length rfl
    obtain ⟨hfirst, hsecond⟩ := List.cons.inj heq
    exact ⟨hfirst.symm, (List.cons.inj hsecond).1.symm⟩
  · rintro ⟨hfirst, hsecond⟩
    rw [hfirst, hsecond]
    exact List.suffix_append _ _

/-! ## Devices -/

namespace HidppDevice
variable (d : HidppDevice)

/-- The device answers the requests for the chunks of a list, up to one that ends it. -/
def ServesList (id : UInt16) (function : UInt8) (header width : ℕ) (bytes : Bytes) : Prop :=
  ∃ chunks ≤ 256, bytes.length + 2 ≤ chunks * width ∧
    ∀ r, ∀ i < chunks, d.Asks r id function → r.params = [0, 0, UInt8.ofNat i] →
      ∃ head, head.length = header ∧ d.reply r = some (head ++ chunkOf bytes width i)

/-- The feature replies with this many bytes or more. -/
def Tells (id : UInt16) (function : UInt8) (n : ℕ) : Prop :=
  ∀ r, d.Asks r id function → ∃ reply, d.reply r = some reply ∧ n ≤ reply.length

/-- The feature is not there, or its replies are too short. -/
def Mute (id : UInt16) (function : UInt8) (n : ℕ) : Prop :=
  ∀ r reply, d.Asks r id function → d.reply r = some reply → reply.length < n

/-- A table is served by the extended feature, or by the other where that does not answer. -/
inductive ServesTable (es : List DpiEntry) : Prop
  | extended : d.indexOf 0x2202 ≠ 0 → d.Tells 0x2202 0x1 3 → d.Tells 0x2202 0x5 5 →
      d.ServesList 0x2202 0x2 3 13 (wordBytes (dpiWords es)) → ServesTable es
  | legacy : d.Mute 0x2202 0x1 3 ∨ d.Mute 0x2202 0x5 5 → d.indexOf 0x2201 ≠ 0 →
      d.Tells 0x2201 0x2 5 →
      d.ServesList 0x2201 0x1 1 15 (wordBytes (dpiWords es)) → ServesTable es

end HidppDevice

/-! ## Reading a list -/

namespace FeatureSession
variable {devices : UInt8 → HidppDevice} {net : Network} {V : UInt8 → UInt16 → UInt8 → Bytes → Prop}
variable {base : FeatureSession} {id : UInt16} {index function target : UInt8} {params : Bytes}
variable {header width n : ℕ}

theorem request_tells (hnet : net.Answers)
    (htells : (devices (base.transport.targetOf target)).Tells id function n)
    (hwire : normalizeFunctionId function = function) (hparams : params.length ≤ 16) (hid : id ≠ 0)
    (hread : (id, function) ∉ stateChanging)
    (hthere : (devices (base.transport.targetOf target)).indexOf id ≠ 0) :
    Hoare (Traced devices V base) (request devices net id function params target)
      fun taken s => Traced devices V base s ∧
        ∃ reply, taken.filter (n ≤ ·.length) = some reply := by
  intro s hs
  obtain ⟨htraced, r, hasks, -, htaken⟩ :=
    request_present hnet hwire hparams hid hread hthere s hs
  obtain ⟨reply, hreply, hlength⟩ := htells r hasks
  refine ⟨htraced, reply, ?_⟩
  rw [htaken, hreply, Option.filter_eq_some_iff]
  exact ⟨rfl, decide_eq_true hlength⟩

theorem length_zeros : List.length [(0 : UInt8), 0, 0] ≤ 16 := by decide

/-- A feature that is not there, or replies too little, gives no payload. -/
theorem request_mute (hnet : net.Answers)
    (hmute : (devices (base.transport.targetOf target)).Mute id function n)
    (hwire : normalizeFunctionId function = function) (hparams : params.length ≤ 16) (hid : id ≠ 0)
    (hread : (id, function) ∉ stateChanging) :
    Hoare (Traced devices V base) (request devices net id function params target)
      fun taken s => Traced devices V base s ∧ taken.filter (n ≤ ·.length) = none := by
  intro s hs
  obtain ⟨htraced, hpayload⟩ :=
    request_traced hnet.unconfused id function function hwire hparams hid hread s hs
  refine ⟨htraced, ?_⟩
  rw [Option.filter_eq_none_iff]
  intro payload htaken
  obtain ⟨-, r, hasks, hreply⟩ := hpayload payload htaken
  have hshort := hmute r payload hasks hreply
  simpa using hshort

/-- **A list is read up to zeros behind it.** -/
theorem readDpiList_reads (hnet : net.Answers)
    (hwire : normalizeFunctionId function = function) (hid : id ≠ 0)
    (hread : (id, function) ∉ stateChanging) (hwidth : 2 ≤ width)
    (hthere : (devices (base.transport.targetOf target)).indexOf id ≠ 0) {bytes : Bytes}
    (hzeros : ∀ m, byteAt bytes m = 0 → byteAt bytes (m + 1) = 0 → bytes.length ≤ m + 1)
    {chunks : ℕ} (hroom : bytes.length + 2 ≤ chunks * width)
    (hserves : ∀ r, ∀ i < chunks, (devices (base.transport.targetOf target)).Asks r id function →
      r.params = [0, 0, UInt8.ofNat i] → ∃ head, head.length = header ∧
        (devices (base.transport.targetOf target)).reply r =
          some (head ++ chunkOf bytes width i)) :
    ∀ (left chunk timeouts : ℕ), chunk < chunks → chunks ≤ chunk + left →
    Hoare (Traced devices V base)
      (readDpiList devices net id function header target left chunk
        (padded bytes (chunk * width)) timeouts)
      fun read s => Traced devices V base s ∧ ∃ m, read = padded bytes (bytes.length + m) := by
  intro left
  -- on the chunks that are left
  induction left with
  | zero => exact fun chunk _ hchunk hleft => absurd hleft (by omega)
  | succ left ih =>
      intro chunk timeouts hchunk hleft
      unfold readDpiList
      refine Hoare.bind (Q := fun up s => Traced devices V base s ∧ up = false)
        (fun s hs => ⟨hs.timeUp, (hnet _).2⟩) fun up => ?_
      rintro s ⟨hs, rfl⟩
      simp only [Bool.false_eq_true, if_false]
      have hparams : List.length [0, 0, UInt8.ofNat chunk] ≤ 16 := Nat.le_add_left 3 13
      obtain ⟨hs, r, hasks, hasked, hanswer⟩ :=
        request_present hnet hwire hparams hid hread hthere s hs
      rw [bind_apply, hanswer]
      generalize (request devices net id function [0, 0, UInt8.ofNat chunk] target s).2 = s at hs ⊢
      obtain ⟨head, hhead, hreply⟩ := hserves r chunk hchunk hasks hasked
      have hlength : (chunkOf bytes width chunk).length = width := by
        rw [chunkOf, List.length_map, List.length_range]
      have htaken : ((devices (base.transport.targetOf target)).reply r).filter
          (header < ·.length) = some (head ++ chunkOf bytes width chunk) := by
        rw [hreply, Option.filter_eq_some_iff]
        refine ⟨rfl, ?_⟩
        rw [List.length_append, hhead, hlength, decide_eq_true_iff]
        omega
      have hdrop : (head ++ chunkOf bytes width chunk).drop header =
          chunkOf bytes width chunk := List.drop_left' hhead
      have hnext : width ≤ (chunk + 1) * width := Nat.le_mul_of_pos_left _ (Nat.succ_pos chunk)
      obtain ⟨m, hm⟩ : ∃ m, (chunk + 1) * width = m + 2 := ⟨(chunk + 1) * width - 2, by omega⟩
      have hend : [0, 0] <:+ padded bytes (m + 2) ↔ byteAt bytes m = 0 ∧ byteAt bytes (m + 1) = 0 :=
        zeros_suffix_padded m
      rw [htaken]
      dsimp only
      rw [hdrop, padded_chunk]
      split_ifs with hsuffix
      · -- the zeros are behind the list
        rw [hm, hend] at hsuffix
        have hbehind := hzeros m hsuffix.1 hsuffix.2
        refine ⟨hs, m + 2 - bytes.length, ?_⟩
        rw [hm, Nat.add_sub_cancel' (by omega)]
        rfl
      · refine ih (chunk + 1) 0 ?_ (by omega) s hs
        -- the last chunk ends with zeros
        by_contra hlast
        obtain rfl : chunks = chunk + 1 := by omega
        refine hsuffix ?_
        rw [hm, hend]
        exact ⟨byteAt_eq_zero (by omega), byteAt_eq_zero (by omega)⟩

/-- The levels of a table, read from its device. -/
theorem readDpiList_table (hnet : net.Answers)
    (hwire : normalizeFunctionId function = function) (hid : id ≠ 0)
    (hread : (id, function) ∉ stateChanging) (hwidth : 2 ≤ width)
    (hthere : (devices (base.transport.targetOf target)).indexOf id ≠ 0) {es : List DpiEntry}
    (hes : Increasing 0 es) (hlevels : (expand 0 es).length ≤ 2048)
    (hserves : (devices (base.transport.targetOf target)).ServesList id function header width
      (wordBytes (dpiWords es))) :
    Hoare (Traced devices V base)
      (readDpiList devices net id function header target 256 0 [] 0)
      fun read _ => (decodeDpiLevels read []).map UInt16.toNat = expand 0 es := by
  intro s hs
  obtain ⟨chunks, hchunks, hroom, hreplies⟩ := hserves
  obtain ⟨hnonzero, hchain⟩ := separated_table hes
  have hpos : 0 < chunks := by
    rcases Nat.eq_zero_or_pos chunks with rfl | hpos
    · rw [Nat.zero_mul] at hroom
      exact absurd hroom (Nat.not_succ_le_zero _)
    · exact hpos
  obtain ⟨-, m, hm⟩ := readDpiList_reads (V := V) hnet hwire hid hread hwidth hthere
    (zeros_behind hnonzero hchain) hroom hreplies 256 0 0 hpos (by omega) s hs
  rw [Nat.zero_mul] at hm
  have hdecode : decodeDpiLevels (wordBytes (dpiWords es) ++ List.replicate m 0) [] =
      [] ++ (expand 0 es).map UInt16.ofNat :=
    decode_table m hes (fun h => absurd h (Nat.lt_irrefl 0))
      (by rwa [List.length_nil, Nat.zero_add])
  show (decodeDpiLevels (readDpiList devices net id function header target 256 0
    (padded (wordBytes (dpiWords es)) 0) 0 s).1 []).map UInt16.toNat = expand 0 es
  rw [hm, padded_length, hdecode, List.nil_append, List.map_map]
  refine (List.map_congr_left fun v hv => ?_).trans (List.map_id _)
  exact Nat.mod_eq_of_lt (lt_of_mem_expand hes v hv)

theorem getLegacyDpiInfo_table (hnet : net.Answers) {es : List DpiEntry}
    (hes : Increasing 0 es) (hlevels : (expand 0 es).length ≤ 2048)
    (hthere : (devices (base.transport.targetOf target)).indexOf 0x2201 ≠ 0)
    (htells : (devices (base.transport.targetOf target)).Tells 0x2201 0x2 5)
    (hserves : (devices (base.transport.targetOf target)).ServesList 0x2201 0x1 1 15
      (wordBytes (dpiWords es))) :
    Hoare (Traced devices V base) (getLegacyDpiInfo devices net target) fun found _ =>
      (found.map fun info => info.dpiLevels.map UInt16.toNat) = some (expand 0 es) := by
  intro s hs
  obtain ⟨hs, current, hcurrent⟩ :=
    request_tells hnet htells rfl length_zeros (by decide) (by decide) hthere s hs
  unfold getLegacyDpiInfo
  rw [bind_apply, hcurrent]
  exact congrArg some (readDpiList_table hnet rfl (by decide) (by decide) (by decide) hthere hes
    hlevels hserves _ hs)

theorem getDpiInfo_table (hnet : net.Answers) {es : List DpiEntry} (hes : Increasing 0 es)
    (hlevels : (expand 0 es).length ≤ 2048)
    (hserves : (devices (base.transport.targetOf target)).ServesTable es) :
    Hoare (Traced devices V base) (getDpiInfo devices net target) fun found _ =>
      (found.map fun info => info.dpiLevels.map UInt16.toNat) = some (expand 0 es) := by
  intro s hs
  unfold getDpiInfo
  rw [bind_apply]
  cases hserves with
  | extended hthere hcaps hcurrent hlist =>
      obtain ⟨hs, caps, htaken⟩ :=
        request_tells hnet hcaps rfl length_zeros (by decide) (by decide) hthere s hs
      rw [htaken]
      dsimp only
      obtain ⟨hs, current, htaken⟩ :=
        request_tells hnet hcurrent rfl length_zeros (by decide) (by decide) hthere _ hs
      rw [bind_apply, htaken]
      exact congrArg some (readDpiList_table hnet rfl (by decide) (by decide) (by decide) hthere
        hes hlevels hlist _ hs)
  | legacy hmute hthere htells hlist =>
      have hlegacy := getLegacyDpiInfo_table (V := V) hnet hes hlevels hthere htells hlist
      rcases hmute with hmute | hmute
      · obtain ⟨hs, htaken⟩ :=
          request_mute hnet hmute rfl length_zeros (by decide) (by decide) s hs
        rw [htaken]
        exact hlegacy _ hs
      · have hasked : Hoare (Traced devices V base)
            (request devices net 0x2202 0x1 [0, 0, 0] target)
            fun _ s => Traced devices V base s := fun s hs =>
          (request_traced hnet.unconfused 0x2202 0x1 0x1 rfl length_zeros (by decide) (by decide)
            s hs).1
        have hs := hasked s hs
        cases (request devices net 0x2202 0x1 [0, 0, 0] target s).1.filter (3 ≤ ·.length) with
        | none => exact hlegacy _ hs
        | some caps =>
            obtain ⟨hs, htaken⟩ :=
              request_mute hnet hmute rfl length_zeros (by decide) (by decide) _ hs
            dsimp only
            rw [bind_apply, htaken]
            exact hlegacy _ hs

/-- **The levels of `get_dpi_info` are those of the table**; and whatever the bytes are, no level
is zero, and a step does not fill the list beyond 2048 levels. -/
theorem dpi_list_reassembled (hnet : net.Answers) {s : FeatureSession}
    (hs : s.IndicesSound devices) {es : List DpiEntry} (hes : Increasing 0 es)
    (hlevels : (expand 0 es).length ≤ 2048)
    (hserves : (devices (s.transport.targetOf target)).ServesTable es) :
    ((getDpiInfo devices net target s).1.map fun info => info.dpiLevels.map UInt16.toNat) =
      some (expand 0 es) ∧
    (∀ bytes, (0 : UInt16) ∉ decodeDpiLevels bytes []) ∧
    ∀ step last levels, (stepLevels step last levels).length ≤ max levels.length 2048 := by
  have htraced : Traced devices (fun _ _ _ _ => True) s s := Traced.refl hs
  exact ⟨getDpiInfo_table hnet hes hlevels hserves s htraced,
    fun bytes => zero_notMem_decode bytes List.not_mem_nil, fun _ _ _ => length_stepLevels⟩

/-- Four plain levels and steps between them, in two chunks. -/
def steppedTable : List DpiEntry :=
  [.level 400, .steps 400 1500, .level 2000, .steps 500 5000, .steps 1000 8500]

/-- A mouse that tells its list in chunks. -/
def listMouse : HidppDevice where
  features := [⟨0x0001, 0, 0⟩, ⟨0x2202, 0, 0⟩]
  other r := List.replicate 3 0 ++ if r.asked.function = 0x2 then
      chunkOf (wordBytes (dpiWords steppedTable)) 13 (byteAt r.params 2).toNat
    else List.replicate 13 0
  length_le := by decide
  id_ne_zero := by simp
  has_featureSet := by simp

theorem listMouse_serves : listMouse.ServesTable steppedTable := by
  have hreply : ∀ r function, listMouse.Asks r 0x2202 function →
      listMouse.reply r = some (listMouse.other r) := fun r function hasks =>
    HidppDevice.reply_other hasks.1 (by decide) (by decide)
  have hlength : ∀ r, 5 ≤ (listMouse.other r).length := by
    intro r
    refine Nat.le_trans ?_ (Nat.le_of_eq (List.length_append).symm)
    split_ifs
    · rw [chunkOf, List.length_map, List.length_range]
      decide
    · decide
  refine .extended (by decide) ?_ ?_ ⟨2, by decide, by decide, ?_⟩
  · exact fun r hasks => ⟨_, hreply r _ hasks, Nat.le_trans (by decide) (hlength r)⟩
  · exact fun r hasks => ⟨_, hreply r _ hasks, hlength r⟩
  · intro r i hi hasks hparams
    refine ⟨List.replicate 3 0, rfl, (hreply r _ hasks).trans ?_⟩
    have hchunk : (byteAt r.params 2).toNat = i := by
      rw [hparams]
      exact Nat.mod_eq_of_lt (by omega)
    have hother : listMouse.other r = List.replicate 3 0 ++ if r.asked.function = 0x2 then
        chunkOf (wordBytes (dpiWords steppedTable)) 13 (byteAt r.params 2).toNat
      else List.replicate 13 0 := rfl
    rw [hother, if_pos hasks.2, hchunk]

/-- A marker and its last level straddle the chunks. -/
theorem dpi_list_reassembled_stepped :
    ((getDpiInfo (fun _ => listMouse) answering 0xFF receiver).1.map fun info =>
      info.dpiLevels.map UInt16.toNat) =
      some [400, 800, 1200, 1500, 2000, 2500, 3000, 3500, 4000, 4500, 5000, 6000, 7000, 8000,
        8500] := by
  have hsound : receiver.IndicesSound fun _ => listMouse := nofun
  have htable : Increasing 0 steppedTable := by decide
  have hlevels : expand 0 steppedTable = [400, 800, 1200, 1500, 2000, 2500, 3000, 3500, 4000, 4500,
      5000, 6000, 7000, 8000, 8500] := by decide
  rw [← hlevels]
  exact (dpi_list_reassembled (fun _ => ⟨rfl, rfl⟩) hsound htable (by decide)
    listMouse_serves).1

end FeatureSession
end AbrekMouse
