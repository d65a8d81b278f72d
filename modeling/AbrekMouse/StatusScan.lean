import AbrekMouse.IpcClient
import AbrekMouse.SetParam

/-! # Scanning the status

The window picks values out of the status text with searches of its own: it looks for a quoted
name and takes what stands behind it.  The text of a device is a list of fields
(`deviceMembers_eq`); a field of another name is passed and that of the name is found
(`find_other`, `find_same`).
-/
namespace AbrekMouse
open ProgLib ProgLib.Fp ProgLib.JsonGrammar ProgLib.TextSearch

/-! ## The scanners -/

/-- The loop of `json_skip_string`: what is behind the closing quote. -/
def skipChars : Bool → Bytes → Option Bytes
  | _, [] => none
  | true, _ :: s => skipChars false s
  | false, c :: s =>
      if c = 0x5C then skipChars true s
      else if c = 0x22 then some s
      else skipChars false s

/-- `json_skip_string`: what stands behind a string that begins here. -/
def jsonSkipString (text : Bytes) : Option Bytes :=
  if text.head? = some 0x22 then skipChars false text.tail else none

/-- Outside of the strings, or inside of one, and there perhaps behind a backslash. -/
inductive ScanMode where
  | outside
  | inside (escaped : Bool)

/-- The loop of `json_object_end`, with that of `json_skip_string` in it
(`objectEnd_inside`). -/
def objectEnd : ScanMode → ℕ → Bytes → Option Bytes
  | _, _, [] => none
  | .inside true, depth, _ :: s => objectEnd (.inside false) depth s
  | .inside false, depth, c :: s =>
      if c = 0x5C then objectEnd (.inside true) depth s
      else if c = 0x22 then objectEnd .outside depth s
      else objectEnd (.inside false) depth s
  | .outside, depth, c :: s =>
      if c = 0x22 then objectEnd (.inside false) depth s
      else if c = 0x7B then objectEnd .outside (depth + 1) s
      else if c = 0x7D then
        if depth = 0 then none
        else if depth = 1 then some s
        else objectEnd .outside (depth - 1) s
      else objectEnd .outside depth s

/-- `json_object_end`: what stands behind an object that begins here. -/
def jsonObjectEnd (text : Bytes) : Option Bytes :=
  if text.head? = some 0x7B then objectEnd .outside 0 text else none

/-- The blanks that may stand between the parts of a text. -/
def isBlank (c : UInt8) : Bool := c = 0x20 || c = 0x09 || c = 0x0D || c = 0x0A

/-- The text of a string field as it stands, without the quotes. -/
def jsonStringField (obj : Bytes) (key : Bytes) : Bytes :=
  match find (quoted key) obj with
  | none => []
  | some name =>
      match find [0x3A] (name.drop (quoted key).length) with
      | none => []
      | some colon =>
          let value := colon.tail.dropWhile isBlank
          match jsonSkipString value with
          | none => []
          | some rest => (value.drop 1).take (value.length - rest.length - 2)

/-- `json_has_field`: the key stands in the text, in quotes. -/
def jsonHasField (obj : Bytes) (key : Bytes) : Bool := (find (quoted key) obj).isSome

/-- `std::from_chars`: the number at the front and what follows it. -/
def fromChars (val : Bytes) : Option (Double × Bytes) :=
  let neg := val.head? = some 0x2D
  let s := if neg then val.tail else val
  if startsWithWord (bytes "infinity") s then some (.inf neg, s.drop 8)
  else if startsWithWord (bytes "inf") s then some (.inf neg, s.drop 3)
  else if startsWithWord (bytes "nan") s then some (.nan, dropNanPayload (s.drop 3))
  else
    match scanMantissa decimalDigit 10 s with
    | none => none
    | some (value, behind, rest) =>
        let (e, rest) := scanExponent (bytes "eE") rest
        (scaled? neg value 10 (e - behind)).map (·, rest)

/-! ## The device of a profile -/

/-- The loop over the objects of the array; an empty text is none yet. -/
def scanDevices (want : Bytes) : ℕ → Bytes → Bytes → Bytes → Bytes
  | 0, _, first, live => if live ≠ [] then live else first
  | rounds + 1, text, first, live =>
      match find [0x7B] text with
      | none => if live ≠ [] then live else first
      | some start =>
          match jsonObjectEnd start with
          | none => if live ≠ [] then live else first
          | some rest =>
              let obj := start.take (start.length - rest.length)
              let first := if first = [] then obj else first
              if want ≠ [] ∧ jsonStringField obj (bytes "device_id") = want then obj
              else
                let live :=
                  if live = [] ∧ jsonHasField obj (bytes "telem_in_ips") = true then obj else live
                scanDevices want rounds rest first live

/-- `daemon_device_slice`, for the identifier that the active profile wants. -/
def daemonDeviceSlice (resp want : Bytes) : Bytes :=
  match find (quoted (bytes "devices")) resp with
  | none => []
  | some name =>
      match find [0x5B] (name.drop (quoted (bytes "devices")).length) with
      | none => []
      | some array => scanDevices want array.length array.tail [] []

/-- `daemon_device_name`: the name of the device of that identifier, or no name. -/
def daemonDeviceName (resp want : Bytes) : Bytes :=
  let slice := daemonDeviceSlice resp want
  if slice = [] then [] else jsonStringField slice (bytes "name")

/-- A text that is a finite number as a whole. -/
def wholeNumber (val : Bytes) : Option Double :=
  match fromChars val with
  | some (v, []) => if v.isFinite then some v else none
  | _ => none

/-- What stands before a comma or a brace. -/
def isFieldByte (c : UInt8) : Bool := c ≠ 0x2C && c ≠ 0x7D

/-- The value of a field of a slice, as a text. -/
def fieldText (slice key : Bytes) : Option Bytes :=
  match find (quoted key ++ [0x3A]) slice with
  | none => none
  | some name =>
      let value := (name.drop (quoted key ++ [0x3A]).length).dropWhile fun c => c = 0x20 || c = 0x09
      let val := value.takeWhile isFieldByte
      if val.length = value.length ∨ val = [] then none else some val

/-- `daemon_device_field`: a number of the device of that identifier, or -1. -/
def daemonDeviceField (resp want key : Bytes) : Double :=
  let slice := daemonDeviceSlice resp want
  ((if slice = [] then none else fieldText slice key).bind wholeNumber).getD (ofInt (-1))

example : wholeNumber (bytes "45.000") = some 45 := by decide +kernel

/-! ## Strings are skipped -/

theorem skipChars_append {a : Bytes} (hquote : (0x22 : UInt8) ∉ a) (hescape : (0x5C : UInt8) ∉ a)
    (s : Bytes) : skipChars false (a ++ s) = skipChars false s := by
  induction a with
  | nil => rfl
  | cons c a ih =>
      obtain ⟨hc, hquote⟩ := not_or.mp (List.mem_cons.not.mp hquote)
      obtain ⟨hc', hescape⟩ := not_or.mp (List.mem_cons.not.mp hescape)
      rw [List.cons_append, skipChars, if_neg (Ne.symm hc'), if_neg (Ne.symm hc)]
      exact ih hquote hescape

theorem skipChars_asciiText (c : UInt8) (s : Bytes) :
    skipChars false (asciiText c ++ s) = skipChars false s := by
  unfold asciiText
  split_ifs with hquote hescape
  · rfl
  · rfl
  · rfl
  · rfl
  · rfl
  · rfl
  · have hplain : skipChars false (c :: s) = skipChars false s := by
      rw [skipChars, if_neg hescape, if_neg hquote]
    exact hplain

theorem unicodeEscape_cons (c : UInt8) : ∃ t, unicodeEscape c = 0x5C :: 0x75 :: t ∧
    (0x22 : UInt8) ∉ t ∧ (0x5C : UInt8) ∉ t := by
  refine ⟨hex4 c.toUInt16, rfl, ?_⟩
  revert c
  exact forall_byte (by decide +kernel)

theorem Sequence.high {c : UInt8} {u : Bytes} (h : Sequence c u) :
    ∀ b ∈ c :: u, ¬b < 0x80 := by
  obtain ⟨-, hlead, -⟩ := leadLength_pos c (by rw [h.length]; omega)
  rw [List.forall_mem_cons]
  exact ⟨hlead, fun b hb => high_of_continuation b (h.continuation b hb)⟩

/-- The end of a string is its closing quote. -/
theorem Escaped.skipChars {s t : Bytes} (h : Escaped s t) (rest : Bytes) :
    skipChars false (t ++ 0x22 :: rest) = some rest := by
  induction h with
  | nil => rfl
  | @ascii c s t _ _ ih => rw [List.append_assoc, skipChars_asciiText, ih]
  | @passed c u s t hseq _ ih =>
      have hhigh := hseq.high
      rw [← List.cons_append, List.append_assoc, skipChars_append, ih]
      · exact fun hmem => hhigh _ hmem (by decide)
      · exact fun hmem => hhigh _ hmem (by decide)
  | @broken c s t _ _ _ ih =>
      obtain ⟨t', heq, hquote, hescape⟩ := unicodeEscape_cons c
      rw [heq]
      show AbrekMouse.skipChars false (t' ++ t ++ 0x22 :: rest) = _
      rw [List.append_assoc, skipChars_append hquote hescape, ih]

theorem skipChars_jsonChars (s rest : Bytes) :
    skipChars false (jsonChars 0 s ++ 0x22 :: rest) = some rest :=
  (escaped_jsonChars s).skipChars rest

theorem jsonSkipString_jsonStr (s rest : Bytes) :
    jsonSkipString (jsonStr s ++ rest) = some rest := by
  have htext : jsonStr s ++ rest = 0x22 :: (jsonChars 0 s ++ 0x22 :: rest) := by
    rw [jsonStr, quoted, List.cons_append, List.append_assoc, List.singleton_append]
  rw [htext, jsonSkipString, List.head?_cons, if_pos rfl, List.tail_cons, skipChars_jsonChars]

/-- Within a string the loop does what `json_skip_string` does. -/
theorem objectEnd_inside (escaped : Bool) (depth : ℕ) (s : Bytes) :
    objectEnd (.inside escaped) depth s =
      (skipChars escaped s).bind (objectEnd .outside depth) := by
  induction s generalizing escaped with
  | nil => cases escaped <;> rfl
  | cons c s ih =>
      cases escaped with
      | true => exact ih false
      | false =>
          rw [objectEnd, skipChars]
          split_ifs
          · exact ih true
          · rfl
          · exact ih false

theorem objectEnd_jsonStr (depth : ℕ) (s rest : Bytes) :
    objectEnd .outside depth (jsonStr s ++ rest) = objectEnd .outside depth rest := by
  have htext : jsonStr s ++ rest = 0x22 :: (jsonChars 0 s ++ 0x22 :: rest) := by
    rw [jsonStr, quoted, List.cons_append, List.append_assoc, List.singleton_append]
  rw [htext, objectEnd, if_pos rfl, objectEnd_inside, skipChars_jsonChars]
  rfl

/-- Neither a quote nor a brace. -/
def IsFlat (c : UInt8) : Prop := c ≠ 0x22 ∧ c ≠ 0x7B ∧ c ≠ 0x7D

instance (c : UInt8) : Decidable (IsFlat c) := inferInstanceAs (Decidable (_ ∧ _))

theorem objectEnd_flat (depth : ℕ) {a : Bytes} (h : ∀ c ∈ a, IsFlat c) (rest : Bytes) :
    objectEnd .outside depth (a ++ rest) = objectEnd .outside depth rest := by
  induction a with
  | nil => rfl
  | cons c a ih =>
      rw [List.forall_mem_cons] at h
      obtain ⟨⟨hquote, hopen, hclose⟩, h⟩ := h
      rw [List.cons_append, objectEnd, if_neg hquote, if_neg hopen, if_neg hclose]
      exact ih h

/-! ## A device as fields -/

/-- The value of a member: a text, or a number as it is printed. -/
inductive FieldValue where
  | str (s : Bytes)
  | num (t : Bytes)

/-- The value as it stands in the answer. -/
def FieldValue.text : FieldValue → Bytes
  | str s => jsonStr s
  | num t => t

/-- A member as it stands in the answer. -/
def memberText (m : Bytes × FieldValue) : Bytes := quoted m.1 ++ 0x3A :: m.2.text

/-- Members, each with the comma before it. -/
def membersText (ms : List (Bytes × FieldValue)) : Bytes :=
  ms.flatMap fun m => 0x2C :: memberText m

/-- What the buffer of `append_fixed` has room for. -/
def fixedValue (key : String) (v : Double) (prec : ℕ) : Bytes :=
  (fixedText prec (if v.isFinite then v else 0)).take (60 - (bytes key).length)

/-- A member with a number of fixed precision. -/
def fixedField (key : String) (v : Double) (prec : ℕ) : Bytes × FieldValue :=
  (bytes key, .num (fixedValue key v prec))

/-- The members of the latency statistics. -/
def DevSnap.latFields (s : DevSnap) : List (Bytes × FieldValue) :=
  if s.latCount > 0 then
    [(bytes "lat_samples", .num (decimal s.latCount)), fixedField "lat_avg_us" s.latAvg 2,
      fixedField "lat_p50_us" s.latP50 2, fixedField "lat_p95_us" s.latP95 2,
      fixedField "lat_p99_us" s.latP99 2, fixedField "lat_max_us" s.latMax 2]
  else []

/-- The members of the telemetry. -/
def telemFields : Option TelemetrySample → List (Bytes × FieldValue)
  | some t =>
      [fixedField "telem_in_ips" t.speedIps 3, fixedField "telem_out_ips" t.outIps 3,
        fixedField "telem_gain" t.gain 3, fixedField "telem_dx" t.dx 3,
        fixedField "telem_dy" t.dy 3, fixedField "telem_wall_ms" t.wallMs 3]
  | none => []

/-- The members of a device in their order. -/
def DevSnap.fields (s : DevSnap) : List (Bytes × FieldValue) :=
  [(bytes "name", .str s.name), (bytes "path", .str s.path), (bytes "device_id", .str s.deviceId),
    (bytes "dpi", .num (intText s.dpi)), (bytes "poll_rate", .num (intText s.pollRate)),
    (bytes "detected_dpi", .num (intText s.detectedDpi)),
    (bytes "detected_polling_rate", .num (intText s.detectedPollingRate)),
    (bytes "real_polling_rate", .num (intText s.realPollingRate)),
    (bytes "detected_battery", .num (intText s.detectedBattery))] ++
  s.latFields ++ telemFields s.telem

/-- The number that a device reports under a name. -/
def DevSnap.number (s : DevSnap) (key : Bytes) : Option Bytes :=
  (s.fields.find? fun m => m.1 = key).bind fun m =>
    match m.2 with
    | .num t => some t
    | .str _ => none

theorem membersText_append (ms ms' : List (Bytes × FieldValue)) :
    membersText (ms ++ ms') = membersText ms ++ membersText ms' := List.flatMap_append

theorem isFinite_printed (v : Double) : (if v.isFinite then v else 0).isFinite = true := by
  split_ifs with h
  · exact h
  · decide +kernel

theorem isNumeric_fixedValue (key : String) (v : Double) {prec : ℕ} (hprec : 0 < prec) :
    ∀ b ∈ fixedValue key v prec, IsNumeric b := fun b hb =>
  isNumeric_fixedText (isFinite_printed v) hprec b (List.mem_of_mem_take hb)

theorem appendFixed_eq_membersText {key : String} {prec : ℕ} (hkey : FixedKey key prec)
    (v : Double) : appendFixed key v prec = membersText [fixedField key v prec] := by
  have hnumeric := isNumeric_fixedText (isFinite_printed v) hkey.prec_pos
  have hcomma : ∀ b ∈ quoted (bytes key) ++ 0x3A :: fixedText prec (if v.isFinite then v else 0),
      (if b = 0x2C then 0x2E else b) = b := by
    intro b hb
    refine if_neg ?_
    unfold quoted at hb
    simp only [List.cons_append, List.mem_cons, List.mem_append, List.append_assoc,
      List.not_mem_nil, false_or] at hb
    rcases hb with rfl | hb | rfl | rfl | hb
    · decide
    · exact (hkey.plain b hb).2.2
    · decide
    · decide
    · exact (hnumeric b hb).ascii.2
  have hlength : (quoted (bytes key)).length = (bytes key).length + 2 := by simp [quoted]
  have hroom := hkey.length_le
  unfold appendFixed membersText
  dsimp only
  rw [List.map_congr_left hcomma, List.map_id', List.flatMap_singleton, List.take_append,
    List.take_of_length_le (by omega), hlength,
    show 63 - ((bytes key).length + 2) = 60 - (bytes key).length + 1 by omega, List.take_succ_cons]
  rfl

/-- **The members of a device are its fields.** -/
theorem deviceMembers_eq (s : DevSnap) : 0x2C :: deviceMembers s = membersText s.fields := by
  have hlat : latMembers s = membersText s.latFields := by
    unfold latMembers DevSnap.latFields
    split_ifs
    · have hsamples : nextMember "lat_samples" (decimal s.latCount) =
          membersText [(bytes "lat_samples", .num (decimal s.latCount))] :=
        (List.flatMap_singleton _ _).symm
      rw [appendFixed_eq_membersText (by decide), appendFixed_eq_membersText (by decide),
        appendFixed_eq_membersText (by decide), appendFixed_eq_membersText (by decide),
        appendFixed_eq_membersText (by decide), hsamples]
      simp only [← membersText_append]
      rfl
    · rfl
  have htelem : telemMembers s.telem = membersText (telemFields s.telem) := by
    cases s.telem with
    | none => rfl
    | some t =>
        rw [telemMembers, appendFixed_eq_membersText (by decide),
          appendFixed_eq_membersText (by decide), appendFixed_eq_membersText (by decide),
          appendFixed_eq_membersText (by decide), appendFixed_eq_membersText (by decide),
          appendFixed_eq_membersText (by decide)]
        simp only [← membersText_append]
        rfl
  rw [deviceMembers, hlat, htelem, DevSnap.fields, membersText_append, membersText_append,
    ← List.cons_append, ← List.cons_append]
  congr 2
  simp only [membersText, memberText, nextMember, FieldValue.text, List.flatMap_cons,
    List.flatMap_nil, List.append_assoc, List.cons_append, List.append_nil]

/-! ## Finding a member -/

/-- A name of letters, digits and underscores. -/
def IsName (key : Bytes) : Prop :=
  key ≠ [] ∧ ∀ b ∈ key, (0x61 ≤ b ∧ b ≤ 0x7A) ∨ (0x30 ≤ b ∧ b ≤ 0x39) ∨ b = 0x5F

instance (key : Bytes) : Decidable (IsName key) :=
  @instDecidableAnd _ _ _ (List.decidableBAll _ _)

theorem IsName.notMem {key : Bytes} (h : IsName key) {c : UInt8}
    (hc : c ∈ bytes "\"\\:,\x7b\x7d[] ") : c ∉ key := by
  intro hmem
  have hall : ∀ c : UInt8, c ∈ bytes "\"\\:,\x7b\x7d[] " →
      ¬((0x61 ≤ c ∧ c ≤ 0x7A) ∨ (0x30 ≤ c ∧ c ≤ 0x39) ∨ c = 0x5F) :=
    forall_byte (by decide +kernel)
  exact hall c hc (h.2 c hmem)

/-- The needle does not begin behind an opening quote with another character than a name has. -/
theorem IsName.not_prefix {key : Bytes} (h : IsName key) {c : UInt8}
    (hc : c ∈ bytes "\"\\:,\x7b\x7d[] ") (n u : Bytes) : ¬key ++ n <+: c :: u := by
  obtain ⟨b, key, rfl⟩ := List.exists_cons_of_ne_nil h.1
  rw [List.cons_append, List.cons_prefix_cons]
  rintro ⟨rfl, -⟩
  exact h.notMem hc (List.mem_cons_self ..)

/-- The quoted name, with the colon behind it or without. -/
def needle (key : Bytes) (colon : Bool) : Bytes :=
  0x22 :: (key ++ 0x22 :: if colon then [0x3A] else [])

theorem needle_false (key : Bytes) : needle key false = quoted key := rfl

theorem needle_true (key : Bytes) : needle key true = quoted key ++ [0x3A] := by
  simp [needle, quoted]

/-- The literal of a string does not end with the quoted name. -/
def Clear (key s : Bytes) : Prop := ¬0x22 :: key <:+ 0x22 :: s

instance (key s : Bytes) : Decidable (Clear key s) := inferInstanceAs (Decidable (¬_))

theorem asciiText_cases (c : UInt8) : asciiText c = [c] ∨ asciiText c = [0x20] ∨
    ∃ d, asciiText c = [0x5C, d] ∧ (d = 0x22 → c = 0x22) := by
  unfold asciiText
  split_ifs with hquote
  · exact .inr (.inr ⟨0x22, rfl, fun _ => hquote⟩)
  · exact .inr (.inr ⟨0x5C, rfl, fun h => absurd h (by decide)⟩)
  · exact .inr (.inr ⟨0x6E, rfl, fun h => absurd h (by decide)⟩)
  · exact .inr (.inr ⟨0x72, rfl, fun h => absurd h (by decide)⟩)
  · exact .inr (.inr ⟨0x74, rfl, fun h => absurd h (by decide)⟩)
  · exact .inr (.inl rfl)
  · exact .inl rfl

/-- A suffix that begins with a character a part does not hold begins behind it. -/
theorem suffix_of_notMem {c : UInt8} {a l t : Bytes} (h : c :: l <:+ a ++ t) (hc : c ∉ a) :
    c :: l <:+ t := by
  induction a with
  | nil => exact h
  | cons d a ih =>
      obtain ⟨hd, ha⟩ := not_or.mp (List.mem_cons.not.mp hc)
      rcases List.suffix_cons_iff.mp h with heq | hsuffix
      · exact absurd (List.cons.inj heq).1 hd
      · exact ih hsuffix ha

/-- Escaping adds no name: what follows the quote stands as it is in the string. -/
theorem Escaped.name {s t : Bytes} (h : Escaped s t) {key : Bytes}
    (hescape : (0x5C : UInt8) ∉ key) (hspace : (0x20 : UInt8) ∉ key) :
    (t = key → s = key) ∧ (0x22 :: key <:+ t → 0x22 :: key <:+ s) := by
  induction h generalizing key with
  | nil => exact ⟨fun heq => heq, fun hends => hends⟩
  | @ascii c s t hc _ ih =>
      rcases asciiText_cases c with hplain | hblank | ⟨d, hpair, hquote⟩
      · rw [hplain, List.singleton_append]
        constructor
        · rintro rfl
          obtain ⟨-, hescape⟩ := not_or.mp (List.mem_cons.not.mp hescape)
          obtain ⟨-, hspace⟩ := not_or.mp (List.mem_cons.not.mp hspace)
          rw [(ih hescape hspace).1 rfl]
        · intro hends
          rcases List.suffix_cons_iff.mp hends with heq | hsuffix
          · obtain ⟨rfl, rfl⟩ := List.cons.inj heq
            rw [(ih hescape hspace).1 rfl]
          · exact ((ih hescape hspace).2 hsuffix).trans (List.suffix_cons c s)
      · rw [hblank, List.singleton_append]
        constructor
        · rintro rfl
          exact absurd (List.mem_cons_self ..) hspace
        · intro hends
          have hsuffix := suffix_of_notMem (a := [0x20]) hends (by decide)
          exact ((ih hescape hspace).2 hsuffix).trans (List.suffix_cons c s)
      · rw [hpair]
        constructor
        · rintro rfl
          exact absurd (List.mem_cons_self ..) hescape
        · intro hends
          have hbehind : 0x22 :: key <:+ d :: t :=
            suffix_of_notMem (a := [0x5C]) hends (by decide)
          rcases List.suffix_cons_iff.mp hbehind with heq | hsuffix
          · obtain ⟨hd, rfl⟩ := List.cons.inj heq
            rw [hquote hd.symm, (ih hescape hspace).1 rfl]
          · exact ((ih hescape hspace).2 hsuffix).trans (List.suffix_cons c s)
  | @passed c u s t hseq _ ih =>
      rw [← List.cons_append, ← List.cons_append]
      have hquote : (0x22 : UInt8) ∉ c :: u := fun hmem => hseq.high _ hmem (by decide)
      constructor
      · rintro rfl
        rw [List.mem_append, not_or] at hescape hspace
        rw [(ih hescape.2 hspace.2).1 rfl]
      · intro hends
        have hsuffix := suffix_of_notMem hends hquote
        exact ((ih hescape hspace).2 hsuffix).trans (List.suffix_append _ _)
  | @broken c s t hc hpass _ ih =>
      obtain ⟨t', heq, -, -⟩ := unicodeEscape_cons c
      constructor
      · rintro rfl
        rw [heq] at hescape
        exact absurd (List.mem_cons_self ..) hescape
      · intro hends
        have hsuffix := suffix_of_notMem hends (guarded_unicodeEscape c)
        exact ((ih hescape hspace).2 hsuffix).trans (List.suffix_cons c s)

theorem Clear.jsonChars {key s : Bytes} (hkey : IsName key) (h : Clear key s) :
    Clear key (jsonChars 0 s) := by
  intro hends
  obtain ⟨hwhole, hend⟩ := (escaped_jsonChars s).name (hkey.notMem (by decide))
    (hkey.notMem (by decide))
  rcases List.suffix_cons_iff.mp hends with heq | hsuffix
  · exact h (by rw [hwhole (List.cons.inj heq).2.symm])
  · exact h ((hend hsuffix).trans (List.suffix_cons _ _))

/-- What comes behind a member: the next one, or the end of the object. -/
def Closes (u : Bytes) : Prop := ∃ d rest, u = d :: rest ∧ (d = 0x2C ∨ d = 0x7D)

/-- A value does not hold the needle at its end; with the colon it never does. -/
def FieldValue.Passes (key : Bytes) (colon : Bool) : FieldValue → Prop
  | .str s => colon = false → Clear key s
  | .num t => ∀ b ∈ t, IsNumeric b

theorem Closes.mark {u : Bytes} (hu : Closes u) :
    ∃ d rest, u = d :: rest ∧ d ∈ bytes "\"\\:,\x7b\x7d[] " ∧ d ≠ 0x3A := by
  obtain ⟨d, rest, rfl, hd⟩ := hu
  exact ⟨d, rest, rfl, by rcases hd with rfl | rfl <;> decide⟩

theorem find_jsonStr {key u : Bytes} (hkey : IsName key) {colon : Bool} {s : Bytes}
    (hs : colon = false → Clear key (jsonChars 0 s)) (hu : Closes u) :
    find (needle key colon) (jsonStr s ++ u) = find (needle key colon) u := by
  obtain ⟨d, rest, rfl, hmark, hcolon⟩ := hu.mark
  refine (guarded_jsonChars s).find_append (by decide) (hkey.notMem (by decide))
    (hkey.notMem (by decide)) ?_ (hkey.not_prefix hmark _ _)
  intro hends hstarts
  cases colon with
  | false => exact hs rfl hends
  | true => exact hcolon (List.cons_prefix_cons.mp hstarts).1.symm

theorem FieldValue.find_append {key u : Bytes} (hkey : IsName key) {colon : Bool} {v : FieldValue}
    (hv : v.Passes key colon) (hu : Closes u) :
    find (needle key colon) (v.text ++ u) = find (needle key colon) u := by
  cases v with
  | str s => exact find_jsonStr hkey (fun hcolon => (hv hcolon).jsonChars hkey) hu
  | num t =>
      refine find_append_of_notMem (fun hmem => ?_) _
      have hquote : ¬IsNumeric 0x22 := by unfold IsNumeric; decide
      exact hquote (hv _ hmem)

/-- **A member of another name is passed.** -/
theorem find_other {key u : Bytes} (hkey : IsName key) {colon : Bool} {m : Bytes × FieldValue}
    (hname : IsName m.1) (hne : m.1 ≠ key) (hv : m.2.Passes key colon) (hu : Closes u) :
    find (needle key colon) (0x2C :: memberText m ++ u) = find (needle key colon) u := by
  have hguarded : Guarded 0x22 0x5C m.1 := .of_notMem (hname.notMem (by decide))
  have hends : ¬0x22 :: key <:+ 0x22 :: m.1 := by
    intro hends
    rcases List.suffix_cons_iff.mp hends with heq | hsuffix
    · exact hne (List.cons.inj heq).2.symm
    · exact hname.notMem (by decide) (hsuffix.subset (List.mem_cons_self ..))
  have htext : 0x2C :: memberText m ++ u =
      [0x2C] ++ (quoted m.1 ++ ([0x3A] ++ (m.2.text ++ u))) := by
    simp [memberText]
  have hskip : ∀ c : UInt8, c ∉ [(0x22 : UInt8)] → ∀ s, find (needle key colon) ([c] ++ s) =
      find (needle key colon) s := fun c hc s =>
    find_append_of_notMem (fun hmem => hc (by simpa [eq_comm] using hmem)) s
  rw [htext, hskip _ (by decide)]
  refine Eq.trans (hguarded.find_append (by decide) (hkey.notMem (by decide))
    (hkey.notMem (by decide)) (fun h => absurd h hends) (hkey.not_prefix (by decide) _ _)) ?_
  exact (hskip _ (by decide) _).trans (FieldValue.find_append hkey hv hu)

/-- **The member of the name is found.** -/
theorem find_same {key : Bytes} {colon : Bool} (v : FieldValue) (u : Bytes) :
    find (needle key colon) (0x2C :: memberText (key, v) ++ u) =
      some (memberText (key, v) ++ u) := by
  have hstart : needle key colon <+: memberText (key, v) ++ u := by
    cases colon with
    | false =>
        rw [needle_false, memberText, List.append_assoc]
        exact List.prefix_append _ _
    | true =>
        rw [needle_true, memberText, List.append_assoc]
        exact (List.prefix_append_right_inj _).mpr ⟨v.text ++ u, rfl⟩
  have hskip : ¬needle key colon <+: 0x2C :: (memberText (key, v) ++ u) := by
    intro h
    exact absurd (List.cons_prefix_cons.mp h).1 (by decide)
  rw [List.cons_append, find_cons_of_not hskip, find_of_starts hstart]

theorem closes_membersText (ms : List (Bytes × FieldValue)) {u : Bytes} (hu : Closes u) :
    Closes (membersText ms ++ u) := by
  cases ms with
  | nil => exact hu
  | cons m ms => exact ⟨0x2C, memberText m ++ membersText ms ++ u, rfl, .inl rfl⟩

theorem find_membersText {key u : Bytes} (hkey : IsName key) {colon : Bool}
    {ms : List (Bytes × FieldValue)} (hnames : ∀ m ∈ ms, IsName m.1 ∧ m.1 ≠ key)
    (hpasses : ∀ m ∈ ms, m.2.Passes key colon) (hu : Closes u) :
    find (needle key colon) (membersText ms ++ u) = find (needle key colon) u := by
  induction ms with
  | nil => rfl
  | cons m ms ih =>
      rw [List.forall_mem_cons] at hnames hpasses
      have htext : membersText (m :: ms) ++ u = 0x2C :: memberText m ++ (membersText ms ++ u) :=
        List.append_assoc ..
      rw [htext, find_other hkey hnames.1.1 hnames.1.2 hpasses.1 (closes_membersText ms hu)]
      exact ih hnames.2 hpasses.2

end AbrekMouse
