import AbrekMouse.StatusScan

/-! # Reading the status

A number is found by its name and colon, which no string of the daemon can imitate; a string is
found by its name alone, which a string that ends with it can.  Apart from such strings the
window reads what the daemon wrote, of the device that the active profile is for
(`status_read_back`).
-/
namespace AbrekMouse
open ProgLib ProgLib.Fp ProgLib.JsonGrammar ProgLib.TextSearch

/-! ## Reading a device -/

theorem isNumeric_decimal (n : ℕ) : ∀ b ∈ decimal n, IsNumeric b := fun b hb =>
  .inr (.inr (isDigit_bounds (isDigit_decimal b hb)))

theorem isNumeric_intText (z : ℤ) : ∀ b ∈ intText z, IsNumeric b := by
  unfold intText
  split_ifs
  · rw [List.forall_mem_cons]
    exact ⟨.inl rfl, isNumeric_decimal _⟩
  · exact isNumeric_decimal _

/-- What each field of a device keeps to. -/
def Regular (m : Bytes × FieldValue) : Prop :=
  IsName m.1 ∧ ∀ t, m.2 = .num t → ∀ b ∈ t, IsNumeric b

theorem regular_str {key : Bytes} (hkey : IsName key) (s : Bytes) : Regular (key, .str s) :=
  ⟨hkey, nofun⟩

theorem regular_num {key t : Bytes} (hkey : IsName key) (ht : ∀ b ∈ t, IsNumeric b) :
    Regular (key, .num t) :=
  ⟨hkey, fun _ heq => FieldValue.num.inj heq ▸ ht⟩

/-- A device has three strings, and numbers. -/
theorem DevSnap.forall_fields (s : DevSnap) {P : Bytes × FieldValue → Prop}
    (hname : P (bytes "name", .str s.name)) (hpath : P (bytes "path", .str s.path))
    (hid : P (bytes "device_id", .str s.deviceId))
    (hnum : ∀ key t, IsName key → (∀ b ∈ t, IsNumeric b) → P (key, .num t)) :
    ∀ m ∈ s.fields, P m := by
  have hint : ∀ key z, IsName key → P (key, .num (intText z)) := fun key z hkey =>
    hnum key _ hkey (isNumeric_intText z)
  have hfixed : ∀ key v prec, IsName (bytes key) → 0 < prec → P (fixedField key v prec) :=
    fun key v prec hkey hprec => hnum _ _ hkey (isNumeric_fixedValue key v hprec)
  have hlat : ∀ m ∈ s.latFields, P m := by
    unfold DevSnap.latFields
    split_ifs
    · simp only [List.forall_mem_cons]
      exact ⟨hnum _ _ (by decide) (isNumeric_decimal _), hfixed _ _ _ (by decide) (by decide),
        hfixed _ _ _ (by decide) (by decide), hfixed _ _ _ (by decide) (by decide),
        hfixed _ _ _ (by decide) (by decide), hfixed _ _ _ (by decide) (by decide),
        List.forall_mem_nil _⟩
    · exact List.forall_mem_nil _
  have htelem : ∀ m ∈ telemFields s.telem, P m := by
    cases s.telem with
    | none => exact List.forall_mem_nil _
    | some t =>
        simp only [telemFields, List.forall_mem_cons]
        exact ⟨hfixed _ _ _ (by decide) (by decide), hfixed _ _ _ (by decide) (by decide),
          hfixed _ _ _ (by decide) (by decide), hfixed _ _ _ (by decide) (by decide),
          hfixed _ _ _ (by decide) (by decide), hfixed _ _ _ (by decide) (by decide),
          List.forall_mem_nil _⟩
  unfold DevSnap.fields
  rw [List.forall_mem_append, List.forall_mem_append]
  refine ⟨⟨?_, hlat⟩, htelem⟩
  simp only [List.forall_mem_cons]
  exact ⟨hname, hpath, hid, hint _ _ (by decide), hint _ _ (by decide), hint _ _ (by decide),
    hint _ _ (by decide), hint _ _ (by decide), hint _ _ (by decide), List.forall_mem_nil _⟩

theorem DevSnap.regular_fields (s : DevSnap) : ∀ m ∈ s.fields, Regular m :=
  s.forall_fields (regular_str (by decide) _) (regular_str (by decide) _)
    (regular_str (by decide) _) fun _ _ => regular_num

theorem find_deviceText {key : Bytes} {colon : Bool} (s : DevSnap) :
    find (needle key colon) (deviceText s) =
      find (needle key colon) (membersText s.fields ++ [0x7D]) := by
  have hskip : ∀ c : UInt8, c ≠ 0x22 → ∀ u, find (needle key colon) (c :: u) =
      find (needle key colon) u := fun c hc u =>
    find_cons_of_not fun h => hc (List.cons_prefix_cons.mp h).1.symm
  rw [← deviceMembers_eq, deviceText, List.cons_append, hskip _ (by decide), hskip _ (by decide)]

theorem closes_brace (u : Bytes) : Closes (0x7D :: u) := ⟨0x7D, u, rfl, .inr rfl⟩

/-- **The first field of the name is found**, if what comes before it does not hold the name. -/
theorem find_field {key : Bytes} {colon : Bool} (hkey : IsName key) (s : DevSnap)
    (hpasses : ∀ m ∈ s.fields.takeWhile fun m => m.1 ≠ key, m.2.Passes key colon) :
    (find (needle key colon) (deviceText s) = none ∧
        s.fields.find? (fun m => m.1 = key) = none) ∨
      ∃ v rest, Closes rest ∧
        find (needle key colon) (deviceText s) = some (memberText (key, v) ++ rest) ∧
        s.fields.find? (fun m => m.1 = key) = some (key, v) ∧ (key, v) ∈ s.fields := by
  have hsplit := List.takeWhile_append_dropWhile (p := fun m => decide (m.1 ≠ key)) (l := s.fields)
  have hbefore : ∀ m ∈ s.fields.takeWhile (fun m => m.1 ≠ key), m.1 ≠ key := by
    intro m hm
    have hkeep := List.mem_takeWhile_imp hm
    simpa using hkeep
  have hnames : ∀ m ∈ s.fields.takeWhile (fun m => m.1 ≠ key), IsName m.1 ∧ m.1 ≠ key :=
    fun m hm => ⟨(s.regular_fields m (List.takeWhile_subset _ hm)).1, hbefore m hm⟩
  have hnot : (s.fields.takeWhile fun m => m.1 ≠ key).find? (fun m => m.1 = key) = none :=
    List.find?_eq_none.mpr fun m hm => by simpa using hbefore m hm
  rw [find_deviceText, ← hsplit, membersText_append, List.append_assoc, List.find?_append, hnot,
    Option.none_or]
  rw [find_membersText hkey hnames hpasses (closes_membersText _ (closes_brace []))]
  cases hdrop : s.fields.dropWhile fun m => m.1 ≠ key with
  | nil =>
      refine .inl ⟨?_, rfl⟩
      have hmark : ¬needle key colon <+: [0x7D] := by
        intro h
        exact absurd (List.cons_prefix_cons.mp h).1 (by decide)
      show find (needle key colon) [0x7D] = none
      rw [find_cons_of_not hmark]
      rfl
  | cons m ms =>
      have hm : m.1 = key := by
        have hhead := List.head?_dropWhile_not (fun m : Bytes × FieldValue => decide (m.1 ≠ key))
          s.fields
        rw [hdrop] at hhead
        simpa using hhead
      obtain ⟨name, v⟩ := m
      subst hm
      refine .inr ⟨v, membersText ms ++ [0x7D], closes_membersText ms (closes_brace []), ?_, ?_, ?_⟩
      · exact (congrArg (find _) (List.append_assoc ..)).trans (find_same v _)
      · exact List.find?_cons_of_pos (by simp)
      · simp

theorem dropWhile_number {p : UInt8 → Bool} {t u : Bytes} (ht : ∀ b ∈ t, IsNumeric b)
    (hp : ∀ b, IsNumeric b ∨ b = 0x2C ∨ b = 0x7D → p b = false) (hu : Closes u) :
    (t ++ u).dropWhile p = t ++ u := by
  obtain ⟨d, rest, rfl, hd⟩ := hu
  cases t with
  | nil => exact List.dropWhile_cons_of_neg (by rw [hp d (.inr hd)]; exact Bool.false_ne_true)
  | cons b t =>
      refine List.dropWhile_cons_of_neg ?_
      rw [hp b (.inl (ht b (List.mem_cons_self ..)))]
      exact Bool.false_ne_true

theorem wholeNumber_nil : wholeNumber [] = none := by decide +kernel

theorem startsWithWord_quote {word : Bytes} (hne : word ≠ []) (hword : (0x22 : UInt8) ∉ word)
    (s : Bytes) : ¬startsWithWord word (0x22 :: s) = true := by
  intro h
  obtain ⟨c, word, rfl⟩ := List.exists_cons_of_ne_nil hne
  have heq : (List.take (word.length + 1) (0x22 :: s)).map toLowerAscii = c :: word :=
    of_decide_eq_true h
  obtain ⟨rfl, -⟩ := List.cons.inj heq
  exact hword (List.mem_cons_self ..)

/-- What begins with a quote is no number. -/
theorem wholeNumber_quote (s : Bytes) : wholeNumber (0x22 :: s) = none := by
  have hminus : ¬(0x22 :: s).head? = some 0x2D := by simp
  have hchars : fromChars (0x22 :: s) = none := by
    unfold fromChars
    simp only [hminus, decide_false, if_false]
    rw [if_neg (startsWithWord_quote (by decide) (by decide) s),
      if_neg (startsWithWord_quote (by decide) (by decide) s),
      if_neg (startsWithWord_quote (by decide) (by decide) s)]
    rfl
  rw [wholeNumber, hchars]

theorem takeWhile_number {t rest : Bytes} (ht : ∀ b ∈ t, IsNumeric b) (hrest : Closes rest) :
    (t ++ rest).takeWhile isFieldByte = t := by
  obtain ⟨d, u, rfl, hd⟩ := hrest
  have hstop : ¬isFieldByte d = true := by rcases hd with rfl | rfl <;> decide
  have hgo : ∀ b : UInt8, b = 0x2D ∨ b = 0x2E ∨ (0x30 ≤ b ∧ b ≤ 0x39) → isFieldByte b = true :=
    forall_byte (by decide +kernel)
  rw [List.takeWhile_append_of_pos fun b hb => hgo b (ht b hb), List.takeWhile_cons_of_neg hstop,
    List.append_nil]

theorem fieldText_device {key : Bytes} (hkey : IsName key) (s : DevSnap) :
    (fieldText (deviceText s) key).bind wholeNumber = (s.number key).bind wholeNumber := by
  have hpasses : ∀ m ∈ s.fields.takeWhile fun m => m.1 ≠ key, m.2.Passes key true := by
    intro m hm
    have hregular := (s.regular_fields m (List.takeWhile_subset _ hm)).2
    obtain ⟨name, v⟩ := m
    cases v with
    | str _ => exact nofun
    | num t => exact hregular t rfl
  unfold fieldText DevSnap.number
  rw [← needle_true]
  rcases find_field hkey s hpasses with ⟨hnone, hfields⟩ | ⟨v, rest, hrest, hsome, hfields, hmem⟩
  · rw [hnone, hfields]
    rfl
  · rw [hsome, hfields, needle_true]
    have hdrop : (memberText (key, v) ++ rest).drop (quoted key ++ [0x3A]).length =
        v.text ++ rest := by
      have htext : memberText (key, v) ++ rest = (quoted key ++ [0x3A]) ++ (v.text ++ rest) := by
        simp [memberText]
      rw [htext, List.drop_left]
    dsimp only [Option.bind_some]
    rw [hdrop]
    cases v with
    | str w =>
        show Option.bind _ wholeNumber = none
        have hblank : (jsonStr w ++ rest).dropWhile (fun c => c = 0x20 || c = 0x09) =
            jsonStr w ++ rest := List.dropWhile_cons_of_neg (by decide)
        have hval : (jsonStr w ++ rest).takeWhile isFieldByte =
            0x22 :: (jsonChars 0 w ++ [0x22] ++ rest).takeWhile isFieldByte :=
          List.takeWhile_cons_of_pos (by decide)
        rw [FieldValue.text, hblank, hval]
        by_cases hend : (0x22 :: (jsonChars 0 w ++ [0x22] ++ rest).takeWhile isFieldByte).length =
            (jsonStr w ++ rest).length
        · rw [if_pos (.inl hend)]
          rfl
        · rw [if_neg (not_or.mpr ⟨hend, List.cons_ne_nil _ _⟩)]
          exact wholeNumber_quote ((jsonChars 0 w ++ [0x22] ++ rest).takeWhile isFieldByte)
    | num t =>
        have ht := (s.regular_fields _ hmem).2 t rfl
        have hblank : (t ++ rest).dropWhile (fun c => c = 0x20 || c = 0x09) = t ++ rest := by
          refine dropWhile_number ht ?_ hrest
          unfold IsNumeric
          exact forall_byte (by decide +kernel)
        have hlength : t.length ≠ (t ++ rest).length := by
          obtain ⟨d, u, rfl, -⟩ := hrest
          rw [List.length_append, List.length_cons]
          omega
        rw [FieldValue.text, hblank, takeWhile_number ht hrest]
        by_cases hempty : t = []
        · rw [if_pos (.inr hempty), hempty]
          exact wholeNumber_nil.symm
        · rw [if_neg (not_or.mpr ⟨hlength, hempty⟩)]

/-- A string is read as it stands in the text, behind the next colon. -/
theorem jsonStringField_of_find {key before w obj rest : Bytes}
    (h : find (quoted key) obj = some (quoted key ++ (before ++ 0x3A :: (jsonStr w ++ rest))))
    (hbefore : (0x3A : UInt8) ∉ before) : jsonStringField obj key = jsonChars 0 w := by
  have hcolon : find [0x3A] (before ++ 0x3A :: (jsonStr w ++ rest)) =
      some (0x3A :: (jsonStr w ++ rest)) := by
    rw [find_append_of_notMem hbefore]
    exact find_of_starts (List.cons_prefix_cons.mpr ⟨rfl, List.nil_prefix⟩)
  have hblank : (jsonStr w ++ rest).dropWhile isBlank = jsonStr w ++ rest :=
    List.dropWhile_cons_of_neg (by decide)
  have htext : jsonStr w ++ rest = 0x22 :: (jsonChars 0 w ++ 0x22 :: rest) := by
    rw [jsonStr, quoted, List.cons_append, List.append_assoc, List.singleton_append]
  have hlength : (jsonStr w ++ rest).length - rest.length - 2 = (jsonChars 0 w).length := by
    rw [htext]
    simp only [List.length_cons, List.length_append]
    omega
  unfold jsonStringField
  rw [h]
  dsimp only
  rw [List.drop_left, hcolon]
  dsimp only [List.tail_cons]
  rw [hblank, jsonSkipString_jsonStr]
  dsimp only
  rw [hlength, htext, List.drop_succ_cons, List.drop_zero, List.take_left]

theorem jsonStringField_of_member {key w obj rest : Bytes}
    (h : find (quoted key) obj = some (memberText (key, .str w) ++ rest)) :
    jsonStringField obj key = jsonChars 0 w := by
  have hname : find (quoted key) obj =
      some (quoted key ++ ([] ++ 0x3A :: (jsonStr w ++ rest))) := by
    rw [h, memberText, List.append_assoc]
    rfl
  exact jsonStringField_of_find hname List.not_mem_nil

/-- The strings of a device before its identifier do not end with the name of the identifier,
and none of its strings with the name of the telemetry. -/
structure DevSnap.Legible (s : DevSnap) : Prop where
  name_id : Clear (bytes "device_id") s.name
  path_id : Clear (bytes "device_id") s.path
  name_telem : Clear (bytes "telem_in_ips") s.name
  path_telem : Clear (bytes "telem_in_ips") s.path
  id_telem : Clear (bytes "telem_in_ips") s.deviceId

theorem jsonStringField_deviceId {s : DevSnap} (h : s.Legible) :
    jsonStringField (deviceText s) (bytes "device_id") = jsonChars 0 s.deviceId := by
  have hbefore : (s.fields.takeWhile fun m => m.1 ≠ bytes "device_id") =
      [(bytes "name", .str s.name), (bytes "path", .str s.path)] := rfl
  have hpasses : ∀ m ∈ s.fields.takeWhile fun m => m.1 ≠ bytes "device_id",
      m.2.Passes (bytes "device_id") false := by
    rw [hbefore, List.forall_mem_cons, List.forall_mem_singleton]
    exact ⟨fun _ => h.name_id, fun _ => h.path_id⟩
  rcases find_field (by decide) s hpasses with ⟨-, hnone⟩ | ⟨v, rest, -, hsome, hfields, -⟩
  · cases hnone
  · obtain rfl : v = .str s.deviceId := by
      cases hfields
      rfl
    exact jsonStringField_of_member hsome

/-- The name is the first field, and so nothing is in its way. -/
theorem jsonStringField_name (s : DevSnap) :
    jsonStringField (deviceText s) (bytes "name") = jsonChars 0 s.name := by
  have hbefore : (s.fields.takeWhile fun m => m.1 ≠ bytes "name") = [] := rfl
  have hpasses : ∀ m ∈ s.fields.takeWhile fun m => m.1 ≠ bytes "name",
      m.2.Passes (bytes "name") false := by
    rw [hbefore]
    exact List.forall_mem_nil _
  rcases find_field (by decide) s hpasses with ⟨-, hnone⟩ | ⟨v, rest, -, hsome, hfields, -⟩
  · cases hnone
  · obtain rfl : v = .str s.name := by
      cases hfields
      rfl
    exact jsonStringField_of_member hsome

theorem find?_telem (s : DevSnap) :
    (s.fields.find? fun m => m.1 = bytes "telem_in_ips").isSome = s.telem.isSome := by
  have hlat : s.latFields.find? (fun m => m.1 = bytes "telem_in_ips") = none := by
    unfold DevSnap.latFields
    split_ifs
    · rfl
    · rfl
  unfold DevSnap.fields
  rw [List.find?_append, List.find?_append, hlat]
  cases s.telem with
  | none => rfl
  | some t => rfl

/-- A device has the field of the telemetry when it has a sample. -/
theorem jsonHasField_telem {s : DevSnap} (h : s.Legible) :
    jsonHasField (deviceText s) (bytes "telem_in_ips") = s.telem.isSome := by
  have hpasses : ∀ m ∈ s.fields.takeWhile fun m => m.1 ≠ bytes "telem_in_ips",
      m.2.Passes (bytes "telem_in_ips") false := by
    have hall : ∀ m ∈ s.fields, m.2.Passes (bytes "telem_in_ips") false :=
      s.forall_fields (P := fun m => m.2.Passes _ false) (fun _ => h.name_telem)
        (fun _ => h.path_telem) (fun _ => h.id_telem) fun _ _ _ ht => ht
    exact fun m hm => hall m (List.takeWhile_subset _ hm)
  rw [← find?_telem]
  unfold jsonHasField
  rcases find_field (by decide) s hpasses with ⟨hnone, hfields⟩ | ⟨v, rest, -, hsome, hfields, -⟩
  · rw [← needle_false, hnone, hfields]
    rfl
  · rw [← needle_false, hsome, hfields]
    rfl

/-! ## The end of a device -/

theorem objectEnd_quoted (depth : ℕ) {key : Bytes} (hkey : IsName key) (rest : Bytes) :
    objectEnd .outside depth (quoted key ++ rest) = objectEnd .outside depth rest := by
  have htext : quoted key ++ rest = 0x22 :: (key ++ 0x22 :: rest) := by
    rw [quoted, List.cons_append, List.append_assoc, List.singleton_append]
  rw [htext, objectEnd, if_pos rfl, objectEnd_inside,
    skipChars_append (hkey.notMem (by decide)) (hkey.notMem (by decide))]
  rfl

theorem objectEnd_membersText (depth : ℕ) {ms : List (Bytes × FieldValue)}
    (h : ∀ m ∈ ms, Regular m) (rest : Bytes) :
    objectEnd .outside depth (membersText ms ++ rest) = objectEnd .outside depth rest := by
  induction ms with
  | nil => rfl
  | cons m ms ih =>
      rw [List.forall_mem_cons] at h
      have htext : membersText (m :: ms) ++ rest =
          0x2C :: (quoted m.1 ++ 0x3A :: (m.2.text ++ (membersText ms ++ rest))) := by
        simp [membersText, memberText]
      have hmark : ∀ c : UInt8, IsFlat c → ∀ s, objectEnd .outside depth (c :: s) =
          objectEnd .outside depth s := fun c hc s =>
        objectEnd_flat depth (a := [c]) (by simpa using hc) s
      rw [htext, hmark _ (by decide), objectEnd_quoted depth h.1.1, hmark _ (by decide)]
      refine Eq.trans ?_ (ih h.2)
      obtain ⟨name, v⟩ := m
      cases v with
      | str w => exact objectEnd_jsonStr depth w _
      | num t =>
          have hflat : ∀ b : UInt8, b = 0x2D ∨ b = 0x2E ∨ (0x30 ≤ b ∧ b ≤ 0x39) → IsFlat b :=
            forall_byte (by decide +kernel)
          exact objectEnd_flat depth (fun b hb => hflat b (h.1.2 t rfl b hb)) _

/-- **The end of a device is found**, whatever braces and quotes are in its strings. -/
theorem jsonObjectEnd_deviceText (s : DevSnap) (rest : Bytes) :
    jsonObjectEnd (deviceText s ++ rest) = some rest := by
  have hcomma : objectEnd .outside 1 (0x2C :: deviceMembers s ++ 0x7D :: rest) =
      objectEnd .outside 1 (deviceMembers s ++ 0x7D :: rest) := by
    rw [List.cons_append, objectEnd, if_neg (by decide), if_neg (by decide), if_neg (by decide)]
  have htext : deviceText s ++ rest = 0x7B :: (deviceMembers s ++ 0x7D :: rest) := by
    simp [deviceText]
  rw [htext, jsonObjectEnd, List.head?_cons, if_pos rfl, objectEnd, if_neg (by decide),
    if_pos rfl, Nat.zero_add, ← hcomma, deviceMembers_eq,
    objectEnd_membersText 1 s.regular_fields, objectEnd, if_neg (by decide), if_neg (by decide),
    if_pos rfl, if_neg Nat.one_ne_zero, if_pos rfl]

/-! ## The slice -/

/-- The device of an identifier, else the first one with telemetry, else the first one. -/
def chosenDevice (want : Bytes) (devices : List DevSnap) : Option DevSnap :=
  ((devices.find? fun d => want ≠ [] ∧ jsonChars 0 d.deviceId = want).or
    (devices.find? fun d => d.telem.isSome)).or devices.head?

/-- The text of the devices that are left. -/
def devicesTail (devices : List DevSnap) : Bytes :=
  devices.flatMap fun d => 0x2C :: deviceText d

theorem deviceText_ne_nil (s : DevSnap) : deviceText s ≠ [] := List.cons_ne_nil _ _

/-- What the loop comes to, with what it has found so far. -/
def sliceOf (want : Bytes) (devices : List DevSnap) (first live : Option DevSnap) :
    Option DevSnap :=
  ((devices.find? fun d => want ≠ [] ∧ jsonChars 0 d.deviceId = want).or
    (live.or (devices.find? fun d => d.telem.isSome))).or (first.or devices.head?)

theorem scanDevices_end {want text : Bytes} (h : (0x7B : UInt8) ∉ text) {rounds : ℕ}
    (hrounds : 0 < rounds) (first live : Option DevSnap) :
    scanDevices want rounds text ((first.map deviceText).getD []) ((live.map deviceText).getD []) =
      ((live.or first).map deviceText).getD [] := by
  obtain ⟨rounds, rfl⟩ := Nat.exists_eq_succ_of_ne_zero (Nat.ne_of_gt hrounds)
  have hnone : find [0x7B] text = none := by
    rw [find_eq_none_iff]
    exact fun hinside => h (hinside.subset (List.mem_singleton_self _))
  rw [scanDevices, hnone]
  dsimp only
  cases live with
  | none => exact if_neg (not_not.mpr rfl)
  | some d => exact if_pos (deviceText_ne_nil d)

/-- One round over a device. -/
theorem scanDevices_device {want : Bytes} {d : DevSnap} (hd : d.Legible) (rest : Bytes)
    (rounds : ℕ) (first live : Option DevSnap) :
    scanDevices want (rounds + 1) (deviceText d ++ rest) ((first.map deviceText).getD [])
        ((live.map deviceText).getD []) =
      if want ≠ [] ∧ jsonChars 0 d.deviceId = want then deviceText d
      else scanDevices want rounds rest (((first.or (some d)).map deviceText).getD [])
        (((live.or (if d.telem.isSome then some d else none)).map deviceText).getD []) := by
  have hstart : find [0x7B] (deviceText d ++ rest) = some (deviceText d ++ rest) :=
    find_of_starts (List.cons_prefix_cons.mpr ⟨rfl, List.nil_prefix⟩)
  have hobj : (deviceText d ++ rest).take ((deviceText d ++ rest).length - rest.length) =
      deviceText d := by
    rw [List.length_append, Nat.add_sub_cancel, List.take_left]
  have hfirst : (if (first.map deviceText).getD [] = [] then deviceText d
      else (first.map deviceText).getD []) = ((first.or (some d)).map deviceText).getD [] := by
    cases first with
    | none => rfl
    | some d' => exact if_neg (deviceText_ne_nil d')
  have hlive : (if (live.map deviceText).getD [] = [] ∧
        jsonHasField (deviceText d) (bytes "telem_in_ips") = true then deviceText d
      else (live.map deviceText).getD []) =
      ((live.or (if d.telem.isSome then some d else none)).map deviceText).getD [] := by
    rw [jsonHasField_telem hd]
    cases live with
    | none =>
        by_cases htelem : d.telem.isSome = true
        · rw [if_pos ⟨rfl, htelem⟩, if_pos htelem]
          rfl
        · rw [if_neg (fun h => htelem h.2), if_neg htelem]
          rfl
    | some d' => exact if_neg fun h => deviceText_ne_nil d' h.1
  rw [scanDevices, hstart]
  dsimp only
  rw [jsonObjectEnd_deviceText]
  dsimp only
  rw [hobj, jsonStringField_deviceId hd, hfirst, hlive]

theorem scanDevices_comma (want text first live : Bytes) (rounds : ℕ) :
    scanDevices want rounds (0x2C :: text) first live =
      scanDevices want rounds text first live := by
  cases rounds with
  | zero => rfl
  | succ rounds =>
      have hskip : ¬[(0x7B : UInt8)] <+: 0x2C :: text := by
        intro h
        exact absurd (List.cons_prefix_cons.mp h).1 (by decide)
      rw [scanDevices, find_cons_of_not hskip, scanDevices]

/-- **The loop chooses the device**, by induction on the devices. -/
theorem scanDevices_eq {want : Bytes} {devices : List DevSnap} (h : ∀ d ∈ devices, d.Legible)
    {tail : Bytes} (htail : (0x7B : UInt8) ∉ tail) {rounds : ℕ} (hrounds : devices.length < rounds)
    (first live : Option DevSnap) :
    scanDevices want rounds (devicesTail devices ++ tail) ((first.map deviceText).getD [])
        ((live.map deviceText).getD []) =
      ((sliceOf want devices first live).map deviceText).getD [] := by
  induction devices generalizing rounds first live with
  | nil =>
      refine (scanDevices_end htail hrounds first live).trans ?_
      simp [sliceOf]
  | cons d devices ih =>
      rw [List.forall_mem_cons] at h
      obtain ⟨rounds, rfl⟩ :=
        Nat.exists_eq_succ_of_ne_zero (Nat.ne_of_gt (Nat.zero_lt_of_lt hrounds))
      have htext : devicesTail (d :: devices) ++ tail =
          0x2C :: (deviceText d ++ (devicesTail devices ++ tail)) := by
        simp [devicesTail]
      rw [htext, scanDevices_comma, Nat.succ_eq_add_one, scanDevices_device h.1,
        ih h.2 (Nat.lt_of_succ_lt_succ hrounds)]
      unfold sliceOf
      by_cases hmatch : want ≠ [] ∧ jsonChars 0 d.deviceId = want
      · rw [if_pos hmatch, List.find?_cons_of_pos (by simpa using hmatch)]
        rfl
      · rw [if_neg hmatch, List.find?_cons_of_neg (by simpa using hmatch)]
        have hlive : (live.or (if d.telem.isSome then some d else none)).or
            (devices.find? fun d => d.telem.isSome) =
            live.or ((d :: devices).find? fun d => d.telem.isSome) := by
          rw [List.find?_cons]
          cases d.telem.isSome <;> cases live <;> rfl
        have hfirst : (first.or (some d)).or devices.head? =
            first.or (d :: devices).head? := by
          cases first <;> rfl
        rw [hlive, hfirst]

/-! ## The status -/

theorem devicesText_eq (devices : List DevSnap) :
    devices = [] ∧ devicesText devices = [] ∨
      0x2C :: devicesText devices = devicesTail devices := by
  have hmore : ∀ ds : List DevSnap, moreDevices ds = devicesTail ds := by
    intro ds
    induction ds with
    | nil => rfl
    | cons d ds ih =>
        rw [moreDevices, ih]
        rfl
  cases devices with
  | nil => exact .inl ⟨rfl, rfl⟩
  | cons d ds =>
      right
      rw [devicesText, hmore]
      rfl

theorem length_le_devicesText (devices : List DevSnap) :
    devices.length ≤ (devicesText devices).length := by
  have htail : ∀ ds : List DevSnap, 2 * ds.length ≤ (devicesTail ds).length := by
    intro ds
    induction ds with
    | nil => exact Nat.le_refl _
    | cons d ds ih =>
        have hlength : (devicesTail (d :: ds)).length =
            (deviceText d).length + 1 + (devicesTail ds).length := by
          rw [devicesTail, List.flatMap_cons, List.length_append, List.length_cons]
          rfl
        have hpos := List.length_pos_of_ne_nil (deviceText_ne_nil d)
        rw [List.length_cons]
        omega
  rcases devicesText_eq devices with ⟨rfl, -⟩ | htext
  · exact Nat.le_refl _
  · have hlength := congrArg List.length htext
    have hle := htail devices
    rw [List.length_cons] at hlength
    omega

/-- The members before the devices. -/
def statusHead (running : Bool) (configPath activeProfile : Bytes) : Bytes :=
  0x7B :: (quoted (bytes "running") ++ 0x3A :: boolText running ++
    nextMember "config" (jsonStr configPath) ++
    nextMember "active_profile" (jsonStr activeProfile))

theorem statusJson_eq (running : Bool) (configPath activeProfile : Bytes)
    (devices : List DevSnap) :
    statusJson running configPath activeProfile devices =
      statusHead running configPath activeProfile ++
        nextMember "devices" (0x5B :: (devicesText devices ++ [0x5D])) ++ [0x7D] := rfl

theorem quoted_devices : quoted (bytes "devices") = needle (bytes "devices") false := rfl

/-- The array is found: behind the name of the devices, or behind a profile of that name. -/
theorem find_devices {configPath : Bytes} (hconfig : Clear (bytes "devices") configPath)
    (running : Bool) (activeProfile : Bytes) (devices : List DevSnap) (tail : Bytes) :
    ∃ name, find (quoted (bytes "devices"))
        (statusJson running configPath activeProfile devices ++ tail) = some name ∧
      find [0x5B] (name.drop (quoted (bytes "devices")).length) =
        some (0x5B :: (devicesText devices ++ 0x5D :: 0x7D :: tail)) := by
  have harray : ∀ before : Bytes, (0x5B : UInt8) ∉ before → ∀ rest,
      find [0x5B] (before ++ 0x5B :: rest) = some (0x5B :: rest) := by
    intro before hbefore rest
    rw [find_append_of_notMem hbefore]
    exact find_of_starts (List.cons_prefix_cons.mpr ⟨rfl, List.nil_prefix⟩)
  -- the text in pieces: what is before each string, the strings, and the array
  have htext : statusJson running configPath activeProfile devices ++ tail =
      (0x7B :: (quoted (bytes "running") ++ 0x3A :: boolText running ++
        bytes ",\"config\":")) ++ (jsonStr configPath ++ (bytes ",\"active_profile\":" ++
        (jsonStr activeProfile ++ (bytes ",\"devices\":" ++
          0x5B :: (devicesText devices ++ 0x5D :: 0x7D :: tail))))) := by
    rw [statusJson_eq, statusHead]
    simp [nextMember, quoted, bytes]
  have hhead : NoOverlap (quoted (bytes "devices")) (0x7B :: (quoted (bytes "running") ++ 0x3A ::
      boolText running ++ bytes ",\"config\":")) := by
    cases running <;> decide +kernel
  rw [htext, find_append_of_noOverlap hhead, quoted_devices]
  have hcloses : ∀ a rest : Bytes, a.head? = some 0x2C → Closes (a ++ rest) := by
    intro a rest ha
    obtain ⟨a, rfl⟩ := List.head?_eq_some_iff.mp ha
    exact ⟨0x2C, a ++ rest, rfl, .inl rfl⟩
  rw [find_jsonStr (by decide) (fun _ => hconfig.jsonChars (by decide)) (hcloses _ _ (by decide)),
    ← quoted_devices, find_append_of_noOverlap (by decide +kernel)]
  by_cases hclear : Clear (bytes "devices") (jsonChars 0 activeProfile)
  · refine ⟨quoted (bytes "devices") ++ 0x3A :: 0x5B :: (devicesText devices ++
      0x5D :: 0x7D :: tail), ?_, ?_⟩
    · rw [quoted_devices, find_jsonStr (by decide) (fun _ => hclear) (hcloses _ _ (by decide))]
      show find _ (0x2C :: (quoted (bytes "devices") ++ _)) = _
      refine (find_cons_of_not ?_).trans (find_of_starts (List.prefix_append _ _))
      intro h
      exact absurd (List.cons_prefix_cons.mp h).1 (by decide)
    · rw [List.drop_left]
      exact harray [0x3A] (by decide) _
  · refine ⟨quoted (bytes "devices") ++ (bytes ",\"devices\":" ++ 0x5B :: (devicesText devices ++
      0x5D :: 0x7D :: tail)), ?_, ?_⟩
    · exact (guarded_jsonChars activeProfile).find_of_ends (by decide) (by decide) (by decide)
        (not_not.mp hclear) _
    · rw [List.drop_left]
      exact harray _ (by decide) _

/-- **The slice is that of the device of the profile.** -/
theorem daemonDeviceSlice_status {configPath : Bytes}
    (hconfig : Clear (bytes "devices") configPath) {devices : List DevSnap}
    (hdevices : ∀ d ∈ devices, d.Legible) (running : Bool) (activeProfile want : Bytes) :
    daemonDeviceSlice (statusJson running configPath activeProfile devices ++ [newline]) want =
      ((chosenDevice want devices).map deviceText).getD [] := by
  obtain ⟨name, hname, harray⟩ :=
    find_devices hconfig running activeProfile devices [newline]
  unfold daemonDeviceSlice
  rw [hname]
  dsimp only
  rw [harray]
  dsimp only [List.tail_cons]
  have hrounds : devices.length <
      (0x5B :: (devicesText devices ++ [0x5D, 0x7D, newline])).length := by
    have hle := length_le_devicesText devices
    rw [List.length_cons, List.length_append]
    omega
  have htail : (0x7B : UInt8) ∉ [0x5D, 0x7D, newline] := by decide
  rcases devicesText_eq devices with ⟨rfl, hempty⟩ | htext
  · rw [hempty]
    exact scanDevices_end htail (Nat.succ_pos _) none none
  · have hscan : scanDevices want _ _ _ _ = _ := scanDevices_eq hdevices htail hrounds none none
    rw [← htext, List.cons_append, scanDevices_comma] at hscan
    refine hscan.trans ?_
    rw [sliceOf, chosenDevice, Option.none_or, Option.none_or]

/-- **The window reads what the daemon wrote.**  The device is the one of the identifier that is
wanted, or the first with telemetry, or the first; its numbers are as they were printed and its
name as it was escaped. -/
theorem status_read_back {configPath : Bytes} (hconfig : Clear (bytes "devices") configPath)
    {devices : List DevSnap} (hdevices : ∀ d ∈ devices, d.Legible) (running : Bool)
    (activeProfile want : Bytes) :
    let resp := statusJson running configPath activeProfile devices ++ [newline]
    daemonDeviceName resp want =
        ((chosenDevice want devices).map fun d => jsonChars 0 d.name).getD [] ∧
      ∀ key, IsName key → daemonDeviceField resp want key =
        (((chosenDevice want devices).bind fun d => d.number key).bind wholeNumber).getD
          (ofInt (-1)) := by
  intro resp
  have hslice := daemonDeviceSlice_status hconfig hdevices running activeProfile want
  constructor
  · unfold daemonDeviceName
    dsimp only
    rw [hslice]
    cases chosenDevice want devices with
    | none => rfl
    | some d => exact (if_neg (deviceText_ne_nil d)).trans (jsonStringField_name d)
  · intro key hkey
    unfold daemonDeviceField
    dsimp only
    rw [hslice]
    cases chosenDevice want devices with
    | none => rfl
    | some d =>
        have htext : ((some d).map deviceText).getD [] = deviceText d := rfl
        rw [htext, if_neg (deviceText_ne_nil d), fieldText_device hkey, Option.bind_some]

/-- A mouse that does not move, with a quote in its identifier. -/
def quietDevice : DevSnap :=
  { namedDevice with deviceId := bytes "046d:c08b:2\"x", telem := none }

/-- The identifier of that mouse as the status has it. -/
def wantedId : Bytes := bytes "046d:c08b:2\\\"x"

theorem status_read_back_named :
    let resp := statusJson true (bytes "/etc/rawaccel.json") (bytes "devices")
      [namedDevice, quietDevice] ++ [newline]
    daemonDeviceName resp wantedId =
        ((chosenDevice wantedId [namedDevice, quietDevice]).map fun d =>
          jsonChars 0 d.name).getD [] ∧
      ∀ key, IsName key → daemonDeviceField resp wantedId key =
        (((chosenDevice wantedId [namedDevice, quietDevice]).bind fun d => d.number key).bind
          wholeNumber).getD (ofInt (-1)) :=
  status_read_back (by decide)
    (List.forall_mem_cons.mpr ⟨⟨by decide, by decide, by decide, by decide, by decide⟩,
      List.forall_mem_singleton.mpr ⟨by decide, by decide, by decide, by decide, by decide⟩⟩)
    true (bytes "devices") wantedId

/-- The mouse that is wanted is taken, though another one moves. -/
example : (chosenDevice wantedId [namedDevice, quietDevice]).map DevSnap.deviceId =
    some quietDevice.deviceId := by
  decide +kernel

/-- **A mouse can be called as a field is**: its path is then taken for its identifier. -/
theorem named_like_field {s : DevSnap} (hname : s.name = bytes "device_id") :
    jsonStringField (deviceText s) (bytes "device_id") = jsonChars 0 s.path := by
  obtain ⟨rest, htext⟩ : ∃ rest, deviceText s = bytes "\x7b\"name\":" ++
      (quoted (bytes "device_id") ++ (bytes ",\"path\"" ++ 0x3A :: (jsonStr s.path ++ rest))) := by
    have hchars : jsonStr s.name = quoted (bytes "device_id") := by rw [hname]; decide +kernel
    rw [deviceText, deviceMembers, hchars]
    simp only [nextMember, List.append_assoc, List.cons_append]
    exact ⟨_, rfl⟩
  have hfind : find (quoted (bytes "device_id")) (deviceText s) =
      some (quoted (bytes "device_id") ++
        (bytes ",\"path\"" ++ 0x3A :: (jsonStr s.path ++ rest))) := by
    rw [htext, find_append_of_noOverlap (by decide +kernel)]
    exact find_of_starts (List.prefix_append _ _)
  exact jsonStringField_of_find hfind (by decide)

end AbrekMouse
