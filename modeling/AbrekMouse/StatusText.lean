import AbrekMouse.ConfigJson
import AbrekMouse.HidppIdentity
import AbrekMouse.JsonGrammar

/-! # The status as JSON

The daemon writes its status without a JSON library: strings through `jsonStr`, which escapes
what is not UTF-8, and numbers through `appendFixed`, which has a buffer of 64 bytes.

`jsonStr` takes a lead byte with the continuation bytes that it announces for a character, and
passes it.  Where each of these is one (`WellSequenced`) the literal is well-formed UTF-8, and a
string that was well-formed is what the literal stands for, up to the controls that are replaced
by a space.  A number is cut off where the buffer ends; what is left is one unless the buffer ends
right behind its point (`number_take`).  `isText_statusJson` puts the strings and numbers together
to the whole document.
-/
namespace AbrekMouse
open ProgLib ProgLib.Fp ProgLib.JsonGrammar

/-! ## Strings -/

/-- The number of bytes that a lead byte announces. -/
def leadLength (c : UInt8) : ℕ :=
  if c &&& 0xE0 = 0xC0 then 2
  else if c &&& 0xF0 = 0xE0 then 3
  else if c &&& 0xF8 = 0xF0 then 4
  else 0

/-- A lead byte is followed by the continuation bytes that it announces. -/
def passes (c : UInt8) (s : Bytes) : Bool :=
  leadLength c > 0 && leadLength c ≤ s.length + 1 &&
    (s.take (leadLength c - 1)).all fun b => b &&& 0xC0 = 0x80

/-- An ASCII byte of a text as JSON has it; control characters are escaped. -/
def asciiText (c : UInt8) : Bytes :=
  if c = 0x22 then bytes "\\\""
  else if c = 0x5C then bytes "\\\\"
  else if c = 0x0A then bytes "\\n"
  else if c = 0x0D then bytes "\\r"
  else if c = 0x09 then bytes "\\t"
  else if c < 0x20 then [0x20]
  else [c]

/-- `\u%04x` of a byte. -/
def unicodeEscape (c : UInt8) : Bytes := bytes "\\u" ++ hex4 c.toUInt16

/-- The loop of `json_str`, with the number of bytes that are still to be passed. -/
def jsonChars : ℕ → Bytes → Bytes
  | _, [] => []
  | n + 1, b :: s => b :: jsonChars n s
  | 0, c :: s =>
      if c < 0x80 then asciiText c ++ jsonChars 0 s
      else if passes c s then c :: jsonChars (leadLength c - 1) s
      else unicodeEscape c ++ jsonChars 0 s

/-- `json_str`: a text in quotes, with its bytes escaped where they have to be. -/
def jsonStr (s : Bytes) : Bytes := quoted (jsonChars 0 s)

/-! ## Numbers -/

/-- An integer in decimal digits. -/
def intText (z : ℤ) : Bytes := if z < 0 then 0x2D :: decimal z.natAbs else decimal z.natAbs

/-- A quotient rounded to the nearest integer, a tie to the even one. -/
def roundHalfEven (num den : ℕ) : ℕ :=
  let q := num / den
  let r := num % den
  if 2 * r > den ∨ (2 * r = den ∧ q % 2 = 1) then q + 1 else q

/-- The last `prec` digits. -/
def lastDigits : ℕ → ℕ → Bytes
  | 0, _ => []
  | prec + 1, n => lastDigits prec (n / 10) ++ [.ofNat (0x30 + n % 10)]

/-- `%.*f` of a finite number, in the C locale. -/
def fixedText (prec : ℕ) (x : Double) : Bytes :=
  match x with
  | .fin neg mag _ =>
      let scaled := roundHalfEven (mag * 10 ^ prec) (2 ^ binary64.unit)
      (if neg then [0x2D] else []) ++ decimal (scaled / 10 ^ prec) ++
        0x2E :: lastDigits prec scaled
  | _ => []

/-- A member with its comma; what does not fit in the buffer is cut off. -/
def appendFixed (key : String) (v : Double) (prec : ℕ) : Bytes :=
  let v := if v.isFinite then v else 0
  let nb := quoted (bytes key) ++ 0x3A :: fixedText prec v
  0x2C :: (nb.map fun b => if b = 0x2C then 0x2E else b).take 63

/-! ## The document -/

/-- A sample of the telemetry. -/
structure TelemetrySample where
  speedIps : Double
  outIps : Double
  gain : Double
  dx : Double
  dy : Double
  wallMs : Double

/-- What is copied of a device; the latencies count where there are samples, and the telemetry
where it was read without a write between. -/
structure DevSnap where
  name : Bytes
  path : Bytes
  deviceId : Bytes
  dpi : ℤ
  pollRate : ℤ
  detectedDpi : ℤ
  detectedPollingRate : ℤ
  realPollingRate : ℤ
  detectedBattery : ℤ
  latCount : ℕ := 0
  latAvg : Double := 0
  latP50 : Double := 0
  latP95 : Double := 0
  latP99 : Double := 0
  latMax : Double := 0
  telem : Option TelemetrySample := none

/-- A member with its comma. -/
def nextMember (key : String) (value : Bytes) : Bytes :=
  0x2C :: (quoted (bytes key) ++ 0x3A :: value)

/-- The latency statistics, where there is a sample. -/
def latMembers (s : DevSnap) : Bytes :=
  if s.latCount > 0 then
    nextMember "lat_samples" (decimal s.latCount) ++ appendFixed "lat_avg_us" s.latAvg 2 ++
      appendFixed "lat_p50_us" s.latP50 2 ++ appendFixed "lat_p95_us" s.latP95 2 ++
      appendFixed "lat_p99_us" s.latP99 2 ++ appendFixed "lat_max_us" s.latMax 2
  else []

/-- The telemetry, where a sample of it could be read. -/
def telemMembers : Option TelemetrySample → Bytes
  | some t =>
      appendFixed "telem_in_ips" t.speedIps 3 ++ appendFixed "telem_out_ips" t.outIps 3 ++
        appendFixed "telem_gain" t.gain 3 ++ appendFixed "telem_dx" t.dx 3 ++
        appendFixed "telem_dy" t.dy 3 ++ appendFixed "telem_wall_ms" t.wallMs 3
  | none => []

/-- The members of a device. -/
def deviceMembers (s : DevSnap) : Bytes :=
  quoted (bytes "name") ++ 0x3A :: jsonStr s.name ++ nextMember "path" (jsonStr s.path) ++
    nextMember "device_id" (jsonStr s.deviceId) ++ nextMember "dpi" (intText s.dpi) ++
    nextMember "poll_rate" (intText s.pollRate) ++
    nextMember "detected_dpi" (intText s.detectedDpi) ++
    nextMember "detected_polling_rate" (intText s.detectedPollingRate) ++
    nextMember "real_polling_rate" (intText s.realPollingRate) ++
    nextMember "detected_battery" (intText s.detectedBattery) ++ latMembers s ++
    telemMembers s.telem

/-- A device as an object. -/
def deviceText (s : DevSnap) : Bytes := 0x7B :: (deviceMembers s ++ [0x7D])

/-- The devices behind the first one. -/
def moreDevices : List DevSnap → Bytes
  | [] => []
  | s :: rest => 0x2C :: deviceText s ++ moreDevices rest

/-- The devices, with commas between them. -/
def devicesText : List DevSnap → Bytes
  | [] => []
  | s :: rest => deviceText s ++ moreDevices rest

/-- The word for a truth value. -/
def boolText (b : Bool) : Bytes := if b then bytes "true" else bytes "false"

/-- `status_json`: the answer to a status request, from what was copied under the lock. -/
def statusJson (running : Bool) (configPath activeProfile : Bytes) (devices : List DevSnap) :
    Bytes :=
  0x7B :: (quoted (bytes "running") ++ 0x3A :: boolText running ++
    nextMember "config" (jsonStr configPath) ++
    nextMember "active_profile" (jsonStr activeProfile) ++
    nextMember "devices" (0x5B :: (devicesText devices ++ [0x5D])) ++ [0x7D])

/-! ## Bytes -/

/-- A property of a byte is checked for each of them. -/
theorem forall_byte {P : UInt8 → Prop} (h : ∀ n < 256, P (.ofNat n)) (c : UInt8) : P c := by
  have hc := h c.toNat c.toNat_lt
  rwa [UInt8.ofNat_toNat] at hc

theorem isContinuation_iff : ∀ b : UInt8, b &&& 0xC0 = 0x80 ↔ Utf8.isContinuation b = true :=
  forall_byte (by decide +kernel)

/-- A lead byte announces two to four bytes, and is no ASCII or continuation byte. -/
theorem leadLength_pos : ∀ c : UInt8, leadLength c > 0 →
    2 ≤ leadLength c ∧ ¬c < 0x80 ∧ Utf8.isContinuation c = false :=
  forall_byte (by decide +kernel)

/-- What a lead byte announces is what the automaton waits for. -/
def announces (c : UInt8) : Utf8.State → Bool
  | .accept => false
  | .trail _ _ more => leadLength c = more + 2

theorem step_lead {c : UInt8} (hc : ¬c < 0x80) {st : Utf8.State}
    (h : Utf8.step .accept c = some st) : ∃ lo hi more, st = .trail lo hi more ∧
      leadLength c = more + 2 := by
  have hall : ∀ c : UInt8, ¬c < 0x80 → (Utf8.step .accept c).all (announces c) = true :=
    forall_byte (by decide +kernel)
  have hst := hall c hc
  rw [h, Option.all_some] at hst
  cases st with
  | accept => cases hst
  | trail lo hi more => exact ⟨lo, hi, more, rfl, of_decide_eq_true hst⟩

/-! ## Well-formed strings -/

/-- A lead byte with the continuation bytes that it announces. -/
structure Sequence (c : UInt8) (t : Bytes) : Prop where
  length : leadLength c = t.length + 1
  continuation : ∀ b ∈ t, Utf8.isContinuation b = true

/-- Each lead byte with what it announces is a character. -/
def WellSequenced (s : Bytes) : Prop :=
  ∀ a c t b, s = a ++ c :: (t ++ b) → Sequence c t → Utf8.valid (c :: t) = true

theorem WellSequenced.tail {s t : Bytes} (h : WellSequenced (s ++ t)) : WellSequenced t := by
  intro a c u b heq
  refine h (s ++ a) c u b ?_
  rw [heq, List.append_assoc]

theorem passes_iff {c : UInt8} {s : Bytes} :
    passes c s = true ↔ ∃ t u, s = t ++ u ∧ Sequence c t := by
  unfold passes
  simp only [Bool.and_eq_true, decide_eq_true_eq, List.all_eq_true, isContinuation_iff]
  constructor
  · rintro ⟨⟨hpos, hlen⟩, hall⟩
    refine ⟨s.take (leadLength c - 1), s.drop (leadLength c - 1),
      (List.take_append_drop _ _).symm, ?_, hall⟩
    rw [List.length_take]
    omega
  · rintro ⟨t, u, rfl, hlen, hall⟩
    have htake : (t ++ u).take (leadLength c - 1) = t := by
      rw [hlen, Nat.add_sub_cancel, List.take_left]
    rw [htake, hlen, List.length_append]
    exact ⟨⟨by omega, by omega⟩, hall⟩

/-- From inside a character the automaton comes to its end. -/
theorem run_trail {more : ℕ} : ∀ {lo hi : UInt8} {s : Bytes}, (Utf8.State.trail lo hi more).Ok →
    Utf8.run (.trail lo hi more) s = some .accept →
    ∃ t u, s = t ++ u ∧ t.length = more + 1 ∧ (∀ b ∈ t, Utf8.isContinuation b = true) ∧
      Utf8.run (.trail lo hi more) t = some .accept ∧ Utf8.valid u = true := by
  induction more with
  | zero =>
      intro lo hi s hok h
      cases s with
      | nil => cases h
      | cons b s =>
          obtain ⟨st, hstep, hrun⟩ := Option.bind_eq_some_iff.mp h
          have hb := Utf8.isContinuation_of_step_trail hok hstep
          have hst : st = .accept := by
            simp only [Utf8.step] at hstep
            split_ifs at hstep
            exact (Option.some.inj hstep).symm
          subst hst
          refine ⟨[b], s, rfl, rfl, by simpa using hb, ?_, decide_eq_true hrun⟩
          rw [Utf8.run, hstep]
          rfl
  | succ more ih =>
      intro lo hi s hok h
      cases s with
      | nil => cases h
      | cons b s =>
          obtain ⟨st, hstep, hrun⟩ := Option.bind_eq_some_iff.mp h
          have hb := Utf8.isContinuation_of_step_trail hok hstep
          have hnext := Utf8.step_ok hok hstep
          have hst : st = .trail 0x80 0xBF more := by
            simp only [Utf8.step] at hstep
            split_ifs at hstep
            exact (Option.some.inj hstep).symm
          subst hst
          obtain ⟨t, u, rfl, hlen, hall, ht, hu⟩ := ih hnext hrun
          refine ⟨b :: t, u, rfl, by rw [List.length_cons, hlen], ?_, ?_, hu⟩
          · rw [List.forall_mem_cons]
            exact ⟨hb, hall⟩
          · rw [Utf8.run, hstep]
            exact ht

/-- **A well-formed string begins with a character**, which is passed as a whole. -/
theorem exists_sequence {c : UInt8} {s : Bytes} (hc : ¬c < 0x80)
    (h : Utf8.valid (c :: s) = true) : ∃ t u, s = t ++ u ∧ Sequence c t ∧
      Utf8.valid (c :: t) = true ∧ Utf8.valid u = true := by
  obtain ⟨st, hstep, hrun⟩ := Option.bind_eq_some_iff.mp (of_decide_eq_true h)
  obtain ⟨lo, hi, more, rfl, hmore⟩ := step_lead hc hstep
  have haccept : Utf8.State.accept.Ok := trivial
  have hok : (Utf8.State.trail lo hi more).Ok := Utf8.step_ok haccept hstep
  obtain ⟨t, u, rfl, hlen, hall, ht, hu⟩ := run_trail hok hrun
  refine ⟨t, u, rfl, ⟨by omega, hall⟩, decide_eq_true ?_, hu⟩
  rw [Utf8.run, hstep]
  exact ht

theorem Sequence.unique {c : UInt8} {t t' u u' : Bytes} (h : Sequence c t) (h' : Sequence c t')
    (heq : t ++ u = t' ++ u') : t = t' ∧ u = u' := by
  have hlen : t.length = t'.length := by
    have h1 := h.length
    have h2 := h'.length
    omega
  exact List.append_inj heq hlen

/-- **Of a well-formed string each sequence is a character.** -/
theorem wellSequenced_of_valid {s : Bytes} (h : Utf8.valid s = true) : WellSequenced s := by
  rintro a c t b rfl hseq
  obtain ⟨-, hlead, hstart⟩ := leadLength_pos c (by rw [hseq.length]; omega)
  have hboundary : Utf8.Boundary (a ++ c :: (t ++ b)) a.length := by
    intro d hd
    simp only [List.getElem?_append_right le_rfl, Nat.sub_self, List.getElem?_cons_zero,
      Option.mem_def, Option.some.injEq] at hd
    rwa [← hd]
  have ha : Utf8.valid a = true := by
    have hcut := (Utf8.valid_take h a.length).mpr hboundary
    rwa [List.take_left] at hcut
  have hrest : Utf8.valid (c :: (t ++ b)) = true := by
    have hrun := of_decide_eq_true h
    rw [Utf8.run_append, of_decide_eq_true ha] at hrun
    exact decide_eq_true hrun
  obtain ⟨t', u, heq, hseq', hvalid, -⟩ := exists_sequence hlead hrest
  rw [(hseq.unique hseq' heq).1]
  exact hvalid

/-! ## The escaper -/

/-- The steps of the loop: one for each character. -/
inductive Escaped : Bytes → Bytes → Prop
  | nil : Escaped [] []
  | ascii {c s t} : c < 0x80 → Escaped s t → Escaped (c :: s) (asciiText c ++ t)
  | passed {c u s t} : Sequence c u → Escaped s t → Escaped (c :: (u ++ s)) (c :: (u ++ t))
  | broken {c s t} : ¬c < 0x80 → passes c s = false → Escaped s t →
      Escaped (c :: s) (unicodeEscape c ++ t)

theorem jsonChars_append {n : ℕ} {u : Bytes} (h : u.length = n) (s : Bytes) :
    jsonChars n (u ++ s) = u ++ jsonChars 0 s := by
  induction u generalizing n with
  | nil =>
      subst h
      rfl
  | cons b u ih =>
      subst h
      show b :: jsonChars u.length (u ++ s) = _
      rw [ih rfl]
      rfl

/-- **The loop escapes one character after the other**, by induction on the length. -/
theorem escaped_jsonChars (s : Bytes) : Escaped s (jsonChars 0 s) := by
  induction hn : s.length using Nat.strong_induction_on generalizing s with
  | _ n ih =>
      cases s with
      | nil => exact .nil
      | cons c s =>
          rw [List.length_cons] at hn
          unfold jsonChars
          by_cases hascii : c < 0x80
          · rw [if_pos hascii]
            exact .ascii hascii (ih s.length (by omega) s rfl)
          · rw [if_neg hascii]
            by_cases hpass : passes c s = true
            · rw [if_pos hpass]
              obtain ⟨u, rest, rfl, hseq⟩ := passes_iff.mp hpass
              have hlen : u.length = leadLength c - 1 := by
                rw [hseq.length, Nat.add_sub_cancel]
              rw [jsonChars_append hlen]
              rw [List.length_append] at hn
              exact .passed hseq (ih rest.length (by omega) rest rfl)
            · rw [if_neg hpass]
              exact .broken hascii (Bool.not_eq_true _ ▸ hpass) (ih s.length (by omega) s rfl)

/-- What a byte is shown as: a control that has no escape is a space. -/
def shown (c : UInt8) : UInt8 :=
  if c < 0x20 ∧ c ≠ 0x0A ∧ c ≠ 0x0D ∧ c ≠ 0x09 then 0x20 else c

theorem chars_asciiText (c : UInt8) : Chars (asciiText c) [shown c] := by
  unfold asciiText
  split_ifs with hquote hslash hnewline hreturn htab hcontrol
  · subst hquote
    exact .escape (by decide) .nil
  · subst hslash
    exact .escape (by decide) .nil
  · subst hnewline
    exact .escape (by decide) .nil
  · subst hreturn
    exact .escape (by decide) .nil
  · subst htab
    exact .escape (by decide) .nil
  · have hspace : shown c = 0x20 := if_pos ⟨hcontrol, hnewline, hreturn, htab⟩
    rw [hspace]
    exact .plain (by decide) .nil
  · have hself : shown c = c := if_neg fun h => hcontrol h.1
    rw [hself]
    exact .plain ⟨UInt8.not_lt.mp hcontrol, hquote, hslash⟩ .nil

theorem isPlain_of_high : ∀ c : UInt8, ¬c < 0x80 → IsPlain c ∧ shown c = c :=
  forall_byte (by decide +kernel)

theorem high_of_continuation : ∀ c : UInt8, Utf8.isContinuation c = true → ¬c < 0x80 :=
  forall_byte (by decide +kernel)

/-- A sequence stands for itself. -/
theorem Sequence.plain {c : UInt8} {u : Bytes} (h : Sequence c u) :
    ∀ b ∈ c :: u, IsPlain b ∧ shown b = b := by
  obtain ⟨-, hlead, -⟩ := leadLength_pos c (by rw [h.length]; omega)
  rw [List.forall_mem_cons]
  exact ⟨isPlain_of_high c hlead,
    fun b hb => isPlain_of_high b (high_of_continuation b (h.continuation b hb))⟩

theorem codeUnit_hex4 : ∀ c : UInt8, codeUnit (hexDigit (c.toUInt16.toNat >>> 12 % 16))
    (hexDigit (c.toUInt16.toNat >>> 8 % 16)) (hexDigit (c.toUInt16.toNat >>> 4 % 16))
    (hexDigit (c.toUInt16.toNat >>> 0 % 16)) = some c.toNat :=
  forall_byte (by decide +kernel)

theorem chars_unicodeEscape (c : UInt8) : Chars (unicodeEscape c) (Utf8.encode c.toNat) := by
  have hbyte := c.toNat_lt
  have hhigh : ¬IsHigh c.toNat := fun h => by
    have := h.1
    omega
  have hlow : ¬IsLow c.toNat := fun h => by
    have := h.1
    omega
  have hunit := Chars.unit (codeUnit_hex4 c) hhigh hlow .nil
  rwa [List.append_nil] at hunit

/-- **Every string becomes the characters of a literal.** -/
theorem Escaped.chars {s t : Bytes} (h : Escaped s t) : ∃ v, Chars t v := by
  induction h with
  | nil => exact ⟨[], .nil⟩
  | ascii _ _ ih =>
      obtain ⟨v, hv⟩ := ih
      exact ⟨_, (chars_asciiText _).append hv⟩
  | passed hseq _ ih =>
      obtain ⟨v, hv⟩ := ih
      have hplain := chars_plain fun b hb => (hseq.plain b hb).1
      exact ⟨_, hplain.append hv⟩
  | broken _ _ _ ih =>
      obtain ⟨v, hv⟩ := ih
      exact ⟨_, (chars_unicodeEscape _).append hv⟩

/-- **A well-formed string is what its literal stands for**, up to the controls. -/
theorem Escaped.chars_of_valid {s t : Bytes} (h : Escaped s t) (hs : Utf8.valid s = true) :
    Chars t (s.map shown) := by
  induction h with
  | nil => exact .nil
  | @ascii c s t hc _ ih =>
      have hrest : Utf8.valid s = true := by
        have hrun := of_decide_eq_true hs
        rw [Utf8.run, Utf8.step, if_pos hc] at hrun
        exact decide_eq_true hrun
      exact (chars_asciiText c).append (ih hrest)
  | @passed c u s t hseq _ ih =>
      obtain ⟨-, hlead, -⟩ := leadLength_pos c (by rw [hseq.length]; omega)
      obtain ⟨u', s', heq, hseq', -, hrest⟩ := exists_sequence hlead hs
      obtain ⟨rfl, rfl⟩ := hseq.unique hseq' heq
      have hself : (c :: u).map shown = c :: u :=
        (List.map_congr_left fun b hb => (hseq.plain b hb).2).trans (List.map_id _)
      have hmap : (c :: (u ++ s)).map shown = (c :: u) ++ s.map shown := by
        rw [← List.cons_append, List.map_append, hself]
      rw [hmap]
      exact (chars_plain fun b hb => (hseq.plain b hb).1).append (ih hrest)
  | @broken c s t hc hpass _ _ =>
      obtain ⟨u, rest, heq, hseq, -⟩ := exists_sequence hc hs
      rw [passes_iff.mpr ⟨u, rest, heq, hseq⟩] at hpass
      cases hpass

theorem valid_append {s t : Bytes} (hs : Utf8.valid s = true) (ht : Utf8.valid t = true) :
    Utf8.valid (s ++ t) = true := by
  have hrun := of_decide_eq_true ht
  refine decide_eq_true ?_
  rw [Utf8.run_append, of_decide_eq_true hs]
  exact hrun

theorem valid_ascii {s : Bytes} (h : ∀ b ∈ s, b < 0x80) : Utf8.valid s = true := by
  induction s with
  | nil => rfl
  | cons b s ih =>
      rw [List.forall_mem_cons] at h
      refine decide_eq_true ?_
      rw [Utf8.run, Utf8.step, if_pos h.1]
      exact of_decide_eq_true (ih h.2)

theorem asciiText_lt {c : UInt8} (hc : c < 0x80) : ∀ b ∈ asciiText c, b < 0x80 := by
  have hall : ∀ c : UInt8, c < 0x80 → (asciiText c).all (decide <| · < 0x80) = true :=
    forall_byte (by decide +kernel)
  exact fun b hb => of_decide_eq_true (List.all_eq_true.mp (hall c hc) b hb)

theorem unicodeEscape_lt (c : UInt8) : ∀ b ∈ unicodeEscape c, b < 0x80 := by
  have hall : ∀ c : UInt8, (unicodeEscape c).all (decide <| · < 0x80) = true :=
    forall_byte (by decide +kernel)
  exact fun b hb => of_decide_eq_true (List.all_eq_true.mp (hall c) b hb)

/-- **The literal is well-formed where each sequence is.** -/
theorem Escaped.valid {s t : Bytes} (h : Escaped s t) (hs : WellSequenced s) :
    Utf8.valid t = true := by
  induction h with
  | nil => rfl
  | @ascii c s t hc _ ih =>
      have hrest : WellSequenced s := WellSequenced.tail (s := [c]) hs
      exact valid_append (valid_ascii (asciiText_lt hc)) (ih hrest)
  | @passed c u s t hseq _ ih =>
      have hrest : WellSequenced s := WellSequenced.tail (s := c :: u) hs
      exact valid_append (hs [] c u s rfl hseq) (ih hrest)
  | @broken c s t _ _ _ ih =>
      have hrest : WellSequenced s := WellSequenced.tail (s := [c]) hs
      exact valid_append (valid_ascii (unicodeEscape_lt c)) (ih hrest)

/-- **Every string becomes a literal**; where each sequence is a character, it is one that a strict
parser accepts. -/
theorem isString_jsonStr (s : Bytes) : IsString (jsonStr s) := by
  obtain ⟨v, hv⟩ := (escaped_jsonChars s).chars
  exact ⟨_, v, rfl, hv⟩

theorem isText_jsonStr {s : Bytes} (h : WellSequenced s) : IsText (jsonStr s) := by
  refine ⟨.string (isString_jsonStr s), ?_⟩
  have hquote : Utf8.valid [0x22] = true := by decide
  have hchars := (escaped_jsonChars s).valid h
  have hall : Utf8.valid ([0x22] ++ (jsonChars 0 s ++ [0x22])) = true :=
    valid_append hquote (valid_append hchars hquote)
  exact hall

/-! ## Numbers -/

/-- The byte of a digit. -/
theorem digit_byte {c : Char} (h : c.isDigit = true) :
    (0x30 ≤ UInt8.ofNat c.toNat ∧ UInt8.ofNat c.toNat ≤ 0x39) ∧
      (UInt8.ofNat c.toNat = 0x30 → c = '0') := by
  have hrange : 48 ≤ c.toNat ∧ c.toNat ≤ 57 := Char.isDigit_iff_toNat.mp h
  have hbyte : ∀ n < 58, 48 ≤ n → (0x30 ≤ UInt8.ofNat n ∧ UInt8.ofNat n ≤ 0x39) ∧
      (UInt8.ofNat n = 0x30 → n = 48) := by decide
  obtain ⟨hdigit, hzero⟩ := hbyte c.toNat (by omega) hrange.1
  exact ⟨hdigit, fun h0 => Char.toNat_inj.mp (hzero h0)⟩

theorem toDigits_head {n : ℕ} (h : (Nat.toDigits 10 n).head? = some '0') : n = 0 := by
  induction n using Nat.strong_induction_on with
  | _ n ih =>
      rcases Nat.lt_or_ge n 10 with hlt | hge
      · rw [Nat.toDigits_of_lt_base hlt] at h
        have hchar : ∀ n < 10, Nat.digitChar n = '0' → n = 0 := by decide
        exact hchar n hlt (Option.some.inj h)
      · rw [Nat.toDigits_of_base_le (by decide) hge,
          List.head?_append_of_ne_nil _ Nat.toDigits_ne_nil] at h
        have := ih (n / 10) (by omega) h
        omega

theorem intPart_decimal (n : ℕ) : IntPart (decimal n) := by
  rw [decimal_eq]
  refine ⟨⟨by simp [Nat.toDigits_ne_nil], fun b hb => ?_⟩, fun hzero => ?_⟩
  · obtain ⟨c, hc, rfl⟩ := List.mem_map.mp hb
    exact (digit_byte (Nat.isDigit_of_mem_toDigits (by decide) le_rfl hc)).1
  · rw [List.head?_map] at hzero
    obtain ⟨c, hc, hbyte⟩ := Option.map_eq_some_iff.mp hzero
    have hdigit := Nat.isDigit_of_mem_toDigits (by decide) le_rfl (List.mem_of_mem_head? hc)
    rw [(digit_byte hdigit).2 hbyte] at hc
    rw [toDigits_head hc]
    rfl

theorem number_intText (z : ℤ) : Number (intText z) := by
  unfold intText
  split_ifs
  · exact ⟨[0x2D], decimal z.natAbs, [], [], by simp, .inr rfl, intPart_decimal _, .inl rfl,
      .inl rfl⟩
  · exact ⟨[], decimal z.natAbs, [], [], by simp, .inl rfl, intPart_decimal _, .inl rfl, .inl rfl⟩

theorem digit_lastDigits (prec n : ℕ) : ∀ b ∈ lastDigits prec n, 0x30 ≤ b ∧ b ≤ 0x39 := by
  induction prec generalizing n with
  | zero => exact List.forall_mem_nil _
  | succ prec ih =>
      have hbyte : ∀ m < 10, 0x30 ≤ UInt8.ofNat (0x30 + m) ∧ UInt8.ofNat (0x30 + m) ≤ 0x39 := by
        decide
      intro b hb
      rcases List.mem_append.mp hb with hrest | hlast
      · exact ih _ b hrest
      · rw [List.mem_singleton.mp hlast]
        exact hbyte _ (Nat.mod_lt n (by decide))

theorem length_lastDigits (prec n : ℕ) : (lastDigits prec n).length = prec := by
  induction prec generalizing n with
  | zero => rfl
  | succ prec ih => rw [lastDigits, List.length_append, ih, List.length_singleton]

/-- **What `%.*f` prints**: a sign, digits, and the digits behind the point. -/
theorem fixedText_eq {x : Double} (hx : x.isFinite = true) {prec : ℕ} (hprec : 0 < prec) :
    ∃ sign int frac, fixedText prec x = sign ++ int ++ 0x2E :: frac ∧
      (sign = [] ∨ sign = [0x2D]) ∧ IntPart int ∧ Digits frac := by
  obtain ⟨neg, mag, hmag, rfl⟩ : ∃ neg mag h, x = .fin neg mag h := by
    cases x with
    | fin neg mag h => exact ⟨neg, mag, h, rfl⟩
    | nan | inf => cases hx
  refine ⟨_, _, _, rfl, ?_, intPart_decimal _, fun hnil => ?_, digit_lastDigits prec _⟩
  · cases neg
    · exact .inl rfl
    · exact .inr rfl
  · have hlength := congrArg List.length hnil
    rw [length_lastDigits, List.length_nil] at hlength
    omega

/-- A byte of a number. -/
def IsNumeric (b : UInt8) : Prop := b = 0x2D ∨ b = 0x2E ∨ (0x30 ≤ b ∧ b ≤ 0x39)

theorem IsNumeric.ascii {b : UInt8} (h : IsNumeric b) : b < 0x80 ∧ b ≠ 0x2C := by
  have hall : ∀ b : UInt8, b = 0x2D ∨ b = 0x2E ∨ (0x30 ≤ b ∧ b ≤ 0x39) → b < 0x80 ∧ b ≠ 0x2C :=
    forall_byte (by decide +kernel)
  exact hall b h

theorem isNumeric_fixedText {x : Double} (hx : x.isFinite = true) {prec : ℕ} (hprec : 0 < prec) :
    ∀ b ∈ fixedText prec x, IsNumeric b := by
  obtain ⟨sign, int, frac, heq, hsign, hint, hfrac⟩ := fixedText_eq hx hprec
  intro b hb
  rw [heq, List.mem_append, List.mem_append, List.mem_cons] at hb
  rcases hb with (hb | hb) | rfl | hb
  · rcases hsign with rfl | rfl
    · cases hb
    · exact .inl (List.mem_singleton.mp hb)
  · exact .inr (.inr (hint.digit b hb))
  · exact .inr (.inl rfl)
  · exact .inr (.inr (hfrac.digit b hb))

/-- A number that ends before its point, or behind a digit that follows the point. -/
theorem number_take {x : Double} (hx : x.isFinite = true) {prec k : ℕ} (hprec : 0 < prec)
    (hk : 2 ≤ k) (hpoint : ((fixedText prec x).take k).getLast? ≠ some 0x2E) :
    Number ((fixedText prec x).take k) := by
  obtain ⟨sign, int, frac, heq, hsign, hint, hfrac⟩ := fixedText_eq hx hprec
  have hshort : sign.length ≤ 1 := by rcases hsign with rfl | rfl <;> decide
  rw [heq] at hpoint ⊢
  rcases Nat.lt_trichotomy k ((sign ++ int).length + 1) with hlt | rfl | hgt
  · -- the digits before the point are cut off
    have htake : (sign ++ int ++ 0x2E :: frac).take k = sign ++ int.take (k - sign.length) := by
      rw [List.take_append_of_le_length (by omega), List.take_append,
        List.take_of_length_le (by omega)]
    rw [htake]
    exact ⟨sign, int.take (k - sign.length), [], [], by simp, hsign, hint.take (by omega), .inl rfl,
      .inl rfl⟩
  · refine absurd ?_ hpoint
    rw [List.take_length_add_append, List.take_one, List.getLast?_append]
    rfl
  · obtain ⟨j, rfl⟩ : ∃ j, k = (sign ++ int).length + (j + 2) :=
      ⟨k - ((sign ++ int).length + 2), by omega⟩
    rw [List.take_length_add_append, List.take_succ_cons]
    exact ⟨sign, int, 0x2E :: frac.take (j + 1), [], by simp, hsign, hint,
      .inr ⟨_, rfl, hfrac.take j.succ_pos⟩, .inl rfl⟩

/-! ## Members -/

/-- A key of the document: its bytes are plain, and none is a comma. -/
def PlainKey (key : String) : Prop := ∀ b ∈ bytes key, IsPlain b ∧ b < 0x80 ∧ b ≠ 0x2C

instance (key : String) : Decidable (PlainKey key) := List.decidableBAll _ _

/-- Members of an object that a strict parser accepts. -/
structure IsMembers (t : Bytes) : Prop where
  members : Members t
  utf8 : Utf8.valid t = true

theorem isString_key {key : String} (h : PlainKey key) : IsString (quoted (bytes key)) :=
  ⟨_, _, rfl, chars_plain fun b hb => (h b hb).1⟩

theorem valid_key {key : String} (h : PlainKey key) : Utf8.valid (quoted (bytes key)) = true := by
  have hquote : (0x22 : UInt8) < 0x80 := by decide
  refine valid_ascii ?_
  unfold quoted
  rw [List.forall_mem_cons, List.forall_mem_append, List.forall_mem_singleton]
  exact ⟨hquote, fun b hb => (h b hb).2.1, hquote⟩

theorem valid_cons {c : UInt8} (hc : c < 0x80) {s : Bytes} (h : Utf8.valid s = true) :
    Utf8.valid (c :: s) = true :=
  valid_append (s := [c]) (valid_ascii (by simpa using hc)) h

theorem isMembers_one {key : String} (hkey : PlainKey key) {v : Bytes} (hv : IsText v) :
    IsMembers (quoted (bytes key) ++ 0x3A :: v) :=
  ⟨.one (isString_key hkey) hv.value,
    valid_append (valid_key hkey) (valid_cons (by decide) hv.utf8)⟩

/-- **One member more.** -/
theorem IsMembers.next {t : Bytes} (h : IsMembers t) {key : String} (hkey : PlainKey key)
    {v : Bytes} (hv : IsText v) : IsMembers (t ++ nextMember key v) :=
  ⟨.more h.members (isString_key hkey) hv.value,
    valid_append h.utf8 (valid_cons (by decide) (isMembers_one hkey hv).utf8)⟩

/-- A key that leaves room for a number, and a precision that has a point. -/
structure FixedKey (key : String) (prec : ℕ) : Prop where
  plain : PlainKey key
  length_le : (bytes key).length ≤ 58
  prec_pos : 0 < prec

instance (key : String) (prec : ℕ) : Decidable (FixedKey key prec) :=
  decidable_of_iff (PlainKey key ∧ (bytes key).length ≤ 58 ∧ 0 < prec)
    ⟨fun h => ⟨h.1, h.2.1, h.2.2⟩, fun h => ⟨h.plain, h.length_le, h.prec_pos⟩⟩

/-- The buffer ends right behind the point of a number. -/
def CutAtPoint (prec : ℕ) (member : String × Double) : Prop :=
  (appendFixed member.1 member.2 prec).getLast? = some 0x2E

instance (prec : ℕ) (member : String × Double) : Decidable (CutAtPoint prec member) :=
  inferInstanceAs (Decidable (_ = _))

/-- **What fits in the buffer is a member**, unless it ends with the point. -/
theorem appendFixed_eq {key : String} {prec : ℕ} (hkey : FixedKey key prec) {v : Double}
    (hcut : ¬CutAtPoint prec (key, v)) :
    ∃ t, IsText t ∧ appendFixed key v prec = nextMember key t := by
  unfold CutAtPoint appendFixed at hcut
  unfold appendFixed
  dsimp only at hcut ⊢
  have hfinite : (if v.isFinite then v else 0).isFinite = true := by
    split_ifs with h
    · exact h
    · decide +kernel
  revert hcut hfinite
  generalize (if v.isFinite then v else 0) = x
  intro hcut hx
  have hnumeric := isNumeric_fixedText hx hkey.prec_pos
  have hcomma : ∀ b ∈ quoted (bytes key) ++ 0x3A :: fixedText prec x,
      (if b = 0x2C then 0x2E else b) = b := by
    intro b hb
    refine if_neg ?_
    unfold quoted at hb
    simp only [List.cons_append, List.mem_cons, List.mem_append, List.append_assoc,
      List.not_mem_nil, false_or] at hb
    rcases hb with rfl | hb | rfl | rfl | hb
    · decide
    · exact (hkey.plain b hb).2.2
    · decide
    · decide
    · exact (hnumeric b hb).ascii.2
  obtain ⟨k, hk, hbuffer⟩ : ∃ k, 2 ≤ k ∧
      (quoted (bytes key) ++ 0x3A :: fixedText prec x).take 63 =
        quoted (bytes key) ++ 0x3A :: (fixedText prec x).take k := by
    have hlength : (quoted (bytes key)).length = (bytes key).length + 2 := by simp [quoted]
    have hroom := hkey.length_le
    refine ⟨60 - (bytes key).length, by omega, ?_⟩
    rw [List.take_append, List.take_of_length_le (by omega), hlength,
      show 63 - ((bytes key).length + 2) = 60 - (bytes key).length + 1 by omega,
      List.take_succ_cons]
  rw [List.map_congr_left hcomma, List.map_id', hbuffer] at hcut ⊢
  refine ⟨(fixedText prec x).take k, ⟨.number (number_take hx hkey.prec_pos hk fun hlast => ?_),
    valid_ascii fun b hb => (hnumeric b (List.mem_of_mem_take hb)).ascii.1⟩, rfl⟩
  refine hcut ?_
  rw [List.getLast?_cons, List.getLast?_append, List.getLast?_cons, hlast]
  rfl

theorem IsMembers.fixed {t : Bytes} (h : IsMembers t) {key : String} {prec : ℕ}
    (hkey : FixedKey key prec) {v : Double} (hcut : ¬CutAtPoint prec (key, v)) :
    IsMembers (t ++ appendFixed key v prec) := by
  obtain ⟨u, hu, heq⟩ := appendFixed_eq hkey hcut
  rw [heq]
  exact h.next hkey.plain hu

theorem isText_intText (z : ℤ) : IsText (intText z) := by
  have hdigit : ∀ b : UInt8, 0x30 ≤ b ∧ b ≤ 0x39 → b < 0x80 := forall_byte (by decide +kernel)
  have hdecimal : ∀ b ∈ decimal z.natAbs, b < 0x80 := fun b hb =>
    hdigit b ((intPart_decimal _).digit b hb)
  refine ⟨.number (number_intText z), valid_ascii ?_⟩
  unfold intText
  split_ifs
  · rw [List.forall_mem_cons]
    exact ⟨by decide, hdecimal⟩
  · exact hdecimal

theorem isText_decimal (n : ℕ) : IsText (decimal n) := isText_intText n

theorem isText_boolText (b : Bool) : IsText (boolText b) := by
  cases b
  · exact ⟨.false, by decide⟩
  · exact ⟨.true, by decide⟩

theorem IsMembers.object {t : Bytes} (h : IsMembers t) : IsText (0x7B :: (t ++ [0x7D])) :=
  ⟨.object h.members, valid_cons (by decide) (valid_append h.utf8 (by decide))⟩

/-! ## The document -/

/-- What is copied of a device: each sequence of its strings is a character, and no statistic is
so large that it is cut behind its point. -/
structure DevSnap.Sound (s : DevSnap) : Prop where
  name : WellSequenced s.name
  path : WellSequenced s.path
  deviceId : WellSequenced s.deviceId
  lat : ∀ m ∈ [("lat_avg_us", s.latAvg), ("lat_p50_us", s.latP50), ("lat_p95_us", s.latP95),
    ("lat_p99_us", s.latP99), ("lat_max_us", s.latMax)], ¬CutAtPoint 2 m
  telem : ∀ t, s.telem = some t →
    ∀ m ∈ [("telem_in_ips", t.speedIps), ("telem_out_ips", t.outIps), ("telem_gain", t.gain),
      ("telem_dx", t.dx), ("telem_dy", t.dy), ("telem_wall_ms", t.wallMs)], ¬CutAtPoint 3 m

section Device
variable {s : DevSnap} {t : Bytes}

theorem IsMembers.lat (ht : IsMembers t) (h : s.Sound) : IsMembers (t ++ latMembers s) := by
  have hcut := h.lat
  simp only [List.forall_mem_cons] at hcut
  obtain ⟨havg, h50, h95, h99, hmax, -⟩ := hcut
  unfold latMembers
  split_ifs
  · simp only [← List.append_assoc]
    refine IsMembers.fixed ?_ (by decide) hmax
    refine IsMembers.fixed ?_ (by decide) h99
    refine IsMembers.fixed ?_ (by decide) h95
    refine IsMembers.fixed ?_ (by decide) h50
    refine IsMembers.fixed ?_ (by decide) havg
    exact ht.next (by decide) (isText_decimal _)
  · rwa [List.append_nil]

theorem IsMembers.telem (ht : IsMembers t) (h : s.Sound) :
    IsMembers (t ++ telemMembers s.telem) := by
  cases htelem : s.telem with
  | none => rwa [telemMembers, List.append_nil]
  | some sample =>
      have hcut := h.telem sample htelem
      simp only [List.forall_mem_cons] at hcut
      obtain ⟨hspeed, hout, hgain, hdx, hdy, hwall, -⟩ := hcut
      rw [telemMembers]
      simp only [← List.append_assoc]
      refine IsMembers.fixed ?_ (by decide) hwall
      refine IsMembers.fixed ?_ (by decide) hdy
      refine IsMembers.fixed ?_ (by decide) hdx
      refine IsMembers.fixed ?_ (by decide) hgain
      refine IsMembers.fixed ?_ (by decide) hout
      exact ht.fixed (by decide) hspeed

theorem isText_deviceText (h : s.Sound) : IsText (deviceText s) := by
  refine IsMembers.object ?_
  unfold deviceMembers
  refine IsMembers.telem (IsMembers.lat ?_ h) h
  refine IsMembers.next ?_ (by decide) (isText_intText _)
  refine IsMembers.next ?_ (by decide) (isText_intText _)
  refine IsMembers.next ?_ (by decide) (isText_intText _)
  refine IsMembers.next ?_ (by decide) (isText_intText _)
  refine IsMembers.next ?_ (by decide) (isText_intText _)
  refine IsMembers.next ?_ (by decide) (isText_intText _)
  refine IsMembers.next ?_ (by decide) (isText_jsonStr h.deviceId)
  refine IsMembers.next ?_ (by decide) (isText_jsonStr h.path)
  exact isMembers_one (by decide) (isText_jsonStr h.name)

end Device

/-- The devices behind the first, by induction on the list. -/
theorem elements_moreDevices {devices : List DevSnap} (h : ∀ s ∈ devices, s.Sound) {t : Bytes}
    (ht : Elements t) (hutf8 : Utf8.valid t = true) :
    Elements (t ++ moreDevices devices) ∧ Utf8.valid (t ++ moreDevices devices) = true := by
  induction devices generalizing t with
  | nil => exact ⟨by rwa [moreDevices, List.append_nil], by rwa [moreDevices, List.append_nil]⟩
  | cons s rest ih =>
      rw [List.forall_mem_cons] at h
      have hdevice := isText_deviceText h.1
      have hmore := ih h.2 (.more ht hdevice.value)
        (valid_append hutf8 (valid_cons (by decide) hdevice.utf8))
      rw [moreDevices, ← List.append_assoc]
      exact hmore

theorem isText_devices {devices : List DevSnap} (h : ∀ s ∈ devices, s.Sound) :
    IsText (0x5B :: (devicesText devices ++ [0x5D])) := by
  cases devices with
  | nil => exact ⟨.array_nil, by decide⟩
  | cons s rest =>
      rw [List.forall_mem_cons] at h
      have hdevice := isText_deviceText h.1
      obtain ⟨hall, hutf8⟩ := elements_moreDevices h.2 (.one hdevice.value) hdevice.utf8
      exact ⟨.array hall, valid_cons (by decide) (valid_append hutf8 (by decide))⟩

/-- **The status is a text that a strict parser accepts.** -/
theorem isText_statusJson {configPath activeProfile : Bytes} {devices : List DevSnap}
    (hconfig : WellSequenced configPath) (hactive : WellSequenced activeProfile)
    (hdevices : ∀ s ∈ devices, s.Sound) (running : Bool) :
    IsText (statusJson running configPath activeProfile devices) := by
  refine IsMembers.object ?_
  refine IsMembers.next ?_ (by decide) (isText_devices hdevices)
  refine IsMembers.next ?_ (by decide) (isText_jsonStr hactive)
  refine IsMembers.next ?_ (by decide) (isText_jsonStr hconfig)
  exact isMembers_one (by decide) (isText_boolText running)

/-- What is escaped is a byte that begins no sequence: a lead byte whose continuation is cut or
broken, a continuation byte with no lead byte, and a byte that is neither. -/
theorem passes_eq_false_iff {c : UInt8} {s : Bytes} :
    passes c s = false ↔ ¬∃ t u, s = t ++ u ∧ Sequence c t := by
  rw [← passes_iff, Bool.not_eq_true]

theorem unicodeEscape_eq : ∀ c : UInt8,
    unicodeEscape c = bytes "\\u00" ++ [hexDigit (c.toNat / 16), hexDigit (c.toNat % 16)] :=
  forall_byte (by decide +kernel)

/-- **Status strings.**  Every string becomes a literal, in which the bytes that begin no sequence
are escaped.  Where each sequence is a character the literal is one of a strict parser; a
well-formed string is what its literal stands for, with a space for each control that has no
escape.  So the status is accepted. -/
theorem status_strings :
    (∀ s, IsString (jsonStr s)) ∧
      (∀ s, ∃ t, jsonStr s = quoted t ∧ Escaped s t) ∧
      (∀ c s, passes c s = false ↔ ¬∃ t u, s = t ++ u ∧ Sequence c t) ∧
      (∀ c, unicodeEscape c =
        bytes "\\u00" ++ [hexDigit (c.toNat / 16), hexDigit (c.toNat % 16)]) ∧
      (∀ s, WellSequenced s → IsText (jsonStr s)) ∧
      (∀ s, Utf8.valid s = true → IsText (jsonStr s) ∧
        ∃ t, jsonStr s = quoted t ∧ ∀ v, Chars t v ↔ v = s.map shown) ∧
      ∀ (running : Bool) (configPath activeProfile : Bytes) (devices : List DevSnap),
        WellSequenced configPath → WellSequenced activeProfile → (∀ d ∈ devices, d.Sound) →
        IsText (statusJson running configPath activeProfile devices) := by
  refine ⟨isString_jsonStr, fun s => ⟨jsonChars 0 s, rfl, escaped_jsonChars s⟩,
    fun c s => passes_eq_false_iff, unicodeEscape_eq, fun s hs => isText_jsonStr hs,
    fun s hs => ?_, ?_⟩
  · refine ⟨isText_jsonStr (wellSequenced_of_valid hs), jsonChars 0 s, rfl, fun v => ?_⟩
    have hself := (escaped_jsonChars s).chars_of_valid hs
    constructor
    · exact fun hv => hv.unique hself
    · rintro rfl
      exact hself
  · intro running configPath activeProfile devices hconfig hactive hdevices
    exact isText_statusJson hconfig hactive hdevices running

/-- A character whose end is cut off. -/
example : jsonStr [0x41, 0xE2, 0x82] = bytes "\"A\\u00e2\\u0082\"" := by decide +kernel

/-- A device with an umlaut in its name, one sample, and telemetry. -/
def namedDevice : DevSnap where
  name := bytes "M" ++ [0xC3, 0xA4] ++ bytes "use"
  path := bytes "/dev/input/event7"
  deviceId := bytes "046d:c08b"
  dpi := 800
  pollRate := 1000
  detectedDpi := 0
  detectedPollingRate := 1000
  realPollingRate := -1
  detectedBattery := -1
  latCount := 1
  latAvg := 12.5
  latP50 := 12.5
  latP95 := 12.5
  latP99 := 12.5
  latMax := 12.5
  telem := some ⟨2, 3, 1.5, -4, 0, 100⟩

theorem status_strings_named :
    (∃ t, jsonStr [0x41, 0x80] = quoted t ∧ Escaped [0x41, 0x80] t) ∧
      IsText (jsonStr namedDevice.name) ∧
      (∃ t, jsonStr namedDevice.name = quoted t ∧ Chars t namedDevice.name) ∧
      IsText (statusJson true (bytes "/etc/settings.json") (bytes "default") [namedDevice]) := by
  have hsequenced : ∀ s ∈ [namedDevice.name, namedDevice.path, namedDevice.deviceId,
      bytes "/etc/settings.json", bytes "default"], Utf8.valid s = true := by decide +kernel
  simp only [List.forall_mem_cons] at hsequenced
  obtain ⟨hname, hpath, hid, hconfig, hactive, -⟩ := hsequenced
  have hsound : namedDevice.Sound := by
    refine ⟨wellSequenced_of_valid hname, wellSequenced_of_valid hpath,
      wellSequenced_of_valid hid, by decide +kernel, fun t ht => ?_⟩
    obtain rfl := Option.some.inj ht
    decide +kernel
  obtain ⟨-, hescaped, -, -, -, hvalid, hstatus⟩ := status_strings
  obtain ⟨htext, t, heq, ht⟩ := hvalid namedDevice.name hname
  refine ⟨hescaped _, htext, ⟨t, heq, (ht _).mpr (by decide +kernel)⟩, ?_⟩
  exact hstatus _ _ _ _ (wellSequenced_of_valid hconfig) (wellSequenced_of_valid hactive)
    (by simpa using hsound)

/-- A control is not what its literal stands for. -/
theorem control_becomes_space :
    Utf8.valid [0x01] = true ∧ jsonStr [0x01] = quoted [0x20] ∧ ¬Chars [0x20] [0x01] := by
  have hspace : Chars [0x20] [0x20] := .plain (by decide) .nil
  refine ⟨by decide, by decide, fun h => ?_⟩
  exact absurd (h.unique hspace) (by decide)

end AbrekMouse
