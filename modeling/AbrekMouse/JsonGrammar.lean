import AbrekMouse.Utf8

/-! # The grammar of JSON texts

What a strict parser accepts, over bytes: the characters of a string with what they stand for
(`Chars`), numbers (`Number`), and values without white space between their tokens (`Value`).
Whether the bytes are well-formed UTF-8 is a separate question.

The characters between the quotes stand for one string only (`Chars.unique`).
-/
namespace ProgLib

/-- The well-formed byte sequence of a code point. -/
def Utf8.encode (n : ℕ) : Bytes :=
  if n < 0x80 then [.ofNat n]
  else if n < 0x800 then [.ofNat (0xC0 + n / 0x40), .ofNat (0x80 + n % 0x40)]
  else if n < 0x10000 then
    [.ofNat (0xE0 + n / 0x1000), .ofNat (0x80 + n / 0x40 % 0x40), .ofNat (0x80 + n % 0x40)]
  else
    [.ofNat (0xF0 + n / 0x40000), .ofNat (0x80 + n / 0x1000 % 0x40),
      .ofNat (0x80 + n / 0x40 % 0x40), .ofNat (0x80 + n % 0x40)]

namespace JsonGrammar

/-! ## Strings -/

/-- The value of a hexadecimal digit. -/
def hexValue (b : UInt8) : Option ℕ :=
  if 0x30 ≤ b ∧ b ≤ 0x39 then some (b.toNat - 0x30)
  else if 0x41 ≤ b ∧ b ≤ 0x46 then some (b.toNat - 0x37)
  else if 0x61 ≤ b ∧ b ≤ 0x66 then some (b.toNat - 0x57)
  else none

/-- Four hexadecimal digits. -/
def codeUnit (a b c d : UInt8) : Option ℕ := do
  let a ← hexValue a
  let b ← hexValue b
  let c ← hexValue c
  let d ← hexValue d
  return 0x1000 * a + 0x100 * b + 0x10 * c + d

/-- What a backslash before a byte stands for. -/
def escapeValue (b : UInt8) : Option UInt8 :=
  if b = 0x22 ∨ b = 0x5C ∨ b = 0x2F then some b
  else if b = 0x62 then some 0x08
  else if b = 0x66 then some 0x0C
  else if b = 0x6E then some 0x0A
  else if b = 0x72 then some 0x0D
  else if b = 0x74 then some 0x09
  else none

/-- A byte that stands for itself: no control, quote or backslash. -/
structure IsPlain (b : UInt8) : Prop where
  ge : 0x20 ≤ b
  ne_quote : b ≠ 0x22
  ne_backslash : b ≠ 0x5C

instance (b : UInt8) : Decidable (IsPlain b) :=
  decidable_of_iff (0x20 ≤ b ∧ b ≠ 0x22 ∧ b ≠ 0x5C)
    ⟨fun h => ⟨h.1, h.2.1, h.2.2⟩, fun h => ⟨h.ge, h.ne_quote, h.ne_backslash⟩⟩

/-- The first half of a surrogate pair. -/
def IsHigh (u : ℕ) : Prop := 0xD800 ≤ u ∧ u < 0xDC00

/-- The second half of a surrogate pair. -/
def IsLow (u : ℕ) : Prop := 0xDC00 ≤ u ∧ u < 0xE000

/-- **The characters of a string**, and the bytes that they stand for. -/
inductive Chars : Bytes → Bytes → Prop
  | nil : Chars [] []
  | plain {b t s} : IsPlain b → Chars t s → Chars (b :: t) (b :: s)
  | escape {b v t s} : escapeValue b = some v → Chars t s → Chars (0x5C :: b :: t) (v :: s)
  | unit {a b c d u t s} : codeUnit a b c d = some u → ¬IsHigh u → ¬IsLow u → Chars t s →
      Chars (0x5C :: 0x75 :: a :: b :: c :: d :: t) (Utf8.encode u ++ s)
  | pair {a b c d a' b' c' d' u v t s} : codeUnit a b c d = some u → IsHigh u →
      codeUnit a' b' c' d' = some v → IsLow v → Chars t s →
      Chars (0x5C :: 0x75 :: a :: b :: c :: d :: 0x5C :: 0x75 :: a' :: b' :: c' :: d' :: t)
        (Utf8.encode (0x10000 + (u - 0xD800) * 0x400 + (v - 0xDC00)) ++ s)

theorem escapeValue_u : escapeValue 0x75 = none := by decide

/-- **The characters stand for one string.** -/
theorem Chars.unique {t s s' : Bytes} (h : Chars t s) (h' : Chars t s') : s = s' := by
  induction h generalizing s' with
  | nil =>
      cases h'
      rfl
  | plain hb _ ih =>
      cases h' with
      | plain _ h' => rw [ih h']
      | escape | unit | pair => exact absurd rfl hb.ne_backslash
  | escape hv _ ih =>
      cases h' with
      | plain hb _ => exact absurd rfl hb.ne_backslash
      | escape hv' h' =>
          rw [hv] at hv'
          rw [Option.some.inj hv', ih h']
      | unit | pair =>
          rw [escapeValue_u] at hv
          cases hv
  | unit hu hhigh hlow _ ih =>
      cases h' with
      | plain hb _ => exact absurd rfl hb.ne_backslash
      | escape hv _ =>
          rw [escapeValue_u] at hv
          cases hv
      | unit hu' _ _ h' =>
          rw [hu] at hu'
          rw [Option.some.inj hu', ih h']
      | pair hu' hhigh' =>
          rw [hu] at hu'
          exact absurd (Option.some.inj hu' ▸ hhigh') hhigh
  | pair hu hhigh hv hlow _ ih =>
      cases h' with
      | plain hb _ => exact absurd rfl hb.ne_backslash
      | escape hv _ =>
          rw [escapeValue_u] at hv
          cases hv
      | unit hu' hhigh' =>
          rw [hu] at hu'
          exact absurd (Option.some.inj hu' ▸ hhigh) hhigh'
      | pair hu' _ hv' _ h' =>
          rw [hu] at hu'
          rw [hv] at hv'
          rw [Option.some.inj hu', Option.some.inj hv', ih h']

theorem Chars.append {t s t' s' : Bytes} (h : Chars t s) (h' : Chars t' s') :
    Chars (t ++ t') (s ++ s') := by
  induction h with
  | nil => exact h'
  | plain hb _ ih => exact .plain hb ih
  | escape hv _ ih => exact .escape hv ih
  | unit hu hhigh hlow _ ih =>
      rw [List.append_assoc]
      exact .unit hu hhigh hlow ih
  | pair hu hhigh hv hlow _ ih =>
      rw [List.append_assoc]
      exact .pair hu hhigh hv hlow ih

/-- Bytes that stand for themselves. -/
theorem chars_plain {s : Bytes} (h : ∀ b ∈ s, IsPlain b) : Chars s s := by
  induction s with
  | nil => exact .nil
  | cons b s ih =>
      rw [List.forall_mem_cons] at h
      exact .plain h.1 (ih h.2)

/-- A text in quotes. -/
def quoted (t : Bytes) : Bytes := 0x22 :: (t ++ [0x22])

/-- A string literal. -/
def IsString (t : Bytes) : Prop := ∃ u s, t = quoted u ∧ Chars u s

/-! ## Numbers -/

/-- One digit or more. -/
structure Digits (t : Bytes) : Prop where
  ne_nil : t ≠ []
  digit : ∀ b ∈ t, 0x30 ≤ b ∧ b ≤ 0x39

/-- No digit follows a zero. -/
structure IntPart (t : Bytes) : Prop extends Digits t where
  no_zero : t.head? = some 0x30 → t = [0x30]

theorem Digits.take {t : Bytes} (h : Digits t) {k : ℕ} (hk : 0 < k) : Digits (t.take k) := by
  refine ⟨fun hnil => ?_, fun b hb => h.digit b (List.mem_of_mem_take hb)⟩
  rcases List.take_eq_nil_iff.mp hnil with hzero | hnil
  · omega
  · exact h.ne_nil hnil

theorem IntPart.take {t : Bytes} (h : IntPart t) {k : ℕ} (hk : 0 < k) : IntPart (t.take k) := by
  refine ⟨h.toDigits.take hk, fun hzero => ?_⟩
  rw [List.head?_take, if_neg (by omega)] at hzero
  rw [h.no_zero hzero, List.take_of_length_le hk]

/-- The part of a number behind its point. -/
def Fraction (t : Bytes) : Prop := t = [] ∨ ∃ u, t = 0x2E :: u ∧ Digits u

/-- The exponent of a number. -/
def Exponent (t : Bytes) : Prop :=
  t = [] ∨ ∃ e sign u, t = e :: (sign ++ u) ∧ (e = 0x65 ∨ e = 0x45) ∧
    (sign = [] ∨ sign = [0x2B] ∨ sign = [0x2D]) ∧ Digits u

/-- A number: its sign, its integer part, its fraction and its exponent. -/
def Number (t : Bytes) : Prop :=
  ∃ sign int frac exp, t = sign ++ int ++ frac ++ exp ∧ (sign = [] ∨ sign = [0x2D]) ∧
    IntPart int ∧ Fraction frac ∧ Exponent exp

/-! ## Values -/

mutual
/-- **A value**, without white space. -/
inductive Value : Bytes → Prop
  | null : Value (bytes "null")
  | true : Value (bytes "true")
  | false : Value (bytes "false")
  | number {t} : Number t → Value t
  | string {t} : IsString t → Value t
  | array_nil : Value [0x5B, 0x5D]
  | array {t} : Elements t → Value (0x5B :: (t ++ [0x5D]))
  | object_nil : Value [0x7B, 0x7D]
  | object {t} : Members t → Value (0x7B :: (t ++ [0x7D]))

inductive Elements : Bytes → Prop
  | one {t} : Value t → Elements t
  | more {t u} : Elements t → Value u → Elements (t ++ 0x2C :: u)

inductive Members : Bytes → Prop
  | one {k t} : IsString k → Value t → Members (k ++ 0x3A :: t)
  | more {t k u} : Members t → IsString k → Value u → Members (t ++ 0x2C :: (k ++ 0x3A :: u))
end

/-- A text that a strict parser accepts. -/
structure IsText (t : Bytes) : Prop where
  value : Value t
  utf8 : Utf8.valid t = true

end JsonGrammar
end ProgLib
