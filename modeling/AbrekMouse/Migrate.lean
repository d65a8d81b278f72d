import AbrekMouse.ConfigJson
import AbrekMouse.PaddedLex

/-! # Versions and the migration of old configurations

A stored version is a dotted string of decimal components.  `versionLt` compares two
of them component by component, and a string that is not a version counts as older
than every version.  A configuration older than 0.4.0 stores its lookup curves in the
units of that time, so `migrateConfig` multiplies them once and stamps the current
version.

`version_lt_iff` describes the comparison without its loop: on versions it is the
zero-padded lexicographic order.
-/
namespace AbrekMouse
open ProgLib ProgLib.Fp ProgLib.PairSort
variable (lim : Limits)

/-! ## Versions -/

/-- An ASCII digit. -/
def isDigit (c : UInt8) : Bool := 0x30 ≤ c && c ≤ 0x39

/-- The blanks of the C locale. -/
def isSpace (c : UInt8) : Bool := c = 0x20 || (0x09 ≤ c && c ≤ 0x0D)

/-- `strtoull` of a string of digits. -/
def decimalValue (tok : Bytes) : ℕ := tok.foldl (fun n c => 10 * n + (c.toNat - 0x30)) 0

/-- One component: digits only, not empty, at most `INT_MAX`. -/
def parseComponent (tok : Bytes) : Option ℕ :=
  if tok = [] then none
  else if !tok.all isDigit then none
  else if (decimalValue tok : ℤ) > intMax then none
  else some (decimalValue tok)

/-- The tokens between the dots. -/
def versionTokens : Bytes → List Bytes
  | [] => [[]]
  | c :: v =>
      if c = 0x2E then [] :: versionTokens v
      else
        match versionTokens v with
        | [] => [[c]]
        | tok :: toks => (c :: tok) :: toks

/-- The numbers of a version; a part that is none makes it no version. -/
def parseVersion (v : Bytes) : Option (List ℕ) := (versionTokens v).mapM parseComponent

/-- `version_lt`: is `lhs` older than `rhs`? -/
def versionLt (lhs rhs : Bytes) : Bool :=
  match parseVersion lhs with
  | none => true
  | some a =>
      match parseVersion rhs with
      | none => false
      | some b => PaddedLex.lt a b

/-! ## Migration -/

/-- Point `i` of a lookup curve: the value times the key, where that is a `float`. -/
def migratePoint (d : Vector Single lutRawDataCapacity) (i : ℕ) :
    Vector Single lutRawDataCapacity :=
  let x : Double := convert (rd d (2 * i))
  let y : Double := convert (rd d (2 * i + 1))
  if ¬x > 0 then d
  else
    let product := y * x
    let narrowed : Single := convert product
    if product.isFinite ∧ narrowed.isFinite then wr d (2 * i + 1) narrowed else d

/-- The points of a lookup table with gain are scaled; any other curve stays. -/
def migrateCurve (a : AccelArgs) : AccelArgs :=
  if a.mode ≠ .lookup ∨ !a.gain then a
  else { a with data := (List.range a.points).foldl migratePoint a.data }

/-- `migrate_lookup_gain`: both curves of every profile. -/
def migrateLookupGain (cfg : AppConfig) : AppConfig :=
  { cfg with
    profiles := cfg.profiles.map fun dp =>
      { dp with prof := { dp.prof with accelX := migrateCurve dp.prof.accelX
                                       accelY := migrateCurve dp.prof.accelY } } }

/-- A file before this version gets the present one. -/
def version030 : Bytes := bytes "0.3.0"

/-- In a file before this version the tables of lookup curves are scaled. -/
def version040 : Bytes := bytes "0.4.0"

/-- The migration, and whether it did anything. -/
def migrateConfig (cfg : AppConfig) : Bool × AppConfig :=
  if cfg.version = rawaccelVersion then (false, cfg)
  else
    let migrated := cfg.version = [] ∨ versionLt cfg.version version030
    let due := cfg.version = [] ∨ versionLt cfg.version version040
    let cfg := if due then migrateLookupGain cfg else cfg
    if migrated ∨ due then
      (true, { cfg with version := rawaccelVersion
                        profiles := cfg.profiles.map (sanitizeDeviceProfile lim) })
    else (false, cfg)

/-! ## The order of versions -/

/-- A string that is not a version: a token between its dots is empty, holds something
else than digits, or is above `INT_MAX`. -/
def Malformed (v : Bytes) : Prop :=
  ∃ tok ∈ versionTokens v, tok = [] ∨ (∃ c ∈ tok, isDigit c = false) ∨
    (decimalValue tok : ℤ) > intMax

theorem parseComponent_eq_none {tok : Bytes} :
    parseComponent tok = none ↔
      tok = [] ∨ (∃ c ∈ tok, isDigit c = false) ∨ (decimalValue tok : ℤ) > intMax := by
  unfold parseComponent
  by_cases hnil : tok = []
  · simp [hnil]
  · by_cases hdigits : tok.all isDigit = true
    · have hno : ¬∃ c ∈ tok, isDigit c = false := by
        rintro ⟨c, hc, hfalse⟩
        rw [List.all_eq_true.mp hdigits c hc] at hfalse
        cases hfalse
      simp [hnil, hdigits, hno]
    · have hyes : ∃ c ∈ tok, isDigit c = false := by simpa using hdigits
      simp [hnil, hdigits, hyes]

theorem parseVersion_eq_none {v : Bytes} : parseVersion v = none ↔ Malformed v := by
  unfold parseVersion Malformed
  simp only [← parseComponent_eq_none]
  generalize versionTokens v = toks
  induction toks with
  | nil => simp
  | cons tok toks ih =>
      rw [List.mapM_cons]
      cases htok : parseComponent tok with
      | none => simp [htok]
      | some n =>
          cases hrest : toks.mapM parseComponent with
          | none => simpa [htok, hrest] using ih.mp hrest
          | some ns =>
              have hall := (not_congr ih).mp (by simp [hrest])
              simpa [htok, hrest] using hall

/-- **The comparison without its loop.**  A string that is not a version is older than
everything, and nothing else is older than one; versions are in zero-padded
lexicographic order. -/
theorem versionLt_iff {lhs rhs : Bytes} :
    versionLt lhs rhs = true ↔ Malformed lhs ∨
      ∃ a b, parseVersion lhs = some a ∧ parseVersion rhs = some b ∧ PaddedLex.Older a b := by
  rw [← parseVersion_eq_none]
  unfold versionLt
  cases parseVersion lhs with
  | none => simp
  | some a =>
      cases parseVersion rhs with
      | none => simp
      | some b => simp [PaddedLex.lt_iff_older]

/-- What is older than a version is older than every newer one. -/
theorem versionLt_trans {u v w : Bytes} (huv : versionLt u v = true) (hvw : versionLt v w = true)
    (hv : ¬Malformed v) : versionLt u w = true := by
  rw [versionLt_iff] at huv hvw ⊢
  rcases huv with hbad | ⟨a, b, ha, hb, hab⟩
  · exact .inl hbad
  · rcases hvw with hbad | ⟨b', c, hb', hc, hbc⟩
    · exact absurd hbad hv
    · obtain rfl : b = b' := Option.some.inj (hb.symm.trans hb')
      exact .inr ⟨a, c, ha, hc, hab.trans hbc⟩

theorem not_malformed_of_parse {v : Bytes} {ns : List ℕ} (h : parseVersion v = some ns) :
    ¬Malformed v := fun hbad => by
  rw [parseVersion_eq_none.mpr hbad] at h
  cases h

theorem not_malformed_version030 : ¬Malformed version030 := by
  have hparse : parseVersion version030 = some [0, 3, 0] := by decide
  exact not_malformed_of_parse hparse

theorem not_malformed_version040 : ¬Malformed version040 := by
  have hparse : parseVersion version040 = some [0, 4, 0] := by decide
  exact not_malformed_of_parse hparse

/-- A version that is not older than the current one is not older than 0.4.0. -/
theorem not_versionLt_version040 {v : Bytes} (h : ¬versionLt v rawaccelVersion = true) :
    ¬versionLt v version040 = true := fun hold =>
  h (versionLt_trans hold (by decide) not_malformed_version040)

theorem versionLt_version040_of_version030 {v : Bytes} (h : versionLt v version030 = true) :
    versionLt v version040 = true :=
  versionLt_trans h (by decide) not_malformed_version030

/-- A configuration that is not older than 0.4.0 is not migrated. -/
theorem migrateConfig_of_not_older {cfg : AppConfig} (hne : cfg.version ≠ [])
    (h : ¬versionLt cfg.version version040 = true) : migrateConfig lim cfg = (false, cfg) := by
  have h030 : ¬versionLt cfg.version version030 = true := fun hold =>
    h (versionLt_version040_of_version030 hold)
  unfold migrateConfig
  simp [hne, h, h030]

end AbrekMouse
