import AbrekMouse.Binary
import AbrekMouse.PairSort
import AbrekMouse.Utf8
import Mathlib.Data.List.TakeWhile

/-! # The configuration

The data that a settings file holds: an `AppConfig` with its profiles, each a device
match with the acceleration parameters of both axes.  Field names, defaults and
capacities are those of the source.

The ceilings of the graphical gauges are constants that the library only names, so
they are a parameter (`Limits`), of which the code relies on no more than that each
ceiling is a finite number at or above the floor of its field.
-/
namespace AbrekMouse
open ProgLib

/-- The version that is written to a new file. -/
def rawaccelVersion : Bytes := bytes "1.2.8"

/-- The least polling rate, in Hz. -/
def pollRateMin : ℤ := 125

/-- The greatest polling rate, in Hz. -/
def pollRateMax : ℤ := 8000

/-- The greatest half-life of a smoothing, in milliseconds. -/
def smoothHalflifeMax : Double := 10000

/-- The buffer for a name, with the zero that ends it. -/
def maxNameLen : ℕ := 256

/-- The slots of a table: two for each of its points. -/
def lutRawDataCapacity : ℕ := 514

/-- The profiles of a configuration that comes over the socket, at most. -/
def maxProfiles : ℕ := 256

/-- The profiles of a configuration that comes from a file, at most. -/
def maxProfilesFile : ℕ := 65536

/-- The resolution that counts are normalised to. -/
def normalizedDpi : Double := 1000

/-- `accel_mode`: the kinds of curves. -/
inductive AccelMode
  | classic | jump | natural | synchronous | power | lookup | noaccel
deriving DecidableEq

/-- `cap_mode`: which side of a curve its cap is given for. -/
inductive CapMode
  | io | in_ | out
deriving DecidableEq

/-- `vec2d`: a number for each of the two axes. -/
structure Vec2d where
  x : Double
  y : Double
deriving DecidableEq

instance : Inhabited Single := ⟨0⟩

/-- `accel_args`: the curve of one axis.  The lookup table is flat, key and value of
point `i` in `data[2 * i]` and `data[2 * i + 1]`, and `length` counts its slots. -/
structure AccelArgs where
  mode : AccelMode := .noaccel
  gain : Bool := true
  inputOffset : Double := 0
  outputOffset : Double := 0
  acceleration : Double := 0.005
  decayRate : Double := 0.1
  gamma : Double := 1
  motivity : Double := 1.5
  exponentClassic : Double := 2
  scale : Double := 1
  exponentPower : Double := 0.05
  limit : Double := 1.5
  syncSpeed : Double := 5
  smooth : Double := 0.5
  cap : Vec2d := ⟨15, 1.5⟩
  capModeVal : CapMode := .out
  length : ℤ := 0
  data : Vector Single lutRawDataCapacity := .replicate lutRawDataCapacity 0
deriving DecidableEq

/-- `speed_args`: how the speed of a movement is taken, and the half-lives with which it is
smoothed. -/
structure SpeedArgs where
  whole : Bool := true
  lpNorm : Double := 2
  inputSpeedSmoothHalflife : Double := 0
  scaleSmoothHalflife : Double := 0
  outputSpeedSmoothHalflife : Double := 0
deriving DecidableEq

/-- The string in a `char` buffer of `cap + 1` bytes: the bytes before the first
NUL. -/
structure CString (cap : ℕ) where
  chars : Bytes
  length_le : chars.length ≤ cap
  no_nul : 0 ∉ chars
deriving DecidableEq

/-- `strncpy(buf, s.c_str(), cap); buf[cap] = 0`. -/
def CString.copy (cap : ℕ) (s : Bytes) : CString cap where
  chars := (s.takeWhile (· ≠ 0)).take cap
  length_le := by simp
  no_nul hmem := by simpa using List.mem_takeWhile_imp (List.mem_of_mem_take hmem)

/-- Copying the string of such a buffer gives it back. -/
@[simp] theorem CString.copy_chars {cap : ℕ} (s : CString cap) : CString.copy cap s.chars = s := by
  have hall : s.chars.takeWhile (· ≠ 0) = s.chars := by
    rw [List.takeWhile_eq_self_iff]
    intro b hb
    have hne : b ≠ 0 := fun h => s.no_nul (h ▸ hb)
    simpa using hne
  cases s
  simp only [CString.copy, CString.mk.injEq] at hall ⊢
  rwa [hall, List.take_of_length_le]

/-- `profile`: the settings of the acceleration library, with a curve for each axis. -/
structure Profile where
  name : CString maxNameLen := .copy maxNameLen (bytes "default")
  rawPassthrough : Bool := false
  domainWeights : Vec2d := ⟨1, 1⟩
  rangeWeights : Vec2d := ⟨1, 1⟩
  accelX : AccelArgs := {}
  accelY : AccelArgs := {}
  speedProcessorArgs : SpeedArgs := {}
  outputDpi : Double := normalizedDpi
  yxOutputDpiRatio : Double := 1
  lrOutputDpiRatio : Double := 1
  udOutputDpiRatio : Double := 1
  degreesRotation : Double := 0
  degreesSnap : Double := 0
  speedMin : Double := 0
  speedMax : Double := 0
deriving DecidableEq

/-- `device_config`: the settings of the mouse itself. -/
structure DeviceConfig where
  dpi : ℤ := 800
  pollingRate : ℤ := 1000
  disable : Bool := false
deriving DecidableEq

/-- `device_profile`: a profile with the device and the application that it is for. -/
structure DeviceProfile where
  name : Bytes := []
  deviceId : Bytes := []
  matchApp : Bytes := []
  devCfg : DeviceConfig := {}
  prof : Profile := {}
deriving DecidableEq

/-- `app_config`: what the settings file holds. -/
structure AppConfig where
  version : Bytes := []
  activeProfile : Bytes := bytes "default"
  useRawInput : Bool := true
  profiles : List DeviceProfile := []
deriving DecidableEq

/-! ## The gauge ceilings -/

/-- `hi` can close a range that starts at `lo`. -/
structure Ceiling (lo hi : Double) : Prop where
  finite : hi.isFinite = true
  not_lt : ¬hi < lo

/-- The ceilings of the gauges, and the floor of a positive natural decay rate. -/
structure Limits where
  scaleMax : Double
  expPowerMax : Double
  capXMax : Double
  capYMax : Double
  outputOffsetMax : Double
  limitMax : Double
  accelMax : Double
  decayRateMax : Double
  motivityMax : Double
  gammaMax : Double
  syncSpeedMax : Double
  smoothMax : Double
  speedMax : Double
  naturalDecayRateMin : Double
  scaleMax_ok : Ceiling 0.01 scaleMax
  expPowerMax_ok : Ceiling 1e-4 expPowerMax
  capXMax_ok : Ceiling 0 capXMax
  capYMax_ok : Ceiling 0 capYMax
  outputOffsetMax_ok : Ceiling 0 outputOffsetMax
  limitMax_ok : Ceiling 0 limitMax
  accelMax_ok : Ceiling 0 accelMax
  decayRateMax_ok : Ceiling naturalDecayRateMin decayRateMax
  motivityMax_ok : Ceiling 0 motivityMax
  gammaMax_ok : Ceiling 0 gammaMax
  syncSpeedMax_ok : Ceiling 1e-4 syncSpeedMax
  smoothMax_ok : Ceiling 0 smoothMax
  speedMax_ok : Ceiling 0 speedMax
  naturalDecayRateMin_ok : Ceiling 0 naturalDecayRateMin

/-- The values that the documentation of the gauges gives. -/
def Limits.documented : Limits where
  scaleMax := 100
  expPowerMax := 5
  capXMax := 500
  capYMax := 100
  outputOffsetMax := 100
  limitMax := 100
  accelMax := 20
  decayRateMax := 10
  motivityMax := 10
  gammaMax := 10
  syncSpeedMax := 100
  smoothMax := 1
  speedMax := 100000
  naturalDecayRateMin := 1e-4
  scaleMax_ok := ⟨by decide +kernel, by decide +kernel⟩
  expPowerMax_ok := ⟨by decide +kernel, by decide +kernel⟩
  capXMax_ok := ⟨by decide +kernel, by decide +kernel⟩
  capYMax_ok := ⟨by decide +kernel, by decide +kernel⟩
  outputOffsetMax_ok := ⟨by decide +kernel, by decide +kernel⟩
  limitMax_ok := ⟨by decide +kernel, by decide +kernel⟩
  accelMax_ok := ⟨by decide +kernel, by decide +kernel⟩
  decayRateMax_ok := ⟨by decide +kernel, by decide +kernel⟩
  motivityMax_ok := ⟨by decide +kernel, by decide +kernel⟩
  gammaMax_ok := ⟨by decide +kernel, by decide +kernel⟩
  syncSpeedMax_ok := ⟨by decide +kernel, by decide +kernel⟩
  smoothMax_ok := ⟨by decide +kernel, by decide +kernel⟩
  speedMax_ok := ⟨by decide +kernel, by decide +kernel⟩
  naturalDecayRateMin_ok := ⟨by decide +kernel, by decide +kernel⟩

end AbrekMouse
