import Mathlib.Data.Vector.Basic

namespace Iec61850.Model

/-- An MMS value. A floating point number is its IEEE 754 bit pattern, which is all the server moves
around. -/
inductive MmsValue where
  | boolean (value : Bool)
  | integer (value : Int64)
  | unsigned (value : UInt64)
  | float32 (bits : UInt32)
  | float64 (bits : UInt64)
  | bitString (padding : UInt8) (data : List UInt8)
  | octetString (bytes : List UInt8)
  | visibleString (text : String)
  | mmsString (text : String)
  | utcTime (bytes : Vector UInt8 8)
  | binaryTime (bytes : List UInt8)
  | array (items : List MmsValue)
  | struct (items : List MmsValue)
  deriving Repr, Inhabited

/-- A bit string leaves at most seven bits unused, and none in no octet. -/
abbrev BitsFit (padding : UInt8) (data : List UInt8) : Prop :=
  padding ≤ 7 ∧ (data = [] → padding = 0)

/-- A binary time has four or six octets. -/
abbrev TimeFits (bytes : List UInt8) : Prop := bytes.length = 4 ∨ bytes.length = 6

inductive UtcTimeError where
  | invalidTimeAccuracy (code : UInt8)
  deriving DecidableEq, Repr

def timeAccuracyMask : UInt8 := 0x1f

def validTimeAccuracy (code : UInt8) : Bool := code ≤ 24 || code == 31

/-- The eight octets of a time. The codes 25 to 30 of TimeAccuracy cannot be built. -/
structure UtcTime where
  octets : Vector UInt8 8
  accuracy : validTimeAccuracy (octets[7] &&& timeAccuracyMask) = true
  deriving DecidableEq

namespace UtcTime

def null : UtcTime := ⟨Vector.replicate 8 0, by decide⟩

def fromBytes (bytes : Vector UInt8 8) : Except UtcTimeError UtcTime :=
  if valid : validTimeAccuracy (bytes[7] &&& timeAccuracyMask) = true then
    .ok ⟨bytes, valid⟩
  else
    .error (.invalidTimeAccuracy (bytes[7] &&& timeAccuracyMask))

def toBytes (time : UtcTime) : Vector UInt8 8 := time.octets

@[simp] theorem fromBytes_toBytes (time : UtcTime) : fromBytes time.toBytes = .ok time := dif_pos time.accuracy

end UtcTime

end Iec61850.Model
