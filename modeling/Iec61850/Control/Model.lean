import Iec61850.Model.Value

/-!
The data of the control services: the control models and their settings, the parameters of a
command, and the comparison of an Operate with the SelectWithValue before it.
-/

namespace Iec61850.Control

open Model

/-- An association; 0 stands for none. -/
abbrev ConnectionId := Nat

abbrev Instant := Nat

inductive ControlModel where
  | statusOnly
  | directNormal
  | sboNormal
  | directEnhanced
  | sboEnhanced
  deriving DecidableEq, Repr

inductive SboClass where
  | operateOnce
  | operateMany
  deriving DecidableEq, Repr

structure ControlSettings where
  ctlModel : ControlModel
  sboTimeoutMs : UInt32
  sboClass : SboClass
  operTimeoutMs : UInt32
  deriving DecidableEq, Repr

namespace ControlSettings

def isSbo (settings : ControlSettings) : Bool :=
  match settings.ctlModel with
  | .sboNormal | .sboEnhanced => true
  | .statusOnly | .directNormal | .directEnhanced => false

end ControlSettings

inductive ControlAddCause where
  | unknown
  | notSupported
  | blockedBySwitchingHierarchy
  | selectFailed
  | invalidPosition
  | positionReached
  | parameterChangeInExecution
  | stepLimit
  | blockedByMode
  | blockedByProcess
  | blockedByInterlocking
  | blockedBySynchrocheck
  | commandAlreadyInExecution
  | blockedByHealth
  | oneOfNControl
  | abortionByCancel
  | timeLimitOver
  | abortionByTrip
  | objectNotSelected
  | objectAlreadySelected
  | noAccessAuthority
  | endedWithOvershoot
  | abortionDueToDeviation
  | abortionByCommunicationLoss
  | blockedByCommand
  | none
  | inconsistentParameters
  | lockedByOtherClient
  deriving DecidableEq, Repr

/-- Why a request was refused; `internal` marks a failure of the server itself. -/
structure Refusal where
  cause : ControlAddCause
  internal : Bool
  deriving DecidableEq, Repr

def Refusal.byCheck (cause : ControlAddCause) : Refusal := { cause, internal := false }

def Refusal.internalFailure : Refusal := { cause := .unknown, internal := true }

structure OriginValue where
  orCat : Int32
  orIdent : List UInt8
  deriving DecidableEq, Repr

namespace OriginValue

def default : OriginValue := { orCat := 0, orIdent := [] }

def isValid (origin : OriginValue) : Bool :=
  decide (0 ≤ origin.orCat) && decide (origin.orCat ≤ 8) && decide (origin.orIdent.length ≤ 64)

end OriginValue

structure OperParams where
  ctlVal : MmsValue
  operTmMs : UInt64
  origin : OriginValue
  ctlNum : UInt8
  t : Vector UInt8 8
  test : Bool
  synchroCheck : Bool
  interlockCheck : Bool

/-- Equality of two floats of 32 bits: a NaN equals nothing, and the two zeros are equal. -/
def float32Eq (left right : UInt32) : Bool :=
  let magnitude (bits : UInt32) := bits &&& 0x7fffffff
  decide (magnitude left ≤ 0x7f800000) && decide (magnitude right ≤ 0x7f800000)
    && (left == right || magnitude left == 0 && magnitude right == 0)

def float64Eq (left right : UInt64) : Bool :=
  let magnitude (bits : UInt64) := bits &&& 0x7fffffffffffffff
  decide (magnitude left ≤ 0x7ff0000000000000) && decide (magnitude right ≤ 0x7ff0000000000000)
    && (left == right || magnitude left == 0 && magnitude right == 0)

mutual

/-- The equality derived for `MmsValue`, which compares the floats in it as numbers. -/
def mmsValueEq : MmsValue → MmsValue → Bool
  | .boolean left, .boolean right => left == right
  | .integer left, .integer right => left == right
  | .unsigned left, .unsigned right => left == right
  | .float32 left, .float32 right => float32Eq left right
  | .float64 left, .float64 right => float64Eq left right
  | .bitString leftPadding left, .bitString rightPadding right => leftPadding == rightPadding && left == right
  | .octetString left, .octetString right => left == right
  | .visibleString left, .visibleString right => left == right
  | .mmsString left, .mmsString right => left == right
  | .utcTime left, .utcTime right => left == right
  | .binaryTime left, .binaryTime right => left == right
  | .array left, .array right => mmsValuesEq left right
  | .struct left, .struct right => mmsValuesEq left right
  | _, _ => false

def mmsValuesEq : List MmsValue → List MmsValue → Bool
  | [], [] => true
  | left :: lefts, right :: rights => mmsValueEq left right && mmsValuesEq lefts rights
  | _, _ => false

end

/-- Compares floats by their bits, but only where the value itself is one. -/
def mmsValueBinaryEqual : MmsValue → MmsValue → Bool
  | .float32 left, .float32 right => left == right
  | .float64 left, .float64 right => left == right
  | left, right => mmsValueEq left right

def paramsConsistent (oper sbow : OperParams) : Bool :=
  mmsValueBinaryEqual oper.ctlVal sbow.ctlVal && oper.origin == sbow.origin && oper.ctlNum == sbow.ctlNum
    && oper.interlockCheck == sbow.interlockCheck && oper.synchroCheck == sbow.synchroCheck && oper.test == sbow.test

mutual

def zeroFree : MmsValue → Bool
  | .float32 bits => bits &&& 0x7fffffff != 0
  | .float64 bits => bits &&& 0x7fffffffffffffff != 0
  | .array items => allZeroFree items
  | .struct items => allZeroFree items
  | _ => true

def allZeroFree : List MmsValue → Bool
  | [] => true
  | item :: rest => zeroFree item && allZeroFree rest

end

def nestedZeroFree : MmsValue → Bool
  | .array items => allZeroFree items
  | .struct items => allZeroFree items
  | _ => true

theorem float32Eq_of_nonzero {left right : UInt32} (equal : float32Eq left right = true)
    (nonzero : right &&& 0x7fffffff ≠ 0) : left = right := by
  simp only [float32Eq, Bool.and_eq_true, Bool.or_eq_true, beq_iff_eq] at equal
  rcases equal.2 with same | zero
  · exact same
  · exact absurd zero.2 nonzero

theorem float64Eq_of_nonzero {left right : UInt64} (equal : float64Eq left right = true)
    (nonzero : right &&& 0x7fffffffffffffff ≠ 0) : left = right := by
  simp only [float64Eq, Bool.and_eq_true, Bool.or_eq_true, beq_iff_eq] at equal
  rcases equal.2 with same | zero
  · exact same
  · exact absurd zero.2 nonzero

mutual

theorem eq_of_mmsValueEq : ∀ {left right : MmsValue}, mmsValueEq left right = true →
      zeroFree right = true → left = right
  | .float32 left, .float32 right, equal, free => by
      rw [zeroFree, bne_iff_ne] at free
      rw [mmsValueEq] at equal
      rw [float32Eq_of_nonzero equal free]
  | .float64 left, .float64 right, equal, free => by
      rw [zeroFree, bne_iff_ne] at free
      rw [mmsValueEq] at equal
      rw [float64Eq_of_nonzero equal free]
  | .array left, .array right, equal, free => by
      rw [mmsValueEq] at equal
      rw [zeroFree] at free
      rw [eq_of_mmsValuesEq equal free]
  | .struct left, .struct right, equal, free => by
      rw [mmsValueEq] at equal
      rw [zeroFree] at free
      rw [eq_of_mmsValuesEq equal free]
  | .boolean left, right, equal, _ => by
      cases right <;> simp_all [mmsValueEq]
  | .integer left, right, equal, _ => by
      cases right <;> simp_all [mmsValueEq]
  | .unsigned left, right, equal, _ => by
      cases right <;> simp_all [mmsValueEq]
  | .bitString leftPadding left, right, equal, _ => by
      cases right <;> simp_all [mmsValueEq]
  | .octetString left, right, equal, _ => by
      cases right <;> simp_all [mmsValueEq]
  | .visibleString left, right, equal, _ => by
      cases right <;> simp_all [mmsValueEq]
  | .mmsString left, right, equal, _ => by
      cases right <;> simp_all [mmsValueEq]
  | .utcTime left, right, equal, _ => by
      cases right <;> simp_all [mmsValueEq]
  | .binaryTime left, right, equal, _ => by
      cases right <;> simp_all [mmsValueEq]

theorem eq_of_mmsValuesEq : ∀ {left right : List MmsValue},
    mmsValuesEq left right = true → allZeroFree right = true → left = right
  | [], [], _, _ => rfl
  | left :: lefts, right :: rights, equal, free => by
      rw [mmsValuesEq, Bool.and_eq_true] at equal
      rw [allZeroFree, Bool.and_eq_true] at free
      rw [eq_of_mmsValueEq equal.1 free.1, eq_of_mmsValuesEq equal.2 free.2]
  | [], _ :: _, equal, _ => by cases equal
  | _ :: _, [], equal, _ => by cases equal

end

theorem eq_of_mmsValueBinaryEqual {left right : MmsValue} (equal : mmsValueBinaryEqual left right = true)
    (free : nestedZeroFree right = true) : left = right := by
  unfold mmsValueBinaryEqual at equal
  split at equal
  · rw [beq_iff_eq.mp equal]
  · rw [beq_iff_eq.mp equal]
  next notFloat32 notFloat64 =>
  cases right with
  | array items | struct items => exact eq_of_mmsValueEq equal (by rw [zeroFree]; exact free)
  | float32 bits | float64 bits => cases left <;> simp_all [mmsValueEq]
  | _ => exact eq_of_mmsValueEq equal rfl

end Iec61850.Control
