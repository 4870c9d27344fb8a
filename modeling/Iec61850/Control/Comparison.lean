import Iec61850.Client.Compat
import Iec61850.Control.Model
import Iec61850.Mms.PrefixFree

/-!
The comparison of control values as a relation: what it shares with equality of bit patterns, and
the floats on which the two part.
-/

namespace Iec61850.Control

open Client
open Model

mutual

def nanFree : MmsValue → Bool
  | .float32 bits => decide (bits &&& 0x7fffffff ≤ 0x7f800000)
  | .float64 bits => decide (bits &&& 0x7fffffffffffffff ≤ 0x7ff0000000000000)
  | .array items => allNanFree items
  | .struct items => allNanFree items
  | _ => true

def allNanFree : List MmsValue → Bool
  | [] => true
  | item :: rest => nanFree item && allNanFree rest

end

def nestedNanFree : MmsValue → Bool
  | .array items => allNanFree items
  | .struct items => allNanFree items
  | _ => true

def octets (value : MmsValue) : List UInt8 := (mmsValueToMmsData value).encode

section Floats

theorem float32Eq_comm (left right : UInt32) : float32Eq left right = float32Eq right left := by
  unfold float32Eq
  grind

theorem float64Eq_comm (left right : UInt64) : float64Eq left right = float64Eq right left := by
  unfold float64Eq
  grind

theorem float32Eq_self (bits : UInt32) : float32Eq bits bits = decide (bits &&& 0x7fffffff ≤ 0x7f800000) := by
  simp [float32Eq]

theorem float64Eq_self (bits : UInt64) :
    float64Eq bits bits = decide (bits &&& 0x7fffffffffffffff ≤ 0x7ff0000000000000) := by
  simp [float64Eq]

theorem float32Eq_trans {first second third : UInt32} (left : float32Eq first second = true)
    (right : float32Eq second third = true) : float32Eq first third = true := by
  unfold float32Eq at *
  grind

theorem float64Eq_trans {first second third : UInt64} (left : float64Eq first second = true)
    (right : float64Eq second third = true) : float64Eq first third = true := by
  unfold float64Eq at *
  grind

end Floats

mutual

theorem mmsValueEq_comm (left right : MmsValue) : mmsValueEq left right = mmsValueEq right left := by
  cases left with
  | float32 bits =>
    cases right with
    | float32 bits' => exact float32Eq_comm bits bits'
    | _ => rfl
  | float64 bits =>
    cases right with
    | float64 bits' => exact float64Eq_comm bits bits'
    | _ => rfl
  | array items =>
    cases right with
    | array items' => exact mmsValuesEq_comm items items'
    | _ => rfl
  | struct items =>
    cases right with
    | struct items' => exact mmsValuesEq_comm items items'
    | _ => rfl
  | _ => cases right <;> simp [mmsValueEq, Bool.beq_comm]

theorem mmsValuesEq_comm (left right : List MmsValue) : mmsValuesEq left right = mmsValuesEq right left := by
  match left, right with
  | [], [] => rfl
  | [], _ :: _ => rfl
  | _ :: _, [] => rfl
  | item :: rest, item' :: rest' =>
    rw [mmsValuesEq, mmsValuesEq, mmsValueEq_comm item item', mmsValuesEq_comm rest rest']

end

mutual

theorem mmsValueEq_self (value : MmsValue) : mmsValueEq value value = nanFree value := by
  cases value with
  | float32 bits => exact float32Eq_self bits
  | float64 bits => exact float64Eq_self bits
  | array items | struct items => exact mmsValuesEq_self items
  | _ => simp [mmsValueEq, nanFree]

theorem mmsValuesEq_self (values : List MmsValue) : mmsValuesEq values values = allNanFree values := by
  match values with
  | [] => rfl
  | item :: rest => rw [mmsValuesEq, allNanFree, mmsValueEq_self item, mmsValuesEq_self rest]

end

mutual

theorem mmsValueEq_trans (first second third : MmsValue) (left : mmsValueEq first second = true)
    (right : mmsValueEq second third = true) : mmsValueEq first third = true := by
  cases second with
  | float32 bits =>
    cases first <;> cases third <;> first | cases left | cases right | exact float32Eq_trans left right
  | float64 bits =>
    cases first <;> cases third <;> first | cases left | cases right | exact float64Eq_trans left right
  | array items | struct items =>
    cases first <;> cases third <;> first | cases left | cases right | exact mmsValuesEq_trans _ items _ left right
  | _ =>
    rw [eq_of_mmsValueEq left rfl]
    exact right

theorem mmsValuesEq_trans (first second third : List MmsValue) (left : mmsValuesEq first second = true)
    (right : mmsValuesEq second third = true) : mmsValuesEq first third = true := by
  match first, second, third with
  | [], [], _ => exact right
  | item :: rest, item' :: rest', item'' :: rest'' =>
    rw [mmsValuesEq, Bool.and_eq_true] at left right ⊢
    exact ⟨mmsValueEq_trans item item' item'' left.1 right.1, mmsValuesEq_trans rest rest' rest'' left.2 right.2⟩
  | _ :: _, _ :: _, [] => cases right
  | [], _ :: _, _ => cases left
  | _ :: _, [], _ => cases left

end

mutual

def turnZeros : MmsValue → MmsValue
  | .float32 bits => .float32 (if bits &&& 0x7fffffff = 0 then bits ^^^ 0x80000000 else bits)
  | .float64 bits => .float64 (if bits &&& 0x7fffffffffffffff = 0 then bits ^^^ 0x8000000000000000 else bits)
  | .array items => .array (turnAllZeros items)
  | .struct items => .struct (turnAllZeros items)
  | value => value

def turnAllZeros : List MmsValue → List MmsValue
  | [] => []
  | item :: rest => turnZeros item :: turnAllZeros rest

end

theorem xor_and_distrib {width : Nat} (left right mask : BitVec width) :
    (left ^^^ right) &&& mask = (left &&& mask) ^^^ (right &&& mask) := by
  ext place
  simp [Bool.and_xor_distrib_right]

theorem float32Eq_turned {bits : UInt32} (zero : bits &&& 0x7fffffff = 0) :
    float32Eq bits (bits ^^^ 0x80000000) = true ∧ bits ^^^ 0x80000000 ≠ bits := by
  have magnitude : (bits ^^^ 0x80000000) &&& 0x7fffffff = 0 := by
    apply UInt32.toBitVec_inj.mp
    rw [UInt32.toBitVec_and, UInt32.toBitVec_xor, xor_and_distrib, ← UInt32.toBitVec_and, zero]
    rfl
  constructor
  · simp [float32Eq, zero, magnitude]
  · intro same
    have bit := congrArg (bits ^^^ ·) same
    rw [← UInt32.xor_assoc, UInt32.xor_self, UInt32.zero_xor] at bit
    exact absurd bit (by decide)

theorem float64Eq_turned {bits : UInt64} (zero : bits &&& 0x7fffffffffffffff = 0) :
    float64Eq bits (bits ^^^ 0x8000000000000000) = true ∧ bits ^^^ 0x8000000000000000 ≠ bits := by
  have magnitude : (bits ^^^ 0x8000000000000000) &&& 0x7fffffffffffffff = 0 := by
    apply UInt64.toBitVec_inj.mp
    rw [UInt64.toBitVec_and, UInt64.toBitVec_xor, xor_and_distrib, ← UInt64.toBitVec_and, zero]
    rfl
  constructor
  · simp [float64Eq, zero, magnitude]
  · intro same
    have bit := congrArg (bits ^^^ ·) same
    rw [← UInt64.xor_assoc, UInt64.xor_self, UInt64.zero_xor] at bit
    exact absurd bit (by decide)

mutual

theorem mmsValueEq_turnZeros (value : MmsValue) (free : nanFree value = true) :
    mmsValueEq value (turnZeros value) = true := by
  cases value with
  | float32 bits =>
    by_cases zero : bits &&& 0x7fffffff = 0
    · rw [turnZeros, if_pos zero]
      exact (float32Eq_turned zero).1
    · rw [turnZeros, if_neg zero, mmsValueEq_self]
      exact free
  | float64 bits =>
    by_cases zero : bits &&& 0x7fffffffffffffff = 0
    · rw [turnZeros, if_pos zero]
      exact (float64Eq_turned zero).1
    · rw [turnZeros, if_neg zero, mmsValueEq_self]
      exact free
  | array items | struct items => exact mmsValuesEq_turnAllZeros items free
  | _ => exact mmsValueEq_self _

theorem mmsValuesEq_turnAllZeros (values : List MmsValue) (free : allNanFree values = true) :
    mmsValuesEq values (turnAllZeros values) = true := by
  match values with
  | [] => rfl
  | item :: rest =>
    rw [allNanFree, Bool.and_eq_true] at free
    rw [turnAllZeros, mmsValuesEq, mmsValueEq_turnZeros item free.1, mmsValuesEq_turnAllZeros rest free.2]
    rfl

end

mutual

theorem zeroFree_of_turnZeros (value : MmsValue) (same : turnZeros value = value) : zeroFree value = true := by
  cases value with
  | float32 bits =>
    rw [zeroFree, bne_iff_ne]
    intro zero
    rw [turnZeros, if_pos zero] at same
    injection same with same
    exact (float32Eq_turned zero).2 same
  | float64 bits =>
    rw [zeroFree, bne_iff_ne]
    intro zero
    rw [turnZeros, if_pos zero] at same
    injection same with same
    exact (float64Eq_turned zero).2 same
  | array items | struct items =>
    injection same with same
    exact allZeroFree_of_turnAllZeros items same
  | _ => rfl

theorem allZeroFree_of_turnAllZeros (values : List MmsValue) (same : turnAllZeros values = values) :
    allZeroFree values = true := by
  match values with
  | [] => rfl
  | item :: rest =>
    injection same with first others
    rw [allZeroFree, zeroFree_of_turnZeros item first, allZeroFree_of_turnAllZeros rest others]
    rfl

end

section Relation

variable {value other : MmsValue}

theorem mmsValueBinaryEqual_self (value : MmsValue) : mmsValueBinaryEqual value value = nestedNanFree value := by
  cases value with
  | float32 bits | float64 bits => simp [mmsValueBinaryEqual, nestedNanFree]
  | _ => exact mmsValueEq_self _

theorem mmsValueBinaryEqual_comm (value other : MmsValue) :
    mmsValueBinaryEqual value other = mmsValueBinaryEqual other value := by
  cases value with
  | float32 bits =>
    cases other with
    | float32 bits' => exact Bool.beq_comm
    | _ => exact mmsValueEq_comm _ _
  | float64 bits =>
    cases other with
    | float64 bits' => exact Bool.beq_comm
    | _ => exact mmsValueEq_comm _ _
  | _ => cases other <;> exact mmsValueEq_comm _ _

theorem mmsValueBinaryEqual_trans {third : MmsValue} (left : mmsValueBinaryEqual value other = true)
    (right : mmsValueBinaryEqual other third = true) : mmsValueBinaryEqual value third = true := by
  cases other with
  | array items => cases value <;> cases third <;>
    first | cases left | cases right | exact mmsValueEq_trans _ (.array items) _ left right
  | struct items => cases value <;> cases third <;>
    first | cases left | cases right | exact mmsValueEq_trans _ (.struct items) _ left right
  | _ =>
    rw [eq_of_mmsValueBinaryEqual left rfl]
    exact right

theorem mmsValueBinaryEqual_eq_iff (value : MmsValue) :
    (∀ other, mmsValueBinaryEqual value other = true ↔ value = other) ↔
      nestedNanFree value = true ∧ nestedZeroFree value = true := by
  constructor
  · intro equality
    have nans : nestedNanFree value = true := by
      rw [← mmsValueBinaryEqual_self]
      exact (equality value).mpr rfl
    refine ⟨nans, ?_⟩
    cases value with
    | array items =>
      have turned := (equality (.array (turnAllZeros items))).mp (mmsValuesEq_turnAllZeros items nans)
      injection turned with turned
      exact allZeroFree_of_turnAllZeros items turned.symm
    | struct items =>
      have turned := (equality (.struct (turnAllZeros items))).mp (mmsValuesEq_turnAllZeros items nans)
      injection turned with turned
      exact allZeroFree_of_turnAllZeros items turned.symm
    | _ => rfl
  · rintro ⟨nans, zeros⟩ other
    constructor
    · intro equal
      rw [mmsValueBinaryEqual_comm] at equal
      exact (eq_of_mmsValueBinaryEqual equal zeros).symm
    · rintro rfl
      rw [mmsValueBinaryEqual_self]
      exact nans

theorem octets_eq_iff (fits : (octets value).length ≤ 65535) : octets value = octets other ↔ value = other :=
  ⟨fun same => mmsValueToMmsData_injective (Mms.MmsData.encode_injective fits same), fun same => same ▸ rfl⟩

variable (oper sbow : OperParams)

def SameCommand : Prop :=
  oper.ctlVal = sbow.ctlVal ∧ oper.origin = sbow.origin ∧ oper.ctlNum = sbow.ctlNum ∧
    oper.interlockCheck = sbow.interlockCheck ∧ oper.synchroCheck = sbow.synchroCheck ∧ oper.test = sbow.test

theorem paramsConsistent_iff : paramsConsistent oper sbow = true ↔ mmsValueBinaryEqual oper.ctlVal sbow.ctlVal = true ∧
      SameCommand { oper with ctlVal := sbow.ctlVal } sbow := by
  simp only [paramsConsistent, SameCommand, Bool.and_eq_true, beq_iff_eq, true_and, and_assoc]

end Relation

/-- The comparison is symmetric and transitive for all values. It is equality of bit patterns, and
of the octets on the wire, exactly for a value without a NaN and without a zero inside an array or a
structure. -/
theorem comparison_is_bit_equality_iff (value : MmsValue) :
    ((∀ other, mmsValueBinaryEqual value other = true ↔ value = other) ↔
        nestedNanFree value = true ∧ nestedZeroFree value = true) ∧
      ((octets value).length ≤ 65535 →
        ((∀ other, mmsValueBinaryEqual value other = true ↔ octets value = octets other) ↔
          nestedNanFree value = true ∧ nestedZeroFree value = true)) ∧
      (mmsValueBinaryEqual value value = true ↔ nestedNanFree value = true) ∧
      (∀ other, mmsValueBinaryEqual value other = true → mmsValueBinaryEqual other value = true) ∧
      (∀ other third, mmsValueBinaryEqual value other = true → mmsValueBinaryEqual other third = true →
        mmsValueBinaryEqual value third = true) ∧
      (nestedNanFree value = true ∧ nestedZeroFree value = true →
        ∀ oper sbow : OperParams, oper.ctlVal = value →
        (paramsConsistent oper sbow = true ↔ SameCommand oper sbow)) := by
  refine ⟨mmsValueBinaryEqual_eq_iff value, ?_, ?_, ?_, ?_, ?_⟩
  · intro fits
    rw [← mmsValueBinaryEqual_eq_iff value]
    apply forall_congr'
    intro other
    rw [octets_eq_iff fits]
  · rw [mmsValueBinaryEqual_self]
  · intro other equal
    rw [mmsValueBinaryEqual_comm]
    exact equal
  · intro other third
    exact mmsValueBinaryEqual_trans
  · rintro ordinary oper sbow rfl
    rw [paramsConsistent_iff, (mmsValueBinaryEqual_eq_iff oper.ctlVal).mpr ordinary sbow.ctlVal]
    simp only [SameCommand, true_and]

/-- The structure of an analogue value with a NaN differs from itself, and the two zeros are the
same in one. -/
theorem analogue_values_compared_as_numbers :
    mmsValueBinaryEqual (.struct [.float32 0x7fc00000]) (.struct [.float32 0x7fc00000]) = false ∧
      mmsValueBinaryEqual (.struct [.float32 0x00000000]) (.struct [.float32 0x80000000]) = true ∧
      octets (.struct [.float32 0x00000000]) ≠ octets (.struct [.float32 0x80000000]) := by
  refine ⟨by decide, by decide, ?_⟩
  decide

end Iec61850.Control
