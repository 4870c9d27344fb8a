import Mathlib.Logic.Basic

/-!
The bit flags of a report control block: trigger options, option fields, and the per-member
inclusion flag that says why a member appears in a report.
-/

namespace Iec61850.Reporting

structure TriggerOptions where
  bits : UInt8
  deriving DecidableEq, Repr, Inhabited

namespace TriggerOptions

def dataChanged : TriggerOptions := ⟨0x01⟩
def qualityChanged : TriggerOptions := ⟨0x02⟩
def dataUpdate : TriggerOptions := ⟨0x04⟩
def integrity : TriggerOptions := ⟨0x08⟩
def gi : TriggerOptions := ⟨0x10⟩

def contains (options flag : TriggerOptions) : Bool := options.bits &&& flag.bits == flag.bits

def fromBerBitString : List UInt8 → Option TriggerOptions
  | _padding :: data :: _ =>
    let masked (mask : UInt8) : UInt8 := data &&& mask
    let raw : UInt8 := (masked 0x40).shiftRight 6 ||| (masked 0x20).shiftRight 4
      ||| (masked 0x10).shiftRight 2 ||| masked 0x08 ||| (masked 0x04).shiftLeft 2
    some ⟨raw &&& 0x1f⟩
  | _ => none

end TriggerOptions

structure OptFlds where
  bits : UInt16
  deriving DecidableEq, Repr, Inhabited

namespace OptFlds

def seqNum : OptFlds := ⟨0x001⟩
def timeStamp : OptFlds := ⟨0x002⟩
def reason : OptFlds := ⟨0x004⟩
def dataSet : OptFlds := ⟨0x008⟩
def dataReference : OptFlds := ⟨0x010⟩
def bufferOverflow : OptFlds := ⟨0x020⟩
def entryId : OptFlds := ⟨0x040⟩
def confRev : OptFlds := ⟨0x080⟩
def segmentation : OptFlds := ⟨0x100⟩

variable (fields flag other : OptFlds)

def contains : Bool := fields.bits &&& flag.bits == flag.bits

def union : OptFlds := ⟨fields.bits ||| other.bits⟩

/-- An unbuffered control block never advertises BufOvfl or EntryID. -/
def maskUrcb : OptFlds := ⟨fields.bits &&& ~~~(bufferOverflow.bits ||| entryId.bits)⟩

def fromBerBitString : List UInt8 → Option OptFlds
  | _padding :: byte0 :: byte1 :: _ =>
    let low (mask : UInt16) : UInt16 := byte0.toUInt16 &&& mask
    let high (mask : UInt16) : UInt16 := byte1.toUInt16 &&& mask
    some ⟨(low 0x40).shiftRight 6 ||| (low 0x20).shiftRight 4 ||| (low 0x10).shiftRight 2
      ||| low 0x08 ||| (low 0x04).shiftLeft 2 ||| (low 0x02).shiftLeft 4 ||| (low 0x01).shiftLeft 6
      ||| high 0x80 ||| (high 0x40).shiftLeft 2⟩
  | _ => none

theorem contains_union_of_disjoint {fields added flag : OptFlds} (disjoint : added.bits &&& flag.bits = 0) :
    (fields.union added).contains flag = fields.contains flag := by
  have masked : (fields.bits ||| added.bits) &&& flag.bits = fields.bits &&& flag.bits := by
    apply UInt16.toBitVec_inj.mp
    have zero := congrArg UInt16.toBitVec disjoint
    simp only [UInt16.toBitVec_and, UInt16.toBitVec_or] at zero ⊢
    ext index bound
    have bit : (added.bits.toBitVec.getLsbD index && flag.bits.toBitVec.getLsbD index) = false := by
      simpa using congrArg (fun bits => bits.getLsbD index) zero
    grind
  simp only [contains, union, masked]

theorem contains_union_self (fields flag : OptFlds) : (fields.union flag).contains flag = true := by
  have kept : (fields.bits ||| flag.bits) &&& flag.bits = flag.bits := by
    apply UInt16.toBitVec_inj.mp
    simp only [UInt16.toBitVec_and, UInt16.toBitVec_or]
    ext index bound
    grind
  simp only [contains, union, kept, beq_self_eq_true]

theorem contains_of_empty {flag : OptFlds} (some : flag.bits ≠ 0) : (⟨0⟩ : OptFlds).contains flag = false := by
  simp [contains, Ne.symm some]

end OptFlds

structure InclusionFlag where
  bits : UInt8
  deriving DecidableEq, Repr, Inhabited

namespace InclusionFlag

def none : InclusionFlag := ⟨0⟩
def valueUpdate : InclusionFlag := ⟨1⟩
def valueChanged : InclusionFlag := ⟨2⟩
def qualityChanged : InclusionFlag := ⟨4⟩

variable (flag other : InclusionFlag) (isIntegrity isGi : Bool)

def hasTrigger : Bool := flag.bits &&& 0x07 != 0

def contains : Bool := flag.bits &&& other.bits == other.bits

def union : InclusionFlag := ⟨flag.bits ||| other.bits⟩

def toReasonBitString : Vector UInt8 2 :=
  let change := if flag.contains valueChanged then 0x40 else 0
  let quality := if flag.contains qualityChanged then 0x20 else 0
  let update := if flag.contains valueUpdate then 0x10 else 0
  let integrity := if isIntegrity then 0x08 else 0
  let interrogation := if isGi then 0x04 else 0
  #v[2, change ||| quality ||| update ||| integrity ||| interrogation]

end InclusionFlag

end Iec61850.Reporting
