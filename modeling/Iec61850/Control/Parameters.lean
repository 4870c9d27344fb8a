import Iec61850.Control.Model

/-!
The structures of a control command, as the client builds them and as the server reads them.
-/

namespace Iec61850.Client

open Model

structure OriginValue where
  orCat : Int32
  orIdent : List UInt8
  deriving DecidableEq

def u8OfUnsigned (n : UInt64) : Option UInt8 := if n < 256 then some n.toUInt8 else none

def u8OfInteger (n : Int64) : Option UInt8 :=
  if 0 ≤ n ∧ n < 256 then some n.toUInt64.toUInt8 else none

def parseCtlNum : MmsValue → Option UInt8
  | .unsigned n => u8OfUnsigned n
  | .integer n => u8OfInteger n
  | _ => none

def originToMms (origin : OriginValue) : MmsValue :=
  .struct [.integer origin.orCat.toInt64, .octetString origin.orIdent]

def checkBits (synchroCheck interlockCheck : Bool) : MmsValue :=
  .bitString 6 [(if synchroCheck then 0x80 else 0) ||| (if interlockCheck then 0x40 else 0)]

def buildOperStruct (ctlVal : MmsValue) (origin : OriginValue) (ctlNum : UInt8) (t : Vector UInt8 8)
    (test synchroCheck interlockCheck : Bool) : MmsValue :=
  .struct [ctlVal, originToMms origin, .unsigned ctlNum.toUInt64, .utcTime t, .boolean test,
    checkBits synchroCheck interlockCheck]

def buildCancelStruct (ctlVal : MmsValue) (origin : OriginValue) (ctlNum : UInt8) (t : Vector UInt8 8) (test : Bool) :
    MmsValue :=
  .struct [ctlVal, originToMms origin, .unsigned ctlNum.toUInt64, .utcTime t, .boolean test]

/-- Seconds in four octets and the fraction of a second in three. -/
def msToUtcTime (ms : UInt64) : Vector UInt8 8 :=
  let secs := ms.toNat / 1000
  let frac24 := ms.toNat % 1000 * 2 ^ 24 / 1000
  #v[.ofNat (secs / 2 ^ 24), .ofNat (secs / 2 ^ 16), .ofNat (secs / 2 ^ 8), .ofNat secs, .ofNat (frac24 / 2 ^ 16),
    .ofNat (frac24 / 2 ^ 8), .ofNat frac24, 0]

/-- The structure with an activation time, whose place is behind the control value. -/
def withOperTm (operTm : Vector UInt8 8) : MmsValue → MmsValue
  | .struct (ctlVal :: members) => .struct (ctlVal :: .utcTime operTm :: members)
  | v => v

end Iec61850.Client

namespace Iec61850.Control

open Model Client

def utcTimeToMs (b : Vector UInt8 8) : UInt64 :=
  let secs := b[0].toNat * 2 ^ 24 + b[1].toNat * 2 ^ 16 + b[2].toNat * 2 ^ 8 + b[3].toNat
  let frac24 := b[4].toNat * 2 ^ 16 + b[5].toNat * 2 ^ 8 + b[6].toNat
  .ofNat (secs * 1000 + frac24 * 1000 / 2 ^ 24)

/-- `orCat` is narrowed to 32 bits. -/
def OriginValue.fromMmsValue : MmsValue → Option OriginValue
  | .struct [.integer cat, .octetString ident] => some ⟨cat.toInt32, ident⟩
  | _ => none

/-- `ctlNum` is refused outside 0 to 255. -/
def ctlNumFromMmsValue (v : MmsValue) : Option UInt8 := parseCtlNum v

def bitStringLen (padding : UInt8) (data : List UInt8) : Option Nat :=
  if 7 < padding ∨ data = [] ∧ padding ≠ 0 then none else some (data.length * 8 - padding.toNat)

def checkFromMmsValue : MmsValue → Option (Bool × Bool)
  | .bitString padding data =>
    if (bitStringLen padding data).any (2 ≤ ·) then
      data.head?.map fun byte => (byte &&& 0x80 != 0, byte &&& 0x40 != 0)
    else
      none
  | _ => none

namespace OperParams

def fromFields (ctlVal : MmsValue) (operTmMs : UInt64) : List MmsValue → Option OperParams
  | [origin, ctlNum, .utcTime t, .boolean test, check] => do
      let origin ← OriginValue.fromMmsValue origin
      let ctlNum ← ctlNumFromMmsValue ctlNum
      let (synchroCheck, interlockCheck) ← checkFromMmsValue check
      return { ctlVal, operTmMs, origin, ctlNum, t, test, synchroCheck, interlockCheck }
  | _ => none

def fromMmsValue : MmsValue → Option OperParams
  | .struct [ctlVal, origin, ctlNum, t, test, check] => fromFields ctlVal 0 [origin, ctlNum, t, test, check]
  | .struct [ctlVal, .utcTime operTm, origin, ctlNum, t, test, check] =>
    fromFields ctlVal (utcTimeToMs operTm) [origin, ctlNum, t, test, check]
  | _ => none

end OperParams

structure CancelParams where
  ctlVal : Option MmsValue
  origin : OriginValue
  ctlNum : UInt8
  t : Vector UInt8 8
  test : Bool

namespace CancelParams

def fromFields (ctlVal : MmsValue) : List MmsValue → Option CancelParams
  | [origin, ctlNum, .utcTime t, .boolean test] => do
      let origin ← OriginValue.fromMmsValue origin
      let ctlNum ← ctlNumFromMmsValue ctlNum
      return { ctlVal := some ctlVal, origin, ctlNum, t, test }
  | _ => none

def fromMmsValue : MmsValue → Option CancelParams
  | .struct [ctlVal, origin, ctlNum, t, test] => fromFields ctlVal [origin, ctlNum, t, test]
  | .struct [ctlVal, .utcTime _, origin, ctlNum, t, test] => fromFields ctlVal [origin, ctlNum, t, test]
  | _ => none

end CancelParams

def identification : MmsValue → Option (MmsValue × MmsValue)
  | .struct (_ :: .utcTime _ :: origin :: ctlNum :: _) => some (origin, ctlNum)
  | .struct (_ :: origin :: ctlNum :: _) => some (origin, ctlNum)
  | _ => none

def wireNumbers (v : MmsValue) : Option (Int × Int) :=
  match identification v with
  | some (.struct (.integer cat :: _), .integer num) => some (cat.toInt, num.toInt)
  | some (.struct (.integer cat :: _), .unsigned num) => some (cat.toInt, num.toNat)
  | _ => none

/-- The origin and the number that were parsed are those on the wire. -/
def Unchanged (v : MmsValue) (origin : OriginValue) (ctlNum : UInt8) : Prop :=
  wireNumbers v = some (origin.orCat.toInt, (ctlNum.toNat : Int))

def OrCatInRange (v : MmsValue) : Prop := ∀ cat ∈ (wireNumbers v).map Prod.fst, -2 ^ 31 ≤ cat ∧ cat < 2 ^ 31

theorem ctlNum_read_back (ctlNum : UInt8) : ctlNumFromMmsValue (.unsigned ctlNum.toUInt64) = some ctlNum := by
  have small : ctlNum.toUInt64 < 256 := by
    rw [UInt64.lt_iff_toNat_lt, UInt8.toNat_toUInt64]
    exact ctlNum.toNat_lt
  simp [ctlNumFromMmsValue, parseCtlNum, u8OfUnsigned, small]

theorem check_read_back (synchroCheck interlockCheck : Bool) :
    checkFromMmsValue (checkBits synchroCheck interlockCheck) = some (synchroCheck, interlockCheck) := by
  cases synchroCheck <;> cases interlockCheck <;> decide

variable {ctlNum v : MmsValue} {origin : OriginValue} {ctlVal : MmsValue} {rest : List MmsValue}

theorem OriginValue.of_fromMmsValue (parsed : fromMmsValue v = some origin) :
    ∃ cat ident, v = .struct [.integer cat, .octetString ident] ∧ origin.orCat = cat.toInt32 := by
  unfold fromMmsValue at parsed
  split at parsed
  · cases parsed
    exact ⟨_, _, rfl, rfl⟩
  · cases parsed

theorem OperParams.of_fromFields {operTmMs : UInt64} {origin : MmsValue}
    {params : OperParams} (accepted : fromFields ctlVal operTmMs (origin :: ctlNum :: rest) = some params) :
    OriginValue.fromMmsValue origin = some params.origin ∧ ctlNumFromMmsValue ctlNum = some params.ctlNum := by
  unfold fromFields at accepted
  split at accepted
  · rename_i fields
    obtain ⟨rfl, rfl, -⟩ := List.cons_eq_cons.mp fields |>.imp id List.cons_eq_cons.mp
    simp only [Option.bind_eq_bind, Option.bind_eq_some_iff] at accepted
    obtain ⟨_, read, _, numbered, _, _, same⟩ := accepted
    cases same
    exact ⟨read, numbered⟩
  · cases accepted

theorem CancelParams.of_fromFields {origin : MmsValue}
    {params : CancelParams} (accepted : fromFields ctlVal (origin :: ctlNum :: rest) = some params) :
    OriginValue.fromMmsValue origin = some params.origin ∧ ctlNumFromMmsValue ctlNum = some params.ctlNum := by
  unfold fromFields at accepted
  split at accepted
  · rename_i fields
    obtain ⟨rfl, rfl, -⟩ := List.cons_eq_cons.mp fields |>.imp id List.cons_eq_cons.mp
    simp only [Option.bind_eq_bind, Option.bind_eq_some_iff] at accepted
    obtain ⟨_, read, _, numbered, same⟩ := accepted
    cases same
    exact ⟨read, numbered⟩
  · cases accepted

theorem unchanged_iff {originValue num : MmsValue} {ctlNum : UInt8}
    (identified : ∀ cat ident, originValue = .struct [.integer cat, .octetString ident] → identification v = some
      (originValue, num)) (read : OriginValue.fromMmsValue originValue = some origin)
    (numbered : ctlNumFromMmsValue num = some ctlNum) :
    Unchanged v origin ctlNum ↔ OrCatInRange v := by
  obtain ⟨cat, ident, shape, narrowed⟩ := OriginValue.of_fromMmsValue read
  have wire : wireNumbers v = some (cat.toInt, (ctlNum.toNat : Int)) := by
    rw [wireNumbers, identified cat ident shape, shape]
    cases num with
    | unsigned n =>
      simp only [ctlNumFromMmsValue, parseCtlNum, u8OfUnsigned, Option.ite_none_right_eq_some, Option.some.injEq,
        UInt64.lt_iff_toNat_lt] at numbered
      obtain ⟨small, rfl⟩ := numbered
      have same : n.toUInt8.toNat = n.toNat := Nat.mod_eq_of_lt small
      rw [same]
    | integer n =>
      simp only [ctlNumFromMmsValue, parseCtlNum, u8OfInteger, Option.ite_none_right_eq_some, Option.some.injEq,
        Int64.le_iff_toInt_le, Int64.lt_iff_toInt_lt] at numbered
      obtain ⟨⟨nonneg, small⟩, rfl⟩ := numbered
      have positive : n.toInt = n.toUInt64.toNat := by
        have signed : n.toInt = if 2 * n.toUInt64.toNat < 2 ^ 64 then (n.toUInt64.toNat : Int)
            else n.toUInt64.toNat - (2 ^ 64 : Nat) := BitVec.toInt_eq_toNat_cond n.toBitVec
        have bound := n.toUInt64.toNat_lt
        have zero : (0 : Int64).toInt = 0 := rfl
        split at signed <;> omega
      have same : n.toUInt64.toUInt8.toNat = n.toUInt64.toNat := by
        have limit : (256 : Int64).toInt = 256 := rfl
        rw [UInt64.toNat_toUInt8]
        omega
      rw [same, ← positive]
    | _ => cases numbered
  rw [Unchanged, OrCatInRange, wire, narrowed, Int64.toInt_toInt32]
  simp only [Option.some.injEq, Prod.mk.injEq, and_true, Option.map_some, Option.mem_def, forall_eq', Int.bmod]
  omega

theorem utcTimeToMs_msToUtcTime (ms : UInt64) : (utcTimeToMs (msToUtcTime ms)).toNat =
    ms.toNat / 1000 % 2 ^ 32 * 1000 + ms.toNat % 1000 * 2 ^ 24 / 1000 * 1000 / 2 ^ 24 := by
  have octets (n : Nat) : (UInt8.ofNat n).toNat = n % 256 := UInt8.toNat_ofNat'
  have four (n : Nat) : n / 2 ^ 24 % 256 * 2 ^ 24 + n / 2 ^ 16 % 256 * 2 ^ 16 + n / 2 ^ 8 % 256 * 2 ^ 8 + n % 256 =
      n % 2 ^ 32 := by omega
  have three (n : Nat) (small : n < 2 ^ 24) :
      n / 2 ^ 16 % 256 * 2 ^ 16 + n / 2 ^ 8 % 256 * 2 ^ 8 + n % 256 = n := by omega
  have fraction : ms.toNat % 1000 * 2 ^ 24 / 1000 < 2 ^ 24 := by omega
  simp only [utcTimeToMs, msToUtcTime, UInt64.toNat_ofNat', Vector.getElem_mk, List.getElem_toArray,
    List.getElem_cons_zero, List.getElem_cons_succ, octets]
  rw [four, three _ fraction]
  omega

theorem utcTimeToMs_eq_iff (ms : UInt64) :
    utcTimeToMs (msToUtcTime ms) = ms ↔ ms.toNat < 2 ^ 32 * 1000 ∧ ms.toNat % 125 = 0 := by
  have parts : ∀ rest < 1000, rest * 2 ^ 24 / 1000 * 1000 / 2 ^ 24 ≤ rest ∧
      (rest * 2 ^ 24 / 1000 * 1000 / 2 ^ 24 = rest ↔ rest % 125 = 0) := by decide +kernel
  have part := parts (ms.toNat % 1000) (Nat.mod_lt _ (by decide))
  rw [← UInt64.toNat_inj, utcTimeToMs_msToUtcTime]
  generalize ms.toNat % 1000 * 2 ^ 24 / 1000 * 1000 / 2 ^ 24 = back at part
  omega

theorem OperParams.fromFields_read_back (ctlVal : MmsValue) (operTmMs : UInt64) (origin : Client.OriginValue)
    (ctlNum : UInt8) (t : Vector UInt8 8) (test synchroCheck interlockCheck : Bool) :
    fromFields ctlVal operTmMs [originToMms origin, .unsigned ctlNum.toUInt64, .utcTime t, .boolean test,
        checkBits synchroCheck interlockCheck] =
      some ⟨ctlVal, operTmMs, ⟨origin.orCat, origin.orIdent⟩, ctlNum, t, test, synchroCheck,
        interlockCheck⟩ := by
  simp [fromFields, originToMms, OriginValue.fromMmsValue, ctlNum_read_back, check_read_back]

theorem CancelParams.fromFields_read_back (ctlVal : MmsValue) (origin : Client.OriginValue) (ctlNum : UInt8)
    (t : Vector UInt8 8) (test : Bool) :
    fromFields ctlVal [originToMms origin, .unsigned ctlNum.toUInt64, .utcTime t, .boolean test] =
      some ⟨some ctlVal, ⟨origin.orCat, origin.orIdent⟩, ctlNum, t, test⟩ := by
  simp [fromFields, originToMms, OriginValue.fromMmsValue, ctlNum_read_back]

/-- What the client builds is read as it was meant. With an activation time in it a Cancel still is,
and an Oper is exactly if the milliseconds are whole parts of 2^24. Of a structure that is accepted
the category is the one on the wire exactly if that is an INT32. -/
theorem control_structures_agree_iff (ctlVal : MmsValue) (origin : Client.OriginValue) (ctlNum : UInt8)
    (t : Vector UInt8 8) (test synchroCheck interlockCheck : Bool) (ms : UInt64) (v : MmsValue) :
    let oper := buildOperStruct ctlVal origin ctlNum t test synchroCheck interlockCheck
    let cancel := buildCancelStruct ctlVal origin ctlNum t test
    let operParams : UInt64 → OperParams := fun operTmMs =>
      ⟨ctlVal, operTmMs, ⟨origin.orCat, origin.orIdent⟩, ctlNum, t, test, synchroCheck, interlockCheck⟩
    let cancelParams : CancelParams := ⟨some ctlVal, ⟨origin.orCat, origin.orIdent⟩, ctlNum, t, test⟩
    OperParams.fromMmsValue oper = some (operParams 0) ∧
    (OperParams.fromMmsValue (withOperTm (msToUtcTime ms) oper) = some (operParams ms) ↔
      ms.toNat < 2 ^ 32 * 1000 ∧ ms.toNat % 125 = 0) ∧
    CancelParams.fromMmsValue cancel = some cancelParams ∧
    CancelParams.fromMmsValue (withOperTm (msToUtcTime ms) cancel) = some cancelParams ∧
    (∀ params, OperParams.fromMmsValue v = some params →
      (Unchanged v params.origin params.ctlNum ↔ OrCatInRange v)) ∧
    ∀ params, CancelParams.fromMmsValue v = some params →
      (Unchanged v params.origin params.ctlNum ↔ OrCatInRange v) := by
  refine ⟨OperParams.fromFields_read_back .., ?_, CancelParams.fromFields_read_back ..,
    CancelParams.fromFields_read_back .., ?_, ?_⟩
  · have read : OperParams.fromMmsValue (withOperTm (msToUtcTime ms)
        (buildOperStruct ctlVal origin ctlNum t test synchroCheck interlockCheck)) = _ :=
      OperParams.fromFields_read_back ctlVal (utcTimeToMs (msToUtcTime ms)) ..
    rw [read, Option.some.injEq, OperParams.mk.injEq, ← utcTimeToMs_eq_iff]
    simp only [and_true, true_and]
  · intro params accepted
    unfold OperParams.fromMmsValue at accepted
    split at accepted
    · obtain ⟨read, numbered⟩ := OperParams.of_fromFields accepted
      exact unchanged_iff (by rintro cat ident rfl; rfl) read numbered
    · obtain ⟨read, numbered⟩ := OperParams.of_fromFields accepted
      exact unchanged_iff (fun _ _ _ => rfl) read numbered
    · cases accepted
  · intro params accepted
    unfold CancelParams.fromMmsValue at accepted
    split at accepted
    · obtain ⟨read, numbered⟩ := CancelParams.of_fromFields accepted
      exact unchanged_iff (by rintro cat ident rfl; rfl) read numbered
    · obtain ⟨read, numbered⟩ := CancelParams.of_fromFields accepted
      exact unchanged_iff (fun _ _ _ => rfl) read numbered
    · cases accepted

/-- A category of 2^32 + 1 is accepted as bay control, and an activation time of one millisecond is
read as zero. -/
theorem category_narrowed :
    (OperParams.fromMmsValue (.struct [.boolean true, .struct [.integer 4294967297, .octetString []], .unsigned 1,
        .utcTime (Vector.replicate 8 0), .boolean false, .bitString 6 [0]])).map (fun params => params.origin.orCat) =
      some 1 ∧
    (OperParams.fromMmsValue (withOperTm (msToUtcTime 1) (buildOperStruct (.boolean true) ⟨1, []⟩ 1
        (Vector.replicate 8 0) false false false))).map (fun params => params.operTmMs) = some 0 := by
  decide +kernel

end Iec61850.Control
