import Iec61850.Mms.Services

/-!
Alternate access: the selectors a caller may build, the length an encoding is predicted to have, and
the decoder.
-/

namespace Iec61850.Mms

open Wire Wire.Fallible

namespace AlternateAccess

def nestingDepth : AlternateAccess → Nat
  | .index _ => 0
  | .indexComponent _ path => (componentNames path).length
  | .component _ none => 0
  | .component _ (some nested) => nestingDepth nested + 1

def countSegments : List String → Except MmsError Nat
  | [] => .ok 0
  | segment :: rest =>
    if segment.isEmpty then
      .error (.alternateAccessUnsupported "component path contains an empty segment")
    else if maxIdentifierLen < stringLen segment then
      .error (.identifierTooLong (stringLen segment))
    else
      (countSegments rest).map (· + 1)

variable (val data : List UInt8) (depth maxDepth : UInt8) (access : AlternateAccess) (index : UInt32)
  (path component : String)

def validateComponentPath : Except MmsError Nat :=
  if component.isEmpty then
    .error (.alternateAccessUnsupported "component is empty")
  else
    countSegments (componentNames component)

def checkNestingDepth (depth : Nat) : Except MmsError Unit :=
  if MmsData.maxDataNestingDepth.toNat < depth then
    .error (.nestingLevelExceeded MmsData.maxDataNestingDepth (if depth < 256 then UInt8.ofNat depth else 255))
  else
    .ok ()

/-- The segments are wrapped from the last one outwards. -/
def componentChain (tail : Option AlternateAccess) : Except MmsError AlternateAccess := do
  let segments ← validateComponentPath path
  let tailDepth := tail.elim 0 fun tail => 1 + tail.nestingDepth
  checkNestingDepth (segments - 1 + tailDepth)
  match (componentNames path).foldr (fun segment nested => some (.component segment nested)) tail with
  | some access => .ok access
  | none => .error (.alternateAccessUnsupported "component is empty")

def buildIndex : AlternateAccess := .index index

def buildIndexComponent : Except MmsError AlternateAccess := do
  let segments ← validateComponentPath component
  checkNestingDepth segments
  return .indexComponent index component

def buildComponent : Except MmsError AlternateAccess := componentChain component none

def buildComponentThen (tail : AlternateAccess) : Except MmsError AlternateAccess :=
  componentChain component (some tail)

def encode : List UInt8 := encodeTlv 0x30 access.encodeMember

def componentChainLen : List String → Nat
  | [] => 0
  | [last] => 1 + lengthSize (stringLen last) + stringLen last
  | head :: rest =>
    let nested := componentChainLen rest
    let inner := (1 + lengthSize (stringLen head) + stringLen head) + (1 + lengthSize nested + nested)
    1 + lengthSize inner + inner

def altAccessMemberLen : AlternateAccess → Nat
  | .index position =>
    let n := (encodeUnsignedIntMinimal position.toUInt64).length
    1 + lengthSize n + n
  | .indexComponent position path =>
    let idxN := (encodeUnsignedIntMinimal position.toUInt64).length
    let chainN := componentChainLen (componentNames path)
    let inner := (1 + lengthSize idxN + idxN) + (1 + lengthSize chainN + chainN)
    1 + lengthSize inner + inner
  | .component name none => 1 + lengthSize (stringLen name) + stringLen name
  | .component name (some nested) =>
    let nestedN := altAccessMemberLen nested
    let inner := (1 + lengthSize (stringLen name) + stringLen name) + (1 + lengthSize nestedN + nestedN)
    1 + lengthSize inner + inner

def encodedLen : Nat :=
  let inner := access.altAccessMemberLen
  1 + lengthSize inner + inner

def altAccessSequenceBody : Fallible MmsError (List UInt8 × Nat) := do
  if data.isEmpty then
    refuse .truncatedPdu
  else
    let first ← byteAt data 0
    if first ≠ 0x30 then
      refuse (.invalidTag 0x30 first)
    else
      let element ← readElement data
      return (element.content, element.consumed)

def decodeComponentIdentifier : Fallible MmsError String := do
  let name ← decodeUtf8 val
  if name.isEmpty then
    refuse (.alternateAccessUnsupported "component segment is empty")
  else if maxIdentifierLen < stringLen name then
    refuse (.identifierTooLong (stringLen name))
  else
    return name

/-- One member of a chain; `nested` decodes the sequence behind a name that is not the last. What
follows the member is not looked at. -/
def decodeComponentChainMember (nested : List UInt8 → Fallible MmsError String) (data : List UInt8) :
    Fallible MmsError String := do
  let element ← readElement data
  match element.tag with
  | 0x81 => decodeComponentIdentifier element.content
  | 0xa0 =>
    if element.content.isEmpty then
      refuse .truncatedPdu
    else if (← byteAt element.content 0) ≠ 0x80 then
      refuse (.alternateAccessUnsupported
        "nested selectAlternateAccess: only accessSelection.component is supported")
    else
      let selection ← readElement element.content
      let head ← decodeComponentIdentifier selection.content
      let rest ← nested (← sliceFrom element.content selection.consumed)
      return head ++ "$" ++ rest
  | _ => refuse (.alternateAccessUnsupported "unknown component chain selector tag")

def behind {α : Type} (decode : UInt8 → List UInt8 → Fallible MmsError α) (tail : List UInt8) :
    Fallible MmsError α := do
  let below ← nextDepth depth
  decode below tail

/-- The sequence of a chain, with the levels left below the ceiling counted down. The octets behind
it are dropped. -/
def decodeComponentChainSequence (maxDepth : UInt8) : Nat → UInt8 → List UInt8 → Fallible MmsError String
  | 0, depth, _ => refuse (.nestingLevelExceeded maxDepth depth)
  | levels + 1, depth, data => do
      let (inner, _) ← altAccessSequenceBody data
      decodeComponentChainMember (behind depth (decodeComponentChainSequence maxDepth levels)) inner

section

variable (nested : List UInt8 → Fallible MmsError AlternateAccess) (chain : List UInt8 → Fallible MmsError String)

/-- A selection and the access behind it: any access behind a component, a chain of components
behind an index. -/
def decodeSelectAlternateAccess (data : List UInt8) : Fallible MmsError AlternateAccess := do
  if data.isEmpty then
    refuse .truncatedPdu
  else
    let selectionTag ← byteAt data 0
    if selectionTag ≠ 0x80 ∧ selectionTag ≠ 0x81 then
      refuse (.alternateAccessUnsupported "selectAlternateAccess: indexRange and allElements are not supported")
    else
      let selection ← readElement data
      let tail ← sliceFrom data selection.consumed
      if selectionTag = 0x81 then
        let index ← decodeUnsignedInt selection.content
        let component ← chain tail
        return .indexComponent index.toUInt32 component
      else
        let component ← decodeComponentIdentifier selection.content
        let access ← nested tail
        return .component component (some access)

def decodeAltAccessMember (data : List UInt8) : Fallible MmsError (AlternateAccess × Nat) := do
  let element ← readElement data
  match element.tag with
  | 0x82 =>
    let index ← decodeUnsignedInt element.content
    return (.index index.toUInt32, element.consumed)
  | 0x81 =>
    let component ← decodeComponentIdentifier element.content
    return (.component component none, element.consumed)
  | 0xa0 =>
    let access ← decodeSelectAlternateAccess nested chain element.content
    return (access, element.consumed)
  | 0xa3 => refuse (.alternateAccessUnsupported "selectAccess.indexRange is not supported")
  | 0x84 => refuse (.alternateAccessUnsupported "selectAccess.allElements is not supported")
  | 0xa5 => refuse (.alternateAccessUnsupported "named AlternateAccess member is not supported")
  | _ => refuse (.alternateAccessUnsupported "unknown AlternateAccess selector tag")

def decodeSingleMember (inner : List UInt8) : Fallible MmsError AlternateAccess := do
  if inner.isEmpty then
    refuse (.alternateAccessUnsupported "empty AlternateAccess sequence")
  else
    let (access, consumed) ← decodeAltAccessMember nested chain inner
    if consumed ≠ inner.length then
      refuse (.alternateAccessUnsupported "multi-member AlternateAccess")
    else
      return access

end

def decodeNestedAltAccess (maxDepth : UInt8) : Nat → UInt8 → List UInt8 → Fallible MmsError AlternateAccess
  | 0, depth, _ => refuse (.nestingLevelExceeded maxDepth depth)
  | levels + 1, depth, data => do
      let (inner, total) ← altAccessSequenceBody data
      if total ≠ data.length then
        refuse (.alternateAccessUnsupported "trailing data after the nested AlternateAccess")
      else
        decodeSingleMember (behind depth (decodeNestedAltAccess maxDepth levels))
          (behind depth (decodeComponentChainSequence maxDepth levels)) inner

def nestingCeiling (maxDepth : UInt8) : UInt8 :=
  if maxDepth < MmsData.maxDataNestingDepth then maxDepth else MmsData.maxDataNestingDepth

def decodeWithMax : Fallible MmsError (AlternateAccess × Nat) := do
  let maxDepth := nestingCeiling maxDepth
  let (inner, total) ← altAccessSequenceBody data
  let access ← decodeSingleMember (behind 0 (decodeNestedAltAccess maxDepth maxDepth.toNat))
    (behind 0 (decodeComponentChainSequence maxDepth maxDepth.toNat)) inner
  return (access, total)

end AlternateAccess

end Iec61850.Mms
