import Iec61850.Mms.InvokeId

/-!
The PDUs of the confirmed services that size their own answers: object names and access
specifications, the Read responses, the GetNameList requests and responses, and the Confirmed-Error.
-/

namespace Iec61850.Mms

def maxIdentifierLen : Nat := 64

inductive ObjectName where
  | vmdSpecific (name : String)
  | domainSpecific (domainId itemId : String)
  | aaSpecific (name : String)
  deriving DecidableEq, Repr

/-- The length field of a domain-specific name counts two octets of header for each identifier,
however long they are. -/
def ObjectName.encode : ObjectName → List UInt8
  | .vmdSpecific name => encodeTlv 0x80 (stringBytes name)
  | .domainSpecific domainId itemId =>
    0xa1 :: encodeLength (2 + stringLen domainId + 2 + stringLen itemId) ++
      (encodeTlv 0x1a (stringBytes domainId) ++ encodeTlv 0x1a (stringBytes itemId))
  | .aaSpecific name => encodeTlv 0x82 (stringBytes name)

inductive AlternateAccess where
  | index (index : UInt32)
  | indexComponent (index : UInt32) (component : String)
  | component (component : String) (alternateAccess : Option AlternateAccess)

def componentNames (path : String) : List String := (path.toList.splitOn '$').map String.ofList

/-- Every name but the last selects inside the one before it. -/
def encodeComponentChain : List String → List UInt8
  | [] => []
  | [last] => encodeTlv 0x81 (stringBytes last)
  | head :: rest => encodeTlv 0xa0 (encodeTlv 0x80 (stringBytes head) ++ encodeTlv 0x30 (encodeComponentChain rest))

namespace AlternateAccess

def encodeMember : AlternateAccess → List UInt8
  | .index position => encodeTlv 0x82 (encodeUnsignedIntMinimal position.toUInt64)
  | .indexComponent position path =>
    encodeTlv 0xa0 (encodeTlv 0x81 (encodeUnsignedIntMinimal position.toUInt64) ++
      encodeTlv 0x30 (encodeComponentChain (componentNames path)))
  | .component name none => encodeTlv 0x81 (stringBytes name)
  | .component name (some nested) =>
    encodeTlv 0xa0 (encodeTlv 0x80 (stringBytes name) ++ encodeTlv 0x30 (encodeMember nested))

/-- The component selections in front of any array index, and what is left behind them. -/
def leadingComponents : AlternateAccess → List String × Option AlternateAccess
  | .component name none => ([name], none)
  | .component name (some nested) =>
    let (names, rest) := leadingComponents nested
    (name :: names, rest)
  | access => ([], some access)

end AlternateAccess

structure ListOfVariableEntry where
  name : ObjectName
  altAccess : Option AlternateAccess

/-- The alternate access of a listed variable is implicitly tagged, so its sequence opens with
`0xa5`. -/
def ListOfVariableEntry.encode (entry : ListOfVariableEntry) : List UInt8 :=
  encodeTlv 0x30 (encodeTlv 0xa0 entry.name.encode ++
    entry.altAccess.elim [] fun access => encodeTlv 0xa5 access.encodeMember)

inductive VariableAccessSpecification where
  | listOfVariable (entries : List ListOfVariableEntry)
  | variableListName (name : ObjectName)

def VariableAccessSpecification.encode : VariableAccessSpecification → List UInt8
  | .listOfVariable entries => encodeTlv 0xa0 (entries.flatMap ListOfVariableEntry.encode)
  | .variableListName name => encodeTlv 0xa1 name.encode

structure ReadRequest where
  specificationWithResult : Bool
  variableAccessSpec : VariableAccessSpecification

namespace AccessResult

def encode : AccessResult → List UInt8
  | .success data => data.encode
  | .failure error => [0x80, 0x01, error.code]

def estimatedEncodedSize : AccessResult → Nat
  | .success data => data.estimatedEncodedSize
  | .failure _ => 3

@[simp] theorem encode_length (result : AccessResult) : result.encode.length = result.estimatedEncodedSize := by
  cases result with
  | success data => exact data.encode_length
  | failure error => rfl

theorem estimatedEncodedSize_pos (result : AccessResult) : 0 < result.estimatedEncodedSize := by
  cases result with
  | failure error => exact Nat.succ_pos 2
  | success data => cases data <;> simp [estimatedEncodedSize, MmsData.estimatedEncodedSize]

end AccessResult

def serviceTagRead : UInt8 := 0xa4

structure ReadResponse where
  variableAccessSpec : Option VariableAccessSpecification
  listOfAccessResult : List AccessResult

def ReadResponse.encode (response : ReadResponse) : List UInt8 :=
  encodeTlv serviceTagRead
    ((response.variableAccessSpec.elim [] fun spec => encodeTlv 0xa0 spec.encode) ++
      encodeTlv 0xa1 (response.listOfAccessResult.flatMap AccessResult.encode))

variable (tag : UInt8) (value invokeId : UInt32) (content service : List UInt8) (response : GetNameListResponse)

def encodeConfirmedReadResponse (response : ReadResponse) : List UInt8 :=
  encodeConfirmed tagConfirmedResponse invokeId response.encode

inductive ObjectClass where
  | namedVariable
  | namedVariableList
  | journal
  | domain
  deriving DecidableEq, Repr

def ObjectClass.wireValue : ObjectClass → UInt8
  | .namedVariable => 0
  | .namedVariableList => 2
  | .journal => 8
  | .domain => 9

inductive ObjectScope where
  | vmdSpecific
  | domainSpecific (domain : String)
  | aaSpecific
  deriving DecidableEq, Repr

def ObjectScope.encode : ObjectScope → List UInt8
  | .vmdSpecific => [0x80, 0x00]
  | .domainSpecific domain => encodeTlv 0x81 (stringBytes domain)
  | .aaSpecific => [0x82, 0x00]

structure GetNameListRequest where
  objectClass : ObjectClass
  objectScope : ObjectScope
  continueAfter : Option String

def serviceTagGetNameList : UInt8 := 0xa1

def GetNameListRequest.encode (request : GetNameListRequest) : List UInt8 :=
  encodeTlv serviceTagGetNameList
    ([0xa0, 0x03, 0x80, 0x01, request.objectClass.wireValue] ++
      encodeTlv 0xa1 request.objectScope.encode ++
      request.continueAfter.elim [] fun name => encodeTlv 0x82 (stringBytes name))

def encodeConfirmedGetNameListRequest (request : GetNameListRequest) : List UInt8 :=
  encodeConfirmed tagConfirmedRequest invokeId request.encode

structure GetNameListResponse where
  identifiers : List String
  moreFollows : Bool

/-- `moreFollows` defaults to true and is written only when it is false. -/
def GetNameListResponse.encode : List UInt8 :=
  encodeTlv serviceTagGetNameList
    (encodeTlv 0xa0 (response.identifiers.flatMap fun identifier => encodeTlv 0x1a (stringBytes identifier)) ++
      if response.moreFollows then [] else [0x81, 0x01, 0x00])

def encodeConfirmedGetNameListResponse : List UInt8 :=
  encodeConfirmed tagConfirmedResponse invokeId response.encode

/-- The error classes the services modelled here answer with; each has its subcode. -/
inductive ErrorClass where
  | resource (code : UInt8)
  | access (code : UInt8)
  deriving DecidableEq, Repr

namespace ErrorClass

def contextTag : ErrorClass → UInt8
  | .resource _ => 3
  | .access _ => 7

def code : ErrorClass → UInt8
  | .resource code => code
  | .access code => code

def resourceOther : ErrorClass := .resource 0

def accessOther : ErrorClass := .access 0

def accessObjectAccessUnsupported : ErrorClass := .access 1

def accessObjectNonExistent : ErrorClass := .access 2

def encodeExplicit (errorClass : ErrorClass) : List UInt8 :=
  encodeTlv 0xa0
    (encodeTlv (0x80 ||| errorClass.contextTag) (encodeUnsignedIntMinimal errorClass.code.toUInt64))

end ErrorClass

inductive ConfirmedResponse where
  | response (octets : List UInt8)
  | error (octets : List UInt8)
  | reject
  deriving DecidableEq, Repr

def berEncodeU32 : List UInt8 := if value = 0 then [0x00] else dropZeroBytes (bigEndian32 value)

def makeConfirmedError (errorClass : ErrorClass) : ConfirmedResponse :=
  .error (encodeTlv 0xa2 (encodeTlv 0x80 (berEncodeU32 invokeId) ++ encodeTlv 0xa2 errorClass.encodeExplicit))

/-! A frame adds at most four octets to its content, three of them the length field. -/

theorem encodeTlv_length_le : (encodeTlv tag content).length ≤ 4 + content.length := by
  have field := lengthSize_le content.length
  rw [encodeTlv_length]
  omega

theorem encodeInvokeId_length_le : (encodeInvokeId invokeId).length ≤ 12 := by
  have framed := encodeTlv_length_le 0x02 (encodeUnsignedIntMinimal invokeId.toUInt64)
  have number := (encodeUnsignedIntMinimal_length invokeId.toUInt64).2
  exact Nat.le_trans framed (by omega)

theorem encodeConfirmed_length_le : (encodeConfirmed tag invokeId service).length ≤ 16 + service.length := by
  have framed := encodeTlv_length_le tag (encodeInvokeId invokeId ++ service)
  have id := encodeInvokeId_length_le invokeId
  rw [List.length_append] at framed
  exact Nat.le_trans framed (by omega)

end Iec61850.Mms
