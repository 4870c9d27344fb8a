import Iec61850.Mms.Services

/-!
The InformationReport decoder: which variables a report refers to, and the flat sequence of its
access results.
-/

namespace Iec61850.Mms

open Wire Wire.Fallible

/-- The failures of the decoder, each with what its message names. -/
inductive ReportDecodeError where
  | emptyInput (field : String) (expectedTag : UInt8)
  | unexpectedTag (field : String) (expectedTag actual : UInt8)
  | truncatedLength (field : String)
  | truncatedLongForm (field : String) (form : UInt8)
  | unsupportedLengthForm (field : String) (form : UInt8)
  | lengthExceedsBuffer (field : String) (length available : Nat)
  | emptySpecification
  | unexpectedSpecificationTag (tag : UInt8)
  | unexpectedListElement (tag : UInt8)
  | mms (error : MmsError)
  deriving DecidableEq, Repr

def orReportError {α : Type} : Fallible MmsError α → Fallible ReportDecodeError α
  | .ok value => .ok value
  | .error (.refused error) => refuse (.mms error)
  | .error .panicked => .error .panicked
  | .error .diverged => .error .diverged

variable (field : String) (form : UInt8) (unconfirmedInner octets val data : List UInt8)

def identifier : Fallible MmsError String :=
  if maxIdentifierLen < octets.length then refuse (.identifierTooLong octets.length)
  else decodeUtf8 octets

def decodeIdentifier : Fallible MmsError (String × Nat) := do
  match data with
  | [] => refuse .truncatedPdu
  | tag :: _ =>
    if tag ≠ 0x1a then
      refuse (.invalidTag 0x1a tag)
    else
      let element ← readElement data
      return (← identifier element.content, element.consumed)

def decodeDomainSpecific : Fallible MmsError (String × String) := do
  if val.length < 2 then
    refuse .truncatedPdu
  else
    let (domainId, itemStart) ← decodeIdentifier val
    let (itemId, _) ← decodeIdentifier (val.drop itemStart)
    return (domainId, itemId)

def ObjectName.decode : Fallible MmsError (ObjectName × Nat) := do
  let element ← readElement data
  match element.tag with
  | 0x80 => return (.vmdSpecific (← identifier element.content), element.consumed)
  | 0xa1 =>
    let (domainId, itemId) ← decodeDomainSpecific element.content
    return (.domainSpecific domainId itemId, element.consumed)
  | 0x82 => return (.aaSpecific (← identifier element.content), element.consumed)
  | other => refuse (.unknownObjectNameTag other)

def takeLength : Fallible ReportDecodeError (Nat × Nat) :=
  if form < 0x80 then
    .ok (form.toNat, 1)
  else if form = 0x81 then
    match octets with
    | low :: _ => .ok (low.toNat, 2)
    | _ => refuse (.truncatedLongForm field form)
  else if form = 0x82 then
    match octets with
    | high :: low :: _ => .ok (high.toNat <<< 8 ||| low.toNat, 3)
    | _ => refuse (.truncatedLongForm field form)
  else if form = 0x83 then
    match octets with
    | high :: middle :: low :: _ => .ok (high.toNat <<< 16 ||| middle.toNat <<< 8 ||| low.toNat, 4)
    | _ => refuse (.truncatedLongForm field form)
  else
    refuse (.unsupportedLengthForm field form)

def takeTagAndLength (expectedTag : UInt8) (field : String) : Fallible ReportDecodeError (List UInt8 × Nat) := do
  match data with
  | [] => refuse (.emptyInput field expectedTag)
  | tag :: rest =>
    if tag ≠ expectedTag then
      refuse (.unexpectedTag field expectedTag tag)
    else
      match rest with
      | [] => refuse (.truncatedLength field)
      | form :: octets =>
        let (len, lenBytes) ← takeLength field form octets
        let headerLen := 1 + lenBytes
        if data.length < headerLen + len then
          refuse (.lengthExceedsBuffer field len (data.length - headerLen))
        else
          return ((data.drop headerLen).take len, headerLen)

inductive VariableAccessSpec where
  | variableListName (name : ObjectName)
  | listOfVariable (names : List ObjectName)
  deriving DecidableEq, Repr

structure InformationReportInner where
  variableAccessSpec : VariableAccessSpec
  listOfAccessResult : List MmsData

def decodeListedName : Fallible ReportDecodeError (ObjectName × Nat) := do
  match data with
  | [] => .error .panicked
  | tag :: _ =>
    if tag ≠ 0x30 then
      refuse (.unexpectedListElement tag)
    else
      let (elemInner, elemHdrLen) ← takeTagAndLength data 0x30 "VariableSpec"
      let (nameInner, _) ← takeTagAndLength elemInner 0xa0 "VariableSpec.name"
      let (name, _) ← orReportError (ObjectName.decode nameInner)
      return (name, elemHdrLen + elemInner.length)

def decodeVariableAccessSpec : Fallible ReportDecodeError (VariableAccessSpec × Nat) := do
  match data with
  | [] => refuse .emptySpecification
  | 0xa1 :: _ =>
    let (inner, hdrLen) ← takeTagAndLength data 0xa1 "variableListName"
    let (name, _) ← orReportError (ObjectName.decode inner)
    return (.variableListName name, hdrLen + inner.length)
  | 0xa0 :: _ =>
    let (inner, hdrLen) ← takeTagAndLength data 0xa0 "listOfVariable"
    return (.listOfVariable (← readWhole decodeListedName inner), hdrLen + inner.length)
  | other :: _ => refuse (.unexpectedSpecificationTag other)

def decodeInformationReport : Fallible ReportDecodeError InformationReportInner := do
  let (combinedBody, _) ← takeTagAndLength unconfirmedInner 0xa0 "combined service+informationReport"
  let (spec, specConsumed) ← decodeVariableAccessSpec combinedBody
  let (listInner, _) ← takeTagAndLength (combinedBody.drop specConsumed) 0xa0 "listOfAccessResult"
  return ⟨spec, ← orReportError (readWhole MmsData.decode listInner)⟩

@[simp] theorem orReportError_ok {α : Type} (value : α) : orReportError (.ok value) = .ok value := rfl

theorem takeLength_encodeLength {len : Nat} (fits : len ≤ 65535) (rest : List UInt8) :
    ∃ form octets, encodeLength len ++ rest = form :: octets ∧
    takeLength field form octets = .ok (len, lengthSize len) := by
  have byte {number : Nat} (small : number < 256) : (UInt8.ofNat number).toNat = number := by
    rw [UInt8.toNat_ofNat']
    omega
  unfold encodeLength lengthSize
  split
  · have short : UInt8.ofNat len < 0x80 := by
      rw [UInt8.lt_iff_toNat_lt, byte (by omega), show (0x80 : UInt8).toNat = 128 from rfl]
      omega
    exact ⟨_, _, rfl, by simp [takeLength, short, byte (show len < 256 by omega)]⟩
  split
  · have first : ¬ ((0x81 : UInt8) < 0x80) := by decide
    exact ⟨_, _, rfl, by simp [takeLength, first, byte (show len < 256 by omega)]⟩
  have first : ¬ ((0x82 : UInt8) < 0x80) := by decide
  have low : (UInt8.ofNat len).toNat = len % 256 := UInt8.toNat_ofNat'
  have joined : (len / 256) <<< 8 ||| len % 256 = len := by
    rw [← Nat.shiftLeft_add_eq_or_of_lt (by omega), Nat.shiftLeft_eq]
    omega
  exact ⟨_, _, rfl, by simp [takeLength, first, byte (show len / 256 < 256 by omega), low, joined]⟩

theorem takeTagAndLength_encodeTlv (tag : UInt8) (field : String) {content : List UInt8} (fits : content.length ≤ 65535)
    (rest : List UInt8) :
    takeTagAndLength (encodeTlv tag content ++ rest) tag field = .ok (content, 1 + lengthSize content.length) := by
  have shape : encodeTlv tag content ++ rest = tag :: (encodeLength content.length ++ (content ++ rest)) := by
    simp [encodeTlv]
  obtain ⟨form, octets, opened, taken⟩ := takeLength_encodeLength field fits (content ++ rest)
  have size := encodeLength_length content.length
  have body : ((tag :: form :: octets).drop (1 + lengthSize content.length)).take content.length = content := by
    rw [← opened, Nat.add_comm 1, List.drop_succ_cons, ← size, List.drop_left, List.take_left]
  have total : (tag :: form :: octets).length = 1 + lengthSize content.length + content.length + rest.length := by
    rw [← opened, List.length_cons, List.length_append, List.length_append, size]
    omega
  rw [shape, opened]
  unfold takeTagAndLength
  simp only [ne_eq, not_true_eq_false, if_false, taken, ok_bind]
  rw [if_neg (by omega), body]
  rfl

theorem ObjectName.decode_vmdSpecific {name : String} (short : stringLen name ≤ maxIdentifierLen) (rest : List UInt8) :
    ObjectName.decode ((ObjectName.vmdSpecific name).encode ++ rest) =
      .ok (.vmdSpecific name, (ObjectName.vmdSpecific name).encode.length) := by
  have fits : (stringBytes name).length ≤ 65535 := Nat.le_trans short (by decide)
  have named : identifier (stringBytes name) = .ok name := by
    unfold identifier
    rw [stringBytes_length, if_neg (Nat.not_lt.mpr short), decodeUtf8_stringBytes]
  unfold ObjectName.decode ObjectName.encode
  rw [readElement_encodeTlv 0x80 fits rest, ok_bind]
  dsimp only
  rw [named]
  rfl

theorem decodeVariableAccessSpec_name {name : ObjectName} (fits : name.encode.length ≤ 65535)
    (decoded : ObjectName.decode name.encode = .ok (name, name.encode.length)) (rest : List UInt8) :
    decodeVariableAccessSpec (encodeTlv 0xa1 name.encode ++ rest) =
      .ok (.variableListName name, (encodeTlv 0xa1 name.encode).length) := by
  have taken := takeTagAndLength_encodeTlv 0xa1 "variableListName" fits rest
  have opened : ∃ octets, encodeTlv 0xa1 name.encode ++ rest = 0xa1 :: octets := ⟨_, rfl⟩
  obtain ⟨octets, shape⟩ := opened
  rw [shape] at taken ⊢
  unfold decodeVariableAccessSpec
  simp only [taken, decoded, orReportError_ok, ok_bind, encodeTlv_length]
  rfl

theorem decodeInformationReport_encode {name : ObjectName} {elements : List MmsData}
    (decoded : ObjectName.decode name.encode = .ok (name, name.encode.length))
    (reads : ∀ data ∈ elements, ∀ rest, MmsData.decode (data.encode ++ rest) = .ok (data, data.encode.length))
    (short : (encodeTlv 0xa1 name.encode ++ encodeTlv 0xa0 (elements.flatMap MmsData.encode)).length ≤ 65535) :
    decodeInformationReport
        (encodeTlv 0xa0 (encodeTlv 0xa1 name.encode ++ encodeTlv 0xa0 (elements.flatMap MmsData.encode))) =
      .ok ⟨.variableListName name, elements⟩ := by
  let list := elements.flatMap MmsData.encode
  have parts : (encodeTlv 0xa1 name.encode).length + (encodeTlv 0xa0 list).length ≤ 65535 := by
    rw [← List.length_append]
    exact short
  rw [encodeTlv_length, encodeTlv_length] at parts
  have body := takeTagAndLength_encodeTlv 0xa0 "combined service+informationReport" short []
  have results := @takeTagAndLength_encodeTlv 0xa0 "listOfAccessResult" list (by omega) []
  have read : readWhole MmsData.decode list = .ok elements :=
    readAll_encoded MmsData.encode elements reads (fun data _ => MmsData.encode_ne_nil data) _ (Nat.le_refl _)
  rw [List.append_nil] at body results
  unfold decodeInformationReport
  rw [body, ok_bind]
  dsimp only
  rw [decodeVariableAccessSpec_name (by omega) decoded, ok_bind]
  dsimp only
  rw [List.drop_left, results, ok_bind]
  dsimp only
  rw [read]
  rfl

end Iec61850.Mms
