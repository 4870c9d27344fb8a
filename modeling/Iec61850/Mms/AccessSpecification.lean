import Iec61850.Mms.AccessRoundTrip
import Iec61850.Mms.InformationReport

/-!
The decoder of variable access specifications, the lengths predicted for them, and that both agree
with the encoder.
-/

namespace Iec61850.Mms

open List Wire Wire.Fallible ObjectName ListOfVariableEntry AlternateAccess

def ObjectName.encodedLen : ObjectName → Nat
  | .vmdSpecific name => 1 + lengthSize (stringLen name) + stringLen name
  | .domainSpecific domainId itemId =>
    let inner := 2 + stringLen domainId + 2 + stringLen itemId
    1 + lengthSize inner + inner
  | .aaSpecific name => 1 + lengthSize (stringLen name) + stringLen name

def listOfVariableSeqLen (entry : ListOfVariableEntry) : Nat :=
  let objLen := entry.name.encodedLen
  let vsLen := 1 + lengthSize objLen + objLen
  let aaLen := entry.altAccess.elim 0 encodedLen
  let seqInner := vsLen + aaLen
  1 + lengthSize seqInner + seqInner

def VariableAccessSpecification.encodedLen : VariableAccessSpecification → Nat
  | .listOfVariable entries =>
    let inner := (entries.map listOfVariableSeqLen).sum
    1 + lengthSize inner + inner
  | .variableListName name =>
    let inner := name.encodedLen
    1 + lengthSize inner + inner

/-- The alternate access of a listed variable: its tag is put back to that of a sequence before it
is decoded. -/
def decodeListedAccess (tail : List UInt8) (maxDepth : UInt8) : Fallible MmsError (Option AlternateAccess) := do
  if tail.isEmpty then
    return none
  else
    let first ← byteAt tail 0
    if first ≠ 0xa5 then
      refuse (.invalidTag 0xa5 first)
    else
      let local' := tail.set 0 0x30
      let (access, consumed) ← decodeWithMax local' maxDepth
      if consumed ≠ local'.length then
        refuse .truncatedPdu
      else
        return some access

def decodeListOfVariableSeq (seqInner : List UInt8) (maxDepth : UInt8) : Fallible MmsError ListOfVariableEntry := do
  if seqInner.isEmpty then
    refuse .truncatedPdu
  else
    let first ← byteAt seqInner 0
    if first ≠ 0xa0 then
      refuse (.invalidTag 0xa0 first)
    else
      let specification ← readElement seqInner
      let (name, _) ← decode specification.content
      let tail ← sliceFrom seqInner specification.consumed
      return { name, altAccess := ← decodeListedAccess tail maxDepth }

def decodeListedVariable (maxDepth : UInt8) (data : List UInt8) : Fallible MmsError (ListOfVariableEntry × Nat) := do
  let first ← byteAt data 0
  if first ≠ 0x30 then
    refuse (.invalidTag 0x30 first)
  else
    let sequence ← readElement data
    return (← decodeListOfVariableSeq sequence.content maxDepth, sequence.consumed)

def decodeListOfVariable (data : List UInt8) (maxDepth : UInt8) : Fallible MmsError (List ListOfVariableEntry) :=
  readWhole (decodeListedVariable maxDepth) data

namespace VariableAccessSpecification

def decodeWithMax (data : List UInt8) (maxDepth : UInt8) : Fallible MmsError (VariableAccessSpecification × Nat) := do
  let element ← readElement data
  match element.tag with
  | 0xa0 => return (.listOfVariable (← decodeListOfVariable element.content maxDepth), element.consumed)
  | 0xa1 =>
    let (name, _) ← decode element.content
    return (.variableListName name, element.consumed)
  | other => refuse (.unknownVasTag other)

def decode (data : List UInt8) : Fallible MmsError (VariableAccessSpecification × Nat) :=
  decodeWithMax data MmsData.maxDataNestingDepth

end VariableAccessSpecification

namespace ObjectName

def Sound : ObjectName → Prop
  | .vmdSpecific name => Identifier name
  | .domainSpecific domainId itemId => Identifier domainId ∧ Identifier itemId
  | .aaSpecific name => Identifier name

variable {name domainId itemId : String}

theorem lengthSize_identifier (sound : Identifier name) : lengthSize (stringLen name) = 1 := by
  have short : stringLen name < 128 := Nat.lt_of_le_of_lt sound.2 (by decide)
  rw [lengthSize, if_pos short]

theorem length_identifiers (domain : Identifier domainId) (item : Identifier itemId) :
    (encodeTlv 0x1a (stringBytes domainId) ++ encodeTlv 0x1a (stringBytes itemId)).length =
      2 + stringLen domainId + 2 + stringLen itemId := by
  rw [length_append, encodeTlv_length, encodeTlv_length, stringBytes_length, stringBytes_length,
    lengthSize_identifier domain, lengthSize_identifier item]
  omega

theorem encode_domainSpecific (domain : Identifier domainId) (item : Identifier itemId) :
    (domainSpecific domainId itemId).encode =
      encodeTlv 0xa1 (encodeTlv 0x1a (stringBytes domainId) ++ encodeTlv 0x1a (stringBytes itemId)) := by
  rw [encode, ← length_identifiers domain item]
  rfl

theorem identifier_stringBytes (sound : Identifier name) : identifier (stringBytes name) = .ok name := by
  unfold identifier
  rw [stringBytes_length, if_neg (Nat.not_lt.mpr sound.2), decodeUtf8_stringBytes]

theorem stringBytes_fits (sound : Identifier name) : (stringBytes name).length ≤ 65535 :=
  Nat.le_trans sound.2 (by decide)

theorem decodeIdentifier_encode (sound : Identifier name) (rest : List UInt8) :
    decodeIdentifier (encodeTlv 0x1a (stringBytes name) ++ rest) =
      .ok (name, (encodeTlv 0x1a (stringBytes name)).length) := by
  have read := readElement_encodeTlv 0x1a (stringBytes_fits sound) rest
  have opened : encodeTlv 0x1a (stringBytes name) ++ rest =
      0x1a :: (encodeLength (stringBytes name).length ++ (stringBytes name ++ rest)) := by
    simp [encodeTlv]
  unfold decodeIdentifier
  rw [opened]
  dsimp only
  rw [if_neg (by decide), ← opened, read, ok_bind]
  dsimp only
  rw [identifier_stringBytes sound]
  rfl

theorem decodeDomainSpecific_encode (domain : Identifier domainId) (item : Identifier itemId) :
    decodeDomainSpecific (encodeTlv 0x1a (stringBytes domainId) ++ encodeTlv 0x1a (stringBytes itemId)) =
      .ok (domainId, itemId) := by
  have second := decodeIdentifier_encode item []
  rw [append_nil] at second
  unfold decodeDomainSpecific
  rw [if_neg (by rw [length_append, encodeTlv_length, encodeTlv_length]; omega),
    decodeIdentifier_encode domain, ok_bind]
  dsimp only
  rw [drop_left, second]
  rfl

theorem decode_encode {name : ObjectName} (sound : name.Sound) :
    decode name.encode = .ok (name, name.encode.length) := by
  cases name with
  | vmdSpecific name =>
    have read := decode_vmdSpecific sound.2 []
    rwa [append_nil] at read
  | domainSpecific domainId itemId =>
    obtain ⟨domain, item⟩ := sound
    have inner : (encodeTlv 0x1a (stringBytes domainId) ++ encodeTlv 0x1a (stringBytes itemId)).length ≤ 65535 := by
      have domainSize := domain.2
      have itemSize := item.2
      simp only [maxIdentifierLen] at domainSize itemSize
      rw [length_identifiers domain item]
      omega
    have read := readElement_encodeTlv 0xa1 inner []
    rw [append_nil] at read
    rw [encode_domainSpecific domain item]
    unfold decode
    rw [read, ok_bind]
    dsimp only
    rw [decodeDomainSpecific_encode domain item]
    rfl
  | aaSpecific name =>
    have read := readElement_encodeTlv 0x82 (stringBytes_fits sound) []
    rw [append_nil] at read
    unfold decode encode
    rw [read, ok_bind]
    dsimp only
    rw [identifier_stringBytes sound]
    rfl

theorem length_encode {name : ObjectName} (sound : name.Sound) : name.encode.length = name.encodedLen := by
  cases name with
  | vmdSpecific name => exact encodeTlv_length 0x80 (stringBytes name)
  | domainSpecific domainId itemId =>
    obtain ⟨domain, item⟩ := sound
    rw [encode_domainSpecific domain item, encodeTlv_length, length_identifiers domain item]
    rfl
  | aaSpecific name => exact encodeTlv_length 0x82 (stringBytes name)

end ObjectName

namespace ListOfVariableEntry

structure Sound (maxDepth : UInt8) (entry : ListOfVariableEntry) : Prop where
  name : entry.name.Sound
  access : ∀ access ∈ entry.altAccess, access.Sound ∧ access.nestingDepth ≤ (nestingCeiling maxDepth).toNat

theorem retagged (access : AlternateAccess) : access.encode.set 0 0xa5 = encodeTlv 0xa5 access.encodeMember := rfl

variable {maxDepth : UInt8} {entry : ListOfVariableEntry}

theorem decodeListedAccess_encode {altAccess : Option AlternateAccess}
    (sound : ∀ access ∈ altAccess, access.Sound ∧ access.nestingDepth ≤ (nestingCeiling maxDepth).toNat) :
    decodeListedAccess (altAccess.elim [] fun access => encodeTlv 0xa5 access.encodeMember)
      maxDepth = .ok altAccess := by
  cases altAccess with
  | none => rfl
  | some access =>
    obtain ⟨named, within⟩ := sound access rfl
    have back : (encodeTlv 0xa5 access.encodeMember).set 0 0x30 = access.encode := by
      rw [← retagged]
      rfl
    unfold decodeListedAccess
    rw [Option.elim_some, if_neg (by simp [encodeTlv])]
    have first : (byteAt (encodeTlv 0xa5 access.encodeMember) 0 : Fallible MmsError UInt8) = .ok 0xa5 := rfl
    rw [first, ok_bind, if_neg (by decide)]
    dsimp only
    rw [back, decodeWithMax_encode named within, ok_bind]
    dsimp only
    rw [if_neg (by simp)]
    rfl

theorem decodeListOfVariableSeq_encode (sound : entry.Sound maxDepth) (fits : entry.encode.length ≤ 65535) :
    decodeListOfVariableSeq (encodeTlv 0xa0 entry.name.encode ++
      entry.altAccess.elim [] fun access => encodeTlv 0xa5 access.encodeMember) maxDepth = .ok entry := by
  rw [encode, encodeTlv_length, length_append, encodeTlv_length] at fits
  have read := @readElement_encodeTlv 0xa0 entry.name.encode (by omega)
    (entry.altAccess.elim [] fun access => encodeTlv 0xa5 access.encodeMember)
  unfold decodeListOfVariableSeq
  rw [if_neg (by simp [encodeTlv])]
  have first (behind : List UInt8) :
      (byteAt (encodeTlv 0xa0 entry.name.encode ++ behind) 0 : Fallible MmsError UInt8) = .ok 0xa0 := rfl
  rw [first, ok_bind, if_neg (by decide), read, ok_bind]
  dsimp only
  rw [decode_encode sound.name, ok_bind]
  dsimp only
  rw [sliceFrom_of_le (by rw [length_append]; omega), ok_bind, drop_left, decodeListedAccess_encode sound.access]
  rfl

theorem decodeListedVariable_encode (sound : entry.Sound maxDepth)
    (fits : entry.encode.length ≤ 65535) (rest : List UInt8) :
    decodeListedVariable maxDepth (entry.encode ++ rest) = .ok (entry, entry.encode.length) := by
  have content := decodeListOfVariableSeq_encode sound fits
  have inner : (encodeTlv 0xa0 entry.name.encode ++
      entry.altAccess.elim [] fun access => encodeTlv 0xa5 access.encodeMember).length ≤ 65535 := by
    rw [encode, encodeTlv_length] at fits
    omega
  unfold decodeListedVariable
  have first : (byteAt (entry.encode ++ rest) 0 : Fallible MmsError UInt8) = .ok 0x30 := rfl
  rw [first, ok_bind, if_neg (by decide), encode, readElement_encodeTlv 0x30 inner, ok_bind]
  dsimp only
  rw [content]
  rfl

theorem length_encode (sound : entry.Sound maxDepth) : entry.encode.length = listOfVariableSeqLen entry := by
  have access : (entry.altAccess.elim [] fun access => encodeTlv 0xa5 access.encodeMember).length =
      entry.altAccess.elim 0 encodedLen := by
    cases entry.altAccess with
    | none => rfl
    | some access =>
      rw [Option.elim_some, Option.elim_some, ← AlternateAccess.length_encode, encodeTlv_length, AlternateAccess.encode,
        encodeTlv_length]
  rw [encode, encodeTlv_length, length_append, encodeTlv_length, access, ObjectName.length_encode sound.name]
  rfl

end ListOfVariableEntry

namespace VariableAccessSpecification

def Sound (maxDepth : UInt8) : VariableAccessSpecification → Prop
  | .listOfVariable entries => ∀ entry ∈ entries, entry.Sound maxDepth
  | .variableListName name => name.Sound

variable {entries : List ListOfVariableEntry} {maxDepth : UInt8}

theorem entry_fits {entry : ListOfVariableEntry} (member : entry ∈ entries)
    (fits : (entries.flatMap ListOfVariableEntry.encode).length ≤ 65535) : entry.encode.length ≤ 65535 := by
  obtain ⟨before, after, rfl⟩ := append_of_mem member
  rw [flatMap_append, flatMap_cons, length_append, length_append] at fits
  omega

theorem decodeListOfVariable_encode (sound : ∀ entry ∈ entries, entry.Sound maxDepth)
    (fits : (entries.flatMap ListOfVariableEntry.encode).length ≤ 65535) :
    decodeListOfVariable (entries.flatMap ListOfVariableEntry.encode) maxDepth = .ok entries := by
  apply readAll_encoded
  · intro entry member rest
    exact decodeListedVariable_encode (sound entry member) (entry_fits member fits) rest
  · intro entry _ empty
    simp [ListOfVariableEntry.encode, encodeTlv] at empty
  · exact Nat.le_refl _

theorem listLen_eq (sound : ∀ entry ∈ entries, entry.Sound maxDepth) :
    (entries.map listOfVariableSeqLen).sum = (entries.flatMap ListOfVariableEntry.encode).length := by
  rw [length_flatMap]
  congr 1
  apply map_congr_left
  intro entry member
  exact (length_encode (sound entry member)).symm

theorem length_encode {spec : VariableAccessSpecification} (sound : spec.Sound maxDepth) :
    spec.encode.length = spec.encodedLen := by
  cases spec with
  | listOfVariable entries =>
    rw [encode, encodeTlv_length, ← listLen_eq sound]
    rfl
  | variableListName name =>
    rw [encode, encodeTlv_length, ObjectName.length_encode sound]
    rfl

end VariableAccessSpecification

/-- A specification of sound names and accesses whose encoding fits a length field is read back
whole, and its length and those of its parts are the predicted ones. -/
theorem specification_read_back (spec : VariableAccessSpecification) (maxDepth : UInt8) (sound : spec.Sound maxDepth)
    (fits : spec.encode.length ≤ 65535) :
    VariableAccessSpecification.decodeWithMax spec.encode maxDepth = .ok (spec, spec.encode.length) ∧
      spec.encodedLen = spec.encode.length ∧
      (∀ name, spec = .variableListName name → name.encodedLen = name.encode.length) ∧
      ∀ entries, spec = .listOfVariable entries →
        (entries.map listOfVariableSeqLen).sum = (entries.flatMap ListOfVariableEntry.encode).length ∧
        ∀ entry ∈ entries, entry.name.encodedLen = entry.name.encode.length ∧
          listOfVariableSeqLen entry = entry.encode.length := by
  have size := VariableAccessSpecification.length_encode sound
  unfold VariableAccessSpecification.decodeWithMax
  cases spec with
  | listOfVariable entries =>
    have inner : (entries.flatMap ListOfVariableEntry.encode).length ≤ 65535 := by
      rw [VariableAccessSpecification.encode, encodeTlv_length] at fits
      omega
    have read := readElement_encodeTlv 0xa0 inner []
    rw [append_nil] at read
    refine ⟨?_, size.symm, nofun, ?_⟩
    · rw [VariableAccessSpecification.encode, read, ok_bind]
      dsimp only
      rw [VariableAccessSpecification.decodeListOfVariable_encode sound inner]
      rfl
    · intro listed same
      cases same
      refine ⟨VariableAccessSpecification.listLen_eq sound, ?_⟩
      intro entry member
      exact ⟨(length_encode (sound entry member).name).symm,
        (length_encode (sound entry member)).symm⟩
  | variableListName name =>
    have inner : name.encode.length ≤ 65535 := by
      rw [VariableAccessSpecification.encode, encodeTlv_length] at fits
      omega
    have read := readElement_encodeTlv 0xa1 inner []
    rw [append_nil] at read
    refine ⟨?_, size.symm, ?_, nofun⟩
    · rw [VariableAccessSpecification.encode, read, ok_bind]
      dsimp only
      rw [decode_encode sound]
      rfl
    · intro named same
      cases same
      exact (length_encode sound).symm

/-- Two variables, one of them with an element of an array selected. -/
def twoVariables : VariableAccessSpecification :=
  .listOfVariable [⟨.domainSpecific "LD0" "GGIO1$ST$Ind1$stVal", none⟩, ⟨.vmdSpecific "ident", some (.index 7)⟩]

theorem twoVariables_read_back :
    VariableAccessSpecification.decode twoVariables.encode = .ok (twoVariables, twoVariables.encode.length) := by
  have sound : twoVariables.Sound 32 := by
    intro entry member
    simp only [mem_cons, not_mem_nil, or_false] at member
    rcases member with rfl | rfl
    · exact ⟨⟨⟨by decide, by decide⟩, ⟨by decide, by decide⟩⟩, nofun⟩
    · refine ⟨⟨by decide, by decide⟩, ?_⟩
      rintro access ⟨⟩
      exact ⟨trivial, by decide⟩
  exact (specification_read_back twoVariables 32 sound (by decide)).1

end Iec61850.Mms
