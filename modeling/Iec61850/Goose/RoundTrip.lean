import Iec61850.Goose.Pdu
import Iec61850.Mms.RoundTrip

/-!
What the decoder makes of an encoded PDU: the values come back, unless one of them or a reference is
of a form that the encoder writes and the decoder refuses.
-/

namespace Iec61850.Goose

open Model Mms Wire Wire.Fallible
open Goose (decodeUtf8 decodeBitString decodeContent)

theorem dropZeroBytes_zero_cons (number : List UInt8) : dropZeroBytes (0x00 :: number) = 0x00 :: number ∨
      1 ≤ (dropZeroBytes (0x00 :: number)).length ∧ (dropZeroBytes (0x00 :: number)).length ≤ number.length := by
  cases number with
  | nil => exact .inl rfl
  | cons second rest =>
    rw [dropZeroBytes]
    split
    · exact .inr (dropZeroBytes_length (second :: rest) (by simp))
    · exact .inl rfl

theorem ofBytes_zero_cons (number : List UInt8) : ofBytes (0x00 :: number) = ofBytes number := by
  rw [ofBytes_cons]
  simp

theorem decodeU32_encode (value : UInt32) : decodeU32 (encodeU32Integer value) = .ok value := by
  have number : ofBytes (encodeU32Integer value) = value.toNat := by
    rw [encodeU32Integer, ofBytes_dropZeroBytes, ofBytes_zero_cons, ofBytes_bigEndian32]
  unfold encodeU32Integer at number ⊢
  obtain kept | ⟨some, short⟩ := dropZeroBytes_zero_cons (bigEndian32 value)
  · rw [kept, decodeU32, if_pos ⟨rfl, rfl⟩, shiftInto32_bigEndian32]
  rw [bigEndian32_length] at short
  generalize dropZeroBytes (0x00 :: bigEndian32 value) = bytes at number some short
  cases bytes with
  | nil => simp at some
  | cons first rest =>
    rw [List.length_cons] at short
    rw [decodeU32, if_neg (by omega), if_neg (by rw [List.length_cons]; omega)]
    congr 1
    apply UInt32.toNat_inj.mp
    rw [shiftInto32_zero (by rw [List.length_cons]; omega), number]

theorem decodeBool_encode (value : Bool) : decodeBool (encodeBool value) = value := by
  cases value <;> rfl

theorem decodeUnsigned_encode (value : UInt64) : decodeUnsigned (encodeUnsigned value) = .ok (.unsigned value) := by
  have number : ofBytes (encodeUnsigned value) = value.toNat := by
    rw [encodeUnsigned, ofBytes_dropZeroBytes, ofBytes_zero_cons, ofBytes_bigEndian64]
  unfold encodeUnsigned at number ⊢
  obtain kept | ⟨some, short⟩ := dropZeroBytes_zero_cons (bigEndian64 value)
  · have nine : ((0x00 : UInt8) :: bigEndian64 value).length = 9 := rfl
    rw [kept, decodeUnsigned, if_neg (by omega), if_pos nine, byteAt_zero_cons, ok_bind, if_neg (by simp),
      sliceFrom_one_cons, ok_bind, shiftInto64_bigEndian64]
    rfl
  · rw [bigEndian64_length] at short
    generalize dropZeroBytes (0x00 :: bigEndian64 value) = bytes at number some short
    have collected : shiftInto64 0 bytes = value := by
      apply UInt64.toNat_inj.mp
      rw [shiftInto64_zero short, number]
    rw [decodeUnsigned, if_neg (by omega), if_neg (by omega), if_pos short, collected]
    rfl

theorem dropOnesBytes_eq_dropSignBytes (bytes : List UInt8) (negative : ∀ first ∈ bytes.head?, first &&& 0x80 ≠ 0) :
    dropOnesBytes bytes = dropSignBytes bytes := by
  fun_induction dropOnesBytes bytes with
  | case1 first second rest carried ih =>
    rw [dropSignBytes, if_pos (by simp [carried])]
    simp only [Bool.and_eq_true, beq_iff_eq, bne_iff_ne] at carried
    exact ih (by simpa using carried.2)
  | case2 first second rest needed =>
    have set : first &&& 0x80 ≠ 0 := negative first rfl
    have other : first ≠ 0x00 := by
      intro zero
      rw [zero] at set
      exact set rfl
    rw [dropSignBytes, if_neg]
    simpa [other] using needed
  | case3 bytes short =>
    cases bytes with
    | nil => rfl
    | cons first rest =>
      cases rest with
      | nil => rfl
      | cons second rest => exact absurd rfl (short first second rest)

theorem encodeInteger_eq (value : Int64) : encodeInteger value = dropSignBytes (bigEndian64 value.toUInt64) := by
  unfold encodeInteger
  split
  · rename_i positive
    refine dropZeroBytes_eq_dropSignBytes _ ?_
    intro first head
    cases head
    exact (nonneg_iff_first value).mp positive
  · rename_i negative
    refine dropOnesBytes_eq_dropSignBytes _ ?_
    intro first head
    cases head
    exact fun clear => negative ((nonneg_iff_first value).mpr clear)

theorem decodeInteger_encode (value : Int64) : decodeInteger (encodeInteger value) = .ok (.integer value) := by
  obtain ⟨some, short⟩ := dropSignBytes_length (bigEndian64 value.toUInt64) (by simp [bigEndian64])
  rw [bigEndian64_length] at short
  rw [encodeInteger_eq, decodeInteger, if_neg (by omega), if_neg (by omega), shiftInto64_dropSignBytes,
    shiftInto64_bigEndian64]
  rfl

theorem decodeUtf8_stringBytes (error : GooseError) (text : String) :
    decodeUtf8 error (stringBytes text) = .ok text := by
  unfold decodeUtf8
  rw [fromUTF8_stringBytes]

mutual

/-- What `encodeMmsValue` writes where it does not refuse. -/
def octets (value : MmsValue) : List UInt8 :=
  match value with
  | .array items | .struct items => encodeForm (octetsOf items) value
  | _ => encodeForm [] value

def octetsOf : List MmsValue → List UInt8
  | [] => []
  | item :: rest => octets item ++ octetsOf rest

end

mutual

def nesting : MmsValue → Nat
  | .array items => nestingOf items
  | .struct items => nestingOf items
  | _ => 0

def nestingOf : List MmsValue → Nat
  | [] => 0
  | item :: rest => max (nesting item + 1) (nestingOf rest)

end

mutual

def received : MmsValue → Fallible GooseError MmsValue
  | .bitString padding data => decodeBitString (padding :: data)
  | .binaryTime bytes =>
    if bytes.length ≠ 4 ∧ bytes.length ≠ 6 then refuse .lengthMismatch else .ok (.binaryTime bytes)
  | .array items => do return .array (← receivedAll items)
  | .struct items => do return .struct (← receivedAll items)
  | value => .ok value

def receivedAll : List MmsValue → Fallible GooseError (List MmsValue)
  | [] => .ok []
  | item :: rest => do return (← received item) :: (← receivedAll rest)

end

theorem octetsOf_eq (items : List MmsValue) : octetsOf items = items.flatMap octets := by
  induction items with
  | nil => rfl
  | cons item rest ih => rw [octetsOf, ih, List.flatMap_cons]

theorem octets_ne_nil (value : MmsValue) : octets value ≠ [] := by
  cases value <;> simp [octets, encodeForm, encodeTlv]

mutual

theorem encodeMmsValue_eq_ok {value : MmsValue} {depth : Nat} {bytes : List UInt8}
    (encoded : encodeMmsValue value depth = .ok bytes) :
    bytes = octets value ∧ depth + nesting value ≤ gooseDataMaxDepth := by
  unfold encodeMmsValue at encoded
  split at encoded
  · cases encoded
  rename_i shallow
  have level : depth + 0 ≤ gooseDataMaxDepth := Nat.not_lt.mp shallow
  cases value with
  | array items | struct items =>
    cases members : encodeMmsValues items (depth + 1) with
    | error error => simp only [members] at encoded; cases encoded
    | ok inner =>
      simp only [members] at encoded
      cases encoded
      obtain ⟨rfl, deep⟩ := encodeMmsValues_eq_ok (Nat.succ_le_succ level) members
      exact ⟨rfl, by rw [nesting]; omega⟩
  | _ =>
    cases encoded
    exact ⟨rfl, level⟩

theorem encodeMmsValues_eq_ok {items : List MmsValue} {depth : Nat} {bytes : List UInt8}
    (level : depth ≤ gooseDataMaxDepth + 1) (encoded : encodeMmsValues items depth = .ok bytes) :
    bytes = octetsOf items ∧ depth + nestingOf items ≤ gooseDataMaxDepth + 1 := by
  cases items with
  | nil =>
    cases encoded
    exact ⟨rfl, level⟩
  | cons item rest =>
    unfold encodeMmsValues at encoded
    cases first : encodeMmsValue item depth with
    | error error => simp only [first] at encoded; cases encoded
    | ok front =>
      cases others : encodeMmsValues rest depth with
      | error error => simp only [first, others] at encoded; cases encoded
      | ok back =>
        simp only [first, others] at encoded
        cases encoded
        obtain ⟨rfl, deep⟩ := encodeMmsValue_eq_ok first
        obtain ⟨rfl, deeper⟩ := encodeMmsValues_eq_ok level others
        exact ⟨rfl, by rw [nestingOf]; omega⟩

end

variable {value : MmsValue} {bytes : List UInt8} {items : List MmsValue} {data content : List UInt8} {pos : Nat}
  {tag : UInt8} {stop levels start : Nat} {pdu : GoosePdu}

section

variable (encoded : EncodedAt data pos (encodeTlv tag content))

include encoded

theorem encodedAt_content : EncodedAt data (pos + 1 + lengthSize content.length) content := by
  have right := (EncodedAt.tail encoded).right
  rwa [encodeLength_length] at right

section

variable (inside : pos + (encodeTlv tag content).length ≤ stop) (whole : stop ≤ data.length)
  (short : content.length ≤ 65535)

include inside whole short

theorem readTlvHeader_encodeTlv : readTlvHeader data pos stop =
        .ok (tag, pos + 1 + lengthSize content.length, pos + (encodeTlv tag content).length) ∧
      (slice data (pos + 1 + lengthSize content.length) (pos + (encodeTlv tag content).length) :
      Fallible GooseError _) = .ok content := by
  have size := encodeTlv_length tag content
  have header : EncodedAt data (pos + 1) (encodeLength content.length ++ content) := encoded.tail
  obtain ⟨rest, behind⟩ := @EncodedAt.sliceUpTo GooseError _ _ _ header stop
    (by rw [List.length_append, encodeLength_length]; omega) whole
  refine ⟨?_, (encodedAt_content encoded).slice (by omega) (by omega)⟩
  unfold readTlvHeader
  rw [if_neg (by omega), encoded.byteAt, ok_bind, behind, ok_bind, List.append_assoc, decodeLength_encodeLength short]
  simp only [orGooseError, ok_bind]
  rw [if_neg (by omega), size]
  congr 3
  omega

theorem decodeDataElement_tlv : decodeDataElement data (levels + 1) pos stop = (do
      let valueEnd := pos + (encodeTlv tag content).length
      let valueStart := pos + 1 + lengthSize content.length
      let items := scan (pushItem fun pos => decodeDataElement data levels pos valueEnd) valueEnd
        content.length [] valueStart
      return (← decodeContent items tag content, valueEnd)) := by
  obtain ⟨header, value⟩ := readTlvHeader_encodeTlv encoded inside whole short
  have size := encodeTlv_length tag content
  have count : pos + (encodeTlv tag content).length - (pos + 1 + lengthSize content.length) = content.length := by omega
  rw [decodeDataElement, header, ok_bind]
  dsimp only
  rw [value, ok_bind, count]

end

end

theorem foldlM_received (items found : List MmsValue) :
    items.foldlM (fun found item => do return found ++ [← received item]) found =
      (do return found ++ (← receivedAll items) : Fallible GooseError (List MmsValue)) := by
  induction items generalizing found with
  | nil =>
    rw [receivedAll, ok_bind, List.append_nil]
    rfl
  | cons item rest ih =>
    rw [List.foldlM_cons, receivedAll]
    cases received item with
    | error fault => rfl
    | ok value =>
      rw [ok_bind, ok_bind]
      rw [show (pure (found ++ [value]) : Fallible GooseError _) = .ok (found ++ [value]) from rfl, ok_bind, ih]
      cases receivedAll rest with
      | error fault => rfl
      | ok values =>
        exact congrArg Except.ok (List.append_assoc found [value] values)

/-- Wherever the octets of a value stand in the data, they are read as what becomes of it. -/
def ReadsBack (data : List UInt8) (value : MmsValue) : Prop :=
  ∀ levels pos stop, nesting value < levels → EncodedAt data pos (octets value) → pos + (octets value).length ≤ stop →
    stop ≤ data.length → decodeDataElement data levels pos stop = do
      let found ← received value
      return (found, pos + (octets value).length)

theorem scan_items (each : ∀ item ∈ items, ReadsBack data item) {fuel : Nat} (shallow : nestingOf items ≤ levels)
    (encoded : EncodedAt data start (octetsOf items)) (ends : start + (octetsOf items).length = stop)
    (whole : stop ≤ data.length) (enough : (octetsOf items).length ≤ fuel) :
    scan (pushItem fun pos => decodeDataElement data levels pos stop) stop fuel [] start = receivedAll items := by
  have below : ∀ item ∈ items, nesting item < levels := by
    clear each encoded ends enough
    induction items with
    | nil => simp
    | cons first rest ih =>
      rw [nestingOf] at shallow
      intro item listed
      cases listed with
      | head => omega
      | tail _ listed => exact ih (by omega) item listed
  rw [octetsOf_eq] at encoded ends enough
  rw [scan_pieces octets (fun item found => do return found ++ [← received item]) items ?_
    (fun item _ => octets_ne_nil item) [] encoded ends enough, foldlM_received]
  · cases receivedAll items <;> rfl
  · intro item listed found pos placed inside
    rw [pushItem, each item listed levels pos stop (below item listed) placed inside whole]
    cases received item <;> rfl

theorem decodeFloat_single (bits : UInt32) : decodeFloat (0x08 :: bigEndian32 bits) = .ok (.float32 bits) := by
  have content : (slice (0x08 :: bigEndian32 bits) 1 5 : Fallible GooseError _) = .ok (bigEndian32 bits) := rfl
  have five : (0x08 :: bigEndian32 bits).length = 5 := rfl
  rw [decodeFloat, if_pos five, content, ok_bind, shiftInto32_bigEndian32]
  rfl

theorem decodeFloat_double (bits : UInt64) : decodeFloat (0x0b :: bigEndian64 bits) = .ok (.float64 bits) := by
  have content : (slice (0x0b :: bigEndian64 bits) 1 9 : Fallible GooseError _) = .ok (bigEndian64 bits) := rfl
  have nine : (0x0b :: bigEndian64 bits).length = 9 := rfl
  rw [decodeFloat, if_neg (by omega), if_pos nine, content, ok_bind, shiftInto64_bigEndian64]
  rfl

theorem decodeContent_utcTime (items : Fallible GooseError (List MmsValue)) (bytes : Vector UInt8 8) :
    decodeContent items 0x91 bytes.toList = .ok (.utcTime bytes) := by
  simp only [decodeContent]
  rw [dif_pos (by simp)]
  congr

theorem readsBack_scalar (bounded : data.length ≤ 65535) (form : octets value = encodeTlv tag content)
    (meaning : ∀ items, decodeContent items tag content = received value) : ReadsBack data value := by
  intro levels pos stop shallow encoded inside whole
  rw [form] at encoded inside ⊢
  have size := encodeTlv_length tag content
  cases levels with
  | zero => omega
  | succ levels =>
    rw [decodeDataElement_tlv encoded inside whole (by omega)]
    dsimp only
    rw [meaning]

theorem readsBack_items (bounded : data.length ≤ 65535) (each : ∀ item ∈ items, ReadsBack data item)
    (form : octets value = encodeTlv tag (octetsOf items)) (depth : nesting value = nestingOf items)
    (meaning : decodeContent (receivedAll items) tag (octetsOf items) = received value) : ReadsBack data value := by
  intro levels pos stop shallow encoded inside whole
  rw [form] at encoded inside ⊢
  have size := encodeTlv_length tag (octetsOf items)
  cases levels with
  | zero => omega
  | succ levels =>
    rw [decodeDataElement_tlv encoded inside whole (by omega)]
    dsimp only
    rw [scan_items each (by omega) (encodedAt_content encoded) (by omega) (by omega) (Nat.le_refl _), meaning]

mutual

theorem readsBack {data : List UInt8} (bounded : data.length ≤ 65535) (value : MmsValue) : ReadsBack data value := by
  cases value with
  | boolean value =>
    refine readsBack_scalar bounded rfl fun items => ?_
    rw [decodeContent, decodeBool_encode]
    rfl
  | integer value => exact readsBack_scalar bounded rfl fun _ => decodeInteger_encode value
  | unsigned value => exact readsBack_scalar bounded rfl fun _ => decodeUnsigned_encode value
  | float32 bits => exact readsBack_scalar bounded rfl fun _ => decodeFloat_single bits
  | float64 bits => exact readsBack_scalar bounded rfl fun _ => decodeFloat_double bits
  | bitString padding bits => exact readsBack_scalar bounded rfl fun _ => by rw [received, decodeContent]
  | octetString bytes => exact readsBack_scalar bounded rfl fun _ => rfl
  | visibleString text | mmsString text =>
    refine readsBack_scalar bounded rfl fun items => ?_
    rw [decodeContent, decodeUtf8_stringBytes]
    rfl
  | utcTime bytes => exact readsBack_scalar bounded rfl fun items => decodeContent_utcTime items bytes
  | binaryTime bytes => exact readsBack_scalar bounded rfl fun _ => by rw [received, decodeContent]; rfl
  | array items | struct items =>
    exact readsBack_items bounded (readsBack_all bounded items) rfl rfl (by rw [received, decodeContent])

theorem readsBack_all {data : List UInt8} (bounded : data.length ≤ 65535) (items : List MmsValue) :
    ∀ item ∈ items, ReadsBack data item := by
  intro item listed
  cases items with
  | nil => cases listed
  | cons first rest =>
    cases listed with
    | head => exact readsBack bounded item
    | tail _ listed => exact readsBack_all bounded rest item listed

end

theorem decodeAllData_octetsOf (bounded : data.length ≤ 65535) (shallow : nestingOf items ≤ gooseDataMaxDepth + 1)
    (encoded : EncodedAt data start (octetsOf items)) (inside : start + (octetsOf items).length ≤ data.length) :
    decodeAllData data start (start + (octetsOf items).length) = receivedAll items :=
  scan_items (readsBack_all bounded items) shallow encoded rfl inside (by omega)

mutual

def wellFormed : MmsValue → Bool
  | .bitString padding data => BitsFit padding data
  | .binaryTime bytes => TimeFits bytes
  | .array items => wellFormedAll items
  | .struct items => wellFormedAll items
  | _ => true

def wellFormedAll : List MmsValue → Bool
  | [] => true
  | item :: rest => wellFormed item && wellFormedAll rest

end

mutual

def hasEmptyBitString : MmsValue → Bool
  | .bitString _ data => data.isEmpty
  | .array items => anyEmptyBitString items
  | .struct items => anyEmptyBitString items
  | _ => false

def anyEmptyBitString : List MmsValue → Bool
  | [] => false
  | item :: rest => hasEmptyBitString item || anyEmptyBitString rest

end

theorem decodeBitString_cons {padding : UInt8} (unused : padding ≤ 7) : decodeBitString (padding :: data) =
      if data.isEmpty then refuse .lengthMismatch else .ok (.bitString padding data) := by
  unfold decodeBitString
  cases data with
  | nil => rfl
  | cons first rest =>
    have notMore : ¬ 7 < padding := by
      rw [UInt8.lt_iff_toNat_lt]
      rw [UInt8.le_iff_toNat_le] at unused
      omega
    rw [if_neg (by simp), byteAt_zero_cons, ok_bind, if_neg notMore, sliceFrom_one_cons, ok_bind]
    rfl

mutual

theorem received_eq {value : MmsValue} (formed : wellFormed value = true) :
    received value = if hasEmptyBitString value then refuse .lengthMismatch else .ok value := by
  cases value with
  | bitString padding data =>
    simp only [wellFormed, decide_eq_true_eq] at formed
    rw [received, decodeBitString_cons formed.1, hasEmptyBitString]
  | binaryTime bytes =>
    simp only [wellFormed, decide_eq_true_eq] at formed
    rw [received, if_neg (by omega)]
    rfl
  | array items | struct items =>
    rw [wellFormed] at formed
    rw [received, receivedAll_eq formed, hasEmptyBitString]
    cases anyEmptyBitString items <;> rfl
  | _ => rfl

theorem receivedAll_eq {items : List MmsValue} (formed : wellFormedAll items = true) :
    receivedAll items = if anyEmptyBitString items then refuse .lengthMismatch else .ok items := by
  cases items with
  | nil => rfl
  | cons item rest =>
    rw [wellFormedAll, Bool.and_eq_true] at formed
    rw [receivedAll, received_eq formed.1, receivedAll_eq formed.2, anyEmptyBitString]
    cases hasEmptyBitString item <;> cases anyEmptyBitString rest <;> rfl

end

def memberOctets (pdu : GoosePdu) : List (UInt8 × List UInt8) := [
  (0x80, stringBytes pdu.gocbRef),
  (0x81, encodeU32Integer pdu.timeAllowedToLive),
  (0x82, stringBytes pdu.datSet),
  (0x83, stringBytes pdu.goId),
  (0x84, pdu.t.toBytes.toList),
  (0x85, encodeU32Integer pdu.stNum),
  (0x86, encodeU32Integer pdu.sqNum),
  (0x87, encodeBool pdu.simulation),
  (0x88, encodeU32Integer pdu.confRev),
  (0x89, encodeBool pdu.ndsCom),
  (0x8a, encodeU32Integer pdu.numDatasetEntries),
  (0xab, octetsOf pdu.allData)]

def memberTlv (member : UInt8 × List UInt8) : List UInt8 := encodeTlv member.1 member.2

theorem encodeBer_eq_ok (encoded : pdu.encodeBer = .ok bytes) :
    bytes = encodeTlv 0x61 ((memberOctets pdu).flatMap memberTlv) ∧ nestingOf pdu.allData ≤ gooseDataMaxDepth + 1 := by
  unfold GoosePdu.encodeBer at encoded
  cases values : encodeMmsValues pdu.allData 0 with
  | error error => simp only [values] at encoded; cases encoded
  | ok allData =>
    simp only [values] at encoded
    cases encoded
    obtain ⟨rfl, deep⟩ := encodeMmsValues_eq_ok (Nat.zero_le _) values
    refine ⟨?_, by omega⟩
    simp [memberOctets, memberTlv]

theorem GooseMembers.take_values (other : tag ≠ 0xab) (members : GooseMembers)
    (values values' : Fallible GooseError (List MmsValue)) (content : List UInt8) :
    members.take values tag content = members.take values' tag content := by
  unfold GooseMembers.take
  split <;> first | rfl | exact absurd rfl other

theorem readMember_memberTlv (bounded : data.length ≤ 65535)
    (shallow : nestingOf pdu.allData ≤ gooseDataMaxDepth + 1) {member : UInt8 × List UInt8}
    (listed : member ∈ memberOctets pdu) (members : GooseMembers) {pduEnd : Nat}
    (whole : pduEnd ≤ data.length) (encoded : EncodedAt data pos (memberTlv member))
    (inside : pos + (memberTlv member).length ≤ pduEnd) :
    readMember data pduEnd members pos = do
      return (← members.take (receivedAll pdu.allData) member.1 member.2, pos + (memberTlv member).length) := by
  obtain ⟨tag, content⟩ := member
  unfold memberTlv at encoded inside ⊢
  dsimp only at encoded inside ⊢
  have size := encodeTlv_length tag content
  obtain ⟨header, value⟩ := readTlvHeader_encodeTlv encoded inside whole (by omega)
  unfold readMember
  rw [header, ok_bind]
  dsimp only
  rw [value, ok_bind]
  congr 1
  by_cases values : tag = 0xab
  · subst values
    have same : content = octetsOf pdu.allData := by simpa [memberOctets] using listed
    have ends : pos + (encodeTlv 0xab content).length = pos + 1 + lengthSize content.length + content.length := by omega
    rw [ends]
    subst same
    rw [decodeAllData_octetsOf bounded shallow (encodedAt_content encoded) (by omega)]
  · exact members.take_values values _ _ content

theorem decodeBer_members (encoded : pdu.encodeBer = .ok bytes) (bounded : bytes.length ≤ 65535) :
    GoosePdu.decodeBer bytes = (do
      let members ← (memberOctets pdu).foldlM
        (fun members member => members.take (receivedAll pdu.allData) member.1 member.2) ({} : GooseMembers)
      members.complete) := by
  obtain ⟨form, shallow⟩ := encodeBer_eq_ok encoded
  have reads : ∀ member ∈ memberOctets pdu, ∀ members pos, EncodedAt bytes pos (memberTlv member) →
      pos + (memberTlv member).length ≤ bytes.length → readMember bytes bytes.length members pos = do
        let members ← members.take (receivedAll pdu.allData) member.1 member.2
        return (members, pos + (memberTlv member).length) := by
    intro member listed members pos encoded inside
    exact readMember_memberTlv bounded shallow listed members (Nat.le_refl _) encoded inside
  have walked := @scan_pieces _ _ _ _ _ _ memberTlv
    (fun member (members : GooseMembers) =>
      members.take (receivedAll pdu.allData) member.1 member.2) (memberOctets pdu) reads
    (fun member _ => by simp [memberTlv, encodeTlv])
  generalize (memberOctets pdu).flatMap memberTlv = content at form walked
  have some := lengthSize_pos content.length
  have size : bytes.length = 1 + lengthSize content.length + content.length := by rw [form, encodeTlv_length]
  have placed : EncodedAt bytes 0 (encodeTlv 0x61 content) := by
    rw [form]
    exact List.prefix_refl _
  have body := encodedAt_content placed
  have behind : (sliceFrom bytes 1 : Fallible GooseError _) = .ok (encodeLength content.length ++ content) := by
    rw [form]
    exact sliceFrom_one_cons _ _
  unfold GoosePdu.decodeBer
  rw [if_neg (by omega), placed.byteAt, ok_bind, if_neg (by simp), behind, ok_bind,
    decodeLength_encodeLength (by omega)]
  simp only [orGooseError, ok_bind]
  rw [if_neg (by omega), ← size, walked {} body size.symm (Nat.le_refl _)]

theorem parseStringField_stringBytes (text : String) : parseStringField (stringBytes text) gooseStringMaxLen =
      if gooseStringMaxLen < (stringBytes text).length then
        refuse (.fieldTooLong (stringBytes text).length) else .ok text := by
  unfold parseStringField
  rw [decodeUtf8_stringBytes]

theorem decodeTimestamp_toBytes (time : UtcTime) : decodeTimestamp time.toBytes.toList = .ok time := by
  unfold decodeTimestamp
  rw [dif_pos (by simp)]
  have same : (⟨time.toBytes.toList.toArray, by simp⟩ : Vector UInt8 8) = time.toBytes := by
    apply Vector.toList_inj.mp
    simp
  rw [same, UtcTime.fromBytes_toBytes]

theorem decodeBer_encodeBer (encoded : pdu.encodeBer = .ok bytes) (bounded : bytes.length ≤ 65535) :
    GoosePdu.decodeBer bytes = (do
      let gocbRef ← parseStringField (stringBytes pdu.gocbRef) gooseStringMaxLen
      let datSet ← parseStringField (stringBytes pdu.datSet) gooseStringMaxLen
      let goId ← parseStringField (stringBytes pdu.goId) gooseStringMaxLen
      if pdu.stNum = 0 then
        refuse .invalidStateNumber
      else
        let allData ← receivedAll pdu.allData
        if pdu.numDatasetEntries.toNat ≠ allData.length then
          refuse (.dataSetLengthMismatch pdu.numDatasetEntries.toNat allData.length)
        else
          return { pdu with gocbRef, datSet, goId, allData }) := by
  rw [decodeBer_members encoded bounded]
  simp only [memberOctets, List.foldlM_cons, List.foldlM_nil, GooseMembers.take, decodeU32_encode, decodeBool_encode,
    decodeTimestamp_toBytes]
  cases parseStringField (stringBytes pdu.gocbRef) gooseStringMaxLen with
  | error fault => rfl
  | ok gocbRef =>
    cases parseStringField (stringBytes pdu.datSet) gooseStringMaxLen with
    | error fault => rfl
    | ok datSet =>
      cases parseStringField (stringBytes pdu.goId) gooseStringMaxLen with
      | error fault => rfl
      | ok goId =>
        dsimp only [bind, Except.bind, pure, Except.pure]
        by_cases zero : pdu.stNum = 0
        · rw [if_pos zero, if_pos zero]
          rfl
        · rw [if_neg zero, if_neg zero]
          cases receivedAll pdu.allData with
          | error fault | ok allData => rfl

/-- What the decoder asks of a PDU beyond what the encoder does: the references are short enough,
and no bit string in the values is empty. -/
def GoosePdu.Readable (pdu : GoosePdu) : Prop :=
  (stringBytes pdu.gocbRef).length ≤ gooseStringMaxLen ∧ (stringBytes pdu.datSet).length ≤ gooseStringMaxLen ∧
    (stringBytes pdu.goId).length ≤ gooseStringMaxLen ∧ anyEmptyBitString pdu.allData = false

instance (pdu : GoosePdu) : Decidable pdu.Readable := inferInstanceAs (Decidable (_ ∧ _ ∧ _ ∧ _))

theorem decodeBer_encodeBer_iff (encoded : pdu.encodeBer = .ok bytes)
    (bounded : bytes.length ≤ 65535) (formed : wellFormedAll pdu.allData = true) (started : pdu.stNum ≠ 0)
    (counted : pdu.numDatasetEntries.toNat = pdu.allData.length) :
    GoosePdu.decodeBer bytes = .ok pdu ↔ pdu.Readable := by
  rw [decodeBer_encodeBer encoded bounded, parseStringField_stringBytes, parseStringField_stringBytes,
    parseStringField_stringBytes, receivedAll_eq formed]
  unfold GoosePdu.Readable
  by_cases gocbRef : gooseStringMaxLen < (stringBytes pdu.gocbRef).length
  · rw [if_pos gocbRef]
    exact iff_of_false (fun decoded => by cases decoded) (fun readable => by omega)
  by_cases datSet : gooseStringMaxLen < (stringBytes pdu.datSet).length
  · rw [if_neg gocbRef, if_pos datSet]
    exact iff_of_false (fun decoded => by cases decoded) (fun readable => by omega)
  by_cases goId : gooseStringMaxLen < (stringBytes pdu.goId).length
  · rw [if_neg gocbRef, if_neg datSet, if_pos goId]
    exact iff_of_false (fun decoded => by cases decoded) (fun readable => by omega)
  rw [if_neg gocbRef, if_neg datSet, if_neg goId, ok_bind, ok_bind, ok_bind, if_neg started]
  cases anyEmptyBitString pdu.allData with
  | true => exact iff_of_false (fun decoded => by cases decoded) (fun readable => by cases readable.2.2.2)
  | false =>
    rw [if_neg (by simp), ok_bind, if_neg (by simpa using counted)]
    exact iff_of_true rfl ⟨Nat.not_lt.mp gocbRef, Nat.not_lt.mp datSet, Nat.not_lt.mp goId, rfl⟩

theorem length_le_octetsOf (items : List MmsValue) : items.length ≤ (octetsOf items).length := by
  induction items with
  | nil => exact Nat.le_refl 0
  | cons item rest ih =>
    have some := List.length_pos_of_ne_nil (octets_ne_nil item)
    rw [octetsOf, List.length_cons, List.length_append]
    omega

theorem length_le_encodeBer (encoded : pdu.encodeBer = .ok bytes) : pdu.allData.length ≤ bytes.length := by
  obtain ⟨rfl, _⟩ := encodeBer_eq_ok encoded
  have values := length_le_octetsOf pdu.allData
  simp only [memberOctets, memberTlv, List.flatMap_cons, List.flatMap_nil, List.length_append, encodeTlv_length,
    List.append_nil]
  omega

/-- A frame around any PDU is read back with its header, and the PDU exactly if it is readable. -/
theorem frame_read_back_iff (header : GooseFrameHeader) {pdu : GoosePdu} {bytes : List UInt8}
    (encoded : pdu.encodeBer = .ok bytes) (fits : bytes.length + gooseHeaderSize ≤ 65535)
    (formed : wellFormedAll pdu.allData = true) (started : pdu.stNum ≠ 0)
    (counted : pdu.numDatasetEntries.toNat = pdu.allData.length) :
    ∃ frame, GooseFrame.decode (GooseFrame.encode ⟨header, bytes⟩) = .ok frame ∧
      frame.header = { header with
        vlan := header.vlan.map VlanTag.sent, length := UInt16.ofNat (bytes.length + gooseHeaderSize) } ∧
      (GoosePdu.decodeBer frame.pduBytes = .ok pdu ↔ pdu.Readable) := by
  have read := decodeBer_encodeBer_iff encoded (Nat.le_of_add_right_le fits) formed started counted
  exact ⟨_, GooseFrame.decode_encode _ fits, rfl, read⟩

def simulatedPdu : GoosePdu := ⟨"gcb", 8, "ds", "", .null, 1, 0, true, 1, false, 1, [.boolean true]⟩

theorem simulatedPdu_read_back : ∃ bytes frame, simulatedPdu.encodeBer = .ok bytes ∧
      GooseFrame.decode (GooseFrame.encode ⟨⟨.replicate 6 1, .replicate 6 2, none, 1, 0, true⟩, bytes⟩) = .ok frame ∧
      GoosePdu.decodeBer frame.pduBytes = .ok simulatedPdu := by
  obtain ⟨bytes, encoded, fits⟩ : ∃ bytes, simulatedPdu.encodeBer = .ok bytes ∧ bytes.length + gooseHeaderSize ≤ 65535 :=
    ⟨_, rfl, by decide +kernel⟩
  obtain ⟨frame, decoded, -, read⟩ :=
    frame_read_back_iff ⟨.replicate 6 1, .replicate 6 2, none, 1, 0, true⟩ encoded fits
    rfl (by decide) rfl
  refine ⟨bytes, frame, encoded, decoded, read.mpr ?_⟩
  unfold GoosePdu.Readable
  decide +kernel

end Iec61850.Goose
