import Iec61850.Mms.Decode

/-!
Decoding what was encoded: every value within the decoder's ceiling comes back, whatever octets
follow it.
-/

namespace Iec61850.Mms

open List Wire Wire.Fallible

@[simp] theorem bigEndian32_length (value : UInt32) : (bigEndian32 value).length = 4 := rfl

variable (text : String) (bytes : List UInt8) (value start : UInt64)

@[simp] theorem bigEndian64_length : (bigEndian64 value).length = 8 := rfl

theorem ofBytes_bigEndian32 (value : UInt32) : ofBytes (bigEndian32 value) = value.toNat := by
  have bound := value.toNat_lt
  simp only [bigEndian32, map_cons, map_nil, ofBytes_cons, ofBytes_nil, length_cons, length_nil,
    UInt32.toNat_toUInt8, UInt32.toNat_shiftRight, UInt32.reduceToNat, Nat.shiftRight_eq_div_pow,
    Nat.reduceMod, Nat.reducePow, Nat.reduceAdd]
  omega

theorem ofBytes_bigEndian64 : ofBytes (bigEndian64 value) = value.toNat := by
  have bound := value.toNat_lt
  simp only [bigEndian64, map_cons, map_nil, ofBytes_cons, ofBytes_nil, length_cons, length_nil,
    UInt64.toNat_toUInt8, UInt64.toNat_shiftRight, UInt64.reduceToNat, Nat.shiftRight_eq_div_pow,
    Nat.reduceMod, Nat.reducePow, Nat.reduceAdd]
  omega

theorem shiftInto32_bigEndian32 (value : UInt32) : shiftInto32 0 (bigEndian32 value) = value := by
  apply UInt32.toNat_inj.mp
  rw [shiftInto32_zero (by simp), ofBytes_bigEndian32]

theorem shiftInto64_bigEndian64 : shiftInto64 start (bigEndian64 value) = value := by
  apply UInt64.toNat_inj.mp
  rw [shiftInto64_full (by simp), ofBytes_bigEndian64]

theorem dropSignBytes_length (nonempty : bytes ≠ []) :
    1 ≤ (dropSignBytes bytes).length ∧ (dropSignBytes bytes).length ≤ bytes.length := by
  fun_induction dropSignBytes bytes with
  | case1 first second rest carried ih =>
    have bounds := ih (by simp)
    simp only [length_cons] at bounds ⊢
    omega
  | case2 first second rest needed => simp
  | case3 bytes short =>
    have positive := length_pos_of_ne_nil nonempty
    omega

theorem dropZeroBytes_length (nonempty : bytes ≠ []) :
    1 ≤ (dropZeroBytes bytes).length ∧ (dropZeroBytes bytes).length ≤ bytes.length := by
  fun_induction dropZeroBytes bytes with
  | case1 first second rest carried ih =>
    have bounds := ih (by simp)
    simp only [length_cons] at bounds ⊢
    omega
  | case2 first second rest needed => simp
  | case3 bytes short =>
    have positive := length_pos_of_ne_nil nonempty
    omega

theorem dropZeroBytes_eq_dropSignBytes (positive : ∀ first ∈ bytes.head?, first &&& 0x80 = 0) :
    dropZeroBytes bytes = dropSignBytes bytes := by
  fun_induction dropZeroBytes bytes with
  | case1 first second rest carried ih =>
    rw [dropSignBytes, if_pos (by simp [carried])]
    simp only [Bool.and_eq_true, beq_iff_eq] at carried
    exact ih (by simpa using carried.2)
  | case2 first second rest needed =>
    have clear : first &&& 0x80 = 0 := positive first rfl
    have other : first ≠ 0xff := by
      intro ones
      rw [ones] at clear
      cases clear
    rw [dropSignBytes, if_neg]
    simpa [other] using needed
  | case3 bytes short =>
    cases bytes with
    | nil => rfl
    | cons first rest =>
      cases rest with
      | nil => rfl
      | cons second rest => exact absurd rfl (short first second rest)

theorem nonneg_iff_first (value : Int64) : 0 ≤ value ↔ (value.toUInt64 >>> 56).toUInt8 &&& 0x80 = 0 := by
  have pattern : value.toUInt64.toNat = value.toBitVec.toNat := rfl
  have bound := value.toUInt64.toNat_lt
  have signed : value.toInt = value.toBitVec.toInt := rfl
  have zero : (0 : Int64).toInt = 0 := rfl
  rw [and_top_eq_zero_iff, UInt64.toNat_toUInt8, UInt64.toNat_shiftRight, show (56 : UInt64).toNat % 64 = 56 from rfl,
    Nat.shiftRight_eq_div_pow, Int64.le_iff_toInt_le, zero, signed, BitVec.toInt_eq_toNat_cond, ← pattern]
  split <;> omega

theorem shiftInto64_dropSignBytes :
    shiftInto64 (signFill (dropSignBytes bytes)) (dropSignBytes bytes) = shiftInto64 (signFill bytes) bytes := by
  fun_induction dropSignBytes bytes with
  | case1 first second rest carried ih =>
    rw [ih]
    simp only [Bool.or_eq_true, Bool.and_eq_true, beq_iff_eq, bne_iff_ne] at carried
    rcases carried with ⟨rfl, positive⟩ | ⟨rfl, negative⟩
    · simp [signFill, positive, shiftInto64]
    have filled : ((0xffffffffffffffff : UInt64) <<< 8) ||| (0xff : UInt8).toUInt64 = 0xffffffffffffffff := by decide
    have sign : (0xff : UInt8) &&& 0x80 ≠ 0 := by decide
    simp only [signFill, bne_iff_ne, ne_eq, negative, sign, not_false_eq_true, if_true, shiftInto64, foldl_cons,
      filled]
  | case2 first second rest needed | case3 bytes short => rfl

theorem ofBytes_dropZeroBytes : ofBytes (dropZeroBytes bytes) = ofBytes bytes := by
  fun_induction dropZeroBytes bytes with
  | case1 first second rest carried ih =>
    simp only [Bool.and_eq_true, beq_iff_eq] at carried
    rw [ih, carried.1, ofBytes_cons 0]
    simp
  | case2 first second rest needed | case3 bytes short => rfl

theorem encodeSignedIntMinimal_length (value : Int64) :
    1 ≤ (encodeSignedIntMinimal value).length ∧ (encodeSignedIntMinimal value).length ≤ 8 := by
  unfold encodeSignedIntMinimal
  split
  · decide
  · exact dropSignBytes_length _ (by simp [bigEndian64])

theorem encodeUnsignedIntMinimal_length :
    1 ≤ (encodeUnsignedIntMinimal value).length ∧ (encodeUnsignedIntMinimal value).length ≤ 8 := by
  unfold encodeUnsignedIntMinimal
  split
  · decide
  · exact dropZeroBytes_length _ (by simp [bigEndian64])

theorem ofBytes_encodeUnsignedIntMinimal : ofBytes (encodeUnsignedIntMinimal value) = value.toNat := by
  unfold encodeUnsignedIntMinimal
  split
  · next zero => simp [zero, ofBytes_cons]
  · rw [ofBytes_dropZeroBytes, ofBytes_bigEndian64]

theorem decodeSignedInt_encode (value : Int64) : decodeSignedInt (encodeSignedIntMinimal value) = .ok value := by
  obtain ⟨atLeast, atMost⟩ := encodeSignedIntMinimal_length value
  have notEmpty : (encodeSignedIntMinimal value).isEmpty = false := by
    cases octets : encodeSignedIntMinimal value with
    | nil => rw [octets] at atLeast; cases atLeast
    | cons first rest => rfl
  have collected : shiftInto64 (signFill (encodeSignedIntMinimal value)) (encodeSignedIntMinimal value) =
      value.toUInt64 := by
    unfold encodeSignedIntMinimal
    split
    · next zero => subst zero; decide
    · rw [shiftInto64_dropSignBytes, shiftInto64_bigEndian64]
  unfold decodeSignedInt
  rw [if_neg (by simp [notEmpty]; omega), collected]
  rfl

theorem decodeUnsignedInt_encode : decodeUnsignedInt (encodeUnsignedIntMinimal value) = .ok value := by
  obtain ⟨atLeast, atMost⟩ := encodeUnsignedIntMinimal_length value
  have notEmpty : (encodeUnsignedIntMinimal value).isEmpty = false := by
    cases octets : encodeUnsignedIntMinimal value with
    | nil => rw [octets] at atLeast; cases atLeast
    | cons first rest => rfl
  have collected : shiftInto64 0 (encodeUnsignedIntMinimal value) = value := by
    apply UInt64.toNat_inj.mp
    rw [shiftInto64_zero atMost, ofBytes_encodeUnsignedIntMinimal]
  unfold decodeUnsignedInt
  rw [if_neg (by simp [notEmpty]; omega), collected]
  rfl

theorem fromUTF8_stringBytes : String.fromUTF8? ⟨(stringBytes text).toArray⟩ = some text := by
  have bytes : (⟨(stringBytes text).toArray⟩ : ByteArray) = text.toByteArray := by
    simp [stringBytes]
  rw [bytes]
  simp [String.fromUTF8?, text.isValidUTF8, String.fromUTF8]

theorem decodeUtf8_stringBytes : decodeUtf8 (stringBytes text) = .ok text := by
  unfold decodeUtf8
  rw [fromUTF8_stringBytes]

theorem decodeBitString_cons {padding : UInt8} {data : List UInt8} (small : padding ≤ 7)
    (empty : data = [] → padding = 0) : decodeBitString (padding :: data) = .ok (padding, data) := by
  simp only [decodeBitString]
  rw [if_neg]
  · rfl
  · intro refused
    simp only [Bool.or_eq_true, decide_eq_true_eq, Bool.and_eq_true, List.isEmpty_iff, bne_iff_ne] at refused
    rcases refused with large | ⟨none, nonzero⟩
    · exact absurd small (UInt8.not_le.mpr large)
    · exact nonzero (empty none)

namespace MmsData

mutual

def nestingDepth : MmsData → Nat
  | .array items => membersDepth items
  | .struct items => membersDepth items
  | _ => 0

def membersDepth : List MmsData → Nat
  | [] => 0
  | item :: rest => max (item.nestingDepth + 1) (membersDepth rest)

end

mutual

/-- The values the wire format can carry, with contents of a length that `fits`. -/
def Formed (fits : Nat → Prop) : MmsData → Prop
  | .array items => fits (encodeAll items).length ∧ MembersFormed fits items
  | .struct items => fits (encodeAll items).length ∧ MembersFormed fits items
  | .octetString bytes => fits bytes.length
  | .visibleString text => fits (stringLen text)
  | .generalizedTime text => fits (stringLen text)
  | .mmsString text => fits (stringLen text)
  | .binaryTime bytes => Model.TimeFits bytes
  | .bitString padding data => Model.BitsFit padding data ∧ fits (data.length + 1)
  | .booleanArray padding data => Model.BitsFit padding data ∧ fits (data.length + 1)
  | .boolean _ => True
  | .integer _ => True
  | .unsigned _ => True
  | .float32 _ => True
  | .float64 _ => True
  | .utcTime _ => True

def MembersFormed (fits : Nat → Prop) : List MmsData → Prop
  | [] => True
  | item :: rest => item.Formed fits ∧ MembersFormed fits rest

end

/-- The values the wire format has room for: a length field counts up to 65535 octets. -/
def WellFormed : MmsData → Prop := Formed (· ≤ 65535)

theorem encodeAll_eq_flatMap (items : List MmsData) : encodeAll items = items.flatMap encode := by
  induction items with
  | nil => rfl
  | cons item rest ih => rw [encodeAll, ih, flatMap_cons]

theorem encode_ne_nil (data : MmsData) : data.encode ≠ [] := by
  cases data <;> simp [encode, encodeTlv, encodeBoolean]

def decodeMembers (maxDepth : UInt8) (levels : Nat) (depth : UInt8) (content : List UInt8) :
    Fallible MmsError (List MmsData) := do
  let below ← nextDepth depth
  readWhole (decodeLevels maxDepth levels below) content

variable (maxDepth depth : UInt8) (levels : Nat)

theorem decodeLevels_tlv {maxDepth depth : UInt8} {levels : Nat} {tag : UInt8}
    {content : List UInt8} {value : MmsData} (fits : content.length ≤ 65535)
    (decoded : decodeContent (decodeMembers maxDepth levels depth) tag content = .ok value)
    (rest : List UInt8) :
    decodeLevels maxDepth (levels + 1) depth (encodeTlv tag content ++ rest) =
      .ok (value, (encodeTlv tag content).length) := by
  have element := readElement_encodeTlv tag fits rest
  unfold decodeLevels
  rw [element, ok_bind]
  change (decodeContent (decodeMembers maxDepth levels depth) tag content >>= fun value =>
    pure (value, (encodeTlv tag content).length)) = _
  rw [decoded]
  rfl

theorem decodeMembers_encodeAll (room : depth.toNat < 255) {items : List MmsData}
    (each : ∀ item ∈ items, ∀ rest, decodeLevels maxDepth levels (depth + 1) (item.encode ++ rest) =
      .ok (item, item.encode.length)) : decodeMembers maxDepth levels depth (encodeAll items) = .ok items := by
  unfold decodeMembers
  rw [nextDepth_of_lt room, ok_bind, encodeAll_eq_flatMap]
  exact readAll_encoded encode items each (fun item _ => encode_ne_nil item) _ (Nat.le_refl _)

mutual

theorem decodeLevels_encode (data : MmsData) (wellFormed : data.WellFormed) (maxDepth depth : UInt8) (levels : Nat)
    (room : depth.toNat + levels < 255) (nesting : data.nestingDepth ≤ levels) (rest : List UInt8) :
    decodeLevels maxDepth (levels + 1) depth (data.encode ++ rest) = .ok (data, data.encode.length) := by
  cases data with
  | boolean value =>
    have written : encode (.boolean value) = encodeTlv 0x83 [if value then 0xff else 0x00] := rfl
    rw [written]
    apply decodeLevels_tlv (by simp)
    cases value <;> rfl
  | array items | struct items =>
    obtain ⟨fits, members⟩ := wellFormed
    apply decodeLevels_tlv fits
    have read := decodeMembers_encodeAll maxDepth depth levels (by omega)
      (decodeLevels_encodeMember items members maxDepth depth levels room nesting)
    simp only [decodeContent, read, ok_bind]
    rfl
  | integer value =>
    have bounds := encodeSignedIntMinimal_length value
    apply decodeLevels_tlv (by omega)
    simp only [decodeContent, decodeSignedInt_encode, ok_bind]
    rfl
  | unsigned value =>
    have bounds := encodeUnsignedIntMinimal_length value
    apply decodeLevels_tlv (by omega)
    simp only [decodeContent, decodeUnsignedInt_encode, ok_bind]
    rfl
  | float32 bits =>
    have written : encode (.float32 bits) = encodeTlv 0x87 (0x08 :: bigEndian32 bits) := rfl
    rw [written]
    apply decodeLevels_tlv (by simp)
    have content : (slice (0x08 :: bigEndian32 bits) 1 5 : Fallible MmsError _) = .ok (bigEndian32 bits) := rfl
    simp [decodeContent, decodeFloatingPoint, content, shiftInto32_bigEndian32, pure, Except.pure]
  | float64 bits =>
    have written : encode (.float64 bits) = encodeTlv 0x87 (0x0b :: bigEndian64 bits) := rfl
    rw [written]
    apply decodeLevels_tlv (by simp)
    have content : (slice (0x0b :: bigEndian64 bits) 1 9 : Fallible MmsError _) = .ok (bigEndian64 bits) := rfl
    simp [decodeContent, decodeFloatingPoint, content, shiftInto64_bigEndian64, pure, Except.pure]
  | octetString bytes =>
    apply decodeLevels_tlv wellFormed
    rfl
  | visibleString text | generalizedTime text | mmsString text =>
    have fits : (stringBytes text).length ≤ 65535 := wellFormed
    apply decodeLevels_tlv fits
    simp only [decodeContent, decodeUtf8_stringBytes, ok_bind]
    rfl
  | binaryTime bytes =>
    have size : bytes.length = 4 ∨ bytes.length = 6 := wellFormed
    apply decodeLevels_tlv (by omega)
    simp only [decodeContent]
    rw [if_neg (by omega)]
    rfl
  | bitString padding bits | booleanArray padding bits =>
    obtain ⟨⟨small, empty⟩, fits⟩ := wellFormed
    have octets : (padding :: bits).length ≤ 65535 := fits
    apply decodeLevels_tlv octets
    simp only [decodeContent, decodeBitString_cons small empty, ok_bind]
    rfl
  | utcTime bytes =>
    have size : bytes.toList.length = 8 := by simp
    have written : encode (.utcTime bytes) = encodeTlv 0x91 bytes.toList := by
      simp [encode, encodeTlv, encodeLength]
    rw [written]
    apply decodeLevels_tlv (by omega)
    have octets : bytes.toList.toArray = bytes.toArray := Array.toArray_toList
    simp [decodeContent, octets, pure, Except.pure]

theorem decodeLevels_encodeMember (items : List MmsData) (wellFormed : MembersFormed (· ≤ 65535) items)
    (maxDepth depth : UInt8) (levels : Nat) (room : depth.toNat + levels < 255)
    (nesting : membersDepth items ≤ levels) :
    ∀ item ∈ items, ∀ rest,
      decodeLevels maxDepth levels (depth + 1) (item.encode ++ rest) = .ok (item, item.encode.length) := by
  cases items with
  | nil => simp
  | cons first others =>
    obtain ⟨firstFormed, othersFormed⟩ := wellFormed
    have deepest : max (first.nestingDepth + 1) (membersDepth others) ≤ levels := nesting
    intro item member rest
    rcases mem_cons.mp member with same | inOthers
    · rw [same]
      cases levels with
      | zero => omega
      | succ levels =>
        have below : (depth + 1).toNat = depth.toNat + 1 := depth_succ (by omega)
        exact decodeLevels_encode first firstFormed maxDepth (depth + 1) levels (by omega) (by omega) rest
    · exact decodeLevels_encodeMember others othersFormed maxDepth depth levels room (by omega) item inOthers rest

end

theorem effectiveNestingCap_le (negotiated : Option UInt8) :
    (effectiveNestingCap maxDataNestingDepth negotiated).toNat ≤ 32 := by
  unfold effectiveNestingCap
  split
  · split
    · next smaller => exact Nat.le_of_lt (UInt8.lt_iff_toNat_lt.mp smaller)
    · decide
  · decide

/-- Every value the wire format has room for, nested no deeper than the decoder's ceiling, is
decoded from its encoding whatever octets follow; exactly the encoding is consumed, and its size is
the one predicted. -/
theorem decode_encode_within_ceiling (data : MmsData) (wellFormed : data.WellFormed) (negotiated : Option UInt8)
    (nesting : data.nestingDepth ≤ (effectiveNestingCap maxDataNestingDepth negotiated).toNat) (rest : List UInt8) :
    decodeWithMax (data.encode ++ rest) (effectiveNestingCap maxDataNestingDepth negotiated) =
        .ok (data, data.encode.length) ∧
      data.estimatedEncodedSize = data.encode.length := by
  have ceiling := effectiveNestingCap_le negotiated
  refine ⟨?_, (encode_length data).symm⟩
  apply decodeLevels_encode data wellFormed _ 0 _ _ nesting rest
  rw [show (0 : UInt8).toNat = 0 from rfl]
  omega

def nestedSample : MmsData := .struct [.bitString 3 [0x40, 0x00], .array [.integer (-129), .unsigned 128]]

theorem nestedSample_read_back :
    decodeWithMax (nestedSample.encode ++ [0x83, 0x01]) (effectiveNestingCap maxDataNestingDepth (some 2)) =
        .ok (nestedSample, nestedSample.encode.length) ∧
      nestedSample.estimatedEncodedSize = nestedSample.encode.length := by
  apply decode_encode_within_ceiling
  · simp only [nestedSample, WellFormed, Formed, MembersFormed]
    decide
  · decide

end MmsData

end Iec61850.Mms
