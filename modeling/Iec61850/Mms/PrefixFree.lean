import Iec61850.Mms.AccessSpelling

/-!
Two values that encode to the same octets are the same value, and the octets of one value never
begin those of another.
-/

namespace Iec61850.Mms

theorem encodeSignedIntMinimal_injective {value other : Int64}
    (same : encodeSignedIntMinimal value = encodeSignedIntMinimal other) : value = other := by
  have read := decodeSignedInt_encode value
  rw [same, decodeSignedInt_encode] at read
  injection read with equal
  exact equal.symm

theorem encodeUnsignedIntMinimal_injective {value other : UInt64}
    (same : encodeUnsignedIntMinimal value = encodeUnsignedIntMinimal other) : value = other := by
  have read := decodeUnsignedInt_encode value
  rw [same, decodeUnsignedInt_encode] at read
  injection read with equal
  exact equal.symm

theorem bigEndian32_injective {value other : UInt32}
    (same : bigEndian32 value = bigEndian32 other) : value = other := by
  rw [← shiftInto32_bigEndian32 value, same, shiftInto32_bigEndian32]

theorem bigEndian64_injective {value other : UInt64}
    (same : bigEndian64 value = bigEndian64 other) : value = other := by
  rw [← shiftInto64_bigEndian64 value 0, same, shiftInto64_bigEndian64]

namespace MmsData

def tag : MmsData → UInt8
  | .boolean _ => 0x83
  | .array _ => 0xa1
  | .struct _ => 0xa2
  | .integer _ => 0x85
  | .unsigned _ => 0x86
  | .float32 _ => 0x87
  | .float64 _ => 0x87
  | .octetString _ => 0x89
  | .visibleString _ => 0x8a
  | .generalizedTime _ => 0x8b
  | .binaryTime _ => 0x8c
  | .bitString _ _ => 0x84
  | .booleanArray _ _ => 0x8e
  | .mmsString _ => 0x90
  | .utcTime _ => 0x91

def content : MmsData → List UInt8
  | .boolean value => [if value then 0xff else 0x00]
  | .array items => encodeAll items
  | .struct items => encodeAll items
  | .integer value => encodeSignedIntMinimal value
  | .unsigned value => encodeUnsignedIntMinimal value
  | .float32 bits => 0x08 :: bigEndian32 bits
  | .float64 bits => 0x0b :: bigEndian64 bits
  | .octetString bytes => bytes
  | .visibleString text => stringBytes text
  | .generalizedTime text => stringBytes text
  | .binaryTime bytes => bytes
  | .bitString padding data => padding :: data
  | .booleanArray padding data => padding :: data
  | .mmsString text => stringBytes text
  | .utcTime bytes => bytes.toList

theorem encode_eq_encodeTlv (data : MmsData) : data.encode = encodeTlv data.tag data.content := by
  cases data with
  | utcTime bytes =>
    rw [encode, tag, content, encodeTlv, Vector.length_toList]
    rfl
  | _ => rfl

theorem tlv_encode {data : MmsData} (fits : data.encode.length ≤ 65535) : Tlv data.tag data.content data.encode := by
  rw [encode_eq_encodeTlv] at fits ⊢
  rw [encodeTlv_length] at fits
  exact tlv_encodeTlv data.tag (by omega)

theorem content_length {data : MmsData} (fits : data.encode.length ≤ 65535) : data.content.length ≤ 65535 := by
  rw [encode_eq_encodeTlv, encodeTlv_length] at fits
  omega

mutual

theorem encode_prefixFree (data other : MmsData) (rest rest' : List UInt8)
    (same : data.encode ++ rest = other.encode ++ rest') (fits : data.encode.length ≤ 65535)
    (fits' : other.encode.length ≤ 65535) : data = other ∧ rest = rest' := by
  obtain ⟨tags, contents, rests⟩ := tlv_unique (tlv_encode fits) (tlv_encode fits') same
  refine ⟨?_, rests⟩
  cases data with
  | boolean value =>
    cases other with
    | boolean value' => cases value <;> cases value' <;> simp [content] at contents ⊢
    | _ => simp [tag] at tags
  | array items =>
    cases other with
    | array items' =>
      rw [encodeAll_injective items items' contents (content_length fits) (content_length fits')]
    | _ => simp [tag] at tags
  | struct items =>
    cases other with
    | struct items' =>
      rw [encodeAll_injective items items' contents (content_length fits) (content_length fits')]
    | _ => simp [tag] at tags
  | integer value =>
    cases other with
    | integer value' => rw [encodeSignedIntMinimal_injective contents]
    | _ => simp [tag] at tags
  | unsigned value =>
    cases other with
    | unsigned value' => rw [encodeUnsignedIntMinimal_injective contents]
    | _ => simp [tag] at tags
  | float32 bits =>
    cases other with
    | float32 bits' => rw [bigEndian32_injective (List.cons.inj contents).2]
    | float64 bits' => exact absurd (List.cons.inj contents).1 (by decide)
    | _ => simp [tag] at tags
  | float64 bits =>
    cases other with
    | float64 bits' => rw [bigEndian64_injective (List.cons.inj contents).2]
    | float32 bits' => exact absurd (List.cons.inj contents).1 (by decide)
    | _ => simp [tag] at tags
  | octetString bytes =>
    cases other with
    | octetString bytes' => exact congrArg octetString contents
    | _ => simp [tag] at tags
  | visibleString text =>
    cases other with
    | visibleString text' => rw [stringBytes_injective contents]
    | _ => simp [tag] at tags
  | generalizedTime text =>
    cases other with
    | generalizedTime text' => rw [stringBytes_injective contents]
    | _ => simp [tag] at tags
  | binaryTime bytes =>
    cases other with
    | binaryTime bytes' => exact congrArg binaryTime contents
    | _ => simp [tag] at tags
  | booleanArray padding octets =>
    cases other with
    | booleanArray padding' octets' => rw [(List.cons.inj contents).1, (List.cons.inj contents).2]
    | _ => simp [tag] at tags
  | bitString padding octets =>
    cases other with
    | bitString padding' octets' => rw [(List.cons.inj contents).1, (List.cons.inj contents).2]
    | _ => simp [tag] at tags
  | mmsString text =>
    cases other with
    | mmsString text' => rw [stringBytes_injective contents]
    | _ => simp [tag] at tags
  | utcTime bytes =>
    cases other with
    | utcTime bytes' => rw [Vector.toList_inj.mp contents]
    | _ => simp [tag] at tags

theorem encodeAll_injective (items items' : List MmsData) (same : encodeAll items = encodeAll items')
    (fits : (encodeAll items).length ≤ 65535) (fits' : (encodeAll items').length ≤ 65535) : items = items' := by
  match items, items' with
  | [], [] => rfl
  | [], item' :: rest' =>
    rw [encodeAll, encodeAll] at same
    exact absurd (List.append_eq_nil_iff.mp same.symm).1 (encode_ne_nil item')
  | item :: rest, [] =>
    rw [encodeAll, encodeAll] at same
    exact absurd (List.append_eq_nil_iff.mp same).1 (encode_ne_nil item)
  | item :: rest, item' :: rest' =>
    rw [encodeAll, encodeAll] at same
    rw [encodeAll, List.length_append] at fits fits'
    obtain ⟨first, others⟩ := encode_prefixFree item item' (encodeAll rest) (encodeAll rest') same (by omega) (by omega)
    rw [first, encodeAll_injective rest rest' others (by omega) (by omega)]

end

theorem encode_injective {data other : MmsData} (fits : data.encode.length ≤ 65535)
    (same : data.encode = other.encode) :
    data = other := by
  have fits' : other.encode.length ≤ 65535 := same ▸ fits
  exact (encode_prefixFree data other [] [] (by rw [same]) fits fits').1

end MmsData

end Iec61850.Mms
