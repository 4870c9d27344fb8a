import Iec61850.Model.Value
import Mathlib.Data.List.Basic

/-!
MMS data on the wire: the BER length field, the minimal integer contents, and the tag-length-value
encoding of `MmsData` together with the size the dispatcher predicts for it without encoding.
-/

namespace Iec61850.Mms

open Model

variable (tag : UInt8) (content : List UInt8) (value : UInt64) (len : Nat) (text : String)

/-- The BER definite-form length field. Every caller keeps its lengths below 65536; beyond that a
release build emits the low sixteen bits, as the last branch does. -/
def encodeLength : List UInt8 :=
  if len < 128 then [UInt8.ofNat len]
  else if len ≤ 0xff then [0x81, UInt8.ofNat len]
  else [0x82, UInt8.ofNat (len / 256), UInt8.ofNat len]

def lengthSize : Nat :=
  if len < 128 then 1
  else if len ≤ 0xff then 2
  else 3

theorem lengthSize_pos : 1 ≤ lengthSize len := by
  unfold lengthSize
  split
  · omega
  · split <;> omega

theorem lengthSize_le : lengthSize len ≤ 3 := by
  unfold lengthSize
  split
  · omega
  · split <;> omega

@[simp] theorem encodeLength_length : (encodeLength len).length = lengthSize len := by
  unfold encodeLength lengthSize
  split
  · rfl
  · split <;> rfl

theorem lengthSize_add_mono {small large : Nat} (ordered : small ≤ large) :
    lengthSize small + small ≤ lengthSize large + large := by
  unfold lengthSize
  split <;> split <;> (try split) <;> (try split) <;> omega

def encodeTlv : List UInt8 :=
  tag :: encodeLength content.length ++ content

@[simp] theorem encodeTlv_length : (encodeTlv tag content).length = 1 + lengthSize content.length + content.length := by
  simp only [encodeTlv, List.cons_append, List.length_cons, List.length_append, encodeLength_length]
  omega

def bigEndian32 (value : UInt32) : List UInt8 :=
  ([24, 16, 8, 0] : List UInt32).map fun shift => (value >>> shift).toUInt8

def bigEndian64 : List UInt8 :=
  ([56, 48, 40, 32, 24, 16, 8, 0] : List UInt64).map fun shift => (value >>> shift).toUInt8

/-- Drops a leading byte as long as the next one still carries the sign. -/
def dropSignBytes : List UInt8 → List UInt8
  | first :: second :: rest =>
    if (first == 0x00 && second &&& 0x80 == 0) || (first == 0xff && second &&& 0x80 != 0) then
      dropSignBytes (second :: rest)
    else
      first :: second :: rest
  | bytes => bytes

def encodeSignedIntMinimal (value : Int64) : List UInt8 :=
  if value = 0 then [0x00] else dropSignBytes (bigEndian64 value.toUInt64)

def dropZeroBytes : List UInt8 → List UInt8
  | first :: second :: rest =>
    if first == 0x00 && second &&& 0x80 == 0 then dropZeroBytes (second :: rest) else first :: second :: rest
  | bytes => bytes

def encodeUnsignedIntMinimal : List UInt8 :=
  if value = 0 then [0x00] else dropZeroBytes (bigEndian64 value)

inductive MmsData where
  | boolean (value : Bool)
  | array (items : List MmsData)
  | struct (items : List MmsData)
  | integer (value : Int64)
  | unsigned (value : UInt64)
  | float32 (bits : UInt32)
  | float64 (bits : UInt64)
  | octetString (bytes : List UInt8)
  | visibleString (text : String)
  | generalizedTime (text : String)
  | binaryTime (bytes : List UInt8)
  | booleanArray (padding : UInt8) (data : List UInt8)
  | bitString (padding : UInt8) (data : List UInt8)
  | mmsString (text : String)
  | utcTime (bytes : Vector UInt8 8)

/-- The bytes of a string, which Rust counts and writes. -/
def stringBytes : List UInt8 := text.toByteArray.data.toList

def stringLen : Nat := text.utf8ByteSize

@[simp] theorem stringBytes_length : (stringBytes text).length = stringLen text := rfl

def encodeBoolean (value : Bool) : List UInt8 := [0x83, 0x01, if value then 0xff else 0x00]

namespace MmsData

mutual

def encode : MmsData → List UInt8
  | .boolean value => encodeBoolean value
  | .array items => encodeTlv 0xa1 (encodeAll items)
  | .struct items => encodeTlv 0xa2 (encodeAll items)
  | .integer value => encodeTlv 0x85 (encodeSignedIntMinimal value)
  | .unsigned value => encodeTlv 0x86 (encodeUnsignedIntMinimal value)
  | .float32 bits => [0x87, 0x05, 0x08] ++ bigEndian32 bits
  | .float64 bits => [0x87, 0x09, 0x0b] ++ bigEndian64 bits
  | .octetString bytes => encodeTlv 0x89 bytes
  | .visibleString text => encodeTlv 0x8a (stringBytes text)
  | .generalizedTime text => encodeTlv 0x8b (stringBytes text)
  | .binaryTime bytes => encodeTlv 0x8c bytes
  | .bitString padding data => encodeTlv 0x84 (padding :: data)
  | .booleanArray padding data => encodeTlv 0x8e (padding :: data)
  | .mmsString text => encodeTlv 0x90 (stringBytes text)
  | .utcTime bytes => [0x91, 0x08] ++ bytes.toList

def encodeAll : List MmsData → List UInt8
  | [] => []
  | item :: rest => encode item ++ encodeAll rest

end

mutual

def estimatedEncodedSize : MmsData → Nat
  | .boolean _ => 3
  | .array items => 1 + lengthSize (estimatedSizeSum items) + estimatedSizeSum items
  | .struct items => 1 + lengthSize (estimatedSizeSum items) + estimatedSizeSum items
  | .integer value =>
    let n := (encodeSignedIntMinimal value).length
    1 + lengthSize n + n
  | .unsigned value =>
    let n := (encodeUnsignedIntMinimal value).length
    1 + lengthSize n + n
  | .float32 _ => 7
  | .float64 _ => 11
  | .octetString bytes => 1 + lengthSize bytes.length + bytes.length
  | .visibleString text => 1 + lengthSize (stringLen text) + stringLen text
  | .generalizedTime text => 1 + lengthSize (stringLen text) + stringLen text
  | .binaryTime bytes => 1 + lengthSize bytes.length + bytes.length
  | .bitString _ data => 1 + lengthSize (1 + data.length) + (1 + data.length)
  | .booleanArray _ data => 1 + lengthSize (1 + data.length) + (1 + data.length)
  | .mmsString text => 1 + lengthSize (stringLen text) + stringLen text
  | .utcTime _ => 10

def estimatedSizeSum : List MmsData → Nat
  | [] => 0
  | item :: rest => estimatedEncodedSize item + estimatedSizeSum rest

end

mutual

theorem encode_length (data : MmsData) : data.encode.length = data.estimatedEncodedSize := by
  cases data with
  | array items | struct items => simp only [encode, encodeTlv_length, estimatedEncodedSize, encodeAll_length items]
  | bitString padding data | booleanArray padding data =>
    simp only [encode, encodeTlv_length, estimatedEncodedSize, List.length_cons, Nat.add_comm 1 data.length]
  | utcTime bytes => simp [encode, estimatedEncodedSize]
  | _ => simp [encode, estimatedEncodedSize, encodeBoolean, bigEndian32, bigEndian64]

theorem encodeAll_length (items : List MmsData) : (encodeAll items).length = estimatedSizeSum items := by
  cases items with
  | nil => rfl
  | cons item rest =>
    simp only [encodeAll, estimatedSizeSum, List.length_append, encode_length item, encodeAll_length rest]

end

end MmsData

end Iec61850.Mms
