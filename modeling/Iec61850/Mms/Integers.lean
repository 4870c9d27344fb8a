import Iec61850.Mms.RoundTrip

/-!
The contents of INTEGER elements: which of them are the shortest that a standard decoder reads as
the same number.
-/

namespace Iec61850.Mms

open Wire Wire.Fallible

variable (bytes : List UInt8) (value : UInt64)

theorem repeatsSign_dropSignBytes : repeatsSign (dropSignBytes bytes) = false := by
  fun_induction dropSignBytes bytes with
  | case1 first second rest carried ih => exact ih
  | case2 first second rest needed =>
    rw [Bool.not_eq_true] at needed
    exact needed
  | case3 bytes short =>
    cases bytes with
    | nil => rfl
    | cons first rest =>
      cases rest with
      | nil => rfl
      | cons second rest => exact absurd rfl (short first second rest)

theorem signedOfBytes_dropSignBytes : signedOfBytes (dropSignBytes bytes) = signedOfBytes bytes := by
  fun_induction dropSignBytes bytes with
  | case1 first second rest carried ih => rw [ih, signedOfBytes_repeated carried]
  | case2 first second rest needed | case3 bytes short => rfl

theorem signedOfBytes_bigEndian64 : signedOfBytes (bigEndian64 value) = some value.toInt64.toInt := by
  have bound := value.toNat_lt
  have first : (value >>> 56).toUInt8.toNat = value.toNat / 2 ^ 56 := by
    rw [UInt64.toNat_toUInt8, UInt64.toNat_shiftRight, show (56 : UInt64).toNat % 64 = 56 from rfl,
      Nat.shiftRight_eq_div_pow]
    omega
  have signed : value.toInt64.toInt = if 2 * value.toNat < 2 ^ 64 then (value.toNat : Int) else value.toNat - 2 ^ 64 :=
    BitVec.toInt_eq_toNat_cond value.toBitVec
  change some (if 128 ≤ (value >>> 56).toUInt8.toNat then (ofBytes (bigEndian64 value) : Int) - 256 ^ 8
    else (ofBytes (bigEndian64 value) : Int)) = _
  rw [ofBytes_bigEndian64, first, signed]
  congr 1
  split <;> split <;> omega

theorem shortest_dropSignBytes : Shortest (dropSignBytes (bigEndian64 value)) value.toInt64.toInt := by
  apply shortest_of_needed (repeatsSign_dropSignBytes _)
  rw [signedOfBytes_dropSignBytes, signedOfBytes_bigEndian64]

theorem encodeSignedIntMinimal_eq (value : Int64) :
    encodeSignedIntMinimal value = dropSignBytes (bigEndian64 value.toUInt64) := by
  unfold encodeSignedIntMinimal
  split
  · rename_i zero
    subst zero
    rfl
  · rfl

theorem encodeUnsignedIntMinimal_eq : encodeUnsignedIntMinimal value = dropZeroBytes (bigEndian64 value) := by
  unfold encodeUnsignedIntMinimal
  split
  · rename_i zero
    subst zero
    rfl
  · rfl

theorem first_clear_iff : (value >>> 56).toUInt8 &&& 0x80 = 0 ↔ value.toNat < 2 ^ 63 := by
  have bound := value.toNat_lt
  rw [and_top_eq_zero_iff, UInt64.toNat_toUInt8, UInt64.toNat_shiftRight, show (56 : UInt64).toNat % 64 = 56 from rfl,
    Nat.shiftRight_eq_div_pow]
  omega

theorem dropZeroBytes_of_set {first : UInt8} {rest : List UInt8} (set : first &&& 0x80 ≠ 0) :
    dropZeroBytes (first :: rest) = first :: rest := by
  have some : first ≠ 0x00 := by
    intro zero
    rw [zero] at set
    exact set rfl
  cases rest with
  | nil => rfl
  | cons second rest => rw [dropZeroBytes, if_neg (by simp [some])]

theorem shortest_encodeUnsignedIntMinimal_iff :
    Shortest (encodeUnsignedIntMinimal value) value.toNat ↔ value.toNat < 2 ^ 63 := by
  have bound := value.toNat_lt
  have signed : value.toInt64.toInt = if 2 * value.toNat < 2 ^ 64 then (value.toNat : Int) else value.toNat - 2 ^ 64 :=
    BitVec.toInt_eq_toNat_cond value.toBitVec
  rw [encodeUnsignedIntMinimal_eq]
  by_cases small : value.toNat < 2 ^ 63
  · have clear : ∀ first ∈ (bigEndian64 value).head?, first &&& 0x80 = 0 := by
      intro first head
      cases head
      exact (first_clear_iff value).mpr small
    have shortest := shortest_dropSignBytes value
    rw [signed, if_pos (by omega)] at shortest
    rw [dropZeroBytes_eq_dropSignBytes _ clear]
    exact iff_of_true shortest small
  · have kept : dropZeroBytes (bigEndian64 value) = bigEndian64 value :=
      dropZeroBytes_of_set fun clear => small ((first_clear_iff value).mp clear)
    refine iff_of_false ?_ small
    intro shortest
    have denotes := shortest.denotes
    rw [kept, signedOfBytes_bigEndian64, Option.some.injEq, signed, if_neg (by omega)] at denotes
    omega

/-- A signed number is written in the fewest octets and read back; an unsigned one is read back, and
is a number of the standard in the fewest octets exactly below the sign bit. -/
theorem minimal_integer_contents (signed : Int64) (unsigned : UInt64) :
    (Shortest (encodeSignedIntMinimal signed) signed.toInt ∧
      decodeSignedInt (encodeSignedIntMinimal signed) = .ok signed) ∧
    decodeUnsignedInt (encodeUnsignedIntMinimal unsigned) = .ok unsigned ∧
    (Shortest (encodeUnsignedIntMinimal unsigned) unsigned.toNat ↔ unsigned.toNat < 2 ^ 63) := by
  refine ⟨⟨?_, decodeSignedInt_encode signed⟩, decodeUnsignedInt_encode unsigned,
    shortest_encodeUnsignedIntMinimal_iff unsigned⟩
  rw [encodeSignedIntMinimal_eq]
  exact shortest_dropSignBytes signed.toUInt64

/-- The top bit is taken for the sign: no zero octet is put in front of it. -/
theorem top_bit_reads_negative : encodeUnsignedIntMinimal 0x8000000000000000 = [0x80, 0, 0, 0, 0, 0, 0, 0] ∧
      signedOfBytes [0x80, 0, 0, 0, 0, 0, 0, 0] = some (-9223372036854775808) := by
  decide

end Iec61850.Mms
