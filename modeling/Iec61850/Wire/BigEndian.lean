import Mathlib.Data.Nat.Bitwise
import Mathlib.Data.List.Basic
import Mathlib.Tactic.Ring

/-!
Octet strings as numbers, most significant octet first, and the machine words that collect them by
shifting.
-/

namespace Iec61850.Wire

def ofBytes (bytes : List UInt8) : Nat := bytes.foldl (fun number byte => number * 256 + byte.toNat) 0

private theorem foldl_ofBytes (bytes : List UInt8) (start : Nat) :
    bytes.foldl (fun number byte => number * 256 + byte.toNat) start = start * 256 ^ bytes.length + ofBytes bytes := by
  induction bytes generalizing start with
  | nil => simp [ofBytes]
  | cons byte rest ih =>
    unfold ofBytes
    rw [List.foldl_cons, List.foldl_cons, ih, ih (0 * 256 + byte.toNat), List.length_cons, Nat.pow_succ]
    ring

@[simp] theorem ofBytes_nil : ofBytes [] = 0 := rfl

theorem ofBytes_cons (byte : UInt8) (rest : List UInt8) :
    ofBytes (byte :: rest) = byte.toNat * 256 ^ rest.length + ofBytes rest := by
  have step := foldl_ofBytes rest (0 * 256 + byte.toNat)
  rw [Nat.zero_mul, Nat.zero_add] at step
  rw [← step]
  simp [ofBytes]

theorem ofBytes_append (front back : List UInt8) :
    ofBytes (front ++ back) = ofBytes front * 256 ^ back.length + ofBytes back := by
  unfold ofBytes
  rw [List.foldl_append, foldl_ofBytes back]
  rfl

theorem ofBytes_lt (bytes : List UInt8) : ofBytes bytes < 256 ^ bytes.length := by
  induction bytes with
  | nil => simp
  | cons byte rest ih =>
    have small : byte.toNat + 1 ≤ 256 := byte.toNat_lt
    have scaled := Nat.mul_le_mul_right (256 ^ rest.length) small
    rw [ofBytes_cons, List.length_cons, Nat.pow_succ]
    rw [Nat.add_mul, Nat.one_mul, Nat.mul_comm 256] at scaled
    omega

theorem lt_iff_ofBytes_lt {left right : List UInt8} (sameLength : left.length = right.length) :
    left < right ↔ ofBytes left < ofBytes right := by
  induction left generalizing right with
  | nil =>
    cases right with
    | nil => simp
    | cons byte rest => cases sameLength
  | cons byte rest ih =>
    cases right with
    | nil => cases sameLength
    | cons other others =>
      have lengths : rest.length = others.length := Nat.succ.inj sameLength
      have restBound := ofBytes_lt rest
      have othersBound := ofBytes_lt others
      rw [lengths] at restBound
      rw [List.cons_lt_cons_iff, ih lengths, ofBytes_cons, ofBytes_cons, lengths, UInt8.lt_iff_toNat_lt,
        ← UInt8.toNat_inj]
      rcases Nat.lt_trichotomy byte.toNat other.toNat with less | same | greater
      · have scaled := Nat.mul_le_mul_right (256 ^ others.length) (Nat.succ_le_of_lt less)
        rw [Nat.succ_mul] at scaled
        constructor
        · intro _
          omega
        · intro _
          exact .inl less
      · rw [same]
        omega
      · have scaled := Nat.mul_le_mul_right (256 ^ others.length) (Nat.succ_le_of_lt greater)
        rw [Nat.succ_mul] at scaled
        omega

theorem ofBytes_eq_zero_iff (bytes : List UInt8) : ofBytes bytes = 0 ↔ ∀ byte ∈ bytes, byte = 0 := by
  induction bytes with
  | nil => simp
  | cons byte rest ih =>
    have positive : 0 < 256 ^ rest.length := Nat.pow_pos (by decide)
    have zero : byte.toNat = 0 ↔ byte = 0 := by
      rw [← UInt8.toNat_inj]
      rfl
    rw [ofBytes_cons, Nat.add_eq_zero_iff, Nat.mul_eq_zero, or_iff_left (by omega), ih, zero]
    simp only [List.mem_cons, forall_eq_or_imp]

theorem and_top_eq_zero_iff (byte : UInt8) : byte &&& 0x80 = 0 ↔ byte.toNat < 128 := by
  have table : ∀ number : Fin 256, UInt8.ofNat number &&& 0x80 = 0 ↔ number.val < 128 := by decide +kernel
  have entry := table ⟨byte.toNat, byte.toNat_lt⟩
  simpa only [UInt8.ofNat_toNat] using entry

/-- The number the octets denote in two's complement; no octets denote no number. -/
def signedOfBytes : List UInt8 → Option Int
  | [] => none
  | first :: rest =>
    let number : Int := ofBytes (first :: rest)
    some (if 128 ≤ first.toNat then number - 256 ^ (rest.length + 1) else number)

variable {bytes : List UInt8}

theorem signedOfBytes_nonneg {number : Int} (denotes : signedOfBytes bytes = some number)
    (nonnegative : 0 ≤ number) : number = ofBytes bytes := by
  cases bytes with
  | nil => cases denotes
  | cons first rest =>
    have bound : ((ofBytes (first :: rest) : Nat) : Int) < 256 ^ (rest.length + 1) := by
      exact_mod_cast ofBytes_lt (first :: rest)
    simp only [signedOfBytes, Option.some.injEq] at denotes
    split at denotes <;> omega

theorem signedOfBytes_eq_first_iff {first : UInt8} {rest : List UInt8} (small : first.toNat < 128) :
    signedOfBytes (first :: rest) = some (first.toNat : Int) ↔ rest = [] ∨ first = 0 ∧ ∀ byte ∈ rest, byte = 0 := by
  have value : signedOfBytes (first :: rest) = some (ofBytes (first :: rest) : Int) := by
    simp only [signedOfBytes]
    rw [if_neg (by omega)]
  rw [value, Option.some.injEq, Int.natCast_inj, ofBytes_cons]
  cases rest with
  | nil => simp
  | cons second others =>
    have wide : 256 ≤ 256 ^ (second :: others).length := by
      rw [List.length_cons, Nat.pow_succ]
      have positive : 0 < 256 ^ others.length := Nat.pow_pos (by decide)
      omega
    have zero : first.toNat = 0 ↔ first = 0 := by
      rw [← UInt8.toNat_inj]
      rfl
    rw [← ofBytes_eq_zero_iff, ← zero]
    constructor
    · intro same
      right
      have scaled := Nat.mul_le_mul_left first.toNat wide
      omega
    · intro cases
      rcases cases with none | ⟨firstZero, restZero⟩
      · cases none
      · rw [firstZero, restZero]
        omega

theorem or_of_shifted {word byte bits : Nat} (small : byte < 256) (wide : 8 ≤ bits) :
    word <<< 8 % 2 ^ bits ||| byte = (word * 256 + byte) % 2 ^ bits := by
  have divides : (256 : Nat) ∣ 2 ^ bits := Nat.pow_dvd_pow 2 wide
  obtain ⟨high, scale⟩ := divides
  have shifted : word <<< 8 % 2 ^ bits = 2 ^ 8 * (word % high) := by
    rw [Nat.shiftLeft_eq, scale, Nat.mul_comm word, show (2 : Nat) ^ 8 = 256 from rfl, Nat.mul_mod_mul_left]
  have joined : (word * 256 + byte) % (256 * high) = 256 * (word % high) + byte := by
    rw [Nat.mul_comm word, Nat.mod_mul, Nat.mul_add_mod, Nat.mod_eq_of_lt small]
    rw [Nat.mul_add_div (by decide), Nat.div_eq_of_lt small, Nat.add_zero, Nat.add_comm]
  rw [shifted, ← Nat.two_pow_add_eq_or_of_lt small, scale, joined]

/-- Collects octets in a 32-bit word; the octets of before the last four are shifted out. -/
def shiftInto32 (start : UInt32) (bytes : List UInt8) : UInt32 :=
  bytes.foldl (fun word byte => (word <<< 8) ||| byte.toUInt32) start

theorem shiftInto32_toNat (bytes : List UInt8) (start : UInt32) :
    (shiftInto32 start bytes).toNat = (start.toNat * 256 ^ bytes.length + ofBytes bytes) % 2 ^ 32 := by
  unfold shiftInto32
  induction bytes generalizing start with
  | nil => simp [Nat.mod_eq_of_lt start.toNat_lt]
  | cons byte rest ih =>
    have step : ((start <<< 8) ||| byte.toUInt32).toNat = (start.toNat * 256 + byte.toNat) % 2 ^ 32 := by
      rw [UInt32.toNat_or, UInt32.toNat_shiftLeft, UInt8.toNat_toUInt32]
      exact or_of_shifted byte.toNat_lt (by decide)
    rw [List.foldl_cons, ih, step, ofBytes_cons, List.length_cons, Nat.pow_succ]
    rw [Nat.add_mod, Nat.mod_mul_mod, ← Nat.add_mod]
    ring_nf

/-- Collects octets in a 64-bit word; the octets of before the last eight are shifted out. -/
def shiftInto64 (start : UInt64) (bytes : List UInt8) : UInt64 :=
  bytes.foldl (fun word byte => (word <<< 8) ||| byte.toUInt64) start

theorem shiftInto64_toNat (bytes : List UInt8) (start : UInt64) :
    (shiftInto64 start bytes).toNat = (start.toNat * 256 ^ bytes.length + ofBytes bytes) % 2 ^ 64 := by
  unfold shiftInto64
  induction bytes generalizing start with
  | nil => simp [Nat.mod_eq_of_lt start.toNat_lt]
  | cons byte rest ih =>
    have step : ((start <<< 8) ||| byte.toUInt64).toNat = (start.toNat * 256 + byte.toNat) % 2 ^ 64 := by
      rw [UInt64.toNat_or, UInt64.toNat_shiftLeft, UInt8.toNat_toUInt64]
      exact or_of_shifted byte.toNat_lt (by decide)
    rw [List.foldl_cons, ih, step, ofBytes_cons, List.length_cons, Nat.pow_succ]
    rw [Nat.add_mod, Nat.mod_mul_mod, ← Nat.add_mod]
    ring_nf

theorem shiftInto32_zero (short : bytes.length ≤ 4) : (shiftInto32 0 bytes).toNat = ofBytes bytes := by
  have bound : ofBytes bytes < 2 ^ 32 :=
    Nat.lt_of_lt_of_le (ofBytes_lt bytes) (Nat.pow_le_pow_right (by decide) short)
  rw [shiftInto32_toNat]
  simpa using Nat.mod_eq_of_lt bound

theorem shiftInto64_zero (short : bytes.length ≤ 8) : (shiftInto64 0 bytes).toNat = ofBytes bytes := by
  have bound : ofBytes bytes < 2 ^ 64 :=
    Nat.lt_of_lt_of_le (ofBytes_lt bytes) (Nat.pow_le_pow_right (by decide) short)
  rw [shiftInto64_toNat]
  simpa using Nat.mod_eq_of_lt bound

theorem shiftInto64_full (full : bytes.length = 8) (start : UInt64) :
    (shiftInto64 start bytes).toNat = ofBytes bytes := by
  have bound := ofBytes_lt bytes
  rw [full] at bound
  rw [shiftInto64_toNat, full, Nat.mul_comm, show (2 : Nat) ^ 64 = 256 ^ 8 from rfl, Nat.mul_add_mod]
  exact Nat.mod_eq_of_lt bound

/-- The octets denote the number, and no fewer octets do. -/
structure Shortest (bytes : List UInt8) (number : Int) : Prop where
  denotes : signedOfBytes bytes = some number
  least : ∀ other, signedOfBytes other = some number → bytes.length ≤ other.length

/-- The first octet says no more than the sign of the second. -/
def repeatsSign : List UInt8 → Bool
  | first :: second :: _ => (first == 0x00 && second &&& 0x80 == 0) || (first == 0xff && second &&& 0x80 != 0)
  | _ => false

variable {first : UInt8} {rest : List UInt8} {number : Int} {second : UInt8}

theorem signedOfBytes_range (denotes : signedOfBytes (first :: rest) = some number) :
    -(128 * 256 ^ rest.length : Nat) ≤ number ∧ number < (128 * 256 ^ rest.length : Nat) := by
  have small := first.toNat_lt
  have bound := ofBytes_lt rest
  simp only [signedOfBytes, ofBytes_cons, Option.some.injEq, Int.pow_succ] at denotes
  generalize power : 256 ^ rest.length = weight at bound denotes
  have cast : (256 : Int) ^ rest.length = (weight : Int) := by
    rw [← power]
    norm_cast
  rw [cast] at denotes
  subst denotes
  by_cases high : 128 ≤ first.toNat
  · have least := Nat.mul_le_mul_right weight high
    have most := Nat.mul_le_mul_right weight (show first.toNat ≤ 255 by omega)
    rw [if_pos high]
    push_cast
    omega
  · have most := Nat.mul_le_mul_right weight (show first.toNat ≤ 127 by omega)
    rw [if_neg high]
    push_cast
    omega

theorem signedOfBytes_outside (needed : repeatsSign (first :: second :: rest) = false)
    (denotes : signedOfBytes (first :: second :: rest) = some number) :
    number < -(128 * 256 ^ rest.length : Nat) ∨ (128 * 256 ^ rest.length : Nat) ≤ number := by
  have zero : first = 0x00 ↔ first.toNat = 0 := by
    rw [← UInt8.toNat_inj]
    rfl
  have ones : first = 0xff ↔ first.toNat = 255 := by
    rw [← UInt8.toNat_inj]
    rfl
  have bound := ofBytes_lt rest
  have secondBound := second.toNat_lt
  have firstBound := first.toNat_lt
  simp only [repeatsSign, Bool.or_eq_false_iff, Bool.and_eq_false_iff, beq_eq_false_iff_ne, bne_eq_false_iff_eq, ne_eq,
    and_top_eq_zero_iff, zero, ones] at needed
  simp only [signedOfBytes, ofBytes_cons, List.length_cons, Option.some.injEq, Int.pow_succ, Nat.pow_succ] at denotes
  generalize power : 256 ^ rest.length = weight at bound denotes
  have cast : (256 : Int) ^ rest.length = (weight : Int) := by
    rw [← power]
    norm_cast
  rw [cast] at denotes
  subst denotes
  have secondMost := Nat.mul_le_mul_right weight (show second.toNat ≤ 255 by omega)
  by_cases high : 128 ≤ first.toNat
  · rw [if_pos high]
    left
    by_cases last : first.toNat = 255
    · have most := Nat.mul_le_mul_right weight (show second.toNat ≤ 127 by omega)
      rw [last]
      push_cast
      omega
    · have most : (first.toNat * (weight * 256) : Int) ≤ 254 * (weight * 256) := by
        exact_mod_cast Nat.mul_le_mul_right (weight * 256) (show first.toNat ≤ 254 by omega)
      push_cast
      omega
  · rw [if_neg high]
    right
    by_cases none : first.toNat = 0
    · have least := Nat.mul_le_mul_right weight (show 128 ≤ second.toNat by omega)
      rw [none]
      push_cast
      omega
    · have least : (1 * (weight * 256) : Int) ≤ first.toNat * (weight * 256) := by
        exact_mod_cast Nat.mul_le_mul_right (weight * 256) (show 1 ≤ first.toNat by omega)
      push_cast
      omega

theorem shortest_of_needed {bytes : List UInt8} (needed : repeatsSign bytes = false)
    (denotes : signedOfBytes bytes = some number) : Shortest bytes number := by
  refine ⟨denotes, ?_⟩
  intro other same
  cases other with
  | nil => cases same
  | cons head tail =>
    match bytes, needed, denotes with
    | [], _, denotes => cases denotes
    | [first], _, _ => simp
    | first :: second :: rest, needed, denotes =>
      by_contra shorter
      have fewer : tail.length ≤ rest.length := by
        simp only [List.length_cons] at shorter
        omega
      have within := signedOfBytes_range same
      have outside := signedOfBytes_outside needed denotes
      have weights := Nat.mul_le_mul_left 128 (Nat.pow_le_pow_right (show 0 < 256 by decide) fewer)
      omega

theorem signedOfBytes_repeated (repeated : repeatsSign (first :: second :: rest) = true) :
    signedOfBytes (first :: second :: rest) = signedOfBytes (second :: rest) := by
  simp only [repeatsSign, Bool.or_eq_true, Bool.and_eq_true, beq_iff_eq, bne_iff_ne, ne_eq, and_top_eq_zero_iff]
    at repeated
  simp only [signedOfBytes, List.length_cons, Option.some.injEq]
  rcases repeated with ⟨rfl, clear⟩ | ⟨rfl, set⟩
  · rw [ofBytes_cons 0x00, if_neg (by decide), if_neg clear.not_ge]
    simp
  rw [ofBytes_cons 0xff, if_pos (by decide), if_pos (Nat.le_of_not_lt set), List.length_cons]
  simp only [show (0xff : UInt8).toNat = 255 from rfl, Int.pow_succ]
  push_cast
  ring

end Iec61850.Wire
