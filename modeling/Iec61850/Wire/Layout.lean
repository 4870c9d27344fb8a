import Iec61850.Wire.BigEndian
import Iec61850.Wire.Reader

/-!
Octets at a position of a buffer, and the loop that walks a region of the buffer with a cursor.
-/

namespace Iec61850.Wire

open Fallible

/-- The octets of `piece` stand in `data` from `position` on. -/
def EncodedAt (data : List UInt8) (position : Nat) (piece : List UInt8) : Prop := piece <+: data.drop position

section

variable {ε : Type} {data front back piece : List UInt8} {position : Nat}

theorem encodedAt_append : EncodedAt data position (front ++ back) ↔
      EncodedAt data position front ∧ EncodedAt data (position + front.length) back := by
  unfold EncodedAt
  rw [← List.drop_drop]
  constructor
  · rintro ⟨rest, whole⟩
    rw [← whole, List.append_assoc, List.drop_left]
    exact ⟨List.prefix_append _ _, List.prefix_append _ _⟩
  · rintro ⟨⟨middle, first⟩, ⟨rest, second⟩⟩
    rw [← first, List.drop_left] at second
    rw [← first, ← second, ← List.append_assoc]
    exact List.prefix_append _ _

theorem EncodedAt.left (encoded : EncodedAt data position (front ++ back)) : EncodedAt data position front :=
  (encodedAt_append.mp encoded).1

theorem EncodedAt.right (encoded : EncodedAt data position (front ++ back)) :
    EncodedAt data (position + front.length) back :=
  (encodedAt_append.mp encoded).2

theorem EncodedAt.tail {byte : UInt8} (encoded : EncodedAt data position (byte :: back)) :
    EncodedAt data (position + 1) back :=
  @EncodedAt.right data [byte] back position encoded

theorem EncodedAt.bound (encoded : EncodedAt data position piece) (inside : position ≤ data.length) :
    position + piece.length ≤ data.length := by
  have shorter := encoded.length_le
  rw [List.length_drop] at shorter
  omega

theorem EncodedAt.byteAt {byte : UInt8} {rest : List UInt8} (encoded : EncodedAt data position (byte :: rest)) :
    (byteAt data position : Fallible ε UInt8) = .ok byte := by
  obtain ⟨later, whole⟩ := encoded
  have found : data[position]? = some byte := by
    rw [← List.head?_drop, ← whole]
    rfl
  unfold Wire.byteAt
  rw [found]

theorem EncodedAt.sliceUpTo (encoded : EncodedAt data position piece) {stop : Nat}
    (inside : position + piece.length ≤ stop) (bound : stop ≤ data.length) :
    ∃ rest, (slice data position stop : Fallible ε (List UInt8)) = .ok (piece ++ rest) := by
  obtain ⟨later, whole⟩ := encoded
  refine ⟨later.take (stop - position - piece.length), ?_⟩
  rw [slice_of_le (by omega) bound, List.drop_take, ← whole, List.take_append, List.take_of_length_le (by omega)]

theorem EncodedAt.slice (encoded : EncodedAt data position piece) (inside : position ≤ data.length) {stop : Nat}
    (ends : stop = position + piece.length) :
    (Wire.slice data position stop : Fallible ε (List UInt8)) = .ok piece := by
  have bound := encoded.bound inside
  obtain ⟨later, whole⟩ := encoded
  rw [slice_of_le (by omega) (by omega), List.drop_take, ← whole, ends, Nat.add_sub_cancel_left, List.take_left]

end

def octetsAt {ε : Type} (size : Nat) (data : List UInt8) (position : Nat) : Fallible ε (Vector UInt8 size) :=
  if room : position + size ≤ data.length then
    .ok ⟨((data.drop position).take size).toArray, by simp; omega⟩
  else
    .error .panicked

theorem EncodedAt.octetsAt {ε : Type} {size position : Nat} {data : List UInt8} {octets : Vector UInt8 size}
    (encoded : EncodedAt data position octets.toList) (inside : position ≤ data.length) :
    (Wire.octetsAt size data position : Fallible ε (Vector UInt8 size)) = .ok octets := by
  have bound := encoded.bound inside
  rw [Vector.length_toList] at bound
  obtain ⟨later, whole⟩ := encoded
  have taken : (data.drop position).take size = octets.toList := by
    rw [← whole]
    simp
  unfold Wire.octetsAt
  rw [dif_pos bound]
  congr 1
  apply Vector.toList_inj.mp
  simpa using taken

def bigEndian16 (value : UInt16) : List UInt8 := [(value >>> 8).toUInt8, value.toUInt8]

def u16At {ε : Type} (data : List UInt8) (position : Nat) : Fallible ε UInt16 := do
  let high ← byteAt data position
  let low ← byteAt data (position + 1)
  return high.toUInt16 <<< 8 ||| low.toUInt16

@[simp] theorem bigEndian16_length (value : UInt16) : (bigEndian16 value).length = 2 := rfl

theorem join_bigEndian16 (value : UInt16) :
    (value >>> 8).toUInt8.toUInt16 <<< 8 ||| value.toUInt8.toUInt16 = value := by
  have bound := value.toNat_lt
  apply UInt16.toNat_inj.mp
  rw [UInt16.toNat_or, UInt16.toNat_shiftLeft, UInt8.toNat_toUInt16, UInt8.toNat_toUInt16, UInt16.toNat_toUInt8,
    UInt16.toNat_toUInt8, UInt16.toNat_shiftRight, show (8 : UInt16).toNat % 16 = 8 from rfl,
    or_of_shifted (Nat.mod_lt _ (by decide)) (by decide), Nat.shiftRight_eq_div_pow]
  omega

theorem EncodedAt.u16At {ε : Type} {data : List UInt8} {position : Nat} {value : UInt16}
    (encoded : EncodedAt data position (bigEndian16 value)) :
    (Wire.u16At data position : Fallible ε UInt16) = .ok value := by
  unfold Wire.u16At
  rw [encoded.byteAt, encoded.tail.byteAt, ok_bind, ok_bind, join_bigEndian16]
  rfl

/-- The `?` on a result that cannot panic. -/
def orRefuse {ε α : Type} : Except ε α → Fallible ε α
  | .ok value => .ok value
  | .error error => refuse error

/-- Walks the cursor up to `stop`. A step that does not move it is taken again and again: the loop
then runs out of fuel. -/
def scan {ε σ : Type} (step : σ → Nat → Fallible ε (σ × Nat)) (stop : Nat) : Nat → σ → Nat → Fallible ε σ
  | 0, state, position => if position < stop then .error .diverged else .ok state
  | fuel + 1, state, position =>
    if position < stop then do
      let (state, position) ← step state position
      scan step stop fuel state position
    else
      .ok state

section

variable {ε σ ι : Type} {step : σ → Nat → Fallible ε (σ × Nat)} {data : List UInt8} {stop : Nat}

theorem scan_done {fuel position : Nat} (state : σ) (finished : stop ≤ position) :
    scan step stop fuel state position = .ok state := by
  cases fuel with
  | zero | succ fuel => exact if_neg (by omega)

theorem scan_pieces (encode : ι → List UInt8) (effect : ι → σ → Fallible ε σ) (items : List ι)
    (reads : ∀ item ∈ items, ∀ state position, EncodedAt data position (encode item) → position + (encode item).length ≤
      stop → step state position = do let state ← effect item state return (state, position + (encode item).length))
    (written : ∀ item ∈ items, encode item ≠ []) {fuel position : Nat} (state : σ)
    (encoded : EncodedAt data position (items.flatMap encode)) (ends : position + (items.flatMap encode).length = stop)
    (enough : (items.flatMap encode).length ≤ fuel) :
    scan step stop fuel state position = items.foldlM (fun state item => effect item state) state := by
  induction items generalizing fuel position state with
  | nil => exact scan_done state (by simpa using Nat.le_of_eq ends.symm)
  | cons item rest ih =>
    rw [List.flatMap_cons] at encoded ends enough
    rw [List.length_append] at ends enough
    have some := List.length_pos_of_ne_nil (written item List.mem_cons_self)
    have head := reads item List.mem_cons_self state position encoded.left (by omega)
    cases fuel with
    | zero => omega
    | succ fuel =>
      rw [scan, if_pos (by omega), head, List.foldlM_cons]
      cases effect item state with
      | error fault => rfl
      | ok next =>
        rw [ok_bind, ok_bind]
        exact ih (fun other listed => reads other (List.mem_cons_of_mem _ listed))
          (fun other listed => written other (List.mem_cons_of_mem _ listed)) next encoded.right (by omega) (by omega)

end

end Iec61850.Wire
