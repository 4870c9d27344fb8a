import Mathlib.Data.List.Basic

/-!
Strings cut into pieces of one size, and buffers that are filled piece by piece.
-/

namespace Iec61850.Wire

open List

variable {α : Type}

private def chunksWithin (size : Nat) : Nat → List α → List (List α)
  | 0, _ => []
  | _, [] => []
  | bound + 1, items => items.take size :: chunksWithin size bound (items.drop size)

def chunks (size : Nat) (items : List α) : List (List α) := chunksWithin size items.length items

variable {size : Nat} {items buffer : List α} {offset : Nat}

section

variable (positive : 0 < size)

include positive

private theorem chunksWithin_eq {bound : Nat} (items : List α) (enough : items.length ≤ bound) :
    chunksWithin size bound items = chunksWithin size items.length items := by
  induction bound using Nat.strongRecOn generalizing items with
  | ind bound ih =>
    cases items with
    | nil => cases bound <;> rfl
    | cons item rest =>
      cases bound with
      | zero => cases enough
      | succ bound =>
        have shorter : ((item :: rest).drop size).length ≤ rest.length := by
          rw [length_drop, length_cons]
          omega
        have within : rest.length ≤ bound := Nat.le_of_succ_le_succ enough
        simp only [length_cons, chunksWithin]
        rw [ih bound (Nat.lt_succ_self _) _ (Nat.le_trans shorter within)]
        rcases Nat.lt_or_eq_of_le within with less | same
        · rw [ih rest.length (by omega) _ shorter]
        · rw [← ih bound (Nat.lt_succ_self _) _ (Nat.le_trans shorter within), same]

theorem chunks_of_ne_nil (nonempty : items ≠ []) :
    chunks size items = items.take size :: chunks size (items.drop size) := by
  cases items with
  | nil => exact absurd rfl nonempty
  | cons item rest =>
    have shorter : ((item :: rest).drop size).length ≤ rest.length := by
      rw [length_drop, length_cons]
      omega
    exact congrArg _ (chunksWithin_eq positive _ shorter)

theorem chunks_induction {motive : List α → Prop} (nil : motive [])
    (cut : ∀ items, items ≠ [] → motive (items.drop size) → motive items) (items : List α) : motive items := by
  induction h : items.length using Nat.strongRecOn generalizing items with
  | ind length ih =>
    cases items with
    | nil => exact nil
    | cons item rest =>
      apply cut _ (cons_ne_nil _ _)
      apply ih _ _ _ rfl
      rw [← h, length_drop, length_cons]
      omega

theorem flatten_chunks (items : List α) : (chunks size items).flatten = items := by
  induction items using chunks_induction positive with
  | nil => rfl
  | cut items nonempty ih => rw [chunks_of_ne_nil positive nonempty, flatten_cons, ih, take_append_drop]

theorem chunks_ne_nil (nonempty : items ≠ []) : chunks size items ≠ [] := by
  rw [chunks_of_ne_nil positive nonempty]
  exact cons_ne_nil _ _

theorem mem_chunks {piece : List α} (member : piece ∈ chunks size items) : piece ≠ [] ∧ piece.length ≤ size := by
  induction items using chunks_induction positive with
  | nil => cases member
  | cut items nonempty ih =>
    rw [chunks_of_ne_nil positive nonempty] at member
    rcases mem_cons.mp member with rfl | later
    · constructor
      · rw [Ne, take_eq_nil_iff]
        rintro (none | none)
        · omega
        · exact nonempty none
      · rw [length_take]
        exact Nat.min_le_left _ _
    · exact ih later

end

theorem map_zipIdx_last {β : Type} (f : α → Bool → β) (front : List α) (last : α) :
    ((front ++ [last]).zipIdx.map fun (item, index) => f item (index == (front ++ [last]).length - 1)) =
      front.map (f · false) ++ [f last true] := by
  have earlier : ∀ entry ∈ front.zipIdx, f entry.1 (entry.2 == (front ++ [last]).length - 1) = f entry.1 false := by
    intro entry member
    have below : entry.2 < front.length := by
      have bound := snd_lt_of_mem_zipIdx member
      omega
    rw [length_append, length_singleton, Nat.add_sub_cancel, beq_false_of_ne (by omega)]
  have unnumbered : front.zipIdx.map (fun entry => f entry.1 false) = front.map (f · false) := by
    rw [show (fun entry : α × Nat => f entry.1 false) = (f · false) ∘ Prod.fst from rfl, ← map_map,
      zipIdx_map_fst]
  rw [zipIdx_append, map_append, map_congr_left earlier, unnumbered]
  simp

def overwrite (buffer : List α) (offset : Nat) (items : List α) : List α :=
  buffer.take offset ++ items ++ buffer.drop (offset + items.length)

theorem take_overwrite (within : offset ≤ buffer.length) :
    (overwrite buffer offset items).take (offset + items.length) = buffer.take offset ++ items := by
  have front : (buffer.take offset ++ items).length = offset + items.length := by
    rw [length_append, length_take, Nat.min_eq_left within]
  rw [overwrite, ← front, take_left]

theorem length_overwrite (within : offset + items.length ≤ buffer.length) :
    (overwrite buffer offset items).length = buffer.length := by
  simp only [overwrite, length_append, length_take, length_drop]
  omega

def resize (buffer : List α) (size : Nat) (filler : α) : List α :=
  buffer.take size ++ replicate (size - buffer.length) filler

@[simp] theorem length_resize (buffer : List α) (size : Nat) (filler : α) :
    (resize buffer size filler).length = size := by
  simp only [resize, length_append, length_take, length_replicate]
  omega

end Iec61850.Wire
