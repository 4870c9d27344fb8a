import Mathlib.Data.List.Basic

/-!
Greedy packing of a list into numbered bins: every bin takes the longest run of what is left that
still fits it. What a bin can hold may depend on its number.
-/

namespace Iec61850.Wire.Packing

open List

variable {α : Type}

/-- From bin `number` on, `items` have filled `bins`, and `rest` is left: every bin holds something,
fits, and has no room for the item behind it. -/
inductive Fills (fits : Nat → List α → Prop) : (number : Nat) → (items : List α) → (bins : List (List α)) →
    (rest : List α) → Prop
  | start (number : Nat) (items : List α) : Fills fits number items [] items
  | next {number : Nat} {bin : List α} {first : α} {later rest : List α} {bins : List (List α)} (nonempty : bin ≠ [])
      (holds : fits number bin) (full : ¬ fits number (bin ++ [first]))
      (others : Fills fits (number + 1) (first :: later) bins rest) :
      Fills fits number (bin ++ first :: later) (bin :: bins) rest

def PrefixClosed (fits : Nat → List α → Prop) : Prop :=
  ∀ number front back, fits number (front ++ back) → fits number front

variable {fits : Nat → List α → Prop} {number : Nat} {items rest : List α} {bins : List (List α)}

theorem Fills.flatten (filled : Fills fits number items bins rest) : (bins ++ [rest]).flatten = items := by
  induction filled with
  | start number items => simp
  | next nonempty holds full others ih => rw [cons_append, flatten_cons, ih]

theorem Fills.rest_ne_nil (filled : Fills fits number items bins rest) (nonempty : items ≠ []) : rest ≠ [] := by
  induction filled with
  | start number items => exact nonempty
  | next _ _ _ others ih => exact ih (cons_ne_nil _ _)

variable {bin : List α} {position : Nat} {later : List α} {first : α}

section

variable (filled : Fills fits number items bins rest)

include filled

theorem Fills.bins_ne_nil (member : bin ∈ bins) : bin ≠ [] := by
  induction filled with
  | start number items => cases member
  | next nonempty holds full others ih =>
    cases member with
    | head => exact nonempty
    | tail _ member => exact ih member

theorem Fills.holds (last : fits (number + bins.length) rest)
    (found : (bins ++ [rest])[position]? = some bin) : fits (number + position) bin := by
  induction filled generalizing position with
  | start number items =>
    rw [nil_append, getElem?_singleton] at found
    split at found
    · rename_i first
      cases found
      rw [first]
      exact last
    · cases found
  | next nonempty holds full others ih =>
    cases position with
    | zero =>
      cases found
      exact holds
    | succ position =>
      rw [length_cons, ← Nat.succ_add_eq_add_succ] at last
      rw [← Nat.succ_add_eq_add_succ]
      exact ih last found

theorem Fills.head_bins : ((bins ++ [rest]).head?.bind head?) = items.head? := by
  cases filled with
  | start => rfl
  | next nonempty holds full others =>
    obtain ⟨first, later, rfl⟩ := exists_cons_of_ne_nil nonempty
    rfl

theorem Fills.maximal
    (found : (bins ++ [rest])[position]? = some bin) (next : (bins ++ [rest])[position + 1]? = some (first :: later)) :
    ¬ fits (number + position) (bin ++ [first]) := by
  induction filled generalizing position with
  | start number items => cases next
  | next nonempty holds full others ih =>
    cases position with
    | zero =>
      cases found
      have head := others.head_bins
      rw [cons_append, getElem?_cons_succ, ← head?_eq_getElem?] at next
      rw [next] at head
      cases head
      exact full
    | succ position =>
      rw [← Nat.succ_add_eq_add_succ]
      exact ih found next

end

theorem bin_unique (closed : PrefixClosed fits) {bin bin' later later' : List α} {first first' : α}
    (same : bin ++ first :: later = bin' ++ first' :: later') (holds : fits number bin)
    (full : ¬ fits number (bin ++ [first])) (holds' : fits number bin') (full' : ¬ fits number (bin' ++ [first'])) :
    bin = bin' ∧ first = first' ∧ later = later' := by
  obtain ⟨more, rfl, split⟩ | ⟨more, rfl, split⟩ := append_eq_append_iff.mp same
  · cases more with
    | nil =>
      cases split
      simp
    | cons head tail =>
      cases split
      rw [append_cons] at holds'
      exact absurd (closed _ _ _ holds') full
  · cases more with
    | nil =>
      cases split
      simp
    | cons head tail =>
      cases split
      rw [append_cons] at holds
      exact absurd (closed _ _ _ holds) full'

/-- If a packing ends with a last bin that fits, no other packing of the items got stuck or took
more bins. -/
theorem Fills.ends (closed : PrefixClosed fits) (filled : Fills fits number items bins rest)
    (last : fits (number + bins.length) rest) {bins' : List (List α)}
    (other : Fills fits number items bins' (first :: later)) :
    fits (number + bins'.length) [first] ∧ bins'.length ≤ bins.length := by
  induction filled generalizing bins' with
  | start number items =>
    cases other with
    | start => exact ⟨closed _ [first] later last, Nat.le_refl 0⟩
    | next nonempty holds full others =>
      rw [append_cons] at last
      exact absurd (closed _ _ _ last) full
  | @next number bin head tail rest bins nonempty holds full others ih =>
    generalize same : bin ++ head :: tail = items at other
    cases other with
    | start =>
      obtain ⟨item, contents, rfl⟩ := exists_cons_of_ne_nil nonempty
      cases same
      exact ⟨closed _ [first] contents holds, Nat.zero_le _⟩
    | next nonempty' holds' full' others' =>
      obtain ⟨rfl, rfl, rfl⟩ := bin_unique closed same holds full holds' full'
      rw [length_cons, ← Nat.succ_add_eq_add_succ] at last
      obtain ⟨fit, shorter⟩ := ih last others'
      rw [length_cons, length_cons, ← Nat.succ_add_eq_add_succ]
      exact ⟨fit, Nat.succ_le_succ shorter⟩

end Iec61850.Wire.Packing
