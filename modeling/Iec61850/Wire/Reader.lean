import Mathlib.Data.List.Basic

/-!
Readers of octet strings: reads that fault on an index out of bounds, and the loop that reads one
element after the other until the octets are used up.
-/

namespace Iec61850.Wire

/-- How a reader fails: it refuses its input, or it is stopped by an index out of bounds or a loop
without progress. -/
inductive Fault (ε : Type) where
  | refused (error : ε)
  | panicked
  | diverged
  deriving DecidableEq, Repr

abbrev Fallible (ε α : Type) := Except (Fault ε) α

namespace Fallible

variable {ε α β : Type}

variable (error : ε) (value : α)

def refuse : Fallible ε α := .error (.refused error)

def Safe : Fallible ε α → Prop
  | .ok _ => True
  | .error (.refused _) => True
  | .error .panicked => False
  | .error .diverged => False

theorem Safe.bind {first : Fallible ε α} {next : α → Fallible ε β} (safe : first.Safe)
    (after : ∀ value, first = .ok value → (next value).Safe) : Safe (first >>= next) := by
  cases first with
  | ok value => exact after value rfl
  | error fault =>
    cases fault with
    | refused error => trivial
    | panicked | diverged => exact safe.elim

theorem bind_eq_ok {first : Fallible ε α} {next : α → Fallible ε β} {result : β}
    (success : first >>= next = .ok result) : ∃ value, first = .ok value ∧ next value = .ok result := by
  cases first with
  | ok value => exact ⟨value, rfl, success⟩
  | error fault => cases success

@[simp] theorem ok_bind (next : α → Fallible ε β) : (Except.ok value >>= next : Fallible ε β) = next value := rfl

@[simp] theorem refuse_ne_ok : refuse error ≠ (.ok value : Fallible ε α) := by
  intro same
  cases same

end Fallible

open Fallible

variable {ε α : Type}

def byteAt (data : List UInt8) (index : Nat) : Fallible ε UInt8 :=
  match data[index]? with
  | some byte => .ok byte
  | none => .error .panicked

def sliceFrom (data : List UInt8) (start : Nat) : Fallible ε (List UInt8) :=
  if start ≤ data.length then .ok (data.drop start) else .error .panicked

def slice (data : List UInt8) (start stop : Nat) : Fallible ε (List UInt8) :=
  if start ≤ stop ∧ stop ≤ data.length then .ok ((data.take stop).drop start) else .error .panicked

@[simp] theorem byteAt_zero_cons (first : UInt8) (rest : List UInt8) :
    (byteAt (first :: rest) 0 : Fallible ε UInt8) = .ok first := rfl

@[simp] theorem sliceFrom_one_cons (first : UInt8) (rest : List UInt8) :
    (sliceFrom (first :: rest) 1 : Fallible ε (List UInt8)) = .ok rest := by
  simp [sliceFrom]

theorem firstByte_cons {first : UInt8} {rest : List UInt8} {refused : Fallible ε α} {next : UInt8 → Fallible ε α} :
    (if (first :: rest).isEmpty = true then refused else byteAt (first :: rest) 0 >>= next) = next first := rfl

variable {data : List UInt8} {start : Nat}

theorem byteAt_of_lt {index : Nat} (inside : index < data.length) :
    (byteAt data index : Fallible ε UInt8) = .ok data[index] := by
  simp [byteAt, inside]

theorem sliceFrom_of_le (inside : start ≤ data.length) :
    (sliceFrom data start : Fallible ε (List UInt8)) = .ok (data.drop start) :=
  if_pos inside

theorem slice_of_le {stop : Nat} (ordered : start ≤ stop) (inside : stop ≤ data.length) :
    (slice data start stop : Fallible ε (List UInt8)) = .ok ((data.take stop).drop start) :=
  if_pos ⟨ordered, inside⟩

/-- Reads elements until the octets are used up, dropping what each of them consumed. An element
that consumes nothing is read again and again: the loop then runs out of fuel. -/
def readAll (item : List UInt8 → Fallible ε (α × Nat)) : Nat → List UInt8 → Fallible ε (List α)
  | _, [] => .ok []
  | 0, _ :: _ => .error .diverged
  | fuel + 1, first :: rest => do
      let (value, consumed) ← item (first :: rest)
      let values ← readAll item fuel ((first :: rest).drop consumed)
      return value :: values

/-- The loop over the whole string: an iteration for each octet is enough. -/
def readWhole (item : List UInt8 → Fallible ε (α × Nat)) (data : List UInt8) : Fallible ε (List α) :=
  readAll item data.length data

variable {item : List UInt8 → Fallible ε (α × Nat)}

theorem readAll_safe (safe : ∀ data, (item data).Safe)
    (progress : ∀ data value consumed, item data = .ok (value, consumed) → 1 ≤ consumed) (fuel : Nat)
    (data : List UInt8) (enough : data.length ≤ fuel) : (readAll item fuel data).Safe := by
  induction fuel generalizing data with
  | zero =>
    have empty : data = [] := List.eq_nil_of_length_eq_zero (by omega)
    subst data
    trivial
  | succ fuel ih =>
    cases data with
    | nil => trivial
    | cons first rest =>
      unfold readAll
      apply (safe _).bind
      intro result read
      have moved := progress _ result.1 result.2 read
      have shorter : ((first :: rest).drop result.2).length ≤ fuel := by
        simp only [List.length_drop, List.length_cons] at enough ⊢
        omega
      apply (ih _ shorter).bind
      intro values _
      trivial

theorem readWhole_safe (safe : ∀ data, (item data).Safe)
    (progress : ∀ data value consumed, item data = .ok (value, consumed) → 1 ≤ consumed) (data : List UInt8) :
    (readWhole item data).Safe :=
  readAll_safe safe progress data.length data (Nat.le_refl _)

theorem readAll_forall {P : α → Prop} (each : ∀ data value consumed, item data = .ok (value, consumed) → P value)
    {fuel : Nat} {values : List α} (read : readAll item fuel data = .ok values) : ∀ value ∈ values, P value := by
  induction fuel generalizing data values with
  | zero =>
    cases data with
    | nil =>
      cases read
      simp
    | cons first rest => cases read
  | succ fuel ih =>
    cases data with
    | nil =>
      cases read
      simp
    | cons first rest =>
      obtain ⟨⟨value, consumed⟩, head, tail⟩ := bind_eq_ok read
      obtain ⟨others, readOthers, result⟩ := bind_eq_ok tail
      cases result
      intro element member
      rcases List.mem_cons.mp member with rfl | later
      · exact each _ _ _ head
      · exact ih readOthers element later

/-- The positions at which the loop over `data` reads an element, and the one at which it ends. -/
inductive Advances (item : List UInt8 → Fallible ε (α × Nat)) (data : List UInt8) : Nat → Prop
  | start : Advances item data 0
  | next {position consumed : Nat} {value : α} (reached : Advances item data position) (more : position < data.length)
      (read : item (data.drop position) = .ok (value, consumed)) : Advances item data (position + consumed)

theorem Advances.inside {position : Nat} (reached : Advances item data position)
    (bounded : ∀ start value consumed, item (data.drop start) = .ok (value, consumed) → consumed ≤ (data.drop
      start).length) : position ≤ data.length := by
  induction reached with
  | start => omega
  | next reached more read ih =>
    have bound := bounded _ _ _ read
    rw [List.length_drop] at bound
    omega

/-- Elements written one after the other are read back, if each of them is read back with any octets
behind it. -/
theorem readAll_encoded (encode : α → List UInt8) (values : List α)
    (reads : ∀ value ∈ values, ∀ rest, item (encode value ++ rest) = .ok (value, (encode value).length))
    (written : ∀ value ∈ values, encode value ≠ []) (fuel : Nat) (enough : (values.flatMap encode).length ≤ fuel) :
    readAll item fuel (values.flatMap encode) = .ok values := by
  induction values generalizing fuel with
  | nil => cases fuel <;> rfl
  | cons value values ih =>
    rw [List.flatMap_cons] at enough ⊢
    have head := reads value List.mem_cons_self (values.flatMap encode)
    have tail := ih (fun v member => reads v (List.mem_cons_of_mem value member))
      (fun v member => written v (List.mem_cons_of_mem value member))
    cases shape : encode value with
    | nil => exact absurd shape (written value List.mem_cons_self)
    | cons first rest =>
      rw [shape] at head enough
      cases fuel with
      | zero => simp at enough
      | succ fuel =>
        rw [List.cons_append] at head ⊢
        unfold readAll
        rw [head]
        have dropped : (first :: (rest ++ values.flatMap encode)).drop (first :: rest).length =
            values.flatMap encode := by
          simp
        simp only [List.cons_append, List.length_cons, List.length_append] at enough
        simp only [ok_bind, dropped]
        rw [tail fuel (by omega)]
        rfl

end Iec61850.Wire
