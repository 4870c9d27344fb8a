import Mathlib.Data.List.Destutter
import Mathlib.Data.List.Sort

/-!
Reading a set page by page behind an ordering cursor, while the set changes. A page holds the first
items behind the cursor; what has been gathered up to a cursor holds every item up to it that was
there all the time.
-/

namespace Iec61850.Wire.Cursor

open List

variable {α : Type} [LinearOrder α]

/-- Nothing has been reached yet, or something smaller. -/
def Behind (cursor : Option α) (item : α) : Prop := ∀ reached ∈ cursor, reached < item

/-- A page of `items` behind the cursor; `more` says that there are items behind the page. -/
structure Page (items : List α) (cursor : Option α) (page : List α) (more : Bool) : Prop where
  ascending : page.Pairwise (· < ·)
  listed : page ⊆ items
  behind : ∀ item ∈ page, Behind cursor item
  complete : ∀ item ∈ items, Behind cursor item → item ∈ page ∨ more = true ∧ Behind page.getLast? item
  nonempty : more = true → page ≠ []

/-- The first `size` items of an ascending list behind the cursor. -/
def firstBehind (size : Nat) (items : List α) (cursor : Option α) : List α × Bool :=
  let remaining := cursor.elim items fun reached => items.dropWhile fun item => item ≤ reached
  if remaining.length ≤ size then (remaining, false) else (remaining.take size, true)

section Remaining

variable {items : List α} (ascending : items.Pairwise (· < ·))

include ascending

theorem mem_dropWhile_iff (reached item : α) :
    item ∈ items.dropWhile (fun item => item ≤ reached) ↔ item ∈ items ∧ reached < item := by
  induction items with
  | nil => simp
  | cons first later ih =>
    obtain ⟨smallest, ascending⟩ := pairwise_cons.mp ascending
    by_cases passed : first ≤ reached
    · rw [dropWhile_cons_of_pos (by simpa using passed), ih ascending, mem_cons]
      constructor
      · rintro ⟨member, greater⟩
        exact ⟨.inr member, greater⟩
      · rintro ⟨rfl | member, greater⟩
        · exact absurd passed (not_le_of_gt greater)
        · exact ⟨member, greater⟩
    · rw [dropWhile_cons_of_neg (by simpa using passed)]
      refine ⟨fun member => ⟨member, ?_⟩, And.left⟩
      rcases mem_cons.mp member with rfl | later
      · exact lt_of_not_ge passed
      · exact lt_trans (lt_of_not_ge passed) (smallest item later)

theorem firstBehind_page {size : Nat} (positive : 0 < size) (cursor : Option α) :
    Page items cursor (firstBehind size items cursor).1 (firstBehind size items cursor).2 := by
  let remaining := cursor.elim items fun reached => items.dropWhile fun item => item ≤ reached
  have members (item : α) : item ∈ remaining ↔ item ∈ items ∧ Behind cursor item := by
    cases cursor with
    | none => simp [remaining, Behind]
    | some reached => simpa [remaining, Behind] using mem_dropWhile_iff ascending reached item
  have sorted : remaining.Pairwise (· < ·) := by
    cases cursor with
    | none => exact ascending
    | some reached => exact ascending.sublist (dropWhile_sublist _)
  by_cases whole : remaining.length ≤ size
  · have all : firstBehind size items cursor = (remaining, false) := if_pos whole
    rw [all]
    exact {
      ascending := sorted
      listed := fun item member => ((members item).mp member).1
      behind := fun item member => ((members item).mp member).2
      complete := fun item member behind => .inl ((members item).mpr ⟨member, behind⟩)
      nonempty := nofun }
  · have cut : firstBehind size items cursor = (remaining.take size, true) := if_neg whole
    have nonempty : remaining.take size ≠ [] := by
      intro empty
      rw [take_eq_nil_iff] at empty
      rcases empty with zero | none
      · omega
      · rw [none] at whole
        exact whole (Nat.zero_le size)
    rw [cut]
    refine ⟨sorted.sublist (take_sublist _ _), ?_, ?_, ?_, fun _ => nonempty⟩
    · exact fun item member => ((members item).mp (mem_of_mem_take member)).1
    · exact fun item member => ((members item).mp (mem_of_mem_take member)).2
    · intro item member behind
      have left := (members item).mpr ⟨member, behind⟩
      rw [← take_append_drop size remaining, mem_append] at left
      rw [← take_append_drop size remaining, pairwise_append] at sorted
      -- behind the cut every item is greater than all of the page
      rcases left with page | later
      · exact .inl page
      · refine .inr ⟨rfl, fun reached last => ?_⟩
        exact sorted.2.2 reached (mem_of_getLast? last) item later

end Remaining

theorem mem_destutter (first item : α) (later : List α) :
    item ∈ (first :: later).destutter (· ≠ ·) ↔ item ∈ first :: later := by
  rw [destutter_cons']
  induction later generalizing first with
  | nil => rfl
  | cons second later ih =>
    by_cases same : first = second
    · rw [destutter'_cons_neg _ (not_not_intro same), ih, same]
      simp
    · rw [destutter'_cons_pos _ same, mem_cons, ih, ← mem_cons]

theorem sortedOnce (items : List α) : ((items.insertionSort (· ≤ ·)).destutter (· ≠ ·)).Pairwise (· < ·) ∧
      ∀ item, item ∈ (items.insertionSort (· ≤ ·)).destutter (· ≠ ·) ↔ item ∈ items := by
  have sorted : (items.insertionSort (· ≤ ·)).Pairwise (· ≤ ·) := pairwise_insertionSort (· ≤ ·) items
  constructor
  · have ordered := sorted.sublist (destutter_sublist (· ≠ ·) _)
    have distinct := isChain_destutter (· ≠ ·) (items.insertionSort (· ≤ ·))
    rw [← isChain_iff_pairwise, isChain_iff_forall_rel_of_append_cons_cons] at ordered ⊢
    rw [isChain_iff_forall_rel_of_append_cons_cons] at distinct
    intro item next before after split
    exact lt_of_le_of_ne (ordered split) (distinct split)
  · intro item
    rw [← mem_insertionSort (r := (· ≤ ·)) (l := items)]
    cases items.insertionSort (· ≤ ·) with
    | nil => rfl
    | cons first later => exact mem_destutter first item later

/-- What a walk has read up to its cursor: `kept` are the items that were there at every page. -/
structure Gathered (kept : α → Prop) (all : List α) (cursor : Option α) : Prop where
  ascending : all.Pairwise (· < ·)
  ends : all.getLast? = cursor
  complete : ∀ item, kept item → item ∈ all ∨ Behind cursor item

theorem Gathered.nothing (kept : α → Prop) : Gathered kept [] none where
  ascending := .nil
  ends := rfl
  complete := fun _ _ => .inr nofun

variable {kept : α → Prop} {all items page : List α} {cursor : Option α} {more : Bool}

section

variable (gathered : Gathered kept all cursor)

include gathered

theorem Gathered.lt_of_behind {item next : α} (member : item ∈ all) (behind : Behind cursor next) : item < next := by
  obtain rfl | ⟨front, last, rfl⟩ := eq_nil_or_concat all
  · cases member
  rw [concat_eq_append] at *
  have reached : last < next := behind last (by rw [← gathered.ends, getLast?_concat]; rfl)
  rcases mem_append.mp member with early | final
  · exact lt_trans ((pairwise_append.mp gathered.ascending).2.2 item early last mem_cons_self) reached
  · rwa [mem_singleton.mp final]

theorem Gathered.append (read : Page items cursor page more) : (all ++ page).Pairwise (· < ·) := by
  rw [pairwise_append]
  exact ⟨gathered.ascending, read.ascending, fun item member next later =>
    gathered.lt_of_behind member (read.behind next later)⟩

theorem Gathered.next (read : Page items cursor page true)
    (present : ∀ item, kept item → item ∈ items) : Gathered kept (all ++ page) page.getLast? where
  ascending := gathered.append read
  ends := by
    rw [getLast?_append, getLast?_eq_getLast_of_ne_nil (read.nonempty rfl)]
    rfl
  complete := by
    intro item stays
    rw [mem_append]
    rcases gathered.complete item stays with early | behind
    · exact .inl (.inl early)
    · rcases read.complete item (present item stays) behind with now | ⟨_, later⟩
      · exact .inl (.inr now)
      · exact .inr later

theorem Gathered.last (read : Page items cursor page false)
    (present : ∀ item, kept item → item ∈ items) : ∀ item, kept item → item ∈ all ++ page := by
  intro item stays
  rw [mem_append]
  rcases gathered.complete item stays with early | behind
  · exact .inl early
  · rcases read.complete item (present item stays) behind with now | ⟨more, _⟩
    · exact .inr now
    · cases more

end

end Iec61850.Wire.Cursor
