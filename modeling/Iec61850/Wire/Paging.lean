import Iec61850.Wire.Packing

/-!
Reading a list page by page behind a cursor: a page is the longest run of what is left that fits,
and the next page is taken from the items the cursor still lets through.
-/

namespace Iec61850.Wire.Paging

open List Packing

variable {α : Type}

def upTo : Option Nat → List α → List α
  | none, items => items
  | some count, items => items.take count

/-- A page of the items, and whether it was cut short. -/
inductive Page (fits : List α → Prop) (limit : Option Nat) : (items page : List α) → (more : Bool) → Prop
  | whole {items : List α} (holds : fits (upTo limit items)) : Page fits limit items (upTo limit items) false
  | cut {page later : List α} {first : α} (holds : fits page) (full : ¬ fits (page ++ [first]))
      (room : ∀ count ∈ limit, page.length < count) : Page fits limit (page ++ first :: later) page true

/-- Page after page. Behind a cut the next page is asked for after so many pages and items, the last
of them `last`: if that cannot be, the reading ends without a result, and else it sees the items
that may follow `last`. -/
inductive Reads (fits : List α → Prop) (follows : α → α → Bool) :
    (asks : Nat → Nat → α → Prop) → (limit : Option Nat) → (items : List α) →
      (result : Option (List α)) → Prop
  | last {asks : Nat → Nat → α → Prop} {limit : Option Nat} {items : List α}
      (holds : fits (upTo limit items)) : Reads fits follows asks limit items (some (upTo limit items))
  | stuck {asks : Nat → Nat → α → Prop} {limit : Option Nat} {front later : List α} {last first : α}
      (holds : fits (front ++ [last])) (full : ¬ fits (front ++ [last] ++ [first]))
      (room : ∀ count ∈ limit, (front ++ [last]).length < count)
      (refused : ¬ asks 1 (front ++ [last]).length last) :
      Reads fits follows asks limit (front ++ [last] ++ first :: later) none
  | more {asks : Nat → Nat → α → Prop} {limit : Option Nat} {front later : List α} {last first : α}
      {result : Option (List α)} (holds : fits (front ++ [last]))
      (full : ¬ fits (front ++ [last] ++ [first]))
      (room : ∀ count ∈ limit, (front ++ [last]).length < count)
      (asked : asks 1 (front ++ [last]).length last)
      (rest : Reads fits follows
        (fun pages count => asks (pages + 1) ((front ++ [last]).length + count))
        (limit.map (· - (front ++ [last]).length)) ((first :: later).filter (follows last)) result) :
      Reads fits follows asks limit (front ++ [last] ++ first :: later)
        (result.map (front ++ [last] ++ ·))

/-- Wherever a greedy packing of the items cuts them, the next page can be asked for and everything
behind may follow the item in front. -/
def CutsFollow (fits : List α → Prop) (follows : α → α → Bool) (asks : Nat → Nat → α → Prop)
    (items : List α) : Prop :=
  ∀ bins rest last, Fills (fun _ => fits) 0 items bins rest → bins.flatten.getLast? = some last →
    asks bins.length bins.flatten.length last ∧ ∀ item ∈ rest, follows last item = true

theorem upTo_append {limit : Option Nat} {front back : List α} (room : ∀ count ∈ limit, front.length ≤ count) :
    upTo limit (front ++ back) = front ++ upTo (limit.map (· - front.length)) back := by
  cases limit with
  | none => rfl
  | some count =>
    simp only [upTo, Option.map_some, take_append]
    rw [take_of_length_le (room count rfl)]

theorem upTo_subset (limit : Option Nat) (items : List α) : upTo limit items ⊆ items := by
  cases limit with
  | none => exact List.Subset.refl items
  | some count => exact take_subset count items

variable {keep : α → Bool} {count : Nat} {page : List α} {more : Bool}

theorem take_filter {items : List α} (kept : ∀ item ∈ items.take count, keep item = true) :
    (items.filter keep).take count = items.take count := by
  induction items generalizing count with
  | nil => simp
  | cons item later ih =>
    cases count with
    | zero => rfl
    | succ count =>
      have first : keep item = true := kept item mem_cons_self
      rw [filter_cons_of_pos first, take_succ_cons, take_succ_cons]
      rw [ih fun item member => kept item (mem_cons_of_mem _ member)]

theorem upTo_filter {limit : Option Nat} {items : List α}
    (kept : ∀ item ∈ upTo limit items, keep item = true) : upTo limit (items.filter keep) = upTo limit items := by
  cases limit with
  | none => exact filter_eq_self.mpr kept
  | some count => exact take_filter kept

theorem upTo_cons {limit : Option Nat} {front : List α} {first : α} {later : List α}
    (room : ∀ count ∈ limit, front.length < count) :
    ∃ tail, upTo (limit.map (· - front.length)) (first :: later) = first :: tail := by
  cases limit with
  | none => exact ⟨later, rfl⟩
  | some count =>
    have short := room count rfl
    obtain ⟨left, remaining⟩ := Nat.exists_eq_succ_of_ne_zero (Nat.sub_ne_zero_of_lt short)
    exact ⟨later.take left, by simp only [Option.map_some, upTo, remaining, take_succ_cons]⟩

variable {fits : List α → Prop} {follows : α → α → Bool} {asks : Nat → Nat → α → Prop}
  {limit : Option Nat} {items : List α}

theorem renumber {bins : List (List α)} {rest : List α} {number : Nat}
    (filled : Fills (fun _ => fits) number items bins rest) (other : Nat) :
    Fills (fun _ => fits) other items bins rest := by
  induction filled generalizing other with
  | start number items => exact .start other items
  | next nonempty holds full others ih => exact .next nonempty holds full (ih (other + 1))

theorem Page.nothing (none : upTo limit items = []) (holds : fits []) : Page fits limit items [] false := by
  have whole : Page fits limit items (upTo limit items) false := .whole (by rwa [none])
  rwa [none] at whole

section

variable (paged : Page fits limit items page more)

include paged

theorem Page.holds : fits page := by
  cases paged with
  | whole holds | cut holds full room => exact holds

theorem Page.sublist : page.Sublist items := by
  cases paged with
  | whole holds =>
    cases limit with
    | none => exact List.Sublist.refl items
    | some count => exact take_sublist count items
  | cut holds full room => exact sublist_append_left _ _

theorem Page.length_le : ∀ count ∈ limit, page.length ≤ count := by
  intro count limited
  cases paged with
  | whole holds =>
    cases limited
    exact length_take_le count items
  | cut holds full room => exact Nat.le_of_lt (room count limited)

end

theorem Page.cons {page : List α} {item : α} {more : Bool}
    (paged : Page (fun page => fits (item :: page)) (limit.map (· - 1)) items page more)
    (room : ∀ count ∈ limit, 0 < count) : Page fits limit (item :: items) (item :: page) more := by
  cases paged with
  | whole holds =>
    have longer : item :: upTo (limit.map (· - 1)) items = upTo limit (item :: items) :=
      (@upTo_append α limit [item] items room).symm
    rw [longer] at holds ⊢
    exact .whole holds
  | cut holds full fewer =>
    refine .cut holds full ?_
    intro count limited
    have short := fewer (count - 1) (Option.mem_map_of_mem _ limited)
    rw [length_cons]
    omega

theorem Page.of_short {bound : Nat}
    (paged : Page fits (some (min count bound)) items page more) (short : page.length < bound) :
    Page fits (some count) items page more := by
  cases paged with
  | whole holds =>
    have same : upTo (some (min count bound)) items = upTo (some count) items := by
      rw [upTo, length_take] at short
      rw [upTo, upTo, take_eq_take_iff]
      omega
    rw [same] at holds ⊢
    exact .whole holds
  | cut holds full room =>
    refine .cut holds full ?_
    intro limit equal
    cases equal
    exact Nat.lt_of_lt_of_le (room _ rfl) (Nat.min_le_left _ _)

theorem Reads.subset {result : Option (List α)} (reads : Reads fits follows asks limit items result)
    {read : List α} (returned : result = some read) : read ⊆ items := by
  induction reads generalizing read with
  | last holds =>
    cases returned
    exact upTo_subset _ _
  | stuck holds full room refused => cases returned
  | more holds full room asked rest ih =>
    obtain ⟨later, read, rfl⟩ := Option.map_eq_some_iff.mp returned
    intro item member
    rw [mem_append] at member ⊢
    cases member with
    | inl page => exact .inl page
    | inr member => exact .inr (mem_of_mem_filter (ih read member))

section

variable (closed : PrefixClosed fun _ : Nat => fits)

include closed

theorem cutsFollow_whole (holds : fits items) : CutsFollow fits follows asks items := by
  intro bins rest last filled ends
  cases filled with
  | start => cases ends
  | next nonempty _ full others =>
    rw [append_cons] at holds
    exact absurd (closed 0 _ _ holds) full

theorem cutsFollow_append {front tail : List α} {last first : α}
    (holds : fits (front ++ [last])) (full : ¬ fits (front ++ [last] ++ [first])) :
    CutsFollow fits follows asks (front ++ [last] ++ first :: tail) ↔
      (asks 1 (front ++ [last]).length last ∧ ∀ item ∈ first :: tail, follows last item = true) ∧
        CutsFollow fits follows (fun pages count => asks (pages + 1) ((front ++ [last]).length + count))
          (first :: tail) := by
  have nonempty : front ++ [last] ≠ [] := append_ne_nil_of_right_ne_nil _ (cons_ne_nil _ _)
  constructor
  · intro cuts
    refine ⟨?_, ?_⟩
    · have cut := cuts [front ++ [last]] (first :: tail) last
        (.next nonempty holds full (.start _ _)) (by simp)
      rwa [flatten_singleton] at cut
    · intro bins rest end_ filled ends
      have cut := cuts ((front ++ [last]) :: bins) rest end_
        (.next nonempty holds full (renumber filled _)) (by rw [flatten_cons, getLast?_append, ends]; rfl)
      rwa [flatten_cons, length_cons, @length_append _ _ bins.flatten] at cut
  · rintro ⟨behind, cuts⟩ bins rest end_ filled ends
    generalize same : front ++ [last] ++ first :: tail = items at filled
    cases filled with
    | start => cases ends
    | @next _ bin first' later' _ bins _ holds' full' others =>
      obtain ⟨rfl, rfl, rfl⟩ := @bin_unique α (fun _ => fits) 0 closed _ _ _ _ _ _ same holds full holds' full'
      rw [flatten_cons, getLast?_append, getLast?_concat] at ends
      cases later : bins.flatten.getLast? with
      | some end' =>
        rw [later] at ends
        cases ends
        rw [length_cons, flatten_cons, @length_append _ _ bins.flatten]
        exact cuts bins rest end_ (renumber others 0) later
      | none =>
        -- no second cut: the rest is all that is behind the first one
        rw [later] at ends
        cases ends
        have none : bins = [] := by
          cases bins with
          | nil => rfl
          | cons bin bins =>
            rw [getLast?_eq_none_iff, flatten_cons, append_eq_nil_iff] at later
            exact absurd later.1 (others.bins_ne_nil mem_cons_self)
        have pieces := others.flatten
        rw [none, nil_append, flatten_singleton] at pieces
        rwa [pieces, none, flatten_singleton]

/-- The pages are exactly what was asked for just when every cut lets through all that is behind
it. -/
theorem Reads.exact_iff {result : Option (List α)} (reads : Reads fits follows asks limit items result) :
    result = some (upTo limit items) ↔ CutsFollow fits follows asks (upTo limit items) := by
  induction reads with
  | last holds => exact iff_of_true rfl (cutsFollow_whole closed holds)
  | @stuck asks limit front later last first holds full room refused =>
    obtain ⟨tail, remaining⟩ := @upTo_cons α limit (front ++ [last]) first later room
    rw [upTo_append fun count limited => Nat.le_of_lt (room count limited), remaining,
      cutsFollow_append closed holds full]
    exact iff_of_false nofun fun cuts => refused cuts.1.1
  | @more asks limit front later last first result holds full room asked rest ih =>
    obtain ⟨tail, remaining⟩ := @upTo_cons α limit (front ++ [last]) first later room
    have cancelled (back : List α) : result.map (front ++ [last] ++ ·) = some (front ++ [last] ++ back) ↔
        result = some back := by
      cases result <;> simp
    rw [upTo_append fun count limited => Nat.le_of_lt (room count limited), cancelled, remaining,
      cutsFollow_append closed holds full]
    have unfiltered (behind : ∀ item ∈ first :: tail, follows last item = true) :
        upTo (limit.map (· - (front ++ [last]).length)) ((first :: later).filter (follows last)) = first :: tail := by
      rw [upTo_filter (by rwa [remaining]), remaining]
    constructor
    · intro exact
      have behind : ∀ item ∈ first :: tail, follows last item = true := by
        intro item member
        exact of_mem_filter (rest.subset exact member)
      rw [unfiltered behind] at ih
      exact ⟨⟨asked, behind⟩, ih.mp exact⟩
    · rintro ⟨⟨_, behind⟩, cuts⟩
      rw [unfiltered behind] at ih
      exact ih.mpr cuts

end

end Iec61850.Wire.Paging
