import Iec61850.Service.Journal
import Iec61850.Wire.Paging

/-!
What one ReadJournal request is answered with: a page of the entries its selection picks from the
log.
-/

namespace Iec61850.Service

open List Mms Wire.Paging JournalSelection

variable (page front back : List WireJournalEntry) (registry : LogControlRegistry)

def answerReadJournal (negotiatedMaxPduSize : Option UInt32)
    (decoded : Except MmsError ReadJournalRequest) : Except ErrorClass ReadJournalResponse :=
  match decoded with
  | .error _ => .error .accessOther
  | .ok request =>
    match registry.resolveJournal request.domainId request.itemId with
    | none => .error .accessObjectNonExistent
    | some control =>
      let selection := fromRequest request
      match selection.query control with
      | .error _ => .error .accessOther
      | .ok entries =>
        let visitor :=
          (BudgetedJournalVisitor.new (readJournalBudget negotiatedMaxPduSize) selection).walk entries
        .ok ⟨visitor.accepted, some visitor.moreFollows⟩

theorem dispatchReadJournal_eq_answer (invokeId : UInt32) (decoded : Except MmsError ReadJournalRequest)
    (negotiatedMaxPduSize : Option UInt32) :
    dispatchReadJournal registry invokeId decoded negotiatedMaxPduSize =
      match answerReadJournal registry negotiatedMaxPduSize decoded with
      | .error reason => makeConfirmedError invokeId reason
      | .ok response => .response (encodeConfirmedReadJournalResponse invokeId response) := by
  unfold dispatchReadJournal answerReadJournal
  cases decoded with
  | error _ => rfl
  | ok request =>
    dsimp only
    cases registry.resolveJournal request.domainId request.itemId with
    | none => rfl
    | some control =>
      dsimp only
      cases (fromRequest request).query control <;> rfl

def JournalSelection.selected (selection : JournalSelection) (log : List JournalEntry) : List WireJournalEntry :=
  (log.filter selection.admits).filterMap selection.toWire

def pageCharge : Nat :=
  (page.map fun entry => estimateEntryWireSize entry emptyResponseBaseline).sum

@[simp] theorem pageCharge_append : pageCharge (front ++ back) = pageCharge front + pageCharge back := by
  simp [pageCharge]

theorem pageCharge_singleton (entry : WireJournalEntry) :
    pageCharge [entry] = estimateEntryWireSize entry emptyResponseBaseline := by
  simp [pageCharge]

theorem fits_prefixClosed (budget : Nat) :
    Wire.Packing.PrefixClosed fun (_ : Nat) (page : List WireJournalEntry) => pageCharge page ≤ budget := by
  intro number front back fits
  rw [pageCharge_append] at fits
  omega

theorem greatest_mem {numbers : List UInt64} {most : UInt64}
    (found : greatest numbers = some most) : most ∈ numbers := by
  cases numbers with
  | nil => cases found
  | cons first rest =>
    rw [← Option.some.inj found]
    clear found
    induction rest generalizing first with
    | nil => exact mem_cons_self
    | cons number rest ih =>
      rw [foldl_cons]
      split
      · exact mem_cons_of_mem first (ih number)
      obtain start | later := mem_cons.mp (ih first)
      · rw [start]
        exact mem_cons_self
      · exact mem_cons_of_mem first (mem_cons_of_mem number later)

theorem all_iff {α : Type} {test : α → Bool} {number : Option α} :
    number.all test = true ↔ ∀ known ∈ number, test known = true := by
  cases number <;> simp

namespace JournalSelection

variable {selection : JournalSelection} {entry : JournalEntry}

structure Admitted (selection : JournalSelection) (entry : JournalEntry) : Prop where
  started : ∀ timeMs ∈ selection.startTime, timeMs ≤ entry.timeMs
  reached : ∀ entryId ∈ selection.startEntry, entryId ≤ entry.entryId
  ended : ∀ timeMs ∈ selection.endTime, entry.timeMs ≤ timeMs
  behind : ∀ cursor ∈ selection.after, cursor.2 < entry.entryId ∧ cursor.1 ≤ entry.timeMs

theorem admits_iff : selection.admits entry = true ↔ selection.Admitted entry := by
  unfold admits
  rw [Bool.and_eq_true, Bool.and_eq_true, Bool.and_eq_true, all_iff, all_iff, all_iff, all_iff]
  simp only [Bool.and_eq_true, decide_eq_true_iff]
  constructor
  · rintro ⟨⟨⟨started, reached⟩, ended⟩, behind⟩
    exact ⟨started, reached, ended, behind⟩
  · intro admitted
    exact ⟨⟨⟨admitted.started, admitted.reached⟩, admitted.ended⟩, admitted.behind⟩

variable {log : List JournalEntry}

theorem query_covers {control : LogControl} (stored : control.storage = some ⟨.ok log⟩) (selection : JournalSelection) :
    ∃ matching : JournalEntry → Bool, selection.query control = .ok (log.filter matching) ∧
      ∀ entry, selection.admits entry = true → matching entry = true := by
  have walked (matching : JournalEntry → Bool) : control.query matching = .ok (log.filter matching) := by
    unfold LogControl.query
    rw [stored]
    rfl
  unfold query
  extract_lets earliest beforeStart
  have early {entry : JournalEntry} (admitted : selection.Admitted entry) : earliest ≤ entry.timeMs := by
    cases found : greatest (selection.startTime.toList ++ (selection.after.map Prod.fst).toList) with
    | none =>
      simp only [earliest, found, Option.getD_none]
      exact UInt64.zero_le
    | some most =>
      simp only [earliest, found, Option.getD_some]
      obtain start | resumed := mem_append.mp (greatest_mem found)
      · exact admitted.started most (Option.mem_toList.mp start)
      · obtain ⟨cursor, present, rfl⟩ := Option.map_eq_some_iff.mp (Option.mem_toList.mp resumed)
        exact (admitted.behind cursor present).2
  split
  · rename_i floor found
    refine ⟨_, walked _, ?_⟩
    intro entry admits
    have admitted := admits_iff.mp admits
    have behind : floor < entry.entryId := by
      obtain resumed | start := mem_append.mp (greatest_mem found)
      · obtain ⟨cursor, present, rfl⟩ := Option.map_eq_some_iff.mp (Option.mem_toList.mp resumed)
        exact (admitted.behind cursor present).1
      obtain ⟨first, present, before⟩ := Option.bind_eq_some_iff.mp (Option.mem_toList.mp start)
      have reached := admitted.reached first present
      split at before
      · cases before
      rename_i positive
      cases before
      have nonzero : first.toNat ≠ 0 := fun zero => positive (UInt64.toNat_inj.mp zero)
      have positive : (1 : UInt64) ≤ first := UInt64.le_iff_toNat_le.mpr (Nat.pos_of_ne_zero nonzero)
      have ordered := UInt64.le_iff_toNat_le.mp reached
      have one : (1 : UInt64).toNat = 1 := rfl
      rw [UInt64.lt_iff_toNat_lt, UInt64.toNat_sub_of_le _ _ positive]
      omega
    rw [Bool.and_eq_true, decide_eq_true_iff, decide_eq_true_iff]
    exact ⟨behind, early admitted⟩
  · refine ⟨_, walked _, ?_⟩
    intro entry admits
    have admitted := admits_iff.mp admits
    rw [Bool.and_eq_true, decide_eq_true_iff, decide_eq_true_iff]
    refine ⟨early admitted, ?_⟩
    cases ended : selection.endTime with
    | none =>
      have := entry.timeMs.toNat_lt
      exact UInt64.le_iff_toNat_le.mpr (by simp; omega)
    | some timeMs => exact admitted.ended timeMs ended

@[simp] theorem selected_nil : selection.selected [] = [] := rfl

theorem selected_cons_of_not_admits (refused : ¬ selection.admits entry = true) :
    selection.selected (entry :: log) = selection.selected log := by
  unfold selected
  rw [filter_cons_of_neg refused]

theorem selected_cons_of_none (empty : selection.toWire entry = none) :
    selection.selected (entry :: log) = selection.selected log := by
  unfold selected
  rw [filter_cons]
  split
  · rw [filterMap_cons_none empty]
  · rfl

theorem selected_cons_of_some {wire : WireJournalEntry}
    (admitted : selection.admits entry = true) (sent : selection.toWire entry = some wire) :
    selection.selected (entry :: log) = wire :: selection.selected log := by
  unfold selected
  rw [filter_cons_of_pos admitted, filterMap_cons_some sent]

theorem selected_filter {matching : JournalEntry → Bool}
    (covers : ∀ entry, selection.admits entry = true → matching entry = true) :
    selection.selected (log.filter matching) = selection.selected log := by
  unfold selected
  rw [filter_filter]
  congr 2
  funext entry
  cases admitted : selection.admits entry with
  | false => rfl
  | true => rw [covers entry admitted]; rfl

end JournalSelection

namespace BudgetedJournalVisitor

def room (visitor : BudgetedJournalVisitor) : Option Nat :=
  visitor.selection.limit.map fun count => count.toNat - visitor.accepted.length

variable {visitor : BudgetedJournalVisitor}

theorem room_eq_zero (reached : visitor.limitReached = true) : visitor.room = some 0 := by
  unfold limitReached at reached
  unfold room
  cases limit : visitor.selection.limit with
  | none => simp [limit] at reached
  | some count =>
    simp only [limit, Option.any_some, decide_eq_true_iff] at reached
    rw [Option.map_some, Nat.sub_eq_zero_of_le reached]

theorem room_pos (open_ : visitor.limitReached = false) : ∀ count ∈ visitor.room, 0 < count := by
  intro left found
  unfold limitReached at open_
  obtain ⟨count, limit, rfl⟩ := Option.map_eq_some_iff.mp found
  simp only [limit, Option.any_some, decide_eq_false_iff_not] at open_
  omega

def taken (visitor : BudgetedJournalVisitor) (wire : WireJournalEntry) : BudgetedJournalVisitor :=
  { visitor with
    consumed := visitor.consumed + estimateEntryWireSize wire visitor.baseline
    accepted := visitor.accepted ++ [wire] }

theorem visit_cases (visitor : BudgetedJournalVisitor) (entry : JournalEntry) : (visitor.visit entry = (visitor, true) ∧
        ∀ log, visitor.selection.selected (entry :: log) = visitor.selection.selected log) ∨
      ∃ wire, (∀ log, visitor.selection.selected (entry :: log) = wire :: visitor.selection.selected log) ∧
        (visitor.limitReached = true ∧ visitor.visit entry = (visitor, false) ∨
          visitor.limitReached = false ∧
            (visitor.budget < visitor.consumed + estimateEntryWireSize wire visitor.baseline ∧
                visitor.visit entry = ({ visitor with moreFollows := true }, false) ∨
              visitor.consumed + estimateEntryWireSize wire visitor.baseline ≤ visitor.budget ∧
                visitor.visit entry = (visitor.taken wire, !(visitor.taken wire).limitReached))) := by
  cases admitted : visitor.selection.admits entry with
  | false =>
    refine .inl ⟨by simp [visit, admitted], fun log => selected_cons_of_not_admits ?_⟩
    rw [admitted]
    exact Bool.false_ne_true
  | true =>
    cases sent : visitor.selection.toWire entry with
    | none => exact .inl ⟨by simp [visit, admitted, sent], fun log => selected_cons_of_none sent⟩
    | some wire =>
      refine .inr ⟨wire, fun log => selected_cons_of_some admitted sent, ?_⟩
      cases reached : visitor.limitReached with
      | true => exact .inl ⟨rfl, by simp [visit, admitted, sent, reached]⟩
      | false =>
        refine .inr ⟨rfl, ?_⟩
        by_cases large : visitor.budget < visitor.consumed + estimateEntryWireSize wire visitor.baseline
        · exact .inl ⟨large, by simp [visit, admitted, sent, reached, large]⟩
        · exact .inr ⟨Nat.le_of_not_lt large, by simp [visit, admitted, sent, reached, large, taken]⟩

theorem room_taken (visitor : BudgetedJournalVisitor) (wire : WireJournalEntry) :
    (visitor.taken wire).room = visitor.room.map (· - 1) := by
  unfold room taken
  cases visitor.selection.limit with
  | none => rfl
  | some count => simp [Nat.sub_add_eq]

/-- A visitor that has not been cut short and has charged its budget with what it accepted. -/
structure Open (visitor : BudgetedJournalVisitor) : Prop where
  baseline : visitor.baseline = emptyResponseBaseline
  consumed : visitor.consumed = pageCharge visitor.accepted
  within : visitor.consumed ≤ visitor.budget
  fresh : visitor.moreFollows = false

def Fits (visitor : BudgetedJournalVisitor) (page : List WireJournalEntry) : Prop :=
  pageCharge (visitor.accepted ++ page) ≤ visitor.budget

theorem Open.fits_nil (opened : visitor.Open) : visitor.Fits [] := by
  unfold Fits
  rw [append_nil, ← opened.consumed]
  exact opened.within

theorem Open.fits_singleton (opened : visitor.Open) (wire : WireJournalEntry) :
    visitor.Fits [wire] ↔ visitor.consumed + estimateEntryWireSize wire visitor.baseline ≤ visitor.budget := by
  unfold Fits
  rw [pageCharge_append, pageCharge_singleton, ← opened.consumed, opened.baseline]

theorem Open.taken (opened : visitor.Open) {wire : WireJournalEntry}
    (small : visitor.consumed + estimateEntryWireSize wire visitor.baseline ≤ visitor.budget) :
    (visitor.taken wire).Open := by
  refine ⟨opened.baseline, ?_, small, opened.fresh⟩
  simp only [BudgetedJournalVisitor.taken, pageCharge_append, pageCharge_singleton, opened.consumed, opened.baseline]

theorem fits_taken (visitor : BudgetedJournalVisitor) (wire : WireJournalEntry) :
    (visitor.taken wire).Fits = fun page => visitor.Fits (wire :: page) := by
  funext page
  unfold Fits BudgetedJournalVisitor.taken
  rw [append_assoc]
  rfl

theorem Open.walk_page (opened : visitor.Open) (entries : List JournalEntry) :
    ∃ page, (visitor.walk entries).accepted = visitor.accepted ++ page ∧
      Page visitor.Fits visitor.room (visitor.selection.selected entries) page (visitor.walk entries).moreFollows := by
  induction entries generalizing visitor with
  | nil =>
    refine ⟨[], (append_nil _).symm, ?_⟩
    rw [walk, opened.fresh]
    exact Page.nothing (by cases visitor.room <;> simp [upTo]) opened.fits_nil
  | cons entry rest ih =>
    rw [walk]
    obtain ⟨visited, selected⟩ | ⟨wire, selected, step⟩ := visit_cases visitor entry
    · rw [visited, selected]
      exact ih opened
    rw [selected]
    obtain ⟨reached, visited⟩ | ⟨open_, ⟨large, visited⟩ | ⟨small, visited⟩⟩ := step
    · rw [visited]
      refine ⟨[], (append_nil _).symm, ?_⟩
      simp only [Bool.false_eq_true, ↓reduceIte, opened.fresh]
      rw [room_eq_zero reached]
      exact Page.nothing rfl opened.fits_nil
    · rw [visited]
      refine ⟨[], (append_nil _).symm, ?_⟩
      simp only [Bool.false_eq_true, ↓reduceIte]
      refine @Page.cut _ _ _ [] _ wire opened.fits_nil ?_ (room_pos open_)
      rw [nil_append, opened.fits_singleton]
      omega
    · rw [visited]
      have opened' := opened.taken small
      cases full : (visitor.taken wire).limitReached with
      | true =>
        refine ⟨[wire], rfl, ?_⟩
        have paged : Page (visitor.taken wire).Fits (visitor.taken wire).room (visitor.selection.selected rest) []
            false := by
          rw [room_eq_zero full]
          exact Page.nothing rfl opened'.fits_nil
        rw [fits_taken, room_taken] at paged
        simp only [Bool.not_true, Bool.false_eq_true, ↓reduceIte, opened'.fresh]
        exact paged.cons (room_pos open_)
      | false =>
        obtain ⟨page, accepted, paged⟩ := ih opened'
        refine ⟨wire :: page, ?_, ?_⟩
        · simp only [Bool.not_false, ↓reduceIte]
          rw [accepted, append_cons]
          rfl
        · rw [fits_taken, room_taken] at paged
          exact paged.cons (room_pos open_)

end BudgetedJournalVisitor

theorem answerReadJournal_page {registry : LogControlRegistry} {request : ReadJournalRequest} {control : LogControl}
    {log : List JournalEntry} (resolved : registry.resolveJournal request.domainId request.itemId = some control)
    (stored : control.storage = some ⟨.ok log⟩) (negotiatedMaxPduSize : Option UInt32) :
    ∃ page more, answerReadJournal registry negotiatedMaxPduSize (.ok request) = .ok ⟨page, some more⟩ ∧
      Page (fun page => pageCharge page ≤ readJournalBudget negotiatedMaxPduSize)
        ((fromRequest request).limit.map UInt32.toNat)
        ((fromRequest request).selected log) page more := by
  let selection := fromRequest request
  let visitor := BudgetedJournalVisitor.new (readJournalBudget negotiatedMaxPduSize) selection
  obtain ⟨matching, queried, covers⟩ := selection.query_covers stored
  have opened : visitor.Open := ⟨rfl, rfl, Nat.zero_le _, rfl⟩
  obtain ⟨page, accepted, paged⟩ := opened.walk_page (log.filter matching)
  refine ⟨page, (visitor.walk (log.filter matching)).moreFollows, ?_, ?_⟩
  · unfold answerReadJournal
    dsimp only
    rw [resolved]
    dsimp only
    rw [queried]
    dsimp only
    rw [accepted]
    rfl
  · have same : visitor.selection.selected (log.filter matching) = selection.selected log :=
      selected_filter covers
    rw [same] at paged
    exact paged

end Iec61850.Service
