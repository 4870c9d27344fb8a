import Iec61850.Reporting.EntryIds
import Iec61850.Reporting.Filling
import Iec61850.Reporting.Window

/-!
The order of the entries of one buffered block with a buffer time: triggers, general interrogations
and ticks under a clock that does not run backwards.
-/

namespace Iec61850.Reporting

open Concurrency List Model

variable (buffer : InMemoryReportBuffer) (entry : ReportEntry) (inputs : List BlockInput)

def ReportEntry.isFull : Bool := entry.isGi || entry.isIntegrity

def ReportEntry.cell (index : Nat) : Option MemberSlot :=
  entry.snapshot.bind fun snapshot => snapshot.cell index

inductive Happening where
  | given (cells : Nat → Option MemberSlot)
  | enqueued (entry : ReportEntry)

def Happening.isFull : Happening → Bool
  | .given _ => false
  | .enqueued entry => entry.isFull

/-- One step of a run. A trigger comes with the values of the device model after the update, a tick
with the channel it finds. -/
inductive BlockInput where
  | trigger (live : LiveValues) (updates : List Update) (committed : List Nat)
      (context : List (DataAttributeRef × MmsValue)) (now : Instant) (nowMs : UInt64)
  | interrogate (conn : ConnectionId) (now : Instant)
  | tick (channel : Channel) (now : Instant) (nowMs : UInt64)

namespace Slot

variable (slot : Slot)

def given (updates : List Update) (committed : List Nat) (context : List (DataAttributeRef × MmsValue)) (index : Nat) :
    Option MemberSlot :=
  slot.dataset.bind fun dataset =>
    (slot.batchFill dataset updates committed context (.new dataset.len)).cell index

def snapshotDue (now : Instant) : Bool :=
  slot.state.rptEna && slot.dataset.isSome &&
    (slot.state.trgOps.contains .gi && slot.state.gi ||
      slot.state.trgOps.contains .integrity && decide (0 < slot.state.intgPdMs) &&
        slot.nextIntg.any fun deadline => decide (deadline ≤ now))

end Slot

namespace BlockInput

def program : BlockInput → BrcbM Unit
  | .trigger live updates committed context now nowMs => do
      modifySlot fun slot => { slot with live }
      withEngine (onValuesUpdatedWith updates committed context now nowMs)
  | .interrogate conn now => do
      let _ ← handleSetBrcbField .gi (.bool true) conn now
  | .tick channel now nowMs => do
      modifySlot fun slot => { slot with channel }
      withEngine (tickBrcb now nowMs)

variable (input : BlockInput)

def after (slot : Slot) : Slot := (input.program.run slot).state

def gives (slot : Slot) : List Happening :=
  match input with
  | .trigger live updates committed context _ _ => [.given ({ slot with live }.given updates committed context)]
  | .interrogate _ _ | .tick _ _ _ => []

def happenings (slot : Slot) : List Happening :=
  input.gives slot ++ (enqueuedOf (input.program.run slot).events).map .enqueued

def clockReading : BlockInput → Option UInt64
  | .trigger _ _ _ _ _ nowMs | .tick _ _ nowMs => some nowMs
  | .interrogate _ _ => none

/-- No buffer-time window stays open when a snapshot of the whole data set is enqueued. -/
def ClosesFirst (slot : Slot) : Prop :=
  match input with
  | .tick _ now _ => slot.snapshotDue now = true → ∀ window ∈ slot.bufTmPending, window.dueAt ≤ now
  | .trigger _ _ _ _ _ _ | .interrogate _ _ => True

instance : (input : BlockInput) → (slot : Slot) → Decidable (input.ClosesFirst slot)
  | .tick _ now _, slot =>
    inferInstanceAs (Decidable (slot.snapshotDue now = true → ∀ window ∈ slot.bufTmPending, window.dueAt ≤ now))
  | .trigger _ _ _ _ _ _, _ => isTrue trivial
  | .interrogate _ _, _ => isTrue trivial

end BlockInput

def runInputs (slot : Slot) : Slot :=
  inputs.foldl (fun slot input => input.after slot) slot

def historyOf : List BlockInput → Slot → List Happening
  | [], _ => []
  | input :: rest, slot => input.happenings slot ++ historyOf rest (input.after slot)

def EachStep (condition : BlockInput → Slot → Prop) : List BlockInput → Slot → Prop
  | [], _ => True
  | input :: rest, slot => condition input slot ∧ EachStep condition rest (input.after slot)

instance decidableEachStep (condition : BlockInput → Slot → Prop) [∀ input slot, Decidable (condition input slot)] :
    (inputs : List BlockInput) → (slot : Slot) → Decidable (EachStep condition inputs slot)
  | [], _ => isTrue trivial
  | input :: rest, slot =>
    have : Decidable (EachStep condition rest (input.after slot)) := decidableEachStep condition rest _
    inferInstanceAs (Decidable (_ ∧ _))

def ClockNondecreasing : Prop :=
  (inputs.filterMap BlockInput.clockReading).Pairwise (· ≤ ·)

/-- The value was given, and no snapshot of the whole data set has been enqueued since. -/
def GivenSince (history : List Happening) (index : Nat) (cell : MemberSlot) : Prop :=
  ∃ early cells late, history = early ++ .given cells :: late ∧ cells index = some cell ∧
    ∀ happening ∈ late, happening.isFull = false

/-- No value given before a snapshot of the whole data set is enqueued after it. -/
def ValuesInOrder (history : List Happening) : Prop :=
  ∀ front entry back, history = front ++ .enqueued entry :: back → entry.isFull = false →
    ∀ index cell, entry.cell index = some cell → GivenSince front index cell

def TimesInOrder (entries : List ReportEntry) : Prop :=
  ∀ earlier ∈ entries, ∀ later ∈ entries, earlier.entryId.asU64 < later.entryId.asU64 →
    earlier.timeOfEntryMs ≤ later.timeOfEntryMs

instance (entries : List ReportEntry) : Decidable (TimesInOrder entries) :=
  inferInstanceAs (Decidable (∀ earlier ∈ entries, ∀ later ∈ entries, earlier.entryId.asU64 < later.entryId.asU64 →
    earlier.timeOfEntryMs ≤ later.timeOfEntryMs))

section History

variable {history more : List Happening} {index : Nat} {cell : MemberSlot}

theorem GivenSince.append (given : GivenSince history index cell)
    (quiet : ∀ happening ∈ more, happening.isFull = false) :
    GivenSince (history ++ more) index cell := by
  obtain ⟨early, cells, late, rfl, found, since⟩ := given
  refine ⟨early, cells, late ++ more, by simp, found, ?_⟩
  intro happening member
  rcases mem_append.mp member with before | after
  · exact since happening before
  · exact quiet happening after

theorem GivenSince.last {cells : Nat → Option MemberSlot} (found : cells index = some cell) :
    GivenSince (history ++ [.given cells]) index cell :=
  ⟨history, cells, [], rfl, found, by simp⟩

theorem valuesInOrder_nil : ValuesInOrder [] := by
  intro front entry back split
  simp at split

theorem ValuesInOrder.concat (inOrder : ValuesInOrder history) {happening : Happening}
    (last : ∀ entry, happening = .enqueued entry → entry.isFull = false →
      ∀ index cell, entry.cell index = some cell → GivenSince history index cell) :
    ValuesInOrder (history ++ [happening]) := by
  intro front entry back split
  rcases eq_nil_or_concat back with rfl | ⟨rest, final, rfl⟩
  · obtain ⟨rfl, same⟩ := append_inj' split rfl
    exact last entry (cons.inj same).1
  · rw [concat_eq_append, ← cons_append, ← append_assoc] at split
    obtain ⟨same, _⟩ := append_inj' split rfl
    exact inOrder front entry rest same

theorem ValuesInOrder.given (inOrder : ValuesInOrder history) (cells : Nat → Option MemberSlot) :
    ValuesInOrder (history ++ [.given cells]) := by
  apply inOrder.concat
  intro entry same
  cases same

end History

/-- A window that is still open: it was opened after everything stored, and all its values are
recent. -/
structure OpenWindow (stored : Storage) (clock : Nat) (history : List Happening)
    (window : BrcbBufTmPending) : Prop where
  opened : window.firstTriggerMs.toNat ≤ clock
  after : ∀ entry ∈ stored.entries, entry.timeOfEntryMs.toNat ≤ window.firstTriggerMs.toNat
  filled : ∃ dataset, stored.dataset = some dataset ∧ window.snapshot.Filled dataset.len
  recent : ∀ index cell, window.snapshot.cell index = some cell → GivenSince history index cell

/-- The state of a block whose entries are in order, with what has happened to it until the clock
read `clock`. -/
structure Chronological (stored : Storage) (clock : Nat) (history : List Happening) : Prop where
  buffered : stored.configuration.bufTmMs ≠ 0
  inOrder : stored.entries.Pairwise fun earlier later =>
    earlier.entryId.asU64 ≤ later.entryId.asU64 ∧ earlier.timeOfEntryMs.toNat ≤ later.timeOfEntryMs.toNat
  ids : ∀ entry ∈ stored.entries, entry.entryId.asU64 ≤ stored.lastEntryIdMs.toNat
  past : ∀ entry ∈ stored.entries, entry.timeOfEntryMs.toNat ≤ clock
  window : ∀ window ∈ stored.window, OpenWindow stored clock history window
  values : ValuesInOrder history

theorem enqueuedOf_pushEvents :
    enqueuedOf (pushEvents buffer entry) = [] ∨ enqueuedOf (pushEvents buffer entry) = [entry] := by
  have silent : enqueuedOf ((buffer.evicted buffer.entries).map fun old => .evicted old.entryId) = [] := by
    simp [enqueuedOf]
  unfold pushEvents
  split
  · exact .inl rfl
  split
  · exact .inl rfl
  · rw [enqueuedOf_append, silent]
    exact .inr rfl

theorem Slot.storage_enqueue (slot : Slot) (timeMs : UInt64) (isIntegrity isGi : Bool) (snapshot : EnqueuedSnapshot) :
    (slot.enqueue timeMs isIntegrity isGi snapshot).storage =
      { slot.storage with
        entries := (slot.reportBuffer.push (slot.entryFor timeMs isIntegrity isGi snapshot)).2.entries
        lastEntryIdMs := (slot.entryFor timeMs isIntegrity isGi snapshot).entryId.value } := by
  have kept (buffer : InMemoryReportBuffer) (entry : ReportEntry) :
      (buffer.push entry).2.capacity = buffer.capacity ∧ (buffer.push entry).2.strategy = buffer.strategy := by
    unfold InMemoryReportBuffer.push
    split
    · exact ⟨rfl, rfl⟩
    · split <;> exact ⟨rfl, rfl⟩
  have state (state : BrcbState) : state.onEnqueue.lastEntryIdMs = state.lastEntryIdMs ∧
      state.onEnqueue.isBuffering = state.isBuffering ∧ state.onEnqueue.configuration = state.configuration := by
    unfold BrcbState.onEnqueue
    split <;> exact ⟨rfl, rfl, rfl⟩
  obtain ⟨last, buffering, configuration⟩ := state (slot.state.allocateEntryId timeMs).2
  simp only [Slot.storage, Slot.enqueue, kept, last, buffering, configuration]
  rfl

theorem lastEntryIdMs_le_allocated (state : BrcbState) (timeMs : UInt64) :
    state.lastEntryIdMs.toNat ≤ (state.allocateEntryId timeMs).1.asU64 := by
  have bound := state.lastEntryIdMs.toNat_lt
  rw [asU64_allocateEntryId]
  split <;> omega

namespace Chronological

variable {slot : Slot} {clock : Nat} {history : List Happening}

section

variable (inOrder : Chronological slot.storage clock history)

include inOrder

/-- An entry whose time lies between what is stored and the window keeps the order; one of the whole
data set needs the window to be closed. -/
theorem enqueue {timeMs : UInt64} {isIntegrity isGi : Bool} {snapshot : EnqueuedSnapshot} (now : timeMs.toNat ≤ clock)
    (after : ∀ entry ∈ slot.reportBuffer.entries, entry.timeOfEntryMs.toNat ≤ timeMs.toNat)
    (before : ∀ window ∈ slot.bufTmPending, timeMs.toNat ≤ window.firstTriggerMs.toNat)
    (alone : (isGi || isIntegrity) = true → slot.bufTmPending = none)
    (recent : (isGi || isIntegrity) = false → ∀ index cell, snapshot.cell index = some cell → GivenSince history index
      cell) :
    Chronological (slot.enqueue timeMs isIntegrity isGi snapshot).storage clock
      (history ++ (enqueuedOf (pushEvents slot.reportBuffer (slot.entryFor timeMs isIntegrity isGi snapshot))).map
        .enqueued) := by
  generalize made : slot.entryFor timeMs isIntegrity isGi snapshot = entry
  have full : entry.isFull = (isGi || isIntegrity) := by rw [← made]; rfl
  have time : entry.timeOfEntryMs = timeMs := by rw [← made]; rfl
  have id : slot.state.lastEntryIdMs.toNat ≤ entry.entryId.asU64 := by
    rw [← made]
    exact lastEntryIdMs_le_allocated slot.state timeMs
  have all : (slot.reportBuffer.push entry).2.entries.Sublist (slot.reportBuffer.entries ++ [entry]) := by
    have stored : (slot.reportBuffer.push entry).2.entries.Sublist
        (slot.reportBuffer.entries ++ enqueuedOf (pushEvents slot.reportBuffer entry)) :=
      push_entries_sublist (List.Sublist.refl _)
    rcases enqueuedOf_pushEvents slot.reportBuffer entry with none | one
    · rw [none, append_nil] at stored
      exact stored.trans (sublist_append_left _ _)
    · rwa [one] at stored
  have inside {other : ReportEntry} (member : other ∈ (slot.reportBuffer.push entry).2.entries) :
      other ∈ slot.reportBuffer.entries ∨ other = entry := by
    simpa using all.subset member
  rw [Slot.storage_enqueue, made]
  constructor
  · exact inOrder.buffered
  · apply List.Pairwise.sublist all
    apply pairwise_append.mpr
    refine ⟨inOrder.inOrder, pairwise_singleton _ _, ?_⟩
    intro earlier stored later last
    rw [mem_singleton.mp last, time]
    exact ⟨Nat.le_trans (inOrder.ids earlier stored) id, after earlier stored⟩
  · intro other member
    rcases inside member with old | rfl
    · exact Nat.le_trans (inOrder.ids other old) id
    · exact Nat.le_refl _
  · intro other member
    rcases inside member with old | rfl
    · exact inOrder.past other old
    · rw [time]
      exact now
  · intro window stillOpen
    have still := inOrder.window window stillOpen
    refine ⟨still.opened, ?_, still.filled, ?_⟩
    · intro other member
      rcases inside member with old | rfl
      · exact still.after other old
      · rw [time]
        exact before window stillOpen
    · intro index cell found
      apply (still.recent index cell found).append
      intro happening member
      obtain ⟨other, enqueued, rfl⟩ := mem_map.mp member
      have same : other = entry := by
        rcases enqueuedOf_pushEvents slot.reportBuffer entry with none | one
        · rw [none] at enqueued
          cases enqueued
        · rw [one] at enqueued
          exact mem_singleton.mp enqueued
      cases whole : entry.isFull with
      | true =>
        have closed := alone (full.symm.trans whole)
        rw [show slot.storage.window = none from closed] at stillOpen
        cases stillOpen
      | false => rw [same]; exact whole
  · rcases enqueuedOf_pushEvents slot.reportBuffer entry with none | one
    · rw [none, map_nil, append_nil]
      exact inOrder.values
    · rw [one]
      apply inOrder.values.concat
      intro other same part index cell found
      cases same
      rw [← made] at found
      exact recent (full.symm.trans part) index cell found

theorem closeWindow {window : BrcbBufTmPending} (stillOpen : OpenWindow slot.storage clock history window)
    (before : ∀ next ∈ slot.bufTmPending, window.firstTriggerMs.toNat ≤ next.firstTriggerMs.toNat) :
    Chronological (slot.closeWindow window).1.storage clock
      (history ++ (enqueuedOf (slot.closeWindow window).2).map .enqueued) := by
  unfold Slot.closeWindow
  split
  · rw [show enqueuedOf [] = [] from rfl, map_nil, append_nil]
    exact inOrder
  · exact inOrder.enqueue stillOpen.opened stillOpen.after before nofun fun _ => stillOpen.recent

theorem windowExpired (now : Instant) : Chronological (slot.windowExpired now).1.storage clock
      (history ++ (enqueuedOf (slot.windowExpired now).2).map .enqueued) := by
  have unchanged : Chronological slot.storage clock (history ++ (enqueuedOf []).map .enqueued) := by
    rw [show enqueuedOf [] = [] from rfl, map_nil, append_nil]
    exact inOrder
  unfold Slot.windowExpired
  cases pending : slot.bufTmPending with
  | none => exact unchanged
  | some window =>
    dsimp only
    split
    · have stillOpen := inOrder.window window pending
      have taken : Chronological { slot with bufTmPending := none }.storage clock history :=
        { inOrder with window := nofun }
      exact taken.closeWindow ⟨stillOpen.opened, stillOpen.after, stillOpen.filled, stillOpen.recent⟩ nofun
    · exact unchanged

end

variable {nowMs : UInt64} {stored : Storage}

theorem fullEnqueued (inOrder : Chronological slot.storage clock history) (isIntegrity isGi : Bool)
    (now : nowMs.toNat = clock) (closed : slot.dataset.isSome = true → slot.bufTmPending = none)
    (whole : (isGi || isIntegrity) = true) :
    Chronological (slot.fullEnqueued nowMs isIntegrity isGi).1.storage clock
      (history ++ (enqueuedOf (slot.fullEnqueued nowMs isIntegrity isGi).2).map .enqueued) := by
  unfold Slot.fullEnqueued
  cases found : snapshotFullDataset slot with
  | none =>
    rw [show enqueuedOf [] = [] from rfl, map_nil, append_nil]
    exact inOrder
  | some snapshot =>
    obtain ⟨dataset, bound, _⟩ := Option.map_eq_some_iff.mp found
    have none := closed (by rw [bound]; rfl)
    apply inOrder.enqueue (Nat.le_of_eq now)
    · intro entry stored
      rw [now]
      exact inOrder.past entry stored
    · rw [none]
      nofun
    · intro _
      exact none
    · intro part
      rw [whole] at part
      cases part

section

variable (inOrder : Chronological stored clock history)

include inOrder

theorem congr {other : Storage} (entries : other.entries = stored.entries) (window : other.window = stored.window)
    (lastEntryIdMs : other.lastEntryIdMs = stored.lastEntryIdMs)
    (configuration : other.configuration = stored.configuration) (dataset : other.dataset = stored.dataset) :
    Chronological other clock history := by
  obtain ⟨buffered, sorted, ids, past, opened, values⟩ := inOrder
  refine ⟨configuration ▸ buffered, entries ▸ sorted, entries ▸ lastEntryIdMs ▸ ids, entries ▸ past, ?_, values⟩
  intro pending found
  have still := opened pending (window ▸ found)
  exact ⟨still.opened, entries ▸ still.after, dataset ▸ still.filled, still.recent⟩

theorem later {next : Nat} (passed : clock ≤ next) : Chronological stored next history :=
  { inOrder with
    past := fun entry member => Nat.le_trans (inOrder.past entry member) passed
    window := fun window stillOpen =>
      let still := inOrder.window window stillOpen
      { still with opened := Nat.le_trans still.opened passed } }

theorem given (cells : Nat → Option MemberSlot) : Chronological stored clock (history ++ [.given cells]) :=
  { inOrder with
    values := inOrder.values.given cells
    window := fun window stillOpen =>
      let still := inOrder.window window stillOpen
      { still with
        recent := fun index cell found => (still.recent index cell found).append (by
          intro happening member
          rw [mem_singleton.mp member]
          rfl) } }

end

theorem batchTaken {updates : List Update} {committed : List Nat} {context : List (DataAttributeRef × MmsValue)}
    (inOrder : Chronological slot.storage nowMs.toNat (history ++ [.given (slot.given updates committed context)]))
    (now : Instant) : Chronological (slot.batchTaken updates committed context now nowMs).1.storage nowMs.toNat
      (history ++ [.given (slot.given updates committed context)] ++
        (enqueuedOf (slot.batchTaken updates committed context now nowMs).2).map .enqueued) := by
  have silent {state : Storage} (still : Chronological state nowMs.toNat
      (history ++ [.given (slot.given updates committed context)])) :
      Chronological state nowMs.toNat (history ++ [.given (slot.given updates committed context)] ++
        (enqueuedOf []).map .enqueued) := by
    rw [show enqueuedOf [] = [] from rfl, map_nil, append_nil]
    exact still
  unfold Slot.batchTaken
  cases bound : slot.dataset with
  | none => exact silent inOrder
  | some dataset =>
    dsimp only
    split
    · exact silent inOrder
    have valid : ∀ member ∈ slot.batchSlots updates committed, member.Valid dataset := by
      unfold Slot.batchSlots
      split
      · next other _ same =>
        cases bound.symm.trans same
        exact triggeredSlots_valid _ _ _
      · simp
    have opened (dueAt : Instant) (oldestCommit : Nat) : OpenWindow slot.storage nowMs.toNat
        (history ++ [.given (slot.given updates committed context)])
        { purges := (slot.purgeView updates committed).purges, oldestCommit, firstTriggerMs := nowMs, dueAt
          snapshot := slot.batchFill dataset updates committed context (.new dataset.len) } := by
      refine ⟨Nat.le_refl _, inOrder.past, ⟨dataset, bound, (EnqueuedSnapshot.filled_new _).fill valid⟩, ?_⟩
      intro index cell found
      apply GivenSince.last
      rw [Slot.given, bound]
      exact found
    have replaced {window : BrcbBufTmPending}
        (stillOpen : OpenWindow slot.storage nowMs.toNat
          (history ++ [.given (slot.given updates committed context)]) window) :
        Chronological { slot with bufTmPending := some window }.storage nowMs.toNat
          (history ++ [.given (slot.given updates committed context)]) := by
      refine ⟨inOrder.buffered, inOrder.inOrder, inOrder.ids, inOrder.past, ?_, inOrder.values⟩
      intro other same
      cases same
      exact ⟨stillOpen.opened, stillOpen.after, stillOpen.filled, stillOpen.recent⟩
    unfold Slot.batchJoin Slot.afterJoin
    rcases BrcbBufTmPending.join_cases slot.bufTmPending (slot.purgeView updates committed) nowMs
      (now + slot.state.bufTmMs.toNat) dataset.len (slot.batchSlots updates committed)
      (slot.batchFill dataset updates committed context) with
      ⟨_, joined⟩ | ⟨window, found, _, _, joined⟩ | ⟨window, found, _, fresh, joined⟩
    · rw [joined]
      exact silent (replaced (opened _ _))
    · rw [joined]
      have still := inOrder.window window found
      apply (replaced (opened _ _)).closeWindow
      · exact ⟨still.opened, still.after, still.filled, still.recent⟩
      · intro next same
        cases same
        exact still.opened
    · rw [joined]
      have still := inOrder.window window found
      obtain ⟨other, same, filled⟩ := still.filled
      cases bound.symm.trans same
      refine silent (replaced ?_)
      refine ⟨still.opened, still.after, ⟨dataset, bound, filled.fill valid⟩, ?_⟩
      intro index cell found
      change (window.snapshot.fill _ _ _ _).cell index = some cell at found
      rw [filled.cell_fill valid fresh] at found
      rcases Option.or_eq_some_iff.mp found with new | ⟨_, old⟩
      · apply GivenSince.last
        rw [Slot.given, bound]
        exact new
      · exact still.recent index cell old

section

variable (inOrder : Chronological slot.storage clock history)

include inOrder

theorem undisturbed {after : Slot} {events : List Event} (same : Undisturbed slot events after) :
    Chronological after.storage clock (history ++ (enqueuedOf events).map .enqueued) := by
  rw [same.1, same.2, map_nil, append_nil]
  exact inOrder

theorem tickGi (wanted : Bool)
    (now : nowMs.toNat = clock) (closed : wanted = true → slot.dataset.isSome = true → slot.bufTmPending = none) :
    Chronological ((Reporting.tickGi wanted nowMs).run slot).state.storage clock
      (history ++ (enqueuedOf ((Reporting.tickGi wanted nowMs).run slot).events).map .enqueued) := by
  cases wanted with
  | false => exact inOrder.undisturbed (.refl slot)
  | true =>
    have full := inOrder.fullEnqueued false true now (closed rfl) rfl
    simp only [Reporting.tickGi, if_true, Proc.run_bind, Slot.enqueueFullDataset_run, Outcome.prepend]
    split
    · rw [modifyState_run, append_nil]
      exact full.congr rfl rfl rfl rfl rfl
    · rw [Proc.run_pure, append_nil]
      exact full

theorem tickIntegrity (wanted : Bool) (intgPdMs : UInt32) (now : Instant) (reads : nowMs.toNat = clock)
    (closed : (wanted && slot.nextIntg.any fun deadline => decide (deadline ≤ now)) = true → slot.dataset.isSome = true
      → slot.bufTmPending = none) :
    Chronological ((Reporting.tickIntegrity wanted intgPdMs now nowMs).run slot).state.storage clock
      (history ++ (enqueuedOf ((Reporting.tickIntegrity wanted intgPdMs now nowMs).run
        slot).events).map .enqueued) := by
  cases wanted with
  | false => exact inOrder.undisturbed (.refl slot)
  | true =>
    simp only [Reporting.tickIntegrity, if_true, Proc.run_bind, readSlot_run, Outcome.prepend_nil]
    split
    · next due =>
      have full := inOrder.fullEnqueued true false reads (closed (by rw [Bool.true_and]; exact due)) rfl
      simp only [Proc.run_bind, Slot.enqueueFullDataset_run, Outcome.prepend]
      split
      · rw [modifySlot_run, append_nil]
        exact full.congr rfl rfl rfl rfl rfl
      · rw [Proc.run_pure, append_nil]
        exact full
    · exact inOrder.undisturbed (.refl slot)

end

end Chronological

namespace Slot

variable {slot : Slot}

theorem closeWindow_frame (slot : Slot) (window : BrcbBufTmPending) :
    (slot.closeWindow window).1.bufTmPending = slot.bufTmPending ∧
      ∀ now, (slot.closeWindow window).1.snapshotDue now = slot.snapshotDue now := by
  unfold closeWindow
  split
  · exact ⟨rfl, fun _ => rfl⟩
  refine ⟨rfl, fun now => ?_⟩
  have kept (state : BrcbState) : state.onEnqueue.rptEna = state.rptEna ∧ state.onEnqueue.gi = state.gi ∧
      state.onEnqueue.trgOps = state.trgOps ∧ state.onEnqueue.intgPdMs = state.intgPdMs := by
    unfold BrcbState.onEnqueue
    split <;> exact ⟨rfl, rfl, rfl, rfl⟩
  simp only [snapshotDue, enqueue, kept]
  rfl

theorem windowExpired_frame (slot : Slot) (now : Instant) :
    ((∀ window ∈ slot.bufTmPending, window.dueAt ≤ now) → (slot.windowExpired now).1.bufTmPending = none) ∧
      (slot.windowExpired now).1.snapshotDue now = slot.snapshotDue now := by
  unfold windowExpired
  cases pending : slot.bufTmPending with
  | none => exact ⟨fun _ => pending, rfl⟩
  | some window =>
    dsimp only
    split
    · obtain ⟨closed, same⟩ := closeWindow_frame { slot with bufTmPending := none } window
      exact ⟨fun _ => closed, same now⟩
    · next early => exact ⟨fun due => absurd (due window rfl) early, rfl⟩

theorem tickGi_frame (slot : Slot) (wanted : Bool) (nowMs : UInt64) :
    ((tickGi wanted nowMs).run slot).state.bufTmPending = slot.bufTmPending ∧
      ((tickGi wanted nowMs).run slot).state.dataset = slot.dataset ∧
      ((tickGi wanted nowMs).run slot).state.nextIntg = slot.nextIntg := by
  have full : (slot.fullEnqueued nowMs false true).1.bufTmPending = slot.bufTmPending ∧
      (slot.fullEnqueued nowMs false true).1.dataset = slot.dataset ∧
      (slot.fullEnqueued nowMs false true).1.nextIntg = slot.nextIntg := by
    unfold fullEnqueued
    split <;> exact ⟨rfl, rfl, rfl⟩
  cases wanted with
  | false => exact ⟨rfl, rfl, rfl⟩
  | true =>
    simp only [tickGi, if_true, Proc.run_bind, enqueueFullDataset_run, Outcome.prepend]
    split <;> exact full

end Slot

namespace Chronological

variable {slot : Slot} {clock : Nat} {history : List Happening}

section

variable (inOrder : Chronological slot.storage clock history)

include inOrder

theorem tickBrcb (now : Instant) {nowMs : UInt64} (reads : nowMs.toNat = clock)
    (closed : slot.snapshotDue now = true → ∀ window ∈ slot.bufTmPending, window.dueAt ≤ now) :
    Chronological ((Reporting.tickBrcb now nowMs).run slot).state.storage clock
      (history ++ (enqueuedOf ((Reporting.tickBrcb now nowMs).run slot).events).map .enqueued) := by
  obtain ⟨expires, sameDue⟩ := slot.windowExpired_frame now
  obtain ⟨expiredState, expiredEvents⟩ := slot.expireWindow_run now
  have first := inOrder.windowExpired now
  rw [← expiredState, ← expiredEvents] at first
  have nowClosed : ((expireWindow now).run slot).state.snapshotDue now = true →
      ((expireWindow now).run slot).state.bufTmPending = none := by
    rw [expiredState, sameDue]
    exact fun due => expires (closed due)
  unfold Reporting.tickBrcb
  simp only [Proc.run_bind, readState_run, Outcome.prepend_nil]
  generalize (expireWindow now).run slot = expired at first nowClosed ⊢
  obtain ⟨_, between, earlier⟩ := expired
  obtain ⟨samePending, sameDataset, sameDeadline⟩ := between.tickGi_frame
    (between.state.rptEna && between.state.trgOps.contains .gi && between.state.gi) nowMs
  have second := first.tickGi (between.state.rptEna && between.state.trgOps.contains .gi && between.state.gi) reads (by
      intro wanted bound
      apply nowClosed
      simp only [Bool.and_eq_true] at wanted
      simp [Slot.snapshotDue, wanted, bound])
  have third := second.tickIntegrity
    (between.state.rptEna && between.state.trgOps.contains .integrity && decide (0 < between.state.intgPdMs))
    between.state.intgPdMs now reads (by
      intro wanted bound
      rw [samePending]
      apply nowClosed
      rw [sameDataset] at bound
      rw [sameDeadline] at wanted
      simp only [Bool.and_eq_true] at wanted
      simp [Slot.snapshotDue, wanted, bound])
  have fourth := third.undisturbed
    (Undisturbed.run (Undisturbed.serves
      (ServeSection.serveBrcb between.state.rptEna between.state.clientConnId now)) _)
  simpa [Outcome.prepend, append_assoc] using fourth

theorem step (input : BlockInput) (closes : input.ClosesFirst slot)
    (forward : ∀ reading ∈ input.clockReading, clock ≤ reading.toNat) :
    Chronological (input.after slot).storage (input.clockReading.elim clock UInt64.toNat)
      (history ++ input.happenings slot) := by
  cases input with
  | trigger live updates committed context now nowMs =>
    have current := inOrder.later (forward nowMs rfl)
    have loaded : Chronological { slot with live, engineLocked := true }.storage nowMs.toNat history :=
      current.congr rfl rfl rfl rfl rfl
    have taken := (loaded.given ({ slot with live }.given updates committed context)).batchTaken now
    obtain ⟨state, events⟩ := Slot.onValuesUpdatedWith_run { slot with live, engineLocked := true } updates committed
      context now nowMs inOrder.buffered
    rw [← state, ← events, append_assoc] at taken
    unfold BlockInput.after BlockInput.happenings BlockInput.program
    simp only [Proc.run_bind, modifySlot_run, withEngine_run, Outcome.prepend_nil]
    exact taken
  | interrogate conn now =>
    have same := Undisturbed.run (Undisturbed.writeGi (.bool true) conn now) slot
    have kept := inOrder.undisturbed same
    simpa [BlockInput.after, BlockInput.happenings, BlockInput.gives, BlockInput.program, BlockInput.clockReading,
      Outcome.prepend] using kept
  | tick channel now nowMs =>
    have current := inOrder.later (forward nowMs rfl)
    have found : Chronological { slot with channel, engineLocked := true }.storage nowMs.toNat history :=
      current.congr rfl rfl rfl rfl rfl
    have ticked := found.tickBrcb now rfl closes
    unfold BlockInput.after BlockInput.happenings BlockInput.program
    simp only [Proc.run_bind, modifySlot_run, withEngine_run, Outcome.prepend_nil]
    exact ticked

theorem run {inputs : List BlockInput} (closes : EachStep BlockInput.ClosesFirst inputs slot)
    (nondecreasing : ClockNondecreasing inputs)
    (forward : ∀ reading ∈ inputs.filterMap BlockInput.clockReading, clock ≤ reading.toNat) :
    ∃ last, Chronological (runInputs inputs slot).storage last (history ++ historyOf inputs slot) := by
  induction inputs generalizing slot clock history with
  | nil =>
    refine ⟨clock, ?_⟩
    rw [historyOf, append_nil]
    exact inOrder
  | cons input rest ih =>
    obtain ⟨first, others⟩ := closes
    unfold ClockNondecreasing at nondecreasing ih
    rw [historyOf, ← append_assoc]
    cases reading : input.clockReading with
    | none =>
      rw [filterMap_cons_none reading] at nondecreasing forward
      have next := inOrder.step input first (by rw [reading]; nofun)
      rw [reading] at next
      exact ih next others nondecreasing forward
    | some nowMs =>
      rw [filterMap_cons_some reading] at nondecreasing forward
      obtain ⟨later, nondecreasing⟩ := pairwise_cons.mp nondecreasing
      have next := inOrder.step input first (by
        rw [reading]
        intro same read
        cases read
        exact forward nowMs mem_cons_self)
      rw [reading] at next
      exact ih next others nondecreasing fun after member => UInt64.le_iff_toNat_le.mp (later after member)

end

theorem timesInOrder {stored : Storage} (inOrder : Chronological stored clock history) :
    TimesInOrder stored.entries := by
  intro earlier earlierStored later laterStored less
  have ordered := inOrder.inOrder
  obtain ⟨place, inside, rfl⟩ := mem_iff_getElem.mp earlierStored
  obtain ⟨other, otherInside, rfl⟩ := mem_iff_getElem.mp laterStored
  rcases Nat.lt_trichotomy place other with before | same | after
  · exact (pairwise_iff_getElem.mp ordered place other inside otherInside before).2
  · subst same
    exact Nat.le_refl _
  · have reversed := (pairwise_iff_getElem.mp ordered other place otherInside inside after).1
    omega

end Chronological

/-- If no buffer-time window stays open when a snapshot of the whole data set is enqueued, the
entries of a block with a buffer time are in the order of their events. -/
theorem entries_in_event_order (slot : Slot) (inputs : List BlockInput) (empty : slot.reportBuffer.entries = [])
    (closed : slot.bufTmPending = none) (buffered : slot.state.bufTmMs ≠ 0) (clock : ClockNondecreasing inputs)
    (closesFirst : EachStep BlockInput.ClosesFirst inputs slot) :
    TimesInOrder (runInputs inputs slot).reportBuffer.entries ∧ ValuesInOrder (historyOf inputs slot) := by
  have nothing : slot.storage.entries = [] := empty
  have start : Chronological slot.storage 0 [] := by
    refine ⟨buffered, ?_, ?_, ?_, ?_, valuesInOrder_nil⟩
    · rw [nothing]
      exact .nil
    · rw [nothing]
      nofun
    · rw [nothing]
      nofun
    · rw [show slot.storage.window = none from closed]
      nofun
  obtain ⟨last, inOrder⟩ := start.run closesFirst clock fun _ _ => Nat.zero_le _
  exact ⟨inOrder.timesInOrder, inOrder.values⟩

/-- An enabled block with a buffer time of 100 ms, data change and general interrogation as
triggers, and one member. -/
def bufferedBlock : Slot :=
  { bareBlock with
    state := { bareBlock.state with
      rptEna := true, clientConnId := some 1, bufTmMs := 100
      trgOps := ⟨TriggerOptions.dataChanged.bits ||| TriggerOptions.gi.bits⟩ }
    dataset := some
      { name := "events"
        entries := [⟨"LD0/GGIO1$ST$Ind1$stVal", .leaf ⟨"LD0/GGIO1$ST$Ind1$stVal", 0⟩⟩] } }

def blockedChannel : Channel := { registered := true, receiverAlive := true, free := 0, upcoming := [] }

def changeAt10 : BlockInput :=
  .trigger (fun _ => some (.boolean true))
    [{ attrRef := "LD0/GGIO1$ST$Ind1$stVal", value := .boolean true, flag := .valueChanged }]
    [] [] 10 10

def interrogatedAt (ms : Nat) : List BlockInput := [.interrogate 1 ms, .tick blockedChannel ms (UInt64.ofNat ms)]

theorem entries_in_event_order_of_closed_window :
    TimesInOrder (runInputs ([changeAt10, .tick blockedChannel 110 110] ++ interrogatedAt 150)
      bufferedBlock).reportBuffer.entries ∧
      ValuesInOrder (historyOf ([changeAt10, .tick blockedChannel 110 110] ++ interrogatedAt 150) bufferedBlock) := by
  apply entries_in_event_order
  · rfl
  · rfl
  · decide
  · unfold ClockNondecreasing
    decide
  · decide +kernel

/-- The change at 10 ms is enqueued after the general interrogation at 50 ms, with its own time. -/
theorem snapshot_overtakes_window :
    ClockNondecreasing ([changeAt10] ++ interrogatedAt 50 ++ [.tick blockedChannel 120 120]) ∧
      ¬TimesInOrder (runInputs ([changeAt10] ++ interrogatedAt 50 ++ [.tick blockedChannel 120 120])
        bufferedBlock).reportBuffer.entries ∧
      ¬ValuesInOrder (historyOf ([changeAt10] ++ interrogatedAt 50 ++
        [.tick blockedChannel 120 120]) bufferedBlock) := by
  refine ⟨?_, ?_, ?_⟩
  · unfold ClockNondecreasing
    decide
  · decide +kernel
  · intro inOrder
    obtain ⟨cells, full, change, history, whole, part, cell, found⟩ : ∃ cells full change,
        historyOf ([changeAt10] ++ interrogatedAt 50 ++ [.tick blockedChannel 120 120]) bufferedBlock =
          [.given cells, .enqueued full, .enqueued change] ∧
        full.isFull = true ∧ change.isFull = false ∧ ∃ cell, change.cell 0 = some cell :=
      ⟨_, _, _, rfl, rfl, rfl, _, rfl⟩
    rw [history] at inOrder
    obtain ⟨early, given, late, front, _, since⟩ :=
      inOrder [.given cells, .enqueued full] change [] rfl part 0 cell found
    have overtaken : Happening.enqueued full ∈ late := by
      rcases early with _ | ⟨first, _ | ⟨second, rest⟩⟩
      · simp [← (cons.inj front).2]
      · simp at front
      · simp at front
    exact absurd (since _ overtaken) (by simp [Happening.isFull, whole])

end Iec61850.Reporting
