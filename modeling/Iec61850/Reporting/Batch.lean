import Iec61850.Reporting.Engine
import Iec61850.Reporting.Trigger

/-!
A batch of value updates reaching one buffered report control block: an entry of its own without a
buffer time, a part of the open buffer-time window otherwise. All of it runs with the engine lock
held.
-/

namespace Iec61850.Reporting

open Concurrency Model

/-- An update with the commit number its value was stored with. -/
structure StoredUpdate where
  update : Update
  committed : Nat

/-- An update given without a commit number counts as stored just now. -/
def storedJustNow : Nat := 2 ^ 64 - 1

/-- A later update of the same attribute takes its place: the last value, all reasons, the latest
commit number. -/
def StoredUpdate.merge (earlier later : StoredUpdate) : StoredUpdate where
  update :=
    { attrRef := earlier.update.attrRef, value := later.update.value
      flag := earlier.update.flag.union later.update.flag }
  committed := max earlier.committed later.committed

def mergeUpdate (merged : List StoredUpdate) (next : StoredUpdate) : List StoredUpdate :=
  match merged.findIdx? fun held => held.update.attrRef = next.update.attrRef with
  | some place => merged.modify place (·.merge next)
  | none => merged ++ [next]

def mergeUpdates (updates : List Update) (committed : List Nat) : List StoredUpdate :=
  (updates.mapIdx fun index update => ⟨update, committed.getD index storedJustNow⟩).foldl mergeUpdate []

structure PurgeView where
  purges : Nat
  oldestCommit : Nat

/-- The updates whose values were stored after the latest purge. The mark is read again for each of
them. -/
def keepStored : List StoredUpdate → BrcbM (List StoredUpdate)
  | [] => return []
  | stored :: rest => do
      let after ← storedAfterPurge stored.committed
      let others ← keepStored rest
      return if after then stored :: others else others

def EnqueuedSnapshot.fill (live : LiveValues) (dataset : Dataset) (batch : BatchValues)
    (members : List TriggeredMember) (snapshot : EnqueuedSnapshot) : EnqueuedSnapshot :=
  let slots := fillMembers live dataset batch members snapshot.inclusionFlags snapshot.values
  { snapshot with inclusionFlags := slots.1, values := slots.2 }

def BrcbBufTmPending.join (pending : Option BrcbBufTmPending) (purge : PurgeView) (nowMs : UInt64)
    (dueAt : Instant) (dataSetLen : Nat) (members : List TriggeredMember) (fill : EnqueuedSnapshot → EnqueuedSnapshot) :
    Option BrcbBufTmPending × BrcbBufTmPending :=
  -- a window opened before a purge holds only discarded events
  let pending := pending.filter fun window => window.purges = purge.purges
  let opened : BrcbBufTmPending :=
    { purges := purge.purges, oldestCommit := purge.oldestCommit, firstTriggerMs := nowMs, dueAt
      snapshot := fill (.new dataSetLen) }
  match pending with
  | none => (none, opened)
  | some window =>
    -- a member already in the window closes it first, so the window keeps the values from before
    -- the batch
    if retriggers members window.snapshot.inclusionFlags then
      (some window, opened)
    else
      (none,
        { window with
          oldestCommit := min window.oldestCommit purge.oldestCommit, snapshot := fill window.snapshot })

theorem BrcbBufTmPending.join_cases (pending : Option BrcbBufTmPending) (purge : PurgeView) (nowMs : UInt64)
    (dueAt : Instant) (dataSetLen : Nat) (members : List TriggeredMember) (fill : EnqueuedSnapshot → EnqueuedSnapshot) :
    let opened : BrcbBufTmPending :=
      { purges := purge.purges, oldestCommit := purge.oldestCommit, firstTriggerMs := nowMs, dueAt
        snapshot := fill (.new dataSetLen) }
    let joined := join pending purge nowMs dueAt dataSetLen members fill
    ((∀ window ∈ pending, window.purges ≠ purge.purges) ∧ joined = (none, opened)) ∨
      (∃ window ∈ pending, window.purges = purge.purges ∧
        retriggers members window.snapshot.inclusionFlags = true ∧ joined = (some window, opened)) ∨
      ∃ window ∈ pending, window.purges = purge.purges ∧
        retriggers members window.snapshot.inclusionFlags = false ∧
        joined = (none, { window with
          oldestCommit := min window.oldestCommit purge.oldestCommit, snapshot := fill window.snapshot }) := by
  intro opened joined
  cases pending with
  | none => exact .inl ⟨nofun, rfl⟩
  | some window =>
    by_cases same : window.purges = purge.purges
    · have kept : (some window).filter (fun window => decide (window.purges = purge.purges)) = some window :=
        Option.filter_some_pos (by simpa using same)
      cases again : retriggers members window.snapshot.inclusionFlags with
      | true => exact .inr (.inl ⟨window, rfl, same, again, by simp only [joined, join, kept, again, if_true]; rfl⟩)
      | false => exact .inr (.inr ⟨window, rfl, same, again, by simp [joined, join, kept, again]⟩)
    · have dropped : (some window).filter (fun window => decide (window.purges = purge.purges)) = none :=
        Option.filter_some_neg (by simpa using same)
      refine .inl ⟨?_, by simp only [joined, join, dropped]; rfl⟩
      intro other found
      cases found
      exact same

def triggeredSlots (trgOps : TriggerOptions) (dataset : Dataset) (members : List Update) :
    List TriggeredMember :=
  members.flatMap fun update => update.triggered trgOps dataset

def triggerBrcbBatch (updates members : List Update) (context : List (DataAttributeRef × MmsValue))
    (purge : PurgeView) (now : Instant) (nowMs : UInt64) : BrcbM Unit := do
  let (isBuffering, bufTmMs, trgOps) ← readState fun state => (state.isBuffering, state.bufTmMs, state.trgOps)
  -- a block without a valid data set does not buffer, so it takes no triggers
  if !isBuffering then
    return ()
  else
    match ← readSlot (·.dataset) with
    | none => return ()
    | some dataset =>
      let slots := triggeredSlots trgOps dataset members
      if slots.isEmpty then
        return ()
      else if bufTmMs = 0 then
        let snap ← readSlot fun slot =>
          (EnqueuedSnapshot.new dataset.len).fill slot.live dataset { updates, context } slots
        let _ ← enqueueStoredEntry purge.oldestCommit nowMs snap
      else
        let completed ← .atomically fun slot =>
          let joined := BrcbBufTmPending.join slot.bufTmPending purge nowMs (now + bufTmMs.toNat) dataset.len slots
            (·.fill slot.live dataset { updates, context } slots)
          { result := joined.1, state := { slot with bufTmPending := some joined.2 } }
        match completed with
        | none => return ()
        | some window =>
          let _ ← enqueueWindowEntry window.purges window.oldestCommit window.firstTriggerMs window.snapshot

def Slot.watches (slot : Slot) (attrRef : DataAttributeRef) : Bool :=
  slot.dataset.any fun dataset =>
    dataset.entries.any fun entry => entry.node.leaves.any fun leaf => leaf.attrRef == attrRef

def onValuesUpdatedWith (updates : List Update) (committed : List Nat)
    (context : List (DataAttributeRef × MmsValue)) (now : Instant) (nowMs : UInt64) :
    BrcbM Unit := do
  let merged := mergeUpdates updates committed
  let watched ← readSlot fun slot => merged.filter fun stored => slot.watches stored.update.attrRef
  if watched.isEmpty then
    return ()
  else
    -- the purge count is read before the members are checked against the latest purge
    let purges ← purgeCount
    let members ← keepStored watched
    match (members.map (·.committed)).min? with
    | none => return ()
    | some oldestCommit =>
      triggerBrcbBatch (merged.map (·.update)) (members.map (·.update)) context { purges, oldestCommit } now nowMs

end Iec61850.Reporting
