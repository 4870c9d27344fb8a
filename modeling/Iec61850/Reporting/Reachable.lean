import Iec61850.Reporting.Section

/-!
The states a block can be in between operations.
-/

namespace Iec61850.Reporting

open Concurrency Model

structure Slot.Idle (slot : Slot) : Prop where
  held : slot.Held
  unlocked : slot.engineLocked = false

theorem Slot.held_of_rights {before after : Slot} (rights : after.rights = before.rights) (held : before.Held) :
    after.Held := by
  have rptEna : after.state.rptEna = before.state.rptEna := congrArg Rights.rptEna rights
  have client : after.state.clientConnId = before.state.clientConnId := congrArg Rights.clientConnId rights
  unfold Slot.Held
  rw [rptEna, client]
  exact held

theorem Internal.engineLocked {before after : Slot} {events : List Event} (internal : Internal before events after) :
    after.engineLocked = before.engineLocked :=
  congrArg Rights.engineLocked internal.rights

section Held

variable {before after : Slot} {events : List Event} {conn : ConnectionId} {writerIp : Option IpAddr}

theorem EngineSection.held (ran : EngineSection before events after) (held : before.Held) : after.Held := by
  cases ran with
  | internal internal => exact Slot.held_of_rights internal.rights held
  | drop conn now holds =>
    unfold Slot.Held BrcbState.connectionDropped
    cases before.state.resvTms <;> simp
  | expire now =>
    unfold BrcbState.tickReservation
    split
    · exact held
    · exact held
    dsimp only
    split_ifs with early enabled
    · exact held
    · exact held
    · simp [Slot.Held, enabled]

theorem claimed_held {slot : Slot} {claimed : BrcbState}
    (entitled : claimBrcbLocked slot.brcb slot.state conn writerIp = some claimed) (held : slot.Held) :
    Slot.Held { slot with state := claimed } := by
  rcases claimBrcbLocked_cases entitled with ⟨same, -⟩ | ⟨same, -⟩
  · rw [same]
    exact held
  · rw [same]
    simp [Slot.Held, BrcbState.takenOver]

theorem WriteSection.held (ran : WriteSection conn writerIp before events after) (held : before.Held) : after.Held := by
  cases ran with
  | field field => exact Slot.held_of_rights field.rights held
  | claim state entitled => exact claimed_held entitled held
  | rptEna claimed entitled effect =>
    cases effect with
    | none => exact claimed_held entitled held
    | again owner enabled => simp [Slot.Held]
    | enable owner disabled => simp [Slot.Held, BrcbState.enable]
    | disable owner enabled => simp [Slot.Held]
  | interrogate gi enabled => exact held

theorem ReserveSection.held (ran : ReserveSection conn writerIp before events after) (held : before.Held) :
    after.Held := by
  cases ran with
  | apply claimed value entitled =>
    have claimedHeld := claimed_held entitled held
    unfold applyResvTms
    dsimp only
    split
    · exact claimedHeld
    · next disabled =>
      split <;> simp [Slot.Held, disabled]
  | refused => exact held

theorem ReserveSection.engineLocked (ran : ReserveSection conn writerIp before events after) :
    after.engineLocked = before.engineLocked := by
  cases ran with
  | apply claimed value entitled | refused => rfl

theorem WriteSection.engineLocked (ran : WriteSection conn writerIp before events after) :
    after.engineLocked = before.engineLocked := by
  cases ran with
  | field field => exact congrArg Rights.engineLocked field.rights
  | claim state entitled | rptEna claimed entitled effect | interrogate gi enabled => rfl

end Held

def KeepsIdle {α : Type} (program : BrcbM α) : Prop := ∀ slot : Slot, slot.Idle → (program.run slot).state.Idle

namespace KeepsIdle

variable {α β : Type}

theorem pure (result : α) : KeepsIdle (Pure.pure result : BrcbM α) := fun _ idle => idle

variable {program : BrcbM α} {step : Slot → List Event → Slot → Prop} {body : BrcbM α}

theorem bind {continuation : α → BrcbM β} (first : KeepsIdle program)
    (second : ∀ result, KeepsIdle (continuation result)) : KeepsIdle (program >>= continuation) := by
  intro slot idle
  rw [Proc.run_bind]
  exact second _ _ (first slot idle)

theorem of_respects (respects : program.Respects step)
    (held : ∀ before events after, step before events after → before.Held → after.Held)
    (unlocked : ∀ before events after, step before events after → after.engineLocked = before.engineLocked) :
    KeepsIdle program := by
  intro slot idle
  have kept := (respects.mono (fun before _ after => before.Idle → after.Idle) ?_).run (fun _ => id)
    (fun _ _ _ _ _ front back => back ∘ front) slot
  · exact kept idle
  · intro before events after ran idle
    exact ⟨held _ _ _ ran idle.held, (unlocked _ _ _ ran).trans idle.unlocked⟩

theorem of_internal (internal : program.Respects Internal) : KeepsIdle program :=
  of_respects internal (fun _ _ _ ran => Slot.held_of_rights ran.rights) fun _ _ _ => Internal.engineLocked

theorem of_write {conn : ConnectionId} {writerIp : Option IpAddr}
    (sections : program.Respects (WriteSection conn writerIp)) : KeepsIdle program :=
  of_respects sections (fun _ _ _ => WriteSection.held) fun _ _ _ => WriteSection.engineLocked

theorem withEngine (inside : body.Respects step)
    (held : ∀ before events after, step before events after → before.Held → after.Held) :
    KeepsIdle (withEngine body) := by
  intro slot idle
  rw [withEngine_run]
  have kept := (inside.mono (fun before _ after => before.Held → after.Held) held).run (fun _ => id)
    (fun _ _ _ _ _ front back => back ∘ front) { slot with engineLocked := true }
  exact ⟨kept idle.held, rfl⟩

theorem engine (inside : body.Respects EngineSection) : KeepsIdle (Reporting.withEngine body) :=
  withEngine inside fun _ _ _ => EngineSection.held

variable (field : RcbField) (value : RcbWriteValue)

theorem setBrcbDatSet : KeepsIdle (setBrcbDatSet value) := by
  cases value with
  | visibleString text =>
    refine bind (of_internal (Internal.readSlot _)) fun name => ?_
    split
    · exact pure _
    · exact withEngine (FieldSection.changeBrcbDatSet name) fun _ _ _ ran => Slot.held_of_rights ran.rights
  | _ => exact pure _

theorem enableBrcb (conn : ConnectionId) (writerIp : Option IpAddr) (now : Instant) :
    KeepsIdle (writeBrcbField .rptEna value conn writerIp now) := by
  refine bind (of_write (WriteSection.setBrcbRptEna value)) fun outcome => ?_
  match outcome with
  | .ok true =>
    exact bind (engine (EngineSection.of_internal (Internal.refreshBrcbIntegrityPeriod now))) fun _ => pure _
  | .ok false => exact pure _
  | .error error => exact pure _

theorem writeBrcbField (conn : ConnectionId) (writerIp : Option IpAddr)
    (now : Instant) : KeepsIdle (writeBrcbField field value conn writerIp now) := by
  by_cases resvTms : field = .resvTms
  · rw [resvTms]
    exact of_respects (ReserveSection.setBrcbResvTms value) (fun _ _ _ => ReserveSection.held)
      fun _ _ _ => ReserveSection.engineLocked
  · by_cases rptEna : field = .rptEna
    · rw [rptEna]
      exact enableBrcb value conn writerIp now
    · by_cases datSet : field = .datSet
      · rw [datSet]
        exact setBrcbDatSet value
      · exact of_write (WriteSection.writeBrcbField ⟨resvTms, rptEna, datSet⟩ value now)

theorem handleSetBrcbField (conn : ConnectionId) (now : Instant) :
    KeepsIdle (handleSetBrcbField field value conn now) := by
  by_cases writable : field ≠ .confRev ∧ field ≠ .sqNum ∧ field ≠ .resv
  · intro slot idle
    rw [handleSetBrcbField_run field writable]
    dsimp only
    split
    · exact idle
    · cases entitled : claimBrcbLocked slot.brcb slot.state conn ((slot.peers conn).map (·.ip)) with
      | none => exact idle
      | some state => exact writeBrcbField field value conn _ now _ ⟨claimed_held entitled idle.held, idle.unlocked⟩
  · have refused : field = .confRev ∨ field = .sqNum ∨ field = .resv := by tauto
    rcases refused with rfl | rfl | rfl <;> exact pure _

end KeepsIdle

theorem Step.program_keepsIdle (step : Step) : KeepsIdle step.program := by
  cases step with
  | enqueue nowMs isIntegrity isGi payload | enqueueSnapshot nowMs isIntegrity isGi snapshot =>
    exact .bind (.of_internal (Internal.enqueues (EnqueueSection.enqueueAllocated _ _))) fun _ => .pure _
  | enqueueStored oldestCommit timeMs snapshot =>
    exact .bind (.of_internal (Internal.enqueues (EnqueueSection.enqueueStoredEntry _ _ _))) fun _ => .pure _
  | write field value conn now => exact .handleSetBrcbField field value conn now
  | connectionLost conn now => exact .bind (.engine (EngineSection.onConnectionDropped conn now)) fun _ => .pure _
  | reservationTick now => exact .bind (.engine (EngineSection.tickBrcbReservations now)) fun _ => .pure _
  | tick channel now nowMs =>
    exact .bind (fun _ idle => ⟨idle.held, idle.unlocked⟩) fun _ =>
      .bind (.engine (EngineSection.tickBrcb now nowMs)) fun _ => .pure _
  | flush channel now =>
    exact .bind (fun _ idle => ⟨idle.held, idle.unlocked⟩) fun _ =>
      .bind (.engine (EngineSection.flushAllBrcbPending now)) fun _ => .pure _

theorem runSteps_idle {slot : Slot} (steps : List Step) (idle : slot.Idle) : (runSteps steps slot).Idle := by
  induction steps generalizing slot with
  | nil => exact idle
  | cons step rest ih => exact ih (step.program_keepsIdle slot idle)

def Slot.Reachable (slot : Slot) : Prop := ∃ start steps, Slot.Fresh start ∧ slot = runSteps steps start

theorem Slot.Reachable.idle {slot : Slot} (reachable : slot.Reachable) : slot.Idle := by
  obtain ⟨start, steps, fresh, reached⟩ := reachable
  rw [reached]
  refine runSteps_idle steps ⟨?_, fresh.engineLocked⟩
  simp [Slot.Held, fresh.state, BrcbState.fromBrcb]

end Iec61850.Reporting
