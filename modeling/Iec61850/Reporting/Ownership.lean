import Iec61850.Concurrency.Schedule
import Iec61850.Reporting.Reachable
import Iec61850.Reporting.Transmission

/-!
Who a block is enabled for, under any interleaving of its operations: it changes hands only by being
disabled first.
-/

namespace Iec61850.Reporting

open Concurrency List Proc

/-- The connection that enabled the block last, as an observer knows it. -/
def ownership : Monitor (Option ConnectionId) Event where
  start := none
  step
    | _, .enabled conn => some conn
    | _, .disabled => none
    | holder, _ => holder
  allowed
    | holder, .enabled _ => holder = none
    | holder, .disabled => holder ≠ none
    | _, _ => True

/-- The section is open about whom it enables the block for. -/
def Owning (before : Slot) (events : List Event) (after : Slot) : Prop :=
  before.Held → after.Held ∧ ownership.AcceptsFrom before.state.holder events ∧
    after.state.holder = ownership.afterFrom before.state.holder events

variable {before after : Slot} {events : List Event} {conn : ConnectionId}
  {writerIp : Option IpAddr} {claimed : BrcbState}

theorem ownership_internal (internal : ∀ event ∈ events, event.isInternal = true) (holder : Option ConnectionId) :
    ownership.AcceptsFrom holder events ∧ ownership.afterFrom holder events = holder := by
  induction events with
  | nil => exact ⟨trivial, rfl⟩
  | cons event rest ih =>
    obtain ⟨accepts, same⟩ := ih fun other member => internal other (mem_cons_of_mem _ member)
    have own := internal event mem_cons_self
    cases event <;> first | exact ⟨⟨trivial, accepts⟩, same⟩ | cases own

theorem holder_of_rights (rights : after.rights = before.rights) : after.state.holder = before.state.holder := by
  have rptEna : after.state.rptEna = before.state.rptEna := congrArg Rights.rptEna rights
  have client : after.state.clientConnId = before.state.clientConnId := congrArg Rights.clientConnId rights
  rw [BrcbState.holder, BrcbState.holder, rptEna, client]

/-- An enabled block is entitled to its holder alone. -/
theorem claimed_holder
    (entitled : claimBrcbLocked before.brcb before.state conn writerIp = some claimed)
    (held : before.Held) :
    claimed.holder = before.state.holder ∧ (claimed.rptEna = true → claimed.clientConnId = some conn) := by
  rcases claimBrcbLocked_cases entitled with ⟨rfl, mine | ⟨-, idle⟩⟩ | ⟨rfl, takenOver⟩
  · exact ⟨rfl, fun _ => mine⟩
  · exact ⟨rfl, fun enabled => absurd (idle (held enabled)) (by simp [enabled])⟩
  · have disabled : before.state.rptEna = false := by
      by_contra enabled
      simpa [takenOver.unheld] using held (by simpa using enabled)
    refine ⟨by simp [BrcbState.holder, BrcbState.takenOver, disabled], fun enabled => ?_⟩
    exact absurd (disabled.symm.trans enabled) Bool.false_ne_true

namespace Owning

theorem of_internal (internal : Internal before events after) : Owning before events after := by
  intro held
  obtain ⟨accepts, same⟩ := ownership_internal internal.events before.state.holder
  exact ⟨Slot.held_of_rights internal.rights held, accepts, (holder_of_rights internal.rights).trans same.symm⟩

theorem of_engine (ran : EngineSection before events after) : Owning before events after := by
  intro held
  refine ⟨ran.held held, ?_⟩
  cases ran with
  | internal internal => exact (of_internal internal held).2
  | drop conn now holds =>
    have disabled : (before.state.connectionDropped now).holder = none := by
      unfold BrcbState.connectionDropped
      cases before.state.resvTms <;> rfl
    cases enabled : before.state.rptEna with
    | true => exact ⟨⟨by simp [ownership, BrcbState.holder, enabled, holds], trivial⟩, disabled⟩
    | false => exact ⟨trivial, disabled.trans (by simp [BrcbState.holder, enabled, Monitor.afterFrom])⟩
  | expire now =>
    refine ⟨trivial, ?_⟩
    unfold BrcbState.tickReservation
    split
    · rfl
    · rfl
    dsimp only
    split_ifs with early enabled
    · rfl
    · rfl
    · simp [BrcbState.holder, enabled, Monitor.afterFrom]

theorem of_write (ran : WriteSection conn writerIp before events after) : Owning before events after := by
  intro held
  refine ⟨ran.held held, ?_⟩
  cases ran with
  | field field =>
    cases field with
    | internal internal => exact (of_internal internal held).2
    | configure rights | empty rights => exact ⟨⟨trivial, trivial⟩, holder_of_rights rights⟩
  | claim state entitled => exact ⟨⟨trivial, trivial⟩, (claimed_holder entitled held).1⟩
  | rptEna claimed entitled effect =>
    obtain ⟨same, mine⟩ := claimed_holder entitled held
    rw [← same]
    cases effect with
    | none => exact ⟨trivial, rfl⟩
    | again owner enabled => exact ⟨trivial, by simp [BrcbState.holder, Monitor.afterFrom, enabled, mine enabled]⟩
    | enable owner disabled => exact ⟨⟨by simp [ownership, BrcbState.holder, disabled], trivial⟩, rfl⟩
    | disable owner enabled => exact ⟨⟨by simp [ownership, BrcbState.holder, enabled, mine enabled], trivial⟩, rfl⟩
  | interrogate gi enabled => exact ⟨trivial, rfl⟩

theorem of_reserve (ran : ReserveSection conn writerIp before events after) : Owning before events after := by
  intro held
  refine ⟨ran.held held, ?_⟩
  cases ran with
  | apply claimed value entitled =>
    refine ⟨trivial, Eq.trans ?_ (claimed_holder entitled held).1⟩
    unfold applyResvTms
    split
    · rfl
    · next enabled =>
      dsimp only
      split <;> simp [BrcbState.holder, enabled]
  | refused => exact ⟨trivial, rfl⟩

theorem of_locking {step : Slot → List Event → Slot → Prop}
    (inside : ∀ {before events after}, step before events after →
    Owning before events after) (ran : Locking step before events after) : Owning before events after := by
  cases ran with
  | inside ran => exact inside ran
  | engine engineLocked => exact fun held => ⟨held, trivial, rfl⟩

theorem withEngine {α : Type} {body : BrcbM α} (sections : body.Respects EngineSection) :
    (withEngine body).Respects Owning :=
  (withEngine_locking sections).mono _ fun _ _ _ => of_locking of_engine

theorem handleSetBrcbField (field : RcbField) (value : RcbWriteValue) (conn : ConnectionId) (now : Instant) :
    (handleSetBrcbField field value conn now).Respects Owning := by
  have found : (lookupEngine (fun slot : Slot => (slot.brcb, (slot.peers conn).map (·.ip))) >>=
      writeFound field value conn now).Respects Owning := by
    refine .bind (.whenReady fun _ held => ⟨held, trivial, rfl⟩) fun found => .ite (.pure _) ?_
    refine .bind (WriteSection.claimBrcb.mono _ fun _ _ _ => of_write) fun claimed => .ite (.pure _) ?_
    by_cases isResvTms : field = .resvTms
    · rw [isResvTms]
      exact (ReserveSection.setBrcbResvTms value).mono _ fun _ _ _ => of_reserve
    · exact (WriteSection.writeBrcbField_locking conn found.2 isResvTms value now).mono _
        fun _ _ _ => of_locking of_write
  cases field <;> first | exact found | exact .pure _

theorem program (step : Step) : step.program.Respects Owning := by
  have enqueues {α : Type} {program : BrcbM α} (sections : program.Respects EnqueueSection) : program.Respects Owning :=
    (Internal.enqueues sections).mono _ fun _ _ _ => of_internal
  have channel (channel : Channel) : (modifySlot fun slot => { slot with channel }).Respects Owning :=
    .atomically fun _ held => ⟨held, trivial, rfl⟩
  cases step with
  | enqueue | enqueueSnapshot => exact .bind (enqueues (EnqueueSection.enqueueAllocated _ _)) fun _ => .pure _
  | enqueueStored => exact .bind (enqueues (EnqueueSection.enqueueStoredEntry _ _ _)) fun _ => .pure _
  | write field value conn now => exact handleSetBrcbField field value conn now
  | connectionLost conn now => exact .bind (withEngine (EngineSection.onConnectionDropped conn now)) fun _ => .pure _
  | reservationTick now => exact .bind (withEngine (EngineSection.tickBrcbReservations now)) fun _ => .pure _
  | tick ch now nowMs =>
    exact .bind (channel ch) fun _ => .bind (withEngine (EngineSection.tickBrcb now nowMs)) fun _ => .pure _
  | flush ch now =>
    exact .bind (channel ch) fun _ => .bind (withEngine (EngineSection.flushAllBrcbPending now)) fun _ => .pure _

end Owning

/-- A thread that carries out operations one after the other. -/
def operations : List Step → BrcbM Unit
  | [] => pure ()
  | step :: rest => do
      let _ ← step.program
      operations rest

/-- However the sections of any number of threads are interleaved, the block is enabled only while
it is disabled and disabled only while it is enabled, and it serves the connection that enabled it
last. -/
theorem block_serves_last_enabler {ι : Type} [DecidableEq ι] (slot : Slot) (fresh : slot.Fresh) (work : ι → List Step)
    {config : Config ι Slot Event}
    (reached : Config.Reaches (fun _ _ => True) ⟨slot, fun thread => operations (work thread), []⟩ config) :
    ownership.Accepts config.trace ∧ config.state.state.holder = ownership.after config.trace := by
  have invariant := reached.invariant (fun config => (∀ thread, (config.threads thread).Respects Owning) ∧
    config.state.Held ∧ ownership.Accepts config.trace ∧ config.state.state.holder = ownership.after config.trace) ?_ ?_
  · exact invariant.2.2
  · refine ⟨fun thread => ?_, fresh.held, trivial, fresh.holder⟩
    dsimp only
    induction work thread with
    | nil => exact .pure _
    | cons step rest ih => exact .bind (Owning.program step) fun _ => ih
  · intro config next thread known _ advanced
    obtain ⟨respects, held, accepts, holder⟩ := known
    obtain ⟨owning, later⟩ := Config.advance_respects respects advanced
    obtain ⟨held, allowed, same⟩ := owning held
    rw [Config.advance_trace advanced]
    refine ⟨later, held, Monitor.accepts_append.mpr ⟨accepts, holder ▸ allowed⟩, ?_⟩
    rw [Monitor.after_append, ← holder, same]

theorem first_claim_enables : ∃ config : Config ConnectionId Slot Event,
    Config.schedule ⟨bareBlock, fun conn => operations [.write .rptEna (.bool true) conn 0], []⟩ [1, 2, 1, 2, 1, 2] =
      some config ∧ ownership.Accepts config.trace ∧ config.state.state.holder = ownership.after config.trace := by
  obtain ⟨config, ran⟩ := Option.isSome_iff_exists.mp (show (Config.schedule ⟨bareBlock, fun conn : ConnectionId =>
    operations [.write .rptEna (.bool true) conn 0], []⟩ [1, 2, 1, 2, 1, 2]).isSome = true by decide +kernel)
  exact ⟨config, ran, block_serves_last_enabler bareBlock bareBlock_fresh
    (fun conn => [.write .rptEna (.bool true) conn 0])
    (Config.reaches_of_schedule ran fun _ _ _ _ _ _ => trivial)⟩

end Iec61850.Reporting
