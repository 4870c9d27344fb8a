import Iec61850.Reporting.Resync.Pass

/-!
Where the two threads of a resynchronisation can be, and what each does next from there.
-/

namespace Iec61850.Reporting

open Concurrency Model Proc

variable {ready : Slot → Bool} {effect : Slot → Slot} {emitted : Slot → List Event} {next : Slot → BrcbM Unit}

variable (pass : Pass) (rest : List Pass) (copied : BrcbState) (now : Instant) (nowMs : UInt64)

def leavePass : BrcbM Unit := leaveEngine >>= fun _ => tickPasses rest

/-- Where the ticking thread is: outside a pass, in one that has not copied RptEna yet, in one that
has no more to send, or in one that serves an enabled block. -/
inductive TickPlace : (inside active : Bool) → BrcbM Unit → Prop
  | outside (passes : List Pass) : TickPlace false false (tickPasses passes)
  | arriving (pass : Pass) (rest : List Pass) :
      TickPlace false false (enterEngine >>= fun _ => expireWindow pass.now >>= fun _ =>
        tickAfterWindow pass.now pass.nowMs >>= fun _ => leavePass rest)
  | entered (pass : Pass) (rest : List Pass) {program : BrcbM Unit}
      (amid : Amid (Respects Calm) (fun _ : Unit => tickAfterWindow pass.now pass.nowMs >>= fun _ => leavePass rest)
        program) : TickPlace true false program
  | leaving (rest : List Pass) {program : BrcbM Unit}
      (amid : Amid (Respects Calm) (fun _ : Unit => leavePass rest) program) : TickPlace true false program
  | active (rest : List Pass) {program : BrcbM Unit}
      (amid : Amid Stops (fun _ : Unit => leavePass rest) program) : TickPlace true true program

/-- What a section of a pass that serves nobody does: as a calm one, but it may take or release the
engine lock. -/
structure Idles (before : Slot) (events : List Event) (after : Slot) : Prop where
  rptEna : after.state.rptEna = before.state.rptEna
  point : after.state.rewindPoint = before.state.rewindPoint
  partialReport : after.partialReport = before.partialReport ∨ after.partialReport = none
  events : ∀ event ∈ events, event.isNeutral = true

theorem Calm.idles {before after : Slot} {events : List Event} (calm : Calm before events after) :
    Idles before events after :=
  ⟨calm.rptEna, calm.point, calm.partialReport, calm.events⟩

def tickServing : BrcbM Unit := do
  tickGi (copied.rptEna && copied.trgOps.contains .gi && copied.gi) nowMs
  tickIntegrity (copied.rptEna && copied.trgOps.contains .integrity && decide (0 < copied.intgPdMs)) copied.intgPdMs
    now nowMs
  serveBrcb copied.rptEna copied.clientConnId now

theorem tickServing_calm {copied : BrcbState} (disabled : copied.rptEna = false) (now : Instant) (nowMs : UInt64) :
    (tickServing copied now nowMs).Respects Calm := by
  refine .bind (Calm.enqueues (EnqueueSection.tickGi _ _)) fun _ =>
    .bind (Calm.enqueues (EnqueueSection.tickIntegrity _ _ _ _)) fun _ => ?_
  rw [disabled]
  exact Calm.forgets (ForgetSection.forgetPartialIf _)

theorem tickServing_stops : Stops (tickServing copied now nowMs) := by
  refine .bind (steady_of_calm (Calm.enqueues (EnqueueSection.tickGi _ _))) fun _ =>
    .bind (steady_of_calm (Calm.enqueues (EnqueueSection.tickIntegrity _ _ _ _))) fun _ => ?_
  unfold serveBrcb
  split
  · exact .of_respects (steady_of_calm (Calm.forgets (ForgetSection.forgetPartialIf _)))
  · cases copied.clientConnId with
    | none => exact .pure _
    | some conn => exact .andThen (flushBrcbPending_stops conn now) (fun _ => .pure _) fun _ => .pure _

theorem tickPasses_cons : tickPasses (pass :: rest) =
      modifySlot (fun slot => { slot with channel := pass.channel }) >>= fun _ => enterEngine >>= fun _ =>
        expireWindow pass.now >>= fun _ => tickAfterWindow pass.now pass.nowMs >>= fun _ => leavePass rest := by
  rw [tickPasses]
  refine congrArg _ (funext fun _ => ?_)
  exact tickPass_eq pass rest

/-- A section of a tick that is not serving an enabled block: it idles, or it finds the block
enabled. -/
inductive TickStep (slot : Slot) : BrcbM Unit → List Event → Slot → BrcbM Unit → Prop
  | idle {program rest : BrcbM Unit} {events : List Event} {after : Slot} (inside : Bool)
      (place : TickPlace inside false rest) (locked : after.engineLocked = inside) (idles : Idles slot events after) :
      TickStep slot program events after rest
  | copy (pass : Pass) (passes : List Pass) (enabled : slot.state.rptEna = true) (locked : slot.engineLocked = true) :
      TickStep slot (tickAfterWindow pass.now pass.nowMs >>= fun _ => leavePass passes) [] slot
        (tickServing slot.state pass.now pass.nowMs >>= fun _ => leavePass passes)

theorem leavePass_step {rest : List Pass} (same : leavePass rest = .critical ready effect emitted next) (slot : Slot) :
    TickPlace false false (next slot) ∧ (effect slot).engineLocked = false ∧
      Idles slot (emitted slot) (effect slot) := by
  obtain ⟨rfl, rfl, rfl, rfl⟩ := Proc.critical.inj same
  exact ⟨.outside rest, rfl, rfl, rfl, .inl rfl, by simp⟩

theorem TickPlace.step {inside : Bool} {program : BrcbM Unit} {slot : Slot} (place : TickPlace inside false program)
    (same : program = .critical ready effect emitted next) (locked : slot.engineLocked = inside) :
    TickStep slot program (emitted slot) (effect slot) (next slot) := by
  cases place with
  | outside passes =>
    cases passes with
    | nil => cases same
    | cons pass rest =>
      rw [tickPasses_cons] at same
      obtain ⟨rfl, rfl, rfl, rfl⟩ := Proc.critical.inj same
      exact .idle false (.arriving pass rest) locked ⟨rfl, rfl, .inl rfl, by simp⟩
  | arriving pass rest =>
    obtain ⟨rfl, rfl, rfl, rfl⟩ := Proc.critical.inj same
    exact .idle true (.entered pass rest (.enter (Calm.enqueues (EnqueueSection.expireWindow _))))
      rfl ⟨rfl, rfl, .inl rfl, by simp⟩
  | entered pass rest amid =>
    subst same
    rcases amid.next with ⟨result, finished⟩ | within
    · rw [finished]
      obtain ⟨rfl, rfl, rfl, rfl⟩ := Proc.critical.inj finished
      cases enabled : slot.state.rptEna with
      | true => exact .copy pass rest enabled locked
      | false => exact .idle true (.leaving rest (.enter (tickServing_calm enabled _ _))) locked (Calm.refl slot).idles
    · obtain ⟨calm, later⟩ := within slot
      exact .idle true (.entered pass rest later) (calm.engineLocked.trans locked) calm.idles
  | leaving rest amid =>
    subst same
    rcases amid.next with ⟨result, finished⟩ | within
    · obtain ⟨outside, left, idles⟩ := leavePass_step finished.symm slot
      exact .idle false outside left idles
    · obtain ⟨calm, later⟩ := within slot
      exact .idle true (.leaving rest later) (calm.engineLocked.trans locked) calm.idles

theorem TickPlace.step_waiting {program : BrcbM Unit} {slot : Slot} (place : TickPlace false false program)
    (same : program = .critical ready effect emitted next) (isReady : ready slot = true)
    (locked : slot.engineLocked = true) : TickPlace false false (next slot) ∧ (effect slot).engineLocked = true ∧
      Idles slot (emitted slot) (effect slot) := by
  cases place with
  | outside passes =>
    cases passes with
    | nil => cases same
    | cons pass rest =>
      rw [tickPasses_cons] at same
      obtain ⟨rfl, rfl, rfl, rfl⟩ := Proc.critical.inj same
      exact ⟨.arriving pass rest, locked, rfl, rfl, .inl rfl, by simp⟩
  | arriving pass rest =>
    obtain ⟨rfl, -⟩ := Proc.critical.inj same
    simp [locked] at isReady

theorem TickPlace.step_active {inside : Bool} {slot : Slot}
    (place : TickPlace inside true (.critical ready effect emitted next)) (locked : slot.engineLocked = inside) :
    ∃ insideNow activeNow, TickPlace insideNow activeNow (next slot) ∧ (effect slot).engineLocked = insideNow ∧
      (activeNow = true → (effect slot).state.rptEna = slot.state.rptEna) := by
  cases place with
  | active rest amid =>
    rcases amid.next_until with ⟨result, finished⟩ | within
    · obtain ⟨outside, left, -⟩ := leavePass_step finished.symm slot
      exact ⟨false, false, outside, left, nofun⟩
    · rcases within slot with ⟨steady, later⟩ | ⟨held, later⟩
      · exact ⟨true, true, .active rest later, steady.engineLocked.trans locked, fun _ => steady.rptEna⟩
      · exact ⟨true, false, .leaving rest later, held.trans locked, nofun⟩

/-- A pass for an enabled block that has not handed over anything: it is still adding entries, or it
has begun to flush. -/
inductive Serving (id : EntryId) (slot : Slot) (program : BrcbM Unit) : Prop
  | preparing (conn : ConnectionId) (now : Instant) (rest : List Pass)
      (amid : Amid (Respects Calm) (fun _ : Unit => flushBrcbPending conn now >>= fun _ => leavePass rest) program)
  | flushing (rest : List Pass)
      (amid : Amid (fun inner : BrcbM Nat => Delivers id inner slot) (fun _ => leavePass rest) program)

/-- A tick that has not handed over anything since the block was enabled. -/
inductive Quiet (id : EntryId) (inside : Bool) (slot : Slot) (program : BrcbM Unit) : Prop
  | idle (place : TickPlace inside false program)
  | serving (within : inside = true) (clear : slot.partialReport = none) (serving : Serving id slot program)

theorem quiet_of_copy {slot : Slot} (id : EntryId) (pass : Pass) (rest : List Pass)
    (enabled : slot.state.rptEna = true) (clear : slot.partialReport = none) :
    Quiet id true slot (tickServing slot.state pass.now pass.nowMs >>= fun _ => leavePass rest) := by
  have idle : serveBrcb true none pass.now = pure () := rfl
  have serves (conn : ConnectionId) :
      serveBrcb true (some conn) pass.now = flushBrcbPending conn pass.now >>= fun _ => pure () := rfl
  unfold tickServing
  rw [enabled]
  cases slot.state.clientConnId with
  | none =>
    rw [idle]
    refine .idle (.leaving rest (.enter ?_))
    exact .bind (Calm.enqueues (EnqueueSection.tickGi _ _)) fun _ =>
      .bind (Calm.enqueues (EnqueueSection.tickIntegrity _ _ _ _)) fun _ => .pure _
  | some conn =>
    rw [serves]
    refine .serving rfl clear (.preparing conn pass.now rest ?_)
    have calm : ((tickGi (true && slot.state.trgOps.contains .gi && slot.state.gi) pass.nowMs >>= fun _ =>
      tickIntegrity (true && slot.state.trgOps.contains .integrity && decide (0 < slot.state.intgPdMs))
        slot.state.intgPdMs pass.now pass.nowMs).Respects Calm) :=
      .bind (Calm.enqueues (EnqueueSection.tickGi _ _)) fun _ => Calm.enqueues (EnqueueSection.tickIntegrity _ _ _ _)
    refine ⟨_, ?_, calm⟩
    simp only [bind_assoc, pure_bind]

def AboutToCopy (program : BrcbM Unit) : Prop :=
  ∃ now nowMs rest, program = tickAfterWindow now nowMs >>= fun _ => leavePass rest

section Flushing

variable {id : EntryId} {slot : Slot}

structure Waits (before : Slot) (events : List Event) (after : Slot) : Prop where
  point : after.state.rewindPoint = before.state.rewindPoint
  partialReport : after.partialReport = before.partialReport ∨ after.partialReport = none
  events : ∀ event ∈ events, event.isNeutral = true

theorem Idles.waits {before after : Slot} {events : List Event} (idles : Idles before events after) :
    Waits before events after :=
  ⟨idles.point, idles.partialReport, idles.events⟩

theorem Waits.clear {before after : Slot} {events : List Event} (waits : Waits before events after)
    (clear : before.partialReport = none) : after.partialReport = none := by
  rcases waits.partialReport with same | none
  · exact same.trans clear
  · exact none

theorem flushing_step {rest : List Pass} {inner : BrcbM Nat} (delivers : Delivers id inner slot)
    (same : .critical ready effect emitted next = inner >>= fun _ => leavePass rest)
    (locked : slot.engineLocked = true) :
    (∃ event, emitted slot = [event] ∧ slot.FirstSegmentAfter id event) ∨
      ∃ inside, Quiet id inside (effect slot) (next slot) ∧ (effect slot).engineLocked = inside ∧
        Waits slot (emitted slot) (effect slot) := by
  cases inner with
  | done result =>
    obtain ⟨outside, left, idles⟩ := leavePass_step same.symm slot
    exact .inr ⟨false, .idle outside, left, idles.waits⟩
  | critical innerReady innerEffect innerEmitted innerNext =>
    obtain ⟨rfl, rfl, rfl, rfl⟩ := Proc.critical.inj same
    rcases delivers with first | ⟨untouched, later⟩
    · exact .inl first
    · refine .inr ⟨true, .serving rfl untouched.partialReport (.flushing rest ⟨_, rfl, later⟩), ?_, ?_⟩
      · exact untouched.engineLocked.trans locked
      · exact ⟨untouched.point, .inr untouched.partialReport, untouched.events⟩

theorem Serving.step (serving : Serving id slot (.critical ready effect emitted next))
    (clear : slot.partialReport = none) (locked : slot.engineLocked = true)
    (point : slot.state.rewindPoint = pointOf id) (sendable : slot.Sendable) :
    (∃ event, emitted slot = [event] ∧ slot.FirstSegmentAfter id event) ∨
      ∃ inside, Quiet id inside (effect slot) (next slot) ∧ (effect slot).engineLocked = inside ∧
        Waits slot (emitted slot) (effect slot) := by
  cases serving with
  | preparing conn now rest amid =>
    rcases amid.next with ⟨-, finished⟩ | within
    · exact flushing_step (flushBrcbPending_delivers conn now clear point sendable) finished locked
    obtain ⟨calm, later⟩ := within slot
    have waits := calm.idles.waits
    exact .inr ⟨true, .serving rfl (waits.clear clear) (.preparing conn now rest later),
      calm.engineLocked.trans locked, waits⟩
  | flushing rest amid =>
    obtain ⟨inner, same, delivers⟩ := amid
    exact flushing_step delivers same locked

theorem Quiet.step {inside : Bool} {program : BrcbM Unit} (quiet : Quiet id inside slot program)
    (same : program = .critical ready effect emitted next) (locked : slot.engineLocked = inside)
    (point : slot.state.rewindPoint = pointOf id) (sendable : slot.Sendable)
    (fresh : AboutToCopy program → slot.state.rptEna = true → slot.partialReport = none) :
    (∃ event, emitted slot = [event] ∧ slot.FirstSegmentAfter id event) ∨
      ∃ insideNow, Quiet id insideNow (effect slot) (next slot) ∧ (effect slot).engineLocked = insideNow ∧
        Waits slot (emitted slot) (effect slot) := by
  cases quiet with
  | idle place =>
    have stepped := place.step same locked
    generalize emitted slot = events, effect slot = after, next slot = rest at stepped
    cases stepped with
    | idle insideNow place locked idles => exact .inr ⟨insideNow, .idle place, locked, idles.waits⟩
    | copy pass passes enabled locked =>
      have clear := fresh ⟨_, _, _, rfl⟩ enabled
      exact .inr ⟨true, quiet_of_copy id pass passes enabled clear, locked, (Calm.refl slot).idles.waits⟩
  | serving within clear serving =>
    subst same within
    exact serving.step clear locked point sendable

end Flushing

end Iec61850.Reporting
