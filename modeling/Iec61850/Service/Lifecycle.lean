import Iec61850.Concurrency.Machine

/-!
The loop that serves an established association, with the time that its waits and writes take, and
how long an association stays open after a Conclude.
-/

namespace Iec61850.Service.Lifecycle

open Concurrency

structure Timeouts where
  conclude : Nat
  idle : Option Nat
  send : Nat

structure Write where
  takes : Nat
  accepted : Bool

structure DeferredWrite where
  id : UInt64
  lastApplError : Bool
  termination : Bool

inductive MessageOutcome where
  | sendBytes
  | sendConcludeResponse
  | sendInitiateErrorAndClose
  | sendInitiateResponse
  | silent

inductive Payload where
  | unreadable
  | finish (isReleaseRequest : Bool)
  | sessionAbort
  | sessionDisconnect
  | acse (isAbort : Bool)
  /-- With the reports queued ahead of the response and the operate for which a write response
  waits. -/
  | mms (ahead : Nat) (deferred : Option UInt64) (outcome : MessageOutcome)

/-- What ends the wait of the loop; a channel delivers nothing when it is closed. -/
inductive Event where
  | deferred (done : Option DeferredWrite)
  | termination (posted : Bool)
  | report (posted : Bool)
  | payload (payload : Payload)
  | recvFailed
  | timeout

/-- One turn of the loop: the event it waits for, `after` how long, and the writes that follow. -/
structure Turn where
  abortRequested : Bool := false
  after : Nat
  event : Event
  writes : List Write

structure Association where
  now : Nat
  lastActivity : Nat
  concludedAt : Option Nat := none
  deferredWrites : List UInt64 := []
  deferredOpen : Bool := true
  ctOpen : Bool := true
  rptOpen : Bool := true
  closed : Bool := false

variable (timeouts : Timeouts) (association : Association)

def Association.close : Association := { association with closed := true }

def Association.hears : Event → Bool
  | .deferred _ => association.deferredOpen
  | .termination _ => association.ctOpen
  | .report _ => association.rptOpen
  | _ => true

/-- How many PDUs an event makes the loop write, and what it does once they are written. -/
def Association.reaction : Event → Nat × (Association → Association)
  | .deferred (some done) =>
    if done.id ∈ association.deferredWrites then
      (if done.lastApplError then 2 else 1,
        fun written => { written with deferredWrites := written.deferredWrites.erase done.id })
    else
      (if done.termination then 1 else 0, id)
  | .deferred none => (0, fun written => { written with deferredOpen := false })
  | .termination true | .report true => (1, id)
  | .termination false => (0, fun written => { written with ctOpen := false })
  | .report false => (0, fun written => { written with rptOpen := false })
  | .payload .unreadable | .payload .sessionAbort | .payload .sessionDisconnect | .payload (.acse true) =>
    (0, Association.close)
  | .payload (.finish _) | .payload (.acse false) => (1, Association.close)
  | .payload (.mms ahead deferred outcome) =>
    -- a concluded association answers every PDU with a Reject
    if association.concludedAt.isSome then
      (ahead + 1, id)
    else match outcome, deferred with
      | .sendBytes, some id => (ahead, fun written => { written with deferredWrites := id :: written.deferredWrites })
      | .sendBytes, none => (ahead + 1, id)
      | .sendConcludeResponse, _ => (ahead + 1, fun written => { written with concludedAt := some written.now })
      | .sendInitiateErrorAndClose, _ | .sendInitiateResponse, _ => (ahead, Association.close)
      | .silent, _ => (ahead, id)
  | .recvFailed => (0, Association.close)
  | .timeout => (0, if association.concludedAt.isSome then Association.close else id)

def sendBounded (write : Write) : Association :=
  if write.accepted ∧ write.takes ≤ timeouts.send then
    { association with now := association.now + write.takes, lastActivity := association.now + write.takes }
  else
    { association with now := association.now + min write.takes timeouts.send, closed := true }

/-- A write that fails ends the association without a further one. -/
def sendAll : List Write → Association → Association
  | [], association => association
  | write :: rest, association =>
    let sent := sendBounded timeouts association write
    if sent.closed then sent else sendAll rest sent

def react (writes : List Write) (reaction : Nat × (Association → Association)) : Option Association :=
  if writes.length = reaction.1 then
    let sent := sendAll timeouts writes association
    some (if sent.closed then sent else reaction.2 sent)
  else
    none

def idleExpired : Bool :=
  association.concludedAt.isNone && timeouts.idle.any (association.now - association.lastActivity ≥ ·)

/-- The wait of a turn is a timeout of its own. -/
def tick : Nat :=
  if association.concludedAt.isSome then timeouts.conclude else 200

def arrive (after : Nat) : Event → Association
  | .payload _ => { association with now := association.now + after, lastActivity := association.now + after }
  | _ => { association with now := association.now + after }

/-- The wait ends with the tick, and a timeout not before. -/
def timely (turn : Turn) : Bool :=
  match turn.event with
  | .timeout => turn.after == tick timeouts association
  | event => turn.after ≤ tick timeouts association && association.hears event

def step (turn : Turn) : Option Association :=
  if association.closed then
    none
  else if turn.abortRequested || idleExpired timeouts association then
    react timeouts association turn.writes (1, Association.close)
  else if timely timeouts association turn then
    react timeouts (arrive association turn.after turn.event) turn.writes (association.reaction turn.event)
  else
    none

/-- Concluded, it is open for at most the conclude timeout, and closed at most one write later. -/
def InTime : Prop :=
  ∀ concluded ∈ association.concludedAt,
    association.now ≤ concluded + timeouts.conclude + if association.closed then timeouts.send else 0

def Event.ends : Event → Bool
  | .payload (.mms ..) => false
  | .payload _ | .recvFailed | .timeout => true
  | _ => false

/-- After the Conclude response nothing arrives but an event that ends the association. -/
def Quiet (turn : Turn) : Prop :=
  association.concludedAt.isSome = true → turn.abortRequested = true ∨ turn.event.ends = true

instance (turn : Turn) : Decidable (Quiet association turn) :=
  inferInstanceAs (Decidable (_ → _))

/-- Along quiet runs a concluded association is open only at the moment of its Conclude response. -/
def Kept : Prop :=
  ∀ concluded ∈ association.concludedAt,
    if association.closed then association.now ≤ concluded + timeouts.conclude + timeouts.send
    else association.now = concluded

variable {timeouts} {association} {next : Association} {turn : Turn} {writes : List Write}

theorem sendAll_concludedAt : (sendAll timeouts writes association).concludedAt = association.concludedAt := by
  induction writes generalizing association with
  | nil => rfl
  | cons write rest ih =>
    have kept : (sendBounded timeouts association write).concludedAt = association.concludedAt := by
      unfold sendBounded
      split <;> rfl
    unfold sendAll
    dsimp only
    split
    · exact kept
    · exact ih.trans kept

theorem sendBounded_now (write : Write) :
    (sendBounded timeouts association write).now ≤ association.now + timeouts.send := by
  unfold sendBounded
  split
  · rename_i sent
    exact Nat.add_le_add_left sent.2 _
  · exact Nat.add_le_add_left (Nat.min_le_right ..) _

theorem react_close {count : Nat} (few : count ≤ 1)
    (reacted : react timeouts association writes (count, Association.close) = some next) :
    next.closed = true ∧ next.concludedAt = association.concludedAt ∧ next.now ≤ association.now + timeouts.send := by
  have bounded (length : writes.length ≤ 1) :
      (sendAll timeouts writes association).now ≤ association.now + timeouts.send := by
    match writes, length with
    | [], _ => exact Nat.le_add_right ..
    | [write], _ =>
      rw [sendAll, sendAll, ite_self]
      exact sendBounded_now write
  unfold react at reacted
  split at reacted
  · rename_i length
    have length : writes.length = count := length
    cases reacted
    split
    · rename_i failed
      exact ⟨failed, sendAll_concludedAt, bounded (length ▸ few)⟩
    · exact ⟨rfl, sendAll_concludedAt, bounded (length ▸ few)⟩
  · cases reacted

theorem arrive_now (association : Association) (event : Event) (after : Nat) :
    (arrive association after event).now = association.now + after ∧
      (arrive association after event).concludedAt = association.concludedAt := by
  cases event <;> exact ⟨rfl, rfl⟩

theorem reaction_concludes (event : Event) (written : Association) :
    ((association.reaction event).2 written).concludedAt = written.concludedAt ∨
      (association.reaction event).2 written = { written with concludedAt := some written.now } := by
  unfold Association.reaction
  split
  · split <;> exact .inl rfl
  any_goals exact .inl rfl
  · split
    · exact .inl rfl
    · split
      any_goals exact .inl rfl
      exact .inr rfl
  · dsimp only
    split <;> exact .inl rfl

theorem reaction_ends (concluded : association.concludedAt.isSome = true) {event : Event} (ends : event.ends = true) :
    ∃ count ≤ 1, association.reaction event = (count, Association.close) := by
  cases event with
  | payload payload =>
    cases payload with
    | mms => cases ends
    | acse isAbort =>
      cases isAbort
      · exact ⟨1, Nat.le_refl 1, rfl⟩
      · exact ⟨0, Nat.zero_le 1, rfl⟩
    | finish => exact ⟨1, Nat.le_refl 1, rfl⟩
    | unreadable | sessionAbort | sessionDisconnect => exact ⟨0, Nat.zero_le 1, rfl⟩
  | recvFailed => exact ⟨0, Nat.zero_le 1, rfl⟩
  | timeout =>
    refine ⟨0, Nat.zero_le 1, ?_⟩
    rw [Association.reaction, if_pos concluded]
  | deferred | termination | report => cases ends

theorem timely_le (timely : timely timeouts association turn = true) : turn.after ≤ tick timeouts association := by
  unfold Lifecycle.timely at timely
  split at timely
  · exact Nat.le_of_eq (beq_iff_eq.mp timely)
  · exact of_decide_eq_true (Bool.and_eq_true_iff.mp timely).1

theorem Kept.of_react_close {count after : Nat} (kept : Kept timeouts association) (isOpen : association.closed = false)
    {arrived : Association} (now : arrived.now = association.now + after)
    (same : arrived.concludedAt = association.concludedAt)
    (within : association.concludedAt.isSome = true → after ≤ timeouts.conclude) (few : count ≤ 1)
    (reacted : react timeouts arrived writes (count, Association.close) = some next) : Kept timeouts next := by
  obtain ⟨closed, concludedAt, bound⟩ := react_close few reacted
  intro concluded member
  rw [concludedAt, same] at member
  have moment := kept concluded member
  rw [isOpen] at moment
  have soon := within (Option.isSome_of_mem member)
  have moment : association.now = concluded := moment
  rw [closed, if_pos rfl]
  omega

theorem Kept.of_unconcluded (unconcluded : association.concludedAt = none)
    {reaction : Nat × (Association → Association)}
    (concludes : ∀ written, (reaction.2 written).concludedAt = written.concludedAt ∨
      reaction.2 written = { written with concludedAt := some written.now })
    (reacted : react timeouts association writes reaction = some next) : Kept timeouts next := by
  unfold react at reacted
  split at reacted
  · cases reacted
    have sent : (sendAll timeouts writes association).concludedAt = none := sendAll_concludedAt.trans unconcluded
    intro concluded member
    split at member
    · rw [sent] at member
      cases member
    · rename_i isOpen
      rw [if_neg isOpen]
      rcases concludes (sendAll timeouts writes association) with same | now
      · rw [same, sent] at member
        cases member
      · rw [now] at member ⊢
        rw [if_neg isOpen]
        exact Option.some.inj member
  · cases reacted

theorem Kept.step (kept : Kept timeouts association) (quiet : Quiet association turn)
    (stepped : step timeouts association turn = some next) : Kept timeouts next := by
  unfold Lifecycle.step at stepped
  split at stepped
  · cases stepped
  rename_i isOpen
  rw [Bool.not_eq_true] at isOpen
  split at stepped
  · exact kept.of_react_close isOpen (Nat.add_zero _).symm rfl (fun _ => Nat.zero_le _) (Nat.le_refl 1) stepped
  rename_i served
  split at stepped
  · rename_i timely
    obtain ⟨now, same⟩ := arrive_now association turn.event turn.after
    cases concludedAt : association.concludedAt with
    | none => exact .of_unconcluded (same.trans concludedAt) (reaction_concludes turn.event) stepped
    | some concluded =>
      have isConcluded : association.concludedAt.isSome = true := by
        rw [concludedAt]
        rfl
      have ends := (quiet isConcluded).resolve_left fun abort => served (by rw [abort, Bool.true_or])
      obtain ⟨count, few, reaction⟩ := reaction_ends isConcluded ends
      have soon := timely_le timely
      rw [tick, if_pos isConcluded] at soon
      rw [reaction] at stepped
      exact kept.of_react_close isOpen now same (fun _ => soon) few stepped
  · cases stepped

/-- When nothing but an event that ends the association follows the Conclude response, it is closed
in time. -/
theorem concluded_association_closes_in_time (timeouts : Timeouts) (start : Association)
    (unconcluded : start.concludedAt = none) (turns : List Turn) (last : Association)
    (ran : Machine.run (step timeouts) start turns = some last)
    (quiet : Machine.Within (step timeouts) Quiet start turns) : InTime timeouts last := by
  have kept : Kept timeouts last := by
    refine Machine.invariant_within (Kept timeouts) Kept.step ran quiet fun concluded member => ?_
    rw [unconcluded] at member
    cases member
  intro concluded member
  have bound := kept concluded member
  split at bound
  · rename_i closed
    rw [if_pos closed]
    exact bound
  · omega

def established : Association := { now := 0, lastActivity := 0 }

def concludeTurn : Turn := ⟨false, 5, .payload (.mms 0 none .sendConcludeResponse), [⟨0, true⟩]⟩

/-- The release never comes. -/
theorem concluded_association_times_out :
    ∃ last, Machine.run (step ⟨10000, none, 10000⟩) established
      [concludeTurn, ⟨false, 10000, .timeout, []⟩] = some last ∧ InTime ⟨10000, none, 10000⟩ last :=
  ⟨_, rfl, concluded_association_closes_in_time ⟨10000, none, 10000⟩ established rfl
    [concludeTurn, ⟨false, 10000, .timeout, []⟩] _ rfl (by decide)⟩

/-- A report every five seconds keeps the association open beyond the timeout of ten and a write. -/
theorem reports_hold_concluded_association_open : ∃ last, Machine.run (step ⟨10000, none, 10000⟩) established
        (concludeTurn :: List.replicate 5 ⟨false, 5000, .report true, [⟨0, true⟩]⟩) = some last ∧
      last.closed = false ∧ ¬ InTime ⟨10000, none, 10000⟩ last :=
  ⟨_, rfl, rfl, fun inTime => absurd (inTime 5 rfl) (by decide)⟩

end Iec61850.Service.Lifecycle
