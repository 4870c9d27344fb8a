import Iec61850.Concurrency.Machine

/-!
The answer to an Operate that was admitted, and the CommandTermination that ends it. The task that
carries the command and the loop of its association share the duty: the task posts the outcome of
the dynamic check, the loop answers the write with it and releases the command, and whoever is
dropped meanwhile leaves the rest to its drop code.
-/

namespace Iec61850.Control

open Concurrency

structure OperateWrite where
  runtime : Bool
  enhanced : Bool
  checked : Bool
  /-- The association has registered with the outbox, so that a response can be deferred. -/
  registered : Bool
  /-- The write is of one variable, so that its response can wait. -/
  single : Bool
  deriving DecidableEq, Repr

def OperateWrite.deferred (write : OperateWrite) : Bool := write.runtime && write.checked && write.registered

def OperateWrite.held (write : OperateWrite) : Bool := write.deferred && write.single

inductive Place where
  | checking
  /-- The check has refused and the object is being cleared. -/
  | refusing
  /-- The positive outcome is posted and the task waits for the response to leave. -/
  | releasing
  /-- The response never left and the object is being cleared. -/
  | abandoning
  | running
  /-- The control handler has returned and the object is being taken back. -/
  | finishing (succeeded : Bool)
  | gone
  deriving DecidableEq, Repr

def Place.left : Place → Nat
  | .checking => 6
  | .refusing => 5
  | .releasing => 4
  | .running => 3
  | .finishing _ => 2
  | .abandoning => 1
  | .gone => 0

structure DeferredWrite where
  succeeded : Bool
  termination : Bool
  released : Bool
  deriving DecidableEq, Repr

inductive Release where
  | unsent
  | sent
  /-- The signal was dropped unsent. -/
  | lost
  deriving DecidableEq, Repr

inductive Association where
  | dispatching
  | waiting
  | answered
  | closed
  deriving DecidableEq, Repr

def Association.left : Association → Nat
  | .dispatching => 3
  | .waiting => 2
  | .answered => 1
  | .closed => 0

structure Exchange where
  place : Place
  reply : Bool
  channel : Option DeferredWrite
  release : Release
  association : Association
  answers : List Bool
  terminations : List Bool
  /-- Where the task was dropped, by a panic of a handler or with its runtime. -/
  dropped : Option Place
  deriving DecidableEq, Repr

inductive Action where
  | respond
  | checkPassed
  | checkRefused
  | refusalRecorded
  | released
  | abandoned
  | abandonRecorded
  | handlerReturned (succeeded : Bool)
  | finishRecorded
  | drop
  | deliver
  | close
  deriving DecidableEq, Repr

namespace Exchange

def start (write : OperateWrite) : Exchange where
  place := if !write.runtime then .gone else if !write.checked then .running else .checking
  reply := write.deferred
  channel := none
  release := .unsent
  association := .dispatching
  answers := []
  terminations := []
  dropped := none

variable (write : OperateWrite) (exchange : Exchange)

/-- Posts an outcome; a closed association drops it, and with it the signal it carries. -/
def post (done : DeferredWrite) : Exchange :=
  if exchange.association = .closed then
    { exchange with reply := false, release := if done.released then .lost else exchange.release }
  else
    { exchange with reply := false, channel := some done }

/-- The outcome of a refusal, and of a reply that is dropped unsent. -/
def refusal : DeferredWrite := { succeeded := false, termination := write.enhanced, released := false }

def success : DeferredWrite := { succeeded := true, termination := false, released := true }

/-- A CommandTermination is sent under enhanced security only. -/
def terminate (succeeded : Bool) : Exchange :=
  if write.enhanced then { exchange with terminations := exchange.terminations ++ [succeeded] } else exchange

def dropTask : Option Exchange :=
  let dropped := { exchange with place := .gone, dropped := some exchange.place }
  match exchange.place with
  -- the unsent reply answers in its own drop
  | .checking | .refusing => some (if exchange.reply then dropped.post (refusal write) else dropped)
  | .releasing | .abandoning => some dropped
  | .running | .finishing _ => some (dropped.terminate write false)
  | .gone => none

/-- One step of the task or of the association; `none` when it cannot be taken. -/
def act : Action → Option Exchange
  | .respond =>
    if exchange.association ≠ .dispatching then none
    else if !write.runtime then some { exchange with association := .answered, answers := exchange.answers ++ [false] }
    else if write.held then some { exchange with association := .waiting }
    else some { exchange with association := .answered, answers := exchange.answers ++ [true] }
  | .checkPassed =>
    if exchange.place ≠ .checking then none
    else if exchange.reply then some { exchange.post success with place := .releasing }
    else some { exchange with place := .running }
  | .checkRefused => if exchange.place ≠ .checking then none else some { exchange with place := .refusing }
  | .refusalRecorded =>
    if exchange.place ≠ .refusing then none
    else if exchange.reply then some { exchange.post (refusal write) with place := .gone }
    else some { exchange.terminate write false with place := .gone }
  | .released =>
    if exchange.place ≠ .releasing ∨ exchange.release ≠ .sent then none
    else some { exchange with place := .running }
  | .abandoned =>
    if exchange.place ≠ .releasing ∨ exchange.release ≠ .lost then none
    else some { exchange with place := .abandoning }
  | .abandonRecorded => if exchange.place ≠ .abandoning then none else some { exchange with place := .gone }
  | .handlerReturned succeeded =>
    if exchange.place ≠ .running then none else some { exchange with place := .finishing succeeded }
  | .finishRecorded =>
    match exchange.place with
    | .finishing succeeded => some { exchange.terminate write succeeded with place := .gone }
    | _ => none
  | .drop => exchange.dropTask write
  | .deliver =>
    match exchange.channel, exchange.association with
    | some done, .waiting =>
      some { exchange with
        channel := none, association := .answered, answers := exchange.answers ++ [done.succeeded]
        release := if done.released then .sent else exchange.release }
    | some done, .answered =>
      some { exchange with
        channel := none
        terminations := if done.termination then exchange.terminations ++ [false] else exchange.terminations
        release := if !done.termination && done.released then .sent else exchange.release }
    | _, _ => none
  | .close =>
    if exchange.association = .closed then none
    else
      some { exchange with
        association := .closed, channel := none
        release := if exchange.channel.any (·.released) then .lost else exchange.release }

def run : List Action → Option Exchange := Machine.run (act write) exchange

def Settled : Prop := ∀ action, action ≠ .close → exchange.act write action = none

/-- The write has exactly one outcome, and exactly one CommandTermination follows a positive one
under enhanced security. -/
def AnsweredOnce : Prop :=
  exchange.answers.length = 1 ∧
    exchange.terminations.length = if write.enhanced = true ∧ exchange.answers = [true] then 1 else 0

/-- The task was dropped where its drop code does not know that the write is, or will be, answered
positively: while it waits for the response to leave, or in the dynamic check of a write that was
answered at acceptance without a deferral. -/
def DroppedUnawares : Prop :=
  exchange.dropped = some .releasing ∨
    write.registered = false ∧ (exchange.dropped = some .checking ∨ exchange.dropped = some .refusing)

def left : Nat := exchange.place.left + exchange.channel.toList.length + exchange.association.left

/-- The write may still wait for the outcome of its command: it is not answered yet, or it was at
acceptance. -/
inductive Awaiting (write : OperateWrite) : Association → List Bool → Prop
  | dispatching : Awaiting write .dispatching []
  | waiting (held : write.held = true) : Awaiting write .waiting []
  | answered (atOnce : write.held = false) : Awaiting write .answered [true]

inductive Promised (write : OperateWrite) : Association → List Bool → Prop
  | dispatching (atOnce : write.held = false) : Promised write .dispatching []
  | answered : Promised write .answered [true]

inductive Stage (write : OperateWrite) : Exchange → Prop
  | closed {exchange : Exchange} (closed : exchange.association = .closed) : Stage write exchange
  | refusedAtOnce {release : Release} (runtime : write.runtime = false) :
      Stage write ⟨.gone, false, none, release, .dispatching, [], [], none⟩
  | refusedAnswered {release : Release} (runtime : write.runtime = false) :
      Stage write ⟨.gone, false, none, release, .answered, [false], [], none⟩
  | checking {place : Place} {association : Association} {answers : List Bool}
      (runtime : write.runtime = true) (checked : write.checked = true)
      (inCheck : place = .checking ∨ place = .refusing)
      (awaiting : Awaiting write association answers) :
      Stage write ⟨place, write.registered, none, .unsent, association, answers, [], none⟩
  | posted {association : Association} {answers : List Bool} (deferred : write.deferred = true)
      (awaiting : Awaiting write association answers) :
      Stage write ⟨.releasing, false, some success, .unsent, association, answers, [], none⟩
  | released (runtime : write.runtime = true) :
      Stage write ⟨.releasing, false, none, .sent, .answered, [true], [], none⟩
  | working {place : Place} {release : Release} {association : Association} {answers : List Bool}
      (runtime : write.runtime = true) (atWork : place = .running ∨ ∃ succeeded, place = .finishing succeeded)
      (promised : Promised write association answers) :
      Stage write ⟨place, false, none, release, association, answers, [], none⟩
  | refusalPosted {release : Release} {association : Association} {answers : List Bool} {dropped : Option Place}
      (deferred : write.deferred = true) (awaiting : Awaiting write association answers)
      (aware : dropped ≠ some .releasing) :
      Stage write ⟨.gone, false, some (refusal write), release, association, answers, [], dropped⟩
  | refusalTold {release : Release} {dropped : Option Place} (held : write.held = true)
      (aware : dropped ≠ some .releasing) :
      Stage write ⟨.gone, false, none, release, .answered, [false], [], dropped⟩
  | ended {release : Release} {association : Association} {answers terminations : List Bool} {dropped : Option Place}
      (runtime : write.runtime = true) (promised : Promised write association answers)
      (count : terminations.length = if write.enhanced then 1 else 0) (aware : dropped ≠ some .releasing)
      (inCheck : dropped = some .checking ∨ dropped = some .refusing → write.registered = true) :
      Stage write ⟨.gone, false, none, release, association, answers, terminations, dropped⟩
  | unawaresPosted {release : Release} {association : Association} {answers : List Bool}
      (deferred : write.deferred = true) (awaiting : Awaiting write association answers) :
      Stage write ⟨.gone, false, some success, release, association, answers, [], some .releasing⟩
  | unawares {release : Release} {association : Association} {answers : List Bool} {dropped : Option Place}
      (runtime : write.runtime = true) (promised : Promised write association answers)
      (unheard : dropped = some .releasing ∨
        write.registered = false ∧ (dropped = some .checking ∨ dropped = some .refusing)) :
      Stage write ⟨.gone, false, none, release, association, answers, [], dropped⟩

variable {write} {exchange} {next : Exchange} {association : Association} {answers : List Bool}

theorem deferred_iff : write.deferred = true ↔
      write.runtime = true ∧ write.checked = true ∧ write.registered = true := by
  simp [OperateWrite.deferred, and_assoc]

theorem Awaiting.promised (awaiting : Awaiting write association answers) (undeferred : write.registered = false) :
    Promised write association answers := by
  have atOnce : write.held = false := by simp [OperateWrite.held, OperateWrite.deferred, undeferred]
  cases awaiting with
  | dispatching => exact .dispatching atOnce
  | waiting held =>
    rw [atOnce] at held
    cases held
  | answered _ => exact .answered

theorem stage_start (write : OperateWrite) : Stage write (start write) := by
  cases runtime : write.runtime with
  | false =>
    simp only [start, runtime, OperateWrite.deferred, Bool.not_false, Bool.false_and, if_true]
    exact .refusedAtOnce runtime
  | true =>
    cases checked : write.checked with
    | false =>
      simp only [start, runtime, checked, OperateWrite.deferred, Bool.not_true, Bool.not_false, Bool.and_false,
        Bool.false_and, Bool.false_eq_true, if_false, if_true]
      exact .working runtime (.inl rfl) (.dispatching (by simp [OperateWrite.held, OperateWrite.deferred, checked]))
    | true =>
      simp only [start, runtime, checked, OperateWrite.deferred, Bool.not_true, Bool.true_and,
        Bool.false_eq_true, if_false]
      exact .checking runtime checked (.inl rfl) .dispatching

theorem respond_eq (runtime : write.runtime = true) (acted : exchange.act write .respond = some next) :
    exchange.association = .dispatching ∧
      next = { exchange with
        association := if write.held then .waiting else .answered
        answers := if write.held then exchange.answers else exchange.answers ++ [true] } := by
  simp only [act] at acted
  split at acted
  · cases acted
  next dispatching =>
  refine ⟨not_not.mp dispatching, ?_⟩
  simp only [runtime, Bool.not_true, Bool.false_eq_true, if_false] at acted
  split at acted
  · next held =>
    cases acted
    simp [held]
  · next atOnce =>
    cases acted
    simp [atOnce]

theorem awaiting_respond (write : OperateWrite) :
    Awaiting write (if write.held then .waiting else .answered) (if write.held then [] else [] ++ [true]) := by
  cases held : write.held with
  | true => exact .waiting held
  | false => exact .answered held

theorem Promised.respond (promised : Promised write .dispatching answers) :
    Promised write (if write.held then .waiting else .answered)
      (if write.held then answers else answers ++ [true]) := by
  cases promised with
  | dispatching atOnce =>
    simp only [atOnce, Bool.false_eq_true, if_false]
    exact .answered

theorem Stage.respond (stage : Stage write exchange) (acted : exchange.act write .respond = some next) :
    Stage write next := by
  cases stage with
  | closed closed => simp [act, closed] at acted
  | refusedAtOnce runtime =>
    simp only [act, ne_eq, not_true_eq_false, if_false, runtime, Bool.not_false, if_true, Option.some.injEq] at acted
    subst acted
    exact .refusedAnswered runtime
  | refusedAnswered runtime => simp [act] at acted
  | checking runtime checked inCheck awaiting =>
    obtain ⟨dispatching, rfl⟩ := respond_eq runtime acted
    cases dispatching
    cases awaiting
    exact .checking runtime checked inCheck (awaiting_respond write)
  | posted deferred awaiting =>
    obtain ⟨dispatching, rfl⟩ := respond_eq (deferred_iff.mp deferred).1 acted
    cases dispatching
    cases awaiting
    exact .posted deferred (awaiting_respond write)
  | released runtime => simp [act] at acted
  | working runtime atWork promised =>
    obtain ⟨dispatching, rfl⟩ := respond_eq runtime acted
    cases dispatching
    exact .working runtime atWork promised.respond
  | refusalPosted deferred awaiting aware =>
    obtain ⟨dispatching, rfl⟩ := respond_eq (deferred_iff.mp deferred).1 acted
    cases dispatching
    cases awaiting
    exact .refusalPosted deferred (awaiting_respond write) aware
  | refusalTold held aware => simp [act] at acted
  | ended runtime promised count aware inCheck =>
    obtain ⟨dispatching, rfl⟩ := respond_eq runtime acted
    cases dispatching
    exact .ended runtime promised.respond count aware inCheck
  | unawaresPosted deferred awaiting =>
    obtain ⟨dispatching, rfl⟩ := respond_eq (deferred_iff.mp deferred).1 acted
    cases dispatching
    cases awaiting
    exact .unawaresPosted deferred (awaiting_respond write)
  | unawares runtime promised unheard =>
    obtain ⟨dispatching, rfl⟩ := respond_eq runtime acted
    cases dispatching
    exact .unawares runtime promised.respond unheard

section

variable (stage : Stage write exchange) (isOpen : exchange.association ≠ .closed)

include stage isOpen

theorem Stage.of_checking (place : exchange.place = .checking ∨ exchange.place = .refusing) :
    write.runtime = true ∧ write.checked = true ∧ Awaiting write exchange.association exchange.answers ∧
      exchange = { exchange with
        reply := write.registered, channel := none, release := .unsent, terminations := [], dropped := none } := by
  cases stage with
  | closed closed => exact absurd closed isOpen
  | checking runtime checked inCheck awaiting => exact ⟨runtime, checked, awaiting, rfl⟩
  | working runtime atWork promised => rcases atWork with rfl | ⟨succeeded, rfl⟩ <;> simp at place
  | _ => simp at place

theorem Stage.of_releasing (place : exchange.place = .releasing) : write.runtime = true ∧
      (write.deferred = true ∧ Awaiting write exchange.association exchange.answers ∧
          exchange = { exchange with
            reply := false, channel := some success, release := .unsent, terminations := [], dropped := none } ∨
        exchange = ⟨.releasing, false, none, .sent, .answered, [true], [], none⟩) := by
  cases stage with
  | closed closed => exact absurd closed isOpen
  | posted deferred awaiting =>
    exact ⟨(deferred_iff.mp deferred).1, .inl ⟨deferred, awaiting, rfl⟩⟩
  | released runtime => exact ⟨runtime, .inr rfl⟩
  | checking runtime checked inCheck awaiting => rcases inCheck with rfl | rfl <;> cases place
  | working runtime atWork promised => rcases atWork with rfl | ⟨succeeded, rfl⟩ <;> cases place
  | _ => cases place

theorem Stage.of_working (place : exchange.place = .running ∨ ∃ succeeded, exchange.place = .finishing succeeded) :
    write.runtime = true ∧ Promised write exchange.association exchange.answers ∧
      exchange = { exchange with reply := false, channel := none, terminations := [], dropped := none } := by
  cases stage with
  | closed closed => exact absurd closed isOpen
  | working runtime atWork promised => exact ⟨runtime, promised, rfl⟩
  | checking runtime checked inCheck awaiting => rcases inCheck with rfl | rfl <;> simp at place
  | _ => simp at place

end

theorem gone_terminate (succeeded : Bool) : { exchange.terminate write succeeded with place := .gone } =
      Exchange.terminate write { exchange with place := .gone } succeeded := by
  unfold terminate
  split <;> rfl

theorem stage_terminate {release : Release} (dropped : Option Place) (runtime : write.runtime = true)
    (promised : Promised write association answers) (aware : dropped ≠ some .releasing)
    (inCheck : dropped = some .checking ∨ dropped = some .refusing → write.registered = true) (succeeded : Bool) :
    Stage write ((Exchange.mk .gone false none release association answers [] dropped).terminate write succeeded) := by
  cases enhanced : write.enhanced with
  | true =>
    simp only [terminate, enhanced, if_true]
    exact .ended runtime promised (by simp [enhanced]) aware inCheck
  | false =>
    simp only [terminate, enhanced, Bool.false_eq_true, if_false]
    exact .ended runtime promised (by simp [enhanced]) aware inCheck

section

variable (stage : Stage write exchange) (isOpen : exchange.association ≠ .closed)

include stage isOpen

theorem Stage.checkPassed (acted : exchange.act write .checkPassed = some next) : Stage write next := by
  simp only [act] at acted
  split at acted
  · cases acted
  next place =>
  have checking : exchange.place = .checking := not_not.mp place
  obtain ⟨runtime, checked, awaiting, shape⟩ := stage.of_checking isOpen (.inl checking)
  rw [shape] at acted
  cases registered : write.registered with
  | true =>
    simp only [registered, if_true, post, if_neg isOpen] at acted
    cases acted
    exact .posted (deferred_iff.mpr ⟨runtime, checked, registered⟩) awaiting
  | false =>
    simp only [registered, Bool.false_eq_true, if_false] at acted
    cases acted
    exact .working runtime (.inl rfl) (awaiting.promised registered)

theorem Stage.checkRefused (acted : exchange.act write .checkRefused = some next) : Stage write next := by
  simp only [act] at acted
  split at acted
  · cases acted
  next place =>
  obtain ⟨runtime, checked, awaiting, shape⟩ := stage.of_checking isOpen (.inl (not_not.mp place))
  rw [shape] at acted
  cases acted
  exact .checking runtime checked (.inr rfl) awaiting

theorem Stage.refusalRecorded (acted : exchange.act write .refusalRecorded = some next) : Stage write next := by
  simp only [act] at acted
  split at acted
  · cases acted
  next place =>
  obtain ⟨runtime, checked, awaiting, shape⟩ := stage.of_checking isOpen (.inr (not_not.mp place))
  rw [shape] at acted
  cases registered : write.registered with
  | true =>
    simp only [registered, if_true, post, if_neg isOpen] at acted
    cases acted
    exact .refusalPosted (deferred_iff.mpr ⟨runtime, checked, registered⟩) awaiting nofun
  | false =>
    simp only [registered, Bool.false_eq_true, if_false] at acted
    cases acted
    rw [gone_terminate]
    exact stage_terminate none runtime (awaiting.promised registered) (by simp) (by simp) false

theorem Stage.releasedRun (acted : exchange.act write .released = some next) : Stage write next := by
  simp only [act] at acted
  split at acted
  · cases acted
  next ready =>
  rw [not_or, not_not, not_not] at ready
  obtain ⟨runtime, ⟨_, _, shape⟩ | shape⟩ := stage.of_releasing isOpen ready.1
  · rw [shape] at ready
    cases ready.2
  · rw [shape] at acted
    cases acted
    exact .working runtime (.inl rfl) .answered

theorem Stage.not_abandoned : exchange.act write .abandoned = none ∧ exchange.act write .abandonRecorded = none := by
  constructor
  · simp only [act]
    split
    · rfl
    next lost =>
    rw [not_or, not_not, not_not] at lost
    obtain ⟨_, ⟨_, _, shape⟩ | shape⟩ := stage.of_releasing isOpen lost.1
    · rw [shape] at lost
      cases lost.2
    · rw [shape] at lost
      cases lost.2
  · simp only [act]
    apply if_pos
    intro abandoning
    cases stage with
    | closed closed => exact isOpen closed
    | checking runtime checked inCheck awaiting => rcases inCheck with rfl | rfl <;> cases abandoning
    | working runtime atWork promised => rcases atWork with rfl | ⟨succeeded, rfl⟩ <;> cases abandoning
    | _ => cases abandoning

theorem Stage.handlerReturned {succeeded : Bool}
    (acted : exchange.act write (.handlerReturned succeeded) = some next) : Stage write next := by
  simp only [act] at acted
  split at acted
  · cases acted
  next place =>
  obtain ⟨runtime, promised, shape⟩ := stage.of_working isOpen (.inl (not_not.mp place))
  rw [shape] at acted
  cases acted
  exact .working runtime (.inr ⟨succeeded, rfl⟩) promised

theorem Stage.finishRecorded (acted : exchange.act write .finishRecorded = some next) : Stage write next := by
  simp only [act] at acted
  split at acted
  · next succeeded place =>
    obtain ⟨runtime, promised, shape⟩ := stage.of_working isOpen (.inr ⟨succeeded, place⟩)
    rw [shape] at acted
    cases acted
    rw [gone_terminate]
    exact stage_terminate none runtime promised (by simp) (by simp) succeeded
  · cases acted

theorem Stage.drop_checking
    (place : exchange.place = .checking ∨ exchange.place = .refusing) (acted : some (if exchange.reply then
        Exchange.post { exchange with place := .gone, dropped := some exchange.place } (refusal write)
      else { exchange with place := .gone, dropped := some exchange.place }) = some next) : Stage write next := by
  obtain ⟨runtime, checked, awaiting, shape⟩ := stage.of_checking isOpen place
  have aware : some exchange.place ≠ some .releasing := by
    rcases place with place | place <;> simp [place]
  rw [shape] at acted
  cases registered : write.registered with
  | true =>
    simp only [registered, if_true, post, if_neg isOpen] at acted
    cases acted
    exact .refusalPosted (deferred_iff.mpr ⟨runtime, checked, registered⟩) awaiting aware
  | false =>
    simp only [registered, Bool.false_eq_true, if_false] at acted
    cases acted
    refine .unawares runtime (awaiting.promised registered) (.inr ⟨registered, ?_⟩)
    rcases place with place | place <;> simp [place]

theorem Stage.drop_working (place : exchange.place = .running ∨ ∃ succeeded, exchange.place = .finishing succeeded)
    (acted : some (Exchange.terminate write { exchange with place := .gone, dropped := some exchange.place } false) =
      some next) : Stage write next := by
  obtain ⟨runtime, promised, shape⟩ := stage.of_working isOpen place
  have elsewhere : exchange.place ≠ .releasing ∧ exchange.place ≠ .checking ∧ exchange.place ≠ .refusing := by
    rcases place with place | ⟨succeeded, place⟩ <;> simp [place]
  rw [shape] at acted
  cases acted
  exact stage_terminate (some exchange.place) runtime promised (by simp [elsewhere]) (by simp [elsewhere]) false

theorem Stage.drop (acted : exchange.act write .drop = some next) : Stage write next := by
  simp only [act, dropTask] at acted
  split at acted
  · next place => exact stage.drop_checking isOpen (.inl place) acted
  · next place => exact stage.drop_checking isOpen (.inr place) acted
  · next place =>
    obtain ⟨runtime, ⟨deferred, awaiting, shape⟩ | shape⟩ := stage.of_releasing isOpen place
    · rw [shape] at acted
      cases acted
      rw [place]
      exact .unawaresPosted deferred awaiting
    · rw [shape] at acted
      cases acted
      exact .unawares runtime .answered (.inl rfl)
  · next place =>
    have impossible := (stage.not_abandoned isOpen).2
    simp [act, place] at impossible
  · next place => exact stage.drop_working isOpen (.inl place) acted
  · next succeeded place => exact stage.drop_working isOpen (.inr ⟨succeeded, place⟩) acted
  · cases acted

end

theorem Stage.deliver (stage : Stage write exchange) (acted : exchange.act write .deliver = some next) :
    Stage write next := by
  cases stage with
  | closed closed => simp [act, closed] at acted
  | posted deferred awaiting =>
    have runtime := (deferred_iff.mp deferred).1
    cases awaiting with
    | dispatching => cases acted
    | waiting held | answered atOnce =>
      cases acted
      exact .released runtime
  | refusalPosted deferred awaiting aware =>
    obtain ⟨runtime, _, registered⟩ := deferred_iff.mp deferred
    cases awaiting with
    | dispatching => cases acted
    | waiting held =>
      cases acted
      exact .refusalTold held aware
    | answered atOnce =>
      cases acted
      exact .ended runtime .answered (by cases enhanced : write.enhanced <;> simp [refusal, enhanced]) aware
        fun _ => registered
  | unawaresPosted deferred awaiting =>
    have runtime := (deferred_iff.mp deferred).1
    cases awaiting with
    | dispatching => cases acted
    | waiting held | answered atOnce =>
      cases acted
      exact .unawares runtime .answered (.inl rfl)
  | _ => cases acted

theorem act_forward {action : Action} (acted : exchange.act write action = some next) :
    next.left < exchange.left ∧ (exchange.association = .closed → next.association = .closed) := by
  cases action with
  | respond => grind [act, left, Association.left]
  | checkPassed => grind [act, left, post, Place.left]
  | checkRefused => grind [act, left, Place.left]
  | refusalRecorded => grind [act, left, post, Place.left, terminate]
  | released | abandoned | abandonRecorded | handlerReturned succeeded => grind [act, left, Place.left]
  | finishRecorded => grind [act, left, Place.left, terminate]
  | drop => grind [act, left, Place.left, dropTask, terminate, post]
  | deliver => grind [act, left, Association.left]
  | close =>
    simp only [act] at acted
    split at acted
    · cases acted
    next isOpen =>
    cases acted
    have opened : 0 < exchange.association.left := by
      cases association : exchange.association <;> simp_all [Association.left]
    refine ⟨?_, fun _ => rfl⟩
    show exchange.place.left + 0 + 0 < exchange.place.left + exchange.channel.toList.length + exchange.association.left
    omega

theorem Stage.act (stage : Stage write exchange) {action : Action} (acted : exchange.act write action = some next) :
    Stage write next := by
  by_cases closed : exchange.association = .closed
  · exact .closed ((act_forward acted).2 closed)
  cases action with
  | respond => exact stage.respond acted
  | checkPassed => exact stage.checkPassed closed acted
  | checkRefused => exact stage.checkRefused closed acted
  | refusalRecorded => exact stage.refusalRecorded closed acted
  | released => exact stage.releasedRun closed acted
  | abandoned =>
    rw [(stage.not_abandoned closed).1] at acted
    cases acted
  | abandonRecorded =>
    rw [(stage.not_abandoned closed).2] at acted
    cases acted
  | handlerReturned succeeded => exact stage.handlerReturned closed acted
  | finishRecorded => exact stage.finishRecorded closed acted
  | drop => exact stage.drop closed acted
  | deliver => exact stage.deliver acted
  | close =>
    simp only [Exchange.act, if_neg closed] at acted
    cases acted
    exact .closed rfl

theorem Stage.run (stage : Stage write exchange) {actions : List Action} {last : Exchange}
    (ran : exchange.run write actions = some last) : Stage write last :=
  Machine.invariant (Stage write) (fun stage acted => stage.act acted) ran stage

theorem left_start_le (write : OperateWrite) : (start write).left ≤ 9 := by
  simp only [start, left, Association.left, Option.toList_none, List.length_nil]
  split
  · simp [Place.left]
  · split <;> simp [Place.left]

theorem Settled.gone (settled : Settled write exchange) : exchange.place = .gone := by
  have undropped := settled .drop nofun
  simp only [act, dropTask] at undropped
  split at undropped <;> first | assumption | cases undropped

theorem Settled.not_dispatching (settled : Settled write exchange) : exchange.association ≠ .dispatching := by
  intro dispatching
  have unanswered := settled .respond nofun
  simp only [act, dispatching, ne_eq, not_true_eq_false, if_false] at unanswered
  split at unanswered
  · cases unanswered
  · split at unanswered <;> cases unanswered

theorem settled_iff : Settled write exchange ↔
      exchange.place = .gone ∧ exchange.association ≠ .dispatching ∧
        (exchange.association = .closed ∨ exchange.channel = none) := by
  constructor
  · intro settled
    refine ⟨settled.gone, settled.not_dispatching, ?_⟩
    have undelivered := settled .deliver nofun
    have dispatched := settled.not_dispatching
    cases channel : exchange.channel with
    | none => exact .inr rfl
    | some done => cases association : exchange.association <;> simp_all [act]
  · rintro ⟨gone, dispatched, arrived⟩ action notClose
    cases action with
    | close => exact absurd rfl notClose
    | respond => exact if_pos dispatched
    | deliver => rcases arrived with closed | arrived <;> simp [act, *]
    | _ => simp [act, dropTask, gone]

theorem Stage.settled (stage : Stage write exchange) (isOpen : exchange.association ≠ .closed)
    (settled : Settled write exchange) :
    AnsweredOnce write exchange ↔ ¬(write.enhanced = true ∧ DroppedUnawares write exchange) := by
  obtain ⟨gone, dispatched, arrived⟩ := settled_iff.mp settled
  cases stage with
  | closed closed => exact absurd closed isOpen
  | refusedAtOnce runtime => exact absurd rfl dispatched
  | refusedAnswered runtime => simp [AnsweredOnce, DroppedUnawares]
  | checking runtime checked inCheck awaiting => rcases inCheck with rfl | rfl <;> cases gone
  | working runtime atWork promised => rcases atWork with rfl | ⟨succeeded, rfl⟩ <;> cases gone
  | refusalTold held aware =>
    have registered : write.registered = true := by
      simp only [OperateWrite.held, Bool.and_eq_true] at held
      exact (deferred_iff.mp held.1).2.2
    simp [AnsweredOnce, DroppedUnawares, aware, registered]
  | ended runtime promised count aware inCheck =>
    cases promised with
    | dispatching atOnce => exact absurd rfl dispatched
    | answered =>
      refine iff_of_true (by simp [AnsweredOnce, count]) ?_
      rintro ⟨_, inRelease | ⟨unregistered, inCheck'⟩⟩
      · exact aware inRelease
      · rw [inCheck inCheck'] at unregistered
        cases unregistered
  | unawares runtime promised unheard =>
    cases promised with
    | dispatching atOnce => exact absurd rfl dispatched
    | answered =>
      cases enhanced : write.enhanced with
      | true => exact iff_of_false (by simp [AnsweredOnce, enhanced]) fun aware => aware ⟨rfl, unheard⟩
      | false => simp [AnsweredOnce, enhanced]
  | posted deferred awaiting | released runtime => cases gone
  | refusalPosted deferred awaiting aware | unawaresPosted deferred awaiting => cases arrived.resolve_left isOpen

/-- Every exchange settles in a few steps; settled on an open association, its write has one answer
and the CommandTermination that belongs to it, unless an enhanced command was dropped unawares. -/
theorem settled_answeredOnce_iff (write : OperateWrite) (actions : List Action) (exchange : Exchange)
    (ran : (start write).run write actions = some exchange) : actions.length ≤ 9 ∧
      (exchange.association ≠ .closed → Settled write exchange →
        (AnsweredOnce write exchange ↔ ¬(write.enhanced = true ∧ DroppedUnawares write exchange))) :=
  ⟨Nat.le_trans (Machine.length_le left (fun acted => (act_forward acted).1) ran)
    (left_start_le write), ((stage_start write).run ran).settled⟩

def checkedWrite : OperateWrite where
  runtime := true
  enhanced := true
  checked := true
  registered := true
  single := true

def carriedOut : Exchange where
  place := .gone
  reply := false
  channel := none
  release := .sent
  association := .answered
  answers := [true]
  terminations := [true]
  dropped := none

theorem carriedOut_answeredOnce : carriedOut.AnsweredOnce checkedWrite :=
  ((settled_answeredOnce_iff checkedWrite
    [.respond, .checkPassed, .deliver, .released, .handlerReturned true, .finishRecorded] carriedOut (by decide)).2
    (by decide) (settled_iff.mpr (by decide))).mpr (by unfold DroppedUnawares; decide)

/-- A task that is dropped after the response has left and before it has learnt so: the command was
answered positively and is never terminated. -/
theorem positive_answer_without_termination :
    ∃ actions exchange, (start checkedWrite).run checkedWrite actions = some exchange ∧
      exchange.association ≠ .closed ∧ exchange.Settled checkedWrite ∧
      exchange.answers = [true] ∧ exchange.terminations = [] :=
  ⟨[.respond, .checkPassed, .deliver, .drop],
    ((start checkedWrite).run checkedWrite [.respond, .checkPassed, .deliver, .drop]).get (by decide),
    (Option.some_get _).symm, by decide, settled_iff.mpr (by decide), by decide, by decide⟩

end Exchange

end Iec61850.Control
