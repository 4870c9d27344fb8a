import Iec61850.Goose.Publisher

/-!
The receiving side: the sequence and expiry state a subscriber keeps for each publication it hears,
and the receiver that decodes frames for its subscribers and sweeps them for what has expired.
-/

namespace Iec61850.Goose

open Model Wire Wire.Fallible

structure GooseSubscriberState where
  gocbRef : String
  datSet : String
  goId : String
  timeAllowedToLiveMs : UInt32
  stNum : UInt32
  sqNum : UInt32
  confRev : UInt32
  timestamp : UtcTime
  simulation : Bool
  frameSimulation : Bool
  ndsCom : Bool
  datasetValues : List MmsValue
  srcMac : MacAddress
  dstMac : MacAddress
  vlan : Option VlanTag
  receivedAt : Instant
  stateValid : Bool

variable (prev : Option GooseSubscriberState) (newState state : GooseSubscriberState)

def GooseSubscriberState.isSimulated : Bool := state.simulation || state.frameSimulation

inductive GooseEvent where
  | newState (prevStNum : UInt32) (state : GooseSubscriberState) (parseResult : Except GooseError Unit)
  | retransmission (state : GooseSubscriberState) (parseResult : Except GooseError Unit)
  | expired (lastState : GooseSubscriberState)

inductive SimulationFilter where
  | any | nonSimulated | simulated
  deriving DecidableEq, Repr

def SimulationFilter.accepts (filter : SimulationFilter) (simulated : Bool) : Bool :=
  match filter with
  | .any => true
  | .nonSimulated => !simulated
  | .simulated => simulated

def defaultObserverMaxStreams : Nat := 64

structure GooseSubscriberBuilder where
  gocbRef : Option String := none
  appId : Option UInt16 := none
  dstMac : Option MacAddress := none
  simulation : SimulationFilter := .any
  isObserver : Bool := false
  maxStreams : Option Nat := none
  listener : Bool := false

structure StreamTrack where
  last : GooseSubscriberState
  expiredFired : Bool
  lastSeen : UInt64

structure GooseSubscriber where
  gocbRef : Option String
  appId : Option UInt16
  dstMac : Option MacAddress
  simulation : SimulationFilter
  maxStreams : Nat
  listener : Bool
  lastState : Option GooseSubscriberState
  streams : List StreamTrack
  clock : UInt64

def GooseSubscriberBuilder.build (builder : GooseSubscriberBuilder) : GooseSubscriber where
  gocbRef := if builder.isObserver then none else builder.gocbRef
  appId := builder.appId
  dstMac := builder.dstMac
  simulation := builder.simulation
  maxStreams := max (builder.maxStreams.getD defaultObserverMaxStreams) 1
  listener := builder.listener
  lastState := none
  streams := []
  clock := 0

def isWrapToOne (prev new : UInt32) : Bool := prev == 0xffffffff && new == 1

/-- Whole milliseconds since the state arrived, as 64 bits. -/
def elapsedMs (now : Instant) : Nat :=
  min (Duration.asMillis (now - state.receivedAt)) (2 ^ 64 - 1)

/-- What a subscriber makes of a publication that follows `prev`: the state it keeps, the event, and
whether sqNum did not advance. -/
def judge : GooseSubscriberState × GooseEvent × Bool :=
  let prevStNum := (prev.map GooseSubscriberState.stNum).getD 0
  let prevSqNum := (prev.map GooseSubscriberState.sqNum).getD 0
  let prevConfRev := (prev.map GooseSubscriberState.confRev).getD 0
  let stNumWrapped := prev.isSome && isWrapToOne prevStNum newState.stNum
  let stNumRollback := prev.isSome && newState.stNum < prevStNum && !stNumWrapped
  let sqNumRollback := !stNumRollback && prev.isSome && newState.stNum == prevStNum && newState.sqNum ≤ prevSqNum
    && !isWrapToOne prevSqNum newState.sqNum
  let confRevMismatch := prev.isSome && prevConfRev != 0 && newState.confRev != prevConfRev
  let parseResult : Except GooseError Unit :=
    if confRevMismatch then .error (.confRevMismatch prevConfRev newState.confRev) else .ok ()
  let finalState := { newState with stateValid := !stNumRollback && !sqNumRollback && newState.stateValid }
  let event :=
    if stNumRollback || stNumWrapped || prevStNum < newState.stNum || prevStNum == 0 then
      GooseEvent.newState prevStNum finalState parseResult
    else
      GooseEvent.retransmission finalState parseResult
  (finalState, event, sqNumRollback)

def leastRecent (streams : List StreamTrack) : Option Nat :=
  (streams.map StreamTrack.lastSeen).min?.bind fun oldest => streams.findIdx? fun track => track.lastSeen == oldest

/-- The last element takes the place of the removed one. -/
def swapRemove {α : Type} (items : List α) (position : Nat) : List α :=
  match items.getLast? with
  | none => items
  | some last => (items.set position last).dropLast

namespace GooseSubscriber

variable (subscriber : GooseSubscriber) (now : Instant)

def matchesFrame (appId : UInt16) (dstMac : MacAddress) : Bool :=
  subscriber.appId.all (· == appId) && subscriber.dstMac.all (· == dstMac)

def matchesGocbRef (gocbRef : String) : Bool := subscriber.gocbRef.all (· == gocbRef)

def evictLeastRecent (streams : List StreamTrack) : List StreamTrack :=
  match leastRecent streams with
  | some oldest => swapRemove streams oldest
  | none => streams

def updateAndDispatch (newState : GooseSubscriberState) : GooseSubscriber × List GooseEvent :=
  let slot := subscriber.streams.findIdx? fun track =>
    track.last.gocbRef == newState.gocbRef && track.last.isSimulated == newState.isSimulated
  let prev := (slot.bind fun index => subscriber.streams[index]?).map StreamTrack.last
  let (finalState, event, sqNumRollback) := judge prev newState
  let clock := subscriber.clock + 1
  let streams :=
    match slot with
    | some index =>
      subscriber.streams.modify index fun track =>
        { last := finalState, expiredFired := sqNumRollback && track.expiredFired, lastSeen := clock }
    | none =>
      let kept :=
        if subscriber.maxStreams ≤ subscriber.streams.length then evictLeastRecent subscriber.streams
        else subscriber.streams
      kept ++ [⟨finalState, false, clock⟩]
  ({ subscriber with clock, streams, lastState := some finalState }, if subscriber.listener then [event] else [])

def expires (track : StreamTrack) : Bool :=
  !track.expiredFired && track.last.timeAllowedToLiveMs.toNat < elapsedMs track.last now

def checkExpiredAt : GooseSubscriber × List GooseEvent :=
  ({ subscriber with
      streams := subscriber.streams.map fun track =>
        if expires now track then { track with expiredFired := true } else track },
    if subscriber.listener then (subscriber.streams.filter (expires now)).map fun track => .expired track.last else [])

end GooseSubscriber

structure GooseReceiver where
  subscribers : List (Option GooseSubscriber)
  appidIndex : UInt16 → List Nat
  wildcardIndices : List Nat

namespace GooseReceiver

def new : GooseReceiver := ⟨[], fun _ => [], []⟩

variable (hdr : GooseFrameHeader) (parsed : GoosePdu) (receiver : GooseReceiver) (appId : UInt16) (buf : List UInt8)
  (now : Instant)

def addSubscriber (sub : GooseSubscriber) : GooseReceiver :=
  let idx := receiver.subscribers.length
  let receiver :=
    match sub.appId with
    | some id =>
      { receiver with
        appidIndex := fun key => if key = id then receiver.appidIndex key ++ [idx] else receiver.appidIndex key }
    | none => { receiver with wildcardIndices := receiver.wildcardIndices ++ [idx] }
  { receiver with subscribers := receiver.subscribers ++ [some sub] }

def candidates : List Nat :=
  receiver.appidIndex appId ++ receiver.wildcardIndices

def snapshot : GooseSubscriberState where
  gocbRef := parsed.gocbRef
  datSet := parsed.datSet
  goId := parsed.goId
  timeAllowedToLiveMs := parsed.timeAllowedToLive
  stNum := parsed.stNum
  sqNum := parsed.sqNum
  confRev := parsed.confRev
  timestamp := parsed.t
  simulation := parsed.simulation
  frameSimulation := hdr.simulation
  ndsCom := parsed.ndsCom
  datasetValues := parsed.allData
  srcMac := hdr.srcMac
  dstMac := hdr.dstMac
  vlan := hdr.vlan
  receivedAt := now
  stateValid := true

def dispatch (state : GooseSubscriberState) (done : List (Option GooseSubscriber) × List GooseEvent)
    (idx : Nat) : List (Option GooseSubscriber) × List GooseEvent :=
  match done.1[idx]? with
  | some (some sub) =>
    if sub.matchesFrame appId state.dstMac && sub.matchesGocbRef state.gocbRef
        && sub.simulation.accepts state.isSimulated then
      let (sub, events) := sub.updateAndDispatch state
      (done.1.set idx (some sub), done.2 ++ events)
    else
      done
  | _ => done

def doHandleMessage : Fallible GooseError (GooseReceiver × List GooseEvent) := do
  let frame ← GooseFrame.decode buf
  let hdr := frame.header
  let anyFrameMatch := (receiver.candidates hdr.appId).any fun idx =>
    match receiver.subscribers[idx]? with
    | some (some sub) => sub.matchesFrame hdr.appId hdr.dstMac
    | _ => false
  if !anyFrameMatch then
    return (receiver, [])
  else
    let parsed ← GoosePdu.decodeBer frame.pduBytes
    let (subscribers, events) := (receiver.candidates hdr.appId).foldl (dispatch hdr.appId (snapshot hdr parsed now))
      (receiver.subscribers, [])
    return ({ receiver with subscribers }, events)

def checkAllExpired : GooseReceiver × List GooseEvent :=
  let swept := receiver.subscribers.map fun slot => slot.map fun sub => sub.checkExpiredAt now
  ({ receiver with subscribers := swept.map fun slot => slot.map Prod.fst },
    swept.flatMap fun slot => slot.elim [] Prod.snd)

/-- A frame that fails to decode is dropped; the sweep takes place either way. -/
def handleMessageAt : Fallible GooseError (GooseReceiver × List GooseEvent) :=
  match receiver.doHandleMessage buf now with
  | .ok (handled, events) =>
    let (swept, expired) := handled.checkAllExpired now
    .ok (swept, events ++ expired)
  | .error (.refused _) => .ok (receiver.checkAllExpired now)
  | .error fault => .error fault

end GooseReceiver

end Iec61850.Goose
