import Iec61850.Goose.RoundTrip

/-!
The publisher: state and sequence numbers, the retransmission phase, and the frame header that is
built once and copied into every frame.
-/

namespace Iec61850.Goose

open Model Mms Wire Wire.Fallible GooseFrame

abbrev Duration := Nat

abbrev Instant := Nat

namespace Duration

def fromMillis (ms : Nat) : Duration := ms * 1000000

def asMillis (duration : Duration) : Nat := duration / 1000000

def longest : Duration := (2 ^ 64 - 1) * 1000000000 + 999999999

def saturatingMul (duration : Duration) (factor : Nat) : Duration := min (duration * factor) longest

end Duration

def gooseMaxFrameSize : Nat := 1518

structure CommParameters where
  appId : UInt16
  dstMac : MacAddress
  srcMac : Option MacAddress
  vlan : Option VlanTag

structure RetransIntervals where
  t1 : Duration := Duration.fromMillis 4
  t2 : Duration := Duration.fromMillis 8
  t3 : Duration := Duration.fromMillis 16
  t4 : Duration := Duration.fromMillis 32
  tmax : Duration := Duration.fromMillis 1000

def RetransIntervals.fromMinMax (min max : Duration) : RetransIntervals :=
  let t1 := Max.max min (Duration.fromMillis 1)
  let tmax := Max.max max t1
  let step (n : Nat) := Min.min (Duration.saturatingMul t1 (1 <<< n)) tmax
  { t1, t2 := step 1, t3 := step 2, t4 := step 3, tmax }

inductive RetransPhase where
  | t1 | t2 | t3 | t4 | stable
  deriving DecidableEq, Repr

namespace RetransPhase

def interval (phase : RetransPhase) (intervals : RetransIntervals) : Duration :=
  match phase with
  | t1 => intervals.t1
  | t2 => intervals.t2
  | t3 => intervals.t3
  | t4 => intervals.t4
  | stable => intervals.tmax

def advance : RetransPhase → RetransPhase
  | t1 => t2
  | t2 => t3
  | t3 => t4
  | t4 => stable
  | stable => stable

end RetransPhase

/-- The timestamp source is a clock of the caller: what it reads is an argument of the operations
that read it. -/
structure GoosePublisher where
  gocbRef : String
  dataSetRef : String
  goId : Option String
  confRev : UInt32
  stNum : UInt32
  sqNum : UInt32
  simulation : Bool
  needsCommission : Bool
  timestamp : UtcTime
  hasTimestampSource : Bool
  timeAllowedToLiveOverride : Option UInt32
  comm : CommParameters
  frameHeaderBytes : List UInt8
  lengthFieldOffset : Nat
  retransIntervals : RetransIntervals
  phase : RetransPhase
  nextPublishAt : Option Instant
  enabled : Bool

def CommParameters.header (comm : CommParameters) (length : UInt16) (simulation : Bool) : GooseFrameHeader where
  dstMac := comm.dstMac
  srcMac := comm.srcMac.getD (Vector.replicate 6 0)
  vlan := comm.vlan
  appId := comm.appId
  length := length
  simulation := simulation

namespace GoosePublisher

def new (comm : CommParameters) (gocbRef : String) (goId : Option String) (dataSetRef : String) (confRev : UInt32) :
    Except GooseError GoosePublisher :=
  if gocbRef.isEmpty then
    .error (.fieldTooLong 0)
  else if dataSetRef.isEmpty then
    .error (.fieldTooLong 0)
  else
    .ok {
      gocbRef, dataSetRef, goId, confRev, comm
      stNum := 1
      sqNum := 0
      simulation := false
      needsCommission := false
      timestamp := UtcTime.null
      hasTimestampSource := false
      timeAllowedToLiveOverride := none
      frameHeaderBytes := encode ⟨comm.header 8 false, []⟩
      lengthFieldOffset := if comm.vlan.isSome then 20 else 16
      retransIntervals := {}
      phase := .t1
      nextPublishAt := none
      enabled := false }

def setEnabled (publisher : GoosePublisher) (on : Bool) : GoosePublisher := { publisher with enabled := on }

def setDataSetRef (publisher : GoosePublisher) (dataSetRef : String) : Except GooseError GoosePublisher :=
  if dataSetRef.isEmpty then .error (.fieldTooLong 0) else .ok { publisher with dataSetRef }

/-- The octet behind the Length field holds the S bit. -/
def setSimulation (publisher : GoosePublisher) (v : Bool) : GoosePublisher :=
  let sBit := (reserved1Simulation >>> 8).toUInt8
  { publisher with
    simulation := v
    frameHeaderBytes := publisher.frameHeaderBytes.modify (publisher.lengthFieldOffset + 2)
      fun octet => if v then octet ||| sBit else octet &&& ~~~sBit }

def setNeedsCommission (publisher : GoosePublisher) (v : Bool) : GoosePublisher :=
  { publisher with needsCommission := v }

def setGoId (publisher : GoosePublisher) (id : Option String) : GoosePublisher := { publisher with goId := id }

def setConfRev (publisher : GoosePublisher) (v : UInt32) : GoosePublisher := { publisher with confRev := v }

def setRetransIntervals (publisher : GoosePublisher) (intervals : RetransIntervals) : GoosePublisher :=
  { publisher with retransIntervals := intervals }

def setTimeAllowedToLive (publisher : GoosePublisher) (ms : Option UInt32) : GoosePublisher :=
  { publisher with timeAllowedToLiveOverride := ms }

def nextInterval (publisher : GoosePublisher) : Duration := publisher.phase.interval publisher.retransIntervals

def timeAllowedToLiveMs (publisher : GoosePublisher) : UInt32 :=
  match publisher.timeAllowedToLiveOverride with
  | some v => v
  | none =>
    let doubled := min (Duration.asMillis publisher.nextInterval * 2) (2 ^ 128 - 1)
    if doubled < 2 ^ 32 then UInt32.ofNat doubled else 0xffffffff

def stampStateChange (publisher : GoosePublisher) (reading : UtcTime) : GoosePublisher :=
  if publisher.hasTimestampSource then { publisher with timestamp := reading } else publisher

def following (number : UInt32) : UInt32 := if number + 1 = 0 then 1 else number + 1

def increaseStNum (publisher : GoosePublisher) (reading : UtcTime) : GoosePublisher :=
  stampStateChange
    { publisher with stNum := following publisher.stNum, sqNum := 0, phase := .t1, nextPublishAt := none } reading

def reset (publisher : GoosePublisher) (reading : UtcTime) : GoosePublisher :=
  stampStateChange { publisher with stNum := 1, sqNum := 0, phase := .t1, nextPublishAt := none } reading

def setTimestampSource (publisher : GoosePublisher) (installed : Bool) : GoosePublisher :=
  { publisher with hasTimestampSource := installed }

def setTimestamp (publisher : GoosePublisher) (ts : UtcTime) : GoosePublisher := { publisher with timestamp := ts }

def dueAt (publisher : GoosePublisher) (now : Instant) : Instant := publisher.nextPublishAt.getD now

def pdu (publisher : GoosePublisher) (data : List MmsValue) : GoosePdu where
  gocbRef := publisher.gocbRef
  timeAllowedToLive := publisher.timeAllowedToLiveMs
  datSet := publisher.dataSetRef
  goId := publisher.goId.getD publisher.gocbRef
  t := publisher.timestamp
  stNum := publisher.stNum
  sqNum := publisher.sqNum
  simulation := publisher.simulation
  confRev := publisher.confRev
  ndsCom := publisher.needsCommission
  numDatasetEntries := UInt32.ofNat data.length
  allData := data

/-- The frame and the publisher behind the publication; a publication that fails leaves the
publisher as it was. -/
def publishAt (publisher : GoosePublisher) (data : List MmsValue) (now : Instant) :
    Except GooseError (List UInt8 × GoosePublisher) := do
  let pduBytes ← (publisher.pdu data).encodeBer
  let frameSize := publisher.frameHeaderBytes.length + pduBytes.length
  if gooseMaxFrameSize < frameSize then
    .error .pduOverflow
  else
    let length : UInt16 := if pduBytes.length + 8 < 2 ^ 16 then UInt16.ofNat (pduBytes.length + 8) else 0xffff
    let out := (publisher.frameHeaderBytes.set publisher.lengthFieldOffset (length >>> 8).toUInt8).set
      (publisher.lengthFieldOffset + 1) length.toUInt8
    let interval := publisher.nextInterval
    return (out ++ pduBytes,
      { publisher with
        sqNum := following publisher.sqNum
        phase := publisher.phase.advance
        nextPublishAt := some (now + interval) })

end GoosePublisher

/-- What a caller does with a publisher. A refused call changes nothing. -/
inductive PublisherCall where
  | setEnabled (on : Bool)
  | setDataSetRef (dataSetRef : String)
  | setSimulation (v : Bool)
  | setNeedsCommission (v : Bool)
  | setGoId (id : Option String)
  | setConfRev (v : UInt32)
  | setRetransIntervals (intervals : RetransIntervals)
  | setTimeAllowedToLive (ms : Option UInt32)
  | increaseStNum (reading : UtcTime)
  | reset (reading : UtcTime)
  | setTimestampSource (installed : Bool)
  | setTimestamp (ts : UtcTime)
  | publishAt (data : List MmsValue) (now : Instant)

def GoosePublisher.call (publisher : GoosePublisher) : PublisherCall → GoosePublisher
  | .setEnabled on => publisher.setEnabled on
  | .setDataSetRef dataSetRef =>
    match publisher.setDataSetRef dataSetRef with
    | .ok next => next
    | .error _ => publisher
  | .setSimulation v => publisher.setSimulation v
  | .setNeedsCommission v => publisher.setNeedsCommission v
  | .setGoId id => publisher.setGoId id
  | .setConfRev v => publisher.setConfRev v
  | .setRetransIntervals intervals => publisher.setRetransIntervals intervals
  | .setTimeAllowedToLive ms => publisher.setTimeAllowedToLive ms
  | .increaseStNum reading => publisher.increaseStNum reading
  | .reset reading => publisher.reset reading
  | .setTimestampSource installed => publisher.setTimestampSource installed
  | .setTimestamp ts => publisher.setTimestamp ts
  | .publishAt data now =>
    match publisher.publishAt data now with
    | .ok (_, next) => next
    | .error _ => publisher

def GooseFrameHeader.leading (hdr : GooseFrameHeader) : List UInt8 :=
  hdr.dstMac.toList ++ hdr.srcMac.toList ++ hdr.vlan.elim [] VlanTag.encode ++ bigEndian16 gooseEtherType
    ++ bigEndian16 hdr.appId

theorem GooseFrame.encode_eq (frame : GooseFrame) :
    frame.encode = frame.header.leading ++ (bigEndian16 (UInt16.ofNat (frame.pduBytes.length + gooseHeaderSize))
      ++ (bigEndian16 (reserved1 frame.header.simulation) ++ ([0x00, 0x00] ++ frame.pduBytes))) := by
  simp [encode, GooseFrameHeader.leading]

theorem GooseFrameHeader.leading_length (hdr : GooseFrameHeader) :
    hdr.leading.length = if hdr.vlan.isSome then 20 else 16 := by
  unfold GooseFrameHeader.leading
  cases hdr.vlan <;> simp [VlanTag.encode]

/-- The prebuilt header is that of an empty frame with the current simulation flag, and stNum is
never 0. -/
structure GoosePublisher.Prepared (comm : CommParameters) (publisher : GoosePublisher) : Prop where
  parameters : publisher.comm = comm
  template : publisher.frameHeaderBytes = encode ⟨comm.header 8 publisher.simulation, []⟩
  offset : publisher.lengthFieldOffset = if comm.vlan.isSome then 20 else 16
  started : publisher.stNum ≠ 0

namespace GoosePublisher

theorem modify_behind {α : Type} (front rest : List α) (first second third : α) (change : α → α) :
    (front ++ first :: second :: third :: rest).modify (front.length + 2) change =
      front ++ first :: second :: change third :: rest := by
  induction front with
  | nil => rfl
  | cons head tail ih => exact congrArg (head :: ·) ih

theorem set_behind {α : Type} (front rest : List α) (first second first' second' : α) :
    ((front ++ first :: second :: rest).set front.length first').set (front.length + 1) second' =
      front ++ first' :: second' :: rest := by
  induction front with
  | nil => rfl
  | cons head tail ih => exact congrArg (head :: ·) ih

theorem following_ne_zero (number : UInt32) : following number ≠ 0 := by
  unfold following
  split
  · decide
  · assumption

section

variable {comm : CommParameters} {publisher : GoosePublisher}

theorem prepared_new {gocbRef dataSetRef : String} {goId : Option String} {confRev : UInt32}
    (created : new comm gocbRef goId dataSetRef confRev = .ok publisher) : Prepared comm publisher := by
  unfold new at created
  split at created
  · cases created
  split at created
  · cases created
  cases created
  refine ⟨rfl, rfl, rfl, ?_⟩
  dsimp only
  decide

section

variable (prepared : Prepared comm publisher)

include prepared

theorem Prepared.front (length : UInt16) (simulation : Bool) :
    publisher.lengthFieldOffset = (comm.header length simulation).leading.length := by
  rw [prepared.offset, GooseFrameHeader.leading_length]
  rfl

theorem Prepared.setSimulation (v : Bool) : Prepared comm (publisher.setSimulation v) := by
  refine ⟨prepared.parameters, ?_, prepared.offset, prepared.started⟩
  dsimp only [GoosePublisher.setSimulation]
  rw [prepared.template, encode_eq, encode_eq, prepared.front 8 publisher.simulation]
  dsimp only [bigEndian16, List.cons_append, List.nil_append]
  rw [modify_behind]
  dsimp only [CommParameters.header]
  cases v <;> cases publisher.simulation <;> rfl

theorem Prepared.patched (pduBytes : List UInt8) :
    (publisher.frameHeaderBytes.set publisher.lengthFieldOffset (UInt16.ofNat (pduBytes.length + 8) >>> 8).toUInt8).set
        (publisher.lengthFieldOffset + 1) (UInt16.ofNat (pduBytes.length + 8)).toUInt8 ++ pduBytes =
      encode ⟨comm.header 8 publisher.simulation, pduBytes⟩ := by
  rw [prepared.template, encode_eq, encode_eq, prepared.front 8 publisher.simulation]
  dsimp only [bigEndian16, List.cons_append, List.nil_append]
  rw [set_behind, List.append_assoc]
  rfl

theorem publishAt_eq_ok {data : List MmsValue} {now : Instant} {frame : List UInt8}
    {next : GoosePublisher} (published : publisher.publishAt data now = .ok (frame, next)) :
    ∃ pduBytes, (publisher.pdu data).encodeBer = .ok pduBytes ∧
      frame = encode ⟨comm.header 8 publisher.simulation, pduBytes⟩ ∧ frame.length ≤ gooseMaxFrameSize ∧
      pduBytes.length ≤ frame.length ∧ next = { publisher with
        sqNum := following publisher.sqNum
        phase := publisher.phase.advance
        nextPublishAt := some (now + publisher.nextInterval) } := by
  unfold publishAt at published
  cases encoded : (publisher.pdu data).encodeBer with
  | error error =>
    simp only [encoded] at published
    cases published
  | ok pduBytes =>
    simp only [encoded] at published
    dsimp only [bind, Except.bind] at published
    split at published
    · cases published
    rename_i fits
    have short : pduBytes.length + 8 < 2 ^ 16 := by
      simp only [gooseMaxFrameSize] at fits
      omega
    rw [if_pos short] at published
    cases published
    refine ⟨pduBytes, rfl, prepared.patched pduBytes, ?_, ?_, rfl⟩
    · rw [List.length_append, List.length_set, List.length_set]
      exact Nat.not_lt.mp fits
    · rw [List.length_append]
      exact Nat.le_add_left _ _

theorem Prepared.stampStateChange (reading : UtcTime) : Prepared comm (publisher.stampStateChange reading) := by
  unfold GoosePublisher.stampStateChange
  split
  · exact ⟨prepared.parameters, prepared.template, prepared.offset, prepared.started⟩
  · exact prepared

theorem Prepared.call (operation : PublisherCall) : Prepared comm (publisher.call operation) := by
  cases operation with
  | setSimulation v => exact prepared.setSimulation v
  | setDataSetRef dataSetRef =>
    dsimp only [GoosePublisher.call, setDataSetRef]
    split
    · rename_i changed
      split at changed
      · cases changed
      · cases changed
        exact ⟨prepared.parameters, prepared.template, prepared.offset, prepared.started⟩
    · exact prepared
  | increaseStNum reading =>
    apply Prepared.stampStateChange
    exact ⟨prepared.parameters, prepared.template, prepared.offset, following_ne_zero _⟩
  | reset reading =>
    apply Prepared.stampStateChange
    refine ⟨prepared.parameters, prepared.template, prepared.offset, ?_⟩
    dsimp only
    decide
  | publishAt data now =>
    dsimp only [GoosePublisher.call]
    split
    · rename_i published
      obtain ⟨pduBytes, encoded, sent, bound, _, rfl⟩ := publishAt_eq_ok prepared published
      exact ⟨prepared.parameters, prepared.template, prepared.offset, prepared.started⟩
    · exact prepared
  | _ => exact ⟨prepared.parameters, prepared.template, prepared.offset, prepared.started⟩

theorem Prepared.calls (operations : List PublisherCall) :
    Prepared comm (operations.foldl GoosePublisher.call publisher) := by
  induction operations generalizing publisher with
  | nil => exact prepared
  | cons operation rest ih => exact ih (prepared.call operation)

end

end

end GoosePublisher

/-- The frame says exactly what the publisher had to say: the header read from it is that of the
communication parameters and the simulation flag, and the PDU is the published one. -/
def Delivers (frame : List UInt8) (comm : CommParameters) (pdu : GoosePdu) : Prop :=
  ∃ length pduBytes, decode frame = .ok ⟨comm.header length pdu.simulation, pduBytes⟩ ∧
    GoosePdu.decodeBer pduBytes = .ok pdu

namespace GoosePublisher

/-- The PDU of a frame that was sent is read back exactly if it is readable. -/
theorem Prepared.decodeBer_iff {comm : CommParameters} {publisher : GoosePublisher}
    (prepared : Prepared comm publisher) {data : List MmsValue} (formed : wellFormedAll data = true)
    {now : Instant} {frame : List UInt8} {next : GoosePublisher}
    (published : publisher.publishAt data now = .ok (frame, next)) :
    ∃ pduBytes, frame = encode ⟨comm.header 8 publisher.simulation, pduBytes⟩ ∧
      pduBytes.length ≤ gooseMaxFrameSize ∧
      (GoosePdu.decodeBer pduBytes = .ok (publisher.pdu data) ↔ (publisher.pdu data).Readable) := by
  obtain ⟨pduBytes, encoded, sent, bound, shorter, -⟩ := publishAt_eq_ok prepared published
  have size : pduBytes.length ≤ 1518 := Nat.le_trans shorter bound
  have values : data.length ≤ pduBytes.length := length_le_encodeBer encoded
  have counted : (UInt32.ofNat data.length).toNat = data.length :=
    UInt32.toNat_ofNat_of_lt' (show data.length < 2 ^ 32 by omega)
  exact ⟨pduBytes, sent, size, decodeBer_encodeBer_iff encoded (by omega) formed prepared.started counted⟩

theorem Prepared.delivers_iff {comm : CommParameters} {publisher : GoosePublisher} (prepared : Prepared comm publisher)
    (identifier : ∀ tag ∈ comm.vlan, tag.vlanId ≤ 4095) {data : List MmsValue} (formed : wellFormedAll data = true)
    {now : Instant} {frame : List UInt8} {next : GoosePublisher}
    (published : publisher.publishAt data now = .ok (frame, next)) :
    Delivers frame comm (publisher.pdu data) ↔ (publisher.pdu data).Readable := by
  obtain ⟨pduBytes, sent, size, read⟩ := prepared.decodeBer_iff formed published
  have decoded := decode_encode ⟨comm.header 8 publisher.simulation, pduBytes⟩
    (by simp only [gooseHeaderSize, gooseMaxFrameSize] at size ⊢; omega)
  have tag : comm.vlan.map VlanTag.sent = comm.vlan := by
    cases vlan : comm.vlan with
    | none => rfl
    | some tag => rw [Option.map_some, VlanTag.sent_of_le (identifier tag vlan)]
  dsimp only [CommParameters.header] at decoded
  rw [tag] at decoded
  change decode (encode ⟨comm.header 8 publisher.simulation, pduBytes⟩) = _ at decoded
  rw [← sent] at decoded
  rw [← read]
  constructor
  · rintro ⟨length, bytes, header, body⟩
    rw [decoded] at header
    cases header
    exact body
  · intro body
    exact ⟨_, pduBytes, decoded, body⟩

theorem published_frame_delivers_iff {comm : CommParameters} {gocbRef dataSetRef : String} {goId : Option String}
    {confRev : UInt32} {publisher : GoosePublisher} (created : new comm gocbRef goId dataSetRef confRev = .ok publisher)
    (identifier : ∀ tag ∈ comm.vlan, tag.vlanId ≤ 4095) (calls : List PublisherCall) {data : List MmsValue}
    (formed : wellFormedAll data = true) {now : Instant} {frame : List UInt8} {next : GoosePublisher}
    (published : (calls.foldl call publisher).publishAt data now = .ok (frame, next)) :
    frame.length ≤ gooseMaxFrameSize ∧
      (Delivers frame comm ((calls.foldl call publisher).pdu data) ↔
        ((calls.foldl call publisher).pdu data).Readable) := by
  have prepared := (prepared_new created).calls calls
  obtain ⟨pduBytes, encoded, sent, bound, _⟩ := publishAt_eq_ok prepared published
  exact ⟨bound, prepared.delivers_iff identifier formed published⟩

theorem references_new {comm : CommParameters} {gocbRef dataSetRef : String} {goId : Option String} {confRev : UInt32}
    {publisher : GoosePublisher} (created : new comm gocbRef goId dataSetRef confRev = .ok publisher) :
    publisher.gocbRef = gocbRef ∧ publisher.dataSetRef = dataSetRef ∧ publisher.goId = goId := by
  unfold new at created
  split at created
  · cases created
  split at created
  · cases created
  · cases created
    exact ⟨rfl, rfl, rfl⟩

theorem exists_publication {comm : CommParameters} {gocbRef dataSetRef : String} {data : List MmsValue}
    (done : (do (← new comm gocbRef none dataSetRef 1).publishAt data 0).isOk = true) :
    ∃ publisher frame next, new comm gocbRef none dataSetRef 1 = .ok publisher ∧
      publisher.publishAt data 0 = .ok (frame, next) := by
  cases created : new comm gocbRef none dataSetRef 1 with
  | error error =>
    rw [created] at done
    cases done
  | ok publisher =>
    cases published : publisher.publishAt data 0 with
    | error error =>
      rw [created, show (Except.ok publisher >>= fun made => made.publishAt data 0) =
        publisher.publishAt data 0 from rfl, published] at done
      cases done
    | ok sent => exact ⟨publisher, sent.1, sent.2, rfl, published⟩

def untagged : CommParameters := ⟨0x1000, Vector.replicate 6 0x01, none, none⟩

theorem boolean_delivered : ∃ publisher frame next, new untagged "gcb" none "ds" 1 = .ok publisher ∧
      publisher.publishAt [.boolean true] 0 = .ok (frame, next) ∧ frame.length ≤ gooseMaxFrameSize ∧
      Delivers frame untagged (publisher.pdu [.boolean true]) := by
  obtain ⟨publisher, frame, next, created, published⟩ :=
    @exists_publication untagged "gcb" "ds" [.boolean true] (by decide +kernel)
  obtain ⟨bound, delivered⟩ := published_frame_delivers_iff created (by simp [untagged]) [] rfl published
  refine ⟨publisher, frame, next, created, published, bound, delivered.mpr ?_⟩
  obtain ⟨gocbRef, datSet, goId⟩ := references_new created
  dsimp only [List.foldl_nil, GoosePdu.Readable, pdu]
  rw [gocbRef, datSet, goId]
  decide +kernel

def longReference : String := String.ofList (List.replicate 130 'r')

theorem published_unread : (∃ publisher frame next, new untagged longReference none "ds" 1 = .ok publisher ∧
      publisher.publishAt [] 0 = .ok (frame, next) ∧ ¬ Delivers frame untagged (publisher.pdu [])) ∧
    (∃ publisher frame next, new untagged "gcb" none "ds" 1 = .ok publisher ∧
      publisher.publishAt [.bitString 0 []] 0 = .ok (frame, next) ∧
      ¬ Delivers frame untagged (publisher.pdu [.bitString 0 []])) := by
  constructor
  · obtain ⟨publisher, frame, next, created, published⟩ :=
      @exists_publication untagged longReference "ds" [] (by decide +kernel)
    refine ⟨publisher, frame, next, created, published, ?_⟩
    rw [(prepared_new created).delivers_iff (by simp [untagged]) rfl published]
    rintro ⟨short, _⟩
    dsimp only [pdu] at short
    rw [(references_new created).1] at short
    exact absurd short (by decide +kernel)
  · obtain ⟨publisher, frame, next, created, published⟩ :=
      @exists_publication untagged "gcb" "ds" [.bitString 0 []] (by decide +kernel)
    refine ⟨publisher, frame, next, created, published, ?_⟩
    rw [(prepared_new created).delivers_iff (by simp [untagged]) rfl published]
    rintro ⟨_, _, _, bits⟩
    cases bits

end GoosePublisher

end Iec61850.Goose
