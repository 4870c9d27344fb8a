import Iec61850.Iso.Transfer

/-!
A sender and a receiver over a transport that loses and reorders nothing, and a receiver with any
peer.
-/

namespace Iec61850.Iso

open Concurrency List Wire CotpConnection

namespace Link

variable {link next : Link} {done todo : List Bytes}

def start (size : TpduSize) (limit : Option Nat) (readBuf : Bytes) (packets : List Bytes) : Link where
  unwritten := packets
  inTransit := []
  receiver := Receiver.start size limit readBuf

structure Transfers (link : Link) (done todo : List Bytes) : Prop where
  returned : link.receiver.results = done.map .ok
  carries : ∃ segments, link.receiver.connection.Carries (link.inTransit ++ link.unwritten.flatten) segments todo
  connected : link.receiver.connection.state = .connected
  resting : link.receiver.connection.readState = .idle ∨ link.receiver.connection.Waiting
  waiting : link.receiver.receiving = true → link.receiver.connection.Waiting

variable {rest : Bytes} {turn : Turn CotpConnection (Except CotpError Bytes)}

theorem transfers_of_carried {connection : CotpConnection} {receiver after : Receiver}
    (carried : connection.Carried rest todo turn) (connected : connection.state = .connected)
    (returned : receiver.results = done.map .ok) (settled : receiver.settle turn = some after) :
    ∃ done' todo', done' ++ todo' = done ++ todo ∧
      ∀ unwritten inTransit, inTransit ++ unwritten.flatten = rest →
        Transfers { unwritten, inTransit, receiver := after } done' todo' := by
  cases carried with
  | waits carries waiting same limited =>
    cases settled
    refine ⟨done, todo, rfl, ?_⟩
    intro unwritten inTransit octets
    exact ⟨returned, ⟨_, by rw [octets]; exact carries⟩, same.trans connected, .inr waiting, fun _ => waiting⟩
  | @completes idleConnection segments tsdu others first carries idle same limited =>
    cases settled
    refine ⟨done ++ [tsdu], others, by simp [first], ?_⟩
    intro unwritten inTransit octets
    refine ⟨?_, ⟨_, by rw [octets]; exact carries⟩, same.trans connected, .inl idle, nofun⟩
    simp [returned]

section

variable (transfers : link.Transfers done todo)

include transfers

theorem Transfers.call (stepped : link.step .call = some next) :
    ∃ done' todo', done' ++ todo' = done ++ todo ∧ next.Transfers done' todo' := by
  obtain ⟨segments, carries⟩ := transfers.carries
  simp only [step, Option.map_eq_some_iff, Receiver.step] at stepped
  obtain ⟨after, settled, rfl⟩ := stepped
  split at settled
  · cases settled
  rw [recvData, if_neg (not_not.mpr transfers.connected)] at settled
  obtain ⟨done', todo', same, after⟩ :=
    transfers_of_carried carries.recvDataLoop transfers.connected transfers.returned settled
  exact ⟨done', todo', same, after _ _ rfl⟩

theorem Transfers.read {count : Nat} (stepped : link.step (.read count) = some next) :
    ∃ done' todo', done' ++ todo' = done ++ todo ∧ next.Transfers done' todo' := by
  obtain ⟨segments, carries⟩ := transfers.carries
  simp only [step] at stepped
  split at stepped
  · cases stepped
  simp only [Option.map_eq_some_iff, Receiver.step] at stepped
  obtain ⟨after, settled, rfl⟩ := stepped
  split at settled
  · cases settled
  next room =>
  rw [not_or, not_or, Nat.not_lt] at room
  have state := (link.receiver.connection.received_fields (link.inTransit.take count)).1
  rw [← take_append_drop count link.inTransit, append_assoc] at carries
  obtain ⟨done', todo', same, after⟩ := transfers_of_carried (carries.received room.2.2).recvDataLoop
    (state.trans transfers.connected) transfers.returned settled
  exact ⟨done', todo', same, after _ _ rfl⟩

theorem Transfers.step {event : Event} (stepped : link.step event = some next) :
    ∃ done' todo', done' ++ todo' = done ++ todo ∧ next.Transfers done' todo' := by
  cases event with
  | write =>
    simp only [Link.step] at stepped
    split at stepped
    · cases stepped
    next packet rest unwritten =>
    cases stepped
    refine ⟨done, todo, rfl, transfers.returned, ?_, transfers.connected, transfers.resting, transfers.waiting⟩
    obtain ⟨segments, carries⟩ := transfers.carries
    rw [unwritten, flatten_cons, ← append_assoc] at carries
    exact ⟨segments, carries⟩
  | call => exact transfers.call stepped
  | read count => exact transfers.read stepped
  | drop =>
    simp only [Link.step, Option.map_eq_some_iff, Receiver.step] at stepped
    obtain ⟨after, dropped, rfl⟩ := stepped
    split at dropped
    · cases dropped
      exact ⟨done, todo, rfl, transfers.returned, transfers.carries, transfers.connected, transfers.resting, nofun⟩
    · cases dropped

theorem Transfers.run {events : List Event} (ran : link.run events = some next) :
    ∃ done' todo', done' ++ todo' = done ++ todo ∧ next.Transfers done' todo' := by
  apply Machine.invariant (fun link => ∃ done' todo', done' ++ todo' = done ++ todo ∧ link.Transfers done' todo') _ ran
  · exact ⟨done, todo, rfl, transfers⟩
  · rintro link event next ⟨done', todo', same, transfers⟩ stepped
    obtain ⟨done'', todo'', same', transfers⟩ := transfers.step stepped
    exact ⟨done'', todo'', same'.trans same, transfers⟩

theorem Transfers.finished (unwritten : link.unwritten = []) (inTransit : link.inTransit = []) : todo = [] := by
  obtain ⟨segments, carries⟩ := transfers.carries
  rw [unwritten, inTransit, flatten_nil, append_nil] at carries
  exact carries.finished transfers.resting

end

theorem written (link : Link) : link.run (link.unwritten.map fun _ => .write) =
      some { link with unwritten := [], inTransit := link.inTransit ++ link.unwritten.flatten } := by
  obtain ⟨unwritten, inTransit, receiver⟩ := link
  induction unwritten generalizing inTransit with
  | nil => simp [run, Machine.run]
  | cons packet rest ih => simpa [run, Machine.run, Link.step] using ih (inTransit ++ packet)

theorem settle_of_carried {connection : CotpConnection} (receiver : Receiver)
    (carried : connection.Carried rest todo turn) :
    ∃ after, receiver.settle turn = some after := by
  cases carried with
  | waits carries waiting same limited | completes first carries idle same limited => exact ⟨_, rfl⟩

section

variable (transfers : link.Transfers done todo)

include transfers

theorem Transfers.read_one (receiving : link.receiver.receiving = true) (more : link.inTransit ≠ []) :
    ∃ next, link.step (.read 1) = some next ∧ next.unwritten = link.unwritten ∧
    next.inTransit = link.inTransit.drop 1 := by
  obtain ⟨segments, carries⟩ := transfers.carries
  have room := wanted_pos carries.wellFormed (transfers.waiting receiving)
  obtain ⟨octet, others, inTransit⟩ := exists_cons_of_ne_nil more
  rw [inTransit] at carries
  have carries' : link.receiver.connection.Carries
      ([octet] ++ (others ++ link.unwritten.flatten)) segments todo := carries
  obtain ⟨after, settled⟩ := settle_of_carried link.receiver (carries'.received room).recvDataLoop
  have roomy : ¬link.receiver.connection.wanted < 1 := by omega
  refine ⟨{ link with inTransit := others, receiver := after }, ?_, rfl, by simp [inTransit]⟩
  simp [Link.step, Receiver.step, inTransit, receiving, roomy, settled]

theorem Transfers.call_waits (free : link.receiver.receiving = false) :
    ∃ next, link.step .call = some next ∧ next.receiver.receiving = true ∧ next.unwritten = link.unwritten ∧
      next.inTransit = link.inTransit := by
  obtain ⟨waiting, pending⟩ := recvDataLoop_pending transfers.resting
  simp [Link.step, Receiver.step, free, recvData, transfers.connected, pending, Receiver.settle]

theorem Transfers.take_one (more : link.inTransit ≠ []) :
    ∃ events next, link.run events = some next ∧ next.unwritten = link.unwritten ∧
      next.inTransit = link.inTransit.drop 1 := by
  cases receiving : link.receiver.receiving with
  | true =>
    obtain ⟨next, stepped, unwritten, inTransit⟩ := transfers.read_one receiving more
    exact ⟨[.read 1], next, by simp [Link.run, Machine.run, stepped], unwritten, inTransit⟩
  | false =>
    obtain ⟨called, stepped, receiving, unwritten, inTransit⟩ := transfers.call_waits receiving
    obtain ⟨done', todo', _, transfers⟩ := transfers.step stepped
    obtain ⟨next, read, unwritten', inTransit'⟩ := transfers.read_one receiving (by rw [inTransit]; exact more)
    exact ⟨[.call, .read 1], next, by simp [Link.run, Machine.run, stepped, read], unwritten'.trans unwritten,
      inTransit'.trans (by rw [inTransit])⟩

theorem Transfers.drained (unwritten : link.unwritten = []) :
    ∃ events final, link.run events = some final ∧ final.unwritten = [] ∧ final.inTransit = [] := by
  induction length : link.inTransit.length generalizing link done todo with
  | zero => exact ⟨[], link, rfl, unwritten, eq_nil_of_length_eq_zero length⟩
  | succ count ih =>
    obtain ⟨events, next, ran, same, taken⟩ := transfers.take_one (by intro none; simp [none] at length)
    obtain ⟨done', todo', _, transfers⟩ := transfers.run ran
    have shorter : next.inTransit.length = count := by
      rw [taken, length_drop, length, Nat.add_sub_cancel]
    obtain ⟨later, final, ran', finished⟩ := ih transfers (same.trans unwritten) shorter
    exact ⟨events ++ later, final, by rw [Link.run, Machine.run_append, ← Link.run, ran]; exact ran', finished⟩

theorem Transfers.completes :
    ∃ events final, link.run events = some final ∧ final.unwritten = [] ∧ final.inTransit = [] := by
  have ran := written link
  obtain ⟨done', todo', _, transfers⟩ := transfers.run ran
  obtain ⟨later, final, ran', finished⟩ := transfers.drained rfl
  exact ⟨_ ++ later, final, by rw [Link.run, Machine.run_append, ← Link.run, ran]; exact ran', finished⟩

end

end Link

theorem sendData_all {sender : CotpConnection} (connected : sender.state = .connected) (tsdus : List Bytes) :
    tsdus.mapM sender.sendData = .ok (tsdus.map fun tsdu => (dataTpdus sender.tpduSize tsdu).map writeTpkt) := by
  have sends : sender.sendData = fun tsdu => pure ((dataTpdus sender.tpduSize tsdu).map writeTpkt) := by
    funext tsdu
    rw [sendData, if_neg (not_not.mpr connected)]
    rfl
  rw [sends, mapM_pure]
  rfl

theorem packets_assemble (size : TpduSize) {tsdus : List Bytes} (nonempty : ∀ tsdu ∈ tsdus, tsdu ≠ []) :
    ∃ segments : List Segment,
      (tsdus.map fun tsdu => (dataTpdus size tsdu).map writeTpkt).flatten = segments.map Segment.packet ∧
        (∀ segment ∈ segments, segment.tpdu.length ≤ size.bytes) ∧ Assembles [] segments tsdus := by
  induction tsdus with
  | nil => exact ⟨[], rfl, nofun, .nil⟩
  | cons tsdu rest ih =>
    obtain ⟨others, packets, short, assembles⟩ := ih fun tsdu member => nonempty tsdu (mem_cons_of_mem _ member)
    obtain ⟨segments, tpdus, short', assemble⟩ := dataTpdus_assembles size (nonempty tsdu mem_cons_self)
    refine ⟨segments ++ others, ?_, ?_, assemble assembles⟩
    · rw [map_cons, flatten_cons, packets, tpdus, map_map, map_append]
      rfl
    · intro segment member
      rcases mem_append.mp member with member | member
      · exact short' segment member
      · exact short segment member

namespace CotpConnection

/-- In the loop of `recv_data` the TPDU is read and the reassembly buffer becomes this one, before
it is checked. -/
def Reassembles (connection : CotpConnection) (tpdu buffer : Bytes) : Prop :=
  ∃ current next payload isLast, (current = connection ∨ connection.recvDataTurn = .again current) ∧
    current.readTpkt = .returned next (.ok tpdu) ∧ parseDt tpdu = .ok (payload, isLast) ∧
    buffer = (next.appendPayload payload).payloadBuf

variable {connection current : CotpConnection} {tpdu buffer : Bytes}

theorem idle_of_again (wellFormed : connection.WellFormed) (goesOn : connection.recvDataTurn = .again current) :
    current.readState = .idle := by
  have reading := readTpkt_spec wellFormed
  simp only [recvDataTurn] at goesOn
  split at goesOn
  · cases goesOn
  · next next read =>
    rw [read] at reading
    cases reading
  · cases goesOn
  · next next raw read =>
    rw [read] at reading
    cases reading with
    | reads whole length short =>
      split at goesOn
      · cases goesOn
      simp only [checkReassembly] at goesOn
      split at goesOn
      · cases goesOn
      · split at goesOn <;> cases goesOn
        rfl

theorem Reassembles.grown (wellFormed : connection.WellFormed) (reassembles : connection.Reassembles tpdu buffer) :
    buffer.length ≤ connection.payloadBuf.length + tpdu.length ∧ tpdu.length ≤ 8192 ∧
      ∀ limit ∈ connection.maxTsduSize, limit < buffer.length →
        connection.recvDataLoop = .returned { connection with readState := .idle, payloadBuf := [], state := .closed }
          (.error (.tsduTooLarge buffer.length limit)) := by
  obtain ⟨current, next, payload, isLast, rfl | goesOn, read, parsed, rfl⟩ := reassembles
  · have reading := readTpkt_spec wellFormed
    rw [read] at reading
    cases reading with
    | reads whole length short =>
      have longer := length_of_parseDt parsed
      refine ⟨?_, short, ?_⟩
      · simp only [appendPayload, length_append]
        omega
      · intro limit limited exceeds
        have turn : current.recvDataTurn =
            ({ current with readState := .idle }.appendPayload payload).checkReassembly isLast := by
          simp only [recvDataTurn, read, parsed]
        have exceeded : ({ current with readState := .idle }.appendPayload payload).exceeded = some limit :=
          exceeded_eq_some.mpr ⟨limited, exceeds⟩
        simp only [checkReassembly, exceeded] at turn
        rw [recvDataLoop, Turn.loop_returned turn]
        rfl
  · rw [readTpkt_of_idle (idle_of_again wellFormed goesOn)] at read
    cases read

end CotpConnection

namespace Receiver

variable {receiver next : Receiver} {limit : Option Nat}

def resumed (receiver : Receiver) : Input → Option CotpConnection
  | .call => if receiver.connection.state = .connected then some receiver.connection else none
  | .read bytes => some (receiver.connection.received bytes)
  | .eof => none
  | .failure => none
  | .drop => none

structure Sound (receiver : Receiver) (limit : Option Nat) : Prop where
  wellFormed : receiver.connection.WellFormed
  limited : receiver.connection.maxTsduSize = limit
  bounded : ∀ most ∈ limit, receiver.connection.payloadBuf.length ≤ most
  closed : receiver.connection.state = .closed → receiver.receiving = false

theorem sound_start (size : TpduSize) (limit : Option Nat) (readBuf : Bytes) : (start size limit readBuf).Sound limit :=
  ⟨trivial, rfl, fun _ _ => Nat.zero_le _, nofun⟩

variable {input : Input} {connection : CotpConnection}

theorem Sound.resumes (sound : receiver.Sound limit) (stepped : receiver.step input = some next)
    (resumed : receiver.resumed input = some connection) :
    connection.WellFormed ∧ connection.payloadBuf = receiver.connection.payloadBuf ∧
      connection.maxTsduSize = limit ∧ connection.state ≠ .closed ∧
      receiver.settle connection.recvDataLoop = some next := by
  cases input with
  | call =>
    simp only [Receiver.resumed] at resumed
    split at resumed
    · next connected =>
      cases resumed
      simp only [step, recvData, connected, ne_eq, not_true_eq_false, if_false] at stepped
      split at stepped
      · cases stepped
      · exact ⟨sound.wellFormed, rfl, sound.limited, by simp [connected], stepped⟩
    · cases resumed
  | read bytes =>
    cases resumed
    simp only [step] at stepped
    split at stepped
    · cases stepped
    next room =>
    rw [not_or, not_or, Nat.not_lt] at room
    obtain ⟨state, payloadBuf, limited⟩ := receiver.connection.received_fields bytes
    obtain ⟨_, wellFormed⟩ := held_received sound.wellFormed room.2.2
    refine ⟨wellFormed, payloadBuf, limited.trans sound.limited, ?_, stepped⟩
    intro closed
    exact room.1 (sound.closed (state.symm.trans closed))
  | eof | failure | drop => cases resumed

theorem step_of_not_resumed (stepped : receiver.step input = some next) (ended : receiver.resumed input = none) :
    next.connection = receiver.connection ∧ next.receiving = false := by
  cases input with
  | call =>
    simp only [resumed] at ended
    split at ended
    · cases ended
    next unconnected =>
    simp only [step, recvData, if_pos unconnected, settle] at stepped
    split at stepped
    · cases stepped
    · cases stepped
      exact ⟨rfl, rfl⟩
  | read bytes => cases ended
  | eof | failure | drop =>
    simp only [step] at stepped
    split at stepped <;> cases stepped
    exact ⟨rfl, rfl⟩

theorem Sound.step (sound : receiver.Sound limit) (stepped : receiver.step input = some next) : next.Sound limit := by
  cases resumed : receiver.resumed input with
  | none =>
    obtain ⟨same, free⟩ := step_of_not_resumed stepped resumed
    exact ⟨by rw [same]; exact sound.wellFormed, by rw [same]; exact sound.limited,
      by rw [same]; exact sound.bounded, fun _ => free⟩
  | some connection =>
    obtain ⟨wellFormed, payloadBuf, limited, isOpen, settled⟩ := sound.resumes stepped resumed
    have receives := recvDataLoop_spec wellFormed
    generalize connection.recvDataLoop = turn at receives settled
    have bounded := sound.bounded
    rw [← payloadBuf] at bounded
    cases receives with
    | waits same wellFormed waiting =>
      cases settled
      exact ⟨wellFormed, limited, bounded, fun closed => absurd closed isOpen⟩
    | refuses four refused wellFormed =>
      cases settled
      exact ⟨wellFormed, limited, bounded, fun _ => rfl⟩
    | unparsable whole length unparsable =>
      cases settled
      exact ⟨trivial, limited, bounded, fun _ => rfl⟩
    | tooLarge whole length parsed limited' exceeds | completes whole length parsed within =>
      cases settled
      exact ⟨trivial, limited, fun _ _ => Nat.zero_le _, fun _ => rfl⟩
    | continues whole length parsed within =>
      cases settled
      rw [limited] at within
      exact ⟨⟨rfl, Nat.zero_le _⟩, limited, within, fun closed => absurd closed isOpen⟩

theorem Sound.run (sound : receiver.Sound limit) {inputs : List Input} (ran : receiver.run inputs = some next) :
    next.Sound limit :=
  Machine.invariant (Sound · limit) (fun sound stepped => sound.step stepped) ran sound

/-- The reassembly buffer of a receiver in this state, whatever comes next: it holds no more than
the limit, grows past it by no more than one TPDU, and then the connection is closed and nothing is
read from it any more. -/
structure Confined (receiver : Receiver) (limit : Nat) : Prop where
  bounded : receiver.connection.payloadBuf.length ≤ limit
  grows : ∀ {input next connection tpdu buffer}, receiver.step input = some next →
    receiver.resumed input = some connection → connection.Reassembles tpdu buffer →
    buffer.length ≤ limit + tpdu.length ∧ tpdu.length ≤ 8192 ∧
      (limit < buffer.length → next.connection.state = .closed ∧ next.connection.payloadBuf = [] ∧
        next.results = receiver.results ++ [.error (.tsduTooLarge buffer.length limit)])
  closed : receiver.connection.state = .closed →
    receiver.receiving = false ∧ ∀ {input next}, receiver.step input = some next → next.connection = receiver.connection

theorem Sound.confined {most : Nat} (sound : receiver.Sound (some most)) : receiver.Confined most := by
  refine ⟨sound.bounded most rfl, ?_, ?_⟩
  · intro input next connection tpdu buffer stepped resumed reassembles
    obtain ⟨wellFormed, payloadBuf, limited, isOpen, settled⟩ := sound.resumes stepped resumed
    obtain ⟨grown, short, closes⟩ := reassembles.grown wellFormed
    have bounded := sound.bounded most rfl
    rw [payloadBuf] at grown
    refine ⟨by omega, short, ?_⟩
    intro exceeds
    rw [closes most limited exceeds] at settled
    cases settled
    exact ⟨rfl, rfl, rfl⟩
  · intro closed
    have free := sound.closed closed
    refine ⟨free, ?_⟩
    intro input next stepped
    cases resumed : receiver.resumed input with
    | none => exact (step_of_not_resumed stepped resumed).1
    | some connection =>
      -- only a call comes without a pending receive, and the connection is not open to it
      cases input with
      | call => simp [Receiver.resumed, closed] at resumed
      | read bytes => simp [Receiver.step, free] at stepped
      | eof | failure | drop => cases resumed

end Receiver

/-- Data transfer is exact, and a receiver confines any peer. -/
theorem cotp_transfers_exactly (sender : CotpConnection) (connected : sender.state = .connected) (limit : Option Nat)
    (readBuf : Bytes) (tsdus : List Bytes) (nonempty : ∀ tsdu ∈ tsdus, tsdu ≠ [])
    (within : ∀ most ∈ limit, ∀ tsdu ∈ tsdus, tsdu.length ≤ most) :
    (∃ packets, tsdus.mapM sender.sendData = .ok packets ∧
      (∀ packet ∈ packets.flatten, ∃ tpdu, packet = writeTpkt tpdu ∧ tpdu.length ≤ sender.tpduSize.bytes) ∧
      ∀ events link, (Link.start sender.tpduSize limit readBuf packets.flatten).run events = some link →
        link.receiver.results <+: tsdus.map .ok ∧
        (link.unwritten = [] → link.inTransit = [] → link.receiver.results = tsdus.map .ok) ∧
        ∃ later final, link.run later = some final ∧ final.receiver.results = tsdus.map .ok) ∧
    ∀ most ∈ limit, ∀ inputs receiver,
      (Receiver.start sender.tpduSize limit readBuf).run inputs = some receiver → receiver.Confined most := by
  obtain ⟨segments, packets, short, assembles⟩ := packets_assemble sender.tpduSize nonempty
  have started : (Link.start sender.tpduSize limit readBuf (segments.map Segment.packet)).Transfers [] tsdus :=
    ⟨rfl, ⟨segments, trivial, rfl, assembles, within⟩, rfl, .inl rfl, nofun⟩
  refine ⟨⟨_, sendData_all connected tsdus, ?_, ?_⟩, ?_⟩
  · rw [packets]
    intro packet member
    obtain ⟨segment, among, rfl⟩ := mem_map.mp member
    exact ⟨segment.tpdu, rfl, short segment among⟩
  · rw [packets]
    intro events link ran
    obtain ⟨done, todo, all, transfers⟩ := started.run ran
    rw [nil_append] at all
    refine ⟨?_, ?_, ?_⟩
    · rw [transfers.returned, ← all, map_append]
      exact prefix_append _ _
    · intro unwritten inTransit
      rw [transfers.returned, ← all, transfers.finished unwritten inTransit, append_nil]
    · obtain ⟨later, final, ran', unwritten, inTransit⟩ := transfers.completes
      obtain ⟨done', todo', all', transfers'⟩ := transfers.run ran'
      refine ⟨later, final, ran', ?_⟩
      rw [transfers'.returned, ← all, ← all', transfers'.finished unwritten inTransit, append_nil]
  · intro most limited inputs receiver ran
    have sound := (Receiver.sound_start sender.tpduSize limit readBuf).run ran
    rw [Option.mem_def.mp limited] at sound
    exact sound.confined

def smallestSender : CotpConnection where
  state := .connected
  tpduSize := { encoded := 7, legal := by decide }
  readBuf := []
  payloadBuf := []
  readState := .idle
  maxTsduSize := none

theorem cotp_transfers_two_tsdus : ∃ packets, [[1, 2, 3], [4]].mapM smallestSender.sendData = .ok packets ∧
      ∃ events final, (Link.start smallestSender.tpduSize (some 3) [] packets.flatten).run events = some final ∧
        final.receiver.results = [.ok [1, 2, 3], .ok [4]] := by
  obtain ⟨⟨packets, sent, _, delivers⟩, _⟩ :=
    cotp_transfers_exactly smallestSender rfl (some 3) [] [[1, 2, 3], [4]] (by decide) (by simp)
  obtain ⟨_, _, later, final, ran, results⟩ := delivers [] _ rfl
  exact ⟨packets, sent, later, final, ran, results⟩

end Iec61850.Iso
