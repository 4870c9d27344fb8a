import Iec61850.Iso.Cotp

/-!
What a receive makes of the octets that its connection holds, for any octets and for those of a
sender.
-/

namespace Iec61850.Iso

open Concurrency List Wire TpktHeader

namespace TpktHeader

theorem toNat_packetLen_new {totalLen : Nat} (fits : totalLen < 2 ^ 16) :
    (new totalLen).packetLen.toNat = totalLen := by
  rw [new, UInt16.toNat_ofNat', Nat.mod_eq_of_lt fits]

theorem length_encode (header : TpktHeader) : header.encode.length = 4 := rfl

private theorem ofBytes_packetLen (packetLen : UInt16) :
    ofBytes [(packetLen >>> 8).toUInt8, packetLen.toUInt8] = packetLen.toNat := by
  have bound := packetLen.toNat_lt
  simp only [ofBytes_cons, ofBytes_nil, length_cons, length_nil, UInt16.toNat_toUInt8, UInt16.toNat_shiftRight,
    UInt16.reduceToNat, Nat.shiftRight_eq_div_pow, Nat.reduceMod, Nat.reducePow, Nat.reduceAdd]
  omega

theorem decode_encode {header : TpktHeader} (long : 4 < header.packetLen.toNat) :
    decode header.encode = .ok header := by
  have longer : ¬header.packetLen ≤ 4 := by
    rw [UInt16.le_iff_toNat_le, show (4 : UInt16).toNat = 4 from rfl]
    omega
  simp [decode, encode, ofBytes_packetLen, if_neg longer]

theorem encode_inj {header other : TpktHeader} (same : header.encode = other.encode) : header = other := by
  have lengths := congrArg (fun octets => ofBytes (octets.drop 2)) same
  have numbers : header.packetLen.toNat = other.packetLen.toNat := by
    rw [← ofBytes_packetLen, ← ofBytes_packetLen]
    exact lengths
  cases header
  exact congrArg _ (UInt16.toNat_inj.mp numbers)

theorem encode_of_decode {buf : Bytes} {header : TpktHeader} (four : buf.length = 4)
    (decoded : decode buf = .ok header) :
    header.encode = buf ∧ 4 < header.packetLen.toNat := by
  match buf, four with
  | [version, reserved, high, low], _ =>
    simp only [decode, getD_cons_zero, getD_cons_succ] at decoded
    split at decoded
    · cases decoded
    next magic =>
    rw [not_or, not_not, not_not] at magic
    split at decoded
    · cases decoded
    next longer =>
    cases decoded
    refine ⟨?_, Nat.lt_of_not_le longer⟩
    have number : ofBytes [high, low] = high.toNat * 256 + low.toNat := by simp [ofBytes_cons]
    have lowOctet := low.toNat_lt
    have highBack : (UInt16.ofNat (ofBytes [high, low]) >>> 8).toUInt8 = high := by
      apply UInt8.toNat_inj.mp
      simp only [number, UInt16.toNat_toUInt8, UInt16.toNat_shiftRight, UInt16.toNat_ofNat', UInt16.reduceToNat,
        Nat.shiftRight_eq_div_pow, Nat.reduceMod, Nat.reducePow]
      have highOctet := high.toNat_lt
      omega
    have lowBack : (UInt16.ofNat (ofBytes [high, low])).toUInt8 = low := by
      apply UInt8.toNat_inj.mp
      simp only [number, UInt16.toNat_toUInt8, UInt16.toNat_ofNat', Nat.reducePow]
      omega
    rw [encode, highBack, lowBack, magic.1, magic.2]

end TpktHeader

theorem TpduSize.bytes_bounds (size : TpduSize) : 128 ≤ size.bytes ∧ size.bytes ≤ 8192 := by
  rw [bytes, Nat.one_shiftLeft]
  have two : 0 < 2 := by decide
  exact ⟨Nat.pow_le_pow_right two size.legal.1, Nat.pow_le_pow_right two size.legal.2⟩

@[simp] theorem length_encodeDt (payload : Bytes) (isLast : Bool) :
    (encodeDt payload isLast).length = payload.length + 3 := by
  simp only [encodeDt, length_append, length_cons, length_nil]
  omega

variable {payload : Bytes} {isLast : Bool} {reassembled : Bytes}

theorem parseDt_encodeDt (nonempty : payload ≠ []) (isLast : Bool) :
    parseDt (encodeDt payload isLast) = .ok (payload, isLast) := by
  cases payload with
  | nil => exact absurd rfl nonempty
  | cons byte rest => cases isLast <;> rfl

theorem length_of_parseDt {buf : Bytes} (parsed : parseDt buf = .ok (payload, isLast)) :
    buf.length = payload.length + 3 := by
  simp only [parseDt] at parsed
  split at parsed
  · cases parsed
  split at parsed
  · cases parsed
  split at parsed
  · cases parsed
  split at parsed
  · cases parsed
  split at parsed
  · cases parsed
  split at parsed
  · cases parsed
  · cases parsed
    rfl

abbrev Segment := Bytes × Bool

namespace Segment

variable (segment : Segment)

def tpdu : Bytes := encodeDt segment.1 segment.2

def Legal : Prop := segment.1 ≠ [] ∧ segment.1.length + 3 ≤ 8192

def packet : Bytes := writeTpkt segment.tpdu

def header : TpktHeader := new (tpktHeaderLen + segment.tpdu.length)

theorem packet_eq : segment.packet = segment.header.encode ++ segment.tpdu := rfl

theorem Legal.packetLen {segment : Segment} (legal : segment.Legal) :
    segment.header.packetLen.toNat = segment.tpdu.length + 4 ∧ 4 < segment.header.packetLen.toNat ∧
      segment.header.packetLen.toNat ≤ cotpMaxBufferSize := by
  have bound := legal.2
  have length : segment.tpdu.length = segment.1.length + 3 := length_encodeDt _ _
  rw [header, toNat_packetLen_new (by rw [tpktHeaderLen]; omega), cotpMaxBufferSize, tpktHeaderLen]
  omega

theorem Legal.cotpLen {segment : Segment} (legal : segment.Legal) : segment.header.cotpLen = segment.tpdu.length := by
  rw [TpktHeader.cotpLen, legal.packetLen.1, tpktHeaderLen]
  omega

end Segment

/-- The segments complete these TSDUs, the first of them from what is reassembled already. -/
inductive Assembles : Bytes → List Segment → List Bytes → Prop
  | nil : Assembles [] [] []
  | last {reassembled payload : Bytes} {rest : List Segment} {tsdus : List Bytes} (legal : Segment.Legal (payload, true))
      (others : Assembles [] rest tsdus) :
      Assembles reassembled ((payload, true) :: rest) ((reassembled ++ payload) :: tsdus)
  | more {reassembled payload : Bytes} {rest : List Segment} {tsdus : List Bytes} (legal : Segment.Legal (payload, false))
      (others : Assembles (reassembled ++ payload) rest tsdus) :
      Assembles reassembled ((payload, false) :: rest) tsdus

theorem Assembles.length_le {segments : List Segment} {tsdus : List Bytes}
    (assembles : Assembles reassembled segments tsdus) (begun : reassembled ≠ []) :
    ∃ tsdu ∈ tsdus, reassembled.length ≤ tsdu.length := by
  induction assembles with
  | nil => exact absurd rfl begun
  | last legal others ih =>
    refine ⟨_, mem_cons_self, ?_⟩
    rw [length_append]
    omega
  | more legal others ih =>
    obtain ⟨tsdu, member, bound⟩ := ih (append_ne_nil_of_left_ne_nil begun _)
    rw [length_append] at bound
    exact ⟨tsdu, member, by omega⟩

theorem Assembles.of_last {rest : List Segment} {tsdus : List Bytes}
    (assembles : Assembles reassembled ((payload, true) :: rest) tsdus) :
    ∃ others, tsdus = (reassembled ++ payload) :: others ∧ Assembles [] rest others := by
  cases assembles with
  | last legal others => exact ⟨_, rfl, others⟩

theorem Assembles.of_more {rest : List Segment} {tsdus : List Bytes}
    (assembles : Assembles reassembled ((payload, false) :: rest) tsdus) :
    Assembles (reassembled ++ payload) rest tsdus := by
  cases assembles with
  | more legal others => exact others

theorem Assembles.legal {segment : Segment} {rest : List Segment} {tsdus : List Bytes}
    (assembles : Assembles reassembled (segment :: rest) tsdus) : segment.Legal := by
  cases assembles with
  | last legal others | more legal others => exact legal

theorem Assembles.of_nil {tsdus : List Bytes} (assembles : Assembles reassembled [] tsdus) : tsdus = [] := by
  cases assembles
  rfl

theorem Assembles.grown_le {rest : List Segment} {tsdus : List Bytes}
    (assembles : Assembles reassembled ((payload, isLast) :: rest) tsdus) :
    ∃ tsdu ∈ tsdus, (reassembled ++ payload).length ≤ tsdu.length := by
  cases assembles with
  | last legal others => exact ⟨_, mem_cons_self, Nat.le_refl _⟩
  | more legal others => exact others.length_le (append_ne_nil_of_right_ne_nil _ legal.1)

theorem Assembles.front {pieces : List Bytes} {rest : List Segment} {tsdus : List Bytes}
    (legal : ∀ piece ∈ pieces, Segment.Legal (piece, false))
    (others : Assembles (reassembled ++ pieces.flatten) rest tsdus) :
    Assembles reassembled (pieces.map (·, false) ++ rest) tsdus := by
  induction pieces generalizing reassembled with
  | nil => simpa using others
  | cons piece pieces ih =>
    refine .more (legal piece mem_cons_self) (ih (fun piece member => legal piece (mem_cons_of_mem _ member)) ?_)
    simpa using others

theorem maxPayload_pos (size : TpduSize) : 0 < size.bytes - cotpDataHeaderSize := by
  have bounds := size.bytes_bounds
  rw [cotpDataHeaderSize]
  omega

theorem dataTpdus_assembles (size : TpduSize) {tsdu : Bytes} (nonempty : tsdu ≠ []) :
    ∃ segments : List Segment, dataTpdus size tsdu = segments.map Segment.tpdu ∧
      (∀ segment ∈ segments, segment.tpdu.length ≤ size.bytes) ∧
      ∀ {rest tsdus}, Assembles [] rest tsdus → Assembles [] (segments ++ rest) (tsdu :: tsdus) := by
  have positive := maxPayload_pos size
  have bounds := size.bytes_bounds
  obtain ⟨front, last, cut⟩ : ∃ front last, chunks (size.bytes - cotpDataHeaderSize) tsdu = front ++ [last] := by
    obtain ⟨front, last, cut⟩ := eq_nil_or_concat (chunks (size.bytes - cotpDataHeaderSize) tsdu) |>.resolve_left
      (chunks_ne_nil positive nonempty)
    exact ⟨front, last, by rw [cut, concat_eq_append]⟩
  have whole := flatten_chunks positive tsdu
  have short (piece : Bytes) (member : piece ∈ front ++ [last]) : piece ≠ [] ∧ piece.length + 3 ≤ size.bytes := by
    rw [← cut] at member
    obtain ⟨filled, bound⟩ := mem_chunks positive member
    rw [cotpDataHeaderSize] at bound
    exact ⟨filled, by omega⟩
  have legal (piece : Bytes) (isLast : Bool) (member : piece ∈ front ++ [last]) : Segment.Legal (piece, isLast) := by
    obtain ⟨filled, bound⟩ := short piece member
    exact ⟨filled, by simp only; omega⟩
  refine ⟨front.map (·, false) ++ [(last, true)], ?_, ?_, ?_⟩
  · rw [dataTpdus, cut, map_zipIdx_last]
    simp [Segment.tpdu]
  · intro segment member
    have piece : segment.1 ∈ front ++ [last] := by
      simp only [mem_append, mem_map, mem_singleton] at member ⊢
      rcases member with ⟨piece, member, rfl⟩ | rfl
      · exact .inl member
      · exact .inr rfl
    exact (short segment.1 piece).2
  · intro rest tsdus others
    rw [append_assoc]
    apply Assembles.front fun piece member => legal piece false (mem_append_left _ member)
    rw [cut, flatten_append, flatten_singleton] at whole
    rw [← whole]
    exact .last (legal last true (by simp)) others

namespace CotpConnection

variable (connection : CotpConnection)

def held : Bytes :=
  match connection.readState with
  | .idle => []
  | .readingHeader got buf => buf.take got
  | .readingBody header got => header.encode ++ connection.readBuf.take got

def WellFormed : Prop :=
  match connection.readState with
  | .idle => True
  | .readingHeader got buf => buf.length = 4 ∧ got ≤ 4
  | .readingBody header got =>
    connection.readBuf.length = header.cotpLen ∧ got ≤ header.cotpLen ∧ 0 < header.cotpLen ∧ header.cotpLen ≤ 8192

def Waiting : Prop :=
  match connection.readState with
  | .idle => False
  | .readingHeader got _ => got < 4
  | .readingBody header got => got < header.cotpLen

inductive ReadsTpkt : Turn CotpConnection (Except CotpError Bytes) → Prop
  | waits {readBuf : Bytes} {readState : ReadState}
      (same : { connection with readBuf, readState }.held = connection.held)
      (wellFormed : { connection with readBuf, readState }.WellFormed)
      (waiting : { connection with readBuf, readState }.Waiting) :
      ReadsTpkt (.pending { connection with readBuf, readState })
  | refuses {readState : ReadState} {error : CotpError} (four : connection.held.length = 4)
      (refused : ∀ header, decode connection.held = .ok header → cotpMaxBufferSize < header.packetLen.toNat)
      (wellFormed : { connection with readState }.WellFormed) :
      ReadsTpkt (.returned { connection with readState } (.error error))
  | reads {header : TpktHeader} {raw : Bytes} (whole : connection.held = header.encode ++ raw)
      (length : raw.length = header.cotpLen) (short : raw.length ≤ 8192) :
      ReadsTpkt (.returned { connection with readState := .idle } (.ok raw))

variable {connection}

theorem readTpkt_of_idle (idle : connection.readState = .idle) :
    connection.readTpkt = .pending { connection with readState := .readingHeader 0 [0, 0, 0, 0] } := by
  simp [readTpkt, Turn.loop, readTpktTurn, idle]

theorem readTpkt_of_waiting (wellFormed : connection.WellFormed) (waiting : connection.Waiting) :
    connection.ReadsTpkt connection.readTpkt := by
  have waits : connection.readTpktTurn = .pending connection := by
    unfold Waiting at waiting
    split at waiting
    · cases waiting
    · next reading => simp [readTpktTurn, reading, waiting]
    · next reading => simp [readTpktTurn, reading, waiting]
  rw [readTpkt, Turn.loop_pending waits]
  exact .waits rfl wellFormed waiting

variable {got : Nat} {header : TpktHeader} {raw bytes : Bytes}

theorem readTpkt_of_header {buf : Bytes} (wellFormed : connection.WellFormed)
    (reading : connection.readState = .readingHeader got buf) : connection.ReadsTpkt connection.readTpkt := by
  have ⟨length, most⟩ : buf.length = 4 ∧ got ≤ 4 := by simpa only [WellFormed, reading] using wellFormed
  by_cases partly : got < 4
  · exact readTpkt_of_waiting wellFormed (by simpa only [Waiting, reading] using partly)
  · have whole : connection.held = buf := by
      rw [held, reading]
      exact take_of_length_le (by omega)
    have four : connection.held.length = 4 := by rw [whole, length]
    cases decoded : decode buf with
    | error error =>
      have returns : connection.readTpktTurn = .returned connection (.error error) := by
        simp [readTpktTurn, reading, partly, decoded]
      rw [readTpkt, Turn.loop_returned returns]
      refine .refuses four ?_ wellFormed
      intro header decoded'
      rw [whole, decoded] at decoded'
      cases decoded'
    | ok header =>
      obtain ⟨encoded, long⟩ := encode_of_decode length decoded
      by_cases overflow : cotpMaxBufferSize < header.packetLen.toNat
      · have returns : connection.readTpktTurn = .returned { connection with readState := .idle }
            (.error (.tpktLengthOverflow header.packetLen cotpMaxBufferSize)) := by
          simp [readTpktTurn, reading, partly, decoded, overflow]
        rw [readTpkt, Turn.loop_returned returns]
        refine .refuses four ?_ trivial
        intro header' decoded'
        rw [whole, decoded] at decoded'
        cases decoded'
        exact overflow
      · have goesOn : connection.readTpktTurn = .again { connection with
            readBuf := resize connection.readBuf header.cotpLen 0, readState := .readingBody header 0 } := by
          simp [readTpktTurn, reading, partly, decoded, overflow]
        have bounds : 0 < header.cotpLen ∧ header.cotpLen ≤ 8192 := by
          rw [cotpMaxBufferSize, tpktHeaderLen] at overflow
          rw [cotpLen, tpktHeaderLen]
          omega
        have waits : ∀ next : CotpConnection, next.readState = .readingBody header 0 →
            next.readTpktTurn = .pending next := by
          intro next body
          simp [readTpktTurn, body, bounds.1]
        rw [readTpkt, Turn.loop_again goesOn, Turn.loop_pending (waits _ rfl)]
        apply ReadsTpkt.waits
        · rw [whole, ← encoded]
          simp [held]
        · exact ⟨length_resize _ _ _, Nat.zero_le _, bounds⟩
        · exact bounds.1

theorem readTpkt_of_body (wellFormed : connection.WellFormed)
    (reading : connection.readState = .readingBody header got) : connection.ReadsTpkt connection.readTpkt := by
  have ⟨length, most, _, short⟩ : connection.readBuf.length = header.cotpLen ∧ got ≤ header.cotpLen ∧
      0 < header.cotpLen ∧ header.cotpLen ≤ 8192 := by
    simpa only [WellFormed, reading] using wellFormed
  by_cases partly : got < header.cotpLen
  · exact readTpkt_of_waiting wellFormed (by simpa only [Waiting, reading] using partly)
  · have returns : connection.readTpktTurn = .returned { connection with readState := .idle }
        (.ok (connection.readBuf.take header.cotpLen)) := by
      simp [readTpktTurn, reading, partly]
    have all : got = header.cotpLen := by omega
    have raw : (connection.readBuf.take header.cotpLen).length = header.cotpLen := by
      rw [length_take, length, Nat.min_self]
    rw [readTpkt, Turn.loop_returned returns]
    exact .reads (by rw [held, reading, all]) raw (by omega)

theorem readTpkt_spec (wellFormed : connection.WellFormed) : connection.ReadsTpkt connection.readTpkt := by
  cases reading : connection.readState with
  | idle =>
    rw [readTpkt_of_idle reading]
    exact .waits (by simp [held, reading]) (by simp [WellFormed]) (by simp [Waiting])
  | readingHeader got buf => exact readTpkt_of_header wellFormed reading
  | readingBody header got => exact readTpkt_of_body wellFormed reading

variable (connection) in
inductive Receives : Turn CotpConnection (Except CotpError Bytes) → Prop
  | waits {readBuf : Bytes} {readState : ReadState}
      (same : { connection with readBuf, readState }.held = connection.held)
      (wellFormed : { connection with readBuf, readState }.WellFormed)
      (waiting : { connection with readBuf, readState }.Waiting) :
      Receives (.pending { connection with readBuf, readState })
  | refuses {readState : ReadState} {error : CotpError} (four : connection.held.length = 4)
      (refused : ∀ header, decode connection.held = .ok header → cotpMaxBufferSize < header.packetLen.toNat)
      (wellFormed : { connection with readState }.WellFormed) :
      Receives (.returned { connection with readState } (.error error))
  | unparsable {header : TpktHeader} {raw : Bytes} {error : CotpError} (whole : connection.held = header.encode ++ raw)
      (length : raw.length = header.cotpLen) (unparsable : parseDt raw = .error error) :
      Receives (.returned { connection with readState := .idle } (.error error))
  | tooLarge {header : TpktHeader} {raw payload : Bytes} {isLast : Bool} {limit : Nat}
      (whole : connection.held = header.encode ++ raw) (length : raw.length = header.cotpLen)
      (parsed : parseDt raw = .ok (payload, isLast)) (limited : connection.maxTsduSize = some limit)
      (exceeds : limit < (connection.payloadBuf ++ payload).length) :
      Receives (.returned { connection with readState := .idle, payloadBuf := [], state := .closed }
        (.error (.tsduTooLarge (connection.payloadBuf ++ payload).length limit)))
  | completes {header : TpktHeader} {raw payload : Bytes} (whole : connection.held = header.encode ++ raw)
      (length : raw.length = header.cotpLen) (parsed : parseDt raw = .ok (payload, true))
      (within : ∀ limit ∈ connection.maxTsduSize, (connection.payloadBuf ++ payload).length ≤ limit) :
      Receives (.returned { connection with readState := .idle, payloadBuf := [] }
        (.ok (connection.payloadBuf ++ payload)))
  | continues {header : TpktHeader} {raw payload : Bytes} (whole : connection.held = header.encode ++ raw)
      (length : raw.length = header.cotpLen) (parsed : parseDt raw = .ok (payload, false))
      (within : ∀ limit ∈ connection.maxTsduSize, (connection.payloadBuf ++ payload).length ≤ limit) :
      Receives (.pending { connection with
        payloadBuf := connection.payloadBuf ++ payload, readState := .readingHeader 0 [0, 0, 0, 0] })

theorem recvDataTurn_of_idle (idle : connection.readState = .idle) :
    connection.recvDataTurn = .pending { connection with readState := .readingHeader 0 [0, 0, 0, 0] } := by
  simp only [recvDataTurn, readTpkt_of_idle idle]

theorem exceeded_eq_some {limit : Nat} :
    connection.exceeded = some limit ↔ connection.maxTsduSize = some limit ∧ limit < connection.payloadBuf.length := by
  rw [exceeded, Option.filter_eq_some_iff, decide_eq_true_iff]

theorem recvDataLoop_of_segment {payload : Bytes} {isLast : Bool} (whole : connection.held = header.encode ++ raw)
    (length : raw.length = header.cotpLen) (parsed : parseDt raw = .ok (payload, isLast))
    (turn : connection.recvDataTurn = ({ connection with readState := .idle }.appendPayload payload).checkReassembly
      isLast) :
    connection.Receives connection.recvDataLoop := by
  cases exceeds : ({ connection with readState := .idle }.appendPayload payload).exceeded with
  | some limit =>
    obtain ⟨limited, exceeding⟩ := exceeded_eq_some.mp exceeds
    simp only [checkReassembly, exceeds] at turn
    rw [recvDataLoop, Turn.loop_returned turn]
    exact .tooLarge whole length parsed limited exceeding
  | none =>
    have within : ∀ limit ∈ connection.maxTsduSize, (connection.payloadBuf ++ payload).length ≤ limit := by
      intro limit limited
      by_contra exceeding
      rw [Nat.not_le] at exceeding
      have exceeded := exceeded_eq_some.mpr
        (⟨limited, exceeding⟩ : ({ connection with readState := .idle }.appendPayload
          payload).maxTsduSize = some limit ∧ _)
      rw [exceeds] at exceeded
      cases exceeded
    cases isLast with
    | true =>
      simp only [checkReassembly, exceeds, if_true] at turn
      rw [recvDataLoop, Turn.loop_returned turn]
      exact .completes whole length parsed within
    | false =>
      simp only [checkReassembly, exceeds, Bool.false_eq_true, if_false] at turn
      rw [recvDataLoop, Turn.loop_again turn, Turn.loop_pending (recvDataTurn_of_idle rfl)]
      exact .continues whole length parsed within

theorem recvDataLoop_spec (wellFormed : connection.WellFormed) : connection.Receives connection.recvDataLoop := by
  have reading := readTpkt_spec wellFormed
  cases read : connection.readTpkt with
  | pending waiting =>
    have turn : connection.recvDataTurn = .pending waiting := by simp only [recvDataTurn, read]
    rw [recvDataLoop, Turn.loop_pending turn]
    rw [read] at reading
    cases reading with
    | waits same wellFormed waiting => exact .waits same wellFormed waiting
  | again next =>
    rw [read] at reading
    cases reading
  | returned next result =>
    rw [read] at reading
    cases reading with
    | @refuses readState error four refused wellFormed =>
      have turn : connection.recvDataTurn = .returned { connection with readState } (.error error) := by
        simp only [recvDataTurn, read]
      rw [recvDataLoop, Turn.loop_returned turn]
      exact .refuses four refused wellFormed
    | @reads header raw whole length short =>
      cases parsed : parseDt raw with
      | error error =>
        have turn : connection.recvDataTurn = .returned { connection with readState := .idle } (.error error) := by
          simp only [recvDataTurn, read, parsed]
        rw [recvDataLoop, Turn.loop_returned turn]
        exact .unparsable whole length parsed
      | ok segment =>
        obtain ⟨payload, isLast⟩ := segment
        have turn : connection.recvDataTurn =
            ({ connection with readState := .idle }.appendPayload payload).checkReassembly
            isLast := by
          simp only [recvDataTurn, read, parsed]
        exact recvDataLoop_of_segment whole length parsed turn

theorem held_received (wellFormed : connection.WellFormed) (room : bytes.length ≤ connection.wanted) :
    (connection.received bytes).held = connection.held ++ bytes ∧ (connection.received bytes).WellFormed := by
  cases reading : connection.readState with
  | idle =>
    have none : bytes = [] := by simpa [wanted, reading] using room
    simp [received, reading, held, WellFormed, none]
  | readingHeader got buf =>
    simp only [WellFormed, reading] at wellFormed
    simp only [wanted, reading] at room
    simp only [received, reading, held, WellFormed]
    refine ⟨take_overwrite (by omega), ?_, by omega⟩
    rw [length_overwrite (by omega), wellFormed.1]
  | readingBody header got =>
    simp only [WellFormed, reading] at wellFormed
    simp only [wanted, reading] at room
    simp only [received, reading, held, WellFormed]
    refine ⟨?_, ?_, by omega, wellFormed.2.2⟩
    · rw [take_overwrite (by omega), append_assoc]
    · rw [length_overwrite (by omega), wellFormed.1]

variable (connection) in
theorem received_fields (bytes : Bytes) : (connection.received bytes).state = connection.state ∧
      (connection.received bytes).payloadBuf = connection.payloadBuf ∧
      (connection.received bytes).maxTsduSize = connection.maxTsduSize := by
  unfold received
  split <;> exact ⟨rfl, rfl, rfl⟩

theorem wanted_pos (wellFormed : connection.WellFormed) (waiting : connection.Waiting) : 0 < connection.wanted := by
  cases reading : connection.readState with
  | idle => simp [Waiting, reading] at waiting
  | readingHeader got buf =>
    simp only [Waiting, reading] at waiting
    simp only [wanted, reading]
    omega
  | readingBody header got =>
    simp only [Waiting, reading] at waiting
    simp only [WellFormed, reading] at wellFormed
    simp only [wanted, reading]
    omega

theorem recvDataLoop_pending (resting : connection.readState = .idle ∨ connection.Waiting) :
    ∃ next, connection.recvDataLoop = .pending next := by
  rcases resting with idle | waiting
  · exact ⟨_, Turn.loop_pending (recvDataTurn_of_idle idle)⟩
  have waits : connection.readTpktTurn = .pending connection := by
    cases reading : connection.readState with
    | idle => simp [Waiting, reading] at waiting
    | readingHeader got buf | readingBody header got =>
      simp only [Waiting, reading] at waiting
      simp [readTpktTurn, reading, waiting]
  have read : connection.readTpkt = .pending connection := Turn.loop_pending waits
  exact ⟨connection, Turn.loop_pending (by simp only [recvDataTurn, read])⟩

/-- What is held and what is still to come are the packets of these segments, which complete these
TSDUs. -/
structure Carries (connection : CotpConnection) (rest : Bytes) (segments : List Segment)
    (tsdus : List Bytes) : Prop where
  wellFormed : connection.WellFormed
  octets : connection.held ++ rest = (segments.map Segment.packet).flatten
  assembles : Assembles connection.payloadBuf segments tsdus
  within : ∀ limit ∈ connection.maxTsduSize, ∀ tsdu ∈ tsdus, tsdu.length ≤ limit

variable {rest : Bytes} {segments : List Segment} {tsdus : List Bytes}

theorem Carries.first (carries : connection.Carries rest segments tsdus) (holds : connection.held ≠ []) :
    ∃ segment others, segments = segment :: others ∧ segment.Legal := by
  cases segments with
  | nil =>
    have none := carries.octets
    simp [holds] at none
  | cons segment others => exact ⟨segment, others, rfl, carries.assembles.legal⟩

theorem Carries.packet (carries : connection.Carries rest segments tsdus)
    (whole : connection.held = header.encode ++ raw) (length : raw.length = header.cotpLen) :
    ∃ segment others, segments = segment :: others ∧ segment.Legal ∧ raw = segment.tpdu ∧
      rest = (others.map Segment.packet).flatten := by
  obtain ⟨segment, others, rfl, legal⟩ := carries.first (by simp [whole, encode])
  have octets := carries.octets
  rw [whole, map_cons, flatten_cons, Segment.packet_eq, append_assoc, append_assoc] at octets
  obtain ⟨headers, bodies⟩ := append_inj octets rfl
  have header_eq := encode_inj headers
  rw [header_eq, legal.cotpLen] at length
  obtain ⟨tpdus, remaining⟩ := append_inj bodies length
  exact ⟨segment, others, rfl, legal, tpdus, remaining⟩

theorem Carries.received (carries : connection.Carries (bytes ++ rest) segments tsdus)
    (room : bytes.length ≤ connection.wanted) : (connection.received bytes).Carries rest segments tsdus := by
  obtain ⟨held, wellFormed⟩ := held_received carries.wellFormed room
  obtain ⟨state, payloadBuf, limited⟩ := connection.received_fields bytes
  refine ⟨wellFormed, ?_, ?_, ?_⟩
  · rw [held, append_assoc]
    exact carries.octets
  · rw [payloadBuf]
    exact carries.assembles
  · rw [limited]
    exact carries.within

/-- What becomes of a connection that carries: it waits and carries the same, or it returns the next
TSDU and carries the others. -/
inductive Carried (connection : CotpConnection) (rest : Bytes) (tsdus : List Bytes) :
    Turn CotpConnection (Except CotpError Bytes) → Prop
  | waits {next : CotpConnection} {segments : List Segment} (carries : next.Carries rest segments tsdus)
      (waiting : next.Waiting) (connected : next.state = connection.state)
      (limited : next.maxTsduSize = connection.maxTsduSize) : Carried connection rest tsdus (.pending next)
  | completes {next : CotpConnection} {segments : List Segment} {tsdu : Bytes} {others : List Bytes}
      (first : tsdus = tsdu :: others) (carries : next.Carries rest segments others) (idle : next.readState = .idle)
      (connected : next.state = connection.state) (limited : next.maxTsduSize = connection.maxTsduSize) :
      Carried connection rest tsdus (.returned next (.ok tsdu))

theorem Carries.recvDataLoop (carries : connection.Carries rest segments tsdus) :
    Carried connection rest tsdus connection.recvDataLoop := by
  have receives := recvDataLoop_spec carries.wellFormed
  generalize connection.recvDataLoop = turn at receives
  cases receives with
  | @waits readBuf readState same wellFormed waiting =>
    refine .waits ⟨wellFormed, ?_, carries.assembles, carries.within⟩ waiting rfl rfl
    rw [same]
    exact carries.octets
  | refuses four refused wellFormed =>
    -- the octets are the header of a legal segment, which is accepted
    obtain ⟨segment, others, rfl, legal⟩ := carries.first (by intro none; simp [none] at four)
    have octets := carries.octets
    rw [map_cons, flatten_cons, Segment.packet_eq, append_assoc] at octets
    obtain ⟨headers, _⟩ := append_inj octets four
    obtain ⟨_, long, short⟩ := legal.packetLen
    have overflow := refused segment.header (by rw [headers, decode_encode long])
    omega
  | unparsable whole length unparsable =>
    obtain ⟨segment, others, rfl, legal, rfl, remaining⟩ := carries.packet whole length
    rw [Segment.tpdu, parseDt_encodeDt legal.1] at unparsable
    cases unparsable
  | @tooLarge header raw payload isLast limit whole length parsed limited exceeds =>
    obtain ⟨segment, others, rfl, legal, rfl, remaining⟩ := carries.packet whole length
    rw [Segment.tpdu, parseDt_encodeDt legal.1] at parsed
    cases parsed
    obtain ⟨tsdu, member, grown⟩ := carries.assembles.grown_le
    have bound := carries.within limit limited tsdu member
    omega
  | @completes header raw payload whole length parsed within =>
    obtain ⟨segment, others, rfl, legal, rfl, remaining⟩ := carries.packet whole length
    rw [Segment.tpdu, parseDt_encodeDt legal.1] at parsed
    obtain ⟨_, _⟩ := segment
    cases parsed
    obtain ⟨tsdus, rfl, assembles⟩ := carries.assembles.of_last
    refine .completes rfl ⟨trivial, remaining, assembles, ?_⟩ rfl rfl rfl
    intro limit limited tsdu member
    exact carries.within limit limited tsdu (mem_cons_of_mem _ member)
  | @continues header raw payload whole length parsed within =>
    obtain ⟨segment, others, rfl, legal, rfl, remaining⟩ := carries.packet whole length
    rw [Segment.tpdu, parseDt_encodeDt legal.1] at parsed
    obtain ⟨_, _⟩ := segment
    cases parsed
    exact .waits ⟨⟨rfl, Nat.zero_le _⟩, remaining, carries.assembles.of_more, carries.within⟩
      (Nat.zero_lt_succ _) rfl rfl

theorem Carries.finished (carries : connection.Carries [] segments tsdus)
    (resting : connection.readState = .idle ∨ connection.Waiting) : tsdus = [] := by
  cases segments with
  | nil => exact carries.assembles.of_nil
  | cons segment others =>
    -- the octets of the first segment would all be held, and one is lacking
    exfalso
    have legal := carries.assembles.legal
    have octets := carries.octets
    rw [append_nil, map_cons, flatten_cons, Segment.packet_eq, append_assoc] at octets
    have length := congrArg length octets
    rw [length_append, length_encode] at length
    cases reading : connection.readState with
    | idle =>
      simp only [held, reading, length_nil] at length
      omega
    | readingHeader got buf =>
      simp only [Waiting, reading, reduceCtorEq, false_or] at resting
      simp only [held, reading, length_take] at length
      omega
    | readingBody header got =>
      simp only [Waiting, reading, reduceCtorEq, false_or] at resting
      simp only [held, reading] at octets
      obtain ⟨headers, bodies⟩ := append_inj octets rfl
      have taken := congrArg List.length bodies
      rw [encode_inj headers, legal.cotpLen] at resting
      rw [length_take, length_append] at taken
      omega

end CotpConnection

end Iec61850.Iso
