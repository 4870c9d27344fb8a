import Iec61850.Mms.Decode
import Iec61850.Wire.Layout

/-!
GOOSE frames: the Ethernet header with its optional 802.1Q tag, APPID, Length and the reserved
fields around the PDU.
-/

namespace Iec61850.Goose

open Model Mms Wire Wire.Fallible

inductive GooseError where
  | unknownTag (tag : UInt8)
  | tagDecode
  | subLevel (error : GooseError)
  | overflow
  | lengthMismatch
  | invalidPadding (padding : UInt8)
  | fieldTooLong (length : Nat)
  | missingTimestamp
  | invalidStateNumber
  | invalidTimestamp
  | invalidTimestampQuality (error : UtcTimeError)
  | ethernetFrameTooShort
  | wrongEtherType (etherType : UInt16)
  | vlanPriorityOutOfRange (priority : UInt8)
  | pduOverflow
  | dataSetLengthMismatch (expected actual : Nat)
  | asn1 (error : Asn1Error)
  | truncatedInput (needed available : Nat)
  | confRevMismatch (expected actual : UInt32)
  deriving DecidableEq, Repr

def orGooseError {α : Type} : Fallible Asn1Error α → Fallible GooseError α
  | .ok value => .ok value
  | .error (.refused error) => refuse (.asn1 error)
  | .error .panicked => .error .panicked
  | .error .diverged => .error .diverged

def gooseEtherType : UInt16 := 0x88b8
def vlanTpid : UInt16 := 0x8100
def ethernetHeaderNoVlan : Nat := 14
def ethernetHeaderWithVlan : Nat := 18
def gooseHeaderSize : Nat := 8
def reserved1Simulation : UInt16 := 0x8000

abbrev MacAddress := Vector UInt8 6

structure VlanPriority where
  value : UInt8
  range : value ≤ 7
  deriving DecidableEq

def VlanPriority.new (priority : UInt8) : Except GooseError VlanPriority :=
  if range : priority ≤ 7 then .ok ⟨priority, range⟩ else .error (.vlanPriorityOutOfRange priority)

structure VlanTag where
  priority : VlanPriority
  vlanId : UInt16
  deriving DecidableEq

structure GooseFrameHeader where
  dstMac : MacAddress
  srcMac : MacAddress
  vlan : Option VlanTag
  appId : UInt16
  length : UInt16
  simulation : Bool
  deriving DecidableEq

structure GooseFrame where
  header : GooseFrameHeader
  pduBytes : List UInt8
  deriving DecidableEq

variable (tag : VlanTag) (buf : List UInt8) (simulation : Bool) (frame : GooseFrame)

/-- The tag is announced by its protocol identifier; the drop eligible bit stays clear. -/
def VlanTag.encode : List UInt8 :=
  bigEndian16 vlanTpid ++
    [(tag.priority.value <<< 5) ||| ((tag.vlanId >>> 8).toUInt8 &&& 0x0f), (tag.vlanId &&& 0xff).toUInt8]

def reserved1 : UInt16 := if simulation then reserved1Simulation else 0

/-- The Length field is computed from the PDU; the one in the header is not used. -/
def GooseFrame.encode : List UInt8 :=
  let hdr := frame.header
  hdr.dstMac.toList ++ hdr.srcMac.toList ++ hdr.vlan.elim [] VlanTag.encode ++ bigEndian16 gooseEtherType
    ++ bigEndian16 hdr.appId ++ bigEndian16 (UInt16.ofNat (frame.pduBytes.length + gooseHeaderSize))
    ++ bigEndian16 (reserved1 hdr.simulation) ++ [0x00, 0x00] ++ frame.pduBytes

/-- The tag behind the addresses, if there is one, and the position behind the EtherType. -/
def decodeVlan : Fallible GooseError (Option VlanTag × Nat) := do
  let candidate ← u16At buf 12
  if candidate = vlanTpid then
    if buf.length < ethernetHeaderWithVlan then
      refuse .ethernetFrameTooShort
    else
      let tci0 ← byteAt buf 14
      let tci1 ← byteAt buf 15
      let priority ← orRefuse (VlanPriority.new ((tci0 >>> 5) &&& 0x07))
      let vlanId := ((tci0.toUInt16 &&& 0x0f) <<< 8) ||| tci1.toUInt16
      let et ← u16At buf 16
      if et = gooseEtherType then return (some ⟨priority, vlanId⟩, 18) else refuse (.wrongEtherType et)
  else if candidate = gooseEtherType then
    return (none, 14)
  else
    refuse (.wrongEtherType candidate)

def GooseFrame.decode : Fallible GooseError GooseFrame := do
  if buf.length < ethernetHeaderNoVlan then
    refuse .ethernetFrameTooShort
  else
    let dstMac ← octetsAt 6 buf 0
    let srcMac ← octetsAt 6 buf 6
    let (vlan, pos) ← decodeVlan buf
    if buf.length < pos + gooseHeaderSize then
      refuse .ethernetFrameTooShort
    else
      let appId ← u16At buf pos
      let length ← u16At buf (pos + 2)
      let reserved1 ← u16At buf (pos + 4)
      let simulation := reserved1 &&& reserved1Simulation != 0
      let pos := pos + 8
      if length.toNat < gooseHeaderSize then
        refuse .ethernetFrameTooShort
      else
        let apduLength := length.toNat - gooseHeaderSize
        -- the Length field comes from the peer, so the octets it claims have to be there
        if buf.length < pos + apduLength then
          refuse .ethernetFrameTooShort
        else
          let pduBytes ← slice buf pos (pos + apduLength)
          return ⟨⟨dstMac, srcMac, vlan, appId, length, simulation⟩, pduBytes⟩

theorem tci_fields {priority : UInt8} (range : priority ≤ 7) (vlanId : UInt16) :
    let tci0 := (priority <<< 5) ||| ((vlanId >>> 8).toUInt8 &&& 0x0f)
    (tci0 >>> 5) &&& 0x07 = priority ∧
      ((tci0.toUInt16 &&& 0x0f) <<< 8) ||| (vlanId &&& 0xff).toUInt8.toUInt16 = vlanId &&& 0x0fff := by
  have table : ∀ (high : Fin 256) (priority : Fin 8),
      let tci0 := (UInt8.ofNat priority.val <<< 5) ||| (UInt8.ofNat high.val &&& 0x0f)
      (tci0 >>> 5) &&& 0x07 = UInt8.ofNat priority.val ∧ tci0.toUInt16 &&& 0x0f = UInt16.ofNat (high.val % 16) := by
    decide +kernel
  have bound := vlanId.toNat_lt
  have high : (vlanId >>> 8).toUInt8 = UInt8.ofNat (vlanId.toNat / 256) := by
    apply UInt8.toNat_inj.mp
    rw [UInt16.toNat_toUInt8, UInt16.toNat_shiftRight, show (8 : UInt16).toNat % 16 = 8 from rfl,
      Nat.shiftRight_eq_div_pow, UInt8.toNat_ofNat']
  have low : (vlanId &&& 0xff).toUInt8.toUInt16.toNat = vlanId.toNat % 256 := by
    rw [UInt8.toNat_toUInt16, UInt16.toNat_toUInt8, UInt16.toNat_and, show (0xff : UInt16).toNat = 2 ^ 8 - 1 from rfl,
      Nat.and_two_pow_sub_one_eq_mod]
    omega
  obtain ⟨top, nibble⟩ := table ⟨vlanId.toNat / 256, by omega⟩
    ⟨priority.toNat, Nat.lt_succ_of_le (UInt8.le_iff_toNat_le.mp range)⟩
  dsimp only at top nibble ⊢
  rw [UInt8.ofNat_toNat] at top nibble
  rw [high, nibble]
  refine ⟨top, ?_⟩
  apply UInt16.toNat_inj.mp
  rw [UInt16.toNat_or, UInt16.toNat_shiftLeft, low, UInt16.toNat_ofNat', show (8 : UInt16).toNat % 16 = 8 from rfl,
    or_of_shifted (Nat.mod_lt _ (by decide)) (by decide), UInt16.toNat_and,
    show (0x0fff : UInt16).toNat = 2 ^ 12 - 1 from rfl, Nat.and_two_pow_sub_one_eq_mod]
  omega

/-- The tag as it is read back: twelve bits of the identifier are sent. -/
def VlanTag.sent : VlanTag := { tag with vlanId := tag.vlanId &&& 0x0fff }

theorem VlanTag.sent_of_le {tag : VlanTag} (small : tag.vlanId ≤ 4095) : tag.sent = tag := by
  have bound : tag.vlanId.toNat ≤ 4095 := UInt16.le_iff_toNat_le.mp small
  have same : tag.vlanId &&& 0x0fff = tag.vlanId := by
    apply UInt16.toNat_inj.mp
    rw [UInt16.toNat_and, show (0x0fff : UInt16).toNat = 2 ^ 12 - 1 from rfl, Nat.and_two_pow_sub_one_eq_mod]
    omega
  unfold VlanTag.sent
  rw [same]

theorem VlanPriority.new_value (priority : VlanPriority) : VlanPriority.new priority.value = .ok priority :=
  dif_pos priority.range

theorem reserved1_simulation : (reserved1 simulation &&& reserved1Simulation != 0) = simulation := by
  cases simulation <;> rfl

theorem GooseFrame.decode_behind {buf pdu : List UInt8} {dstMac srcMac : MacAddress} {vlan : Option VlanTag} {pos : Nat}
    {appId length : UInt16} {simulation : Bool} (dst : EncodedAt buf 0 dstMac.toList)
    (src : EncodedAt buf 6 srcMac.toList) (tagged : decodeVlan buf = .ok (vlan, pos))
    (behind : 14 ≤ pos) (app : EncodedAt buf pos (bigEndian16 appId))
    (len : EncodedAt buf (pos + 2) (bigEndian16 length))
    (reserved : EncodedAt buf (pos + 4) (bigEndian16 (reserved1 simulation)))
    (body : EncodedAt buf (pos + 8) pdu) (lengthField : length.toNat = pdu.length + 8)
    (size : buf.length = pos + 8 + pdu.length) :
    GooseFrame.decode buf = .ok ⟨⟨dstMac, srcMac, vlan, appId, length, simulation⟩, pdu⟩ := by
  have header : gooseHeaderSize = 8 := rfl
  unfold GooseFrame.decode
  rw [if_neg (by simp only [ethernetHeaderNoVlan]; omega), dst.octetsAt (by omega), ok_bind, src.octetsAt (by omega),
    ok_bind, tagged, ok_bind]
  dsimp only
  rw [if_neg (by omega), app.u16At, ok_bind, len.u16At, ok_bind, reserved.u16At, ok_bind,
    lengthField, if_neg (by omega),
    if_neg (by omega), body.slice (by omega) (by omega), ok_bind, reserved1_simulation]
  rfl

theorem GooseFrame.decode_encode (fits : frame.pduBytes.length + gooseHeaderSize ≤ 65535) :
    GooseFrame.decode frame.encode = .ok ⟨{ frame.header with
      vlan := frame.header.vlan.map VlanTag.sent
      length := UInt16.ofNat (frame.pduBytes.length + gooseHeaderSize) }, frame.pduBytes⟩ := by
  obtain ⟨⟨dstMac, srcMac, vlan, appId, length, simulation⟩, pdu⟩ := frame
  have lengthField : (UInt16.ofNat (pdu.length + gooseHeaderSize)).toNat = pdu.length + 8 :=
    UInt16.toNat_ofNat_of_lt' (Nat.lt_succ_of_le fits)
  generalize encoding : GooseFrame.encode ⟨⟨dstMac, srcMac, vlan, appId, length, simulation⟩, pdu⟩ = buf
  have whole : EncodedAt buf 0 (GooseFrame.encode ⟨⟨dstMac, srcMac, vlan, appId, length, simulation⟩, pdu⟩) :=
    ⟨[], by rw [encoding, List.append_nil, List.drop_zero]⟩
  have size := congrArg List.length encoding
  dsimp only [GooseFrame.encode] at whole size
  cases vlan with
  | none =>
    simp only [Option.elim_none, List.append_nil, encodedAt_append, List.length_append, Vector.length_toList,
      bigEndian16_length, List.length_cons, List.length_nil, Nat.reduceAdd] at whole size
    obtain ⟨⟨⟨⟨⟨⟨⟨dst, src⟩, etherType⟩, app⟩, len⟩, reserved⟩, _⟩, body⟩ := whole
    have tagged : decodeVlan buf = .ok (none, 14) := by
      unfold decodeVlan
      rw [etherType.u16At, ok_bind, if_neg (by decide), if_pos rfl]
      rfl
    exact decode_behind dst src tagged (by decide) app len reserved body lengthField size.symm
  | some tag =>
    simp only [Option.elim_some, encodedAt_append, List.length_append, Vector.length_toList, VlanTag.encode,
      bigEndian16_length, List.length_cons, List.length_nil, Nat.reduceAdd] at whole size
    obtain ⟨⟨⟨⟨⟨⟨⟨⟨dst, src⟩, ⟨tpid, tci⟩⟩, etherType⟩, app⟩, len⟩, reserved⟩, _⟩, body⟩ := whole
    obtain ⟨priority, vlanId⟩ := tci_fields tag.priority.range tag.vlanId
    have tagged : decodeVlan buf = .ok (some tag.sent, 18) := by
      unfold decodeVlan
      rw [tpid.u16At, ok_bind, if_pos rfl, if_neg (by simp only [ethernetHeaderWithVlan]; omega), tci.byteAt, ok_bind,
        tci.tail.byteAt, ok_bind, priority, tag.priority.new_value]
      simp only [orRefuse, ok_bind, vlanId, etherType.u16At, if_true]
      rfl
    exact decode_behind dst src tagged (by decide) app len reserved body lengthField size.symm

end Iec61850.Goose
