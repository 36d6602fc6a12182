/-
# Who sent a payload

`serialPollThread` has one `senderAddress`. A packet of one part overwrites it, and of a
message in parts only the first part writes it, so a packet that comes in between two
parts leaves its own sender behind for the rest of the message. `attributesAll_iff` says
which traffic is attributed to the nodes that sent it.
-/

import RadioDoge.Serdog.Utxos

namespace RadioDoge.Serdog

/-! ## The calls of `processDogePayload` -/

/-- The arguments of a call of `processDogePayload`: the sender, and the payload up to
its size. -/
structure Call where
  senderAddress : NodeAddress
  payloadIn : Bytes
  deriving DecidableEq, Repr

/-- The variables of the poll thread. -/
structure Receiver where
  multipart : Multipart
  dataBuffer : Vector UInt8 dataBufferSize

/-- What the thread does with a complete frame, with the calls that it makes. -/
def Receiver.process (r : Receiver) : Dispatch → Option (Receiver × List Call)
  | .parseMultipartPayload rxbuffer => do
      let (processResult, multipart) ← parseMultipartPayload rxbuffer r.multipart
      if processResult then
        some ({ r with multipart := { multipart with multipartIndex := 0 } },
          [⟨multipart.senderAddress,
            multipart.multipartBuffer.toList.take multipart.multipartIndex⟩])
      else some ({ r with multipart }, [])
  | .parseHostFormedPacket rxbuffer => do
      let (senderAddress, dataBuffer) ← parseHostFormedPacket rxbuffer r.dataBuffer
      some (⟨{ r.multipart with senderAddress }, dataBuffer⟩,
        [⟨senderAddress, dataBuffer.toList.take (rxbuffer.length - singlePacketHdrLen)⟩])
  | .processCommandPayload _ => some (r, [])

/-- The variables of a client. -/
def Client.receiver (client : Client) : Receiver := ⟨client.multipart, client.dataBuffer⟩

/-- **One receiver, two models.** A client whose payload is processed treats its variables as is
said here. -/
theorem Client.process_receiver {client next : Client} {rxbuffer : Dispatch}
    (hnext : client.process rxbuffer = some next) :
    ∃ calls, client.receiver.process rxbuffer = some (next.receiver, calls) := by
  cases rxbuffer with
  | parseMultipartPayload rxbuffer =>
      rw [Client.process, Option.bind_eq_bind, Option.bind_eq_some_iff] at hnext
      obtain ⟨⟨processResult, multipart⟩, hparsed, hnext⟩ := hnext
      have hparsed' : parseMultipartPayload rxbuffer client.receiver.multipart =
          some (processResult, multipart) := hparsed
      rw [Receiver.process, hparsed']
      cases processResult with
      | false =>
          obtain rfl := Option.some.inj hnext
          exact ⟨_, rfl⟩
      | true =>
          obtain ⟨store, -, hnext⟩ := Option.bind_eq_some_iff.mp hnext
          obtain rfl := Option.some.inj hnext
          exact ⟨_, rfl⟩
  | parseHostFormedPacket rxbuffer =>
      rw [Client.process, Option.bind_eq_bind, Option.bind_eq_some_iff] at hnext
      obtain ⟨⟨senderAddress, dataBuffer⟩, hparsed, hnext⟩ := hnext
      obtain ⟨store, -, hnext⟩ := Option.bind_eq_some_iff.mp hnext
      obtain rfl := Option.some.inj hnext
      have hparsed' : parseHostFormedPacket rxbuffer client.receiver.dataBuffer =
          some (senderAddress, dataBuffer) := hparsed
      rw [Receiver.process, hparsed']
      exact ⟨_, rfl⟩
  | processCommandPayload rxbuffer =>
      obtain rfl := Option.some.inj hnext
      exact ⟨[], rfl⟩

/-! ## Traffic -/

/-- A message in parts, whatever the pieces are that it was cut into. -/
structure PartedMessage where
  src : NodeAddress
  dest : NodeAddress
  messageID : UInt8
  reserved : UInt8
  pieces : List Bytes
  few : pieces.length ≤ 255
  short : ∀ piece ∈ pieces, piece.length ≤ 245

namespace PartedMessage

variable (m : PartedMessage)

/-- The piece in one part. -/
def piece (part : Nat) : Bytes := m.pieces[part]?.getD []

/-- The data of the first `part` parts. -/
def joined (part : Nat) : Bytes := (m.pieces.take part).flatten

/-- One part on the air; parts count from one. -/
def frame (part : Nat) : Bytes :=
  framed .multipartPacket (m.src.bytes ++ m.dest.bytes ++
    [m.messageID, m.reserved, UInt8.ofNat (part + 1), UInt8.ofNat m.pieces.length] ++ m.piece part)

theorem joined_zero : m.joined 0 = [] := rfl

theorem joined_succ {part : Nat} (hpart : part < m.pieces.length) :
    m.joined (part + 1) = m.joined part ++ m.piece part := by
  rw [joined, List.take_succ_eq_append_getElem hpart, List.flatten_append, List.flatten_singleton,
    piece, List.getElem?_eq_getElem hpart]
  rfl

theorem joined_length : m.joined m.pieces.length = m.pieces.flatten := by
  rw [joined, List.take_length]

/-- The header of a part, as serdog reads it. -/
theorem header_frame (part : Nat) :
    addressAt (m.frame part) hdrLen = m.src ∧
      (m.frame part)[10]?.getD 0 = UInt8.ofNat (part + 1) ∧
      (m.frame part)[11]?.getD 0 = UInt8.ofNat m.pieces.length ∧
      (m.frame part).drop multipartHdrLen = m.piece part := ⟨rfl, rfl, rfl, rfl⟩

theorem length_frame (part : Nat) :
    (m.frame part).length = (m.piece part).length + multipartHdrLen := by
  simp only [frame, length_framed, List.length_append, NodeAddress.length_bytes, List.length_cons,
    List.length_nil, serialHeaderSize, multipartHdrLen]
  omega

end PartedMessage

/-- A frame that is received: a packet of one part, or one part of a message. -/
inductive Arrival
  | single (p : HostPacket)
  | partOf (m : PartedMessage) (part : Nat)

namespace Arrival

/-- The bytes that are received. -/
def frame : Arrival → Bytes
  | .single p => p.frame
  | .partOf m part => m.frame part

/-- The calls that it should lead to. -/
def calls : Arrival → List Call
  | .single p => [⟨p.src, p.payload⟩]
  | .partOf m part => if part + 1 = m.pieces.length then [⟨m.src, m.pieces.flatten⟩] else []

end Arrival

/-- The message that is in progress behind a part, and the next part of it. -/
def progressAfter (m : PartedMessage) (part : Nat) : Option (PartedMessage × Nat) :=
  if part + 1 = m.pieces.length then none else some (m, part + 1)

/-- One message is in progress at a time, and its parts come in order. -/
def InOrder : Option (PartedMessage × Nat) → List Arrival → Prop
  | _, [] => True
  | progress, .single p :: rest => p.payload.length ≤ 249 ∧ InOrder progress rest
  | progress, .partOf m part :: rest =>
      part < m.pieces.length ∧
        (match progress with
          | none => part = 0
          | some (current, next) => current = m ∧ next = part) ∧
        InOrder (progressAfter m part) rest

/-- Every frame leads to the calls that it should lead to. -/
def AttributesAll : Receiver → List Arrival → Prop
  | _, [] => True
  | r, arrival :: rest =>
      ∃ next, r.process (dispatch arrival.frame) = some (next, arrival.calls) ∧
        AttributesAll next rest

/-- The sender of the last packet since the message in progress has data. -/
def sinceData (m : PartedMessage) (part : Nat) (since : Option NodeAddress) : Option NodeAddress :=
  if m.joined part = [] then none else since

/-- The messages fit the buffer, and the last packet that comes in between the parts of a
message is from the sender of the message. -/
def Undisturbed : Option NodeAddress → List Arrival → Prop
  | _, [] => True
  | _, .single p :: rest => Undisturbed (some p.src) rest
  | since, .partOf m part :: rest =>
      (m.joined (part + 1)).length ≤ multipartBufferSize ∧
        (part + 1 = m.pieces.length → ∀ src ∈ sinceData m part since, src = m.src) ∧
        Undisturbed (sinceData m part since) rest

/-- A receiver that has just started. -/
def Receiver.boot : Receiver := Client.boot.receiver

/-- The frames pass the completeness test. -/
theorem wellFormed_arrivals (arrivals : List Arrival) :
    ∀ progress, InOrder progress arrivals → ∀ arrival ∈ arrivals, WellFormed arrival.frame := by
  induction arrivals with
  | nil =>
      intro progress _ arrival hmem
      cases hmem
  | cons first rest ih =>
      intro progress horder arrival hmem
      cases first with
      | single p =>
          rcases List.mem_cons.mp hmem with rfl | hrest
          · have hkind : isCmd SerialCommand.hostFormedPacket.code ≠ 0 := by decide
            refine wellFormed_framed hkind ?_
            have hlen := horder.1
            simp only [List.length_append, NodeAddress.length_bytes]
            omega
          · exact ih progress horder.2 arrival hrest
      | partOf m part =>
          rcases List.mem_cons.mp hmem with rfl | hrest
          · have hkind : isCmd SerialCommand.multipartPacket.code ≠ 0 := by decide
            refine wellFormed_framed hkind ?_
            have hpiece : (m.piece part).length ≤ 245 := by
              rw [PartedMessage.piece, List.getElem?_eq_getElem horder.1]
              exact m.short _ (List.getElem_mem horder.1)
            simp only [List.length_append, NodeAddress.length_bytes, List.length_cons,
              List.length_nil]
            omega
          · exact ih _ horder.2.2 arrival hrest

/-! ## What one frame does -/

/-- The receiver has joined the first parts of a message; once there is data, the sender
is the message's own or that of the last packet since. -/
def Receiver.Joins (r : Receiver) (m : PartedMessage) (part : Nat) (since : Option NodeAddress) :
    Prop :=
  (∃ old, r.multipart.multipartBuffer = memcpy old 0 (m.joined part)) ∧
    r.multipart.multipartIndex = (m.joined part).length ∧
    (m.joined part ≠ [] → r.multipart.senderAddress = since.getD m.src)

/-- What the receiver holds for the message in progress. -/
def Receiver.Holds (r : Receiver) (since : Option NodeAddress) :
    Option (PartedMessage × Nat) → Prop
  | none => r.multipart.multipartIndex = 0
  | some (m, part) => r.Joins m part since

section Steps

variable {r : Receiver} {since : Option NodeAddress} {m : PartedMessage} {part : Nat}

/-- Before its first part nothing of a message is joined. -/
theorem joins_zero (hindex : r.multipart.multipartIndex = 0) : r.Joins m 0 since :=
  ⟨⟨r.multipart.multipartBuffer, rfl⟩, hindex, fun hdata => absurd m.joined_zero hdata⟩

/-- A packet of one part. -/
theorem process_single (r : Receiver) (p : HostPacket) (hlen : p.payload.length ≤ dataBufferSize) :
    ∃ dataBuffer, r.process (dispatch p.frame) =
      some (⟨{ r.multipart with senderAddress := p.src }, dataBuffer⟩, [⟨p.src, p.payload⟩]) := by
  have hdispatch : dispatch p.frame = .parseHostFormedPacket p.frame := rfl
  have hsize : p.frame.length - singlePacketHdrLen = p.payload.length := by
    rw [p.length_frame, Nat.add_sub_cancel]
  refine ⟨memcpy r.dataBuffer 0 p.payload, ?_⟩
  rw [hdispatch, Receiver.process, parseHostFormedPacket_frame p hlen, Option.bind_eq_bind,
    Option.bind_some, hsize]
  simp only [toList_memcpy r.dataBuffer p.payload hlen, List.take_left]

/-- The receiver behind a part, before the index is reset. -/
def Receiver.joinedBehind (r : Receiver) (old : Vector UInt8 multipartBufferSize)
    (m : PartedMessage) (part : Nat) (since : Option NodeAddress) : Receiver :=
  { r with multipart :=
      ⟨memcpy old 0 (m.joined (part + 1)), (m.joined (part + 1)).length,
        (sinceData m part since).getD m.src⟩ }

/-- One more part is appended, if it fits; its number tells the last. -/
theorem parseMultipartPayload_part {old : Vector UInt8 multipartBufferSize}
    (hold : r.multipart.multipartBuffer = memcpy old 0 (m.joined part))
    (hjoins : r.Joins m part since) (hpart : part < m.pieces.length) :
    parseMultipartPayload (m.frame part) r.multipart =
      if (m.joined (part + 1)).length ≤ multipartBufferSize then
        some (decide (part + 1 = m.pieces.length), (r.joinedBehind old m part since).multipart)
      else none := by
  obtain ⟨hsrc, hnumber, htotal, hdrop⟩ := m.header_frame part
  obtain ⟨-, hindex, hsender⟩ := hjoins
  have hlen := m.length_frame part
  have hfew := m.few
  have hlast : (UInt8.ofNat (part + 1) == UInt8.ofNat m.pieces.length) =
      decide (part + 1 = m.pieces.length) := by
    rw [beq_eq_decide, decide_eq_decide.mpr (ofNat_inj_of_le (by omega) hfew)]
  have hsenderAddress : (if (m.joined part).length = 0 then m.src else r.multipart.senderAddress) =
      (sinceData m part since).getD m.src := by
    rw [sinceData]
    by_cases hdata : m.joined part = []
    · rw [if_pos (List.length_eq_zero_iff.mpr hdata), if_pos hdata]
      rfl
    · rw [if_neg (mt List.length_eq_zero_iff.mp hdata), if_neg hdata, hsender hdata]
  rw [parseMultipartPayload_eq hold hindex (by omega), hdrop, hsrc, hnumber, htotal, hlast,
    hsenderAddress, ← m.joined_succ hpart]
  rfl

/-- What a part does, if it fits: the last one leads to a call, and the sender of it is
the one that is held. -/
theorem process_part (hjoins : r.Joins m part since) (hpart : part < m.pieces.length) :
    ∃ next, next.Holds (sinceData m part since) (progressAfter m part) ∧
      r.process (dispatch (m.frame part)) =
        if (m.joined (part + 1)).length ≤ multipartBufferSize then
          some (next, if part + 1 = m.pieces.length then
            [⟨(sinceData m part since).getD m.src, m.pieces.flatten⟩] else [])
        else none := by
  have hdispatch : dispatch (m.frame part) = .parseMultipartPayload (m.frame part) := rfl
  obtain ⟨old, hold⟩ := hjoins.1
  have hparsed := parseMultipartPayload_part hold hjoins hpart
  rw [hdispatch, Receiver.process, hparsed, progressAfter]
  by_cases hroom : (m.joined (part + 1)).length ≤ multipartBufferSize
  · by_cases hlast : part + 1 = m.pieces.length
    · refine ⟨{ r.joinedBehind old m part since with multipart :=
        { (r.joinedBehind old m part since).multipart with multipartIndex := 0 } }, ?_, ?_⟩
      · rw [if_pos hlast]
        rfl
      · have hbuffer := toList_memcpy old (m.joined (part + 1)) hroom
        have hpayload : m.joined (part + 1) = m.pieces.flatten := by
          rw [hlast]
          exact m.joined_length
        simp only [if_pos hroom, Option.bind_eq_bind, Option.bind_some, decide_eq_true_eq,
          if_pos hlast, Receiver.joinedBehind, hbuffer, List.take_left]
        rw [hpayload]
    · refine ⟨r.joinedBehind old m part since, ?_, ?_⟩
      · rw [if_neg hlast]
        exact ⟨⟨old, rfl⟩, rfl, fun _ => rfl⟩
      · simp only [if_pos hroom, Option.bind_eq_bind, Option.bind_some, decide_eq_true_eq,
          if_neg hlast]
        rfl
  · refine ⟨{ r.joinedBehind old m part since with multipart :=
      { (r.joinedBehind old m part since).multipart with
        multipartIndex := if part + 1 = m.pieces.length then 0
          else (r.joinedBehind old m part since).multipart.multipartIndex } }, ?_, ?_⟩
    · by_cases hlast : part + 1 = m.pieces.length
      · rw [if_pos hlast, if_pos hlast]
        rfl
      · rw [if_neg hlast, if_neg hlast]
        exact ⟨⟨old, rfl⟩, rfl, fun _ => rfl⟩
    · rw [if_neg hroom, if_neg hroom]
      rfl

end Steps

/-- A packet of one part leaves the message in progress as it is, under its own sender. -/
theorem holds_single {r : Receiver} {since : Option NodeAddress}
    {progress : Option (PartedMessage × Nat)} (hholds : r.Holds since progress) (src : NodeAddress)
    (dataBuffer : Vector UInt8 dataBufferSize) :
    Receiver.Holds ⟨{ r.multipart with senderAddress := src }, dataBuffer⟩ (some src) progress := by
  cases progress with
  | none => exact hholds
  | some current => exact ⟨hholds.1, hholds.2.1, fun _ => rfl⟩

/-- A part that comes in order is the next one of what is held. -/
theorem joins_of_holds {r : Receiver} {since : Option NodeAddress} {m : PartedMessage} {part : Nat}
    {progress : Option (PartedMessage × Nat)}
    (hcurrent : match progress with
      | none => part = 0
      | some (current, next) => current = m ∧ next = part)
    (hholds : r.Holds since progress) : r.Joins m part since := by
  cases progress with
  | none =>
      cases hcurrent
      exact joins_zero hholds
  | some current =>
      rcases hcurrent with ⟨rfl, rfl⟩
      exact hholds

/-- The calls of a part are the right ones unless the last part is attributed to another
node. -/
theorem calls_part_iff (m : PartedMessage) (part : Nat) (since : Option NodeAddress) :
    (if part + 1 = m.pieces.length then
        [(⟨since.getD m.src, m.pieces.flatten⟩ : Call)] else []) = (Arrival.partOf m part).calls ↔
      (part + 1 = m.pieces.length → ∀ src ∈ since, src = m.src) := by
  rw [Arrival.calls]
  by_cases hlast : part + 1 = m.pieces.length
  · rw [if_pos hlast, if_pos hlast, forall_prop_of_true hlast]
    cases since with
    | none => simp
    | some src => simp
  · rw [if_neg hlast, if_neg hlast]
    exact iff_of_true rfl fun h => absurd h hlast

/-- The first frame decides what is left to attribute. -/
theorem attributesAll_cons_iff {r next : Receiver} {arrival : Arrival} {calls : List Call}
    (hprocess : r.process (dispatch arrival.frame) = some (next, calls)) (rest : List Arrival) :
    AttributesAll r (arrival :: rest) ↔ calls = arrival.calls ∧ AttributesAll next rest := by
  rw [AttributesAll, hprocess]
  constructor
  · rintro ⟨other, hother, hrest⟩
    rcases Prod.mk.inj (Option.some.inj hother) with ⟨rfl, hcalls⟩
    exact ⟨hcalls, hrest⟩
  · rintro ⟨rfl, hrest⟩
    exact ⟨next, rfl, hrest⟩

/-- Traffic from a receiver on that has joined the parts of the message in progress. -/
theorem attributesAll_iff_from (arrivals : List Arrival) :
    ∀ (r : Receiver) (since : Option NodeAddress) (progress : Option (PartedMessage × Nat)),
      r.Holds since progress → InOrder progress arrivals →
        (AttributesAll r arrivals ↔ Undisturbed since arrivals) := by
  induction arrivals with
  | nil =>
      intro r since progress _ _
      exact Iff.rfl
  | cons arrival rest ih =>
      intro r since progress hholds horder
      cases arrival with
      | single p =>
          rcases horder with ⟨hlen, horder⟩
          rcases process_single r p (hlen.trans (by decide)) with ⟨dataBuffer, hprocess⟩
          have hnext := holds_single hholds p.src dataBuffer
          rw [attributesAll_cons_iff hprocess, Undisturbed, ih _ _ progress hnext horder]
          exact and_iff_right rfl
      | partOf m part =>
          rcases horder with ⟨hpart, hcurrent, horder⟩
          rcases process_part (joins_of_holds hcurrent hholds) hpart with ⟨next, hnext, hprocess⟩
          rw [Undisturbed]
          by_cases hroom : (m.joined (part + 1)).length ≤ multipartBufferSize
          · rw [if_pos hroom] at hprocess
            rw [attributesAll_cons_iff hprocess, calls_part_iff, ih next _ _ hnext horder,
              and_iff_right hroom]
          · rw [if_neg hroom] at hprocess
            refine iff_of_false ?_ fun h => hroom h.1
            rintro ⟨other, hother, -⟩
            cases hprocess.symm.trans hother

/-- **Attribution.** Traffic in order is attributed to the nodes that sent it exactly
when every message fits the buffer and none is disturbed by another node's packet. -/
theorem attributesAll_iff (arrivals : List Arrival) (horder : InOrder none arrivals) :
    AttributesAll .boot arrivals ↔ Undisturbed none arrivals :=
  attributesAll_iff_from arrivals .boot none none rfl horder

/-- Two parts of one byte each. -/
def twoParts : PartedMessage :=
  ⟨⟨10, 0, 1⟩, ⟨10, 0, 2⟩, 1, 0, [[1], [2]], by decide, by decide⟩

/-- A packet of another node in between. -/
def betweenParts : List Arrival :=
  [.partOf twoParts 0, .single ⟨⟨10, 0, 3⟩, ⟨10, 0, 2⟩, [3]⟩, .partOf twoParts 1]

theorem inOrder_betweenParts : InOrder none betweenParts :=
  ⟨by decide, rfl, by decide, by decide, ⟨rfl, rfl⟩, trivial⟩

/-- A packet of another node in between. -/
theorem attributesAll_iff_between_parts :
    AttributesAll .boot betweenParts ↔ Undisturbed none betweenParts :=
  attributesAll_iff betweenParts inOrder_betweenParts

/-- The packet in between takes over the message. -/
theorem message_attributed_to_another_node :
    ¬ ∀ arrivals : List Arrival, InOrder none arrivals → AttributesAll .boot arrivals := by
  intro hall
  have hattributed := hall betweenParts inOrder_betweenParts
  have hundisturbed :=
    (attributesAll_iff_from betweenParts .boot none none rfl inOrder_betweenParts).mp hattributed
  have hsame := hundisturbed.2.2.2.1 rfl ⟨10, 0, 3⟩ rfl
  exact absurd hsame (by decide)

end RadioDoge.Serdog
