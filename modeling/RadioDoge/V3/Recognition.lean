/-
# Is a confirmation recognised?

A gateway answers with `"confirmation:DOGECOIN_RESPONSE:…"`, in one frame or in
parts. The receiver looks for `"DOGECOIN_RESPONSE:"` at the start of the text, which
it reads from offset 7 of a single frame although the text stands at offset 8, and
from the reassembled data as it is. The type comes first on both paths.

What is left is a text of so many parts that their number wraps to one: each part
whose own number has wrapped to one is then handed on alone. `recognised_iff` says
that this is the only case in which a confirmation is recognised.
-/

import RadioDoge.V3.WrappedCounters
import RadioDoge.V3.Paths

namespace RadioDoge.V3

open Pieces

/-! ## Confirmations -/

/-- What a confirmation is known by. -/
def responseMark : Bytes := ascii "DOGECOIN_RESPONSE:"

theorem nulFree_responseMark : (0 : UInt8) ∉ responseMark := by decide

/-- The text a gateway sends, type first. -/
def confirmationText (response : Bytes) : Bytes :=
  ascii "confirmation" ++ colon :: (responseMark ++ response)

/-- That text in parts. -/
def confirmationMessage (localAddress originalSender : NodeAddress) (response : Bytes) :
    MultipartMessage :=
  ⟨localAddress, originalSender, 1, confirmationText response⟩

/-- The frame of a short one. -/
def confirmationFrame (localAddress originalSender : NodeAddress) (response : Bytes) : Bytes :=
  MessageType.message.code :: 0 :: localAddress.bytes ++ originalSender.bytes ++
    strncpy ((confirmationText response).take 247)

theorem confirmationFrames_short (localAddress originalSender : NodeAddress) {response : Bytes}
    (hshort : ¬ (responseMark ++ response).length > 240) :
    confirmationFrames localAddress originalSender (responseMark ++ response) =
      [confirmationFrame localAddress originalSender response] :=
  if_neg hshort

theorem confirmationFrames_long (localAddress originalSender : NodeAddress) {response : Bytes}
    (hlong : (responseMark ++ response).length > 240) :
    confirmationFrames localAddress originalSender (responseMark ++ response) =
      (confirmationMessage localAddress originalSender response).frames :=
  if_pos hlong

/-- Whenever a node with this address and no open session has received these frames, in
any order, it has called `HandleConfirmationReceived`, and no access on the way was
out of bounds. -/
def Recognised (frames : List Bytes) (address : NodeAddress) : Prop :=
  ∀ (world : World) (origin : Node) (arrivals : List (UInt32 × Bytes)),
    origin.localAddress = address → origin.Idle → (arrivals.map Prod.snd).Perm frames →
    MemorySafe (origin.receiveAll world arrivals) ∧
      confirmations (origin.receiveAll world arrivals).val.2 ≠ []

/-- The text is cut into `256 * q + 1` parts, so that each frame says there is one part.
Every 256th part, whose own number wraps to one, holds a NUL, and one of them begins
with the mark. -/
structure WrapsToSinglePart (response : Bytes) : Prop where
  total : pieceCount multipartChunkSize (confirmationText response).length % 256 = 1
  terminated : ∀ part < pieceCount multipartChunkSize (confirmationText response).length,
    part % 256 = 0 → 0 ∈ piece multipartChunkSize (confirmationText response) part
  marked : ∃ part < pieceCount multipartChunkSize (confirmationText response).length,
    part % 256 = 0 ∧ responseMark <+: piece multipartChunkSize (confirmationText response) part

theorem confirmations_append (first second : List Effect) :
    confirmations (first ++ second) = confirmations first ++ confirmations second :=
  List.filterMap_append

/-- A text that begins with another letter is no confirmation. -/
theorem not_mark_of_head {text : Bytes} (h : text.head? = some 99) : ¬ responseMark <+: text := by
  rintro ⟨rest, rfl⟩
  exact absurd h (by decide : ¬ some (68 : UInt8) = some 99)

theorem startsWith_mark (text : Bytes) :
    startsWith text (ascii "DOGECOIN_RESPONSE:") = true ↔ responseMark <+: text :=
  startsWith_iff _ _

/-- A reassembled message is a confirmation if it begins with the mark. -/
theorem confirmations_processReassembledMessage (data : Bytes) (node : Node) :
    confirmations (processReassembledMessage data node).2 =
      if responseMark <+: data then [data] else [] := by
  rw [processReassembledMessage, confirmations_append]
  by_cases hmark : responseMark <+: data
  · rw [if_pos ((startsWith_mark _).mpr hmark), if_pos hmark]
    rfl
  · rw [if_neg (mt (startsWith_mark _).mp hmark), if_neg hmark]
    rfl

/-- The first part of a confirmation begins with its type. -/
theorem head_chunk_confirmation (localAddress originalSender : NodeAddress) (response : Bytes) :
    ((confirmationMessage localAddress originalSender response).chunk 0).head? = some 99 := by
  have hpiece : piece multipartChunkSize (confirmationText response) 0 =
      99 :: (((ascii "onfirmation" ++ colon :: (responseMark ++ response))).take 199) := by
    rw [piece_zero]
    rfl
  rw [MultipartMessage.chunk, confirmationMessage, hpiece]
  rfl

/-! ## The single frame -/

section SingleFrame

variable (world : World) (now : UInt32)

/-- The text read from a single frame begins one byte too early. -/
theorem confirmations_receive_message {payload : Bytes} (node : Node)
    (hkind : (node.receiver.rx.onRxDone payload).byte 0 = MessageType.message.code)
    (hsize : 9 ≤ payload.length) (hbyte : (node.receiver.rx.onRxDone payload).byte 8 ≠ 79) :
    confirmations (node.receive world now payload).val.2 = [] := by
  let heard := node.withReceiver ⟨node.receiver.rx.onRxDone payload, node.receiver.table⟩
  have hheard : heard.receiver.rx.byte 0 = MessageType.message.code := hkind
  let text := slice heard.receiver.rx.rxPacket 7 (heard.receiver.rx.rxSize - 6).toNat
  have hreturns : extractStringMessageFromBuffer world heard.receiver.rx =
      some (ofCString (text ++ world.heap)) := by
    have hlong : ¬ heard.receiver.rx.rxSize - 6 < 0 := by
      change ¬ (payload.length : Int) - 6 < 0
      omega
    exact if_neg hlong
  have htext : ¬ responseMark <+: ofCString (text ++ world.heap) := by
    intro hmark
    have hstring : ofCString (text ++ world.heap) <+: text ++ world.heap := List.takeWhile_prefix _
    have hcount : 1 < (heard.receiver.rx.rxSize - 6).toNat := by
      change 1 < ((payload.length : Int) - 6).toNat
      omega
    have hsecond : text[1]? = some (heard.receiver.rx.byte 8) := by
      rw [getElem?_slice, if_pos hcount, RxBuffer.byte, Vector.getElem?_eq_getElem (by decide),
        Option.getD_some]
    have hread := (hmark.trans hstring).getElem (show 1 < responseMark.length by decide)
    have hin := (List.getElem?_eq_some_iff.mp hsecond).1
    have hvalue := (List.getElem?_eq_some_iff.mp hsecond).2
    rw [List.getElem_append_left hin, hvalue] at hread
    exact hbyte hread.symm
  change confirmations (heard.parseReceivedMessage world now).val.2 = []
  by_cases hforMe : heard.localAddress = heard.receiver.rx.destination
  · have hcase : packetKind (heard.receiver.rx.byte 0) = .message := by
      rw [hheard]
      rfl
    rw [Node.parse_forMe world now hforMe, Node.receivedForMe, hcase]
    simp only [hreturns]
    rw [if_neg (mt (startsWith_mark _).mp htext)]
    rfl
  · by_cases hglobal : heard.receiver.rx.destination = NodeAddress.broadcast
    · rw [Node.parse_global world now hforMe hglobal, Node.receivedGlobalBroadcast, hheard]
      rfl
    · rw [Node.parse_foreign world now hforMe hglobal]
      rfl

/-- What no packet is taken for, no run is taken for. -/
theorem confirmations_receiveAll_nil {arrivals : List (UInt32 × Bytes)}
    (hnone : ∀ arrival ∈ arrivals, ∀ node : Node,
      confirmations (node.receive world arrival.1 arrival.2).val.2 = []) (node : Node) :
    confirmations (node.receiveAll world arrivals).val.2 = [] := by
  induction arrivals generalizing node with
  | nil => rfl
  | cons arrival rest ih =>
      obtain ⟨now, payload⟩ := arrival
      rw [Node.val_receiveAll_cons, confirmations_append,
        hnone (now, payload) List.mem_cons_self node, List.nil_append]
      exact ih (fun later hmem => hnone later (List.mem_cons_of_mem _ hmem)) _

/-- The frame of a short confirmation is never recognised. -/
theorem confirmations_receive_short (localAddress originalSender : NodeAddress) (response : Bytes)
    (node : Node) :
    confirmations (node.receive world now
      (confirmationFrame localAddress originalSender response)).val.2 = [] := by
  obtain ⟨rest, hrest, hlength⟩ : ∃ rest : Bytes,
      strncpy ((confirmationText response).take 247) = 99 :: rest ∧ rest.length ≤ 246 := by
    have htake : (confirmationText response).take 247 =
        99 :: ((ascii "onfirmation" ++ colon :: (responseMark ++ response)).take 246) := rfl
    refine ⟨strncpy ((ascii "onfirmation" ++ colon :: (responseMark ++ response)).take 246),
      ?_, ?_⟩
    · rw [htake]
      simp only [strncpy, strlen, ofCString, List.takeWhile_cons, List.length_cons]
      simp
    · rw [length_strncpy, List.length_take]
      exact Nat.min_le_left _ _
  rw [confirmationFrame, hrest]
  have hlong : 9 ≤ (MessageType.message.code :: 0 :: localAddress.bytes ++ originalSender.bytes ++
      99 :: rest).length := by
    simp only [List.length_append, List.length_cons, NodeAddress.length_bytes]
    omega
  have hfits : (MessageType.message.code :: 0 :: localAddress.bytes ++ originalSender.bytes ++
      99 :: rest).length < bufferSize := by
    simp only [List.length_append, List.length_cons, NodeAddress.length_bytes, bufferSize]
    omega
  refine confirmations_receive_message world now node ?_ hlong ?_
  · rw [RxBuffer.byte_onRxDone _ (by omega) hfits]
    rfl
  · rw [RxBuffer.byte_onRxDone _ (by omega) hfits]
    exact (by decide : (99 : UInt8) ≠ 79)

/-- Nor are any number of copies. -/
theorem confirmations_receiveAll_short (localAddress originalSender : NodeAddress)
    (response : Bytes) {frames : List Bytes}
    (hframes : ∀ frame ∈ frames, frame = confirmationFrame localAddress originalSender response)
    (node : Node) : confirmations (node.receiveAll world (atZero frames)).val.2 = [] := by
  refine confirmations_receiveAll_nil world (fun arrival hmem node => ?_) node
  obtain ⟨frame, hframe, rfl⟩ := List.mem_map.mp hmem
  have hshort := confirmations_receive_short world 0 localAddress originalSender response node
  rwa [← hframes frame hframe] at hshort

end SingleFrame

/-! ## The parts -/

section Parts

variable {localAddress originalSender : NodeAddress} {response : Bytes}

theorem confirmations_flatMap {α : Type} (f : α → List Effect) (items : List α) :
    confirmations (items.flatMap f) = items.flatMap fun item => confirmations (f item) :=
  List.filterMap_flatMap

/-- No confirmation is recognised exactly when no text handed on has the mark. -/
theorem confirmations_deliver_eq_nil_iff {m : MultipartMessage} (world : World)
    (htotal : m.wireTotal ≤ maxMultipartParts) (htype : m.dataType = 1)
    (deliveries : List Delivery) {origin : Node} (haccept : origin.Accepts m.dest)
    (hidle : origin.Idle) :
    confirmations (origin.receiveAll world (deliveries.map m.arrival)).val.2 = [] ↔
      ∀ handed ∈ (Assembly.deliver m [] deliveries).2, ¬ responseMark <+: handed.data := by
  rw [effects_deliver world htotal htype deliveries origin [] haccept
    (Node.tableRepresents_idle hidle), confirmations_flatMap, List.flatMap_eq_nil_iff]
  refine forall₂_congr fun handed _ => ?_
  rw [confirmations_processReassembledMessage]
  by_cases hmark : responseMark <+: handed.data
  · simp [hmark]
  · simp [hmark]

/-- With a total of one, a confirmation is recognised by a part numbered one. -/
theorem confirmations_one_eq_nil_iff {m : MultipartMessage} (world : World)
    (hone : m.wireTotal = 1) (htype : m.dataType = 1) (deliveries : List Delivery)
    {origin : Node} (haccept : origin.Accepts m.dest) (hidle : origin.Idle) :
    confirmations (origin.receiveAll world (deliveries.map m.arrival)).val.2 = [] ↔
      ∀ part ∈ deliveries.map Prod.snd, part % 256 = 0 →
        ¬ responseMark <+: piece multipartChunkSize m.text part := by
  rw [confirmations_deliver_eq_nil_iff world (hone.trans_le (by decide)) htype deliveries haccept
    hidle, deliver_one hone htype deliveries (.inl rfl)]
  simp only [List.forall_mem_map, List.mem_filter, and_imp, decide_eq_true_eq]
  refine forall₂_congr fun delivery _ => ?_
  have hnumber : (delivery.2 + 1) % 256 = 1 ↔ delivery.2 % 256 = 0 := by omega
  rw [hnumber, MultipartMessage.chunk, prefix_strncpy_iff nulFree_responseMark]

/-- A data byte of the frame in the receive buffer. -/
theorem Carries.getElem?_data {rx : RxBuffer} {f : PartFrame} (hf : Carries rx f) {i : Nat}
    (hi : i < f.data.length) : f.data[i]? = some (rx.byte (multipartHeaderSize + i)) := by
  have hin : multipartHeaderSize + i < bufferSize := by
    have := hf.fits
    simp only [multipartHeaderSize, multipartChunkSize, bufferSize] at *
    omega
  rw [← hf.data, getElem?_slice, if_pos hi, RxBuffer.byte, Vector.getElem?_eq_getElem hin,
    Option.getD_some]

theorem Carries.dataSize_eq {rx : RxBuffer} {f : PartFrame} (hf : Carries rx f) :
    rx.dataSize = f.data.length := by
  rw [RxBuffer.dataSize, hf.size]
  omega

/-- A frame numbered one of one, with a NUL in its data, fits a session of one part. -/
theorem partFits_one {rx : RxBuffer} {f : PartFrame} {s : MultipartReassembly} {a : Assembly}
    (hf : Carries rx f) (htotal : f.total = 1) (hs : Represents s a) (ha : a.total = 1)
    (hnul : f.number = 1 → 0 ∈ f.data) : PartFits rx s (rx.byte 7) (rx.byte 8) := by
  have hnumber := hf.number
  have htotal' := hf.total.trans htotal
  have hsize := hf.dataSize_eq
  have hfits := hf.fits
  have hparts := hs.total.trans ha
  by_cases hone : f.number = 1
  · obtain ⟨i, hi, hzero⟩ := List.getElem_of_mem (hnul hone)
    have hbyte : rx.byte (multipartHeaderSize + i) = 0 := by
      have hread := hf.getElem?_data hi
      rw [List.getElem?_eq_getElem hi, hzero, Option.some.injEq] at hread
      exact hread.symm
    have hfirst : (rx.byte 7).toNat = 1 := hnumber.trans hone
    have hstore : StoreFits rx s (rx.byte 7) := by
      refine ⟨?_, ?_, ?_⟩
      · rw [hparts]
        decide
      · rw [hf.size]
        omega
      · rw [hfirst, hsize]
        simp only [multipartChunkSize, assembledSize] at *
        omega
    have hjoin : JoinFits rx s (rx.byte 7) := by
      refine ⟨?_, fun last hlast _ => ?_⟩
      · rw [hparts, List.range_one, List.map_singleton, List.sum_singleton, sizeAfter,
          if_pos hfirst.symm, hsize]
        simp only [multipartChunkSize, assembledSize] at *
        omega
      · obtain rfl : last = 0 := by omega
        refine ⟨i, Nat.zero_le _, ?_, ?_⟩
        · simp only [multipartChunkSize, assembledSize] at *
          omega
        · have hstart : ((rx.byte 7).toNat - 1) * multipartChunkSize = 0 := by rw [hfirst]; rfl
          rw [byteAfter]
          simp only [hstart, hsize]
          rw [if_pos ⟨Nat.zero_le _, by omega⟩]
          exact hbyte
    exact .inr (.inr ⟨by rw [hfirst]; decide, .inr ⟨hstore, fun _ => hjoin⟩⟩)
  · rw [PartFits, gt_iff_lt, UInt8.lt_iff_toNat_lt, UInt8.lt_iff_toNat_lt]
    have hunit : (1 : UInt8).toNat = 1 := rfl
    by_cases hzero : f.number = 0
    · exact .inl (by omega)
    · exact .inr (.inl (by omega))

/-- With a total of one, a run is safe if every part numbered one holds a NUL. -/
theorem memorySafe_one {m : MultipartMessage} (world : World) (hone : m.wireTotal = 1)
    (htype : m.dataType = 1) {deliveries : List Delivery}
    (hnul : ∀ part ∈ deliveries.map Prod.snd, part % 256 = 0 →
      0 ∈ piece multipartChunkSize m.text part) {origin : Node}
    (haccept : origin.Accepts m.dest) (hidle : origin.Idle) :
    MemorySafe (origin.receiveAll world (deliveries.map m.arrival)) := by
  refine memorySafe_deliver world (hone.trans_le (by decide)) htype (Current m Assembly.Vacant)
    (fun now part opens _ h => (receive_one hone htype now part h).1) ?_ origin [] haccept
    (Node.tableRepresents_idle hidle) (.inl rfl)
  intro now part rx table opens hpart hcurrent htable hcarries s hs
  obtain ⟨a, hrep, ha⟩ := sessionOf_represents htable hcarries now hs
  have htotal : a.total = 1 := by
    cases ha with
    | inl hmem =>
        cases hcurrent with
        | inl hnone =>
            rw [hnone] at hmem
            cases hmem
        | inr hsome =>
            obtain ⟨b, rfl, hb, -⟩ := hsome
            rw [List.mem_singleton.mp hmem, hb.total, hone]
    | inr hopened => exact hopened ▸ hone
  refine partFits_one hcarries hone hrep htotal fun hnumber => ?_
  rw [show (m.wireFrame part).data = m.chunk part from rfl, MultipartMessage.chunk,
    zero_mem_strncpy_iff]
  refine hnul part hpart ?_
  change (part + 1) % 256 = 1 at hnumber
  omega

/-! ## Orders of arrival that fail -/

/-- Deliveries of these parts, in this order. -/
def deliveriesOf (parts : List Nat) : List Delivery := parts.map (Prod.mk 0)

theorem map_snd_deliveriesOf (parts : List Nat) : (deliveriesOf parts).map Prod.snd = parts := by
  rw [deliveriesOf, List.map_map]
  exact List.map_id parts

/-- The parts of a message that is sent twice. -/
def partsTwice (m : MultipartMessage) : List Nat := List.range m.parts ++ List.range m.parts

theorem mem_partsTwice {m : MultipartMessage} {part : Nat} :
    part ∈ partsTwice m ↔ part < m.parts := by
  rw [partsTwice, List.mem_append, List.mem_range, or_self]

theorem frames_twice (m : MultipartMessage) : m.frames ++ m.frames = (partsTwice m).map m.frame :=
  List.map_append.symm

/-- Any order of the parts is an order of arrival. -/
theorem arrivals_perm {m : MultipartMessage} {order : List Nat} (h : order.Perm (partsTwice m)) :
    (((deliveriesOf order).map m.arrival).map Prod.snd).Perm (m.frames ++ m.frames) := by
  rw [m.map_snd_arrival, map_snd_deliveriesOf, frames_twice]
  exact h.map _

/-- A node with this address and this session table. -/
def waitingNode (address : NodeAddress) (table : SessionTable) : Node :=
  { plainNode with localAddress := address, receiver := ⟨RxBuffer.boot, table⟩ }

theorem idle_waitingNode (address : NodeAddress) :
    (waitingNode address SessionTable.boot).Idle := rfl

/-- Memory without a NUL left over from earlier sessions. -/
def staleTable : SessionTable :=
  SlotTable.empty (Vector.replicate maxMultipartParts
    { (default : MultipartReassembly) with assembledData := Vector.replicate assembledSize 1 })

/-- At an idle node, a frame opens a session in the first slot. -/
theorem sessionOf_idle (now : UInt32) (rx : RxBuffer) {table : SessionTable}
    (hidle : table.count = 0) :
    sessionOf now rx table = some ((table.slots[0]?.getD default).reuse now
      ⟨rx.byte 4, rx.byte 5, rx.byte 6⟩ (rx.byte 8) (rx.byte 9)) := by
  have hlive : table.live = [] := (SlotTable.live_eq_nil_iff table).mpr hidle
  have hfind : findMultipartSession table ⟨rx.byte 4, rx.byte 5, rx.byte 6⟩ (rx.byte 9) =
      none := by
    rw [findMultipartSession, hlive]
    rfl
  simp only [sessionOf, hfind, hidle]
  exact if_pos (by decide)

/-- A frame that does not fit may come first. -/
theorem not_recognised_of_first {m : MultipartMessage} {part : Nat} (hpart : part < m.parts)
    (table : SessionTable) (hidle : table.count = 0)
    (hunfit : ¬ FrameFits 0 (RxBuffer.boot.onRxDone (m.frame part)) table) :
    ¬ Recognised (m.frames ++ m.frames) m.dest := by
  intro hrecognised
  have hperm : (part :: (partsTwice m).erase part).Perm (partsTwice m) :=
    (List.perm_cons_erase (mem_partsTwice.mpr hpart)).symm
  obtain ⟨hsafe, -⟩ := hrecognised silentWorld (waitingNode m.dest table) _ rfl hidle
    (arrivals_perm hperm)
  have hfirst : MemorySafe ((waitingNode m.dest table).receive silentWorld 0 (m.frame part)) :=
    ((Traced.every_bind _ _ _).mp hsafe).1
  rw [Node.receive_frame silentWorld 0 m part _ (.inl rfl)] at hfirst
  have hsize : (ReceiverInput.frame 0 (m.frame part)).SizeOk := by
    refine ⟨?_, m.length_frame_lt part⟩
    rw [m.length_frame]
    exact Nat.le_add_right_of_le (by decide)
  have hwaiting : (waitingNode m.dest table).Idle := hidle
  have htrue := (Node.tableRepresents_idle hwaiting).tableTrue
  exact hunfit ((memorySafe_step htrue _ hsize).mp ((Traced.every_bind _ _ _).mp hfirst).1)

/-- With a total above 20, part 21 alone is out of bounds. -/
theorem not_recognised_of_many {m : MultipartMessage} (hmany : maxMultipartParts < m.wireTotal) :
    ¬ Recognised (m.frames ++ m.frames) m.dest := by
  have hpart : 20 < m.parts := hmany.trans_le (Nat.mod_le _ _)
  refine not_recognised_of_first hpart SessionTable.boot rfl fun hfits => ?_
  have hnumber : (RxBuffer.boot.onRxDone (m.frame 20)).byte 7 = 21 :=
    m.byte_header RxBuffer.boot 20 (by decide)
  have htotal : (RxBuffer.boot.onRxDone (m.frame 20)).byte 8 = UInt8.ofNat m.parts :=
    m.byte_header RxBuffer.boot 20 (by decide)
  have hopened := hfits _ (sessionOf_idle 0 _ rfl)
  rw [hnumber, htotal] at hopened
  rcases hopened with hzero | hover | ⟨hlast, -⟩
  · exact absurd hzero (by decide)
  · have hsmall : m.wireTotal < 21 := by
      rw [gt_iff_lt, UInt8.lt_iff_toNat_lt, UInt8.toNat_ofNat'] at hover
      exact hover
    exact absurd hmany (by simp only [maxMultipartParts]; omega)
  · exact absurd hlast (by decide)

/-- With a total of one, a part numbered one without a NUL runs off the end of memory
that holds none either. -/
theorem not_recognised_of_nulFree {m : MultipartMessage} (hone : m.wireTotal = 1) {part : Nat}
    (hpart : part < m.parts) (hfirst : part % 256 = 0)
    (hfree : 0 ∉ piece multipartChunkSize m.text part) :
    ¬ Recognised (m.frames ++ m.frames) m.dest := by
  refine not_recognised_of_first hpart staleTable rfl fun hfits => ?_
  have hcarries := m.carries_wireFrame RxBuffer.boot part (hone.trans_le (by decide))
  have hnumber : ((RxBuffer.boot.onRxDone (m.frame part)).byte 7).toNat = 1 := by
    refine hcarries.number.trans ?_
    change (part + 1) % 256 = 1
    omega
  have htotal : ((RxBuffer.boot.onRxDone (m.frame part)).byte 8).toNat = 1 :=
    hcarries.total.trans hone
  generalize RxBuffer.boot.onRxDone (m.frame part) = rx at hfits hcarries hnumber htotal
  have hnumber' : rx.byte 7 = 1 := UInt8.toNat_inj.mp hnumber
  have htotal' : rx.byte 8 = 1 := UInt8.toNat_inj.mp htotal
  have hopened := hfits _ (sessionOf_idle 0 _ rfl)
  rw [hnumber', htotal'] at hopened
  rcases hopened with hzero | hover | ⟨-, hdup | ⟨-, hjoin⟩⟩
  · exact absurd hzero (by decide)
  · exact absurd hover (by decide)
  · simp [MultipartReassembly.received, MultipartReassembly.reuse] at hdup
  · obtain ⟨j, -, hj, hnul⟩ := (hjoin rfl).terminated 0 rfl (.inl rfl)
    rw [byteAfter] at hnul
    simp only [hcarries.dataSize_eq] at hnul
    split at hnul
    · rename_i hin
      have hstart : ((1 : UInt8).toNat - 1) * multipartChunkSize = 0 := rfl
      have hlt : j < (m.wireFrame part).data.length := by omega
      have hread := hcarries.getElem?_data hlt
      rw [hstart, Nat.sub_zero] at hnul
      rw [hnul] at hread
      have hmem : (0 : UInt8) ∈ m.chunk part := List.mem_of_getElem? hread
      exact hfree ((zero_mem_strncpy_iff _).mp hmem)
    · have hstale : staleTable.slots[0]?.getD default =
          { (default : MultipartReassembly) with
            assembledData := Vector.replicate assembledSize 1 } := rfl
      rw [hstale] at hnul
      simp [MultipartReassembly.reuse, hj] at hnul

/-- With a total of zero nothing is handed on. -/
theorem not_recognised_of_zero {m : MultipartMessage} (hzero : m.wireTotal = 0)
    (htype : m.dataType = 1) : ¬ Recognised (m.frames ++ m.frames) m.dest := by
  intro hrecognised
  obtain ⟨-, hcalled⟩ := hrecognised silentWorld _ _ rfl (idle_waitingNode m.dest)
    (arrivals_perm (List.Perm.refl (partsTwice m)))
  refine hcalled ((confirmations_deliver_eq_nil_iff silentWorld (hzero.trans_le (by decide)) htype
    _ (.inl rfl) (idle_waitingNode m.dest)).mpr fun handed hmem => ?_)
  rw [deliver_zero hzero] at hmem
  cases hmem

/-- With a total between two and 20, the first part of the text may come first, and all
parts numbered one before the others. -/
theorem not_recognised_of_several {m : MultipartMessage} (hseveral : 2 ≤ m.wireTotal)
    (htotal : m.wireTotal ≤ maxMultipartParts) (htype : m.dataType = 1)
    (hhead : (m.chunk 0).head? = some 99) : ¬ Recognised (m.frames ++ m.frames) m.dest := by
  intro hrecognised
  have hpos : 0 < m.parts := (by omega : 0 < m.wireTotal).trans_le (Nat.mod_le _ _)
  let rest := (partsTwice m).erase 0
  let ones := rest.filter fun part => (part + 1) % 256 = 1
  let others := rest.filter fun part => !decide ((part + 1) % 256 = 1)
  have hperm : (0 :: (ones ++ others)).Perm (partsTwice m) :=
    ((List.filter_append_perm _ rest).cons 0).trans
      (List.perm_cons_erase (mem_partsTwice.mpr hpos)).symm
  obtain ⟨-, hcalled⟩ := hrecognised silentWorld _ _ rfl (idle_waitingNode m.dest)
    (arrivals_perm hperm)
  refine hcalled ((confirmations_deliver_eq_nil_iff silentWorld htotal htype _ (.inl rfl)
    (idle_waitingNode m.dest)).mpr fun handed hmem => ?_)
  have hones : ∀ part ∈ (deliveriesOf ones).map Prod.snd, (part + 1) % 256 = 1 := by
    intro part hpart
    rw [map_snd_deliveriesOf] at hpart
    simpa using (List.mem_filter.mp hpart).2
  have hothers : ∀ part ∈ (deliveriesOf others).map Prod.snd, (part + 1) % 256 ≠ 1 := by
    intro part hpart
    rw [map_snd_deliveriesOf] at hpart
    simpa using (List.mem_filter.mp hpart).2
  have hsplit : deliveriesOf (0 :: (ones ++ others)) =
      (0, 0) :: (deliveriesOf ones ++ deliveriesOf others) := by
    rw [deliveriesOf, List.map_cons, List.map_append]
    rfl
  rw [hsplit] at hmem
  have hbegin : m.chunk 0 <+: handed.data := deliver_first hseveral 0 hones hothers handed hmem
  refine not_mark_of_head ?_
  obtain ⟨tail, htail⟩ := hbegin
  rw [← htail, List.head?_append, hhead]
  rfl

end Parts

/-! ## When a confirmation is recognised -/

section Agreement

variable (localAddress originalSender : NodeAddress) (response : Bytes)

/-- The first part of the text does not begin with the mark. -/
theorem not_marked_zero :
    ¬ responseMark <+: piece multipartChunkSize (confirmationText response) 0 := by
  rw [piece_zero]
  exact not_mark_of_head rfl

/-- In parts, a confirmation is recognised exactly when its counters wrap to one. -/
theorem recognised_parts_iff :
    Recognised ((confirmationMessage localAddress originalSender response).frames ++
        (confirmationMessage localAddress originalSender response).frames) originalSender ↔
      WrapsToSinglePart response := by
  let m := confirmationMessage localAddress originalSender response
  have htype : m.dataType = 1 := rfl
  constructor
  · intro hrecognised
    have hone : m.wireTotal = 1 := by
      by_contra hother
      by_cases hmany : maxMultipartParts < m.wireTotal
      · exact not_recognised_of_many hmany hrecognised
      · by_cases hzero : m.wireTotal = 0
        · exact not_recognised_of_zero hzero htype hrecognised
        · exact not_recognised_of_several (by omega) (Nat.le_of_not_lt hmany) htype
            (head_chunk_confirmation localAddress originalSender response) hrecognised
    refine ⟨hone, fun part hpart hfirst => ?_, ?_⟩
    · by_contra hfree
      exact not_recognised_of_nulFree hone hpart hfirst hfree hrecognised
    · obtain ⟨-, hcalled⟩ := hrecognised silentWorld _ _ rfl (idle_waitingNode m.dest)
        (arrivals_perm (List.Perm.refl (partsTwice m)))
      by_contra hnone
      push Not at hnone
      refine hcalled ((confirmations_one_eq_nil_iff silentWorld hone htype _ (.inl rfl)
        (idle_waitingNode m.dest)).mpr fun part hpart hfirst => ?_)
      rw [map_snd_deliveriesOf] at hpart
      exact hnone part (mem_partsTwice.mp hpart) hfirst
  · rintro ⟨htotal, hnul, part, hpart, hfirst, hmark⟩ world origin arrivals rfl hidle harrivals
    have hone : m.wireTotal = 1 := htotal
    have haccept : origin.Accepts m.dest := .inl rfl
    obtain ⟨deliveries, rfl, hparts⟩ := m.exists_deliveries (frames_twice m ▸ harrivals)
    have hmem : ∀ other, other ∈ deliveries.map Prod.snd ↔ other < m.parts := fun other =>
      hparts.mem_iff.trans mem_partsTwice
    refine ⟨memorySafe_one world hone htype (fun other hother hzero => ?_) haccept hidle,
      fun hnone => ?_⟩
    · exact hnul other ((hmem other).mp hother) hzero
    · exact (confirmations_one_eq_nil_iff world hone htype deliveries haccept hidle).mp hnone part
        ((hmem part).mpr hpart) hfirst hmark

/-- In a single frame, it is never recognised. -/
theorem not_recognised_short :
    ¬ Recognised ([confirmationFrame localAddress originalSender response] ++
      [confirmationFrame localAddress originalSender response]) originalSender := by
  intro hrecognised
  have harrivals : (atZero ([confirmationFrame localAddress originalSender response] ++
      [confirmationFrame localAddress originalSender response])).map Prod.snd = _ :=
    map_snd_atZero _
  obtain ⟨-, hcalled⟩ := hrecognised silentWorld _ _ rfl (idle_waitingNode originalSender)
    (List.Perm.of_eq harrivals)
  refine hcalled (confirmations_receiveAll_short silentWorld localAddress originalSender response
    (fun frame hframe => ?_) _)
  rwa [List.mem_append, or_self, List.mem_singleton] at hframe

/-- A confirmation that is sent twice, on either path. -/
theorem recognised_iff :
    Recognised (confirmationFrames localAddress originalSender (responseMark ++ response) ++
        confirmationFrames localAddress originalSender (responseMark ++ response)) originalSender ↔
      WrapsToSinglePart response := by
  by_cases hlong : (responseMark ++ response).length > 240
  · rw [confirmationFrames_long localAddress originalSender hlong]
    exact recognised_parts_iff localAddress originalSender response
  · rw [confirmationFrames_short localAddress originalSender hlong]
    refine iff_of_false (fun hrecognised => ?_) fun hwraps => ?_
    · exact not_recognised_short localAddress originalSender response hrecognised
    · obtain ⟨part, hpart, hfirst, hmark⟩ := hwraps.marked
      have hlength : (confirmationText response).length ≤ 2 * multipartChunkSize := by
        have htext : (confirmationText response).length = 13 + (responseMark ++ response).length := by
          simp [confirmationText, ascii]
          omega
        simp only [multipartChunkSize]
        omega
      have hfew : pieceCount multipartChunkSize (confirmationText response).length ≤ 2 :=
        (pieceCount_le_iff (by decide) 2).mpr hlength
      obtain rfl : part = 0 := by omega
      exact not_marked_zero response hmark

end Agreement

/-- **A confirmation is recognised only by a part that starts over.** A gateway has
submitted the transaction it was handed; its two confirmations are recognised by the
original sender exactly when their part numbers wrap. -/
theorem confirmation_recognised_iff (http : Http) (handed : Reassembled) (gateway : Node)
    (htype : handed.dataType = 0 ∨ handed.dataType = 2) {call : Submission}
    (hcall : gateway.submission handed.txData = some call) :
    Recognised (transmissions (processReassembled http handed gateway).val.2) handed.src ↔
      WrapsToSinglePart (call.call http gateway.internetConnected).1 := by
  rw [(effects_with_gateway http handed gateway htype hcall).2]
  exact recognised_iff gateway.localAddress handed.src _

/-- A gateway on the internet. -/
def onlineGateway : Node := { plainNode with internetConnected := true }

/-- A server that accepts every transaction. -/
def acceptingServer : Http := fun _ => ⟨200, ascii "ok", []⟩

/-- A transaction from 10.0.2. -/
def handedTransaction : Reassembled := ⟨0, ascii "signed:01000000017a", ⟨10, 0, 2⟩⟩

theorem submission_handedTransaction : onlineGateway.submission handedTransaction.txData =
    some (.sendTransactionToInternet handedTransaction.txData) := rfl

/-- The equivalence for a short answer. -/
theorem confirmation_recognised_iff_ok :
    Recognised (transmissions
        (processReassembled acceptingServer handedTransaction onlineGateway).val.2) ⟨10, 0, 2⟩ ↔
      WrapsToSinglePart ((Submission.sendTransactionToInternet handedTransaction.txData).call
        acceptingServer true).1 :=
  confirmation_recognised_iff acceptingServer handedTransaction onlineGateway (.inl rfl)
    submission_handedTransaction

/-- The answer `"ok"` is confirmed twice, and neither copy is recognised. -/
theorem short_answer_not_recognised :
    transmissions (processReassembled acceptingServer handedTransaction onlineGateway).val.2 ≠ [] ∧
      confirmations ((waitingNode ⟨10, 0, 2⟩ SessionTable.boot).receiveAll silentWorld
        (atZero (transmissions (processReassembled acceptingServer handedTransaction
          onlineGateway).val.2))).val.2 = [] := by
  have hsent := (effects_with_gateway acceptingServer handedTransaction onlineGateway (.inl rfl)
    submission_handedTransaction).2
  have hanswer : ((Submission.sendTransactionToInternet handedTransaction.txData).call
      acceptingServer onlineGateway.internetConnected).1 = ascii "ok" := rfl
  have hframes := confirmationFrames_short onlineGateway.localAddress handedTransaction.src
    (by decide : ¬ (responseMark ++ ascii "ok").length > 240)
  rw [hanswer] at hsent
  rw [hsent.trans (congrArg₂ (· ++ ·) hframes hframes)]
  refine ⟨List.cons_ne_nil _ _, ?_⟩
  refine confirmations_receiveAll_short silentWorld onlineGateway.localAddress
    handedTransaction.src (ascii "ok") (fun frame hframe => ?_) _
  rwa [List.mem_append, or_self, List.mem_singleton] at hframe

end RadioDoge.V3
