/-
# The multipart receiver of the v3 firmware

Parts are collected in a table of at most 20 sessions, keyed by source address
and data type. `ProcessMultipartPacket` finds or creates the session of a
received frame, stores the part, and hands the joined data on as soon as the
number of received parts equals the total written in the frame it has just
processed. The definitions follow the firmware statement by statement and run in
`Checked`, so each index used is on record.

`ReassembleMultipartPacket` calls one of three `ProcessReassembled*` functions
before it removes the session. None of them touches the session table, so the
data is returned here, as `handed`, and the node module dispatches it.
-/

import RadioDoge.V3.Memory
import RadioDoge.Lib.SlotTable

namespace RadioDoge.V3

/-- `MULTIPART_TIMEOUT_MS`. -/
abbrev multipartTimeoutMs : UInt32 := 30000

/-- `struct MultipartReassembly`. -/
structure MultipartReassembly where
  srcRegion : UInt8
  srcCommunity : UInt8
  srcNode : UInt8
  totalParts : UInt8
  receivedParts : UInt8
  dataType : UInt8
  startTime : UInt32
  assembledData : Vector UInt8 assembledSize
  partsReceived : Vector Bool maxMultipartParts
  partSizes : Vector UInt16 maxMultipartParts

namespace MultipartReassembly

/-- A slot of the zero-initialised global array. -/
instance : Inhabited MultipartReassembly where
  default :=
    { srcRegion := 0
      srcCommunity := 0
      srcNode := 0
      totalParts := 0
      receivedParts := 0
      dataType := 0
      startTime := 0
      assembledData := Vector.replicate assembledSize 0
      partsReceived := Vector.replicate maxMultipartParts false
      partSizes := Vector.replicate maxMultipartParts 0 }

/-- The source address of a session. -/
def src (s : MultipartReassembly) : NodeAddress := ⟨s.srcRegion, s.srcCommunity, s.srcNode⟩

end MultipartReassembly

/-- `multipartBuffer` and `activeMultipartSessions`. -/
abbrev SessionTable := SlotTable MultipartReassembly maxMultipartParts

/-- The session table after a reset. -/
def SessionTable.boot : SessionTable := SlotTable.empty (Vector.replicate maxMultipartParts default)

/-- `rxPacket` and `rxSize`. -/
structure RxBuffer where
  rxPacket : Vector UInt8 bufferSize
  rxSize : Int

namespace RxBuffer

/-- The receive buffer after a reset. -/
def boot : RxBuffer := ⟨Vector.replicate bufferSize 0, 0⟩

/-- `rxPacket[i]` at a constant index. -/
def byte (rx : RxBuffer) (i : Nat) : UInt8 := rx.rxPacket[i]?.getD 0

/-- The buffer part of `OnRxDone`: the payload, a NUL behind it, and what was
there before. -/
def onRxDone (rx : RxBuffer) (payload : Bytes) : RxBuffer where
  rxPacket := (memcpy rx.rxPacket 0 payload).setIfInBounds payload.length 0
  rxSize := payload.length

/-- The receive buffer holds the payload with a NUL behind it. -/
theorem rxPacket_onRxDone (rx : RxBuffer) (payload : Bytes) :
    (rx.onRxDone payload).rxPacket = memcpy rx.rxPacket 0 (payload ++ [0]) := by
  have happend := memcpy_append payload [0] rx.rxPacket 0
  rw [Nat.zero_add] at happend
  exact happend

/-- A byte of the payload just received. -/
theorem byte_onRxDone (rx : RxBuffer) {payload : Bytes} {i : Nat} (hi : i < payload.length)
    (hsize : payload.length < bufferSize) : (rx.onRxDone payload).byte i = payload[i] := by
  have hne : payload.length ≠ i := by omega
  have hin : 0 ≤ i ∧ i < 0 + payload.length := by omega
  simp only [byte, onRxDone]
  rw [Vector.getElem?_setIfInBounds, if_neg hne,
    getElem?_memcpy payload rx.rxPacket 0 i (by omega), if_pos hin, Nat.sub_zero,
    List.getElem?_eq_getElem hi, Option.getD_some]

/-- A stretch of the payload just received. -/
theorem slice_onRxDone (rx : RxBuffer) (payload : Bytes) (offset count : Nat)
    (hcount : offset + count ≤ payload.length) (hsize : payload.length < bufferSize) :
    slice (rx.onRxDone payload).rxPacket offset count = (payload.drop offset).take count := by
  apply List.ext_getElem?
  intro i
  rw [getElem?_slice, List.getElem?_take, List.getElem?_drop]
  by_cases hi : i < count
  · have hne : payload.length ≠ offset + i := by omega
    have hin : 0 ≤ offset + i ∧ offset + i < 0 + payload.length := by omega
    simp only [onRxDone]
    rw [if_pos hi, if_pos hi, Vector.getElem?_setIfInBounds, if_neg hne,
      getElem?_memcpy payload rx.rxPacket 0 _ (by omega), if_pos hin, Nat.sub_zero]
  · rw [if_neg hi, if_neg hi]

end RxBuffer

/-- The data passed to a `ProcessReassembled*` function. -/
structure Reassembled where
  dataType : UInt8
  data : Bytes
  src : NodeAddress
  deriving DecidableEq, Repr

/-- What `ProcessMultipartPacket` leaves behind: the table, its result, and the
call of a `ProcessReassembled*` function, if there was one. -/
structure ReceiveResult where
  table : SessionTable
  accepted : Bool
  handed : Option Reassembled

/-- The test of `FindMultipartSession`. -/
def MultipartReassembly.matchesKey (src : NodeAddress) (dataType : UInt8)
    (s : MultipartReassembly) : Bool :=
  s.srcRegion == src.region && s.srcCommunity == src.community && s.srcNode == src.node &&
    s.dataType == dataType

/-- `FindMultipartSession`: the first active session of this source and type. -/
def findMultipartSession (table : SessionTable) (src : NodeAddress) (dataType : UInt8) :
    Option Nat :=
  table.live.findIdx? (MultipartReassembly.matchesKey src dataType)

/-- The initialisation in `CreateMultipartSession`. The data and the part sizes
left in the slot are not cleared. -/
def MultipartReassembly.reuse (now : UInt32) (src : NodeAddress) (totalParts dataType : UInt8)
    (stale : MultipartReassembly) : MultipartReassembly :=
  { stale with
    srcRegion := src.region
    srcCommunity := src.community
    srcNode := src.node
    totalParts := totalParts
    receivedParts := 0
    dataType := dataType
    startTime := now
    partsReceived := Vector.replicate maxMultipartParts false }

/-- `CreateMultipartSession`: the table with the new session and its index, or
`none` when all 20 sessions are active. -/
def createMultipartSession (now : UInt32) (table : SessionTable) (src : NodeAddress)
    (totalParts dataType : UInt8) : Option (SessionTable × Nat) :=
  if room : table.count < maxMultipartParts then
    some (table.openSlot room (.reuse now src totalParts dataType), table.count)
  else none

/-- `RemoveMultipartSession`. -/
def removeMultipartSession (table : SessionTable) (sessionIndex : Nat) : SessionTable :=
  table.removeAt sessionIndex

/-- The age test of `CleanupExpiredMultipartSessions`, with 32-bit wrapping
subtraction. -/
def MultipartReassembly.expired (now : UInt32) (s : MultipartReassembly) : Bool :=
  now - s.startTime > multipartTimeoutMs

/-- `CleanupExpiredMultipartSessions`. -/
def cleanupExpiredMultipartSessions (now : UInt32) (table : SessionTable) : SessionTable :=
  table.sweep (MultipartReassembly.expired now)

/-- The statements of `ProcessMultipartPacket` that store a part. The copy loop
stops at the end of `assembledData`; the stored size is `rxSize - 12` reduced to
16 bits. -/
def storePart (rx : RxBuffer) (session : MultipartReassembly) (partNumber : UInt8) :
    Checked MultipartReassembly := do
  let dataSize : Int := rx.rxSize - multipartHeaderSize
  let startPos := (partNumber.toNat - 1) * multipartChunkSize
  let copied := min dataSize.toNat (assembledSize - startPos)
  let assembledData ← copyBytes .rxPacket rx.rxPacket multipartHeaderSize
    .assembledData session.assembledData startPos copied
  let stored := UInt16.ofNat (dataSize % 2 ^ 16).toNat
  Traced.emit (.storedSize stored copied)
  let partSizes ← writeAt .partSizes session.partSizes (partNumber.toNat - 1) stored
  let partsReceived ← writeAt .partsReceived session.partsReceived (partNumber.toNat - 1) true
  pure { session with
    assembledData, partSizes, partsReceived, receivedParts := session.receivedParts + 1 }

/-- One turn of the first loop of `ReassembleMultipartPacket`. -/
def measurePart (session : MultipartReassembly) (part total : Nat) : Checked Nat := do
  let received ← readAt .partsReceived session.partsReceived part
  if received then
    if part + 1 = session.totalParts.toNat then do
      let start := part * multipartChunkSize
      let partSize ← scanNul .assembledData session.assembledData start (assembledSize + 1 - start)
      pure (total + partSize)
    else pure (total + multipartChunkSize)
  else pure total

/-- The first loop of `ReassembleMultipartPacket`. Its result is never used, but
it runs `strlen` on the slot of the last part. -/
def totalDataSize (session : MultipartReassembly) : Checked Nat :=
  Traced.forUpTo (measurePart session) 0 session.totalParts.toNat

/-- One turn of the second loop: append a received part, with its stored size, to
the local buffer. -/
def joinPart (session : MultipartReassembly) (part : Nat)
    (joined : Vector UInt8 (assembledSize + 1) × Nat) :
    Checked (Vector UInt8 (assembledSize + 1) × Nat) := do
  let received ← readAt .partsReceived session.partsReceived part
  if received then do
    let startPos := part * multipartChunkSize
    let partSize ← readAt .partSizes session.partSizes part
    let assembledBuffer ← copyBytes .assembledData session.assembledData startPos
      .assembledBuffer joined.1 joined.2 partSize.toNat
    pure (assembledBuffer, joined.2 + partSize.toNat)
  else pure joined

/-- The second loop of `ReassembleMultipartPacket`: join the received parts. -/
def joinParts (session : MultipartReassembly) :
    Checked (Vector UInt8 (assembledSize + 1) × Nat) :=
  Traced.forUpTo (joinPart session) (Vector.replicate (assembledSize + 1) 0, 0)
    session.totalParts.toNat

/-- The third loop of `ReassembleMultipartPacket`: make the `String`. -/
def assembledString (assembledBuffer : Vector UInt8 (assembledSize + 1)) (assembledLength : Nat) :
    Checked Bytes :=
  Traced.forUpTo (fun i text => do
    let byte ← readAt .assembledBuffer assembledBuffer i
    pure (text ++ [byte])) [] assembledLength

/-- `ReassembleMultipartPacket`. Data types other than 0, 1 and 2 are dropped
with an error message. -/
def reassembleMultipartPacket (table : SessionTable) (sessionIndex : Nat) :
    Checked ReceiveResult := do
  let session ← readAt .multipartBuffer table.slots sessionIndex
  let _ ← totalDataSize session
  let joined ← joinParts session
  let assembledData ← assembledString joined.1 joined.2
  let handed : Option Reassembled :=
    if session.dataType = 0 ∨ session.dataType = 1 ∨ session.dataType = 2 then
      some ⟨session.dataType, assembledData, session.src⟩
    else none
  pure ⟨removeMultipartSession table sessionIndex, true, handed⟩

/-- `ProcessMultipartPacket` once the session is found or created. -/
def receivePart (rx : RxBuffer) (table : SessionTable) (sessionIndex : Nat)
    (partNumber totalParts : UInt8) : Checked ReceiveResult :=
  if partNumber < 1 ∨ partNumber > totalParts then
    pure ⟨table, false, none⟩
  else do
    let session ← readAt .multipartBuffer table.slots sessionIndex
    let duplicate ← readAt .partsReceived session.partsReceived (partNumber.toNat - 1)
    if duplicate then
      pure ⟨table, true, none⟩
    else do
      -- the loop that lists the parts received so far for the log
      Traced.forUpTo (fun i _ => do
        let _ ← readAt .partsReceived session.partsReceived i
        pure ()) () session.totalParts.toNat
      let session ← storePart rx session partNumber
      let table := table.store sessionIndex session
      if session.receivedParts = totalParts then
        reassembleMultipartPacket table sessionIndex
      else
        pure ⟨table, true, none⟩

/-- `ProcessMultipartPacket`, with the frame in `rx` and `millis()` at `now`. -/
def processMultipartPacket (now : UInt32) (rx : RxBuffer) (table : SessionTable) :
    Checked ReceiveResult :=
  let src : NodeAddress := ⟨rx.byte 4, rx.byte 5, rx.byte 6⟩
  let partNumber := rx.byte 7
  let totalParts := rx.byte 8
  let dataType := rx.byte 9
  match findMultipartSession table src dataType with
  | some sessionIndex => receivePart rx table sessionIndex partNumber totalParts
  | none =>
      match createMultipartSession now table src totalParts dataType with
      | some (table, sessionIndex) => receivePart rx table sessionIndex partNumber totalParts
      | none => pure ⟨table, false, none⟩

/-! ## The receiver as a state machine -/

/-- What happens to the receiver: a frame of type `MULTIPART_PACKET` arrives, a
frame of another type overwrites the receive buffer, or the main loop sweeps
expired sessions. `now` is the value of `millis()`. -/
inductive ReceiverInput
  | frame (now : UInt32) (payload : Bytes)
  | other (payload : Bytes)
  | cleanup (now : UInt32)
  deriving Repr

/-- The receive buffer and the session table. -/
structure Receiver where
  rx : RxBuffer
  table : SessionTable

/-- The receiver after a reset. -/
def Receiver.boot : Receiver := ⟨RxBuffer.boot, SessionTable.boot⟩

/-- One event of the receiver; the value also carries what is handed on. -/
def Receiver.step (r : Receiver) : ReceiverInput → Checked (Receiver × List Reassembled)
  | .frame now payload => do
      let rx := r.rx.onRxDone payload
      let result ← processMultipartPacket now rx r.table
      pure (⟨rx, result.table⟩, result.handed.toList)
  | .other payload => pure (⟨r.rx.onRxDone payload, r.table⟩, [])
  | .cleanup now => pure (⟨r.rx, cleanupExpiredMultipartSessions now r.table⟩, [])

/-- A run of the receiver, with everything it hands on, oldest first. -/
def Receiver.run (r : Receiver) : List ReceiverInput → Checked (Receiver × List Reassembled)
  | [] => pure (r, [])
  | input :: rest => do
      let first ← r.step input
      let later ← first.1.run rest
      pure (later.1, first.2 ++ later.2)

/-- A run in two stretches ends where the second one ends. -/
theorem Receiver.run_append (first second : List ReceiverInput) (r : Receiver) :
    (r.run (first ++ second)).val.1 = ((r.run first).val.1.run second).val.1 := by
  induction first generalizing r with
  | nil => rfl
  | cons input rest ih => exact ih (r.step input).val.1

end RadioDoge.V3
