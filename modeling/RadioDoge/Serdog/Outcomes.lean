/-
# What serdog makes of a packet

`parseHostFormedPacket` copies the data of a packet to the front of `dataBuffer`, which is used
for every packet and never cleared. `processDogePayload` then reads at fixed offsets, or up to a
NUL, and compares nothing with the number of bytes that were received. `ownBytes_iff` says for
which packets earlier ones make no difference.
-/

import RadioDoge.Serdog.Utxos

namespace RadioDoge.Serdog

open LittleEndian

/-! ## The functions -/

theorem mod_pinLength_lt (i : Nat) : i % pinLength < pinLength := Nat.mod_lt i (by decide)

/-- `deobfuscateReceivedBalance`: the balance, and the eight bytes that are written back. -/
def deobfuscateReceivedBalance (pin : Pin) (serializedBalance : Bytes) : UInt64 × Bytes :=
  let deobfuscated := (serializedBalance.take balanceLength).mapIdx fun i byte =>
    byte ^^^ pin.get ⟨i % pinLength, mod_pinLength_lt i⟩
  (UInt64.ofNat (ofBytes deobfuscated), deobfuscated)

/-- What `processTransactionResult` prints. -/
inductive TransactionOutcome
  | failed (result : UInt8)
  | txId (text : Bytes)
  | unknown
  deriving DecidableEq, Repr

/-- `processTransactionResult`. -/
def processTransactionResult (payloadIn : Bytes) (payloadSize : Nat) : TransactionOutcome :=
  if payloadSize = 2 then .failed (payloadIn[0]?.getD 0)
  else if payloadSize = 1 + txIdStringLength then
    .txId (ofCString (payloadIn.take txIdStringLength))
  else .unknown

/-- What `processDogePayload` prints or answers. Of a list of outputs it is the bytes from which
the lines are made. The lines themselves say more: the text of an amount below a coin ends with
what the stack held, and that of 10^19 koinu or more runs over the end of its array. -/
inductive Outcome
  | addressRequested
  | address (text : Bytes)
  | balance (koinu : UInt64)
  | utxos (numUTXOs : UInt32) (serializedUTXOs : Bytes)
  | success (responseCommand : UInt8)
  | failure (responseCode : UInt8)
  | transaction (result : TransactionOutcome)
  | broadcast (broadcastType : UInt8)
  | unknown
  deriving DecidableEq, Repr

/-- The outcome of `processDogePayload`, of the whole buffer. A text without a NUL and a list
that goes on behind the buffer have none. -/
def Outcome.of (userPin : Pin) (payloadIn : Bytes) (payloadSize : Nat) : Option Outcome :=
  match (payloadIn[0]?).bind DogeCommandType.ofCode? with
  | some .getDogeAddress => some .addressRequested
  | some .sendDogeAddress =>
      if 0 ∈ payloadIn.drop 1 then some (.address (ofCString (payloadIn.drop 1))) else none
  | some .balanceReceived =>
      some (.balance (deobfuscateReceivedBalance userPin (payloadIn.drop 1)).1)
  | some .sendUTXOs => do
      let serializedNum ← readBytes payloadIn 1 4
      let numUTXOs := UInt32.ofNat (ofBytes serializedNum)
      let serializedUTXOs ← readBytes payloadIn 5
        (numUTXOs.toNat * (voutLength + txIdStringLength + balanceLength))
      some (.utxos numUTXOs serializedUTXOs)
  | some .dogeCommandSuccess => some (.success (payloadIn[1]?.getD 0))
  | some .dogeCommandFailure => some (.failure (payloadIn[2]?.getD 0))
  | some .transactionResult =>
      some (.transaction (processTransactionResult (payloadIn.drop 1) payloadSize))
  | some .broadcastReceived => some (.broadcast (payloadIn[1]?.getD 0))
  | _ => some .unknown

/-- `processDogePayload`: the outcome, and the buffer, in which a balance is deobfuscated. -/
def showDogePayload (userPin : Pin) (payloadIn : Vector UInt8 dataBufferSize)
    (payloadSize : Nat) : Option (Outcome × Vector UInt8 dataBufferSize) :=
  (Outcome.of userPin payloadIn.toList payloadSize).map fun outcome =>
    (outcome,
      if payloadIn[0]? = some DogeCommandType.balanceReceived.code then
        memcpy payloadIn 1 (deobfuscateReceivedBalance userPin (payloadIn.toList.drop 1)).2
      else payloadIn)

/-- The branch `HOST_FORMED_PACKET` of the poll thread: the sender, the outcome, the buffer. -/
def receivePacket (userPin : Pin) (rxbuffer : Bytes) (dataBuffer : Vector UInt8 dataBufferSize) :
    Option ((NodeAddress × Outcome) × Vector UInt8 dataBufferSize) := do
  let (senderAddress, dataBuffer) ← parseHostFormedPacket rxbuffer dataBuffer
  let (outcome, dataBuffer) ←
    showDogePayload userPin dataBuffer (rxbuffer.length - singlePacketHdrLen)
  some ((senderAddress, outcome), dataBuffer)

/-- `dataBuffer` when the thread starts. -/
def emptyDataBuffer : Vector UInt8 dataBufferSize := Vector.replicate _ 0

/-- Packets received one after the other. -/
def receivePackets (userPin : Pin) (dataBuffer : Vector UInt8 dataBufferSize) :
    List Bytes → Option (Vector UInt8 dataBufferSize)
  | [] => some dataBuffer
  | frame :: rest => do
      let (_, dataBuffer) ← receivePacket userPin frame dataBuffer
      receivePackets userPin dataBuffer rest

/-! ## What is asked of a packet -/

/-- A frame that is accepted as a packet of one part. -/
def IsHostFrame (frame : Bytes) : Prop :=
  0 ≤ isCompleteCmd frame ∧ frame.head? = some SerialCommand.hostFormedPacket.code

instance (frame : Bytes) : Decidable (IsHostFrame frame) := inferInstanceAs (Decidable (_ ∧ _))

/-- Behind every series of packets the frame has the same sender and outcome. -/
def ReadsOwnBytes (userPin : Pin) (frame : Bytes) : Prop :=
  ∃ shown : NodeAddress × Outcome, ∀ (history : List Bytes) (dataBuffer : Vector UInt8 _),
    (∀ earlier ∈ history, IsHostFrame earlier) →
      receivePackets userPin emptyDataBuffer history = some dataBuffer →
        (receivePacket userPin frame dataBuffer).map Prod.fst = some shown

/-- The number of outputs that stands in front of a list. -/
def announcedIn (rest : Bytes) : Nat := ofBytes (rest.take 4)

/-- The payload has all bytes that are read for its command; a text may also end at the end of
the longest packet. -/
def HasOwnBytes : Bytes → Prop
  | [] => False
  | command :: rest =>
      match DogeCommandType.ofCode? command with
      | some .sendDogeAddress => (0 : UInt8) ∈ rest ∨ rest.length = 248
      | some .balanceReceived => balanceLength ≤ rest.length
      | some .sendUTXOs => 4 ≤ rest.length ∧
          4 + announcedIn rest * (voutLength + txIdStringLength + balanceLength) ≤ rest.length
      | some .dogeCommandSuccess | some .broadcastReceived => 1 ≤ rest.length
      | some .dogeCommandFailure => 2 ≤ rest.length
      | _ => True

/-! ## The buffer -/

/-- A frame of a packet: its kind, its length, and up to 255 bytes. -/
theorem exists_of_isHostFrame {frame : Bytes} (hframe : IsHostFrame frame) :
    ∃ body : Bytes, frame = framed .hostFormedPacket body ∧ body.length ≤ 255 := by
  match frame with
  | [] => cases hframe.2
  | [byte] =>
      have hshort : isCompleteCmd [byte] = -1 := rfl
      have haccepted := hframe.1
      rw [hshort] at haccepted
      exact absurd haccepted (by decide)
  | kind :: length :: body =>
      have hkind : kind = SerialCommand.hostFormedPacket.code := Option.some.inj hframe.2
      have hcomplete : complete (kind :: length :: body) = true := decide_eq_true hframe.1
      have hlength := ((complete_cons_cons kind length body).mp hcomplete).2
      have hbound := length.toNat_lt
      refine ⟨body, ?_, by omega⟩
      have hbyte : length = UInt8.ofNat body.length := by
        rw [← hlength, UInt8.ofNat_toNat]
      rw [framed, hkind, hbyte]

theorem isHostFrame_framed {body : Bytes} (hlength : body.length ≤ 255) :
    IsHostFrame (framed .hostFormedPacket body) := by
  have hwell : WellFormed (framed .hostFormedPacket body) :=
    wellFormed_framed (by decide) hlength
  rcases hwell with ⟨kind, length, payload, hframe, hkind, hsize⟩
  refine ⟨?_, rfl⟩
  rw [hframe]
  exact of_decide_eq_true ((complete_cons_cons kind length payload).mpr ⟨hkind, hsize⟩)

section Receiving

variable (userPin : Pin) {frame : Bytes} (dataBuffer : Vector UInt8 dataBufferSize)

/-- The payload lies at the front of the buffer, and behind it what was there before. -/
theorem parseHostFormedPacket_of_length (hheader : singlePacketHdrLen ≤ frame.length)
    (hlength : frame.length ≤ 257) :
    parseHostFormedPacket frame dataBuffer =
      some (addressAt frame hdrLen, memcpy dataBuffer 0 (frame.drop singlePacketHdrLen)) := by
  have hroom : 0 + (frame.drop singlePacketHdrLen).length ≤ dataBufferSize := by
    rw [List.length_drop]
    simp only [singlePacketHdrLen, dataBufferSize] at *
    omega
  rw [parseHostFormedPacket, if_pos hheader]
  exact congrArg (Option.map _) (if_pos hroom)

/-- A packet with a whole header. -/
theorem receivePacket_of_length {frame : Bytes} (hheader : singlePacketHdrLen ≤ frame.length)
    (hlength : frame.length ≤ 257) :
    receivePacket userPin frame dataBuffer =
      (showDogePayload userPin (memcpy dataBuffer 0 (frame.drop singlePacketHdrLen))
        (frame.length - singlePacketHdrLen)).map fun shown =>
          ((addressAt frame hdrLen, shown.1), shown.2) := by
  rw [receivePacket, parseHostFormedPacket_of_length dataBuffer hheader hlength]
  cases hshown : showDogePayload userPin (memcpy dataBuffer 0 (frame.drop singlePacketHdrLen))
    (frame.length - singlePacketHdrLen) with
  | none => simp only [Option.bind_eq_bind, Option.bind_some, hshown, Option.bind_none,
      Option.map_none]
  | some shown => simp only [Option.bind_eq_bind, Option.bind_some, hshown, Option.map_some]

/-- The outcome is that of the payload with the rest of the buffer behind it. -/
theorem fst_receivePacket (hheader : singlePacketHdrLen ≤ frame.length)
    (hlength : frame.length ≤ 257) :
    (receivePacket userPin frame dataBuffer).map Prod.fst =
      (Outcome.of userPin (frame.drop singlePacketHdrLen ++
        dataBuffer.toList.drop (frame.drop singlePacketHdrLen).length)
        (frame.drop singlePacketHdrLen).length).map fun outcome =>
          (addressAt frame hdrLen, outcome) := by
  have hroom : (frame.drop singlePacketHdrLen).length ≤ dataBufferSize := by
    rw [List.length_drop]
    simp only [singlePacketHdrLen, dataBufferSize] at *
    omega
  rw [receivePacket_of_length userPin dataBuffer hheader hlength, showDogePayload,
    toList_memcpy dataBuffer _ hroom, ← List.length_drop, Option.map_map, Option.map_map]
  rfl

/-- The last six bytes of the buffer, behind the longest packet, are never written. -/
def Untouched : Prop := dataBuffer.toList.drop 249 = List.replicate 6 0

/-- Writing before the last six bytes leaves them. -/
theorem untouched_memcpy {dataBuffer : Vector UInt8 dataBufferSize} {offset : Nat} {src : Bytes}
    (hbefore : offset + src.length ≤ 249) (hclean : Untouched dataBuffer) :
    Untouched (memcpy dataBuffer offset src) := by
  rw [Untouched, ← hclean]
  apply List.ext_getElem?
  intro i
  rw [List.getElem?_drop, List.getElem?_drop, Vector.getElem?_toList, Vector.getElem?_toList]
  by_cases hin : 249 + i < dataBufferSize
  · rw [getElem?_memcpy src dataBuffer offset _ hin, if_neg (by omega)]
  · rw [Vector.getElem?_eq_none (Nat.le_of_not_lt hin),
      Vector.getElem?_eq_none (Nat.le_of_not_lt hin)]

/-- One packet leaves them. -/
theorem untouched_receivePacket {dataBuffer next : Vector UInt8 dataBufferSize}
    {shown : NodeAddress × Outcome} (hframe : IsHostFrame frame) (hclean : Untouched dataBuffer)
    (hnext : receivePacket userPin frame dataBuffer = some (shown, next)) : Untouched next := by
  rcases exists_of_isHostFrame hframe with ⟨body, rfl, hbody⟩
  have hlength : (framed .hostFormedPacket body).length ≤ 257 := by
    rw [length_framed]
    exact Nat.add_le_add_right hbody 2
  by_cases hheader : singlePacketHdrLen ≤ (framed .hostFormedPacket body).length
  · rw [receivePacket_of_length userPin dataBuffer hheader hlength, showDogePayload,
      Option.map_map] at hnext
    rcases Option.map_eq_some_iff.mp hnext with ⟨outcome, -, hpair⟩
    rcases Prod.mk.inj hpair with ⟨-, rfl⟩
    have hcopied : Untouched (memcpy dataBuffer 0
        ((framed .hostFormedPacket body).drop singlePacketHdrLen)) := by
      apply untouched_memcpy _ hclean
      rw [List.length_drop]
      simp only [singlePacketHdrLen] at *
      omega
    split
    · apply untouched_memcpy _ hcopied
      rw [deobfuscateReceivedBalance, List.length_mapIdx, List.length_take]
      simp only [balanceLength]
      omega
    · exact hcopied
  · rw [receivePacket, parseHostFormedPacket, if_neg hheader] at hnext
    cases hnext

/-- So does every series of packets. -/
theorem untouched_receivePackets {history : List Bytes}
    (hhistory : ∀ earlier ∈ history, IsHostFrame earlier) :
    ∀ {dataBuffer next : Vector UInt8 dataBufferSize}, Untouched dataBuffer →
      receivePackets userPin dataBuffer history = some next → Untouched next := by
  induction history with
  | nil =>
      intro dataBuffer next hclean hnext
      rcases Option.some.inj hnext with rfl
      exact hclean
  | cons first rest ih =>
      intro dataBuffer next hclean hnext
      rw [receivePackets, Option.bind_eq_bind] at hnext
      rcases Option.bind_eq_some_iff.mp hnext with ⟨⟨shown, between⟩, hfirst, hrest⟩
      exact ih (fun earlier hmem => hhistory earlier (List.mem_cons_of_mem first hmem))
        (untouched_receivePacket userPin (hhistory first List.mem_cons_self) hclean hfirst) hrest

theorem untouched_emptyDataBuffer : Untouched emptyDataBuffer := by rfl

end Receiving

/-! ## Payloads with all their bytes -/

section OwnBytes

variable (userPin : Pin)

/-- The outcome by the command in the first byte. -/
theorem Outcome.of_cons (command : UInt8) (rest : Bytes) (payloadSize : Nat) :
    Outcome.of userPin (command :: rest) payloadSize =
      match DogeCommandType.ofCode? command with
      | some .getDogeAddress => some .addressRequested
      | some .sendDogeAddress => if 0 ∈ rest then some (.address (ofCString rest)) else none
      | some .balanceReceived => some (.balance (deobfuscateReceivedBalance userPin rest).1)
      | some .sendUTXOs => do
          let serializedNum ← readBytes rest 0 4
          let numUTXOs := UInt32.ofNat (ofBytes serializedNum)
          let serializedUTXOs ← readBytes rest 4
            (numUTXOs.toNat * (voutLength + txIdStringLength + balanceLength))
          some (.utxos numUTXOs serializedUTXOs)
      | some .dogeCommandSuccess => some (.success (rest[0]?.getD 0))
      | some .dogeCommandFailure => some (.failure (rest[1]?.getD 0))
      | some .transactionResult =>
          some (.transaction (processTransactionResult rest payloadSize))
      | some .broadcastReceived => some (.broadcast (rest[0]?.getD 0))
      | _ => some .unknown := by
  have hread : ∀ offset count, readBytes (command :: rest) (offset + 1) count =
      readBytes rest offset count := by
    intro offset count
    rw [readBytes, readBytes, List.length_cons, List.drop_succ_cons]
    simp only [Nat.succ_le_succ_iff, Nat.add_right_comm offset 1 count]
  simp only [Outcome.of, List.getElem?_cons_zero, Option.bind_some, List.drop_succ_cons,
    List.drop_zero, List.getElem?_cons_succ, hread]

/-- What is read from the front of a list. -/
theorem readBytes_within {front : Bytes} (rest : Bytes) {offset count : Nat}
    (hfits : offset + count ≤ front.length) :
    readBytes (front ++ rest) offset count = some ((front.drop offset).take count) := by
  rw [readBytes, if_pos (by rw [List.length_append]; omega),
    List.drop_append_of_le_length (by omega),
    List.take_append_of_le_length (by rw [List.length_drop]; omega)]

/-- Four bytes hold the number that they announce. -/
theorem toNat_announcedIn (rest : Bytes) :
    (UInt32.ofNat (ofBytes (rest.take 4))).toNat = announcedIn rest := by
  have hlt := ofBytes_lt (rest.take 4)
  have hpower : 256 ^ (rest.take 4).length ≤ 256 ^ 4 :=
    Nat.pow_le_pow_right (by decide) (List.length_take_le 4 rest)
  rw [announcedIn]
  exact UInt32.toNat_ofNat_of_lt' (hlt.trans_le hpower)

/-- The outputs of a list that has them all. -/
theorem readUtxos_append {front : Bytes} (hcount : 4 ≤ front.length)
    (hroom : 4 + announcedIn front * (voutLength + txIdStringLength + balanceLength) ≤
      front.length) (stale : Bytes) :
    (do
      let serializedNum ← readBytes (front ++ stale) 0 4
      let numUTXOs := UInt32.ofNat (ofBytes serializedNum)
      let serializedUTXOs ← readBytes (front ++ stale) 4
        (numUTXOs.toNat * (voutLength + txIdStringLength + balanceLength))
      some (Outcome.utxos numUTXOs serializedUTXOs)) =
    some (Outcome.utxos (UInt32.ofNat (ofBytes (front.take 4)))
      ((front.drop 4).take
        (announcedIn front * (voutLength + txIdStringLength + balanceLength)))) := by
  have hnum : readBytes (front ++ stale) 0 4 = some (front.take 4) :=
    readBytes_within stale (by omega)
  simp only [hnum, Option.bind_eq_bind, Option.bind_some, toNat_announcedIn,
    readBytes_within stale hroom]

/-- The NUL of a text hides what stands behind it. -/
theorem ofCString_append_of_mem {text : Bytes} (hmem : (0 : UInt8) ∈ text) (stale : Bytes) :
    ofCString (text ++ stale) = ofCString text := by
  rcases List.append_of_mem hmem with ⟨front, back, rfl⟩
  rw [List.append_assoc, List.cons_append, ofCString_append_zero, ofCString_append_zero]

/-- A payload with all its bytes has one outcome, whatever stands behind it. -/
theorem outcome_of_hasOwnBytes {payload : Bytes} (hown : HasOwnBytes payload) :
    ∃ outcome, ∀ stale : Bytes, (payload.length = 249 → stale = List.replicate 6 0) →
      Outcome.of userPin (payload ++ stale) payload.length = some outcome := by
  match payload with
  | [] => exact hown.elim
  | command :: rest =>
      simp only [List.cons_append, Outcome.of_cons]
      rw [HasOwnBytes] at hown
      cases hcommand : DogeCommandType.ofCode? command with
      | none => exact ⟨_, fun stale _ => rfl⟩
      | some kind =>
          rw [hcommand] at hown
          have hfirst : ∀ {i : Nat}, i < rest.length → ∀ stale : Bytes,
              (rest ++ stale)[i]?.getD 0 = rest[i]?.getD 0 := fun hi stale => by
            rw [List.getElem?_append_left hi]
          cases kind with
          | sendDogeAddress =>
              rcases hown with hmem | hlength
              · refine ⟨.address (ofCString rest), fun stale _ => ?_⟩
                simp only [ofCString_append_of_mem hmem, List.mem_append, hmem, true_or, if_true]
              · refine ⟨.address (ofCString (rest ++ List.replicate 6 0)), fun stale hstale => ?_⟩
                rw [hstale (by rw [List.length_cons, hlength])]
                exact if_pos (List.mem_append_right _ (by decide))
          | balanceReceived =>
              refine ⟨.balance (deobfuscateReceivedBalance userPin rest).1, fun stale _ => ?_⟩
              simp only [deobfuscateReceivedBalance, List.take_append_of_le_length hown]
          | sendUTXOs => exact ⟨_, fun stale _ => readUtxos_append hown.1 hown.2 stale⟩
          | dogeCommandSuccess =>
              exact ⟨_, fun stale _ => congrArg (fun byte => some (Outcome.success byte))
                (hfirst hown stale)⟩
          | dogeCommandFailure =>
              exact ⟨_, fun stale _ => congrArg (fun byte => some (Outcome.failure byte))
                (hfirst hown stale)⟩
          | broadcastReceived =>
              exact ⟨_, fun stale _ => congrArg (fun byte => some (Outcome.broadcast byte))
                (hfirst hown stale)⟩
          | transactionResult =>
              refine ⟨.transaction (processTransactionResult rest (rest.length + 1)),
                fun stale _ => ?_⟩
              simp only [processTransactionResult, List.length_cons]
              by_cases hfailed : rest.length + 1 = 2
              · rw [if_pos hfailed, if_pos hfailed, hfirst (by omega)]
              · by_cases hid : rest.length + 1 = 1 + txIdStringLength
                · rw [if_neg hfailed, if_neg hfailed, if_pos hid, if_pos hid,
                    List.take_append_of_le_length (by omega)]
                · rw [if_neg hfailed, if_neg hfailed, if_neg hid, if_neg hid]
          | registration => exact ⟨_, fun stale _ => rfl⟩
          | getDogeAddress => exact ⟨_, fun stale _ => rfl⟩
          | getUTXOs => exact ⟨_, fun stale _ => rfl⟩
          | requestBalance => exact ⟨_, fun stale _ => rfl⟩
          | transactionRequest => exact ⟨_, fun stale _ => rfl⟩

/-! ## Payloads without -/

/-- A packet that fills the buffer with one byte. -/
def fillPacket (byte : UInt8) : Bytes :=
  framed .hostFormedPacket (List.replicate 6 0 ++ List.replicate 249 byte)

/-- A payload at the front of a buffer that was filled before. -/
def inFilled (byte : UInt8) (payload : Bytes) : Bytes :=
  payload ++ (List.replicate (249 - payload.length) byte ++ List.replicate 6 0)

/-- Some packets fill the buffer with this byte. -/
def Fills (byte : UInt8) : Prop :=
  ∃ (history : List Bytes) (dataBuffer : Vector UInt8 dataBufferSize),
    (∀ earlier ∈ history, IsHostFrame earlier) ∧
      receivePackets userPin emptyDataBuffer history = some dataBuffer ∧
      dataBuffer.toList = List.replicate 249 byte ++ List.replicate 6 0

/-- A thread that has just started has zeros there. -/
theorem fills_zero : Fills userPin 0 := by
  refine ⟨[], emptyDataBuffer, fun earlier hmem => absurd hmem List.not_mem_nil, rfl, ?_⟩
  rw [emptyDataBuffer, Vector.toList_replicate, List.replicate_append_replicate]

/-- A payload whose command reads nothing more fills the buffer. -/
theorem fills_of_outcome {byte : UInt8} (outcome : Outcome)
    (hkind : byte ≠ DogeCommandType.balanceReceived.code)
    (houtcome : ∀ rest size, Outcome.of userPin (byte :: rest) size = some outcome) :
    Fills userPin byte := by
  have hpayload : (fillPacket byte).drop singlePacketHdrLen = List.replicate 249 byte := rfl
  have hsize : (fillPacket byte).length = 257 := by
    rw [fillPacket, length_framed, List.length_append, List.length_replicate,
      List.length_replicate]
    rfl
  rcases Exists.intro (memcpy emptyDataBuffer 0 (List.replicate 249 byte)) rfl with
    ⟨filled, hcopy⟩
  have hfilled : filled.toList = List.replicate 249 byte ++ List.replicate 6 0 := by
    have hcopied := toList_memcpy emptyDataBuffer (List.replicate 249 byte) (by
      rw [List.length_replicate]
      decide)
    rw [List.length_replicate] at hcopied
    rw [← hcopy, hcopied, untouched_emptyDataBuffer]
  have hfirst : filled[0]? = some byte := by
    rw [← Vector.getElem?_toList, hfilled]
    rfl
  have hshown : showDogePayload userPin filled ((fillPacket byte).length - singlePacketHdrLen) =
      some (outcome, filled) := by
    have hcons : filled.toList = byte :: (List.replicate 248 byte ++ List.replicate 6 0) := hfilled
    rw [showDogePayload, hcons, houtcome, Option.map_some, if_neg]
    rw [hfirst]
    exact fun heq => hkind (Option.some.inj heq)
  refine ⟨[fillPacket byte], filled, ?_, ?_, hfilled⟩
  · intro earlier hmem
    rw [List.mem_singleton.mp hmem]
    apply isHostFrame_framed
    rw [List.length_append, List.length_replicate, List.length_replicate]
  · have hheader : singlePacketHdrLen ≤ (fillPacket byte).length := by
      rw [hsize]
      decide
    have hreceived := receivePacket_of_length userPin emptyDataBuffer hheader hsize.le
    rw [hpayload, hcopy, hshown, Option.map_some] at hreceived
    simp only [receivePackets, hreceived, Option.bind_eq_bind, Option.bind_some]

theorem fills_seven : Fills userPin 7 :=
  fills_of_outcome userPin .unknown (by decide) fun rest size => by
    rw [Outcome.of_cons]
    rfl

theorem fills_request : Fills userPin DogeCommandType.getDogeAddress.code :=
  fills_of_outcome userPin .addressRequested (by decide) fun rest size => by
    rw [Outcome.of_cons]
    rfl

theorem fills_ones : Fills userPin 255 :=
  fills_of_outcome userPin .unknown (by decide) fun rest size => by
    rw [Outcome.of_cons]
    rfl

/-- A frame that reads its own bytes has a whole header, and one outcome in every filled
buffer. -/
theorem outcome_of_readsOwnBytes {frame : Bytes} (hframe : IsHostFrame frame)
    (hreads : ReadsOwnBytes userPin frame) :
    singlePacketHdrLen ≤ frame.length ∧ ∃ outcome, ∀ byte, Fills userPin byte →
      Outcome.of userPin (inFilled byte (frame.drop singlePacketHdrLen))
        (frame.drop singlePacketHdrLen).length = some outcome := by
  rcases hreads with ⟨shown, hshown⟩
  rcases exists_of_isHostFrame hframe with ⟨body, rfl, hbody⟩
  have hheader : singlePacketHdrLen ≤ (framed .hostFormedPacket body).length := by
    by_contra hshort
    have hnone := hshown [] emptyDataBuffer (fun earlier hmem => absurd hmem List.not_mem_nil) rfl
    rw [receivePacket, parseHostFormedPacket, if_neg hshort] at hnone
    cases hnone
  refine ⟨hheader, shown.2, ?_⟩
  rintro byte ⟨history, dataBuffer, hhistory, hreceived, hfilled⟩
  have hsame := hshown history dataBuffer hhistory hreceived
  have hdrop : dataBuffer.toList.drop
      ((framed .hostFormedPacket body).drop singlePacketHdrLen).length =
      List.replicate (249 - ((framed .hostFormedPacket body).drop singlePacketHdrLen).length)
          byte ++
        List.replicate 6 0 := by
    have hlength : ((framed .hostFormedPacket body).drop singlePacketHdrLen).length ≤ 249 := by
      rw [List.length_drop, length_framed]
      simp only [singlePacketHdrLen, serialHeaderSize]
      omega
    rw [hfilled, List.drop_append_of_le_length (by rw [List.length_replicate]; exact hlength),
      List.drop_replicate]
  have hlength : (framed .hostFormedPacket body).length ≤ 257 := by
    rw [length_framed]
    exact Nat.add_le_add_right hbody 2
  rw [fst_receivePacket userPin dataBuffer hheader hlength, hdrop] at hsame
  rcases Option.map_eq_some_iff.mp hsame with ⟨outcome, houtcome, hpair⟩
  rw [← hpair]
  exact houtcome

/-- What stands behind a payload of this length in a filled buffer. -/
def filling (byte : UInt8) (rest : Bytes) : Bytes :=
  List.replicate (248 - rest.length) byte ++ List.replicate 6 0

theorem inFilled_cons (byte command : UInt8) (rest : Bytes) :
    inFilled byte (command :: rest) = command :: (rest ++ filling byte rest) := by
  rw [inFilled, filling, List.length_cons, Nat.add_sub_add_right 248 1 rest.length]
  rfl

section Filling

variable {rest : Bytes}

/-- A byte that the payload does not have is the one that the buffer was filled with. -/
theorem getElem?_filling (byte : UInt8) {i : Nat} (hpast : rest.length ≤ i) (hi : i < 248) :
    (rest ++ filling byte rest)[i]? = some byte := by
  rw [List.getElem?_append_right hpast, filling,
    List.getElem?_append_left (by rw [List.length_replicate]; omega),
    List.getElem?_replicate_of_lt (by omega)]

theorem length_append_filling (byte : UInt8) (hlength : rest.length ≤ 248) :
    (rest ++ filling byte rest).length = 254 := by
  rw [filling, List.length_append, List.length_append, List.length_replicate,
    List.length_replicate]
  omega

/-- A text without a NUL goes on into what stands behind it. -/
theorem texts_differ (hfree : (0 : UInt8) ∉ rest) (hshort : rest.length < 248) :
    ofCString (rest ++ filling 0 rest) ≠ ofCString (rest ++ filling 7 rest) := by
  intro hsame
  rcases Nat.exists_eq_add_of_lt hshort with ⟨count, hcount⟩
  have hfilling : ∀ byte : UInt8, filling byte rest =
      byte :: (List.replicate count byte ++ List.replicate 6 0) := by
    intro byte
    have hmore : 248 - rest.length = count + 1 := by omega
    rw [filling, hmore, List.replicate_succ, List.cons_append]
  have hends : ofCString (rest ++ filling 0 rest) = rest := by
    rw [ofCString_append_iff, hfilling, ofCString_eq_nil_iff]
    exact ⟨hfree, rfl⟩
  rw [hends, eq_comm, ofCString_append_iff, hfilling, ofCString_eq_nil_iff] at hsame
  exact absurd hsame.2 (by decide)

/-- A balance that is cut takes a byte from behind. -/
theorem balances_differ (hshort : rest.length < balanceLength) :
    (deobfuscateReceivedBalance userPin (rest ++ filling 0 rest)).1 ≠
      (deobfuscateReceivedBalance userPin (rest ++ filling 7 rest)).1 := by
  intro hsame
  have hlong : ∀ byte : UInt8, (deobfuscateReceivedBalance userPin
      (rest ++ filling byte rest)).2.length = balanceLength := by
    intro byte
    rw [deobfuscateReceivedBalance, List.length_mapIdx, List.length_take,
      length_append_filling byte (by simp only [balanceLength] at hshort; omega)]
    rfl
  have hfits : ∀ byte : UInt8, ofBytes (deobfuscateReceivedBalance userPin
      (rest ++ filling byte rest)).2 < 2 ^ 64 := by
    intro byte
    have hlt := ofBytes_lt (deobfuscateReceivedBalance userPin (rest ++ filling byte rest)).2
    rw [hlong] at hlt
    exact hlt
  have hnumbers : ofBytes (deobfuscateReceivedBalance userPin (rest ++ filling 0 rest)).2 =
      ofBytes (deobfuscateReceivedBalance userPin (rest ++ filling 7 rest)).2 := by
    rw [← UInt64.toNat_ofNat_of_lt' (hfits 0), ← UInt64.toNat_ofNat_of_lt' (hfits 7)]
    exact congrArg UInt64.toNat hsame
  have hbytes := ofBytes_inj ((hlong 0).trans (hlong 7).symm) hnumbers
  have hread : ∀ byte : UInt8, (deobfuscateReceivedBalance userPin
      (rest ++ filling byte rest)).2[rest.length]? =
        some (byte ^^^ userPin.get ⟨rest.length % pinLength, Nat.mod_lt _ (by decide)⟩) := by
    intro byte
    rw [deobfuscateReceivedBalance, List.getElem?_mapIdx, List.getElem?_take_of_lt hshort,
      getElem?_filling byte le_rfl (by simp only [balanceLength] at hshort; omega)]
    rfl
  have hbyte := congrArg (fun bytes : Bytes => bytes[rest.length]?) hbytes
  simp only [hread, Option.some.injEq, UInt8.xor_left_inj] at hbyte
  exact absurd hbyte (by decide)

/-- A list that is cut in its number announces more than the buffer holds. -/
theorem no_utxos_of_short (hshort : rest.length < 4) {serializedNum : Bytes}
    (hnum : readBytes (rest ++ filling 255 rest) 0 4 = some serializedNum) :
    readBytes (rest ++ filling 255 rest) 4 ((UInt32.ofNat (ofBytes serializedNum)).toNat *
      (voutLength + txIdStringLength + balanceLength)) = none := by
  have htake : serializedNum = (rest ++ filling 255 rest).take 4 := by
    rw [readBytes, if_pos (by rw [length_append_filling 255 (by omega)]; decide)] at hnum
    exact (Option.some.inj hnum).symm
  have hlast : ((rest ++ filling 255 rest).take 4)[3]? = some 255 := by
    rw [List.getElem?_take_of_lt (by decide), getElem?_filling 255 (by omega) (by decide)]
  have hmany := mul_pow_le_ofBytes hlast
  rw [htake, toNat_announcedIn, readBytes, if_neg]
  rw [length_append_filling 255 (by omega), announcedIn]
  have hbyte : (255 : UInt8).toNat = 255 := rfl
  rw [hbyte] at hmany
  simp only [voutLength, txIdStringLength, balanceLength]
  omega

/-- A list that is cut in its records takes them from behind. -/
theorem records_differ {size : Nat} (hcut : rest.length < 4 + size) (hcount : 4 ≤ rest.length)
    (hshort : rest.length < 248) (hroom : 4 + size ≤ 254) :
    readBytes (rest ++ filling 0 rest) 4 size ≠ readBytes (rest ++ filling 7 rest) 4 size := by
  intro hsame
  have hread : ∀ byte : UInt8, (readBytes (rest ++ filling byte rest) 4 size).bind
      (fun records => records[rest.length - 4]?) = some byte := by
    intro byte
    rw [readBytes, if_pos (by rw [length_append_filling byte hshort.le]; exact hroom),
      Option.bind_some, List.getElem?_take_of_lt (by omega), List.getElem?_drop,
      Nat.add_sub_cancel' hcount, getElem?_filling byte le_rfl hshort]
  have hbyte := hread 0
  rw [hsame, hread 7] at hbyte
  exact absurd hbyte (by decide)

end Filling

/-- A payload with one outcome in every filled buffer has all bytes that are read. -/
theorem hasOwnBytes_of_outcome {payload : Bytes} {outcome : Outcome}
    (hlength : payload.length ≤ 249)
    (houtcome : ∀ byte, Fills userPin byte →
      Outcome.of userPin (inFilled byte payload) payload.length = some outcome) :
    HasOwnBytes payload := by
  match payload with
  | [] =>
      -- the command itself is an earlier one
      have hcons : ∀ byte : UInt8, inFilled byte [] =
          byte :: (List.replicate 248 byte ++ List.replicate 6 0) := fun byte => rfl
      have hzero := houtcome 0 (fills_zero userPin)
      have hrequest := houtcome _ (fills_request userPin)
      rw [hcons, Outcome.of_cons] at hzero hrequest
      rw [← hrequest] at hzero
      cases hzero
  | command :: rest =>
      rw [List.length_cons] at hlength
      have hone := fun byte hfills => houtcome byte hfills
      simp only [inFilled_cons, Outcome.of_cons] at hone
      rw [HasOwnBytes]
      cases hcommand : DogeCommandType.ofCode? command with
      | none => trivial
      | some kind =>
          rw [hcommand] at hone
          have hzero := hone 0 (fills_zero userPin)
          have hseven := hone 7 (fills_seven userPin)
          have hbyte : ∀ {i : Nat}, rest.length ≤ i → i < 248 → ∀ byte : UInt8,
              (rest ++ filling byte rest)[i]?.getD 0 = byte := fun hpast hi byte => by
            rw [getElem?_filling byte hpast hi]
            rfl
          cases kind with
          | sendDogeAddress =>
              by_contra hnone
              rcases not_or.mp hnone with ⟨hfree, hfull⟩
              have hterminated : ∀ byte : UInt8, (0 : UInt8) ∈ rest ++ filling byte rest :=
                fun byte => List.mem_append_right _ (List.mem_append_right _ (by decide))
              simp only [hterminated, if_true] at hzero hseven
              rw [← hseven] at hzero
              exact texts_differ hfree (by omega) (Outcome.address.inj (Option.some.inj hzero))
          | balanceReceived =>
              by_contra hshort
              simp only at hzero hseven
              rw [← hseven] at hzero
              exact balances_differ userPin (Nat.lt_of_not_le hshort)
                (Outcome.balance.inj (Option.some.inj hzero))
          | sendUTXOs =>
              by_contra hcut
              by_cases hcount : 4 ≤ rest.length
              · have hnum : ∀ byte : UInt8, readBytes (rest ++ filling byte rest) 0 4 =
                    some (rest.take 4) := fun byte => readBytes_within _ (by omega)
                simp only [hnum, Option.bind_eq_bind, Option.bind_some, toNat_announcedIn]
                  at hzero hseven
                rcases Option.bind_eq_some_iff.mp hzero with ⟨records, hrecords, hlast⟩
                rcases Option.bind_eq_some_iff.mp hseven with ⟨others, hothers, hother⟩
                rw [← hother] at hlast
                rcases Outcome.utxos.inj (Option.some.inj hlast) with ⟨-, rfl⟩
                have hroom : 4 + announcedIn rest *
                    (voutLength + txIdStringLength + balanceLength) ≤ 254 := by
                  by_contra hlong
                  rw [readBytes, if_neg (by rw [length_append_filling 0 (by omega)]; exact hlong)]
                    at hrecords
                  cases hrecords
                have hmissing : rest.length < 4 + announcedIn rest *
                    (voutLength + txIdStringLength + balanceLength) := by
                  by_contra hlong
                  exact hcut ⟨hcount, Nat.le_of_not_lt hlong⟩
                refine records_differ hmissing hcount ?_ hroom (hrecords.trans hothers.symm)
                simp only [voutLength, txIdStringLength, balanceLength] at hroom hmissing
                omega
              · have hones := hone 255 (fills_ones userPin)
                rcases Option.bind_eq_some_iff.mp hones with ⟨serializedNum, hnum, hrest⟩
                have hnone := no_utxos_of_short (Nat.lt_of_not_le hcount) hnum
                simp only [hnone] at hrest
                cases hrest
          | dogeCommandSuccess =>
              by_contra hshort
              simp only [hbyte (Nat.le_of_lt_succ (Nat.lt_of_not_le hshort)) (by decide : 0 < 248)]
                at hzero hseven
              rw [← hseven] at hzero
              cases hzero
          | broadcastReceived =>
              by_contra hshort
              simp only [hbyte (Nat.le_of_lt_succ (Nat.lt_of_not_le hshort)) (by decide : 0 < 248)]
                at hzero hseven
              rw [← hseven] at hzero
              cases hzero
          | dogeCommandFailure =>
              by_contra hshort
              simp only [hbyte (Nat.le_of_lt_succ (Nat.lt_of_not_le hshort)) (by decide : 1 < 248)]
                at hzero hseven
              rw [← hseven] at hzero
              cases hzero
          | transactionResult => trivial
          | registration => trivial
          | getDogeAddress => trivial
          | getUTXOs => trivial
          | requestBalance => trivial
          | transactionRequest => trivial

/-- **What a packet is taken for.** Earlier packets make no difference exactly if the packet has
a whole header and all bytes that are read for its command. -/
theorem ownBytes_iff {frame : Bytes} (hframe : IsHostFrame frame) :
    ReadsOwnBytes userPin frame ↔
      singlePacketHdrLen ≤ frame.length ∧ HasOwnBytes (frame.drop singlePacketHdrLen) := by
  rcases exists_of_isHostFrame hframe with ⟨body, hbody, hbound⟩
  have hlength : frame.length ≤ 257 := by
    rw [hbody, length_framed]
    exact Nat.add_le_add_right hbound 2
  have hpayload : (frame.drop singlePacketHdrLen).length ≤ 249 := by
    rw [List.length_drop]
    simp only [singlePacketHdrLen]
    omega
  apply Iff.intro
  · intro hreads
    rcases outcome_of_readsOwnBytes userPin hframe hreads with ⟨hheader, outcome, houtcome⟩
    exact ⟨hheader, hasOwnBytes_of_outcome userPin hpayload houtcome⟩
  · rintro ⟨hheader, hown⟩
    rcases outcome_of_hasOwnBytes userPin hown with ⟨outcome, houtcome⟩
    refine ⟨(addressAt frame hdrLen, outcome), ?_⟩
    intro history dataBuffer hhistory hreceived
    have hclean := untouched_receivePackets userPin hhistory untouched_emptyDataBuffer hreceived
    rw [fst_receivePacket userPin dataBuffer hheader hlength, houtcome]
    · rfl
    · intro hfull
      rw [hfull]
      exact hclean

/-- A balance that is received as a whole. -/
def balancePacket : Bytes :=
  framed .hostFormedPacket [10, 0, 1, 10, 0, 2, 202, 1, 2, 3, 4, 5, 6, 7, 8]

theorem ownBytes_iff_balance :
    ReadsOwnBytes (Pin.of 1 2 3 4) balancePacket ↔
      singlePacketHdrLen ≤ balancePacket.length ∧
        HasOwnBytes (balancePacket.drop singlePacketHdrLen) :=
  ownBytes_iff (Pin.of 1 2 3 4) (by decide)

/-- An address of four letters, as the hub sends it: without a NUL. -/
def addressPacket : Bytes :=
  framed .hostFormedPacket [10, 0, 1, 10, 0, 2, 240, 68, 111, 103, 101]

/-- A balance that came before is shown as part of the address. -/
theorem address_shows_earlier_packet :
    IsHostFrame addressPacket ∧ IsHostFrame balancePacket ∧
      (receivePacket (Pin.of 1 2 3 4) addressPacket emptyDataBuffer).map Prod.fst =
        some (⟨10, 0, 1⟩, .address [68, 111, 103, 101]) ∧
      ((receivePackets (Pin.of 1 2 3 4) emptyDataBuffer [balancePacket]).bind fun dataBuffer =>
        (receivePacket (Pin.of 1 2 3 4) addressPacket dataBuffer).map Prod.fst) =
          some (⟨10, 0, 1⟩, .address [68, 111, 103, 101, 4, 4, 4, 12]) ∧
      ¬ ReadsOwnBytes (Pin.of 1 2 3 4) addressPacket := by
  have hfirst : (receivePacket (Pin.of 1 2 3 4) addressPacket emptyDataBuffer).map Prod.fst =
      some (⟨10, 0, 1⟩, .address [68, 111, 103, 101]) := by decide +kernel
  have hsecond : ((receivePackets (Pin.of 1 2 3 4) emptyDataBuffer [balancePacket]).bind
      fun dataBuffer =>
        (receivePacket (Pin.of 1 2 3 4) addressPacket dataBuffer).map Prod.fst) =
          some (⟨10, 0, 1⟩, .address [68, 111, 103, 101, 4, 4, 4, 12]) := by decide +kernel
  refine ⟨by decide, by decide, hfirst, hsecond, ?_⟩
  rintro ⟨shown, hshown⟩
  rcases Option.bind_eq_some_iff.mp hsecond with ⟨dataBuffer, hreceived, hother⟩
  have hthen := hshown [balancePacket] dataBuffer (by decide) hreceived
  have halone := hshown [] emptyDataBuffer (by decide) rfl
  rw [hother] at hthen
  rw [hfirst, ← hthen] at halone
  exact absurd halone (by decide)

end OwnBytes

end RadioDoge.Serdog
