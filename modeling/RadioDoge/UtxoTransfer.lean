/-
# The list of unspent outputs, from the hub to serdog

The hub sends its list in parts, serdog joins the parts in a buffer of 4096 bytes and
copies the records over its store. The buffer is one part too small for a list of 54
outputs or more, although the store has room for 64. The ids arrive without a
terminating NUL, so a slot whose id was longer before keeps the tail of it.
-/

import RadioDoge.HostTransfer
import RadioDoge.Serdog.Utxos
import RadioDoge.Sharp.Responses

namespace RadioDoge

open LittleEndian Serdog

/-! ## Records -/

namespace Serdog

/-- A slot once an output is copied over it. -/
def UtxoInfo.filled (info : UtxoInfo) (utxo : Utxo) : UtxoInfo :=
  ⟨utxo.vout, memcpy info.txId 0 utxo.txId, utxo.amount⟩

/-- The store once a list is copied over it from slot `i` on. -/
def fillSlots (currUTXOs : Vector UtxoInfo maxNumUtxos) (i : Nat) :
    List Utxo → Vector UtxoInfo maxNumUtxos
  | [] => currUTXOs
  | utxo :: rest =>
      match currUTXOs[i]? with
      | some info => fillSlots (currUTXOs.setIfInBounds i (info.filled utxo)) (i + 1) rest
      | none => currUTXOs

theorem readBytes_append (front bytes rest : Bytes) {offset count : Nat}
    (hoffset : offset = front.length) (hcount : count = bytes.length) :
    readBytes (front ++ (bytes ++ rest)) offset count = some bytes := by
  subst hoffset hcount
  have hfits : front.length + bytes.length ≤ (front ++ (bytes ++ rest)).length := by
    rw [List.length_append, List.length_append]
    omega
  rw [readBytes, if_pos hfits, List.drop_left, List.take_left]

end Serdog

/-- A number that fits is read back from its four or eight bytes. -/
theorem ofNat_ofBytes_vout (vout : Int32) :
    (UInt32.ofNat (ofBytes (toBytes voutLength vout.toUInt32.toNat))).toInt32 = vout := by
  rw [ofBytes_toBytes_of_lt vout.toUInt32.toNat_lt, UInt32.ofNat_toNat]
  rfl

theorem ofNat_ofBytes_amount (amount : UInt64) :
    UInt64.ofNat (ofBytes (toBytes balanceLength amount.toNat)) = amount := by
  rw [ofBytes_toBytes_of_lt amount.toNat_lt, UInt64.ofNat_toNat]

section Records

variable {utxo : Utxo} (hlen : utxo.txId.length = txIdStringLength)
  (hascii : ∀ char ∈ utxo.txId, char < 128)

include hlen hascii

/-- A record is copied into its slot. -/
theorem deserializeUtxo_serialize (front rest : Bytes) (info : UtxoInfo) :
    deserializeUtxo (front ++ (Sharp.serialize utxo ++ rest)) front.length info =
      some (info.filled utxo) := by
  let voutBytes := toBytes voutLength utxo.vout.toUInt32.toNat
  let amountBytes := toBytes balanceLength utxo.amount.toNat
  have hsplit : Sharp.serialize utxo ++ rest = voutBytes ++ (utxo.txId ++ (amountBytes ++ rest)) := by
    rw [Sharp.serialize, Sharp.asciiGetBytes_of_ascii hascii, List.append_assoc, List.append_assoc]
  have hvout := readBytes_append front voutBytes (utxo.txId ++ (amountBytes ++ rest)) rfl
    (length_toBytes voutLength _).symm
  have htxId := readBytes_append (front ++ voutBytes) utxo.txId (amountBytes ++ rest)
    (show front.length + voutLength = (front ++ voutBytes).length by
      rw [List.length_append, length_toBytes]) hlen.symm
  have hamount := readBytes_append (front ++ voutBytes ++ utxo.txId) amountBytes rest
    (show front.length + voutLength + txIdStringLength =
        (front ++ voutBytes ++ utxo.txId).length by
      rw [List.length_append, List.length_append, length_toBytes, hlen])
    (length_toBytes balanceLength _).symm
  simp only [List.append_assoc] at htxId hamount
  rw [hsplit, deserializeUtxo]
  simp only [hvout, htxId, hamount, Option.bind_eq_bind, Option.bind_some]
  rw [ofNat_ofBytes_vout, ofNat_ofBytes_amount]
  rfl

end Records

/-- The outputs of a list, as the hub sends them. -/
def Transferable (utxos : List Utxo) : Prop :=
  ∀ utxo ∈ utxos, utxo.txId.length = txIdStringLength ∧ ∀ char ∈ utxo.txId, char < 128

/-- The records are copied into their slots. -/
theorem deserializeUTXOs_serialize (rest : Bytes) (utxos : List Utxo) :
    ∀ (front : Bytes) (i : Nat) (currUTXOs : Vector UtxoInfo maxNumUtxos),
      Transferable utxos → i + utxos.length ≤ maxNumUtxos →
      deserializeUTXOs (front ++ (utxos.flatMap Sharp.serialize ++ rest)) utxos.length i
        front.length currUTXOs = some (fillSlots currUTXOs i utxos) := by
  induction utxos with
  | nil =>
      intro front i currUTXOs _ _
      rfl
  | cons utxo later ih =>
      intro front i currUTXOs htransferable hroom
      obtain ⟨hlen, hascii⟩ := htransferable utxo List.mem_cons_self
      rw [List.length_cons] at hroom
      have hslot : currUTXOs[i]? = some currUTXOs[i] := Vector.getElem?_eq_getElem (by omega)
      have hrecord := deserializeUtxo_serialize hlen hascii front
        (later.flatMap Sharp.serialize ++ rest) currUTXOs[i]
      have hlater := ih (front ++ Sharp.serialize utxo) (i + 1)
        (currUTXOs.setIfInBounds i (currUTXOs[i].filled utxo))
        (fun other hmem => htransferable other (List.mem_cons_of_mem utxo hmem)) (by omega)
      have hoffset : (front ++ Sharp.serialize utxo).length =
          front.length + (voutLength + txIdStringLength + balanceLength) := by
        rw [List.length_append, Sharp.length_serialize hlen]
        rfl
      rw [List.append_assoc, hoffset] at hlater
      rw [List.flatMap_cons, List.append_assoc, List.length_cons, deserializeUTXOs, fillSlots]
      simp only [hslot, hrecord, Option.bind_eq_bind, Option.bind_some]
      exact hlater

/-- The slots that a list covers are filled, the others kept. -/
theorem getElem?_fillSlots (utxos : List Utxo) :
    ∀ (currUTXOs : Vector UtxoInfo maxNumUtxos) (i j : Nat), i + utxos.length ≤ maxNumUtxos →
      (fillSlots currUTXOs i utxos)[j]? =
        if i ≤ j ∧ j < i + utxos.length then
          (utxos[j - i]?).bind fun utxo => (currUTXOs[j]?).map fun info => info.filled utxo
        else currUTXOs[j]? := by
  induction utxos with
  | nil =>
      intro currUTXOs i j _
      have hout : ¬ (i ≤ j ∧ j < i + ([] : List Utxo).length) := by simp
      rw [if_neg hout, fillSlots]
  | cons utxo later ih =>
      intro currUTXOs i j hroom
      rw [List.length_cons] at hroom
      have hslot : currUTXOs[i]? = some currUTXOs[i] := Vector.getElem?_eq_getElem (by omega)
      rw [fillSlots]
      simp only [hslot]
      rw [ih _ (i + 1) j (by omega), Vector.getElem?_setIfInBounds, List.length_cons]
      rcases Nat.lt_trichotomy i j with hlt | rfl | hgt
      · have hne : i ≠ j := by omega
        have hsub : j - i = (j - (i + 1)) + 1 := by omega
        have hiff : (i + 1 ≤ j ∧ j < i + 1 + later.length) ↔
            (i ≤ j ∧ j < i + (later.length + 1)) := by omega
        rw [if_neg hne, hsub, List.getElem?_cons_succ]
        simp only [hiff]
      · have hout : ¬ (i + 1 ≤ i ∧ i < i + 1 + later.length) := by omega
        have hin : i ≤ i ∧ i < i + (later.length + 1) := by omega
        rw [if_neg hout, if_pos hin, if_pos rfl, if_pos (by omega), Nat.sub_self,
          List.getElem?_cons_zero, Option.bind_some, hslot, Option.map_some]
      · have hne : i ≠ j := by omega
        have hout : ¬ (i + 1 ≤ j ∧ j < i + 1 + later.length) := by omega
        have hout' : ¬ (i ≤ j ∧ j < i + (later.length + 1)) := by omega
        rw [if_neg hout, if_neg hout', if_neg hne]

/-! ## The store -/

/-- The condition on a store under which it holds a list exactly once the list is copied
over it: no id contains a NUL, and a NUL stands behind every id that is written. -/
def Terminated (currUTXOs : Vector UtxoInfo maxNumUtxos) (utxos : List Utxo) : Prop :=
  ∀ (i : Nat) (utxo : Utxo) (info : UtxoInfo), utxos[i]? = some utxo → currUTXOs[i]? = some info →
    (0 : UInt8) ∉ utxo.txId ∧ info.txId[txIdStringLength]? = some 0

theorem read_filled_iff (info : UtxoInfo) {utxo : Utxo}
    (hlen : utxo.txId.length = txIdStringLength) :
    (info.filled utxo).read = utxo ↔
      (0 : UInt8) ∉ utxo.txId ∧ info.txId[txIdStringLength]? = some 0 := by
  rw [← ofCString_txId_iff info.txId hlen]
  cases utxo with
  | mk vout txId amount =>
      simp only [UtxoInfo.read, UtxoInfo.filled, Utxo.mk.injEq, true_and, and_true]

/-- What a filled store holds. -/
theorem held_fillSlots_iff (currUTXOs : Vector UtxoInfo maxNumUtxos) {utxos : List Utxo}
    (htransferable : Transferable utxos) (hroom : utxos.length ≤ maxNumUtxos) :
    (UtxoStore.mk (UInt32.ofNat utxos.length) (fillSlots currUTXOs 0 utxos)).held = utxos ↔
      Terminated currUTXOs utxos := by
  have hnum : (UInt32.ofNat utxos.length).toNat = utxos.length :=
    UInt32.toNat_ofNat_of_lt' (Nat.lt_of_le_of_lt hroom (by decide))
  have hheld : ∀ (i : Nat) (utxo : Utxo), utxos[i]? = some utxo →
      ((UtxoStore.mk (UInt32.ofNat utxos.length) (fillSlots currUTXOs 0 utxos)).held)[i]? =
        (currUTXOs[i]?).map fun info : UtxoInfo => (info.filled utxo).read := by
    intro i utxo hutxo
    obtain ⟨hi, -⟩ := List.getElem?_eq_some_iff.mp hutxo
    rw [UtxoStore.held, hnum, List.getElem?_map, List.getElem?_take, if_pos hi,
      Vector.getElem?_toList, getElem?_fillSlots utxos currUTXOs 0 i (by omega),
      if_pos ⟨Nat.zero_le i, by omega⟩, Nat.sub_zero, hutxo, Option.bind_some, Option.map_map]
    rfl
  constructor
  · intro heq i utxo info hutxo hinfo
    have hread := hheld i utxo hutxo
    rw [heq, hutxo, hinfo, Option.map_some, Option.some.injEq] at hread
    exact (read_filled_iff info (htransferable utxo (List.mem_of_getElem? hutxo)).1).mp hread.symm
  · intro hterminated
    apply List.ext_getElem?
    intro i
    cases hutxo : utxos[i]? with
    | none =>
        rw [List.getElem?_eq_none_iff] at hutxo ⊢
        rw [UtxoStore.held, hnum, List.length_map, List.length_take, Vector.length_toList]
        omega
    | some utxo =>
        obtain ⟨hi, -⟩ := List.getElem?_eq_some_iff.mp hutxo
        have hslot : currUTXOs[i]? = some currUTXOs[i] := Vector.getElem?_eq_getElem (by omega)
        rw [hheld i utxo hutxo, hslot, Option.map_some]
        exact congrArg some ((read_filled_iff _
          (htransferable utxo (List.mem_of_getElem? hutxo)).1).mpr (hterminated i utxo _ hutxo hslot))

/-- A received list replaces the one in the store. -/
theorem processDogePayload_utxoPayload (rest : Bytes) {utxos : List Utxo}
    (htransferable : Transferable utxos) (hroom : utxos.length ≤ maxNumUtxos) (store : UtxoStore) :
    processDogePayload (Sharp.utxoPayload utxos ++ rest) store =
      some ⟨UInt32.ofNat utxos.length, fillSlots store.currUTXOs 0 utxos⟩ := by
  let count := toBytes 4 (UInt32.ofNat utxos.length).toNat
  have hcount : UInt32.ofNat (ofBytes count) = UInt32.ofNat utxos.length := by
    rw [ofBytes_toBytes_of_lt (UInt32.toNat_lt _), UInt32.ofNat_toNat]
  have hnum : (UInt32.ofNat utxos.length).toNat = utxos.length :=
    UInt32.toNat_ofNat_of_lt' (Nat.lt_of_le_of_lt hroom (by decide))
  have hpayload : Sharp.utxoPayload utxos ++ rest =
      DogeCommandType.sendUTXOs.code :: (count ++ (utxos.flatMap Sharp.serialize ++ rest)) := by
    rw [Sharp.utxoPayload, List.cons_append, List.cons_append, List.append_assoc]
  have hread := readBytes_append [] count (utxos.flatMap Sharp.serialize ++ rest)
    (show 0 = ([] : Bytes).length from rfl) (length_toBytes 4 _).symm
  have hdrop : (count ++ (utxos.flatMap Sharp.serialize ++ rest)).drop 4 =
      utxos.flatMap Sharp.serialize ++ rest := List.drop_left' (length_toBytes 4 _)
  have hrecords := deserializeUTXOs_serialize rest utxos [] 0 store.currUTXOs htransferable
    (by omega)
  rw [List.nil_append] at hread hrecords
  rw [List.length_nil] at hrecords
  rw [hpayload, processDogePayload, if_pos rfl, processReceivedUTXOs]
  simp only [hread, hcount, hnum, hdrop, hrecords, Option.bind_eq_bind, Option.bind_some]

/-! ## Parts at serdog -/

section Parts

variable (m : HostMessage) (client : Client)

/-- The payload of the first `part` parts. -/
def HostMessage.front (part : Nat) : Bytes := m.payload.take (part * maxPayloadLen)

theorem HostMessage.front_succ (part : Nat) :
    m.front (part + 1) = m.front part ++ m.chunk part := by
  rw [front, Nat.succ_mul, List.take_add]
  rfl

theorem HostMessage.front_parts : m.front m.parts = m.payload :=
  List.take_of_length_le ((Pieces.pieceCount_le_iff (by decide) m.parts).mp (Nat.le_refl _))

/-- The client when the first `part` parts of the message are in. -/
def Serdog.Client.joining (part : Nat) : Client :=
  { client with multipart :=
      { multipartBuffer := memcpy client.multipart.multipartBuffer 0 (m.front part)
        multipartIndex := (m.front part).length
        senderAddress := if part = 0 then client.multipart.senderAddress else m.src } }

/-- The header of a part, as serdog reads it. -/
theorem header_frame (part : Nat) :
    addressAt (m.frame part) hdrLen = m.src ∧
      (m.frame part)[10]?.getD 0 = UInt8.ofNat (part + 1) ∧
      (m.frame part)[11]?.getD 0 = UInt8.ofNat m.parts ∧
      (m.frame part).drop multipartHdrLen = m.chunk part := ⟨rfl, rfl, rfl, rfl⟩

theorem length_front {part : Nat} (hpart : part < m.parts) :
    (m.front part).length = part * maxPayloadLen := by
  have hinside : part * maxPayloadLen < m.payload.length :=
    (Pieces.lt_pieceCount_iff (by decide) part).mp hpart
  rw [HostMessage.front, List.length_take]
  omega

/-- One more part is appended, if it fits; the number in it tells the last. -/
theorem parseMultipartPayload_frame {part : Nat} (hpart : part < m.parts)
    (hparts : m.parts ≤ 255) :
    parseMultipartPayload (m.frame part) (client.joining m part).multipart =
      if (m.front (part + 1)).length ≤ multipartBufferSize then
        some (decide (part + 1 = m.parts), (client.joining m (part + 1)).multipart)
      else none := by
  obtain ⟨hsrc, hnumber, htotal, hdrop⟩ := header_frame m part
  have hlen := m.length_frame part
  have hlast : (UInt8.ofNat (part + 1) == UInt8.ofNat m.parts) = decide (part + 1 = m.parts) := by
    rw [beq_eq_decide, decide_eq_decide.mpr (ofNat_inj_of_le (by omega) hparts)]
  have hsender : (if (m.front part).length = 0 then m.src
      else (client.joining m part).multipart.senderAddress) = m.src := by
    by_cases hfirst : part = 0
    · have hnone : (m.front part).length = 0 := by
        rw [length_front m hpart, hfirst, Nat.zero_mul]
      exact if_pos hnone
    · have hheld : (client.joining m part).multipart.senderAddress = m.src := if_neg hfirst
      rw [hheld, ite_self]
  rw [parseMultipartPayload_eq rfl rfl (by omega), hdrop, hsrc, hnumber, htotal, hlast, hsender,
    ← m.front_succ part]
  rfl

/-- The client when all parts are in and the payload has been processed. -/
def Serdog.Client.finished (store : UtxoStore) : Client :=
  { client.joining m m.parts with
    multipart := { (client.joining m m.parts).multipart with multipartIndex := 0 }
    store }

/-- The remaining parts complete the payload exactly if the buffer holds all of it. -/
theorem processAll_frames_from (hparts : m.parts ≤ 255) (remaining : Nat) :
    ∀ part, part + (remaining + 1) = m.parts →
      (client.joining m part).processAll ((List.range' part (remaining + 1)).map m.frame) =
        if m.payload.length ≤ multipartBufferSize then
          (processDogePayload (memcpy client.multipart.multipartBuffer 0 m.payload).toList
            client.store).map (client.finished m)
        else none := by
  have hdispatch : ∀ part, dispatch (m.frame part) = .parseMultipartPayload (m.frame part) :=
    fun part => rfl
  induction remaining with
  | zero =>
      intro part hpart
      have hstep := parseMultipartPayload_frame m client (show part < m.parts by omega) hparts
      have hlast : part + 1 = m.parts := hpart
      rw [hlast, m.front_parts] at hstep
      rw [List.range'_succ, List.map_cons, Client.processAll, hdispatch, Client.process, hstep]
      by_cases hroom : m.payload.length ≤ multipartBufferSize
      · rw [if_pos hroom, if_pos hroom]
        have hbuffer : (client.joining m m.parts).multipart.multipartBuffer =
            memcpy client.multipart.multipartBuffer 0 m.payload := by
          rw [Client.joining, m.front_parts]
        have hstore : (client.joining m part).store = client.store := rfl
        rw [← hbuffer]
        simp only [Option.bind_eq_bind, Option.bind_some, decide_true, if_true, hstore]
        cases processDogePayload (client.joining m m.parts).multipart.multipartBuffer.toList
            client.store with
        | none => rfl
        | some store => rfl
      · rw [if_neg hroom, if_neg hroom]
        rfl
  | succ remaining ih =>
      intro part hpart
      have hstep := parseMultipartPayload_frame m client (show part < m.parts by omega) hparts
      have hmore : decide (part + 1 = m.parts) = false := decide_eq_false (by omega)
      rw [hmore] at hstep
      rw [List.range'_succ, List.map_cons, Client.processAll, hdispatch, Client.process, hstep]
      by_cases hroom : (m.front (part + 1)).length ≤ multipartBufferSize
      · rw [if_pos hroom]
        exact ih (part + 1) (by omega)
      · have hlong : ¬ m.payload.length ≤ multipartBufferSize := fun hle =>
          hroom ((List.length_take_le' _ _).trans hle)
        rw [if_neg hroom, if_neg hlong]
        rfl

/-- **Reassembly at serdog.** The parts of a message reach the Dogecoin layer as one
payload, in front of what the buffer held; a payload that is longer than the buffer is
written past its end. -/
theorem processAll_frames (hpos : 0 < m.parts) (hparts : m.parts ≤ 255)
    (hindex : client.multipart.multipartIndex = 0) :
    client.processAll m.frames =
      if m.payload.length ≤ multipartBufferSize then
        (processDogePayload (memcpy client.multipart.multipartBuffer 0 m.payload).toList
          client.store).map (client.finished m)
      else none := by
  have hstart : client.joining m 0 = client := by
    rw [Client.joining, HostMessage.front, Nat.zero_mul, List.take_zero, if_pos rfl,
      List.length_nil, ← hindex]
    rfl
  have hfrom := processAll_frames_from m client hparts (m.parts - 1) 0 (by omega)
  rwa [Nat.sub_add_cancel hpos, ← List.range_eq_range', hstart] at hfrom

end Parts

/-! ## The transfer -/

/-- The list is in the store once all parts have come in. -/
def Transferred (client : Client) (frames : List Bytes) (utxos : List Utxo) : Prop :=
  ∃ client', client.processAll frames = some client' ∧ client'.store.held = utxos

section Transfer

variable {utxos : List Utxo} {client : Client}

/-- The parts of the list are joined and its records copied over the store, if the
buffer holds the payload. -/
theorem transferred_iff (m : HostMessage) (hpayload : m.payload = Sharp.utxoPayload utxos)
    (htransferable : Transferable utxos) (hroom : utxos.length ≤ maxNumUtxos)
    (hindex : client.multipart.multipartIndex = 0) :
    Transferred client m.frames utxos ↔
      5 + 76 * utxos.length ≤ multipartBufferSize ∧ Terminated client.store.currUTXOs utxos := by
  have hlen : m.payload.length = 5 + 76 * utxos.length := by
    rw [hpayload]
    exact Sharp.length_utxoPayload fun utxo hmem => (htransferable utxo hmem).1
  have hpos : 0 < m.parts := Pieces.pieceCount_pos (by decide) (by omega)
  have hparts : m.parts ≤ 255 := (Pieces.pieceCount_le_iff (by decide) 255).mpr (by
    simp only [maxNumUtxos] at hroom
    simp only [maxPayloadLen]
    omega)
  rw [Transferred, processAll_frames m client hpos hparts hindex, hlen]
  by_cases hfits : 5 + 76 * utxos.length ≤ multipartBufferSize
  · have hbuffer := toList_memcpy client.multipart.multipartBuffer m.payload (hlen ▸ hfits)
    rw [if_pos hfits, hbuffer, hpayload,
      processDogePayload_utxoPayload _ htransferable hroom client.store, Option.map_some]
    constructor
    · rintro ⟨client', hclient, hheld⟩
      obtain rfl := Option.some.inj hclient
      exact ⟨hfits, (held_fillSlots_iff _ htransferable hroom).mp hheld⟩
    · rintro ⟨-, hterminated⟩
      exact ⟨_, rfl, (held_fillSlots_iff _ htransferable hroom).mpr hterminated⟩
  · rw [if_neg hfits]
    refine iff_of_false ?_ fun h => hfits h.1
    rintro ⟨client', hclient, -⟩
    cases hclient

/-- The parts of the list, as they come out of the node of serdog. -/
theorem passOnAll_sendUTXOs (hub : NodeAddress) {dest : NodeAddress} (hpos : utxos.length > 0)
    (sender : Heltec.Node) {receiver : Heltec.Node} (haccepts : receiver.Accepts dest) :
    receiver.passOnAll (sender.transmitAll (Sharp.sendUTXOs hub dest utxos)) =
      (HostMessage.mk hub dest 123 (Sharp.utxoPayload utxos)).frames := by
  have hcommands : Sharp.sendUTXOs hub dest utxos =
      (HostMessage.mk hub dest 123 (Sharp.utxoPayload utxos)).commands := by
    rw [Sharp.sendUTXOs, if_pos hpos]
    exact Sharp.createMultipartPackets_eq ⟨hub, dest, 123, Sharp.utxoPayload utxos⟩ rfl
  rw [hcommands]
  exact passOnAll_transmitAll _ sender receiver haccepts

/-- **The list of unspent outputs.** A list of 1 to 64 outputs that the hub sends through
two nodes ends up in the store of serdog exactly if it has at most 53 outputs, no id
contains a NUL, and a NUL stands behind the 64 characters of every id it is written
over. -/
theorem utxo_transfer_iff (hub dest : NodeAddress) (utxos : List Utxo)
    (hcount : 1 ≤ utxos.length ∧ utxos.length ≤ 64)
    (hascii : ∀ utxo ∈ utxos, utxo.txId.length = 64 ∧ ∀ char ∈ utxo.txId, char < 128)
    (sender receiver : Heltec.Node) (haccepts : receiver.Accepts dest) (client : Client)
    (hindex : client.multipart.multipartIndex = 0) :
    Transferred client
        (receiver.passOnAll (sender.transmitAll (Sharp.sendUTXOs hub dest utxos))) utxos ↔
      utxos.length ≤ 53 ∧
        ∀ (i : Nat) (utxo : Utxo) (info : UtxoInfo), utxos[i]? = some utxo →
          client.store.currUTXOs[i]? = some info →
          (0 : UInt8) ∉ utxo.txId ∧ info.txId[64]? = some 0 := by
  have hbound : 5 + 76 * utxos.length ≤ multipartBufferSize ↔ utxos.length ≤ 53 := by
    simp only [multipartBufferSize]
    omega
  rw [passOnAll_sendUTXOs hub hcount.1 sender haccepts,
    transferred_iff _ rfl hascii hcount.2 hindex, hbound]
  rfl

end Transfer

/-- An output of one coin. -/
def oneCoin : Utxo := ⟨0, List.replicate 64 97, 100000000⟩

theorem transferable_replicate (count : Nat) : Transferable (List.replicate count oneCoin) := by
  intro utxo hmem
  obtain rfl := List.eq_of_mem_replicate hmem
  refine ⟨List.length_replicate, fun char hchar => ?_⟩
  obtain rfl := List.eq_of_mem_replicate hchar
  decide

/-- A list of one output. -/
theorem utxo_transfer_iff_one_coin :
    Transferred Client.boot
        ((Heltec.Node.boot 3).passOnAll ((Heltec.Node.boot 3).transmitAll
          (Sharp.sendUTXOs ⟨10, 0, 3⟩ ⟨0, 0, 0⟩ [oneCoin]))) [oneCoin] ↔
      [oneCoin].length ≤ 53 ∧
        ∀ (i : Nat) (utxo : Utxo) (info : UtxoInfo), [oneCoin][i]? = some utxo →
          Client.boot.store.currUTXOs[i]? = some info →
          (0 : UInt8) ∉ utxo.txId ∧ info.txId[64]? = some 0 :=
  utxo_transfer_iff ⟨10, 0, 3⟩ ⟨0, 0, 0⟩ [oneCoin] ⟨by decide, by decide⟩
    (transferable_replicate 1) (Heltec.Node.boot 3) (Heltec.Node.boot 3) (.inl rfl) Client.boot rfl

/-- A list of 54 outputs overruns the buffer. -/
theorem long_list_not_transferred :
    ¬ ∀ (hub dest : NodeAddress) (utxos : List Utxo), 1 ≤ utxos.length ∧ utxos.length ≤ 64 →
      (∀ utxo ∈ utxos, utxo.txId.length = 64 ∧ ∀ char ∈ utxo.txId, char < 128) →
      ∀ sender receiver : Heltec.Node, receiver.Accepts dest →
      ∀ client : Client, client.multipart.multipartIndex = 0 →
        Transferred client
          (receiver.passOnAll (sender.transmitAll (Sharp.sendUTXOs hub dest utxos))) utxos := by
  intro h
  have hlong : (List.replicate 54 oneCoin).length = 54 := List.length_replicate
  have haccepts : (Heltec.Node.boot 3).Accepts ⟨0, 0, 0⟩ := .inl rfl
  have htransferred := h ⟨10, 0, 3⟩ ⟨0, 0, 0⟩ (List.replicate 54 oneCoin)
    ⟨by omega, by omega⟩ (transferable_replicate 54) (Heltec.Node.boot 3) (Heltec.Node.boot 3)
    haccepts Client.boot rfl
  rw [passOnAll_sendUTXOs _ (by omega) _ haccepts] at htransferred
  have hfits := ((transferred_iff _ rfl (transferable_replicate 54)
    (by simp only [maxNumUtxos]; omega) rfl).mp htransferred).1
  simp only [multipartBufferSize] at hfits
  omega

end RadioDoge
