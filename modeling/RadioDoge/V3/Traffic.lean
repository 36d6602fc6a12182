/-
# Multipart traffic between senders and a receiver

What a receiver hears are frames of the three multipart senders. A `SendCall` is
one call of a sender, `Traffic` is one of its frames arriving, or a sweep of the
receiver's main loop. The receiver's view of a message is `PartOf`: an assembly
that holds some of the parts of that message and nothing else. One part of the
same text keeps an assembly of this kind, and the last one completes it.
-/

import RadioDoge.V3.MultipartSend
import RadioDoge.V3.Assembly

namespace RadioDoge.V3

open Pieces

/-! ## Send calls -/

/-- A call of one of the multipart senders, with the address of the sending
node. -/
inductive SendCall
  | transaction (localAddress destination : NodeAddress) (tx type : Bytes)
  | message (localAddress destination : NodeAddress) (text type : Bytes)
  | broadcast (localAddress : NodeAddress) (text type priority : Bytes)
  deriving DecidableEq, Repr

namespace SendCall

/-- The frames passed to `Radio.Send` by the call. -/
def sent : SendCall → Checked (List Bytes)
  | .transaction localAddress destination tx type =>
      sendMultipartTransaction localAddress destination tx type
  | .message localAddress destination text type =>
      sendMultipartMessage localAddress destination text type
  | .broadcast localAddress text type priority =>
      sendMultipartBroadcast localAddress text type priority

/-- The text a call cuts, and how it labels the parts. -/
def multipart : SendCall → MultipartMessage
  | .transaction localAddress destination tx type =>
      ⟨localAddress, destination, 0, type ++ colon :: tx⟩
  | .message localAddress destination text type =>
      ⟨localAddress, destination, 1, type ++ colon :: text⟩
  | .broadcast localAddress text type priority =>
      ⟨localAddress, NodeAddress.broadcast, 2,
        type ++ colon :: (priority ++ colon :: text)⟩

/-- A text of at most 20 parts goes out whole, whichever sender is used. -/
theorem val_sent (call : SendCall) (hparts : call.multipart.parts ≤ maxMultipartParts) :
    call.sent.val = call.multipart.frames := by
  cases call with
  | transaction localAddress destination tx type =>
      exact (val_sendMultipartTransaction _ _ _ _).trans (if_pos hparts)
  | message localAddress destination text type =>
      exact val_sendMultipartMessage _ _ _ _
  | broadcast localAddress text type priority =>
      exact (val_sendMultipartBroadcast _ _ _ _).trans (if_pos hparts)

/-- The data type of a call is one that reassembly dispatches. -/
theorem dataType_multipart (call : SendCall) :
    call.multipart.dataType = 0 ∨ call.multipart.dataType = 1 ∨ call.multipart.dataType = 2 := by
  cases call with
  | transaction => exact .inl rfl
  | message => exact .inr (.inl rfl)
  | broadcast => exact .inr (.inr rfl)

/-- No call cuts an empty text. -/
theorem parts_multipart_pos (call : SendCall) : 0 < call.multipart.parts := by
  refine pieceCount_pos (by decide) ?_
  cases call <;> simp [multipart]

end SendCall

/-! ## Texts that survive the copy -/

/-- No NUL byte stands before another byte within one 200-byte piece. The
senders copy a piece with `strncpy`, which drops what follows a NUL. -/
def CopySafe (text : Bytes) : Prop :=
  ∀ i j, i ≤ j → j < text.length → i / multipartChunkSize = j / multipartChunkSize →
    text[i]? = some 0 → text[j]? = some 0

namespace MultipartMessage

/-- The text as the parts carry it. -/
def carried (m : MultipartMessage) : Bytes := mapPieces multipartChunkSize strncpy m.text

/-- Byte `j` of the carried text: zero from the first NUL of its piece on. -/
theorem getElem?_carried (m : MultipartMessage) {j : Nat} (hj : j < m.text.length) :
    m.carried[j]? = some (if ∀ i ≤ j, i / multipartChunkSize = j / multipartChunkSize →
      m.text[i]? ≠ some 0 then m.text[j] else 0) := by
  have hc : 0 < multipartChunkSize := by decide
  have hsplit : j / multipartChunkSize * multipartChunkSize + j % multipartChunkSize = j :=
    Nat.div_add_mod' j multipartChunkSize
  have hmod := Nat.mod_lt j hc
  have hlen : j % multipartChunkSize <
      (piece multipartChunkSize m.text (j / multipartChunkSize)).length := by
    rw [length_piece]
    omega
  have hread : ∀ i < multipartChunkSize,
      (piece multipartChunkSize m.text (j / multipartChunkSize))[i]? =
        m.text[j / multipartChunkSize * multipartChunkSize + i]? := fun i hi => by
    rw [piece, List.getElem?_take, if_pos hi, List.getElem?_drop]
  have hbyte : (piece multipartChunkSize m.text (j / multipartChunkSize))[j % multipartChunkSize] =
      m.text[j] := by
    have h := hread _ hmod
    rw [hsplit, List.getElem?_eq_getElem hlen, List.getElem?_eq_getElem hj] at h
    exact Option.some.inj h
  have hfirst : j % multipartChunkSize <
        strlen (piece multipartChunkSize m.text (j / multipartChunkSize)) ↔
      ∀ i ≤ j, i / multipartChunkSize = j / multipartChunkSize → m.text[i]? ≠ some 0 := by
    rw [lt_strlen_iff _ _ hlen]
    constructor
    · intro hall i hi hsame hnul
      have hi' : j / multipartChunkSize * multipartChunkSize + i % multipartChunkSize = i := by
        rw [← hsame]
        exact Nat.div_add_mod' i multipartChunkSize
      refine hall (i % multipartChunkSize) (by omega) ?_
      rw [hread _ (Nat.mod_lt i hc), hi', hnul]
    · intro hall i hi hnul
      have hin : i < multipartChunkSize := by omega
      refine hall (j / multipartChunkSize * multipartChunkSize + i) (by omega) ?_ ?_
      · rw [Nat.mul_comm, Nat.mul_add_div hc, Nat.div_eq_of_lt hin, Nat.add_zero]
      · rw [← hread i hin, hnul]
  rw [carried, getElem?_mapPieces hc length_strncpy, getElem?_strncpy _ _ hlen, hbyte]
  simp only [hfirst]

/-- A text arrives as it is exactly when it is safe to copy. -/
theorem carried_eq_text_iff (m : MultipartMessage) : m.carried = m.text ↔ CopySafe m.text := by
  have hlen : m.carried.length = m.text.length := length_mapPieces (by decide) length_strncpy _
  constructor
  · intro heq i j hij hj hsame hnul
    have h := m.getElem?_carried hj
    have hhidden : ¬ ∀ i ≤ j, i / multipartChunkSize = j / multipartChunkSize →
        m.text[i]? ≠ some 0 := fun hall => hall i hij hsame hnul
    rwa [heq, if_neg hhidden] at h
  · intro hsafe
    apply List.ext_getElem?
    intro j
    by_cases hj : j < m.text.length
    · rw [m.getElem?_carried hj, List.getElem?_eq_getElem hj]
      by_cases hall : ∀ i ≤ j, i / multipartChunkSize = j / multipartChunkSize →
          m.text[i]? ≠ some 0
      · rw [if_pos hall]
      · rw [if_neg hall]
        push Not at hall
        obtain ⟨i, hij, hsame, hnul⟩ := hall
        have hzero := hsafe i j hij hj hsame hnul
        rw [List.getElem?_eq_getElem hj] at hzero
        exact hzero.symm
    · rw [List.getElem?_eq_none (by omega), List.getElem?_eq_none (by omega)]

/-- A NUL-free text is safe to copy. -/
theorem copySafe_of_nulFree {text : Bytes} (hfree : (0 : UInt8) ∉ text) : CopySafe text :=
  fun _ _ _ _ _ hnul => absurd (List.mem_of_getElem? hnul) hfree

/-! ## Frames on arrival -/

/-- What the frame of one part says to a receiver. -/
def partFrame (m : MultipartMessage) (part : Nat) : PartFrame :=
  ⟨m.src, m.dataType, part + 1, m.parts, m.chunk part⟩

/-- What a frame says when its counters are taken as the single bytes they are. -/
def wireFrame (m : MultipartMessage) (part : Nat) : PartFrame :=
  ⟨m.src, m.dataType, (part + 1) % 256, m.parts % 256, m.chunk part⟩

/-- With at most 20 parts the counters fit. -/
theorem wireFrame_eq (m : MultipartMessage) {part : Nat} (hpart : part < m.parts)
    (hparts : m.parts ≤ maxMultipartParts) : m.wireFrame part = m.partFrame part := by
  simp only [maxMultipartParts] at hparts
  rw [wireFrame, partFrame, Nat.mod_eq_of_lt (by omega), Nat.mod_eq_of_lt (by omega)]

theorem length_frame_lt (m : MultipartMessage) (part : Nat) :
    (m.frame part).length < bufferSize := by
  have hchunk := m.length_chunk_le part
  rw [length_frame]
  simp only [multipartHeaderSize, multipartChunkSize, bufferSize] at *
  omega

/-- The receiver finds the header where the sender has put it. -/
theorem byte_header (m : MultipartMessage) (rx : RxBuffer) (part : Nat) {i : Nat}
    (hi : i < multipartHeaderSize) :
    (rx.onRxDone (m.frame part)).byte i = (m.header part)[i]?.getD 0 := by
  have hfront : (m.frame part)[i]? = (m.header part)[i]? :=
    List.getElem?_append_left (by rwa [m.length_header])
  have hlen := m.length_frame part
  rw [RxBuffer.byte_onRxDone rx (by omega) (m.length_frame_lt part), ← hfront,
    List.getElem?_eq_getElem, Option.getD_some]

/-- A receiver reads a frame of a sender as it is on the wire. -/
theorem carries_wireFrame (m : MultipartMessage) (rx : RxBuffer) (part : Nat)
    (htotal : m.parts % 256 ≤ maxMultipartParts) :
    Carries (rx.onRxDone (m.frame part)) (m.wireFrame part) := by
  have hlen := m.length_frame part
  refine ⟨?_, ?_, ?_, ?_, ?_, ?_, m.length_chunk_le part, htotal⟩
  · rw [m.byte_header rx part (by decide), m.byte_header rx part (by decide),
      m.byte_header rx part (by decide)]
    rfl
  · rw [m.byte_header rx part (by decide)]
    exact UInt8.toNat_ofNat'
  · rw [m.byte_header rx part (by decide)]
    exact UInt8.toNat_ofNat'
  · rw [m.byte_header rx part (by decide)]
    rfl
  · simp only [RxBuffer.onRxDone, hlen, wireFrame]
    exact Nat.cast_add _ _
  · simp only [wireFrame]
    rw [RxBuffer.slice_onRxDone rx _ _ _ hlen.ge (m.length_frame_lt part), frame,
      List.drop_left' (m.length_header part), List.take_length]

/-- A receiver reads a frame of a sender as it was meant. -/
theorem carries_frame (m : MultipartMessage) (rx : RxBuffer) {part : Nat} (hpart : part < m.parts)
    (hparts : m.parts ≤ maxMultipartParts) :
    Carries (rx.onRxDone (m.frame part)) (m.partFrame part) := by
  have hmod : m.parts % 256 ≤ maxMultipartParts := (Nat.mod_le _ _).trans hparts
  have hwire := m.carries_wireFrame rx part hmod
  rwa [m.wireFrame_eq hpart hparts] at hwire

end MultipartMessage

/-! ## Assemblies of one message -/

/-- The assembly holds exactly the parts of `m` listed in `held`. -/
structure PartOf (m : MultipartMessage) (held : Finset Nat) (a : Assembly) : Prop where
  src : a.src = m.src
  dataType : a.dataType = m.dataType
  total : a.total = m.parts
  parts : ∀ i, a.parts i = if i ∈ held then some (m.chunk i) else none
  within : held ⊆ Finset.range m.parts

namespace PartOf

variable {m : MultipartMessage} {held : Finset Nat} {a : Assembly}

/-- A message with the same text under the same key has the same parts. -/
theorem congr (h : PartOf m held a) {other : MultipartMessage} (hsrc : other.src = m.src)
    (htype : other.dataType = m.dataType) (htext : other.text = m.text) : PartOf other held a where
  src := h.src.trans hsrc.symm
  dataType := h.dataType.trans htype.symm
  total := by rw [h.total, MultipartMessage.parts, MultipartMessage.parts, htext]
  parts := fun i => by
    rw [h.parts, MultipartMessage.chunk, MultipartMessage.chunk, htext]
  within := by
    have hwithin := h.within
    rwa [MultipartMessage.parts, ← htext] at hwithin

theorem received (h : PartOf m held a) (hparts : m.parts ≤ maxMultipartParts) :
    a.received = held := by
  ext i
  rw [Assembly.mem_received, h.parts]
  by_cases hi : i ∈ held
  · have hlt : i < maxMultipartParts := (Finset.mem_range.mp (h.within hi)).trans_le hparts
    simp [hi, hlt]
  · simp [hi]

/-- The assembly a frame of `m` opens. -/
theorem opened (m : MultipartMessage) (now : UInt32) (part : Nat) :
    PartOf m ∅ (Assembly.opened now (m.partFrame part)) :=
  ⟨rfl, rfl, rfl, fun i => by simp [Assembly.opened], Finset.empty_subset _⟩

/-- One more part of the same message. -/
theorem add (h : PartOf m held a) {part : Nat} (hpart : part < m.parts) :
    PartOf m (insert part held) (a.add part (m.chunk part)) where
  src := h.src
  dataType := h.dataType
  total := h.total
  parts := fun i => by
    by_cases hi : i = part
    · rw [hi, Assembly.parts_add_self, if_pos (Finset.mem_insert_self _ _)]
    · rw [Assembly.parts_add_of_ne _ _ hi, h.parts]
      simp [hi]
  within := Finset.insert_subset (Finset.mem_range.mpr hpart) h.within

/-- With all parts here, the carried text is handed on. -/
theorem handed (h : PartOf m (Finset.range m.parts) a)
    (htype : m.dataType = 0 ∨ m.dataType = 1 ∨ m.dataType = 2) :
    a.handed = some ⟨m.dataType, m.carried, m.src⟩ := by
  have hjoined : a.joined = m.carried := by
    rw [Assembly.joined, h.total, MultipartMessage.carried, mapPieces]
    apply List.flatMap_congr
    intro i hi
    rw [h.parts, if_pos (Finset.mem_range.mpr (List.mem_range.mp hi))]
    rfl
  rw [Assembly.handed, h.dataType, if_pos htype, hjoined, h.src]

/-- The number of parts here reaches the total exactly when all are here. -/
theorem card_received_eq_iff (h : PartOf m held a) (hparts : m.parts ≤ maxMultipartParts) :
    a.received.card = m.parts ↔ held = Finset.range m.parts := by
  rw [h.received hparts]
  constructor
  · intro hcard
    exact Finset.eq_of_subset_of_card_le h.within (by rw [Finset.card_range, hcard])
  · intro hall
    rw [hall, Finset.card_range]

/-- **A part arrives at an assembly of its own message.** A part that is here is
ignored, the last missing one removes the assembly and hands the text on, and
any other is added. -/
theorem absorb (h : PartOf m held a) {opens : List Assembly} {slot : Nat}
    (hslot : opens[slot]? = some a) {part : Nat} (hpart : part < m.parts)
    (hparts : m.parts ≤ maxMultipartParts)
    (htype : m.dataType = 0 ∨ m.dataType = 1 ∨ m.dataType = 2) :
    Assembly.absorb (m.partFrame part) slot opens =
      if part ∈ held then (opens, none)
      else if insert part held = Finset.range m.parts then
        (opens.eraseIdx slot, some ⟨m.dataType, m.carried, m.src⟩)
      else (opens.set slot (a.add part (m.chunk part)), none) := by
  have hvalid : ¬ ((m.partFrame part).number < 1 ∨
      (m.partFrame part).number > (m.partFrame part).total) := by
    simp only [MultipartMessage.partFrame]
    omega
  have hhere : (a.parts part).isSome = true ↔ part ∈ held := by
    rw [h.parts]
    by_cases hmem : part ∈ held <;> simp [hmem]
  have hindex : (m.partFrame part).number - 1 = part := rfl
  rw [Assembly.absorb, if_neg hvalid]
  simp only [hslot, hindex, hhere]
  by_cases hmem : part ∈ held
  · rw [if_pos hmem, if_pos hmem]
  · have hgrown := h.add hpart
    have hdone : (a.add part (m.partFrame part).data).received.card = (m.partFrame part).total ↔
        insert part held = Finset.range m.parts := hgrown.card_received_eq_iff hparts
    rw [if_neg hmem, if_neg hmem]
    simp only [hdone]
    by_cases hall : insert part held = Finset.range m.parts
    · rw [if_pos hall, if_pos hall]
      rw [hall] at hgrown
      exact congrArg (Prod.mk _) (hgrown.handed htype)
    · rw [if_neg hall, if_neg hall]
      rfl

/-- An assembly of `m` is found by every frame of `m`. -/
theorem matchesFrame_iff (h : PartOf m held a) (other : MultipartMessage) (part : Nat) :
    a.matchesFrame (other.partFrame part) = true ↔
      m.src = other.src ∧ m.dataType = other.dataType := by
  simp only [Assembly.matchesFrame, MultipartMessage.partFrame, h.src, h.dataType,
    Bool.and_eq_true, decide_eq_true_eq]

end PartOf

/-- **A frame arrives where its message is alone under its key.** What is kept is old or
made of parts of the message, and what is handed on is its text. -/
theorem Assembly.receive_own {m : MultipartMessage} {opens : List Assembly}
    (hown : ∀ a ∈ opens, a.src = m.src → a.dataType = m.dataType → ∃ held, PartOf m held a)
    {part : Nat} (hpart : part < m.parts) (hparts : m.parts ≤ maxMultipartParts)
    (htype : m.dataType = 0 ∨ m.dataType = 1 ∨ m.dataType = 2) (now : UInt32) :
    (∀ a ∈ (Assembly.receive now (m.partFrame part) opens).1,
        a ∈ opens ∨ ∃ held, PartOf m held a) ∧
      ∀ handed ∈ (Assembly.receive now (m.partFrame part) opens).2,
        handed = ⟨m.dataType, m.carried, m.src⟩ := by
  have habsorb : ∀ (others : List Assembly) (slot : Nat) (a : Assembly) (held : Finset Nat),
      others[slot]? = some a → PartOf m held a →
      (∀ a ∈ (Assembly.absorb (m.partFrame part) slot others).1,
          a ∈ others ∨ ∃ held, PartOf m held a) ∧
        ∀ handed ∈ (Assembly.absorb (m.partFrame part) slot others).2,
          handed = ⟨m.dataType, m.carried, m.src⟩ := by
    intro others slot a held hslot ha
    rw [ha.absorb hslot hpart hparts htype]
    by_cases hdup : part ∈ held
    · rw [if_pos hdup]
      exact ⟨fun other hother => .inl hother, fun handed hhanded => by cases hhanded⟩
    · rw [if_neg hdup]
      by_cases hlast : insert part held = Finset.range m.parts
      · rw [if_pos hlast]
        exact ⟨fun other hother => .inl (List.mem_of_mem_eraseIdx hother),
          fun handed hhanded => (Option.mem_some_iff.mp hhanded).symm⟩
      · rw [if_neg hlast]
        refine ⟨fun other hother => ?_, fun handed hhanded => by cases hhanded⟩
        cases List.mem_or_eq_of_mem_set hother with
        | inl hold => exact .inl hold
        | inr hnew => exact .inr ⟨_, hnew ▸ ha.add hpart⟩
  rw [Assembly.receive]
  cases hslot : opens.findIdx? (Assembly.matchesFrame (m.partFrame part)) with
  | some slot =>
      obtain ⟨hlt, hmatch, -⟩ := List.findIdx?_eq_some_iff_getElem.mp hslot
      rw [Assembly.matchesFrame, Bool.and_eq_true] at hmatch
      obtain ⟨held, ha⟩ := hown opens[slot] (List.getElem_mem hlt) (of_decide_eq_true hmatch.1)
        (of_decide_eq_true hmatch.2)
      exact habsorb opens slot _ held (List.getElem?_eq_getElem hlt) ha
  | none =>
      have hopened := PartOf.opened m now part
      by_cases hroom : opens.length < maxMultipartParts
      · simp only [if_pos hroom]
        obtain ⟨hkept, hhanded⟩ :=
          habsorb _ opens.length _ ∅ List.getElem?_concat_length hopened
        refine ⟨fun a ha => ?_, hhanded⟩
        cases hkept a ha with
        | inr hnew => exact .inr hnew
        | inl hold =>
            cases List.mem_append.mp hold with
            | inl hmem => exact .inl hmem
            | inr hlast => exact .inr ⟨∅, List.mem_singleton.mp hlast ▸ hopened⟩
      · simp only [if_neg hroom]
        exact ⟨fun a ha => .inl ha, fun handed hhanded => by cases hhanded⟩

/-! ## Traffic at one receiver -/

/-- An event at a receiver: a frame of a send call arrives, or the main loop
sweeps expired sessions. -/
inductive Traffic
  | part (now : UInt32) (call : SendCall) (index : Nat)
  | cleanup (now : UInt32)
  deriving DecidableEq, Repr

namespace Traffic

/-- The event as the receiver sees it. -/
def input : Traffic → ReceiverInput
  | .part now call index => .frame now (call.sent.val[index]?.getD [])
  | .cleanup now => .cleanup now

/-- The frame exists, and its message has at most 20 parts. -/
def WellSent : Traffic → Prop
  | .part _ call index =>
      call.multipart.parts ≤ maxMultipartParts ∧ index < call.sent.val.length
  | .cleanup _ => True

/-- A frame of a call, as the receiver sees it. -/
theorem input_part (now : UInt32) {call : SendCall} {index : Nat}
    (h : (Traffic.part now call index).WellSent) :
    index < call.multipart.parts ∧
      (Traffic.part now call index).input = .frame now (call.multipart.frame index) := by
  obtain ⟨hparts, hindex⟩ := h
  rw [call.val_sent hparts] at hindex
  have hlt : index < call.multipart.parts := by
    simpa [MultipartMessage.frames] using hindex
  refine ⟨hlt, ?_⟩
  have hframe : call.sent.val[index]? = some (call.multipart.frame index) := by
    rw [call.val_sent hparts]
    simp [MultipartMessage.frames, hlt]
  rw [input, hframe, Option.getD_some]

end Traffic

/-- One frame of a call, on the table and on the assemblies. -/
theorem Receiver.step_part {r : Receiver} {opens : List Assembly}
    (h : TableRepresents r.table opens) (now : UInt32) {call : SendCall} {index : Nat}
    (hsent : (Traffic.part now call index).WellSent) :
    let next := Assembly.receive now (call.multipart.partFrame index) opens
    TableRepresents (r.step (Traffic.part now call index).input).val.1.table next.1 ∧
      (r.step (Traffic.part now call index).input).val.2 = next.2.toList := by
  obtain ⟨hindex, hinput⟩ := Traffic.input_part now hsent
  have hcarries := call.multipart.carries_frame r.rx hindex hsent.1
  obtain ⟨htable, hhanded⟩ := receive_refines h hcarries now
  rw [hinput]
  exact ⟨htable, congrArg Option.toList hhanded⟩

/-- One sweep, on the table and on the assemblies. -/
theorem Receiver.step_cleanup {r : Receiver} {opens : List Assembly}
    (h : TableRepresents r.table opens) (now : UInt32) :
    TableRepresents (r.step (Traffic.cleanup now).input).val.1.table (Assembly.sweep now opens) ∧
      (r.step (Traffic.cleanup now).input).val.2 = [] :=
  ⟨cleanup_refines h now, rfl⟩

/-! ## Two sample messages -/

/-- A note of 255 bytes, cut into two parts. -/
def longNote (letter : UInt8) : SendCall :=
  .message ⟨10, 0, 2⟩ ⟨10, 0, 1⟩ (List.replicate 250 letter) (ascii "note")

/-- A broadcast note of another node, in a single part. -/
def shortNote : SendCall := .broadcast ⟨10, 0, 3⟩ (ascii "hello") (ascii "note") (ascii "normal")

theorem parts_longNote (letter : UInt8) : (longNote letter).multipart.parts = 2 := by
  have hlen : (longNote letter).multipart.text.length = 255 := by
    simp [longNote, SendCall.multipart, ascii, -List.reduceReplicate]
  rw [MultipartMessage.parts, hlen]
  rfl

theorem parts_shortNote : shortNote.multipart.parts = 1 := by decide

theorem length_sent_longNote (letter : UInt8) : (longNote letter).sent.val.length = 2 := by
  rw [SendCall.val_sent _ (by rw [parts_longNote]; decide), MultipartMessage.frames,
    List.length_map, List.length_range, parts_longNote]

theorem length_sent_shortNote : shortNote.sent.val.length = 1 := by
  rw [SendCall.val_sent _ (by decide), MultipartMessage.frames, List.length_map,
    List.length_range, parts_shortNote]

end RadioDoge.V3
