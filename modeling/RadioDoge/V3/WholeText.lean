/-
# Texts that are sent whole

The senders format a text, clip it or cut it, and copy it with `getBytes`, which drops what
follows a NUL. `framePayload` is what a frame carries behind its header; a text is sent
whole when the payloads of its frames, joined, are that text.

A node that has submitted a transaction answers with such a text, twice. Up to 240 bytes
behind the type it uses a message, which carries 247 bytes with the type; a longer answer
goes out in parts, however many there are. `confirmedWhole_iff` says which answers of a
gateway survive this.
-/

import RadioDoge.V3.Recognition

namespace RadioDoge.V3

open Pieces

/-! ## Copies of a text -/

/-- Behind a NUL byte of the text there are only NUL bytes, from byte `start` on. -/
def NulsLastFrom (start : Nat) (text : Bytes) : Prop :=
  ∀ i j, i ≤ j → start ≤ j → j < text.length → text[i]? = some 0 → text[j]? = some 0

/-- The copy of a text agrees with it from byte `start` on exactly if the bytes behind a NUL
byte are NUL bytes too. -/
theorem drop_strncpy_iff (start : Nat) (text : Bytes) :
    (strncpy text).drop start = text.drop start ↔ NulsLastFrom start text := by
  apply Iff.intro
  · intro hsame i j hij hstart hj hnul
    have hbyte := congrArg (·[j - start]?) hsame
    simp only [List.getElem?_drop, Nat.add_sub_cancel' hstart] at hbyte
    have hhidden : ¬ j < strlen text := by
      rw [lt_strlen_iff text j hj]
      intro hall
      exact hall i hij hnul
    rw [getElem?_strncpy text j hj, if_neg hhidden] at hbyte
    exact hbyte.symm
  · intro hlast
    apply List.ext_getElem?
    intro k
    rw [List.getElem?_drop, List.getElem?_drop]
    by_cases hk : start + k < text.length
    · rw [getElem?_strncpy text _ hk]
      by_cases hin : start + k < strlen text
      · rw [if_pos hin, List.getElem?_eq_getElem hk]
      · rw [if_neg hin]
        rw [lt_strlen_iff text _ hk] at hin
        push Not at hin
        rcases hin with ⟨i, hi, hnul⟩
        exact (hlast i _ hi (Nat.le_add_right _ _) hk hnul).symm
    · rw [List.getElem?_eq_none (by rw [length_strncpy]; omega), List.getElem?_eq_none (by omega)]

theorem strncpy_eq_self_iff (text : Bytes) : strncpy text = text ↔ NulsLastFrom 0 text := by
  rw [← drop_strncpy_iff, List.drop_zero, List.drop_zero]

/-! ## What frames carry -/

/-- The bytes of a frame behind its header. The frames of `SendTransaction` and
`SendBroadcast` have none. -/
def framePayload (frame : Bytes) : Bytes :=
  if frame.head? = some SerialCommand.multipartPacket.code then frame.drop multipartHeaderSize
  else if frame.head? = some MessageType.message.code ∨
      frame.head? = some SerialCommand.hostFormedPacket.code then frame.drop 8
  else frame

/-- The payloads of the frames, joined. -/
def carriedText (frames : List Bytes) : Bytes := frames.flatMap framePayload

/-- The frames are at most 20 parts, numbered from 1 on. -/
def NumberedParts (frames : List Bytes) : Prop :=
  frames.length ≤ maxMultipartParts ∧ ∀ k frame, frames[k]? = some frame →
    frame.head? = some SerialCommand.multipartPacket.code ∧
      frame[7]?.map UInt8.toNat = some (k + 1) ∧ frame[8]?.map UInt8.toNat = some frames.length

/-- A frame that begins with a kind and seven more header bytes. -/
theorem framePayload_addressed {kind size : UInt8}
    (hkind : kind = MessageType.message.code ∨ kind = SerialCommand.hostFormedPacket.code)
    (src dest : NodeAddress) (text : Bytes) :
    framePayload (kind :: size :: src.bytes ++ dest.bytes ++ text) = text := by
  have hhead : (kind :: size :: src.bytes ++ dest.bytes ++ text).head? = some kind := rfl
  have hsingle : kind ≠ SerialCommand.multipartPacket.code := by
    rcases hkind with rfl | rfl
    · decide
    · decide
  rw [framePayload, hhead, if_neg fun hpart => hsingle (Option.some.inj hpart),
    if_pos (hkind.imp (congrArg some) (congrArg some))]
  rfl

/-- The frame of a message carries at most 247 bytes of the text. -/
theorem carriedText_sendMessage (localAddress : NodeAddress) (serialBuf : Vector UInt8 bufferSize)
    (destination : NodeAddress) (message type : Bytes) :
    carriedText [(sendMessage localAddress serialBuf destination message type).2] =
      strncpy ((type ++ colon :: message).take 247) := by
  rw [frame_sendMessage, carriedText, List.flatMap_singleton]
  exact framePayload_addressed (.inl rfl) _ _ _

/-- The frames of a text in parts carry the text as the parts do. -/
theorem carriedText_frames (m : MultipartMessage) : carriedText m.frames = m.carried := by
  have hpart : ∀ part, framePayload (m.frame part) = m.chunk part := by
    intro part
    rw [framePayload, if_pos (by rfl), MultipartMessage.frame]
    exact List.drop_left' (m.length_header part)
  rw [carriedText, MultipartMessage.frames, List.flatMap_map]
  simp only [hpart]
  rfl

theorem length_frames (m : MultipartMessage) : m.frames.length = m.parts := by
  rw [MultipartMessage.frames, List.length_map, List.length_range]

/-- The parts of a text are numbered as they should be if there are at most 20. -/
theorem numberedParts_frames_iff (m : MultipartMessage) :
    NumberedParts m.frames ↔ m.text.length ≤ maxMultipartParts * multipartChunkSize := by
  have hcount : m.parts ≤ maxMultipartParts ↔
      m.text.length ≤ maxMultipartParts * multipartChunkSize :=
    pieceCount_le_iff (by decide) maxMultipartParts
  rw [← hcount, NumberedParts, length_frames]
  apply Iff.intro
  · exact And.left
  · intro hparts
    refine ⟨hparts, fun k frame hframe => ?_⟩
    rcases List.getElem?_eq_some_iff.mp hframe with ⟨hk, rfl⟩
    rw [length_frames] at hk
    have hbyte : ∀ n ≤ maxMultipartParts, (UInt8.ofNat n).toNat = n := by
      intro n hn
      rw [UInt8.toNat_ofNat']
      exact Nat.mod_eq_of_lt (Nat.lt_of_le_of_lt hn (by decide))
    have hat : m.frames[k] = m.frame k := by simp [MultipartMessage.frames]
    rw [hat]
    refine ⟨rfl, ?_, ?_⟩
    · exact congrArg some (hbyte (k + 1) (Nat.le_trans hk hparts))
    · exact congrArg some (hbyte m.parts hparts)

/-- A message of at most 247 bytes is whole if the copy is. -/
theorem clipped_eq_iff (text : Bytes) :
    strncpy (text.take 247) = text ↔ text.length ≤ 247 ∧ NulsLastFrom 0 text := by
  apply Iff.intro
  · intro hsame
    have hlength := congrArg List.length hsame
    rw [length_strncpy, List.length_take] at hlength
    have hle : text.length ≤ 247 := by omega
    rw [List.take_of_length_le hle] at hsame
    exact ⟨hle, (strncpy_eq_self_iff text).mp hsame⟩
  · intro hfits
    rw [List.take_of_length_le hfits.1]
    exact (strncpy_eq_self_iff text).mpr hfits.2

/-! ## Confirmations -/

/-- The frames are one message, or numbered parts, and carry the text. -/
def SentWhole (frames : List Bytes) (text : Bytes) : Prop :=
  carriedText frames = text ∧
    ((∃ frame, frames = [frame] ∧ frame.head? = some MessageType.message.code) ∨
      NumberedParts frames)

/-- The answer is sent twice, each time whole or not at all. -/
def ConfirmedWhole (sent : List Bytes) (response : Bytes) : Prop :=
  ∃ frames, sent = frames ++ frames ∧
    (frames = [] ∨ SentWhole frames (confirmationText response))

/-- An answer below the threshold fits a message, one above it fits 20 parts, and the copy
drops nothing. -/
def ResponseFits (response : Bytes) : Prop :=
  if response.length ≤ 222 then
    response.length ≤ 216 ∧ NulsLastFrom 0 (confirmationText response)
  else response.length ≤ 3969 ∧ CopySafe (confirmationText response)

theorem length_confirmationText (response : Bytes) :
    (confirmationText response).length = response.length + 31 := by
  rw [confirmationText, List.length_append, List.length_cons, List.length_append]
  have htype : (ascii "confirmation").length = 12 := by decide
  have hmark : responseMark.length = 18 := by decide
  omega

/-- The threshold is compared with the answer and its mark. -/
theorem mark_append_gt_iff (response : Bytes) :
    (responseMark ++ response).length > 240 ↔ ¬ response.length ≤ 222 := by
  rw [List.length_append]
  have hmark : responseMark.length = 18 := by decide
  omega

/-- One confirmation is whole exactly if the answer fits. -/
theorem sentWhole_confirmationFrames_iff (localAddress originalSender : NodeAddress)
    (response : Bytes) :
    SentWhole (confirmationFrames localAddress originalSender (responseMark ++ response))
        (confirmationText response) ↔
      ResponseFits response := by
  have hlength := length_confirmationText response
  by_cases hshort : response.length ≤ 222
  · have hframe := confirmationFrames_short localAddress originalSender
      (fun hlong => (mark_append_gt_iff response).mp hlong hshort)
    rw [hframe, ResponseFits, if_pos hshort, SentWhole, confirmationFrame,
      and_iff_left (Or.inl ⟨_, rfl, rfl⟩), carriedText, List.flatMap_singleton,
      framePayload_addressed (.inl rfl), clipped_eq_iff, hlength]
    exact and_congr_left' (by omega)
  · let m := confirmationMessage localAddress originalSender response
    have hframes := confirmationFrames_long localAddress originalSender
      ((mark_append_gt_iff response).mpr hshort)
    have hsafe : m.carried = m.text ↔ CopySafe m.text := m.carried_eq_text_iff
    have hmessage : ¬ ∃ frame, m.frames = [frame] ∧
        frame.head? = some MessageType.message.code := by
      intro hsingle
      rcases hsingle with ⟨frame, hframes, hhead⟩
      have hmem : frame ∈ m.frames := by
        rw [hframes]
        exact List.mem_singleton_self frame
      rcases MultipartMessage.exists_of_mem_frames hmem with ⟨part, rfl⟩
      have hcodes : some SerialCommand.multipartPacket.code = some MessageType.message.code := hhead
      exact absurd hcodes (by decide)
    rw [hframes, ResponseFits, if_neg hshort, SentWhole,
      carriedText_frames, or_iff_right hmessage, numberedParts_frames_iff, and_comm]
    refine and_congr ?_ hsafe
    change (confirmationText response).length ≤ 20 * 200 ↔ _
    omega

/-- Both confirmations are, since they have the same frames. -/
theorem confirmedWhole_confirmationFrames_iff (localAddress originalSender : NodeAddress)
    (response : Bytes) :
    ConfirmedWhole (confirmationFrames localAddress originalSender (responseMark ++ response) ++
        confirmationFrames localAddress originalSender (responseMark ++ response)) response ↔
      ResponseFits response := by
  rw [← sentWhole_confirmationFrames_iff localAddress originalSender response]
  apply Iff.intro
  · intro hconfirmed
    rcases hconfirmed with ⟨frames, hsent, hframes⟩
    have hhalf := (List.append_inj' hsent (by
      have hlength := congrArg List.length hsent
      rw [List.length_append, List.length_append] at hlength
      omega)).1
    rcases hframes with hnone | hwhole
    · rcases confirmationFrames_eq_cons localAddress originalSender
        (responseMark ++ response) with ⟨frame, rest, hcons, -⟩
      rw [hnone] at hhalf
      exact absurd (hcons.symm.trans hhalf) (List.cons_ne_nil _ _)
    · rw [hhalf]
      exact hwhole
  · intro hwhole
    exact ⟨_, rfl, .inr hwhole⟩

/-- **Which answers are sent whole.** A node that has submitted a transaction answers with
the text of the gateway, twice, exactly if the text has at most 216 bytes, or 223 to 3969
bytes, and its NUL bytes are last. -/
theorem confirmedWhole_iff (http : Http) (handed : Reassembled) (node : Node)
    (htype : handed.dataType = 0 ∨ handed.dataType = 2) {call : Submission}
    (hcall : node.submission handed.txData = some call) :
    ConfirmedWhole (transmissions (processReassembled http handed node).val.2)
        (call.call http node.internetConnected).1 ↔
      ResponseFits (call.call http node.internetConnected).1 := by
  rw [(effects_with_gateway http handed node htype hcall).2]
  exact confirmedWhole_confirmationFrames_iff _ _ _

/-- A gateway that answers everything with one text. -/
def answering (body : Bytes) : Http := fun _ => ⟨200, body, []⟩

/-- A node that is online. -/
def askingNode : Node := { plainNode with internetConnected := true }

/-- A transaction of two letters. -/
def twoLetters : Reassembled := ⟨0, ascii "signed:ab", ⟨10, 0, 3⟩⟩

/-- The transaction is submitted as it is, and answered. -/
theorem submission_twoLetters (body : Bytes) :
    askingNode.submission twoLetters.txData = some (.sendTransactionToInternet (ascii "ab")) ∧
      (Submission.call (answering body) askingNode.internetConnected
        (.sendTransactionToInternet (ascii "ab"))).1 = body :=
  ⟨by decide, rfl⟩

/-- The answer is "ok". -/
theorem confirmedWhole_iff_ok :
    ConfirmedWhole (transmissions (processReassembled (answering (ascii "ok")) twoLetters
        askingNode).val.2) (ascii "ok") ↔ ResponseFits (ascii "ok") :=
  confirmedWhole_iff (answering (ascii "ok")) twoLetters askingNode (.inl rfl)
    (submission_twoLetters (ascii "ok")).1

/-- An answer of 217 letters loses the last one. -/
theorem answer_of_217_letters :
    ¬ ∀ (http : Http) (handed : Reassembled) (node : Node),
        handed.dataType = 0 ∨ handed.dataType = 2 →
        ∀ call : Submission, node.submission handed.txData = some call →
          ConfirmedWhole (transmissions (processReassembled http handed node).val.2)
            (call.call http node.internetConnected).1 := by
  intro hall
  have hletters : ∃ body : Bytes, body.length = 217 :=
    ⟨List.replicate 217 65, List.length_replicate⟩
  rcases hletters with ⟨body, hbody⟩
  rcases submission_twoLetters body with ⟨hcall, hresponse⟩
  have hwhole := hall (answering body) twoLetters askingNode (.inl rfl) _ hcall
  rw [(effects_with_gateway (answering body) twoLetters askingNode (.inl rfl) hcall).2,
    hresponse] at hwhole
  have hfits := (confirmedWhole_confirmationFrames_iff _ _ body).mp hwhole
  rw [ResponseFits, hbody, if_pos (by decide)] at hfits
  exact absurd hfits.1 (by decide)

end RadioDoge.V3
