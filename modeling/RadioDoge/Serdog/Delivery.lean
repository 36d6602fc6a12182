/-
# Which traffic serdog delivers as whole messages

`parseMultipartPayload` appends the data of every part it is given and calls the payload
complete when the number of a part is its total. It compares neither the header nor the
number with those of the part before, it subtracts the 12 bytes of the header without a
look at the size, and the index goes back to zero only behind a last part.
`deliversWhole_iff` says for which frames all of this comes out right.
-/

import RadioDoge.Serdog.Attribution

namespace RadioDoge.Serdog

/-! ## Parts as they are received -/

/-- A frame that the poll thread hands to `parseMultipartPayload`. -/
def AcceptedPart (frame : Bytes) : Prop :=
  0 ≤ isCompleteCmd frame ∧ frame.head? = some SerialCommand.multipartPacket.code

instance (frame : Bytes) : Decidable (AcceptedPart frame) :=
  inferInstanceAs (Decidable (_ ∧ _))

/-- The sender, the receiver, the message id and the reserved byte. -/
def partHeader (frame : Bytes) : Bytes := (frame.drop hdrLen).take 8

def partNumber (frame : Bytes) : UInt8 := frame[10]?.getD 0

def totalParts (frame : Bytes) : UInt8 := frame[11]?.getD 0

def partData (frame : Bytes) : Bytes := frame.drop multipartHdrLen

/-- The last part of a message, as `parseMultipartPayload` tells it. -/
abbrev IsLastPart (frame : Bytes) : Prop := partNumber frame = totalParts frame

/-- The data of parts, one after the other. -/
def joinedData (parts : List Bytes) : Bytes := parts.flatMap partData

/-- Parts 1 to n of one message, in order. -/
structure WholeMessage (parts : List Bytes) : Prop where
  nonempty : parts ≠ []
  sameHeader : ∀ part ∈ parts, ∀ other ∈ parts, partHeader part = partHeader other
  total : ∀ part ∈ parts, (totalParts part).toNat = parts.length
  inOrder : ∀ i part, parts[i]? = some part → (partNumber part).toNat = i + 1

/-- A payload is that of a message whose parts were all received. -/
def CompleteMessage (received : List Bytes) (payload : Bytes) : Prop :=
  ∃ parts, WholeMessage parts ∧ (∀ part ∈ parts, part ∈ received) ∧ payload = joinedData parts

/-- The thread gets along with every frame, and each payload that it processes is that of a
message whose parts were all received. -/
def DeliversWhole : Receiver → List Bytes → List Bytes → Prop
  | _, _, [] => True
  | r, received, frame :: rest =>
      ∃ next calls, r.process (dispatch frame) = some (next, calls) ∧
        (∀ call ∈ calls, CompleteMessage (received ++ [frame]) call.payloadIn) ∧
        DeliversWhole next (received ++ [frame]) rest

/-- What the traffic has to be like, behind the parts received and those of them since the
last part of a message. Every frame has its header, the data since a last part fit the
buffer, and up to the next last part they are those of a message that was received. -/
def CarriesWhole : List Bytes → List Bytes → List Bytes → Prop
  | _, _, [] => True
  | received, stretch, frame :: rest =>
      multipartHdrLen ≤ frame.length ∧
        (joinedData (stretch ++ [frame])).length ≤ multipartBufferSize ∧
        (IsLastPart frame →
          CompleteMessage (received ++ [frame]) (joinedData (stretch ++ [frame]))) ∧
        CarriesWhole (received ++ [frame]) (if IsLastPart frame then [] else stretch ++ [frame])
          rest

theorem joinedData_concat (parts : List Bytes) (frame : Bytes) :
    joinedData (parts ++ [frame]) = joinedData parts ++ partData frame := by
  rw [joinedData, joinedData, List.flatMap_append, List.flatMap_singleton]

/-! ## What one part does -/

/-- The buffer of the receiver begins with these data, and the index is behind them. -/
def Receiver.Buffers (r : Receiver) (joined : Bytes) : Prop :=
  (∃ old, r.multipart.multipartBuffer = memcpy old 0 joined) ∧
    r.multipart.multipartIndex = joined.length

theorem buffers_nil {r : Receiver} (hindex : r.multipart.multipartIndex = 0) : r.Buffers [] :=
  ⟨⟨r.multipart.multipartBuffer, rfl⟩, hindex⟩

section Steps

variable {r : Receiver} {joined frame : Bytes}

/-- A part that has its header and fits is appended. -/
theorem parseMultipartPayload_appends (hbuffers : r.Buffers joined)
    (hheader : multipartHdrLen ≤ frame.length)
    (hroom : (joined ++ partData frame).length ≤ multipartBufferSize) :
    ∃ next : Receiver, next.Buffers (joined ++ partData frame) ∧
      parseMultipartPayload frame r.multipart =
        some (decide (IsLastPart frame), next.multipart) := by
  rcases hbuffers with ⟨⟨old, hold⟩, hindex⟩
  refine ⟨{ r with multipart :=
    ⟨memcpy old 0 (joined ++ partData frame), (joined ++ partData frame).length,
      if joined.length = 0 then addressAt frame hdrLen else r.multipart.senderAddress⟩ },
    ⟨⟨old, rfl⟩, rfl⟩, ?_⟩
  rw [parseMultipartPayload_eq hold hindex hheader, beq_eq_decide]
  exact if_pos hroom

/-- A part without its header, or too many data, are not handled. -/
theorem parseMultipartPayload_eq_none (hbuffers : r.Buffers joined)
    (hout : ¬ (multipartHdrLen ≤ frame.length ∧
      (joined ++ partData frame).length ≤ multipartBufferSize)) :
    parseMultipartPayload frame r.multipart = none := by
  by_cases hheader : multipartHdrLen ≤ frame.length
  · rcases hbuffers with ⟨⟨old, hold⟩, hindex⟩
    rw [parseMultipartPayload_eq hold hindex hheader]
    exact if_neg fun hroom => hout ⟨hheader, hroom⟩
  · rw [parseMultipartPayload, if_neg hheader]

/-- A part that is handled leaves the data joined, or nothing behind a last part, whose
payload is all that was joined. -/
theorem process_accepted (hbuffers : r.Buffers joined) (hpart : AcceptedPart frame)
    (hheader : multipartHdrLen ≤ frame.length)
    (hroom : (joined ++ partData frame).length ≤ multipartBufferSize) :
    ∃ next calls, r.process (dispatch frame) = some (next, calls) ∧
      next.Buffers (if IsLastPart frame then [] else joined ++ partData frame) ∧
      calls.map Call.payloadIn = if IsLastPart frame then [joined ++ partData frame] else [] := by
  have hdispatch : dispatch frame = .parseMultipartPayload frame := by
    rw [dispatch, if_pos hpart.2]
  rcases parseMultipartPayload_appends hbuffers hheader hroom with ⟨behind, hbehind, hparsed⟩
  rw [hdispatch, Receiver.process, hparsed]
  simp only [Option.bind_eq_bind, Option.bind_some, decide_eq_true_eq]
  by_cases hlast : IsLastPart frame
  · rcases hbehind with ⟨⟨old, hbuffer⟩, hindex⟩
    have hpayload : behind.multipart.multipartBuffer.toList.take behind.multipart.multipartIndex =
        joined ++ partData frame := by
      rw [hbuffer, hindex, toList_memcpy old _ hroom, List.take_left]
    simp only [if_pos hlast, hpayload]
    exact ⟨_, _, rfl, buffers_nil rfl, rfl⟩
  · simp only [if_neg hlast]
    exact ⟨_, _, rfl, hbehind, rfl⟩

end Steps

/-! ## Whole runs -/

/-- The calls of a part are whole exactly if its being the last makes them so. -/
theorem calls_whole_iff {received : List Bytes} {frame joined : Bytes} {calls : List Call}
    (hcalls : calls.map Call.payloadIn = if IsLastPart frame then [joined] else []) :
    (∀ call ∈ calls, CompleteMessage received call.payloadIn) ↔
      (IsLastPart frame → CompleteMessage received joined) := by
  have hpayloads : (∀ call ∈ calls, CompleteMessage received call.payloadIn) ↔
      ∀ payload ∈ calls.map Call.payloadIn, CompleteMessage received payload :=
    List.forall_mem_map.symm
  rw [hpayloads, hcalls]
  by_cases hlast : IsLastPart frame
  · rw [if_pos hlast, List.forall_mem_singleton, forall_prop_of_true hlast]
  · rw [if_neg hlast]
    exact iff_of_true (fun payload hmem => absurd hmem List.not_mem_nil)
      fun h => absurd h hlast

/-- Traffic to a receiver that has the data since the last part of a message in its buffer. -/
theorem deliversWhole_iff_from (frames : List Bytes) (haccepted : ∀ frame ∈ frames,
    AcceptedPart frame) :
    ∀ (r : Receiver) (received stretch : List Bytes), r.Buffers (joinedData stretch) →
      (DeliversWhole r received frames ↔ CarriesWhole received stretch frames) := by
  induction frames with
  | nil =>
      intro r received stretch _
      exact Iff.rfl
  | cons frame rest ih =>
      intro r received stretch hbuffers
      have hpart := haccepted frame List.mem_cons_self
      have hrest := fun other hmem => haccepted other (List.mem_cons_of_mem frame hmem)
      rw [DeliversWhole, CarriesWhole, joinedData_concat]
      by_cases hfits : multipartHdrLen ≤ frame.length ∧
          (joinedData stretch ++ partData frame).length ≤ multipartBufferSize
      · rcases process_accepted hbuffers hpart hfits.1 hfits.2 with
          ⟨next, calls, hprocess, hnext, hcalls⟩
        have hstretch : next.Buffers
            (joinedData (if IsLastPart frame then [] else stretch ++ [frame])) := by
          rw [apply_ite joinedData, joinedData_concat]
          exact hnext
        rw [and_iff_right hfits.1, and_iff_right hfits.2, ← ih hrest next _ _ hstretch,
          ← calls_whole_iff hcalls, hprocess]
        apply Iff.intro
        · intro hdelivers
          rcases hdelivers with ⟨other, others, hsame, hwhole⟩
          rcases Prod.mk.inj (Option.some.inj hsame) with ⟨rfl, rfl⟩
          exact hwhole
        · intro hwhole
          exact ⟨next, calls, rfl, hwhole⟩
      · have hnone : r.process (dispatch frame) = none := by
          rw [dispatch, if_pos hpart.2, Receiver.process,
            parseMultipartPayload_eq_none hbuffers hfits]
          rfl
        rw [hnone]
        apply iff_of_false
        · intro hdelivers
          rcases hdelivers with ⟨next, calls, hsome, -⟩
          cases hsome
        · intro hcarries
          exact hfits ⟨hcarries.1, hcarries.2.1⟩

/-- **Which traffic is delivered whole.** No access of serdog is out of bounds, and each
payload that it processes is that of a message whose parts were all received, exactly if
every frame has its header, the data since a last part fit the buffer, and the frames up to
the next last part carry the data of a message that was received. -/
theorem deliversWhole_iff (frames : List Bytes) (haccepted : ∀ frame ∈ frames,
    AcceptedPart frame) :
    DeliversWhole .boot [] frames ↔ CarriesWhole [] [] frames :=
  deliversWhole_iff_from frames haccepted .boot [] [] (buffers_nil rfl)

/-- The two parts of a message, the second one twice. -/
def repeatedEnding : List Bytes :=
  [[109, 11, 10, 0, 2, 10, 0, 1, 1, 0, 1, 2, 65], [109, 11, 10, 0, 2, 10, 0, 1, 1, 0, 2, 2, 66],
    [109, 11, 10, 0, 2, 10, 0, 1, 1, 0, 2, 2, 66]]

/-- The two parts of a message, the second one twice. -/
theorem deliversWhole_iff_repeated_ending :
    DeliversWhole .boot [] repeatedEnding ↔ CarriesWhole [] [] repeatedEnding :=
  deliversWhole_iff repeatedEnding (by decide)

/-- **A lost part is not missed.** The second of two parts is delivered as the whole
message, although the first was never received, and a frame of nothing but its kind and its
length makes the copy run out of bounds. -/
theorem second_part_is_delivered_alone :
    (AcceptedPart [109, 11, 10, 0, 2, 10, 0, 1, 1, 0, 2, 2, 66] ∧
      ¬ DeliversWhole .boot [] [[109, 11, 10, 0, 2, 10, 0, 1, 1, 0, 2, 2, 66]]) ∧
    (AcceptedPart [109, 0] ∧ ¬ DeliversWhole .boot [] [[109, 0]]) := by
  have hcarries : ∀ frame, AcceptedPart frame → DeliversWhole .boot [] [frame] →
      CarriesWhole [] [] [frame] := by
    intro frame hpart
    exact (deliversWhole_iff_from [frame] (List.forall_mem_singleton.mpr hpart) .boot [] []
      (buffers_nil rfl)).mp
  refine ⟨⟨by decide, ?_⟩, by decide, ?_⟩
  · intro hdelivers
    rcases (hcarries _ (by decide) hdelivers).2.2.1 rfl with ⟨parts, hparts, hreceived, -⟩
    rcases List.exists_cons_of_ne_nil hparts.nonempty with ⟨first, rest, rfl⟩
    have hfirst := hparts.inOrder 0 first rfl
    rw [List.mem_singleton.mp (hreceived first List.mem_cons_self)] at hfirst
    exact absurd hfirst (by decide)
  · intro hdelivers
    exact absurd (hcarries _ (by decide) hdelivers).1 (by decide)

/-! ## Messages one after the other -/

namespace PartedMessage

variable (m : PartedMessage)

/-- All parts, in order. -/
def frames : List Bytes := (List.range m.pieces.length).map m.frame

theorem isLastPart_frame_iff {part : Nat} (hpart : part < m.pieces.length) :
    IsLastPart (m.frame part) ↔ part + 1 = m.pieces.length := by
  rcases m.header_frame part with ⟨-, hnumber, htotal, -⟩
  have hfew := m.few
  rw [IsLastPart, partNumber, totalParts, hnumber, htotal, ofNat_inj_of_le (by omega) hfew]

theorem joinedData_frames {k : Nat} (hk : k ≤ m.pieces.length) :
    joinedData ((List.range k).map m.frame) = m.joined k := by
  induction k with
  | zero => rfl
  | succ k ih =>
      rw [List.range_succ, List.map_append, List.map_singleton, joinedData_concat,
        ih (Nat.le_of_succ_le hk), m.joined_succ hk]
      rfl

theorem length_joined_le (k : Nat) : (m.joined k).length ≤ m.pieces.flatten.length := by
  have hsplit : m.pieces.flatten = m.joined k ++ (m.pieces.drop k).flatten := by
    rw [joined, ← List.flatten_append, List.take_append_drop]
  rw [hsplit, List.length_append]
  exact Nat.le_add_right _ _

/-- The frames are the parts of one message. -/
theorem wholeMessage_frames (hpieces : m.pieces ≠ []) : WholeMessage m.frames where
  nonempty := by
    rw [frames, ne_eq, List.map_eq_nil_iff, List.range_eq_nil, List.length_eq_zero_iff]
    exact hpieces
  sameHeader := by
    intro part hpart other hother
    rcases List.mem_map.mp hpart with ⟨i, -, rfl⟩
    rcases List.mem_map.mp hother with ⟨j, -, rfl⟩
    rfl
  total := by
    intro part hpart
    rcases List.mem_map.mp hpart with ⟨i, -, rfl⟩
    rw [totalParts, (m.header_frame i).2.2.1, toNat_ofNat_of_le m.few, frames, List.length_map,
      List.length_range]
  inOrder := by
    intro i part hpart
    rw [frames, List.getElem?_map, Option.map_eq_some_iff] at hpart
    rcases hpart with ⟨j, hj, rfl⟩
    rcases List.getElem?_eq_some_iff.mp hj with ⟨hi, hsame⟩
    rw [List.getElem_range] at hsame
    rw [List.length_range] at hi
    have hfew := m.few
    rw [← hsame, partNumber, (m.header_frame i).2.1, toNat_ofNat_of_le (by omega)]

theorem frames_concat (k : Nat) :
    (List.range k).map m.frame ++ [m.frame k] = (List.range (k + 1)).map m.frame := by
  rw [List.range_succ, List.map_append, List.map_singleton]

/-- One more part of a message that fits the buffer. -/
theorem carriesWhole_frame_iff (hpieces : m.pieces ≠ [])
    (hfits : m.pieces.flatten.length ≤ multipartBufferSize) (received later : List Bytes) {k : Nat}
    (hk : k < m.pieces.length) :
    CarriesWhole (received ++ (List.range k).map m.frame) ((List.range k).map m.frame)
        (m.frame k :: later) ↔
      CarriesWhole (received ++ (List.range (k + 1)).map m.frame)
        (if k + 1 = m.pieces.length then [] else (List.range (k + 1)).map m.frame) later := by
  have hheader : multipartHdrLen ≤ (m.frame k).length := by
    rw [m.length_frame]
    exact Nat.le_add_left _ _
  have hroom : (m.joined (k + 1)).length ≤ multipartBufferSize :=
    (m.length_joined_le (k + 1)).trans hfits
  have hcomplete : IsLastPart (m.frame k) →
      CompleteMessage (received ++ (List.range (k + 1)).map m.frame) (m.joined (k + 1)) := by
    intro hlast
    have hparts : (List.range (k + 1)).map m.frame = m.frames := by
      rw [frames, (m.isLastPart_frame_iff hk).mp hlast]
    refine ⟨m.frames, m.wholeMessage_frames hpieces, ?_, ?_⟩
    · intro part hpart
      rw [hparts]
      exact List.mem_append_right _ hpart
    · rw [← hparts, m.joinedData_frames hk]
  rw [CarriesWhole, List.append_assoc, frames_concat, m.joinedData_frames hk, and_iff_right hheader,
    and_iff_right hroom, and_iff_right hcomplete]
  simp only [m.isLastPart_frame_iff hk]

/-- The parts from number `k + 1` on, behind those before. -/
theorem carriesWhole_frames_from (hpieces : m.pieces ≠ [])
    (hfits : m.pieces.flatten.length ≤ multipartBufferSize) (received rest : List Bytes)
    (hrest : CarriesWhole (received ++ m.frames) [] rest) (later : Nat) :
    ∀ k, k + (later + 1) = m.pieces.length →
      CarriesWhole (received ++ (List.range k).map m.frame) ((List.range k).map m.frame)
        ((List.range' k (later + 1)).map m.frame ++ rest) := by
  induction later with
  | zero =>
      intro k hk
      rw [List.range'_one, List.map_singleton, List.singleton_append,
        m.carriesWhole_frame_iff hpieces hfits received rest (by omega), if_pos hk, hk]
      exact hrest
  | succ later ih =>
      intro k hk
      rw [List.range'_succ, List.map_cons, List.cons_append,
        m.carriesWhole_frame_iff hpieces hfits received _ (by omega), if_neg (by omega)]
      exact ih (k + 1) (by omega)

end PartedMessage

/-- Messages that come one after the other and fit the buffer are delivered whole. -/
theorem carriesWhole_of_one_after_the_other (messages : List PartedMessage)
    (hmessages : ∀ m ∈ messages, m.pieces ≠ [] ∧
      m.pieces.flatten.length ≤ multipartBufferSize) :
    ∀ received, CarriesWhole received [] (messages.flatMap PartedMessage.frames) := by
  induction messages with
  | nil =>
      intro received
      exact trivial
  | cons m rest ih =>
      intro received
      rcases hmessages m List.mem_cons_self with ⟨hpieces, hfits⟩
      have hrest := ih (fun other hmem => hmessages other (List.mem_cons_of_mem m hmem))
        (received ++ m.frames)
      rcases Nat.exists_eq_succ_of_ne_zero (mt List.length_eq_zero_iff.mp hpieces) with
        ⟨later, hlater⟩
      have hcarries := m.carriesWhole_frames_from hpieces hfits received _ hrest later 0
        ((Nat.zero_add _).trans hlater.symm)
      rw [List.flatMap_cons, PartedMessage.frames, hlater, List.range_eq_range']
      rw [List.range_zero, List.map_nil, List.append_nil] at hcarries
      exact hcarries

end RadioDoge.Serdog
