/-
# What becomes of the type of a broadcast

A broadcast is the text `type:priority:message`, and a node that has received one whole
looks for `transaction:` at its front. If that is not there, the whole text is taken for a
transaction of priority `normal`: it is submitted, or sent on behind the words
`transaction:normal:`, twice. If it is there, the front is kept, and one more
`transaction:priority:` is put before it.

So what the next node reads at the front is never the type of the broadcast, unless the
type and priority are themselves made of such words.
-/

import RadioDoge.V3.Rebroadcasts

namespace RadioDoge.V3

/-! ## The text of a broadcast -/

/-- What `SendMultipartBroadcast` is given. -/
structure Broadcast where
  type : Bytes
  priority : Bytes
  message : Bytes
  deriving DecidableEq, Repr

namespace Broadcast

/-- `broadcastData`. -/
def data (b : Broadcast) : Bytes := b.type ++ colon :: (b.priority ++ colon :: b.message)

/-- The two fields in front of the message, with their colons. -/
def fields (b : Broadcast) : Bytes := b.type ++ colon :: (b.priority ++ [colon])

theorem data_eq (b : Broadcast) : b.data = b.fields ++ b.message := by
  simp [data, fields]

/-- A text is a broadcast of this type and priority if it begins with the fields. -/
theorem exists_message_iff (b : Broadcast) (text : Bytes) :
    (∃ message, text = (Broadcast.mk b.type b.priority message).data) ↔ b.fields <+: text := by
  apply Iff.intro
  · intro h
    rcases h with ⟨message, rfl⟩
    rw [data_eq]
    exact List.prefix_append _ _
  · intro h
    rcases h with ⟨message, rfl⟩
    exact ⟨message, (data_eq ⟨b.type, b.priority, message⟩).symm⟩

/-- The fields have two colons. -/
theorem two_le_count_fields (b : Broadcast) : 2 ≤ b.fields.count colon := by
  simp only [fields, List.count_append, List.count_cons_self, List.count_nil]
  omega

end Broadcast

/-! ## The front that a node recognises -/

/-- `transaction:` and a priority, with its colon. -/
def transactionMark (priority : Bytes) : Bytes := ascii "transaction:" ++ (priority ++ [colon])

/-- The text begins with `transaction:` and this priority. -/
structure Marked (priority text : Bytes) : Prop where
  fresh : colon ∉ priority
  nulFree : (0 : UInt8) ∉ priority
  front : transactionMark priority <+: text

theorem length_transactionMark (priority : Bytes) :
    (transactionMark priority).length = 13 + priority.length := by
  have hlabel : (ascii "transaction:").length = 12 := by decide
  rw [transactionMark, List.length_append, List.length_append, hlabel, List.length_singleton]
  omega

theorem transactionMark_append (priority rest : Bytes) :
    transactionMark priority ++ rest = ascii "transaction:" ++ (priority ++ colon :: rest) := by
  rw [transactionMark, List.append_assoc, List.append_assoc, List.singleton_append]

/-- The front is cut away, and the priority is read from it. -/
theorem splitBroadcast_marked {priority : Bytes} (hfresh : colon ∉ priority)
    (hnul : (0 : UInt8) ∉ priority) (rest : Bytes) :
    splitBroadcast (transactionMark priority ++ rest) = (rest, priority) := by
  have hskip : (ascii "transaction:").length = 12 := by decide
  rw [transactionMark_append]
  rcases splitBroadcast_cases (ascii "transaction:" ++ (priority ++ colon :: rest)) with
    ⟨hnone, -⟩ | ⟨pos, hstart, hcolon, hbefore, heq⟩
  · exact absurd hnone (priority_found rest hnul hfresh)
  · have hbehind : ∀ i, 12 ≤ i → (ascii "transaction:" ++ (priority ++ colon :: rest))[i]? =
        (priority ++ colon :: rest)[i - 12]? := by
      intro i hi
      rw [List.getElem?_append_right (hskip.symm ▸ hi), hskip]
    have hle : ¬ 12 + priority.length < pos := by
      intro hlt
      apply (hbefore (12 + priority.length) (Nat.le_add_right _ _) hlt).1
      rw [hbehind _ (Nat.le_add_right _ _), Nat.add_sub_cancel_left,
        List.getElem?_append_right le_rfl, Nat.sub_self]
      rfl
    have hge : ¬ pos - 12 < priority.length := by
      intro hlt
      rw [hbehind pos hstart, List.getElem?_append_left hlt] at hcolon
      exact hfresh (List.mem_of_getElem? hcolon)
    have hpos : pos = 12 + priority.length := by omega
    rw [heq, hpos, Nat.add_sub_cancel_left, List.drop_left' hskip, List.take_left,
      ← transactionMark_append, List.drop_left']
    rw [length_transactionMark]
    omega

/-- Without such a front nothing is cut away. -/
theorem splitBroadcast_unmarked {data : Bytes} (hplain : ∀ priority, ¬ Marked priority data) :
    splitBroadcast data = (data, ascii "normal") := by
  by_cases hstarts : startsWith data (ascii "transaction:") = true
  · rcases splitBroadcast_cases data with ⟨-, heq⟩ | ⟨pos, hstart, hcolon, -, heq⟩
    · exact heq
    · rcases (startsWith_iff _ _).mp hstarts with ⟨tail, rfl⟩
      have hskip : (ascii "transaction:").length = 12 := by decide
      have hclean := priority_clean (ascii "transaction:" ++ tail)
      rw [heq, List.drop_left' hskip] at hclean
      rw [List.getElem?_append_right (hskip.symm ▸ hstart), hskip] at hcolon
      rcases List.getElem?_eq_some_iff.mp hcolon with ⟨hlt, hat⟩
      refine absurd ⟨hclean.1, hclean.2, tail.drop (pos - 12 + 1), ?_⟩
        (hplain (tail.take (pos - 12)))
      rw [transactionMark_append, ← hat, ← List.drop_eq_getElem_cons hlt, List.take_append_drop]
  · have hnormal : ¬ startsWith data (ascii "transaction:normal:") = true := by
      intro hnormal
      apply hstarts
      rw [startsWith_iff] at hnormal ⊢
      exact List.IsPrefix.trans (by decide) hnormal
    rw [splitBroadcast, if_neg hnormal, if_neg hstarts]

/-- The priority behind `transaction:` is read in one way only. -/
theorem Marked.unique {first second text : Bytes} (hfirst : Marked first text)
    (hsecond : Marked second text) : first = second := by
  rcases hfirst with ⟨hfresh, hnul, rest, rfl⟩
  rcases hsecond with ⟨hfresh', hnul', rest', hsame⟩
  have hread := splitBroadcast_marked hfresh hnul rest
  rw [← hsame, splitBroadcast_marked hfresh' hnul' rest'] at hread
  exact (congrArg Prod.snd hread).symm

/-! ## What a relay puts on the air -/

/-- The data of the rebroadcast. -/
theorem rebroadcastData_broadcast (data : Bytes) (src : NodeAddress) :
    (Reassembled.mk 2 data src).rebroadcastData =
      transactionMark (splitBroadcast data).2 ++ (splitBroadcast data).1 := by
  have htype : ¬ (2 : UInt8) = 0 := by decide
  simp only [Reassembled.rebroadcastData, Reassembled.txData, if_neg htype]
  rw [transactionMark_append, List.append_assoc, List.append_assoc, List.append_assoc]
  rfl

/-- What is sent on for a text that is recognised. -/
theorem rebroadcast_marked {priority data : Bytes} (h : Marked priority data) (src : NodeAddress) :
    (Reassembled.mk 2 data src).rebroadcastPriority = priority ∧
      (Reassembled.mk 2 data src).rebroadcastData = data := by
  rcases h with ⟨hfresh, hnul, rest, rfl⟩
  have hsplit := splitBroadcast_marked hfresh hnul rest
  rw [rebroadcastData_broadcast, hsplit]
  exact ⟨congrArg Prod.snd hsplit, rfl⟩

/-- What is sent on for any other text. -/
theorem rebroadcast_unmarked {data : Bytes} (h : ∀ priority, ¬ Marked priority data)
    (src : NodeAddress) :
    (Reassembled.mk 2 data src).rebroadcastPriority = ascii "normal" ∧
      (Reassembled.mk 2 data src).rebroadcastData = transactionMark (ascii "normal") ++ data := by
  have hsplit := splitBroadcast_unmarked h
  rw [rebroadcastData_broadcast, hsplit]
  exact ⟨congrArg Prod.snd hsplit, rfl⟩

/-- The message that `SendMultipartBroadcast` cuts into parts when `data` is sent on. -/
def relayMessage (localAddress : NodeAddress) (priority data : Bytes) : MultipartMessage :=
  ⟨localAddress, NodeAddress.broadcast, 2, transactionMark priority ++ data⟩

theorem parts_relayMessage_pos (localAddress : NodeAddress) (priority data : Bytes) :
    0 < (relayMessage localAddress priority data).parts := by
  have htext : 0 < (relayMessage localAddress priority data).text.length := by
    change 0 < (transactionMark priority ++ data).length
    rw [List.length_append, length_transactionMark]
    omega
  exact Pieces.pieceCount_pos (by decide) htext

/-- What a node without a gateway transmits: the parts of a text with one more front, or one
frame. -/
theorem transmissions_relay (http : Http) (data : Bytes) (src : NodeAddress) {node : Node}
    (hnone : ¬ node.HasGateway) {priority sent : Bytes}
    (hpriority : (Reassembled.mk 2 data src).rebroadcastPriority = priority)
    (hsent : (Reassembled.mk 2 data src).rebroadcastData = sent) :
    transmissions (processReassembledBroadcast http data src node).val.2 =
      if sent.length > 255 then
        if (transactionMark priority ++ sent).length ≤ 4000 then
          (relayMessage node.localAddress priority sent).frames
        else []
      else [(sendBroadcast node.serialBuf sent (ascii "transaction") priority).2] := by
  have heffects := effects_without_gateway http ⟨2, data, src⟩ node (.inr rfl) hnone
  rw [hpriority, hsent, transmissions_rebroadcast] at heffects
  have hparts := BroadcastCall.parts_le_iff (relayMessage node.localAddress priority sent)
  have htext : ascii "transaction" ++ colon :: (priority ++ colon :: sent) =
      transactionMark priority ++ sent := by
    rw [transactionMark_append]
    rfl
  rw [htext] at heffects
  change transmissions (processReassembledBroadcast http data src node).val.2 = _ at heffects
  rw [heffects]
  split
  · exact if_congr hparts rfl rfl
  · rfl

/-! ## Repetitions -/

/-- A word has no NUL if before every NUL there is an earlier one. -/
theorem nulFree_of_descent {word : Bytes}
    (hdescent : ∀ i : Nat, word[i]? = some 0 → ∃ j < i, word[j]? = some 0) :
    (0 : UInt8) ∉ word := by
  have hnone : ∀ i : Nat, word[i]? ≠ some 0 := by
    intro i
    induction i using Nat.strong_induction_on with
    | _ i ih =>
        intro hnul
        rcases hdescent i hnul with ⟨j, hj, hearlier⟩
        exact ih j hj hearlier
  intro hmem
  rcases List.getElem?_of_mem hmem with ⟨i, hi⟩
  exact hnone i hi

section Repetition

variable {mark word : Bytes}

/-- Behind a NUL-free mark, a NUL of the word comes from further left in the word. -/
theorem earlier_nul (hfree : (0 : UInt8) ∉ mark) (hpos : 0 < mark.length) (rest : Bytes) {i : Nat}
    (hi : i < word.length) (hnul : (mark ++ (word ++ rest))[i]? = some 0) :
    ∃ j < i, word[j]? = some 0 := by
  by_cases hin : i < mark.length
  · rw [List.getElem?_append_left hin] at hnul
    exact absurd (List.mem_of_getElem? hnul) hfree
  · have hlt : i - mark.length < word.length := by omega
    rw [List.getElem?_append_right (Nat.le_of_not_lt hin), List.getElem?_append_left hlt] at hnul
    exact ⟨i - mark.length, by omega, hnul⟩

/-- A word that repeats a NUL-free mark has no NUL. -/
theorem nulFree_of_repeats (hfree : (0 : UInt8) ∉ mark) (hpos : 0 < mark.length)
    (hrepeats : word <+: mark ++ word) : (0 : UInt8) ∉ word := by
  apply nulFree_of_descent
  intro i hnul
  rcases List.getElem?_eq_some_iff.mp hnul with ⟨hi, hat⟩
  apply earlier_nul hfree hpos [] hi
  rw [List.append_nil, List.prefix_iff_getElem?.mp hrepeats i hi, hat]

/-- A word behind a NUL-free mark is what the parts carry at the front exactly if it repeats
the mark. -/
theorem prefix_carried_iff {m : MultipartMessage} {rest : Bytes}
    (htext : m.text = mark ++ (word ++ rest)) (hfree : (0 : UInt8) ∉ mark)
    (hpos : 0 < mark.length) : word <+: m.carried ↔ word <+: mark ++ word := by
  have hwhole : mark ++ word <+: m.text := by
    rw [htext, ← List.append_assoc]
    exact List.prefix_append _ _
  apply Iff.intro
  · intro hcarried
    have hread : ∀ (i : Nat) (hi : i < word.length), m.carried[i]? = some word[i] := by
      intro i hi
      exact List.prefix_iff_getElem?.mp hcarried i hi
    have hword : (0 : UInt8) ∉ word := by
      apply nulFree_of_descent
      intro i hnul
      rcases List.getElem?_eq_some_iff.mp hnul with ⟨hi, hat⟩
      by_contra hnone
      push Not at hnone
      have hsent : ∀ j < i, m.text[j]? ≠ some 0 := by
        intro j hj hzero
        have hjword := hj.trans hi
        have hne : word[j] ≠ 0 := by
          intro heq
          exact hnone j hj (List.getElem?_eq_some_iff.mpr ⟨hjword, heq⟩)
        rw [MultipartMessage.getElem?_text_of_carried (hread j hjword) hne] at hzero
        exact hne (Option.some.inj hzero)
      have hlt : i < m.text.length := hi.trans_le
        ((Nat.le_add_left _ _).trans (List.length_append ▸ hwhole.length_le))
      have hhere : m.text[i]? = some 0 := by
        have hbyte := hread i hi
        rw [m.getElem?_carried hlt, hat] at hbyte
        by_contra hne
        have hall : ∀ j ≤ i, j / multipartChunkSize = i / multipartChunkSize →
            m.text[j]? ≠ some 0 := by
          intro j hj _
          rcases Nat.lt_or_eq_of_le hj with hless | rfl
          · exact hsent j hless
          · exact hne
        rw [if_pos hall, ← List.getElem?_eq_getElem hlt] at hbyte
        exact hne hbyte
      rw [htext] at hhere
      rcases earlier_nul hfree hpos rest hi hhere with ⟨j, hj, hearlier⟩
      exact hnone j hj hearlier
    have hfront : word <+: m.text := by
      rw [List.prefix_iff_getElem?]
      intro i hi
      apply MultipartMessage.getElem?_text_of_carried (hread i hi)
      intro hzero
      exact hword (hzero ▸ List.getElem_mem hi)
    apply List.prefix_of_prefix_length_le hfront hwhole
    rw [List.length_append]
    exact Nat.le_add_left _ _
  · intro hrepeats
    rcases hrepeats.trans hwhole with ⟨behind, hbehind⟩
    rcases MultipartMessage.carried_append hbehind.symm
      (nulFree_of_repeats hfree hpos hrepeats) with ⟨tail, hcarried, -⟩
    rw [hcarried]
    exact List.prefix_append _ _

end Repetition

theorem nulFree_transactionMark {priority : Bytes} (hnul : (0 : UInt8) ∉ priority) :
    (0 : UInt8) ∉ transactionMark priority := nulFree_front hnul

/-- The fields of a broadcast are no front of `transaction:normal:` that stops short of its
end, so they do not follow it unless they begin with it. -/
theorem marked_of_prefix {fields behind : Bytes} (hcolons : 2 ≤ fields.count colon)
    (h : fields <+: transactionMark (ascii "normal") ++ behind) :
    Marked (ascii "normal") fields := by
  have hmark := List.prefix_append (transactionMark (ascii "normal")) behind
  rcases List.prefix_or_prefix_of_prefix h hmark with hshort | hlong
  · have hall : fields.length = (transactionMark (ascii "normal")).length := by
      by_contra hne
      have hless : fields.length ≤ 18 := by
        have hle := hshort.length_le
        rw [length_transactionMark] at hle hne
        have hnormal : (ascii "normal").length = 6 := by decide
        omega
      have hcut : fields <+: (transactionMark (ascii "normal")).take 18 :=
        List.prefix_take_iff.mpr ⟨hshort, hless⟩
      have hcount := hcut.sublist.count_le colon
      have hone : ((transactionMark (ascii "normal")).take 18).count colon = 1 := by decide
      omega
    exact ⟨by decide, by decide, (hshort.eq_of_length hall) ▸ List.prefix_refl _⟩
  · exact ⟨by decide, by decide, hlong⟩

/-! ## What the next node reads -/

/-- The node gives its host `BROADCAST:` and a text that begins with these two fields. -/
def ReadsFields (b : Broadcast) (effects : List Effect) : Prop :=
  ∃ message, hostLine "BROADCAST:" (Broadcast.mk b.type b.priority message).data <+: effects

/-- The line for the host names the text. -/
theorem hostLine_prefix_iff (label : String) (first second : Bytes) (rest : List Effect) :
    hostLine label first <+: hostLine label second ++ rest ↔ first = second := by
  apply Iff.intro
  · intro h
    have hhead := (List.cons_prefix_cons.mp h).1
    rw [Effect.host.injEq] at hhead
    exact List.append_cancel_left hhead
  · rintro rfl
    exact List.prefix_append _ _

/-- The parts of a relayed broadcast are read as their text. -/
theorem readsFields_parts (world : World) {next : Node} (hidle : next.Idle) (b : Broadcast)
    (localAddress : NodeAddress) (priority sent : Bytes)
    (hfits : (relayMessage localAddress priority sent).parts ≤ maxMultipartParts)
    {arrivals : List (UInt32 × Bytes)}
    (harrivals : arrivals.map Prod.snd = (relayMessage localAddress priority sent).frames) :
    ReadsFields b (next.receiveAll world arrivals).val.2 ↔
      b.fields <+: (relayMessage localAddress priority sent).carried := by
  rcases Node.receiveAll_frames world hidle (.inr rfl) hfits
    (parts_relayMessage_pos localAddress priority sent) (.inr (.inr rfl))
    (List.Perm.of_eq harrivals) with ⟨receiver, -, hdone⟩
  have heffects : ∃ rest, (next.receiveAll world arrivals).val.2 =
      hostLine "BROADCAST:" (relayMessage localAddress priority sent).carried ++ rest := by
    rw [hdone]
    exact ⟨_, rfl⟩
  rcases heffects with ⟨rest, heffects⟩
  rw [← b.exists_message_iff, ReadsFields, heffects]
  apply exists_congr
  intro message
  rw [hostLine_prefix_iff]
  exact eq_comm

/-- A broadcast in a single frame is not read at all. -/
theorem not_readsFields_single (world : World) (next : Node) (b : Broadcast)
    (serialBuf : Vector UInt8 bufferSize) (message type priority : Bytes)
    {arrivals : List (UInt32 × Bytes)}
    (harrivals : arrivals.map Prod.snd = [(sendBroadcast serialBuf message type priority).2]) :
    ¬ ReadsFields b (next.receiveAll world arrivals).val.2 := by
  rcases List.map_eq_singleton_iff.mp harrivals with ⟨⟨now, frame⟩, rfl, rfl⟩
  let buffers : SendBuffers := ⟨next.localAddress, Vector.replicate controlSize 0, serialBuf⟩
  have hone := effects_single world now next (.broadcast message type priority) buffers
  have hlength : (next.receive world now
      (sendBroadcast serialBuf message type priority).2).val.2.length ≤ 1 := by
    change (next.receive world now
      ((PathCall.broadcast message type priority).frameCall.frame buffers)).val.2.length ≤ 1
    rw [hone]
    split
    · split
      · exact le_rfl
      · exact Nat.zero_le _
    · split
      · exact le_rfl
      · exact Nat.zero_le _
  intro hreads
  rcases hreads with ⟨text, hprefix⟩
  have hall : (next.receiveAll world [(now, (sendBroadcast serialBuf message type priority).2)]
      ).val.2 = (next.receive world now
        (sendBroadcast serialBuf message type priority).2).val.2 := List.append_nil _
  rw [hall] at hprefix
  have hle := hprefix.length_le
  have htwo : (hostLine "BROADCAST:"
      (Broadcast.mk b.type b.priority text).data).length = 2 := rfl
  omega

/-- What a relay sends of `sent` keeps the fields exactly if it is more than a single frame,
and does not fit or is carried with the fields in front. -/
theorem keepsFields_iff (world : World) {next : Node} (hidle : next.Idle) (b : Broadcast)
    {frames : List Bytes} (serialBuf : Vector UInt8 bufferSize) (localAddress : NodeAddress)
    {priority sent : Bytes}
    (hframes : frames = if sent.length > 255 then
        if (transactionMark priority ++ sent).length ≤ 4000 then
          (relayMessage localAddress priority sent).frames
        else []
      else [(sendBroadcast serialBuf sent (ascii "transaction") priority).2]) :
    (∀ arrivals : List (UInt32 × Bytes), frames ≠ [] → arrivals.map Prod.snd = frames →
        ReadsFields b (next.receiveAll world arrivals).val.2) ↔
      255 < sent.length ∧ (4000 < 13 + priority.length + sent.length ∨
        b.fields <+: (relayMessage localAddress priority sent).carried) := by
  have hsize : (transactionMark priority ++ sent).length = 13 + priority.length + sent.length := by
    rw [List.length_append, length_transactionMark]
  rw [hsize] at hframes
  by_cases hlong : sent.length > 255
  · rw [if_pos hlong] at hframes
    by_cases hfits : 13 + priority.length + sent.length ≤ 4000
    · rw [if_pos hfits] at hframes
      have hparts : (relayMessage localAddress priority sent).parts ≤ maxMultipartParts :=
        (BroadcastCall.parts_le_iff _).mpr (hsize.le.trans hfits)
      rw [and_iff_right hlong, or_iff_right (Nat.not_lt.mpr hfits), hframes]
      apply Iff.intro
      · intro h
        have hne : (relayMessage localAddress priority sent).frames ≠ [] := by
          rcases MultipartMessage.frames_eq_cons
            (parts_relayMessage_pos localAddress priority sent) with ⟨rest, hcons⟩
          rw [hcons]
          exact List.cons_ne_nil _ _
        exact (readsFields_parts world hidle b localAddress priority sent hparts
          (map_snd_atZero _)).mp (h (atZero _) hne (map_snd_atZero _))
      · intro h arrivals _ harrivals
        exact (readsFields_parts world hidle b localAddress priority sent hparts harrivals).mpr h
    · rw [if_neg hfits] at hframes
      apply iff_of_true
      · intro arrivals hne
        exact absurd hframes hne
      · exact ⟨hlong, .inl (Nat.lt_of_not_le hfits)⟩
  · rw [if_neg hlong] at hframes
    apply iff_of_false
    · intro h
      rw [hframes] at h
      exact not_readsFields_single world next b serialBuf sent (ascii "transaction") priority
        (map_snd_atZero _) (h (atZero _) (List.cons_ne_nil _ _) (map_snd_atZero _))
    · intro h
      exact hlong h.1

section OneBroadcast

variable (world : World) {node : Node} (src : NodeAddress) (b : Broadcast) {next : Node}

/-- With a gateway everything is submitted. -/
theorem submissions_broadcast_ne_nil (hgateway : node.HasGateway) :
    submissions (processReassembledBroadcast world.http b.data src node).val.2 ≠ [] := by
  cases hsubmission : node.submission (Reassembled.mk 2 b.data src).txData with
  | none => exact absurd hgateway ((submission_eq_none_iff node _).mp hsubmission)
  | some call =>
      have hcall := (effects_with_gateway world.http ⟨2, b.data, src⟩ node (.inr rfl)
        hsubmission).1
      intro hnone
      exact absurd (hcall.symm.trans hnone) (List.cons_ne_nil _ _)

/-- Without one nothing is. -/
theorem submissions_broadcast_eq_nil (hnone : ¬ node.HasGateway) :
    submissions (processReassembledBroadcast world.http b.data src node).val.2 = [] := by
  have hsubmission := (submission_eq_none_iff node (Reassembled.mk 2 b.data src).txData).mpr hnone
  have hall : submissions (processReassembled world.http ⟨2, b.data, src⟩ node).val.2 = [] :=
    submissions_without_gateway world.http (.inr rfl) hsubmission
  exact hall

/-- What the next node reads of the rebroadcast has the fields of the broadcast. -/
def KeepsFields (node next : Node) : Prop :=
  ∀ arrivals,
    transmissions (processReassembledBroadcast world.http b.data src node).val.2 ≠ [] →
    arrivals.map Prod.snd =
      transmissions (processReassembledBroadcast world.http b.data src node).val.2 →
    ReadsFields b (next.receiveAll world arrivals).val.2

/-- A text that is recognised keeps its fields if they repeat the front. -/
theorem keepsFields_marked_iff (hidle : next.Idle) (hnone : ¬ node.HasGateway) {priority : Bytes}
    (hmarked : Marked priority b.data) :
    KeepsFields world src b node next ↔ 255 < b.data.length ∧
      (4000 < 13 + priority.length + b.data.length ∨
        b.fields <+: transactionMark priority ++ b.fields) := by
  rcases rebroadcast_marked hmarked src with ⟨hpriority, hsent⟩
  have htext : (relayMessage node.localAddress priority b.data).text =
      transactionMark priority ++ (b.fields ++ b.message) := by
    rw [← b.data_eq]
    rfl
  have hpos : 0 < (transactionMark priority).length := by
    rw [length_transactionMark]
    omega
  rw [KeepsFields, keepsFields_iff world hidle b node.serialBuf node.localAddress
    (transmissions_relay world.http b.data src hnone hpriority hsent),
    prefix_carried_iff htext (nulFree_transactionMark hmarked.nulFree) hpos]

/-- A text that is not recognised never keeps its fields. -/
theorem keepsFields_unmarked_iff (hidle : next.Idle) (hnone : ¬ node.HasGateway)
    (hplain : ∀ priority, ¬ Marked priority b.data) :
    KeepsFields world src b node next ↔ 4000 < 38 + b.data.length := by
  rcases rebroadcast_unmarked hplain src with ⟨hpriority, hsent⟩
  have hnormal : (ascii "normal").length = 6 := by decide
  have hsize : (transactionMark (ascii "normal") ++ b.data).length = 19 + b.data.length := by
    rw [List.length_append, length_transactionMark, hnormal]
  have htext : (relayMessage node.localAddress (ascii "normal")
      (transactionMark (ascii "normal") ++ b.data)).text =
        transactionMark (ascii "normal") ++ (transactionMark (ascii "normal") ++ b.data) := rfl
  have hlost : ¬ b.fields <+: (relayMessage node.localAddress (ascii "normal")
      (transactionMark (ascii "normal") ++ b.data)).carried := by
    intro hfields
    rcases MultipartMessage.carried_append htext (nulFree_transactionMark (by decide)) with
      ⟨behind, hbehind, -⟩
    rw [hbehind] at hfields
    have hmark := marked_of_prefix b.two_le_count_fields hfields
    apply hplain (ascii "normal")
    refine ⟨hmark.fresh, hmark.nulFree, hmark.front.trans ?_⟩
    rw [b.data_eq]
    exact List.prefix_append _ _
  rw [KeepsFields, keepsFields_iff world hidle b node.serialBuf node.localAddress
    (transmissions_relay world.http b.data src hnone hpriority hsent), hsize,
    or_iff_left hlost, hnormal]
  omega

end OneBroadcast

/-- `ProcessReassembledBroadcast` submits nothing of a broadcast that is no transaction, and
whatever it sends on, the next node reads the type and the priority that the broadcast has. -/
def OnlyTransactions (world : World) (node : Node) (src : NodeAddress) (b : Broadcast)
    (next : Node) : Prop :=
  b.type ≠ ascii "transaction" →
    submissions (processReassembledBroadcast world.http b.data src node).val.2 = [] ∧
      KeepsFields world src b node next

/-- Nothing goes wrong where there is no gateway: the text is recognised, is too long for one
frame, and is either too long for 20 parts or has fields that repeat what the relay puts in
front; or it is not recognised, and too long for 20 parts. -/
def Broadcast.Spared (b : Broadcast) : Prop :=
  (∃ priority, Marked priority b.data ∧ 255 < b.data.length ∧
      (4000 < 13 + priority.length + b.data.length ∨
        b.fields <+: transactionMark priority ++ b.fields)) ∨
    (∀ priority, ¬ Marked priority b.data) ∧ 4000 < 38 + b.data.length

/-- **Only transactions are submitted.** A broadcast of another type is left alone by the
gateway, and reaches the next node with its type and priority, exactly when there is no
gateway and the broadcast is one of those that are spared. -/
theorem onlyTransactions_iff (world : World) (node : Node) (src : NodeAddress) (b : Broadcast)
    {next : Node} (hidle : next.Idle) :
    OnlyTransactions world node src b next ↔
      b.type = ascii "transaction" ∨ ¬ node.HasGateway ∧ b.Spared := by
  rw [OnlyTransactions, ← or_iff_not_imp_left]
  apply or_congr_right
  by_cases hgateway : node.HasGateway
  · apply iff_of_false
    · intro h
      exact submissions_broadcast_ne_nil world src b hgateway h.1
    · intro h
      exact h.1 hgateway
  · rw [and_iff_right (submissions_broadcast_eq_nil world src b hgateway),
      and_iff_right hgateway, Broadcast.Spared]
    by_cases hmarked : ∃ priority, Marked priority b.data
    · rcases hmarked with ⟨priority, hmarked⟩
      rw [keepsFields_marked_iff world src b hidle hgateway hmarked]
      apply Iff.intro
      · intro h
        exact .inl ⟨priority, hmarked, h⟩
      · intro h
        rcases h with ⟨other, hother, hspared⟩ | ⟨hplain, -⟩
        · rwa [hmarked.unique hother]
        · exact absurd hmarked (hplain priority)
    · have hplain := not_exists.mp hmarked
      rw [keepsFields_unmarked_iff world src b hidle hgateway hplain, and_iff_right hplain,
        or_iff_right]
      intro h
      exact hmarked ⟨_, h.choose_spec.1⟩

/-- A short announcement. -/
def briefAnnouncement : Broadcast := ⟨ascii "announcement", ascii "high", ascii "hello"⟩

/-- The equivalence for the announcement at a node without a gateway. -/
theorem onlyTransactions_iff_announcement :
    OnlyTransactions silentWorld plainNode ⟨10, 0, 2⟩ briefAnnouncement onlineNode ↔
      briefAnnouncement.type = ascii "transaction" ∨
        ¬ plainNode.HasGateway ∧ briefAnnouncement.Spared :=
  onlyTransactions_iff silentWorld plainNode ⟨10, 0, 2⟩ briefAnnouncement rfl

/-- A long one. -/
def longAnnouncement : Broadcast :=
  ⟨ascii "announcement", ascii "high", List.replicate 300 65⟩

/-- An online node submits the short announcement, and a node without a gateway sends the long
one on as something that the next node does not read as an announcement. -/
theorem announcement_taken_for_transaction :
    ¬ OnlyTransactions silentWorld onlineNode ⟨10, 0, 2⟩ briefAnnouncement plainNode ∧
      ¬ OnlyTransactions silentWorld plainNode ⟨10, 0, 2⟩ longAnnouncement onlineNode := by
  apply And.intro
  · intro h
    have htype : briefAnnouncement.type ≠ ascii "transaction" := by decide
    exact submissions_broadcast_ne_nil silentWorld _ _ (.inr rfl) (h htype).1
  · intro h
    have htype : longAnnouncement.type ≠ ascii "transaction" := by decide
    have hidle : onlineNode.Idle := rfl
    have hplain : ∀ priority, ¬ Marked priority longAnnouncement.data := by
      intro priority hmarked
      rcases hmarked.front with ⟨rest, hfront⟩
      have hhead : (116 : UInt8) = 97 :=
        Option.some.inj (congrArg List.head? hfront)
      exact absurd hhead (by decide)
    have hlength : longAnnouncement.data.length = 318 := by
      have hfields : longAnnouncement.fields.length = 18 := by decide
      have hmessage : longAnnouncement.message.length = 300 := List.length_replicate
      rw [longAnnouncement.data_eq, List.length_append, hfields, hmessage]
    have hlong := (keepsFields_unmarked_iff silentWorld ⟨10, 0, 2⟩ longAnnouncement hidle
      not_hasGateway_plainNode hplain).mp (h htype).2
    omega

end RadioDoge.V3
