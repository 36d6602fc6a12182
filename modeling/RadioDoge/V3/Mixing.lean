/-
# When reassembly mixes messages

A session is found by source and data type alone, and it is complete when the
number of received parts equals the total of the frame that has just come in.
Nothing says which message a part belongs to, so a part that arrives while the
session of an earlier message under the same key is open is stored in it.

`two_halves` shows what comes of that: the first half of one text and the second
half of another are handed on as one. `hands_on_whole_messages` shows that this,
and a NUL byte inside a text, are the only ways to hand on anything but a whole
message.
-/

import RadioDoge.V3.RoundTrip

namespace RadioDoge.V3

/-- Everything the receiver hands on is the whole text of one message of which a
part has arrived, under its data type and source. -/
def HandsOnWholeMessages (r : Receiver) (traffic : List Traffic) : Prop :=
  ∀ x ∈ (r.run (traffic.map Traffic.input)).val.2,
    ∃ now call index, Traffic.part now call index ∈ traffic ∧ x = call.reassembled

/-- The text of a part that arrives under a key. -/
def Traffic.textUnder (key : NodeAddress × UInt8) : Traffic → Option Bytes
  | .part _ call _ => if call.key = key then some call.multipart.text else none
  | .cleanup _ => none

/-- The text to which the part that arrived last under a key belongs. -/
def lastText (key : NodeAddress × UInt8) (seen : List Traffic) : Option Bytes :=
  (seen.filterMap (Traffic.textUnder key)).getLast?

/-- Whenever a part arrives, its text is safe to copy, and if a session is open
under its key, then the part that arrived last under this key belongs to the same
text. -/
def OneTextAtATime (r : Receiver) (traffic : List Traffic) : Prop :=
  ∀ (k : Nat) (now : UInt32) (call : SendCall) (index : Nat),
    traffic[k]? = some (.part now call index) →
    CopySafe call.multipart.text ∧
    (findMultipartSession (r.run ((traffic.take k).map Traffic.input)).val.1.table
        call.multipart.src call.multipart.dataType ≠ none →
      ∀ text ∈ lastText call.key (traffic.take k), text = call.multipart.text)

theorem lastText_append_self (seen : List Traffic) (now : UInt32) (call : SendCall)
    (index : Nat) :
    lastText call.key (seen ++ [.part now call index]) = some call.multipart.text := by
  simp [lastText, List.filterMap_append, Traffic.textUnder]

theorem lastText_append_of_ne (seen : List Traffic) (now : UInt32) (call : SendCall)
    (index : Nat) {key : NodeAddress × UInt8} (hne : call.key ≠ key) :
    lastText key (seen ++ [.part now call index]) = lastText key seen := by
  simp [lastText, List.filterMap_append, Traffic.textUnder, hne]

theorem lastText_append_cleanup (seen : List Traffic) (now : UInt32)
    (key : NodeAddress × UInt8) :
    lastText key (seen ++ [.cleanup now]) = lastText key seen := by
  simp [lastText, List.filterMap_append, Traffic.textUnder]

/-! ## The invariant -/

/-- The assembly holds parts of one message only, and that message has the text
that arrived last under the key of the assembly. -/
def Unmixed (seen : List Traffic) (a : Assembly) : Prop :=
  ∃ (m : MultipartMessage) (held : Finset Nat), PartOf m held a ∧
    lastText (a.src, a.dataType) seen = some m.text

/-- A frame keeps every assembly unmixed and hands on its own text, if anything.
What is open under its key holds parts of the same text, by the condition. -/
theorem receive_unmixed {seen : List Traffic} {opens : List Assembly}
    (h : ∀ a ∈ opens, Unmixed seen a) (now : UInt32) {call : SendCall} {index : Nat}
    (hindex : index < call.multipart.parts) (hparts : call.multipart.parts ≤ maxMultipartParts)
    (hone : opens.findIdx? (Assembly.matchesFrame (call.multipart.partFrame index)) ≠ none →
      ∀ text ∈ lastText call.key seen, text = call.multipart.text) :
    (∀ a ∈ (Assembly.receive now (call.multipart.partFrame index) opens).1,
        Unmixed (seen ++ [.part now call index]) a) ∧
      ∀ x ∈ (Assembly.receive now (call.multipart.partFrame index) opens).2,
        x = ⟨call.multipart.dataType, call.multipart.carried, call.multipart.src⟩ := by
  -- an assembly made of parts of the new text is unmixed afterwards
  have hnew : ∀ a held, PartOf call.multipart held a →
      Unmixed (seen ++ [.part now call index]) a := fun a held hpart => by
    refine ⟨call.multipart, held, hpart, ?_⟩
    rw [hpart.src, hpart.dataType]
    exact lastText_append_self seen now call index
  have hown : ∀ a ∈ opens, a.src = call.multipart.src → a.dataType = call.multipart.dataType →
      ∃ held, PartOf call.multipart held a := by
    intro a ha hsrc htype
    obtain ⟨m, held, hpart, htext⟩ := h a ha
    have hmatch : a.matchesFrame (call.multipart.partFrame index) = true :=
      (hpart.matchesFrame_iff call.multipart index).mpr
        ⟨hpart.src.symm.trans hsrc, hpart.dataType.symm.trans htype⟩
    have hfound : opens.findIdx? (Assembly.matchesFrame (call.multipart.partFrame index)) ≠ none :=
      fun hnone => by
        have hno := List.findIdx?_eq_none_iff.mp hnone a ha
        rw [hmatch] at hno
        cases hno
    have hkey : (a.src, a.dataType) = call.key := by
      rw [hsrc, htype]
      rfl
    rw [hkey] at htext
    exact ⟨held, hpart.congr (hsrc.symm.trans hpart.src) (htype.symm.trans hpart.dataType)
      (hone hfound m.text htext).symm⟩
  obtain ⟨hkept, hhanded⟩ :=
    Assembly.receive_own hown hindex hparts call.dataType_multipart now
  refine ⟨fun a ha => ?_, hhanded⟩
  cases hkept a ha with
  | inr hmade =>
      obtain ⟨held, hpart⟩ := hmade
      exact hnew a held hpart
  | inl hold =>
      by_cases hkey : call.key = (a.src, a.dataType)
      · obtain ⟨held, hpart⟩ := hown a hold (congrArg Prod.fst hkey).symm
          (congrArg Prod.snd hkey).symm
        exact hnew a held hpart
      · obtain ⟨m, held, hpart, htext⟩ := h a hold
        refine ⟨m, held, hpart, ?_⟩
        rw [lastText_append_of_ne seen now call index hkey]
        exact htext

/-! ## Runs -/

/-- Any continuation of a run with unmixed assemblies hands on whole messages. -/
theorem run_hands_on_whole_messages {r₀ : Receiver} {traffic : List Traffic}
    (hsent : ∀ event ∈ traffic, event.WellSent) (hcond : OneTextAtATime r₀ traffic) :
    ∀ (rest seen : List Traffic) (r : Receiver) (opens : List Assembly),
      traffic = seen ++ rest → r = (r₀.run (seen.map Traffic.input)).val.1 →
      TableRepresents r.table opens → (∀ a ∈ opens, Unmixed seen a) →
      ∀ x ∈ (r.run (rest.map Traffic.input)).val.2,
        ∃ now call index, Traffic.part now call index ∈ traffic ∧ x = call.reassembled := by
  intro rest
  induction rest with
  | nil =>
      intro seen r opens _ _ _ _ x hx
      cases hx
  | cons event rest ih =>
      intro seen r opens hsplit hreach htable hall x hx
      have hnext : traffic = (seen ++ [event]) ++ rest := by rw [hsplit]; simp
      have hreach' : (r.step event.input).val.1 =
          (r₀.run ((seen ++ [event]).map Traffic.input)).val.1 := by
        rw [List.map_append, Receiver.run_append, ← hreach]
        rfl
      have hmem : event ∈ traffic := by rw [hsplit]; simp
      change x ∈ (r.step event.input).val.2 ++ _ at hx
      cases event with
      | part now call index =>
          have hwell := hsent _ hmem
          obtain ⟨hindex, _⟩ := Traffic.input_part now hwell
          obtain ⟨hsafe, hopen⟩ := hcond seen.length now call index (by simp [hsplit])
          rw [hsplit, List.take_left] at hopen
          obtain ⟨htable', hhanded⟩ := Receiver.step_part htable now hwell
          have hfind := htable.find_eq (call.multipart.partFrame index)
          obtain ⟨hall', hout⟩ := receive_unmixed hall now hindex hwell.1 (by
            rw [← hfind, hreach]
            exact hopen)
          cases List.mem_append.mp hx with
          | inl hhere =>
              rw [hhanded, Option.mem_toList] at hhere
              refine ⟨now, call, index, hmem, ?_⟩
              rw [hout x hhere, SendCall.reassembled,
                call.multipart.carried_eq_text_iff.mpr hsafe]
          | inr hlater => exact ih _ _ _ hnext hreach' htable' hall' x hlater
      | cleanup now =>
          obtain ⟨htable', hnone⟩ := Receiver.step_cleanup htable now
          have hall' : ∀ a ∈ Assembly.sweep now opens, Unmixed (seen ++ [.cleanup now]) a := by
            intro a ha
            obtain ⟨m, held, hpart, htext⟩ := hall a (List.mem_of_mem_filter ha)
            exact ⟨m, held, hpart, by rw [lastText_append_cleanup, htext]⟩
          cases List.mem_append.mp hx with
          | inl hhere =>
              rw [hnone] at hhere
              cases hhere
          | inr hlater => exact ih _ _ _ hnext hreach' htable' hall' x hlater

/-- **Reassembly hands on whole messages** in every run from a reset in which no
part arrives at an open session of another text, and every text survives the copy
at the sender. -/
theorem hands_on_whole_messages {traffic : List Traffic}
    (hsent : ∀ event ∈ traffic, event.WellSent)
    (hcond : OneTextAtATime Receiver.boot traffic) :
    HandsOnWholeMessages Receiver.boot traffic :=
  run_hands_on_whole_messages hsent hcond traffic [] Receiver.boot [] rfl rfl
    tableRepresents_boot fun _ ha => by cases ha

/-- A run with a lost part, a repeated one and a sweep, over two sources. -/
theorem hands_on_whole_messages_lossy :
    HandsOnWholeMessages Receiver.boot [.part 0 (longNote 65) 0, .part 5 shortNote 0,
      .part 9 (longNote 65) 0, .cleanup 40000, .part 41000 (longNote 65) 1] := by
  have hlong : CopySafe (longNote 65).multipart.text := MultipartMessage.copySafe_of_nulFree <| by
    simp [longNote, SendCall.multipart, ascii, colon, -List.reduceReplicate]
  have hshort : CopySafe shortNote.multipart.text :=
    MultipartMessage.copySafe_of_nulFree (by decide)
  have hsent : ∀ now, ∀ index < 2, (Traffic.part now (longNote 65) index).WellSent :=
    fun now index hindex =>
      ⟨by rw [parts_longNote]; decide, by rw [length_sent_longNote]; exact hindex⟩
  have hkey : shortNote.key ≠ (longNote 65).key := by decide
  refine hands_on_whole_messages (fun event hmem => ?_) fun k now call index hevent => ?_
  · simp only [List.mem_cons, List.not_mem_nil, or_false] at hmem
    rcases hmem with rfl | rfl | rfl | rfl | rfl
    · exact hsent 0 0 (by decide)
    · exact ⟨by decide, by rw [length_sent_shortNote]; decide⟩
    · exact hsent 9 0 (by decide)
    · trivial
    · exact hsent 41000 1 (by decide)
  · have hk : k < 5 := (List.getElem?_eq_some_iff.mp hevent).1
    interval_cases k <;> cases Option.some.inj hevent
    · exact ⟨hlong, fun _ text htext => by cases htext⟩
    · exact ⟨hshort, fun _ text htext => by
        simp [lastText, Traffic.textUnder, hkey.symm] at htext⟩
    · exact ⟨hlong, fun _ text htext => by
        simpa [lastText, Traffic.textUnder, hkey, eq_comm] using htext⟩
    · exact ⟨hlong, fun _ text htext => by
        simpa [lastText, List.filterMap_cons, Traffic.textUnder, hkey, eq_comm] using htext⟩

/-! ## Two halves -/

/-- **Half of one message and half of another.** After the first part of one
message and the second part of another under the same key, both of two parts, the
two are handed on as one text. -/
theorem two_halves {first second : SendCall} (hkey : first.key = second.key)
    (hfirst : first.multipart.parts = 2) (hsecond : second.multipart.parts = 2)
    (now later : UInt32) :
    (Receiver.boot.run ([.part now first 0, .part later second 1].map Traffic.input)).val.2 =
      [⟨first.multipart.dataType, first.multipart.chunk 0 ++ second.multipart.chunk 1,
        first.multipart.src⟩] := by
  have hwell : ∀ (call : SendCall), call.multipart.parts = 2 → ∀ index < 2, ∀ now,
      (Traffic.part now call index).WellSent := fun call hparts index hindex now => by
    have hle : call.multipart.parts ≤ maxMultipartParts := by
      rw [hparts]
      decide
    refine ⟨hle, ?_⟩
    rw [call.val_sent hle, MultipartMessage.frames, List.length_map, List.length_range, hparts]
    exact hindex
  have hfirstLe := (hwell first hfirst 0 (by decide) now).1
  have hopened := PartOf.opened first.multipart now 0
  have hzero : 0 < first.multipart.parts := by
    rw [hfirst]
    decide
  let half := (Assembly.opened now (first.multipart.partFrame 0)).add 0 (first.multipart.chunk 0)
  have hhalf : PartOf first.multipart (insert 0 ∅) half := hopened.add hzero
  -- the first frame opens a session
  have hboot : TableRepresents Receiver.boot.table [] := tableRepresents_boot
  obtain ⟨htable, hquiet⟩ := Receiver.step_part hboot now (hwell first hfirst 0 (by decide) now)
  have hopen : Assembly.receive now (first.multipart.partFrame 0) [] = ([half], none) := by
    have hnot : insert 0 ∅ ≠ Finset.range first.multipart.parts := by
      rw [hfirst]
      decide
    have hslot : [Assembly.opened now (first.multipart.partFrame 0)][0]? =
        some (Assembly.opened now (first.multipart.partFrame 0)) := rfl
    have habsorb := hopened.absorb hslot hzero hfirstLe first.dataType_multipart
    rw [if_neg (Finset.notMem_empty 0), if_neg hnot] at habsorb
    exact habsorb
  rw [hopen] at htable hquiet
  -- the second frame is stored in it and completes it
  obtain ⟨_, hloud⟩ := Receiver.step_part htable later (hwell second hsecond 1 (by decide) later)
  have hmatch : half.matchesFrame (second.multipart.partFrame 1) = true :=
    (hhalf.matchesFrame_iff second.multipart 1).mpr
      ⟨congrArg Prod.fst hkey, congrArg Prod.snd hkey⟩
  have hfree : half.parts 1 = none := by
    rw [hhalf.parts]
    rfl
  have hcard : (half.add 1 (second.multipart.chunk 1)).received.card = 2 := by
    rw [Assembly.received_add half _ (by decide), hhalf.received hfirstLe]
    rfl
  have hjoined : (half.add 1 (second.multipart.chunk 1)).joined =
      first.multipart.chunk 0 ++ second.multipart.chunk 1 := by
    have htotal : (half.add 1 (second.multipart.chunk 1)).total = 2 := hhalf.total.trans hfirst
    rw [Assembly.joined, htotal]
    simp [List.range_succ, hhalf.parts]
  have hcomplete : (Assembly.receive later (second.multipart.partFrame 1) [half]).2 =
      some ⟨first.multipart.dataType, first.multipart.chunk 0 ++ second.multipart.chunk 1,
        first.multipart.src⟩ := by
    have hfind : [half].findIdx? (Assembly.matchesFrame (second.multipart.partFrame 1)) =
        some 0 := by
      rw [List.findIdx?_cons, hmatch, if_pos rfl]
    have hvalid : ¬ ((second.multipart.partFrame 1).number < 1 ∨
        (second.multipart.partFrame 1).number > (second.multipart.partFrame 1).total) := by
      simp [MultipartMessage.partFrame, hsecond]
    rw [Assembly.receive]
    simp only [hfind]
    have hindex : (second.multipart.partFrame 1).number - 1 = 1 := rfl
    have hfull : (half.add 1 (second.multipart.partFrame 1).data).received.card =
        (second.multipart.partFrame 1).total := hcard.trans hsecond.symm
    rw [Assembly.absorb, if_neg hvalid]
    simp only [List.getElem?_cons_zero, hindex, hfree, Option.isSome_none, Bool.false_eq_true,
      if_false, hfull, if_true]
    have hhanded : (half.add 1 (second.multipart.chunk 1)).dataType = first.multipart.dataType :=
      hhalf.dataType
    have hsource : (half.add 1 (second.multipart.chunk 1)).src = first.multipart.src := hhalf.src
    have hdata : (second.multipart.partFrame 1).data = second.multipart.chunk 1 := rfl
    rw [hdata, Assembly.handed, hhanded, if_pos first.dataType_multipart, hjoined, hsource]
  change _ ++ (_ ++ []) = _
  rw [hloud, hquiet, hcomplete]
  rfl

/-- Two notes of one node: the second half of the first one is lost, the first
half of the second one too. The receiver hands on a note nobody sent. -/
theorem two_halves_of_two_notes :
    (∀ event ∈ [Traffic.part 0 (longNote 65) 0, .part 7 (longNote 66) 1], event.WellSent) ∧
      ¬ HandsOnWholeMessages Receiver.boot
        [.part 0 (longNote 65) 0, .part 7 (longNote 66) 1] := by
  have hwell : ∀ letter now, ∀ index < 2, (Traffic.part now (longNote letter) index).WellSent :=
    fun letter now index hindex =>
      ⟨by rw [parts_longNote]; decide, by rw [length_sent_longNote]; exact hindex⟩
  refine ⟨fun event hmem => ?_, fun hwhole => ?_⟩
  · simp only [List.mem_cons, List.not_mem_nil, or_false] at hmem
    rcases hmem with rfl | rfl
    · exact hwell 65 0 0 (by decide)
    · exact hwell 66 7 1 (by decide)
  · have hhanded := two_halves (show (longNote 65).key = (longNote 66).key from rfl)
      (parts_longNote 65) (parts_longNote 66) 0 7
    have hblend : (longNote 65).multipart.chunk 0 ++ (longNote 66).multipart.chunk 1 ≠
          (longNote 65).multipart.text ∧
        (longNote 65).multipart.chunk 0 ++ (longNote 66).multipart.chunk 1 ≠
          (longNote 66).multipart.text := by
      decide +kernel
    obtain ⟨now, call, index, hmem, hcall⟩ := hwhole _ (hhanded ▸ List.mem_singleton_self _)
    simp only [List.mem_cons, Traffic.part.injEq, List.not_mem_nil, or_false] at hmem
    rcases hmem with ⟨_, rfl, _⟩ | ⟨_, rfl, _⟩
    · exact hblend.1 (congrArg Reassembled.data hcall)
    · exact hblend.2 (congrArg Reassembled.data hcall)

end RadioDoge.V3
