/-
# What a rejected multipart frame leaves behind

`ProcessMultipartPacket` finds or creates a session before it looks at the part number. A
frame with a number outside its own total is rejected, but the session that was opened for
it stays. The other exit that rejects, a full table, changes nothing.
-/

import RadioDoge.V3.Answers

namespace RadioDoge.V3

/-! ## Frames in a row -/

/-- A multipart frame in the receive buffer, and `millis()` when it is processed. -/
structure Arrival where
  now : UInt32
  rx : RxBuffer

/-- What `ProcessMultipartPacket` makes of a frame. -/
def Arrival.process (frame : Arrival) (table : SessionTable) : ReceiveResult :=
  (processMultipartPacket frame.now frame.rx table).val

/-- The table after the frames, in order. -/
def SessionTable.after (table : SessionTable) : List Arrival → SessionTable
  | [] => table
  | frame :: rest => SessionTable.after (frame.process table).table rest

/-- `ProcessMultipartPacket` returns false for each of the frames. -/
def AllRejected (table : SessionTable) : List Arrival → Prop
  | [] => True
  | frame :: rest =>
      (frame.process table).accepted = false ∧ AllRejected (frame.process table).table rest

/-- An active session has the source and the data type of the frame. -/
def Arrival.Known (frame : Arrival) (table : SessionTable) : Prop :=
  ∃ s ∈ table.live, s.HasKey frame.rx.partSource (frame.rx.byte 9)

/-- `CreateMultipartSession` finds no room. -/
def SessionTable.Full (table : SessionTable) : Prop := maxMultipartParts ≤ table.count

/-- The part number of the frame is not one of its total. -/
def Arrival.Misnumbered (frame : Arrival) : Prop :=
  frame.rx.byte 7 < 1 ∨ frame.rx.byte 7 > frame.rx.byte 8

/-! ## One frame -/

theorem MultipartReassembly.matchesKey_iff (src : NodeAddress) (dataType : UInt8)
    (s : MultipartReassembly) : s.matchesKey src dataType = true ↔ s.HasKey src dataType := by
  apply Iff.intro
  · intro h
    exact hasKey_of_matchesKey h
  · intro h
    rcases h with ⟨rfl, rfl⟩
    simp [matchesKey, MultipartReassembly.src]

theorem findMultipartSession_eq_none_iff (table : SessionTable) (src : NodeAddress)
    (dataType : UInt8) :
    findMultipartSession table src dataType = none ↔
      ¬ ∃ s ∈ table.live, s.HasKey src dataType := by
  rw [findMultipartSession, List.findIdx?_eq_none_iff]
  apply Iff.intro
  · intro h hsome
    rcases hsome with ⟨s, hs, hkey⟩
    have hmiss := h s hs
    rw [(s.matchesKey_iff src dataType).mpr hkey] at hmiss
    cases hmiss
  · intro h s hs
    apply Bool.eq_false_iff.mpr
    intro hmatch
    exact h ⟨s, hs, (s.matchesKey_iff src dataType).mp hmatch⟩

/-- A part is refused for its number only. -/
theorem accepted_receivePart (rx : RxBuffer) (table : SessionTable) (slot : Nat)
    (partNumber totalParts : UInt8) :
    (receivePart rx table slot partNumber totalParts).val.accepted = false ↔
      partNumber < 1 ∨ partNumber > totalParts := by
  by_cases hnumber : partNumber < 1 ∨ partNumber > totalParts
  · rw [receivePart, if_pos hnumber]
    exact iff_of_true rfl hnumber
  · rw [receivePart, if_neg hnumber]
    apply iff_of_false _ hnumber
    simp only [Traced.val_bind, Traced.val_ite]
    split
    · exact Bool.noConfusion
    · split
      · exact Bool.noConfusion
      · exact Bool.noConfusion

/-- A part with a wrong number changes no session. -/
theorem receivePart_of_misnumbered (rx : RxBuffer) (table : SessionTable) (slot : Nat)
    {partNumber totalParts : UInt8} (h : partNumber < 1 ∨ partNumber > totalParts) :
    receivePart rx table slot partNumber totalParts = pure ⟨table, false, none⟩ := by
  rw [receivePart, if_pos h]

namespace Arrival

variable {frame : Arrival} {table : SessionTable}

/-- A frame of a known key is rejected for its number, and nothing changes. -/
theorem process_of_known (hknown : frame.Known table)
    (hrejected : (frame.process table).accepted = false) :
    (frame.process table).table = table := by
  cases hfind : findMultipartSession table frame.rx.partSource (frame.rx.byte 9) with
  | none => exact absurd hknown ((findMultipartSession_eq_none_iff _ _ _).mp hfind)
  | some slot =>
      have hprocess : frame.process table =
          (receivePart frame.rx table slot (frame.rx.byte 7) (frame.rx.byte 8)).val := by
        rw [RxBuffer.partSource] at hfind
        simp only [process, processMultipartPacket, hfind]
      rw [hprocess] at hrejected ⊢
      rw [receivePart_of_misnumbered _ _ _ ((accepted_receivePart _ _ _ _ _).mp hrejected)]
      rfl

/-- A frame of a new key meets a full table: it is rejected, and nothing changes. -/
theorem process_of_full (hnew : ¬ frame.Known table) (hfull : table.Full) :
    frame.process table = ⟨table, false, none⟩ := by
  have hfind := (findMultipartSession_eq_none_iff _ _ _).mpr hnew
  rw [RxBuffer.partSource] at hfind
  have hroom : ¬ table.count < maxMultipartParts := Nat.not_lt.mpr hfull
  simp only [process, processMultipartPacket, hfind, createMultipartSession, dif_neg hroom]
  rfl

/-- A frame of a new key is rejected for its number as long as there is room, and the
session that was opened for it stays. -/
theorem process_of_room (hnew : ¬ frame.Known table) (hroom : ¬ table.Full) :
    ((frame.process table).accepted = false ↔ frame.Misnumbered) ∧
      (frame.Misnumbered → ∃ opened : MultipartReassembly,
        opened.HasKey frame.rx.partSource (frame.rx.byte 9) ∧
          (frame.process table).table.live = table.live ++ [opened]) := by
  have hfind := (findMultipartSession_eq_none_iff _ _ _).mpr hnew
  have hlt : table.count < maxMultipartParts := Nat.not_le.mp hroom
  have hprocess : frame.process table = (receivePart frame.rx
      (table.openSlot hlt (.reuse frame.now frame.rx.partSource (frame.rx.byte 8)
        (frame.rx.byte 9))) table.count (frame.rx.byte 7) (frame.rx.byte 8)).val := by
    rw [RxBuffer.partSource] at hfind ⊢
    simp only [process, processMultipartPacket, hfind, createMultipartSession, dif_pos hlt]
  rw [hprocess]
  apply And.intro
  · exact accepted_receivePart _ _ _ _ _
  · intro hnumber
    rw [receivePart_of_misnumbered _ _ _ hnumber]
    exact ⟨_, ⟨rfl, rfl⟩, SlotTable.live_openSlot _ _ _⟩

/-- **One rejection.** A rejected frame leaves the table as it was, except that a frame of
a new key that meets a table with room leaves a session of that key. -/
theorem table_of_rejected (hrejected : (frame.process table).accepted = false) :
    ((frame.Known table ∨ table.Full) ∧ (frame.process table).table = table) ∨
      (¬ (frame.Known table ∨ table.Full) ∧
        ∃ opened : MultipartReassembly, (frame.process table).table.live =
          table.live ++ [opened]) := by
  by_cases hknown : frame.Known table
  · exact .inl ⟨.inl hknown, process_of_known hknown hrejected⟩
  · by_cases hfull : table.Full
    · rw [process_of_full hknown hfull]
      exact .inl ⟨.inr hfull, rfl⟩
    · rcases process_of_room hknown hfull with ⟨haccepted, hopened⟩
      rcases hopened (haccepted.mp hrejected) with ⟨opened, -, hlive⟩
      exact .inr ⟨not_or.mpr ⟨hknown, hfull⟩, opened, hlive⟩

/-- A rejected frame leaves the active sessions alone exactly for a known key or a full
table. -/
theorem live_of_rejected_iff (hrejected : (frame.process table).accepted = false) :
    (frame.process table).table.live = table.live ↔ frame.Known table ∨ table.Full := by
  rcases table_of_rejected hrejected with ⟨hcond, htable⟩ | ⟨hcond, opened, hlive⟩
  · rw [htable]
    exact iff_of_true rfl hcond
  · rw [hlive]
    apply iff_of_false _ hcond
    intro hsame
    exact absurd (List.append_right_eq_self.mp hsame) (List.cons_ne_nil _ _)

end Arrival

/-! ## Sequences -/

/-- **Rejected frames.** The sessions are what they were all along a sequence of rejected
frames exactly when each of the frames has the key of an active session, or the table is
full to begin with. -/
theorem live_after_rejected_iff {table : SessionTable} {frames : List Arrival}
    (hrejected : AllRejected table frames) :
    (∀ n, (table.after (frames.take n)).live = table.live) ↔
      ∀ frame ∈ frames, frame.Known table ∨ table.Full := by
  induction frames with
  | nil => simp [SessionTable.after]
  | cons frame rest ih =>
      rcases hrejected with ⟨hfirst, hrest⟩
      rw [List.forall_mem_cons]
      by_cases hcond : frame.Known table ∨ table.Full
      · have htable : (frame.process table).table = table := by
          rcases Arrival.table_of_rejected hfirst with ⟨-, htable⟩ | ⟨hnot, -⟩
          · exact htable
          · exact absurd hcond hnot
        rw [htable] at hrest
        rw [← ih hrest, and_iff_right hcond]
        apply Iff.intro
        · intro h n
          have hn := h (n + 1)
          rwa [List.take_succ_cons, SessionTable.after, htable] at hn
        · intro h n
          cases n with
          | zero => rfl
          | succ n =>
              rw [List.take_succ_cons, SessionTable.after, htable]
              exact h n
      · apply iff_of_false
        · intro h
          exact hcond ((Arrival.live_of_rejected_iff hfirst).mp (h 1))
        · intro h
          exact hcond h.1

/-! ## Filling the table -/

/-- Frames with wrong numbers and pairwise different new keys each cost one session, until
the table is full. -/
theorem count_after_forged {frames : List Arrival} :
    ∀ table : SessionTable, table.count + frames.length ≤ maxMultipartParts →
      (∀ frame ∈ frames, frame.Misnumbered ∧ ¬ frame.Known table) →
      (frames.Pairwise fun frame later => ¬ (frame.rx.partSource = later.rx.partSource ∧
        frame.rx.byte 9 = later.rx.byte 9)) →
      AllRejected table frames ∧ (table.after frames).count = table.count + frames.length := by
  induction frames with
  | nil => exact fun table _ _ _ => ⟨trivial, rfl⟩
  | cons frame rest ih =>
      intro table hroom hforged hdistinct
      rw [List.length_cons] at hroom
      rcases List.pairwise_cons.mp hdistinct with ⟨hfirst, hlater⟩
      rcases hforged frame List.mem_cons_self with ⟨hnumber, hnew⟩
      have hnotfull : ¬ table.Full := by
        rw [SessionTable.Full]
        omega
      rcases Arrival.process_of_room hnew hnotfull with ⟨haccepted, hopened⟩
      rcases hopened hnumber with ⟨opened, hkey, hlive⟩
      have hcount : (frame.process table).table.count = table.count + 1 := by
        rw [← SlotTable.length_live, hlive, List.length_append, SlotTable.length_live]
        rfl
      have hstill : ∀ later ∈ rest,
          later.Misnumbered ∧ ¬ later.Known (frame.process table).table := by
        intro later hmem
        rcases hforged later (List.mem_cons_of_mem _ hmem) with ⟨hbad, hunknown⟩
        refine ⟨hbad, fun hknown => ?_⟩
        rcases hknown with ⟨s, hs, hsrc, htype⟩
        rw [hlive] at hs
        rcases List.mem_append.mp hs with hold | hnewest
        · exact hunknown ⟨s, hold, hsrc, htype⟩
        · rw [List.mem_singleton.mp hnewest] at hsrc htype
          exact hfirst later hmem ⟨hkey.1.symm.trans hsrc, hkey.2.symm.trans htype⟩
      rcases ih _ (by rw [hcount]; omega) hstill hlater with ⟨hrejected, hafter⟩
      refine ⟨⟨haccepted.mpr hnumber, hrejected⟩, ?_⟩
      rw [SessionTable.after, hafter, hcount, List.length_cons]
      omega

/-- Part 0 of 2 of a message, from node `10.0.node`. -/
def forgedPart (node : UInt8) : Bytes := [109, 255, 255, 255, 10, 0, node, 0, 2, 1, 0, 0]

/-- The frame, as it stands in the receive buffer of a node that has heard nothing else. -/
def forgedFrame (node : UInt8) : Arrival := ⟨0, RxBuffer.boot.onRxDone (forgedPart node)⟩

/-- One such frame from each of 20 source addresses. -/
def forgedFrames : List Arrival := (List.range 20).map fun node => forgedFrame (.ofNat node)

theorem byte_forgedFrame (node : UInt8) {i : Nat} (hi : i < 12) :
    (forgedFrame node).rx.byte i = (forgedPart node)[i] := by
  have hsize : (forgedPart node).length < bufferSize := Nat.lt_of_sub_eq_succ rfl
  exact RxBuffer.byte_onRxDone RxBuffer.boot hi hsize

theorem not_known_boot (frame : Arrival) : ¬ frame.Known SessionTable.boot := by
  intro hknown
  rcases hknown with ⟨s, hs, -⟩
  rw [SessionTable.boot, SlotTable.live_empty] at hs
  cases hs

/-- From a reset all of them are rejected, and each costs a session. -/
theorem rejected_forgedFrames :
    AllRejected SessionTable.boot forgedFrames ∧
      (SessionTable.boot.after forgedFrames).count = maxMultipartParts := by
  have hforged : ∀ frame ∈ forgedFrames,
      frame.Misnumbered ∧ ¬ frame.Known SessionTable.boot := by
    intro frame hmem
    rcases List.mem_map.mp hmem with ⟨node, -, rfl⟩
    apply And.intro
    · rw [Arrival.Misnumbered, byte_forgedFrame _ (by decide)]
      exact .inl UInt8.zero_lt_one
    · exact not_known_boot _
  have hdistinct : forgedFrames.Pairwise fun frame later =>
      ¬ (frame.rx.partSource = later.rx.partSource ∧ frame.rx.byte 9 = later.rx.byte 9) := by
    rw [forgedFrames, List.pairwise_map]
    apply List.Pairwise.imp_of_mem _ List.pairwise_lt_range
    intro first later hfirst hlater hlt hkey
    simp only [RxBuffer.partSource, NodeAddress.mk.injEq] at hkey
    have hnode := hkey.1.2.2
    rw [byte_forgedFrame _ (by decide), byte_forgedFrame _ (by decide)] at hnode
    have hnat : (UInt8.ofNat first).toNat = (UInt8.ofNat later).toNat := congrArg UInt8.toNat hnode
    rw [UInt8.toNat_ofNat', UInt8.toNat_ofNat'] at hnat
    rw [List.mem_range] at hfirst hlater
    omega
  exact count_after_forged SessionTable.boot (by decide) hforged hdistinct

/-- The equivalence at these frames. -/
theorem live_after_forgedFrames :
    (∀ n, (SessionTable.boot.after (forgedFrames.take n)).live = SessionTable.boot.live) ↔
      ∀ frame ∈ forgedFrames, frame.Known SessionTable.boot ∨ SessionTable.boot.Full :=
  live_after_rejected_iff rejected_forgedFrames.1

/-- Twenty rejected frames from a reset: the first one leaves a session behind, and
after the last one no session is left for anybody. -/
theorem forgedFrames_fill_table :
    AllRejected SessionTable.boot forgedFrames ∧
      (SessionTable.boot.after (forgedFrames.take 1)).live ≠ SessionTable.boot.live ∧
      (SessionTable.boot.after forgedFrames).Full := by
  rcases rejected_forgedFrames with ⟨hrejected, hcount⟩
  refine ⟨hrejected, ?_, hcount.ge⟩
  intro hsame
  have hfirst : ((forgedFrame 0).process SessionTable.boot).accepted = false := hrejected.1
  rcases (Arrival.live_of_rejected_iff hfirst).mp hsame with hknown | hfull
  · exact not_known_boot (forgedFrame 0) hknown
  · exact absurd hfull (Nat.not_succ_le_zero 19)

end RadioDoge.V3
