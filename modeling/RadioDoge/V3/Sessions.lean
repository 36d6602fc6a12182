/-
# The session table over whole runs

Sessions are opened, filled, removed by shifting and swept from the last slot down.
`SessionsOk` is what this keeps: no two active sessions have the same key, and the counter
of a session is the number of its parts. The totals written in frames play no role in it,
so frames may contradict the session they are stored in.

The sweep by itself is a stable filter, whatever the table and the clock.
-/

import RadioDoge.V3.ReassemblySafety

namespace RadioDoge.V3

/-! ## Expiry -/

/-- The 32-bit age test, with the wrap-around written out. -/
theorem not_expired_iff (now : UInt32) (s : MultipartReassembly) :
    (!s.expired now) = decide ((now.toNat + 2 ^ 32 - s.startTime.toNat) % 2 ^ 32 ≤ 30000) := by
  have hstart := s.startTime.toNat_lt
  have hage : (now - s.startTime).toNat = (now.toNat + 2 ^ 32 - s.startTime.toNat) % 2 ^ 32 := by
    rw [UInt32.toNat_sub]
    congr 1
    omega
  rw [MultipartReassembly.expired, ← hage, ← decide_not]
  apply decide_eq_decide.mpr
  rw [gt_iff_lt, UInt32.lt_iff_toNat_lt, not_lt]
  rfl

/-- **Expiry is a stable filter.** The sweep leaves the sessions whose wrapped age is at
most 30 seconds, unchanged and in their order. -/
theorem live_cleanup (now : UInt32) (table : SessionTable) :
    (cleanupExpiredMultipartSessions now table).live =
      table.live.filter fun s =>
        (now.toNat + 2 ^ 32 - s.startTime.toNat) % 2 ^ 32 ≤ 30000 := by
  rw [cleanupExpiredMultipartSessions, SlotTable.live_sweep]
  apply List.filter_congr
  intro s _
  exact not_expired_iff now s

/-! ## The invariant -/

/-- The number of true entries of `partsReceived`. -/
def MultipartReassembly.partCount (s : MultipartReassembly) : Nat :=
  s.partsReceived.toList.count true

/-- What holds of the active sessions after every step. -/
structure SessionsOk (live : List MultipartReassembly) : Prop where
  count_le : live.length ≤ maxMultipartParts
  distinct : live.Pairwise fun s other => ¬ (s.src = other.src ∧ s.dataType = other.dataType)
  counted : ∀ s ∈ live, s.receivedParts.toNat = s.partCount

namespace SessionsOk

variable {live : List MultipartReassembly}

/-- Removal keeps the invariant, wherever it happens. -/
theorem sublist (h : SessionsOk live) {kept : List MultipartReassembly}
    (hkept : kept.Sublist live) : SessionsOk kept where
  count_le := hkept.length_le.trans h.count_le
  distinct := h.distinct.sublist hkept
  counted := fun s hs => h.counted s (hkept.subset hs)

/-- A session with a new key and no parts may be opened. -/
theorem append (h : SessionsOk live) {s : MultipartReassembly}
    (hroom : live.length < maxMultipartParts)
    (hnew : ∀ other ∈ live, ¬ (other.src = s.src ∧ other.dataType = s.dataType))
    (hcount : s.receivedParts.toNat = s.partCount) : SessionsOk (live ++ [s]) where
  count_le := by
    rw [List.length_append, List.length_singleton]
    exact hroom
  distinct := by
    rw [List.pairwise_append]
    refine ⟨h.distinct, List.pairwise_singleton _ _, ?_⟩
    intro other hother last hlast
    rw [List.mem_singleton.mp hlast]
    exact hnew other hother
  counted := by
    intro other hother
    rcases List.mem_append.mp hother with hold | hlast
    · exact h.counted other hold
    · rw [List.mem_singleton.mp hlast]
      exact hcount

/-- A session may be rewritten if it keeps its key and its counter is right. -/
theorem set (h : SessionsOk live) {slot : Nat} {s grown : MultipartReassembly}
    (hslot : live[slot]? = some s) (hsrc : grown.src = s.src) (htype : grown.dataType = s.dataType)
    (hcount : grown.receivedParts.toNat = grown.partCount) : SessionsOk (live.set slot grown) where
  count_le := by
    rw [List.length_set]
    exact h.count_le
  distinct := by
    -- the keys, in slot order, are what they were
    have hkeys : (live.set slot grown).map (fun s => (s.src, s.dataType)) =
        live.map fun s => (s.src, s.dataType) := by
      have hkey : (live.map fun s => (s.src, s.dataType))[slot]? = some (s.src, s.dataType) := by
        rw [List.getElem?_map, hslot, Option.map_some]
      rcases List.getElem?_eq_some_iff.mp hkey with ⟨hlt, hat⟩
      rw [List.map_set, hsrc, htype, ← hat, List.set_getElem_self]
    have hpairs : ∀ sessions : List MultipartReassembly,
        sessions.Pairwise (fun s other => ¬ (s.src = other.src ∧ s.dataType = other.dataType)) ↔
          (sessions.map fun s => (s.src, s.dataType)).Nodup := by
      intro sessions
      simp only [List.Nodup, List.pairwise_map, ne_eq, Prod.mk.injEq]
    rw [hpairs, hkeys, ← hpairs]
    exact h.distinct
  counted := by
    intro other hother
    rcases List.mem_or_eq_of_mem_set hother with hold | hnew
    · exact h.counted other hold
    · rw [hnew]
      exact hcount

end SessionsOk

/-! ## Opening and filling -/

/-- A session that has just been opened has no parts. -/
theorem partCount_reuse (now : UInt32) (src : NodeAddress) (totalParts dataType : UInt8)
    (stale : MultipartReassembly) :
    (stale.reuse now src totalParts dataType).receivedParts.toNat =
      (stale.reuse now src totalParts dataType).partCount := by
  simp [MultipartReassembly.partCount, MultipartReassembly.reuse, List.count_replicate]

/-- Storing a part that was not there raises the counter and sets one flag. -/
theorem partCount_storePart (rx : RxBuffer) {s : MultipartReassembly} {partNumber : UInt8}
    (hpos : 1 ≤ partNumber.toNat) (hlast : partNumber.toNat ≤ maxMultipartParts)
    (hfree : ¬ s.received (partNumber.toNat - 1) = true)
    (hcount : s.receivedParts.toNat = s.partCount) :
    (storePart rx s partNumber).val.receivedParts.toNat =
      (storePart rx s partNumber).val.partCount := by
  have hindex : partNumber.toNat - 1 < maxMultipartParts := by omega
  have hlen : partNumber.toNat - 1 < s.partsReceived.toList.length := by simpa using hindex
  have hflag : s.partsReceived.toList[partNumber.toNat - 1] = false := by
    rw [MultipartReassembly.received, Vector.getElem?_eq_getElem hindex, Option.getD_some] at hfree
    simpa using hfree
  have hgrown : (storePart rx s partNumber).val.partCount = s.partCount + 1 := by
    simp only [MultipartReassembly.partCount, storePart, Traced.val_bind, Traced.val_pure,
      val_writeAt, Vector.toList_setIfInBounds]
    rw [List.count_set hlen, hflag]
    rfl
  have hbound : s.partCount + 1 ≤ maxMultipartParts := by
    rw [← hgrown]
    exact List.count_le_length.trans (Vector.length_toList).le
  have hbyte : (storePart rx s partNumber).val.receivedParts = s.receivedParts + 1 := rfl
  rw [hbyte, hgrown, UInt8.toNat_add, hcount]
  apply Nat.mod_eq_of_lt
  simp only [maxMultipartParts] at hbound
  exact Nat.lt_of_le_of_lt hbound (by decide)

/-- Whatever the receiver does with a part in a session, the invariant holds after it. -/
theorem sessionsOk_receivePart {table : SessionTable} (h : SessionsOk table.live) (rx : RxBuffer)
    {slot : Nat} (hslot : slot < table.count) {partNumber totalParts : UInt8}
    (hlast : partNumber.toNat ≤ maxMultipartParts) :
    SessionsOk (receivePart rx table slot partNumber totalParts).val.table.live := by
  have hcap := hslot.trans_le table.count_le
  have hread : table.slots[slot]?.getD default = table.slots[slot] := by
    rw [Vector.getElem?_eq_getElem hcap, Option.getD_some]
  have hlive : table.live[slot]? = some table.slots[slot] := by
    rw [SlotTable.getElem?_live_of_lt table hslot, Vector.getElem?_eq_getElem hcap]
  rw [table_receivePart hread]
  by_cases hinvalid : partNumber < 1 ∨ partNumber > totalParts
  · rw [if_pos hinvalid]
    exact h
  · rw [if_neg hinvalid]
    by_cases hdup : table.slots[slot].received (partNumber.toNat - 1) = true
    · rw [if_pos hdup]
      exact h
    · have hpos : 1 ≤ partNumber.toNat := by
        have hnot : ¬ partNumber < 1 := fun hzero => hinvalid (.inl hzero)
        rw [UInt8.lt_iff_toNat_lt] at hnot
        exact Nat.le_of_not_lt hnot
      have hcount := h.counted _ (List.mem_of_getElem? hlive)
      have hstored : SessionsOk
          (table.store slot (storePart rx table.slots[slot] partNumber).val).live := by
        rw [SlotTable.live_store]
        exact h.set hlive rfl rfl (partCount_storePart rx hpos hlast hdup hcount)
      rw [if_neg hdup]
      by_cases hdone : table.slots[slot].receivedParts + 1 = totalParts
      · rw [if_pos hdone, SlotTable.live_removeAt]
        exact hstored.sublist (List.eraseIdx_sublist _ _)
      · rw [if_neg hdone]
        exact hstored

/-- A key that is not found is a new key. -/
theorem new_of_not_found {table : SessionTable} {src : NodeAddress} {dataType : UInt8}
    (hfind : findMultipartSession table src dataType = none) {other : MultipartReassembly}
    (hother : other ∈ table.live) : ¬ (other.src = src ∧ other.dataType = dataType) := by
  intro hkey
  rcases hkey with ⟨rfl, rfl⟩
  have hmiss := List.findIdx?_eq_none_iff.mp hfind other hother
  simp [MultipartReassembly.matchesKey, MultipartReassembly.src] at hmiss

/-- One frame keeps the invariant. -/
theorem sessionsOk_processMultipartPacket {table : SessionTable} (h : SessionsOk table.live)
    (now : UInt32) {rx : RxBuffer} (hlast : (rx.byte 7).toNat ≤ maxMultipartParts) :
    SessionsOk (processMultipartPacket now rx table).val.table.live := by
  simp only [processMultipartPacket]
  cases hfind : findMultipartSession table ⟨rx.byte 4, rx.byte 5, rx.byte 6⟩ (rx.byte 9) with
  | some slot =>
      have hslot : slot < table.count := by
        rw [← SlotTable.length_live]
        exact (List.findIdx?_eq_some_iff_getElem.mp hfind).1
      exact sessionsOk_receivePart h rx hslot hlast
  | none =>
      by_cases hroom : table.count < maxMultipartParts
      · simp only [createMultipartSession, dif_pos hroom]
        apply sessionsOk_receivePart _ rx (Nat.lt_succ_self table.count) hlast
        rw [SlotTable.live_openSlot]
        refine h.append ?_ ?_ (partCount_reuse _ _ _ _ _)
        · rwa [SlotTable.length_live]
        · intro other hother
          exact new_of_not_found hfind hother
      · simp only [createMultipartSession, dif_neg hroom]
        exact h

/-! ## Runs -/

/-- The events of a run: a multipart frame has a header and at most 200 data bytes, and
says that it is one of at most 20 parts. -/
def ReceiverInput.InRange : ReceiverInput → Prop
  | .frame _ payload =>
      multipartHeaderSize ≤ payload.length ∧
        payload.length ≤ multipartHeaderSize + multipartChunkSize ∧
        ∃ part total, payload[7]? = some part ∧ payload[8]? = some total ∧
          1 ≤ part.toNat ∧ part.toNat ≤ total.toNat ∧ total.toNat ≤ maxMultipartParts
  | .other _ => True
  | .cleanup _ => True

/-- One event keeps the invariant. -/
theorem sessionsOk_step {r : Receiver} (h : SessionsOk r.table.live) {input : ReceiverInput}
    (hinput : input.InRange) : SessionsOk (r.step input).val.1.table.live := by
  cases input with
  | other payload => exact h
  | cleanup now =>
      change SessionsOk (cleanupExpiredMultipartSessions now r.table).live
      rw [cleanupExpiredMultipartSessions, SlotTable.live_sweep]
      exact h.sublist List.filter_sublist
  | frame now payload =>
      rcases hinput with ⟨hheader, hsize, part, total, hpart, htotal, hpos, hle, htop⟩
      have hbyte : (r.rx.onRxDone payload).byte 7 = part := by
        rcases List.getElem?_eq_some_iff.mp hpart with ⟨hlt, hat⟩
        have hfits : payload.length < bufferSize := Nat.lt_of_le_of_lt hsize (by decide)
        rw [RxBuffer.byte_onRxDone r.rx hlt hfits, hat]
      apply sessionsOk_processMultipartPacket h now
      rw [hbyte]
      exact hle.trans htop

/-- A run keeps the invariant. -/
theorem sessionsOk_run_of_sessionsOk {inputs : List ReceiverInput}
    (hinputs : ∀ input ∈ inputs, input.InRange) {r : Receiver} (h : SessionsOk r.table.live) :
    SessionsOk (r.run inputs).val.1.table.live := by
  induction inputs generalizing r with
  | nil => exact h
  | cons input rest ih =>
      apply ih fun next hnext => hinputs next (List.mem_cons_of_mem _ hnext)
      exact sessionsOk_step h (hinputs input List.mem_cons_self)

/-- **The session table over whole runs.** After every step of a run from a reset at most 20
sessions are active, no two of them share source and data type, and each counts its parts. -/
theorem sessionsOk_run {inputs : List ReceiverInput} (hinputs : ∀ input ∈ inputs, input.InRange)
    (k : Nat) : SessionsOk (Receiver.boot.run (inputs.take k)).val.1.table.live := by
  apply sessionsOk_run_of_sessionsOk
  · intro input hinput
    exact hinputs input (List.mem_of_mem_take hinput)
  · rw [Receiver.boot, SessionTable.boot, SlotTable.live_empty]
    exact ⟨Nat.zero_le _, List.Pairwise.nil, fun s hs => absurd hs List.not_mem_nil⟩

/-- Two frames of one source that disagree about the total, and a sweep. -/
def disagreeingTotals : List ReceiverInput :=
  [.frame 0 [109, 255, 255, 255, 10, 0, 3, 1, 20, 1, 0, 0, 65],
    .frame 5 [109, 255, 255, 255, 10, 0, 3, 2, 3, 1, 0, 0],
    .cleanup 40000]

theorem sessionsOk_run_disagreeing :
    SessionsOk (Receiver.boot.run (disagreeingTotals.take 3)).val.1.table.live := by
  apply sessionsOk_run
  intro input hinput
  simp only [disagreeingTotals, List.mem_cons, List.not_mem_nil, or_false] at hinput
  rcases hinput with rfl | rfl | rfl
  · exact ⟨by decide, by decide, 1, 20, rfl, rfl, by decide, by decide, by decide⟩
  · exact ⟨by decide, by decide, 2, 3, rfl, rfl, by decide, by decide, by decide⟩
  · trivial

end RadioDoge.V3
