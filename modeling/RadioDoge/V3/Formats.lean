/-
# Reading a transaction back from its text

A transaction is sent as `type:transaction`, a broadcast as
`transaction:priority:transaction`. The receiver looks for the separating colon
with `indexOf`, in the text as the parts have carried it. Whatever it finds, it
never cuts away more than the sender has put in front, and what is left is the
transaction itself exactly when the words in front are free of colons and NULs and
the whole text survives the copy.
-/

import RadioDoge.V3.Gateway
import RadioDoge.V3.Traffic

namespace RadioDoge.V3

namespace MultipartMessage

variable {m : MultipartMessage}

/-- A byte that arrives as something else than NUL was sent. -/
theorem getElem?_text_of_carried {j : Nat} {byte : UInt8} (h : m.carried[j]? = some byte)
    (hne : byte ≠ 0) : m.text[j]? = some byte := by
  have hlen : m.carried.length = m.text.length :=
    Pieces.length_mapPieces (by decide) length_strncpy _
  have hj : j < m.text.length := hlen ▸ (List.getElem?_eq_some_iff.mp h).1
  rw [m.getElem?_carried hj, Option.some.injEq] at h
  split at h
  · rw [List.getElem?_eq_getElem hj, h]
  · exact absurd h.symm hne

theorem length_carried (m : MultipartMessage) : m.carried.length = m.text.length :=
  Pieces.length_mapPieces (by decide) length_strncpy _

/-- A NUL-free front of the text is carried as it is. -/
theorem carried_append {front rest : Bytes} (htext : m.text = front ++ rest)
    (hfree : (0 : UInt8) ∉ front) :
    ∃ rest', m.carried = front ++ rest' ∧ rest'.length = rest.length := by
  have hlen := m.length_carried
  have hfront : m.carried.take front.length = front := by
    apply List.ext_getElem?
    intro j
    by_cases hj : j < front.length
    · have hin : j < m.text.length := by
        rw [htext, List.length_append]
        omega
      have hclean : ∀ i ≤ j, i / multipartChunkSize = j / multipartChunkSize →
          m.text[i]? ≠ some 0 := fun i hi _ hnul => by
        rw [htext, List.getElem?_append_left (by omega)] at hnul
        exact hfree (List.mem_of_getElem? hnul)
      rw [List.getElem?_take, if_pos hj, m.getElem?_carried hin, if_pos hclean,
        ← List.getElem?_eq_getElem hin, htext, List.getElem?_append_left hj]
    · rw [List.getElem?_eq_none (by rw [List.length_take]; omega),
        List.getElem?_eq_none (by omega)]
  refine ⟨m.carried.drop front.length, ?_, ?_⟩
  · conv_lhs => rw [← List.take_append_drop front.length m.carried, hfront]
  · rw [List.length_drop, hlen, htext, List.length_append, Nat.add_sub_cancel_left]

/-- The first colon a receiver finds behind `skip` is at or before the separator, and
it is the separator exactly when the word in front of it is clean. -/
theorem separator_spec (skip : Bytes) {word tx : Bytes}
    (htext : m.text = skip ++ (word ++ colon :: tx)) {pos : Nat} (hskip : skip.length ≤ pos)
    (hcolon : m.carried[pos]? = some colon)
    (hbefore : ∀ i, skip.length ≤ i → i < pos →
      m.carried[i]? ≠ some colon ∧ m.carried[i]? ≠ some 0) :
    pos ≤ skip.length + word.length ∧
      (pos = skip.length + word.length → colon ∉ word ∧ (0 : UInt8) ∉ word) ∧
      (colon ∉ word → pos = skip.length + word.length) := by
  have hlen := m.length_carried
  have hpos : pos < m.carried.length := (List.getElem?_eq_some_iff.mp hcolon).1
  have hword : ∀ i < word.length, m.text[skip.length + i]? = word[i]? := fun i hi => by
    rw [htext, List.getElem?_append_right (Nat.le_add_right _ _), Nat.add_sub_cancel_left,
      List.getElem?_append_left hi]
  have hsep : m.text[skip.length + word.length]? = some colon := by
    rw [htext, List.getElem?_append_right (Nat.le_add_right _ _), Nat.add_sub_cancel_left,
      List.getElem?_append_right le_rfl, Nat.sub_self]
    rfl
  -- before `pos` nothing is lost, so the sender's bytes are neither colons nor NULs
  have hsent : ∀ i, skip.length ≤ i → i < pos →
      m.text[i]? ≠ some colon ∧ m.text[i]? ≠ some 0 := by
    intro i hi hlt
    have hread : m.carried[i]? = some m.carried[i] := List.getElem?_eq_getElem (by omega)
    obtain ⟨hnotColon, hnotNul⟩ := hbefore i hi hlt
    have htextByte := getElem?_text_of_carried hread fun hzero => hnotNul (hread.trans (by rw [hzero]))
    rw [htextByte, ← hread]
    exact ⟨hnotColon, hnotNul⟩
  have hle : pos ≤ skip.length + word.length := by
    by_contra hgt
    exact (hsent _ (Nat.le_add_right _ _) (by omega)).1 hsep
  refine ⟨hle, fun heq => ?_, fun hclean => ?_⟩
  · have hbyte : ∀ byte ∈ word, byte ≠ colon ∧ byte ≠ 0 := by
      intro byte hmem
      obtain ⟨i, hi, rfl⟩ := List.getElem_of_mem hmem
      have hnot := hsent (skip.length + i) (Nat.le_add_right _ _) (by omega)
      rw [hword i hi, List.getElem?_eq_getElem hi, ne_eq, Option.some.injEq, ne_eq,
        Option.some.injEq] at hnot
      exact hnot
    exact ⟨fun hmem => (hbyte _ hmem).1 rfl, fun hmem => (hbyte _ hmem).2 rfl⟩
  · by_contra hne
    have hlt : pos - skip.length < word.length := by omega
    have hhere := getElem?_text_of_carried hcolon (by decide)
    rw [← Nat.add_sub_cancel' hskip, hword _ hlt] at hhere
    exact hclean (List.mem_of_getElem? hhere)

/-- What stands behind a clean front is the sender's rest exactly when the text
survives the copy. -/
theorem drop_carried_eq_iff {front rest : Bytes} (htext : m.text = front ++ rest)
    (hfree : (0 : UInt8) ∉ front) : m.carried.drop front.length = rest ↔ CopySafe m.text := by
  obtain ⟨rest', hcarried, -⟩ := carried_append htext hfree
  rw [← m.carried_eq_text_iff, hcarried, htext, List.drop_left, List.append_cancel_left_eq]

end MultipartMessage

/-! ## Transactions -/

section Transaction

variable {m : MultipartMessage} {type tx : Bytes}

/-- The receiver never cuts into the transaction. -/
theorem length_splitTransaction (htext : m.text = type ++ colon :: tx) :
    tx.length ≤ (splitTransaction m.carried).2.length := by
  have hlen := m.length_carried
  rw [htext, List.length_append, List.length_cons] at hlen
  rw [splitTransaction]
  cases hfind : indexOf m.carried colon 0 with
  | none =>
      simp only
      omega
  | some pos =>
      obtain ⟨hstart, hcolon, hbefore⟩ := indexOf_some hfind
      obtain ⟨hle, -, -⟩ := MultipartMessage.separator_spec [] htext hstart hcolon hbefore
      simp only [List.length_nil, Nat.zero_add] at hle
      simp only
      split
      · rw [substringFrom, List.length_drop]
        omega
      · simp only
        omega

/-- The transaction is read back exactly when its type is a clean word and the text
survives the copy. -/
theorem splitTransaction_eq_iff (htext : m.text = type ++ colon :: tx) :
    (splitTransaction m.carried).2 = tx ↔
      (type ≠ [] ∧ colon ∉ type ∧ (0 : UInt8) ∉ type) ∧ CopySafe m.text := by
  have hlen := m.length_carried
  rw [htext, List.length_append, List.length_cons] at hlen
  have hfront : m.text = (type ++ [colon]) ++ tx := by
    rw [htext, List.append_assoc, List.singleton_append]
  have hfree : (0 : UInt8) ∉ type → (0 : UInt8) ∉ type ++ [colon] := fun hclean => by
    rw [List.mem_append, List.mem_singleton]
    exact fun hmem => hmem.elim hclean (by decide)
  have hwhole : m.carried ≠ tx := fun heq => by
    rw [heq] at hlen
    omega
  constructor
  · intro heq
    rw [splitTransaction] at heq
    cases hfind : indexOf m.carried colon 0 with
    | none =>
        rw [hfind] at heq
        exact absurd heq hwhole
    | some pos =>
        obtain ⟨hstart, hcolon, hbefore⟩ := indexOf_some hfind
        obtain ⟨-, hclean, -⟩ := MultipartMessage.separator_spec [] htext hstart hcolon hbefore
        simp only [List.length_nil, Nat.zero_add] at hclean
        simp only [hfind] at heq
        split at heq
        · have hpos := (List.getElem?_eq_some_iff.mp hcolon).1
          have hcut := congrArg List.length heq
          rw [substringFrom, List.length_drop] at hcut
          have hat : pos = type.length := by omega
          obtain ⟨hfresh, hnul⟩ := hclean hat
          refine ⟨⟨List.length_pos_iff.mp (by omega), hfresh, hnul⟩, ?_⟩
          rw [← MultipartMessage.drop_carried_eq_iff hfront (hfree hnul), List.length_append, ← hat]
          exact heq
        · exact absurd heq hwhole
  · rintro ⟨⟨hne, hfresh, hnul⟩, hsafe⟩
    have hfind : indexOf m.carried colon 0 = some type.length := by
      rw [m.carried_eq_text_iff.mpr hsafe, htext]
      exact indexOf_append type tx (by decide) hnul hfresh
    have hdrop := (MultipartMessage.drop_carried_eq_iff hfront (hfree hnul)).mpr hsafe
    rw [List.length_append] at hdrop
    simp only [splitTransaction, hfind, if_pos (List.length_pos_iff.mpr hne)]
    exact hdrop

end Transaction

/-! ## Broadcasts -/

/-- Either nothing is cut away, or everything up to the first colon from offset 12
on. -/
theorem splitBroadcast_cases (data : Bytes) :
    ((startsWith data (ascii "transaction:") = true → indexOf data colon 12 = none) ∧
      splitBroadcast data = (data, ascii "normal")) ∨
    ∃ pos, 12 ≤ pos ∧ data[pos]? = some colon ∧
      (∀ i, 12 ≤ i → i < pos → data[i]? ≠ some colon ∧ data[i]? ≠ some 0) ∧
      splitBroadcast data = (data.drop (pos + 1), (data.drop 12).take (pos - 12)) := by
  rw [splitBroadcast]
  by_cases hnormal : startsWith data (ascii "transaction:normal:") = true
  · obtain ⟨rest, rfl⟩ := (startsWith_iff _ _).mp hnormal
    have hread : ∀ i < 19, (ascii "transaction:normal:" ++ rest)[i]? =
        (ascii "transaction:normal:")[i]? := fun i hi => List.getElem?_append_left hi
    refine .inr ⟨18, by decide, (hread 18 (by decide)).trans (by decide), fun i hlow hhigh => ?_, ?_⟩
    · rw [hread i (by omega)]
      interval_cases i <;> decide
    · rw [if_pos hnormal]
      rfl
  · rw [if_neg hnormal]
    by_cases htransaction : startsWith data (ascii "transaction:") = true
    · rw [if_pos htransaction]
      cases hfind : indexOf data colon 12 with
      | none => exact .inl ⟨fun _ => rfl, rfl⟩
      | some pos =>
          obtain ⟨hstart, hcolon, hbefore⟩ := indexOf_some hfind
          have hpos : pos > 0 := by omega
          refine .inr ⟨pos, hstart, hcolon, hbefore, ?_⟩
          simp only [if_pos hpos, substringFrom, substring, if_pos hstart]
    · rw [if_neg htransaction]
      exact .inl ⟨fun hstarts => absurd hstarts htransaction, rfl⟩

/-- The priority read from a broadcast is a clean word. -/
theorem priority_clean (data : Bytes) :
    colon ∉ (splitBroadcast data).2 ∧ (0 : UInt8) ∉ (splitBroadcast data).2 := by
  cases splitBroadcast_cases data with
  | inl hwhole =>
      have hnormal : (splitBroadcast data).2 = ascii "normal" := congrArg Prod.snd hwhole.2
      rw [hnormal]
      decide
  | inr hcut =>
      obtain ⟨pos, hstart, -, hbefore, heq⟩ := hcut
      have hbyte : ∀ byte ∈ (data.drop 12).take (pos - 12), byte ≠ colon ∧ byte ≠ 0 := by
        intro byte hmem
        obtain ⟨i, hi, rfl⟩ := List.getElem_of_mem hmem
        have hlt := hi
        rw [List.length_take] at hlt
        have hread : data[12 + i]? = some ((data.drop 12).take (pos - 12))[i] := by
          rw [← List.getElem?_drop, ← List.getElem?_eq_getElem hi, List.getElem?_take,
            if_pos (by omega)]
        obtain ⟨hcolon, hnul⟩ := hbefore (12 + i) (by omega) (by omega)
        rw [hread] at hcolon hnul
        exact ⟨fun h => hcolon (congrArg some h), fun h => hnul (congrArg some h)⟩
      rw [heq]
      exact ⟨fun hmem => (hbyte _ hmem).1 rfl, fun hmem => (hbyte _ hmem).2 rfl⟩

section Broadcast

variable {m : MultipartMessage} {priority tx : Bytes}

/-- The words in front of a broadcast, with their colons. -/
theorem text_eq_front_append
    (htext : m.text = ascii "transaction:" ++ (priority ++ colon :: tx)) :
    m.text = (ascii "transaction:" ++ (priority ++ [colon])) ++ tx := by
  rw [htext, List.append_assoc, List.append_assoc, List.singleton_append]

theorem nulFree_front (hnul : (0 : UInt8) ∉ priority) :
    (0 : UInt8) ∉ ascii "transaction:" ++ (priority ++ [colon]) := by
  rw [List.mem_append, List.mem_append, List.mem_singleton]
  exact fun hmem => hmem.elim (by decide) fun hmem => hmem.elim hnul (by decide)

/-- The colon behind a clean priority is found. -/
theorem priority_found (rest : Bytes) (hnul : (0 : UInt8) ∉ priority)
    (hfresh : colon ∉ priority) :
    ¬ (startsWith (ascii "transaction:" ++ (priority ++ colon :: rest))
        (ascii "transaction:") = true →
      indexOf (ascii "transaction:" ++ (priority ++ colon :: rest)) colon 12 = none) := by
  intro hnone
  have hstarts : startsWith (ascii "transaction:" ++ (priority ++ colon :: rest))
      (ascii "transaction:") = true := (startsWith_iff _ _).mpr ⟨_, rfl⟩
  have hfind := indexOf_append_from (ascii "transaction:") priority rest (by decide) hnul hfresh
  cases (hnone hstarts).symm.trans hfind

/-- The receiver never cuts into the transaction. -/
theorem length_splitBroadcast
    (htext : m.text = ascii "transaction:" ++ (priority ++ colon :: tx)) :
    tx.length ≤ (splitBroadcast m.carried).1.length := by
  have hlen := m.length_carried
  rw [htext, List.length_append, List.length_append, List.length_cons] at hlen
  cases splitBroadcast_cases m.carried with
  | inl hwhole =>
      rw [hwhole.2]
      simp only
      omega
  | inr hcut =>
      obtain ⟨pos, hstart, hcolon, hbefore, heq⟩ := hcut
      obtain ⟨hle, -, -⟩ := MultipartMessage.separator_spec _ htext hstart hcolon hbefore
      rw [heq, List.length_drop]
      omega

/-- The transaction is read back exactly when the priority is NUL-free and the text
survives the copy. -/
theorem splitBroadcast_eq_iff
    (htext : m.text = ascii "transaction:" ++ (priority ++ colon :: tx)) (hfresh : colon ∉ priority) :
    (splitBroadcast m.carried).1 = tx ↔ (0 : UInt8) ∉ priority ∧ CopySafe m.text := by
  have hlen := m.length_carried
  rw [htext, List.length_append, List.length_append, List.length_cons] at hlen
  cases splitBroadcast_cases m.carried with
  | inl hwhole =>
      obtain ⟨hnone, heq⟩ := hwhole
      rw [heq]
      refine iff_of_false (fun hsame => ?_) fun hclean => ?_
      · have hsame : m.carried = tx := hsame
        rw [hsame] at hlen
        omega
      · rw [m.carried_eq_text_iff.mpr hclean.2, htext] at hnone
        exact priority_found tx hclean.1 hfresh hnone
  | inr hcut =>
      obtain ⟨pos, hstart, hcolon, hbefore, heq⟩ := hcut
      obtain ⟨-, hclean, hat⟩ := MultipartMessage.separator_spec _ htext hstart hcolon hbefore
      have hpos := hat hfresh
      obtain ⟨-, hnul⟩ := hclean hpos
      have hdrop :=
        MultipartMessage.drop_carried_eq_iff (text_eq_front_append htext) (nulFree_front hnul)
      rw [List.length_append, List.length_append, ← Nat.add_assoc, ← hpos] at hdrop
      rw [heq]
      exact hdrop.trans ⟨fun hsafe => ⟨hnul, hsafe⟩, fun hboth => hboth.2⟩

/-- A clean priority is read back, and with it a text as long as the one behind it. -/
theorem splitBroadcast_clean
    (htext : m.text = ascii "transaction:" ++ (priority ++ colon :: tx)) (hfresh : colon ∉ priority)
    (hnul : (0 : UInt8) ∉ priority) :
    (splitBroadcast m.carried).2 = priority ∧
      (splitBroadcast m.carried).1.length = tx.length := by
  obtain ⟨rest, hcarried, hlength⟩ :=
    MultipartMessage.carried_append (text_eq_front_append htext) (nulFree_front hnul)
  have hread : m.carried = ascii "transaction:" ++ (priority ++ colon :: rest) := by
    rw [hcarried, List.append_assoc, List.append_assoc, List.singleton_append]
  cases splitBroadcast_cases m.carried with
  | inl hwhole =>
      have hnone := hwhole.1
      rw [hread] at hnone
      exact absurd hnone (priority_found rest hnul hfresh)
  | inr hcut =>
      obtain ⟨pos, hstart, hcolon, hbefore, heq⟩ := hcut
      obtain ⟨-, -, hat⟩ := MultipartMessage.separator_spec _ htext hstart hcolon hbefore
      obtain rfl := hat hfresh
      have hskip : (ascii "transaction:").length = 12 := by decide
      rw [hskip, Nat.add_sub_cancel_left] at heq
      rw [heq, hread]
      constructor
      · rw [show (12 : Nat) = (ascii "transaction:").length from hskip.symm, List.drop_left,
          List.take_left]
      · simp only [List.length_drop, List.length_append, List.length_cons, hskip, hlength]
        omega

end Broadcast

/-- What a relay puts in front makes up for what a receiver has cut away. -/
theorem length_le_splitBroadcast (data : Bytes) :
    data.length ≤ (splitBroadcast data).1.length + (13 + (splitBroadcast data).2.length) := by
  cases splitBroadcast_cases data with
  | inl hwhole =>
      rw [hwhole.2]
      exact Nat.le_add_right _ _
  | inr hcut =>
      obtain ⟨pos, hstart, hcolon, -, heq⟩ := hcut
      have hpos := (List.getElem?_eq_some_iff.mp hcolon).1
      rw [heq, List.length_take, List.length_drop, List.length_drop]
      omega

end RadioDoge.V3
