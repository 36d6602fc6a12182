/-
# Counters that wrap

With more than 255 parts the total of a frame is the number of parts modulo 256, and
so is the number of a part. Only a total of at most 20 can be received at all. With a
total of zero nothing is accepted; with a total of one each part numbered one is handed
on alone; with a larger total the parts numbered one compete for the first place, and
the one that arrives first wins.
-/

import RadioDoge.V3.Deliveries

namespace RadioDoge.V3

/-! ## Sessions of one message -/

/-- The number of parts, as a frame says it. -/
def MultipartMessage.wireTotal (m : MultipartMessage) : Nat := m.parts % 256

/-- The assembly holds parts under the key of the message, none beyond the total. -/
structure SessionOf (m : MultipartMessage) (a : Assembly) : Prop where
  src : a.src = m.src
  dataType : a.dataType = m.dataType
  total : a.total = m.wireTotal
  within : ∀ i, m.wireTotal ≤ i → a.parts i = none

/-- Nothing is open but at most one such session, and it satisfies `P`. -/
def Current (m : MultipartMessage) (P : Assembly → Prop) (opens : List Assembly) : Prop :=
  opens = [] ∨ ∃ a, opens = [a] ∧ SessionOf m a ∧ P a

namespace SessionOf

variable {m : MultipartMessage} {a : Assembly}

theorem opened (m : MultipartMessage) (now : UInt32) (part : Nat) :
    SessionOf m (Assembly.opened now (m.wireFrame part)) :=
  ⟨rfl, rfl, rfl, fun _ _ => rfl⟩

theorem add (h : SessionOf m a) {i : Nat} (hi : i < m.wireTotal) (data : Bytes) :
    SessionOf m (a.add i data) where
  src := h.src
  dataType := h.dataType
  total := h.total
  within := fun j hj => by
    rw [Assembly.parts_add_of_ne _ _ (by omega), h.within j hj]

theorem receive_eq (h : SessionOf m a) (now : UInt32) (part : Nat) :
    Assembly.receive now (m.wireFrame part) [a] = Assembly.absorb (m.wireFrame part) 0 [a] := by
  have hmatch : a.matchesFrame (m.wireFrame part) = true := by
    simp only [Assembly.matchesFrame, MultipartMessage.wireFrame, h.src, h.dataType, decide_true,
      Bool.and_self]
  have hfound : [a].findIdx? (Assembly.matchesFrame (m.wireFrame part)) = some 0 := by
    rw [List.findIdx?_cons, hmatch]
    rfl
  rw [Assembly.receive, hfound]

/-- With as many parts as the total, the first part is among them. -/
theorem first_of_complete (h : SessionOf m a) (hpos : 0 < m.wireTotal)
    (hcard : a.received.card = m.wireTotal) : ∃ first, a.parts 0 = some first := by
  have hwithin : a.received ⊆ Finset.range m.wireTotal := by
    intro i hi
    rw [Assembly.mem_received] at hi
    rw [Finset.mem_range]
    by_contra hover
    rw [h.within i (Nat.le_of_not_lt hover)] at hi
    cases hi.2
  have hall : a.received = Finset.range m.wireTotal :=
    Finset.eq_of_subset_of_card_le hwithin (by rw [Finset.card_range, hcard])
  have hzero : 0 ∈ a.received := hall ▸ Finset.mem_range.mpr hpos
  exact Option.isSome_iff_exists.mp ((Assembly.mem_received a 0).mp hzero).2

end SessionOf

namespace Assembly

/-- The joined text begins with the first part. -/
theorem first_prefix_joined {a : Assembly} {first : Bytes} (hpos : 0 < a.total)
    (hfirst : a.parts 0 = some first) : first <+: a.joined := by
  obtain ⟨k, hk⟩ := Nat.exists_eq_succ_of_ne_zero hpos.ne'
  rw [joined, hk, List.range_succ_eq_map, List.flatMap_cons, hfirst, Option.getD_some]
  exact List.prefix_append _ _

theorem receive_nil (now : UInt32) (f : PartFrame) :
    receive now f [] = absorb f 0 [opened now f] := rfl

/-- Storing a part in the only session. -/
theorem absorb_single (f : PartFrame) (a : Assembly) :
    absorb f 0 [a] =
      if f.number < 1 ∨ f.number > f.total then ([a], none)
      else if (a.parts (f.number - 1)).isSome then ([a], none)
      else if (a.add (f.number - 1) f.data).received.card = f.total then
        ([], (a.add (f.number - 1) f.data).handed)
      else ([a.add (f.number - 1) f.data], none) := by
  rw [absorb]
  rfl

/-- A part whose number does not fit the total of its frame completes nothing. -/
theorem receive_rejected (now : UInt32) {f : PartFrame} (opens : List Assembly)
    (hbad : f.number < 1 ∨ f.number > f.total) : (receive now f opens).2 = none := by
  rw [receive]
  split
  · rw [absorb, if_pos hbad]
  · split
    · rw [absorb, if_pos hbad]
    · rfl

end Assembly

/-- A frame meets the open session, or opens one. -/
theorem Current.receive_eq {m : MultipartMessage} {P : Assembly → Prop} {opens : List Assembly}
    (h : Current m P opens) (now : UInt32) (part : Nat)
    (hopened : P (Assembly.opened now (m.wireFrame part))) :
    ∃ a, SessionOf m a ∧ P a ∧ Assembly.receive now (m.wireFrame part) opens =
      Assembly.absorb (m.wireFrame part) 0 [a] := by
  cases h with
  | inl hnone =>
      subst hnone
      exact ⟨_, .opened m now part, hopened, Assembly.receive_nil _ _⟩
  | inr hsome =>
      obtain ⟨a, rfl, ha, hP⟩ := hsome
      exact ⟨a, ha, hP, ha.receive_eq now part⟩

/-! ## A total of zero -/

/-- With a total of zero, nothing is handed on. -/
theorem deliver_zero {m : MultipartMessage} (hzero : m.wireTotal = 0) (deliveries : List Delivery)
    (opens : List Assembly) : (Assembly.deliver m opens deliveries).2 = [] := by
  induction deliveries generalizing opens with
  | nil => rfl
  | cons delivery rest ih =>
      obtain ⟨now, part⟩ := delivery
      have hbad : (m.wireFrame part).number < 1 ∨
          (m.wireFrame part).number > (m.wireFrame part).total := by
        change _ ∨ (m.wireFrame part).number > m.wireTotal
        omega
      rw [Assembly.deliver_cons, Assembly.receive_rejected now opens hbad, ih]
      rfl

/-! ## A total of one -/

section TotalOne

variable {m : MultipartMessage}

/-- No part is here. -/
def Assembly.Vacant (a : Assembly) : Prop := ∀ i, a.parts i = none

/-- A part numbered one is handed on alone, any other is ignored. -/
theorem receive_one (hone : m.wireTotal = 1) (htype : m.dataType = 1) (now : UInt32) (part : Nat)
    {opens : List Assembly} (h : Current m Assembly.Vacant opens) :
    Current m Assembly.Vacant (Assembly.receive now (m.wireFrame part) opens).1 ∧
      (Assembly.receive now (m.wireFrame part) opens).2 =
        if (part + 1) % 256 = 1 then some ⟨1, m.chunk part, m.src⟩ else none := by
  obtain ⟨a, ha, hvacant, heq⟩ := h.receive_eq now part fun _ => rfl
  have htotal : (m.wireFrame part).total = 1 := hone
  have hnumber : (m.wireFrame part).number = (part + 1) % 256 := rfl
  rw [heq, Assembly.absorb_single, htotal, hnumber]
  by_cases hfirst : (part + 1) % 256 = 1
  · have hgood : ¬ ((part + 1) % 256 < 1 ∨ (part + 1) % 256 > 1) := by omega
    have hreceived : a.received = ∅ := by
      ext i
      rw [Assembly.mem_received, hvacant i]
      simp
    have hcard : (a.add 0 (m.chunk part)).received.card = 1 := by
      rw [Assembly.received_add _ _ (by decide), hreceived]
      rfl
    have hjoined : (a.add 0 (m.chunk part)).joined = m.chunk part := by
      have hlength : (a.add 0 (m.chunk part)).total = 1 := ha.total.trans hone
      rw [Assembly.joined, hlength, List.range_one, List.flatMap_singleton,
        Assembly.parts_add_self, Option.getD_some]
    have hindex : (part + 1) % 256 - 1 = 0 := by omega
    have hdata : (m.wireFrame part).data = m.chunk part := rfl
    rw [if_neg hgood, hindex, hdata, hvacant, if_neg (by decide), if_pos hcard, if_pos hfirst]
    refine ⟨.inl rfl, ?_⟩
    have hkind : (a.add 0 (m.chunk part)).dataType = 1 := ha.dataType.trans htype
    change (a.add 0 (m.chunk part)).handed = some ⟨1, m.chunk part, m.src⟩
    rw [Assembly.handed, if_pos (.inr (.inl hkind)), hkind, hjoined, ← ha.src]
    rfl
  · have hbad : (part + 1) % 256 < 1 ∨ (part + 1) % 256 > 1 := by omega
    rw [if_pos hbad, if_neg hfirst]
    exact ⟨.inr ⟨a, rfl, ha, hvacant⟩, rfl⟩

/-- The texts handed on are the parts numbered one. -/
theorem deliver_one (hone : m.wireTotal = 1) (htype : m.dataType = 1)
    (deliveries : List Delivery) {opens : List Assembly} (h : Current m Assembly.Vacant opens) :
    (Assembly.deliver m opens deliveries).2 =
      ((deliveries.map Prod.snd).filter fun part => (part + 1) % 256 = 1).map fun part =>
        ⟨1, m.chunk part, m.src⟩ := by
  induction deliveries generalizing opens with
  | nil => rfl
  | cons delivery rest ih =>
      obtain ⟨now, part⟩ := delivery
      obtain ⟨hnext, hhanded⟩ := receive_one hone htype now part h
      rw [Assembly.deliver_cons, ih hnext, hhanded, List.map_cons]
      by_cases hfirst : (part + 1) % 256 = 1
      · rw [if_pos hfirst, List.filter_cons_of_pos (by simpa using hfirst)]
        rfl
      · rw [if_neg hfirst, List.filter_cons_of_neg (by simpa using hfirst)]
        rfl

end TotalOne

/-! ## A larger total -/

section LargerTotal

variable {m : MultipartMessage}

/-- The first part, if it is here, is the first part of the text. -/
def Assembly.Headed (m : MultipartMessage) (a : Assembly) : Prop :=
  ∀ first, a.parts 0 = some first → first = m.chunk 0

/-- The data begins with the first part of the text. -/
def Reassembled.Headed (m : MultipartMessage) (handed : Reassembled) : Prop :=
  m.chunk 0 <+: handed.data

/-- Parts with other numbers than one complete no text with another beginning. -/
theorem receive_later (now : UInt32) {part : Nat} (hlater : (part + 1) % 256 ≠ 1)
    {opens : List Assembly} (h : Current m (Assembly.Headed m) opens) :
    Current m (Assembly.Headed m) (Assembly.receive now (m.wireFrame part) opens).1 ∧
      ∀ handed ∈ (Assembly.receive now (m.wireFrame part) opens).2,
        Reassembled.Headed m handed := by
  obtain ⟨a, ha, hheaded, heq⟩ := h.receive_eq now part fun first hfirst => by cases hfirst
  have htotal : (m.wireFrame part).total = m.wireTotal := rfl
  have hnumber : (m.wireFrame part).number = (part + 1) % 256 := rfl
  rw [heq, Assembly.absorb_single, htotal, hnumber]
  split
  · exact ⟨.inr ⟨a, rfl, ha, hheaded⟩, fun handed hmem => by cases hmem⟩
  · rename_i hgood
    have hindex : (part + 1) % 256 - 1 < m.wireTotal := by omega
    have hgrown := ha.add hindex (m.wireFrame part).data
    have hfirst : (a.add ((part + 1) % 256 - 1) (m.wireFrame part).data).parts 0 = a.parts 0 :=
      Assembly.parts_add_of_ne _ _ (by omega)
    split
    · exact ⟨.inr ⟨a, rfl, ha, hheaded⟩, fun handed hmem => by cases hmem⟩
    · split
      · rename_i hcard
        refine ⟨.inl rfl, fun handed hmem => ?_⟩
        obtain ⟨first, hhere⟩ := hgrown.first_of_complete (by omega) hcard
        obtain rfl : first = m.chunk 0 := hheaded first (hfirst.symm.trans hhere)
        have hbegin := Assembly.first_prefix_joined (by rw [hgrown.total]; omega) hhere
        simp only [Assembly.handed] at hmem
        split at hmem
        · obtain rfl := Option.some.inj hmem
          exact hbegin
        · cases hmem
      · exact ⟨.inr ⟨_, rfl, hgrown, fun first hhere => hheaded first (hfirst ▸ hhere)⟩,
          fun handed hmem => by cases hmem⟩

/-- The first part of the text opens a session in which it stays. -/
theorem receive_first (htotal : 2 ≤ m.wireTotal) (now : UInt32) :
    ∃ a, SessionOf m a ∧ a.parts 0 = some (m.chunk 0) ∧
      Assembly.receive now (m.wireFrame 0) [] = ([a], none) := by
  have hopened := SessionOf.opened m now 0
  refine ⟨_, hopened.add (show 0 < m.wireTotal by omega) (m.chunk 0),
    Assembly.parts_add_self _ _ _, ?_⟩
  have hcard : ((Assembly.opened now (m.wireFrame 0)).add 0 (m.chunk 0)).received.card = 1 := by
    rw [Assembly.received_add _ _ (by decide), Assembly.received_opened]
    rfl
  have hgood : ¬ ((m.wireFrame 0).number < 1 ∨ (m.wireFrame 0).number > (m.wireFrame 0).total) := by
    change ¬ (1 < 1 ∨ 1 > m.wireTotal)
    omega
  have hpartial : ¬ 1 = (m.wireFrame 0).total := by
    change ¬ 1 = m.wireTotal
    omega
  rw [Assembly.receive_nil, Assembly.absorb_single, if_neg hgood]
  change (if false = true then _ else
    if ((Assembly.opened now (m.wireFrame 0)).add 0 (m.chunk 0)).received.card = _ then _ else _) = _
  rw [if_neg (by decide), hcard, if_neg hpartial]
  rfl

/-- Other parts numbered one are taken for duplicates. -/
theorem receive_again {a : Assembly} (ha : SessionOf m a) (hfirst : a.parts 0 = some (m.chunk 0))
    (now : UInt32) {part : Nat} (hnumber : (part + 1) % 256 = 1) :
    Assembly.receive now (m.wireFrame part) [a] = ([a], none) := by
  have hindex : (m.wireFrame part).number - 1 = 0 := by
    change (part + 1) % 256 - 1 = 0
    omega
  rw [ha.receive_eq, Assembly.absorb_single, hindex, hfirst]
  split
  · rfl
  · rfl

/-- If the first part of the text arrives first, and all parts numbered one before all
others, no text with another beginning is handed on. -/
theorem deliver_first (htotal : 2 ≤ m.wireTotal) (now : UInt32) {ones others : List Delivery}
    (hones : ∀ part ∈ ones.map Prod.snd, (part + 1) % 256 = 1)
    (hothers : ∀ part ∈ others.map Prod.snd, (part + 1) % 256 ≠ 1) :
    ∀ handed ∈ (Assembly.deliver m [] ((now, 0) :: (ones ++ others))).2,
      Reassembled.Headed m handed := by
  obtain ⟨a, ha, hfirst, hopen⟩ := receive_first htotal now
  have hagain : Assembly.deliver m [a] ones = ([a], []) := by
    clear hopen
    induction ones with
    | nil => rfl
    | cons delivery rest ih =>
        obtain ⟨later, part⟩ := delivery
        rw [Assembly.deliver_cons, receive_again ha hfirst later (hones part List.mem_cons_self),
          ih fun part hmem => hones part (List.mem_cons_of_mem _ hmem)]
        rfl
  have hheaded : Current m (Assembly.Headed m) [a] :=
    .inr ⟨a, rfl, ha, fun first hhere => Option.some.inj (hhere.symm.trans hfirst)⟩
  intro handed hmem
  rw [Assembly.deliver_cons, hopen, Option.toList_none, List.nil_append,
    Assembly.deliver_append, hagain, List.nil_append] at hmem
  exact Assembly.forall_mem_deliver _ (Reassembled.Headed m)
    (fun now part opens hpart h => receive_later now (hothers part hpart) h) hheaded handed hmem

end LargerTotal

end RadioDoge.V3
