/-
# The multipart round trip

Several messages under pairwise different keys are on the air at once. As long
as no session expires, the receiver behaves as a collector: the session of a
message holds the parts that have arrived, the last missing part hands the text
on and removes the session. `Holding` relates the open assemblies to the
collector, one assembly for each message of which some part is held, in whatever
slot the removals before have left it.
-/

import RadioDoge.V3.Traffic
import RadioDoge.Lib.Collector

namespace RadioDoge.V3

/-- What a session is found by. -/
def SendCall.key (call : SendCall) : NodeAddress × UInt8 :=
  (call.multipart.src, call.multipart.dataType)

/-- The data a call is meant to hand on at a receiver. -/
def SendCall.reassembled (call : SendCall) : Reassembled :=
  ⟨call.multipart.dataType, call.multipart.text, call.multipart.src⟩

/-- The parts of a call. -/
abbrev SendCall.need (call : SendCall) : Finset Nat := Finset.range call.multipart.parts

/-- The arrivals among the events, by call and part. -/
def Traffic.delivery : Traffic → Option (SendCall × Nat)
  | .part _ call index => some (call, index)
  | .cleanup _ => none

/-- All arrivals, in order. -/
def deliveries (traffic : List Traffic) : List (SendCall × Nat) :=
  traffic.filterMap Traffic.delivery

/-- Every sweep among the events finds each active session young enough. -/
def NoneExpires (r : Receiver) (traffic : List Traffic) : Prop :=
  ∀ seen now rest, traffic = seen ++ .cleanup now :: rest →
    ∀ s ∈ (r.run (seen.map Traffic.input)).val.1.table.live, s.expired now = false

/-- A run of a receiver in which some messages are delivered: an empty session
table, at most 20 messages of at most 20 parts under different keys, NUL-free,
every part at least once and no copy after the last missing part, and no session
that expires. -/
structure Delivers (calls : List SendCall) (r : Receiver) (traffic : List Traffic) : Prop where
  empty : r.table.count = 0
  few : calls.length ≤ maxMultipartParts
  keys : (calls.map SendCall.key).Nodup
  nulFree : ∀ call ∈ calls, (0 : UInt8) ∉ call.multipart.text
  parts_le : ∀ call ∈ calls, call.multipart.parts ≤ maxMultipartParts
  known : ∀ piece ∈ deliveries traffic,
    piece.1 ∈ calls ∧ piece.2 < piece.1.sent.val.length
  complete : ∀ call ∈ calls, ∀ index < call.sent.val.length, (call, index) ∈ deliveries traffic
  timely : ∀ (k : Nat) (piece : SendCall × Nat), (deliveries traffic)[k]? = some piece →
    ∃ index < piece.1.sent.val.length, (piece.1, index) ∉ (deliveries traffic).take k
  alive : NoneExpires r traffic

/-! ## Assemblies and the collector -/

/-- The conditions on the messages that a step uses. -/
structure Separate (calls : List SendCall) : Prop where
  few : calls.length ≤ maxMultipartParts
  keys : (calls.map SendCall.key).Nodup
  parts_le : ∀ call ∈ calls, call.multipart.parts ≤ maxMultipartParts

/-- The open assemblies are those of the calls of which something is held, one
for each of the `owners` and in their order. -/
structure Holding (calls : List SendCall) (held : SendCall → Finset Nat)
    (opens : List Assembly) (owners : List SendCall) : Prop where
  nodup : owners.Nodup
  subset : owners ⊆ calls
  mem_iff : ∀ call, call ∈ owners ↔ (held call).Nonempty
  assemblies : List.Forall₂ (fun a call => PartOf call.multipart (held call) a) opens owners

namespace Holding

variable {calls owners : List SendCall} {held : SendCall → Finset Nat} {opens : List Assembly}

theorem nil (calls : List SendCall) : Holding calls (fun _ => ∅) [] [] :=
  ⟨List.nodup_nil, List.nil_subset _, fun _ => by simp, .nil⟩

/-- When nothing is held, no assembly is open. -/
theorem eq_nil (h : Holding calls held opens owners) (hnone : ∀ call, held call = ∅) :
    opens = [] := by
  have howners : owners = [] := List.eq_nil_iff_forall_not_mem.mpr fun call hcall => by
    have hne := (h.mem_iff call).mp hcall
    rw [hnone] at hne
    exact Finset.not_nonempty_empty hne
  have hrel := h.assemblies
  rw [howners] at hrel
  exact List.forall₂_nil_right_iff.mp hrel

/-- A change at one call is not noticed by the assemblies of the others. -/
theorem update_other {call other : SendCall} {a : Assembly} (hne : other ≠ call)
    (grown : Finset Nat) (h : PartOf other.multipart (held other) a) :
    PartOf other.multipart (Function.update held call grown other) a := by
  rwa [Function.update_of_ne hne]

/-- A frame finds the assembly of its own call. -/
theorem find (h : Holding calls held opens owners) (hkeys : (calls.map SendCall.key).Nodup)
    {call : SendCall} (hcall : call ∈ calls) (index : Nat) :
    opens.findIdx? (Assembly.matchesFrame (call.multipart.partFrame index)) =
      owners.findIdx? fun other => decide (other = call) := by
  have hin : List.Forall₂ (fun a other => other ∈ calls ∧ PartOf other.multipart (held other) a)
      opens owners :=
    Elementwise.imp_of_mem h.assemblies fun _ _ hmem hrel => ⟨h.subset hmem, hrel⟩
  refine Elementwise.findIdx?_eq hin fun a other hother => ?_
  rw [Bool.eq_iff_iff, hother.2.matchesFrame_iff, decide_eq_true_eq]
  constructor
  · intro hkey
    exact List.inj_on_of_nodup_map hkeys hother.1 hcall (Prod.ext hkey.1 hkey.2)
  · rintro rfl
    exact ⟨rfl, rfl⟩

/-- The assembly of a call grows. -/
theorem grow (h : Holding calls held opens owners) {call : SendCall} {slot : Nat}
    (howner : owners[slot]? = some call) {held' : Finset Nat} (hne : held'.Nonempty)
    {grown : Assembly} (hgrown : PartOf call.multipart held' grown) :
    Holding calls (Function.update held call held') (opens.set slot grown) owners where
  nodup := h.nodup
  subset := h.subset
  mem_iff := fun other => by
    by_cases heq : other = call
    · subst heq
      simp only [Function.update_self, hne, iff_true]
      exact List.mem_of_getElem? howner
    · rw [Function.update_of_ne heq, h.mem_iff]
  assemblies := by
    refine Elementwise.set_left h.assemblies h.nodup howner ?_
      fun _ _ _ hne' => update_other hne' held'
    rw [Function.update_self]
    exact hgrown

/-- The assembly of a call is removed; the ones behind it move up. -/
theorem close (h : Holding calls held opens owners) {call : SendCall} {slot : Nat}
    (howner : owners[slot]? = some call) :
    Holding calls (Function.update held call ∅) (opens.eraseIdx slot) (owners.eraseIdx slot) := by
  obtain ⟨hlt, hat⟩ := List.getElem?_eq_some_iff.mp howner
  have herase : owners.eraseIdx slot = owners.erase call := by
    rw [List.erase_eq_eraseIdx_of_idxOf]
    rw [← hat]
    exact h.nodup.idxOf_getElem slot hlt
  have hmem : ∀ other, other ∈ owners.eraseIdx slot ↔ other ≠ call ∧ other ∈ owners :=
    fun other => by rw [herase, h.nodup.mem_erase_iff]
  refine ⟨?_, ?_, fun other => ?_, ?_⟩
  · rw [herase]
    exact h.nodup.erase call
  · exact fun other hother => h.subset ((hmem other).mp hother).2
  · rw [hmem, h.mem_iff]
    by_cases heq : other = call
    · simp [heq]
    · simp [heq]
  · exact Elementwise.imp_of_mem (Elementwise.eraseIdx h.assemblies slot)
      fun _ other hother => update_other ((hmem other).mp hother).1 ∅

/-- An assembly is opened for a call of which nothing was held. -/
theorem opening (h : Holding calls held opens owners) {call : SendCall} (hcall : call ∈ calls)
    (hnew : call ∉ owners) {held' : Finset Nat} (hne : held'.Nonempty) {fresh : Assembly}
    (hfresh : PartOf call.multipart held' fresh) :
    Holding calls (Function.update held call held') (opens ++ [fresh]) (owners ++ [call]) where
  nodup := by
    rw [List.nodup_append_comm]
    exact List.nodup_cons.mpr ⟨hnew, h.nodup⟩
  subset := by
    intro other hother
    cases List.mem_append.mp hother with
    | inl hmem => exact h.subset hmem
    | inr hlast => exact List.mem_singleton.mp hlast ▸ hcall
  mem_iff := fun other => by
    rw [List.mem_append, List.mem_singleton, h.mem_iff]
    by_cases heq : other = call
    · simp [heq, hne]
    · simp [heq]
  assemblies := by
    refine Elementwise.append_singleton (Elementwise.imp_of_mem h.assemblies
      fun _ other hother => update_other (ne_of_mem_of_not_mem hother hnew) held') ?_
    rw [Function.update_self]
    exact hfresh

/-- There is a free slot for a call of which nothing is held. -/
theorem room (h : Holding calls held opens owners) (hfew : calls.length ≤ maxMultipartParts)
    {call : SendCall} (hcall : call ∈ calls) (hnew : call ∉ owners) :
    opens.length < maxMultipartParts := by
  have hsub : call :: owners ⊆ calls := List.cons_subset.mpr ⟨hcall, h.subset⟩
  have hle := (List.subperm_of_subset (List.nodup_cons.mpr ⟨hnew, h.nodup⟩) hsub).length_le
  rw [h.assemblies.length_eq]
  simp only [List.length_cons] at hle
  omega

/-- **One part arrives.** The abstract receiver does what the collector does, and
hands on the text of the call the collector has finished. -/
theorem receive (h : Holding calls held opens owners) (hsep : Separate calls) (now : UInt32)
    {call : SendCall} (hcall : call ∈ calls) {index : Nat}
    (hindex : index < call.multipart.parts) :
    let next := Assembly.receive now (call.multipart.partFrame index) opens
    let collected := Collector.collect SendCall.need held (call, index)
    (∃ owners, Holding calls collected.1 next.1 owners) ∧
      next.2 = collected.2.map fun c =>
        ⟨c.multipart.dataType, c.multipart.carried, c.multipart.src⟩ := by
  have hparts := hsep.parts_le call hcall
  have htype := call.dataType_multipart
  simp only [Assembly.receive, h.find hsep.keys hcall, Collector.collect_mk]
  cases hslot : owners.findIdx? fun other => decide (other = call) with
  | some slot =>
      obtain ⟨hlt, hat, _⟩ := List.findIdx?_eq_some_iff_getElem.mp hslot
      have howner : owners[slot]? = some call := by
        rw [List.getElem?_eq_getElem hlt, of_decide_eq_true hat]
      obtain ⟨a, ha, hpart⟩ := Elementwise.getElem?_some h.assemblies howner
      simp only [hpart.absorb ha hindex hparts htype]
      by_cases hdup : index ∈ held call
      · rw [if_pos hdup, if_pos hdup]
        exact ⟨⟨owners, h⟩, rfl⟩
      · rw [if_neg hdup, if_neg hdup]
        by_cases hlast : insert index (held call) = Finset.range call.multipart.parts
        · rw [if_pos hlast, if_pos hlast]
          exact ⟨⟨_, h.close howner⟩, rfl⟩
        · rw [if_neg hlast, if_neg hlast]
          exact ⟨⟨owners, h.grow howner (Finset.insert_nonempty _ _) (hpart.add hindex)⟩, rfl⟩
  | none =>
      have hnew : call ∉ owners := fun hhas => by
        have hno := List.findIdx?_eq_none_iff.mp hslot call hhas
        simp at hno
      have hempty : held call = ∅ := by
        rw [← Finset.not_nonempty_iff_eq_empty, ← h.mem_iff]
        exact hnew
      have hroom := h.room hsep.few hcall hnew
      have hopened := PartOf.opened call.multipart now index
      have hlast : (opens ++ [Assembly.opened now (call.multipart.partFrame index)])[opens.length]?
          = some (Assembly.opened now (call.multipart.partFrame index)) := by
        simp
      simp only [if_pos hroom, hopened.absorb hlast hindex hparts htype, hempty,
        Finset.notMem_empty, if_false]
      by_cases hone : insert index ∅ = Finset.range call.multipart.parts
      · -- a message of one part never leaves an assembly behind
        rw [if_pos hone, if_pos hone, List.eraseIdx_append_of_length_le le_rfl, Nat.sub_self,
          List.eraseIdx_cons_zero, List.append_nil]
        have hsame : Function.update held call ∅ = held := by
          rw [← hempty, Function.update_eq_self]
        rw [hsame]
        exact ⟨⟨owners, h⟩, rfl⟩
      · rw [if_neg hone, if_neg hone, List.set_append_right _ _ le_rfl, Nat.sub_self,
          List.set_cons_zero]
        exact ⟨⟨_, h.opening hcall hnew (Finset.insert_nonempty _ _) (hopened.add hindex)⟩, rfl⟩

end Holding

/-! ## Runs -/

/-- The first event of a run is the only sweep looked at before the rest. -/
theorem NoneExpires.tail {r : Receiver} {event : Traffic} {rest : List Traffic}
    (h : NoneExpires r (event :: rest)) :
    NoneExpires (r.step event.input).val.1 rest := by
  intro seen now later hsplit s hs
  exact h (event :: seen) now later (by rw [hsplit]; rfl) s hs

/-- A sweep that finds no session too old changes nothing. -/
theorem NoneExpires.cleanup {r : Receiver} {now : UInt32} {rest : List Traffic}
    (h : NoneExpires r (.cleanup now :: rest)) {opens : List Assembly}
    (htable : TableRepresents r.table opens) :
    TableRepresents (cleanupExpiredMultipartSessions now r.table) opens := by
  rw [TableRepresents, cleanupExpiredMultipartSessions, SlotTable.live_sweep,
    List.filter_eq_self.mpr]
  · exact htable
  · intro s hs
    rw [h [] now rest rfl s hs]
    rfl

/-- A whole run follows the collector. -/
theorem run_follows_collector {calls : List SendCall} (hsep : Separate calls) :
    ∀ (traffic : List Traffic) (r : Receiver) (opens : List Assembly)
      (held : SendCall → Finset Nat) (owners : List SendCall),
      TableRepresents r.table opens → Holding calls held opens owners → NoneExpires r traffic →
      (∀ piece ∈ deliveries traffic,
        piece.1 ∈ calls ∧ piece.2 < piece.1.sent.val.length) →
      let out := (r.run (traffic.map Traffic.input)).val
      let collected := Collector.run SendCall.need held (deliveries traffic)
      (∃ opens owners, TableRepresents out.1.table opens ∧
        Holding calls collected.1 opens owners) ∧
      out.2 = collected.2.map fun c =>
        ⟨c.multipart.dataType, c.multipart.carried, c.multipart.src⟩ := by
  intro traffic
  induction traffic with
  | nil =>
      intro r opens held owners htable hheld _ _
      exact ⟨⟨opens, owners, htable, hheld⟩, rfl⟩
  | cons event rest ih =>
      intro r opens held owners htable hheld halive hknown
      cases event with
      | part now call index =>
          obtain ⟨hcall, hlt⟩ := hknown (call, index) List.mem_cons_self
          have hsent : (Traffic.part now call index).WellSent :=
            ⟨hsep.parts_le call hcall, hlt⟩
          have hindex := (Traffic.input_part now hsent).1
          obtain ⟨htable', hhanded⟩ := Receiver.step_part htable now hsent
          obtain ⟨⟨owners', hheld'⟩, hcollected⟩ := hheld.receive hsep now hcall hindex
          obtain ⟨hend, hrest⟩ := ih _ _ _ owners' htable' hheld' halive.tail
            fun piece hmem => hknown piece (List.mem_cons_of_mem _ hmem)
          refine ⟨hend, ?_⟩
          change _ ++ _ = _
          rw [hrest, hhanded, hcollected]
          simp only [deliveries, List.filterMap_cons, Traffic.delivery, Collector.run,
            List.map_append]
          cases (Collector.collect SendCall.need held (call, index)).2 <;> rfl
      | cleanup now =>
          obtain ⟨hend, hrest⟩ := ih _ _ _ owners (halive.cleanup htable) hheld halive.tail hknown
          exact ⟨hend, hrest⟩

/-- **The multipart round trip.** Whatever the order in which the parts arrive,
each message is handed on exactly once, with the text that was cut, the data type
and the source address, and no session is left. -/
theorem multipart_round_trip {calls : List SendCall} {r : Receiver} {traffic : List Traffic}
    (h : Delivers calls r traffic) :
    (r.run (traffic.map Traffic.input)).val.2.Perm (calls.map SendCall.reassembled) ∧
      (r.run (traffic.map Traffic.input)).val.1.table.count = 0 := by
  have hsep : Separate calls := ⟨h.few, h.keys, h.parts_le⟩
  have htable : TableRepresents r.table [] := by
    rw [TableRepresents, (SlotTable.live_eq_nil_iff r.table).mpr h.empty]
    exact .nil
  have hlength : ∀ call ∈ calls, call.sent.val.length = call.multipart.parts :=
    fun call hcall => by
      rw [call.val_sent (h.parts_le call hcall)]
      simp [MultipartMessage.frames]
  have hindex : ∀ call ∈ calls, ∀ index,
      index ∈ call.need ↔ index < call.sent.val.length := fun call hcall index => by
    rw [hlength call hcall, SendCall.need, Finset.mem_range]
  obtain ⟨⟨opens, owners, hfinal, hheld⟩, hout⟩ :=
    run_follows_collector hsep traffic r [] _ [] htable (Holding.nil calls) h.alive h.known
  have htimely : Collector.Timely SendCall.need (deliveries traffic) := by
    intro seen call index rest hsplit hall
    obtain ⟨missing, hlt, hmissing⟩ := h.timely seen.length (call, index) (by simp [hsplit])
    rw [hsplit, List.take_left] at hmissing
    have hcall : call ∈ calls := (h.known (call, index) (by rw [hsplit]; simp)).1
    exact hmissing ((Collector.mem_arrived _ _ _).mp
      (hall ((hindex call hcall missing).mpr hlt)))
  obtain ⟨hperm, hnone⟩ := Collector.run_perm (List.Nodup.of_map _ h.keys)
    (fun piece hmem => by
      obtain ⟨hcall, hlt⟩ := h.known piece hmem
      exact ⟨hcall, (hindex _ hcall _).mpr hlt⟩)
    htimely (fun call => ⟨0, Finset.mem_range.mpr call.parts_multipart_pos⟩)
    (fun call hcall index hi => h.complete call hcall index ((hindex call hcall index).mp hi))
  have hdata : calls.map SendCall.reassembled = calls.map fun c =>
      ⟨c.multipart.dataType, c.multipart.carried, c.multipart.src⟩ :=
    List.map_congr_left fun call hcall => by
      rw [SendCall.reassembled, call.multipart.carried_eq_text_iff.mpr
        (MultipartMessage.copySafe_of_nulFree (h.nulFree call hcall))]
  constructor
  · rw [hout, hdata]
    exact hperm.map _
  · rw [hfinal.length_eq, hheld.eq_nil hnone]
    rfl

/-- A run with two messages, one of them in two parts of which the second arrives
first and twice. -/
theorem multipart_round_trip_interleaved :
    let long := longNote 65
    let out := (Receiver.boot.run ([.part 0 long 1, .part 5 shortNote 0, .part 9 long 1,
      .part 12 long 0].map Traffic.input)).val
    out.2.Perm [long.reassembled, shortNote.reassembled] ∧ out.1.table.count = 0 := by
  have hcalls : ∀ P : SendCall → Prop, P (longNote 65) → P shortNote →
      ∀ call ∈ [longNote 65, shortNote], P call := by
    intro P hlong hshort call hmem
    simp only [List.mem_cons, List.not_mem_nil, or_false] at hmem
    rcases hmem with rfl | rfl
    · exact hlong
    · exact hshort
  have harrive : deliveries [.part 0 (longNote 65) 1, .part 5 shortNote 0,
      .part 9 (longNote 65) 1, .part 12 (longNote 65) 0] =
      [(longNote 65, 1), (shortNote, 0), (longNote 65, 1), (longNote 65, 0)] := rfl
  have hne : shortNote ≠ longNote 65 := SendCall.noConfusion
  refine multipart_round_trip ⟨rfl, by decide, by decide, hcalls _ ?_ ?_, hcalls _ ?_ ?_, ?_,
    hcalls _ ?_ ?_, ?_, ?_⟩
  · simp [longNote, SendCall.multipart, ascii, colon, -List.reduceReplicate]
  · decide
  · rw [parts_longNote]
    decide
  · rw [parts_shortNote]
    decide
  · rw [harrive]
    simp [length_sent_longNote, length_sent_shortNote]
  · rw [harrive, length_sent_longNote]
    intro index hindex
    interval_cases index <;> simp
  · rw [harrive, length_sent_shortNote]
    intro index hindex
    interval_cases index
    simp
  · rw [harrive]
    intro k piece hpiece
    have hk : k < 4 := (List.getElem?_eq_some_iff.mp hpiece).1
    interval_cases k <;> obtain rfl := Option.some.inj hpiece
    · exact ⟨0, by simp [length_sent_longNote], by simp⟩
    · exact ⟨0, by simp [length_sent_shortNote], by simp [hne]⟩
    · exact ⟨0, by simp [length_sent_longNote], by simp [hne.symm]⟩
    · exact ⟨0, by simp [length_sent_longNote], by simp [hne.symm]⟩
  · intro seen now rest hsplit
    have hmem : Traffic.cleanup now ∈ seen ++ .cleanup now :: rest := by simp
    rw [← hsplit] at hmem
    simp at hmem

end RadioDoge.V3
