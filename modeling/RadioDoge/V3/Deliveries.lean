/-
# A message delivered frame by frame

Part number and total are single bytes of the frame, so a text of more than 255 parts
arrives with counters that have wrapped, and one text can complete several sessions,
or none. `Assembly.deliver` runs the abstract receiver over deliveries of the frames
of one message as they are on the wire, in any order and any number.

Two results connect it to a node that receives messages: `effects_deliver` says that
the effects are those of the texts it hands on, and `memorySafe_deliver` that the run
is safe if each frame fits.
-/

import RadioDoge.V3.Node
import RadioDoge.V3.ReassemblySafety

namespace RadioDoge.V3

/-- A frame of a message on arrival: the time, and the index of the part. -/
abbrev Delivery := UInt32 × Nat

namespace MultipartMessage

/-- A delivery as the node sees it. -/
def arrival (m : MultipartMessage) (delivery : Delivery) : UInt32 × Bytes :=
  (delivery.1, m.frame delivery.2)

/-- Packets that are frames of the message are deliveries of its parts. -/
theorem exists_deliveries (m : MultipartMessage) {arrivals : List (UInt32 × Bytes)}
    {parts : List Nat} (h : (arrivals.map Prod.snd).Perm (parts.map m.frame)) :
    ∃ deliveries : List Delivery, arrivals = deliveries.map m.arrival ∧
      (deliveries.map Prod.snd).Perm parts := by
  obtain ⟨order, hframes, hperm⟩ := Elementwise.perm_of_perm_map h
  rw [List.forall₂_map_left_iff] at hframes
  suffices hzip : ∃ deliveries : List Delivery, arrivals = deliveries.map m.arrival ∧
      deliveries.map Prod.snd = order by
    obtain ⟨deliveries, harrivals, horder⟩ := hzip
    exact ⟨deliveries, harrivals, horder ▸ hperm⟩
  clear hperm h
  induction hframes with
  | nil => exact ⟨[], rfl, rfl⟩
  | @cons arrival part _ _ hframe _ ih =>
      obtain ⟨deliveries, hrest, horder⟩ := ih
      refine ⟨(arrival.1, part) :: deliveries, ?_, ?_⟩
      · rw [List.map_cons, ← hrest, MultipartMessage.arrival, ← hframe]
      · rw [List.map_cons, horder]

/-- The payloads of deliveries. -/
theorem map_snd_arrival (m : MultipartMessage) (deliveries : List Delivery) :
    (deliveries.map m.arrival).map Prod.snd = (deliveries.map Prod.snd).map m.frame := by
  rw [List.map_map, List.map_map]
  rfl

end MultipartMessage

/-! ## The abstract run -/

namespace Assembly

/-- The abstract receiver over deliveries of one message. -/
def deliver (m : MultipartMessage) (opens : List Assembly) :
    List Delivery → List Assembly × List Reassembled
  | [] => (opens, [])
  | (now, part) :: rest =>
      let next := receive now (m.wireFrame part) opens
      let later := deliver m next.1 rest
      (later.1, next.2.toList ++ later.2)

theorem deliver_cons (m : MultipartMessage) (opens : List Assembly) (now : UInt32) (part : Nat)
    (rest : List Delivery) :
    deliver m opens ((now, part) :: rest) =
      ((deliver m (receive now (m.wireFrame part) opens).1 rest).1,
        (receive now (m.wireFrame part) opens).2.toList ++
          (deliver m (receive now (m.wireFrame part) opens).1 rest).2) := rfl

/-- A run in two stretches. -/
theorem deliver_append (m : MultipartMessage) (first second : List Delivery) :
    ∀ opens, deliver m opens (first ++ second) =
      ((deliver m (deliver m opens first).1 second).1,
        (deliver m opens first).2 ++ (deliver m (deliver m opens first).1 second).2) := by
  induction first with
  | nil => exact fun opens => rfl
  | cons delivery rest ih =>
      intro opens
      obtain ⟨now, part⟩ := delivery
      rw [List.cons_append, deliver_cons, ih, deliver_cons, List.append_assoc]

/-- What holds of everything that is handed on from a state kept by each delivery. -/
theorem forall_mem_deliver {m : MultipartMessage} (I : List Assembly → Prop)
    (P : Reassembled → Prop) {deliveries : List Delivery}
    (hstep : ∀ now part opens, part ∈ deliveries.map Prod.snd → I opens →
      I (receive now (m.wireFrame part) opens).1 ∧
        ∀ handed ∈ (receive now (m.wireFrame part) opens).2, P handed)
    {opens : List Assembly} (h : I opens) :
    ∀ handed ∈ (deliver m opens deliveries).2, P handed := by
  induction deliveries generalizing opens with
  | nil => exact fun handed hmem => by cases hmem
  | cons delivery rest ih =>
      obtain ⟨now, part⟩ := delivery
      have hhere := hstep now part opens List.mem_cons_self h
      intro handed hmem
      rw [deliver_cons] at hmem
      cases List.mem_append.mp hmem with
      | inl hfirst => exact hhere.2 handed (Option.mem_toList.mp hfirst)
      | inr hlater =>
          exact ih (fun now part opens hmem => hstep now part opens (List.mem_cons_of_mem _ hmem))
            hhere.1 handed hlater

/-- A session takes over no other type than that of the frame. -/
theorem dataType_absorb {f : PartFrame} {slot : Nat} {opens : List Assembly} {handed : Reassembled}
    (hkey : ∀ a, opens[slot]? = some a → a.dataType = f.dataType)
    (h : (absorb f slot opens).2 = some handed) : handed.dataType = f.dataType := by
  rw [absorb] at h
  split at h
  · cases h
  · cases hslot : opens[slot]? with
    | none =>
        rw [hslot] at h
        cases h
    | some a =>
        rw [hslot] at h
        simp only at h
        split at h
        · cases h
        · split at h
          · simp only [Assembly.handed] at h
            split at h
            · cases h
              exact hkey a hslot
            · cases h
          · cases h

/-- A session hands on data of the type of its frames. -/
theorem dataType_receive {now : UInt32} {f : PartFrame} {opens : List Assembly}
    {handed : Reassembled} (h : (receive now f opens).2 = some handed) :
    handed.dataType = f.dataType := by
  rw [receive] at h
  cases hfind : opens.findIdx? (matchesFrame f) with
  | some slot =>
      rw [hfind] at h
      apply dataType_absorb (fun a ha => ?_) h
      rcases List.findIdx?_eq_some_iff_getElem.mp hfind with ⟨hslot, hmatch, -⟩
      rw [List.getElem?_eq_getElem hslot, Option.some.injEq] at ha
      rw [ha, matchesFrame, Bool.and_eq_true] at hmatch
      exact of_decide_eq_true hmatch.2
  | none =>
      rw [hfind] at h
      simp only at h
      split at h
      · apply dataType_absorb (fun a ha => ?_) h
        rw [List.getElem?_concat_length, Option.some.injEq] at ha
        rw [← ha, opened]
      · cases h

end Assembly

/-! ## The node -/

section AtNode

variable {m : MultipartMessage}

/-- One frame of a message: the receiver does what the abstract one does, and the text
that is handed on, if any, is processed. -/
theorem receive_wireFrame (world : World) (now : UInt32) (part : Nat) {node : Node}
    {opens : List Assembly} (htotal : m.parts % 256 ≤ maxMultipartParts) (htype : m.dataType = 1)
    (haccept : node.Accepts m.dest) (htable : TableRepresents node.receiver.table opens) :
    ∃ receiver : Receiver,
      TableRepresents receiver.table (Assembly.receive now (m.wireFrame part) opens).1 ∧
        (node.receive world now (m.frame part)).val = (node.withReceiver receiver,
          (Assembly.receive now (m.wireFrame part) opens).2.toList.flatMap fun handed =>
            (processReassembledMessage handed.data node).2) := by
  obtain ⟨hnext, hhanded⟩ :=
    receive_refines htable (m.carries_wireFrame node.receiver.rx part htotal) now
  refine ⟨(node.receiver.step (.frame now (m.frame part))).val.1, hnext, ?_⟩
  rw [Node.receive_frame world now m part node haccept, Traced.val_bind]
  have hstepped : (node.receiver.step (.frame now (m.frame part))).val.2 =
      (Assembly.receive now (m.wireFrame part) opens).2.toList := congrArg Option.toList hhanded
  rw [hstepped]
  cases htext : (Assembly.receive now (m.wireFrame part) opens).2 with
  | none => rfl
  | some handed =>
      have hone : handed.dataType = 1 := (Assembly.dataType_receive htext).trans htype
      rw [Option.toList_some, Node.process, processReassembled, if_neg (by rw [hone]; decide),
        if_pos hone, List.flatMap_singleton]
      rfl

/-- The effects of a run are those of the texts handed on. -/
theorem effects_deliver (world : World) (htotal : m.parts % 256 ≤ maxMultipartParts)
    (htype : m.dataType = 1) (deliveries : List Delivery) :
    ∀ (node : Node) (opens : List Assembly), node.Accepts m.dest →
      TableRepresents node.receiver.table opens →
      (node.receiveAll world (deliveries.map m.arrival)).val.2 =
        (Assembly.deliver m opens deliveries).2.flatMap fun handed =>
          (processReassembledMessage handed.data node).2 := by
  induction deliveries with
  | nil => exact fun node opens _ _ => rfl
  | cons delivery rest ih =>
      intro node opens haccept htable
      obtain ⟨now, part⟩ := delivery
      obtain ⟨receiver, hnext, hvalue⟩ :=
        receive_wireFrame world now part htotal htype haccept htable
      have hlater := ih (node.withReceiver receiver) _ haccept hnext
      rw [List.map_cons, MultipartMessage.arrival, Node.val_receiveAll_cons, hvalue, hlater,
        Assembly.deliver_cons, List.flatMap_append]
      rfl

/-- A message is processed without array accesses. -/
theorem memorySafe_process_message (world : World) (node : Node) {handed : List Reassembled}
    (hone : ∀ r ∈ handed, r.dataType = 1) : MemorySafe (Node.process world node handed) := by
  cases handed with
  | nil => exact Traced.every_pure _ _
  | cons first rest =>
      have hfirst := hone first List.mem_cons_self
      rw [Node.process, processReassembled, if_neg (by rw [hfirst]; decide), if_pos hfirst]
      exact Traced.every_pure _ _

/-- A table that stands for assemblies has true sizes. -/
theorem TableRepresents.tableTrue {table : SessionTable} {opens : List Assembly}
    (h : TableRepresents table opens) : TableTrue table := by
  intro s hs
  obtain ⟨i, hi⟩ := List.getElem?_of_mem hs
  have hlen : i < opens.length := by
    rw [← h.length_eq, ← SlotTable.length_live]
    exact (List.getElem?_eq_some_iff.mp hi).1
  obtain ⟨s', hs', hrep⟩ := Elementwise.getElem?_some h (List.getElem?_eq_getElem hlen)
  obtain rfl : s' = s := Option.some.inj (hs'.symm.trans hi)
  intro part hpart hreceived
  have hflag := hrep.flags part hpart
  rw [MultipartReassembly.received, hflag, Option.getD_some] at hreceived
  obtain ⟨b, hb⟩ := Option.isSome_iff_exists.mp hreceived
  have hlength := hrep.size_le part b hb
  have hsize : s'.sizeOf part = b.length := by
    rw [MultipartReassembly.sizeOf, hrep.size part hpart b hb, Option.getD_some,
      UInt16.toNat_ofNat']
    exact Nat.mod_eq_of_lt (by simp only [multipartChunkSize] at hlength; omega)
  rw [hsize]
  simp only [maxMultipartParts, multipartChunkSize, assembledSize] at *
  omega

/-- The session a frame is processed in stands for the assembly that takes it. -/
theorem sessionOf_represents {table : SessionTable} {opens : List Assembly} {rx : RxBuffer}
    {f : PartFrame} (h : TableRepresents table opens) (hf : Carries rx f) (now : UInt32)
    {s : MultipartReassembly} (hs : s ∈ sessionOf now rx table) :
    ∃ a, Represents s a ∧ (a ∈ opens ∨ a = Assembly.opened now f) := by
  simp only [sessionOf, hf.src, hf.dataType, h.find_eq f] at hs
  cases hfind : opens.findIdx? (Assembly.matchesFrame f) with
  | some slot =>
      have hslot := (List.findIdx?_eq_some_iff_getElem.mp hfind).1
      simp only [hfind, Option.mem_some_iff] at hs
      exact ⟨opens[slot], hs ▸ h.read (List.getElem?_eq_getElem hslot),
        .inl (List.getElem_mem hslot)⟩
  | none =>
      simp only [hfind] at hs
      split at hs
      · rw [Option.mem_some_iff] at hs
        exact ⟨_, hs ▸ Represents.reuse now f _ _ hf.total hf.total_le, .inr rfl⟩
      · cases hs

/-- A run is safe if each frame fits the states that the run can meet. -/
theorem memorySafe_deliver (world : World) (htotal : m.parts % 256 ≤ maxMultipartParts)
    (htype : m.dataType = 1) (I : List Assembly → Prop) {deliveries : List Delivery}
    (hstep : ∀ now part opens, part ∈ deliveries.map Prod.snd → I opens →
      I (Assembly.receive now (m.wireFrame part) opens).1)
    (hfits : ∀ now part rx table opens, part ∈ deliveries.map Prod.snd → I opens →
      TableRepresents table opens → Carries rx (m.wireFrame part) → FrameFits now rx table) :
    ∀ (node : Node) (opens : List Assembly), node.Accepts m.dest →
      TableRepresents node.receiver.table opens → I opens →
      MemorySafe (node.receiveAll world (deliveries.map m.arrival)) := by
  induction deliveries with
  | nil => exact fun node opens _ _ _ => Traced.every_pure _ _
  | cons delivery rest ih =>
      intro node opens haccept htable h
      obtain ⟨now, part⟩ := delivery
      have hcarries := m.carries_wireFrame node.receiver.rx part htotal
      have hsize : (ReceiverInput.frame now (m.frame part)).SizeOk := by
        refine ⟨?_, m.length_frame_lt part⟩
        rw [m.length_frame]
        exact Nat.le_add_right_of_le (by decide)
      have hhere : MemorySafe (node.receive world now (m.frame part)) := by
        rw [Node.receive_frame world now m part node haccept]
        refine (Traced.every_bind _ _ _).mpr
          ⟨(memorySafe_step htable.tableTrue _ hsize).mpr ?_, ?_⟩
        · exact hfits now part _ _ opens List.mem_cons_self h htable hcarries
        · refine memorySafe_process_message world _ fun r hr => ?_
          change r ∈ Option.toList _ at hr
          rw [(receive_refines htable hcarries now).2, Option.mem_toList] at hr
          exact (Assembly.dataType_receive hr).trans htype
      obtain ⟨receiver, hnext, hvalue⟩ :=
        receive_wireFrame world now part htotal htype haccept htable
      rw [List.map_cons, MultipartMessage.arrival, Node.receiveAll]
      simp only [Traced.every_bind, Traced.every_pure, and_true, hvalue]
      refine ⟨hhere, ih (fun now part opens hmem => ?_) (fun now part rx table opens hmem => ?_)
        (node.withReceiver receiver) _ haccept hnext (hstep now part opens List.mem_cons_self h)⟩
      · exact hstep now part opens (List.mem_cons_of_mem _ hmem)
      · exact hfits now part rx table opens (List.mem_cons_of_mem _ hmem)

end AtNode

end RadioDoge.V3
