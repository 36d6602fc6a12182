/-
# The text of a message at its destination

`SendMessage` writes the text from byte 8 on, behind the two addresses.
`ExtractStringMessageFromBuffer` reads from byte 7 on, so what it returns begins with the
node number of the destination; where that number is 0, the string ends before it begins.
No text is read as it was sent.
-/

import RadioDoge.V3.Senders
import RadioDoge.V3.Node

namespace RadioDoge.V3

section Message

variable (world : World) (rx : RxBuffer) (localAddress : NodeAddress)
  (serialBuf : Vector UInt8 bufferSize) (destination : NodeAddress) (message type : Bytes)

/-- What `ParseReceivedMessage` extracts from the frame of `SendMessage`. -/
def messageString : Option Bytes :=
  extractStringMessageFromBuffer world
    (rx.onRxDone (sendMessage localAddress serialBuf destination message type).2)

/-- The extracted stretch: the node number, the text, and the NUL of `OnRxDone`. -/
theorem slice_message :
    slice (rx.onRxDone (sendMessage localAddress serialBuf destination message type).2).rxPacket 7
        (((rx.onRxDone (sendMessage localAddress serialBuf destination message type).2).rxSize -
          6).toNat) =
      destination.node :: (strncpy ((type ++ colon :: message).take 247) ++ [0]) := by
  let text := strncpy ((type ++ colon :: message).take 247)
  let front := MessageType.message.code :: 0 :: localAddress.bytes ++
    [destination.region, destination.community]
  have hframe : (sendMessage localAddress serialBuf destination message type).2 =
      front ++ destination.node :: text := by
    rw [frame_sendMessage]
    simp only [front, text, NodeAddress.bytes, List.cons_append, List.nil_append]
  have htext : text.length ≤ 247 := by
    simp only [text, length_strncpy]
    exact List.length_take_le _ _
  have hcount : ((rx.onRxDone (front ++ destination.node :: text)).rxSize - 6).toNat =
      (destination.node :: (text ++ [0])).length := by
    simp only [RxBuffer.onRxDone, front, NodeAddress.bytes, List.length_append, List.length_cons,
      List.length_nil]
    omega
  have hfits : 7 + (destination.node :: (text ++ [0])).length ≤ bufferSize := by
    simp only [List.length_append, List.length_cons, List.length_nil, bufferSize]
    omega
  have hcopied := memcpy_append front (destination.node :: (text ++ [0])) rx.rxPacket 0
  rw [hframe, hcount, RxBuffer.rxPacket_onRxDone, List.append_assoc, List.cons_append, ← hcopied]
  exact (slice_memcpy _ 7 _ _ le_rfl hfits).trans List.take_length

/-- The string is empty at a node with number 0, and has one byte too many elsewhere. -/
theorem messageString_eq (hsize : (type ++ colon :: message).length ≤ 247) :
    messageString world rx localAddress serialBuf destination message type =
      some (if destination.node = 0 then []
        else destination.node :: ofCString (type ++ colon :: message)) := by
  have hreturns : ¬ (rx.onRxDone
      (sendMessage localAddress serialBuf destination message type).2).rxSize - 6 < 0 := by
    rw [frame_sendMessage]
    simp only [RxBuffer.onRxDone, NodeAddress.bytes, List.length_append, List.length_cons]
    omega
  rw [messageString, extractStringMessageFromBuffer, if_neg hreturns, slice_message,
    List.take_of_length_le hsize]
  apply congrArg some
  rw [List.cons_append, List.append_assoc]
  change ofCString (destination.node :: (strncpy (type ++ colon :: message) ++ 0 :: world.heap)) = _
  have hrest := ofCString_strncpy (type ++ colon :: message) world.heap
  by_cases hzero : destination.node = 0
  · rw [if_pos hzero, hzero]
    rfl
  · rw [if_neg hzero, ← hrest]
    simp only [ofCString, List.takeWhile_cons, ne_eq, hzero, not_false_eq_true, decide_true,
      if_true]

/-- **No message is read as it was sent.** Whatever the addresses are, the extracted string
is not the text that was put into the frame. -/
theorem messageString_ne (hsize : (type ++ colon :: message).length ≤ 247) :
    messageString world rx localAddress serialBuf destination message type ≠
      some (type ++ colon :: message) := by
  intro hsame
  rw [messageString_eq world rx localAddress serialBuf destination message type hsize,
    Option.some_inj] at hsame
  by_cases hzero : destination.node = 0
  · rw [if_pos hzero] at hsame
    exact absurd hsame.symm (by simp)
  · rw [if_neg hzero] at hsame
    -- the text would be NUL-free, and longer than itself
    have hfree : (0 : UInt8) ∉ type ++ colon :: message := by
      rw [← hsame]
      intro hmem
      rcases List.mem_cons.mp hmem with hhead | htail
      · exact hzero hhead.symm
      · exact absurd (List.mem_takeWhile_imp htail) (by decide)
    rw [(ofCString_eq_self_iff _).mpr hfree] at hsame
    have hlength := congrArg List.length hsame
    rw [List.length_cons] at hlength
    exact absurd hlength (Nat.succ_ne_self _)

end Message

/-- The message "hi" to node 10.0.3. -/
theorem messageString_ne_hi :
    (ascii "text" ++ colon :: ascii "hi").length ≤ 247 ∧
      messageString ⟨fun _ => ⟨-1, [], []⟩, []⟩ RxBuffer.boot ⟨10, 0, 1⟩
        (Vector.replicate bufferSize 0)
          ⟨10, 0, 3⟩ (ascii "hi") (ascii "text") ≠ some (ascii "text" ++ colon :: ascii "hi") :=
  ⟨by decide, messageString_ne _ _ _ _ _ _ _ (by decide)⟩

/-- At node 10.0.3 the text begins with a byte 3. -/
theorem hi_is_misread :
    ¬ ∀ (world : World) (rx : RxBuffer) (localAddress : NodeAddress)
        (serialBuf : Vector UInt8 bufferSize) (destination : NodeAddress) (message type : Bytes),
        (0 : UInt8) ∉ message → (type ++ colon :: message).length ≤ 247 →
        messageString world rx localAddress serialBuf destination message type =
          some (type ++ colon :: message) := by
  intro hall
  have hhi := hall ⟨fun _ => ⟨-1, [], []⟩, []⟩ RxBuffer.boot ⟨10, 0, 1⟩
    (Vector.replicate bufferSize 0)
    ⟨10, 0, 3⟩ (ascii "hi") (ascii "text") (by decide) (by decide)
  rw [messageString_eq _ _ _ _ _ _ _ (by decide)] at hhi
  exact absurd hhi (by decide)

end RadioDoge.V3
