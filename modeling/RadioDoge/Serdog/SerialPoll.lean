/-
# The serial poll thread of serdog

`serialPollThread` collects what the radio sends over the serial port in
`rxbuffer` and dispatches the buffer when `isCompleteCmd` accepts it. The length
byte is compared with everything collected so far, so a read that ends behind the
end of a frame hides that frame and every later one. A write behind the end of
`rxbuffer` is undefined behaviour and has no result here.
-/

import RadioDoge.Types
import RadioDoge.Lib.FrameStream

namespace RadioDoge.Serdog

/-- `HDR_LEN`: the kind and the length of a frame. -/
abbrev hdrLen : Nat := 2

/-- The size of `rxbuffer`. -/
abbrev rxbufferSize : Nat := 1024

/-- The command codes that `isCmd` lists. -/
def commands : List SerialCommand :=
  [.addressGet, .addressSet, .pingRequest, .messageRequest, .hardwareInfo, .hostFormedPacket,
    .multipartPacket, .resultCode]

/-- `isCmd`: the command code, or zero. -/
def isCmd (inByte : UInt8) : UInt8 :=
  if inByte ∈ commands.map SerialCommand.code then inByte else 0

/-- `isCompleteCmd`, with the bytes received so far for the buffer and their number:
the length of the payload, or `-1`. -/
def isCompleteCmd (inBuf : Bytes) : Int :=
  match inBuf with
  | kind :: length :: _ =>
      if isCmd kind ≠ 0 ∧ length.toNat = inBuf.length - hdrLen then length.toNat else -1
  | _ => -1

/-- The three ways a complete buffer is processed. -/
inductive Dispatch
  | parseMultipartPayload (payloadPartIn : Bytes)
  | parseHostFormedPacket (payloadIn : Bytes)
  | processCommandPayload (payloadIn : Bytes)
  deriving DecidableEq, Repr

namespace Dispatch

/-- What is handed over. -/
def bytes : Dispatch → Bytes
  | .parseMultipartPayload payload => payload
  | .parseHostFormedPacket payload => payload
  | .processCommandPayload payload => payload

end Dispatch

/-- The branch that the first byte of a complete buffer selects. -/
def dispatch (rxbuffer : Bytes) : Dispatch :=
  if rxbuffer.head? = some SerialCommand.multipartPacket.code then .parseMultipartPayload rxbuffer
  else if rxbuffer.head? = some SerialCommand.hostFormedPacket.code then
    .parseHostFormedPacket rxbuffer
  else .processCommandPayload rxbuffer

/-- The first `totalRxChars` bytes of `rxbuffer`. -/
structure RxBuffer where
  received : Bytes
  room : received.length ≤ rxbufferSize

namespace RxBuffer

/-- `totalRxChars`. -/
def totalRxChars (b : RxBuffer) : Nat := b.received.length

/-- `totalRxChars = 0`. -/
def empty : RxBuffer := ⟨[], Nat.zero_le _⟩

/-- The copy loop: `rxbuffer[totalRxChars] = minibuffer[rc]; totalRxChars++`. -/
def receive (b : RxBuffer) : Bytes → Option RxBuffer
  | [] => some b
  | byte :: rest =>
      if hroom : b.totalRxChars < rxbufferSize then
        receive ⟨b.received ++ [byte], by
          rw [List.length_append]
          exact hroom⟩ rest
      else none

end RxBuffer

/-- One pass of the poll loop. `minibuffer` holds what `read` returned, and nothing
when the poll timed out. -/
def pollStep (b : RxBuffer) (minibuffer : Bytes) : Option (RxBuffer × List Dispatch) :=
  (b.receive minibuffer).map fun b' =>
    if 0 < b'.totalRxChars then
      if 0 ≤ isCompleteCmd b'.received then (RxBuffer.empty, [dispatch b'.received])
      else (b', [])
    else (b', [])

/-- `serialPollThread` over a sequence of reads, with everything it dispatches. -/
def serialPollThread (b : RxBuffer) : List Bytes → Option (RxBuffer × List Dispatch)
  | [] => some (b, [])
  | minibuffer :: rest => do
      let (b', first) ← pollStep b minibuffer
      let (final, later) ← serialPollThread b' rest
      some (final, first ++ later)

/-- A frame as both ends of the serial line build it. -/
def WellFormed (frame : Bytes) : Prop :=
  ∃ kind length payload, frame = kind :: length :: payload ∧ isCmd kind ≠ 0 ∧
    length.toNat = payload.length

/-- The thread dispatches these frames, each once and in order, and never writes
outside `rxbuffer`. -/
def DispatchesExactly (frames reads : List Bytes) : Prop :=
  ∃ final, serialPollThread .empty reads = some (final, frames.map dispatch)

/-! ## The completeness test -/

/-- The completeness test as a predicate on the bytes received. -/
def complete (received : Bytes) : Bool := decide (0 ≤ isCompleteCmd received)

theorem complete_nil : complete [] = false := rfl

theorem complete_cons_cons (kind length : UInt8) (payload : Bytes) :
    complete (kind :: length :: payload) = true ↔
      isCmd kind ≠ 0 ∧ length.toNat = payload.length := by
  have hvalue : isCompleteCmd (kind :: length :: payload) =
      if isCmd kind ≠ 0 ∧ length.toNat = payload.length then (length.toNat : Int) else -1 := rfl
  rw [complete, decide_eq_true_eq, hvalue]
  by_cases haccept : isCmd kind ≠ 0 ∧ length.toNat = payload.length
  · rw [if_pos haccept]
    exact ⟨fun _ => haccept, fun _ => Int.natCast_nonneg _⟩
  · rw [if_neg haccept]
    exact ⟨fun h => absurd h (by decide), fun h => absurd h haccept⟩

/-- Nothing received passes the test. -/
theorem totalRxChars_pos_of_complete {received : Bytes} (h : complete received = true) :
    0 < received.length := by
  cases received with
  | nil => cases h
  | cons byte rest => exact Nat.succ_pos _

/-- A well-formed frame passes the test, and no shorter part of it does. -/
theorem isFrame_of_wellFormed {frame : Bytes} (h : WellFormed frame) :
    FrameStream.IsFrame complete frame := by
  obtain ⟨kind, length, payload, rfl, hkind, hlength⟩ := h
  refine ⟨(complete_cons_cons kind length payload).mpr ⟨hkind, hlength⟩, ?_⟩
  intro part hfront hne
  by_contra hdone
  rw [Bool.not_eq_false] at hdone
  match part, hfront, hne, hdone with
  | [], _, _, hdone => cases hdone
  | [_], _, _, hdone => cases hdone
  | first :: second :: rest, hfront, hne, hdone =>
      obtain ⟨rfl, htail⟩ := List.cons_prefix_cons.mp hfront
      obtain ⟨rfl, hrest⟩ := List.cons_prefix_cons.mp htail
      have hsame : rest.length = payload.length := by
        rw [← hlength, ((complete_cons_cons _ _ rest).mp hdone).2]
      exact hne (by rw [hrest.eq_of_length hsame])

/-- A frame has at most 257 bytes. -/
theorem length_le_of_wellFormed {frame : Bytes} (h : WellFormed frame) :
    frame.length ≤ rxbufferSize := by
  obtain ⟨kind, length, payload, rfl, -, hlength⟩ := h
  have hbyte : length.toNat < 256 := length.toNat_lt
  simp only [List.length_cons, rxbufferSize]
  omega

/-- What is handed over is the frame itself. -/
@[simp]
theorem bytes_dispatch (frame : Bytes) : (dispatch frame).bytes = frame := by
  simp only [dispatch]
  split
  · rfl
  · split
    · rfl
    · rfl

theorem dispatch_injective : Function.Injective dispatch := by
  intro first second h
  have hbytes : (dispatch first).bytes = (dispatch second).bytes := congrArg _ h
  rwa [bytes_dispatch, bytes_dispatch] at hbytes

/-! ## The thread as a reader of frames -/

/-- The copy loop appends the read, if it fits. -/
theorem receive_spec (minibuffer : Bytes) :
    ∀ b : RxBuffer, b.receive minibuffer =
      if hroom : (b.received ++ minibuffer).length ≤ rxbufferSize then
        some ⟨b.received ++ minibuffer, hroom⟩
      else none := by
  induction minibuffer with
  | nil =>
      intro b
      simp only [RxBuffer.receive, List.append_nil, dif_pos b.room]
  | cons byte rest ih =>
      intro b
      by_cases hbyte : b.totalRxChars < rxbufferSize
      · rw [RxBuffer.receive, dif_pos hbyte, ih]
        simp only [List.append_assoc, List.singleton_append]
      · have hover : ¬ (b.received ++ byte :: rest).length ≤ rxbufferSize := by
          simp only [RxBuffer.totalRxChars, List.length_append, List.length_cons] at hbyte ⊢
          omega
        rw [RxBuffer.receive, dif_neg hbyte, dif_neg hover]

/-- One pass of the loop is one read of the frame reader. -/
theorem pollStep_spec (b : RxBuffer) (minibuffer : Bytes) :
    (pollStep b minibuffer).map (fun r => (r.1.received, r.2)) =
      if (b.received ++ minibuffer).length ≤ rxbufferSize then
        some ((FrameStream.feed complete b.received minibuffer).1,
          (FrameStream.feed complete b.received minibuffer).2.map dispatch)
      else none := by
  rw [pollStep, receive_spec]
  by_cases hroom : (b.received ++ minibuffer).length ≤ rxbufferSize
  · rw [dif_pos hroom, if_pos hroom]
    cases hdone : complete (b.received ++ minibuffer) with
    | true =>
        have hsome : 0 < RxBuffer.totalRxChars ⟨b.received ++ minibuffer, hroom⟩ :=
          totalRxChars_pos_of_complete hdone
        have hcmd : 0 ≤ isCompleteCmd (b.received ++ minibuffer) := of_decide_eq_true hdone
        rw [Option.map_some, if_pos hsome, if_pos hcmd, FrameStream.feed, if_pos hdone]
        rfl
    | false =>
        have hcmd : ¬ 0 ≤ isCompleteCmd (b.received ++ minibuffer) := of_decide_eq_false hdone
        rw [Option.map_some, if_neg hcmd, ite_self, FrameStream.feed, hdone]
        rfl
  · rw [dif_neg hroom, if_neg hroom]
    rfl

/-- The thread is the frame reader, as long as no read overruns `rxbuffer`. -/
theorem serialPollThread_spec (reads : List Bytes) :
    ∀ (b : RxBuffer) (dispatched : List Dispatch),
      (∃ final, serialPollThread b reads = some (final, dispatched)) ↔
        FrameStream.Fits complete rxbufferSize b.received reads ∧
          dispatched = (FrameStream.run complete b.received reads).2.map dispatch := by
  induction reads with
  | nil =>
      intro b dispatched
      simp only [serialPollThread, FrameStream.Fits, FrameStream.run, List.map_nil, true_and,
        Option.some.injEq, Prod.mk.injEq, exists_eq_left']
      exact eq_comm
  | cons minibuffer rest ih =>
      intro b dispatched
      have hpass := pollStep_spec b minibuffer
      by_cases hroom : (b.received ++ minibuffer).length ≤ rxbufferSize
      · rw [if_pos hroom] at hpass
        obtain ⟨⟨b', first⟩, hstep, hpair⟩ := Option.map_eq_some_iff.mp hpass
        obtain ⟨hreceived, hfirst⟩ := Prod.mk.inj hpair
        simp only at hreceived hfirst
        rw [FrameStream.run_cons, FrameStream.Fits, ← hreceived, List.map_append, ← hfirst]
        simp only [serialPollThread, hstep, Option.bind_eq_bind, Option.bind_some]
        constructor
        · rintro ⟨final, hrun⟩
          cases hlater : serialPollThread b' rest with
          | none =>
              rw [hlater] at hrun
              cases hrun
          | some result =>
              obtain ⟨final', later⟩ := result
              rw [hlater] at hrun
              obtain ⟨-, rfl⟩ := Prod.mk.inj (Option.some.inj hrun)
              obtain ⟨hfits, rfl⟩ := (ih b' later).mp ⟨final', hlater⟩
              exact ⟨⟨hroom, hfits⟩, rfl⟩
        · rintro ⟨⟨-, hfits⟩, rfl⟩
          obtain ⟨final, hlater⟩ := (ih b' _).mpr ⟨hfits, rfl⟩
          exact ⟨final, by rw [hlater]; rfl⟩
      · rw [if_neg hroom] at hpass
        have hstep : pollStep b minibuffer = none := Option.map_eq_none_iff.mp hpass
        constructor
        · rintro ⟨final, hrun⟩
          rw [serialPollThread, hstep] at hrun
          cases hrun
        · rintro ⟨⟨hfits, -⟩, -⟩
          exact absurd hfits hroom

/-! ## Where read boundaries may fall -/

/-- The thread dispatches a stream of well-formed frames as it should exactly when no
read goes past the end of a frame, that is, when every frame ends where a read
ends. -/
theorem dispatchesExactly_iff {frames reads : List Bytes}
    (hframes : ∀ frame ∈ frames, WellFormed frame) (hreads : reads.flatten = frames.flatten) :
    DispatchesExactly frames reads ↔ FrameStream.EndsAtReads [] frames reads := by
  have hreader := FrameStream.run_eq_iff complete_nil
    (fun frame hmem => isFrame_of_wellFormed (hframes frame hmem))
    (fun frame hmem => length_le_of_wellFormed (hframes frame hmem)) hreads
  calc DispatchesExactly frames reads
      ↔ FrameStream.Fits complete rxbufferSize [] reads ∧
          frames.map dispatch = (FrameStream.run complete [] reads).2.map dispatch :=
        serialPollThread_spec reads .empty _
    _ ↔ (FrameStream.run complete [] reads).2 = frames ∧
          FrameStream.Fits complete rxbufferSize [] reads := by
        rw [(List.map_injective_iff.mpr dispatch_injective).eq_iff, and_comm, eq_comm]
    _ ↔ FrameStream.EndsAtReads [] frames reads := hreader

/-- A ping request to 10.0.1. -/
def pingFrame : Bytes := [3, 3, 10, 0, 1]

theorem wellFormed_pingFrame : WellFormed pingFrame :=
  ⟨3, 3, [10, 0, 1], rfl, by decide, rfl⟩

/-- Two frames, the first cut in the middle of its payload. -/
theorem dispatchesExactly_iff_two_pings :
    DispatchesExactly [pingFrame, pingFrame] [[3, 3, 10], [0, 1], pingFrame] := by
  refine (dispatchesExactly_iff ?_ (by decide)).mpr ?_
  · intro frame hmem
    rw [List.mem_pair, or_self] at hmem
    exact hmem ▸ wellFormed_pingFrame
  · intro i hpos hi
    match i, hpos, hi with
    | 1, _, _ => exact ⟨2, rfl⟩
    | 2, _, _ => exact ⟨3, rfl⟩

/-- Two frames in one read: neither is ever dispatched. -/
theorem glued_frames_not_dispatched :
    ¬ ∀ frames reads : List Bytes, (∀ frame ∈ frames, WellFormed frame) →
      (∀ read ∈ reads, 1 ≤ read.length ∧ read.length ≤ 255) →
      reads.flatten = frames.flatten → DispatchesExactly frames reads := by
  intro h
  obtain ⟨final, hrun⟩ := h [pingFrame, pingFrame] [pingFrame ++ pingFrame]
    (fun frame hmem => by
      rw [List.mem_pair, or_self] at hmem
      exact hmem ▸ wellFormed_pingFrame)
    (by decide) rfl
  have hnothing : (serialPollThread .empty [pingFrame ++ pingFrame]).map Prod.snd = some [] := by
    decide
  rw [hrun] at hnothing
  cases hnothing

end RadioDoge.Serdog
