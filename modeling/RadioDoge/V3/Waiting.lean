/-
# What the node waits for

A broadcast of the web interface is handed to its sender, and the node waits for a
confirmation, whatever the sender has done. `SendMultipartBroadcast` sends nothing of a
text of more than 20 parts, and `SendBroadcast` writes the packet type over the first byte
of the text. `waitingMeansSent_iff` says which runs of the queue wait only for requests
that were transmitted with all of their data.
-/

import RadioDoge.V3.RequestQueue
import RadioDoge.V3.WholeText

namespace RadioDoge.V3

open Pieces

/-! ## What is transmitted for a request -/

/-- The frames that a call of a sender passes to `Radio.Send`. -/
def SenderCall.frames (buffers : SendBuffers) : SenderCall → List Bytes
  | .sendBroadcast message type priority =>
      [FrameCall.frame buffers (.broadcast message type priority)]
  | .sendMultipartBroadcast message type priority =>
      (SendCall.broadcast buffers.localAddress message type priority).sent.val
  | .sendTransaction destination transaction type =>
      [FrameCall.frame buffers (.transaction destination transaction type)]
  | .sendMultipartTransaction destination transaction type =>
      (SendCall.transaction buffers.localAddress destination transaction type).sent.val
  | .sendMessage destination message type =>
      [FrameCall.frame buffers (.message destination message type)]
  | .sendMultipartMessage destination message type =>
      (SendCall.message buffers.localAddress destination message type).sent.val
  | .sendPing destination => [FrameCall.frame buffers (.ping destination)]

namespace PendingRequest

/-- The data of a request, as its sender formats it. -/
def data (req : PendingRequest) : Bytes :=
  match req.type with
  | .broadcast => req.typeStr ++ colon :: (req.priority ++ colon :: req.message)
  | .transaction | .message => req.typeStr ++ colon :: req.message
  | .ping => []

/-- The frames of the request carry its complete data, whatever the buffers held. -/
def Transmitted (req : PendingRequest) : Prop :=
  ∀ buffers : SendBuffers, req.data <:+: carriedText (req.senderCall.frames buffers)

/-- The data of a broadcast fits what it is sent in: 20 parts, or a frame whose first byte is
the code of a broadcast anyway. -/
def Fits (req : PendingRequest) : Prop :=
  if req.isMultipart then
    req.data.length ≤ maxMultipartParts * multipartChunkSize ∧ CopySafe req.data
  else
    req.data.length ≤ 255 ∧ req.data.head? = some MessageType.broadcast.code ∧
      NulsLastFrom 1 req.data

end PendingRequest

/-- What is no longer than a text contains it only if it is the text. -/
theorem infix_iff_of_length_le {text carried : Bytes} (hle : carried.length ≤ text.length) :
    text <:+: carried ↔ carried = text := by
  apply Iff.intro
  · intro hpart
    exact (hpart.eq_of_length (Nat.le_antisymm hpart.length_le hle)).symm
  · intro hsame
    rw [hsame]

/-- A frame of `sendFromStart` has no header. -/
theorem carriedText_sendBroadcast (serialBuf : Vector UInt8 bufferSize)
    (message type priority : Bytes) :
    carriedText [(sendBroadcast serialBuf message type priority).2] =
      MessageType.broadcast.code ::
        (strncpy ((type ++ colon :: (priority ++ colon :: message)).take 255)).tail := by
  have hne : type ++ colon :: (priority ++ colon :: message) ≠ [] := by simp
  rw [carriedText, List.flatMap_singleton, sendBroadcast, frame_sendFromStart _ _ hne]
  rfl

/-- A broadcast in one frame is complete if its first byte is the packet type. -/
theorem single_broadcast_iff {data : Bytes} (hne : data ≠ []) :
    data <:+: MessageType.broadcast.code :: (strncpy (data.take 255)).tail ↔
      data.length ≤ 255 ∧ data.head? = some MessageType.broadcast.code ∧ NulsLastFrom 1 data := by
  have hpos : 0 < data.length := List.length_pos_iff.mpr hne
  have hlength : (MessageType.broadcast.code :: (strncpy (data.take 255)).tail).length =
      min 255 data.length := by
    rw [List.length_cons, List.length_tail, length_strncpy, List.length_take]
    omega
  rw [infix_iff_of_length_le (by rw [hlength]; exact Nat.min_le_right _ _)]
  have hcons : ∀ rest : Bytes, MessageType.broadcast.code :: rest = data ↔
      data.head? = some MessageType.broadcast.code ∧ rest = data.tail := by
    intro rest
    cases data with
    | nil => exact absurd rfl hne
    | cons first later =>
        simp only [List.cons.injEq, List.head?_cons, Option.some.injEq, List.tail_cons]
        exact and_congr_left' eq_comm
  rw [hcons]
  apply Iff.intro
  · intro hframe
    rcases hframe with ⟨hhead, htail⟩
    have hcount := congrArg List.length htail
    rw [List.length_tail, List.length_tail, length_strncpy, List.length_take] at hcount
    have hle : data.length ≤ 255 := by omega
    rw [List.take_of_length_le hle, ← List.drop_one, ← List.drop_one, drop_strncpy_iff] at htail
    exact ⟨hle, hhead, htail⟩
  · intro hfits
    rcases hfits with ⟨hle, hhead, hlast⟩
    refine ⟨hhead, ?_⟩
    rw [List.take_of_length_le hle, ← List.drop_one, ← List.drop_one]
    exact (drop_strncpy_iff 1 data).mpr hlast

/-- A text in parts is complete if there are at most 20, and the copies drop nothing. -/
theorem multipart_broadcast_iff {m : MultipartMessage} (hne : m.text ≠ []) :
    m.text <:+: carriedText (if m.parts ≤ maxMultipartParts then m.frames else []) ↔
      m.text.length ≤ maxMultipartParts * multipartChunkSize ∧ CopySafe m.text := by
  have hcount : m.parts ≤ maxMultipartParts ↔
      m.text.length ≤ maxMultipartParts * multipartChunkSize :=
    pieceCount_le_iff (by decide) maxMultipartParts
  rw [← hcount]
  by_cases hparts : m.parts ≤ maxMultipartParts
  · have hlength : m.carried.length = m.text.length :=
      length_mapPieces (by decide) length_strncpy _
    rw [if_pos hparts, carriedText_frames, infix_iff_of_length_le hlength.le,
      m.carried_eq_text_iff, and_iff_right hparts]
  · rw [if_neg hparts]
    apply iff_of_false
    · intro hinfix
      exact hne (List.eq_nil_of_infix_nil hinfix)
    · exact fun hboth => hparts hboth.1

/-- A broadcast request is transmitted with all of its data exactly if the data fits. -/
theorem transmitted_iff {req : PendingRequest} (htype : req.type = .broadcast) :
    req.Transmitted ↔ req.Fits := by
  have hdata : req.data = req.typeStr ++ colon :: (req.priority ++ colon :: req.message) := by
    rw [PendingRequest.data, htype]
  have hne : req.data ≠ [] := by
    rw [hdata]
    simp
  have hframes : ∀ buffers, req.data <:+: carriedText (req.senderCall.frames buffers) ↔
      req.Fits := by
    intro buffers
    rw [PendingRequest.Fits, PendingRequest.senderCall, htype]
    cases req.isMultipart with
    | true =>
        rw [if_pos rfl]
        have hsent := val_sendMultipartBroadcast buffers.localAddress req.message req.typeStr
          req.priority
        have hmulti := multipart_broadcast_iff (m := ⟨buffers.localAddress, NodeAddress.broadcast,
          2, req.data⟩) hne
        change req.data <:+: carriedText
          (sendMultipartBroadcast buffers.localAddress req.message req.typeStr req.priority).val ↔ _
        rw [← hmulti, hsent, hdata]
    | false =>
        rw [if_neg Bool.false_ne_true, ← single_broadcast_iff hne, hdata]
        exact iff_of_eq (congrArg (_ <:+: ·) (carriedText_sendBroadcast _ _ _ _))
  apply Iff.intro
  · intro hsent
    exact (hframes ⟨⟨0, 0, 0⟩, Vector.replicate controlSize 0, Vector.replicate bufferSize 0⟩).mp
      (hsent _)
  · intro hfits buffers
    exact (hframes buffers).mpr hfits

/-! ## The answers of the web interface -/

/-- The answers of `handleApiBroadcast`. -/
inductive BroadcastReply
  | noMessage
  | queued (queueSize : Nat)
  | queueFull
  | sent
  | notQueued
  deriving DecidableEq, Repr

/-- The text of the field "message", or "error". -/
def BroadcastReply.message : BroadcastReply → Bytes
  | .noMessage => ascii "No broadcast message provided"
  | .queued _ => ascii "Broadcast queued - will be sent when system is available"
  | .queueFull => ascii "Request queue is full - please try again later"
  | .sent => ascii "Broadcast sent to all devices"
  | .notQueued => ascii "Failed to queue broadcast request"

/-- `handleApiBroadcast` with its answer. -/
def answerApiBroadcast (clock : ApiClock) (message type priority : Option Bytes) (depth : Nat)
    (q : RequestQueue) : Option (RequestQueue × List QueueEntry × BroadcastReply) :=
  match message with
  | none => some (q, [], .noMessage)
  | some message => do
      let type := type.getD (ascii "announcement")
      let priority := priority.getD (ascii "normal")
      if q.currentRequestState ≠ .idle then
        match queueRequest clock .broadcast message type priority ⟨0, 0, 0⟩ true q with
        | some (queued, req) => pure (queued, [.joined req], .queued queued.pending.count)
        | none => pure (q, [], .queueFull)
      else
        match queueRequest clock .broadcast message type priority ⟨0, 0, 0⟩ true q with
        | some (queued, req) => do
            let (q, dispatched) ← processNextQueuedRequest clock.sent depth queued
            pure (q, .joined req :: dispatched, .sent)
        | none => pure (q, [], .notQueued)

/-- Without its answer it is `handleApiBroadcast`. -/
theorem answerApiBroadcast_eq (clock : ApiClock) (message type priority : Option Bytes)
    (depth : Nat) (q : RequestQueue) :
    (answerApiBroadcast clock message type priority depth q).map (fun answer =>
      (answer.1, answer.2.1)) = handleApiBroadcast clock message type priority depth q := by
  cases message with
  | none => rfl
  | some message =>
      simp only [answerApiBroadcast, handleApiBroadcast]
      by_cases hidle : q.currentRequestState = .idle
      · rw [if_neg (not_not.mpr hidle)]
        cases queueRequest clock .broadcast message (type.getD (ascii "announcement"))
            (priority.getD (ascii "normal")) ⟨0, 0, 0⟩ true q with
        | none => rfl
        | some pair =>
            simp only [ne_eq, hidle, not_true_eq_false, if_false]
            cases processNextQueuedRequest clock.sent depth pair.1 with
            | none => rfl
            | some result => rfl
      · rw [if_pos hidle]
        cases queueRequest clock .broadcast message (type.getD (ascii "announcement"))
            (priority.getD (ascii "normal")) ⟨0, 0, 0⟩ true q with
        | none => rfl
        | some pair =>
            simp only [ne_eq, hidle, not_false_eq_true, if_true]
            rfl

/-! ## What a step hands over -/

/-- The request that an event makes the node hand to a sender. -/
def RequestQueue.handover (q : RequestQueue) : QueueInput → Option PendingRequest
  | .api clock (some message) type priority =>
      if q.currentRequestState = .idle then
        some (newRequest clock .broadcast message (type.getD (ascii "announcement"))
          (priority.getD (ascii "normal")) ⟨0, 0, 0⟩ true (q.requestIdCounter + 1))
      else none
  | .api _ none _ _ => none
  | .confirmation _ _ =>
      if q.currentRequestState = .waitingForConfirmation then q.pending.live.head? else none
  | .check currentTime _ =>
      if q.currentRequestState = .waitingForConfirmation ∧
          currentTime - q.confirmationStartTime > confirmationTimeoutMs then
        q.pending.live.head?
      else none

/-- A dispatch hands the head over, and the node waits. -/
theorem served_dispatched (sent : UInt32) (q : RequestQueue) :
    Ledger.served (q.dispatched sent).2 = q.pending.live.head?.toList ∧
      (q.pending.live.head? ≠ none →
        (q.dispatched sent).1.currentRequestState = .waitingForConfirmation) := by
  rw [RequestQueue.dispatched]
  cases q.pending.live with
  | nil => exact ⟨rfl, fun hsome => absurd rfl hsome⟩
  | cons req rest => exact ⟨rfl, fun _ => rfl⟩

section Step

variable {q next : RequestQueue} {log entries : List QueueEntry} {depth : Nat}

/-- A call while the node is idle: the request is accepted and handed over. -/
theorem handleApiBroadcast_idle (depth : Nat) (h : QueueSound q log)
    (hidle : q.currentRequestState = .idle) (clock : ApiClock) (message : Bytes)
    (type priority : Option Bytes) :
    ∃ queued req,
      q.handover (.api clock (some message) type priority) = some req ∧
      queueRequest clock .broadcast message (type.getD (ascii "announcement"))
          (priority.getD (ascii "normal")) ⟨0, 0, 0⟩ true q = some (queued, req) ∧
      processNextQueuedRequest clock.sent (depth + 1) queued = some (queued.dispatched clock.sent) ∧
      queued.pending.live = [req] := by
  have hempty := h.idle_empty hidle
  have hroom : q.pending.count < maxPendingRequests := by
    rw [(SlotTable.live_eq_nil_iff q.pending).mp hempty]
    decide
  let req := newRequest clock .broadcast message (type.getD (ascii "announcement"))
    (priority.getD (ascii "normal")) ⟨0, 0, 0⟩ true (q.requestIdCounter + 1)
  let queued : RequestQueue :=
    { q with
      pending := q.pending.openSlot hroom fun _ => req
      requestIdCounter := q.requestIdCounter + 1 }
  have hlive : queued.pending.live = [req] := by
    rw [SlotTable.live_openSlot, hempty]
    rfl
  have hqueued : queued.currentRequestState = .idle := hidle
  refine ⟨queued, req, if_pos hidle, dif_pos hroom, ?_, hlive⟩
  apply processNextQueuedRequest_idle clock.sent depth hqueued
  intro other hother
  rw [hlive] at hother
  rw [List.mem_singleton.mp hother]
  rfl

/-- A node that stops waiting hands the head over. -/
theorem processNextQueuedRequest_freed (depth : Nat) (h : QueueSound q log) (sent : UInt32) :
    processNextQueuedRequest sent (depth + 1) { q with currentRequestState := .idle } =
      some (RequestQueue.dispatched sent { q with currentRequestState := .idle }) :=
  processNextQueuedRequest_idle sent depth rfl h.kept.confirming

/-- What an event hands over is served, and then the node waits. -/
def ServesHandover (q : RequestQueue) (input : QueueInput) (next : RequestQueue)
    (entries : List QueueEntry) : Prop :=
  Ledger.served entries = (q.handover input).toList ∧
    (q.handover input ≠ none → next.currentRequestState = .waitingForConfirmation)

theorem servesHandover_of_none {input : QueueInput} (hnone : q.handover input = none)
    (hserved : Ledger.served entries = []) : ServesHandover q input next entries := by
  rw [ServesHandover, hnone]
  exact ⟨hserved, fun hsome => absurd rfl hsome⟩

/-- A call that finds the node busy is queued or refused. -/
theorem servesHandover_api_busy (hbusy : q.currentRequestState ≠ .idle) (clock : ApiClock)
    (message : Bytes) (type priority : Option Bytes)
    (hstep : handleApiBroadcast clock (some message) type priority (depth + 1) q =
      some (next, entries)) :
    ServesHandover q (.api clock (some message) type priority) next entries := by
  have hnone : q.handover (.api clock (some message) type priority) = none := if_neg hbusy
  apply servesHandover_of_none hnone
  simp only [handleApiBroadcast, ne_eq, hbusy, not_false_eq_true, if_true] at hstep
  cases hqueue : queueRequest clock .broadcast message (type.getD (ascii "announcement"))
      (priority.getD (ascii "normal")) ⟨0, 0, 0⟩ true q with
  | none =>
      rw [hqueue] at hstep
      rcases Option.some.inj hstep with ⟨rfl, rfl⟩
      rfl
  | some pair =>
      rw [hqueue] at hstep
      rcases Option.some.inj hstep with ⟨rfl, rfl⟩
      rfl

theorem servesHandover_api (h : QueueSound q log) (clock : ApiClock)
    (message type priority : Option Bytes)
    (hstep : handleApiBroadcast clock message type priority (depth + 1) q =
      some (next, entries)) :
    ServesHandover q (.api clock message type priority) next entries := by
  cases message with
  | none =>
      rcases Option.some.inj hstep with ⟨rfl, rfl⟩
      exact servesHandover_of_none rfl rfl
  | some message =>
      by_cases hidle : q.currentRequestState = .idle
      · rcases handleApiBroadcast_idle depth h hidle clock message type priority with
          ⟨queued, req, hreq, hqueue, hnext, hlive⟩
        simp only [handleApiBroadcast, hqueue, ne_eq, hidle, not_true_eq_false, if_false, hnext,
          Option.bind_eq_bind, Option.bind_some] at hstep
        rcases Option.some.inj hstep with ⟨rfl, rfl⟩
        have hserved := served_dispatched clock.sent queued
        rw [hlive] at hserved
        rw [ServesHandover, hreq]
        exact ⟨hserved.1, fun _ => hserved.2 (Option.some_ne_none req)⟩
      · exact servesHandover_api_busy hidle clock message type priority hstep

theorem servesHandover_confirmation (h : QueueSound q log) (data : Bytes) (sent : UInt32)
    (hstep : handleConfirmationReceived data sent (depth + 1) q = some (next, entries)) :
    ServesHandover q (.confirmation data sent) next entries := by
  rw [handleConfirmationReceived] at hstep
  by_cases hwait : q.currentRequestState = .waitingForConfirmation
  · rw [if_pos hwait] at hstep
    have heq := (processNextQueuedRequest_freed depth h sent).symm.trans hstep
    have hserved := served_dispatched sent { q with currentRequestState := .idle }
    rw [Option.some.inj heq] at hserved
    rw [ServesHandover, RequestQueue.handover, if_pos hwait]
    exact hserved
  · rw [if_neg hwait] at hstep
    rcases Option.some.inj hstep with ⟨rfl, rfl⟩
    exact servesHandover_of_none (if_neg hwait) rfl

theorem servesHandover_check (h : QueueSound q log) (currentTime sent : UInt32)
    (hstep : checkRequestTimeouts currentTime sent (depth + 1) q = some (next, entries)) :
    ServesHandover q (.check currentTime sent) next entries := by
  rw [checkRequestTimeouts] at hstep
  by_cases hgiveUp : q.currentRequestState = .waitingForConfirmation ∧
      currentTime - q.confirmationStartTime > confirmationTimeoutMs
  · rw [if_pos hgiveUp, processNextQueuedRequest_freed depth h sent] at hstep
    rcases Option.some.inj hstep with ⟨rfl, rfl⟩
    rw [ServesHandover, RequestQueue.handover, if_pos hgiveUp, Ledger.served_append,
      Ledger.served_map_dropped, List.append_nil]
    exact served_dispatched sent { q with currentRequestState := .idle }
  · rw [if_neg hgiveUp] at hstep
    rcases Option.some.inj hstep with ⟨rfl, rfl⟩
    have hnone : q.handover (.check currentTime sent) = none := if_neg hgiveUp
    apply servesHandover_of_none hnone
    rw [Ledger.served_append, Ledger.served_map_dropped]
    rfl

/-- One event serves what it hands over, and waits for it. -/
theorem served_step (h : QueueSound q log) (input : QueueInput)
    (hstep : q.step (depth + 1) input = some (next, entries)) :
    ServesHandover q input next entries := by
  cases input with
  | api clock message type priority => exact servesHandover_api h clock message type priority hstep
  | confirmation data sent => exact servesHandover_confirmation h data sent hstep
  | check currentTime sent => exact servesHandover_check h currentTime sent hstep

end Step

/-! ## Runs -/

/-- The node waits for the request that it has handed over last, and that one was
transmitted. -/
def WaitsForTransmitted (q : RequestQueue) (log : List QueueEntry) : Prop :=
  ∃ req, (Ledger.served log).getLast? = some req ∧ q.currentRequestId = req.requestId ∧
    req.Transmitted

/-- Whenever a run waits, the request was transmitted, and only then a call is answered with
"Broadcast sent to all devices". -/
structure WaitingMeansSent (depth : Nat) (inputs : List QueueInput) : Prop where
  waiting : ∀ k q log, RequestQueue.boot.run (depth + 1) (inputs.take k) = some (q, log) →
    q.currentRequestState = .waitingForConfirmation → WaitsForTransmitted q log
  answered : ∀ k q log clock message type priority next entries reply,
    RequestQueue.boot.run (depth + 1) (inputs.take k) = some (q, log) →
    inputs[k]? = some (.api clock message type priority) →
    answerApiBroadcast clock message type priority (depth + 1) q = some (next, entries, reply) →
    reply.message = ascii "Broadcast sent to all devices" →
    next.currentRequestState = .waitingForConfirmation ∧ WaitsForTransmitted next (log ++ entries)

/-- The requests that the events of a run hand over fit. -/
def HandoversFit (depth : Nat) (inputs : List QueueInput) : Prop :=
  ∀ k q log input req, RequestQueue.boot.run (depth + 1) (inputs.take k) = some (q, log) →
    inputs[k]? = some input → q.handover input = some req → req.Fits

/-- A run with one more event. -/
theorem run_concat (depth : Nat) (input : QueueInput) (inputs : List QueueInput) :
    ∀ q : RequestQueue, q.run depth (inputs ++ [input]) =
      (q.run depth inputs).bind fun before => (before.1.step depth input).map fun after =>
        (after.1, before.2 ++ after.2) := by
  induction inputs with
  | nil =>
      intro q
      simp only [List.nil_append, RequestQueue.run, Option.bind_eq_bind, Option.bind_some]
      cases q.step depth input with
      | none => rfl
      | some after => exact congrArg (fun log => some (after.1, log)) (List.append_nil _)
  | cons first rest ih =>
      intro q
      simp only [List.cons_append, RequestQueue.run, Option.bind_eq_bind]
      cases q.step depth first with
      | none => rfl
      | some middle =>
          simp only [Option.bind_some, ih]
          cases middle.1.run depth rest with
          | none => rfl
          | some before =>
              simp only [Option.pure_def, Option.bind_some]
              cases before.1.step depth input with
              | none => rfl
              | some after =>
                  exact congrArg (fun log => some (after.1, log)) (List.append_assoc _ _ _).symm

section Run

variable {depth : Nat} {inputs : List QueueInput} {k : Nat} {q : RequestQueue}
  {log : List QueueEntry}

/-- A run keeps the queue sound. -/
theorem queueSound_run (hrun : RequestQueue.boot.run (depth + 1) inputs = some (q, log)) :
    QueueSound q log := by
  rcases run_spec depth inputs _ _ queueSound_boot with ⟨q', entries, hrun', hsound, -⟩
  rw [hrun] at hrun'
  rcases Option.some.inj hrun' with ⟨rfl, rfl⟩
  exact hsound

/-- The next event of a run. -/
theorem run_next (hrun : RequestQueue.boot.run (depth + 1) (inputs.take k) = some (q, log))
    {input : QueueInput} (hinput : inputs[k]? = some input) :
    ∃ next entries, q.step (depth + 1) input = some (next, entries) ∧
      RequestQueue.boot.run (depth + 1) (inputs.take (k + 1)) = some (next, log ++ entries) := by
  rcases step_spec (queueSound_run hrun) depth input with ⟨next, entries, hstep, -, -⟩
  refine ⟨next, entries, hstep, ?_⟩
  rw [List.take_add_one, hinput, Option.toList_some, run_concat, hrun, Option.bind_some, hstep]
  rfl

/-- What a sound queue waits for is a broadcast that was handed over. -/
theorem waitsForTransmitted (h : QueueSound q log)
    (hwait : q.currentRequestState = .waitingForConfirmation)
    (hserved : ∀ req ∈ Ledger.served log, req.Fits) : WaitsForTransmitted q log := by
  rcases h.current hwait with ⟨req, hlast, hcurrent⟩
  have hmem := List.mem_of_getLast? hlast
  have horder : (Ledger.served log).Sublist (Ledger.joined log) :=
    (List.sublist_append_left _ _).trans h.kept.balanced.order
  have htype := h.kept.broadcasts req (horder.subset hmem)
  exact ⟨req, hlast, hcurrent, (transmitted_iff htype).mpr (hserved req hmem)⟩

/-- If all handovers of a run fit, everything that it has served fits. -/
theorem served_fits (hfits : HandoversFit depth inputs)
    (hrun : RequestQueue.boot.run (depth + 1) (inputs.take k) = some (q, log)) :
    ∀ req ∈ Ledger.served log, req.Fits := by
  induction k generalizing q log with
  | zero =>
      rcases Option.some.inj hrun with ⟨rfl, rfl⟩
      exact fun req hreq => absurd hreq List.not_mem_nil
  | succ k ih =>
      rcases run_spec depth (inputs.take k) _ _ queueSound_boot with
        ⟨before, earlier, hbefore, -, -⟩
      have hold := ih hbefore
      cases hinput : inputs[k]? with
      | none =>
          rw [List.take_add_one, hinput, Option.toList_none, List.append_nil, hbefore] at hrun
          rcases Option.some.inj hrun with ⟨rfl, rfl⟩
          exact hold
      | some input =>
          rcases run_next hbefore hinput with ⟨next, entries, hstep, hnext⟩
          rw [hnext] at hrun
          rcases Option.some.inj hrun with ⟨rfl, rfl⟩
          have hserved := (served_step (queueSound_run hbefore) input hstep).1
          intro req hreq
          rw [Ledger.served_append, hserved] at hreq
          rcases List.mem_append.mp hreq with hthere | hhere
          · exact hold req hthere
          · exact hfits k before earlier input req hbefore hinput (Option.mem_toList.mp hhere)

/-- A call that is answered with "sent" has found the node idle. -/
theorem handover_of_sent {clock : ApiClock} {message type priority : Option Bytes}
    {next : RequestQueue} {entries : List QueueEntry} {reply : BroadcastReply}
    (h : QueueSound q log)
    (hanswer : answerApiBroadcast clock message type priority (depth + 1) q =
      some (next, entries, reply))
    (hreply : reply.message = ascii "Broadcast sent to all devices") :
    q.handover (.api clock message type priority) ≠ none := by
  have hsent : reply = .sent := by
    cases reply with
    | sent => rfl
    | noMessage => exact absurd hreply (by decide)
    | queued size =>
        exact absurd (show BroadcastReply.message (.queued 0) = _ from hreply) (by decide)
    | queueFull => exact absurd hreply (by decide)
    | notQueued => exact absurd hreply (by decide)
  cases message with
  | none =>
      rcases Option.some.inj hanswer with ⟨-, -, rfl⟩
      cases hsent
  | some message =>
      by_cases hidle : q.currentRequestState = .idle
      · rcases handleApiBroadcast_idle depth h hidle clock message type priority with
          ⟨queued, req, hreq, -⟩
        rw [hreq]
        exact Option.some_ne_none req
      · rw [answerApiBroadcast] at hanswer
        simp only [ne_eq, hidle, not_false_eq_true, if_true] at hanswer
        cases hqueue : queueRequest clock .broadcast message (type.getD (ascii "announcement"))
            (priority.getD (ascii "normal")) ⟨0, 0, 0⟩ true q with
        | none =>
            rw [hqueue] at hanswer
            rcases Option.some.inj hanswer with ⟨-, -, rfl⟩
            cases hsent
        | some pair =>
            rw [hqueue] at hanswer
            rcases Option.some.inj hanswer with ⟨-, -, rfl⟩
            cases hsent

/-- A state of a run that waits, when all handovers fit. -/
theorem waits_of_handoversFit (hfits : HandoversFit depth inputs)
    (hrun : RequestQueue.boot.run (depth + 1) (inputs.take k) = some (q, log))
    (hwait : q.currentRequestState = .waitingForConfirmation) : WaitsForTransmitted q log :=
  waitsForTransmitted (queueSound_run hrun) hwait (served_fits hfits hrun)

/-- A handover makes the node wait for the request that was handed over. -/
theorem last_of_handover
    (hrun : RequestQueue.boot.run (depth + 1) (inputs.take k) = some (q, log))
    {input : QueueInput} (hinput : inputs[k]? = some input) {req : PendingRequest}
    (hreq : q.handover input = some req) :
    req.type = .broadcast ∧ ∃ next later,
      RequestQueue.boot.run (depth + 1) (inputs.take (k + 1)) = some (next, later) ∧
      next.currentRequestState = .waitingForConfirmation ∧
      (Ledger.served later).getLast? = some req := by
  rcases run_next hrun hinput with ⟨next, entries, hstep, hnext⟩
  rcases served_step (queueSound_run hrun) input hstep with ⟨hserved, hwait⟩
  have hlast : (Ledger.served (log ++ entries)).getLast? = some req := by
    rw [Ledger.served_append, hserved, hreq, Option.toList_some, List.getLast?_concat]
  have hkept := (queueSound_run hnext).kept
  have horder : (Ledger.served (log ++ entries)).Sublist (Ledger.joined (log ++ entries)) :=
    (List.sublist_append_left _ _).trans hkept.balanced.order
  refine ⟨hkept.broadcasts req (horder.subset (List.mem_of_getLast? hlast)), next, _, hnext, ?_,
    hlast⟩
  apply hwait
  rw [hreq]
  exact Option.some_ne_none req

end Run

/-- **Waiting means transmitted.** A run waits only for requests that were transmitted with
all of their data exactly if every request that it hands over fits. -/
theorem waitingMeansSent_iff (depth : Nat) (inputs : List QueueInput) :
    WaitingMeansSent depth inputs ↔ HandoversFit depth inputs := by
  apply Iff.intro
  · intro hsent k q log input req hrun hinput hreq
    rcases last_of_handover hrun hinput hreq with ⟨htype, next, later, hnext, hwait, hlast⟩
    rcases hsent.waiting (k + 1) next later hnext hwait with ⟨other, hother, -, htransmitted⟩
    rw [hlast] at hother
    rcases Option.some.inj hother with rfl
    exact (transmitted_iff htype).mp htransmitted
  · intro hfits
    refine ⟨fun k q log hrun hwait => waits_of_handoversFit hfits hrun hwait, ?_⟩
    intro k q log clock message type priority next entries reply hrun hinput hanswer hreply
    have hsome := handover_of_sent (queueSound_run hrun) hanswer hreply
    rcases run_next hrun hinput with ⟨next', entries', hstep, hnext⟩
    have hsame := answerApiBroadcast_eq clock message type priority (depth + 1) q
    rw [hanswer, Option.map_some] at hsame
    rcases Option.some.inj (hsame.trans hstep) with ⟨rfl, rfl⟩
    have hwait := (served_step (queueSound_run hrun) _ hstep).2 hsome
    exact ⟨hwait, waits_of_handoversFit hfits hnext hwait⟩

/-- A call with a message and nothing else. -/
def announcement (message : Bytes) : QueueInput := .api ⟨0, 0, 0⟩ (some message) none none

/-- Its request, when it is the first one. -/
def announcementRequest (message : Bytes) : PendingRequest :=
  newRequest ⟨0, 0, 0⟩ .broadcast message (ascii "announcement") (ascii "normal") ⟨0, 0, 0⟩ true 1

/-- A message of 3981 bytes makes a text of 4001. -/
theorem not_fits_announcement {message : Bytes} (hmessage : message.length = 3981) :
    ¬ (announcementRequest message).Fits := by
  have hlength : (announcementRequest message).data.length = 4001 := by
    have htype : (ascii "announcement").length = 12 := by decide
    have hpriority : (ascii "normal").length = 6 := by decide
    simp only [announcementRequest, newRequest, PendingRequest.data, List.length_append,
      List.length_cons, hmessage, htype, hpriority]
  have hmulti : (announcementRequest message).isMultipart = true := by
    apply decide_eq_true
    change 255 < (announcementRequest message).data.length
    rw [hlength]
    decide
  intro hfits
  rw [PendingRequest.Fits, hmulti, if_pos rfl, hlength] at hfits
  exact absurd hfits.1 (by decide)

/-- Nothing is sent of a message of 3981 letters, and the node waits for its confirmation. -/
theorem long_announcement_is_waited_for :
    ¬ ∀ (depth : Nat) (inputs : List QueueInput), WaitingMeansSent depth inputs := by
  intro hall
  rcases (⟨List.replicate 3981 65, List.length_replicate⟩ :
    ∃ message : Bytes, message.length = 3981) with ⟨message, hmessage⟩
  have hreq : RequestQueue.boot.handover (announcement message) =
      some (announcementRequest message) := rfl
  have hstart : RequestQueue.boot.run (0 + 1) ([announcement message].take 0) =
      some (RequestQueue.boot, []) := rfl
  rcases last_of_handover hstart rfl hreq with ⟨htype, next, later, hnext, hwait, hlast⟩
  rcases (hall 0 [announcement message]).waiting 1 next later hnext hwait with
    ⟨req, hother, -, htransmitted⟩
  rw [hlast] at hother
  rcases Option.some.inj hother with rfl
  exact not_fits_announcement hmessage ((transmitted_iff htype).mp htransmitted)

end RadioDoge.V3
