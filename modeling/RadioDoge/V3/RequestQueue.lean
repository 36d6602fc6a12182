/-
# The request queue of the v3 firmware

Broadcasts requested over the web interface wait in a queue of ten. One request
at a time is handed to its sender, and the next one only when the confirmation
of the first has arrived or has been given up after 15 seconds. Requests that
have waited for more than 30 seconds are dropped.

`ProcessNextQueuedRequest` and the `Process*Request` functions call each other:
a request that needs no confirmation calls back before it has been removed from
slot 0. The number of nested calls is bounded by `depth`; `none` means that the
stack is exhausted. Only `handleApiBroadcast` fills the queue, and its requests
all need a confirmation, so one level is enough on every run (`run_spec`).
-/

import RadioDoge.V3.Senders
import RadioDoge.V3.MultipartSend
import RadioDoge.Lib.Ledger

namespace RadioDoge.V3

/-- `MAX_PENDING_REQUESTS`. -/
abbrev maxPendingRequests : Nat := 10

/-- `CONFIRMATION_TIMEOUT_MS`. -/
abbrev confirmationTimeoutMs : UInt32 := 15000

/-- `REQUEST_TIMEOUT_MS`. -/
abbrev requestTimeoutMs : UInt32 := 30000

/-- `enum RequestType`. -/
inductive RequestType
  | broadcast
  | transaction
  | message
  | ping
  deriving DecidableEq, Repr

/-- `enum RequestState`. -/
inductive RequestState
  | idle
  | waitingForConfirmation
  | processingQueue
  | timeout
  deriving DecidableEq, Repr

/-- `struct PendingRequest`. -/
structure PendingRequest where
  type : RequestType
  message : Bytes
  typeStr : Bytes
  priority : Bytes
  destination : NodeAddress
  timestamp : UInt32
  isMultipart : Bool
  requiresConfirmation : Bool
  requestId : Bytes
  deriving DecidableEq, Repr

instance : Inhabited PendingRequest where
  default := ⟨.broadcast, [], [], [], ⟨0, 0, 0⟩, 0, false, false, []⟩

/-- A call of a sender. -/
inductive SenderCall
  | sendBroadcast (message type priority : Bytes)
  | sendMultipartBroadcast (message type priority : Bytes)
  | sendTransaction (destination : NodeAddress) (transaction type : Bytes)
  | sendMultipartTransaction (destination : NodeAddress) (transaction type : Bytes)
  | sendMessage (destination : NodeAddress) (message type : Bytes)
  | sendMultipartMessage (destination : NodeAddress) (message type : Bytes)
  | sendPing (destination : NodeAddress)
  deriving DecidableEq, Repr

/-- The call that `ProcessBroadcastRequest`, `ProcessTransactionRequest`,
`ProcessMessageRequest` or `ProcessPingRequest` makes for a request. -/
def PendingRequest.senderCall (req : PendingRequest) : SenderCall :=
  match req.type, req.isMultipart with
  | .broadcast, true => .sendMultipartBroadcast req.message req.typeStr req.priority
  | .broadcast, false => .sendBroadcast req.message req.typeStr req.priority
  | .transaction, true => .sendMultipartTransaction req.destination req.message req.typeStr
  | .transaction, false => .sendTransaction req.destination req.message req.typeStr
  | .message, true => .sendMultipartMessage req.destination req.message req.typeStr
  | .message, false => .sendMessage req.destination req.message req.typeStr
  | .ping, _ => .sendPing req.destination

/-- What the functions of the queue log: a request was queued, was handed to its
sender, or was removed as expired by a check at some time. -/
abbrev QueueEntry := Ledger.Entry PendingRequest UInt32

/-- The globals of the request queue. -/
structure RequestQueue where
  currentRequestState : RequestState
  /-- `pendingRequests` and `pendingRequestCount`. -/
  pending : SlotTable PendingRequest maxPendingRequests
  confirmationStartTime : UInt32
  currentRequestId : Bytes
  /-- An `int`, which would overflow behind 2147483647 requests. -/
  requestIdCounter : Nat

namespace RequestQueue

/-- The queue after a reset. -/
def boot : RequestQueue :=
  ⟨.idle, SlotTable.empty (Vector.replicate maxPendingRequests default), 0, [], 0⟩

end RequestQueue

/-- The text built by `GenerateRequestId`. -/
def generateRequestId (millis : UInt32) (counter : Nat) : Bytes :=
  ascii ("req_" ++ toString millis.toNat ++ "_" ++ toString counter)

/-- The successive values of `millis()` in one call of `handleApiBroadcast`. -/
structure ApiClock where
  queued : UInt32
  identified : UInt32
  sent : UInt32
  deriving DecidableEq, Repr

/-- The request that `QueueRequest` stores. A text that does not fit one frame is
marked for the multipart sender. -/
def newRequest (clock : ApiClock) (type : RequestType) (message typeStr priority : Bytes)
    (destination : NodeAddress) (requiresConfirmation : Bool) (requestIdCounter : Nat) :
    PendingRequest :=
  let testData := typeStr ++ colon :: (priority ++ colon :: message)
  { type := type
    message := message
    typeStr := typeStr
    priority := priority
    destination := destination
    timestamp := clock.queued
    isMultipart := testData.length > 255
    requiresConfirmation := requiresConfirmation
    requestId := generateRequestId clock.identified requestIdCounter }

/-- `QueueRequest`: the queue with the request in it, and the request; `none` when
the queue is full. -/
def queueRequest (clock : ApiClock) (type : RequestType) (message typeStr priority : Bytes)
    (destination : NodeAddress) (requiresConfirmation : Bool) (q : RequestQueue) :
    Option (RequestQueue × PendingRequest) :=
  if room : q.pending.count < maxPendingRequests then
    let requestIdCounter := q.requestIdCounter + 1
    let req := newRequest clock type message typeStr priority destination requiresConfirmation
      requestIdCounter
    some ({ q with
      pending := q.pending.openSlot room fun _ => req
      requestIdCounter := requestIdCounter }, req)
  else none

/-- `ProcessNextQueuedRequest` with the `Process*Request` functions, which differ
only in the sender they call. `sent` is `millis()` after the transmission. -/
def processNextQueuedRequest (sent : UInt32) :
    Nat → RequestQueue → Option (RequestQueue × List QueueEntry)
  | 0, _ => none
  | depth + 1, q =>
      if q.pending.count = 0 then some ({ q with currentRequestState := .idle }, [])
      else if q.currentRequestState ≠ .idle then some (q, [])
      else do
        let req := q.pending.slots[0]?.getD default
        let q := { q with currentRequestId := req.requestId }
        let (q, later) ←
          if req.requiresConfirmation then
            pure ({ q with
              currentRequestState := .waitingForConfirmation
              confirmationStartTime := sent }, [])
          else processNextQueuedRequest sent depth q
        pure ({ q with pending := q.pending.removeAt 0 }, .served req :: later)

/-- `CheckRequestTimeouts`. `currentTime` is read once, before a dispatch. -/
def checkRequestTimeouts (currentTime sent : UInt32) (depth : Nat) (q : RequestQueue) :
    Option (RequestQueue × List QueueEntry) := do
  let (q, dispatched) ←
    if q.currentRequestState = .waitingForConfirmation ∧
        currentTime - q.confirmationStartTime > confirmationTimeoutMs then
      processNextQueuedRequest sent depth { q with currentRequestState := .idle }
    else pure (q, [])
  let expired (req : PendingRequest) : Bool := currentTime - req.timestamp > requestTimeoutMs
  -- the loop runs from the last slot down and logs each removal
  let removed := (q.pending.live.filter expired).reverse
  pure ({ q with pending := q.pending.sweep expired },
    dispatched ++ removed.map fun req => .dropped req currentTime)

/-- `HandleConfirmationReceived`. The confirmation is logged and not looked at. -/
def handleConfirmationReceived (_confirmationData : Bytes) (sent : UInt32) (depth : Nat)
    (q : RequestQueue) : Option (RequestQueue × List QueueEntry) :=
  if q.currentRequestState = .waitingForConfirmation then
    processNextQueuedRequest sent depth { q with currentRequestState := .idle }
  else some (q, [])

/-- `handleApiBroadcast` on the arguments of the web request. -/
def handleApiBroadcast (clock : ApiClock) (message type priority : Option Bytes) (depth : Nat)
    (q : RequestQueue) : Option (RequestQueue × List QueueEntry) :=
  match message with
  | none => some (q, [])
  | some message => do
      let type := type.getD (ascii "announcement")
      let priority := priority.getD (ascii "normal")
      match queueRequest clock .broadcast message type priority ⟨0, 0, 0⟩ true q with
      | none => pure (q, [])
      | some (queued, req) =>
          if q.currentRequestState ≠ .idle then pure (queued, [.joined req])
          else do
            let (q, dispatched) ← processNextQueuedRequest clock.sent depth queued
            pure (q, .joined req :: dispatched)

/-! ## The queue as a state machine -/

/-- What happens to the queue. -/
inductive QueueInput
  | api (clock : ApiClock) (message type priority : Option Bytes)
  | confirmation (data : Bytes) (sent : UInt32)
  | check (currentTime sent : UInt32)
  deriving DecidableEq, Repr

namespace RequestQueue

/-- One event. -/
def step (depth : Nat) (q : RequestQueue) : QueueInput → Option (RequestQueue × List QueueEntry)
  | .api clock message type priority => handleApiBroadcast clock message type priority depth q
  | .confirmation data sent => handleConfirmationReceived data sent depth q
  | .check currentTime sent => checkRequestTimeouts currentTime sent depth q

/-- A run, with everything it logs, oldest first. -/
def run (depth : Nat) (q : RequestQueue) :
    List QueueInput → Option (RequestQueue × List QueueEntry)
  | [] => some (q, [])
  | input :: rest => do
      let (q, first) ← q.step depth input
      let (q, later) ← q.run depth rest
      pure (q, first ++ later)

end RequestQueue

/-! ## Dispatch -/

/-- The request of the head is handed over and the node waits; an empty queue
leaves the node idle. -/
def RequestQueue.dispatched (sent : UInt32) (q : RequestQueue) : RequestQueue × List QueueEntry :=
  match q.pending.live with
  | [] => ({ q with currentRequestState := .idle }, [])
  | req :: _ =>
      ({ q with
        currentRequestState := .waitingForConfirmation
        confirmationStartTime := sent
        currentRequestId := req.requestId
        pending := q.pending.removeAt 0 }, [.served req])

theorem RequestQueue.dropped_dispatched (sent : UInt32) (q : RequestQueue) :
    Ledger.dropped (q.dispatched sent).2 = [] := by
  simp only [RequestQueue.dispatched]
  cases q.pending.live with
  | nil => rfl
  | cons req rest => rfl

/-- One level of calls is enough for an idle node whose requests need
confirmation. -/
theorem processNextQueuedRequest_idle (sent : UInt32) (depth : Nat) {q : RequestQueue}
    (hidle : q.currentRequestState = .idle)
    (hconfirm : ∀ req ∈ q.pending.live, req.requiresConfirmation = true) :
    processNextQueuedRequest sent (depth + 1) q = some (q.dispatched sent) := by
  rw [processNextQueuedRequest, RequestQueue.dispatched]
  cases hlive : q.pending.live with
  | nil =>
      rw [if_pos ((SlotTable.live_eq_nil_iff q.pending).mp hlive)]
  | cons req rest =>
      have hcount : q.pending.count ≠ 0 := by
        rw [Ne, ← SlotTable.live_eq_nil_iff, hlive]
        exact List.cons_ne_nil _ _
      have hhead : q.pending.slots[0]?.getD default = req := by
        rw [← SlotTable.getElem?_live_of_lt q.pending (Nat.pos_of_ne_zero hcount), hlive]
        rfl
      have hneeds : req.requiresConfirmation = true :=
        hconfirm req (by rw [hlive]; exact List.mem_cons_self)
      rw [if_neg hcount, if_neg (not_not.mpr hidle)]
      simp only [hhead, hneeds, if_true]
      rfl

/-! ## The invariant -/

/-- What holds of the waiting requests and the log, whatever the state. -/
structure RequestsKept (live : List PendingRequest) (log : List QueueEntry) : Prop where
  confirming : ∀ req ∈ live, req.requiresConfirmation = true
  broadcasts : ∀ req ∈ Ledger.joined log, req.type = .broadcast
  balanced : Ledger.Balanced log live
  expired : ∀ drop ∈ Ledger.dropped log, drop.2 - drop.1.timestamp > requestTimeoutMs

/-- What holds of the queue and its log between operations. -/
structure QueueSound (q : RequestQueue) (log : List QueueEntry) : Prop where
  kept : RequestsKept q.pending.live log
  state : q.currentRequestState = .idle ∨ q.currentRequestState = .waitingForConfirmation
  idle_empty : q.currentRequestState = .idle → q.pending.live = []
  /-- The node waits for the request that was handed over last. -/
  current : q.currentRequestState = .waitingForConfirmation →
    ∃ req, (Ledger.served log).getLast? = some req ∧ q.currentRequestId = req.requestId

theorem live_boot : RequestQueue.boot.pending.live = [] := SlotTable.live_empty _

theorem queueSound_boot : QueueSound RequestQueue.boot [] where
  kept := by
    rw [live_boot]
    exact {
      confirming := fun _ hreq => absurd hreq List.not_mem_nil
      broadcasts := fun _ hreq => absurd hreq List.not_mem_nil
      balanced := Ledger.balanced_nil
      expired := fun _ hdrop => absurd hdrop List.not_mem_nil }
  state := .inl rfl
  idle_empty := fun _ => live_boot
  current := fun hwait => by cases hwait

namespace RequestsKept

variable {live : List PendingRequest} {log : List QueueEntry}

/-- A broadcast request is accepted. -/
theorem join (h : RequestsKept live log) {req : PendingRequest}
    (hconfirm : req.requiresConfirmation = true) (htype : req.type = .broadcast) :
    RequestsKept (live ++ [req]) (log ++ [.joined req]) where
  confirming := fun other hother => by
    cases List.mem_append.mp hother with
    | inl hold => exact h.confirming other hold
    | inr hnew => rw [List.mem_singleton.mp hnew, hconfirm]
  broadcasts := fun other hother => by
    rw [Ledger.joined_append, Ledger.joined_joined] at hother
    cases List.mem_append.mp hother with
    | inl hold => exact h.broadcasts other hold
    | inr hnew => rw [List.mem_singleton.mp hnew, htype]
  balanced := h.balanced.join req
  expired := fun drop hdrop => by
    rw [Ledger.dropped_append, Ledger.dropped_joined, List.append_nil] at hdrop
    exact h.expired drop hdrop

/-- The request of the head is handed over. -/
theorem serve {req : PendingRequest} (h : RequestsKept (req :: live) log) :
    RequestsKept live (log ++ [.served req]) where
  confirming := fun other hother => h.confirming other (List.mem_cons_of_mem _ hother)
  broadcasts := fun other hother => by
    rw [Ledger.joined_append, Ledger.joined_served, List.append_nil] at hother
    exact h.broadcasts other hother
  balanced := h.balanced.serve
  expired := fun drop hdrop => by
    rw [Ledger.dropped_append, Ledger.dropped_served, List.append_nil] at hdrop
    exact h.expired drop hdrop

/-- The expired requests are removed, from the last slot down. -/
theorem sweep (h : RequestsKept live log) (currentTime : UInt32) :
    RequestsKept (live.filter fun req => !decide (currentTime - req.timestamp > requestTimeoutMs))
      (log ++ (live.filter fun req => decide (currentTime - req.timestamp >
        requestTimeoutMs)).reverse.map fun req => .dropped req currentTime) where
  confirming := fun other hother => h.confirming other (List.mem_of_mem_filter hother)
  broadcasts := fun other hother => by
    rw [Ledger.joined_append, Ledger.joined_map_dropped, List.append_nil] at hother
    exact h.broadcasts other hother
  balanced := by
    refine h.balanced.drop _ ?_ currentTime
    simp only [Bool.not_not]
    exact List.reverse_perm _
  expired := fun drop hdrop => by
    rw [Ledger.dropped_append, Ledger.dropped_map_dropped] at hdrop
    cases List.mem_append.mp hdrop with
    | inl hold => exact h.expired drop hold
    | inr hnew =>
        obtain ⟨req, hreq, rfl⟩ := List.mem_map.mp hnew
        rw [List.mem_reverse, List.mem_filter, decide_eq_true_eq] at hreq
        exact hreq.2

end RequestsKept

/-- After a dispatch the node waits, or is idle with an empty queue. -/
theorem queueSound_dispatched {q : RequestQueue} {log : List QueueEntry}
    (h : RequestsKept q.pending.live log) (sent : UInt32) :
    QueueSound (q.dispatched sent).1 (log ++ (q.dispatched sent).2) := by
  rw [RequestQueue.dispatched]
  cases hlive : q.pending.live with
  | nil =>
      refine ⟨?_, .inl rfl, fun _ => hlive, fun hwait => by cases hwait⟩
      rw [List.append_nil]
      exact h
  | cons req rest =>
      have hrest : (q.pending.removeAt 0).live = rest := by
        rw [SlotTable.live_removeAt, hlive, List.eraseIdx_cons_zero]
      rw [hlive] at h
      refine ⟨?_, .inr rfl, (fun hidle => by cases hidle), fun _ => ⟨req, ?_, rfl⟩⟩
      · simp only [hrest]
        exact h.serve
      · rw [Ledger.served_append, Ledger.served_served, List.getLast?_concat]

/-! ## The operations -/

/-- `QueueRequest` puts the request behind the others. -/
theorem live_queueRequest {clock : ApiClock} {type : RequestType}
    {message typeStr priority : Bytes} {destination : NodeAddress} {requiresConfirmation : Bool}
    {q queued : RequestQueue} {req : PendingRequest}
    (h : queueRequest clock type message typeStr priority destination requiresConfirmation q =
      some (queued, req)) :
    queued.pending.live = q.pending.live ++ [req] ∧
      queued.currentRequestState = q.currentRequestState ∧
      queued.currentRequestId = q.currentRequestId ∧ req.type = type ∧
      req.requiresConfirmation = requiresConfirmation := by
  rw [queueRequest] at h
  by_cases hroom : q.pending.count < maxPendingRequests
  · rw [dif_pos hroom, Option.some.injEq, Prod.mk.injEq] at h
    obtain ⟨hqueued, rfl⟩ := h
    rw [← hqueued]
    exact ⟨SlotTable.live_openSlot q.pending hroom _, rfl, rfl, rfl, rfl⟩
  · rw [dif_neg hroom] at h
    cases h

section Operations

variable {q : RequestQueue} {log : List QueueEntry} (h : QueueSound q log) (depth : Nat)

include h

theorem handleApiBroadcast_spec (clock : ApiClock) (message type priority : Option Bytes) :
    ∃ q' entries, handleApiBroadcast clock message type priority (depth + 1) q =
        some (q', entries) ∧ QueueSound q' (log ++ entries) ∧ Ledger.dropped entries = [] := by
  cases message with
  | none =>
      refine ⟨q, [], rfl, ?_, rfl⟩
      rw [List.append_nil]
      exact h
  | some message =>
      rw [handleApiBroadcast]
      cases hqueue : queueRequest clock .broadcast message (type.getD (ascii "announcement"))
          (priority.getD (ascii "normal")) ⟨0, 0, 0⟩ true q with
      | none =>
          refine ⟨q, [], rfl, ?_, rfl⟩
          rw [List.append_nil]
          exact h
      | some pair =>
          obtain ⟨queued, req⟩ := pair
          obtain ⟨hlive, hstate, hcurrent, htype, hconfirm⟩ := live_queueRequest hqueue
          have hjoined := h.kept.join hconfirm htype
          rw [← hlive] at hjoined
          by_cases hidle : q.currentRequestState = .idle
          · have hnext := processNextQueuedRequest_idle clock.sent depth
              (hstate.trans hidle) hjoined.confirming
            have hsound := queueSound_dispatched hjoined clock.sent
            refine ⟨(queued.dispatched clock.sent).1,
              .joined req :: (queued.dispatched clock.sent).2, ?_, ?_, ?_⟩
            · simp only [ne_eq, hidle, not_true_eq_false, if_false, hnext]
              rfl
            · rw [List.append_assoc] at hsound
              exact hsound
            · exact queued.dropped_dispatched clock.sent
          · refine ⟨queued, [.joined req], ?_, ⟨hjoined, ?_, ?_, ?_⟩, rfl⟩
            · simp only [ne_eq, hidle, not_false_eq_true, if_true]
              rfl
            · rw [hstate]
              exact h.state
            · intro hidle'
              exact absurd (hstate.symm.trans hidle') hidle
            · intro hwait
              rw [Ledger.served_append, Ledger.served_joined, List.append_nil, hcurrent]
              exact h.current (hstate.symm.trans hwait)

theorem handleConfirmationReceived_spec (data : Bytes) (sent : UInt32) :
    ∃ q' entries, handleConfirmationReceived data sent (depth + 1) q = some (q', entries) ∧
      QueueSound q' (log ++ entries) ∧ Ledger.dropped entries = [] := by
  rw [handleConfirmationReceived]
  by_cases hwait : q.currentRequestState = .waitingForConfirmation
  · let freed : RequestQueue := { q with currentRequestState := .idle }
    have hnext : processNextQueuedRequest sent (depth + 1) freed = some (freed.dispatched sent) :=
      processNextQueuedRequest_idle sent depth rfl h.kept.confirming
    rw [if_pos hwait]
    exact ⟨_, _, hnext, queueSound_dispatched h.kept sent, freed.dropped_dispatched sent⟩
  · rw [if_neg hwait]
    refine ⟨q, [], rfl, ?_, rfl⟩
    rw [List.append_nil]
    exact h

theorem checkRequestTimeouts_spec (currentTime sent : UInt32) :
    ∃ q' entries, checkRequestTimeouts currentTime sent (depth + 1) q = some (q', entries) ∧
      QueueSound q' (log ++ entries) ∧
      ∀ drop ∈ Ledger.dropped entries, drop.2 = currentTime := by
  -- the first half may dispatch; the second half sweeps what is left
  have hsweep : ∀ (q₁ : RequestQueue) (first : List QueueEntry), QueueSound q₁ (log ++ first) →
      Ledger.dropped first = [] →
      let expired (req : PendingRequest) : Bool := currentTime - req.timestamp > requestTimeoutMs
      let entries := first ++
        (q₁.pending.live.filter expired).reverse.map fun req => .dropped req currentTime
      QueueSound { q₁ with pending := q₁.pending.sweep expired } (log ++ entries) ∧
        ∀ drop ∈ Ledger.dropped entries, drop.2 = currentTime := by
    intro q₁ first hsound hnone expired entries
    have hlive : (q₁.pending.sweep expired).live =
        q₁.pending.live.filter fun req => !expired req := SlotTable.live_sweep _ _
    refine ⟨⟨?_, hsound.state, fun hidle => ?_, fun hwait => ?_⟩, fun drop hdrop => ?_⟩
    · have hkept := hsound.kept.sweep currentTime
      rw [← hlive, List.append_assoc] at hkept
      exact hkept
    · change (q₁.pending.sweep expired).live = []
      rw [hlive, hsound.idle_empty hidle]
      rfl
    · rw [← List.append_assoc, Ledger.served_append, Ledger.served_map_dropped, List.append_nil]
      exact hsound.current hwait
    · rw [Ledger.dropped_append, Ledger.dropped_map_dropped, hnone, List.nil_append] at hdrop
      obtain ⟨req, _, rfl⟩ := List.mem_map.mp hdrop
      rfl
  rw [checkRequestTimeouts]
  by_cases hgiveUp : q.currentRequestState = .waitingForConfirmation ∧
      currentTime - q.confirmationStartTime > confirmationTimeoutMs
  · let freed : RequestQueue := { q with currentRequestState := .idle }
    have hnext : processNextQueuedRequest sent (depth + 1) freed = some (freed.dispatched sent) :=
      processNextQueuedRequest_idle sent depth rfl h.kept.confirming
    rw [if_pos hgiveUp, hnext]
    exact ⟨_, _, rfl, hsweep _ _ (queueSound_dispatched h.kept sent)
      (freed.dropped_dispatched sent)⟩
  · rw [if_neg hgiveUp]
    have hsame : QueueSound q (log ++ []) := by
      rw [List.append_nil]
      exact h
    exact ⟨_, _, rfl, hsweep q [] hsame rfl⟩

/-- **One event.** It succeeds, keeps the invariant, and drops requests only in a
check, at the time of that check. -/
theorem step_spec (input : QueueInput) :
    ∃ q' entries, q.step (depth + 1) input = some (q', entries) ∧
      QueueSound q' (log ++ entries) ∧
      ∀ drop ∈ Ledger.dropped entries, ∃ sent, input = .check drop.2 sent := by
  cases input with
  | api clock message type priority =>
      obtain ⟨q', entries, hstep, hsound, hnone⟩ :=
        handleApiBroadcast_spec h depth clock message type priority
      refine ⟨q', entries, hstep, hsound, fun drop hdrop => ?_⟩
      rw [hnone] at hdrop
      exact absurd hdrop List.not_mem_nil
  | confirmation data sent =>
      obtain ⟨q', entries, hstep, hsound, hnone⟩ :=
        handleConfirmationReceived_spec h depth data sent
      refine ⟨q', entries, hstep, hsound, fun drop hdrop => ?_⟩
      rw [hnone] at hdrop
      exact absurd hdrop List.not_mem_nil
  | check currentTime sent =>
      obtain ⟨q', entries, hstep, hsound, htime⟩ :=
        checkRequestTimeouts_spec h depth currentTime sent
      exact ⟨q', entries, hstep, hsound, fun drop hdrop => ⟨sent, by rw [htime drop hdrop]⟩⟩

end Operations

/-! ## Runs -/

/-- **Whole runs.** Every run succeeds and keeps the invariant. -/
theorem run_spec (depth : Nat) (inputs : List QueueInput) :
    ∀ (q : RequestQueue) (log : List QueueEntry), QueueSound q log →
      ∃ q' entries, q.run (depth + 1) inputs = some (q', entries) ∧
        QueueSound q' (log ++ entries) ∧
        ∀ drop ∈ Ledger.dropped entries, ∃ sent, .check drop.2 sent ∈ inputs := by
  induction inputs with
  | nil =>
      intro q log h
      refine ⟨q, [], rfl, ?_, fun _ hdrop => absurd hdrop List.not_mem_nil⟩
      rw [List.append_nil]
      exact h
  | cons input rest ih =>
      intro q log h
      obtain ⟨q₁, first, hstep, hsound, hfirst⟩ := step_spec h depth input
      obtain ⟨q₂, later, hrun, hsound', hlater⟩ := ih q₁ (log ++ first) hsound
      refine ⟨q₂, first ++ later, ?_, ?_, fun drop hdrop => ?_⟩
      · rw [RequestQueue.run, hstep]
        simp only [Option.bind_eq_bind, Option.bind_some, hrun]
        rfl
      · rw [← List.append_assoc]
        exact hsound'
      · rw [Ledger.dropped_append] at hdrop
        cases List.mem_append.mp hdrop with
        | inl hhere =>
            obtain ⟨sent, hinput⟩ := hfirst drop hhere
            exact ⟨sent, hinput ▸ List.mem_cons_self⟩
        | inr hthere =>
            obtain ⟨sent, hmem⟩ := hlater drop hthere
            exact ⟨sent, List.mem_cons_of_mem _ hmem⟩

/-- **The discipline of the request queue**, for every sequence of events at any
clock values. The queue never holds more than ten requests, and none while the
node is idle. The requests handed to a sender are broadcasts and form a
subsequence of the accepted ones. Every accepted request was handed over once, or
removed by a check that found it older than 30 seconds, or is still waiting. -/
theorem request_queue_discipline (depth : Nat) (inputs : List QueueInput) :
    ∃ q log, RequestQueue.boot.run (depth + 1) inputs = some (q, log) ∧
      q.pending.count ≤ maxPendingRequests ∧
      (q.currentRequestState = .idle → q.pending.count = 0) ∧
      (Ledger.served log).Sublist (Ledger.joined log) ∧
      (∀ req ∈ Ledger.served log, req.senderCall =
        if req.isMultipart then .sendMultipartBroadcast req.message req.typeStr req.priority
        else .sendBroadcast req.message req.typeStr req.priority) ∧
      (Ledger.joined log).Perm
        (Ledger.served log ++ (Ledger.dropped log).map Prod.fst ++ q.pending.live) ∧
      ∀ drop ∈ Ledger.dropped log, (∃ sent, .check drop.2 sent ∈ inputs) ∧
        drop.2 - drop.1.timestamp > requestTimeoutMs := by
  obtain ⟨q, log, hrun, hsound, hchecks⟩ := run_spec depth inputs _ _ queueSound_boot
  rw [List.nil_append] at hsound
  have horder : (Ledger.served log).Sublist (Ledger.joined log) :=
    (List.sublist_append_left _ _).trans hsound.kept.balanced.order
  refine ⟨q, log, hrun, q.pending.count_le, fun hidle => ?_, horder, fun req hreq => ?_,
    hsound.kept.balanced.account, fun drop hdrop => ⟨hchecks drop hdrop, ?_⟩⟩
  · exact (SlotTable.live_eq_nil_iff q.pending).mp (hsound.idle_empty hidle)
  · have htype := hsound.kept.broadcasts req (horder.subset hreq)
    rw [PendingRequest.senderCall, htype]
    cases req.isMultipart with
    | true => rfl
    | false => rfl
  · exact hsound.kept.expired drop hdrop

end RadioDoge.V3
