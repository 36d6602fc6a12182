/-
# Whose confirmation ends a wait

A gateway answers every broadcast it forwards twice. The node that waits takes
any answer for its own: `HandleConfirmationReceived` never looks at the request
the answer belongs to. The events below say, for each copy of an answer, which
broadcast it answers, counted in the order in which the broadcasts were handed
over; the queue itself does not see that number.
-/

import RadioDoge.V3.RequestQueue

namespace RadioDoge.V3

/-- An event at a node whose broadcasts are answered. -/
inductive AnsweredInput
  | api (clock : ApiClock) (message type priority : Option Bytes)
  /-- A copy of the answer to broadcast number `request`, from 1 on. -/
  | answer (request : Nat) (data : Bytes) (sent : UInt32)
  | check (currentTime sent : UInt32)
  deriving DecidableEq, Repr

namespace AnsweredInput

/-- The event as the queue sees it. -/
def input : AnsweredInput → QueueInput
  | .api clock message type priority => .api clock message type priority
  | .answer _ data sent => .confirmation data sent
  | .check currentTime sent => .check currentTime sent

end AnsweredInput

/-- The queue and its log after the first `k` events. -/
def queueAfter (depth : Nat) (events : List AnsweredInput) (k : Nat) :
    Option (RequestQueue × List QueueEntry) :=
  RequestQueue.boot.run depth ((events.take k).map AnsweredInput.input)

/-- Whenever a wait ends, it is the answer to the request waited for that ends it,
or the confirmation timeout of that request. -/
def WaitsEndByOwnAnswer (depth : Nat) (events : List AnsweredInput) : Prop :=
  ∀ (k : Nat) (event : AnsweredInput) (q q' : RequestQueue) (log entries : List QueueEntry),
    events[k]? = some event → queueAfter depth events k = some (q, log) →
    q.currentRequestState = .waitingForConfirmation → q.step depth event.input = some (q', entries) →
    (q'.currentRequestState ≠ .waitingForConfirmation ∨ Ledger.served entries ≠ []) →
    (∃ data sent, event = .answer (Ledger.served log).length data sent) ∨
      ∃ currentTime sent, event = .check currentTime sent ∧
        currentTime - q.confirmationStartTime > confirmationTimeoutMs

/-- No copy of an answer arrives while the node waits for another request. -/
def AnswersMeetTheirRequest (depth : Nat) (events : List AnsweredInput) : Prop :=
  ∀ (k request : Nat) (data : Bytes) (sent : UInt32) (q : RequestQueue) (log : List QueueEntry),
    events[k]? = some (.answer request data sent) → queueAfter depth events k = some (q, log) →
    q.currentRequestState = .waitingForConfirmation → request = (Ledger.served log).length

/-! ## What ends a wait -/

/-- A dispatch ends the wait that was on before it. -/
theorem dispatched_ends_wait (q : RequestQueue) (sent : UInt32) :
    (q.dispatched sent).1.currentRequestState ≠ .waitingForConfirmation ∨
      Ledger.served (q.dispatched sent).2 ≠ [] := by
  simp only [RequestQueue.dispatched]
  cases q.pending.live with
  | nil => exact .inl fun hwait => by cases hwait
  | cons req rest => exact .inr (List.cons_ne_nil _ _)

/-- A web request leaves a waiting node waiting. -/
theorem handleApiBroadcast_waiting {q q' : RequestQueue} {entries : List QueueEntry} (depth : Nat)
    (hwait : q.currentRequestState = .waitingForConfirmation) (clock : ApiClock)
    (message type priority : Option Bytes)
    (hstep : handleApiBroadcast clock message type priority depth q = some (q', entries)) :
    q'.currentRequestState = .waitingForConfirmation ∧ Ledger.served entries = [] := by
  cases message with
  | none =>
      obtain ⟨rfl, rfl⟩ := Prod.mk.inj (Option.some.inj hstep)
      exact ⟨hwait, rfl⟩
  | some message =>
      rw [handleApiBroadcast] at hstep
      cases hqueue : queueRequest clock .broadcast message (type.getD (ascii "announcement"))
          (priority.getD (ascii "normal")) ⟨0, 0, 0⟩ true q with
      | none =>
          rw [hqueue] at hstep
          obtain ⟨rfl, rfl⟩ := Prod.mk.inj (Option.some.inj hstep)
          exact ⟨hwait, rfl⟩
      | some pair =>
          obtain ⟨queued, req⟩ := pair
          have hbusy : q.currentRequestState ≠ .idle := by
            rw [hwait]
            exact fun hidle => by cases hidle
          rw [hqueue] at hstep
          simp only [if_pos hbusy] at hstep
          obtain ⟨rfl, rfl⟩ := Prod.mk.inj (Option.some.inj hstep)
          exact ⟨(live_queueRequest hqueue).2.1.trans hwait, rfl⟩

/-- A wait ends by a confirmation, whichever it is, or by the confirmation timeout,
and by nothing else. -/
theorem wait_ends_iff {q q' : RequestQueue} {log entries : List QueueEntry} (h : QueueSound q log)
    (depth : Nat) (hwait : q.currentRequestState = .waitingForConfirmation) (input : QueueInput)
    (hstep : q.step (depth + 1) input = some (q', entries)) :
    (q'.currentRequestState ≠ .waitingForConfirmation ∨ Ledger.served entries ≠ []) ↔
      (∃ data sent, input = .confirmation data sent) ∨
        ∃ currentTime sent, input = .check currentTime sent ∧
          currentTime - q.confirmationStartTime > confirmationTimeoutMs := by
  let freed : RequestQueue := { q with currentRequestState := .idle }
  have hnext : ∀ sent, processNextQueuedRequest sent (depth + 1) freed =
      some (freed.dispatched sent) :=
    fun sent => processNextQueuedRequest_idle sent depth rfl h.kept.confirming
  cases input with
  | api clock message type priority =>
      obtain ⟨hstill, hnone⟩ := handleApiBroadcast_waiting _ hwait clock message type priority hstep
      constructor
      · rintro (hover | hserved)
        · exact absurd hstill hover
        · exact absurd hnone hserved
      · rintro (⟨_, _, himpossible⟩ | ⟨_, _, himpossible, _⟩)
        · cases himpossible
        · cases himpossible
  | confirmation data sent =>
      have hresult : q.step (depth + 1) (.confirmation data sent) =
          some (freed.dispatched sent) := (if_pos hwait).trans (hnext sent)
      rw [hresult] at hstep
      have hover := dispatched_ends_wait freed sent
      rw [Option.some.inj hstep] at hover
      exact iff_of_true hover (.inl ⟨data, sent, rfl⟩)
  | check currentTime sent =>
      change checkRequestTimeouts currentTime sent (depth + 1) q = _ at hstep
      rw [checkRequestTimeouts] at hstep
      by_cases hgiveUp : currentTime - q.confirmationStartTime > confirmationTimeoutMs
      · rw [if_pos ⟨hwait, hgiveUp⟩, hnext sent] at hstep
        obtain ⟨rfl, rfl⟩ := Prod.mk.inj (Option.some.inj hstep)
        refine iff_of_true ?_ (.inr ⟨currentTime, sent, rfl, hgiveUp⟩)
        rw [Ledger.served_append, Ledger.served_map_dropped, List.append_nil]
        exact dispatched_ends_wait freed sent
      · rw [if_neg fun hboth => hgiveUp hboth.2] at hstep
        obtain ⟨rfl, rfl⟩ := Prod.mk.inj (Option.some.inj hstep)
        rw [List.nil_append, Ledger.served_map_dropped]
        constructor
        · rintro (hover | hserved)
          · exact absurd hwait hover
          · exact absurd rfl hserved
        · rintro (⟨_, _, himpossible⟩ | ⟨_, _, hinput, hlate⟩)
          · cases himpossible
          · obtain ⟨rfl, rfl⟩ := QueueInput.check.inj hinput
            exact absurd hlate hgiveUp

/-! ## Runs -/

/-- The queue is sound after any number of events. -/
theorem queueSound_queueAfter {depth : Nat} {events : List AnsweredInput} {k : Nat}
    {q : RequestQueue} {log : List QueueEntry}
    (h : queueAfter (depth + 1) events k = some (q, log)) : QueueSound q log := by
  obtain ⟨q', log', hrun, hsound, _⟩ :=
    run_spec depth ((events.take k).map AnsweredInput.input) _ _ queueSound_boot
  rw [queueAfter, hrun] at h
  obtain ⟨rfl, rfl⟩ := Prod.mk.inj (Option.some.inj h)
  exact hsound

/-- **A wait ends by its own answer or its own timeout** in exactly the runs in which
no copy of an answer arrives while the node waits for another request. -/
theorem waits_end_by_own_answer_iff (depth : Nat) (events : List AnsweredInput) :
    WaitsEndByOwnAnswer (depth + 1) events ↔ AnswersMeetTheirRequest (depth + 1) events := by
  constructor
  · intro hown k request data sent q log hevent hafter hwait
    have hsound := queueSound_queueAfter hafter
    obtain ⟨q', entries, hstep, _⟩ := step_spec hsound depth (.confirmation data sent)
    have hover := (wait_ends_iff hsound depth hwait _ hstep).mpr (.inl ⟨data, sent, rfl⟩)
    cases hown k _ q q' log entries hevent hafter hwait hstep hover with
    | inl hanswer =>
        obtain ⟨_, _, hsame⟩ := hanswer
        exact (AnsweredInput.answer.inj hsame).1
    | inr hcheck =>
        obtain ⟨_, _, himpossible, _⟩ := hcheck
        cases himpossible
  · intro hmeet k event q q' log entries hevent hafter hwait hstep hover
    have hsound := queueSound_queueAfter hafter
    have hends := (wait_ends_iff hsound depth hwait _ hstep).mp hover
    cases event with
    | api clock message type priority =>
        rcases hends with ⟨_, _, himpossible⟩ | ⟨_, _, himpossible, _⟩
        · cases himpossible
        · cases himpossible
    | answer request data sent =>
        have hrequest := hmeet k request data sent q log hevent hafter hwait
        exact .inl ⟨data, sent, by rw [hrequest]⟩
    | check currentTime sent =>
        rcases hends with ⟨_, _, himpossible⟩ | ⟨_, _, hinput, hlate⟩
        · cases himpossible
        · obtain ⟨rfl, rfl⟩ := QueueInput.check.inj hinput
          exact .inr ⟨currentTime, sent, rfl, hlate⟩

/-- Two broadcasts are requested; the answer to the first arrives twice, and the
second copy ends the wait for the second broadcast. -/
theorem second_copy_ends_next_wait :
    ¬ WaitsEndByOwnAnswer 1
      [.api ⟨0, 0, 1⟩ (some (ascii "first")) none none,
        .api ⟨100, 100, 101⟩ (some (ascii "second")) none none,
        .answer 1 (ascii "DOGECOIN_RESPONSE:ok") 2000,
        .answer 1 (ascii "DOGECOIN_RESPONSE:ok") 5000] := by
  intro hown
  have hthird : (queueAfter 1 [.api ⟨0, 0, 1⟩ (some (ascii "first")) none none,
      .api ⟨100, 100, 101⟩ (some (ascii "second")) none none,
      .answer 1 (ascii "DOGECOIN_RESPONSE:ok") 2000,
      .answer 1 (ascii "DOGECOIN_RESPONSE:ok") 5000] 3).map
        (fun after => (after.1.currentRequestState, (Ledger.served after.2).length)) =
      some (.waitingForConfirmation, 2) := by
    decide +kernel
  obtain ⟨⟨q, log⟩, hafter, hboth⟩ := Option.map_eq_some_iff.mp hthird
  obtain ⟨hwait, htwo⟩ := Prod.mk.inj hboth
  have hsound := queueSound_queueAfter hafter
  obtain ⟨q', entries, hstep, _⟩ :=
    step_spec hsound 0 (.confirmation (ascii "DOGECOIN_RESPONSE:ok") 5000)
  have hover := (wait_ends_iff hsound 0 hwait _ hstep).mpr (.inl ⟨_, _, rfl⟩)
  rcases hown 3 _ q q' log entries rfl hafter hwait hstep hover with
    ⟨_, _, hanswer⟩ | ⟨_, _, himpossible, _⟩
  · have hsame := (AnsweredInput.answer.inj hanswer).1
    rw [htwo] at hsame
    exact absurd hsame (by decide)
  · cases himpossible

end RadioDoge.V3
