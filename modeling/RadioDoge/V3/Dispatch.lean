/-
# Dispatch of any queue

`ProcessNextQueuedRequest` hands the request in slot 0 to its sender and removes it
afterwards. A request that needs no confirmation calls back in between, while it is still
in slot 0, and is handed over again. `dispatches_iff` says which queues are dispatched.
-/

import RadioDoge.V3.RequestQueue

namespace RadioDoge.V3

/-- What a dispatch should do: hand over the requests up to the first one that needs a
confirmation, in their order, and leave the others. -/
structure Dispatched (q next : RequestQueue) (log : List QueueEntry) : Prop where
  inOrder : Ledger.served log ++ next.pending.live = q.pending.live
  goesOn : ∀ req ∈ (Ledger.served log).dropLast, req.requiresConfirmation = false
  stops : next.pending.live ≠ [] →
    ∃ req, (Ledger.served log).getLast? = some req ∧ req.requiresConfirmation = true

/-- Some stack is enough for the dispatch, and it does what it should. -/
def Dispatches (sent : UInt32) (q : RequestQueue) : Prop :=
  ∃ depth next log, processNextQueuedRequest sent depth q = some (next, log) ∧ Dispatched q next log

section Head

variable {q : RequestQueue} {req : PendingRequest}

/-- The head of the queue stands in slot 0. -/
theorem slot_zero_of_head (hhead : q.pending.live.head? = some req) :
    q.pending.count ≠ 0 ∧ q.pending.slots[0]?.getD default = req := by
  have hcount : q.pending.count ≠ 0 := by
    intro hzero
    rw [(SlotTable.live_eq_nil_iff q.pending).mpr hzero] at hhead
    cases hhead
  have hslot := SlotTable.getElem?_live_of_lt q.pending (Nat.pos_of_ne_zero hcount)
  rw [List.head?_eq_getElem?] at hhead
  exact ⟨hcount, by rw [← hslot, hhead, Option.getD_some]⟩

/-- A request that needs no confirmation is handed over again and again. -/
theorem no_depth_is_enough (sent : UInt32) (depth : Nat) (hidle : q.currentRequestState = .idle)
    (hhead : q.pending.live.head? = some req) (hfree : req.requiresConfirmation = false) :
    processNextQueuedRequest sent depth q = none := by
  induction depth generalizing q with
  | zero => rfl
  | succ depth ih =>
      rcases slot_zero_of_head hhead with ⟨hcount, hslot⟩
      -- the call in between finds the queue as it was
      have hagain := @ih { q with currentRequestId := req.requestId } hidle hhead
      rw [processNextQueuedRequest, if_neg hcount, if_neg (not_not.mpr hidle)]
      simp only [hslot, hfree, Bool.false_eq_true, if_false, hagain, Option.bind_eq_bind,
        Option.bind_none]

/-- A request that needs a confirmation is handed over, and the others wait. -/
theorem dispatch_of_confirming (sent : UInt32) (hidle : q.currentRequestState = .idle)
    (hhead : q.pending.live.head? = some req) (hneeds : req.requiresConfirmation = true) :
    ∃ next, processNextQueuedRequest sent 1 q = some (next, [.served req]) ∧
      next.pending.live = q.pending.live.tail := by
  rcases slot_zero_of_head hhead with ⟨hcount, hslot⟩
  rw [processNextQueuedRequest, if_neg hcount, if_neg (not_not.mpr hidle)]
  simp only [hslot, hneeds, if_true]
  exact ⟨_, rfl, (SlotTable.live_removeAt _ _).trans List.eraseIdx_zero⟩

end Head

/-- **Dispatch of any queue.** An idle node dispatches its queue exactly if the queue is
empty or its first request needs a confirmation. -/
theorem dispatches_iff (sent : UInt32) {q : RequestQueue} (hidle : q.currentRequestState = .idle) :
    Dispatches sent q ↔
      ∀ req, q.pending.live.head? = some req → req.requiresConfirmation = true := by
  apply Iff.intro
  · intro hdispatches req hhead
    rcases hdispatches with ⟨depth, next, log, hnext, -⟩
    by_contra hfree
    rw [no_depth_is_enough sent depth hidle hhead (Bool.eq_false_of_not_eq_true hfree)] at hnext
    cases hnext
  · intro hconfirming
    cases hlive : q.pending.live with
    | nil =>
        have hcount := (SlotTable.live_eq_nil_iff q.pending).mp hlive
        refine ⟨1, { q with currentRequestState := .idle }, [], ?_, hlive.trans hlive.symm, ?_, ?_⟩
        · rw [processNextQueuedRequest, if_pos hcount]
        · intro req hmem
          cases hmem
        · exact fun hleft => absurd hlive hleft
    | cons req rest =>
        have hhead : q.pending.live.head? = some req := by rw [hlive, List.head?_cons]
        have hneeds := hconfirming req hhead
        rcases dispatch_of_confirming sent hidle hhead hneeds with ⟨next, hnext, hrest⟩
        rw [hlive, List.tail_cons] at hrest
        refine ⟨1, next, [.served req], hnext, ?_, ?_, fun _ => ⟨req, rfl, hneeds⟩⟩
        · rw [hrest, hlive]
          rfl
        · intro other hmem
          cases hmem

/-- A queue that holds one ping. -/
def onePing (requiresConfirmation : Bool) : RequestQueue :=
  { RequestQueue.boot with
    pending := RequestQueue.boot.pending.openSlot (by decide) fun _ =>
      newRequest ⟨0, 0, 0⟩ .ping [] [] [] ⟨10, 0, 1⟩ requiresConfirmation 1 }

theorem live_onePing (requiresConfirmation : Bool) :
    (onePing requiresConfirmation).pending.live =
      [newRequest ⟨0, 0, 0⟩ .ping [] [] [] ⟨10, 0, 1⟩ requiresConfirmation 1] := by
  rw [onePing, SlotTable.live_openSlot, live_boot]
  rfl

/-- A ping that needs a confirmation. -/
theorem dispatches_iff_one_ping :
    Dispatches 0 (onePing true) ↔
      ∀ req, (onePing true).pending.live.head? = some req → req.requiresConfirmation = true :=
  dispatches_iff 0 rfl

/-- A ping that needs none is sent for ever. -/
theorem free_ping_is_sent_for_ever :
    ¬ ∀ (sent : UInt32) (q : RequestQueue), q.currentRequestState = .idle → Dispatches sent q := by
  intro hall
  rcases hall 0 (onePing false) rfl with ⟨depth, next, log, hnext, -⟩
  have hhead := congrArg List.head? (live_onePing false)
  rw [no_depth_is_enough 0 depth rfl hhead rfl] at hnext
  cases hnext

end RadioDoge.V3
