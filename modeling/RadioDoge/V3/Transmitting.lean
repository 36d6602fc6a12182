/-
# Transmissions that are not cut off

`CommandAndControlLoop` puts the radio into receive mode when it finds `isLoRaIdle` set, so the
flag must be clear while a transmission waits for `OnTxDone` or `OnTxTimeout`. `SendPing` and
`SendACK` clear it. The other senders leave it alone, the multipart senders set it at their end,
and so do all callbacks, whatever they have started or left.

`leftToFinish_iff` says, step by step, in which runs of the loop the radio is left to finish.
-/

import RadioDoge.V3.MainLoop
import RadioDoge.V3.Silence

namespace RadioDoge.V3

/-! ## Logs -/

/-- The flag is set only if nothing waits. -/
def RadioState.Sound (radio : RadioState) : Prop := radio.isLoRaIdle = true → radio.waiting = 0

/-- At every point of the log the flag is set only if nothing waits, and the radio is never put
into receive mode over something that waits. -/
def NeverCutOff (radio : RadioState) (log : List RadioEntry) : Prop :=
  ∀ n, (radio.afterAll (log.take n)).Sound ∧
    (log[n]? = some .listen → (radio.afterAll (log.take n)).waiting = 0)

section Logs

variable (radio : RadioState)

theorem neverCutOff_nil : NeverCutOff radio [] ↔ radio.Sound := by
  apply Iff.intro
  · intro h
    exact (h 0).1
  · intro hsound n
    rw [List.take_nil]
    exact ⟨hsound, fun hlisten => by cases hlisten⟩

theorem neverCutOff_cons (entry : RadioEntry) (log : List RadioEntry) :
    NeverCutOff radio (entry :: log) ↔
      (radio.Sound ∧ (entry = .listen → radio.waiting = 0)) ∧
        NeverCutOff (radio.after entry) log := by
  apply Iff.intro
  · intro h
    apply And.intro
    · exact ⟨(h 0).1, fun hlisten => (h 0).2 (congrArg some hlisten)⟩
    · intro n
      exact h (n + 1)
  · intro h n
    cases n with
    | zero => exact ⟨h.1.1, fun hlisten => h.1.2 (Option.some.inj hlisten)⟩
    | succ n => exact h.2 n

/-- Nothing more is asked of what is true at the beginning of a log. -/
theorem NeverCutOff.sound {log : List RadioEntry} (h : NeverCutOff radio log) : radio.Sound :=
  (h 0).1

theorem neverCutOff_append (first second : List RadioEntry) :
    NeverCutOff radio (first ++ second) ↔
      NeverCutOff radio first ∧ NeverCutOff (radio.afterAll first) second := by
  induction first generalizing radio with
  | nil =>
      rw [List.nil_append, neverCutOff_nil]
      apply Iff.intro
      · intro h
        exact ⟨h.sound, h⟩
      · intro h
        exact h.2
  | cons entry rest ih =>
      rw [List.cons_append, neverCutOff_cons, neverCutOff_cons, ih]
      exact and_assoc.symm

/-- Nor of what it leaves behind. -/
theorem NeverCutOff.sound_afterAll {log : List RadioEntry} (h : NeverCutOff radio log) :
    (radio.afterAll log).Sound := by
  rw [← List.append_nil log, neverCutOff_append] at h
  exact (neverCutOff_nil _).mp h.2

/-- What waits behind the entries of the senders. -/
theorem waiting_afterAll {entries : List RadioEntry} (h : ∀ entry ∈ entries, entry.IsRadio) :
    (radio.afterAll entries).waiting = radio.waiting + (sentFrames entries).length := by
  induction entries generalizing radio with
  | nil => rfl
  | cons entry rest ih =>
      rw [List.forall_mem_cons] at h
      have hrest := ih (radio.after entry) h.2
      cases entry with
      | setIdle value => exact hrest
      | send frame =>
          have hone : (radio.after (.send frame)).waiting = radio.waiting + 1 := rfl
          have hframes : sentFrames (.send frame :: rest) = frame :: sentFrames rest := rfl
          rw [hone] at hrest
          rw [hframes, List.length_cons]
          exact hrest.trans (by omega)
      | listen => exact absurd h.1 id
      | txReported count => exact absurd h.1 id
      | pinged source => exact absurd h.1 id
      | answered frame => exact absurd h.1 id
      | restarted => exact absurd h.1 id

/-- A frame that is sent as it is. -/
theorem neverCutOff_send (hsound : radio.Sound) (frame : Bytes) :
    NeverCutOff radio [.send frame] ↔ radio.isLoRaIdle = false := by
  have hafter : (radio.after (.send frame)).Sound ↔ radio.isLoRaIdle = false := by
    rw [RadioState.Sound, RadioState.after]
    cases radio.isLoRaIdle with
    | true => exact iff_of_false (fun h => absurd (h rfl) (Nat.succ_ne_zero _)) Bool.noConfusion
    | false => exact iff_of_true Bool.noConfusion rfl
  rw [neverCutOff_cons, neverCutOff_nil, hafter, and_iff_right_iff_imp]
  intro _
  exact ⟨hsound, RadioEntry.noConfusion⟩

/-- A control frame, with the flag cleared. -/
theorem neverCutOff_control (hsound : radio.Sound) (frame : Bytes) :
    NeverCutOff radio [.setIdle false, .send frame] := by
  rw [neverCutOff_cons]
  apply And.intro
  · exact ⟨hsound, RadioEntry.noConfusion⟩
  · have hcleared : (radio.after (.setIdle false)).Sound := Bool.noConfusion
    exact (neverCutOff_send _ hcleared frame).mpr rfl

/-- Behind a start nothing waits. -/
theorem neverCutOff_restarted (hsound : radio.Sound) : NeverCutOff radio [.restarted] := by
  rw [neverCutOff_cons, neverCutOff_nil]
  exact ⟨⟨hsound, RadioEntry.noConfusion⟩, fun _ => rfl⟩

/-- The flag is set. -/
theorem neverCutOff_setIdle (hsound : radio.Sound) :
    NeverCutOff radio [.setIdle true] ↔ radio.waiting = 0 := by
  rw [neverCutOff_cons, neverCutOff_nil]
  apply Iff.intro
  · intro h
    exact h.2 rfl
  · intro hzero
    exact ⟨⟨hsound, RadioEntry.noConfusion⟩, fun _ => hzero⟩

/-- As long as nothing waits and nothing is sent, the flag may have any value. -/
theorem neverCutOff_of_unsent (hzero : radio.waiting = 0) {entries : List RadioEntry}
    (h : ∀ entry ∈ entries, entry.IsRadio) (hframes : sentFrames entries = []) :
    NeverCutOff radio entries := by
  have hsound : radio.Sound := fun _ => hzero
  induction entries generalizing radio with
  | nil => exact (neverCutOff_nil radio).mpr hsound
  | cons entry rest ih =>
      rw [List.forall_mem_cons] at h
      rw [neverCutOff_cons]
      cases entry with
      | setIdle value =>
          have hrest := ih (radio.after (.setIdle value)) hzero h.2 hframes fun _ => hzero
          exact ⟨⟨hsound, RadioEntry.noConfusion⟩, hrest⟩
      | send frame => cases hframes
      | listen => exact absurd h.1 id
      | txReported count => exact absurd h.1 id
      | pinged source => exact absurd h.1 id
      | answered frame => exact absurd h.1 id
      | restarted => exact absurd h.1 id

/-- Entries with the flag set behind them: nothing may wait, and nothing may be sent. -/
theorem neverCutOff_idle {entries : List RadioEntry} (h : ∀ entry ∈ entries, entry.IsRadio) :
    NeverCutOff radio (entries ++ [.setIdle true]) ↔
      radio.waiting = 0 ∧ sentFrames entries = [] := by
  have hwaiting := waiting_afterAll radio h
  rw [neverCutOff_append]
  apply Iff.intro
  · intro hall
    have hlast := ((neverCutOff_setIdle _ hall.2.sound).mp hall.2).symm.trans hwaiting
    exact ⟨(Nat.add_eq_zero_iff.mp hlast.symm).1,
      List.length_eq_zero_iff.mp (Nat.add_eq_zero_iff.mp hlast.symm).2⟩
  · intro hnone
    rw [hnone.1, hnone.2, List.length_nil] at hwaiting
    apply And.intro
    · exact neverCutOff_of_unsent radio hnone.1 h hnone.2
    · exact (neverCutOff_setIdle _ fun _ => hwaiting).mpr hwaiting

end Logs

/-- A run is decided step by step. -/
theorem neverCutOff_run_iff {I : Type} {step : Device → I → Device × List RadioEntry}
    (R : Device → I → Prop) (hfollows : ∀ device input, Follows device (step device input))
    (hone : ∀ device : Device, device.radio.Sound → ∀ input,
      (NeverCutOff device.radio (step device input).2 ↔ R device input))
    {device : Device} (hsound : device.radio.Sound) (inputs : List I) :
    NeverCutOff device.radio (LoggedRun.run step device inputs).2 ↔
      ∀ n input, inputs[n]? = some input →
        R (LoggedRun.run step device (inputs.take n)).1 input := by
  let Inv (later : Device) (log : List RadioEntry) : Prop :=
    later.radio = device.radio.afterAll log
  have hinv : ∀ later log, ∀ input ∈ inputs, Inv later log →
      Inv (step later input).1 (log ++ (step later input).2) := by
    intro later log input _ hlog
    change (step later input).1.radio = _
    rw [hfollows, hlog, RadioState.afterAll_append]
  have hstep : ∀ later log, ∀ input ∈ inputs, Inv later log →
      (NeverCutOff device.radio (log ++ (step later input).2) ↔
        NeverCutOff device.radio log ∧ R later input) := by
    intro later log input _ hlog
    rw [neverCutOff_append, ← hlog, and_congr_right_iff]
    intro hall
    exact hone later (hlog ▸ hall.sound_afterAll) input
  have hstart : Inv device [] := rfl
  have hrun := LoggedRun.run_iff Inv (NeverCutOff device.radio) R hinv hstep hstart
  rw [List.nil_append, and_iff_right ((neverCutOff_nil _).mpr hsound)] at hrun
  exact hrun

/-! ## Calls -/

/-- A sender that sends nothing, because the text has too many parts. -/
def SenderCall.TooLong : SenderCall → Prop
  | .sendMultipartTransaction _ transaction type =>
      tooManyParts (type ++ colon :: transaction) = true
  | .sendMultipartBroadcast message type priority =>
      tooManyParts (type ++ colon :: (priority ++ colon :: message)) = true
  | .sendMessage _ _ _ | .sendMultipartMessage _ _ _ | .sendTransaction _ _ _
  | .sendBroadcast _ _ _ | .sendPing _ => False

/-- A sender that leaves the radio to finish. -/
def SenderCall.Spares (radio : RadioState) : SenderCall → Prop
  | .sendPing _ => True
  | .sendMessage _ _ _ | .sendTransaction _ _ _ | .sendBroadcast _ _ _ =>
      radio.isLoRaIdle = false
  | .sendMultipartMessage destination message type =>
      TooLong (.sendMultipartMessage destination message type)
  | .sendMultipartTransaction destination transaction type =>
      TooLong (.sendMultipartTransaction destination transaction type)
  | .sendMultipartBroadcast message type priority =>
      TooLong (.sendMultipartBroadcast message type priority)

/-- A call that does. -/
def RadioCall.Spares (radio : RadioState) : RadioCall → Prop
  | .setDestination _ | .sendAck _ => True
  | .sender call => call.Spares radio
  | .packet _ _ => radio.isLoRaIdle = false

/-- All calls of a series do, each in the state in which it is made. -/
def Device.Spares (device : Device) (calls : List RadioCall) : Prop :=
  ∀ n (call : RadioCall), calls[n]? = some call →
    call.Spares (device.performAll (calls.take n)).1.radio

/-- A text has a part. -/
theorem frames_ne_nil {m : MultipartMessage} (htext : m.text ≠ []) : m.frames ≠ [] := by
  rcases MultipartMessage.frames_eq_cons
    (Pieces.pieceCount_pos (by decide) (List.length_pos_iff.mpr htext)) with ⟨rest, hframes⟩
  rw [hframes]
  exact List.cons_ne_nil _ _

/-- What a guarded multipart sender sends. -/
theorem guarded_frames_eq_nil_iff (src dest : NodeAddress) (dataType : UInt8) {text : Bytes}
    (htext : text ≠ []) :
    let m := MultipartMessage.mk src dest dataType text
    (if m.parts ≤ maxMultipartParts then m.frames else []) = [] ↔ tooManyParts text = true := by
  intro m
  by_cases hfits : m.parts ≤ maxMultipartParts
  · rw [if_pos hfits]
    refine iff_of_false (frames_ne_nil htext) ?_
    intro hlong
    exact absurd (of_decide_eq_true hlong) (Nat.not_lt.mpr hfits)
  · rw [if_neg hfits]
    exact iff_of_true rfl (decide_eq_true (Nat.lt_of_not_le hfits))

section Calls

variable {device : Device}

theorem sentFrames_sendAllParts (frames : List Bytes) :
    sentFrames (device.sendAllParts frames).2 = frames := by
  rw [Device.sendAllParts, Device.record, sentFrames_append, sentFrames_map_send]
  exact List.append_nil frames

/-- Only a text that is too long is not sent. -/
theorem SenderCall.sentFrames_eq_nil_iff (call : SenderCall) :
    sentFrames (call.perform device).2 = [] ↔ call.TooLong := by
  cases call with
  | sendPing destination => exact iff_of_false (List.cons_ne_nil _ _) id
  | sendMessage destination message type => exact iff_of_false (List.cons_ne_nil _ _) id
  | sendMultipartMessage destination message type =>
      rw [perform, sentFrames_sendAllParts, val_sendMultipartMessage]
      exact iff_of_false (frames_ne_nil (by simp)) id
  | sendTransaction destination transaction type => exact iff_of_false (List.cons_ne_nil _ _) id
  | sendMultipartTransaction destination transaction type =>
      rw [perform, TooLong]
      by_cases hlong : tooManyParts (type ++ colon :: transaction) = true
      · simp only [if_pos hlong]
        exact iff_of_true rfl hlong
      · simp only [if_neg hlong, sentFrames_sendAllParts, val_sendMultipartTransaction]
        exact guarded_frames_eq_nil_iff _ _ _ (by simp)
  | sendBroadcast message type priority => exact iff_of_false (List.cons_ne_nil _ _) id
  | sendMultipartBroadcast message type priority =>
      rw [perform, TooLong]
      by_cases hlong : tooManyParts (type ++ colon :: (priority ++ colon :: message)) = true
      · rw [if_pos hlong]
        exact iff_of_true rfl hlong
      · rw [if_neg hlong, sentFrames_sendAllParts, val_sendMultipartBroadcast]
        exact guarded_frames_eq_nil_iff _ _ _ (by simp)

/-- A multipart sender sets the flag behind its frames. -/
theorem not_neverCutOff_parts {frames : List Bytes} (hne : frames ≠ []) :
    ¬ NeverCutOff device.radio (device.sendAllParts frames).2 := by
  have hradio : ∀ entry ∈ frames.map RadioEntry.send, entry.IsRadio := by
    intro entry hmem
    exact isRadio_of_mem_allParts (List.mem_append_left _ hmem)
  intro hall
  have hnone := ((neverCutOff_idle _ hradio).mp hall).2
  rw [sentFrames_map_send] at hnone
  exact hne hnone

theorem SenderCall.neverCutOff_iff (hsound : device.radio.Sound) (call : SenderCall) :
    NeverCutOff device.radio (call.perform device).2 ↔ call.Spares device.radio := by
  have hsent : sentFrames (call.perform device).2 = [] ↔ call.TooLong := call.sentFrames_eq_nil_iff
  cases call with
  | sendPing destination => exact iff_of_true (neverCutOff_control _ hsound _) trivial
  | sendMessage destination message type => exact neverCutOff_send _ hsound _
  | sendMultipartMessage destination message type =>
      rw [perform, sentFrames_sendAllParts] at hsent
      rw [perform, Spares]
      exact iff_of_false (not_neverCutOff_parts (mt hsent.mp id)) id
  | sendTransaction destination transaction type => exact neverCutOff_send _ hsound _
  | sendMultipartTransaction destination transaction type =>
      rw [perform] at hsent
      rw [perform, Spares]
      by_cases hlong : tooManyParts (type ++ colon :: transaction) = true
      · simp only [if_pos hlong]
        exact iff_of_true ((neverCutOff_nil device.radio).mpr hsound) hlong
      · simp only [if_neg hlong, sentFrames_sendAllParts] at hsent ⊢
        exact iff_of_false (not_neverCutOff_parts (mt hsent.mp hlong)) hlong
  | sendBroadcast message type priority => exact neverCutOff_send _ hsound _
  | sendMultipartBroadcast message type priority =>
      rw [perform] at hsent
      rw [perform, Spares]
      by_cases hlong : tooManyParts (type ++ colon :: (priority ++ colon :: message)) = true
      · rw [if_pos hlong]
        exact iff_of_true ((neverCutOff_nil device.radio).mpr hsound) hlong
      · rw [if_neg hlong, sentFrames_sendAllParts] at hsent
        rw [if_neg hlong]
        exact iff_of_false (not_neverCutOff_parts (mt hsent.mp hlong)) hlong

theorem RadioCall.neverCutOff_iff (hsound : device.radio.Sound) (call : RadioCall) :
    NeverCutOff device.radio (call.perform device).2 ↔ call.Spares device.radio := by
  cases call with
  | setDestination destination =>
      exact iff_of_true ((neverCutOff_nil device.radio).mpr hsound) trivial
  | sender call => exact call.neverCutOff_iff hsound
  | sendAck destination => exact iff_of_true (neverCutOff_control _ hsound _) trivial
  | packet kind text => exact neverCutOff_send _ hsound _

/-- A series of calls. -/
theorem neverCutOff_performAll_iff (hsound : device.radio.Sound) (calls : List RadioCall) :
    NeverCutOff device.radio (device.performAll calls).2 ↔ device.Spares calls :=
  neverCutOff_run_iff (fun device call => RadioCall.Spares device.radio call)
    (fun device call => (RadioCall.perform_onlyTransmits device call).radio)
    (fun _ hsound call => RadioCall.neverCutOff_iff hsound call) hsound calls

/-- Calls that send nothing. -/
theorem sentFrames_performAll_eq_nil_iff (calls : List SenderCall) :
    sentFrames (device.performAll (calls.map .sender)).2 = [] ↔ ∀ call ∈ calls, call.TooLong := by
  induction calls generalizing device with
  | nil => exact iff_of_true rfl fun call hmem => absurd hmem List.not_mem_nil
  | cons call rest ih =>
      rw [List.map_cons, Device.performAll, LoggedRun.run, ← Device.performAll,
        sentFrames_append, List.append_eq_nil_iff, ih, List.forall_mem_cons]
      exact and_congr_left fun _ => call.sentFrames_eq_nil_iff

end Calls

/-! ## Steps -/

namespace Device

/-- What the queue does at an event spares the radio. -/
def DispatchSpares (device : Device) (input : QueueInput) : Prop :=
  let stepped := device.queue.step input
  Spares { device with queue := stepped.1 } ((senderCalls stepped.2).map .sender)

/-- Nothing is sent for a packet: it completes no text for which something is sent, and if it is
a confirmation, no request is waiting whose text could be sent. -/
def Ignores (device : Device) (now sent : UInt32) (world : World) (payload : Bytes) : Prop :=
  (∀ handed, device.node.handedOn now payload = some handed → device.node.Withholds handed) ∧
    ∀ data ∈ confirmations (device.node.receive world now payload).val.2,
      ∀ call ∈ senderCalls (device.queue.step (.confirmation data sent)).2, call.TooLong

end Device

/-- A callback leaves the flag set, so nothing may wait behind it. Behind `abort` nothing does. -/
def RadioCallback.Spares (device : Device) : RadioCallback → Prop
  | .txDone count | .txTimeout count => device.radio.waiting ≤ count
  | .rxTimeout => device.radio.waiting = 0
  | .rxDone world now sent payload =>
      device.Aborts world now payload ∨
        (device.radio.waiting = 0 ∧ device.Ignores now sent world payload)

/-- A step that leaves the radio to finish. `CommandAndControlLoop` always does, up to
`Radio.IrqProcess`. -/
def LoopStep.Spares (device : Device) : LoopStep → Prop
  | .handleClient (some request) => (request.configure device).Spares (request.calls device)
  | .checkRequestTimeouts currentTime sent => device.DispatchSpares (.check currentTime sent)
  | .callback _ event => event.Spares device
  | .handleClient none | .cleanup _ | .control _ _ => True

section Steps

variable {device : Device} (hsound : device.radio.Sound)

/-- With the flag clear, frames can be sent at will. -/
theorem neverCutOff_clear {radio : RadioState} (hclear : radio.isLoRaIdle = false)
    {entries : List RadioEntry}
    (h : ∀ entry ∈ entries, entry = .setIdle false ∨ ∃ frame, entry = .send frame) :
    NeverCutOff radio entries := by
  have hsound : radio.Sound := by
    intro hidle
    rw [hclear] at hidle
    cases hidle
  induction entries generalizing radio with
  | nil => exact (neverCutOff_nil radio).mpr hsound
  | cons entry rest ih =>
      rw [List.forall_mem_cons] at h
      rw [neverCutOff_cons]
      rcases h.1 with rfl | ⟨frame, rfl⟩
      · exact ⟨⟨hsound, RadioEntry.noConfusion⟩, ih rfl h.2 Bool.noConfusion⟩
      · exact ⟨⟨hsound, RadioEntry.noConfusion⟩, ih hclear h.2 fun hidle =>
          absurd (hclear.symm.trans hidle) Bool.noConfusion⟩

include hsound

theorem neverCutOff_sendPendingAck : NeverCutOff device.radio device.sendPendingAck.2 := by
  rw [Device.sendPendingAck]
  split
  · simp only [Device.record, Device.sendControl, List.cons_append, List.nil_append]
    rw [neverCutOff_cons, neverCutOff_cons]
    have hcleared : (device.radio.after (.setIdle false)).Sound := Bool.noConfusion
    exact ⟨⟨hsound, RadioEntry.noConfusion⟩, ⟨hcleared, RadioEntry.noConfusion⟩,
      neverCutOff_control _ hcleared _⟩
  · exact (neverCutOff_nil device.radio).mpr hsound

/-- Receive mode is entered when nothing waits, and the flag is clear behind it. -/
theorem neverCutOff_enterRx : NeverCutOff device.radio device.enterRx.2 ∧
    device.enterRx.1.radio.isLoRaIdle = false := by
  rw [Device.enterRx]
  by_cases hidle : device.radio.isLoRaIdle = true
  · rw [if_pos hidle]
    refine ⟨?_, rfl⟩
    rw [Device.record, neverCutOff_cons, neverCutOff_cons, neverCutOff_nil]
    have hcleared : (device.radio.after (.setIdle false)).Sound := Bool.noConfusion
    exact ⟨⟨hsound, RadioEntry.noConfusion⟩, ⟨hcleared, fun _ => hsound hidle⟩, hcleared⟩
  · rw [if_neg hidle]
    exact ⟨(neverCutOff_nil device.radio).mpr hsound, Bool.eq_false_iff.mpr hidle⟩

omit hsound in
theorem neverCutOff_readHost (hclear : device.radio.isLoRaIdle = false) (found : Found)
    (serial : Bytes) : NeverCutOff device.radio (device.readHost found serial).2 := by
  have hentries : NeverCutOff device.radio
      (Device.hostEntries serial (hostSerialRead serial device.toHost).2) := by
    apply neverCutOff_clear hclear
    intro entry hmem
    rcases List.mem_flatMap.mp hmem with ⟨frame, -, hentry⟩
    split at hentry
    · rcases List.mem_cons.mp hentry with rfl | hsend
      · exact Or.inl rfl
      · exact Or.inr ⟨frame, List.mem_singleton.mp hsend⟩
    · exact Or.inr ⟨frame, List.mem_singleton.mp hentry⟩
  rw [Device.readHost]
  split
  · simp only
    split
    · rw [Device.andRestart, Device.restart, neverCutOff_append]
      exact ⟨hentries, neverCutOff_restarted _ hentries.sound_afterAll⟩
    · exact hentries
  · apply neverCutOff_clear hclear
    intro entry hmem
    exact absurd hmem List.not_mem_nil

/-- **The loop itself spares the radio.** -/
theorem neverCutOff_control_loop (found : Found) (serial : Bytes) :
    NeverCutOff device.radio (device.control found serial).2 := by
  have hack := neverCutOff_sendPendingAck hsound
  have hacked : device.sendPendingAck.1.radio.Sound := by
    rw [device.follows_sendPendingAck]
    exact hack.sound_afterAll
  rcases neverCutOff_enterRx hacked with ⟨hlisten, hclear⟩
  rw [Device.control, neverCutOff_append, neverCutOff_append, ← device.follows_sendPendingAck,
    ← Device.follows_enterRx]
  exact ⟨hack, hlisten, neverCutOff_readHost hclear found serial⟩

omit hsound in
/-- What comes of a packet is only transmissions. -/
theorem isRadio_of_mem_effects (sent : UInt32) (effects : List Effect) :
    ∀ entry ∈ (LoggedRun.run (Effect.perform sent) device effects).2, entry.IsRadio := by
  induction effects generalizing device with
  | nil =>
      intro entry hmem
      exact absurd hmem List.not_mem_nil
  | cons effect rest ih =>
      intro entry hmem
      cases List.mem_append.mp hmem with
      | inr hlater => exact ih entry hlater
      | inl hhere =>
          cases effect with
          | transmit frame => exact isRadio_of_mem_frame hhere
          | handleConfirmationReceived data =>
              exact (Device.performAll_onlyTransmits _ _).entries entry hhere
          | host bytes => exact absurd hhere List.not_mem_nil
          | submit call => exact absurd hhere List.not_mem_nil
          | post request => exact absurd hhere List.not_mem_nil
          | abort => exact absurd hhere List.not_mem_nil

omit hsound in
/-- When effects with at most one confirmation send nothing. -/
theorem sentFrames_effects_eq_nil_iff (sent : UInt32) {effects : List Effect}
    (hone : (confirmations effects).length ≤ 1) :
    sentFrames (LoggedRun.run (Effect.perform sent) device effects).2 = [] ↔
      transmissions effects = [] ∧ ∀ data ∈ confirmations effects,
        ∀ call ∈ senderCalls (device.queue.step (.confirmation data sent)).2, call.TooLong := by
  induction effects generalizing device with
  | nil => exact iff_of_true rfl ⟨rfl, fun data hmem => absurd hmem List.not_mem_nil⟩
  | cons effect rest ih =>
      rw [LoggedRun.run, sentFrames_append, List.append_eq_nil_iff]
      cases effect with
      | transmit frame =>
          exact iff_of_false (fun h => absurd h.1 (List.cons_ne_nil _ _))
            fun h => absurd h.1 (List.cons_ne_nil _ _)
      | handleConfirmationReceived data =>
          have hconfirmed : confirmations (Effect.handleConfirmationReceived data :: rest) =
              data :: confirmations rest := rfl
          rw [hconfirmed, List.length_cons] at hone
          have hrest : confirmations rest = [] :=
            List.length_eq_zero_iff.mp (Nat.le_zero.mp (Nat.le_of_succ_le_succ hone))
          have hlater : sentFrames (LoggedRun.run (Effect.perform sent)
              ((Effect.handleConfirmationReceived data).perform sent device).1 rest).2 = [] ↔
              transmissions rest = [] := by
            rw [ih (hrest ▸ Nat.zero_le 1), hrest, and_iff_left_iff_imp]
            intro _ other hmem
            exact absurd hmem List.not_mem_nil
          have hhere : sentFrames ((Effect.handleConfirmationReceived data).perform sent
              device).2 = [] ↔ ∀ call ∈ senderCalls
                (device.queue.step (.confirmation data sent)).2, call.TooLong :=
            sentFrames_performAll_eq_nil_iff _
          have htransmitted : transmissions (Effect.handleConfirmationReceived data :: rest) =
              transmissions rest := rfl
          rw [hlater, hhere, hconfirmed, hrest, htransmitted, List.forall_mem_singleton, and_comm]
      | host bytes => exact (and_iff_right rfl).trans (ih hone)
      | submit call => exact (and_iff_right rfl).trans (ih hone)
      | post request => exact (and_iff_right rfl).trans (ih hone)
      | abort => exact (and_iff_right rfl).trans (ih hone)

/-- What is logged when a packet is heard. -/
theorem neverCutOff_hear (world : World) (now : UInt32) (payload : Bytes) :
    NeverCutOff device.radio (device.hear world now payload).2 ∧
      (device.hear world now payload).1.radio = device.radio := by
  rw [Device.hear, Device.record]
  cases device.node.pingedBy payload with
  | none => exact ⟨(neverCutOff_nil _).mpr hsound, rfl⟩
  | some source =>
      refine ⟨?_, rfl⟩
      rw [Option.toList_some, List.map_cons, List.map_nil, neverCutOff_cons, neverCutOff_nil]
      exact ⟨⟨hsound, RadioEntry.noConfusion⟩, hsound⟩

/-- A packet upon which the firmware aborts. -/
theorem neverCutOff_onRxDone_of_aborts (found : Found) {world : World} {now : UInt32}
    (sent : UInt32) {payload : Bytes} (haborts : device.Aborts world now payload) :
    NeverCutOff device.radio (device.onRxDone found world now sent payload).2 := by
  have hheard := neverCutOff_hear hsound world now payload
  have hparsed : device.parse world now sent payload = device.hear world now payload := by
    rw [Device.parse, device.node.effects_of_abort world now payload haborts]
    exact Prod.ext rfl (List.append_nil _)
  rw [Device.onRxDone, if_pos haborts, hparsed, Device.andRestart, Device.restart,
    neverCutOff_append]
  exact ⟨hheard.1, neverCutOff_restarted _ hheard.1.sound_afterAll⟩

/-- A received packet. -/
theorem neverCutOff_onRxDone_iff (found : Found) (world : World) (now sent : UInt32)
    (payload : Bytes) :
    NeverCutOff device.radio (device.onRxDone found world now sent payload).2 ↔
      device.Aborts world now payload ∨
        (device.radio.waiting = 0 ∧ device.Ignores now sent world payload) := by
  by_cases haborts : device.Aborts world now payload
  · exact iff_of_true (neverCutOff_onRxDone_of_aborts hsound found sent haborts) (.inl haborts)
  · have hheard := neverCutOff_hear hsound world now payload
    have hradio := hheard.2
    have hone := device.node.length_confirmations_receive world now payload
    rw [Device.onRxDone, if_neg haborts, or_iff_right haborts, Device.parse]
    simp only
    rw [List.append_assoc, neverCutOff_append, ← device.follows_hear, and_iff_right hheard.1]
    refine (neverCutOff_idle _ (isRadio_of_mem_effects sent _)).trans ?_
    rw [hradio, sentFrames_effects_eq_nil_iff sent hone, Node.transmissions_receive_eq_nil_iff]
    rfl

/-- A callback. -/
theorem neverCutOff_callback_iff (found : Found) (event : RadioCallback) :
    NeverCutOff device.radio (device.callback found event).2 ↔ event.Spares device := by
  have hreported (count : Nat) : NeverCutOff device.radio [.txReported count, .setIdle true] ↔
      device.radio.waiting ≤ count := by
    have hless : (device.radio.after (.txReported count)).Sound := by
      intro hidle
      exact (congrArg (· - count) (hsound hidle)).trans (Nat.zero_sub count)
    rw [neverCutOff_cons, neverCutOff_setIdle _ hless,
      and_iff_right ⟨hsound, RadioEntry.noConfusion⟩]
    exact Nat.sub_eq_zero_iff_le
  cases event with
  | txDone count => exact hreported count
  | txTimeout count => exact hreported count
  | rxTimeout => exact neverCutOff_setIdle _ hsound
  | rxDone world now sent payload =>
      exact neverCutOff_onRxDone_iff hsound found world now sent payload

/-- **One step.** -/
theorem LoopStep.neverCutOff_iff (step : LoopStep) :
    NeverCutOff device.radio (step.perform device).2 ↔ step.Spares device := by
  have hnothing := (neverCutOff_nil device.radio).mpr hsound
  cases step with
  | handleClient request =>
      cases request with
      | none => exact iff_of_true hnothing trivial
      | some request =>
          have hradio := (request.configure_keeps device).2.2
          have hstart : (request.configure device).radio.Sound := hradio ▸ hsound
          have hcalls := neverCutOff_performAll_iff hstart (request.calls device)
          rw [hradio] at hcalls
          exact hcalls
  | cleanup now => exact iff_of_true hnothing trivial
  | checkRequestTimeouts currentTime sent =>
      have hstart : ({ device with
          queue := (device.queue.step (.check currentTime sent)).1 } : Device).radio.Sound := hsound
      exact neverCutOff_performAll_iff hstart _
  | control found serial => exact iff_of_true (neverCutOff_control_loop hsound found serial) trivial
  | callback found event => exact neverCutOff_callback_iff hsound found event

end Steps

/-! ## Runs -/

/-- The device in front of the `n`-th step of a run of the loop. -/
def Device.beforeStep (device : Device) (turns : List LoopTurn) (n : Nat) : Device :=
  (LoggedRun.run LoopStep.perform device ((turns.flatMap LoopTurn.steps).take n)).1

/-- A turn in which the phone sends a message, at a node that has just been switched on. -/
def messageTurn : LoopTurn where
  request := some (.target ⟨0, false, id⟩
    (.apiMessage (some (ascii "hi")) (some (ascii "10.0.2")) none))
  now := 0
  currentTime := 0
  sent := 0
  serial := []
  events := []
  found := ⟨GatewayConfig.boot, false, false⟩

end RadioDoge.V3
