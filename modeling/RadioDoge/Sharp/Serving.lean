/-
# Serving whatever arrives

The port manager hands whole payloads to the processor of payloads, which writes commands to the
port. Between the two there is nothing but the payloads and their senders: a run of the hub is a run
of the port manager, and a run of the processor on what was handed over.

A packet of one part does not touch the message that is being put together, so packets may arrive
between the parts of a message. What the hub writes goes to the sender of a payload it was handed,
and what it writes in answer to an answer is answered by nothing.
-/

import RadioDoge.Lib.FallibleRun
import RadioDoge.Sharp.PortData

namespace RadioDoge.Sharp

open FallibleRun

/-! ## The port manager and the processor -/

/-- A payload that is handed to the processor, and the kind of packet it came in. -/
structure Handed where
  kind : SerialCommand
  sender : NodeAddress
  payload : Bytes
  deriving DecidableEq, Repr

/-- `PortDataReceived` up to the call of `processDogePayloadFunction`. -/
def handOver (currMultipartPacket : MultipartPacket) (incoming : Bytes) :
    Throws (MultipartPacket × List Handed) :=
  match readPacket incoming with
  | none => pure (currMultipartPacket, [])
  | some (commandType, payload) =>
      match SerialCommand.ofCode? commandType with
      | some .multipartPacket => do
          let added ← currMultipartPacket.addPacketPiece payload
          if added.1 = .complete then
            pure (.fresh, [⟨.multipartPacket, added.2.senderAddress, added.2.getPayload⟩])
          else pure (added.2, [])
      | some .hostFormedPacket => do
          let extracted ← extractHostFormedPacketData payload
          pure (currMultipartPacket, [⟨.hostFormedPacket, extracted.1, extracted.2⟩])
      | _ => do
          processSerialSetupCommandPayload commandType payload
          pure (currMultipartPacket, [])

section Serving

variable {W : Type} (library : LibDogecoin W)

/-- `ProcessDogePayload`, of a payload that is handed over. -/
def serve (hub : Hub W) (handed : Handed) : Throws (Hub W × List Bytes) :=
  processDogePayload library handed.sender handed.payload hub

/-- One payload. -/
theorem run_serve_singleton {hub hub' : Hub W} {handed : Handed} {commands : List Bytes} :
    run (serve library) hub [handed] = .ok (hub', commands) ↔
      processDogePayload library handed.sender handed.payload hub = .ok (hub', commands) := by
  rw [run_cons_eq_ok]
  apply Iff.intro
  · rintro ⟨between, first, later, hfirst, hlater, rfl⟩
    rcases Prod.mk.inj (Except.ok.inj hlater) with ⟨rfl, rfl⟩
    rw [List.append_nil]
    exact hfirst
  · exact fun hserved => ⟨hub', commands, [], hserved, rfl, (List.append_nil _).symm⟩

/-- The parts of the hub. -/
def hostParts (W : Type) : Host W ≃ MultipartPacket × Hub W where
  toFun host := (host.currMultipartPacket, host.hub)
  invFun parts := ⟨parts.2, parts.1⟩
  left_inv _ := rfl
  right_inv _ := rfl

/-- One packet: the port manager and the processor in series. -/
theorem portDataReceived_eq_ok_iff (host host' : Host W) (incoming : Bytes)
    (commands : List Bytes) :
    portDataReceived library incoming host = .ok (host', commands) ↔
      series handOver (serve library) (hostParts W host) incoming =
        .ok (hostParts W host', commands) := by
  rcases host with ⟨hub, packet⟩
  rcases host' with ⟨hub', packet'⟩
  have hfails : ∀ e, (.error e : Throws (Host W × List Bytes)) = .ok (⟨hub', packet'⟩, commands) ↔
      ∃ handed, (.error e : Throws (MultipartPacket × List Handed)) = .ok (packet', handed) ∧
        run (serve library) hub handed = .ok (hub', commands) := by
    intro e
    apply Iff.intro
    · intro h
      cases h
    · intro h
      rcases h with ⟨_, h, -⟩
      cases h
  have hnothing : ∀ {kept : MultipartPacket} {checked : Throws Unit},
      (checked >>= fun _ => pure (⟨hub, kept⟩, [])) =
          (.ok (⟨hub', packet'⟩, commands) : Throws (Host W × List Bytes)) ↔
        ∃ handed, (checked >>= fun _ => pure (kept, [])) =
            (.ok (packet', handed) : Throws (MultipartPacket × List Handed)) ∧
          run (serve library) hub handed = .ok (hub', commands) := by
    intro kept checked
    cases checked with
    | error e => exact hfails e
    | ok _ =>
        apply Iff.intro
        · intro h
          rcases Prod.mk.inj (Except.ok.inj h) with ⟨hhost, rfl⟩
          rcases Host.mk.inj hhost with ⟨rfl, rfl⟩
          exact ⟨[], rfl, rfl⟩
        · rintro ⟨handed, hsame, hrun⟩
          rcases Prod.mk.inj (Except.ok.inj hsame) with ⟨rfl, rfl⟩
          rcases Prod.mk.inj (Except.ok.inj hrun) with ⟨rfl, rfl⟩
          rfl
  have hserved : ∀ (kind : SerialCommand) (sent : NodeAddress × Bytes) (kept : MultipartPacket),
      (processDogePayload library sent.1 sent.2 hub >>= fun result =>
          pure (⟨result.1, kept⟩, result.2)) =
          (.ok (⟨hub', packet'⟩, commands) : Throws (Host W × List Bytes)) ↔
        ∃ handed, (pure (kept, [⟨kind, sent.1, sent.2⟩]) :
            Throws (MultipartPacket × List Handed)) = .ok (packet', handed) ∧
          run (serve library) hub handed = .ok (hub', commands) := by
    intro kind sent kept
    rw [bind_eq_ok]
    apply Iff.intro
    · rintro ⟨⟨served, out⟩, hdoge, hpair⟩
      rcases Prod.mk.inj (Except.ok.inj hpair) with ⟨hhost, rfl⟩
      rcases Host.mk.inj hhost with ⟨rfl, rfl⟩
      exact ⟨[⟨kind, sent.1, sent.2⟩], rfl, (run_serve_singleton library).mpr hdoge⟩
    · rintro ⟨handed, hsame, hrun⟩
      rcases Prod.mk.inj (Except.ok.inj hsame) with ⟨rfl, rfl⟩
      exact ⟨(hub', commands), (run_serve_singleton library).mp hrun, rfl⟩
  rw [hostParts, Equiv.coe_fn_mk, series_eq_ok, portDataReceived, handOver]
  cases readPacket incoming with
  | none => exact @hnothing packet (pure ())
  | some read =>
      rcases read with ⟨commandType, payload⟩
      simp only [processReceived]
      cases SerialCommand.ofCode? commandType with
      | none => exact hnothing
      | some command =>
          cases command with
          | multipartPacket =>
              simp only
              cases packet.addPacketPiece payload with
              | error e => exact hfails e
              | ok added =>
                  rw [bind_ok, bind_ok]
                  by_cases hcomplete : added.1 = .complete
                  · rw [if_pos hcomplete, if_pos hcomplete, processCompletePacket]
                    exact hserved .multipartPacket (added.2.senderAddress, added.2.getPayload) .fresh
                  · rw [if_neg hcomplete, if_neg hcomplete]
                    exact @hnothing added.2 (pure ())
          | hostFormedPacket =>
              simp only
              cases extractHostFormedPacketData payload with
              | error e => exact hfails e
              | ok extracted =>
                  rw [bind_ok, bind_ok]
                  exact hserved .hostFormedPacket extracted packet
          | _ => exact hnothing

/-- **A run of the hub.** It is a run of the port manager, and a run of the processor on the
payloads that were handed over. -/
theorem run_portDataReceived_eq_ok_iff {host host' : Host W} {frames commands : List Bytes} :
    run (fun host incoming => portDataReceived library incoming host) host frames =
        .ok (host', commands) ↔
      ∃ handed, run handOver host.currMultipartPacket frames =
          .ok (host'.currMultipartPacket, handed) ∧
        run (serve library) host.hub handed = .ok (host'.hub, commands) := by
  rw [run_equiv _ (hostParts W) fun host host' incoming out =>
    portDataReceived_eq_ok_iff library host host' incoming out]
  exact run_series_eq_ok handOver (serve library)

end Serving

/-! ## Packets between the parts of a message -/

/-- A packet of one part that has room for its payload. -/
abbrev ShortPacket : Type := { p : HostPacket // p.payload.length ≤ 247 }

/-- What arrives: a part of a message, or a packet of its own. -/
def arrival : Bytes ⊕ ShortPacket → Bytes
  | .inl piece => framed .multipartPacket piece
  | .inr p => p.val.frame

/-- The parts of a message, as they stand in their frames. -/
def pieces (m : HostMessage) : List Bytes := (List.range m.parts).map m.body

/-- What a message is handed over as. -/
def whole (m : HostMessage) : Handed := ⟨.multipartPacket, m.src, m.payload⟩

/-- A packet is handed over at once, and the current message stays as it is. -/
theorem handOver_packet (currMultipartPacket : MultipartPacket) (p : ShortPacket) :
    handOver currMultipartPacket (arrival (.inr p)) =
      .ok (currMultipartPacket, [⟨.hostFormedPacket, p.val.src, p.val.payload⟩]) := by
  have hlen := p.property
  have hread : readPacket (arrival (.inr p)) = some (SerialCommand.hostFormedPacket.code,
      p.val.src.bytes ++ p.val.dest.bytes ++ p.val.payload) :=
    readPacket_framed .hostFormedPacket (by
      simp only [List.length_append, NodeAddress.length_bytes]
      omega)
  rw [handOver, hread]
  simp only [SerialCommand.ofCode?_code]
  rw [extractHostFormedPacketData_eq p.val, bind_ok]
  rfl

/-- What parts of messages hand over is a message. -/
theorem kind_of_handOver {packet packet' : MultipartPacket} {piece : Bytes} {handed : List Handed}
    (h : handOver packet (arrival (.inl piece)) = .ok (packet', handed)) :
    ∀ one ∈ handed, one.kind = .multipartPacket := by
  intro one hmem
  rw [handOver] at h
  cases hread : readPacket (arrival (.inl piece)) with
  | none =>
      rw [hread] at h
      rcases Prod.mk.inj (Except.ok.inj h) with ⟨-, rfl⟩
      cases hmem
  | some read =>
      have hcode : read.1 = SerialCommand.multipartPacket.code := by
        rw [arrival, framed, readPacket] at hread
        split at hread
        · rw [← Option.some.inj hread]
        · cases hread
      rw [hread] at h
      simp only [hcode, SerialCommand.ofCode?_code] at h
      rcases (bind_eq_ok _ _).mp h with ⟨added, -, hadded⟩
      split at hadded
      · rcases Prod.mk.inj (Except.ok.inj hadded) with ⟨-, rfl⟩
        rw [List.eq_of_mem_singleton hmem]
      · rcases Prod.mk.inj (Except.ok.inj hadded) with ⟨-, rfl⟩
        cases hmem

/-- From any part on, the parts of a message complete it. -/
theorem run_pieces_from (m : HostMessage) (hparts : m.parts ≤ 255) (remaining : Nat) :
    ∀ part, part + (remaining + 1) = m.parts →
      run (fun packet piece => handOver packet (arrival (.inl piece))) (.holding m part)
          ((List.range' part (remaining + 1)).map m.body) = .ok (.fresh, [whole m]) := by
  have hone : ∀ part < m.parts, handOver (.holding m part) (arrival (.inl (m.body part))) =
      if part + 1 = m.parts then .ok (.fresh, [whole m])
      else .ok (.holding m (part + 1), []) := by
    intro part hpart
    have hlen := m.length_frame_le part
    rw [HostMessage.frame, length_framed] at hlen
    have hread : readPacket (arrival (.inl (m.body part))) =
        some (SerialCommand.multipartPacket.code, m.body part) :=
      readPacket_framed .multipartPacket (Nat.le_of_add_right_le hlen)
    rw [handOver, hread]
    simp only [SerialCommand.ofCode?_code]
    rw [MultipartPacket.addPacketPiece_body m hpart hparts, bind_ok]
    by_cases hlast : part + 1 = m.parts
    · rw [if_pos hlast, if_pos hlast, if_pos rfl, MultipartPacket.getPayload_completed]
      rfl
    · rw [if_neg hlast, if_neg hlast, if_neg (fun hcode => by cases hcode)]
      rfl
  induction remaining with
  | zero =>
      intro part hpart
      have hstep := hone part (by omega)
      rw [if_pos (by omega)] at hstep
      rw [List.range'_succ, List.map_cons, run_cons_eq_ok]
      exact ⟨.fresh, [whole m], [], hstep, rfl, rfl⟩
  | succ remaining ih =>
      intro part hpart
      have hstep := hone part (by omega)
      rw [if_neg (by omega)] at hstep
      rw [List.range'_succ, List.map_cons, run_cons_eq_ok]
      exact ⟨.holding m (part + 1), [], [whole m], hstep, ih (part + 1) (by omega), rfl⟩

/-- Messages that arrive one after the other. -/
theorem run_messages {messages : List HostMessage}
    (hparts : ∀ m ∈ messages, 0 < m.parts ∧ m.parts ≤ 255) :
    run (fun packet piece => handOver packet (arrival (.inl piece))) .fresh
      (messages.flatMap pieces) = .ok (.fresh, messages.map whole) := by
  induction messages with
  | nil => rfl
  | cons m messages ih =>
      rcases hparts m List.mem_cons_self with ⟨hpos, hle⟩
      have hfirst := run_pieces_from m hle (m.parts - 1) 0 (by omega)
      rw [Nat.sub_add_cancel hpos, ← List.range_eq_range'] at hfirst
      rw [List.flatMap_cons, run_append_eq_ok]
      exact ⟨.fresh, [whole m], messages.map whole, hfirst,
        ih fun other hmem => hparts other (List.mem_cons_of_mem m hmem), rfl⟩

/-- **Packets between the parts.** The parts of messages arrive in their order, and among them
packets of their own, anywhere. Then every message is handed over once and whole, and so is every
packet, each kind in the order in which it arrived. -/
theorem run_handOver_arrivals {messages : List HostMessage}
    (hparts : ∀ m ∈ messages, 0 < m.parts ∧ m.parts ≤ 255) {arrivals : List (Bytes ⊕ ShortPacket)}
    (hmessages : arrivals.filterMap Sum.getLeft? = messages.flatMap pieces) :
    ∃ handed, run handOver .fresh (arrivals.map arrival) = .ok (.fresh, handed) ∧
      handed.filter (fun one => decide (one.kind = .multipartPacket)) = messages.map whole ∧
      handed.filter (fun one => !decide (one.kind = .multipartPacket)) =
        (arrivals.filterMap Sum.getRight?).map fun p =>
          ⟨.hostFormedPacket, p.val.src, p.val.payload⟩ := by
  have halone := run_messages hparts
  rw [← hmessages] at halone
  rcases run_interleaved (fun packet item => handOver packet (arrival item))
      (fun packet p => handOver_packet packet p)
      (fun packet piece packet' handed h one hmem => decide_eq_true (kind_of_handOver h one hmem))
      (fun p one hmem => by rw [List.eq_of_mem_singleton hmem]; rfl) halone with
    ⟨handed, hrun, hown, hother⟩
  refine ⟨handed, ?_, hown, ?_⟩
  · rw [run_map]
    exact hrun
  · rw [hother]
    exact List.flatMap_pure_eq_map _ _

/-- A message of two parts, and a request between them. -/
example :
    let m : HostMessage := ⟨⟨10, 0, 2⟩, ⟨10, 0, 1⟩, 7, 170 :: List.replicate 200 48⟩
    let request : ShortPacket := ⟨⟨⟨10, 0, 3⟩, ⟨10, 0, 1⟩, [101, 68]⟩, by decide⟩
    let arrivals := [.inl (m.body 0), .inr request, .inl (m.body 1)]
    ∃ handed, run handOver .fresh (arrivals.map arrival) = .ok (.fresh, handed) ∧
      handed.filter (fun one => decide (one.kind = .multipartPacket)) = [m].map whole ∧
      handed.filter (fun one => !decide (one.kind = .multipartPacket)) =
        (arrivals.filterMap Sum.getRight?).map fun p =>
          ⟨.hostFormedPacket, p.val.src, p.val.payload⟩ := by
  intro m request arrivals
  exact @run_handOver_arrivals [m] (by decide +kernel) arrivals (by decide +kernel)

/-! ## What is written -/

/-- Commands that carry one payload, in a packet or in parts. -/
def Carries (src dest : NodeAddress) (answer : Bytes) (commands : List Bytes) : Prop :=
  commands = [HostPacket.command ⟨src, dest, answer⟩] ∨
    commands = HostMessage.commands ⟨src, dest, 123, answer⟩

/-- The commands of the Dogecoin layer that may answer one. -/
def answersTo : DogeCommandType → List DogeCommandType
  | .getDogeAddress => [.sendDogeAddress]
  | .sendDogeAddress => [.dogeCommandFailure]
  | .requestBalance => [.balanceReceived, .dogeCommandFailure]
  | .registration => [.dogeCommandSuccess, .dogeCommandFailure]
  | .getUTXOs => [.sendUTXOs, .dogeCommandFailure]
  | .transactionRequest => [.transactionResult]
  | _ => []

/-- A payload that may answer another one. -/
def Answers (request answer : Bytes) : Prop :=
  ∃ command, request.head?.bind DogeCommandType.ofCode? = some command ∧
    ∃ reply ∈ answersTo command, answer.head? = some reply.code

/-- Nothing is written, or one answer to the sender. -/
def AnswersOnce (src dest : NodeAddress) (request : Bytes) (commands : List Bytes) : Prop :=
  commands = [] ∨ ∃ answer, Answers request answer ∧ Carries src dest answer commands

/-- A property of the wallet that no call but a broadcast can end. -/
structure LibDogecoin.Keeps {W : Type} (library : LibDogecoin W) (P : W → Prop) : Prop where
  register : ∀ wallet address, P wallet → P (library.registerWatchAddress wallet address).2
  unregister : ∀ wallet address, P wallet → P (library.unregisterWatchAddress wallet address).2
  generate : ∀ wallet, P wallet → P (library.generatePrivPubKeypair wallet).2

/-- What the hub does with a payload. -/
structure Served {W : Type} (library : LibDogecoin W) (sender : NodeAddress) (payload : Bytes)
    (hub hub' : Hub W) (commands : List Bytes) : Prop where
  localAddress : hub'.localAddress = hub.localAddress
  answered : AnswersOnce hub.localAddress sender payload commands
  wallet : payload.head? ≠ some DogeCommandType.transactionRequest.code →
    ∀ P : W → Prop, library.Keeps P → P hub.wallet → P hub'.wallet

section Answering

variable {W : Type} (library : LibDogecoin W) {sender : NodeAddress} {payload : Bytes}
  {hub hub' : Hub W} {commands : List Bytes}

/-- A packet with an answer. -/
theorem answersOnce_createPacket {command reply : DogeCommandType} {rest : Bytes}
    (hcommand : payload.head?.bind DogeCommandType.ofCode? = some command)
    (hreply : reply ∈ answersTo command) (localAddress : NodeAddress) :
    AnswersOnce localAddress sender payload
      [createPacket sender localAddress (reply.code :: rest)] :=
  .inr ⟨reply.code :: rest, ⟨command, hcommand, reply, hreply, rfl⟩,
    .inl (congrArg (fun one => [one])
      (createPacket_eq ⟨localAddress, sender, reply.code :: rest⟩))⟩

/-- A response, of success or failure. -/
theorem answersOnce_generic {command : DogeCommandType} {success : Bool}
    {responseCommand : DogeCommandType} {responseCode : DogeResponseCode}
    (hcommand : payload.head?.bind DogeCommandType.ofCode? = some command)
    (hsuccess : success = true → .dogeCommandSuccess ∈ answersTo command)
    (hfailure : success = false → .dogeCommandFailure ∈ answersTo command)
    (localAddress : NodeAddress) :
    AnswersOnce localAddress sender payload
      [sendGenericDogeResponse localAddress sender success responseCommand responseCode] := by
  cases success with
  | true => exact answersOnce_createPacket hcommand (hsuccess rfl) localAddress
  | false => exact answersOnce_createPacket hcommand (hfailure rfl) localAddress

/-- A registration does not touch the address of the hub, and the wallet only by two calls. -/
theorem perform_spec (r : RegistrationRequest) (sender : NodeAddress) (hub : Hub W) :
    (r.perform library.toWatchLibrary sender hub).hub.localAddress = hub.localAddress ∧
      ∀ P : W → Prop, library.Keeps P → P hub.wallet →
        P (r.perform library.toWatchLibrary sender hub).hub.wallet := by
  have hsame : hub.localAddress = hub.localAddress ∧
      ∀ P : W → Prop, library.Keeps P → P hub.wallet → P hub.wallet :=
    ⟨rfl, fun _ _ h => h⟩
  rw [RegistrationRequest.perform]
  by_cases hshort : r.address.length ≤ maxAddressLength
  · rw [if_pos hshort]
    cases RegistrationFunction.ofCode? r.regOpcode with
    | none => exact hsame
    | some operation =>
        cases operation with
        | addRegistration =>
            simp only [addRegistration]
            split
            · exact hsame
            · exact ⟨rfl, fun P hkeeps => hkeeps.register _ _⟩
        | removeRegistration =>
            simp only [removeRegistration]
            split
            · split
              · exact ⟨rfl, fun P hkeeps => hkeeps.unregister _ _⟩
              · exact hsame
            · exact hsame
        | updatePin =>
            simp only [RegistrationRequest.changePin]
            split
            · split
              · exact hsame
              · exact hsame
            · exact hsame
  · rw [if_neg hshort]
    exact hsame

/-- Nothing but an answer. -/
theorem served_same (hanswered : AnswersOnce hub.localAddress sender payload commands) :
    Served library sender payload hub hub commands :=
  ⟨rfl, hanswered, fun _ _ _ h => h⟩

/-- A request for a balance. -/
theorem served_requestBalance
    (hcommand : payload.head?.bind DogeCommandType.ofCode? = some .requestBalance)
    (h : serviceBalanceRequest library sender payload hub = .ok (hub', commands)) :
    Served library sender payload hub hub' commands := by
  rw [serviceBalanceRequest] at h
  rcases (bind_eq_ok _ _).mp h with ⟨address, -, hanswer⟩
  cases hentry : hub.dogeAddressBook.lookup address with
  | none =>
      rw [hentry] at hanswer
      rcases Prod.mk.inj (Except.ok.inj hanswer) with ⟨rfl, rfl⟩
      exact served_same library (answersOnce_generic hcommand (fun h => by cases h)
        (fun _ => by decide) _)
  | some entry =>
      rw [hentry] at hanswer
      rcases Prod.mk.inj (Except.ok.inj hanswer) with ⟨rfl, rfl⟩
      exact served_same library (answersOnce_createPacket hcommand (by decide) _)

/-- A request for the unspent outputs. -/
theorem served_getUTXOs (hcommand : payload.head?.bind DogeCommandType.ofCode? = some .getUTXOs)
    (h : serviceUTXORequest library sender payload hub = .ok (hub', commands)) :
    Served library sender payload hub hub' commands := by
  rw [serviceUTXORequest] at h
  rcases (bind_eq_ok _ _).mp h with ⟨address, -, hanswer⟩
  have hrefused : ∀ responseCode, AnswersOnce hub.localAddress sender payload
      [sendGenericDogeResponse hub.localAddress sender false .getUTXOs responseCode] :=
    fun _ => answersOnce_generic hcommand (fun h => by cases h) (fun _ => by decide) _
  split at hanswer
  · rcases Prod.mk.inj (Except.ok.inj hanswer) with ⟨rfl, rfl⟩
    apply served_same
    rw [sendUTXOs]
    split
    · exact .inr ⟨_, ⟨_, hcommand, .sendUTXOs, by decide, rfl⟩,
        .inr (createMultipartPackets_eq ⟨_, _, 123, _⟩ rfl)⟩
    · exact hrefused _
  · rcases Prod.mk.inj (Except.ok.inj hanswer) with ⟨rfl, rfl⟩
    exact served_same library (hrefused _)

/-- An address that is sent. -/
theorem served_sendDogeAddress
    (hcommand : payload.head?.bind DogeCommandType.ofCode? = some .sendDogeAddress)
    (h : receiveDogeAddress sender payload hub = .ok (hub', commands)) :
    Served library sender payload hub hub' commands := by
  simp only [receiveDogeAddress] at h
  split at h
  · rcases (bind_eq_ok _ _).mp h with ⟨-, -, hpair⟩
    rcases Prod.mk.inj (Except.ok.inj hpair) with ⟨rfl, rfl⟩
    exact served_same library (.inl rfl)
  · rcases Prod.mk.inj (Except.ok.inj h) with ⟨rfl, rfl⟩
    exact served_same library (answersOnce_generic hcommand (fun h => by cases h)
      (fun _ => by decide) _)

/-- A request for an address. -/
theorem served_getDogeAddress
    (hcommand : payload.head?.bind DogeCommandType.ofCode? = some .getDogeAddress)
    (h : sendDogeAddress library sender hub = (hub', commands)) :
    Served library sender payload hub hub' commands := by
  rw [sendDogeAddress] at h
  cases hpair : (library.generatePrivPubKeypair hub.wallet).1 with
  | none =>
      simp only [hpair] at h
      rcases Prod.mk.inj h with ⟨rfl, rfl⟩
      exact ⟨rfl, .inl rfl, fun _ P hkeeps => hkeeps.generate _⟩
  | some publickey =>
      simp only [hpair] at h
      rcases Prod.mk.inj h with ⟨rfl, rfl⟩
      exact ⟨rfl, answersOnce_createPacket hcommand (by decide) _,
        fun _ P hkeeps => hkeeps.generate _⟩

/-- **One payload.** The address of the hub stays, at most one answer is written, to the sender,
and the wallet changes by a few calls of the library only. -/
theorem served_processDogePayload
    (h : processDogePayload library sender payload hub = .ok (hub', commands)) :
    Served library sender payload hub hub' commands := by
  cases payload with
  | nil => cases h
  | cons first rest =>
      have hcommand : index (first :: rest) 0 = .ok first := rfl
      have hhead : (first :: rest).head?.bind DogeCommandType.ofCode? =
          DogeCommandType.ofCode? first := rfl
      rw [processDogePayload, hcommand, bind_ok] at h
      have hnothing : ∀ {checked : Throws Unit},
          (checked >>= fun _ => pure (hub, [])) =
              (.ok (hub', commands) : Throws (Hub W × List Bytes)) →
            Served library sender (first :: rest) hub hub' commands := by
        intro checked hchecked
        rcases (bind_eq_ok _ _).mp hchecked with ⟨-, -, hpair⟩
        rcases Prod.mk.inj (Except.ok.inj hpair) with ⟨rfl, rfl⟩
        exact served_same library (.inl rfl)
      cases hfound : DogeCommandType.ofCode? first with
      | none =>
          rw [hfound] at h
          exact @hnothing (pure ()) h
      | some command =>
          rw [hfound] at h hhead
          cases command with
          | registration =>
              rcases registerDogeAddress_eq_ok library.toWatchLibrary h with ⟨header, r, hr, -⟩
              simp only [hr, registerDogeAddress_payload] at h
              rcases Prod.mk.inj (Except.ok.inj h) with ⟨rfl, rfl⟩
              rcases perform_spec library r sender hub with ⟨haddress, hwallet⟩
              exact ⟨haddress, answersOnce_generic hhead (fun _ => by decide) (fun _ => by decide) _,
                fun _ => hwallet⟩
          | getDogeAddress => exact served_getDogeAddress library hhead (Except.ok.inj h)
          | sendDogeAddress => exact served_sendDogeAddress library hhead h
          | requestBalance => exact served_requestBalance library hhead h
          | getUTXOs => exact served_getUTXOs library hhead h
          | transactionRequest =>
              have hcode := DogeCommandType.code_of_ofCode? hfound
              rcases (bind_eq_ok _ _).mp h with ⟨raw, -, hanswer⟩
              rcases Prod.mk.inj (Except.ok.inj hanswer) with ⟨rfl, rfl⟩
              exact ⟨rfl, answersOnce_createPacket hhead (by decide) _,
                fun hother => absurd (congrArg some hcode.symm) hother⟩
          | broadcastReceived =>
              simp only [processReceivedBroadcast] at h
              split at h
              · exact @hnothing (pure ()) h
              · rcases (bind_eq_ok _ _).mp h with ⟨-, -, hpair⟩
                rcases Prod.mk.inj (Except.ok.inj hpair) with ⟨rfl, rfl⟩
                exact served_same library (.inl rfl)
          | _ => exact @hnothing (pure ()) h

/-- One payload after the other. -/
theorem run_serve_answers {handed : List Handed} :
    ∀ {hub hub' : Hub W} {commands : List Bytes},
      run (serve library) hub handed = .ok (hub', commands) →
        hub'.localAddress = hub.localAddress ∧ ∃ answers : List (List Bytes),
          commands = answers.flatten ∧ List.Forall₂ (fun one out =>
            AnswersOnce hub.localAddress one.sender one.payload out) handed answers := by
  induction handed with
  | nil =>
      intro hub hub' commands hrun
      rcases Prod.mk.inj (Except.ok.inj hrun) with ⟨rfl, rfl⟩
      exact ⟨rfl, [], rfl, .nil⟩
  | cons one rest ih =>
      intro hub hub' commands hrun
      rcases (run_cons_eq_ok _).mp hrun with ⟨between, first, later, hfirst, hlater, rfl⟩
      have hserved := served_processDogePayload library hfirst
      rcases ih hlater with ⟨hlast, answers, rfl, hall⟩
      rw [hserved.localAddress] at hlast hall
      exact ⟨hlast, first :: answers, rfl, .cons hserved.answered hall⟩

end Answering

/-- **Answers.** Whatever arrives at a hub, what it writes are answers to the payloads that were
handed over, in their order: at most one answer to each, with the command that belongs to it, from
the address of the hub to the sender of that payload. -/
theorem run_portDataReceived_answers {W : Type} (library : LibDogecoin W) {host host' : Host W}
    {frames commands : List Bytes}
    (hrun : run (fun host incoming => portDataReceived library incoming host) host frames =
      .ok (host', commands)) :
    ∃ handed answers, run handOver host.currMultipartPacket frames =
        .ok (host'.currMultipartPacket, handed) ∧
      commands = answers.flatten ∧ List.Forall₂ (fun one out =>
        AnswersOnce host.hub.localAddress one.sender one.payload out) handed answers := by
  rcases (run_portDataReceived_eq_ok_iff library).mp hrun with ⟨handed, hhanded, hserved⟩
  rcases run_serve_answers library hserved with ⟨-, answers, hcommands, hall⟩
  exact ⟨handed, answers, hhanded, hcommands, hall⟩

/-- A balance is asked for at a hub that knows no address. -/
theorem run_portDataReceived_answers_balance :
    ∃ host' commands, run (fun host incoming => portDataReceived idleLibrary incoming host) freshHost
        [HostPacket.frame ⟨⟨10, 0, 2⟩, ⟨10, 0, 1⟩, [101, 68]⟩] = .ok (host', commands) ∧
      ∃ handed answers, run handOver freshHost.currMultipartPacket
          [HostPacket.frame ⟨⟨10, 0, 2⟩, ⟨10, 0, 1⟩, [101, 68]⟩] =
            .ok (host'.currMultipartPacket, handed) ∧
        commands = answers.flatten ∧ List.Forall₂ (fun one out =>
          AnswersOnce freshHost.hub.localAddress one.sender one.payload out) handed answers :=
  ⟨_, _, rfl, run_portDataReceived_answers idleLibrary rfl⟩

/-! ## Answers to answers -/

/-- A hub, whatever it holds, answers the one payload with the other. -/
def AnsweredBy (request answer : Bytes) : Prop :=
  ∃ (W : Type) (library : LibDogecoin W) (sender : NodeAddress) (hub hub' : Hub W)
    (commands : List Bytes), processDogePayload library sender request hub = .ok (hub', commands) ∧
      commands ≠ [] ∧ Carries hub.localAddress sender answer commands

/-- Commands tell how the payload begins that they carry. -/
theorem head?_eq_of_carries {src dest : NodeAddress} {first second : Bytes} {commands : List Bytes}
    (hsome : commands ≠ []) (hfirst : Carries src dest first commands)
    (hsecond : Carries src dest second commands) : first.head? = second.head? := by
  have hparts : ∀ payload, commands = HostMessage.commands ⟨src, dest, 123, payload⟩ →
      commands.head? = some (HostMessage.command ⟨src, dest, 123, payload⟩ 0) := by
    intro payload hcommands
    rw [HostMessage.commands] at hcommands
    cases hcount : (HostMessage.mk src dest 123 payload).parts with
    | zero =>
        rw [hcount] at hcommands
        exact absurd hcommands hsome
    | succ count =>
        rw [hcommands, hcount, List.range_succ_eq_map]
        rfl
  have hkinds : ∀ payload payload',
      HostPacket.command ⟨src, dest, payload⟩ ≠ HostMessage.command ⟨src, dest, 123, payload'⟩ 0 :=
    fun _ _ hsame => absurd (List.cons.inj hsame).1 (by decide)
  rcases hfirst with hpacket | hmessage
  · rcases hsecond with hpacket' | hmessage'
    · have hsame := List.cons.inj (hpacket.symm.trans hpacket')
      have hframes := (List.cons.inj (List.cons.inj hsame.1).2).2
      have hbodies := (List.cons.inj (List.cons.inj hframes).2).2
      exact congrArg List.head? (List.append_cancel_left hbodies)
    · have hhead := hparts second hmessage'
      rw [hpacket] at hhead
      exact absurd (Option.some.inj hhead) (hkinds _ _)
  · rcases hsecond with hpacket' | hmessage'
    · have hhead := hparts first hmessage
      rw [hpacket'] at hhead
      exact absurd (Option.some.inj hhead) (hkinds _ _)
    · have hsame := Option.some.inj ((hparts first hmessage).symm.trans (hparts second hmessage'))
      have hframes := (List.cons.inj (List.cons.inj hsame).2).2
      have hbodies := (List.cons.inj (List.cons.inj hframes).2).2
      have hchunks : (HostMessage.mk src dest 123 first).chunk 0 =
          (HostMessage.mk src dest 123 second).chunk 0 :=
        (List.append_inj hbodies rfl).2
      have hheads : ∀ payload : Bytes,
          ((HostMessage.mk src dest 123 payload).chunk 0).head? = payload.head? := by
        intro payload
        cases payload with
        | nil => rfl
        | cons byte rest => rfl
      rw [← hheads first, hchunks, hheads second]

/-- How often an answer to the command may be answered. -/
def answerDepth : DogeCommandType → Nat
  | .getDogeAddress => 2
  | .sendDogeAddress | .requestBalance | .registration | .getUTXOs | .transactionRequest => 1
  | _ => 0

theorem answerDepth_lt {command reply : DogeCommandType} (h : reply ∈ answersTo command) :
    answerDepth reply < answerDepth command := by
  revert h
  cases command
  all_goals
    cases reply
    all_goals decide

/-- The depth of the command that a payload begins with. -/
def payloadDepth (payload : Bytes) : Nat :=
  (payload.head?.bind DogeCommandType.ofCode?).elim 0 answerDepth

theorem payloadDepth_lt {request answer : Bytes} (h : AnsweredBy request answer) :
    payloadDepth answer < payloadDepth request := by
  rcases h with ⟨W, library, sender, hub, hub', commands, hserved, hsome, hcarries⟩
  rcases (served_processDogePayload library hserved).answered with hnone | ⟨own, hanswers, hown⟩
  · exact absurd hnone hsome
  · rcases hanswers with ⟨command, hcommand, reply, hreply, hhead⟩
    rw [payloadDepth, payloadDepth, hcommand, head?_eq_of_carries hsome hcarries hown, hhead]
    simp only [Option.bind_some, DogeCommandType.ofCode?_code, Option.elim_some]
    exact answerDepth_lt hreply

/-- **Answers die out.** Hubs that answer what other hubs have answered soon fall silent: a request
for an address, the address, and its refusal are as long as it gets. -/
theorem answers_die_out {payloads : List Bytes} (hchain : payloads.IsChain AnsweredBy) :
    payloads.length ≤ 3 := by
  have hdepth : ∀ payload, payloadDepth payload ≤ 2 := by
    intro payload
    rw [payloadDepth]
    cases payload.head?.bind DogeCommandType.ofCode? with
    | none => exact Nat.zero_le 2
    | some command =>
        cases command
        all_goals decide
  have hfrom : ∀ rest first, (first :: rest).IsChain AnsweredBy →
      rest.length ≤ payloadDepth first := by
    intro rest
    induction rest with
    | nil => exact fun first _ => Nat.zero_le _
    | cons second rest ih =>
        intro first hchain
        rcases List.isChain_cons_cons.mp hchain with ⟨hfirst, hrest⟩
        exact (Nat.succ_le_succ (ih second hrest)).trans (payloadDepth_lt hfirst)
  cases payloads with
  | nil => exact Nat.zero_le 3
  | cons first rest => exact Nat.succ_le_succ ((hfrom rest first hchain).trans (hdepth first))

/-- A library whose addresses are too long. -/
def wordyLibrary : LibDogecoin Unit :=
  { idleLibrary with generatePrivPubKeypair := fun _ => (some (List.replicate 36 68), ()) }

/-- An address is asked for, is too long, and is refused. -/
theorem answers_die_out_refusal :
    [[120], 240 :: List.replicate 36 68, [254, 240, 1]].IsChain AnsweredBy ∧
      [[120], 240 :: List.replicate 36 68, [(254 : UInt8), 240, 1]].length ≤ 3 := by
  have hchain : [[120], 240 :: List.replicate 36 68, [254, 240, 1]].IsChain AnsweredBy := by
    rw [List.isChain_cons_cons, List.isChain_cons_cons]
    refine ⟨?_, ?_, List.isChain_singleton _⟩
    · exact ⟨Unit, wordyLibrary, ⟨10, 0, 2⟩, freshHost.hub, freshHost.hub, _, rfl,
        List.cons_ne_nil _ _, .inl rfl⟩
    · exact ⟨Unit, wordyLibrary, ⟨10, 0, 2⟩, freshHost.hub, freshHost.hub, _, rfl,
        List.cons_ne_nil _ _, .inl rfl⟩
  exact ⟨hchain, answers_die_out hchain⟩

end RadioDoge.Sharp
