/-
# Commands and replies of a plain radio node

The host of a node tells the replies to its commands apart by their order only. Three places of
the firmware spoil the count: a message request is transmitted without a reply; a display of a
text that is too short is not; and `SendACK` writes a reply although it is called for a received
ping, not for a command. `one_reply_each_iff` says that there are no others.
-/

import RadioDoge.Heltec.MainLoop

namespace RadioDoge.Heltec

/-- The replies of a run are written for the commands of the host, one for each and in their
order. -/
def OneReplyEach (node : Node) (turns : List Turn) : Prop :=
  (replies (node.run turns).2).map Prod.fst = (turns.filterMap Turn.serial).map some

instance (node : Node) (turns : List Turn) : Decidable (OneReplyEach node turns) :=
  inferInstanceAs (Decidable (_ = _))

/-- The command comes with the whole payload that its header announces. -/
def Complete (serial : Bytes) : Prop :=
  ∃ commandVal payloadSize payload, serial = commandVal :: payloadSize :: payload ∧
    payload.length = payloadSize.toNat

/-- The command does not ask for a message, nor for a display that fails. -/
def Node.RepliesTo (node : Node) (serial : Bytes) : Prop :=
  serial.head? ≠ some SerialCommand.messageRequest.code ∧
    (serial.head? = some SerialCommand.displayControl.code →
      displayFailure node.serialBuf[0]? (serial.drop 2) = none)

/-- In this turn nothing is acknowledged, and the command is one that is answered. -/
def Turn.Answered (node : Node) (turn : Turn) : Prop :=
  node.needToSendAck = false ∧ ∀ serial, turn.serial = some serial → node.RepliesTo serial

/-! ## One command -/

theorem ofCode?_eq_some_iff (code : UInt8) (command : SerialCommand) :
    SerialCommand.ofCode? code = some command ↔ code = command.code := by
  apply Iff.intro
  · intro h
    exact (SerialCommand.code_of_ofCode? h).symm
  · rintro rfl
    exact SerialCommand.ofCode?_code _

namespace Node

/-- By the case of the switch. -/
theorem repliesTo_iff (node : Node) (commandVal payloadSize : UInt8) (payload : Bytes) :
    node.RepliesTo (commandVal :: payloadSize :: payload) ↔
      match SerialCommand.ofCode? commandVal with
      | some .messageRequest => False
      | some .displayControl => displayFailure node.serialBuf[0]? payload = none
      | some _ | none => True := by
  have hhead : ∀ command : SerialCommand,
      (commandVal :: payloadSize :: payload).head? = some command.code ↔
        SerialCommand.ofCode? commandVal = some command := by
    intro command
    rw [ofCode?_eq_some_iff]
    exact Option.some_inj
  rw [RepliesTo, ne_eq, hhead, hhead]
  cases SerialCommand.ofCode? commandVal with
  | none => exact iff_of_true ⟨nofun, nofun⟩ trivial
  | some command =>
      cases command with
      | messageRequest => exact iff_of_false (fun h => h.1 rfl) id
      | displayControl => exact ⟨fun h => h.2 rfl, fun h => ⟨nofun, fun _ => h⟩⟩
      | none => exact iff_of_true ⟨nofun, nofun⟩ trivial
      | addressGet => exact iff_of_true ⟨nofun, nofun⟩ trivial
      | addressSet => exact iff_of_true ⟨nofun, nofun⟩ trivial
      | pingRequest => exact iff_of_true ⟨nofun, nofun⟩ trivial
      | hardwareInfo => exact iff_of_true ⟨nofun, nofun⟩ trivial
      | broadcastMessage => exact iff_of_true ⟨nofun, nofun⟩ trivial
      | hostFormedPacket => exact iff_of_true ⟨nofun, nofun⟩ trivial
      | multipartPacket => exact iff_of_true ⟨nofun, nofun⟩ trivial
      | resultCode => exact iff_of_true ⟨nofun, nofun⟩ trivial

instance (node : Node) (serial : Bytes) : Decidable (node.RepliesTo serial) :=
  inferInstanceAs (Decidable (_ ∧ (_ → _)))

/-- Every command that is replied to is replied to once. -/
theorem length_hostWrites_hostSerialRead {serial : Bytes} (h : Complete serial) (node : Node) :
    (hostWrites (node.hostSerialRead serial).2).length = if node.RepliesTo serial then 1 else 0 := by
  rcases h with ⟨commandVal, payloadSize, payload, rfl, hlength⟩
  have htaken : payload.take payloadSize.toNat = payload := List.take_of_length_le hlength.le
  have hreplies := node.repliesTo_iff commandVal payloadSize payload
  rw [effects_hostSerialRead, readCommand, if_neg (Nat.not_lt.mpr hlength.ge), htaken,
    performCommand]
  cases hcommand : SerialCommand.ofCode? commandVal with
  | none =>
      rw [hcommand] at hreplies
      exact (if_pos (hreplies.mpr trivial)).symm
  | some command =>
      rw [hcommand] at hreplies
      cases command with
      | messageRequest =>
          rw [if_neg hreplies.mp]
          simp only
          split
          · rfl
          · rfl
      | displayControl =>
          have hdisplay := processDisplayControl_readSerialPayload hlength node
          simp only [hdisplay]
          cases hfailure : displayFailure node.serialBuf[0]? payload with
          | none => exact (if_pos (hreplies.mpr hfailure)).symm
          | some failure =>
              have hfails : ¬ displayFailure node.serialBuf[0]? payload = none := by
                rw [hfailure]
                exact Option.some_ne_none failure
              rw [if_neg (mt hreplies.mp hfails), Option.getD_some,
                hostWrites_of_processDisplayControl (hdisplay.trans hfailure)]
              rfl
      | none => exact (if_pos (hreplies.mpr trivial)).symm
      | addressGet => exact (if_pos (hreplies.mpr trivial)).symm
      | addressSet => exact (if_pos (hreplies.mpr trivial)).symm
      | pingRequest => exact (if_pos (hreplies.mpr trivial)).symm
      | hardwareInfo => exact (if_pos (hreplies.mpr trivial)).symm
      | broadcastMessage => exact (if_pos (hreplies.mpr trivial)).symm
      | hostFormedPacket => exact (if_pos (hreplies.mpr trivial)).symm
      | multipartPacket => exact (if_pos (hreplies.mpr trivial)).symm
      | resultCode => exact (if_pos (hreplies.mpr trivial)).symm

/-! ## One turn -/

/-- The acknowledgement leaves the serial buffer alone. -/
theorem repliesTo_sendPendingAck (node : Node) (serial : Bytes) :
    node.sendPendingAck.1.RepliesTo serial ↔ node.RepliesTo serial := by
  rw [sendPendingAck]
  split
  · rfl
  · rfl

/-- The replies of a turn: one for the acknowledgement that was pending, and that to the
command. -/
theorem replies_commandAndControlLoop (node : Node) {turn : Turn}
    (hcomplete : ∀ serial, turn.serial = some serial → Complete serial) :
    (replies (node.commandAndControlLoop turn).2).map Prod.fst =
      (if node.needToSendAck = true then [none] else []) ++
        turn.serial.toList.flatMap fun serial =>
          if node.RepliesTo serial then [some serial] else [] := by
  have hacked : (replies node.sendPendingAck.2).map Prod.fst =
      if node.needToSendAck = true then [none] else [] := by
    rw [sendPendingAck]
    split
    · rfl
    · rfl
  have hread : (replies (node.sendPendingAck.1.readHost turn.serial).2).map Prod.fst =
      turn.serial.toList.flatMap fun serial =>
        if node.RepliesTo serial then [some serial] else [] := by
    cases hserial : turn.serial with
    | none => rfl
    | some serial =>
        have hsingle : replies (node.sendPendingAck.1.readHost (some serial)).2 =
            (hostWrites (node.sendPendingAck.1.hostSerialRead serial).2).map (some serial, ·) :=
          List.append_nil _
        have hmap : ∀ written : List Bytes,
            (written.map fun reply => (some serial, reply)).map Prod.fst =
              List.replicate written.length (some serial) := by
          intro written
          rw [List.map_map]
          exact List.map_const'
        rw [hsingle, hmap, length_hostWrites_hostSerialRead (hcomplete serial hserial),
          if_congr (node.repliesTo_sendPendingAck serial) rfl rfl, Option.toList_some,
          List.flatMap_singleton]
        split
        · rfl
        · rfl
  have hheard : ∀ heard : Node, replies (heard.irqProcess turn.received).2 = [] := by
    intro heard
    cases turn.received with
    | none => rfl
    | some payload => rfl
  rw [commandAndControlLoop]
  simp only
  split
  · rw [replies_append, List.map_append, hacked, hread]
  · rw [replies_append, replies_append, hheard, List.append_nil, List.map_append, hacked, hread]

/-- In one turn each command has its reply exactly if the turn is answered. -/
theorem replies_turn_iff (node : Node) {turn : Turn}
    (hcomplete : ∀ serial, turn.serial = some serial → Complete serial) :
    (replies (node.commandAndControlLoop turn).2).map Prod.fst = turn.serial.toList.map some ↔
      turn.Answered node := by
  rw [node.replies_commandAndControlLoop hcomplete, Turn.Answered]
  by_cases hneed : node.needToSendAck = true
  · rw [if_pos hneed, hneed]
    apply iff_of_false
    · cases turn.serial with
      | none => exact fun h => by cases h
      | some serial => exact fun h => by cases h
    · intro h
      cases h.1
  · rw [if_neg hneed, and_iff_right (Bool.eq_false_iff.mpr hneed), List.nil_append]
    cases turn.serial with
    | none => exact iff_of_true rfl fun serial h => by cases h
    | some serial =>
        rw [Option.toList_some, List.flatMap_singleton]
        by_cases hreplies : node.RepliesTo serial
        · rw [if_pos hreplies]
          apply iff_of_true rfl
          intro other hother
          rw [← Option.some.inj hother]
          exact hreplies
        · rw [if_neg hreplies]
          apply iff_of_false
          · intro h
            cases h
          · intro h
            exact hreplies (h serial rfl)

end Node

/-! ## Runs -/

/-- **One reply for each command.** All along a run of complete commands, with frames received
in between, the replies are those to the commands, one for each and in order, exactly when no
turn begins with a pending acknowledgement, and no command asks for a message or for a display
that fails. -/
theorem one_reply_each_iff (node : Node) {turns : List Turn}
    (hcomplete : ∀ turn ∈ turns, ∀ serial, turn.serial = some serial → Complete serial) :
    (∀ n, OneReplyEach node (turns.take n)) ↔
      ∀ (n : Nat) (turn : Turn), turns[n]? = some turn →
        turn.Answered (node.run (turns.take n)).1 := by
  apply LoggedRun.forall_take_iff
    (fun (before : List Turn) (_ : Node) (log : List Entry) =>
      (replies log).map Prod.fst = (before.filterMap Turn.serial).map some)
    (fun (later : Node) (turn : Turn) => turn.Answered later)
  · rfl
  · intro before later log turn hmem h
    have hcommands : ((before ++ [turn]).filterMap Turn.serial).map some =
        (before.filterMap Turn.serial).map some ++ turn.serial.toList.map some := by
      rw [List.filterMap_append, List.map_append]
      cases turn with
      | mk serial received =>
          cases serial with
          | none => rfl
          | some serial => rfl
    rw [replies_append, List.map_append, hcommands, h, List.append_cancel_left_eq]
    exact later.replies_turn_iff (hcomplete turn hmem)

/-- A host that asks for the address. -/
def askAddress : Turn := ⟨some [SerialCommand.addressGet.code, 0], none⟩

/-- A ping from the node 10.0.2 to a node whose address has not been set. -/
def hearPing : Turn := ⟨none, some [MessageType.ping.code, 6, 10, 0, 2, 0, 0, 0]⟩

/-- A host that asks for a message of eight bytes to the node 10.0.3. -/
def askMessage : Turn :=
  ⟨some [SerialCommand.messageRequest.code, 8, 0, 0, 0, 0, 10, 0, 3, 65], none⟩

theorem complete_askAddress :
    ∀ turn ∈ [hearPing, askAddress], ∀ serial, turn.serial = some serial → Complete serial := by
  intro turn hmem serial hserial
  rcases List.mem_cons.mp hmem with rfl | hlast
  · cases hserial
  · rw [List.mem_singleton.mp hlast] at hserial
    exact ⟨_, 0, [], (Option.some.inj hserial).symm, rfl⟩

/-- The equivalence for a ping and a command. -/
theorem one_reply_each_iff_ping :
    (∀ n, OneReplyEach (Node.boot 3) ([hearPing, askAddress].take n)) ↔
      ∀ (n : Nat) (turn : Turn), [hearPing, askAddress][n]? = some turn →
        turn.Answered ((Node.boot 3).run ([hearPing, askAddress].take n)).1 :=
  one_reply_each_iff (Node.boot 3) complete_askAddress

/-- A host that asks for a display, without a payload. -/
def askDisplay : Turn := ⟨some [SerialCommand.displayControl.code, 0], none⟩

/-- Before the reply to its first command, the host reads the reply that `SendACK` writes for a
ping. A message request has no reply at all, and a display of nothing aborts after a reset. -/
theorem ping_spoils_replies :
    replies ((Node.boot 3).run [hearPing, askAddress]).2 =
        [(none, hostAck), (some [SerialCommand.addressGet.code, 0],
          [SerialCommand.addressGet.code, 3, 0, 0, 0])] ∧
      ¬ OneReplyEach (Node.boot 3) [hearPing, askAddress] ∧
      ¬ OneReplyEach (Node.boot 3) [askMessage] ∧ ¬ OneReplyEach (Node.boot 3) [askDisplay] := by
  decide +kernel

end RadioDoge.Heltec
