/-
# Host commands and their own payload

`ReadSerialPayload` copies the payload of a command over the start of `serialBuf`, which
still holds what earlier commands left behind it. `HostSerialRead` then takes an address from
fixed offsets of the buffer, without a look at the size of the payload, and
`ProcessDisplayControl` takes the kind of a display from its first byte, even of an empty payload.
So the effect of a command is a matter of its own payload exactly when what it reads lies inside.

A text too short to be one makes `new` abort, and the node starts again: the plain firmware with
the address 0.0.0, the v3 firmware with the address that it stored. That counts as an effect.

A second thing that earlier commands leave is the control packet. The v3 firmware fills it at
the start, the plain firmware only with `ADDRESS_SET`; until then a ping carries zero for its
size.
-/

import RadioDoge.Heltec.MainLoop
import RadioDoge.V3.HostLayout

namespace RadioDoge

open Heltec (stringDisplay displayFailure)
open V3 (slice bufferSize controlSize)

/-! ## Effects of a command -/

/-- The two firmwares. -/
inductive Firmware
  | plain
  | v3
  deriving DecidableEq, Repr

/-- What a command does, its replies apart. `persisted` is what is stored for the next start. If
the command `aborts`, the addresses are those behind the next start. -/
structure Outcome where
  localAddress : NodeAddress
  dest : NodeAddress
  transmitted : List Bytes
  persisted : Option NodeAddress
  aborts : Bool
  deriving DecidableEq

namespace Firmware

/-- `HostSerialRead`. -/
def hostSerialRead : Firmware → Bytes → Heltec.Node → Heltec.Node × List Heltec.Effect
  | plain, serial, node => node.hostSerialRead serial
  | v3, serial, node => V3.hostSerialRead serial node

/-- The node behind `setup`, once an address has been stored; the plain firmware stores none. -/
def setup : Firmware → UInt8 → NodeAddress → Heltec.Node
  | plain, boardVersion, _ => Heltec.Node.boot boardVersion
  | v3, boardVersion, stored => V3.setup boardVersion stored

/-- The address that `HostSerialRead` of the v3 firmware passes to `saveLoRaConfiguration`. -/
def persisted (firmware : Firmware) (serial : Bytes) (node : Heltec.Node) : Option NodeAddress :=
  match firmware, serial with
  | v3, commandVal :: payloadSize :: arrived =>
      if arrived.length < payloadSize.toNat then none
      else
        match SerialCommand.ofCode? commandVal with
        | some .addressSet => some (V3.hostSerialRead serial node).1.localAddress
        | _ => none
  | _, _ => none

/-- `HostSerialRead`, as long as it writes within the blocks it allocates. -/
def read (firmware : Firmware) (serial : Bytes) (node : Heltec.Node) :
    Option (Heltec.Node × List Heltec.Effect) :=
  let result := firmware.hostSerialRead serial node
  if .undefined ∈ result.2 then none else some result

/-- The effect of a read. -/
def outcome (firmware : Firmware) (serial : Bytes) (node : Heltec.Node) : Option Outcome :=
  (firmware.read serial node).map fun result =>
    ⟨result.1.localAddress, result.1.dest, Heltec.transmissions result.2,
      firmware.persisted serial node, .abort ∈ result.2⟩

/-- The node after a history of host commands. -/
def readAll (firmware : Firmware) (node : Heltec.Node) : List Bytes → Option Heltec.Node
  | [] => some node
  | serial :: rest => (firmware.read serial node).bind fun result => firmware.readAll result.1 rest

end Firmware

/-- A complete command. -/
def hostCommand (commandVal : UInt8) (payload : Bytes) : Bytes :=
  commandVal :: UInt8.ofNat payload.length :: payload

/-- Two histories that end in the local address and the destination make no difference to a
command. -/
def OwnPayload (firmware : Firmware) (start : Heltec.Node) (localAddress dest : NodeAddress)
    (serial : Bytes) : Prop :=
  ∀ first second : List Bytes, ∀ former ∈ firmware.readAll start first,
    ∀ latter ∈ firmware.readAll start second,
      (former.localAddress = localAddress ∧ former.dest = dest) →
      (latter.localAddress = localAddress ∧ latter.dest = dest) →
        ∃ effect, firmware.outcome serial former = some effect ∧
          firmware.outcome serial latter = some effect

/-- What a command reads lies in its payload: an address, which `MESSAGE_REQUEST` does not get to
use if there is no room for a text, or the kind of a display, and of a text its position. -/
def ReadsInside (commandVal : UInt8) (payload : Bytes) : Prop :=
  match SerialCommand.ofCode? commandVal with
  | some .addressSet | some .pingRequest => 3 ≤ payload.length
  | some .messageRequest => payload.length < 6 ∨ 7 ≤ payload.length
  | some .hostFormedPacket | some .multipartPacket => 8 ≤ payload.length
  | some .displayControl => payload ≠ [] ∧ payload ≠ [stringDisplay]
  | some .none | some .addressGet | some .hardwareInfo | some .broadcastMessage
  | some .resultCode | none => True

namespace Heltec.Node

/-! ## The payload in the buffer -/

section Payload

variable {payload : Bytes}

/-- A complete command is performed. -/
theorem readCommand_hostCommand (commandVal : UInt8) (hsize : payload.length ≤ 255)
    (node : Node) :
    node.readCommand (hostCommand commandVal payload) =
      (node.readSerialPayload payload).performCommand commandVal (UInt8.ofNat payload.length) := by
  have hlength : (UInt8.ofNat payload.length).toNat = payload.length :=
    toNat_ofNat_of_le hsize
  rw [hostCommand, readCommand, hlength, List.take_length, if_neg (Nat.lt_irrefl _)]

/-- An address inside the payload is the payload's. -/
theorem addressAt_readSerialPayload (node : Node) {offset : Nat}
    (hinside : offset + 3 ≤ payload.length) (hsize : payload.length ≤ 255) :
    (node.readSerialPayload payload).addressAt offset =
      ⟨payload[offset]?.getD 0, payload[offset + 1]?.getD 0, payload[offset + 2]?.getD 0⟩ := by
  have hbyte : ∀ i < 3, (node.readSerialPayload payload).serialBuf[offset + i]? =
      payload[offset + i]? := by
    intro i hi
    rw [byte_readSerialPayload payload node (by simp only [bufferSize]; omega), if_pos (by omega)]
  rw [addressAt, hbyte 1 (by decide), hbyte 2 (by decide)]
  exact congrArg (fun first : Option UInt8 => NodeAddress.mk (first.getD 0) _ _)
    (hbyte 0 (by decide))

/-- The last byte of an address behind the payload is what was there. -/
theorem node_addressAt_readSerialPayload (node : Node) {offset : Nat}
    (hend : offset + 2 < bufferSize) (hshort : payload.length < offset + 3) :
    ((node.readSerialPayload payload).addressAt offset).node =
      node.serialBuf[offset + 2]?.getD 0 := by
  have hbyte := byte_readSerialPayload payload node hend
  rw [if_neg (by omega)] at hbyte
  exact congrArg (·.getD 0) hbyte

/-- The payload is read back. -/
theorem slice_readSerialPayload (node : Node) (hsize : payload.length ≤ 255) :
    slice (node.readSerialPayload payload).serialBuf 0 payload.length = payload :=
  take_memcpy node.serialBuf payload (Nat.le_succ_of_le hsize)

/-- What `MESSAGE_REQUEST` transmits: the payload, with the type over its first byte. -/
theorem slice_message (node : Node) (hsize : payload.length ≤ 255) (hpos : 0 < payload.length) :
    slice ((node.readSerialPayload payload).serialBuf.setIfInBounds 0 MessageType.message.code) 0
        payload.length =
      MessageType.message.code :: payload.tail := by
  rw [V3.slice_setIfInBounds_zero _ _ hpos (Nat.le_succ_of_le hsize),
    slice_readSerialPayload node hsize]

end Payload

/-! ## The control packet -/

/-- The size and the source of a control packet. -/
def controlHeader (node : Node) : Bytes := slice node.controlPacket 1 4

/-- A ping goes out with the size and the source in the control packet. -/
theorem frame_sendPing (node : Node) (destination : NodeAddress) :
    (V3.sendPing node.controlPacket destination).2 =
      MessageType.ping.code :: node.controlHeader ++ destination.bytes :=
  V3.frame_sendControl .ping node.controlPacket destination

/-- A ping leaves both alone. -/
theorem controlHeader_sendControl (kind : MessageType) (controlPacket : Vector UInt8 controlSize)
    (destination : NodeAddress) :
    slice (V3.sendControl kind controlPacket destination).1 1 4 = slice controlPacket 1 4 := by
  have hfirst : slice (controlPacket.setIfInBounds 0 kind.code) 1 4 = slice controlPacket 1 4 :=
    V3.slice_memcpy_disjoint controlPacket 0 [kind.code] 1 4 (by decide) (.inr (Nat.le_refl 1))
  rw [← hfirst]
  exact V3.slice_memcpy_disjoint _ 5 destination.bytes 1 4 (by decide) (.inl (by decide))

/-- `InitControlMessages` sets both. -/
theorem controlHeader_initControlMessages (localAddress : NodeAddress)
    (controlPacket : Vector UInt8 controlSize) :
    slice (V3.initControlMessages localAddress controlPacket) 1 4 = 6 :: localAddress.bytes := by
  have htwice := memcpy_append [MessageType.unknown.code] (6 :: localAddress.bytes) controlPacket 0
  rw [V3.initControlMessages]
  exact (congrArg (slice · 1 4) htwice).symm.trans
    (V3.slice_memcpy _ 1 4 (6 :: localAddress.bytes) le_rfl (by decide))

/-- `InitControlMessages` has been called for the local address. -/
def Prepared (node : Node) : Prop := node.controlHeader = 6 :: node.localAddress.bytes

/-- `InitControlMessages` has never been called. -/
def Unprepared (node : Node) : Prop :=
  node.controlHeader = 0 :: node.localAddress.bytes ∧ node.localAddress = ⟨0, 0, 0⟩

/-- A command calls `InitControlMessages`, or leaves address, size and source alone. -/
theorem performCommand_control (commandVal payloadSize : UInt8) (node : Node) :
    (node.performCommand commandVal payloadSize).1.Prepared ∨
      ((node.performCommand commandVal payloadSize).1.controlHeader = node.controlHeader ∧
        (node.performCommand commandVal payloadSize).1.localAddress = node.localAddress) := by
  rw [performCommand]
  cases SerialCommand.ofCode? commandVal with
  | none => exact .inr ⟨rfl, rfl⟩
  | some command =>
      cases command with
      | addressSet => exact .inl (controlHeader_initControlMessages _ _)
      | pingRequest => exact .inr ⟨controlHeader_sendControl .ping _ _, rfl⟩
      | none => exact .inr ⟨rfl, rfl⟩
      | addressGet => exact .inr ⟨rfl, rfl⟩
      | messageRequest =>
          simp only
          split
          · exact .inr ⟨rfl, rfl⟩
          · exact .inr ⟨rfl, rfl⟩
      | hardwareInfo => exact .inr ⟨rfl, rfl⟩
      | broadcastMessage => exact .inr ⟨rfl, rfl⟩
      | displayControl => exact .inr ⟨rfl, rfl⟩
      | hostFormedPacket => exact .inr ⟨rfl, rfl⟩
      | multipartPacket => exact .inr ⟨rfl, rfl⟩
      | resultCode => exact .inr ⟨rfl, rfl⟩

/-- So does `HostSerialRead`, if it returns. -/
theorem readCommand_control (serial : Bytes) (node : Node) :
    (node.readCommand serial).1.Prepared ∨
      ((node.readCommand serial).1.controlHeader = node.controlHeader ∧
        (node.readCommand serial).1.localAddress = node.localAddress) := by
  cases serial with
  | nil => exact .inr ⟨rfl, rfl⟩
  | cons commandVal rest =>
      cases rest with
      | nil => exact .inr ⟨rfl, rfl⟩
      | cons payloadSize arrived =>
          rw [readCommand]
          split
          · exact .inr ⟨rfl, rfl⟩
          · exact performCommand_control commandVal payloadSize
              (node.readSerialPayload (arrived.take payloadSize.toNat))

end Heltec.Node

namespace Firmware

/-- What is known of the control packet: the v3 firmware fills it in `setup`. -/
def Ready : Firmware → Heltec.Node → Prop
  | plain, node => node.Prepared ∨ node.Unprepared
  | v3, node => node.Prepared

theorem ready_setup (firmware : Firmware) (boardVersion : UInt8) (stored : NodeAddress) :
    firmware.Ready (firmware.setup boardVersion stored) := by
  cases firmware with
  | plain =>
      have hzero : slice (Vector.replicate controlSize 0) 1 4 = [0, 0, 0, 0] := by decide
      exact .inr ⟨hzero, rfl⟩
  | v3 => exact Heltec.Node.controlHeader_initControlMessages stored _

theorem ready_of_prepared {node : Heltec.Node} (h : node.Prepared) (firmware : Firmware) :
    firmware.Ready node := by
  cases firmware with
  | plain => exact .inl h
  | v3 => exact h

variable {firmware : Firmware}

theorem Ready.of_kept {node later : Heltec.Node} (h : firmware.Ready node)
    (hheader : later.controlHeader = node.controlHeader)
    (hlocal : later.localAddress = node.localAddress) : firmware.Ready later := by
  cases firmware with
  | plain =>
      rw [Ready, Heltec.Node.Prepared, Heltec.Node.Unprepared, hheader, hlocal]
      exact h
  | v3 =>
      rw [Ready, Heltec.Node.Prepared, hheader, hlocal]
      exact h

/-- A node with an address has been prepared. -/
theorem Ready.prepared {node : Heltec.Node} (h : firmware.Ready node)
    (haddress : firmware = .plain → node.localAddress ≠ ⟨0, 0, 0⟩) : node.Prepared := by
  cases firmware with
  | plain => exact h.resolve_right fun hunprepared => haddress rfl hunprepared.2
  | v3 => exact h

/-- Both firmwares perform a command alike, and start again in their own ways. -/
theorem hostSerialRead_eq (firmware : Firmware) (serial : Bytes) (node : Heltec.Node) :
    firmware.hostSerialRead serial node =
      Heltec.Node.restarting (firmware.setup node.boardVersion node.localAddress)
        (node.readCommand serial) := by
  cases firmware with
  | plain => rfl
  | v3 => rfl

theorem Ready.read {node : Heltec.Node} (h : firmware.Ready node) {serial : Bytes}
    {result : Heltec.Node × List Heltec.Effect} (hread : firmware.read serial node = some result) :
    firmware.Ready result.1 := by
  rw [Firmware.read, hostSerialRead_eq] at hread
  obtain ⟨-, hresult⟩ := Option.ite_none_left_eq_some.mp hread
  by_cases habort : .abort ∈ (node.readCommand serial).2
  · rw [Heltec.Node.restarting_of_abort habort, Option.some_inj] at hresult
    rw [← hresult]
    exact firmware.ready_setup _ _
  · rw [Heltec.Node.restarting_of_return habort, Option.some_inj] at hresult
    rw [← hresult]
    cases node.readCommand_control serial with
    | inl hprepared => exact ready_of_prepared hprepared firmware
    | inr hkept => exact h.of_kept hkept.1 hkept.2

/-- It stays known over a whole history. -/
theorem Ready.readAll {node : Heltec.Node} (h : firmware.Ready node) {history : List Bytes}
    {later : Heltec.Node} (hreads : firmware.readAll node history = some later) :
    firmware.Ready later := by
  induction history generalizing node with
  | nil => exact Option.some.inj hreads ▸ h
  | cons serial rest ih =>
      obtain ⟨result, hread, hrest⟩ := Option.bind_eq_some_iff.mp hreads
      exact ih (h.read hread) hrest

/-! ## The effect of a complete command -/

/-- The address that is stored along with a new local address. -/
def stored : Firmware → NodeAddress → Option NodeAddress
  | plain, _ => none
  | v3, address => some address

section Effect

variable {commandVal : UInt8} {payload : Bytes} {serial : Bytes} {node : Heltec.Node}

theorem outcome_of_return {result : Heltec.Node × List Heltec.Effect}
    (hread : node.readCommand serial = result) (hreturn : .abort ∉ result.2)
    (hdefined : .undefined ∉ result.2) :
    firmware.outcome serial node =
      some ⟨result.1.localAddress, result.1.dest, Heltec.transmissions result.2,
        firmware.persisted serial node, false⟩ := by
  rw [outcome, read, hostSerialRead_eq, hread, Heltec.Node.restarting_of_return hreturn,
    if_neg hdefined, Option.map_some, decide_eq_false hreturn]

theorem outcome_of_abort {later : Heltec.Node}
    (hread : node.readCommand serial = (later, [.abort])) :
    firmware.outcome serial node =
      let restarted := firmware.setup node.boardVersion node.localAddress
      some ⟨restarted.localAddress, restarted.dest, [], firmware.persisted serial node, true⟩ := by
  rw [outcome, read, hostSerialRead_eq, hread,
    Heltec.Node.restarting_of_abort (List.mem_singleton_self Heltec.Effect.abort)]
  rfl

theorem outcome_of_undefined {later : Heltec.Node}
    (hread : node.readCommand serial = (later, [.undefined])) :
    firmware.outcome serial node = none := by
  rw [outcome, read, hostSerialRead_eq, hread, Heltec.Node.effects_restarting]
  rfl

/-- What is stored is the address that the command sets. -/
theorem persisted_hostCommand (commandVal : UInt8) (hsize : payload.length ≤ 255)
    (node : Heltec.Node) (firmware : Firmware) :
    firmware.persisted (hostCommand commandVal payload) node =
      if SerialCommand.ofCode? commandVal = some .addressSet then
        firmware.stored ((node.readSerialPayload payload).addressAt 0)
      else none := by
  have hlength : (UInt8.ofNat payload.length).toNat = payload.length :=
    toNat_ofNat_of_le hsize
  cases firmware with
  | plain => exact (ite_self none).symm
  | v3 =>
      rw [hostCommand, persisted, hlength, if_neg (Nat.lt_irrefl _)]
      split
      · next hset =>
          rw [if_pos hset]
          have hcommand := node.readCommand_hostCommand commandVal hsize
          rw [Heltec.Node.performCommand, hset] at hcommand
          rw [V3.hostSerialRead, Heltec.Node.restarting_of_return]
          · exact congrArg (fun result => some result.1.localAddress) hcommand
          · rw [hostCommand] at hcommand
            rw [hcommand]
            exact mt List.mem_singleton.mp Heltec.Effect.noConfusion
      · next hother => rw [if_neg hother]

/-- A display fails for lack of a byte, or it leaves everything alone. -/
theorem outcome_displayControl {later : Heltec.Node}
    (hread : node.readCommand serial =
      (later, [(displayFailure node.serialBuf[0]? payload).getD (.host Heltec.hostAck)]))
    (hlocal : later.localAddress = node.localAddress) (hdest : later.dest = node.dest)
    (hpersisted : firmware.persisted serial node = none) :
    firmware.outcome serial node =
      if payload = [stringDisplay] then none
      else if payload = [] ∧ node.serialBuf[0]? = some stringDisplay then
        let restarted := firmware.setup node.boardVersion node.localAddress
        some ⟨restarted.localAddress, restarted.dest, [], none, true⟩
      else some ⟨node.localAddress, node.dest, [], none, false⟩ := by
  have hreturns : displayFailure node.serialBuf[0]? payload = none →
      firmware.outcome serial node = some ⟨node.localAddress, node.dest, [], none, false⟩ := by
    intro hshown
    rw [hshown] at hread
    rw [outcome_of_return hread (by simp) (by simp), hpersisted, hlocal, hdest]
    rfl
  cases payload with
  | nil =>
      rw [if_neg (List.cons_ne_nil stringDisplay []).symm]
      by_cases hbefore : node.serialBuf[0]? = some stringDisplay
      · have habort : displayFailure node.serialBuf[0]? [] = some .abort := if_pos hbefore
        rw [habort] at hread
        rw [if_pos ⟨rfl, hbefore⟩, outcome_of_abort hread, hpersisted]
      · rw [if_neg fun h => hbefore h.2]
        exact hreturns (if_neg hbefore)
  | cons first rest =>
      cases rest with
      | nil =>
          by_cases hfirst : first = stringDisplay
          · have hundefined : displayFailure node.serialBuf[0]? [first] = some .undefined :=
              if_pos hfirst
            rw [hundefined] at hread
            rw [if_pos (congrArg ([·]) hfirst), outcome_of_undefined hread]
          · rw [if_neg fun h => hfirst (List.singleton_inj.mp h),
              if_neg fun h => List.cons_ne_nil first [] h.1]
            exact hreturns (if_neg hfirst)
      | cons second rest =>
          rw [if_neg fun h => List.cons_ne_nil second rest (List.cons.inj h).2,
            if_neg fun h => List.cons_ne_nil first _ h.1]
          exact hreturns rfl

/-- The effect in terms of the payload, of the address field and the first byte as they stand in
the buffer, and of the control packet. -/
theorem outcome_hostCommand (firmware : Firmware) (commandVal : UInt8)
    (hsize : payload.length ≤ 255) (node : Heltec.Node) :
    firmware.outcome (hostCommand commandVal payload) node =
      let filled := node.readSerialPayload payload
      let restarted := firmware.setup node.boardVersion node.localAddress
      match SerialCommand.ofCode? commandVal with
      | some .addressSet =>
          some ⟨filled.addressAt 0, node.dest, [], firmware.stored (filled.addressAt 0), false⟩
      | some .pingRequest =>
          some ⟨node.localAddress, filled.addressAt 0,
            [MessageType.ping.code :: node.controlHeader ++ (filled.addressAt 0).bytes], none, false⟩
      | some .messageRequest =>
          if payload.length < 6 then some ⟨restarted.localAddress, restarted.dest, [], none, true⟩
          else some ⟨node.localAddress, filled.addressAt 4,
            [MessageType.message.code :: payload.tail], none, false⟩
      | some .hostFormedPacket | some .multipartPacket =>
          some ⟨node.localAddress, filled.addressAt 5, [payload], none, false⟩
      | some .displayControl =>
          if payload = [stringDisplay] then none
          else if payload = [] ∧ node.serialBuf[0]? = some stringDisplay then
            some ⟨restarted.localAddress, restarted.dest, [], none, true⟩
          else some ⟨node.localAddress, node.dest, [], none, false⟩
      | some .none | some .addressGet | some .hardwareInfo | some .broadcastMessage
      | some .resultCode | none =>
          some ⟨node.localAddress, node.dest, [], none, false⟩ := by
  have hlength : (UInt8.ofNat payload.length).toNat = payload.length :=
    toNat_ofNat_of_le hsize
  have hpersisted := persisted_hostCommand commandVal hsize node firmware
  have hread := node.readCommand_hostCommand commandVal hsize
  rw [Heltec.Node.performCommand] at hread
  cases hcommand : SerialCommand.ofCode? commandVal with
  | none =>
      simp only [hcommand] at hread hpersisted
      rw [outcome_of_return hread (by simp) (by simp), hpersisted]
      rfl
  | some command =>
      simp only [hcommand] at hread hpersisted
      cases command with
      | addressSet =>
          rw [outcome_of_return hread (by simp) (by simp), hpersisted]
          rfl
      | pingRequest =>
          rw [outcome_of_return hread (by simp) (by simp), hpersisted]
          have hsent := (node.readSerialPayload payload).frame_sendPing
            ((node.readSerialPayload payload).addressAt 0)
          exact congrArg (fun frame => some (Outcome.mk _ _ [frame] _ _)) hsent
      | messageRequest =>
          by_cases hshort : payload.length < 6
          · have haborts : Heltec.newAborts ((UInt8.ofNat payload.length).toNat - 6) = true :=
              decide_eq_true (by omega)
            simp only [haborts, if_true] at hread
            rw [outcome_of_abort hread, hpersisted]
            exact (if_pos hshort).symm
          · have hfits : Heltec.newAborts ((UInt8.ofNat payload.length).toNat - 6) = false :=
              decide_eq_false (by omega)
            simp only [hfits, Bool.false_eq_true, if_false] at hread
            rw [outcome_of_return hread (by simp [Heltec.Node.sendSerialBuf])
              (by simp [Heltec.Node.sendSerialBuf]), hpersisted]
            have hsent := node.slice_message hsize (by omega)
            rw [← hlength] at hsent
            exact (congrArg (fun frame => some (Outcome.mk _ _ [frame] _ _)) hsent).trans
              (if_neg hshort).symm
      | displayControl =>
          have hdisplay := Heltec.Node.processDisplayControl_readSerialPayload hlength.symm node
          rw [hdisplay] at hread
          exact outcome_displayControl hread rfl rfl hpersisted
      | hostFormedPacket =>
          rw [outcome_of_return hread (by simp [Heltec.Node.sendSerialBuf])
              (by simp [Heltec.Node.sendSerialBuf]), hpersisted]
          have hsent := node.slice_readSerialPayload hsize
          rw [← hlength] at hsent
          exact congrArg (fun frame => some (Outcome.mk _ _ [frame] _ _)) hsent
      | multipartPacket =>
          rw [outcome_of_return hread (by simp [Heltec.Node.sendSerialBuf])
              (by simp [Heltec.Node.sendSerialBuf]), hpersisted]
          have hsent := node.slice_readSerialPayload hsize
          rw [← hlength] at hsent
          exact congrArg (fun frame => some (Outcome.mk _ _ [frame] _ _)) hsent
      | none =>
          rw [outcome_of_return hread (by simp) (by simp), hpersisted]
          rfl
      | addressGet =>
          rw [outcome_of_return hread (by simp) (by simp), hpersisted]
          rfl
      | hardwareInfo =>
          rw [outcome_of_return hread (by simp) (by simp), hpersisted]
          rfl
      | broadcastMessage =>
          rw [outcome_of_return hread (by simp) (by simp), hpersisted]
          rfl
      | resultCode =>
          rw [outcome_of_return hread (by simp) (by simp), hpersisted]
          rfl

/-- What a start restores is a matter of the local address. -/
theorem setup_congr (firmware : Firmware) (first second : UInt8) (stored : NodeAddress) :
    (firmware.setup first stored).localAddress = (firmware.setup second stored).localAddress ∧
      (firmware.setup first stored).dest = (firmware.setup second stored).dest := by
  cases firmware with
  | plain => exact ⟨rfl, rfl⟩
  | v3 => exact ⟨rfl, rfl⟩

/-- With all that it reads inside, the effect of a command is a matter of the two addresses, and
for a ping of the control packet. -/
theorem outcome_congr (hsize : payload.length ≤ 255) (hinside : ReadsInside commandVal payload)
    {first second : Heltec.Node} (hlocal : first.localAddress = second.localAddress)
    (hdest : first.dest = second.dest)
    (hcontrol : SerialCommand.ofCode? commandVal = some .pingRequest →
      first.controlHeader = second.controlHeader) :
    ∃ effect, firmware.outcome (hostCommand commandVal payload) first = some effect ∧
      firmware.outcome (hostCommand commandVal payload) second = some effect := by
  have haddress : ∀ offset, offset + 3 ≤ payload.length →
      (first.readSerialPayload payload).addressAt offset =
        (second.readSerialPayload payload).addressAt offset := by
    intro offset hfits
    rw [first.addressAt_readSerialPayload hfits hsize,
      second.addressAt_readSerialPayload hfits hsize]
  have hrestart := firmware.setup_congr first.boardVersion second.boardVersion second.localAddress
  rw [outcome_hostCommand firmware commandVal hsize, outcome_hostCommand firmware commandVal hsize,
    hlocal, hdest]
  rw [ReadsInside] at hinside
  cases hcommand : SerialCommand.ofCode? commandVal with
  | none => exact ⟨_, rfl, rfl⟩
  | some command =>
      rw [hcommand] at hinside
      cases command with
      | addressSet =>
          simp only [haddress 0 hinside]
          exact ⟨_, rfl, rfl⟩
      | pingRequest =>
          simp only [haddress 0 hinside, hcontrol hcommand]
          exact ⟨_, rfl, rfl⟩
      | messageRequest =>
          cases hinside with
          | inl hshort =>
              simp only [if_pos hshort, hrestart.1, hrestart.2]
              exact ⟨_, rfl, rfl⟩
          | inr hlong =>
              have hnot : ¬ payload.length < 6 := by omega
              simp only [if_neg hnot, haddress 4 hlong]
              exact ⟨_, rfl, rfl⟩
      | hostFormedPacket =>
          simp only [haddress 5 hinside]
          exact ⟨_, rfl, rfl⟩
      | multipartPacket =>
          simp only [haddress 5 hinside]
          exact ⟨_, rfl, rfl⟩
      | displayControl =>
          simp only [if_neg hinside.2, hinside.1, false_and, if_false]
          exact ⟨_, rfl, rfl⟩
      | none => exact ⟨_, rfl, rfl⟩
      | addressGet => exact ⟨_, rfl, rfl⟩
      | hardwareInfo => exact ⟨_, rfl, rfl⟩
      | broadcastMessage => exact ⟨_, rfl, rfl⟩
      | resultCode => exact ⟨_, rfl, rfl⟩

end Effect

end Firmware

/-! ## What earlier commands leave -/

/-- A history that ends in the two addresses and leaves the byte at the start of the buffer. -/
def litter (localAddress dest : NodeAddress) (byte : UInt8) : List Bytes :=
  [hostCommand SerialCommand.addressSet.code localAddress.bytes,
    hostCommand SerialCommand.pingRequest.code dest.bytes,
    hostCommand SerialCommand.addressGet.code (List.replicate 8 byte)]

/-- Three bytes at the start of the buffer are read as an address. -/
theorem Heltec.Node.addressAt_bytes (node : Node) (address : NodeAddress) :
    (node.readSerialPayload address.bytes).addressAt 0 = address := by
  rw [addressAt_readSerialPayload node (Nat.le_refl 3) (Nat.le_of_ble_eq_true rfl)]
  rfl

namespace Firmware

variable {firmware : Firmware} {commandVal : UInt8} {payload : Bytes}

/-- A command that returns. -/
theorem read_of_return {serial : Bytes} {node : Heltec.Node}
    {result : Heltec.Node × List Heltec.Effect} (hread : node.readCommand serial = result)
    (hreturn : .abort ∉ result.2) (hdefined : .undefined ∉ result.2) (firmware : Firmware) :
    firmware.read serial node = some result := by
  rw [read, hostSerialRead_eq, hread, Heltec.Node.restarting_of_return hreturn, if_neg hdefined]

/-- `ADDRESS_GET` leaves its payload in the buffer, and nothing else. -/
theorem read_addressGet (firmware : Firmware) (node : Heltec.Node) (hsize : payload.length ≤ 255) :
    ∃ result, firmware.read (hostCommand SerialCommand.addressGet.code payload) node = some result ∧
      result.1 = node.readSerialPayload payload :=
  ⟨_, read_of_return (node.readCommand_hostCommand _ hsize) (mt List.mem_singleton.mp nofun)
    (mt List.mem_singleton.mp nofun) firmware, rfl⟩

/-- `ADDRESS_SET` sets the local address only. -/
theorem read_addressSet (firmware : Firmware) (node : Heltec.Node) (address : NodeAddress) :
    ∃ result,
      firmware.read (hostCommand SerialCommand.addressSet.code address.bytes) node = some result ∧
        result.1.localAddress = address ∧ result.1.Prepared ∧ result.1.dest = node.dest :=
  ⟨_, read_of_return (node.readCommand_hostCommand _ (Nat.le_of_ble_eq_true rfl))
      (mt List.mem_singleton.mp nofun) (mt List.mem_singleton.mp nofun) firmware,
    node.addressAt_bytes address, Heltec.Node.controlHeader_initControlMessages _ _, rfl⟩

/-- `PING_REQUEST` sets the destination only. -/
theorem read_pingRequest (firmware : Firmware) (node : Heltec.Node) (address : NodeAddress) :
    ∃ result,
      firmware.read (hostCommand SerialCommand.pingRequest.code address.bytes) node = some result ∧
        result.1.dest = address ∧ result.1.localAddress = node.localAddress ∧
        result.1.controlHeader = node.controlHeader :=
  ⟨_, read_of_return (node.readCommand_hostCommand _ (Nat.le_of_ble_eq_true rfl))
      (mt List.mem_pair.mp nofun) (mt List.mem_pair.mp nofun) firmware,
    node.addressAt_bytes address, rfl, Heltec.Node.controlHeader_sendControl .ping _ _⟩

/-- The history ends as it should, with the byte in the first eight places. -/
theorem readAll_litter (firmware : Firmware) (node : Heltec.Node) (localAddress dest : NodeAddress)
    (byte : UInt8) :
    ∃ later, firmware.readAll node (litter localAddress dest byte) = some later ∧
      (later.localAddress = localAddress ∧ later.dest = dest) ∧
      ∀ i < 8, later.serialBuf[i]? = some byte := by
  obtain ⟨addressed, hset, hlocal, -⟩ := firmware.read_addressSet node localAddress
  obtain ⟨directed, hping, hdest, hkept, -⟩ := firmware.read_pingRequest addressed.1 dest
  have hcount : (List.replicate 8 byte).length ≤ 255 := by
    rw [List.length_replicate]
    decide
  obtain ⟨asked, hget, hlast⟩ := firmware.read_addressGet directed.1 hcount
  apply Exists.intro asked.1
  apply And.intro
  · simp only [litter, readAll, hset, hping, hget, Option.bind_some]
  rw [hlast]
  apply And.intro
  · rw [Heltec.Node.localAddress_readSerialPayload, Heltec.Node.dest_readSerialPayload, hkept]
    exact ⟨hlocal, hdest⟩
  · intro i hi
    rw [Heltec.Node.byte_readSerialPayload _ _ (Nat.lt_trans hi (by decide)),
      List.length_replicate, if_pos hi, List.getElem?_replicate, if_pos hi]

/-- An address that is the same over two different rests lies inside the payload. -/
theorem offset_inside {offset : Nat} (hend : offset + 2 < 8) {first second : Heltec.Node}
    (hfirst : first.serialBuf[offset + 2]? = some 0)
    (hsecond : second.serialBuf[offset + 2]? = some 1)
    (hsame : (first.readSerialPayload payload).addressAt offset =
      (second.readSerialPayload payload).addressAt offset) :
    offset + 3 ≤ payload.length := by
  by_contra hshort
  have hin : offset + 2 < bufferSize := by
    simp only [bufferSize]
    omega
  have hbytes := congrArg NodeAddress.node hsame
  rw [first.node_addressAt_readSerialPayload hin (by omega),
    second.node_addressAt_readSerialPayload hin (by omega), hfirst, hsecond] at hbytes
  exact absurd hbytes (by decide)

/-- What two different rests do not change reads inside. -/
theorem readsInside_of_litter (hsize : payload.length ≤ 255) {first second : Heltec.Node}
    (hfirst : ∀ i < 8, first.serialBuf[i]? = some 0)
    (hsecond : ∀ i < 8, second.serialBuf[i]? = some 1)
    (hsame : ∃ effect, firmware.outcome (hostCommand commandVal payload) first = some effect ∧
      firmware.outcome (hostCommand commandVal payload) second = some effect) :
    ReadsInside commandVal payload := by
  obtain ⟨effect, hformer, hlatter⟩ := hsame
  rw [outcome_hostCommand firmware commandVal hsize] at hformer hlatter
  rw [ReadsInside]
  cases hcommand : SerialCommand.ofCode? commandVal with
  | none => trivial
  | some command =>
      simp only [hcommand] at hformer hlatter
      have hboth := hformer.trans hlatter.symm
      cases command with
      | addressSet =>
          exact offset_inside (by decide) (hfirst 2 (by decide)) (hsecond 2 (by decide))
            (congrArg Outcome.localAddress (Option.some.inj hboth))
      | pingRequest =>
          exact offset_inside (by decide) (hfirst 2 (by decide)) (hsecond 2 (by decide))
            (congrArg Outcome.dest (Option.some.inj hboth))
      | messageRequest =>
          by_cases hshort : payload.length < 6
          · exact .inl hshort
          · simp only [if_neg hshort] at hboth
            exact .inr (offset_inside (by decide) (hfirst 6 (by decide)) (hsecond 6 (by decide))
              (congrArg Outcome.dest (Option.some.inj hboth)))
      | hostFormedPacket =>
          exact offset_inside (by decide) (hfirst 7 (by decide)) (hsecond 7 (by decide))
            (congrArg Outcome.dest (Option.some.inj hboth))
      | multipartPacket =>
          exact offset_inside (by decide) (hfirst 7 (by decide)) (hsecond 7 (by decide))
            (congrArg Outcome.dest (Option.some.inj hboth))
      | displayControl =>
          apply And.intro
          · rintro rfl
            have htext : first.serialBuf[0]? = some stringDisplay := hfirst 0 (by decide)
            have hother : ¬ second.serialBuf[0]? = some stringDisplay := by
              rw [hsecond 0 (by decide)]
              decide
            simp only [reduceCtorEq, htext, hother, and_true, and_false, if_true, if_false] at hboth
            exact Bool.noConfusion (congrArg Outcome.aborts (Option.some.inj hboth))
          · intro hfirstByte
            simp only [if_pos hfirstByte] at hformer
            cases hformer
      | none => trivial
      | addressGet => trivial
      | hardwareInfo => trivial
      | broadcastMessage => trivial
      | resultCode => trivial

/-! ## The control packet of the plain firmware -/

/-- A ping shows the size in the control packet. -/
theorem ping_shows_size (hcommand : SerialCommand.ofCode? commandVal = some .pingRequest)
    (hsize : payload.length ≤ 255) {first second : Heltec.Node}
    (hfirst : first.Unprepared) (hsecond : second.Prepared) :
    firmware.outcome (hostCommand commandVal payload) first ≠
      firmware.outcome (hostCommand commandVal payload) second := by
  intro hsame
  rw [outcome_hostCommand firmware commandVal hsize, outcome_hostCommand firmware commandVal hsize,
    hcommand] at hsame
  have hframe := (List.cons.inj (congrArg Outcome.transmitted (Option.some.inj hsame))).1
  rw [hfirst.1, hsecond] at hframe
  have hbytes : (0 : UInt8) = 6 := (List.cons.inj (List.cons.inj hframe).2).1
  exact absurd hbytes (by decide)

/-- A ping alone leaves a node unprepared. -/
theorem readAll_ping {node : Heltec.Node} (h : node.Unprepared) (firmware : Firmware)
    (dest : NodeAddress) :
    ∃ later,
      firmware.readAll node [hostCommand SerialCommand.pingRequest.code dest.bytes] = some later ∧
        (later.localAddress = ⟨0, 0, 0⟩ ∧ later.dest = dest) ∧ later.Unprepared := by
  obtain ⟨pinged, hread, hdest, hlocal, hheader⟩ := firmware.read_pingRequest node dest
  apply Exists.intro pinged.1
  apply And.intro
  · rw [readAll, hread]
    rfl
  apply And.intro
  · exact ⟨hlocal.trans h.2, hdest⟩
  · rw [Heltec.Node.Unprepared, hheader, hlocal]
    exact h

/-- A ping behind `ADDRESS_SET` goes out from a prepared node. -/
theorem readAll_setAndPing (firmware : Firmware) (node : Heltec.Node)
    (localAddress dest : NodeAddress) :
    ∃ later,
      firmware.readAll node [hostCommand SerialCommand.addressSet.code localAddress.bytes,
        hostCommand SerialCommand.pingRequest.code dest.bytes] = some later ∧
        (later.localAddress = localAddress ∧ later.dest = dest) ∧ later.Prepared := by
  obtain ⟨addressed, hset, hlocal, hprepared, -⟩ := firmware.read_addressSet node localAddress
  obtain ⟨pinged, hping, hdest, hkept, hheader⟩ := firmware.read_pingRequest addressed.1 dest
  apply Exists.intro pinged.1
  apply And.intro
  · rw [readAll, hset, Option.bind_some, readAll, hping]
    rfl
  apply And.intro
  · exact ⟨hkept.trans hlocal, hdest⟩
  · rw [Heltec.Node.Prepared, hheader, hkept]
    exact hprepared

/-- In the plain firmware a node at 0.0.0 may be prepared or not, which its pings show. -/
theorem ping_shows_preparation (boardVersion : UInt8) (stored dest : NodeAddress)
    (hcommand : SerialCommand.ofCode? commandVal = some .pingRequest)
    (hsize : payload.length ≤ 255) :
    ¬ OwnPayload plain (plain.setup boardVersion stored) ⟨0, 0, 0⟩ dest
        (hostCommand commandVal payload) := by
  intro hown
  have hboot : (plain.setup boardVersion stored).Unprepared :=
    ⟨show slice (Vector.replicate controlSize 0) 1 4 = [0, 0, 0, 0] by decide, rfl⟩
  obtain ⟨former, hfirst, hformer, hunprepared⟩ := readAll_ping hboot plain dest
  obtain ⟨latter, hsecond, hlatter, hprepared⟩ :=
    plain.readAll_setAndPing (plain.setup boardVersion stored) ⟨0, 0, 0⟩ dest
  obtain ⟨effect, hthere, hhere⟩ := hown _ _ former hfirst latter hsecond hformer hlatter
  exact ping_shows_size hcommand hsize hunprepared hprepared (hthere.trans hhere.symm)

end Firmware

/-- **Own payload only.** For every command with up to 255 bytes, and every pair of addresses that
the histories end in, in each of the firmwares: all that the command reads lies inside its payload,
and a ping of the plain firmware does not go out from 0.0.0. -/
theorem acts_on_own_payload_iff (firmware : Firmware) (boardVersion : UInt8)
    (stored localAddress dest : NodeAddress) (commandVal : UInt8) {payload : Bytes}
    (hsize : payload.length ≤ 255) :
    OwnPayload firmware (firmware.setup boardVersion stored) localAddress dest
        (hostCommand commandVal payload) ↔
      ReadsInside commandVal payload ∧
        (firmware = .plain → SerialCommand.ofCode? commandVal = some .pingRequest →
          localAddress ≠ ⟨0, 0, 0⟩) := by
  let start := firmware.setup boardVersion stored
  apply Iff.intro
  · intro hown
    apply And.intro
    · obtain ⟨former, hfirst, hformer, hzeros⟩ := firmware.readAll_litter start localAddress dest 0
      obtain ⟨latter, hsecond, hlatter, hones⟩ := firmware.readAll_litter start localAddress dest 1
      exact Firmware.readsInside_of_litter hsize hzeros hones
        (hown _ _ former hfirst latter hsecond hformer hlatter)
    · intro hplain hcommand hzero
      subst hplain hzero
      exact Firmware.ping_shows_preparation boardVersion stored dest hcommand hsize hown
  · intro hinside first second former hfirst latter hsecond hformer hlatter
    have hready := firmware.ready_setup boardVersion stored
    apply Firmware.outcome_congr hsize hinside.1 (hformer.1.trans hlatter.1.symm)
      (hformer.2.trans hlatter.2.symm)
    intro hcommand
    have hfirstPrepared := (hready.readAll hfirst).prepared fun hplain =>
      hformer.1 ▸ hinside.2 hplain hcommand
    have hsecondPrepared := (hready.readAll hsecond).prepared fun hplain =>
      hlatter.1 ▸ hinside.2 hplain hcommand
    rw [hfirstPrepared, hsecondPrepared, hformer.1, hlatter.1]

/-- The equivalence for `ADDRESS_SET` with the two bytes 10 and 0, in the v3 firmware. -/
theorem acts_on_own_payload_shortAddress :
    OwnPayload .v3 (Firmware.v3.setup 3 ⟨10, 0, 3⟩) ⟨10, 0, 3⟩ ⟨0, 0, 0⟩
        (hostCommand SerialCommand.addressSet.code [10, 0]) ↔
      ReadsInside SerialCommand.addressSet.code [10, 0] ∧
        (Firmware.v3 = .plain →
          SerialCommand.ofCode? SerialCommand.addressSet.code = some .pingRequest →
            (⟨10, 0, 3⟩ : NodeAddress) ≠ ⟨0, 0, 0⟩) :=
  acts_on_own_payload_iff .v3 3 ⟨10, 0, 3⟩ ⟨10, 0, 3⟩ ⟨0, 0, 0⟩ SerialCommand.addressSet.code
    (by decide)

/-- `ADDRESS_SET` with two bytes, from a host that has asked for the address with a payload of
three zeros, or of three ones: the node becomes 10.0.0, or 10.0.1. The v3 firmware stores it. -/
theorem shortAddress_takes_earlier_byte :
    (¬ OwnPayload .v3 (Firmware.v3.setup 3 ⟨10, 0, 3⟩) ⟨10, 0, 3⟩ ⟨0, 0, 0⟩
        (hostCommand SerialCommand.addressSet.code [10, 0])) ∧
      ¬ OwnPayload .plain (Firmware.plain.setup 3 ⟨10, 0, 3⟩) ⟨0, 0, 0⟩ ⟨0, 0, 0⟩
        (hostCommand SerialCommand.addressSet.code [10, 0]) := by
  have hasked : ∀ (firmware : Firmware) (node : Heltec.Node) (byte : UInt8),
      firmware.readAll node [hostCommand SerialCommand.addressGet.code (List.replicate 3 byte)] =
        some (node.readSerialPayload (List.replicate 3 byte)) := by
    intro firmware node byte
    have hsize : (List.replicate 3 byte).length ≤ 255 := Nat.le_of_ble_eq_true rfl
    obtain ⟨result, hread, hlater⟩ := firmware.read_addressGet node hsize
    rw [Firmware.readAll, hread, ← hlater]
    rfl
  apply And.intro
  · intro hown
    obtain ⟨effect, hfirst, hsecond⟩ := hown _ _ _ (hasked _ _ 0) _ (hasked _ _ 1)
      ⟨rfl, rfl⟩ ⟨rfl, rfl⟩
    exact absurd (hfirst.trans hsecond.symm) (by decide +kernel)
  · intro hown
    obtain ⟨effect, hfirst, hsecond⟩ := hown _ _ _ (hasked _ _ 0) _ (hasked _ _ 1)
      ⟨rfl, rfl⟩ ⟨rfl, rfl⟩
    exact absurd (hfirst.trans hsecond.symm) (by decide +kernel)

end RadioDoge
