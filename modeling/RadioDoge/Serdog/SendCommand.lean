/-
# Which commands serdog sends whole

`sendCommand` narrows the size of its payload to a byte. Its copy loop and its write loop
both stop on equality with that byte: a size that is a multiple of 256 is never met by the
first of them, and any other size above 255 is met too early. `sendsWhole_iff` says which
calls of `cmdSendMessage` and `cmdDisplayCustomStringOnOLED` are sent as they are.
-/

import RadioDoge.Serdog.Command

namespace RadioDoge.Serdog

/-- `STRING_DISPLAY`. -/
abbrev stringDisplay : UInt8 := 0

/-- `cmdDisplayCustomStringOnOLED`. -/
def cmdDisplayCustomStringOnOLED (displayString : Bytes) (displayStringLen : Nat)
    (yOffset : UInt8) : Option Bytes :=
  let cmdType := SerialCommand.displayControl
  let totalPayloadSize := displayStringLen + 2
  let commandPayload := [stringDisplay, yOffset] ++ displayString.take displayStringLen
  sendCommand cmdType totalPayloadSize (some commandPayload)

/-! ## The write loop -/

/-- The write loop: `do { write(USB, &txbytes[idx], 1); .. }
while (total_written != (payloadlen + HDR_LEN))`, on the bytes of `txbytes` from `idx` on.
Every `write` takes its byte. -/
def writeLoop (payloadlen : UInt8) (totalWritten : Nat) : Bytes → Option Bytes
  | [] => none
  | byte :: rest =>
      if totalWritten + 1 = payloadlen.toNat + hdrLen then some [byte]
      else (writeLoop payloadlen (totalWritten + 1) rest).map (byte :: ·)

/-- The write loop stops, and writes the bytes up to the size it was given. -/
theorem writeLoop_eq_take {payloadlen : UInt8} (rest : Bytes) :
    ∀ (totalWritten : Nat), totalWritten < payloadlen.toNat + hdrLen →
      payloadlen.toNat + hdrLen ≤ totalWritten + rest.length →
      writeLoop payloadlen totalWritten rest =
        some (rest.take (payloadlen.toNat + hdrLen - totalWritten)) := by
  induction rest with
  | nil =>
      intro totalWritten hmore hroom
      rw [List.length_nil] at hroom
      omega
  | cons byte rest ih =>
      intro totalWritten hmore hroom
      rw [List.length_cons] at hroom
      have hleft : payloadlen.toNat + hdrLen - totalWritten =
          (payloadlen.toNat + hdrLen - (totalWritten + 1)) + 1 := by omega
      rw [writeLoop, hleft, List.take_succ_cons]
      by_cases hlast : totalWritten + 1 = payloadlen.toNat + hdrLen
      · rw [if_pos hlast, hlast, Nat.sub_self, List.take_zero]
      · rw [if_neg hlast, ih (totalWritten + 1) (by omega) (by omega), Option.map_some]

/-- `sendCommand` with its write loop is `sendCommand`: the loop ends inside `txbytes`. -/
theorem sendCommand_eq_writeLoop (cmdtype : SerialCommand) (payloadsize : Nat) (payload : Bytes) :
    sendCommand cmdtype payloadsize (some payload) =
      (copyPayload (UInt8.ofNat payloadsize) 0
        (memcpy (Vector.replicate txbytesSize 0) 0 [cmdtype.code, UInt8.ofNat payloadsize])
        payload).bind fun txbytes => writeLoop (UInt8.ofNat payloadsize) 0 txbytes.toList := by
  have hloop : ∀ txbytes : Vector UInt8 txbytesSize,
      writeLoop (UInt8.ofNat payloadsize) 0 txbytes.toList =
        some (txbytes.toList.take ((UInt8.ofNat payloadsize).toNat + hdrLen)) := by
    intro txbytes
    apply writeLoop_eq_take
    · exact Nat.lt_of_lt_of_le (by decide) (Nat.le_add_left hdrLen _)
    · have hbyte := (UInt8.ofNat payloadsize).toNat_lt
      rw [Vector.length_toList, Nat.zero_add]
      exact Nat.add_le_add_right (Nat.le_of_lt_succ hbyte) hdrLen
  simp only [hloop]
  rw [sendCommand, Option.map_eq_bind]
  rfl

/-! ## Sizes above 255 -/

/-- A copy whose size is 0 as a byte runs past the end of one of the two arrays. -/
theorem copyPayload_zero {payloadlen : UInt8} (hzero : payloadlen.toNat = 0) (payload : Bytes) :
    ∀ (idx : Nat) (txbytes : Vector UInt8 txbytesSize),
      copyPayload payloadlen idx txbytes payload = none := by
  induction payload with
  | nil =>
      intro idx txbytes
      rfl
  | cons byte rest ih =>
      intro idx txbytes
      have hnever : idx + 1 ≠ payloadlen.toNat := by
        rw [hzero]
        exact Nat.succ_ne_zero idx
      rw [copyPayload, if_neg hnever, ih]
      split <;> rfl

/-- Whatever is written, it is the two header bytes and at most 255 others. -/
theorem length_sendCommand {cmdtype : SerialCommand} {payloadsize : Nat} {payload bytes : Bytes}
    (hwritten : sendCommand cmdtype payloadsize (some payload) = some bytes) :
    hdrLen ≤ bytes.length ∧ bytes.length ≤ txbytesSize := by
  rw [sendCommand, Option.map_eq_some_iff] at hwritten
  rcases hwritten with ⟨txbytes, _, rfl⟩
  have hbyte := (UInt8.ofNat payloadsize).toNat_lt
  simp only [List.length_take, Vector.length_toList, txbytesSize, hdrLen]
  omega

/-! ## The calls -/

/-- A call of one of the two functions. `cmdSendMessage` takes the length of the custom
payload as a byte. -/
inductive RadioCall
  | sendMessage (inAddr destAddr : NodeAddress) (customPayload : Bytes)
      (fits : customPayload.length ≤ 255)
  | displayCustomString (displayString : Bytes) (yOffset : UInt8)

namespace RadioCall

/-- The bytes written to the serial port. -/
def written : RadioCall → Option Bytes
  | .sendMessage inAddr destAddr customPayload _ =>
      cmdSendMessage inAddr destAddr customPayload (UInt8.ofNat customPayload.length)
  | .displayCustomString displayString yOffset =>
      cmdDisplayCustomStringOnOLED displayString displayString.length yOffset

/-- The command that `sendCommand` is given. -/
def cmdtype : RadioCall → SerialCommand
  | .sendMessage _ _ _ _ => .hostFormedPacket
  | .displayCustomString _ _ => .displayControl

/-- The payload that `sendCommand` is given. -/
def payload : RadioCall → Bytes
  | .sendMessage inAddr destAddr customPayload _ =>
      [SerialCommand.hostFormedPacket.code, UInt8.ofNat (customPayload.length + 6)] ++
        inAddr.bytes ++ destAddr.bytes ++ customPayload
  | .displayCustomString displayString yOffset => [stringDisplay, yOffset] ++ displayString

/-- The custom payload leaves room for the header and the addresses of the packet, the
string for its own two bytes. -/
def Fits : RadioCall → Prop
  | .sendMessage _ _ customPayload _ => customPayload.length ≤ 247
  | .displayCustomString displayString _ => displayString.length ≤ 253

/-- `sendCommand` ends inside its arrays, and writes the whole command or nothing. -/
def SendsWhole (call : RadioCall) : Prop :=
  ∃ bytes, call.written = some bytes ∧ (bytes = framed call.cmdtype call.payload ∨ bytes = [])

/-- Both functions pass a whole payload with its size. -/
theorem written_eq (call : RadioCall) :
    call.written = sendCommand call.cmdtype call.payload.length (some call.payload) := by
  cases call with
  | displayCustomString displayString yOffset =>
      simp only [written, cmdDisplayCustomStringOnOLED, List.take_length]
      rfl
  | sendMessage inAddr destAddr customPayload fits =>
      have hsize : (UInt8.ofNat customPayload.length).toNat = customPayload.length :=
        toNat_ofNat_of_le fits
      have hlength : (payload (.sendMessage inAddr destAddr customPayload fits)).length =
          customPayload.length + hdrLen + 3 + 3 := by
        simp only [payload, List.length_append, List.length_cons, List.length_nil,
          NodeAddress.length_bytes, hdrLen]
        omega
      simp only [written, cmdSendMessage, hsize, List.take_length, hlength]
      rfl

theorem fits_iff (call : RadioCall) : call.Fits ↔ call.payload.length ≤ 255 := by
  cases call with
  | displayCustomString displayString yOffset =>
      simp only [Fits, payload, List.length_append, List.length_cons, List.length_nil]
      omega
  | sendMessage inAddr destAddr customPayload fits =>
      simp only [Fits, payload, List.length_append, List.length_cons, List.length_nil,
        NodeAddress.length_bytes]
      omega

theorem payload_ne_nil (call : RadioCall) : call.payload ≠ [] := by
  cases call <;> simp [payload]

/-- A payload whose size is a multiple of 256 is copied without an end. -/
theorem written_of_dvd (call : RadioCall) (hsize : 256 ∣ call.payload.length) :
    call.written = none := by
  have hzero : (UInt8.ofNat call.payload.length).toNat = 0 := by
    rw [UInt8.toNat_ofNat']
    exact Nat.mod_eq_zero_of_dvd hsize
  rw [written_eq, sendCommand]
  simp only [copyPayload_zero hzero, Option.map_none]

/-- **Which calls are sent whole.** A custom payload has to leave room for eight bytes of the
packet, a string for two bytes of the display command. -/
theorem sendsWhole_iff (call : RadioCall) : call.SendsWhole ↔ call.Fits := by
  rw [fits_iff]
  apply Iff.intro
  · intro hwhole
    rcases hwhole with ⟨bytes, hwritten, hbytes⟩
    rw [written_eq] at hwritten
    rcases length_sendCommand hwritten with ⟨hheader, hmost⟩
    rcases hbytes with rfl | rfl
    · rw [length_framed] at hmost
      exact Nat.le_of_add_le_add_right hmost
    · exact absurd hheader (by decide)
  · intro hfits
    refine ⟨_, ?_, .inl rfl⟩
    rw [written_eq]
    exact sendCommand_eq call.cmdtype (List.length_pos_iff.mpr call.payload_ne_nil) hfits

/-- A custom payload of 248 bytes makes a payload of 256, which is copied without an end. -/
theorem custom_payload_of_248 : ¬ ∀ call : RadioCall, call.SendsWhole := by
  intro hall
  have hcustom : (List.replicate 248 (65 : UInt8)).length = 248 := List.length_replicate
  let call := RadioCall.sendMessage ⟨10, 0, 1⟩ ⟨10, 0, 3⟩ (List.replicate 248 65) (by
    rw [hcustom]
    decide)
  have hsize : call.payload.length = 256 := by
    simp only [call, payload, List.length_append, List.length_cons, List.length_nil,
      NodeAddress.length_bytes, hcustom]
  rcases hall call with ⟨bytes, hwritten, -⟩
  rw [written_of_dvd call ⟨1, hsize⟩] at hwritten
  cases hwritten

end RadioCall

end RadioDoge.Serdog
