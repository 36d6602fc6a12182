/-
# What the hub recovers from

`currMultipartPacket` is replaced only when it is complete. A packet that has lost a part
waits for the number of that part, whoever sends it, and passes over everything else, so
the next message finds a packet that may be half full. `recovers_iff` says which of these
packets complete the next message, at its last part and with what it says.
-/

import RadioDoge.Sharp.PortData

namespace RadioDoge.Sharp

/-! ## The current packet of the port -/

namespace MultipartPacket

/-- One part received: the answer with the packet that gives it, and the current packet from
there on. -/
def receivePiece (piece : Bytes) (p : MultipartPacket) :
    Throws ((PacketReconstructionCode × MultipartPacket) × MultipartPacket) := do
  let added ← p.addPacketPiece piece
  pure (added, if added.1 = .complete then fresh else added.2)

/-- One part after the other, with the answers. -/
def receivePieces (p : MultipartPacket) :
    List Bytes → Throws (List (PacketReconstructionCode × MultipartPacket) × MultipartPacket)
  | [] => pure ([], p)
  | piece :: rest => do
      let first ← p.receivePiece piece
      let later ← first.2.receivePieces rest
      pure (first.1 :: later.1, later.2)

/-- The packets that any sequence of parts leaves behind. -/
inductive Reachable : MultipartPacket → Prop
  | fresh : Reachable fresh
  | receive {p next : MultipartPacket} {piece : Bytes}
      {answer : PacketReconstructionCode × MultipartPacket} :
      Reachable p → p.receivePiece piece = .ok (answer, next) → Reachable next

/-- Parts in two stretches. -/
theorem receivePieces_append (first second : List Bytes) :
    ∀ p : MultipartPacket, p.receivePieces (first ++ second) =
      (p.receivePieces first >>= fun before =>
        before.2.receivePieces second >>= fun after => pure (before.1 ++ after.1, after.2)) := by
  induction first with
  | nil =>
      intro p
      simp only [List.nil_append, receivePieces, pure_bind]
      exact (bind_pure _).symm
  | cons piece rest ih =>
      intro p
      simp only [List.cons_append, receivePieces, ih, bind_assoc, pure_bind]

end MultipartPacket

/-- `PortDataReceived` keeps the packet that `receivePiece` leaves. -/
theorem currMultipartPacket_processReceived {W : Type} (library : LibDogecoin W) {payload : Bytes}
    {host : Host W} {result : Host W × List Bytes}
    (hresult : processReceived library SerialCommand.multipartPacket.code payload host =
      .ok result) :
    ∃ answer, host.currMultipartPacket.receivePiece payload =
      .ok (answer, result.1.currMultipartPacket) := by
  simp only [processReceived, SerialCommand.ofCode?_code] at hresult
  rw [MultipartPacket.receivePiece]
  cases hadded : host.currMultipartPacket.addPacketPiece payload with
  | error e =>
      rw [hadded] at hresult
      cases hresult
  | ok added =>
      rw [hadded, bind_ok] at hresult
      refine ⟨added, ?_⟩
      rw [bind_ok]
      by_cases hcomplete : added.1 = .complete
      · rw [if_pos hcomplete, processCompletePacket] at hresult
        rw [if_pos hcomplete]
        cases hdoge : processDogePayload library added.2.senderAddress added.2.getPayload
          host.hub with
        | error e =>
            rw [hdoge] at hresult
            cases hresult
        | ok handled =>
            rw [hdoge] at hresult
            rcases Except.ok.inj hresult with rfl
            rfl
      · rw [if_neg hcomplete] at hresult
        rw [if_neg hcomplete]
        rcases Except.ok.inj hresult with rfl
        rfl

/-! ## The parts of a message -/

/-- A message in parts, however it was cut. -/
structure PartedMessage where
  src : NodeAddress
  dest : NodeAddress
  messageID : UInt8
  reservedValue : UInt8
  pieces : List Bytes
  deriving DecidableEq, Repr

namespace PartedMessage

variable (m : PartedMessage)

/-- The payload of the message. -/
def payload : Bytes := m.pieces.flatten

/-- One part as the hub is given it. The number and the total are single bytes. -/
def body (part : Nat) : Bytes :=
  m.src.bytes ++ m.dest.bytes ++ [m.messageID, m.reservedValue, UInt8.ofNat (part + 1),
    UInt8.ofNat m.pieces.length] ++ m.pieces[part]?.getD []

/-- The first `k` parts, in order. -/
def bodies (k : Nat) : List Bytes := (List.range k).map m.body

/-- The parts of the message, received in order by a packet, complete it at the last part,
with its payload, its sender and its id. -/
def RecoveredBy (p : MultipartPacket) : Prop :=
  ∃ early packet, p.receivePieces (m.bodies m.pieces.length) =
      .ok (early ++ [(.complete, packet)], .fresh) ∧
    (∀ answer ∈ early, answer.1 ≠ .complete) ∧ packet.getPayload = m.payload ∧
    packet.senderAddress = m.src ∧ packet.messageID = m.messageID

/-- What the first part says about the message. -/
def headed (p : MultipartPacket) : MultipartPacket :=
  { p with
    senderAddress := m.src
    destinationAddress := m.dest
    messageID := m.messageID
    reservedValue := m.reservedValue
    totalNumberParts := UInt8.ofNat m.pieces.length }

theorem bodies_succ (k : Nat) : m.bodies (k + 1) = m.bodies k ++ [m.body k] := by
  rw [bodies, bodies, List.range_succ, List.map_append, List.map_singleton]

/-- Reading one part. -/
theorem addPacketPiece_body (part : Nat) (p : MultipartPacket) :
    p.addPacketPiece (m.body part) = .ok (
      if p.currentPart = UInt8.ofNat (part + 1) then
        MultipartPacket.closePiece { (if p.currentPart = 1 then m.headed p else p) with
          reassembledPayload := p.reassembledPayload ++ m.pieces[part]?.getD [] }
      else (.missingPiece, p)) := by
  have hnumber : index (m.body part) 8 = .ok (UInt8.ofNat (part + 1)) := rfl
  have hopened : p.openPacket (m.body part) =
      .ok (if p.currentPart = 1 then m.headed p else p) := by
    rw [MultipartPacket.openPacket]
    by_cases hfirst : p.currentPart = 1
    · rw [if_pos hfirst, if_pos hfirst]
      rfl
    · rw [if_neg hfirst, if_neg hfirst]
      rfl
  have hdata : copyOut (m.body part) 10 ((m.body part).length - 10) =
      .ok (m.pieces[part]?.getD []) := by
    have hheader : 10 ≤ (m.body part).length := by
      simp only [body, List.length_append, List.length_cons, List.length_nil,
        NodeAddress.length_bytes]
      exact Nat.le_add_right _ _
    rw [MultipartPacket.copyOut_data hheader]
    rfl
  rw [MultipartPacket.addPacketPiece, hnumber, bind_ok]
  by_cases hnext : p.currentPart = UInt8.ofNat (part + 1)
  · have hpayload : (if p.currentPart = 1 then m.headed p else p).reassembledPayload =
        p.reassembledPayload := by
      split <;> rfl
    rw [if_pos hnext, if_pos hnext, hopened, bind_ok, hdata, bind_ok, hpayload]
    rfl
  · rw [if_neg hnext, if_neg hnext]
    rfl

end PartedMessage

/-! ## Numbers in a byte -/

/-- The place of a part whose number is a byte: the first part is number 1, and number 0
comes last. -/
def place (number : UInt8) : Nat := (number - 1).toNat + 1

theorem place_pos (number : UInt8) : 1 ≤ place number := Nat.succ_pos _

theorem place_le (number : UInt8) : place number ≤ 256 := (number - 1).toNat_lt

theorem place_ofNat {k : Nat} (hk : k < 256) : place (UInt8.ofNat (k + 1)) = k + 1 := by
  have hsub : UInt8.ofNat (k + 1) - 1 = UInt8.ofNat k := by
    rw [UInt8.ofNat_add]
    exact UInt8.add_sub_cancel _ _
  rw [place, hsub, UInt8.toNat_ofNat', Nat.mod_eq_of_lt hk]

theorem place_inj {number other : UInt8} (h : place number = place other) : number = other := by
  have hsub : number - 1 = other - 1 := UInt8.toNat_inj.mp (Nat.succ.inj h)
  have hadd := congrArg (· + 1) hsub
  simpa using hadd

theorem place_add_one {number : UInt8} (h : place number < 256) :
    place (number + 1) = place number + 1 := by
  have hnumber : number = UInt8.ofNat (number - 1).toNat + 1 := by
    rw [UInt8.ofNat_toNat, UInt8.sub_add_cancel]
  have hofNat : number = UInt8.ofNat (place number) := by
    rw [place, UInt8.ofNat_add]
    exact hnumber
  have hnext : number + 1 = UInt8.ofNat (place number + 1) := by
    rw [UInt8.ofNat_add, ← hofNat]
    rfl
  rw [hnext, place_ofNat h]

/-- A byte is the number of part `k` exactly if that is its place. -/
theorem eq_ofNat_iff {number : UInt8} {k : Nat} (hk : k < 256) :
    number = UInt8.ofNat (k + 1) ↔ place number = k + 1 := by
  apply Iff.intro
  · intro hsame
    rw [hsame, place_ofNat hk]
  · intro hplace
    exact place_inj (hplace.trans (place_ofNat hk).symm)

/-! ## Receiving a whole message -/

namespace MultipartPacket

/-- The place of the part that the packet waits for. -/
def expected (p : MultipartPacket) : Nat := place p.currentPart

/-- Nothing is in the packet, or it waits for a part of the message whose head it holds. -/
def Sound (p : MultipartPacket) : Prop :=
  p = fresh ∨ p.currentPart ≠ 1 ∧ p.expected ≤ place p.totalNumberParts

/-- A part that does not complete the packet is passed over, or the packet waits for the
part behind it. -/
theorem addPacketPiece_kept {p : MultipartPacket} {piece : Bytes}
    {added : PacketReconstructionCode × MultipartPacket}
    (hadded : p.addPacketPiece piece = .ok added) (hmore : added.1 ≠ .complete) :
    added.2 = p ∨ added.2.currentPart = p.currentPart + 1 ∧
      p.currentPart ≠ added.2.totalNumberParts ∧
      (p.currentPart ≠ 1 → added.2.totalNumberParts = p.totalNumberParts) := by
  have hfits := (p.completes_addPacketPiece piece).mp ⟨_, hadded⟩
  have hnumber : 8 < piece.length := hfits.1
  rw [addPacketPiece, index_eq_ok hnumber, bind_ok] at hadded
  by_cases hnext : p.currentPart = piece[8]
  · have hheader := hfits.2 (by rw [List.getElem?_eq_getElem hnumber, hnext])
    rcases p.openPacket_of_header hheader with ⟨opened, hopened, hcurrent, -, htotal⟩
    rw [if_pos hnext, hopened, bind_ok, copyOut_data hheader, bind_ok, closePiece] at hadded
    by_cases hlast : opened.currentPart = opened.totalNumberParts
    · rw [if_pos hlast] at hadded
      exact absurd (congrArg Prod.fst (Except.ok.inj hadded)).symm hmore
    · rw [if_neg hlast] at hadded
      rcases Except.ok.inj hadded with rfl
      refine Or.inr ⟨congrArg (· + 1) hcurrent, hcurrent ▸ hlast, ?_⟩
      intro hlater
      rw [if_neg hlater] at htotal
      exact Option.some.inj htotal
  · rw [if_neg hnext] at hadded
    rcases Except.ok.inj hadded with rfl
    exact Or.inl rfl

/-- A packet never waits for a part behind its last one. -/
theorem Sound.step {p next : MultipartPacket} {piece : Bytes}
    {answer : PacketReconstructionCode × MultipartPacket} (h : p.Sound)
    (hreceived : p.receivePiece piece = .ok (answer, next)) : next.Sound := by
  rw [receivePiece] at hreceived
  cases hadded : p.addPacketPiece piece with
  | error e =>
      rw [hadded] at hreceived
      cases hreceived
  | ok added =>
      rw [hadded, bind_ok] at hreceived
      rcases Prod.mk.inj (Except.ok.inj hreceived) with ⟨rfl, rfl⟩
      by_cases hcomplete : added.1 = .complete
      · rw [if_pos hcomplete]
        exact Or.inl rfl
      rw [if_neg hcomplete]
      rcases addPacketPiece_kept hadded hcomplete with hsame | ⟨hcurrent, hlast, htotal⟩
      · rw [hsame]
        exact h
      have hle : p.expected ≤ place added.2.totalNumberParts := by
        rcases h with rfl | ⟨hlater, hle⟩
        · exact place_pos _
        · rw [htotal hlater]
          exact hle
      have hlt : p.expected < place added.2.totalNumberParts :=
        Nat.lt_of_le_of_ne hle fun hsame => hlast (place_inj hsame)
      have hplace : place added.2.currentPart = p.expected + 1 := by
        rw [hcurrent]
        exact place_add_one (hlt.trans_le (place_le _))
      apply Or.inr
      apply And.intro
      · intro hone
        rw [hone] at hplace
        exact absurd (Nat.succ.inj hplace) (Nat.ne_of_lt (place_pos _))
      · rw [expected, hplace]
        exact hlt

/-- Whatever was received, the current packet is sound. -/
theorem Reachable.sound {p : MultipartPacket} (h : p.Reachable) : p.Sound := by
  induction h with
  | fresh => exact Or.inl rfl
  | receive _ hreceived ih => exact ih.step hreceived

end MultipartPacket

namespace PartedMessage

variable (m : PartedMessage) (p : MultipartPacket)

/-- The packet with the head that it has once it is open. -/
def base : MultipartPacket := if p.currentPart = 1 then m.headed p else p

/-- The place of the part that completes the packet. -/
def ending : Nat := place (m.base p).totalNumberParts

/-- The payload when the first `k` parts were received. -/
def collected (k : Nat) : Bytes :=
  p.reassembledPayload ++ ((m.pieces.take k).drop (p.expected - 1)).flatten

/-- The packet with the first `k` parts received, waiting for part `number`. -/
def filled (k number : Nat) : MultipartPacket :=
  { m.base p with currentPart := UInt8.ofNat number, reassembledPayload := m.collected p k }

/-- The packet after the first `k` parts: those before the expected one are passed over. -/
def after (k : Nat) : MultipartPacket := if k < p.expected then p else m.filled p k (k + 1)

variable {p}

theorem expected_le_ending (h : p.Sound) : p.expected ≤ m.ending p := by
  rcases h with rfl | ⟨hfirst, hle⟩
  · exact place_pos _
  · rw [ending, base, if_neg hfirst]
    exact hle

/-- One more part is collected if it is not passed over. -/
theorem collected_succ {k : Nat} (hk : k < m.pieces.length) (hexpected : p.expected ≤ k + 1) :
    m.collected p (k + 1) = m.collected p k ++ m.pieces[k]?.getD [] := by
  have hlength : (m.pieces.take k).length = k := List.length_take_of_le hk.le
  have hdrop : (m.pieces.take (k + 1)).drop (p.expected - 1) =
      (m.pieces.take k).drop (p.expected - 1) ++ [m.pieces[k]] := by
    rw [← List.take_concat_get' m.pieces k hk]
    apply List.drop_append_of_le_length
    rw [hlength]
    exact Nat.sub_le_of_le_add hexpected
  rw [collected, collected, hdrop, List.flatten_append, List.flatten_singleton, List.append_assoc,
    List.getElem?_eq_getElem hk, Option.getD_some]

/-- Nothing is collected before the expected part. -/
theorem collected_of_lt {k : Nat} (hk : k < p.expected) :
    m.collected p k = p.reassembledPayload := by
  have hnone : (m.pieces.take k).drop (p.expected - 1) = [] := by
    apply List.drop_eq_nil_of_le
    exact (List.length_take_le _ _).trans (Nat.le_sub_one_of_lt hk)
  rw [collected, hnone, List.flatten_nil, List.append_nil]

/-- The expected part opens the packet, and every later one finds it open. -/
theorem addPacketPiece_accepted {k : Nat} (hk : k < m.pieces.length) (hend : k < m.ending p)
    (hexpected : p.expected ≤ k + 1) :
    (m.after p k).addPacketPiece (m.body k) = .ok (m.filled p (k + 1) (k + 1)).closePiece := by
  have hbyte : k < 256 := hend.trans_le (place_le _)
  rw [addPacketPiece_body, filled, m.collected_succ hk hexpected]
  by_cases hlater : k < p.expected
  · -- the part that the packet has waited for
    have hplace : p.expected = k + 1 := Nat.le_antisymm hexpected hlater
    have hnumber : p.currentPart = UInt8.ofNat (k + 1) := (eq_ofNat_iff hbyte).mpr hplace
    have hbase : (m.base p).currentPart = p.currentPart := by
      rw [base]
      split <;> rfl
    have hkeep : { m.base p with currentPart := UInt8.ofNat (k + 1) } = m.base p := by
      rw [← hnumber, ← hbase]
    rw [after, if_pos hlater, if_pos hnumber, m.collected_of_lt hlater]
    exact congrArg (fun opened : MultipartPacket => Except.ok (MultipartPacket.closePiece
      { opened with reassembledPayload := p.reassembledPayload ++ m.pieces[k]?.getD [] }))
      hkeep.symm
  · have hopen : UInt8.ofNat (k + 1) ≠ 1 := by
      intro hone
      have hplace := (eq_ofNat_iff hbyte).mp hone.symm
      have hzero : k = 0 := Nat.succ.inj hplace.symm
      exact hlater (hzero ▸ place_pos _)
    have hnumber : (m.filled p k (k + 1)).currentPart = UInt8.ofNat (k + 1) := rfl
    rw [after, if_neg hlater, if_pos hnumber, hnumber, if_neg hopen]
    rfl

/-- Each part before the one that completes the packet is passed over or added. -/
theorem addPacketPiece_after (h : p.Sound) {k : Nat} (hk : k < m.pieces.length)
    (hend : k < m.ending p) :
    (k + 1 = m.ending p → (m.after p k).addPacketPiece (m.body k) =
      .ok (.complete, m.filled p (k + 1) (k + 1))) ∧
    (k + 1 ≠ m.ending p → ∃ code, code ≠ .complete ∧
      (m.after p k).addPacketPiece (m.body k) = .ok (code, m.after p (k + 1))) := by
  have hle := m.expected_le_ending h
  have hbyte : k < 256 := hend.trans_le (place_le _)
  by_cases hexpected : p.expected ≤ k + 1
  · have hdone : (m.filled p (k + 1) (k + 1)).currentPart =
        (m.filled p (k + 1) (k + 1)).totalNumberParts ↔ k + 1 = m.ending p := by
      change UInt8.ofNat (k + 1) = (m.base p).totalNumberParts ↔ k + 1 = m.ending p
      rw [eq_comm, eq_ofNat_iff hbyte, eq_comm, ending]
    rw [m.addPacketPiece_accepted hk hend hexpected, MultipartPacket.closePiece]
    apply And.intro
    · intro hlast
      rw [if_pos (hdone.mpr hlast)]
    · intro hmore
      refine ⟨.incomplete, by decide, ?_⟩
      have hnext : (m.filled p (k + 1) (k + 1)).currentPart + 1 = UInt8.ofNat (k + 1 + 1) := by
        rw [UInt8.ofNat_add (k + 1) 1]
        rfl
      rw [if_neg (fun heq => hmore (hdone.mp heq)), hnext, after, if_neg (Nat.not_lt.mpr hexpected)]
      rfl
  · have hbefore : k + 1 < p.expected := Nat.lt_of_not_le hexpected
    have hnumber : ¬ p.currentPart = UInt8.ofNat (k + 1) := by
      rw [eq_ofNat_iff hbyte]
      exact Nat.ne_of_gt hbefore
    apply And.intro
    · intro hlast
      exact absurd (hlast ▸ hle) hexpected
    · intro _
      refine ⟨.missingPiece, by decide, ?_⟩
      rw [after, if_pos (Nat.lt_of_succ_lt hbefore), after, if_pos hbefore, addPacketPiece_body,
        if_neg hnumber]

/-- Before the part that completes it, the packet answers to none with `Complete`. -/
theorem receivePieces_before (h : p.Sound) {k : Nat} (hk : k ≤ m.pieces.length)
    (hend : k < m.ending p) :
    ∃ answers, p.receivePieces (m.bodies k) = .ok (answers, m.after p k) ∧
      ∀ answer ∈ answers, answer.1 ≠ .complete := by
  induction k with
  | zero =>
      refine ⟨[], ?_, fun answer hmem => absurd hmem List.not_mem_nil⟩
      rw [after, if_pos (show 0 < p.expected from place_pos _)]
      rfl
  | succ k ih =>
      rcases ih (Nat.le_of_succ_le hk) (Nat.lt_of_succ_lt hend) with ⟨answers, hrun, hnone⟩
      rcases (m.addPacketPiece_after h hk (Nat.lt_of_succ_lt hend)).2 (Nat.ne_of_lt hend) with
        ⟨code, hcode, hadded⟩
      refine ⟨answers ++ [(code, m.after p (k + 1))], ?_, ?_⟩
      · rw [bodies_succ, MultipartPacket.receivePieces_append, hrun, bind_ok]
        simp only [MultipartPacket.receivePieces, MultipartPacket.receivePiece, hadded, bind_ok,
          if_neg hcode, pure_bind]
        rfl
      · intro answer hmem
        rcases List.mem_append.mp hmem with hold | hnew
        · exact hnone answer hold
        · rw [List.mem_singleton.mp hnew]
          exact hcode

/-- The part that completes the packet. -/
theorem receivePieces_ending (h : p.Sound) {k : Nat} (hk : k < m.pieces.length)
    (hlast : k + 1 = m.ending p) :
    ∃ early, p.receivePieces (m.bodies (k + 1)) =
        .ok (early ++ [(.complete, m.filled p (k + 1) (k + 1))], .fresh) ∧
      ∀ answer ∈ early, answer.1 ≠ .complete := by
  have hend : k < m.ending p := hlast ▸ Nat.lt_succ_self k
  rcases m.receivePieces_before h hk.le hend with ⟨early, hrun, hnone⟩
  refine ⟨early, ?_, hnone⟩
  rw [bodies_succ, MultipartPacket.receivePieces_append, hrun, bind_ok]
  simp only [MultipartPacket.receivePieces, MultipartPacket.receivePiece,
    (m.addPacketPiece_after h hk hend).1 hlast, bind_ok, if_true, pure_bind]
  rfl
/-- One more part, with its answer. -/
theorem receivePieces_bodies_succ {k : Nat} {next : MultipartPacket}
    {answers : List (PacketReconstructionCode × MultipartPacket)}
    (h : p.receivePieces (m.bodies (k + 1)) = .ok (answers, next)) :
    ∃ early before answer, p.receivePieces (m.bodies k) = .ok (early, before) ∧
      answers = early ++ [answer] := by
  rw [bodies_succ, MultipartPacket.receivePieces_append] at h
  cases hrun : p.receivePieces (m.bodies k) with
  | error e =>
      rw [hrun] at h
      cases h
  | ok before =>
      rw [hrun, bind_ok, MultipartPacket.receivePieces] at h
      cases hreceived : before.2.receivePiece (m.body k) with
      | error e =>
          rw [hreceived] at h
          cases h
      | ok first =>
          rw [hreceived] at h
          rcases Prod.mk.inj (Except.ok.inj h) with ⟨rfl, -⟩
          exact ⟨before.1, before.2, first.1, rfl, rfl⟩

/-- Behind the part that completed the packet an answer stays `Complete`. -/
theorem complete_mem_of_ending_le (h : p.Sound) (hend : m.ending p ≤ m.pieces.length) {k : Nat}
    (hk : m.ending p ≤ k) : ∀ {answers next}, p.receivePieces (m.bodies k) = .ok (answers, next) →
      ∃ answer ∈ answers, answer.1 = .complete := by
  induction k, hk using Nat.le_induction with
  | base =>
      intro answers next hrun
      rcases Nat.exists_eq_add_of_le' (show 1 ≤ m.ending p from place_pos _) with ⟨last, hlast⟩
      rw [hlast] at hend hrun
      rcases m.receivePieces_ending h hend hlast.symm with ⟨early, hearly, -⟩
      rw [hearly] at hrun
      rcases Prod.mk.inj (Except.ok.inj hrun) with ⟨rfl, -⟩
      exact ⟨_, List.mem_append_right _ (List.mem_singleton_self _), rfl⟩
  | succ k _ ih =>
      intro answers next hrun
      rcases m.receivePieces_bodies_succ hrun with ⟨early, before, answer, hearly, rfl⟩
      rcases ih hearly with ⟨complete, hmem, hcomplete⟩
      exact ⟨complete, List.mem_append_left _ hmem, hcomplete⟩

/-- A message is completed at its last part only if that is the part the packet ends with. -/
theorem RecoveredBy.ending_eq (h : p.Sound) (hpos : 1 ≤ m.pieces.length)
    (hrecovered : m.RecoveredBy p) : m.ending p = m.pieces.length := by
  rcases hrecovered with ⟨early, packet, hrun, hnone, -⟩
  rcases Nat.lt_trichotomy (m.ending p) m.pieces.length with hbefore | hsame | hbehind
  · -- it was complete before, and so is one of the earlier answers
    rcases Nat.exists_eq_add_of_le' hpos with ⟨last, hlast⟩
    rw [hlast] at hrun
    rcases m.receivePieces_bodies_succ hrun with ⟨answers, before, answer, hanswers, hsplit⟩
    rcases m.complete_mem_of_ending_le h hbefore.le (k := last) (by omega) hanswers with
      ⟨complete, hmem, hcomplete⟩
    rw [← (List.append_inj' hsplit rfl).1] at hmem
    exact absurd hcomplete (hnone complete hmem)
  · exact hsame
  · -- it still waits for its last part
    rcases m.receivePieces_before h le_rfl hbehind with ⟨answers, hanswers, hmore⟩
    rw [hrun] at hanswers
    rcases Prod.mk.inj (Except.ok.inj hanswers) with ⟨rfl, -⟩
    exact absurd rfl (hmore _ (List.mem_append_right _ (List.mem_singleton_self _)))

/-- What a packet that ends with the message says of it. -/
theorem recoveredBy_iff_of_ending (h : p.Sound) (hpos : 1 ≤ m.pieces.length)
    (hend : m.ending p = m.pieces.length) :
    m.RecoveredBy p ↔ m.collected p m.pieces.length = m.payload ∧
      (m.base p).senderAddress = m.src ∧ (m.base p).messageID = m.messageID := by
  rcases Nat.exists_eq_add_of_le' hpos with ⟨last, hlast⟩
  rcases m.receivePieces_ending h (k := last) (by omega) (hlast.symm.trans hend.symm) with
    ⟨early, hrun, hnone⟩
  rw [RecoveredBy, ← hlast] at *
  apply Iff.intro
  · intro hrecovered
    rcases hrecovered with ⟨others, packet, hothers, -, hsays⟩
    rw [hrun] at hothers
    have hsame := (List.append_inj' (Prod.mk.inj (Except.ok.inj hothers)).1 rfl).2
    rcases (Prod.mk.inj (List.singleton_inj.mp hsame)).2 with rfl
    exact hsays
  · intro hsays
    exact ⟨early, _, hrun, hnone, hsays⟩

/-- The packet is empty, or it holds the beginning of the message: its sender, its id, its
number of parts and the payload before the part that the packet waits for. -/
def Continues (p : MultipartPacket) : Prop :=
  p = .fresh ∨ p.senderAddress = m.src ∧ p.messageID = m.messageID ∧
    p.totalNumberParts = UInt8.ofNat m.pieces.length ∧
    p.reassembledPayload = (m.pieces.take (p.expected - 1)).flatten

/-- A byte is the number of parts of the message exactly if that is its place. -/
theorem place_eq_length_iff (hpos : 1 ≤ m.pieces.length) (number : UInt8) :
    place number = m.pieces.length ↔
      m.pieces.length ≤ 256 ∧ number = UInt8.ofNat m.pieces.length := by
  rcases Nat.exists_eq_add_of_le' hpos with ⟨last, hlast⟩
  rw [hlast]
  apply Iff.intro
  · intro hplace
    have hle : last + 1 ≤ 256 := hplace ▸ place_le number
    exact ⟨hle, (eq_ofNat_iff hle).mpr hplace⟩
  · intro ⟨hle, hnumber⟩
    exact (eq_ofNat_iff hle).mp hnumber

/-- The payload is that of the message exactly if the packet held the part before. -/
theorem collected_eq_payload_iff : m.collected p m.pieces.length = m.payload ↔
    p.reassembledPayload = (m.pieces.take (p.expected - 1)).flatten := by
  have hpayload : m.payload = (m.pieces.take (p.expected - 1)).flatten ++
      (m.pieces.drop (p.expected - 1)).flatten := by
    rw [← List.flatten_append, List.take_append_drop]
    rfl
  rw [collected, List.take_length, hpayload, List.append_left_inj]

/-- **What the hub recovers from.** After any sequence of parts, a message in order is
completed at its last part, with its payload, its sender and its id, exactly if the current
packet is empty or holds the beginning of this very message. A packet that waits for a part
of another message is never given up. -/
theorem recovers_iff {p : MultipartPacket} (h : p.Reachable) (hpos : 1 ≤ m.pieces.length) :
    m.RecoveredBy p ↔ m.pieces.length ≤ 256 ∧ m.Continues p := by
  have hends : m.RecoveredBy p ↔ m.ending p = m.pieces.length ∧
      m.collected p m.pieces.length = m.payload ∧
      (m.base p).senderAddress = m.src ∧ (m.base p).messageID = m.messageID := by
    apply Iff.intro
    · intro hrecovered
      have hend := hrecovered.ending_eq m h.sound hpos
      exact ⟨hend, (m.recoveredBy_iff_of_ending h.sound hpos hend).mp hrecovered⟩
    · intro ⟨hend, hsays⟩
      exact (m.recoveredBy_iff_of_ending h.sound hpos hend).mpr hsays
  rw [hends, ending, m.place_eq_length_iff hpos, collected_eq_payload_iff, Continues, and_assoc]
  apply and_congr_right
  intro _
  rcases h.sound with rfl | ⟨hlater, -⟩
  · -- the first part says what the message is
    exact iff_of_true ⟨rfl, rfl, rfl, rfl⟩ (Or.inl rfl)
  · have hfresh : p ≠ .fresh := by
      intro heq
      exact hlater (congrArg MultipartPacket.currentPart heq)
    rw [base, if_neg hlater, or_iff_right hfresh]
    tauto

/-- A message in two parts. -/
def twoParts : PartedMessage := ⟨⟨10, 0, 2⟩, ⟨10, 0, 1⟩, 1, 0, [[49], [50]]⟩

/-- The packet that the first of two parts leaves behind. -/
def halfReceived : MultipartPacket :=
  ⟨⟨10, 0, 2⟩, ⟨10, 0, 1⟩, 1, 0, 2, 2, [49]⟩

theorem reachable_halfReceived : halfReceived.Reachable :=
  .receive .fresh (show MultipartPacket.fresh.receivePiece (twoParts.body 0) =
    .ok ((.incomplete, halfReceived), halfReceived) from rfl)

/-- The second part was lost, and the message is sent once more. -/
theorem recovers_iff_sent_again : twoParts.RecoveredBy halfReceived :=
  (recovers_iff _ reachable_halfReceived (by decide)).mpr
    ⟨by decide, Or.inr ⟨rfl, rfl, rfl, rfl⟩⟩

/-- **A lost part is never forgotten.** The second part of a message was lost. The next
message, of another node, is taken for its end: its first part is passed over, and its second
one completes a packet with the sender and the id of the lost message and the payload of
both. -/
theorem next_message_fills_the_hole :
    halfReceived.Reachable ∧
      halfReceived.receivePieces
          ((⟨⟨10, 0, 3⟩, ⟨10, 0, 1⟩, 2, 0, [[50], [51]]⟩ : PartedMessage).bodies 2) =
        .ok ([(.missingPiece, halfReceived),
          (.complete, ⟨⟨10, 0, 2⟩, ⟨10, 0, 1⟩, 1, 0, 2, 2, [49, 51]⟩)], .fresh) ∧
      ¬ (⟨⟨10, 0, 3⟩, ⟨10, 0, 1⟩, 2, 0, [[50], [51]]⟩ : PartedMessage).RecoveredBy
        halfReceived := by
  have hrun : halfReceived.receivePieces
      ((⟨⟨10, 0, 3⟩, ⟨10, 0, 1⟩, 2, 0, [[50], [51]]⟩ : PartedMessage).bodies 2) =
        .ok ([(.missingPiece, halfReceived),
          (.complete, ⟨⟨10, 0, 2⟩, ⟨10, 0, 1⟩, 1, 0, 2, 2, [49, 51]⟩)], .fresh) := rfl
  refine ⟨reachable_halfReceived, hrun, ?_⟩
  intro hrecovered
  rcases hrecovered with ⟨early, packet, hrecovered, -, -, hsender, -⟩
  have hsame := Except.ok.inj (hrun.symm.trans hrecovered)
  have hlast := congrArg (fun answers => answers.1.getLast?) hsame
  rw [List.getLast?_concat] at hlast
  rw [← (Prod.mk.inj (Option.some.inj hlast)).2] at hsender
  exact absurd hsender (by decide)

end PartedMessage

end RadioDoge.Sharp
