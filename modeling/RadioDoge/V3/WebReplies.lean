/-
# Answers of the web interface

Four handlers send a text that a browser gives them, and answer that they have sent it.
Three of them write at most 200 bytes of it behind their own header; `/api/message` leaves
it to `SendMessage`, which writes at most 247 bytes with the type in front. None of them
looks at what was clipped. `answersTruly_iff` says when an answer is true.
-/

import RadioDoge.V3.HostFrames
import RadioDoge.V3.WholeText

namespace RadioDoge.V3

/-! ## Requests and answers -/

/-- A request with the arguments that it has. -/
inductive WebRequest
  | message (text address type : Option Bytes)
  | transaction (data address type : Option Bytes)
  | broadcast (message type priority : Option Bytes)
  | apiMessage (millis : UInt32) (text address type : Option Bytes)
  deriving DecidableEq, Repr

/-- The answers of the four handlers. -/
inductive WebAnswer
  | messageSent (address message : Bytes)
  | noMessage
  | transactionSent (address type : Bytes) (internetConnected : Bool)
  | noTransaction
  | broadcastSent (type priority message : Bytes)
  | noBroadcast
  | apiMessageSent (millis : UInt32) (address type : Bytes)
  | apiInvalidAddress (millis : UInt32)
  | apiNoText (millis : UInt32)
  deriving DecidableEq, Repr

namespace WebAnswer

/-- The HTTP status. -/
def status : WebAnswer → Nat
  | .noMessage | .noTransaction | .noBroadcast => 400
  | _ => 200

/-- How the answers of the API begin. -/
def apiHead (millis : UInt32) : Bytes :=
  ascii "\x7b\"success\":true,\"timestamp\":" ++ ascii (toString millis.toNat) ++ ascii ","

/-- The text. -/
def body : WebAnswer → Bytes
  | .messageSent address message => ascii "Message sent to " ++ address ++ ascii ": " ++ message
  | .noMessage => ascii "No message provided"
  | .transactionSent address type internetConnected =>
      ascii "Transaction sent to " ++ address ++ ascii " (" ++ type ++ ascii ")" ++
        if internetConnected then ascii " + Internet" else []
  | .noTransaction => ascii "No transaction data provided"
  | .broadcastSent type priority message =>
      ascii "Broadcast sent (" ++ type ++ ascii ", " ++ priority ++ ascii "): " ++ message
  | .noBroadcast => ascii "No broadcast message provided"
  | .apiMessageSent millis address type =>
      apiHead millis ++ ascii "\"action\":\"message\",\"target\":\"" ++ address ++
        ascii "\",\"type\":\"" ++ type ++ ascii "\",\"message\":\"Message sent to " ++ address ++
        ascii "\"\x7d"
  | .apiInvalidAddress millis =>
      apiHead millis ++ ascii ("\"success\":false," ++
        "\"error\":\"Invalid address format. Use REGION.COMMUNITY.NODE\"\x7d")
  | .apiNoText millis =>
      apiHead millis ++ ascii "\"success\":false,\"error\":\"No message text provided\"\x7d"

/-- The answer says that something was sent. -/
def SaysSent : WebAnswer → Prop
  | .messageSent _ _ | .transactionSent _ _ _ | .broadcastSent _ _ _ | .apiMessageSent _ _ _ => True
  | _ => False

end WebAnswer

/-! ## The handlers -/

/-- What a handler leaves behind. -/
structure Handled where
  node : Node
  effects : List Effect
  answer : WebAnswer

/-- `Serial.println`. -/
def println (text : Bytes) : Effect := .host (text ++ [13, 10])

namespace Node

variable (http : Http) (node : Node)

/-- `handleMessage`. -/
def handleMessage (text address _type : Option Bytes) : Handled :=
  match text with
  | none => ⟨node, [], .noMessage⟩
  | some message =>
      ⟨{ node with dest := addressArg address },
        [.transmit (V3.handleMessage node.localAddress message address)],
        .messageSent (address.getD (ascii "10.1.2")) message⟩

/-- `handleTransaction`. -/
def handleTransaction (data address type : Option Bytes) : Handled :=
  match data with
  | none => ⟨node, [], .noTransaction⟩
  | some transaction =>
      let frame := V3.handleTransaction node.localAddress transaction address
      let forwarded : List Effect :=
        if node.internetConnected then
          let internet :=
            (Submission.sendTransactionToInternet transaction).call http node.internetConnected
          internet.2 ++ [println (ascii "Transaction also forwarded to internet gateway"),
            println (ascii "Internet response: " ++ internet.1)]
        else []
      ⟨{ node with dest := addressArg address }, .transmit frame :: forwarded,
        .transactionSent (address.getD (ascii "10.1.2")) (type.getD (ascii "signed"))
          node.internetConnected⟩

/-- `handleBroadcast`. -/
def handleBroadcast (message type priority : Option Bytes) : Handled :=
  match message with
  | none => ⟨node, [], .noBroadcast⟩
  | some message =>
      ⟨{ node with dest := NodeAddress.broadcast },
        [.transmit (V3.handleBroadcast node.localAddress message)],
        .broadcastSent (type.getD (ascii "announcement")) (priority.getD (ascii "normal")) message⟩

end Node

/-- The loop of `handleApiMessage` that looks for two dots, from byte `i` on. -/
def findDots (i : Nat) (dots : List Nat) : Bytes → List Nat
  | [] => dots
  | c :: rest =>
      if dots.length < 2 then findDots (i + 1) (if c = 46 then dots ++ [i] else dots) rest
      else dots

/-- The address between the dots, if there are two. -/
def dottedAddress (address : Bytes) : Option NodeAddress :=
  let byte (number : Int) : UInt8 := UInt8.ofNat (number % 256).toNat
  match findDots 0 [] address with
  | [first, second] =>
      some ⟨byte (toInt (substring address 0 first)),
        byte (toInt (substring address (first + 1) second)),
        byte (toInt (substringFrom address (second + 1)))⟩
  | _ => none

/-- `handleApiMessage`. -/
def Node.handleApiMessage (node : Node) (millis : UInt32) (text address type : Option Bytes) :
    Handled :=
  match text with
  | none => ⟨node, [], .apiNoText millis⟩
  | some message =>
      let address := address.getD (ascii "10.1.2")
      let type := type.getD (ascii "text")
      match dottedAddress address with
      | some msgDest =>
          let sent := sendMessage node.localAddress node.serialBuf msgDest message type
          ⟨{ node with dest := msgDest, serialBuf := sent.1 }, [.transmit sent.2],
            .apiMessageSent millis address type⟩
      | none => ⟨node, [], .apiInvalidAddress millis⟩

namespace WebRequest

/-- The handler of a request. -/
def handle (http : Http) (node : Node) : WebRequest → Handled
  | .message text address type => node.handleMessage text address type
  | .transaction data address type => node.handleTransaction http data address type
  | .broadcast text type priority => node.handleBroadcast text type priority
  | .apiMessage millis text address type => node.handleApiMessage millis text address type

/-- The text, data or message that is to be sent. -/
def argument : WebRequest → Option Bytes
  | .message text _ _ => text
  | .transaction data _ _ => data
  | .broadcast text _ _ => text
  | .apiMessage _ text _ _ => text

/-- The payload bytes in front of it: the type and the colon, or none. -/
def place : WebRequest → Nat
  | .apiMessage _ _ _ type => (type.getD (ascii "text")).length + 1
  | _ => 0

/-- An answer that the text was sent is true: the payload of the frames holds all of it, in its
place. -/
def AnswersTruly (http : Http) (node : Node) (request : WebRequest) : Prop :=
  (request.handle http node).answer.SaysSent →
    request.argument =
      some ((carriedText (transmissions (request.handle http node).effects)).drop request.place)

/-- The text fits the frame, or is not sent. -/
def Fits : WebRequest → Prop
  | .message text _ _ | .transaction text _ _ | .broadcast text _ _ =>
      ∀ message, text = some message → message.length ≤ 200
  | .apiMessage _ text address type =>
      ∀ message, text = some message →
        (dottedAddress (address.getD (ascii "10.1.2"))).isSome → message ≠ [] →
        (type.getD (ascii "text") ++ colon :: message).length ≤ 247 ∧
          NulsLastFrom ((type.getD (ascii "text")).length + 1)
            (type.getD (ascii "text") ++ colon :: message)

/-! ## When an answer is true -/

/-- The packet of a handler carries at most 200 bytes of the text. -/
theorem carriedText_handlerPacket {kind : UInt8}
    (hkind : kind = MessageType.message.code ∨ kind = SerialCommand.hostFormedPacket.code)
    (localAddress destination : NodeAddress) (text : Bytes) :
    carriedText [handlerPacket kind localAddress destination text] = text.take 200 := by
  rw [carriedText, List.flatMap_singleton, handlerPacket]
  exact framePayload_addressed hkind _ _ _

/-- It is all of the text if the text has no more. -/
theorem some_eq_carried_iff {kind : UInt8}
    (hkind : kind = MessageType.message.code ∨ kind = SerialCommand.hostFormedPacket.code)
    (localAddress destination : NodeAddress) (text : Bytes) :
    some text = some ((carriedText [handlerPacket kind localAddress destination text]).drop 0) ↔
      ∀ other, some text = some other → other.length ≤ 200 := by
  rw [carriedText_handlerPacket hkind, List.drop_zero, Option.some.injEq, eq_comm,
    List.take_eq_self_iff]
  apply Iff.intro
  · intro hle other hother
    rcases Option.some.inj hother with rfl
    exact hle
  · intro hfits
    exact hfits text rfl

/-- The text behind a type survives `SendMessage` exactly if it is empty, or fits with the type
and no NUL byte hides a part of it. -/
theorem behind_type_iff (type message : Bytes) :
    message = (strncpy ((type ++ colon :: message).take 247)).drop (type.length + 1) ↔
      (message ≠ [] → (type ++ colon :: message).length ≤ 247 ∧
        NulsLastFrom (type.length + 1) (type ++ colon :: message)) := by
  let text := type ++ colon :: message
  have hlength : text.length = type.length + 1 + message.length := by
    simp only [text, List.length_append, List.length_cons]
    omega
  have hdrop : text.drop (type.length + 1) = message := by
    simp only [text, ← List.drop_drop, List.drop_left]
    rfl
  apply Iff.intro
  · intro hsame hne
    have hpos := List.length_pos_iff.mpr hne
    have hcount := congrArg List.length hsame
    rw [List.length_drop, length_strncpy, List.length_take] at hcount
    have hle : text.length ≤ 247 := by
      simp only [text] at hlength ⊢
      omega
    refine ⟨hle, ?_⟩
    rw [List.take_of_length_le hle] at hsame
    rw [← drop_strncpy_iff]
    exact hsame.symm.trans hdrop.symm
  · intro hfits
    by_cases hnone : message = []
    · have hshort : (strncpy (text.take 247)).length ≤ type.length + 1 := by
        rw [length_strncpy, List.length_take, hlength, hnone, List.length_nil]
        omega
      rw [List.drop_eq_nil_of_le hshort]
      exact hnone
    · rcases hfits hnone with ⟨hle, hlast⟩
      rw [List.take_of_length_le hle, (drop_strncpy_iff _ _).mpr hlast]
      exact hdrop.symm

/-- Forwarding to the internet transmits nothing. -/
theorem transmissions_handleTransaction (http : Http) (node : Node) (transaction : Bytes)
    (address type : Option Bytes) :
    transmissions (node.handleTransaction http (some transaction) address type).effects =
      [V3.handleTransaction node.localAddress transaction address] := by
  simp only [Node.handleTransaction]
  by_cases honline : node.internetConnected = true
  · simp only [honline, if_true, Submission.call]
    rfl
  · rw [if_neg honline]
    rfl

/-- A request that is refused changes nothing. -/
theorem refused_changes_nothing {http : Http} {node : Node} {request : WebRequest}
    (hrefused : ¬ (request.handle http node).answer.SaysSent) :
    (request.handle http node).node = node ∧ (request.handle http node).effects = [] := by
  cases request with
  | message text address type =>
      cases text with
      | none => exact ⟨rfl, rfl⟩
      | some text => exact absurd trivial hrefused
  | transaction data address type =>
      cases data with
      | none => exact ⟨rfl, rfl⟩
      | some data => exact absurd trivial hrefused
  | broadcast text type priority =>
      cases text with
      | none => exact ⟨rfl, rfl⟩
      | some text => exact absurd trivial hrefused
  | apiMessage millis text address type =>
      cases text with
      | none => exact ⟨rfl, rfl⟩
      | some text =>
          simp only [handle, Node.handleApiMessage] at hrefused ⊢
          cases hdest : dottedAddress (address.getD (ascii "10.1.2")) with
          | none => exact ⟨rfl, rfl⟩
          | some msgDest =>
              rw [hdest] at hrefused
              exact absurd trivial hrefused

/-- **When the answer is true.** A handler that answers that it has sent a text has sent all of
it exactly if the text fits the one frame that there is. -/
theorem answersTruly_iff (http : Http) (node : Node) (request : WebRequest) :
    request.AnswersTruly http node ↔ request.Fits := by
  -- an answer that nothing was sent is true, and such a request fits
  have hsaid : ∀ sent : Prop, (True → sent) ↔ sent := fun sent => true_imp_iff
  cases request with
  | message text address type =>
      cases text with
      | none => exact iff_of_true (fun hsent => False.elim hsent) (fun _ hnone => by cases hnone)
      | some text => exact (hsaid _).trans (some_eq_carried_iff (.inl rfl) _ _ text)
  | transaction data address type =>
      cases data with
      | none => exact iff_of_true (fun hsent => False.elim hsent) (fun _ hnone => by cases hnone)
      | some data =>
          have hsent := transmissions_handleTransaction http node data address type
          refine (hsaid _).trans ?_
          simp only [handle, hsent]
          exact some_eq_carried_iff (.inr rfl) _ _ data
  | broadcast text type priority =>
      cases text with
      | none => exact iff_of_true (fun hsent => False.elim hsent) (fun _ hnone => by cases hnone)
      | some text => exact (hsaid _).trans (some_eq_carried_iff (.inl rfl) _ _ text)
  | apiMessage millis text address type =>
      cases text with
      | none => exact iff_of_true (fun hsent => False.elim hsent) (fun _ hnone => by cases hnone)
      | some text =>
          simp only [AnswersTruly, handle, Node.handleApiMessage, Fits]
          cases dottedAddress (address.getD (ascii "10.1.2")) with
          | none =>
              exact iff_of_true (fun hsent => False.elim hsent)
                fun _ _ hsome => absurd hsome (by simp)
          | some msgDest =>
              have hcarried := carriedText_sendMessage node.localAddress node.serialBuf msgDest
                text (type.getD (ascii "text"))
              have hplace := behind_type_iff (type.getD (ascii "text")) text
              rw [← hcarried] at hplace
              refine (hsaid _).trans ?_
              apply Iff.intro
              · intro hsame other hother _
                rcases Option.some.inj hother with rfl
                exact hplace.mp (Option.some.inj hsame)
              · intro hfits
                exact congrArg some (hplace.mpr (hfits text rfl rfl))

/-- What stands in its place is contained. -/
theorem AnswersTruly.contains {http : Http} {node : Node} {request : WebRequest}
    (h : request.AnswersTruly http node) (hsent : (request.handle http node).answer.SaysSent) :
    ∃ argument, request.argument = some argument ∧
      argument <:+: carriedText (transmissions (request.handle http node).effects) :=
  ⟨_, h hsent, (List.drop_suffix _ _).isInfix⟩

/-- A transaction of 201 letters is not sent, and the answer says that it is. -/
theorem transaction_of_201_letters :
    ¬ ∀ (http : Http) (node : Node) (request : WebRequest),
        (request.handle http node).answer.SaysSent →
        ∃ argument, request.argument = some argument ∧
          argument <:+: carriedText (transmissions (request.handle http node).effects) := by
  intro hall
  rcases hall (fun _ => ⟨-1, [], []⟩) plainNode
    (.transaction (some (List.replicate 201 65)) none none) trivial with ⟨argument, hargument, hin⟩
  rcases Option.some.inj hargument with rfl
  have hsent := transmissions_handleTransaction (fun _ => ⟨-1, [], []⟩) plainNode
    (List.replicate 201 65) none none
  have hlength := hin.length_le
  simp only [handle, hsent] at hlength
  rw [V3.handleTransaction, carriedText_handlerPacket (.inr rfl), List.length_take,
    List.length_replicate] at hlength
  exact absurd hlength (by decide)

end WebRequest

end RadioDoge.V3
