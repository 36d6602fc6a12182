/-
# Target addresses of web requests

A target address is `REGION.COMMUNITY.NODE`, each a decimal number from 0 to 255. Three handlers
of the API look for two dots and refuse an address without them; `handleMessage`,
`handleTransaction` and `handleACK` take whatever stands before, between and behind the dots that
they find. In both, `toInt` makes a number of any text, and the lowest byte of it is used.

An address that is well formed is read as it is written, by both ways of parsing. Any other one
is sent to nevertheless, unless the handler refuses it for its dots or for a missing argument:
`meansWhatItSays_iff`.
-/

import RadioDoge.V3.WebInterface

namespace RadioDoge.V3

/-! ## Well-formed addresses -/

/-- The code of `'.'`. -/
abbrev dot : UInt8 := 46

/-- The value of a text of decimal digits. -/
def decimalValue (text : Bytes) : Nat :=
  text.foldl (fun value digit => 10 * value + (digit.toNat - 48)) 0

/-- A decimal number from 0 to 255; zeros may stand in front. -/
structure IsByteNumeral (text : Bytes) (byte : UInt8) : Prop where
  nonempty : text ≠ []
  digits : ∀ digit ∈ text, isDigit digit = true
  value : decimalValue text = byte.toNat

/-- Three such numbers, separated by two dots. -/
def Denotes (address : Bytes) (target : NodeAddress) : Prop :=
  ∃ region community node : Bytes,
    address = region ++ dot :: (community ++ dot :: node) ∧
      IsByteNumeral region target.region ∧ IsByteNumeral community target.community ∧
      IsByteNumeral node target.node

/-- The address is that of some node. -/
def WellFormedAddress (address : Bytes) : Prop := ∃ target, Denotes address target

/-! ## Numbers -/

/-- A digit is no blank, no sign, no dot and no NUL. -/
theorem isDigit_bounds {digit : UInt8} (h : isDigit digit = true) :
    48 ≤ digit.toNat ∧ digit.toNat ≤ 57 := by
  rw [isDigit, decide_eq_true_eq] at h
  exact ⟨UInt8.le_iff_toNat_le.mp h.1, UInt8.le_iff_toNat_le.mp h.2⟩

theorem ne_of_isDigit {digit other : UInt8} (h : isDigit digit = true)
    (hother : isDigit other = false) : digit ≠ other := by
  intro heq
  rw [heq, hother] at h
  cases h

theorem isSpace_of_isDigit {digit : UInt8} (h : isDigit digit = true) : isSpace digit = false := by
  have hbounds := isDigit_bounds h
  rw [isSpace, decide_eq_false_iff_not]
  intro hspace
  cases hspace with
  | inl hblank => exact ne_of_isDigit h (by decide) hblank
  | inr hcontrol =>
      have hle := UInt8.le_iff_toNat_le.mp hcontrol.2
      exact absurd (Nat.le_trans hbounds.1 hle) (by decide)

/-- No digit is a NUL or a dot. -/
theorem not_mem_of_digits {text : Bytes} (hdigits : ∀ digit ∈ text, isDigit digit = true)
    {other : UInt8} (hother : isDigit other = false) : other ∉ text :=
  fun hmem => ne_of_isDigit (hdigits other hmem) hother rfl

/-- The loop of `atol` computes the value. -/
theorem foldl_digits {text : Bytes} (hdigits : ∀ digit ∈ text, isDigit digit = true)
    (start : Nat) :
    text.foldl (fun (number : Int) digit => 10 * number + (digit.toNat - 48)) (start : Int) =
      ((text.foldl (fun value digit => 10 * value + (digit.toNat - 48)) start : Nat) : Int) := by
  induction text generalizing start with
  | nil => rfl
  | cons digit rest ih =>
      have hbounds := isDigit_bounds (hdigits digit List.mem_cons_self)
      have hnext : 10 * (start : Int) + (digit.toNat - 48) =
          ((10 * start + (digit.toNat - 48) : Nat) : Int) := by
        push_cast [hbounds.1]
        rfl
      rw [List.foldl_cons, List.foldl_cons, hnext,
        ih fun other hmem => hdigits other (List.mem_cons_of_mem digit hmem)]

/-- `toInt` reads a text of digits as it is written. -/
theorem toInt_of_digits {text : Bytes} (hne : text ≠ [])
    (hdigits : ∀ digit ∈ text, isDigit digit = true) (hsmall : decimalValue text ≤ 255) :
    toInt text = decimalValue text := by
  have hstring : ofCString text = text :=
    (ofCString_eq_self_iff text).mpr (not_mem_of_digits hdigits (by decide))
  have hwhole : text.takeWhile isDigit = text := List.takeWhile_eq_self_iff.mpr hdigits
  have hvalue := foldl_digits hdigits 0
  cases htext : text with
  | nil => exact absurd htext hne
  | cons first rest =>
      have hfirst : isDigit first = true := hdigits first (htext ▸ List.mem_cons_self)
      have hblank : (first :: rest).dropWhile isSpace = first :: rest := by
        rw [List.dropWhile_cons, isSpace_of_isDigit hfirst]
        rfl
      rw [htext] at hstring hwhole hvalue hsmall
      have hminus := ne_of_isDigit hfirst (show isDigit 45 = false by decide)
      have hplus := ne_of_isDigit hfirst (show isDigit 43 = false by decide)
      have hcast : ((first :: rest).foldl
          (fun (number : Int) digit => 10 * number + (digit.toNat - 48)) 0) =
            (decimalValue (first :: rest) : Int) := hvalue
      rw [toInt, hstring, hblank]
      split
      next negative digits hsign =>
        split at hsign
        · next heq => exact absurd (List.cons.inj heq).1 hminus
        · next heq => exact absurd (List.cons.inj heq).1 hplus
        · rcases Prod.mk.inj hsign with ⟨rfl, rfl⟩
          simp only [hwhole, hcast, Bool.false_eq_true, if_false]
          omega

/-- A number from 0 to 255 as a byte of an address. -/
theorem byte_of_isByteNumeral {text : Bytes} {byte : UInt8} (h : IsByteNumeral text byte) :
    UInt8.ofNat (toInt text % 256).toNat = byte := by
  have hbound := byte.toNat_lt
  have hvalue := h.value
  have hsmall : decimalValue text ≤ 255 := by omega
  have hnumber : (toInt text % 256).toNat = byte.toNat := by
    rw [toInt_of_digits h.nonempty h.digits hsmall, hvalue]
    omega
  rw [hnumber, UInt8.ofNat_toNat]

/-! ## Fields -/

section Fields

variable {region community node : Bytes} {target : NodeAddress}

/-- The fields between the dots. -/
theorem fields_eq (region community node : Bytes) :
    let address := region ++ dot :: (community ++ dot :: node)
    substring address 0 region.length = region ∧
      substring address (region.length + 1) (region.length + 1 + community.length) = community ∧
      substringFrom address (region.length + 1 + community.length + 1) = node := by
  have hsecond : (region ++ dot :: (community ++ dot :: node)).drop (region.length + 1) =
      community ++ dot :: node := by
    rw [← List.drop_drop, List.drop_left]
    rfl
  refine ⟨?_, ?_, ?_⟩
  · rw [substring, if_pos (Nat.zero_le _), List.drop_zero, Nat.sub_zero, List.take_left]
  · rw [substring, if_pos (Nat.le_add_right _ _), Nat.add_sub_cancel_left, hsecond, List.take_left]
  · rw [substringFrom, Nat.add_assoc, ← List.drop_drop, hsecond, ← List.drop_drop, List.drop_left]
    rfl

/-- The two fields in front of a dot are free of NULs and dots. -/
theorem fresh_of_isByteNumeral {text : Bytes} {byte : UInt8} (h : IsByteNumeral text byte) :
    (0 : UInt8) ∉ text ∧ dot ∉ text :=
  ⟨not_mem_of_digits h.digits (by decide), not_mem_of_digits h.digits (by decide)⟩

/-- **`indexOf`.** A well-formed address is read as it is written. -/
theorem parseAddress_of_denotes {address : Bytes} (h : Denotes address target) :
    parseAddress address = target := by
  rcases h with ⟨region, community, node, rfl, hregion, hcommunity, hnode⟩
  rcases fields_eq region community node with ⟨hfirst, hsecond, hthird⟩
  have hfront := indexOf_append region (community ++ dot :: node) (show dot ≠ 0 by decide)
    (fresh_of_isByteNumeral hregion).1 (fresh_of_isByteNumeral hregion).2
  have hback := indexOf_append_from (region ++ [dot]) community node (show dot ≠ 0 by decide)
    (fresh_of_isByteNumeral hcommunity).1 (fresh_of_isByteNumeral hcommunity).2
  rw [List.append_assoc, List.singleton_append, List.length_append, List.length_singleton] at hback
  simp only [parseAddress, hfront, hback, Option.map_some, Option.getD_some, hfirst, hsecond,
    hthird, byte_of_isByteNumeral hregion, byte_of_isByteNumeral hcommunity,
    byte_of_isByteNumeral hnode]

/-- The loop over the bytes passes a text without a dot. -/
theorem findDots_append {front : Bytes} (hfresh : dot ∉ front) (rest : Bytes) {dots : List Nat}
    (hroom : dots.length < 2) (i : Nat) :
    findDots i dots (front ++ rest) = findDots (i + front.length) dots rest := by
  induction front generalizing i with
  | nil => rfl
  | cons c front ih =>
      rcases not_or.mp (mt List.mem_cons.mpr hfresh) with ⟨hc, hfront⟩
      rw [List.cons_append, findDots, if_pos hroom, if_neg (Ne.symm hc), ih hfront,
        List.length_cons, Nat.add_assoc, Nat.add_comm 1]

/-- It takes down a dot. -/
theorem findDots_dot (rest : Bytes) {dots : List Nat} (hroom : dots.length < 2) (i : Nat) :
    findDots i dots (dot :: rest) = findDots (i + 1) (dots ++ [i]) rest := by
  rw [findDots, if_pos hroom, if_pos rfl]

/-- It stops at the second one. -/
theorem findDots_full (rest : Bytes) {dots : List Nat} (hfull : ¬ dots.length < 2) (i : Nat) :
    findDots i dots rest = dots := by
  cases rest with
  | nil => rfl
  | cons c rest => rw [findDots, if_neg hfull]

/-- The number of dots that are found. -/
theorem length_findDots (rest : Bytes) {dots : List Nat} (hle : dots.length ≤ 2) (i : Nat) :
    (findDots i dots rest).length = min 2 (dots.length + rest.count dot) := by
  induction rest generalizing dots i with
  | nil =>
      rw [findDots, List.count_nil]
      omega
  | cons c rest ih =>
      by_cases hroom : dots.length < 2
      · by_cases hc : c = dot
        · rw [hc, findDots_dot rest hroom, ih (by rw [List.length_append]; exact hroom),
            List.length_append, List.length_singleton, List.count_cons_self]
          omega
        · rw [findDots, if_pos hroom, if_neg hc, ih hle, List.count_cons_of_ne hc]
      · rw [findDots_full _ hroom]
        omega

/-- **The dot search.** A well-formed address is read as it is written. -/
theorem dottedAddress_of_denotes {address : Bytes} (h : Denotes address target) :
    dottedAddress address = some target := by
  rcases h with ⟨region, community, node, rfl, hregion, hcommunity, hnode⟩
  rcases fields_eq region community node with ⟨hfirst, hsecond, hthird⟩
  have hdots : findDots 0 [] (region ++ dot :: (community ++ dot :: node)) =
      [region.length, region.length + 1 + community.length] := by
    rw [findDots_append (fresh_of_isByteNumeral hregion).2 _ (show ([] : List Nat).length < 2 by
        decide), findDots_dot _ (show ([] : List Nat).length < 2 by decide), List.nil_append,
      findDots_append (fresh_of_isByteNumeral hcommunity).2 _
        (by rw [List.length_singleton]; decide),
      findDots_dot _ (by rw [List.length_singleton]; decide), findDots_full _ (by simp),
      Nat.zero_add]
    rfl
  simp only [dottedAddress, hdots, hfirst, hsecond, hthird, byte_of_isByteNumeral hregion,
    byte_of_isByteNumeral hcommunity, byte_of_isByteNumeral hnode]

/-- An address is refused for its dots when it has fewer than two. -/
theorem dottedAddress_eq_none_iff (address : Bytes) :
    dottedAddress address = none ↔ address.count dot < 2 := by
  have hlength := length_findDots address (show ([] : List Nat).length ≤ 2 by decide) 0
  rw [List.length_nil, Nat.zero_add] at hlength
  rw [dottedAddress]
  split
  · next first second hfound =>
      rw [hfound] at hlength
      apply iff_of_false
      · intro hnone
        cases hnone
      · rw [List.length_cons, List.length_singleton] at hlength
        omega
  · next hother =>
      apply iff_of_true rfl
      by_contra henough
      rw [Nat.min_eq_left (Nat.le_of_not_lt henough)] at hlength
      rcases List.length_eq_two.mp hlength with ⟨first, second, hfound⟩
      exact hother first second hfound

end Fields

/-! ## What a request does with its address -/

/-- The destination that a sender is called with. -/
def SenderCall.destination : SenderCall → NodeAddress
  | .sendMessage destination _ _ | .sendMultipartMessage destination _ _
  | .sendTransaction destination _ _ | .sendMultipartTransaction destination _ _
  | .sendPing destination => destination
  | .sendBroadcast _ _ _ | .sendMultipartBroadcast _ _ _ => NodeAddress.broadcast

/-- The destinations of the calls that transmit; a handler's own packet goes to `dest`. -/
def destinations (dest : NodeAddress) : List RadioCall → List NodeAddress
  | [] => []
  | .setDestination destination :: rest => destinations destination rest
  | .packet _ _ :: rest => dest :: destinations dest rest
  | .sendAck destination :: rest => destination :: destinations dest rest
  | .sender call :: rest => call.destination :: destinations (call.writes.getD dest) rest

namespace TargetRequest

/-- The address string, or what stands for it. Two handlers need one. -/
def addressText : TargetRequest → Bytes
  | .message _ address _ | .transaction _ address _ | .apiMessage _ address _
  | .apiTransaction _ address _ => address.getD (ascii "10.1.2")
  | .ack address _ | .apiLogsSend address _ _ => address.getD []

/-- The request has the arguments without which its handler refuses it. -/
def Complete : TargetRequest → Prop
  | .message text _ _ | .apiMessage text _ _ => text.isSome
  | .transaction data _ _ | .apiTransaction data _ _ => data.isSome
  | .ack address _ => address.isSome
  | .apiLogsSend address logs _ => address.isSome ∧ logs.isSome

/-- The handler looks for two dots. -/
def LooksForDots : TargetRequest → Prop
  | .apiMessage _ _ _ | .apiTransaction _ _ _ | .apiLogsSend _ _ _ => True
  | .message _ _ _ | .transaction _ _ _ | .ack _ _ => False

/-- A well-formed address is the only one that is used, and any other one is answered with an
error and nothing is transmitted. -/
structure MeansWhatItSays (device : Device) (context : WebContext) (request : TargetRequest) :
    Prop where
  used : ∀ target, Denotes request.addressText target →
    ∀ dest ∈ destinations device.node.dest (request.handle context).calls, dest = target
  refused : ¬ WellFormedAddress request.addressText →
    (request.handle context).answer.IsError ∧
      sentFrames (device.performAll (request.handle context).calls).2 = []

/-- The address that the handler makes of the string, unless it refuses the request. -/
def parsed : TargetRequest → Option NodeAddress
  | .message text address _ => text.map fun _ => addressArg address
  | .transaction data address _ => data.map fun _ => addressArg address
  | .ack address _ => address.map parseAddress
  | .apiMessage text address _ => text.bind fun _ => dottedAddress (address.getD (ascii "10.1.2"))
  | .apiTransaction data address _ =>
      data.bind fun _ => dottedAddress (address.getD (ascii "10.1.2"))
  | .apiLogsSend address logs _ => address.bind fun address => logs.bind fun _ =>
      dottedAddress address

section Handle

variable (context : WebContext) (request : TargetRequest)

/-- What a handler does with the address it has made: it is the only destination, and the answer
says that something was sent. Without one there is no call, and the answer is an error. -/
theorem handle_parsed (dest : NodeAddress) :
    match request.parsed with
    | some target =>
        destinations dest (request.handle context).calls = [target] ∧
          ¬ (request.handle context).answer.IsError
    | none => (request.handle context).calls = [] ∧ (request.handle context).answer.IsError := by
  have hsaid : ∀ answer : WebAnswer, answer.SaysSent → ¬ (TargetAnswer.web answer).IsError :=
    fun answer hsent herror => herror hsent
  cases request with
  | message text address type =>
      cases text with
      | none => exact ⟨rfl, fun hsent => hsent⟩
      | some text => exact ⟨rfl, hsaid _ trivial⟩
  | transaction data address type =>
      cases data with
      | none => exact ⟨rfl, fun hsent => hsent⟩
      | some data => exact ⟨rfl, hsaid _ trivial⟩
  | ack address type =>
      cases address with
      | none => exact ⟨rfl, trivial⟩
      | some address => exact ⟨rfl, fun herror => herror⟩
  | apiMessage text address type =>
      cases text with
      | none => exact ⟨rfl, fun hsent => hsent⟩
      | some text =>
          simp only [parsed, Option.bind_some, handle, WebContext.handleApiMessage,
            withDottedAddress]
          cases dottedAddress (address.getD (ascii "10.1.2")) with
          | none => exact ⟨rfl, fun hsent => hsent⟩
          | some target => exact ⟨rfl, hsaid _ trivial⟩
  | apiTransaction data address type =>
      cases data with
      | none => exact ⟨rfl, trivial⟩
      | some data =>
          simp only [parsed, Option.bind_some, handle, WebContext.handleApiTransaction,
            withDottedAddress]
          cases dottedAddress (address.getD (ascii "10.1.2")) with
          | none => exact ⟨rfl, fun hsent => hsent⟩
          | some target =>
              simp only
              split
              · exact ⟨rfl, fun herror => herror⟩
              · exact ⟨rfl, fun herror => herror⟩
  | apiLogsSend address logs type =>
      cases address with
      | none => exact ⟨rfl, trivial⟩
      | some address =>
          cases logs with
          | none => exact ⟨rfl, trivial⟩
          | some logs =>
              simp only [parsed, Option.bind_some, handle, WebContext.handleApiLogsSend,
                withDottedAddress]
              cases dottedAddress address with
              | none => exact ⟨rfl, trivial⟩
              | some target => exact ⟨rfl, fun herror => herror⟩

end Handle

/-- A request is refused when an argument is missing, or a handler of the API finds no two dots. -/
theorem parsed_eq_none_iff (request : TargetRequest) :
    request.parsed = none ↔
      ¬ request.Complete ∨ (request.LooksForDots ∧ request.addressText.count dot < 2) := by
  cases request with
  | message text address type =>
      cases text with
      | none => simp [parsed, Complete]
      | some text => simp [parsed, Complete, LooksForDots]
  | transaction data address type =>
      cases data with
      | none => simp [parsed, Complete]
      | some data => simp [parsed, Complete, LooksForDots]
  | ack address type =>
      cases address with
      | none => simp [parsed, Complete]
      | some address => simp [parsed, Complete, LooksForDots]
  | apiMessage text address type =>
      cases text with
      | none => simp [parsed, Complete]
      | some text => simp [parsed, Complete, LooksForDots, addressText, dottedAddress_eq_none_iff]
  | apiTransaction data address type =>
      cases data with
      | none => simp [parsed, Complete]
      | some data => simp [parsed, Complete, LooksForDots, addressText, dottedAddress_eq_none_iff]
  | apiLogsSend address logs type =>
      cases address with
      | none => simp [parsed, Complete]
      | some address =>
          cases logs with
          | none => simp [parsed, Complete]
          | some logs =>
              simp [parsed, Complete, LooksForDots, addressText, dottedAddress_eq_none_iff]

/-- Of a well-formed address no handler makes another one. -/
theorem eq_of_parsed {request : TargetRequest} {target dest : NodeAddress}
    (haddress : Denotes request.addressText target) (hparsed : request.parsed = some dest) :
    dest = target := by
  cases request with
  | message text address type =>
      rcases Option.map_eq_some_iff.mp hparsed with ⟨_, -, rfl⟩
      exact parseAddress_of_denotes haddress
  | transaction data address type =>
      rcases Option.map_eq_some_iff.mp hparsed with ⟨_, -, rfl⟩
      exact parseAddress_of_denotes haddress
  | ack address type =>
      rcases Option.map_eq_some_iff.mp hparsed with ⟨text, rfl, rfl⟩
      exact parseAddress_of_denotes haddress
  | apiMessage text address type =>
      rcases Option.bind_eq_some_iff.mp hparsed with ⟨_, -, hdotted⟩
      exact (Option.some.inj ((dottedAddress_of_denotes haddress).symm.trans hdotted)).symm
  | apiTransaction data address type =>
      rcases Option.bind_eq_some_iff.mp hparsed with ⟨_, -, hdotted⟩
      exact (Option.some.inj ((dottedAddress_of_denotes haddress).symm.trans hdotted)).symm
  | apiLogsSend address logs type =>
      rcases Option.bind_eq_some_iff.mp hparsed with ⟨text, rfl, hlogs⟩
      rcases Option.bind_eq_some_iff.mp hlogs with ⟨_, -, hdotted⟩
      exact (Option.some.inj ((dottedAddress_of_denotes haddress).symm.trans hdotted)).symm

/-- **Target addresses.** A request means what it says exactly when it is refused for a missing
argument, or its address is well formed, or a handler of the API finds no two dots in it. -/
theorem meansWhatItSays_iff (device : Device) (context : WebContext) (request : TargetRequest) :
    request.MeansWhatItSays device context ↔
      ¬ request.Complete ∨ WellFormedAddress request.addressText ∨
        (request.LooksForDots ∧ request.addressText.count dot < 2) := by
  have hhandle := request.handle_parsed context device.node.dest
  have hnone := request.parsed_eq_none_iff
  cases hparsed : request.parsed with
  | none =>
      rw [hparsed] at hhandle
      apply iff_of_true
      · apply MeansWhatItSays.mk
        · intro target haddress dest hmem
          rw [hhandle.1] at hmem
          cases hmem
        · intro _
          rw [hhandle.1]
          exact ⟨hhandle.2, rfl⟩
      · cases hnone.mp hparsed with
        | inl hincomplete => exact .inl hincomplete
        | inr hdots => exact .inr (.inr hdots)
  | some dest =>
      rw [hparsed] at hhandle
      have haccepted : ¬ (¬ request.Complete ∨
          (request.LooksForDots ∧ request.addressText.count dot < 2)) := by
        rw [← hnone, hparsed]
        exact Option.some_ne_none dest
      rcases not_or.mp haccepted with ⟨hcomplete, hdots⟩
      apply Iff.intro
      · intro hmeans
        apply Or.inr
        apply Or.inl
        by_contra hmalformed
        exact hhandle.2 (hmeans.refused hmalformed).1
      · intro hcond
        have hwell : WellFormedAddress request.addressText := by
          rcases hcond with hincomplete | hwell | hfew
          · exact absurd hincomplete hcomplete
          · exact hwell
          · exact absurd hfew hdots
        apply MeansWhatItSays.mk
        · intro target haddress other hmem
          rw [hhandle.1, List.mem_singleton] at hmem
          rw [hmem]
          exact eq_of_parsed haddress hparsed
        · intro hmalformed
          exact absurd hwell hmalformed

end TargetRequest

/-- A field that stands before a dot, in a well-formed address, has a value of one byte. -/
theorem WellFormedAddress.first_le {address : Bytes} (h : WellFormedAddress address) :
    decimalValue (address.takeWhile (· ≠ dot)) ≤ 255 := by
  rcases h with ⟨target, region, community, node, rfl, hregion, -, -⟩
  have hall : ∀ byte ∈ region, decide (byte ≠ dot) = true := by
    intro byte hmem
    apply decide_eq_true
    intro hdot
    exact (fresh_of_isByteNumeral hregion).2 (hdot ▸ hmem)
  have hvalue := hregion.value
  have hbound := target.region.toNat_lt
  rw [List.takeWhile_append_of_pos hall, List.takeWhile_cons]
  simp only [ne_eq, not_true_eq_false, decide_false, Bool.false_eq_true, if_false, List.append_nil]
  omega

/-- A message for 300.1.2 goes to 44.1.2, and a message for the text `10` to 10.10.10. -/
theorem malformed_addresses_are_sent :
    (∃ request : TargetRequest, request.addressText = ascii "300.1.2" ∧
      request.parsed = some ⟨44, 1, 2⟩ ∧
      ∀ device context, ¬ request.MeansWhatItSays device context) ∧
    ∃ request : TargetRequest, request.addressText = ascii "10" ∧
      request.parsed = some ⟨10, 10, 10⟩ ∧
      ∀ device context, ¬ request.MeansWhatItSays device context := by
  apply And.intro
  · refine ⟨.apiMessage (some (ascii "hello")) (some (ascii "300.1.2")) none, rfl, by decide, ?_⟩
    intro device context hmeans
    have hmalformed : ¬ WellFormedAddress (ascii "300.1.2") := by
      intro hwell
      exact absurd hwell.first_le (by decide)
    exact (hmeans.refused hmalformed).1 trivial
  · refine ⟨.message (some (ascii "hello")) (some (ascii "10")) none, rfl, by decide, ?_⟩
    intro device context hmeans
    have hmalformed : ¬ WellFormedAddress (ascii "10") := by
      intro hwell
      rcases hwell with ⟨target, region, community, node, haddress, -⟩
      have hdot : dot ∈ ascii "10" := by
        rw [haddress]
        exact List.mem_append_right region List.mem_cons_self
      exact absurd hdot (by decide)
    exact (hmeans.refused hmalformed).1 trivial

end RadioDoge.V3
