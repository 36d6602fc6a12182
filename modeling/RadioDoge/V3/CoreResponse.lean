/-
# Answers of Dogecoin Core

`parseDogecoinCoreResponse` looks for two keys anywhere in the text of a gateway, cuts behind them
up to the next quote, and pastes what it has cut into a new JSON text. A quote that is escaped
ends the piece too early, a control character is pasted as it is, and a key is taken wherever it
stands. `faithful_iff` says for which texts the answer is a JSON object that tells the truth.
-/

import RadioDoge.Lib.Search
import RadioDoge.V3.JsonEscape

namespace RadioDoge.V3

open Json (Body IsBody Value)
open Search (StandsBehind)

/-! ## The function -/

/-- `String::indexOf` of a text that is not empty, with `none` for the result `-1`. -/
def indexOfText (s pattern : Bytes) (start : Nat) : Option Nat :=
  (Search.find pattern (ofCString (s.drop start))).map (start + ·)

/-- The text behind a key that stands at `keyStart`, up to the next quote; empty if there is no
quote. -/
def cutValue (jsonResponse key : Bytes) (keyStart : Nat) : Bytes :=
  let valueStart := keyStart + key.length
  match indexOfText jsonResponse [34] valueStart with
  | some valueEnd => substring jsonResponse valueStart valueEnd
  | none => []

/-- `"result":"`. -/
def resultKey : Bytes := ascii "\"result\":\""

/-- `"error":{`. -/
def errorKey : Bytes := ascii "\"error\":\x7b"

/-- `"message":"`. -/
def messageKey : Bytes := ascii "\"message\":\""

/-- The text that `parseDogecoinCoreResponse` puts together. -/
def answerText (success : Bool) (name piece jsonResponse : Bytes) : Bytes :=
  ascii "\x7b\"success\":" ++ Value.word success ++ ascii ",\"" ++ name ++ ascii "\":\"" ++ piece ++
    ascii "\",\"raw_response\":\"" ++ escapeJsonString jsonResponse ++ ascii "\"\x7d"

/-- `parseDogecoinCoreResponse`. -/
def parseDogecoinCoreResponse (jsonResponse : Bytes) : Bytes :=
  let resultStart := indexOfText jsonResponse resultKey 0
  let errorStart := indexOfText jsonResponse errorKey 0
  let result :=
    match resultStart with
    | some resultStart => cutValue jsonResponse resultKey resultStart
    | none => []
  let error :=
    match errorStart with
    | some errorStart =>
        match indexOfText jsonResponse messageKey errorStart with
        | some messageStart => cutValue jsonResponse messageKey messageStart
        | none => []
    | none => []
  if result ≠ [] ∧ result ≠ ascii "null" then
    answerText true (ascii "transaction_id") result jsonResponse
  else if error ≠ [] then answerText false (ascii "error") error jsonResponse
  else answerText false (ascii "error") (ascii "Unknown response format") jsonResponse

/-! ## A faithful answer -/

/-- A text that a gateway returns. A `String` ends at its NUL. -/
structure GatewayText where
  bytes : Bytes
  no_nul : (0 : UInt8) ∉ bytes

/-- The reply `{"result":r,"error":e,"id":i}` without spaces. -/
def coreReply (r e i : Value) : Bytes :=
  (Value.object [(⟨ascii "result", by decide⟩, r), (⟨ascii "error", by decide⟩, e),
    (⟨ascii "id", by decide⟩, i)]).text

/-- The reply has a transaction: its result is a text that is not empty, and its error is null. -/
def HasTransaction (r e : Value) : Prop := ∃ s : Body, r = .string s ∧ s.raw ≠ [] ∧ e = .null

/-- The answer says that the transaction with this id was sent. -/
def SaysSuccess (answer : Value) (id : Body) : Prop :=
  answer.lookup (ascii "success") = some (.bool true) ∧
    ∃ said : Body, answer.lookup (ascii "transaction_id") = some (.string said) ∧
      Json.meaning said.raw = Json.meaning id.raw

/-- The answer says that no transaction was sent, and gives the message of the error if there is
one. -/
def SaysFailure (answer e : Value) : Prop :=
  answer.lookup (ascii "success") = some (.bool false) ∧
    ∀ message : Body, e.lookup (ascii "message") = some (.string message) →
      ∃ said : Body, answer.lookup (ascii "error") = some (.string said) ∧
        Json.meaning said.raw = Json.meaning message.raw

/-- The answer to a text is a JSON object, and tells what is in the text if that is a reply. -/
def Faithful (jsonResponse : Bytes) : Prop :=
  ∃ members, Json.read (parseDogecoinCoreResponse jsonResponse) = some (.object members) ∧
    ∀ r e i, jsonResponse = coreReply r e i →
      (∀ s : Body, r = .string s → s.raw ≠ [] → e = .null → SaysSuccess (.object members) s) ∧
        (¬ HasTransaction r e → SaysFailure (.object members) e)

/-! ## What is cut from a text -/

/-- A text that is taken for a transaction id: behind the first `"result":"`, neither empty nor
the word null. -/
def ResultText (text piece : Bytes) : Prop :=
  StandsBehind resultKey 34 text piece ∧ piece ≠ [] ∧ piece ≠ ascii "null"

/-- A text that is taken for an error message: behind the first `"message":"` that follows the
first `"error":{`, and not empty. -/
def MessageText (text piece : Bytes) : Prop :=
  ∃ before rest, text = before ++ (errorKey ++ rest) ∧
    (∀ m < before.length, ¬ errorKey <+: text.drop m) ∧
      StandsBehind messageKey 34 (errorKey ++ rest) piece ∧ piece ≠ []

/-- The text that the answer takes over from the gateway. -/
def Pasted (text piece : Bytes) : Prop :=
  ResultText text piece ∨ (∀ id, ¬ ResultText text id) ∧ MessageText text piece

/-- The text is not mistaken: what is pasted is a JSON string; and if the text is a reply, its
transaction is not the word null, and without a transaction no text is taken for one, and the
message of the error is what is taken for it. -/
structure NotMistaken (text : Bytes) : Prop where
  isBody : ∀ piece, Pasted text piece → IsBody piece
  transaction : ∀ s i, text = coreReply (.string s) .null i → s.raw ≠ ascii "null"
  noTransaction : ∀ r e i, text = coreReply r e i → ¬ HasTransaction r e →
    ∀ id, ¬ ResultText text id
  message : ∀ r e i, text = coreReply r e i → ¬ HasTransaction r e →
    ∀ message : Body, e.lookup (ascii "message") = some (.string message) →
      (∃ piece, MessageText text piece ∧ Json.meaning piece = Json.meaning message.raw) ∨
        (∀ piece, ¬ MessageText text piece) ∧
          Json.meaning message.raw = ascii "Unknown response format"

/-! ## The search -/

section Searching

variable {text : Bytes}

/-- Without a NUL the whole text is searched. -/
theorem indexOfText_eq (hnul : (0 : UInt8) ∉ text) (pattern : Bytes) (start : Nat) :
    indexOfText text pattern start =
      (Search.find pattern (text.drop start)).map (start + ·) := by
  have hdrop : (0 : UInt8) ∉ text.drop start := fun hmem => hnul (List.mem_of_mem_drop hmem)
  rw [indexOfText, (ofCString_eq_self_iff _).mpr hdrop]

/-- What is cut behind the first key from a place on. -/
theorem cutValue_eq (hnul : (0 : UInt8) ∉ text) (key : Bytes) (start : Nat) :
    (match indexOfText text key start with
      | some keyStart => cutValue text key keyStart
      | none => []) = (Search.cut key 34 (text.drop start)).getD [] := by
  rw [indexOfText_eq hnul, Search.cut]
  cases Search.find key (text.drop start) with
  | none => rfl
  | some n =>
      have hplace : text.drop (start + n + key.length) =
          (text.drop start).drop (n + key.length) := by
        rw [List.drop_drop, Nat.add_assoc]
      simp only [Option.map_some, Option.bind_some, cutValue, indexOfText_eq hnul, hplace]
      cases Search.find [34] ((text.drop start).drop (n + key.length)) with
      | none => rfl
      | some m =>
          simp only [Option.map_some, Option.getD_some, substring, hplace,
            if_pos (Nat.le_add_right _ m), Nat.add_sub_cancel_left]

/-- What is taken for a transaction id. -/
def resultPiece (text : Bytes) : Bytes := (Search.cut resultKey 34 text).getD []

/-- What is taken for an error message. -/
def errorPiece (text : Bytes) : Bytes :=
  match Search.find errorKey text with
  | some errorStart => (Search.cut messageKey 34 (text.drop errorStart)).getD []
  | none => []

/-- The function by what it takes from the text. -/
theorem parseDogecoinCoreResponse_eq (hnul : (0 : UInt8) ∉ text) :
    parseDogecoinCoreResponse text =
      if resultPiece text ≠ [] ∧ resultPiece text ≠ ascii "null" then
        answerText true (ascii "transaction_id") (resultPiece text) text
      else if errorPiece text ≠ [] then answerText false (ascii "error") (errorPiece text) text
      else answerText false (ascii "error") (ascii "Unknown response format") text := by
  have hresult := cutValue_eq hnul resultKey 0
  have herror : (match indexOfText text errorKey 0 with
      | some errorStart =>
          match indexOfText text messageKey errorStart with
          | some messageStart => cutValue text messageKey messageStart
          | none => []
      | none => []) = errorPiece text := by
    rw [indexOfText_eq hnul, List.drop_zero, errorPiece]
    cases Search.find errorKey text with
    | none => rfl
    | some errorStart =>
        simp only [Option.map_some, Nat.zero_add]
        exact cutValue_eq hnul messageKey errorStart
  rw [List.drop_zero] at hresult
  rw [parseDogecoinCoreResponse]
  simp only [hresult, herror]
  rfl

/-- A piece that is not empty was cut. -/
theorem cut_getD_eq_iff {key piece : Bytes} (hpiece : piece ≠ []) :
    (Search.cut key 34 text).getD [] = piece ↔ Search.cut key 34 text = some piece := by
  cases Search.cut key 34 text with
  | none => exact iff_of_false (fun hnil => hpiece hnil.symm) (by rintro ⟨⟩)
  | some found => exact Option.some_inj.symm

theorem resultText_iff (piece : Bytes) :
    ResultText text piece ↔ resultPiece text = piece ∧ piece ≠ [] ∧ piece ≠ ascii "null" := by
  apply and_congr_left
  rintro ⟨hnonempty, -⟩
  rw [resultPiece, cut_getD_eq_iff hnonempty, Search.cut_eq_some_iff (by decide)]

theorem messageText_iff (piece : Bytes) :
    MessageText text piece ↔ errorPiece text = piece ∧ piece ≠ [] := by
  apply Iff.intro
  · rintro ⟨before, rest, htext, hfirst, hpiece, hnonempty⟩
    have hdrop : text.drop before.length = errorKey ++ rest := by
      rw [htext, List.drop_left]
    have hfind : Search.find errorKey text = some before.length := by
      apply Search.find_of_first (by decide) _ hfirst
      rw [hdrop]
      exact List.prefix_append _ _
    rw [← Search.cut_eq_some_iff (by decide)] at hpiece
    rw [errorPiece, hfind]
    simp only [hdrop, hpiece, Option.getD_some]
    exact ⟨trivial, hnonempty⟩
  · rintro ⟨hpiece, hnonempty⟩
    rw [errorPiece] at hpiece
    cases hfind : Search.find errorKey text with
    | none =>
        rw [hfind] at hpiece
        exact absurd hpiece.symm hnonempty
    | some errorStart =>
        rw [hfind] at hpiece
        simp only at hpiece
        rw [cut_getD_eq_iff hnonempty, Search.cut_eq_some_iff (by decide)] at hpiece
        rcases Search.find_eq_some hfind with ⟨⟨rest, hrest⟩, hfirst⟩
        have hlength : (text.take errorStart).length = errorStart := by
          apply List.length_take_of_le
          by_contra hlong
          rw [List.drop_eq_nil_of_le (Nat.le_of_not_le hlong), List.append_eq_nil_iff] at hrest
          exact absurd hrest.1 (by decide)
        refine ⟨text.take errorStart, rest, ?_, ?_, ?_, hnonempty⟩
        · rw [hrest, List.take_append_drop]
        · rw [hlength]
          exact hfirst
        · rw [hrest]
          exact hpiece

end Searching

/-! ## The answer -/

section Answering

variable (success : Bool) (name : Body) (text : Bytes)

/-- The members of an answer. -/
def answerMembers (piece : Body) : List (Body × Value) :=
  [(⟨ascii "success", by decide⟩, .bool success), (name, .string piece),
    (⟨ascii "raw_response", by decide⟩,
      .string ⟨escapeJsonString text, isBody_escapeJsonString text⟩)]

/-- The answer up to what is pasted, and what stands behind it. -/
theorem answerText_eq (piece : Bytes) :
    answerText success name.raw piece text =
      123 :: 34 :: (ascii "success" ++ 34 :: 58 :: (Value.word success ++ 44 :: 34 :: (name.raw ++
        34 :: 58 :: 34 :: (piece ++ 34 :: 44 :: 34 :: 114 :: (ascii "aw_response" ++ 34 :: 58 ::
          34 :: (escapeJsonString text ++ [34, 125])))))) := by
  have hopen : ascii "\x7b\"success\":" = 123 :: 34 :: (ascii "success" ++ [34, 58]) := rfl
  have hname : ascii ",\"" = [44, 34] := rfl
  have hvalue : ascii "\":\"" = [34, 58, 34] := rfl
  have hraw : ascii "\",\"raw_response\":\"" =
      34 :: 44 :: 34 :: 114 :: (ascii "aw_response" ++ [34, 58, 34]) := rfl
  have hclose : ascii "\"\x7d" = [34, 125] := rfl
  rw [answerText, hopen, hname, hvalue, hraw, hclose]
  simp only [List.cons_append, List.append_assoc, List.nil_append]

/-- With a JSON string pasted, the answer is read as an object. -/
theorem read_answerText (piece : Body) :
    Json.read (answerText success name.raw piece.raw text) =
      some (.object (answerMembers success name text piece)) := by
  have htext : answerText success name.raw piece.raw text =
      (Value.object (answerMembers success name text piece)).text := by
    have hraw : ∀ rest : Bytes,
        114 :: (ascii "aw_response" ++ rest) = ascii "raw_response" ++ rest := fun _ => rfl
    rw [answerText_eq, hraw, answerMembers, Value.text, Value.membersText, Value.membersText,
      Value.membersText, Value.text, Value.text, Value.text]
    simp only [List.cons_append, List.append_assoc, List.nil_append]
  rw [htext, Json.read_text]

/-- A piece without a quote that is no JSON string spoils the text: it is refused, or its last
backslash takes the quote behind it, and the string ends before `raw_response`. -/
theorem feed_cut {stack : List Json.Frame} {before : List (Body × Value)} {key : Body}
    {piece : Bytes} (hquote : (34 : UInt8) ∉ piece) (hpiece : ¬ IsBody piece) (rest : Bytes) :
    Json.Reader.feed ⟨.object before key :: stack, .inString .plain []⟩
      (piece ++ 34 :: 44 :: 34 :: 114 :: rest) = none := by
  cases hrun : Json.Place.plain.run piece with
  | none => exact Json.Reader.feed_inString_of_none _ hquote hrun [] _
  | some place =>
      rw [Json.Reader.feed_inString _ hrun, List.nil_append]
      cases place with
      | plain => exact absurd hrun hpiece
      | hex more => rfl
      | escape =>
          have hstring : Json.Reader.feed ⟨.object before key :: stack, .inString .escape piece⟩
              (34 :: 44 :: 34 :: 114 :: rest) =
              ((Json.Reader.body? (piece ++ [34] ++ [44])).map fun s =>
                (⟨.object before key :: stack, .done (.string s)⟩ : Json.Reader)).bind fun next =>
                  next.feed (114 :: rest) := rfl
          rw [hstring]
          cases Json.Reader.body? (piece ++ [34] ++ [44]) with
          | none => rfl
          | some s => rfl

/-- Otherwise it is no JSON text. -/
theorem read_answerText_of_not_isBody {piece : Bytes} (hquote : (34 : UInt8) ∉ piece)
    (hpiece : ¬ IsBody piece) : Json.read (answerText success name.raw piece text) = none := by
  let key : Body := ⟨ascii "success", by decide⟩
  have hbool : ∀ rest : Bytes,
      Json.Reader.feed ⟨[.object [] key], .value false⟩ (Value.word success ++ 44 :: rest) =
        Json.Reader.feed ⟨[.object [] key], .done (.bool success)⟩ (44 :: rest) :=
    fun rest => Json.Reader.feed_text (.bool success) _ false rfl rest
  have hopen : ∀ rest : Bytes, Json.Reader.feed ⟨[], .value false⟩ (123 :: rest) =
      Json.Reader.feed ⟨[], .key [] true⟩ rest := fun _ => rfl
  have hcomma : ∀ rest : Bytes,
      Json.Reader.feed ⟨[.object [] key], .done (.bool success)⟩ (44 :: rest) =
        Json.Reader.feed ⟨[], .key [(key, .bool success)] false⟩ rest := fun _ => rfl
  have hstring : ∀ (stack : List Json.Frame) (rest : Bytes),
      Json.Reader.feed ⟨stack, .value false⟩ (34 :: rest) =
        Json.Reader.feed ⟨stack, .inString .plain []⟩ rest := fun _ _ => rfl
  rw [Json.read, answerText_eq, hopen, Json.Reader.feed_key [] [] true key, hbool, hcomma,
    Json.Reader.feed_key, hstring, feed_cut hquote hpiece]
  rfl

end Answering

/-! ## Replies whose result is a text -/

/-- Such a reply begins with the key, the text and a quote. -/
theorem coreReply_string (s : Body) (e i : Value) :
    ∃ rest, coreReply (.string s) e i = [123] ++ (resultKey ++ (s.raw ++ 34 :: rest)) := by
  have hkey : ∀ rest : Bytes,
      34 :: (ascii "result" ++ 34 :: 58 :: 34 :: rest) = resultKey ++ rest := fun _ => rfl
  refine ⟨44 :: (Value.membersText [(⟨ascii "error", by decide⟩, e),
    (⟨ascii "id", by decide⟩, i)] ++ [125]), ?_⟩
  rw [coreReply, Value.text, Value.membersText, Value.text, ← hkey]
  simp only [List.cons_append, List.append_assoc, List.nil_append]

/-- What stands behind `"result":"` is the whole text, or no JSON string. -/
theorem standsBehind_reply (s : Body) (e i : Value) :
    ∃ piece, StandsBehind resultKey 34 (coreReply (.string s) e i) piece ∧
      (IsBody piece → piece = s.raw) := by
  rcases coreReply_string s e i with ⟨rest, hlayout⟩
  have hfirst : ∀ m < ([123] : Bytes).length,
      ¬ resultKey <+: (coreReply (.string s) e i).drop m := by
    intro m hm hkey
    rw [List.length_singleton, Nat.lt_one_iff] at hm
    subst hm
    rw [hlayout] at hkey
    exact absurd (List.cons_prefix_cons.mp hkey).1 (by decide)
  by_cases hquote : (34 : UInt8) ∈ s.raw
  · rcases List.eq_append_cons_of_mem hquote with ⟨piece, after, hraw, hpiece⟩
    refine ⟨piece, ⟨[123], after ++ 34 :: rest, ?_, hpiece, hfirst⟩, ?_⟩
    · rw [hlayout, hraw]
      simp only [List.append_assoc, List.cons_append]
    · intro hbody
      have hs := s.isBody
      rw [hraw] at hs
      exact absurd hs (Json.not_isBody_quote hbody after)
  · exact ⟨s.raw, ⟨[123], rest, hlayout, hquote, hfirst⟩, fun _ => rfl⟩

/-- A piece of it that is a JSON string is the whole of it. -/
theorem eq_of_standsBehind {s : Body} {e i : Value} {piece : Bytes}
    (hpiece : StandsBehind resultKey 34 (coreReply (.string s) e i) piece) (hbody : IsBody piece) :
    piece = s.raw := by
  have hkey : resultKey ≠ [] := by decide
  rcases standsBehind_reply s e i with ⟨other, hother, hwhole⟩
  rw [← Search.cut_eq_some_iff hkey] at hpiece hother
  rw [hpiece] at hother
  rcases Option.some.inj hother with rfl
  exact hwhole hbody

/-! ## Faithful answers -/

section Faithfulness

variable {text : Bytes}

/-- An answer with a piece that has no quote is faithful if the piece is a JSON string and the
members tell the truth. -/
theorem faithful_answer_iff {success : Bool} {name : Body} {piece : Bytes}
    (hanswer : parseDogecoinCoreResponse text = answerText success name.raw piece text)
    (hquote : (34 : UInt8) ∉ piece) :
    Faithful text ↔ ∃ hbody : IsBody piece, ∀ r e i, text = coreReply r e i →
      (∀ s : Body, r = .string s → s.raw ≠ [] → e = .null →
        SaysSuccess (.object (answerMembers success name text ⟨piece, hbody⟩)) s) ∧
      (¬ HasTransaction r e →
        SaysFailure (.object (answerMembers success name text ⟨piece, hbody⟩)) e) := by
  rw [Faithful, hanswer]
  apply Iff.intro
  · rintro ⟨members, hread, htells⟩
    by_cases hbody : IsBody piece
    · have hmembers := read_answerText success name text ⟨piece, hbody⟩
      rw [hread] at hmembers
      rcases Value.object.inj (Option.some.inj hmembers) with rfl
      exact ⟨hbody, htells⟩
    · rw [read_answerText_of_not_isBody success name text hquote hbody] at hread
      cases hread
  · rintro ⟨hbody, htells⟩
    exact ⟨_, read_answerText success name text ⟨piece, hbody⟩, htells⟩

/-- What an answer says first. -/
theorem lookup_success (success : Bool) (name piece : Body) :
    (Value.object (answerMembers success name text piece)).lookup (ascii "success") =
      some (.bool success) := rfl

/-- The name of a transaction id in an answer. -/
def transactionName : Body := ⟨ascii "transaction_id", by decide⟩

/-- The name of an error in an answer. -/
def errorName : Body := ⟨ascii "error", by decide⟩

theorem lookup_transaction (success : Bool) (piece : Body) :
    (Value.object (answerMembers success transactionName text piece)).lookup
      (ascii "transaction_id") = some (.string piece) := rfl

theorem lookup_error (success : Bool) (piece : Body) :
    (Value.object (answerMembers success errorName text piece)).lookup (ascii "error") =
      some (.string piece) := rfl

/-- What is cut has no quote. -/
theorem notMem_of_standsBehind {key piece : Bytes} (h : StandsBehind key 34 text piece) :
    (34 : UInt8) ∉ piece := by
  rcases h with ⟨-, -, -, hquote, -⟩
  exact hquote

/-- A text in which a transaction id is found. -/
theorem faithful_iff_of_result (hnul : (0 : UInt8) ∉ text) {piece : Bytes}
    (hresult : ResultText text piece) : Faithful text ↔ NotMistaken text := by
  have hpiece := (resultText_iff piece).mp hresult
  have hanswer : parseDogecoinCoreResponse text =
      answerText true transactionName.raw piece text := by
    rw [parseDogecoinCoreResponse_eq hnul, hpiece.1, if_pos hpiece.2]
    rfl
  rw [faithful_answer_iff hanswer (notMem_of_standsBehind hresult.1)]
  apply Iff.intro
  · rintro ⟨hbody, htells⟩
    have hsent : ∀ r e i, text = coreReply r e i → HasTransaction r e := by
      intro r e i hreply
      by_contra hnone
      have hfailure := ((htells r e i hreply).2 hnone).1
      rw [lookup_success] at hfailure
      cases hfailure
    constructor
    · rintro other (hother | ⟨hnone, -⟩)
      · rw [← ((resultText_iff other).mp hother).1, hpiece.1]
        exact hbody
      · exact absurd hresult (hnone piece)
    · rintro s i hreply hnull
      have hstands := hresult.1
      rw [hreply] at hstands
      exact hresult.2.2 ((eq_of_standsBehind hstands hbody).trans hnull)
    · exact fun r e i hreply hnone => absurd (hsent r e i hreply) hnone
    · exact fun r e i hreply hnone => absurd (hsent r e i hreply) hnone
  · intro hnot
    have hbody := hnot.isBody piece (.inl hresult)
    refine ⟨hbody, fun r e i hreply => ⟨?_, ?_⟩⟩
    · rintro s rfl hnonempty rfl
      refine ⟨lookup_success _ _ _, ⟨piece, hbody⟩, lookup_transaction _ _, ?_⟩
      have hstands := hresult.1
      rw [hreply] at hstands
      exact congrArg Json.meaning (eq_of_standsBehind hstands hbody)
    · exact fun hnone => absurd hresult (hnot.noTransaction r e i hreply hnone piece)

/-- A text in which none is found, by what the answer gives as the error. -/
theorem faithful_iff_of_no_result {piece : Bytes} (hnone : ∀ id, ¬ ResultText text id)
    (hanswer : parseDogecoinCoreResponse text = answerText false errorName.raw piece text)
    (hquote : (34 : UInt8) ∉ piece)
    (hbodies : IsBody piece ↔ ∀ other, MessageText text other → IsBody other)
    (hmessage : ∀ message : Bytes, Json.meaning piece = message ↔
      (∃ other, MessageText text other ∧ Json.meaning other = message) ∨
        (∀ other, ¬ MessageText text other) ∧ message = ascii "Unknown response format") :
    Faithful text ↔ NotMistaken text := by
  rw [faithful_answer_iff hanswer hquote]
  apply Iff.intro
  · rintro ⟨hbody, htells⟩
    constructor
    · rintro other (hother | ⟨-, hother⟩)
      · exact absurd hother (hnone other)
      · exact hbodies.mp hbody other hother
    · intro s i hreply hnull
      have hnonempty : s.raw ≠ [] := by
        rw [hnull]
        decide
      have hsuccess := ((htells _ _ i hreply).1 s rfl hnonempty rfl).1
      rw [lookup_success] at hsuccess
      cases hsuccess
    · exact fun r e i _ _ => hnone
    · intro r e i hreply hno message hlookup
      rcases ((htells r e i hreply).2 hno).2 message hlookup with ⟨said, hsaid, hmeaning⟩
      rw [lookup_error] at hsaid
      rcases Value.string.inj (Option.some.inj hsaid) with rfl
      exact (hmessage _).mp hmeaning
  · intro hnot
    have hbody : IsBody piece :=
      hbodies.mpr fun other hother => hnot.isBody other (.inr ⟨hnone, hother⟩)
    refine ⟨hbody, fun r e i hreply => ⟨?_, ?_⟩⟩
    · rintro s rfl hnonempty rfl
      exfalso
      rcases standsBehind_reply s .null i with ⟨other, hother, hwhole⟩
      rw [← hreply] at hother
      by_cases hnil : other = []
      · exact hnonempty ((hwhole (by rw [hnil]; exact Json.isBody_nil)).symm.trans hnil)
      · have hnull : other = ascii "null" := by
          by_contra hother'
          exact hnone other ⟨hother, hnil, hother'⟩
        have hraw := hwhole (by rw [hnull]; decide)
        exact hnot.transaction s i hreply (hraw.symm.trans hnull)
    · intro hno
      refine ⟨lookup_success _ _ _, ?_⟩
      intro message hlookup
      refine ⟨⟨piece, hbody⟩, lookup_error _ _, ?_⟩
      exact (hmessage _).mpr (hnot.message r e i hreply hno message hlookup)

/-- Only one text can be taken for the message. -/
theorem eq_errorPiece {piece : Bytes} (h : MessageText text piece) : piece = errorPiece text :=
  ((messageText_iff piece).mp h).1.symm

/-- **Answers of Dogecoin Core.** The answer to a text is a JSON object that tells what is in the
text exactly if the text is not mistaken. -/
theorem faithful_iff (response : GatewayText) :
    Faithful response.bytes ↔ NotMistaken response.bytes := by
  rcases response with ⟨text, hnul⟩
  by_cases hresult : resultPiece text ≠ [] ∧ resultPiece text ≠ ascii "null"
  · exact faithful_iff_of_result hnul ((resultText_iff _).mpr ⟨rfl, hresult⟩)
  · have hnone : ∀ id, ¬ ResultText text id := by
      intro id hid
      rcases (resultText_iff id).mp hid with ⟨rfl, hfound⟩
      exact hresult hfound
    have hparse := parseDogecoinCoreResponse_eq hnul
    rw [if_neg hresult] at hparse
    by_cases herror : errorPiece text ≠ []
    · have hmessage : MessageText text (errorPiece text) := (messageText_iff _).mpr ⟨rfl, herror⟩
      rw [if_pos herror] at hparse
      have hquote : (34 : UInt8) ∉ errorPiece text := by
        rcases hmessage with ⟨_, _, _, _, hstands, _⟩
        exact notMem_of_standsBehind hstands
      apply faithful_iff_of_no_result hnone hparse hquote
      · apply Iff.intro
        · intro hbody other hother
          rw [eq_errorPiece hother]
          exact hbody
        · exact fun hall => hall _ hmessage
      · intro message
        apply Iff.intro
        · exact fun hmeaning => .inl ⟨_, hmessage, hmeaning⟩
        · rintro (⟨other, hother, hmeaning⟩ | ⟨hno, -⟩)
          · rw [← eq_errorPiece hother]
            exact hmeaning
          · exact absurd hmessage (hno _)
    · have hno : ∀ other, ¬ MessageText text other := fun other hother =>
        herror (by rw [← eq_errorPiece hother]; exact ((messageText_iff other).mp hother).2)
      rw [if_neg herror] at hparse
      apply faithful_iff_of_no_result hnone hparse (by decide)
      · exact iff_of_true (by decide) fun other hother => absurd hother (hno other)
      · intro message
        have hdefault : Json.meaning (ascii "Unknown response format") =
            ascii "Unknown response format" := by rfl
        rw [hdefault]
        apply Iff.intro
        · exact fun hmessage => .inr ⟨hno, hmessage.symm⟩
        · rintro (⟨other, hother, -⟩ | ⟨-, hmessage⟩)
          · exact absurd hother (hno other)
          · exact hmessage.symm

end Faithfulness

/-- The error of a method that is not known, with its name in quotes. -/
def quotedError : Value :=
  .object [(⟨ascii "code", by decide⟩, .number ⟨ascii "-32601", by decide⟩),
    (⟨ascii "message", by decide⟩, .string ⟨ascii "No \\\"x\\\"", by decide⟩)]

/-- The answer to it is no JSON text. -/
theorem quoted_message_spoils_answer :
    Json.read (parseDogecoinCoreResponse
        (coreReply .null quotedError (.string ⟨ascii "curl", by decide⟩))) = none ∧
      ¬ Faithful (coreReply .null quotedError (.string ⟨ascii "curl", by decide⟩)) := by
  have hread : (Json.read (parseDogecoinCoreResponse
      (coreReply .null quotedError (.string ⟨ascii "curl", by decide⟩)))).isNone = true := by
    decide +kernel
  rw [Option.isNone_iff_eq_none] at hread
  refine ⟨hread, ?_⟩
  rintro ⟨members, hmembers, -⟩
  rw [hread] at hmembers
  cases hmembers

end RadioDoge.V3
