/-
# Text in JSON answers

`escapeJsonString` replaces one kind of byte after the other, the backslash first, and writes a
question mark over the control characters that are left. `String::replace` is taken to replace
every occurrence once and to leave what it has written alone; a text has no NUL, where the class
would stop. `escapeJsonString_faithful` says that JSON reads the text back.
-/

import RadioDoge.Arduino
import RadioDoge.Lib.Json

namespace RadioDoge.V3

/-! ## The function -/

/-- `String::replace`, for one byte to look for. -/
def replaceAll (find : UInt8) (replace input : Bytes) : Bytes :=
  input.flatMap fun c => if c = find then replace else [c]

/-- The loop over the characters: `?` for a control character but `\n`, `\r` and `\t`. -/
def removeControls (input : Bytes) : Bytes :=
  input.map fun c => if c < 32 ∧ c ≠ 10 ∧ c ≠ 13 ∧ c ≠ 9 then 63 else c

/-- `escapeJsonString`. -/
def escapeJsonString (input : Bytes) : Bytes :=
  let input := replaceAll 92 [92, 92] input
  let input := replaceAll 34 [92, 34] input
  let input := replaceAll 10 [92, 110] input
  let input := replaceAll 13 [92, 114] input
  let input := replaceAll 9 [92, 116] input
  let input := replaceAll 8 [92, 98] input
  let input := replaceAll 12 [92, 102] input
  removeControls input

/-- What the answer shows for a byte. -/
def shownByte (c : UInt8) : UInt8 :=
  if c < 32 ∧ c ≠ 8 ∧ c ≠ 9 ∧ c ≠ 10 ∧ c ≠ 12 ∧ c ≠ 13 then 63 else c

/-! ## Byte by byte -/

theorem replaceAll_append (find : UInt8) (replace first second : Bytes) :
    replaceAll find replace (first ++ second) =
      replaceAll find replace first ++ replaceAll find replace second :=
  List.flatMap_append

/-- Every byte is escaped by itself. -/
theorem escapeJsonString_append (first second : Bytes) :
    escapeJsonString (first ++ second) = escapeJsonString first ++ escapeJsonString second := by
  simp only [escapeJsonString, removeControls, replaceAll_append, List.map_append]

theorem escapeJsonString_cons (c : UInt8) (rest : Bytes) :
    escapeJsonString (c :: rest) = escapeJsonString [c] ++ escapeJsonString rest :=
  escapeJsonString_append [c] rest

/-- What one byte becomes: a short escape, or a byte by itself. -/
theorem escapeJsonString_singleton (c : UInt8) :
    (∃ short, escapeJsonString [c] = [92, short] ∧ Json.shortEscape short = some (shownByte c)) ∨
      (escapeJsonString [c] = [shownByte c] ∧ 32 ≤ shownByte c ∧ shownByte c ≠ 34 ∧
        shownByte c ≠ 92) := by
  by_cases hspecial : c ∈ ([92, 34, 10, 13, 9, 8, 12] : Bytes)
  · left
    simp only [List.mem_cons, List.not_mem_nil, or_false] at hspecial
    rcases hspecial with rfl | rfl | rfl | rfl | rfl | rfl | rfl
    · exact ⟨92, rfl, rfl⟩
    · exact ⟨34, rfl, rfl⟩
    · exact ⟨110, rfl, rfl⟩
    · exact ⟨114, rfl, rfl⟩
    · exact ⟨116, rfl, rfl⟩
    · exact ⟨98, rfl, rfl⟩
    · exact ⟨102, rfl, rfl⟩
  · right
    simp only [List.mem_cons, List.not_mem_nil, or_false, not_or] at hspecial
    rcases hspecial with ⟨hbackslash, hquote, hnewline, hreturn, htab, hbackspace, hfeed⟩
    have hescaped : escapeJsonString [c] = [if c < 32 then 63 else c] := by
      simp only [escapeJsonString, replaceAll, List.flatMap_cons, List.flatMap_nil,
        List.append_nil, hbackslash, hquote, hnewline, hreturn, htab, hbackspace, hfeed, if_false,
        removeControls, List.map_cons, List.map_nil, ne_eq, not_false_eq_true, and_true]
    have hshown : shownByte c = if c < 32 then 63 else c := by
      simp only [shownByte, hnewline, hreturn, htab, hbackspace, hfeed, ne_eq, not_false_eq_true,
        and_true]
    rw [hescaped, hshown]
    split
    · exact ⟨rfl, by decide⟩
    · rename_i hlarge
      exact ⟨rfl, UInt8.not_lt.mp hlarge, hquote, hbackslash⟩

/-! ## The whole text -/

/-- The text can stand between quotes. -/
theorem isBody_escapeJsonString (input : Bytes) : Json.IsBody (escapeJsonString input) := by
  induction input with
  | nil => exact Json.isBody_nil
  | cons c rest ih =>
      have hfirst : Json.IsBody (escapeJsonString [c]) := by
        rcases escapeJsonString_singleton c with ⟨short, hescaped, hshort⟩ |
          ⟨hescaped, hcontrol, hquote, hbackslash⟩
        · rw [hescaped]
          exact Json.isBody_short hshort
        · rw [hescaped]
          exact Json.isBody_plain hcontrol hquote hbackslash
      rw [escapeJsonString_cons, Json.isBody_append_iff hfirst]
      exact ih

/-- The text stands for what it was made from. -/
theorem meaning_escapeJsonString (input : Bytes) :
    Json.meaning (escapeJsonString input) = input.map shownByte := by
  induction input with
  | nil => rfl
  | cons c rest ih =>
      rw [escapeJsonString_cons, List.map_cons, ← ih]
      rcases escapeJsonString_singleton c with ⟨short, hescaped, hshort⟩ | ⟨hescaped, -, -, hplain⟩
      · rw [hescaped]
        exact Json.meaning_escape hshort _
      · rw [hescaped]
        exact Json.meaning_plain hplain _

/-- **Text in an answer.** What is made of a text can stand between the quotes of a JSON string,
and the string stands for the text, with a question mark for every control character that has no
short escape. -/
theorem escapeJsonString_faithful (input : Bytes) :
    (∀ c ∈ escapeJsonString input, 32 ≤ c) ∧ Json.IsBody (escapeJsonString input) ∧
      Json.meaning (escapeJsonString input) = input.map shownByte :=
  ⟨Json.Place.le_of_run (isBody_escapeJsonString input), isBody_escapeJsonString input,
    meaning_escapeJsonString input⟩

end RadioDoge.V3
