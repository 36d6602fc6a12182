/-
# JSON texts

A JSON text is read byte by byte, with the values that are still open on a stack. A string is kept
as the bytes between its quotes, a number as the bytes that write it; what a string stands for is
computed from its escapes. `read_text` says that a value that is written without spaces is read
back.
-/

import Mathlib.Tactic

namespace Json

/-! ## Strings -/

/-- The byte that a short escape stands for. -/
def shortEscape : UInt8 → Option UInt8
  | 34 => some 34
  | 92 => some 92
  | 47 => some 47
  | 98 => some 8
  | 102 => some 12
  | 110 => some 10
  | 114 => some 13
  | 116 => some 9
  | _ => none

/-- The value of a hexadecimal digit. -/
def hexDigit (c : UInt8) : Option Nat :=
  if 48 ≤ c ∧ c ≤ 57 then some (c.toNat - 48)
  else if 65 ≤ c ∧ c ≤ 70 then some (c.toNat - 55)
  else if 97 ≤ c ∧ c ≤ 102 then some (c.toNat - 87)
  else none

/-- Where a byte of a string stands: by itself, behind a backslash, or before so many digits of
an escape and one more. -/
inductive Place
  | plain
  | escape
  | hex (more : Nat)
  deriving DecidableEq, Repr

/-- One byte of a string. A control character and a quote cannot stand by themselves. -/
def Place.step : Place → UInt8 → Option Place
  | .plain, c => if c < 32 ∨ c = 34 then none else if c = 92 then some .escape else some .plain
  | .escape, c =>
      if c = 117 then some (.hex 3) else if (shortEscape c).isSome then some .plain else none
  | .hex more, c =>
      if (hexDigit c).isSome then
        match more with
        | 0 => some .plain
        | more + 1 => some (.hex more)
      else none

/-- The bytes of a string one after the other. -/
def Place.run (place : Place) : List UInt8 → Option Place
  | [] => some place
  | c :: rest => (place.step c).bind fun next => next.run rest

theorem Place.run_append (place : Place) (first second : List UInt8) :
    place.run (first ++ second) = (place.run first).bind fun next => next.run second := by
  induction first generalizing place with
  | nil => rfl
  | cons c rest ih =>
      rw [List.cons_append, run, run]
      cases place.step c with
      | none => rfl
      | some next => exact ih next

/-- What can stand between the quotes of a string. -/
def IsBody (raw : List UInt8) : Prop := Place.plain.run raw = some .plain

instance (raw : List UInt8) : Decidable (IsBody raw) := inferInstanceAs (Decidable (_ = _))

theorem isBody_nil : IsBody [] := rfl

/-- What stands behind a body goes on as if it stood alone. -/
theorem isBody_append_iff {first : List UInt8} (hfirst : IsBody first) (second : List UInt8) :
    IsBody (first ++ second) ↔ IsBody second := by
  rw [IsBody, Place.run_append, hfirst]
  rfl

/-- A body ends before a quote. -/
theorem not_isBody_quote {first : List UInt8} (hfirst : IsBody first) (rest : List UInt8) :
    ¬ IsBody (first ++ 34 :: rest) := by
  rw [isBody_append_iff hfirst]
  intro hquote
  cases hquote

/-- A byte by itself. -/
theorem isBody_plain {c : UInt8} (hcontrol : 32 ≤ c) (hquote : c ≠ 34) (hbackslash : c ≠ 92) :
    IsBody [c] := by
  have hstep : Place.plain.step c = some .plain := by
    rw [Place.step, if_neg (not_or.mpr ⟨UInt8.not_lt.mpr hcontrol, hquote⟩), if_neg hbackslash]
  rw [IsBody, Place.run, hstep]
  rfl

/-- A short escape. -/
theorem isBody_short {c value : UInt8} (hc : shortEscape c = some value) : IsBody [92, c] := by
  have hunit : c ≠ 117 := by
    rintro rfl
    cases hc
  have hfirst : Place.plain.step 92 = some .escape := by decide
  have hsecond : Place.escape.step c = some .plain := by
    rw [Place.step, if_neg hunit, hc]
    rfl
  rw [IsBody, Place.run, hfirst, Option.bind_some, Place.run, hsecond]
  rfl

/-- No byte of a string is a control character. -/
theorem Place.le_of_step {place next : Place} {c : UInt8} (hstep : place.step c = some next) :
    32 ≤ c := by
  apply UInt8.not_lt.mp
  intro hcontrol
  have hsmall : c.toNat < 32 := hcontrol
  have hne : ∀ other : UInt8, 32 ≤ other → c ≠ other := by
    rintro other hother rfl
    exact UInt8.not_lt.mpr hother hcontrol
  cases place with
  | plain =>
      rw [step, if_pos (.inl hcontrol)] at hstep
      cases hstep
  | escape =>
      rw [step, if_neg (hne 117 (by decide))] at hstep
      have hnone : shortEscape c = none := by
        unfold shortEscape
        split
        all_goals first | exact absurd rfl (hne _ (by decide)) | rfl
      rw [hnone] at hstep
      cases hstep
  | hex more =>
      have hnone : hexDigit c = none := by
        rw [hexDigit, if_neg, if_neg, if_neg]
        · exact fun h => absurd (UInt8.le_iff_toNat_le.mp h.1) (by change ¬ 97 ≤ c.toNat; omega)
        · exact fun h => absurd (UInt8.le_iff_toNat_le.mp h.1) (by change ¬ 65 ≤ c.toNat; omega)
        · exact fun h => absurd (UInt8.le_iff_toNat_le.mp h.1) (by change ¬ 48 ≤ c.toNat; omega)
      rw [step.eq_def] at hstep
      simp only [hnone, Option.isSome_none, Bool.false_eq_true, if_false] at hstep
      cases hstep

theorem Place.le_of_run {place next : Place} {raw : List UInt8} (hrun : place.run raw = some next) :
    ∀ c ∈ raw, 32 ≤ c := by
  induction raw generalizing place with
  | nil =>
      intro c hmem
      cases hmem
  | cons first rest ih =>
      rw [run] at hrun
      rcases Option.bind_eq_some_iff.mp hrun with ⟨between, hstep, hrest⟩
      intro c hmem
      rcases List.mem_cons.mp hmem with rfl | hmem
      · exact le_of_step hstep
      · exact ih hrest c hmem

/-- The bytes between the quotes of a string. -/
structure Body where
  raw : List UInt8
  isBody : IsBody raw
  deriving DecidableEq

/-! ## What a string stands for -/

/-- The characters of a string: a byte as it is, or the number of an escape. -/
inductive Piece
  | byte (c : UInt8)
  | unit (n : Nat)
  deriving DecidableEq, Repr

/-- The characters of a string from a place on, with the digits that were read so far. -/
def pieces : Place → Nat → List UInt8 → List Piece
  | _, _, [] => []
  | .plain, n, c :: rest =>
      if c = 92 then pieces .escape n rest else .byte c :: pieces .plain n rest
  | .escape, _, c :: rest =>
      if c = 117 then pieces (.hex 3) 0 rest
      else .byte ((shortEscape c).getD c) :: pieces .plain 0 rest
  | .hex 0, n, c :: rest => .unit (n * 16 + (hexDigit c).getD 0) :: pieces .plain 0 rest
  | .hex (more + 1), n, c :: rest => pieces (.hex more) (n * 16 + (hexDigit c).getD 0) rest

/-- The bytes of a code point in UTF-8. -/
def utf8 (n : Nat) : List UInt8 :=
  if n < 128 then [UInt8.ofNat n]
  else if n < 2048 then [UInt8.ofNat (192 + n / 64), UInt8.ofNat (128 + n % 64)]
  else if n < 65536 then
    [UInt8.ofNat (224 + n / 4096), UInt8.ofNat (128 + n / 64 % 64), UInt8.ofNat (128 + n % 64)]
  else
    [UInt8.ofNat (240 + n / 262144), UInt8.ofNat (128 + n / 4096 % 64),
      UInt8.ofNat (128 + n / 64 % 64), UInt8.ofNat (128 + n % 64)]

/-- Two escapes that are the halves of one code point. -/
def paired (high low : Nat) : Option Nat :=
  if 55296 ≤ high ∧ high < 56320 ∧ 56320 ≤ low ∧ low < 57344 then
    some (65536 + (high - 55296) * 1024 + (low - 56320))
  else none

/-- The bytes of a list of characters. -/
def joined : List Piece → List UInt8
  | [] => []
  | .byte c :: rest => c :: joined rest
  | [.unit n] => utf8 n
  | .unit n :: .byte c :: rest => utf8 n ++ c :: joined rest
  | .unit high :: .unit low :: rest =>
      match paired high low with
      | some n => utf8 n ++ joined rest
      | none => utf8 high ++ joined (.unit low :: rest)

/-- The text that the bytes between two quotes stand for. -/
def meaning (raw : List UInt8) : List UInt8 := joined (pieces .plain 0 raw)

theorem pieces_plain {c : UInt8} (hc : c ≠ 92) (rest : List UInt8) :
    pieces .plain 0 (c :: rest) = .byte c :: pieces .plain 0 rest :=
  if_neg hc

/-- A byte that stands by itself. -/
theorem meaning_plain {c : UInt8} (hc : c ≠ 92) (rest : List UInt8) :
    meaning (c :: rest) = c :: meaning rest := by
  rw [meaning, pieces_plain hc, joined, meaning]

/-- A short escape. -/
theorem meaning_escape {c value : UInt8} (hc : shortEscape c = some value) (rest : List UInt8) :
    meaning (92 :: c :: rest) = value :: meaning rest := by
  have hunit : c ≠ 117 := by
    rintro rfl
    cases hc
  have hpieces : pieces .plain 0 (92 :: c :: rest) = .byte value :: pieces .plain 0 rest := by
    rw [pieces, if_pos rfl, pieces, if_neg hunit, hc, Option.getD_some]
  rw [meaning, hpieces, joined, meaning]

/-! ## Numbers -/

/-- How far a number is read. -/
inductive NumberPlace
  | start
  | sign
  | zero
  | integer
  | point
  | fraction
  | exponent
  | exponentSign
  | exponentDigits
  deriving DecidableEq, Repr

/-- A decimal digit. -/
def isDigit (c : UInt8) : Bool := 48 ≤ c && c ≤ 57

/-- A byte that can occur in a number. -/
def isNumberByte (c : UInt8) : Bool :=
  isDigit c || c == 45 || c == 43 || c == 46 || c == 101 || c == 69

/-- One byte of a number. -/
def NumberPlace.step (place : NumberPlace) (c : UInt8) : Option NumberPlace :=
  match place with
  | .start =>
      if c = 45 then some .sign else if c = 48 then some .zero
      else if isDigit c then some .integer else none
  | .sign => if c = 48 then some .zero else if isDigit c then some .integer else none
  | .zero => if c = 46 then some .point else if c = 101 ∨ c = 69 then some .exponent else none
  | .integer =>
      if isDigit c then some .integer else if c = 46 then some .point
      else if c = 101 ∨ c = 69 then some .exponent else none
  | .point => if isDigit c then some .fraction else none
  | .fraction =>
      if isDigit c then some .fraction else if c = 101 ∨ c = 69 then some .exponent else none
  | .exponent =>
      if isDigit c then some .exponentDigits else if c = 43 ∨ c = 45 then some .exponentSign
      else none
  | .exponentSign => if isDigit c then some .exponentDigits else none
  | .exponentDigits => if isDigit c then some .exponentDigits else none

/-- The bytes of a number one after the other. -/
def NumberPlace.run (place : NumberPlace) : List UInt8 → Option NumberPlace
  | [] => some place
  | c :: rest => (place.step c).bind fun next => next.run rest

/-- A number can end here. -/
def NumberPlace.ends : NumberPlace → Bool
  | .zero | .integer | .fraction | .exponentDigits => true
  | _ => false

/-- The bytes write a number. -/
def IsNumber (raw : List UInt8) : Prop := (NumberPlace.start.run raw).any NumberPlace.ends = true

instance (raw : List UInt8) : Decidable (IsNumber raw) := inferInstanceAs (Decidable (_ = _))

/-- The bytes of a number. -/
structure Number where
  raw : List UInt8
  isNumber : IsNumber raw
  deriving DecidableEq

/-! ## Values -/

/-- A JSON value, as it is written. -/
inductive Value
  | null
  | bool (b : Bool)
  | number (n : Number)
  | string (s : Body)
  | array (elements : List Value)
  | object (members : List (Body × Value))

namespace Value

/-- The word of a boolean. -/
def word : Bool → List UInt8
  | true => [116, 114, 117, 101]
  | false => [102, 97, 108, 115, 101]

mutual

/-- A value without spaces. -/
def text : Value → List UInt8
  | null => [110, 117, 108, 108]
  | bool b => word b
  | number n => n.raw
  | string s => 34 :: s.raw ++ [34]
  | array elements => 91 :: elementsText elements ++ [93]
  | object members => 123 :: membersText members ++ [125]

/-- Elements with commas between them. -/
def elementsText : List Value → List UInt8
  | [] => []
  | [v] => text v
  | v :: w :: rest => text v ++ 44 :: elementsText (w :: rest)

/-- Members with commas between them. -/
def membersText : List (Body × Value) → List UInt8
  | [] => []
  | [(key, v)] => 34 :: key.raw ++ 34 :: 58 :: text v
  | (key, v) :: m :: rest => 34 :: key.raw ++ 34 :: 58 :: text v ++ 44 :: membersText (m :: rest)

end

/-- The first element, and each of the others behind a comma. -/
theorem elementsText_cons (v : Value) (rest : List Value) :
    elementsText (v :: rest) = text v ++ rest.flatMap fun w => 44 :: text w := by
  induction rest generalizing v with
  | nil => rw [elementsText, List.flatMap_nil, List.append_nil]
  | cons w rest ih => rw [elementsText, ih, List.flatMap_cons, List.cons_append]

/-- The value of the first member with this name. -/
def lookup (name : List UInt8) : Value → Option Value
  | object members => (members.find? fun member => meaning member.1.raw = name).map Prod.snd
  | _ => none

end Value

/-! ## The reader -/

/-- A value that is still open: the elements so far, or the members so far and the key of the
next one. -/
inductive Frame
  | array (before : List Value)
  | object (before : List (Body × Value)) (key : Body)

/-- What is read. Behind a bracket that opens a list, the list can also be closed. -/
inductive Mode
  | value (opened : Bool)
  | key (before : List (Body × Value)) (opened : Bool)
  | inKey (before : List (Body × Value)) (place : Place) (raw : List UInt8)
  | colon (before : List (Body × Value)) (key : Body)
  | inString (place : Place) (raw : List UInt8)
  | inNumber (raw : List UInt8)
  | inWord (rest : List UInt8) (v : Value)
  | done (v : Value)

/-- The reader. -/
structure Reader where
  stack : List Frame
  mode : Mode

/-- A space, a tab or the end of a line. -/
def isSpace (c : UInt8) : Bool := c == 32 || c == 9 || c == 10 || c == 13

namespace Reader

/-- The bytes that were read as a string, if they are one. -/
def body? (raw : List UInt8) : Option Body := if h : IsBody raw then some ⟨raw, h⟩ else none

/-- A byte behind a value. -/
def delimit (stack : List Frame) (v : Value) (c : UInt8) : Option Reader :=
  if isSpace c then some ⟨stack, .done v⟩
  else
    match stack with
    | .array before :: stack =>
        if c = 44 then some ⟨.array (before ++ [v]) :: stack, .value false⟩
        else if c = 93 then some ⟨stack, .done (.array (before ++ [v]))⟩
        else none
    | .object before key :: stack =>
        if c = 44 then some ⟨stack, .key (before ++ [(key, v)]) false⟩
        else if c = 125 then some ⟨stack, .done (.object (before ++ [(key, v)]))⟩
        else none
    | [] => none

/-- A byte where a value begins. -/
def begin (stack : List Frame) (opened : Bool) (c : UInt8) : Option Reader :=
  if isSpace c then some ⟨stack, .value opened⟩
  else if c = 34 then some ⟨stack, .inString .plain []⟩
  else if c = 91 then some ⟨.array [] :: stack, .value true⟩
  else if c = 123 then some ⟨stack, .key [] true⟩
  else if c = 110 then some ⟨stack, .inWord [117, 108, 108] .null⟩
  else if c = 116 then some ⟨stack, .inWord [114, 117, 101] (.bool true)⟩
  else if c = 102 then some ⟨stack, .inWord [97, 108, 115, 101] (.bool false)⟩
  else if c = 93 ∧ opened then
    match stack with
    | .array [] :: stack => some ⟨stack, .done (.array [])⟩
    | _ => none
  else if isNumberByte c then some ⟨stack, .inNumber [c]⟩
  else none

/-- One byte. -/
def step (r : Reader) (c : UInt8) : Option Reader :=
  match r.mode with
  | .value opened => begin r.stack opened c
  | .key before opened =>
      if isSpace c then some r
      else if c = 34 then some ⟨r.stack, .inKey before .plain []⟩
      else if c = 125 ∧ opened then some ⟨r.stack, .done (.object [])⟩
      else none
  | .inKey before place raw =>
      if place = .plain ∧ c = 34 then
        (body? raw).map fun key => ⟨r.stack, .colon before key⟩
      else (place.step c).map fun next => ⟨r.stack, .inKey before next (raw ++ [c])⟩
  | .colon before key =>
      if isSpace c then some r
      else if c = 58 then some ⟨.object before key :: r.stack, .value false⟩
      else none
  | .inString place raw =>
      if place = .plain ∧ c = 34 then (body? raw).map fun s => ⟨r.stack, .done (.string s)⟩
      else (place.step c).map fun next => ⟨r.stack, .inString next (raw ++ [c])⟩
  | .inNumber raw =>
      if isNumberByte c then some ⟨r.stack, .inNumber (raw ++ [c])⟩
      else if h : IsNumber raw then delimit r.stack (.number ⟨raw, h⟩) c
      else none
  | .inWord rest v =>
      match rest with
      | [] => none
      | [last] => if c = last then some ⟨r.stack, .done v⟩ else none
      | next :: rest => if c = next then some ⟨r.stack, .inWord rest v⟩ else none
  | .done v => delimit r.stack v c

/-- The bytes of a text one after the other. -/
def feed (r : Reader) : List UInt8 → Option Reader
  | [] => some r
  | c :: rest => (r.step c).bind fun next => next.feed rest

/-- The value that was read, if it is complete. -/
def result (r : Reader) : Option Value :=
  match r.stack, r.mode with
  | [], .done v => some v
  | [], .inNumber raw => if h : IsNumber raw then some (.number ⟨raw, h⟩) else none
  | _, _ => none

end Reader

/-- The value of a text. -/
def read (input : List UInt8) : Option Value :=
  (Reader.feed ⟨[], .value false⟩ input).bind Reader.result

/-! ## Reading what was written -/

namespace Reader

variable (stack : List Frame)

theorem feed_append (r : Reader) (first second : List UInt8) :
    r.feed (first ++ second) = (r.feed first).bind fun next => next.feed second := by
  induction first generalizing r with
  | nil => rfl
  | cons c rest ih =>
      rw [List.cons_append, feed, feed]
      cases r.step c with
      | none => rfl
      | some next => exact ih next

theorem feed_singleton (r : Reader) (c : UInt8) : r.feed [c] = r.step c := by
  rw [feed]
  cases r.step c with
  | none => rfl
  | some next => rfl

/-- A byte that a string can go on with does not close it. -/
theorem not_closes {place next : Place} {c : UInt8} (hstep : place.step c = some next) :
    ¬ (place = .plain ∧ c = 34) := by
  rintro ⟨rfl, rfl⟩
  cases hstep

/-- A reader that collects bytes as the places of a string allow them. -/
theorem feed_collecting (collecting : Place → List UInt8 → Reader)
    (hcollects : ∀ {place next : Place} {c : UInt8}, place.step c = some next →
      ∀ before, (collecting place before).step c = some (collecting next (before ++ [c])))
    {place next : Place} {raw : List UInt8} (hrun : place.run raw = some next)
    (before rest : List UInt8) :
    feed (collecting place before) (raw ++ rest) =
      feed (collecting next (before ++ raw)) rest := by
  induction raw generalizing place before with
  | nil =>
      rcases Option.some.inj hrun with rfl
      rw [List.append_nil]
      rfl
  | cons c raw ih =>
      rw [Place.run] at hrun
      rcases Option.bind_eq_some_iff.mp hrun with ⟨between, hstep, hrest⟩
      rw [List.cons_append, feed, hcollects hstep, Option.bind_some, ih hrest, List.append_assoc]
      rfl

/-- The bytes of a string are collected. -/
theorem feed_inString {place next : Place} {raw : List UInt8} (hrun : place.run raw = some next)
    (before rest : List UInt8) :
    feed ⟨stack, .inString place before⟩ (raw ++ rest) =
      feed ⟨stack, .inString next (before ++ raw)⟩ rest := by
  apply feed_collecting (fun place before => ⟨stack, .inString place before⟩) ?_ hrun
  intro place next c hstep before
  rw [step]
  simp only [if_neg (not_closes hstep), hstep, Option.map_some]

/-- Bytes that are no string, with no quote among them, are refused. -/
theorem feed_inString_of_none {place : Place} {raw : List UInt8} (hquote : (34 : UInt8) ∉ raw)
    (hrun : place.run raw = none) (before rest : List UInt8) :
    feed ⟨stack, .inString place before⟩ (raw ++ rest) = none := by
  induction raw generalizing place before with
  | nil => cases hrun
  | cons c raw ih =>
      have hc : ¬ (place = .plain ∧ c = 34) := by
        rintro ⟨-, rfl⟩
        exact hquote List.mem_cons_self
      rw [Place.run] at hrun
      rw [List.cons_append, feed, step]
      simp only [if_neg hc]
      cases hstep : place.step c with
      | none => rfl
      | some next =>
          rw [hstep, Option.bind_some] at hrun
          exact ih (fun hmem => hquote (List.mem_cons_of_mem c hmem)) hrun _

theorem body?_raw (s : Body) : body? s.raw = some s := dif_pos s.isBody

/-- A string behind its first quote. -/
theorem feed_body (s : Body) (rest : List UInt8) :
    feed ⟨stack, .inString .plain []⟩ (s.raw ++ 34 :: rest) =
      feed ⟨stack, .done (.string s)⟩ rest := by
  rw [feed_inString stack s.isBody, List.nil_append, feed, step]
  simp only [and_self, if_true, body?_raw, Option.map_some, Option.bind_some]

/-- The bytes of a key are collected. -/
theorem feed_inKey {place next : Place} {raw : List UInt8} (hrun : place.run raw = some next)
    (members : List (Body × Value)) (before rest : List UInt8) :
    feed ⟨stack, .inKey members place before⟩ (raw ++ rest) =
      feed ⟨stack, .inKey members next (before ++ raw)⟩ rest := by
  apply feed_collecting (fun place before => ⟨stack, .inKey members place before⟩) ?_ hrun
  intro place next c hstep before
  rw [step]
  simp only [if_neg (not_closes hstep), hstep, Option.map_some]

/-- A key with its quotes and the colon. -/
theorem feed_key (before : List (Body × Value)) (opened : Bool) (key : Body) (rest : List UInt8) :
    feed ⟨stack, .key before opened⟩ (34 :: (key.raw ++ 34 :: 58 :: rest)) =
      feed ⟨.object before key :: stack, .value false⟩ rest := by
  have hopen : step ⟨stack, .key before opened⟩ 34 = some ⟨stack, .inKey before .plain []⟩ := rfl
  have hclose : step ⟨stack, .inKey before .plain key.raw⟩ 34 =
      some ⟨stack, .colon before key⟩ := by
    rw [step]
    simp only [and_self, if_true, body?_raw, Option.map_some]
  have hcolon : step ⟨stack, .colon before key⟩ 58 =
      some ⟨.object before key :: stack, .value false⟩ := rfl
  rw [feed, hopen, Option.bind_some, feed_inKey stack key.isBody, List.nil_append, feed, hclose,
    Option.bind_some, feed, hcolon, Option.bind_some]

/-- The bytes of a number are collected. -/
theorem feed_inNumber {raw : List UInt8} (hraw : ∀ c ∈ raw, isNumberByte c = true)
    (before rest : List UInt8) :
    feed ⟨stack, .inNumber before⟩ (raw ++ rest) =
      feed ⟨stack, .inNumber (before ++ raw)⟩ rest := by
  induction raw generalizing before with
  | nil =>
      rw [List.append_nil]
      rfl
  | cons c raw ih =>
      rw [List.cons_append, feed, step]
      simp only [hraw c List.mem_cons_self, if_true, Option.bind_some]
      rw [ih fun other hmem => hraw other (List.mem_cons_of_mem c hmem), List.append_assoc]
      rfl

end Reader

/-- A number goes on with bytes of a number only. -/
theorem NumberPlace.isNumberByte_of_step {place next : NumberPlace} {c : UInt8}
    (hstep : place.step c = some next) : isNumberByte c = true := by
  by_contra hother
  have hzero : c ≠ 48 := by
    rintro rfl
    exact hother rfl
  simp only [isNumberByte, Bool.or_eq_true, beq_iff_eq, not_or] at hother
  cases place
  all_goals
    simp only [NumberPlace.step, hother, hzero, if_false, or_self] at hstep
    cases hstep

theorem NumberPlace.isNumberByte_of_run {place next : NumberPlace} {raw : List UInt8}
    (hrun : place.run raw = some next) : ∀ c ∈ raw, isNumberByte c = true := by
  induction raw generalizing place with
  | nil =>
      intro c hmem
      cases hmem
  | cons first rest ih =>
      rw [NumberPlace.run] at hrun
      rcases Option.bind_eq_some_iff.mp hrun with ⟨between, hstep, hrest⟩
      intro c hmem
      rcases List.mem_cons.mp hmem with rfl | hmem
      · exact NumberPlace.isNumberByte_of_step hstep
      · exact ih hrest c hmem

/-- A number has bytes, all of them bytes of a number. -/
theorem Number.bytes (n : Number) : n.raw ≠ [] ∧ ∀ c ∈ n.raw, isNumberByte c = true := by
  have hnumber := n.isNumber
  rw [IsNumber] at hnumber
  cases hrun : NumberPlace.start.run n.raw with
  | none =>
      rw [hrun] at hnumber
      cases hnumber
  | some place =>
      refine ⟨?_, NumberPlace.isNumberByte_of_run hrun⟩
      intro hnil
      rw [hnil] at hnumber
      cases hnumber

namespace Reader

/-- The first byte of a number. -/
theorem begin_number {c : UInt8} (hc : isNumberByte c = true) (stack : List Frame) (opened : Bool) :
    begin stack opened c = some ⟨stack, .inNumber [c]⟩ := by
  have hspace : isSpace c = false := by
    by_contra hspace
    simp only [Bool.not_eq_false, isSpace, Bool.or_eq_true, beq_iff_eq] at hspace
    rcases hspace with ((rfl | rfl) | rfl) | rfl
    all_goals cases hc
  have hne : ∀ other : UInt8, isNumberByte other = false → c ≠ other := by
    rintro other hother rfl
    rw [hc] at hother
    cases hother
  rw [begin.eq_def, hspace, if_neg Bool.false_ne_true, if_neg (hne 34 rfl), if_neg (hne 91 rfl),
    if_neg (hne 123 rfl), if_neg (hne 110 rfl), if_neg (hne 116 rfl), if_neg (hne 102 rfl),
    if_neg fun hclose => hne 93 rfl hclose.1, if_pos hc]

/-- A number, up to a byte that ends it. -/
theorem feed_number (n : Number) (stack : List Frame) (opened : Bool) {c : UInt8}
    (hc : isNumberByte c = false) (rest : List UInt8) :
    feed ⟨stack, .value opened⟩ (n.raw ++ c :: rest) =
      feed ⟨stack, .done (.number n)⟩ (c :: rest) := by
  rcases n.bytes with ⟨hnonempty, hbytes⟩
  have hend : step ⟨stack, .inNumber n.raw⟩ c = step ⟨stack, .done (.number n)⟩ c := by
    rw [step]
    simp only [hc, Bool.false_eq_true, if_false, dif_pos n.isNumber]
    rfl
  cases hraw : n.raw with
  | nil => exact absurd hraw hnonempty
  | cons first others =>
      rw [hraw] at hbytes
      have hfirst : step ⟨stack, .value opened⟩ first = some ⟨stack, .inNumber [first]⟩ :=
        begin_number (hbytes first List.mem_cons_self) stack opened
      rw [List.cons_append, feed, hfirst, Option.bind_some,
        feed_inNumber stack fun other hmem => hbytes other (List.mem_cons_of_mem first hmem),
        List.singleton_append, ← hraw, feed, hend, feed]

mutual

/-- A value that is written without spaces is read, up to a byte that ends it. -/
theorem feed_text (v : Value) (stack : List Frame) (opened : Bool) {c : UInt8}
    (hc : isNumberByte c = false) (rest : List UInt8) :
    feed ⟨stack, .value opened⟩ (v.text ++ c :: rest) = feed ⟨stack, .done v⟩ (c :: rest) := by
  match v with
  | .null => rfl
  | .bool true => rfl
  | .bool false => rfl
  | .number n => exact feed_number n stack opened hc rest
  | .string s =>
      have hopen : step ⟨stack, .value opened⟩ 34 = some ⟨stack, .inString .plain []⟩ := rfl
      have hlayout : (Value.string s).text ++ c :: rest = 34 :: (s.raw ++ 34 :: c :: rest) := by
        simp only [Value.text, List.cons_append, List.append_assoc, List.nil_append]
      rw [hlayout, feed, hopen, Option.bind_some, feed_body]
  | .array [] => rfl
  | .array (first :: others) =>
      have hopen : step ⟨stack, .value opened⟩ 91 = some ⟨.array [] :: stack, .value true⟩ := rfl
      have hlayout : (Value.array (first :: others)).text ++ c :: rest =
          91 :: (Value.elementsText (first :: others) ++ 93 :: c :: rest) := by
        simp only [Value.text, List.cons_append, List.append_assoc, List.nil_append]
      rw [hlayout, feed, hopen, Option.bind_some]
      exact feed_elementsText (first :: others) (List.cons_ne_nil _ _) stack [] true (c :: rest)
  | .object [] => rfl
  | .object (first :: others) =>
      have hopen : step ⟨stack, .value opened⟩ 123 = some ⟨stack, .key [] true⟩ := rfl
      have hlayout : (Value.object (first :: others)).text ++ c :: rest =
          123 :: (Value.membersText (first :: others) ++ 125 :: c :: rest) := by
        simp only [Value.text, List.cons_append, List.append_assoc, List.nil_append]
      rw [hlayout, feed, hopen, Option.bind_some]
      exact feed_membersText (first :: others) (List.cons_ne_nil _ _) stack [] true (c :: rest)

/-- Elements are read up to the bracket that closes them. -/
theorem feed_elementsText (elements : List Value) (hnonempty : elements ≠ [])
    (stack : List Frame) (before : List Value) (opened : Bool) (rest : List UInt8) :
    feed ⟨.array before :: stack, .value opened⟩ (Value.elementsText elements ++ 93 :: rest) =
      feed ⟨stack, .done (.array (before ++ elements))⟩ rest := by
  match elements with
  | [v] =>
      rw [Value.elementsText, feed_text v _ opened (by decide)]
      rfl
  | v :: w :: others =>
      have hcomma : step ⟨.array before :: stack, .done v⟩ 44 =
          some ⟨.array (before ++ [v]) :: stack, .value false⟩ := rfl
      rw [Value.elementsText, List.append_assoc, List.cons_append,
        feed_text v _ opened (by decide), feed, hcomma, Option.bind_some,
        feed_elementsText (w :: others) (List.cons_ne_nil _ _), List.append_assoc]
      rfl

/-- Members are read up to the brace that closes them. -/
theorem feed_membersText (members : List (Body × Value)) (hnonempty : members ≠ [])
    (stack : List Frame) (before : List (Body × Value)) (opened : Bool) (rest : List UInt8) :
    feed ⟨stack, .key before opened⟩ (Value.membersText members ++ 125 :: rest) =
      feed ⟨stack, .done (.object (before ++ members))⟩ rest := by
  match members with
  | [(key, v)] =>
      have hlayout : Value.membersText [(key, v)] ++ 125 :: rest =
          34 :: (key.raw ++ 34 :: 58 :: (v.text ++ 125 :: rest)) := by
        simp only [Value.membersText, List.cons_append, List.append_assoc]
      rw [hlayout, feed_key, feed_text v _ false (by decide)]
      rfl
  | (key, v) :: m :: others =>
      have hcomma : step ⟨.object before key :: stack, .done v⟩ 44 =
          some ⟨stack, .key (before ++ [(key, v)]) false⟩ := rfl
      have hlayout : Value.membersText ((key, v) :: m :: others) ++ 125 :: rest =
          34 :: (key.raw ++ 34 :: 58 :: (v.text ++ 44 ::
            (Value.membersText (m :: others) ++ 125 :: rest))) := by
        simp only [Value.membersText, List.cons_append, List.append_assoc]
      rw [hlayout, feed_key, feed_text v _ false (by decide), feed, hcomma, Option.bind_some,
        feed_membersText (m :: others) (List.cons_ne_nil _ _), List.append_assoc]
      rfl

end

/-- A value is complete if either space is only passed over. -/
theorem result_of_step {r : Reader} {v : Value} (hspace : r.step 32 = some ⟨[], .done v⟩)
    (htab : r.step 9 = some ⟨[], .done v⟩) : r.result = some v := by
  rcases r with ⟨stack, mode⟩
  cases mode with
  | value opened => cases hspace
  | key before opened => cases hspace
  | inKey before place raw =>
      have hopen : ¬ (place = .plain ∧ (32 : UInt8) = 34) := fun h => absurd h.2 (by decide)
      simp only [step, if_neg hopen] at hspace
      rcases Option.map_eq_some_iff.mp hspace with ⟨next, -, hnext⟩
      cases hnext
  | colon before key => cases hspace
  | inString place raw =>
      have hopen : ¬ (place = .plain ∧ (32 : UInt8) = 34) := fun h => absurd h.2 (by decide)
      simp only [step, if_neg hopen] at hspace
      rcases Option.map_eq_some_iff.mp hspace with ⟨next, -, hnext⟩
      cases hnext
  | inNumber raw =>
      have hbyte : isNumberByte 32 = false := rfl
      simp only [step, hbyte, Bool.false_eq_true, if_false] at hspace
      split at hspace
      · rename_i hnumber
        have hdone : some (⟨stack, .done (.number ⟨raw, hnumber⟩)⟩ : Reader) =
            some ⟨[], .done v⟩ := hspace
        cases hdone
        exact dif_pos hnumber
      · cases hspace
  | inWord rest w =>
      match rest with
      | [] => cases hspace
      | [last] =>
          simp only [step] at hspace htab
          split at hspace
          · rename_i hlast
            rw [← hlast] at htab
            cases htab
          · cases hspace
      | _ :: _ :: _ =>
          simp only [step] at hspace
          split at hspace
          · cases hspace
          · cases hspace
  | done w =>
      have hdone : some (⟨stack, .done w⟩ : Reader) = some ⟨[], .done v⟩ := hspace
      cases hdone
      rfl

end Reader

/-- **Reading back.** A value that is written without spaces is read back. -/
theorem read_text (v : Value) : read v.text = some v := by
  have hspace := Reader.feed_text v [] false (show isNumberByte 32 = false from rfl) []
  have htab := Reader.feed_text v [] false (show isNumberByte 9 = false from rfl) []
  rw [Reader.feed_append] at hspace htab
  cases hfeed : Reader.feed ⟨[], .value false⟩ v.text with
  | none =>
      rw [hfeed] at hspace
      cases hspace
  | some r =>
      rw [hfeed, Option.bind_some, Reader.feed_singleton, Reader.feed_singleton] at hspace htab
      rw [read, hfeed, Option.bind_some]
      exact Reader.result_of_step hspace htab

end Json
