/-
# Text is read back

The text of a value is read as the document that shows the value part by part, in lines
(`Json.parse?_indented`) as well as without blanks (`Json.parse?_compact`).

The two texts differ in the blanks alone, and a reader skips those, so reading is proved once, for a
text with any blanks between its parts (`Json.Layout`). A string is read character by character
(`Document.readString_quoted`). A value is read by recursion over its parts, where the reader's fuel
is measured by the characters of the part.

Key definitions: `Json.numbers`, `Json.document`, `Json.Layout`.
Key theorems: `Document.readString_quoted`, `Json.Layout.readValue_chars`, `Json.parse?_indented`,
`Json.parse?_compact`.
-/
import Steward.Proofs.Json.Numeral

namespace Steward

open Text

namespace Document

/-! ### Blanks -/

/-- Whether a reader skips the character between the parts of a text. -/
def isSpace (c : Char) : Bool := c = ' ' || c = '\n' || c = '\t' || c = '\r'

theorem skip_cons {c : Char} (h : isSpace c = false) (cs : List Char) :
    skip (c :: cs) = c :: cs := by
  rw [skip, List.dropWhile_cons_of_neg]
  exact Bool.eq_false_iff.1 h

theorem skip_append {blanks : List Char} (h : ∀ c ∈ blanks, isSpace c = true) (cs : List Char) :
    skip (blanks ++ cs) = skip cs :=
  List.dropWhile_append_of_pos h

theorem skip_skip (cs : List Char) : skip (skip cs) = skip cs := by
  simp only [skip, List.dropWhile_idempotent]

/-- Blanks before a value do not count, and so for what a list begins with. -/
theorem readValue_of_skip {cs ds : List Char} (h : skip cs = skip ds) (fuel : Nat) :
    readValue fuel cs = readValue fuel ds := by
  cases fuel with
  | zero => rfl
  | succ fuel => rw [readValue, readValue, h]

theorem readItems_of_skip {cs ds : List Char} (h : skip cs = skip ds) (fuel : Nat) :
    readItems fuel cs = readItems fuel ds := by
  cases fuel with
  | zero => rfl
  | succ fuel => rw [readItems, readItems, readValue_of_skip h]

theorem readFields_of_skip {cs ds : List Char} (h : skip cs = skip ds) (fuel : Nat) :
    readFields fuel cs = readFields fuel ds := by
  cases fuel with
  | zero => rfl
  | succ fuel => rw [readFields, readFields, h]

/-! ### Strings -/

/-- What a character is read as: the code unit of an escape, if it has no shorter one. -/
def Piece.ofChar (c : Char) : Piece :=
  if c.toNat < 0x20 ∧ c ∉ ['\x08', '\t', '\n', '\x0c', '\r'] then .unit c.toNat else .char c

theorem hexadecimal_control : ∀ n < 0x20,
    ofDigits? 16 ['0', '0', digit (n / 16), digit (n % 16)] = some n := by decide

/-- An escape is read as one piece. -/
theorem readPieces_escape (c : Char) (cs : List Char) :
    readPieces (Json.escape c ++ cs) =
      (readPieces cs).map fun (ps, r) => (Piece.ofChar c :: ps, r) := by
  by_cases short : c ∈ ['"', '\\', '\x08', '\t', '\n', '\x0c', '\r']
  · simp only [List.mem_cons, List.not_mem_nil, or_false] at short
    rcases short with rfl | rfl | rfl | rfl | rfl | rfl | rfl <;>
      cases h : readPieces cs <;> simp [Json.escape, readPieces, escaped?, Piece.ofChar, h]
  · simp only [List.mem_cons, List.not_mem_nil, or_false, not_or] at short
    obtain ⟨quote, slash, b, t, n, f, r⟩ := short
    rw [Json.escape, if_neg quote, if_neg slash, if_neg b, if_neg t, if_neg n, if_neg f, if_neg r]
    by_cases control : c.toNat < 0x20
    · have read := hexadecimal_control c.toNat control
      cases h : readPieces cs <;> simp [readPieces, Piece.ofChar, control, read, b, t, n, f, r, h]
    · rw [if_neg control, List.singleton_append, readPieces, if_neg control, Piece.ofChar,
        if_neg (fun h => control h.1)]
      · cases h : readPieces cs <;> rfl
      · exact quote
      · exact fun _ _ _ _ _ h => absurd h slash
      · exact fun _ _ h => absurd h slash

/-- A code unit outside the surrogates is a character, whatever follows it. -/
theorem pieceChars_unit {n : Nat} (h : n < 0xD800) (ps : List Piece) :
    pieceChars (.unit n :: ps) = (pieceChars ps).map (Char.ofNat n :: ·) := by
  have first : ¬ (0xD800 ≤ n ∧ n < 0xE000) := by omega
  have high : ¬ (0xD800 ≤ n ∧ n < 0xDC00) := by omega
  have low : ¬ (0xDC00 ≤ n ∧ n < 0xE000) := by omega
  cases ps with
  | nil => simp only [pieceChars, if_neg first, Option.map_some]
  | cons p ps =>
    cases p with
    | char c =>
      simp only [pieceChars, if_neg first, Option.map_map]
      rfl
    | unit m => simp only [pieceChars, if_neg high, if_neg low]

theorem pieceChars_map (cs : List Char) : pieceChars (cs.map Piece.ofChar) = some cs := by
  induction cs with
  | nil => rfl
  | cons c cs ih =>
    rw [List.map_cons, Piece.ofChar]
    by_cases escaped : c.toNat < 0x20 ∧ c ∉ ['\x08', '\t', '\n', '\x0c', '\r']
    · rw [if_pos escaped, pieceChars_unit (by omega), ih, Option.map_some, Char.ofNat_toNat]
    · rw [if_neg escaped, pieceChars, ih, Option.map_some]

theorem readPieces_quoted (cs rest : List Char) :
    readPieces (cs.flatMap Json.escape ++ '"' :: rest) = some (cs.map Piece.ofChar, rest) := by
  induction cs with
  | nil => rw [List.flatMap_nil, List.nil_append, readPieces, List.map_nil]
  | cons c cs ih =>
    rw [List.flatMap_cons, List.append_assoc, readPieces_escape, ih, Option.map_some, List.map_cons]

/-- A string is read as it was written. -/
theorem readString_quoted (s : String) (rest : List Char) :
    readString (s.toList.flatMap Json.escape ++ '"' :: rest) = some (some s, rest) := by
  rw [readString, readPieces_quoted]
  simp only [Option.map_some, pieceChars_map, String.ofList_toList]

/-! ### Numbers -/

/-- A number ends where a part of a text ends: blanks, then a mark. -/
theorem closes_mark {blanks : List Char} (h : ∀ c ∈ blanks, isSpace c = true) {m : Char}
    (mark : m ∈ [',', ']', '\x7d']) (cs : List Char) : Closes (blanks ++ m :: cs) := by
  intro c first
  cases blanks with
  | nil =>
    cases first
    simp only [List.mem_cons, List.not_mem_nil, or_false] at mark
    rcases mark with rfl | rfl | rfl <;> decide
  | cons b bs =>
    cases first
    have space := h c List.mem_cons_self
    simp only [isSpace, Bool.or_eq_true, decide_eq_true_eq] at space
    rcases space with ((rfl | rfl) | rfl) | rfl <;> decide

theorem closes_comma (cs : List Char) : Closes (',' :: cs) :=
  closes_mark (show ∀ c ∈ ([] : List Char), isSpace c = true from nofun) (by decide) cs

theorem skip_begin {c : Char} (h : c = '-' ∨ isDigit c = true) (cs : List Char) :
    skip (c :: cs) = c :: cs := by
  refine skip_cons ?_ cs
  by_contra blank
  rw [Bool.not_eq_false] at blank
  simp only [isSpace, Bool.or_eq_true, decide_eq_true_eq] at blank
  rcases blank with ((rfl | rfl) | rfl) | rfl <;> exact absurd h (by decide)

end Document

/-! ### Values and the documents that show them -/

namespace Json

mutual

/-- The numbers in a value. -/
def numbers : Json → List Number
  | number n => [n]
  | array xs => itemNumbers xs
  | object fs => fieldNumbers fs
  | null => []
  | bool _ => []
  | string _ => []

def itemNumbers : List Json → List Number
  | [] => []
  | x :: xs => numbers x ++ itemNumbers xs

def fieldNumbers : List (String × Json) → List Number
  | [] => []
  | (_, v) :: fs => numbers v ++ fieldNumbers fs

end

mutual

/-- The document that shows a value part by part. -/
def document : Json → Document
  | null => .null
  | bool b => .bool b
  | number n => .number n.numeral
  | string s => .string (some s)
  | array xs => .array (itemDocuments xs)
  | object fs => .object (fieldDocuments fs)

def itemDocuments : List Json → List Document
  | [] => []
  | x :: xs => document x :: itemDocuments xs

def fieldDocuments : List (String × Json) → List (Option String × Document)
  | [] => []
  | (k, v) :: fs => (some k, document v) :: fieldDocuments fs

end

/-! ### Reading what was written -/

open Document

theorem readValue_array {fuel : Nat} {r cs : List Char} {c : Char} (first : skip r = c :: cs)
    (no_bracket : c ≠ ']') :
    readValue (fuel + 1) ('[' :: r) = (readItems fuel r).map fun (xs, r) => (.array xs, r) := by
  have same : skip (c :: cs) = skip r := by rw [← first, skip_skip]
  rw [readValue, skip_cons rfl]
  simp only [first]
  rw [← readItems_of_skip same]
  split
  · rename_i e
    exact absurd (List.cons.inj e).1 no_bracket
  · rfl

theorem readValue_object {fuel : Nat} {r cs : List Char} (first : skip r = '"' :: cs) :
    readValue (fuel + 1) ('\x7b' :: r) = (readFields fuel r).map fun (fs, r) => (.object fs, r) := by
  have same : skip ('"' :: cs) = skip r := by rw [← first, skip_skip]
  rw [readValue, skip_cons rfl]
  simp only [first]
  rw [← readFields_of_skip same]
  rfl

theorem readValue_number (fuel : Nat) (n : Number) {rest : List Char} (closes : Closes rest) :
    readValue (fuel + 1) (numberChars n ++ rest) = some (.number n.numeral, rest) := by
  have read := readNumeral_chars n.wellFormed_numeral closes
  obtain ⟨c, cs, begins, first⟩ := n.wellFormed_numeral.chars_eq_cons
  rw [begins, List.cons_append] at read
  rw [← n.chars_numeral, begins, List.cons_append]
  have differs {d : Char} {r : List Char} (e : c :: (cs ++ rest) = d :: r) :
      d = '-' ∨ isDigit d = true := by
    rw [← (List.cons.inj e).1]
    exact first
  rw [readValue, skip_begin first]
  split
  iterate 6
    rename_i e
    exact absurd (differs e) (by decide)
  rw [read]
  rfl

/-- The blanks of a text: those before an item, a field or a closing bracket at a depth, and those
between a field's colon and its value. -/
structure Layout where
  gap : Nat → List Char
  colonGap : List Char
  gap_blank : ∀ depth, ∀ c ∈ gap depth, isSpace c = true
  colonGap_blank : ∀ c ∈ colonGap, isSpace c = true

namespace Layout

/-- One item or field a line. -/
def lines : Layout where
  gap := newline
  colonGap := [' ']
  gap_blank depth c h := by
    rcases List.mem_cons.1 h with rfl | h
    · rfl
    · rw [List.eq_of_mem_replicate h]
      rfl
  colonGap_blank c h := by
    rw [List.mem_singleton.1 h]
    rfl

/-- No blanks. -/
def dense : Layout where
  gap _ := []
  colonGap := []
  gap_blank _ _ := nofun
  colonGap_blank _ := nofun

variable (l : Layout)

mutual

/-- The value with the blanks of a layout. -/
def chars (depth : Nat) : Json → List Char
  | array (x :: xs) => '[' :: itemChars (depth + 1) (x :: xs) ++ l.gap depth ++ [']']
  | object (f :: fs) => '\x7b' :: fieldChars (depth + 1) (f :: fs) ++ l.gap depth ++ ['\x7d']
  | array [] => ['[', ']']
  | object [] => ['\x7b', '\x7d']
  | null => "null".toList
  | bool b => boolChars b
  | number n => numberChars n
  | string s => quote s

def itemChars (depth : Nat) : List Json → List Char
  | [] => []
  | [x] => l.gap depth ++ chars depth x
  | x :: y :: xs => l.gap depth ++ chars depth x ++ ',' :: itemChars depth (y :: xs)

def fieldChars (depth : Nat) : List (String × Json) → List Char
  | [] => []
  | [(k, v)] => l.gap depth ++ quote k ++ ':' :: (l.colonGap ++ chars depth v)
  | (k, v) :: f :: fs =>
    l.gap depth ++ quote k ++ ':' :: (l.colonGap ++ chars depth v) ++
      ',' :: fieldChars depth (f :: fs)

end

mutual

theorem chars_lines (depth : Nat) : ∀ j : Json, lines.chars depth j = indentedChars depth j
  | null | bool _ | number _ | string _ | array [] | object [] => rfl
  | array (x :: xs) => by rw [chars, indentedChars, itemChars_lines, lines]
  | object (f :: fs) => by rw [chars, indentedChars, fieldChars_lines, lines]

theorem itemChars_lines (depth : Nat) :
    ∀ xs : List Json, lines.itemChars depth xs = indentedItems depth xs
  | [] => rfl
  | [x] => by rw [itemChars, indentedItems, chars_lines, lines]
  | x :: y :: xs => by rw [itemChars, indentedItems, chars_lines, itemChars_lines, lines]

theorem fieldChars_lines (depth : Nat) :
    ∀ fs : List (String × Json), lines.fieldChars depth fs = indentedFields depth fs
  | [] => rfl
  | [(k, v)] => by
    rw [fieldChars, indentedFields, chars_lines, lines]
    rfl
  | (k, v) :: f :: fs => by
    rw [fieldChars, indentedFields, chars_lines, fieldChars_lines, lines]
    rfl

end

mutual

theorem chars_dense (depth : Nat) : ∀ j : Json, dense.chars depth j = Json.chars j
  | null | bool _ | number _ | string _ | array [] | object [] => rfl
  | array (x :: xs) => by rw [chars, Json.chars, itemChars_dense, dense, List.append_nil]
  | object (f :: fs) => by rw [chars, Json.chars, fieldChars_dense, dense, List.append_nil]

theorem itemChars_dense (depth : Nat) :
    ∀ xs : List Json, dense.itemChars depth xs = Json.itemChars xs
  | [] => rfl
  | [x] => by rw [itemChars, Json.itemChars, chars_dense, dense, List.nil_append]
  | x :: y :: xs => by
    rw [itemChars, Json.itemChars, chars_dense, itemChars_dense, dense, List.nil_append]

theorem fieldChars_dense (depth : Nat) :
    ∀ fs : List (String × Json), dense.fieldChars depth fs = Json.fieldChars fs
  | [] => rfl
  | [(k, v)] => by
    rw [fieldChars, Json.fieldChars, chars_dense, dense, List.nil_append, List.nil_append]
  | (k, v) :: f :: fs => by
    rw [fieldChars, Json.fieldChars, chars_dense, fieldChars_dense, dense, List.nil_append,
      List.nil_append]

end

/-- No closing bracket and no blank stands before a value. -/
theorem chars_eq_cons (depth : Nat) : ∀ j : Json,
    ∃ c cs, l.chars depth j = c :: cs ∧ c ≠ ']' ∧ ∀ r, skip (c :: r) = c :: r
  | null => ⟨_, _, rfl, by decide, fun r => skip_cons rfl r⟩
  | bool true => ⟨_, _, rfl, by decide, fun r => skip_cons rfl r⟩
  | bool false => ⟨_, _, rfl, by decide, fun r => skip_cons rfl r⟩
  | string _ => ⟨_, _, rfl, by decide, fun r => skip_cons rfl r⟩
  | array [] => ⟨_, _, rfl, by decide, fun r => skip_cons rfl r⟩
  | array (_ :: _) => ⟨_, _, rfl, by decide, fun r => skip_cons rfl r⟩
  | object [] => ⟨_, _, rfl, by decide, fun r => skip_cons rfl r⟩
  | object (_ :: _) => ⟨_, _, rfl, by decide, fun r => skip_cons rfl r⟩
  | number n => by
    obtain ⟨c, cs, begins, first⟩ := n.wellFormed_numeral.chars_eq_cons
    rw [n.chars_numeral] at begins
    refine ⟨c, cs, begins, ?_, skip_begin first⟩
    rintro rfl
    exact absurd first (by decide)

/-- No closing bracket stands before the first item of a list. -/
theorem skip_itemChars (depth : Nat) (x : Json) (xs : List Json) (rest : List Char) :
    ∃ c cs, skip (l.itemChars depth (x :: xs) ++ rest) = c :: cs ∧ c ≠ ']' := by
  obtain ⟨c, cs, begins, no_bracket, stays⟩ := l.chars_eq_cons depth x
  cases xs with
  | nil =>
    refine ⟨c, cs ++ rest, ?_, no_bracket⟩
    rw [itemChars, List.append_assoc, skip_append (l.gap_blank depth), begins, List.cons_append,
      stays]
  | cons y ys =>
    refine ⟨c, cs ++ ',' :: l.itemChars depth (y :: ys) ++ rest, ?_, no_bracket⟩
    rw [itemChars, List.append_assoc, List.append_assoc, skip_append (l.gap_blank depth), begins]
    simp only [List.cons_append, List.append_assoc, stays]

theorem skip_fieldChars (depth : Nat) (f : String × Json) (fs : List (String × Json))
    (rest : List Char) : ∃ cs, skip (l.fieldChars depth (f :: fs) ++ rest) = '"' :: cs := by
  obtain ⟨k, v⟩ := f
  cases fs with
  | nil =>
    rw [fieldChars, List.append_assoc, List.append_assoc, skip_append (l.gap_blank depth), quote]
    exact ⟨_, skip_cons rfl _⟩
  | cons g gs =>
    rw [fieldChars, List.append_assoc, List.append_assoc, List.append_assoc,
      skip_append (l.gap_blank depth), quote]
    exact ⟨_, skip_cons rfl _⟩

/-- A field is read by its name, the colon and its value. -/
theorem readFields_named (fuel depth : Nat) (k : String) {cs r : List Char} {v : Document}
    (read : readValue fuel cs = some (v, r)) :
    readFields (fuel + 1) (l.gap depth ++ quote k ++ ':' :: (l.colonGap ++ cs)) =
      match skip r with
      | ',' :: r => (readFields fuel r).bind fun (fs, r) => some ((some k, v) :: fs, r)
      | '\x7d' :: r => some ([(some k, v)], r)
      | _ => none := by
  have blank : readValue fuel (l.colonGap ++ cs) = readValue fuel cs :=
    readValue_of_skip (skip_append l.colonGap_blank cs) fuel
  rw [List.append_assoc, readFields, skip_append (l.gap_blank depth), quote, List.cons_append,
    List.cons_append, skip_cons rfl]
  simp (disch := decide) only [List.append_assoc, List.singleton_append, readString_quoted,
    Option.bind_eq_bind, Option.bind_some, skip_cons, blank, read]
  all_goals rfl

/-! A value is read by recursion on the fuel, since the reader spends a unit at every step, also from
one item to the next. That the fuel lasts is seen from the lengths: with two units for each
character a value leaves one over, which pays for the step to it from the list that it is in. -/

mutual

/-- A value is read as its document, with nearly two units of fuel for each of its characters. -/
theorem readValue_chars (depth : Nat) : ∀ (j : Json) (fuel : Nat) {rest : List Char},
    Closes rest → 2 * (l.chars depth j).length ≤ fuel + 1 →
    readValue fuel (l.chars depth j ++ rest) = some (j.document, rest)
  | j, 0, rest, _, enough => by
    obtain ⟨c, cs, begins, -⟩ := l.chars_eq_cons depth j
    rw [begins, List.length_cons] at enough
    omega
  | null, fuel + 1, rest, _, _ => rfl
  | bool true, fuel + 1, rest, _, _ => rfl
  | bool false, fuel + 1, rest, _, _ => rfl
  | number n, fuel + 1, rest, closes, _ => readValue_number fuel n closes
  | string s, fuel + 1, rest, _, _ => by
    rw [chars, document, quote, List.cons_append, List.cons_append, List.append_assoc,
      readValue, skip_cons rfl]
    simp only [List.singleton_append, readString_quoted, Option.map_some]
  | array [], fuel + 1, rest, _, _ => rfl
  | array (x :: xs), fuel + 1, rest, _, enough => by
    obtain ⟨c, cs, first, no_bracket⟩ :=
      l.skip_itemChars (depth + 1) x xs (l.gap depth ++ ']' :: rest)
    have text : l.chars depth (array (x :: xs)) ++ rest =
        '[' :: (l.itemChars (depth + 1) (x :: xs) ++ (l.gap depth ++ ']' :: rest)) := by
      simp [chars]
    have smaller : 2 * (l.itemChars (depth + 1) (x :: xs)).length ≤ fuel := by
      rw [chars, List.length_append, List.length_append, List.length_cons] at enough
      simp only [List.length_singleton] at enough
      omega
    rw [text, readValue_array first no_bracket,
      readItems_chars (depth + 1) depth x xs fuel smaller, Option.map_some, document]
  | object [], fuel + 1, rest, _, _ => rfl
  | object (f :: fs), fuel + 1, rest, _, enough => by
    obtain ⟨cs, first⟩ := l.skip_fieldChars (depth + 1) f fs (l.gap depth ++ '\x7d' :: rest)
    have text : l.chars depth (object (f :: fs)) ++ rest =
        '\x7b' :: (l.fieldChars (depth + 1) (f :: fs) ++ (l.gap depth ++ '\x7d' :: rest)) := by
      simp [chars]
    have smaller : 2 * (l.fieldChars (depth + 1) (f :: fs)).length ≤ fuel := by
      rw [chars, List.length_append, List.length_append, List.length_cons] at enough
      simp only [List.length_singleton] at enough
      omega
    rw [text, readValue_object first,
      readFields_chars (depth + 1) depth f fs fuel smaller, Option.map_some, document]
termination_by structural _ fuel => fuel

/-- The items of a list are read to the bracket that closes it. -/
theorem readItems_chars (depth outer : Nat) : ∀ (x : Json) (xs : List Json) (fuel : Nat)
    {rest : List Char}, 2 * (l.itemChars depth (x :: xs)).length ≤ fuel →
    readItems fuel (l.itemChars depth (x :: xs) ++ (l.gap outer ++ ']' :: rest)) =
      some (itemDocuments (x :: xs), rest)
  | x, xs, 0, rest, enough => by
    obtain ⟨c, cs, begins, -⟩ := l.chars_eq_cons depth x
    cases xs <;> simp [itemChars, begins] at enough
  | x, [], fuel + 1, rest, enough => by
    rw [itemChars, List.length_append] at enough
    have read := readValue_chars depth x fuel
      (closes_mark (l.gap_blank outer) (m := ']') (by decide) rest) (by omega)
    rw [itemChars, List.append_assoc, readItems,
      readValue_of_skip (skip_append (l.gap_blank depth) _), read]
    simp (disch := decide) only [Option.bind_eq_bind, Option.bind_some,
      skip_append (l.gap_blank outer), skip_cons]
    rfl
  | x, y :: ys, fuel + 1, rest, enough => by
    rw [itemChars, List.length_append, List.length_append, List.length_cons] at enough
    have read := readValue_chars depth x fuel
      (closes_comma (l.itemChars depth (y :: ys) ++ (l.gap outer ++ ']' :: rest))) (by omega)
    have others : readItems fuel (l.itemChars depth (y :: ys) ++ (l.gap outer ++ ']' :: rest)) =
        some (itemDocuments (y :: ys), rest) :=
      readItems_chars depth outer y ys fuel (by omega)
    rw [itemChars, List.append_assoc, List.append_assoc, List.cons_append, readItems,
      readValue_of_skip (skip_append (l.gap_blank depth) _), read]
    simp (disch := decide) only [Option.bind_eq_bind, Option.bind_some, skip_cons, others]
    rfl
termination_by structural _ _ fuel => fuel

/-- The fields of an object are read to the brace that closes it. -/
theorem readFields_chars (depth outer : Nat) : ∀ (f : String × Json) (fs : List (String × Json))
    (fuel : Nat) {rest : List Char}, 2 * (l.fieldChars depth (f :: fs)).length ≤ fuel →
    readFields fuel (l.fieldChars depth (f :: fs) ++ (l.gap outer ++ '\x7d' :: rest)) =
      some (fieldDocuments (f :: fs), rest)
  | (k, v), fs, 0, rest, enough => by
    cases fs <;> simp [fieldChars] at enough
  | (k, v), [], fuel + 1, rest, enough => by
    rw [fieldChars, List.length_append, List.length_append, List.length_cons,
      List.length_append] at enough
    have read := readValue_chars depth v fuel
      (closes_mark (l.gap_blank outer) (m := '\x7d') (by decide) rest) (by omega)
    have text : l.fieldChars depth [(k, v)] ++ (l.gap outer ++ '\x7d' :: rest) =
        l.gap depth ++ quote k ++
          ':' :: (l.colonGap ++ (l.chars depth v ++ (l.gap outer ++ '\x7d' :: rest))) := by
      simp [fieldChars]
    rw [text, l.readFields_named fuel depth k read, skip_append (l.gap_blank outer), skip_cons rfl]
    rfl
  | (k, v), g :: gs, fuel + 1, rest, enough => by
    rw [fieldChars, List.length_append, List.length_append, List.length_append, List.length_cons,
      List.length_cons, List.length_append] at enough
    have read := readValue_chars depth v fuel
      (closes_comma (l.fieldChars depth (g :: gs) ++ (l.gap outer ++ '\x7d' :: rest))) (by omega)
    have others : readFields fuel
        (l.fieldChars depth (g :: gs) ++ (l.gap outer ++ '\x7d' :: rest)) =
          some (fieldDocuments (g :: gs), rest) :=
      readFields_chars depth outer g gs fuel (by omega)
    have text : l.fieldChars depth ((k, v) :: g :: gs) ++ (l.gap outer ++ '\x7d' :: rest) =
        l.gap depth ++ quote k ++ ':' :: (l.colonGap ++ (l.chars depth v ++
          ',' :: (l.fieldChars depth (g :: gs) ++ (l.gap outer ++ '\x7d' :: rest)))) := by
      simp [fieldChars]
    rw [text, l.readFields_named fuel depth k read, skip_cons rfl]
    simp only [others, Option.bind_some]
    rfl
termination_by structural _ _ fuel => fuel

end

/-- A text is the document that shows its value, whatever the layout. -/
theorem parse?_chars (j : Json) :
    Document.parse? (String.ofList (l.chars 0 j)) = some j.document := by
  have read := l.readValue_chars 0 j (2 * (l.chars 0 j).length + 1) Closes.nil (by omega)
  rw [List.append_nil] at read
  simp only [Document.parse?, String.toList_ofList, read]
  rfl

end Layout

/-- The indented text of a value is the document that shows it. -/
theorem parse?_indented (j : Json) : Document.parse? j.indented = some j.document := by
  rw [indented, ← Layout.chars_lines]
  exact Layout.lines.parse?_chars j

/-- The compact text of a value is the document that shows it. -/
theorem parse?_compact (j : Json) : Document.parse? j.compact = some j.document := by
  rw [compact, ← Layout.chars_dense 0]
  exact Layout.dense.parse?_chars j

end Json
end Steward
