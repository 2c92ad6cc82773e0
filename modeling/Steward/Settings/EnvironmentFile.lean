/-
# Files that set variables

Each line of such a file is an assignment `NAME=value`, perhaps after the word `export`; blank lines
and lines that start with `#` say nothing. A value may be quoted in parts. Single quotes keep all
characters as they are; elsewhere a backslash escapes, and `$NAME` or `${NAME}` stand for the value
of another variable. Outside of quotes a blank ends the value, and only a comment may follow.

A quote that is open at the end of a line goes on in the next one. Whether one is open is told by a
scan of its own, which takes `#` for a comment only right after a single blank.

The lines are carried out one after another, up to the first that is no assignment. A variable that
is set already keeps its value, so the first assignment wins. No variable can be set to a text with
a NUL character.

Key definitions: `EnvironmentFile.Line`, `EnvironmentFile.lines`, `EnvironmentFile.fill`,
`EnvironmentFile.fileLines`, `EnvironmentFile.assign`.
-/
import Steward.Store.Files
import Steward.Text.Blank

namespace Steward
namespace EnvironmentFile

/-! ### Ends of lines -/

/-- What the scan for the end of a line is in. -/
inductive Scan where
  | outside
  | blank
  | escape
  | single
  | singleEscape
  | double
  | doubleEscape
deriving DecidableEq

/-- What the scan is in after another character. -/
def Scan.next (q : Scan) (c : Char) : Scan :=
  let opened : Scan :=
    if c = '\\' then .escape
    else if c = '"' then .double
    else if c = '\'' then .single
    else .outside
  match q with
  | outside => if Text.isBlank c ∧ c ≠ '\n' ∧ c ≠ '\r' then .blank else opened
  | blank => opened
  | escape => .outside
  | single => if c = '\\' then .singleEscape else if c = '\'' then .outside else .single
  | singleEscape => .single
  | double => if c = '\\' then .doubleEscape else if c = '"' then .outside else .double
  | doubleEscape => .double

/-- Scans a line: the characters before a comment and, if there is no comment, what the scan is in
at the end. -/
def scanLine : Scan → List Char → List Char × Option Scan
  | q, [] => ([], some q)
  | q, c :: cs =>
    if q = .blank ∧ c = '#' then ([], none)
    else
      let (kept, last) := scanLine (q.next c) cs
      (c :: kept, last)

/-- The lines of a text, each with its line feed. -/
def physicalLines (cs : List Char) : List (List Char) :=
  let push (line : List Char) (lines : List (List Char)) :=
    if line.isEmpty then lines else line :: lines
  let (line, lines) := cs.foldr
    (fun c (line, lines) =>
      if c = '\n' then (['\n'], push line lines) else (c :: line, lines))
    (([] : List Char), ([] : List (List Char)))
  push line lines

/-- The line without the line feed at its end, and a carriage return before that. -/
def withoutBreak (cs : List Char) : List Char :=
  match cs.reverse with
  | '\n' :: '\r' :: r => r.reverse
  | '\n' :: r => r.reverse
  | _ => cs

/-- Joins lines while a quote is open; `held` is what there is of the current one. The last line may
not end inside of quotes, after a backslash or after a blank; if it does, there is nothing of it. -/
def joinLines : Scan → (held : List Char) → List (List Char) → List (Option (List Char))
  | q, _, [] => if q = .outside then [] else [none]
  | q, held, line :: lines =>
    let text := held ++ line
    if (Text.trimLeft text).head? = some '#' then joinLines .outside [] lines
    else
      match scanLine q line with
      | (kept, none) => some (held ++ kept) :: joinLines .outside [] lines
      | (_, some .outside) => some (withoutBreak text) :: joinLines .outside [] lines
      | (_, some q) => joinLines q text lines

/-! ### Values -/

/-- A part of a value: a character, or the mention of a variable, which stands for its value. -/
inductive Piece where
  | char (c : Char)
  | mention (name : String)
deriving DecidableEq

/-- The characters of a part. A variable that has no value stands for nothing. -/
def Piece.chars (lookup : String → Option String) : Piece → List Char
  | char c => [c]
  | mention name => ((lookup name).getD "").toList

/-- The text of a value. -/
def fill (lookup : String → Option String) (ps : List Piece) : String :=
  String.ofList (ps.flatMap (Piece.chars lookup))

/-- What the reader of a value is in. Names of variables are gathered, the last character first. -/
inductive Mode where
  | text (quoted : Bool)
  | single
  | escape (quoted : Bool)
  | name (quoted : Bool) (chars : List Char)
  | braced (quoted : Bool) (chars : List Char)
  | ended
deriving DecidableEq

/-- The mention of the variable whose name was gathered. -/
def gathered (chars : List Char) : Piece := .mention (String.ofList chars.reverse)

/-- The characters that stand for themselves after a backslash, and the line feed. -/
def escaped? (c : Char) : Option Char :=
  if ['\\', '\'', '"', '$', ' '].contains c then some c else if c = 'n' then some '\n' else none

/-- Reads a value. A name without braces goes on over what counts as letters and digits; the
character after it counts as text whatever it is, unless it is another `$`. -/
def pieces? (letter : Char → Bool) : Mode → List Char → Option (List Piece)
  | .text false, [] | .escape false, [] | .ended, [] => some []
  | .name false name, [] => some [gathered name]
  | _, [] => none
  | .ended, c :: cs =>
    if c = ' ' ∨ c = '\t' then pieces? letter .ended cs else if c = '#' then some [] else none
  | .escape quoted, c :: cs =>
    (escaped? c).bind fun c => (pieces? letter (.text quoted) cs).map (.char c :: ·)
  | .single, c :: cs =>
    if c = '\'' then pieces? letter (.text false) cs
    else (pieces? letter .single cs).map (.char c :: ·)
  | .name quoted name, c :: cs =>
    if letter c then pieces? letter (.name quoted (c :: name)) cs
    else if c = '\x7b' ∧ name.isEmpty then pieces? letter (.braced quoted []) cs
    else
      (if c = '$' then pieces? letter (.name quoted []) cs
       else (pieces? letter (.text quoted) cs).map (.char c :: ·)).map (gathered name :: ·)
  | .braced quoted name, c :: cs =>
    if c = '\x7d' then (pieces? letter (.text quoted) cs).map (gathered name :: ·)
    else pieces? letter (.braced quoted (c :: name)) cs
  | .text quoted, c :: cs =>
    if c = '$' then pieces? letter (.name quoted []) cs
    else if c = '\\' then pieces? letter (.escape quoted) cs
    else if c = '"' then pieces? letter (.text !quoted) cs
    else if !quoted ∧ c = '\'' then pieces? letter .single cs
    else if !quoted ∧ (c = ' ' ∨ c = '\t') then pieces? letter .ended cs
    else (pieces? letter (.text quoted) cs).map (.char c :: ·)

/-! ### Lines -/

/-- The name that characters start with, and the characters after it and any blanks. -/
def takeName : List Char → Option (List Char × List Char)
  | [] => none
  | c :: cs =>
    if c.isAlpha ∨ c = '_' then
      let name := c :: cs.takeWhile fun c => c.isAlphanum || c == '_' || c == '.'
      some (name, Text.trimLeft ((c :: cs).drop name.length))
    else none

/-- The name that is assigned to, and the characters after the equals sign. -/
def takeTarget (cs : List Char) : Option (List Char × List Char) :=
  match takeName cs with
  | some (name, '=' :: r) => some (name, r)
  | some (name, r) =>
    if name = "export".toList then
      match takeName r with
      | some (name, '=' :: r) => some (name, r)
      | _ => none
    else none
  | none => none

/-- What a line is. -/
inductive Line where
  | blank
  | assignment (name : String) (value : List Piece)
  | unreadable (detail : String)
deriving DecidableEq

/-- The line that these characters are. -/
def Line.ofChars (letter : Char → Bool) (cs : List Char) : Line :=
  match Text.trimBoth cs with
  | [] | '#' :: _ => blank
  | cs =>
    match takeTarget cs with
    | none => unreadable "<detail>"
    | some (name, r) =>
      let value :=
        match Text.trimLeft r with
        | [] | '#' :: _ => some []
        | r => pieces? letter (.text false) r
      match value with
      | some ps => assignment (String.ofList name) ps
      | none => unreadable "<detail>"

/-- The lines of a text; a byte order mark in front is skipped. -/
def lines (letter : Char → Bool) (text : String) : List Line :=
  let cs := match text.toList with
    | '\ufeff' :: r => r
    | cs => cs
  (joinLines .outside [] (physicalLines cs)).map fun
    | some cs => .ofChars letter cs
    | none => .unreadable "<detail>"

/-- The lines of a file, none if it is absent. They are read one by one: those in front of the place
where reading fails are lines like any other. -/
def fileLines (letter : Char → Bool) : Contents → List Line
  | .absent => []
  | .text s => lines letter s
  | .unreadable front detail => lines letter front ++ [.unreadable detail]

/-! ### Assignments -/

/-- Why the lines are not all carried out: one cannot be read, or a variable without a value is to be
set to a text with a NUL character. -/
inductive Fault where
  | unreadable (detail : String)
  | nul (name value : String)
deriving DecidableEq

/-- Lets lines assign to variables that have no value. -/
def assign : NameMap String → List Line → Except Fault (NameMap String)
  | vars, [] => .ok vars
  | vars, .blank :: ls => assign vars ls
  | _, .unreadable detail :: _ => .error (.unreadable detail)
  | vars, .assignment name ps :: ls =>
    let v := fill vars.get? ps
    if vars.contains name then assign vars ls
    else if v.toList.contains '\x00' then .error (.nul name v)
    else assign (vars.insert name v) ls

end EnvironmentFile
end Steward
