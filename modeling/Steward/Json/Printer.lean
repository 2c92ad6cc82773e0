/-
# Writing JSON

Fields come in the order in which the value has them. Compact text has no blanks; indented text has
one item or field a line, two blanks deeper than what holds it, and nothing between empty brackets.
A string escapes the quote, the backslash and the control characters below U+0020 only.

Key definitions: `Json.compact`, `Json.indented`.
-/
import Steward.Json.Basic

namespace Steward
namespace Json

open Text

/-- A character as it stands between the quotes of a string. -/
def escape (c : Char) : List Char :=
  if c = '"' then ['\\', '"']
  else if c = '\\' then ['\\', '\\']
  else if c = '\x08' then ['\\', 'b']
  else if c = '\t' then ['\\', 't']
  else if c = '\n' then ['\\', 'n']
  else if c = '\x0c' then ['\\', 'f']
  else if c = '\r' then ['\\', 'r']
  else if c.toNat < 0x20 then ['\\', 'u', '0', '0', digit (c.toNat / 16), digit (c.toNat % 16)]
  else [c]

/-- A string with its quotes. -/
def quote (s : String) : List Char := '"' :: s.toList.flatMap escape ++ ['"']

/-- The digits of an integer, with its sign. -/
def intChars : Int → List Char
  | .ofNat n => natDigits 10 n
  | .negSucc n => '-' :: natDigits 10 (n + 1)

def numberChars : Number → List Char
  | .integer n => intChars n
  | .binary x => x.chars

def boolChars (b : Bool) : List Char := if b then "true".toList else "false".toList

mutual

/-- The value without blanks. -/
def chars : Json → List Char
  | null => "null".toList
  | bool b => boolChars b
  | number n => numberChars n
  | string s => quote s
  | array xs => '[' :: itemChars xs ++ [']']
  | object fs => '\x7b' :: fieldChars fs ++ ['\x7d']

def itemChars : List Json → List Char
  | [] => []
  | [x] => chars x
  | x :: y :: xs => chars x ++ ',' :: itemChars (y :: xs)

def fieldChars : List (String × Json) → List Char
  | [] => []
  | [(k, v)] => quote k ++ ':' :: chars v
  | (k, v) :: f :: fs => quote k ++ ':' :: chars v ++ ',' :: fieldChars (f :: fs)

end

/-- The compact text of a value. -/
def compact (j : Json) : String := String.ofList (chars j)

/-- A line break and the blanks that follow it at a depth. -/
def newline (depth : Nat) : List Char := '\n' :: List.replicate (2 * depth) ' '

mutual

/-- The value over several lines, its first line not indented. -/
def indentedChars (depth : Nat) : Json → List Char
  | array (x :: xs) => '[' :: indentedItems (depth + 1) (x :: xs) ++ newline depth ++ [']']
  | object (f :: fs) =>
    '\x7b' :: indentedFields (depth + 1) (f :: fs) ++ newline depth ++ ['\x7d']
  | array [] => ['[', ']']
  | object [] => ['\x7b', '\x7d']
  | null => "null".toList
  | bool b => boolChars b
  | number n => numberChars n
  | string s => quote s

def indentedItems (depth : Nat) : List Json → List Char
  | [] => []
  | [x] => newline depth ++ indentedChars depth x
  | x :: y :: xs => newline depth ++ indentedChars depth x ++ ',' :: indentedItems depth (y :: xs)

def indentedFields (depth : Nat) : List (String × Json) → List Char
  | [] => []
  | [(k, v)] => newline depth ++ quote k ++ ':' :: ' ' :: indentedChars depth v
  | (k, v) :: f :: fs =>
    newline depth ++ quote k ++ ':' :: ' ' :: indentedChars depth v ++
      ',' :: indentedFields depth (f :: fs)

end

/-- The indented text of a value. -/
def indented (j : Json) : String := String.ofList (indentedChars 0 j)

end Json
end Steward
