/-
# Blank characters, trimming and letters without case

Names, settings and whole documents are trimmed of blanks before they are compared or read. A blank
is a character with Unicode's `White_Space` property; letters are folded in ASCII only, so `İ` keeps
its case while `I` does not.

Key definitions: `isBlank`, `trim`, `lower`, `sameLetters`, `normalize`.
-/
namespace Steward
namespace Text

/-- The characters with Unicode's `White_Space` property. -/
def isBlank (c : Char) : Bool :=
  let n := c.toNat
  (0x09 ≤ n && n ≤ 0x0D) || n == 0x20 || n == 0x85 || n == 0xA0 || n == 0x1680 ||
    (0x2000 ≤ n && n ≤ 0x200A) || n == 0x2028 || n == 0x2029 || n == 0x202F || n == 0x205F ||
    n == 0x3000

/-- The characters without the blanks they start with. -/
def trimLeft (cs : List Char) : List Char := cs.dropWhile isBlank

/-- The characters without the blanks at either end. -/
def trimBoth (cs : List Char) : List Char := (trimLeft (trimLeft cs).reverse).reverse

/-- The text without the blanks at either end. -/
def trim (s : String) : String := String.ofList (trimBoth s.toList)

/-- Whether every character of the text is blank; so is a text with none. -/
def allBlank (s : String) : Bool := s.toList.all isBlank

/-- The text with `A` to `Z` in lower case and every other character as it is. -/
def lower (s : String) : String := String.ofList (s.toList.map Char.toLower)

/-- Whether two texts agree but for the case of ASCII letters. -/
def sameLetters (s t : String) : Bool := lower s == lower t

/-- The form under which two names count as one identity: trimmed, then folded. -/
def normalize (name : String) : String := lower (trim name)

example : normalize "\u00a0 Sensor-\u212a\n" = "sensor-\u212a" := by decide
example : isBlank '\u200b' = false := rfl

end Text
end Steward
