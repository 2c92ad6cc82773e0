/-
# Numbers are read from their digits

A numeral that follows the grammar is read from its characters, whatever comes after them that is no
part of a number (`Document.readNumeral_chars`). Every number is written as such a numeral, be it an
integer, a double between 10⁻⁵ and 10¹⁶ or one with an exponent (`Number.chars_numeral`). Whether the
numeral stands for the number again is another question; for an integer of 64 bits it does
(`Number.number?_integer`).

Key definitions: `Numeral.chars`, `Numeral.WellFormed`, `Number.numeral`.
Key theorems: `Document.readNumeral_chars`, `Number.wellFormed_numeral`, `Number.chars_numeral`,
`Number.number?_integer`.
-/
import Steward.Json.Document
import Steward.Json.Printer
import Steward.Proofs.Decimal.Shortest

namespace Steward

open Text

/-- Whether the characters are digits, at least one. -/
def Text.Digits (ds : List Char) : Prop := ds ≠ [] ∧ ∀ c ∈ ds, isDigit c = true

theorem Text.digits_natDigits (n : Nat) : Digits (natDigits 10 n) :=
  ⟨natDigits_ne_nil n, fun _ => isDigit_of_mem_natDigits⟩

theorem Text.Significant.digits {ds : List Char} (h : Significant ds) : Digits ds := ⟨h.1, h.2.1⟩

theorem Text.Digits.append {ds : List Char} (h : Digits ds) {es : List Char}
    (digits : ∀ c ∈ es, isDigit c = true) : Digits (ds ++ es) :=
  ⟨List.append_ne_nil_of_left_ne_nil h.1 es,
    fun c hc => (List.mem_append.1 hc).elim (h.2 c) (digits c)⟩

namespace Numeral

def fractionChars : Option (List Char) → List Char
  | some ds => '.' :: ds
  | none => []

def exponentChars : Option (Bool × List Char) → List Char
  | some (negative, ds) => 'e' :: (if negative then '-' else '+') :: ds
  | none => []

/-- The characters of a number, its exponent with a sign. -/
def chars (n : Numeral) : List Char :=
  (if n.negative then ['-'] else []) ++
    (n.whole ++ (fractionChars n.fraction ++ exponentChars n.exponent))

/-- Whether a number follows the grammar: digits in every part that it has, and a zero before the
point alone. -/
structure WellFormed (n : Numeral) : Prop where
  whole : Digits n.whole
  alone : n.whole.head? = some '0' → n.whole.length = 1
  fraction : ∀ ds ∈ n.fraction, Digits ds
  exponent : ∀ p ∈ n.exponent, Digits p.2

/-- The characters that a number is made of. -/
def Part (c : Char) : Prop := isDigit c = true ∨ c ∈ ['-', '+', '.', 'e']

theorem WellFormed.part_of_mem {n : Numeral} (h : n.WellFormed) {c : Char} (mem : c ∈ n.chars) :
    Part c := by
  obtain ⟨negative, whole, fraction, exponent⟩ := n
  simp only [chars, List.mem_append] at mem
  rcases mem with sign | whole | point | e
  · cases negative
    · cases sign
    · rw [List.mem_singleton.1 sign]
      exact .inr (by decide)
  · exact .inl (h.whole.2 c whole)
  · cases fraction with
    | none => cases point
    | some ds =>
      rcases List.mem_cons.1 point with rfl | digit
      · exact .inr (by decide)
      · exact .inl ((h.fraction ds rfl).2 c digit)
  · cases exponent with
    | none => cases e
    | some p =>
      rcases List.mem_cons.1 e with rfl | e
      · exact .inr (by decide)
      · rcases List.mem_cons.1 e with rfl | digit
        · split <;> exact .inr (by decide)
        · exact .inl ((h.exponent p rfl).2 c digit)

/-- A number begins with a digit or a sign. -/
theorem WellFormed.chars_eq_cons {n : Numeral} (h : n.WellFormed) :
    ∃ c cs, n.chars = c :: cs ∧ (c = '-' ∨ isDigit c = true) := by
  obtain ⟨c, cs, begins, digit⟩ := eq_cons_of_digits h.whole.1 h.whole.2
  rw [chars, begins]
  cases n.negative
  · exact ⟨c, _, rfl, .inr digit⟩
  · exact ⟨'-', _, rfl, .inl rfl⟩

end Numeral

/-! ### Reading -/

namespace Document

open Numeral

/-- Whether the characters end a number: no part of one comes next. -/
def Closes (cs : List Char) : Prop :=
  ∀ c, cs.head? = some c → isDigit c = false ∧ c ≠ '.' ∧ c ≠ 'e' ∧ c ≠ 'E'

theorem Closes.nil : Closes [] := nofun

theorem readDigits_append {ds : List Char} (h : Digits ds) {rest : List Char} (ends : Ends rest) :
    readDigits (ds ++ rest) = some (ds, rest) := by
  have digits : (ds ++ rest).takeWhile isDigit = ds := takeWhile_digits h.2 ends
  have some_digit : ¬ ds.isEmpty = true := by
    rw [List.isEmpty_iff]
    exact h.1
  simp only [readDigits, digits, if_neg some_digit, List.drop_left']

/-- No digit and no point stands before an exponent. -/
theorem head_exponentChars {e : Option (Bool × List Char)} {rest : List Char} (h : Closes rest)
    {c : Char} (first : (exponentChars e ++ rest).head? = some c) : isDigit c = false ∧ c ≠ '.' := by
  cases e with
  | none => exact ⟨(h c first).1, (h c first).2.1⟩
  | some p =>
    rw [← Option.some.inj first]
    decide

theorem readFraction_append {f : Option (List Char)} (h : ∀ ds ∈ f, Digits ds) {rest : List Char}
    (ends : ∀ c, rest.head? = some c → isDigit c = false ∧ c ≠ '.') :
    readFraction (fractionChars f ++ rest) = some (f, rest) := by
  cases f with
  | some ds =>
    rw [fractionChars, List.cons_append, readFraction,
      readDigits_append (h ds rfl) fun c first => (ends c first).1, Option.map_some]
  | none =>
    rw [fractionChars, List.nil_append]
    cases rest with
    | nil => rfl
    | cons c cs =>
      rw [readFraction]
      rintro r ⟨⟩
      exact (ends '.' rfl).2 rfl

theorem readExponent_append {e : Option (Bool × List Char)} (h : ∀ p ∈ e, Digits p.2)
    {rest : List Char} (closes : Closes rest) :
    readExponent (exponentChars e ++ rest) = some (e, rest) := by
  have ends : Ends rest := fun c first => (closes c first).1
  cases e with
  | some p =>
    obtain ⟨negative, ds⟩ := p
    have read := readDigits_append (h (negative, ds) rfl) ends
    cases negative <;>
      simp [exponentChars, readExponent, read]
  | none =>
    rw [exponentChars, List.nil_append]
    cases rest with
    | nil => rfl
    | cons c cs =>
      obtain ⟨-, -, small, large⟩ := closes c rfl
      unfold readExponent
      exact if_neg (not_or.2 ⟨small, large⟩)

/-- A number is read from its characters. -/
theorem readNumeral_chars {n : Numeral} (h : n.WellFormed) {rest : List Char}
    (closes : Closes rest) : readNumeral (n.chars ++ rest) = some (n, rest) := by
  obtain ⟨negative, whole, fraction, exponent⟩ := n
  have alone : ¬ (whole.head? = some '0' ∧ whole.length > 1) := by
    rintro ⟨zero, long⟩
    have one := h.alone zero
    simp only at one
    omega
  have ends : Ends (fractionChars fraction ++ (exponentChars exponent ++ rest)) := by
    intro c first
    cases fraction with
    | some ds =>
      rw [← Option.some.inj first]
      decide
    | none => exact (head_exponentChars closes first).1
  have digits : readDigits (whole ++ (fractionChars fraction ++ (exponentChars exponent ++ rest))) =
      some (whole, fractionChars fraction ++ (exponentChars exponent ++ rest)) :=
    readDigits_append h.whole ends
  have point : readFraction (fractionChars fraction ++ (exponentChars exponent ++ rest)) =
      some (fraction, exponentChars exponent ++ rest) :=
    readFraction_append h.fraction fun _ => head_exponentChars closes
  have power : readExponent (exponentChars exponent ++ rest) = some (exponent, rest) :=
    readExponent_append h.exponent closes
  have unsigned (ds r : List Char) : whole ++ ds = '-' :: r → False := by
    obtain ⟨c, cs, begins, digit⟩ := eq_cons_of_digits h.whole.1 h.whole.2
    simp only at begins
    rw [begins]
    rintro ⟨⟩
    exact absurd digit (by decide)
  cases negative with
  | true =>
    simp only [Numeral.chars, if_true, List.nil_append, List.append_assoc, List.cons_append,
      readNumeral, digits, Option.bind_eq_bind, Option.bind_some, if_neg alone, point, power]
  | false =>
    simp only [Numeral.chars, Bool.false_eq_true, if_false, List.nil_append, List.append_assoc]
    rw [readNumeral]
    · simp only [digits, Option.bind_eq_bind, Option.bind_some, if_neg alone, point, power]
    · exact unsigned _

end Document

/-! ### Every number is written as a numeral -/

namespace Binary64

/-- A double between 10⁻⁵ and 10¹⁶ is written with a point. -/
theorem positional_eq {ds : List Char} (h : Significant ds) (point : Int) :
    ∃ whole fraction, Digits whole ∧ (whole.head? = some '0' → whole.length = 1) ∧
      Digits fraction ∧ positional ds point = whole ++ '.' :: fraction := by
  have zeros : ∀ (k : Nat), ∀ c ∈ List.replicate k '0', isDigit c = true := by
    intro k c hc
    rw [List.eq_of_mem_replicate hc]
    rfl
  obtain ⟨c, cs, rfl⟩ := List.exists_cons_of_ne_nil h.1
  have first : some c ≠ some '0' := h.2.2
  unfold positional
  split
  · refine ⟨['0'], List.replicate (-point).toNat '0' ++ c :: cs, by simp [Digits, isDigit],
      fun _ => rfl, ⟨by simp, ?_⟩, rfl⟩
    exact fun d hd => (List.mem_append.1 hd).elim (zeros _ d) (h.2.1 d)
  · split
    · refine ⟨c :: cs ++ List.replicate (point - (c :: cs).length).toNat '0', ['0'],
        h.digits.append (zeros _), fun zero => absurd zero first, by simp [Digits, isDigit], ?_⟩
      simp
    · rename_i pos short
      obtain ⟨k, rfl⟩ : ∃ k : Nat, point = (k + 1 : Nat) := ⟨(point - 1).toNat, by omega⟩
      refine ⟨(c :: cs).take (k + 1), (c :: cs).drop (k + 1),
        ⟨by simp, fun d hd => h.2.1 d (List.mem_of_mem_take hd)⟩, fun zero => absurd zero first,
        ⟨?_, fun d hd => h.2.1 d (List.mem_of_mem_drop hd)⟩, rfl⟩
      rw [Ne, List.drop_eq_nil_iff]
      omega

/-- Any other is written with an exponent. -/
theorem scientific_eq {ds : List Char} (h : Significant ds) (e : Int) :
    ∃ c fraction, isDigit c = true ∧ (∀ ds ∈ fraction, Digits ds) ∧
      scientific ds e = c :: (Numeral.fractionChars fraction ++
        Numeral.exponentChars (some (decide (e < 0), natDigits 10 e.natAbs))) := by
  obtain ⟨c, cs, rfl⟩ := List.exists_cons_of_ne_nil h.1
  have first := h.2.1 c List.mem_cons_self
  have others : ∀ d ∈ cs, isDigit d = true := fun d hd => h.2.1 d (List.mem_cons_of_mem _ hd)
  unfold scientific
  cases cs with
  | nil => exact ⟨c, none, first, by simp, by simp [Numeral.fractionChars, Numeral.exponentChars]⟩
  | cons d cs =>
    exact ⟨c, some (d :: cs), first, by simpa [Digits] using others,
      by simp [Numeral.fractionChars, Numeral.exponentChars]⟩

theorem exists_unsigned {ds : List Char} (h : Significant ds) (point : Int) :
    ∃ m : Numeral, m.WellFormed ∧
      (if -5 < point ∧ point ≤ 16 then positional ds point else scientific ds (point - 1)) =
        m.whole ++ (Numeral.fractionChars m.fraction ++ Numeral.exponentChars m.exponent) := by
  split
  · obtain ⟨whole, fraction, digits, alone, fraction_digits, text⟩ := positional_eq h point
    refine ⟨⟨false, whole, some fraction, none⟩,
      ⟨digits, alone, by simpa using fraction_digits, nofun⟩, ?_⟩
    rw [text, Numeral.exponentChars, List.append_nil, Numeral.fractionChars]
  · obtain ⟨c, fraction, first, fraction_digits, text⟩ := scientific_eq h (point - 1)
    refine ⟨⟨false, [c], fraction, some _⟩,
      ⟨by simpa [Digits] using first, fun _ => rfl, fraction_digits, ?_⟩, text⟩
    simpa using digits_natDigits _

end Binary64

namespace Number

/-- The digits that a number is written with. -/
def numeral (n : Number) : Numeral :=
  match Document.readNumeral (Json.numberChars n) with
  | some (m, _) => m
  | none => ⟨false, [], none, none⟩

theorem numeral_of_chars {n : Number} {m : Numeral} (h : m.WellFormed)
    (written : Json.numberChars n = m.chars) : n.numeral = m := by
  have read := Document.readNumeral_chars h Document.Closes.nil
  rw [List.append_nil] at read
  rw [numeral, written, read]

theorem wellFormed_integer (n : Int) :
    Numeral.WellFormed ⟨decide (n < 0), natDigits 10 n.natAbs, none, none⟩ where
  whole := digits_natDigits n.natAbs
  alone := head_natDigits
  fraction := nofun
  exponent := nofun

theorem numberChars_integer (n : Int) : Json.numberChars (integer n) =
    Numeral.chars ⟨decide (n < 0), natDigits 10 n.natAbs, none, none⟩ := by
  cases n with
  | ofNat k =>
    simp [Json.numberChars, Json.intChars, Numeral.chars, Numeral.fractionChars,
      Numeral.exponentChars]
  | negSucc k =>
    simp [Json.numberChars, Json.intChars, Numeral.chars, Numeral.fractionChars,
      Numeral.exponentChars]

theorem exists_numeral_binary (x : Binary64) :
    ∃ m : Numeral, m.WellFormed ∧ Json.numberChars (binary x) = m.chars := by
  simp only [Json.numberChars, Binary64.chars]
  by_cases zero : x.isZero = true
  · refine ⟨⟨x.negative, ['0'], some ['0'], none⟩, ⟨?_, fun _ => rfl, ?_, nofun⟩, ?_⟩
    · simp [Digits, isDigit]
    · simp [Digits, isDigit]
    · rw [if_pos zero]
      rfl
  · have pos := Shortest.decimal_pos (Bool.eq_false_iff.2 zero)
    obtain ⟨m, h, text⟩ := Binary64.exists_unsigned (Binary64.significant_stripZeros pos) _
    refine ⟨{ m with negative := x.negative }, ⟨h.whole, h.alone, h.fraction, h.exponent⟩, ?_⟩
    rw [if_neg zero, text]
    rfl

theorem exists_numeral : ∀ n : Number, ∃ m : Numeral, m.WellFormed ∧ Json.numberChars n = m.chars
  | integer n => ⟨_, wellFormed_integer n, numberChars_integer n⟩
  | binary x => exists_numeral_binary x

theorem wellFormed_numeral (n : Number) : n.numeral.WellFormed := by
  obtain ⟨m, h, written⟩ := exists_numeral n
  rwa [numeral_of_chars h written]

/-- A number is written as its numeral. -/
theorem chars_numeral (n : Number) : n.numeral.chars = Json.numberChars n := by
  obtain ⟨m, h, written⟩ := exists_numeral n
  rw [numeral_of_chars h written, written]

theorem numeral_integer (n : Int) :
    (integer n).numeral = ⟨decide (n < 0), natDigits 10 n.natAbs, none, none⟩ :=
  numeral_of_chars (wellFormed_integer n) (numberChars_integer n)

/-- The digits of an integer of 64 bits, signed or not, stand for it. -/
theorem number?_integer {n : Int} (low : -(UInt64.size / 2 : Nat) ≤ n) (high : n < UInt64.size) :
    (integer n).numeral.number? = some (integer n) := by
  rw [numeral_integer, Numeral.number?]
  simp only [ofDigits_natDigits, Option.isNone_none, true_and, decide_eq_true_eq]
  by_cases negative : n < 0
  · have value : -(n.natAbs : Int) = n := by omega
    have fits : 0 < n.natAbs ∧ n.natAbs ≤ UInt64.size / 2 := by omega
    simp only [if_pos negative, if_pos fits, value]
  · have value : (n.natAbs : Int) = n := by omega
    have fits : n.natAbs < UInt64.size := by omega
    simp only [if_neg negative, if_pos fits, value]

end Number
end Steward
