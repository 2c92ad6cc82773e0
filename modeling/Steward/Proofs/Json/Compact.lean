/-
# What compact text tells apart

Equal values may be written in two ways, because a zero shows its sign. There is no other way: the
compact texts of equal values are the same exactly if the zeros in them have the same signs, one
after the other (`Json.chars_eq_iff`). Both the text and the signs are put together from those of
the parts, so either is compared from the left, with whatever comes after a part left open.

A text never has the null character in it, since strings escape it (`Json.nul_not_mem_chars`).

Key definitions: `Json.zeroSigns`.
Key theorems: `Json.eq_of_chars`, `Json.eq_of_zeroSigns`, `Json.chars_eq_iff`,
`Json.nul_not_mem_chars`.
-/
import Steward.Proofs.Json.Reading

namespace Steward

open Text

/-! ### Zeros -/

/-- Equal doubles are the same unless they are zeros. -/
theorem Binary64.eq_or_zeros {x y : Binary64} (like : x.same y = true) :
    x = y ∨ ∃ s s', x = zero s ∧ y = zero s' := by
  have of_isZero : ∀ {x : Binary64}, x.isZero = true → x = zero x.negative := by
    rintro ⟨negative, exponent, fraction, _, _⟩ h
    simp only [isZero, Bool.and_eq_true, beq_iff_eq] at h
    obtain ⟨rfl, rfl⟩ := h
    rfl
  simp only [same, Bool.or_eq_true, beq_iff_eq, Bool.and_eq_true] at like
  rcases like with same | ⟨zero, zero'⟩
  · exact .inl same
  · exact .inr ⟨_, _, of_isZero zero, of_isZero zero'⟩

theorem Binary64.chars_zero (s : Bool) :
    (zero s).chars = (if s then ['-'] else []) ++ ['0', '.', '0'] := rfl

namespace Number

/-- The sign of a zero, if the number is one that has a sign. -/
def zeroSigns : Number → List Bool
  | .integer _ => []
  | .binary x => if x.isZero then [x.negative] else []

variable {m n : Number}

/-- Equal numbers that are written alike are the same, whatever comes after them. -/
theorem eq_of_chars {r r' : List Char} (like : m.same n = true)
    (h : Json.numberChars m ++ r = Json.numberChars n ++ r') : m = n ∧ r = r' := by
  cases m <;> cases n <;> simp only [same, Bool.false_eq_true, beq_iff_eq] at like
  case integer.integer =>
    subst like
    exact ⟨rfl, List.append_cancel_left h⟩
  case binary.binary =>
    rcases Binary64.eq_or_zeros like with rfl | ⟨s, s', rfl, rfl⟩
    · exact ⟨rfl, List.append_cancel_left h⟩
    · rw [Json.numberChars, Json.numberChars, Binary64.chars_zero, Binary64.chars_zero] at h
      cases s <;> cases s' <;> simp at h <;> exact ⟨rfl, h⟩

/-- Equal numbers whose zeros have the same sign are the same. -/
theorem eq_of_zeroSigns {r r' : List Bool} (like : m.same n = true)
    (h : m.zeroSigns ++ r = n.zeroSigns ++ r') : m = n ∧ r = r' := by
  cases m <;> cases n <;> simp only [same, Bool.false_eq_true, beq_iff_eq] at like
  case integer.integer =>
    subst like
    exact ⟨rfl, h⟩
  case binary.binary =>
    rcases Binary64.eq_or_zeros like with rfl | ⟨s, s', rfl, rfl⟩
    · exact ⟨rfl, List.append_cancel_left h⟩
    · obtain ⟨rfl, rest⟩ := List.cons.inj h
      exact ⟨rfl, rest⟩

end Number

namespace Json

/-- The signs of the zeros in a value, in the order in which they are written. -/
def zeroSigns (j : Json) : List Bool := j.numbers.flatMap Number.zeroSigns

/-! ### Values that are written alike -/

mutual

/-- Equal values that are written alike are the same, whatever comes after them. -/
theorem eq_of_chars : ∀ (a b : Json) {r r' : List Char}, a.same b = true →
    chars a ++ r = chars b ++ r' → a = b ∧ r = r'
  | a, b, r, r', like, h => by
    cases a <;> cases b <;> simp only [same, Bool.false_eq_true, beq_iff_eq] at like
    case null.null => exact ⟨rfl, List.append_cancel_left h⟩
    case bool.bool =>
      subst like
      exact ⟨rfl, List.append_cancel_left h⟩
    case string.string =>
      subst like
      exact ⟨rfl, List.append_cancel_left h⟩
    case number.number m n =>
      obtain ⟨rfl, rest⟩ := Number.eq_of_chars like h
      exact ⟨rfl, rest⟩
    case array.array xs ys =>
      simp only [chars, List.cons_append, List.append_assoc, List.cons.injEq, true_and] at h
      obtain ⟨rfl, rest⟩ := eq_of_itemChars xs ys like h
      exact ⟨rfl, (List.cons.inj rest).2⟩
    case object.object fs gs =>
      simp only [chars, List.cons_append, List.append_assoc, List.cons.injEq, true_and] at h
      obtain ⟨rfl, rest⟩ := eq_of_fieldChars fs gs like h
      exact ⟨rfl, (List.cons.inj rest).2⟩

theorem eq_of_itemChars : ∀ (as bs : List Json) {r r' : List Char}, sameItems as bs = true →
    itemChars as ++ r = itemChars bs ++ r' → as = bs ∧ r = r'
  | [], [], _, _, _, h => ⟨rfl, h⟩
  | [], _ :: _, _, _, like, _ | _ :: _, [], _, _, like, _ => nomatch like
  | [a], [b], _, _, like, h => by
    rw [sameItems, Bool.and_eq_true] at like
    obtain ⟨rfl, rest⟩ := eq_of_chars a b like.1 h
    exact ⟨rfl, rest⟩
  | [_], _ :: _ :: _, _, _, like, _ | _ :: _ :: _, [_], _, _, like, _ => by
    rw [sameItems, Bool.and_eq_true] at like
    exact nomatch like.2
  | a :: a' :: as, b :: b' :: bs, _, _, like, h => by
    rw [sameItems, Bool.and_eq_true] at like
    simp only [itemChars, List.append_assoc, List.cons_append] at h
    obtain ⟨rfl, rest⟩ := eq_of_chars a b like.1 h
    obtain ⟨same, rest⟩ := eq_of_itemChars (a' :: as) (b' :: bs) like.2 (List.cons.inj rest).2
    exact ⟨congrArg _ same, rest⟩

theorem eq_of_fieldChars : ∀ (fs gs : List (String × Json)) {r r' : List Char},
    sameFields fs gs = true → fieldChars fs ++ r = fieldChars gs ++ r' → fs = gs ∧ r = r'
  | [], [], _, _, _, h => ⟨rfl, h⟩
  | [], _ :: _, _, _, like, _ | _ :: _, [], _, _, like, _ => nomatch like
  | [(i, a)], [(j, b)], _, _, like, h => by
    simp only [sameFields, Bool.and_eq_true, beq_iff_eq] at like
    obtain ⟨⟨rfl, like⟩, -⟩ := like
    simp only [fieldChars, List.append_assoc, List.cons_append, List.append_cancel_left_eq,
      List.cons.injEq, true_and] at h
    obtain ⟨rfl, rest⟩ := eq_of_chars a b like h
    exact ⟨rfl, rest⟩
  | [_], _ :: _ :: _, _, _, like, _ | _ :: _ :: _, [_], _, _, like, _ => by
    rw [sameFields, Bool.and_eq_true] at like
    exact nomatch like.2
  | (i, a) :: f :: fs, (j, b) :: g :: gs, _, _, like, h => by
    rw [sameFields, Bool.and_eq_true, Bool.and_eq_true, beq_iff_eq] at like
    obtain ⟨⟨rfl, like⟩, others⟩ := like
    simp only [fieldChars, List.append_assoc, List.cons_append, List.append_cancel_left_eq,
      List.cons.injEq, true_and] at h
    obtain ⟨rfl, rest⟩ := eq_of_chars a b like h
    obtain ⟨same, rest⟩ := eq_of_fieldChars (f :: fs) (g :: gs) others (List.cons.inj rest).2
    exact ⟨congrArg _ same, rest⟩

end

/-! ### Values whose zeros have the same signs -/

mutual

/-- Equal values whose zeros have the same signs are the same. -/
theorem eq_of_zeroSigns : ∀ (a b : Json) {r r' : List Bool}, a.same b = true →
    a.zeroSigns ++ r = b.zeroSigns ++ r' → a = b ∧ r = r'
  | a, b, r, r', like, h => by
    cases a <;> cases b <;> simp only [same, Bool.false_eq_true, beq_iff_eq] at like
    case null.null => exact ⟨rfl, h⟩
    case bool.bool =>
      subst like
      exact ⟨rfl, h⟩
    case string.string =>
      subst like
      exact ⟨rfl, h⟩
    case number.number m n =>
      simp only [zeroSigns, numbers, List.flatMap_singleton] at h
      obtain ⟨rfl, rest⟩ := Number.eq_of_zeroSigns like h
      exact ⟨rfl, rest⟩
    case array.array xs ys =>
      obtain ⟨rfl, rest⟩ := eq_of_itemSigns xs ys like h
      exact ⟨rfl, rest⟩
    case object.object fs gs =>
      obtain ⟨rfl, rest⟩ := eq_of_fieldSigns fs gs like h
      exact ⟨rfl, rest⟩

theorem eq_of_itemSigns : ∀ (as bs : List Json) {r r' : List Bool}, sameItems as bs = true →
    (itemNumbers as).flatMap Number.zeroSigns ++ r = (itemNumbers bs).flatMap Number.zeroSigns ++ r' →
      as = bs ∧ r = r'
  | [], [], _, _, _, h => ⟨rfl, h⟩
  | [], _ :: _, _, _, like, _ | _ :: _, [], _, _, like, _ => nomatch like
  | a :: as, b :: bs, _, _, like, h => by
    rw [sameItems, Bool.and_eq_true] at like
    simp only [itemNumbers, List.flatMap_append, List.append_assoc] at h
    obtain ⟨rfl, rest⟩ := eq_of_zeroSigns a b like.1 h
    obtain ⟨same, rest⟩ := eq_of_itemSigns as bs like.2 rest
    exact ⟨congrArg _ same, rest⟩

theorem eq_of_fieldSigns : ∀ (fs gs : List (String × Json)) {r r' : List Bool},
    sameFields fs gs = true → (fieldNumbers fs).flatMap Number.zeroSigns ++ r =
      (fieldNumbers gs).flatMap Number.zeroSigns ++ r' → fs = gs ∧ r = r'
  | [], [], _, _, _, h => ⟨rfl, h⟩
  | [], _ :: _, _, _, like, _ | _ :: _, [], _, _, like, _ => nomatch like
  | (i, a) :: fs, (j, b) :: gs, _, _, like, h => by
    simp only [sameFields, Bool.and_eq_true, beq_iff_eq] at like
    obtain ⟨⟨rfl, like⟩, others⟩ := like
    simp only [fieldNumbers, List.flatMap_append, List.append_assoc] at h
    obtain ⟨rfl, rest⟩ := eq_of_zeroSigns a b like h
    obtain ⟨same, rest⟩ := eq_of_fieldSigns fs gs others rest
    exact ⟨congrArg _ same, rest⟩

end

/-- **Equal values are written alike exactly if their zeros have the same signs.** -/
theorem chars_eq_iff {a b : Json} (like : a.same b = true) :
    chars a = chars b ↔ a.zeroSigns = b.zeroSigns := by
  constructor
  · intro text
    obtain ⟨rfl, -⟩ := eq_of_chars a b like (congrArg (· ++ []) text)
    rfl
  · intro signs
    obtain ⟨rfl, -⟩ := eq_of_zeroSigns a b like (congrArg (· ++ []) signs)
    rfl

end Json

/-! ### No text has the null character in it -/

namespace Json

theorem nul_not_mem_numberChars (n : Number) : '\x00' ∉ numberChars n := by
  rw [← n.chars_numeral]
  intro mem
  rcases n.wellFormed_numeral.part_of_mem mem with digit | mark
  · exact absurd digit (by decide)
  · exact absurd mark (by decide)

theorem digit_ne_nul : ∀ n < 16, digit n ≠ '\x00' := by decide

theorem nul_not_mem_escape (c : Char) : '\x00' ∉ escape c := by
  by_cases short : c ∈ ['"', '\\', '\x08', '\t', '\n', '\x0c', '\r']
  · simp only [List.mem_cons, List.not_mem_nil, or_false] at short
    rcases short with rfl | rfl | rfl | rfl | rfl | rfl | rfl <;> decide
  · simp only [List.mem_cons, List.not_mem_nil, or_false, not_or] at short
    obtain ⟨quote, slash, b, t, n, f, r⟩ := short
    rw [escape, if_neg quote, if_neg slash, if_neg b, if_neg t, if_neg n, if_neg f, if_neg r]
    by_cases control : c.toNat < 0x20
    · have high := digit_ne_nul (c.toNat / 16) (by omega)
      have low := digit_ne_nul (c.toNat % 16) (by omega)
      simp [control, high.symm, low.symm]
    · rw [if_neg control, List.mem_singleton]
      rintro rfl
      exact control (by decide)

theorem nul_not_mem_quote (s : String) : '\x00' ∉ quote s := by
  simp [quote, nul_not_mem_escape]

mutual

theorem nul_not_mem_chars : ∀ j : Json, '\x00' ∉ chars j
  | null => by decide
  | bool b => by cases b <;> decide
  | number n => nul_not_mem_numberChars n
  | string s => nul_not_mem_quote s
  | array xs => by simp [chars, nul_not_mem_itemChars xs]
  | object fs => by simp [chars, nul_not_mem_fieldChars fs]

theorem nul_not_mem_itemChars : ∀ xs : List Json, '\x00' ∉ itemChars xs
  | [] => List.not_mem_nil
  | [x] => nul_not_mem_chars x
  | x :: y :: xs => by simp [itemChars, nul_not_mem_chars x, nul_not_mem_itemChars (y :: xs)]

theorem nul_not_mem_fieldChars : ∀ fs : List (String × Json), '\x00' ∉ fieldChars fs
  | [] => List.not_mem_nil
  | [(k, v)] => by simp [fieldChars, nul_not_mem_quote k, nul_not_mem_chars v]
  | (k, v) :: f :: fs => by
    simp [fieldChars, nul_not_mem_quote k, nul_not_mem_chars v, nul_not_mem_fieldChars (f :: fs)]

end

end Json
end Steward
