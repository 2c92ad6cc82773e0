/-
# Values and their documents

The document of a value has a value of its own (`Json.toJson?_document`): the value again, with the
fields of its objects in ascending order. Two things may prevent that. A part may lie deeper than a
reader goes, and a number may not be read back: integers of 64 bits are, a double only if reading its
digits rounds to it again (`Number.ReadsBack`).

A value that was read from a document has its fields in order, integers of 64 bits only, and no part
deeper than the reader goes (`Document.sound_of_toJson?`), so it is what it is put in order to
(`Json.ordered_eq`).

Key definitions: `Number.ReadsBack`, `Json.depth`, `Json.Ordered`, `Json.ordered`, `Json.Sound`.
Key theorems: `Json.ordered_eq`, `Json.toJson?_document`, `Document.sound_of_toJson?`.
-/
import Steward.Proofs.Json.Reading
import Steward.Proofs.NameMap

namespace Steward

/-! ### Numbers -/

namespace Number

/-- Whether the text of a number is read as the number. -/
def ReadsBack (n : Number) : Prop := Json.parse? (Json.number n).compact = some (.number n)

/-- Whether an integer has 64 bits, with a sign or without. -/
def Fits : Number → Prop
  | integer n => -(UInt64.size / 2 : Nat) ≤ n ∧ n < UInt64.size
  | binary _ => True

theorem readsBack_iff {n : Number} : n.ReadsBack ↔ n.numeral.number? = some n := by
  rw [ReadsBack, Json.parse?, Json.parse?_compact, Option.bind_some, Json.document, Document.toJson?]
  cases n.numeral.number? <;> simp

theorem readsBack_integer {n : Int} (h : (integer n).Fits) : (integer n).ReadsBack :=
  readsBack_iff.2 (number?_integer h.1 h.2)

end Number

/-- What a numeral stands for fits. -/
theorem Numeral.fits_of_number? {m : Numeral} {n : Number} (h : m.number? = some n) : n.Fits := by
  unfold number? at h
  extract_lets v at h
  by_cases range : m.fraction.isNone ∧ m.exponent.isNone ∧
      (if m.negative then 0 < v ∧ v ≤ UInt64.size / 2 else v < UInt64.size)
  · rw [if_pos range] at h
    cases h
    have range := range.2.2
    by_cases negative : m.negative = true
    · rw [if_pos negative] at range ⊢
      exact ⟨by omega, by omega⟩
    · rw [if_neg negative] at range ⊢
      exact ⟨by omega, by omega⟩
  · rw [if_neg range] at h
    obtain ⟨x, -, rfl⟩ := Option.map_eq_some_iff.1 h
    trivial

namespace Json

/-! ### The fields of an object, put in order -/

theorem foldl_insertEntry : ∀ (fs : List (String × Json)) (m : NameMap Json),
    fs.foldl (fun es f => NameMap.insertEntry f.1 f.2 es) m.entries =
      (fs.foldl (fun m f => m.insert f.1 f.2) m).entries
  | [], _ => rfl
  | f :: fs, m => foldl_insertEntry fs (m.insert f.1 f.2)

theorem ofFields_eq (fs : List (String × Json)) : ofFields fs = object (NameMap.ofList fs).entries :=
  congrArg object (foldl_insertEntry fs ∅)

/-- Fields in order stay as they are. -/
theorem ofFields_of_ascending {fs : List (String × Json)}
    (h : (fs.map Prod.fst).Pairwise (· < ·)) : ofFields fs = object fs := by
  have same := congrArg NameMap.entries (NameMap.ofList_toList ⟨fs, h⟩)
  rw [ofFields_eq]
  exact congrArg object same

mutual

/-- How many brackets stand around the innermost part. -/
def depth : Json → Nat
  | array xs => itemDepth xs + 1
  | object fs => fieldDepth fs + 1
  | null => 0
  | bool _ => 0
  | number _ => 0
  | string _ => 0

def itemDepth : List Json → Nat
  | [] => 0
  | x :: xs => max (depth x) (itemDepth xs)

def fieldDepth : List (String × Json) → Nat
  | [] => 0
  | (_, v) :: fs => max (depth v) (fieldDepth fs)

end

mutual

/-- Whether the fields of every object ascend. -/
def Ordered : Json → Prop
  | array xs => ItemsOrdered xs
  | object fs => (fs.map Prod.fst).Pairwise (· < ·) ∧ FieldsOrdered fs
  | null => True
  | bool _ => True
  | number _ => True
  | string _ => True

def ItemsOrdered : List Json → Prop
  | [] => True
  | x :: xs => Ordered x ∧ ItemsOrdered xs

def FieldsOrdered : List (String × Json) → Prop
  | [] => True
  | (_, v) :: fs => Ordered v ∧ FieldsOrdered fs

end

mutual

/-- The value with the fields of every object in order. -/
def ordered : Json → Json
  | array xs => array (orderedItems xs)
  | object fs => ofFields (orderedFields fs)
  | null => null
  | bool b => bool b
  | number n => number n
  | string s => string s

def orderedItems : List Json → List Json
  | [] => []
  | x :: xs => ordered x :: orderedItems xs

def orderedFields : List (String × Json) → List (String × Json)
  | [] => []
  | (k, v) :: fs => (k, ordered v) :: orderedFields fs

end

mutual

/-- A value whose fields ascend is in order. -/
theorem ordered_eq : ∀ {j : Json}, j.Ordered → j.ordered = j
  | null, _ | bool _, _ | number _, _ | string _, _ => rfl
  | array xs, h => congrArg array (orderedItems_eq h)
  | object fs, h => by
    rw [ordered, orderedFields_eq h.2, ofFields_of_ascending h.1]

theorem orderedItems_eq : ∀ {xs : List Json}, ItemsOrdered xs → orderedItems xs = xs
  | [], _ => rfl
  | _ :: _, h => by rw [orderedItems, ordered_eq h.1, orderedItems_eq h.2]

theorem orderedFields_eq : ∀ {fs : List (String × Json)}, FieldsOrdered fs → orderedFields fs = fs
  | [], _ => rfl
  | (_, _) :: _, h => by rw [orderedFields, ordered_eq h.1, orderedFields_eq h.2]

end

/-! ### What holds of a value holds of its parts -/

theorem mem_itemNumbers {n : Number} : ∀ {xs : List Json},
    n ∈ itemNumbers xs ↔ ∃ x ∈ xs, n ∈ x.numbers
  | [] => by simp [itemNumbers]
  | x :: xs => by simp [itemNumbers, mem_itemNumbers]

theorem mem_fieldNumbers {n : Number} : ∀ {fs : List (String × Json)},
    n ∈ fieldNumbers fs ↔ ∃ f ∈ fs, n ∈ f.2.numbers
  | [] => by simp [fieldNumbers]
  | (k, v) :: fs => by simp [fieldNumbers, mem_fieldNumbers]

theorem itemDepth_le {limit : Nat} : ∀ {xs : List Json},
    itemDepth xs ≤ limit ↔ ∀ x ∈ xs, x.depth ≤ limit
  | [] => by simp [itemDepth]
  | x :: xs => by simp [itemDepth, Nat.max_le, itemDepth_le]

theorem fieldDepth_le {limit : Nat} : ∀ {fs : List (String × Json)},
    fieldDepth fs ≤ limit ↔ ∀ f ∈ fs, f.2.depth ≤ limit
  | [] => by simp [fieldDepth]
  | (k, v) :: fs => by simp [fieldDepth, Nat.max_le, fieldDepth_le]

theorem itemsOrdered_iff : ∀ {xs : List Json}, ItemsOrdered xs ↔ ∀ x ∈ xs, x.Ordered
  | [] => by simp [ItemsOrdered]
  | x :: xs => by simp [ItemsOrdered, itemsOrdered_iff]

theorem fieldsOrdered_iff : ∀ {fs : List (String × Json)}, FieldsOrdered fs ↔ ∀ f ∈ fs, f.2.Ordered
  | [] => by simp [FieldsOrdered]
  | (k, v) :: fs => by simp [FieldsOrdered, fieldsOrdered_iff]

/-- Whether a program can hold the value: its fields are in order and its integers have 64 bits. -/
structure Sound (j : Json) : Prop where
  ordered : j.Ordered
  fits : ∀ n ∈ j.numbers, n.Fits

theorem sound_array {xs : List Json} : (array xs).Sound ↔ ∀ x ∈ xs, x.Sound := by
  constructor
  · intro h x hx
    exact ⟨itemsOrdered_iff.1 h.ordered x hx, fun n hn => h.fits n (mem_itemNumbers.2 ⟨x, hx, hn⟩)⟩
  · intro h
    refine ⟨itemsOrdered_iff.2 fun x hx => (h x hx).ordered, fun n hn => ?_⟩
    obtain ⟨x, hx, hn⟩ := mem_itemNumbers.1 hn
    exact (h x hx).fits n hn

theorem sound_object {fs : List (String × Json)} :
    (object fs).Sound ↔ (fs.map Prod.fst).Pairwise (· < ·) ∧ ∀ f ∈ fs, f.2.Sound := by
  constructor
  · intro h
    refine ⟨h.ordered.1, fun f hf => ⟨fieldsOrdered_iff.1 h.ordered.2 f hf, fun n hn => ?_⟩⟩
    exact h.fits n (mem_fieldNumbers.2 ⟨f, hf, hn⟩)
  · intro h
    refine ⟨⟨h.1, fieldsOrdered_iff.2 fun f hf => (h.2 f hf).ordered⟩, fun n hn => ?_⟩
    obtain ⟨f, hf, hn⟩ := mem_fieldNumbers.1 hn
    exact (h.2 f hf).fits n hn

/-! ### The value of a document -/

open Document

mutual

/-- The document of a value has the value, put in order. -/
theorem toJson?_document : ∀ (j : Json) {limit : Nat}, (∀ n ∈ j.numbers, n.ReadsBack) →
    j.depth ≤ limit → toJson? limit j.document = some j.ordered
  | null, _, _, _ | bool _, _, _, _ | string _, _, _, _ => by
    rw [document, toJson?.eq_def]
    rfl
  | number n, _, back, _ => by
    rw [document, toJson?.eq_def]
    simp only [Number.readsBack_iff.1 (back n (List.mem_singleton_self n))]
    rfl
  | array xs, limit + 1, back, deep => by
    rw [document, toJson?, itemsToJson?_documents xs back (Nat.le_of_succ_le_succ deep)]
    rfl
  | object fs, limit + 1, back, deep => by
    rw [document, toJson?, fieldsToJson?_documents fs back (Nat.le_of_succ_le_succ deep)]
    rfl

theorem itemsToJson?_documents : ∀ (xs : List Json) {limit : Nat},
    (∀ n ∈ itemNumbers xs, n.ReadsBack) → itemDepth xs ≤ limit →
      itemsToJson? limit (itemDocuments xs) = some (orderedItems xs)
  | [], _, _, _ => rfl
  | x :: xs, limit, back, deep => by
    rw [itemNumbers] at back
    rw [itemDepth, Nat.max_le] at deep
    have first := toJson?_document x (fun n hn => back n (List.mem_append_left _ hn)) deep.1
    have others := itemsToJson?_documents xs (fun n hn => back n (List.mem_append_right _ hn)) deep.2
    simp only [itemDocuments, itemsToJson?, first, others, Option.bind_eq_bind, Option.bind_some,
      orderedItems]

theorem fieldsToJson?_documents : ∀ (fs : List (String × Json)) {limit : Nat},
    (∀ n ∈ fieldNumbers fs, n.ReadsBack) → fieldDepth fs ≤ limit →
      fieldsToJson? limit (fieldDocuments fs) = some (orderedFields fs)
  | [], _, _, _ => rfl
  | (k, v) :: fs, limit, back, deep => by
    rw [fieldNumbers] at back
    rw [fieldDepth, Nat.max_le] at deep
    have first := toJson?_document v (fun n hn => back n (List.mem_append_left _ hn)) deep.1
    have others := fieldsToJson?_documents fs (fun n hn => back n (List.mem_append_right _ hn)) deep.2
    simp only [fieldDocuments, fieldsToJson?, first, others, Option.bind_eq_bind, Option.bind_some,
      orderedFields]

end

end Json

namespace Document

open Json

mutual

/-- A value that was read can be held, and lies no deeper than its reader goes. -/
theorem sound_of_toJson? : ∀ (d : Document) {limit : Nat} {j : Json}, toJson? limit d = some j →
    j.Sound ∧ j.depth ≤ limit
  | null, _, j, h | bool _, _, j, h => by
    rw [toJson?.eq_def] at h
    cases h
    exact ⟨⟨trivial, nofun⟩, Nat.zero_le _⟩
  | string s, _, j, h => by
    rw [toJson?.eq_def] at h
    obtain ⟨s, -, rfl⟩ := Option.map_eq_some_iff.1 h
    exact ⟨⟨trivial, nofun⟩, Nat.zero_le _⟩
  | number m, _, j, h => by
    rw [toJson?.eq_def] at h
    obtain ⟨n, stands, rfl⟩ := Option.map_eq_some_iff.1 h
    refine ⟨⟨trivial, fun n' hn => ?_⟩, Nat.zero_le _⟩
    rw [List.mem_singleton.1 hn]
    exact Numeral.fits_of_number? stands
  | array xs, 0, j, h => by
    rw [toJson?] at h
    cases h
  | array xs, limit + 1, j, h => by
    rw [toJson?] at h
    obtain ⟨js, read, rfl⟩ := Option.map_eq_some_iff.1 h
    have parts := sound_of_itemsToJson? xs read
    exact ⟨sound_array.2 fun x hx => (parts x hx).1,
      Nat.succ_le_succ (itemDepth_le.2 fun x hx => (parts x hx).2)⟩
  | object fs, 0, j, h => by
    rw [toJson?] at h
    cases h
  | object fs, limit + 1, j, h => by
    rw [toJson?] at h
    obtain ⟨js, read, rfl⟩ := Option.map_eq_some_iff.1 h
    have parts := sound_of_fieldsToJson? fs read
    rw [ofFields_eq]
    refine ⟨sound_object.2 ⟨(NameMap.ofList js).ascending, fun f hf => ?_⟩,
      Nat.succ_le_succ (fieldDepth_le.2 fun f hf => ?_)⟩
    · exact (parts f (NameMap.mem_of_mem_ofList hf)).1
    · exact (parts f (NameMap.mem_of_mem_ofList hf)).2

theorem sound_of_itemsToJson? : ∀ (xs : List Document) {limit : Nat} {js : List Json},
    itemsToJson? limit xs = some js → ∀ j ∈ js, j.Sound ∧ j.depth ≤ limit
  | [], _, _, h, j, hj => by
    cases h
    cases hj
  | x :: xs, limit, js, h, j, hj => by
    simp only [itemsToJson?, Option.bind_eq_bind, Option.bind_eq_some_iff, Option.some.injEq] at h
    obtain ⟨j', first, js', others, rfl⟩ := h
    rcases List.mem_cons.1 hj with rfl | hj
    · exact sound_of_toJson? x first
    · exact sound_of_itemsToJson? xs others j hj

theorem sound_of_fieldsToJson? : ∀ (fs : List (Option String × Document)) {limit : Nat}
    {js : List (String × Json)}, fieldsToJson? limit fs = some js →
      ∀ f ∈ js, f.2.Sound ∧ f.2.depth ≤ limit
  | [], _, _, h, f, hf => by
    cases h
    cases hf
  | (k, d) :: fs, limit, js, h, f, hf => by
    simp only [fieldsToJson?, Option.bind_eq_bind, Option.bind_eq_some_iff, Option.some.injEq] at h
    obtain ⟨k', -, j', first, js', others, rfl⟩ := h
    rcases List.mem_cons.1 hf with rfl | hf
    · exact sound_of_toJson? d first
    · exact sound_of_fieldsToJson? fs others f hf

end

end Document
end Steward
