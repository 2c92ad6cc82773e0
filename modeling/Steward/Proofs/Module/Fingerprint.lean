/-
# What a fingerprint tells apart

A fingerprint hashes the bytes of the declared fields, with a null character after each but the
last. Two questions decide what it is good for.

*Do equal declarations have the same bytes?* Fields that are compared as they are written do. A
configuration is compared by value, and a zero that is equal to another may show another sign. So
equal declarations have the same bytes exactly if the zeros in their configurations have the same
signs (`Module.fingerprint_of_same`).

*Do different declarations have different bytes?* There is no null character in the text of a
status, of a restart rule or of a configuration, so these are read back from the end. What stands in
front of them is the name, the version and the type, in which there may be null characters. They are
read back if it is known how many of them the name has and how many the version has
(`Module.title_eq_iff`), and that is all there is to confuse (`Module.confused_iff`).

Key definitions: `Module.title`, `Module.separators`, `Module.WrittenAlike`.
Key theorems: `Text.utf8_inj`, `Text.eq_of_append_cons`, `Module.preimage_eq_iff`,
`Module.fingerprint_of_same`, `Module.confused_iff`.
-/
import Mathlib.Tactic.Common
import Steward.Module.Fingerprint
import Steward.Module.Set
import Steward.Proofs.Json.Compact
import Steward.Proofs.Module.Likeness

namespace Steward

namespace Text

/-! ### The bytes of a text -/

theorem toList_bytes (bytes : ByteArray) : bytes.toList = bytes.data.toList := by
  have loop : ∀ (i : Nat) (before : List UInt8), ByteArray.toList.loop bytes i before =
      before.reverse ++ bytes.data.toList.drop i := by
    intro i before
    fun_induction ByteArray.toList.loop bytes i before with
    | case1 i before inside ih =>
      have inside : i < bytes.data.size := inside
      have here : bytes.get! i = bytes.data.toList[i] := getElem!_pos bytes.data i inside
      rw [ih, List.drop_eq_getElem_cons inside, List.reverse_cons, List.append_assoc, here]
      rfl
    | case2 i before outside =>
      have outside : bytes.data.toList.length ≤ i := Nat.le_of_not_lt outside
      rw [List.drop_eq_nil_of_le outside, List.append_nil]
  exact loop 0 []

theorem utf8_append (s t : String) :
    (s ++ t).toUTF8.toList = s.toUTF8.toList ++ t.toUTF8.toList := by
  rw [toList_bytes, toList_bytes, toList_bytes]
  show (s ++ t).toByteArray.data.toList = _
  rw [String.toByteArray_append]
  exact ByteArray.toList_data_append

/-- A text is known by its bytes. -/
theorem utf8_inj {s t : String} : s.toUTF8.toList = t.toUTF8.toList ↔ s = t := by
  rw [toList_bytes, toList_bytes, Array.toList_inj, ← ByteArray.ext_iff]
  exact String.toByteArray_inj

/-- The null character is the byte zero. -/
theorem utf8_nul : "\x00".toUTF8.toList = [0] := by
  rw [toList_bytes]
  rfl

/-! ### Texts around a separator -/

/-- Of two texts that are the same, the parts before and after a separator are the same, if there are
as many separators before it in either. -/
theorem eq_of_append_cons {c : Char} : ∀ {l l' r r' : List Char}, l ++ c :: r = l' ++ c :: r' →
    l.count c = l'.count c → l = l' ∧ r = r'
  | [], [], _, _, h, _ => ⟨rfl, (List.cons.inj h).2⟩
  | [], d :: l', _, _, h, count => by
    obtain ⟨rfl, -⟩ := List.cons.inj h
    simp at count
  | d :: l, [], _, _, h, count => by
    obtain ⟨rfl, -⟩ := List.cons.inj h
    simp at count
  | d :: l, d' :: l', _, _, h, count => by
    obtain ⟨rfl, rest⟩ := List.cons.inj h
    have count : l.count c = l'.count c := by simpa [List.count_cons] using count
    obtain ⟨before, after⟩ := eq_of_append_cons rest count
    exact ⟨congrArg _ before, after⟩

/-- The parts around the last separator are the same. -/
theorem eq_of_append_last {c : Char} {l l' r r' : List Char} (h : l ++ c :: r = l' ++ c :: r')
    (last : c ∉ r) (last' : c ∉ r') : l = l' ∧ r = r' := by
  refine eq_of_append_cons h ?_
  have all : (l ++ c :: r).count c = (l' ++ c :: r').count c := congrArg _ h
  simp only [List.count_append, List.count_cons_self, List.count_eq_zero.2 last,
    List.count_eq_zero.2 last'] at all
  omega

end Text

open Text

theorem Status.text_inj {s t : Status} : s.text = t.text ↔ s = t := by
  cases s <;> cases t <;> decide

theorem RestartRule.text_inj {s t : RestartRule} : s.text = t.text ↔ s = t := by
  cases s <;> cases t <;> decide

theorem Json.compact_inj {a b : Json} : a.compact = b.compact ↔ chars a = chars b := by
  rw [compact, compact, ← String.toList_inj, String.toList_ofList, String.toList_ofList]

namespace Module

/-! ### The bytes that are hashed -/

/-- The name, the version and the type, with a separator after each of the first two. -/
def title (m : Module) : List Char :=
  m.name.toList ++ '\x00' :: (m.version.toList ++ '\x00' :: m.type.toList)

/-- The characters whose bytes are hashed. -/
def written (m : Module) : List Char :=
  ((m.title ++ '\x00' :: m.status.text.toList) ++ '\x00' :: m.restartRule.text.toList) ++
    '\x00' :: m.config.chars

theorem preimage_eq (m : Module) : m.preimage = (String.ofList m.written).toUTF8.toList := by
  have joined : String.ofList m.written = m.name ++ "\x00" ++ m.version ++ "\x00" ++ m.type ++
      "\x00" ++ m.status.text ++ "\x00" ++ m.restartRule.text ++ "\x00" ++ m.config.compact := by
    rw [← String.toList_inj]
    simp [written, title, Json.compact]
  rw [joined]
  simp only [preimage, utf8_append, utf8_nul, List.flatMap_cons, List.flatMap_nil,
    List.append_assoc, List.append_nil]

/-- What the bytes tell in any case. -/
theorem preimage_eq_iff (a b : Module) : a.preimage = b.preimage ↔ a.title = b.title ∧
    a.status = b.status ∧ a.restartRule = b.restartRule ∧ a.config.compact = b.config.compact := by
  rw [preimage_eq, preimage_eq, utf8_inj, String.ofList_inj, Json.compact_inj]
  constructor
  · intro h
    have status : ∀ s : Status, '\x00' ∉ s.text.toList := by rintro (_ | _ | _) <;> decide
    have rule : ∀ r : RestartRule, '\x00' ∉ r.text.toList := by rintro (_ | _ | _ | _) <;> decide
    obtain ⟨h, config⟩ := eq_of_append_last h a.config.nul_not_mem_chars b.config.nul_not_mem_chars
    obtain ⟨h, restartRule⟩ := eq_of_append_last h (rule _) (rule _)
    obtain ⟨title, status⟩ := eq_of_append_last h (status _) (status _)
    exact ⟨title, Status.text_inj.1 (String.toList_inj.1 status),
      RestartRule.text_inj.1 (String.toList_inj.1 restartRule), config⟩
  · rintro ⟨title, status, restartRule, config⟩
    rw [written, written, title, status, restartRule, config]

/-! ### Equal declarations -/

/-- **Equal declarations have the same bytes, and with them the same fingerprint, exactly if the
zeros in their configurations have the same signs.** -/
theorem fingerprint_of_same {a b : Module} (same : a.same b = true) :
    (a.preimage = b.preimage ↔ a.config.zeroSigns = b.config.zeroSigns) ∧
      (a.config.zeroSigns = b.config.zeroSigns → a.fingerprint = b.fingerprint) := by
  obtain ⟨name, version, type, status, restartRule, config⟩ := same_iff.1 same
  have title : a.title = b.title := by rw [title, title, name, version, type]
  have bytes : a.preimage = b.preimage ↔ a.config.zeroSigns = b.config.zeroSigns := by
    rw [preimage_eq_iff, Json.compact_inj, Json.chars_eq_iff config]
    exact ⟨fun h => h.2.2.2, fun h => ⟨title, status, restartRule, h⟩⟩
  refine ⟨bytes, fun signs => ?_⟩
  rw [fingerprint, fingerprint, bytes.2 signs]

/-- A gauge with an offset and with what was observed of it. -/
def gauge (offset : Json) (observed : Option Observed) : Module :=
  { name := "gauge", version := "1.0", type := "docker", observed,
    config := .object [("image", .string "gauge:1"), ("offset", offset)] }

/-- Two gauges with the same negative zero, of which one was seen running. -/
theorem fingerprint_of_same_sample :
    (gauge (.number (.binary (.zero true))) none).same
      (gauge (.number (.binary (.zero true))) (some { status := .running })) = true ∧
    (gauge (.number (.binary (.zero true))) none).config.zeroSigns = [true] ∧
    (gauge (.number (.binary (.zero true))) none).fingerprint =
      (gauge (.number (.binary (.zero true))) (some { status := .running })).fingerprint := by
  have same : (gauge (.number (.binary (.zero true))) none).same
      (gauge (.number (.binary (.zero true))) (some { status := .running })) = true := by decide
  exact ⟨same, by decide, (fingerprint_of_same same).2 rfl⟩

/-- Two gauges with a zero are equal, and the signs of their zeros give them different
fingerprints. -/
theorem fingerprint_of_zeros :
    (gauge (.number (.binary (.zero false))) none).same
      (gauge (.number (.binary (.zero true))) none) = true ∧
    (gauge (.number (.binary (.zero false))) none).fingerprint ≠
      (gauge (.number (.binary (.zero true))) none).fingerprint :=
  ⟨by decide, by decide +kernel⟩

/-! ### Different declarations -/

/-- Whether each declared field is written in one and the same way. -/
structure WrittenAlike (a b : Module) : Prop where
  name : a.name = b.name
  version : a.version = b.version
  type : a.type = b.type
  status : a.status = b.status
  restartRule : a.restartRule = b.restartRule
  config : a.config.compact = b.config.compact

/-- How many separators there are in the name, and how many in the version. -/
def separators (m : Module) : Nat × Nat :=
  (m.name.toList.count '\x00', m.version.toList.count '\x00')

/-- The title tells the three fields apart, if the separators in the first two are known. -/
theorem title_eq_iff {a b : Module} (h : a.separators = b.separators) :
    a.title = b.title ↔ a.name = b.name ∧ a.version = b.version ∧ a.type = b.type := by
  obtain ⟨inName, inVersion⟩ := Prod.mk.inj h
  constructor
  · intro title
    obtain ⟨name, rest⟩ := eq_of_append_cons title inName
    obtain ⟨version, type⟩ := eq_of_append_cons rest inVersion
    exact ⟨String.toList_inj.1 name, String.toList_inj.1 version, String.toList_inj.1 type⟩
  · rintro ⟨name, version, type⟩
    rw [title, title, name, version, type]

/-- **Which declarations the bytes confuse.** They differ in the name, the version and the type only,
text being shifted between these, and have different numbers of separators in the names or in the
versions. -/
theorem confused_iff (a b : Module) : a.preimage = b.preimage ∧ ¬ a.WrittenAlike b ↔
    a.title = b.title ∧ a.separators ≠ b.separators ∧ a.status = b.status ∧
      a.restartRule = b.restartRule ∧ a.config.compact = b.config.compact := by
  rw [preimage_eq_iff]
  constructor
  · rintro ⟨⟨title, status, restartRule, config⟩, different⟩
    refine ⟨title, fun separators => ?_, status, restartRule, config⟩
    obtain ⟨name, version, type⟩ := (title_eq_iff separators).1 title
    exact different ⟨name, version, type, status, restartRule, config⟩
  · rintro ⟨title, different, status, restartRule, config⟩
    refine ⟨⟨title, status, restartRule, config⟩, fun alike => different ?_⟩
    rw [separators, separators, alike.name, alike.version]

/-- Two modules that a set may hold together have the same bytes and the same fingerprint: the name
of one takes in the start of the other's version. -/
theorem confused_by_separator :
    (∃ s, ModuleSet.create [{ name := "a\x00b", version := "c", type := "docker" },
      { name := "a", version := "b\x00c", type := "docker" }] = .ok s) ∧
    ({ name := "a\x00b", version := "c", type := "docker" } : Module).preimage =
      ({ name := "a", version := "b\x00c", type := "docker" } : Module).preimage ∧
    ({ name := "a\x00b", version := "c", type := "docker" } : Module).fingerprint =
      ({ name := "a", version := "b\x00c", type := "docker" } : Module).fingerprint := by
  have bytes : ({ name := "a\x00b", version := "c", type := "docker" } : Module).preimage =
      ({ name := "a", version := "b\x00c", type := "docker" } : Module).preimage :=
    (preimage_eq_iff _ _).2 ⟨rfl, rfl, rfl, rfl⟩
  exact ⟨⟨_, rfl⟩, bytes, congrArg Sha256.hex bytes⟩

end Module
end Steward
