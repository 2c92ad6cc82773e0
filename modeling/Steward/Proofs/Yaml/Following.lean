/-
# Readings that follow aliases

A reading of a YAML document may follow so many aliases. It gives none back, and to allow more of
them changes nothing about a reading that comes to an end (`Frugal`). So what was read after other
parts of the document would have been read alone (`Within.split`), and the value that a record takes
from a key is the one that stands under the key in the document (`Within.record`), whatever else the
record reads before it.

Key definitions: `Frugal`, `Yields`, `Within`, `Part.lookIn`.
Key theorems: `Within.split`, `Within.record`.
-/
import Steward.Proofs.Format
import Steward.Settings.Basic

namespace Steward
namespace Yaml

variable {α β : Type}

/-- Whether a reading gives no alias back and comes to the same end if it may follow more. -/
structure Frugal (x : Following α) : Prop where
  run : ∀ {left a rest}, x.run left = some (a, rest) →
    rest ≤ left ∧ ∀ more, x.run (left + more) = some (a, rest + more)

namespace Frugal

theorem pure (a : α) : Frugal (Pure.pure a) where
  run := by
    rintro left _ _ ⟨⟩
    exact ⟨le_rfl, fun _ => rfl⟩

theorem failure : Frugal (Alternative.failure : Following α) where
  run := by rintro left a rest ⟨⟩

theorem bind {x : Following α} {f : α → Following β} (hx : Frugal x) (hf : ∀ a, Frugal (f a)) :
    Frugal (x >>= f) where
  run := by
    intro left b rest h
    rw [StateT.run_bind] at h
    obtain ⟨⟨a, middle⟩, first, second⟩ := Option.bind_eq_some_iff.1 h
    obtain ⟨less, more⟩ := hx.run first
    obtain ⟨less', more'⟩ := (hf a).run second
    refine ⟨less'.trans less, fun k => ?_⟩
    rw [StateT.run_bind, more k]
    exact more' k

theorem map {x : Following α} (f : α → β) (hx : Frugal x) : Frugal (f <$> x) := by
  rw [← bind_pure_comp]
  exact hx.bind fun _ => pure _

theorem mapM {f : α → Following β} (hf : ∀ a, Frugal (f a)) :
    ∀ as : List α, Frugal (as.mapM f)
  | [] => pure _
  | a :: as => by
    rw [List.mapM_cons]
    exact (hf a).bind fun _ => (mapM hf as).bind fun _ => pure _

end Frugal

/-! ### The parts of a document -/

namespace Part

theorem run_follow_alias (p : Part) {n : Nat} (h : p.node = .alias n) (left : Nat) :
    p.follow.run left = match left, p.anchored.lookup n with
      | left + 1, some node => some (node, left)
      | _, _ => none := by
  simp only [follow, h]
  cases left <;> cases p.anchored.lookup n <;> rfl

theorem frugal_follow (p : Part) : Frugal p.follow := by
  by_cases named : ∃ n, p.node = .alias n
  · obtain ⟨n, named⟩ := named
    refine ⟨fun {left node rest} h => ?_⟩
    rw [p.run_follow_alias named] at h
    split at h
    · rename_i left node found
      cases h
      refine ⟨Nat.le_succ _, fun more => ?_⟩
      rw [p.run_follow_alias named, found, Nat.succ_add]
    · cases h
  · unfold follow
    split
    · rename_i n h
      exact absurd ⟨n, h⟩ named
    · exact .pure _

theorem frugal_inner (p : Part) (n : Node) : Frugal (p.inner n) := by
  unfold inner
  split
  · exact .failure
  · exact .pure _

theorem frugal_text (p : Part) : Frugal p.text := by
  refine p.frugal_follow.bind fun n => ?_
  split
  · exact .pure _
  · exact .failure

theorem frugal_entries (p : Part) : Frugal p.entries := by
  refine p.frugal_follow.bind fun n => ?_
  split
  · split
    · exact .failure
    · refine .mapM (fun e => ?_) _
      exact (p.frugal_inner _).bind fun k => k.frugal_text.bind fun _ =>
        (p.frugal_inner _).bind fun _ => .pure _
  · split
    · exact .pure _
    · exact .failure

theorem frugal_fields (names : List String) (p : Part) : Frugal (p.fields names) := by
  refine p.frugal_entries.bind fun es => ?_
  dsimp only
  split
  · exact .pure _
  · exact .failure

theorem frugal_unquoted (type : String) (p : Part) : Frugal (p.unquoted type) := by
  refine p.frugal_follow.bind fun n => ?_
  split
  · split
    · exact .pure _
    · exact .failure
  · exact .failure

theorem frugal_integer (low high : Int) (p : Part) : Frugal (p.integer low high) := by
  refine (p.frugal_unquoted _).bind fun s => ?_
  dsimp only
  split
  · split
    · exact .pure _
    · exact .failure
  · exact .failure

theorem frugal_flag (p : Part) : Frugal p.flag := by
  refine (p.frugal_unquoted _).bind fun s => ?_
  split
  · exact .pure _
  · exact .failure

theorem frugal_optional (p : Part) : Frugal p.optional := by
  refine p.frugal_follow.bind fun n => ?_
  split
  · split
    · split <;> exact .pure _
    · split
      · split
        · exact .pure _
        · exact .failure
      · exact .pure _
  · exact .pure _

end Part

/-! ### Records -/

theorem frugal_below (bound : Nat) (p : Part) : Frugal (format.below bound p) :=
  (p.frugal_integer _ _).bind fun _ => .pure _

theorem frugal_word32 (p : Part) : Frugal (format.word32 p) := (frugal_below _ p).map _

theorem frugal_word64 (p : Part) : Frugal (format.word64 p) := (frugal_below _ p).map _

theorem frugal_maybe {read : Part → Following α} (h : ∀ p, Frugal (read p)) (p : Part) :
    Frugal (format.maybe read p) := by
  refine p.frugal_optional.bind fun o => ?_
  split
  · exact (h _).map _
  · exact .pure _

theorem frugal_defaulted {read : Part → Following α} (h : ∀ p, Frugal (read p))
    (fs : List (String × Part)) (key : String) (absent : α) :
    Frugal (Format.defaulted fs key absent read) := by
  unfold Format.defaulted
  split
  · exact h _
  · exact .pure _

/-! ### What a reading finds -/

/-- Whether a reading that may follow so many aliases ends with the value. -/
def Yields (x : Following α) (left : Nat) (a : α) : Prop := ∃ rest, x.run left = some (a, rest)

/-- Whether it does with so many of them or fewer. -/
def Within (x : Following α) (left : Nat) (a : α) : Prop := ∃ fewer ≤ left, Yields x fewer a

theorem yields_iff {x : Following α} {left : Nat} {a : α} :
    Yields x left a ↔ x.run' left = some a := by
  have value : x.run' left = (x.run left).map Prod.fst := rfl
  rw [value, Option.map_eq_some_iff]
  constructor
  · rintro ⟨rest, h⟩
    exact ⟨_, h, rfl⟩
  · rintro ⟨⟨a, rest⟩, h, rfl⟩
    exact ⟨rest, h⟩

theorem Frugal.yields {x : Following α} (hx : Frugal x) {left : Nat} {a : α}
    (h : Within x left a) : Yields x left a := by
  obtain ⟨fewer, le, rest, h⟩ := h
  obtain ⟨more, rfl⟩ := Nat.exists_eq_add_of_le le
  exact ⟨_, (hx.run h).2 more⟩

/-- The first of two readings would have ended so alone, and so the second. -/
theorem Within.split {x : Following α} {f : α → Following β} {left : Nat} {b : β} (hx : Frugal x)
    (h : Within (x >>= f) left b) : ∃ a, Within x left a ∧ Within (f a) left b := by
  obtain ⟨fewer, le, rest, h⟩ := h
  rw [StateT.run_bind] at h
  obtain ⟨⟨a, middle⟩, first, second⟩ := Option.bind_eq_some_iff.1 h
  exact ⟨a, ⟨fewer, le, middle, first⟩, middle, (hx.run first).1.trans le, rest, second⟩

theorem within_pure {left : Nat} {a b : α} (h : Within (pure a : Following α) left b) : a = b := by
  obtain ⟨fewer, -, rest, h⟩ := h
  cases h
  rfl

/-- What stands under a key of a mapping, or a value if nothing does. -/
def Part.lookIn (key : String) (absent : α) (read : Part → Following α) (p : Part) :
    Following α := do
  Format.defaulted (← p.entries) key absent read

theorem Part.frugal_lookIn {read : Part → Following α} (h : ∀ p, Frugal (read p)) (key : String)
    (absent : α) (p : Part) : Frugal (p.lookIn key absent read) :=
  p.frugal_entries.bind fun es => frugal_defaulted h es key absent

/-- The fields of a record are what stands under their keys, although the record reads them one
after the other. -/
theorem Within.record {names : List String} {p : Part} {f : List (String × Part) → Following β}
    {left : Nat} {b : β} (h : Within (p.fields names >>= f) left b) :
    ∃ fs rest, Within (f fs) rest b ∧
      ∀ {α : Type} {key : String} {absent a : α} {read : Part → Following α}, key ∈ names →
        (∀ p, Frugal (read p)) → Within (Format.defaulted fs key absent read) rest a →
          Within (p.lookIn key absent read) left a := by
  obtain ⟨fewer, le, last, h⟩ := h
  rw [StateT.run_bind] at h
  obtain ⟨⟨fs, rest⟩, fields, h⟩ := Option.bind_eq_some_iff.1 h
  refine ⟨fs, rest, ⟨rest, le_rfl, last, h⟩, fun {α key absent a read} named frugal field => ?_⟩
  unfold Part.fields at fields
  rw [StateT.run_bind] at fields
  obtain ⟨⟨es, middle⟩, entries, kept⟩ := Option.bind_eq_some_iff.1 fields
  obtain ⟨rfl, rfl⟩ : es.filter (fun e => names.contains e.1) = fs ∧ middle = rest := by
    dsimp only at kept
    split at kept <;> cases kept
    exact ⟨rfl, rfl⟩
  obtain ⟨last, found⟩ := (frugal_defaulted frugal _ key absent).yields field
  rw [Format.defaulted, lookup_filter_names named] at found
  refine ⟨fewer, le, last, ?_⟩
  rw [Part.lookIn, StateT.run_bind, entries]
  exact found

/-- What is found in a record under a key is found in the part that the record was read from. -/
theorem Within.defaulted {ρ : Type} {fs : List (String × Part)} {key : String} {none r : ρ}
    {read : Part → Following ρ} {left : Nat} (h : Within (Format.defaulted fs key none read) left r)
    {g : ρ → α} {absent : α} {read' : Part → Following α} (missing : g none = absent)
    (given : ∀ {p left r}, Within (read p) left r → Within (read' p) left (g r)) :
    Within (Format.defaulted fs key absent read') left (g r) := by
  unfold Format.defaulted at h ⊢
  split at h
  · exact given h
  · rw [← within_pure h, missing]
    exact ⟨left, le_rfl, left, rfl⟩

end Yaml
end Steward
