/-
# Maps from names, in name order

The module sets, stores, tables and documents of this library map names to values and show them in
ascending name order (that of code points, which is also that of UTF-8 bytes). `NameMap` is the list
of entries with the promise that the names ascend strictly, so two maps with the same entries are
the same map.

Key definitions: `NameMap`, `NameMap.insert`, `NameMap.erase`, `NameMap.get?`, `NameMap.ofList`.
Key theorems: `NameMap.get?_insert`, `NameMap.get?_erase`.
-/
namespace Steward

/-- Entries whose names ascend strictly. -/
structure NameMap (α : Type) where
  entries : List (String × α)
  ascending : (entries.map Prod.fst).Pairwise (· < ·)

namespace NameMap

variable {α β : Type}

theorem lt_of_not_lt {a b : String} (h : ¬ a < b) (ne : a ≠ b) : b < a :=
  Classical.byContradiction fun h' =>
    ne (String.le_antisymm (String.not_lt.1 h') (String.not_lt.1 h))

instance [DecidableEq α] : DecidableEq (NameMap α) := fun a b =>
  if h : a.entries = b.entries then
    isTrue (by cases a; cases b; simp_all)
  else isFalse fun e => h (e ▸ rfl)

/-- The map without entries. -/
def empty : NameMap α := ⟨[], .nil⟩

instance : EmptyCollection (NameMap α) := ⟨empty⟩
instance : Inhabited (NameMap α) := ⟨empty⟩

/-- The entries in name order. -/
def toList (m : NameMap α) : List (String × α) := m.entries

/-- The names in order. -/
def keys (m : NameMap α) : List String := m.entries.map Prod.fst

/-- The values in name order. -/
def values (m : NameMap α) : List α := m.entries.map Prod.snd

def size (m : NameMap α) : Nat := m.entries.length

def isEmpty (m : NameMap α) : Bool := m.entries.isEmpty

/-- The value under a name. -/
def get? (m : NameMap α) (k : String) : Option α := m.entries.lookup k

def contains (m : NameMap α) (k : String) : Bool := (m.get? k).isSome

/-! ### Insertion

The entry goes before the first larger name and takes the place of an equal one. -/

/-- Puts an entry at its place in a list of ascending names. -/
def insertEntry (k : String) (v : α) : List (String × α) → List (String × α)
  | [] => [(k, v)]
  | (k', v') :: r =>
    if k < k' then (k, v) :: (k', v') :: r
    else if k = k' then (k, v) :: r
    else (k', v') :: insertEntry k v r

theorem mem_keys_insertEntry {k : String} {v : α} {x : String} :
    ∀ {es : List (String × α)}, x ∈ (insertEntry k v es).map Prod.fst →
      x = k ∨ x ∈ es.map Prod.fst
  | [], h => by simpa [insertEntry] using h
  | (k', v') :: r, h => by
    rw [insertEntry] at h
    split at h
    · simpa using h
    · split at h
      · rename_i e
        subst e
        simp only [List.map_cons, List.mem_cons] at h ⊢
        exact h.imp id Or.inr
      · simp only [List.map_cons, List.mem_cons] at h ⊢
        rcases h with h | h
        · exact .inr (.inl h)
        · exact (mem_keys_insertEntry h).imp id Or.inr

theorem ascending_insertEntry (k : String) (v : α) :
    ∀ es : List (String × α), (es.map Prod.fst).Pairwise (· < ·) →
      ((insertEntry k v es).map Prod.fst).Pairwise (· < ·)
  | [], _ => by simp [insertEntry]
  | (k', v') :: r, h => by
    simp only [List.map_cons, List.pairwise_cons] at h
    rw [insertEntry]
    split
    · rename_i lt
      simp only [List.map_cons, List.pairwise_cons, List.mem_cons, forall_eq_or_imp]
      exact ⟨⟨lt, fun x hx => String.lt_trans lt (h.1 x hx)⟩, h.1, h.2⟩
    · split
      · rename_i e
        subst e
        simpa using h
      · rename_i nlt ne
        simp only [List.map_cons, List.pairwise_cons]
        refine ⟨fun x hx => ?_, ascending_insertEntry k v r h.2⟩
        rcases mem_keys_insertEntry hx with rfl | hx
        · exact lt_of_not_lt nlt ne
        · exact h.1 x hx

/-- The map with the value under the name; a value it had there before is gone. -/
def insert (m : NameMap α) (k : String) (v : α) : NameMap α :=
  ⟨insertEntry k v m.entries, ascending_insertEntry k v m.entries m.ascending⟩

/-- The map of a list of entries; of two entries with one name the later counts. -/
def ofList (es : List (String × α)) : NameMap α :=
  es.foldl (fun m e => m.insert e.1 e.2) empty

theorem lookup_insertEntry (k : String) (v : α) (x : String) :
    ∀ es : List (String × α), (insertEntry k v es).lookup x = if x = k then some v else es.lookup x
  | [] => by
    by_cases h : x = k
    · simp [insertEntry, h]
    · simp [insertEntry, List.lookup_cons, beq_eq_false_iff_ne.2 h, h]
  | (k', v') :: r => by
    rw [insertEntry]
    split
    · by_cases h : x = k
      · simp [h]
      · simp only [List.lookup_cons, beq_eq_false_iff_ne.2 h, h, if_false]
    · split
      · rename_i e
        subst e
        by_cases h : x = k
        · simp [h]
        · simp [List.lookup_cons, h, beq_eq_false_iff_ne.2 h]
      · rename_i _ ne
        by_cases h : x = k'
        · subst h
          simp [Ne.symm ne]
        · simp [List.lookup_cons, beq_eq_false_iff_ne.2 h, lookup_insertEntry k v x r]

theorem get?_insert (m : NameMap α) (k x : String) (v : α) :
    (m.insert k v).get? x = if x = k then some v else m.get? x :=
  lookup_insertEntry k v x m.entries

/-! ### Removal and change of values -/

/-- The map without the name. -/
def erase (m : NameMap α) (k : String) : NameMap α :=
  ⟨m.entries.filter (fun e => e.1 != k),
    m.ascending.sublist ((List.filter_sublist).map Prod.fst)⟩

theorem lookup_filter_ne (k x : String) :
    ∀ es : List (String × α),
      (es.filter (fun e => e.1 != k)).lookup x = if x = k then none else es.lookup x
  | [] => by simp
  | (k', v') :: r => by
    have ih := lookup_filter_ne k x r
    by_cases hk : k' = k
    · subst hk
      by_cases hx : x = k'
      · subst hx; simpa using ih
      · simp [List.lookup_cons, beq_eq_false_iff_ne.2 hx, hx, ih]
    · by_cases hx : x = k'
      · subst hx; simp [hk]
      · simp [List.lookup_cons, hk, beq_eq_false_iff_ne.2 hx, ih]

theorem get?_erase (m : NameMap α) (k x : String) :
    (m.erase k).get? x = if x = k then none else m.get? x :=
  lookup_filter_ne k x m.entries

/-- The map with every value changed by `f`, which may look at the name. -/
def mapWithKey (f : String → α → β) (m : NameMap α) : NameMap β :=
  ⟨m.entries.map fun e => (e.1, f e.1 e.2), by
    simpa [List.map_map, Function.comp_def] using m.ascending⟩

/-- The map with the value under a name changed; a name it does not hold changes nothing. -/
def modify (m : NameMap α) (k : String) (f : α → α) : NameMap α :=
  match m.get? k with
  | some v => m.insert k (f v)
  | none => m

end NameMap
end Steward
