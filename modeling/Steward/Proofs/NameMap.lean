/-
# Maps from names, by their lookups

A map is known by its lookups: `get?` finds exactly the entries (`get?_eq_some_iff`). What the
operations do is said by `get?` of the result, and maps that agree in all lookups are equal, since
their entries are the same and ascend (`eq_of_ascending`).

Key theorems: `NameMap.eq_of_ascending`, `NameMap.get?_eq_some_iff`, `NameMap.ext_get?`,
`NameMap.get?_modify`, `NameMap.get?_mapWithKey`, `NameMap.ofList_toList`, `NameMap.get?_ofList`.
-/
import Mathlib.Data.List.Nodup
import Steward.NameMap

namespace Steward
namespace NameMap

variable {α β : Type}

/-- Lists that ascend strictly in a name of their entries are equal if they have the same ones. -/
theorem eq_of_ascending {f : α → String} {as bs : List α} (ha : as.Pairwise fun a b => f a < f b)
    (hb : bs.Pairwise fun a b => f a < f b) (mem : ∀ a, a ∈ as ↔ a ∈ bs) : as = bs := by
  have nodup : ∀ {as : List α}, (as.Pairwise fun a b => f a < f b) → as.Nodup := fun ascending =>
    ascending.imp fun {a b} lt (same : a = b) => String.ne_of_lt lt (congrArg f same)
  have perm := (List.perm_ext_iff_of_nodup (nodup ha) (nodup hb)).2 mem
  refine perm.eq_of_pairwise ?_ ha hb
  intro a b _ _ lt gt
  exact absurd gt (String.lt_asymm lt)

/-- In a list of ascending names the first entry under a name is the only one. -/
theorem lookup_eq_some_iff {k : String} {v : α} :
    ∀ {es : List (String × α)}, (es.map Prod.fst).Pairwise (· < ·) →
      (es.lookup k = some v ↔ (k, v) ∈ es)
  | [], _ => by simp
  | (k', v') :: r, h => by
    simp only [List.map_cons, List.pairwise_cons] at h
    by_cases e : k = k'
    · subst e
      have fresh : (k, v) ∉ r := fun hm =>
        String.lt_irrefl k (h.1 k (List.mem_map.2 ⟨_, hm, rfl⟩))
      simp [fresh, eq_comm]
    · simp [List.lookup_cons, beq_eq_false_iff_ne.2 e, e, lookup_eq_some_iff h.2]

/-- A lookup finds exactly the entries. -/
theorem get?_eq_some_iff (m : NameMap α) {k : String} {v : α} :
    m.get? k = some v ↔ (k, v) ∈ m.entries :=
  lookup_eq_some_iff m.ascending

theorem mem_keys_iff (m : NameMap α) {k : String} : k ∈ m.keys ↔ ∃ v, m.get? k = some v := by
  simp [keys, get?_eq_some_iff]

theorem get?_modify (m : NameMap α) (k x : String) (f : α → α) :
    (m.modify k f).get? x = if x = k then (m.get? x).map f else m.get? x := by
  unfold modify
  split
  · rename_i v h
    rw [get?_insert]
    split
    · rename_i e
      rw [e, h, Option.map_some]
    · rfl
  · rename_i h
    split
    · rename_i e
      rw [e, h, Option.map_none]
    · rfl

theorem lookup_map_snd (f : String → α → β) (k : String) :
    ∀ es : List (String × α),
      (es.map fun e => (e.1, f e.1 e.2)).lookup k = (es.lookup k).map (f k)
  | [] => rfl
  | (k', v) :: r => by
    by_cases e : k = k'
    · subst e
      simp
    · simp [List.lookup_cons, beq_eq_false_iff_ne.2 e, lookup_map_snd f k r]

theorem get?_mapWithKey (m : NameMap α) (f : String → α → β) (k : String) :
    (m.mapWithKey f).get? k = (m.get? k).map (f k) :=
  lookup_map_snd f k m.entries

/-- Maps with the same lookups are the same map. -/
theorem ext_get? {m m' : NameMap α} (same : ∀ k, m.get? k = m'.get? k) : m = m' := by
  have mem : ∀ e, e ∈ m.entries ↔ e ∈ m'.entries := fun e => by
    rw [← get?_eq_some_iff, ← get?_eq_some_iff, same]
  have entries : m.entries = m'.entries :=
    eq_of_ascending (List.pairwise_map.1 m.ascending) (List.pairwise_map.1 m'.ascending) mem
  cases m
  cases m'
  cases entries
  rfl

/-- The removal of a name that is not there changes nothing. -/
theorem erase_of_get?_eq_none {m : NameMap α} {k : String} (h : m.get? k = none) :
    m.erase k = m := by
  refine ext_get? fun x => ?_
  rw [get?_erase]
  by_cases e : x = k
  · rw [if_pos e, e, h]
  · rw [if_neg e]

/-! ### Maps and their lists -/

theorem insertEntry_last (k : String) (v : α) :
    ∀ {es : List (String × α)}, (∀ e ∈ es, e.1 < k) → insertEntry k v es = es ++ [(k, v)]
  | [], _ => rfl
  | (k', v') :: r, h => by
    have before : k' < k := h (k', v') List.mem_cons_self
    have later : insertEntry k v r = r ++ [(k, v)] :=
      insertEntry_last k v fun e he => h e (List.mem_cons_of_mem _ he)
    have ne : k ≠ k' := fun e => String.lt_irrefl k (e ▸ before)
    rw [insertEntry, if_neg (String.lt_asymm before), if_neg ne, later, List.cons_append]

/-- Entries that ascend are put in one after the other. -/
theorem entries_foldl_insert :
    ∀ {es : List (String × α)} {m : NameMap α},
      ((m.entries ++ es).map Prod.fst).Pairwise (· < ·) →
      (es.foldl (fun m e => m.insert e.1 e.2) m).entries = m.entries ++ es
  | [], m, _ => (List.append_nil m.entries).symm
  | (k, v) :: es, m, h => by
    have before : ∀ e ∈ m.entries, e.1 < k := by
      intro e he
      rw [List.map_append, List.pairwise_append] at h
      exact h.2.2 e.1 (List.mem_map_of_mem he) k List.mem_cons_self
    have one : (m.insert k v).entries = m.entries ++ [(k, v)] := insertEntry_last k v before
    have all : m.entries ++ (k, v) :: es = (m.insert k v).entries ++ es := by
      rw [one, List.append_assoc, List.singleton_append]
    rw [List.foldl_cons, all]
    exact entries_foldl_insert (all ▸ h)

/-- The map of a map's entries is the map. -/
theorem ofList_toList (m : NameMap α) : ofList m.toList = m := by
  have same : (ofList m.toList).entries = m.entries :=
    entries_foldl_insert (m := empty) m.ascending
  cases m
  cases h : ofList _
  rw [h] at same
  cases same
  rfl

theorem mem_insert {m : NameMap α} {k : String} {v : α} {e : String × α}
    (h : e ∈ (m.insert k v).entries) : e = (k, v) ∨ e ∈ m.entries := by
  rw [← get?_eq_some_iff, get?_insert] at h
  by_cases same : e.1 = k
  · rw [if_pos same] at h
    exact .inl (Prod.ext same (Option.some.inj h).symm)
  · rw [if_neg same, get?_eq_some_iff] at h
    exact .inr h

/-- Every entry of the map of a list is one of the list. -/
theorem mem_of_mem_foldl {e : String × α} : ∀ (es : List (String × α)) {m : NameMap α},
    e ∈ (es.foldl (fun m e => m.insert e.1 e.2) m).entries → e ∈ m.entries ∨ e ∈ es
  | [], _, h => .inl h
  | (k, v) :: es, m, h => by
    rcases mem_of_mem_foldl es h with h | h
    · rcases mem_insert h with rfl | h
      · exact .inr List.mem_cons_self
      · exact .inl h
    · exact .inr (List.mem_cons_of_mem _ h)

theorem mem_of_mem_ofList {es : List (String × α)} {e : String × α}
    (h : e ∈ (ofList es).entries) : e ∈ es :=
  (mem_of_mem_foldl es h).resolve_left List.not_mem_nil

end NameMap
end Steward
