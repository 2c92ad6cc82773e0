/-
# The file shows the map

A map of restart states is read back from the text that the file store writes of it
(`States.parse?_indented`), if timestamps can name its times (`States.Nameable`). A map that was read
from a text always is such a map (`States.nameable_of_parse?`).

Key definitions: `States.Nameable`.
Key theorems: `RestartState.read_view`, `States.parse?_indented`, `States.nameable_of_parse?`.
-/
import Steward.Proofs.Format
import Steward.Store.File

namespace Steward

namespace RestartState

variable {δ : Type} {F : Format Option δ} {view : Json → δ}

/-- A state is read from its record. -/
theorem read_view (shows : F.Shows view) {v : RestartState} (h : v.last.Nameable) :
    RestartState.read F (view v.toJson) = some v := by
  obtain ⟨ds, given, found⟩ := shows.fields ["restart_count", "last_restart_time_utc"]
    (j := v.toJson) ⟨_, rfl, by simp⟩
  have bound : v.count.toNat < UInt32.size := v.count.toNat_lt
  have fits : (Number.integer v.count.toNat).Fits := by
    simp only [Number.Fits, UInt64.size, UInt32.size] at bound ⊢
    omega
  have count : Format.required ds "restart_count" (F.below UInt32.size) = some v.count.toNat :=
    Format.required_of_lookup (found _ (by simp)) (shows.below fits bound)
  have last : Format.required ds "last_restart_time_utc" F.instant = some v.last :=
    Format.required_of_lookup (found _ (by simp)) (shows.instant h)
  simp only [read, given, count, last, Option.bind_eq_bind, Option.bind_some, UInt32.ofNat_toNat]
  rfl

/-- The time in a state that was read is the instant of a timestamp. -/
theorem nameable_of_read {d : δ} {v : RestartState} (h : RestartState.read F d = some v) :
    v.last.Nameable := by
  simp only [read, Option.bind_eq_bind, Option.bind_eq_some_iff, Option.pure_def,
    Option.some.injEq] at h
  obtain ⟨fs, -, count, -, last, time, rfl⟩ := h
  exact Format.of_required (fun _ => Format.nameable_of_instant) time

end RestartState

namespace States

/-- Whether timestamps can name the times in a map. -/
def Nameable (s : States) : Prop := ∀ e ∈ s.entries, e.2.last.Nameable

theorem read_fields : ∀ es : List (String × RestartState), (∀ e ∈ es, e.2.last.Nameable) →
    (es.map fun e => (e.1, e.2.toJson.document)).mapM (fun (k, d) => do
      pure (k, ← RestartState.read Document.format d)) = some es
  | [], _ => rfl
  | (k, v) :: es, h => by
    have first := RestartState.read_view Document.shows_document (h (k, v) List.mem_cons_self)
    have others := read_fields es fun e he => h e (List.mem_cons_of_mem _ he)
    rw [List.map_cons, List.mapM_cons, others]
    simp only [first, Option.bind_eq_bind, Option.bind_some]
    rfl

/-- The map is read from the text that the file shows of it. -/
theorem parse?_indented {s : States} (h : s.Nameable) : parse? s.toJson.indented = some s := by
  have entries : Document.format.entries s.toJson.document =
      some (s.toList.map fun e => (e.1, e.2.toJson.document)) := by
    rw [toJson, Json.document]
    refine (Document.named_fieldDocuments _).trans ?_
    rw [List.map_map]
    rfl
  rw [parse?, Json.parse?_indented, Option.bind_some, Format.map, entries,
    Option.bind_eq_bind, Option.bind_some, read_fields s.toList h]
  exact congr_arg some (NameMap.ofList_toList s)

theorem nameable_fields : ∀ {ds : List (String × Document)} {es : List (String × RestartState)},
    ds.mapM (fun (k, d) => do pure (k, ← RestartState.read Document.format d)) = some es →
      ∀ e ∈ es, e.2.last.Nameable
  | [], es, h, e, he => by
    cases h
    cases he
  | (k, d) :: ds, es, h, e, he => by
    simp only [List.mapM_cons, Option.bind_eq_bind, Option.bind_eq_some_iff, Option.pure_def,
      Option.some.injEq] at h
    obtain ⟨_, ⟨v, first, rfl⟩, others, rest, rfl⟩ := h
    rcases List.mem_cons.1 he with rfl | he
    · exact RestartState.nameable_of_read first
    · exact nameable_fields rest e he

/-- A map that was read has times that timestamps can name. -/
theorem nameable_of_parse? {text : String} {s : States} (h : parse? text = some s) :
    s.Nameable := by
  simp only [parse?, Format.map, Option.bind_eq_bind, Option.bind_eq_some_iff, Option.pure_def,
    Option.some.injEq] at h
  obtain ⟨d, -, ds, -, es, read, rfl⟩ := h
  intro e he
  exact nameable_fields read e (NameMap.mem_of_mem_ofList he)

end States
end Steward
