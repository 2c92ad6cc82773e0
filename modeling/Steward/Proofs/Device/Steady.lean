/-
# A rehearsal that is a device

A rehearsal whose rules only answer the requests of the cycle itself, not those of a rollback, and
whose store never fails, satisfies what is asked of a device and of a host that remembers, from
whatever state it starts. Its clock stands still.

Key definitions: `Rehearsal.steady`.
Key theorems: `Rehearsal.steady_isDevice`, `Rehearsal.steady_remembers`.
-/
import Steward.Device.Rehearsal
import Steward.Proofs.Device.Entries
import Steward.Proofs.Device.Memory

namespace Steward
namespace Rehearsal

/-- A rehearsal with a clock that stands still, rollbacks that succeed and a store that never fails.
-/
def steady (now : Instant) : Host Rehearsal where
  pause := id
  cancelled := Rehearsal.cancelled
  now _ := now
  wait := wait
  request
    | .cycle, r, s =>
      match call (requestText r) s with
      | (.ok (), s) => (.ok (), { s with table := s.table.carryOut now r })
      | (.error e, s) => (.error e, s)
    | .fresh, r, s => (.ok (), { s with table := s.table.carryOut now r })
  store := memoryStore.through Rehearsal.states fun states s => { s with states }

/-- A call does not touch the table or the restart states. -/
theorem call_keeps (text : String) (s : Rehearsal) :
    (call text s).2.table = s.table ∧ (call text s).2.states = s.states := by
  unfold call
  cases consult text s.rules with
  | mk found rules =>
    cases found with
    | none => exact ⟨rfl, rfl⟩
    | some r =>
      dsimp only
      cases r.error <;> exact ⟨rfl, rfl⟩

theorem wait_keeps (d : Duration) (s : Rehearsal) :
    (wait d s).2.table = s.table ∧ (wait d s).2.states = s.states := by
  unfold wait
  cases s.cancelled with
  | true => exact ⟨rfl, rfl⟩
  | false =>
    rw [if_neg Bool.false_ne_true]
    cases s.deadline with
    | none => exact ⟨rfl, rfl⟩
    | some limit =>
      by_cases late : limit ≤ s.waited + d.toNanos
      · simp only [if_pos late, and_self]
      · simp only [if_neg late, and_self]

theorem steady_isDevice (now : Instant) : (steady now).IsDevice Rehearsal.table where
  keeps := ⟨fun _ => rfl, fun d s => (wait_keeps d s).1⟩
  done := by
    intro t r s s' h
    cases t with
    | cycle =>
      have kept := (call_keeps (requestText r) s).1
      simp only [steady] at h
      split at h <;> rename_i e <;> cases h
      rw [e] at kept
      simp only [steady, ← kept]
    | fresh =>
      cases h
      rfl
  failed := by
    intro t r s e s' h
    cases t with
    | cycle =>
      have kept := (call_keeps (requestText r) s).1
      simp only [steady] at h
      split at h <;> rename_i e <;> cases h
      rw [e] at kept
      exact kept
    | fresh => cases h
  fresh _ _ := rfl
  get _ _ := rfl
  update _ _ _ := rfl
  putOrUpdate _ _ _ _ := rfl

theorem steady_remembers (now : Instant) : (steady now).Remembers Rehearsal.states where
  keeps := ⟨fun _ => rfl, fun d s => (wait_keeps d s).2⟩
  request t r s := by
    cases t with
    | cycle =>
      have kept := (call_keeps (requestText r) s).2
      simp only [steady]
      split <;> rename_i e <;> rw [e] at kept <;> exact kept
    | fresh => rfl
  get _ _ := rfl
  update _ _ _ := rfl
  putOrUpdate _ _ _ _ := rfl

end Rehearsal

/-! A sample for it: one module that has failed, and that is desired as it is. -/

namespace Planner.Sample

/-- What is there, and with another observation what is desired. -/
def alone : ModuleSet := .insert .empty crashed

/-- An hour after the start of time. -/
def later : Instant := ⟨3600, 0⟩

/-- The commands that are planned for it. -/
def anew : List (Command Action) :=
  [.group .restart "d" [.leaf (.recordRestart "d"), .leaf (.host .restart crashed)]]

/-- A rehearsal in which the module cannot be restarted. -/
def stuck : Rehearsal where
  rules := [{ call := "restart d", error := some (.command (.failed "restart" "d" "no")) }]

theorem blocks_alone {σ : Type} (st : StateStore σ) (s : σ) {told : RestartState} {now : Instant}
    (history : (st.history "d" s).1 = told)
    (asked : planner.policyCommand crashed told now = anew.head?) :
    planner.blocks st alone alone {} now s = anew := by
  have unchanged : changes alone (alone.diff alone) = {} := by rfl
  have kept : settled alone alone (alone.diff alone) = [crashed] := by rfl
  simp only [blocks, unchanged, byName, List.mergeSort_nil, List.map_nil, List.nil_append, kept]
  simp only [policyCommands]
  rw [show crashed.name = "d" from rfl, history, asked]
  rfl

/-! A sample of one module that changes its status only. -/

/-- One module that runs. -/
def going : ModuleSet := .insert .empty (running "a" "a:1")

/-- The module with another status. -/
def turned (status : Status) : ModuleSet := .insert .empty { running "a" "a:1" with status }

theorem blocks_turned {σ : Type} (p : Planner) (st : StateStore σ) (s : σ) {now : Instant}
    {status : Status} (other : status ≠ .running) :
    p.blocks st (turned status) going {} now s =
      [p.target.update (running "a" "a:1") { running "a" "a:1" with status }] := by
  have parts : changes going ((turned status).diff going) =
      { adjusted := [(running "a" "a:1", { running "a" "a:1" with status })] } ∧
      settled (turned status) going ((turned status).diff going) = [] := by
    cases status with
    | running => exact absurd rfl other
    | stopped | unknown => exact ⟨rfl, rfl⟩
  simp only [blocks, parts, byName, List.mergeSort_nil, List.map_nil, List.nil_append,
    List.map_cons, List.append_nil]
  rfl

end Planner.Sample
end Steward
