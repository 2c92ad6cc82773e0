/-
# Failures leave the device as it was

On a single host the commands of several steps bring a module, or change the declared status of one.
Planned for what is there (`Target.Fits`), such a command that fails leaves the whole table as it
was: at whichever step it fails, and whatever the failure is, what the steps before it did is taken
back (`Host.IsDevice.restored`). A status is changed back to the one that the command was planned
from, and this is why it has to be the one that is there.

The steps of a command act on the entry of one module, so the table is compared name by name. Every
attempt begins with the same table, and a command that fails in the end might not have been run
(`Host.IsDevice.failure_restores`).

Key definition: `Target.Fits`.
Key theorems: `Host.IsDevice.restored`, `Host.IsDevice.failure_restores`.
-/
import Steward.Proofs.Device.Steady
import Steward.Proofs.Plan.Blocks

namespace Steward

variable {σ : Type}

/-- The command of several steps fits the table: it brings a module that is not there, or it changes
the status of one that is there from the status that is declared there. -/
inductive Target.Fits (t : Target) (table : Table) : Command Action → Prop
  | create {m : Module} {runtime : RuntimeInfo} {identity : Option Identity} :
    table.get? m.name = none → t.Fits table (t.create m runtime identity)
  | update {old m : Module} {e : Entry} :
    table.get? m.name = some e → e.module.status = old.status → t.Fits table (t.update old m)

namespace Host.IsDevice

variable {h : Host σ} {table : σ → Table} (device : h.IsDevice table) {t : Target}
  {c : Command Action} {ok : Bool} {v v' : Table}

/-- What is known of an attempt at the table is known of each entry. -/
theorem attempted_entry (attempt : Attempted (Action.behaviour h) table c ok v v') (n : String) :
    Attempted (Action.behaviour h) (entryAt table n) c ok (v.get? n) (v'.get? n) := by
  obtain ⟨s, rfl, answer, rfl⟩ := attempt
  exact ⟨s, rfl, answer, rfl⟩

include device

/-- A command that handles one module and leaves the entry of that module as it was leaves the table
as it was. -/
theorem eq_of_handles {m : Module} (handles : ∀ a ∈ c.leaves, a.Handles m)
    (attempt : Attempted (Action.behaviour h) table c ok v v')
    (same : v'.get? m.name = v.get? m.name) : v' = v := by
  refine NameMap.ext_get? fun n => ?_
  by_cases own : n = m.name
  · rw [own, same]
  · have other : ∀ a ∈ c.leaves, Labelled.module a ≠ n := by
      intro a ha
      rw [(handles a ha).module_eq]
      exact Ne.symm own
    exact device.attempted_frame other (attempted_entry attempt n)

variable (host : t.place = .host)

include host

/-- An attempt that fails at a command which fits the table leaves the table as it was. -/
theorem restored (fits : t.Fits v c) (attempt : Attempted (Action.behaviour h) table c false v v') :
    v' = v := by
  cases fits with
  | @create m _ _ absent =>
    refine device.eq_of_handles (t.handles_create m _ _) attempt ?_
    -- the module is not there, so it is all the same whether it was created and removed
    have failed := device.not_created host rfl (attempted_entry attempt m.name)
    rw [absent] at failed ⊢
    exact failed.elim id id
  | @update old m e there status =>
    refine device.eq_of_handles (t.handles_update m old) attempt ?_
    have entry := attempted_entry attempt m.name
    rw [there] at entry ⊢
    exact device.not_updated host rfl status entry

/-- **Failures leave the device as it was.** If a command that fits the table fails, whatever step
it fails at and for whatever reason, the whole table is as it was before. So all attempts that are
made at it begin with the same table, and if the last one fails as well the table stays as it was.
-/
theorem failure_restores {s : σ} (fits : t.Fits (table s) c) :
    (∀ e s', c.execute (Action.behaviour h) .cycle s = (.error e, s') → table s' = table s) ∧
    ∀ (r : Runner) verdict interrupted s',
      r.runCommand h.toSignals (Action.behaviour h) c s = ((verdict, interrupted), s') →
      Tried (fun ok v v' => v = table s ∧ Attempted (Action.behaviour h) table c ok v v')
        verdict.attempts.toNat verdict.isSuccess (table s) (table s') ∧
      (verdict.isSuccess = false → table s' = table s) := by
  constructor
  · intro e s' failed
    exact device.restored host fits ⟨s, rfl, by rw [failed]; rfl, by rw [failed]⟩
  · intro r verdict interrupted s' ran
    have tried := (r.runCommand_tried (Action.behaviour h) c device.keeps s).2
    rw [ran] at tried
    have fails : ∀ v', Attempted (Action.behaviour h) table c false (table s) v' → v' = table s :=
      fun v' attempt => device.restored host fits attempt
    refine ⟨tried.from_start fails rfl, fun failure => ?_⟩
    obtain ⟨v, start, last⟩ := tried.last_attempt (P := (· = table s))
      (fun v v' start attempt => fails v' (start ▸ attempt)) rfl
    rw [failure, start] at last
    exact fails _ last

end Host.IsDevice

/-! A sample on a device with two modules: a third one is brought and does not start, and while one
of the two is to stop the cycle is cancelled. -/

namespace Planner.Sample

/-- Two modules that run. -/
def pair : Table :=
  [running "a" "a:1", running "b" "b:1"].foldl
    (fun t m => t.insert m.name ((Entry.placed m).started .epoch)) ∅

/-- A rehearsal with them in which a start fails, and in which a change of status is the last call
before the cycle is cancelled. -/
def obstructed : Rehearsal where
  table := pair
  rules := [
    { call := "start c", error := some (.command (.failed "start" "c" "no space")) },
    { call := "status a stopped", cancel := true }]

def bringThird : Command Action := planner.target.create (running "c" "c:1") {} none

def haltFirst : Command Action :=
  planner.target.update (running "a" "a:1") { running "a" "a:1" with status := .stopped }

end Planner.Sample

open Planner.Sample in
theorem failure_restores_sample :
    planner.target.Fits pair bringThird ∧ planner.target.Fits pair haltFirst ∧
    (∃ s', bringThird.execute (Action.behaviour (Rehearsal.steady .epoch)) .cycle obstructed =
      (.error (.command (.failed "start" "c" "no space")), s') ∧ s'.table = pair) ∧
    (∃ s', haltFirst.execute (Action.behaviour (Rehearsal.steady .epoch)) .cycle obstructed =
      (.error (.command (.cancelled "a")), s') ∧ s'.table = pair) ∧
    ∃ s', ({} : Runner).runCommand (Rehearsal.steady .epoch).toSignals
        (Action.behaviour (Rehearsal.steady .epoch)) bringThird obstructed =
      ((.failed (Error.command (.failed "start" "c" "no space")).message 3, false), s') ∧
        s'.table = pair := by
  have restores := fun {c : Command Action} (fits : planner.target.Fits pair c) =>
    Host.IsDevice.failure_restores (Rehearsal.steady_isDevice .epoch) rfl (s := obstructed) fits
  have brings : planner.target.Fits pair bringThird := .create rfl
  have halts : planner.target.Fits pair haltFirst := .update rfl rfl
  refine ⟨brings, halts, ?_, ?_, ?_⟩
  · have failed : (bringThird.execute (Action.behaviour (Rehearsal.steady .epoch)) .cycle
        obstructed).1 = .error (.command (.failed "start" "c" "no space")) := rfl
    cases ran : bringThird.execute _ .cycle obstructed with
    | mk answer s' =>
      rw [ran] at failed
      cases failed
      exact ⟨s', rfl, (restores brings).1 _ _ ran⟩
  · have cancelled : (haltFirst.execute (Action.behaviour (Rehearsal.steady .epoch)) .cycle
        obstructed).1 = .error (.command (.cancelled "a")) := rfl
    cases ran : haltFirst.execute _ .cycle obstructed with
    | mk answer s' =>
      rw [ran] at cancelled
      cases cancelled
      exact ⟨s', rfl, (restores halts).1 _ _ ran⟩
  · have retried : (({} : Runner).runCommand (Rehearsal.steady .epoch).toSignals
        (Action.behaviour (Rehearsal.steady .epoch)) bringThird obstructed).1 =
          (.failed (Error.command (.failed "start" "c" "no space")).message 3, false) := by
      decide +kernel
    cases ran : ({} : Runner).runCommand _ _ bringThird obstructed with
    | mk ending s' =>
      rw [ran] at retried
      cases retried
      exact ⟨s', rfl, ((restores brings).2 {} _ _ _ ran).2 rfl⟩

end Steward
