/-
# A trace of leaves and delays

Whatever leaves are, and however they are done, a trace keeps what was done with them: every leaf
that was executed or taken back, with the token it was handed and the answer it gave, and every
delay. The trace has no influence on what happens (`Behaviour.traced_over`, `Signals.traced_over`),
so what is proved of it is proved of every run.

To the runner a command is a leaf: a group and its children are executed at one stroke. A plan in
which each command is a leaf of its own runs as the plan does (`Runner.run_whole`), and its trace
tells of whole commands.

Key definitions: `Doing`, `Behaviour.traced`, `Signals.traced`, `Behaviour.whole`, `Plan.whole`.
Key theorems: `Command.execute_traced`, `Runner.run_traced`, `Runner.run_whole`.
-/
import Steward.Proofs.Cycle.Simulation

namespace Steward

variable {α σ : Type}

/-- A leaf that was executed or taken back, or a delay. -/
inductive Doing (α : Type) where
  | executed (t : Token) (a : α) (answer : Except Error Unit)
  | undone (t : Token) (a : α) (answer : Except Error Unit)
  | waited (d : Duration)

/-- The behaviour of leaves with a trace of them. -/
def Behaviour.traced (b : Behaviour α σ) : Behaviour α (σ × List (Doing α)) where
  execute t a x :=
    let (answer, s) := b.execute t a x.1
    (answer, (s, x.2 ++ [.executed t a answer]))
  undo t a x :=
    let (answer, s) := b.undo t a x.1
    (answer, (s, x.2 ++ [.undone t a answer]))

/-- The signals with a trace of the delays. -/
def Signals.traced (α : Type) (g : Signals σ) : Signals (σ × List (Doing α)) where
  pause x := (g.pause x.1, x.2)
  cancelled x := g.cancelled x.1
  now x := g.now x.1
  wait d x :=
    let (interrupted, s) := g.wait d x.1
    (interrupted, (s, x.2 ++ [.waited d]))

theorem Behaviour.execute_leaf_traced (b : Behaviour α σ) (a : α) (t : Token)
    (x : σ × List (Doing α)) : (Command.leaf a).execute b.traced t x =
      ((b.execute t a x.1).1,
        ((b.execute t a x.1).2, x.2 ++ [.executed t a (b.execute t a x.1).1])) :=
  rfl

theorem Signals.wait_traced (g : Signals σ) (d : Duration) (x : σ × List (Doing α)) :
    (g.traced α).wait d x = ((g.wait d x.1).1, ((g.wait d x.1).2, x.2 ++ [.waited d])) :=
  rfl

theorem Behaviour.traced_over (b : Behaviour α σ) : b.traced.Over Prod.fst b where
  execute _ _ _ := rfl
  undo _ _ _ := rfl

theorem Signals.traced_over (g : Signals σ) : (g.traced α).Over Prod.fst g where
  pause _ := rfl
  cancelled _ := rfl
  now _ := rfl
  wait _ _ := rfl

/-- A command that is traced is the command that is executed without. -/
theorem Command.execute_traced (b : Behaviour α σ) (c : Command α) (t : Token)
    (x : σ × List (Doing α)) :
    Prod.map id Prod.fst (c.execute b.traced t x) = c.execute b t x.1 :=
  c.execute_over (fun a _ => b.traced_over.overAt a) t x

/-- A run that is traced is the run that takes place without. -/
theorem Runner.run_traced [Labelled α] (r : Runner) (g : Signals σ) (b : Behaviour α σ)
    (p : Plan α) (x : σ × List (Doing α)) :
    Prod.map id Prod.fst (r.run (g.traced α) b.traced p x) = r.run g b p x.1 :=
  r.run_over g.traced_over b.traced_over p x

/-! ### Commands as leaves -/

instance [Labelled α] : Labelled (Command α) where
  kind := Command.kind
  module := Command.module
  text := Command.text

/-- Commands as leaves, done as they are. -/
def Behaviour.whole (b : Behaviour α σ) : Behaviour (Command α) σ where
  execute t c := c.execute b t
  undo t c := c.undo b t

/-- The plan in which each command is a leaf. -/
def Plan.whole (p : Plan α) : Plan (Command α) := ⟨p.commands.map .leaf⟩

namespace Runner

variable (r : Runner) (g : Signals σ) (b : Behaviour α σ)

theorem attempt_whole (c : Command α) : ∀ (left : Nat) (number : UInt32) (s : σ),
    r.attempt g b.whole (.leaf c) left number s = r.attempt g b c left number s
  | left, number, s => by
    have once : (Command.leaf c).execute b.whole .cycle s = c.execute b .cycle s := rfl
    rw [attempt, attempt, once]
    cases c.execute b .cycle s with
    | mk answer s₁ =>
      cases answer with
      | ok => rfl
      | error e =>
        cases left with
        | zero => rfl
        | succ left => simp only [attempt_whole c left]

variable [Labelled α]

theorem runAll_whole : ∀ (cs : List (Command α)) (s : σ),
    r.runAll g b.whole (cs.map .leaf) s = r.runAll g b cs s
  | [], _ => rfl
  | c :: cs, s => by
    simp only [List.map_cons, runAll, runCommand, attempt_whole, runAll_whole cs]
    rfl

/-- A plan whose commands are leaves runs as the plan does. -/
theorem run_whole (p : Plan α) (s : σ) : r.run g b.whole p.whole s = r.run g b p s := by
  simp only [run, Plan.whole, runAll_whole]

end Runner
end Steward
