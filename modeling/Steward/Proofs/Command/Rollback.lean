/-
# Groups roll back

A group of leaves executes them in order, and if one fails it takes back those before it, from the
last to the first (`Command.executeAll_inTurn`). It does so to the end whatever fails in it, and its
failure is that of the leaf.

A group of groups does the same with all leaves in it as long as nothing fails to be taken back
(`Command.execute_eq_leaves`): a group that fails takes back its own leaves before the group around
it takes back the groups before it, and these are taken back leaf by leaf
(`Command.undo_eq_leaves`). Were something to fail there, the rest of its group would not be taken
back, but what comes before the group would.

Key definition: `InTurn`.
Key theorems: `Command.undo_eq_leaves`, `Command.execute_eq_leaves`, `Command.executeAll_inTurn`,
`Command.rollback_flat`.
-/
import Mathlib.Data.List.Forall2
import Steward.Proofs.Cycle.Trace

namespace Steward

variable {α σ : Type}

namespace Command

variable (b : Behaviour α σ)

/-! ### Groups are taken back leaf by leaf -/

/-- What comes later is taken back first, and if that fails nothing else is. -/
theorem undoAll_append (t : Token) (ds : List (Command α)) : ∀ (cs : List (Command α)) (s : σ),
    undoAll b t (cs ++ ds) s =
      match undoAll b t ds s with
      | (.ok (), s) => undoAll b t cs s
      | (.error e, s) => (.error e, s)
  | [], s => by
    rw [List.nil_append]
    split <;> rename_i e <;> rw [e]
    rfl
  | c :: cs, s => by
    rw [List.cons_append, undoAll, undoAll_append t ds cs]
    cases undoAll b t ds s with
    | mk answer s₁ =>
      cases answer with
      | ok => rfl
      | error => rfl

mutual

/-- A command is taken back as its leaves are. -/
theorem undo_eq_leaves (t : Token) : ∀ (c : Command α) (s : σ),
    c.undo b t s = undoAll b t (c.leaves.map leaf) s
  | leaf _, _ => rfl
  | group _ _ cs, s => undoAll_eq_leaves t cs s

theorem undoAll_eq_leaves (t : Token) : ∀ (cs : List (Command α)) (s : σ),
    undoAll b t cs s = undoAll b t ((leavesOf cs).map leaf) s
  | [], _ => rfl
  | c :: cs, s => by
    rw [undoAll, leavesOf, List.map_append, undoAll_append, ← undoAll_eq_leaves t cs]
    cases undoAll b t cs s with
    | mk answer s₁ =>
      cases answer with
      | ok => exact undo_eq_leaves t c s₁
      | error => rfl

end

/-! ### Groups are executed leaf by leaf -/

theorem executeAll_singleton (c : Command α) (t : Token) (s : σ) :
    executeAll b t [c] s = c.execute b t s := by
  simp only [executeAll]
  split <;> rename_i e <;> rw [e]

variable {b}

/-- Leaves that can be taken back one by one can be taken back together. -/
theorem undoAll_ok {t : Token} : ∀ {as : List α}, (∀ a ∈ as, ∀ s, (b.undo t a s).1 = .ok ()) →
    ∀ s, (undoAll b t (as.map leaf) s).1 = .ok ()
  | [], _, _ => rfl
  | a :: as, reverts, s => by
    have later := undoAll_ok (fun a' ha' => reverts a' (List.mem_cons_of_mem _ ha')) s
    rw [List.map_cons, undoAll]
    cases undone : undoAll b t (as.map leaf) s with
    | mk answer s₁ =>
      rw [undone] at later
      obtain rfl : answer = .ok () := later
      exact reverts a List.mem_cons_self s₁

/-- If what comes later fails, what came before is taken back. -/
theorem executeAll_append {t : Token} (bs : List α) : ∀ {as : List α},
    (∀ a ∈ as, ∀ s, (b.undo .fresh a s).1 = .ok ()) → ∀ s,
    executeAll b t ((as ++ bs).map leaf) s =
      match executeAll b t (as.map leaf) s with
      | (.error e, s) => (.error e, s)
      | (.ok (), s) =>
        match executeAll b t (bs.map leaf) s with
        | (.ok (), s) => (.ok (), s)
        | (.error e, s) => (.error e, (undoAll b .fresh (as.map leaf) s).2)
  | [], _, s => by
    rw [List.nil_append, List.map_nil, executeAll]
    dsimp only
    split <;> rename_i e <;> rw [e]
    rfl
  | a :: as, reverts, s => by
    have others := fun a' ha' => reverts a' (List.mem_cons_of_mem a ha')
    have later := executeAll_append (t := t) bs others
    rw [List.cons_append, List.map_cons, List.map_cons, executeAll, executeAll]
    cases (leaf a).execute b t s with
    | mk answer s₁ =>
      cases answer with
      | error => rfl
      | ok =>
        simp only [later s₁]
        cases executeAll b t (as.map leaf) s₁ with
        | mk answer s₂ =>
          cases answer with
          | error => rfl
          | ok =>
            dsimp only
            cases executeAll b t (bs.map leaf) s₂ with
            | mk answer s₃ =>
              cases answer with
              | ok => rfl
              | error e =>
                -- the leaves in front are taken back to the end
                have back := undoAll_ok others s₃
                simp only [undoAll]
                cases undone : undoAll b .fresh (as.map leaf) s₃ with
                | mk answer s₄ =>
                  rw [undone] at back
                  obtain rfl : answer = .ok () := back
                  rfl

mutual

/-- A command of which all leaves can be taken back does them one after another. -/
theorem execute_eq_leaves (t : Token) : ∀ (c : Command α),
    (∀ a ∈ c.leaves, ∀ s, (b.undo .fresh a s).1 = .ok ()) → ∀ s,
    c.execute b t s = executeAll b t (c.leaves.map leaf) s
  | leaf a, _, s => (executeAll_singleton b (leaf a) t s).symm
  | group _ _ cs, reverts, s => executeAll_eq_leaves t cs reverts s

theorem executeAll_eq_leaves (t : Token) : ∀ (cs : List (Command α)),
    (∀ a ∈ leavesOf cs, ∀ s, (b.undo .fresh a s).1 = .ok ()) → ∀ s,
    executeAll b t cs s = executeAll b t ((leavesOf cs).map leaf) s
  | [], _, _ => rfl
  | c :: cs, reverts, s => by
    have own := fun a ha => reverts a (List.mem_append_left _ ha)
    have others := fun a ha => reverts a (List.mem_append_right _ ha)
    rw [executeAll, leavesOf, executeAll_append (leavesOf cs) own, ← execute_eq_leaves t c own]
    cases c.execute b t s with
    | mk answer s₁ =>
      cases answer with
      | error => rfl
      | ok =>
        dsimp only
        rw [executeAll_eq_leaves t cs others s₁]
        cases executeAll b t ((leavesOf cs).map leaf) s₁ with
        | mk answer s₂ =>
          cases answer with
          | ok => rfl
          | error e =>
            dsimp only
            rw [undo_eq_leaves]

end

end Command

/-! ### What a group of leaves does -/

/-- What is done with leaves one after another, and the answer: all are executed without a failure,
or those before some leaf are, this one fails with the error that is answered, and then those before
it are taken back, each once, from the last to the first and with the fresh token. -/
inductive InTurn (t : Token) (as : List α) : List (Doing α) → Except Error Unit → Prop
  | all : InTurn t as (as.map (.executed t · (.ok ()))) (.ok ())
  | fails {done rest : List α} {a : α} {e : Error} {undone : List (Doing α)} :
    as = done ++ a :: rest →
    List.Forall₂ (fun a doing => ∃ answer, doing = .undone .fresh a answer) done.reverse undone →
    InTurn t as (done.map (.executed t · (.ok ())) ++ .executed t a (.error e) :: undone) (.error e)

namespace InTurn

variable {t : Token} {as : List α} {doings : List (Doing α)} {e : Error}

/-- A leaf that is executed before leaves that succeed. -/
theorem goes (turn : InTurn t as doings (.ok ())) (a : α) :
    InTurn t (a :: as) (.executed t a (.ok ()) :: doings) (.ok ()) := by
  cases turn
  exact .all

/-- A leaf that is executed before leaves of which one fails is taken back after them. -/
theorem backs (turn : InTurn t as doings (.error e)) (a : α) (answer : Except Error Unit) :
    InTurn t (a :: as) (.executed t a (.ok ()) :: doings ++ [.undone .fresh a answer])
      (.error e) := by
  cases turn with
  | @fails done rest a' _ undone split taken =>
    have last : List.Forall₂ (fun a doing => ∃ answer, doing = Doing.undone .fresh a answer)
        (a :: done).reverse (undone ++ [.undone .fresh a answer]) := by
      rw [List.reverse_cons]
      exact List.rel_append taken (.cons ⟨answer, rfl⟩ .nil)
    have more : InTurn t (a :: as) _ (.error e) := .fails (congrArg (a :: ·) split) last
    simpa using more

end InTurn

namespace Command

/-- Leaves are done in turn, whatever fails. -/
theorem executeAll_inTurn (b : Behaviour α σ) (t : Token) : ∀ (as : List α)
    (x : σ × List (Doing α)), ∃ doings,
      (executeAll b.traced t (as.map leaf) x).2.2 = x.2 ++ doings ∧
        InTurn t as doings (executeAll b.traced t (as.map leaf) x).1
  | [], x => ⟨[], (List.append_nil _).symm, .all⟩
  | a :: as, x => by
    have once := b.execute_leaf_traced a t x
    cases first : b.execute t a x.1 with
    | mk answer s₁ =>
      rw [first] at once
      rw [List.map_cons, executeAll, once]
      cases answer with
      | error e => exact ⟨[.executed t a (.error e)], rfl, .fails (List.nil_append (a :: as)).symm .nil⟩
      | ok =>
        obtain ⟨doings, grown, turn⟩ :=
          executeAll_inTurn b t as (s₁, x.2 ++ [.executed t a (.ok ())])
        dsimp only
        cases later : executeAll b.traced t (as.map leaf) (s₁, x.2 ++ [.executed t a (.ok ())]) with
        | mk answer x₂ =>
          rw [later] at grown turn
          have log : x₂.2 = x.2 ++ [.executed t a (.ok ())] ++ doings := grown
          cases answer with
          | ok => exact ⟨_, by rw [log, List.append_assoc]; rfl, turn.goes a⟩
          | error e =>
            have back : ((leaf a).undo b.traced .fresh x₂).2.2 =
                x₂.2 ++ [.undone .fresh a (b.undo .fresh a x₂.1).1] := rfl
            refine ⟨_, ?_, turn.backs a (b.undo .fresh a x₂.1).1⟩
            rw [back, log]
            simp

/-- **Groups roll back.** Let all that is done with leaves be traced, which has no influence. If no
leaf of a command fails to be taken back, the command, with groups in groups to whatever depth, does
what one group of its leaves does, with the same answer in the same order of calls: the leaves in
turn, and if one fails those before it backwards. Such a group of leaves does so even if leaves
fail to be taken back. What is taken back is handed the fresh token, which is never cancelled. -/
theorem rollback_flat (b : Behaviour α σ) (t : Token) (s : σ) :
    (∀ c : Command α, (∀ a ∈ c.leaves, ∀ s, (b.undo .fresh a s).1 = .ok ()) →
      (∀ kind module, c.execute b.traced t (s, []) =
        (group kind module (c.leaves.map leaf)).execute b.traced t (s, [])) ∧
      InTurn t c.leaves (c.execute b.traced t (s, [])).2.2 (c.execute b.traced t (s, [])).1) ∧
    (∀ (as : List α) kind module,
      InTurn t as ((group kind module (as.map leaf)).execute b.traced t (s, [])).2.2
        ((group kind module (as.map leaf)).execute b.traced t (s, [])).1) ∧
    (∀ c : Command α, Prod.map id Prod.fst (c.execute b.traced t (s, [])) = c.execute b t s) ∧
    ∀ (g : Signals σ) s, (g.isCancelled .fresh s).1 = false := by
  have turns : ∀ as : List α, InTurn t as (executeAll b.traced t (as.map leaf) (s, [])).2.2
      (executeAll b.traced t (as.map leaf) (s, [])).1 := by
    intro as
    obtain ⟨doings, log, turn⟩ := executeAll_inTurn b t as (s, [])
    rwa [log]
  refine ⟨fun c reverts => ?_, fun as _ _ => turns as, fun c => c.execute_traced b t (s, []),
    fun _ _ => rfl⟩
  have flat : c.execute b.traced t (s, []) =
      executeAll b.traced t (c.leaves.map leaf) (s, []) :=
    c.execute_eq_leaves t (fun a ha x => reverts a ha x.1) (s, [])
  refine ⟨fun _ _ => flat, ?_⟩
  rw [flat]
  exact turns c.leaves

end Command

/-! A sample: the fourth of five leaves fails, in a group within a group. -/

namespace Command.Sample

/-- Leaves by number: those that are done are kept in the state, and the fourth is refused. -/
def balky : Behaviour Nat (List Nat) where
  execute _ n s := if n = 4 then (.error (.io "no"), s) else (.ok (), n :: s)
  undo _ n s := (.ok (), s.erase n)

def nested : Command Nat :=
  .group .create "a"
    [.leaf 1, .group .update "a" [.leaf 2, .group .stop "a" [.leaf 3], .leaf 4], .leaf 5]

end Command.Sample

open Command.Sample in
theorem rollback_flat_sample :
    (∀ a ∈ nested.leaves, ∀ s, (balky.undo .fresh a s).1 = .ok ()) ∧
    (nested.execute balky.traced .cycle ([], [])).2 =
      ([], [.executed .cycle 1 (.ok ()), .executed .cycle 2 (.ok ()), .executed .cycle 3 (.ok ()),
        .executed .cycle 4 (.error (.io "no")), .undone .fresh 3 (.ok ()),
        .undone .fresh 2 (.ok ()), .undone .fresh 1 (.ok ())]) ∧
    InTurn .cycle [1, 2, 3, 4, 5] (nested.execute balky.traced .cycle ([], [])).2.2
      (.error (.io "no")) := by
  have reverts : ∀ a ∈ nested.leaves, ∀ s, (balky.undo .fresh a s).1 = .ok () := fun _ _ _ => rfl
  exact ⟨reverts, rfl, ((Command.rollback_flat balky .cycle []).1 nested reverts).2⟩

end Steward
