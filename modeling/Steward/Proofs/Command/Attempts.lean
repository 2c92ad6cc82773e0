/-
# Attempts at commands

Whatever all leaves of a command do to the state, the command does: if every leaf, done or taken
back, keeps to a relation between a state and a later one, so does the command (`execute_moves`).

More is known of a view of the state, a part of it that is read apart from the rest, if what happens
between steps leaves it alone (`Signals.Keeps`). What an attempt at a group does to the view is told
by what its children do to it: either all of them succeed one after another, or one fails and those
before it are taken back in reverse (`Together`). A planned leaf either fails at the look at its
token, or it is carried out (`Action.execute_cases`); it keeps to whatever pauses, its requests and
its change to the store keep to (`Action.moves`).

Key definitions: `Behaviour.Moves`, `Signals.Keeps`, `Attempted`, `Undone`, `Together`,
`Action.forward`.
Key theorems: `Command.execute_moves`, `Attempted.together`, `Action.execute_cases`,
`Action.moves`.
-/
import Mathlib.Order.Defs.Unbundled
import Steward.Command.Action

namespace Steward

variable {α σ V : Type}

/-! ### What all leaves do -/

/-- A leaf keeps to a relation between a state and a later one, whether it is done or taken back. -/
def Behaviour.Moves (b : Behaviour α σ) (R : σ → σ → Prop) (a : α) : Prop :=
  ∀ t s, R s (b.execute t a s).2 ∧ R s (b.undo t a s).2

namespace Command

variable {b : Behaviour α σ} {R : σ → σ → Prop}

mutual

theorem undo_moves [IsPreorder σ R] : ∀ (c : Command α), (∀ a ∈ c.leaves, b.Moves R a) →
    ∀ t s, R s (c.undo b t s).2
  | leaf a, h, t, s => (h a (List.mem_singleton_self a) t s).2
  | group _ _ cs, h, t, s => undoAll_moves cs h t s

theorem undoAll_moves [IsPreorder σ R] : ∀ (cs : List (Command α)),
    (∀ a ∈ leavesOf cs, b.Moves R a) → ∀ t s, R s (undoAll b t cs s).2
  | [], _, _, s => refl_of R s
  | c :: cs, h, t, s => by
    have first := undo_moves c fun a ha => h a (List.mem_append_left _ ha)
    have later := undoAll_moves cs (fun a ha => h a (List.mem_append_right _ ha)) t s
    rw [undoAll]
    split
    · rename_i s₁ e
      rw [e] at later
      exact trans_of R later (first t s₁)
    · rename_i s₁ e
      rwa [e] at later

end

mutual

/-- A command keeps to what its leaves keep to. -/
theorem execute_moves [IsPreorder σ R] : ∀ (c : Command α), (∀ a ∈ c.leaves, b.Moves R a) →
    ∀ t s, R s (c.execute b t s).2
  | leaf a, h, t, s => (h a (List.mem_singleton_self a) t s).1
  | group _ _ cs, h, t, s => executeAll_moves cs h t s

theorem executeAll_moves [IsPreorder σ R] : ∀ (cs : List (Command α)),
    (∀ a ∈ leavesOf cs, b.Moves R a) → ∀ t s, R s (executeAll b t cs s).2
  | [], _, _, s => refl_of R s
  | c :: cs, h, t, s => by
    have own : ∀ a ∈ c.leaves, b.Moves R a := fun a ha => h a (List.mem_append_left _ ha)
    have first := execute_moves c own t s
    have later := executeAll_moves cs (fun a ha => h a (List.mem_append_right _ ha)) t
    rw [executeAll]
    split
    · rename_i s₁ e
      rwa [e] at first
    · rename_i s₁ e
      rw [e] at first
      have rest := trans_of R first (later s₁)
      split
      · rename_i s₂ e₂
        rwa [e₂] at rest
      · rename_i s₂ e₂
        rw [e₂] at rest
        exact trans_of R rest (undo_moves c own .fresh s₂)

end

end Command

/-! ### What an attempt does to a view -/

/-- What happens between steps and while waiting leaves the view alone. -/
structure Signals.Keeps (g : Signals σ) (view : σ → V) : Prop where
  pause : ∀ s, view (g.pause s) = view s
  wait : ∀ d s, view (g.wait d s).2 = view s

theorem Signals.Keeps.isCancelled {g : Signals σ} {view : σ → V} (keeps : g.Keeps view) (t : Token)
    (s : σ) : view (g.isCancelled t s).2 = view s :=
  keeps.pause s

/-- To leave a view alone is something that steps keep to together. -/
instance isPreorder_view (view : σ → V) : IsPreorder σ fun s s' => view s' = view s where
  refl _ := rfl
  trans _ _ _ h₁ h₂ := h₂.trans h₁

/-- The view before and after an attempt at a command, and whether it succeeded. -/
def Attempted (b : Behaviour α σ) (view : σ → V) (c : Command α) (ok : Bool) (v v' : V) : Prop :=
  ∃ s, view s = v ∧ (c.execute b .cycle s).1.isOk = ok ∧ view (c.execute b .cycle s).2 = v'

/-- The view before and after a command is taken back by a group. -/
def Undone (b : Behaviour α σ) (view : σ → V) (c : Command α) (v v' : V) : Prop :=
  ∃ s, view s = v ∧ view (c.undo b .fresh s).2 = v'

/-- The view before and after the children of a group: all succeed, or one fails and those before it
are taken back from the last to the first. -/
inductive Together (b : Behaviour α σ) (view : σ → V) : List (Command α) → Bool → V → V → Prop
  | done {v : V} : Together b view [] true v v
  | goes {c : Command α} {cs : List (Command α)} {v v₁ v' : V} : Attempted b view c true v v₁ →
    Together b view cs true v₁ v' → Together b view (c :: cs) true v v'
  | fails {c : Command α} {cs : List (Command α)} {v v' : V} : Attempted b view c false v v' →
    Together b view (c :: cs) false v v'
  | backs {c : Command α} {cs : List (Command α)} {v v₁ v₂ v' : V} :
    Attempted b view c true v v₁ → Together b view cs false v₁ v₂ → Undone b view c v₂ v' →
    Together b view (c :: cs) false v v'

variable (b : Behaviour α σ) (view : σ → V)

theorem executeAll_together : ∀ (cs : List (Command α)) (s : σ),
    Together b view cs (Command.executeAll b .cycle cs s).1.isOk (view s)
      (view (Command.executeAll b .cycle cs s).2)
  | [], _ => .done
  | c :: cs, s => by
    have first : Attempted b view c (c.execute b .cycle s).1.isOk (view s)
        (view (c.execute b .cycle s).2) := ⟨s, rfl, rfl, rfl⟩
    rw [Command.executeAll]
    split
    · rename_i e
      rw [e] at first
      exact .fails first
    · rename_i s₁ e
      rw [e] at first
      have later := executeAll_together cs s₁
      split
      · rename_i e₂
        rw [e₂] at later
        exact .goes first later
      · rename_i s₂ e₂
        rw [e₂] at later
        exact .backs first later ⟨s₂, rfl, rfl⟩

variable {b view}

/-- An attempt at a group is told by its children. -/
theorem Attempted.together {kind : CommandKind} {module : String} {cs : List (Command α)}
    {ok : Bool} {v v' : V} (h : Attempted b view (.group kind module cs) ok v v') :
    Together b view cs ok v v' := by
  obtain ⟨s, rfl, rfl, rfl⟩ := h
  exact executeAll_together b view cs s

/-- A planned leaf fails at the look at its token, or it is carried out after the look. -/
theorem Action.execute_cases {h : Host σ} {view : σ → V} (keeps : h.toSignals.Keeps view)
    (t : Token) (a : Action) (s : σ) :
    (a.execute h t s).1.isOk = false ∧ view (a.execute h t s).2 = view s ∨
      ∃ s₁, view s₁ = view s ∧ a.execute h t s = a.carryOut h t s₁ := by
  have still := keeps.isCancelled t s
  simp only [execute, Host.ensureLive]
  cases look : h.isCancelled t s with
  | mk cancelled s₁ =>
    rw [look] at still
    cases cancelled with
    | true => exact .inl ⟨rfl, still⟩
    | false => exact .inr ⟨s₁, still, rfl⟩

/-! ### What a planned leaf does to the state -/

namespace Action

/-- What is asked of the runtime to do the leaf, if anything is. -/
def forward : Action → Option Request
  | host op m =>
    match op.forward m with
    | .ok r => some r
    | .error _ => none
  | cluster op m => some (op.forward m)
  | recordRestart _ | resetRestarts _ => none

variable {h : Host σ}

/-- A record leaves what the change to the store leaves. -/
theorem snd_record (name : String) (s : σ) : (record h name s).2 =
    (h.store.putOrUpdate name (.first (h.now s)) (.record (h.now s)) s).2 := by
  simp only [record]
  split <;> rename_i e <;> rw [e]

/-- A reset leaves what the change to the store leaves. -/
theorem snd_reset (name : String) (s : σ) :
    (reset h name s).2 = (h.store.update name .reset s).2 := by
  unfold reset
  split <;> rename_i e <;> rw [e]

/-- A leaf keeps to what pauses, its requests and its change to the store keep to. -/
theorem moves {R : σ → σ → Prop} [IsPreorder σ R] {a : Action} (pause : ∀ s, R s (h.pause s))
    (request : ∀ r, a.forward = some r ∨ a.backward = some r → ∀ t s, R s (h.request t r s).2)
    (record : ∀ name, a = .recordRestart name → ∀ s, R s (record h name s).2)
    (reset : ∀ name, a = .resetRestarts name → ∀ s, R s (reset h name s).2) :
    (behaviour h).Moves R a := by
  have carried : ∀ t s, R s (a.carryOut h t s).2 := by
    intro t s
    cases a with
    | host op m =>
      rw [carryOut]
      cases made : op.forward m with
      | ok r =>
        have asked : (host op m).forward = some r := by rw [forward, made]
        exact request r (.inl asked) t s
      | error => exact refl_of R s
    | cluster op m => exact request _ (.inl rfl) t s
    | recordRestart name => exact record name rfl s
    | resetRestarts name => exact reset name rfl s
  intro t s
  constructor
  · have looked : R s (h.isCancelled t s).2 := pause s
    simp only [behaviour, execute, Host.ensureLive]
    cases look : h.isCancelled t s with
    | mk cancelled s₁ =>
      rw [look] at looked
      cases cancelled with
      | true => exact looked
      | false => exact trans_of R looked (carried t s₁)
  · simp only [behaviour, undo]
    split
    · rename_i r back
      exact request r (.inr back) t s
    · exact refl_of R s

end Action
end Steward
