/-
# Rehearsing cycles

A rehearsal is a host that does as it is told. It keeps a table of modules, the restart states, a
clock that only moves when it is set, and a log of every call; rules make chosen calls fail or
cancel the cycle, and waiting is only added up. The table is also the environment that an agent
looks at, and reports are noted.

A cue is a leaf of a command that does nothing but what its script says.

Key definitions: `Rehearsal`, `Rule`, `Rehearsal.host`, `Cue`, `Rehearsal.behaviour`.
-/
import Steward.Agent
import Steward.Device.Table
import Steward.Store.Memory

namespace Steward

/-- What becomes of the calls with some text: the first few pass, then so many are answered by the
rule. -/
structure Rule where
  call : String
  after : Nat := 0
  times : Option Nat := none
  cancel : Bool := false
  error : Option Error := none

/-- A scripted leaf: what it says of itself, and its answers, of which the last one repeats. -/
structure Cue where
  id : Nat
  kind : CommandKind
  module : String
  text : String
  execute : List (Option Error)
  undo : List (Option Error)

structure Rehearsal where
  clock : Instant := .epoch
  cancelled : Bool := false
  /-- The waiting in nanoseconds at which the cycle is cancelled. -/
  deadline : Option Nat := none
  /-- The nanoseconds waited so far. -/
  waited : Nat := 0
  table : Table := ∅
  /-- The calls, the latest first. -/
  log : List String := []
  rules : List Rule := []
  states : States := ∅
  /-- What the operations of the store fail with; `all` stands for those that are not named. -/
  storeFaults : List (String × Option Error) := []
  /-- The answers given so far by each cue, doing and undoing. -/
  given : List (Nat × Bool) := []
  /-- What the next looks at the table fail with, one after another. -/
  lookFaults : List (Option Error) := []
  /-- The sets that were reported, the latest first. -/
  reports : List ModuleSet := []
  /-- What every report fails with, after it was noted. -/
  reportFault : Option Error := none

namespace Rehearsal

instance : Inhabited Rehearsal := ⟨{}⟩

/-! ### Calls -/

/-- An identity at the end of a call. -/
def identityText : Option Identity → String
  | some i => " id=" ++ i.moduleId ++ "/" ++ i.generationId.getD "-"
  | none => ""

/-- The text of a request in the log. -/
def requestText : Request → String
  | .pull _ image credentials =>
    "pull " ++ image ++ " as " ++
      match credentials with
      | some c => c.username ++ ":" ++ c.password
      | none => "anonymous"
  | .create m identity => "create " ++ m.name ++ identityText identity
  | .start name => "start " ++ name
  | .stop name => "stop " ++ name
  | .remove name => "remove " ++ name
  | .restart name => "restart " ++ name
  | .setStatus name status => "status " ++ name ++ " " ++ status.text
  | .apply m runtime identity =>
    "apply " ++ m.name ++ " kind=" ++ runtime.kind ++ identityText identity
  | .delete name => "delete " ++ name
  | .rollout name => "rollout " ++ name
  | .scale name n => "scale " ++ name ++ " " ++ Text.natText n

/-- Finds the rule that answers a call, counting down those that let it pass. -/
def consult (call : String) : List Rule → Option Rule × List Rule
  | [] => (none, [])
  | r :: rs =>
    if r.call ≠ call then
      let (found, rs) := consult call rs
      (found, r :: rs)
    else if 0 < r.after then
      let (found, rs) := consult call rs
      (found, { r with after := r.after - 1 } :: rs)
    else
      match r.times with
      | some 0 =>
        let (found, rs) := consult call rs
        (found, r :: rs)
      | some (n + 1) => (some r, { r with times := some n } :: rs)
      | none => (some r, r :: rs)

/-- Logs a call and lets the rules answer it. -/
def call (text : String) : Step Rehearsal Unit := fun s =>
  let (found, rules) := consult text s.rules
  let s := { s with log := text :: s.log, rules }
  match found with
  | none => (.ok (), s)
  | some r =>
    let s := { s with cancelled := s.cancelled || r.cancel }
    match r.error with
    | some e => (.error e, s)
    | none => (.ok (), s)

/-- Makes a request: a call that acts on the table unless it fails. -/
def request (r : Request) : Step Rehearsal Unit := fun s =>
  match call (requestText r) s with
  | (.ok (), s) => (.ok (), { s with table := s.table.carryOut s.clock r })
  | (.error e, s) => (.error e, s)

/-! ### The store -/

/-- What an operation of the store fails with. -/
def storeFault (s : Rehearsal) (operation : String) : Option Error :=
  match s.storeFaults.lookup operation with
  | some e => e
  | none => (s.storeFaults.lookup "all").join

/-- A step on the states, unless the operation fails. -/
def guarded {α : Type} (operation : String) (step : Step States α) : Step Rehearsal α := fun s =>
  match s.storeFault operation with
  | some e => (.error e, s)
  | none => step.through Rehearsal.states (fun states s => { s with states }) s

/-- The store of the rehearsal. -/
def store : StateStore Rehearsal where
  get k := guarded "get" (memoryStore.get k)
  update k f := guarded "update" (memoryStore.update k f)
  putOrUpdate k v f := guarded "put" (memoryStore.putOrUpdate k v f)
  remove k := guarded "remove" (memoryStore.remove k)
  keys := guarded "keys" memoryStore.keys

/-! ### Waiting -/

/-- Adds a delay to the waiting, up to the deadline if it is reached. -/
def wait (d : Duration) (s : Rehearsal) : Bool × Rehearsal :=
  if s.cancelled then (true, s)
  else
    match s.deadline with
    | some limit =>
      if limit ≤ s.waited + d.toNanos then
        (true, { s with waited := max s.waited limit, cancelled := true })
      else (false, { s with waited := s.waited + d.toNanos })
    | none => (false, { s with waited := s.waited + d.toNanos })

/-- The rehearsal as a host. -/
def host : Host Rehearsal where
  pause := id
  cancelled := Rehearsal.cancelled
  now := Rehearsal.clock
  wait := wait
  request _ r := request r
  store := store

/-- The modules on the table, unless a fault is due. -/
def look : Step Rehearsal ModuleSet := fun s =>
  let s' := { s with lookFaults := s.lookFaults.drop 1 }
  match s.lookFaults.head?.join with
  | some e => (.error e, s')
  | none => ((ModuleSet.create s.table.modules).mapError .module, s')

/-- The table as an environment. -/
def environment : Environment Rehearsal := ⟨fun _ => look⟩

/-- A reporter that notes what it is told. -/
def reporter : Reporter Rehearsal where
  report ms s :=
    let s := { s with reports := ms :: s.reports }
    match s.reportFault with
    | some e => (.error e, s)
    | none => (.ok (), s)

/-! ### Cues -/

/-- The answer in a script after so many were given. -/
def answer : List (Option Error) → Nat → Option Error
  | [], _ => none
  | [e], _ => e
  | e :: _ :: _, 0 => e
  | _ :: e :: es, n + 1 => answer (e :: es) n

/-- Lets a cue do or undo its work: a call, and then the next answer of its script. -/
def play (t : Token) (undoing : Bool) (c : Cue) : Step Rehearsal Unit := fun s =>
  let mark := if t == .cycle && s.cancelled then " (cancelled)" else ""
  match call ((if undoing then "undo " else "exec ") ++ c.text ++ mark) s with
  | (.error e, s) => (.error e, s)
  | (.ok (), s) =>
    let n := s.given.countP (· == (c.id, undoing))
    let s := { s with given := (c.id, undoing) :: s.given }
    match answer (if undoing then c.undo else c.execute) n with
    | some e => (.error e, s)
    | none => (.ok (), s)

/-- How planned leaves and cues are done and taken back. -/
def behaviour : Behaviour (Action ⊕ Cue) Rehearsal where
  execute t
    | .inl a => Action.execute host t a
    | .inr c => play t false c
  undo t
    | .inl a => Action.undo host t a
    | .inr c => play t true c

end Rehearsal

instance : Labelled (Action ⊕ Cue) where
  kind
    | .inl a => Labelled.kind a
    | .inr c => c.kind
  module
    | .inl a => Labelled.module a
    | .inr c => c.module
  text
    | .inl a => Labelled.text a
    | .inr c => c.text

end Steward
