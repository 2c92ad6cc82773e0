/-
# What writing the entries leaves in the file

A file system is lawful if what is done to one file of a directory leaves the others, what is
written to a new file and brought to the disk can be read, and a rename that does not fail gives the
second name what the first one read (`FileOps.Lawful`). Any call may fail, and what it does to its
own file then is left open.

On a lawful file system `FileStore.persist` either does not fail and leaves the text of the entries
in the file, or fails with the cause that the store is unavailable and leaves what the file read
(`FileStore.persist_ends`). Each of its steps has one fact of this form, and `Ends.andThen` puts
them together.

Key definitions: `FilePath.Beside`, `FileOps.Lawful`, `FileStore.Ends`.
Key theorems: `FilePath.beside_temporary`, `FileStore.persist_ends`.
-/
import Mathlib.Tactic.Common
import Steward.Store.File

namespace Steward

/-! ### Lawful file systems -/

/-- Two files of one directory. -/
structure FilePath.Beside (p q : FilePath) : Prop where
  directories : p.directories = q.directories
  name : p.name ≠ q.name

theorem FilePath.Beside.ne {p q : FilePath} (h : p.Beside q) : p ≠ q :=
  fun e => h.name (congrArg FilePath.name e)

/-- What the store relies on a file system for, also when calls fail. -/
structure FileOps.Lawful {φ : Type} (ops : FileOps φ) : Prop where
  /-- Directories are made without a change to the files in them. -/
  directories : ∀ (q : FilePath) (disk : φ),
    ops.read q (ops.makeDirectories q.directories disk).2 = ops.read q disk
  create : ∀ {p q : FilePath}, p.Beside q → ∀ disk : φ,
    ops.read q (ops.create p disk).2 = ops.read q disk
  write : ∀ {p q : FilePath}, p.Beside q → ∀ (text : String) (disk : φ),
    ops.read q (ops.write p text disk).2 = ops.read q disk
  sync : ∀ {p q : FilePath}, p.Beside q → ∀ disk : φ,
    ops.read q (ops.sync p disk).2 = ops.read q disk
  /-- What is written to a new file can be read once it is brought to the disk; a write that is
  answered alone may still be under way. -/
  written : ∀ {p : FilePath} {text : String} {d₀ d₁ d₂ d₃ : φ}, ops.create p d₀ = (.ok (), d₁) →
    ops.write p text d₁ = (.ok (), d₂) → ops.sync p d₂ = (.ok (), d₃) → ops.read p d₃ = .text text
  renamed : ∀ {p q : FilePath}, p.Beside q → ∀ {d₀ d₁ : φ}, ops.rename p q d₀ = (.ok (), d₁) →
    ops.read q d₁ = ops.read p d₀
  /-- A rename happens in one step or not at all. -/
  not_renamed : ∀ {p q : FilePath}, p.Beside q → ∀ {detail : String} {d₀ d₁ : φ},
    ops.rename p q d₀ = (.error detail, d₁) → ops.read q d₁ = ops.read q d₀

namespace FileStore

variable {φ : Type} {Done Next Failed : φ → Prop}

/-! ### Steps that end well or make the store unavailable -/

/-- A step ends in a state with `Done`, or makes the store unavailable and ends in one with
`Failed`. -/
def Ends (Done Failed : φ → Prop) : Except Error Unit × φ → Prop
  | (.ok (), disk) => Done disk
  | (.error e, disk) => (∃ message, e = .store (.unavailable message)) ∧ Failed disk

theorem Ends.attempt {what : String} {r : Except String Unit × φ}
    (done : ∀ disk, r = (.ok (), disk) → Done disk)
    (failed : ∀ detail disk, r = (.error detail, disk) → Failed disk) :
    Ends Done Failed (attempt what r) := by
  obtain ⟨(detail | ⟨⟩), disk⟩ := r
  · exact ⟨⟨_, rfl⟩, failed detail disk rfl⟩
  · exact done disk rfl

/-- A step that keeps something however it ends. -/
theorem Ends.attempt_keeping {Kept : φ → Prop} {what : String} {r : Except String Unit × φ}
    (kept : Kept r.2) (done : ∀ disk, r = (.ok (), disk) → Done disk) :
    Ends (fun disk => Done disk ∧ Kept disk) Kept (FileStore.attempt what r) := by
  refine .attempt (fun disk e => ?_) (fun detail disk e => ?_)
  · rw [e] at kept
    exact ⟨done disk e, kept⟩
  · rw [e] at kept
    exact kept

theorem Ends.andThen {r : Except Error Unit × φ} {next : φ → Except Error Unit × φ}
    (first : Ends Done Failed r) (then_ : ∀ disk, Done disk → Ends Next Failed (next disk)) :
    Ends Next Failed (andThen r next) := by
  obtain ⟨(e | ⟨⟩), disk⟩ := r
  · exact first
  · exact then_ disk first

/-! ### Writing the entries -/

variable {ops : FileOps φ} (lawful : ops.Lawful)
include lawful

theorem ensureDirectory_ends (path : FilePath) (disk : φ) :
    Ends (fun d => ops.read path d = ops.read path disk)
      (fun d => ops.read path d = ops.read path disk) (ensureDirectory ops path disk) := by
  have kept := lawful.directories path disk
  unfold ensureDirectory
  split
  · exact rfl
  · refine .attempt (fun d made => ?_) (fun detail d made => ?_)
    · rwa [made] at kept
    · rwa [made] at kept

/-- The entries are in the file, or the store is unavailable and the file is what it was. -/
theorem persist_ends {path : FilePath} (beside : (path.withExtension "tmp").Beside path)
    (entries : States) (disk : φ) :
    Ends (fun d => ops.read path d = .text entries.toJson.indented)
      (fun d => ops.read path d = ops.read path disk) (persist ops path entries disk) := by
  unfold persist
  refine (ensureDirectory_ends lawful path disk).andThen fun d₀ kept₀ => ?_
  -- Until the rename nothing touches the file, and the temporary one is read only after the sync.
  refine Ends.andThen (.attempt_keeping ((lawful.create beside d₀).trans kept₀)
    fun _ made => made) fun d₁ ⟨made, kept₁⟩ => ?_
  refine Ends.andThen (.attempt_keeping
    ((lawful.write beside entries.toJson.indented d₁).trans kept₁)
    fun _ wrote => wrote) fun d₂ ⟨wrote, kept₂⟩ => ?_
  refine Ends.andThen (.attempt_keeping ((lawful.sync beside d₂).trans kept₂)
    fun _ synced => lawful.written made wrote synced) fun d₃ ⟨text₃, kept₃⟩ => ?_
  exact .attempt (fun d renamed => (lawful.renamed beside renamed).trans text₃)
    (fun detail d failed => (lawful.not_renamed beside failed).trans kept₃)

end FileStore
end Steward
