/-
# Writing that is interrupted

What `FileStore.persist` does to a disk is a list of calls, made one after the other until one fails
(`FileStore.persist_eq`). It may be stopped between two calls, in the middle of one, or by one that
fails, and then leaves the disk as it is (`StopsAt`). In the middle of a call the file that is worked
on may be in any state; other files read as before, and a rename either has happened or has not
(`FileOps.Splits`).

Wherever the writing stops, the file of the store reads what it read before or all of the new text
(`FileStore.stopsAt_fileCalls`), if the temporary file is another one, and the store can be opened
again (`FileStore.opens_of_stopsAt`). The temporary file is another one, unless the name of the file
ends as those of temporary files do (`FilePath.beside_iff`). A file with such a name is emptied
before it is written to, and stays empty if the writing stops there (`FileStore.emptied`).

Key definitions: `FilePath.HasExtension`, `FileCall`, `StopsAt`, `FileOps.Splits`,
`FileStore.renewal`, `FileStore.fileCalls`, `StoreCall.fileCalls`, `FileStore.Whole`.
Key theorems: `FilePath.withExtension_eq_iff`, `FileStore.persist_eq`,
`FileStore.stopsAt_fileCalls`, `FileStore.opens_of_stopsAt`, `FileStore.emptied`,
`FileStore.never_torn`.
-/
import Steward.Proofs.Store.Refinement

namespace Steward

/-! ### Names with an extension -/

namespace FilePath

/-- Whether the name ends in a dot and the extension, and does not begin with that dot. -/
def HasExtension (p : FilePath) (ext : String) : Prop :=
  ∃ front : List Char, front ≠ [] ∧ p.name.toList = front ++ '.' :: ext.toList

theorem stem_append {front ext : List Char} (some_front : front ≠ []) (dotless : '.' ∉ ext) :
    stem (front ++ '.' :: ext) = front := by
  have rest : (front ++ '.' :: ext).reverse.dropWhile (· != '.') = '.' :: front.reverse := by
    rw [List.reverse_append, List.reverse_cons, List.append_assoc, List.singleton_append,
      List.dropWhile_append_of_pos]
    · rw [List.dropWhile_cons_of_neg (by simp)]
    · intro c hc
      have other : c ≠ '.' := fun e => dotless (e ▸ List.mem_reverse.1 hc)
      simpa using other
  have left : front.reverse.isEmpty = false := by simpa using some_front
  simp only [stem, rest, left, Bool.false_eq_true, if_false, List.reverse_reverse]

theorem eq_nil_of_stem {name : List Char} (h : stem name = []) : name = [] := by
  unfold stem at h
  simp only at h
  split at h
  · rename_i front _
    split at h
    · exact h
    · rename_i left
      rw [List.reverse_eq_nil_iff] at h
      rw [h] at left
      exact absurd rfl left
  · exact h

/-- The file beside another has its name only if that has the extension already. -/
theorem withExtension_eq_iff (p : FilePath) {ext : String} (dotless : '.' ∉ ext.toList) :
    p.withExtension ext = p ↔ p.HasExtension ext := by
  obtain ⟨directories, name⟩ := p
  have names : (⟨directories, name⟩ : FilePath).withExtension ext = ⟨directories, name⟩ ↔
      stem name.toList ++ '.' :: ext.toList = name.toList := by
    rw [withExtension, mk.injEq, ← String.toList_inj]
    simp
  rw [names]
  constructor
  · intro same
    refine ⟨stem name.toList, fun none => ?_, same.symm⟩
    rw [eq_nil_of_stem none] at same
    simp at same
  · rintro ⟨front, some_front, split⟩
    have split : name.toList = front ++ '.' :: ext.toList := split
    rw [split, stem_append some_front dotless]

theorem beside_iff (p : FilePath) {ext : String} (dotless : '.' ∉ ext.toList) :
    (p.withExtension ext).Beside p ↔ ¬ p.HasExtension ext := by
  rw [← withExtension_eq_iff p dotless]
  constructor
  · exact fun beside => beside.ne
  · intro other
    refine ⟨rfl, fun name => other ?_⟩
    obtain ⟨directories, name'⟩ := p
    exact congrArg (FilePath.mk directories) name

end FilePath

/-! ### Calls of a file system -/

/-- A call of a file system. -/
inductive FileCall where
  | makeDirectories (parts : List String)
  | create (p : FilePath)
  | write (p : FilePath) (text : String)
  | sync (p : FilePath)
  | rename (p q : FilePath)

variable {φ : Type}

namespace FileCall

def perform (ops : FileOps φ) : FileCall → φ → Except String Unit × φ
  | makeDirectories parts => ops.makeDirectories parts
  | create p => ops.create p
  | write p text => ops.write p text
  | sync p => ops.sync p
  | rename p q => ops.rename p q

/-- What a store says that it failed to do. -/
def purpose : FileCall → String
  | makeDirectories _ => "create state directory"
  | create _ => "create temp state file"
  | write _ _ => "write state file"
  | sync _ => "sync state file"
  | rename _ _ => "rename state file"

/-- Whether the call works on other files than the one at a path. -/
def Spares (q : FilePath) : FileCall → Prop
  | makeDirectories parts => parts = q.directories
  | create p => p.Beside q
  | write p _ => p.Beside q
  | sync p => p.Beside q
  | rename _ _ => False

theorem Spares.read {ops : FileOps φ} (lawful : ops.Lawful) {c : FileCall} {q : FilePath}
    (h : c.Spares q) (disk : φ) : ops.read q (c.perform ops disk).2 = ops.read q disk := by
  cases c with
  | makeDirectories parts =>
    obtain rfl : parts = q.directories := h
    exact lawful.directories q disk
  | create p => exact lawful.create h disk
  | write p text => exact lawful.write h text disk
  | sync p => exact lawful.sync h disk
  | rename p q' => exact h.elim

end FileCall

/-- What is promised of the disks that a file system shows in the middle of a call, `midway` being
those: only the file that is worked on changes, and a file has its new name or the old one. -/
structure FileOps.Splits (ops : FileOps φ) (midway : FileCall → φ → φ → Prop) : Prop where
  spares : ∀ {c : FileCall} {q : FilePath}, c.Spares q → ∀ {disk disk' : φ}, midway c disk disk' →
    ops.read q disk' = ops.read q disk
  rename : ∀ {p q : FilePath}, p.Beside q → ∀ {disk disk' : φ}, midway (.rename p q) disk disk' →
    ops.read q disk' = ops.read q disk ∨ ops.read q disk' = ops.read p disk

/-- Where calls that are made one after the other may be stopped: between two of them, in the middle
of one, or by one that fails. -/
inductive StopsAt (ops : FileOps φ) (midway : FileCall → φ → φ → Prop) :
    List FileCall → φ → φ → Prop
  | between (calls : List FileCall) (disk : φ) : StopsAt ops midway calls disk disk
  | midway {c : FileCall} {disk disk' : φ} (calls : List FileCall) : midway c disk disk' →
    StopsAt ops midway (c :: calls) disk disk'
  | failed {c : FileCall} {detail : String} {disk disk' : φ} (calls : List FileCall) :
    c.perform ops disk = (.error detail, disk') → StopsAt ops midway (c :: calls) disk disk'
  | later {c : FileCall} {calls : List FileCall} {disk disk₁ disk' : φ} :
    c.perform ops disk = (.ok (), disk₁) → StopsAt ops midway calls disk₁ disk' →
    StopsAt ops midway (c :: calls) disk disk'

namespace StopsAt

variable {ops : FileOps φ} {midway : FileCall → φ → φ → Prop}

/-- A file that the first call spares reads as before, and the calls may go on from there. -/
theorem spared {c : FileCall} {calls : List FileCall} {disk disk' : φ}
    (h : StopsAt ops midway (c :: calls) disk disk') (lawful : ops.Lawful)
    (splits : ops.Splits midway) {q : FilePath} (spares : c.Spares q) :
    ops.read q disk' = ops.read q disk ∨
      ∃ disk₁, c.perform ops disk = (.ok (), disk₁) ∧ ops.read q disk₁ = ops.read q disk ∧
        StopsAt ops midway calls disk₁ disk' := by
  have kept := spares.read lawful disk
  cases h with
  | between => exact .inl rfl
  | midway _ within => exact .inl (splits.spares spares within)
  | failed _ made =>
    rw [made] at kept
    exact .inl kept
  | later made rest =>
    rw [made] at kept
    exact .inr ⟨_, made, kept, rest⟩

/-- Wherever a rename stops, the second name reads as before or as the first one did. -/
theorem renamed {p q : FilePath} {disk disk' : φ}
    (h : StopsAt ops midway [.rename p q] disk disk') (lawful : ops.Lawful)
    (splits : ops.Splits midway) (beside : p.Beside q) :
    ops.read q disk' = ops.read q disk ∨ ops.read q disk' = ops.read p disk := by
  cases h with
  | between => exact .inl rfl
  | midway _ within => exact splits.rename beside within
  | failed _ made => exact .inl (lawful.not_renamed beside made)
  | later made rest =>
    cases rest
    exact .inr (lawful.renamed beside made)

end StopsAt

namespace FileStore

variable {ops : FileOps φ} {midway : FileCall → φ → φ → Prop}

/-- Makes calls one after the other, until one fails. -/
def attemptAll (ops : FileOps φ) : List FileCall → φ → Except Error Unit × φ
  | [], disk => (.ok (), disk)
  | c :: calls, disk => andThen (attempt c.purpose (c.perform ops disk)) (attemptAll ops calls)

/-- The calls that write entries to the temporary file and give it the name of the file. -/
def renewal (path : FilePath) (entries : States) : List FileCall :=
  let temporary := path.withExtension "tmp"
  [.create temporary, .write temporary entries.toJson.indented, .sync temporary,
    .rename temporary path]

/-- The calls that write entries, with the one for the directory, unless it is there. -/
def fileCalls (ops : FileOps φ) (path : FilePath) (entries : States) (disk : φ) : List FileCall :=
  if path.directories.isEmpty || ops.isThere path.directories disk then renewal path entries
  else .makeDirectories path.directories :: renewal path entries

/-- Entries are written by these calls. -/
theorem persist_eq (ops : FileOps φ) (path : FilePath) (entries : States) (disk : φ) :
    persist ops path entries disk = attemptAll ops (fileCalls ops path entries disk) disk := by
  have last : ∀ r : Except Error Unit × φ, andThen r (fun disk => (.ok (), disk)) = r := by
    rintro ⟨(e | ⟨⟩), disk⟩
    · rfl
    · rfl
  have start : ∀ next, andThen (.ok (), disk) next = next disk := fun _ => rfl
  unfold persist ensureDirectory fileCalls renewal
  split
  · simp only [attemptAll, start, last, FileCall.perform, FileCall.purpose]
  · simp only [attemptAll, last, FileCall.perform, FileCall.purpose]

/-- Calls that are not interrupted stop after the last one or by one that fails. -/
theorem stopsAt_attemptAll : ∀ (calls : List FileCall) (disk : φ),
    StopsAt ops midway calls disk (attemptAll ops calls disk).2
  | [], disk => .between [] disk
  | c :: calls, disk => by
    rcases made : c.perform ops disk with ⟨(detail | ⟨⟩), disk₁⟩
    · have ends : (attemptAll ops (c :: calls) disk).2 = disk₁ := by
        simp only [attemptAll, made, attempt, andThen]
      rw [ends]
      exact .failed calls made
    · have goes_on : attemptAll ops (c :: calls) disk = attemptAll ops calls disk₁ := by
        simp only [attemptAll, made, attempt, andThen]
      rw [goes_on]
      exact .later made (stopsAt_attemptAll calls disk₁)

section

variable (lawful : ops.Lawful) (splits : ops.Splits midway) {path : FilePath}
  (beside : (path.withExtension "tmp").Beside path) {entries : States} {disk disk' : φ}
include lawful splits beside

theorem stopsAt_renewal (h : StopsAt ops midway (renewal path entries) disk disk') :
    ops.read path disk' = ops.read path disk ∨
      ops.read path disk' = .text entries.toJson.indented := by
  -- Every call but the last spares the file; the temporary one has the text after the third.
  obtain stopped | ⟨d₁, made, kept₁, h₁⟩ := h.spared lawful splits beside
  · exact .inl stopped
  obtain stopped | ⟨d₂, wrote, kept₂, h₂⟩ := h₁.spared lawful splits beside
  · exact .inl (stopped.trans kept₁)
  obtain stopped | ⟨d₃, synced, kept₃, h₃⟩ := h₂.spared lawful splits beside
  · exact .inl (stopped.trans (kept₂.trans kept₁))
  have text₃ : ops.read (path.withExtension "tmp") d₃ = .text entries.toJson.indented :=
    lawful.written made wrote synced
  obtain old | new := h₃.renamed lawful splits beside
  · exact .inl (old.trans (kept₃.trans (kept₂.trans kept₁)))
  · exact .inr (new.trans text₃)

/-- Wherever the writing of entries stops, the file reads as before or as the new text. -/
theorem stopsAt_fileCalls (h : StopsAt ops midway (fileCalls ops path entries disk) disk disk') :
    ops.read path disk' = ops.read path disk ∨
      ops.read path disk' = .text entries.toJson.indented := by
  unfold fileCalls at h
  split at h
  · exact stopsAt_renewal lawful splits beside h
  · have spares : FileCall.Spares path (.makeDirectories path.directories) := rfl
    obtain stopped | ⟨d₁, -, kept, h₁⟩ := h.spared lawful splits spares
    · exact .inl stopped
    · rw [← kept]
      exact stopsAt_renewal lawful splits beside h₁

end

end FileStore

/-! ### Calls of a store -/

/-- The calls of the file system that a call of a store makes. -/
def StoreCall.fileCalls (c : StoreCall) (ops : FileOps φ) (s : FileStore φ) : List FileCall :=
  match c.saves s.entries with
  | none => []
  | some next => FileStore.fileCalls ops s.path next s.disk

namespace FileStore

variable {ops : FileOps φ} {midway : FileCall → φ → φ → Prop}

/-- A call leaves the disk as one of those that the calls it makes may be stopped at. -/
theorem stopsAt_perform (c : StoreCall) (s : FileStore φ) :
    StopsAt ops midway (c.fileCalls ops s) s.disk (c.perform (fileStore ops) s).2.disk := by
  have step := c.perform_file ops s
  unfold StoreCall.fileCalls
  cases saved : c.saves s.entries with
  | none =>
    rw [saved] at step
    rw [step]
    exact .between [] s.disk
  | some next =>
    have stops : StopsAt ops midway (fileCalls ops s.path next s.disk) s.disk
        (persist ops s.path next s.disk).2 := by
      rw [persist_eq]
      exact stopsAt_attemptAll _ _
    rw [saved] at step
    rw [step]
    rcases written : persist ops s.path next s.disk with ⟨(e | ⟨⟩), disk⟩
    · simpa only [written] using stops
    · simpa only [written] using stops

/-- Wherever a call stops, the file reads as before or as the text of what the call saves. -/
theorem stopsAt_call (lawful : ops.Lawful) (splits : ops.Splits midway) {s : FileStore φ}
    (beside : (s.path.withExtension "tmp").Beside s.path) {c : StoreCall} {disk : φ}
    (h : StopsAt ops midway (c.fileCalls ops s) s.disk disk) :
    ops.read s.path disk = ops.read s.path s.disk ∨
      ∃ next, c.saves s.entries = some next ∧
        ops.read s.path disk = .text next.toJson.indented := by
  unfold StoreCall.fileCalls at h
  cases saved : c.saves s.entries with
  | none =>
    rw [saved] at h
    cases h
    exact .inl rfl
  | some next =>
    rw [saved] at h
    exact (stopsAt_fileCalls lawful splits beside h).imp_right fun new => ⟨next, rfl, new⟩

/-- The store is opened again after an interruption, with the entries from before the call or with
those that the call saves. -/
theorem opens_of_stopsAt (lawful : ops.Lawful) (splits : ops.Splits midway) {s : FileStore φ}
    (beside : (s.path.withExtension "tmp").Beside s.path) (synced : s.InSync ops)
    (nameable : s.entries.Nameable) {c : StoreCall} (keeps : c.Nameable) {disk : φ}
    (h : StopsAt ops midway (c.fileCalls ops s) s.disk disk) :
    ∃ entries, (entries = s.entries ∨ c.saves s.entries = some entries) ∧
      openAt ops s.path disk = .ok ⟨s.path, entries, disk⟩ := by
  obtain old | ⟨next, saved, new⟩ := stopsAt_call lawful splits beside h
  · refine ⟨s.entries, .inl rfl, InSync.reopened (s := ⟨s.path, s.entries, disk⟩) ?_ nameable⟩
    unfold InSync load at synced ⊢
    rwa [old]
  · have named := StoreCall.nameable_saves keeps nameable
    rw [saved] at named
    exact ⟨next, .inr saved, InSync.reopened (s := ⟨s.path, next, disk⟩) (.inr new) named⟩

/-- What is promised of the file of a store while the store answers a call. -/
structure Whole (ops : FileOps φ) (midway : FileCall → φ → φ → Prop) (c : StoreCall)
    (s : FileStore φ) : Prop where
  /-- Wherever the call stops, the file is the old one or all of the new one. -/
  stopped : ∀ disk : φ, StopsAt ops midway (c.fileCalls ops s) s.disk disk →
    ops.read s.path disk = ops.read s.path s.disk ∨
      ∃ next, c.saves s.entries = some next ∧ ops.read s.path disk = .text next.toJson.indented
  /-- A call that fails to save leaves the old one. -/
  failed : c.FailsToSave ops s →
    ops.read s.path (c.perform (fileStore ops) s).2.disk = ops.read s.path s.disk
  /-- A call that saves leaves the new one. -/
  saved : ∀ next, c.saves s.entries = some next → ¬ c.FailsToSave ops s →
    ops.read s.path (c.perform (fileStore ops) s).2.disk = .text next.toJson.indented
  /-- What a call leaves when nothing interrupts it is among the disks that are spoken of. -/
  ended : StopsAt ops midway (c.fileCalls ops s) s.disk (c.perform (fileStore ops) s).2.disk

/-- **The file of a store is never torn**, whatever a call of the store saves and wherever the
writing stops, if the name of the file does not end as those of temporary files do. -/
theorem never_torn (lawful : ops.Lawful) (splits : ops.Splits midway) {s : FileStore φ}
    (plain : ¬ s.path.HasExtension "tmp") (c : StoreCall) : Whole ops midway c s := by
  have beside : (s.path.withExtension "tmp").Beside s.path :=
    (FilePath.beside_iff s.path (by decide)).2 plain
  constructor
  case stopped => exact fun disk h => stopsAt_call lawful splits beside h
  case failed =>
    intro fails
    have missed := missed_of_failsToSave lawful beside fails
    have file := missed.file
    rwa [missed.path] at file
  case saved =>
    intro next saves not_fails
    have step := c.perform_file ops s
    have ends := persist_ends lawful beside next s.disk
    rw [saves] at step
    rw [step]
    rcases written : persist ops s.path next s.disk with ⟨(e | ⟨⟩), disk⟩
    · exact absurd ⟨next, e, disk, saves, written⟩ not_fails
    · rw [written] at ends
      simp only [written]
      exact ends
  case ended => exact stopsAt_perform c s

/-- A file with the name of a temporary file is its own temporary file: it is emptied before it is
written to, and a store is not opened again on it if the writing stops there. -/
theorem emptied (empties : ∀ {p : FilePath} {d₀ d₁ : φ}, ops.create p d₀ = (.ok (), d₁) →
    ops.read p d₁ = .text "") {s : FileStore φ} (named : s.path.HasExtension "tmp") {c : StoreCall}
    {next : States} (saves : c.saves s.entries = some next) {disk₀ disk : φ}
    (ready : ensureDirectory ops s.path s.disk = (.ok (), disk₀))
    (made : ops.create s.path disk₀ = (.ok (), disk)) :
    StopsAt ops midway (c.fileCalls ops s) s.disk disk ∧ ops.read s.path disk = .text "" ∧
      openAt ops s.path disk =
        .error (.store (.corrupted "Failed to parse state file: <detail>")) := by
  have itself : s.path.withExtension "tmp" = s.path :=
    (s.path.withExtension_eq_iff (by decide)).2 named
  have empty : ops.read s.path disk = .text "" := empties made
  refine ⟨?_, empty, ?_⟩
  · unfold StoreCall.fileCalls fileCalls renewal
    simp only [saves, itself]
    unfold ensureDirectory at ready
    split at ready
    · rename_i there
      cases ready
      rw [if_pos there]
      exact .later made (.between _ disk)
    · rename_i missing
      rw [if_neg missing]
      rcases directories : ops.makeDirectories s.path.directories s.disk with ⟨(detail | ⟨⟩), d⟩
      · rw [directories] at ready
        cases ready
      · rw [directories] at ready
        cases ready
        exact .later directories (.later made (.between _ disk))
  · have unread : States.parse? "" = none := by decide +kernel
    unfold openAt load
    rw [empty]
    simp only [unread]
    rfl

end FileStore

namespace Drawer

/-- A drawer with entries in one file, and the calls to come that fail. -/
def holding (p : FilePath) (entries : States) (faults : List Bool) : Drawer where
  directories := [p.directories]
  files q := if q = p then some entries.toJson.indented else none
  faults := faults

/-- What a drawer shows in the middle of a call: a part of the text is written, and for a while a
file that is renamed has both names. -/
def Midway : FileCall → Drawer → Drawer → Prop
  | .write p text, d, d' => ∃ old n, d.files p = some old ∧
      d' = d.put p (old ++ String.ofList (text.toList.take n))
  | .rename p q, d, d' => ∃ text, d.files p = some text ∧ d' = d.put q text
  | _, _, _ => False

theorem splits : ops.Splits Midway where
  spares {c q} spares d d' within := by
    cases c with
    | write p text =>
      obtain ⟨old, n, -, rfl⟩ := within
      have beside : p.Beside q := spares
      exact read_congr (files_put_of_ne beside.ne.symm _ d)
    | rename p r => exact spares.elim
    | makeDirectories parts => exact within.elim
    | create p => exact within.elim
    | sync p => exact within.elim
  rename {p q} _ d d' within := by
    obtain ⟨text, there, rfl⟩ := within
    refine .inr (read_congr ?_)
    rw [files_put_self, there]

end Drawer

namespace FileStore

/-- A store of one restart of one module, in a file with a name. -/
def pumpStore (name : String) (faults : List Bool) : FileStore Drawer :=
  let entries : States := NameMap.insert ∅ "pump" (.first .epoch)
  ⟨⟨["run"], name⟩, entries, .holding ⟨["run"], name⟩ entries faults⟩

theorem pumpStore_opened (name : String) (faults : List Bool) :
    openAt Drawer.ops (pumpStore name faults).path (pumpStore name faults).disk =
      .ok (pumpStore name faults) := by
  have written : Drawer.ops.read (pumpStore name faults).path (pumpStore name faults).disk =
      .text (pumpStore name faults).entries.toJson.indented := by
    simp only [pumpStore, Drawer.ops, Drawer.holding, if_pos]
  have none : States.Nameable ∅ := by
    intro e he
    exact absurd he List.not_mem_nil
  have epoch : Instant.epoch.Nameable := ⟨by decide, by decide, by decide⟩
  have nameable : (pumpStore name faults).entries.Nameable := StoreCall.nameable_insert none epoch
  exact InSync.reopened (.inr written) nameable

/-- The count is set back in a file of the default name. If that stops in the middle of writing the
new text, there is a part of it in the temporary file only. -/
theorem never_torn_sample :
    Drawer.ops.Lawful ∧ Drawer.ops.Splits Drawer.Midway ∧
    ¬ (pumpStore stateFileName []).path.HasExtension "tmp" ∧
    Whole Drawer.ops Drawer.Midway (.update "pump" .reset) (pumpStore stateFileName []) ∧
    ∃ disk, StopsAt Drawer.ops Drawer.Midway
        ((StoreCall.update "pump" .reset).fileCalls Drawer.ops (pumpStore stateFileName []))
        (pumpStore stateFileName []).disk disk ∧
      Drawer.ops.read ⟨["run"], "module-state.tmp"⟩ disk = .text "\x7b\n  \"pump\"" ∧
      Drawer.ops.read (pumpStore stateFileName []).path disk =
        .text (pumpStore stateFileName []).entries.toJson.indented := by
  have plain : ¬ (pumpStore stateFileName []).path.HasExtension "tmp" :=
    (FilePath.beside_iff _ (by decide)).1 ⟨rfl, by decide⟩
  have whole := never_torn Drawer.lawful Drawer.splits plain (.update "pump" .reset)
  refine ⟨Drawer.lawful, Drawer.splits, plain, whole,
    ((pumpStore stateFileName []).disk.later.put ⟨["run"], "module-state.tmp"⟩ "").put
      ⟨["run"], "module-state.tmp"⟩ "\x7b\n  \"pump\"", ?_, ?_, ?_⟩
  · exact .later rfl (.midway _ ⟨"", 10, rfl, rfl⟩)
  · decide +kernel
  · decide +kernel

/-- The file has the name of a temporary file, and the call that writes to it fails: the count is not
set back, and the file is empty. -/
theorem torn_under_temporary_name :
    openAt Drawer.ops (pumpStore "state.tmp" [false, true]).path
      (pumpStore "state.tmp" [false, true]).disk = .ok (pumpStore "state.tmp" [false, true]) ∧
    Drawer.ops.read (pumpStore "state.tmp" [false, true]).path
      ((StoreCall.update "pump" .reset).perform (fileStore Drawer.ops)
        (pumpStore "state.tmp" [false, true])).2.disk = .text "" ∧
    ¬ Whole Drawer.ops Drawer.Midway (.update "pump" .reset)
      (pumpStore "state.tmp" [false, true]) := by
  refine ⟨pumpStore_opened _ _, by decide +kernel, fun whole => ?_⟩
  have fails : (StoreCall.update "pump" .reset).FailsToSave Drawer.ops
      (pumpStore "state.tmp" [false, true]) :=
    ⟨_, _, _, rfl, rfl⟩
  have same := whole.failed fails
  revert same
  decide +kernel

end FileStore
end Steward
