/-
# Files

A path is the directories that lead to a file and the file's name. `FileOps` are the operations that
a store needs of a file system; each may fail with a detail that the system words.
`Disk` is a file system in memory.

Key definitions: `FilePath`, `FilePath.withExtension`, `FileOps`, `Disk`, `Disk.ops`.
-/
import Steward.NameMap

namespace Steward

/-- The way to a file. -/
structure FilePath where
  directories : List String
  name : String
deriving DecidableEq

namespace FilePath

/-- A name without what follows its last dot; a dot in front is part of the name. -/
def stem (name : List Char) : List Char :=
  let rest := name.reverse.dropWhile (· != '.')
  match rest with
  | '.' :: front => if front.isEmpty then name else front.reverse
  | _ => name

/-- The file beside this one whose name has the extension instead of its own. -/
def withExtension (p : FilePath) (ext : String) : FilePath :=
  { p with name := String.ofList (stem p.name.toList) ++ "." ++ ext }

/-- The parts of the path, the name last. -/
def parts (p : FilePath) : List String := p.directories ++ [p.name]

/-- The path of a file in a directory, which is written with slashes. -/
def inDirectory (directory name : String) : FilePath := ⟨directory.splitOn "/", name⟩

/-- The path as it is shown, with a slash between the parts. -/
def text (p : FilePath) : String := "/".intercalate p.parts

end FilePath

/-- What a file says when it is read. One that cannot be read to its end has lines in front of the
place where that is seen. -/
inductive Contents where
  | absent
  | unreadable (front detail : String)
  | text (s : String)
deriving DecidableEq

/-- The operations of a file system with state `φ`. -/
structure FileOps (φ : Type) where
  read : FilePath → φ → Contents
  /-- Whether something is there under these parts. -/
  isThere : List String → φ → Bool
  makeDirectories : List String → φ → Except String Unit × φ
  /-- Makes an empty file, or empties one. -/
  create : FilePath → φ → Except String Unit × φ
  write : FilePath → String → φ → Except String Unit × φ
  sync : FilePath → φ → Except String Unit × φ
  /-- Lets the second path name the file that the first one names, in one step. -/
  rename : FilePath → FilePath → φ → Except String Unit × φ

/-! ### A file system in memory

Everything is kept under the text of its path, with a slash between the parts. -/

/-- A directory, or a file with its bytes. -/
inductive Node where
  | directory
  | file (bytes : List UInt8)
deriving DecidableEq

abbrev Disk : Type := NameMap Node

namespace Disk

/-- The text under which a path is kept. -/
def key (parts : List String) : String := "/".intercalate parts

/-- The node at a path; the empty path is a directory. A path through a file leads nowhere. -/
def node? (d : Disk) : (above rest : List String) → Option Node
  | _, [] => some .directory
  | above, [p] => d.get? (key (above ++ [p]))
  | above, p :: q :: r =>
    match d.get? (key (above ++ [p])) with
    | some .directory => node? d (above ++ [p]) (q :: r)
    | _ => none

/-- What the system says in place of a reason. -/
def detail : String := "<detail>"

/-- Makes every missing directory on the way. -/
def makeDirectories (d : Disk) : (above rest : List String) → Except String Unit × Disk
  | _, [] => (.ok (), d)
  | above, p :: r =>
    match d.get? (key (above ++ [p])) with
    | some .directory => makeDirectories d (above ++ [p]) r
    | some (.file _) => (.error detail, d)
    | none => makeDirectories (d.insert (key (above ++ [p])) .directory) (above ++ [p]) r

/-- Puts bytes into a file in a directory that is there. -/
def put (d : Disk) (p : FilePath) (bytes : List UInt8) : Except String Unit × Disk :=
  match d.node? [] p.directories with
  | some .directory =>
    match d.get? (key p.parts) with
    | some .directory => (.error detail, d)
    | _ => (.ok (), d.insert (key p.parts) (.file bytes))
  | _ => (.error detail, d)

/-- The lines in front of the first one that is no text. -/
def front (bytes : List UInt8) : String :=
  let lines := (bytes.splitOn 10).map fun line => String.fromUTF8? ⟨line.toArray⟩
  String.join ((lines.takeWhile Option.isSome).map fun line => line.getD "" ++ "\n")

/-- What a file holds, if it is text. -/
def read (d : Disk) (p : FilePath) : Contents :=
  match d.node? [] p.parts with
  | none => .absent
  | some .directory => .unreadable "" detail
  | some (.file bytes) =>
    match String.fromUTF8? ⟨bytes.toArray⟩ with
    | some s => .text s
    | none => .unreadable (front bytes) detail

/-- Takes a file away, if there is one. -/
def delete (d : Disk) (p : FilePath) : Disk := d.erase (key p.parts)

/-- The operations on the disk in memory; none fails but for what stands in the way. -/
def ops : FileOps Disk where
  read p d := d.read p
  isThere parts d := (d.node? [] parts).isSome
  makeDirectories parts d := d.makeDirectories [] parts
  create p d := d.put p []
  write p s d := d.put p s.toUTF8.toList
  sync _ d := (.ok (), d)
  rename p q d :=
    match d.get? (key p.parts), d.get? (key q.parts) with
    | some (.file _), some .directory => (.error detail, d)
    | some (.file bytes), _ => (.ok (), (d.erase (key p.parts)).insert (key q.parts) (.file bytes))
    | _, _ => (.error detail, d)

end Disk
end Steward
