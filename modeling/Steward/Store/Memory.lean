/-
# The store in memory

It is a map and never fails, but for a change to a name that is not there.

Key definitions: `memoryStore`.
-/
import Steward.Store.Basic

namespace Steward

/-- The store whose backing is the map itself. -/
def memoryStore : StateStore States where
  get k s := (.ok (s.get? k), s)
  update k f s :=
    match s.get? k with
    | some v => (.ok (f v), s.insert k (f v))
    | none => (.error (.store (.notFound k)), s)
  putOrUpdate k v f s :=
    let next := match s.get? k with
      | some old => f old
      | none => v
    (.ok next, s.insert k next)
  remove k s := (.ok (), s.erase k)
  keys s := (.ok s.keys, s)

end Steward
