/-
# Fingerprints of declarations

A fingerprint is the hash of the declared fields one after another, each but the last followed by a
zero byte: name, version, type, status, restart rule and the configuration's compact text. What was
observed does not count.

Key definitions: `Module.preimage`, `Module.fingerprint`, `Module.shortFingerprint`.
-/
import Steward.Hash.Sha256
import Steward.Json.Printer
import Steward.Module.Basic

namespace Steward
namespace Module

/-- The bytes that are hashed. -/
def preimage (m : Module) : List UInt8 :=
  let texts := [m.name, m.version, m.type, m.status.text, m.restartRule.text]
  (texts.flatMap fun t => t.toUTF8.toList ++ [0]) ++ m.config.compact.toUTF8.toList

/-- The hash of the declaration. -/
def fingerprint (m : Module) : String := Sha256.hex m.preimage

/-- The first eight digits of the fingerprint. -/
def shortFingerprint (m : Module) : String := String.ofList (m.fingerprint.toList.take 8)

end Module
end Steward
