/-
# What is loaded

Settings that were loaded are valid, and each of them comes from the first of its sources that says
something: its variable in the environment, its variable in the file `.env`, its place in the
settings file, its default (`Loader.loaded_settings`). Loading fails exactly if one of the files
cannot be loaded, the value of a variable cannot be read, or what the sources decide on together is
not valid. So only the end result has to be: an override may repair what the file states, or break
it.

A line of `.env` may mention other variables, and only there does one variable have a part in the
setting of another (`EnvironmentFile.Feeds`); that it can have one is seen right after the theorem
(`Loader.level_from_path`). Neither a result nor an error comes of a line that assigns a NUL
character.

Key definitions: `Setting.Decided`, `Settings.FileStates`, `Settings.Accepts`, `Settings.Rejects`,
`Loader.assignments`, `Loader.Unreadable`, `Loader.AssignsNul`.
Key theorems: `Settings.decided_iff`, `Loader.loadWith_cases`, `Loader.loaded_settings`.
-/
import Steward.Proofs.Settings.EnvironmentFile
import Steward.Proofs.Settings.Sources
import Steward.Settings.Load

namespace Steward

/-- Whether a setting is what its sources say: the value of its variable, or what a text states. -/
def Setting.Decided {α : Type} (x : Setting α) (lookup : String → Option String) (text : String)
    (s : Settings) : Prop :=
  match lookup x.name with
  | some v => x.value v = .ok (x.of s)
  | none => x.stated? text = some (x.of s)

namespace Setting

instance {α : Type} [DecidableEq α] (x : Setting α) (lookup : String → Option String)
    (text : String) (s : Settings) : Decidable (x.Decided lookup text s) :=
  match found : lookup x.name with
  | some v => decidable_of_iff (x.value v = .ok (x.of s)) (by simp only [Decided, found])
  | none => decidable_of_iff (x.stated? text = some (x.of s)) (by simp only [Decided, found])

variable {α : Type} {x : Setting α} {lookup lookup' : String → Option String} {text : String}
  {s s' : Settings}

/-- The sources of a setting decide on one value, which depends on no other variable. -/
theorem Decided.congr (h : x.Decided lookup text s) (h' : x.Decided lookup' text s')
    (same : lookup x.name = lookup' x.name) : x.of s = x.of s' := by
  unfold Decided at h h'
  rw [same] at h
  cases found : lookup' x.name with
  | some v =>
    rw [found] at h h'
    exact Except.ok.inj (h.symm.trans h')
  | none =>
    rw [found] at h h'
    exact Option.some.inj (h.symm.trans h')

theorem Decided.readable (h : x.Decided lookup text s) : x.Readable lookup := by
  intro v found
  unfold Decided at h
  rw [found] at h
  exact ⟨_, h⟩

/-- A setting is what its sources say if it is picked in place of what the text states. -/
theorem decided_iff_picks {before : α} (stated : x.stated? text = some before) :
    x.Decided lookup text s ↔ x.Picks lookup before (x.of s) := by
  unfold Decided Picks
  cases lookup x.name with
  | some v => rfl
  | none => rw [stated, Option.some_inj, eq_comm]

end Setting

namespace Settings

open Setting EnvironmentFile

section

variable {lookup : String → Option String} {text : String} {s₀ s s' : Settings}

/-- The overrides of what a text states decide on every setting. -/
theorem decided_iff (h : parse? text = some s₀) :
    (Each fun x => x.Decided lookup text s) ↔ s₀.override lookup = (.ok (), s) := by
  have stated := stated?_of_parse? h
  rw [override_eq_ok_iff]
  constructor
  · intro decided
    exact (decided.and stated).imp fun _ ⟨h, stated⟩ => (decided_iff_picks stated).1 h
  · intro picked
    exact (picked.and stated).imp fun _ ⟨h, stated⟩ => (decided_iff_picks stated).2 h

/-- The sources decide on all settings. -/
theorem eq_of_decided (h : Each fun x => x.Decided lookup text s)
    (h' : Each fun x => x.Decided lookup text s') : s = s' :=
  eq_of_each ((h.and h').imp fun _ ⟨h, h'⟩ => Decided.congr h h' rfl)

end

variable {φ : Type}

/-- Whether the file is there, with this text, and the text is one of settings. -/
def FileStates (ops : FileOps φ) (path : FilePath) (disk : φ) (text : String) : Prop :=
  ops.read path disk = .text text ∧ (parse? text).isSome = true

/-- Whether these are the settings that the sources decide on, and they are valid. -/
def Accepts (ops : FileOps φ) (path : FilePath) (disk : φ) (lookup : String → Option String)
    (s : Settings) : Prop :=
  ∃ text, FileStates ops path disk text ∧ (Each fun x => x.Decided lookup text s) ∧ s.Valid

/-- Whether the file of settings cannot be loaded, the value of a variable cannot be read, or what
the sources decide on is not valid. -/
def Rejects (ops : FileOps φ) (path : FilePath) (disk : φ) (lookup : String → Option String) :
    Prop :=
  (∀ text, ¬ FileStates ops path disk text) ∨ (¬ Each fun x => x.Readable lookup) ∨
    ∃ text s, FileStates ops path disk text ∧ (Each fun x => x.Decided lookup text s) ∧ ¬ s.Valid

section

variable {ops : FileOps φ} {path : FilePath} {disk : φ} {lookup : String → Option String}
  {s s' : Settings}

theorem Accepts.unique (h : Accepts ops path disk lookup s) (h' : Accepts ops path disk lookup s') :
    s = s' := by
  obtain ⟨text, states, decided, -⟩ := h
  obtain ⟨text', states', decided', -⟩ := h'
  cases states.1.symm.trans states'.1
  exact eq_of_decided decided decided'

theorem Accepts.not_rejects (h : Accepts ops path disk lookup s) :
    ¬ Rejects ops path disk lookup := by
  obtain ⟨text, states, decided, valid⟩ := h
  rintro (none | unreadable | ⟨text', s', states', decided', invalid⟩)
  · exact none text states
  · exact unreadable (decided.imp fun _ => Decided.readable)
  · cases states.1.symm.trans states'.1
    rw [eq_of_decided decided' decided] at invalid
    exact invalid valid

end

theorem load_cases (ops : FileOps φ) (path : FilePath) (disk : φ) :
    (∃ e, load ops path disk = .error e ∧ ∀ text, ¬ FileStates ops path disk text) ∨
      ∃ s text, load ops path disk = .ok s ∧ ops.read path disk = .text text ∧
        parse? text = some s := by
  unfold load FileStates
  cases ops.read path disk with
  | absent => exact .inl ⟨_, rfl, by simp⟩
  | unreadable front detail => exact .inl ⟨_, rfl, by simp⟩
  | text text =>
    dsimp only
    cases parsed : parse? text with
    | none => exact .inl ⟨_, rfl, by simp [parsed]⟩
    | some s => exact .inr ⟨s, text, rfl, rfl, parsed⟩

namespace Loader

variable (l : Loader φ) (path : FilePath) (vars : NameMap String) (disk : φ)

/-! ### The file of variables -/

/-- What the lines of `.env` assign. -/
def assignments : Except EnvironmentFile.Fault (List (String × String)) :=
  assigned vars.get? [] (l.dotenv disk)

/-- Whether `.env` has a line that cannot be read, and none before it stops. -/
def Unreadable : Prop :=
  ∃ done detail rest as, l.dotenv disk = done ++ .unreadable detail :: rest ∧
    assigned vars.get? [] done = .ok as

/-- Whether `.env` has a line that is to set a variable without a value to a text with a NUL, and
none before it stops. -/
def AssignsNul (name v : String) : Prop :=
  ∃ done ps rest as, l.dotenv disk = done ++ .assignment name ps :: rest ∧
    assigned vars.get? [] done = .ok as ∧ known vars.get? as name = none ∧
    v = fill (known vars.get? as) ps ∧ '\x00' ∈ v.toList

theorem environment_cases :
    (∃ name v, l.environment vars disk = .error (.panic name v) ∧
      l.assignments vars disk = .error (.nul name v)) ∨
    (∃ e detail, l.environment vars disk = .error (.error e) ∧
      l.assignments vars disk = .error (.unreadable detail)) ∨
    ∃ vars' as, l.environment vars disk = .ok vars' ∧ l.assignments vars disk = .ok as ∧
      vars'.get? = known vars.get? as := by
  have begun : vars.get? = known vars.get? [] := funext fun k => by simp [known]
  unfold environment assignments
  rcases assign_cases (l.dotenv disk) begun with ⟨f, stops, fault⟩ | ⟨vars', as, ends, said, after⟩
  · rw [stops]
    cases f with
    | unreadable detail => exact .inr (.inl ⟨_, detail, rfl, fault⟩)
    | nul name v => exact .inl ⟨name, v, rfl, fault⟩
  · rw [ends]
    exact .inr (.inr ⟨vars', as, rfl, said, after⟩)

theorem assignments_eq_unreadable_iff :
    (∃ detail, l.assignments vars disk = .error (.unreadable detail)) ↔ l.Unreadable vars disk := by
  simp only [assignments, Unreadable, assigned_eq_error_iff, Line.fault?_eq_unreadable_iff]
  constructor
  · rintro ⟨detail, done, _, rest, as, split, said, rfl⟩
    exact ⟨done, detail, rest, as, split, said⟩
  · rintro ⟨done, detail, rest, as, split, said⟩
    exact ⟨detail, done, _, rest, as, split, said, rfl⟩

theorem assignments_eq_nul_iff {name v : String} :
    l.assignments vars disk = .error (.nul name v) ↔ l.AssignsNul vars disk name v := by
  simp only [assignments, AssignsNul, assigned_eq_error_iff, Line.fault?_eq_nul_iff,
    List.nil_append]
  constructor
  · rintro ⟨done, _, rest, as, split, said, ps, rfl, missing, value, nul⟩
    exact ⟨done, ps, rest, as, split, said, missing, value, nul⟩
  · rintro ⟨done, ps, rest, as, split, said, missing, value, nul⟩
    exact ⟨done, _, rest, as, split, said, ps, rfl, missing, value, nul⟩

/-! ### Loading -/

/-- Loading ends in a panic, an error or settings. -/
theorem loadWith_cases :
    (∃ name v, l.loadWith path vars disk = .error (.panic name v) ∧
      l.assignments vars disk = .error (.nul name v)) ∨
    (∃ e, l.loadWith path vars disk = .error (.error e) ∧
      ((∃ detail, l.assignments vars disk = .error (.unreadable detail)) ∨
        ∃ as, l.assignments vars disk = .ok as ∧ Rejects l.ops path disk (known vars.get? as))) ∨
    ∃ s as, l.loadWith path vars disk = .ok s ∧ l.assignments vars disk = .ok as ∧
      Accepts l.ops path disk (known vars.get? as) s := by
  unfold loadWith
  simp only [bind, Except.bind]
  rcases l.environment_cases vars disk with
    ⟨name, v, fails, fault⟩ | ⟨e, detail, fails, fault⟩ | ⟨vars', as, ends, said, look⟩
  · rw [fails]
    exact .inl ⟨name, v, rfl, fault⟩
  · rw [fails]
    exact .inr (.inl ⟨e, rfl, .inl ⟨detail, fault⟩⟩)
  rw [ends]
  -- Nothing panics once the variables are there.
  refine .inr ?_
  rcases load_cases l.ops path disk with ⟨e, fails, none⟩ | ⟨s₀, text, ends', read, parsed⟩
  · rw [fails]
    exact .inl ⟨e, rfl, .inr ⟨as, said, .inl none⟩⟩
  have states : FileStates l.ops path disk text := ⟨read, by simp [parsed]⟩
  rw [ends']
  simp only [Except.mapError]
  rw [look]
  rcases overridden : s₀.override (known vars.get? as) with ⟨verdict, s⟩
  cases verdict with
  | error e =>
    refine .inl ⟨_, rfl, .inr ⟨as, said, .inr (.inl fun readable => ?_)⟩⟩
    obtain ⟨s', done⟩ := (override_ok_iff s₀).2 readable
    rw [overridden] at done
    cases done
  | ok _ =>
    have decided := (decided_iff parsed).2 overridden
    dsimp only
    cases validated : s.validate with
    | error e =>
      refine .inl ⟨_, rfl, .inr ⟨as, said, .inr (.inr ⟨text, s, states, decided, fun valid => ?_⟩)⟩⟩
      rw [validate_iff.2 valid] at validated
      cases validated
    | ok _ => exact .inr ⟨s, as, rfl, said, text, states, decided, validate_iff.1 validated⟩

variable {l path vars disk} {s : Settings}

theorem loadWith_eq_ok_iff : l.loadWith path vars disk = .ok s ↔
    ∃ as, l.assignments vars disk = .ok as ∧ Accepts l.ops path disk (known vars.get? as) s := by
  constructor
  · intro h
    rcases l.loadWith_cases path vars disk with
      ⟨_, _, ends, -⟩ | ⟨_, ends, -⟩ | ⟨s', as, ends, said, accepted⟩ <;> rw [ends] at h <;> cases h
    exact ⟨as, said, accepted⟩
  · rintro ⟨as, said, accepted⟩
    rcases l.loadWith_cases path vars disk with
      ⟨_, _, -, fault⟩ | ⟨_, -, ⟨_, fault⟩ | ⟨as', said', rejected⟩⟩ |
        ⟨s', as', ends, said', accepted'⟩
    · cases said.symm.trans fault
    · cases said.symm.trans fault
    · cases said.symm.trans said'
      exact absurd rejected accepted.not_rejects
    · cases said.symm.trans said'
      rw [ends, accepted'.unique accepted]

theorem loadWith_eq_error_iff : (∃ e, l.loadWith path vars disk = .error (.error e)) ↔
    l.Unreadable vars disk ∨
      ∃ as, l.assignments vars disk = .ok as ∧ Rejects l.ops path disk (known vars.get? as) := by
  rw [← assignments_eq_unreadable_iff]
  rcases l.loadWith_cases path vars disk with
    ⟨_, _, ends, fault⟩ | ⟨e, ends, stops⟩ | ⟨s', as, ends, said, accepted⟩
  · simp [ends, fault]
  · exact iff_of_true ⟨e, ends⟩ stops
  · simp [ends, said, accepted.not_rejects]

theorem loadWith_eq_panic_iff {name v : String} :
    l.loadWith path vars disk = .error (.panic name v) ↔ l.AssignsNul vars disk name v := by
  rw [← assignments_eq_nul_iff]
  rcases l.loadWith_cases path vars disk with
    ⟨_, _, ends, fault⟩ | ⟨_, ends, ⟨_, fault⟩ | ⟨as, said, -⟩⟩ | ⟨_, _, ends, said, -⟩
  · simp [ends, fault]
  · simp [ends, fault]
  · simp [ends, said]
  · simp [ends, said]

/-- **Loaded settings are valid, and each comes from its first source.** There are three ways for a
load to end. Settings are loaded exactly if both files are, every value of a variable can be read,
and what the sources decide on is valid: for each of the eight settings the value of its variable in
the environment, or else by the file `.env`, or else what the settings file states at its place, or
else the default. It is an error exactly if `.env` stops at a line that cannot be read, the settings
file cannot be loaded, a value cannot be read, or the result is not valid; and a panic exactly if
`.env` stops at a line that is to set a variable to a text with a NUL.

So every delay is positive, and the unit times a power of two unless the longest span is shorter.
Whatever values the other variables then have, a setting is the same if its own has the same value.
That value is the same in two environments that agree on the variables that feed it by lines of
`.env`; if no line mentions any, these are only itself. -/
theorem loaded_settings (l : Loader φ) (path : FilePath) (vars : NameMap String) (disk : φ) :
    (∀ s, l.loadWith path vars disk = .ok s ↔
      ∃ as, l.assignments vars disk = .ok as ∧ Accepts l.ops path disk (known vars.get? as) s) ∧
    ((∃ e, l.loadWith path vars disk = .error (.error e)) ↔
      l.Unreadable vars disk ∨
        ∃ as, l.assignments vars disk = .ok as ∧ Rejects l.ops path disk (known vars.get? as)) ∧
    (∀ name v, l.loadWith path vars disk = .error (.panic name v) ↔
      l.AssignsNul vars disk name v) ∧
    (∀ s, l.loadWith path vars disk = .ok s → ∀ e, 0 < (s.backoff.window e).toNanos ∧
      (s.backoff.window e).toNanos =
        min (s.restart.coolOffSeconds.toNat * second * 2 ^ min e.toNat s.restart.cap.toNat)
          Duration.longest.toNanos) ∧
    (∀ s vars' disk' s' as as', l.loadWith path vars disk = .ok s →
      l.loadWith path vars' disk' = .ok s' → l.ops.read path disk = l.ops.read path disk' →
      l.assignments vars disk = .ok as → l.assignments vars' disk' = .ok as' →
        Each fun x => known vars.get? as x.name = known vars'.get? as' x.name → x.of s = x.of s') ∧
    ∀ s vars' s', l.loadWith path vars disk = .ok s → l.loadWith path vars' disk = .ok s' →
      Each fun x => (∀ k, Feeds (l.dotenv disk) k x.name → vars.get? k = vars'.get? k) →
        x.of s = x.of s' := by
  have apart (s vars' disk' s' as as') (h : l.loadWith path vars disk = .ok s)
      (h' : l.loadWith path vars' disk' = .ok s')
      (same : l.ops.read path disk = l.ops.read path disk') (said : l.assignments vars disk = .ok as)
      (said' : l.assignments vars' disk' = .ok as') :
      Each fun x => known vars.get? as x.name = known vars'.get? as' x.name → x.of s = x.of s' := by
    obtain ⟨_, said₁, text, states, decided, -⟩ := loadWith_eq_ok_iff.1 h
    obtain ⟨_, said₂, text', states', decided', -⟩ := loadWith_eq_ok_iff.1 h'
    cases said.symm.trans said₁
    cases said'.symm.trans said₂
    cases states.1.symm.trans (same.trans states'.1)
    exact (decided.and decided').imp fun _ ⟨h, h'⟩ => Decided.congr h h'
  refine ⟨fun s => loadWith_eq_ok_iff, loadWith_eq_error_iff, fun name v => loadWith_eq_panic_iff,
    fun s h => ?_, apart, fun s vars' s' h h' => ?_⟩
  · obtain ⟨as, -, text, -, -, valid⟩ := loadWith_eq_ok_iff.1 h
    exact valid.toNanos_window
  · obtain ⟨as, said, -⟩ := loadWith_eq_ok_iff.1 h
    obtain ⟨as', said', -⟩ := loadWith_eq_ok_iff.1 h'
    exact (apart s vars' disk s' as as' h h' rfl said said').imp fun x agree alike =>
      agree (known_congr alike said said')

/-! A unit of zero in the settings, which `.env` mends. -/

namespace Sample

def loader : Loader Disk := { ops := Disk.ops }

def place : FilePath := ⟨[], "settings.yaml"⟩

def file : String := "restart:\n  cool_off_unit_secs: 0\n  cap_exponent: 4\n"

/-- A disk with a file of settings and a file of assignments. -/
def folder (settings dotenv : String) : Disk :=
  NameMap.ofList [("settings.yaml", .file settings.toUTF8.toList),
    (".env", .file dotenv.toUTF8.toList)]

def mended : Disk := folder file "EDGE_COOL_OFF_UNIT_SECS=7\nEDGE_LOG_LEVEL=debug"

/-- What `.env` assigns there. -/
def mending : List (String × String) :=
  [("EDGE_COOL_OFF_UNIT_SECS", "7"), ("EDGE_LOG_LEVEL", "debug")]

/-- What the sources decide on with a level of logging and a cap. -/
def settings (level : String) (cap : UInt32) : Settings where
  restart := { coolOffSeconds := 7, cap }
  logging := { level }

theorem states : FileStates loader.ops place mended file := ⟨by decide +kernel, by decide +kernel⟩

/-- No line mentions a variable. -/
theorem eq_of_feeds {k n : String} (h : Feeds (loader.dotenv mended) k n) : k = n := by
  have split : loader.dotenv mended = [.assignment "EDGE_COOL_OFF_UNIT_SECS" [.char '7'],
      .assignment "EDGE_LOG_LEVEL" ("debug".toList.map .char)] := by decide +kernel
  cases h with
  | refl => rfl
  | mention line part _ =>
    rw [split] at line
    simp only [List.mem_cons, Line.assignment.injEq, List.not_mem_nil, or_false] at line
    rcases line with ⟨-, rfl⟩ | ⟨-, rfl⟩ <;> simp at part

end Sample

open Sample

/-- The level of the environment counts, the one of `.env` only without it, and the unit is the same
either way; a cap that is fine in the file is broken by a variable, and a NUL is a panic. -/
theorem loaded_settings_sample :
    loader.loadWith place (.ofList [("EDGE_LOG_LEVEL", "warn")]) mended =
        .ok (settings "warn" 4) ∧
      loader.loadWith place ∅ mended = .ok (settings "debug" 4) ∧
      (∃ e, loader.loadWith place (.ofList [("EDGE_CAP_EXPONENT", "17")]) mended =
        .error (.error e)) ∧
      loader.loadWith place ∅ (folder file "A=\x00") = .error (.panic "A" "\x00") ∧
      ((settings "warn" 4).backoff.window 9).toNanos = 112 * second ∧
      (settings "warn" 4).restart.coolOffSeconds = (settings "debug" 4).restart.coolOffSeconds ∧
      (settings "warn" 4).restart.cap = (settings "debug" 4).restart.cap := by
  obtain ⟨loads, -, -, delays, apart, unmoved⟩ :=
    loaded_settings loader place (.ofList [("EDGE_LOG_LEVEL", "warn")]) mended
  obtain ⟨loads', -⟩ := loaded_settings loader place ∅ mended
  obtain ⟨-, fails, -⟩ :=
    loaded_settings loader place (.ofList [("EDGE_CAP_EXPONENT", "17")]) mended
  obtain ⟨-, -, panics, -⟩ := loaded_settings loader place ∅ (folder file "A=\x00")
  have warned := (loads (settings "warn" 4)).2
    ⟨mending, by decide +kernel, file, states, by simp only [Each]; decide +kernel,
      validate_iff.1 (by decide +kernel)⟩
  have plain := (loads' (settings "debug" 4)).2
    ⟨mending, by decide +kernel, file, states, by simp only [Each]; decide +kernel,
      validate_iff.1 (by decide +kernel)⟩
  have excessive : ¬ (settings "debug" 17).Valid := by
    rw [← validate_iff]
    decide +kernel
  have broken := fails.2 (.inr ⟨mending, by decide +kernel, .inr (.inr ⟨file, settings "debug" 17,
    states, by simp only [Each]; decide +kernel, excessive⟩)⟩)
  have stops := (panics "A" "\x00").2
    ⟨[], [.char '\x00'], [], [], by decide +kernel, rfl, by decide +kernel, by decide +kernel,
      by decide +kernel⟩
  obtain ⟨-, unit, -⟩ := apart _ ∅ mended _ mending mending warned plain rfl
    (by decide +kernel) (by decide +kernel)
  obtain ⟨-, -, cap, -⟩ := unmoved _ ∅ _ warned plain
  refine ⟨warned, plain, broken, stops, (delays _ warned 9).2.trans (by decide +kernel),
    unit (by decide +kernel), cap fun k feeds => ?_⟩
  rw [eq_of_feeds feeds]
  decide +kernel

/-- A line of `.env` that mentions a variable lets it into the setting of another: the level of
logging ends in the path of the store. And where a line assigns a NUL there are no settings, and no
error. -/
theorem level_from_path :
    loader.loadWith place ∅ (folder "" "EDGE_LOG_LEVEL=warn$\x7bEDGE_STATE_PATH\x7d") =
        .ok { logging := { level := "warn" } } ∧
      loader.loadWith place (.ofList [("EDGE_STATE_PATH", "x")])
          (folder "" "EDGE_LOG_LEVEL=warn$\x7bEDGE_STATE_PATH\x7d") =
        .ok { store := ⟨some "x"⟩, logging := { level := "warnx" } } ∧
      loader.loadWith place ∅ (folder "" "A=\x00") = .error (.panic "A" "\x00") := by
  decide +kernel

end Loader
end Settings
end Steward
