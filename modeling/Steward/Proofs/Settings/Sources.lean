/-
# Where settings come from

There are eight settings, each with a variable that overrides it, a place in the file and a default
(`Setting`). The settings that a file states are its own ones, each read at its place
(`Setting.stated?_of_parse?`); the overrides set every setting whose variable has a value to that
value, and leave the others alone (`Settings.override_eq_ok_iff`). They come to an end exactly if
every value can be read (`Settings.override_ok_iff`).

Key definitions: `Setting`, `Setting.Each`, `Setting.stated?`, `Setting.Picks`, `Settings.Valid`.
Key theorems: `Setting.stated?_of_parse?`, `Settings.override_eq_ok_iff`, `Settings.validate_iff`.
-/
import Steward.Proofs.Restart.Backoff
import Steward.Proofs.Yaml.Following
import Steward.Settings.Override

namespace Steward

variable {α : Type}

/-- A setting: the variable that overrides it and how a value of that is read; where it stands in a
file and how it is read there; what it is if nothing is said; and its place in the settings. -/
structure Setting (α : Type) where
  name : String
  value : String → Except ValueFault α
  group : String
  key : String
  read : Yaml.Part → Yaml.Following α
  absent : α
  of : Settings → α
  put : α → Settings → Settings
  put_of : ∀ s, put (of s) s = s := by intro; rfl

namespace Setting

def maxRestarts : Setting UInt32 where
  name := "EDGE_MAX_RESTART_COUNT"
  value v := word32 (Text.trim v)
  group := "restart"
  key := "max_restart_count"
  read := Yaml.format.word32
  absent := 5
  of s := s.restart.maxRestarts
  put a s := { s with restart := { s.restart with maxRestarts := a } }

def coolOff : Setting UInt64 where
  name := "EDGE_COOL_OFF_UNIT_SECS"
  value v := word64 (Text.trim v)
  group := "restart"
  key := "cool_off_unit_secs"
  read := Yaml.format.word64
  absent := 10
  of s := s.restart.coolOffSeconds
  put a s := { s with restart := { s.restart with coolOffSeconds := a } }

def cap : Setting UInt32 where
  name := "EDGE_CAP_EXPONENT"
  value v := word32 (Text.trim v)
  group := "restart"
  key := "cap_exponent"
  read := Yaml.format.word32
  absent := 5
  of s := s.restart.cap
  put a s := { s with restart := { s.restart with cap := a } }

def intensiveCare : Setting UInt64 where
  name := "EDGE_INTENSIVE_CARE_SECS"
  value v := word64 (Text.trim v)
  group := "restart"
  key := "intensive_care_secs"
  read := Yaml.format.word64
  absent := 600
  of s := s.restart.intensiveCareSeconds
  put a s := { s with restart := { s.restart with intensiveCareSeconds := a } }

def maxAttempts : Setting UInt32 where
  name := "EDGE_MAX_ATTEMPTS"
  value v := word32 (Text.trim v)
  group := "runner"
  key := "max_attempts"
  read := Yaml.format.word32
  absent := 3
  of s := s.running.maxAttempts
  put a s := { s with running := ⟨a⟩ }

def storePath : Setting (Option String) where
  name := "EDGE_STATE_PATH"
  value v := .ok (some v)
  group := "store"
  key := "path"
  read := Yaml.format.maybe Yaml.format.text
  absent := none
  of s := s.store.path
  put a s := { s with store := ⟨a⟩ }

def logLevel : Setting String where
  name := "EDGE_LOG_LEVEL"
  value v := .ok v
  group := "logging"
  key := "level"
  read := Yaml.format.text
  absent := "info"
  of s := s.logging.level
  put a s := { s with logging := { s.logging with level := a } }

def logJson : Setting Bool where
  name := "EDGE_LOG_JSON"
  value v := flagValue (Text.trim v)
  group := "logging"
  key := "json"
  read := Yaml.format.flag
  absent := false
  of s := s.logging.json
  put a s := { s with logging := { s.logging with json := a } }

/-- Whether something holds of each of the eight settings. -/
def Each (P : ∀ {α : Type}, Setting α → Prop) : Prop :=
  P maxRestarts ∧ P coolOff ∧ P cap ∧ P intensiveCare ∧ P maxAttempts ∧ P storePath ∧ P logLevel ∧
    P logJson

section Each

variable {P Q : ∀ {α : Type}, Setting α → Prop}

theorem Each.imp (h : Each P) (step : ∀ {α : Type} (x : Setting α), P x → Q x) : Each Q := by
  obtain ⟨a, b, c, d, e, f, g, i⟩ := h
  exact ⟨step _ a, step _ b, step _ c, step _ d, step _ e, step _ f, step _ g, step _ i⟩

theorem Each.and (h : Each P) (h' : Each Q) : Each fun x => P x ∧ Q x := by
  obtain ⟨a, b, c, d, e, f, g, i⟩ := h
  obtain ⟨a', b', c', d', e', f', g', i'⟩ := h'
  exact ⟨⟨a, a'⟩, ⟨b, b'⟩, ⟨c, c'⟩, ⟨d, d'⟩, ⟨e, e'⟩, ⟨f, f'⟩, ⟨g, g'⟩, ⟨i, i'⟩⟩

end Each

/-- Settings consist of the eight. -/
theorem eq_of_each {s s' : Settings} (h : Each fun x => x.of s = x.of s') : s = s' := by
  obtain ⟨⟨a, b, c, d⟩, ⟨e⟩, ⟨f⟩, ⟨g, i⟩⟩ := s
  obtain ⟨⟨a', b', c', d'⟩, ⟨e'⟩, ⟨f'⟩, ⟨g', i'⟩⟩ := s'
  obtain ⟨rfl, rfl, rfl, rfl, rfl, rfl, rfl, rfl⟩ := h
  rfl

/-! ### Files -/

/-- What a document says of a setting alone. -/
def look (x : Setting α) : Yaml.Part → Yaml.Following α :=
  Yaml.Part.lookIn x.group x.absent (Yaml.Part.lookIn x.key x.absent x.read)

/-- What a text states of a setting: what stands at its place, or its default. -/
def stated? (x : Setting α) (text : String) : Option α :=
  if Text.allBlank text then some x.absent else Yaml.read? x.look text

end Setting

namespace Yaml

theorem frugal_restart (p : Part) : Frugal (RestartSettings.read format p) :=
  (p.frugal_fields _).bind fun _ =>
    (frugal_defaulted frugal_word32 _ _ _).bind fun _ =>
    (frugal_defaulted frugal_word64 _ _ _).bind fun _ =>
    (frugal_defaulted frugal_word32 _ _ _).bind fun _ =>
    (frugal_defaulted frugal_word64 _ _ _).bind fun _ => .pure _

theorem frugal_running (p : Part) : Frugal (RunnerSettings.read format p) :=
  (p.frugal_fields _).bind fun _ => (frugal_defaulted frugal_word32 _ _ _).bind fun _ => .pure _

theorem frugal_path (p : Part) : Frugal (format.maybe format.text p) :=
  frugal_maybe Part.frugal_text p

theorem frugal_store (p : Part) : Frugal (StoreSettings.read format p) :=
  (p.frugal_fields _).bind fun _ => (frugal_defaulted frugal_path _ _ _).bind fun _ => .pure _

theorem frugal_logging (p : Part) : Frugal (LoggingSettings.read format p) :=
  (p.frugal_fields _).bind fun _ =>
    (frugal_defaulted Part.frugal_text _ _ _).bind fun _ =>
    (frugal_defaulted Part.frugal_flag _ _ _).bind fun _ => .pure _

variable {p : Part} {left : Nat}

/-- Each setting of a section is what stands under its key. -/
theorem within_restart {r : RestartSettings} (h : Within (RestartSettings.read format p) left r) :
    Within (p.lookIn "max_restart_count" 5 format.word32) left r.maxRestarts ∧
      Within (p.lookIn "cool_off_unit_secs" 10 format.word64) left r.coolOffSeconds ∧
      Within (p.lookIn "cap_exponent" 5 format.word32) left r.cap ∧
      Within (p.lookIn "intensive_care_secs" 600 format.word64) left r.intensiveCareSeconds := by
  obtain ⟨fs, rest, h, found⟩ := Within.record h
  obtain ⟨_, maxRestarts, h⟩ := h.split (frugal_defaulted frugal_word32 _ _ _)
  obtain ⟨_, coolOff, h⟩ := h.split (frugal_defaulted frugal_word64 _ _ _)
  obtain ⟨_, cap, h⟩ := h.split (frugal_defaulted frugal_word32 _ _ _)
  obtain ⟨_, intensiveCare, h⟩ := h.split (frugal_defaulted frugal_word64 _ _ _)
  rw [← within_pure h]
  exact ⟨found (by simp) frugal_word32 maxRestarts, found (by simp) frugal_word64 coolOff,
    found (by simp) frugal_word32 cap, found (by simp) frugal_word64 intensiveCare⟩

theorem within_running {r : RunnerSettings} (h : Within (RunnerSettings.read format p) left r) :
    Within (p.lookIn "max_attempts" 3 format.word32) left r.maxAttempts := by
  obtain ⟨fs, rest, h, found⟩ := Within.record h
  obtain ⟨_, maxAttempts, h⟩ := h.split (frugal_defaulted frugal_word32 _ _ _)
  rw [← within_pure h]
  exact found (by simp) frugal_word32 maxAttempts

theorem within_store {r : StoreSettings} (h : Within (StoreSettings.read format p) left r) :
    Within (p.lookIn "path" none (format.maybe format.text)) left r.path := by
  obtain ⟨fs, rest, h, found⟩ := Within.record h
  obtain ⟨_, path, h⟩ := h.split (frugal_defaulted frugal_path _ _ _)
  rw [← within_pure h]
  exact found (by simp) frugal_path path

theorem within_logging {r : LoggingSettings} (h : Within (LoggingSettings.read format p) left r) :
    Within (p.lookIn "level" "info" format.text) left r.level ∧
      Within (p.lookIn "json" false format.flag) left r.json := by
  obtain ⟨fs, rest, h, found⟩ := Within.record h
  obtain ⟨_, level, h⟩ := h.split (frugal_defaulted Part.frugal_text _ _ _)
  obtain ⟨_, json, h⟩ := h.split (frugal_defaulted Part.frugal_flag _ _ _)
  rw [← within_pure h]
  exact ⟨found (by simp) Part.frugal_text level, found (by simp) Part.frugal_flag json⟩

/-- Each setting of a document is what stands at its place. -/
theorem yields_look {s : Settings} (h : Yields (Settings.read format p) left s) :
    Setting.Each fun x => Yields (x.look p) left (x.of s) := by
  obtain ⟨fs, rest, h, found⟩ := Within.record ⟨left, le_rfl, h⟩
  obtain ⟨_, restart, h⟩ := h.split (frugal_defaulted frugal_restart _ _ _)
  obtain ⟨_, running, h⟩ := h.split (frugal_defaulted frugal_running _ _ _)
  obtain ⟨_, store, h⟩ := h.split (frugal_defaulted frugal_store _ _ _)
  obtain ⟨_, logging, h⟩ := h.split (frugal_defaulted frugal_logging _ _ _)
  rw [← within_pure h]
  have inside {α : Type} {read : Part → Following α} (frugal : ∀ p, Frugal (read p)) (key : String)
      (absent : α) : ∀ p, Frugal (Part.lookIn key absent read p) := Part.frugal_lookIn frugal key absent
  have look {α : Type} {x : Setting α} {a : α} (frugal : ∀ p, Frugal (x.read p))
      (h : Within (x.look p) left a) : Yields (x.look p) left a :=
    (Part.frugal_lookIn (inside frugal x.key x.absent) x.group x.absent p).yields h
  refine ⟨look frugal_word32 ?_, look frugal_word64 ?_, look frugal_word32 ?_, look frugal_word64 ?_,
    look frugal_word32 ?_, look frugal_path ?_, look Part.frugal_text ?_, look Part.frugal_flag ?_⟩
  · exact found (by simp [Setting.maxRestarts]) (inside frugal_word32 _ _)
      (restart.defaulted (g := (·.maxRestarts)) rfl fun h => (within_restart h).1)
  · exact found (by simp [Setting.coolOff]) (inside frugal_word64 _ _)
      (restart.defaulted (g := (·.coolOffSeconds)) rfl fun h => (within_restart h).2.1)
  · exact found (by simp [Setting.cap]) (inside frugal_word32 _ _)
      (restart.defaulted (g := (·.cap)) rfl fun h => (within_restart h).2.2.1)
  · exact found (by simp [Setting.intensiveCare]) (inside frugal_word64 _ _)
      (restart.defaulted (g := (·.intensiveCareSeconds)) rfl fun h => (within_restart h).2.2.2)
  · exact found (by simp [Setting.maxAttempts]) (inside frugal_word32 _ _)
      (running.defaulted (g := (·.maxAttempts)) rfl fun h => within_running h)
  · exact found (by simp [Setting.storePath]) (inside frugal_path _ _)
      (store.defaulted (g := (·.path)) rfl fun h => within_store h)
  · exact found (by simp [Setting.logLevel]) (inside Part.frugal_text _ _)
      (logging.defaulted (g := (·.level)) rfl fun h => (within_logging h).1)
  · exact found (by simp [Setting.logJson]) (inside Part.frugal_flag _ _)
      (logging.defaulted (g := (·.json)) rfl fun h => (within_logging h).2)

end Yaml

namespace Setting

/-- The settings of a text are what it states of each. -/
theorem stated?_of_parse? {text : String} {s : Settings} (h : Settings.parse? text = some s) :
    Each fun x => x.stated? text = some (x.of s) := by
  unfold Settings.parse? at h
  by_cases blank : Text.allBlank text = true
  · rw [if_pos blank] at h
    cases h
    simp only [Each, stated?, if_pos blank]
    exact ⟨rfl, rfl, rfl, rfl, rfl, rfl, rfl, rfl⟩
  · rw [if_neg blank] at h
    obtain ⟨tokens, scanned, h⟩ := Option.bind_eq_some_iff.1 h
    obtain ⟨n, parsed, h⟩ := Option.bind_eq_some_iff.1 h
    refine (Yaml.yields_look (Yaml.yields_iff.2 h)).imp fun x found => ?_
    rw [stated?, if_neg blank, Yaml.read?, scanned, Option.bind_eq_bind, Option.bind_some, parsed]
    exact Yaml.yields_iff.1 found

/-! ### Overrides -/

variable {lookup : String → Option String}

/-- What overrides make of a setting: the value of its variable, or what it was. -/
def Picks (x : Setting α) (lookup : String → Option String) (before after : α) : Prop :=
  match lookup x.name with
  | some v => x.value v = .ok after
  | none => after = before

/-- Whether the value of the setting's variable can be read, if it has one. -/
def Readable (x : Setting α) (lookup : String → Option String) : Prop :=
  ∀ v, lookup x.name = some v → ∃ a, x.value v = .ok a

theorem readable_iff (x : Setting α) (before : α) :
    x.Readable lookup ↔ ∃ a, x.Picks lookup before a := by
  unfold Readable Picks
  cases lookup x.name with
  | none => simp
  | some v => simp

/-- The override of a setting by its variable. -/
def override (x : Setting α) : Override := ⟨x.name, fun v s => (x.value v).map (x.put · s)⟩

/-- The first of several overrides picks a value, which the others start from. -/
theorem apply_cons_iff (x : Setting α) {os : List Override} {s s' : Settings} :
    Override.apply lookup (x.override :: os) s = (.ok (), s') ↔
      ∃ a, x.Picks lookup (x.of s) a ∧ Override.apply lookup os (x.put a s) = (.ok (), s') := by
  rw [Override.apply]
  unfold Picks override
  cases lookup x.name with
  | none => simp [x.put_of]
  | some v =>
    cases read : x.value v with
    | error f => simp [read, Except.map]
    | ok a => simp [read, Except.map]

/-- There is one override for each setting. -/
theorem all_eq : Override.all = [maxRestarts.override, coolOff.override, cap.override,
    intensiveCare.override, maxAttempts.override, storePath.override, logLevel.override,
    logJson.override] := by
  simp only [Override.all, Override.trimmed, Override.verbatim, override, maxRestarts, coolOff, cap,
    intensiveCare, maxAttempts, storePath, logLevel, logJson, Except.map]

end Setting

namespace Settings

open Setting

variable {lookup : String → Option String}

/-- The overrides pick every setting by its own variable. -/
theorem override_eq_ok_iff {s s' : Settings} : s.override lookup = (.ok (), s') ↔
    Each fun x => x.Picks lookup (x.of s) (x.of s') := by
  rw [override, all_eq]
  simp only [apply_cons_iff]
  constructor
  · rintro ⟨a, picks_a, b, picks_b, c, picks_c, d, picks_d, e, picks_e, f, picks_f, g, picks_g, i,
      picks_i, h⟩
    cases h
    exact ⟨picks_a, picks_b, picks_c, picks_d, picks_e, picks_f, picks_g, picks_i⟩
  · rintro ⟨a, b, c, d, e, f, g, i⟩
    exact ⟨_, a, _, b, _, c, _, d, _, e, _, f, _, g, _, i, rfl⟩

/-- The overrides come to an end exactly if all values can be read. -/
theorem override_ok_iff (s : Settings) : (∃ s', s.override lookup = (.ok (), s')) ↔
    Each fun x => x.Readable lookup := by
  simp only [override_eq_ok_iff]
  constructor
  · rintro ⟨s', picked⟩
    exact picked.imp fun x picks => (x.readable_iff (x.of s)).2 ⟨_, picks⟩
  · intro readable
    obtain ⟨⟨a, h₁⟩, ⟨b, h₂⟩, ⟨c, h₃⟩, ⟨d, h₄⟩, ⟨e, h₅⟩, ⟨f, h₆⟩, ⟨g, h₇⟩, ⟨i, h₈⟩⟩ :=
      readable.imp fun x => (x.readable_iff (x.of s)).1
    exact ⟨⟨⟨a, b, c, d⟩, ⟨e⟩, ⟨f⟩, ⟨g, i⟩⟩, h₁, h₂, h₃, h₄, h₅, h₆, h₇, h₈⟩

/-! ### Valid settings -/

/-- Whether settings make sense. -/
structure Valid (s : Settings) : Prop where
  coolOff : 1 ≤ s.restart.coolOffSeconds
  cap : s.restart.cap ≤ 16
  maxAttempts : 1 ≤ s.running.maxAttempts
  level : ∃ c ∈ s.logging.level.toList, Text.isBlank c = false

theorem validate_iff {s : Settings} : s.validate = .ok () ↔ s.Valid := by
  have level : Text.allBlank s.logging.level = false ↔
      ∃ c ∈ s.logging.level.toList, Text.isBlank c = false := by
    simp [Text.allBlank]
  have positive32 {n : UInt32} : n ≠ 0 ↔ 1 ≤ n := by
    rw [Ne, ← UInt32.toNat_inj, UInt32.le_iff_toNat_le, UInt32.toNat_zero, UInt32.toNat_one]
    omega
  have positive64 {n : UInt64} : n ≠ 0 ↔ 1 ≤ n := by
    rw [Ne, ← UInt64.toNat_inj, UInt64.le_iff_toNat_le, UInt64.toNat_zero, UInt64.toNat_one]
    omega
  unfold validate
  constructor
  · intro h
    split at h
    · cases h
    · split at h
      · cases h
      · split at h
        · cases h
        · split at h
          · cases h
          · rename_i coolOff cap attempts blank
            exact ⟨positive64.1 coolOff, UInt32.not_lt.1 cap, positive32.1 attempts,
              level.1 (Bool.eq_false_iff.2 blank)⟩
  · rintro ⟨coolOff, cap, attempts, some_char⟩
    have cap : ¬ largestCap < s.restart.cap := UInt32.not_lt.2 cap
    rw [if_neg (positive64.2 coolOff), if_neg cap, if_neg (positive32.2 attempts),
      level.2 some_char]
    rfl

theorem toNanos_unit (s : Settings) :
    s.backoff.unit.toNanos = s.restart.coolOffSeconds.toNat * second := by
  have seconds : s.restart.coolOffSeconds.toNat < UInt64.size := s.restart.coolOffSeconds.toNat_lt
  show (Duration.ofParts s.restart.coolOffSeconds.toNat 0).toNanos = _
  rw [Duration.ofParts, dif_pos (by simpa using seconds), Duration.toNanos]
  simp

/-- With valid settings a delay is the unit times a power of two, unless the longest span is shorter;
the power itself never stops. -/
theorem Valid.toNanos_window {s : Settings} (h : s.Valid) (e : UInt32) :
    0 < (s.backoff.window e).toNanos ∧ (s.backoff.window e).toNanos =
      min (s.restart.coolOffSeconds.toNat * second * 2 ^ min e.toNat s.restart.cap.toNat)
        Duration.longest.toNanos := by
  have unit : 1 ≤ s.restart.coolOffSeconds.toNat := UInt64.le_iff_toNat_le.1 h.coolOff
  have cap : s.restart.cap.toNat ≤ 16 := UInt32.le_iff_toNat_le.1 h.cap
  have power : 2 ^ min e.toNat s.restart.cap.toNat ≤ 2 ^ 16 :=
    Nat.pow_le_pow_right (by decide) ((Nat.min_le_right _ _).trans cap)
  have room : 2 ^ 16 ≤ UInt32.size - 1 := by decide
  refine ⟨(s.backoff.window_pos_iff e).2 ?_, ?_⟩
  · rw [toNanos_unit]
    exact Nat.mul_pos unit (by decide)
  · rw [Backoff.toNanos_window, toNanos_unit]
    show min (_ * min (2 ^ min e.toNat s.restart.cap.toNat) _) _ = _
    rw [Nat.min_eq_left (power.trans room)]

end Settings
end Steward
