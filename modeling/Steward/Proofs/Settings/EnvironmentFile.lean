/-
# What a file of variables sets

Such a file is a list of lines, each of which may mention variables that have a value by then: in the
environment, or by an assignment before it (`EnvironmentFile.known`, `EnvironmentFile.assigned`). To
carry out the lines gives a variable the value from the environment, if it has one there, and else
that of the first assignment to it (`EnvironmentFile.assign_cases`). It stops at the first line with
a fault: one that cannot be read, or one that is to give a variable without a value a text with a
NUL character (`EnvironmentFile.assigned_eq_error_iff`).

The value of a variable depends on those of the environment only that the lines let into it: its own,
those that an assignment to it mentions, and so on (`EnvironmentFile.known_congr`).

Key definitions: `EnvironmentFile.known`, `Line.fault?`, `Line.assigns`, `EnvironmentFile.assigned`,
`EnvironmentFile.Feeds`.
Key theorems: `EnvironmentFile.assign_cases`, `EnvironmentFile.assigned_eq_error_iff`,
`EnvironmentFile.known_congr`.
-/
import Steward.Proofs.NameMap
import Steward.Settings.EnvironmentFile

namespace Steward
namespace EnvironmentFile

/-- The value of a variable in an environment, or else by assignments. -/
def known (env : String → Option String) (as : List (String × String)) (k : String) :
    Option String :=
  (env k).or (as.lookup k)

/-- What is wrong with a line where variables have these values. -/
def Line.fault? (lookup : String → Option String) : Line → Option Fault
  | blank => none
  | assignment name ps =>
    let v := fill lookup ps
    if lookup name = none ∧ '\x00' ∈ v.toList then some (.nul name v) else none
  | unreadable detail => some (.unreadable detail)

/-- What a line assigns there. -/
def Line.assigns (lookup : String → Option String) : Line → List (String × String)
  | assignment name ps => [(name, fill lookup ps)]
  | blank | unreadable _ => []

/-- The assignments of lines, in an environment and after other assignments. -/
def assigned (env : String → Option String) :
    List (String × String) → List Line → Except Fault (List (String × String))
  | _, [] => .ok []
  | before, l :: ls =>
    match l.fault? (known env before) with
    | some f => .error f
    | none =>
      let as := l.assigns (known env before)
      (assigned env (before ++ as) ls).map (as ++ ·)

variable {env env' : String → Option String} {before as as' : List (String × String)}
  {ls : List Line} {vars : NameMap String} {name v : String}

section

variable {l : Line} {f : Fault}

theorem assigned_of_fault (fault : l.fault? (known env before) = some f) (ls : List Line) :
    assigned env before (l :: ls) = .error f := by
  rw [assigned, fault]

theorem assigned_of_fine (fine : l.fault? (known env before) = none) (ls : List Line) :
    assigned env before (l :: ls) =
      (assigned env (before ++ l.assigns (known env before)) ls).map
        (l.assigns (known env before) ++ ·) := by
  rw [assigned, fine]

theorem assigned_cons_eq_ok_iff : assigned env before (l :: ls) = .ok as ↔
    l.fault? (known env before) = none ∧ ∃ rest,
      assigned env (before ++ l.assigns (known env before)) ls = .ok rest ∧
        as = l.assigns (known env before) ++ rest := by
  cases fault : l.fault? (known env before) with
  | some f => simp [assigned_of_fault fault]
  | none =>
    rw [assigned_of_fine fault]
    cases assigned env (before ++ l.assigns (known env before)) ls with
    | error f => simp [Except.map]
    | ok rest => simp [Except.map, eq_comm]

end

/-! ### Carrying out lines -/

/-- One more assignment counts for a variable without a value. -/
theorem known_append (env : String → Option String) (as : List (String × String))
    (name v k : String) : known env (as ++ [(name, v)]) k =
      (known env as k).or (if k = name then some v else none) := by
  rw [known, known, List.lookup_append, ← Option.or_assoc]
  by_cases same : k = name
  · simp [same]
  · simp [same, List.lookup_cons, beq_eq_false_iff_ne.2 same]

/-- A variable that has a value keeps it. -/
theorem get?_of_contains (h : vars.get? = known env as) (has : vars.contains name = true) :
    vars.get? = known env (as ++ [(name, v)]) := by
  funext k
  rw [known_append, ← h]
  split
  · rename_i same
    obtain ⟨w, found⟩ := Option.isSome_iff_exists.1 has
    rw [same, found, Option.some_or]
  · rw [Option.or_none]

/-- A variable that has none gets the one it is assigned. -/
theorem get?_insert_of_not_contains (h : vars.get? = known env as)
    (missing : vars.get? name = none) :
    (vars.insert name v).get? = known env (as ++ [(name, v)]) := by
  funext k
  rw [known_append, ← h, NameMap.get?_insert]
  split
  · rename_i same
    rw [same, missing, Option.none_or]
  · rw [Option.or_none]

/-- A line is carried out, or stops at its fault. -/
theorem assign_cons (h : vars.get? = known env before) (l : Line) (ls : List Line) :
    (∃ f, l.fault? (known env before) = some f ∧ assign vars (l :: ls) = .error f) ∨
      l.fault? (known env before) = none ∧ ∃ vars₁, assign vars (l :: ls) = assign vars₁ ls ∧
        vars₁.get? = known env (before ++ l.assigns (known env before)) := by
  cases l with
  | blank => exact .inr ⟨rfl, vars, rfl, by rwa [Line.assigns, List.append_nil]⟩
  | unreadable detail => exact .inl ⟨_, rfl, rfl⟩
  | assignment name ps =>
    rw [assign, Line.fault?, Line.assigns, h]
    cases found : known env before name with
    | some w =>
      have has : vars.contains name = true := by rw [NameMap.contains, h, found]; rfl
      rw [if_pos has, if_neg (by simp)]
      exact .inr ⟨rfl, vars, rfl, get?_of_contains h has⟩
    | none =>
      have missing : vars.get? name = none := by rw [h, found]
      have not_there : ¬ vars.contains name = true := by rw [NameMap.contains, missing]; decide
      rw [if_neg not_there]
      by_cases nul : '\x00' ∈ (fill (known env before) ps).toList
      · rw [if_pos (List.contains_iff_mem.2 nul), if_pos ⟨rfl, nul⟩]
        exact .inl ⟨_, rfl, rfl⟩
      · rw [if_neg (mt List.contains_iff_mem.1 nul), if_neg fun both => nul both.2]
        exact .inr ⟨rfl, _, rfl, get?_insert_of_not_contains h missing⟩

/-- Lines assign what they say, one after the other, and stop at the same fault. -/
theorem assign_cases : ∀ (ls : List Line) {before : List (String × String)} {vars : NameMap String},
    vars.get? = known env before →
      (∃ f, assign vars ls = .error f ∧ assigned env before ls = .error f) ∨
      ∃ vars' as, assign vars ls = .ok vars' ∧ assigned env before ls = .ok as ∧
        vars'.get? = known env (before ++ as)
  | [], before, vars, h => .inr ⟨vars, [], rfl, rfl, by rwa [List.append_nil]⟩
  | l :: ls, before, vars, h => by
    rcases assign_cons h l ls with ⟨f, fault, stops⟩ | ⟨fine, vars₁, goes_on, h₁⟩
    · exact .inl ⟨f, stops, assigned_of_fault fault ls⟩
    · rw [assigned_of_fine fine, goes_on]
      rcases assign_cases ls h₁ with ⟨f, stops, fault⟩ | ⟨vars', as, ends, said, after⟩
      · exact .inl ⟨f, stops, by rw [fault]; rfl⟩
      · rw [List.append_assoc] at after
        exact .inr ⟨vars', _, ends, by rw [said]; rfl, after⟩

/-! ### Faults -/

section

variable {lookup : String → Option String} {l : Line}

theorem Line.fault?_eq_unreadable_iff {detail : String} :
    l.fault? lookup = some (.unreadable detail) ↔ l = .unreadable detail := by
  cases l with
  | blank => simp [fault?]
  | assignment name ps =>
    simp only [fault?]
    split <;> simp
  | unreadable detail' => simp [fault?]

theorem Line.fault?_eq_nul_iff : l.fault? lookup = some (.nul name v) ↔
    ∃ ps, l = .assignment name ps ∧ lookup name = none ∧ v = fill lookup ps ∧ '\x00' ∈ v.toList := by
  cases l with
  | blank => simp [fault?]
  | assignment name' ps =>
    simp only [fault?, Option.ite_none_right_eq_some, Option.some.injEq, Fault.nul.injEq]
    constructor
    · rintro ⟨⟨missing, nul⟩, rfl, rfl⟩
      exact ⟨ps, rfl, missing, rfl, nul⟩
    · rintro ⟨_, ⟨⟩, missing, rfl, nul⟩
      exact ⟨⟨missing, nul⟩, rfl, rfl⟩
  | unreadable detail => simp [fault?]

end

/-- The lines stop at the first one with a fault. -/
theorem assigned_eq_error_iff {f : Fault} : ∀ (ls : List Line) {before : List (String × String)},
    assigned env before ls = .error f ↔
      ∃ done l rest as, ls = done ++ l :: rest ∧ assigned env before done = .ok as ∧
        l.fault? (known env (before ++ as)) = some f
  | [], before => by
    refine ⟨nofun, ?_⟩
    rintro ⟨done, l, rest, as, split, -⟩
    simp at split
  | l :: ls, before => by
    cases fault : l.fault? (known env before) with
    | some g =>
      rw [assigned_of_fault fault]
      constructor
      · rintro ⟨⟩
        exact ⟨[], l, ls, [], rfl, rfl, by rwa [List.append_nil]⟩
      · rintro ⟨done, l', rest, as, split, said, stops⟩
        cases done with
        | nil =>
          cases split
          cases said
          rw [List.append_nil, fault] at stops
          rw [Option.some.inj stops]
        | cons _ done =>
          cases split
          rw [assigned_of_fault fault] at said
          cases said
    | none =>
      have later : assigned env before (l :: ls) = .error f ↔
          assigned env (before ++ l.assigns (known env before)) ls = .error f := by
        rw [assigned_of_fine fault]
        cases assigned env (before ++ l.assigns (known env before)) ls <;> simp [Except.map]
      rw [later, assigned_eq_error_iff ls]
      constructor
      · rintro ⟨done, l', rest, as, rfl, said, stops⟩
        rw [List.append_assoc] at stops
        exact ⟨l :: done, l', rest, _, rfl, assigned_cons_eq_ok_iff.2 ⟨fault, as, said, rfl⟩, stops⟩
      · rintro ⟨done, l', rest, as, split, said, stops⟩
        cases done with
        | nil =>
          cases split
          cases said
          rw [List.append_nil, fault] at stops
          cases stops
        | cons _ done =>
          cases split
          obtain ⟨-, as', begun, rfl⟩ := assigned_cons_eq_ok_iff.1 said
          rw [← List.append_assoc] at stops
          exact ⟨done, l', rest, as', rfl, begun, stops⟩

/-! ### Mentions -/

/-- Whether the value of a variable may be a part of that of another: it is the same variable, or a
line that mentions it assigns to one of which this is so. -/
inductive Feeds (ls : List Line) : String → String → Prop where
  | refl (k : String) : Feeds ls k k
  | mention {k m n : String} {ps : List Piece} (line : .assignment m ps ∈ ls)
      (part : .mention k ∈ ps) (feeds : Feeds ls m n) : Feeds ls k n

/-- A value depends on the variables only that it mentions. -/
theorem fill_congr {lookup lookup' : String → Option String} {ps : List Piece}
    (h : ∀ k, .mention k ∈ ps → lookup k = lookup' k) : fill lookup ps = fill lookup' ps := by
  have same : ps.map (Piece.chars lookup) = ps.map (Piece.chars lookup') := by
    refine List.map_congr_left fun p hp => ?_
    cases p with
    | char c => rfl
    | mention name => rw [Piece.chars, Piece.chars, h name hp]
  rw [fill, fill, List.flatMap_def, List.flatMap_def, same]

section

variable {all : List Line} {n : String} {before' : List (String × String)}

/-- A line keeps two runs alike on the variables that feed one. -/
theorem known_append_assigns {l : Line} (there : l ∈ all)
    (alike : ∀ k, Feeds all k n → known env before k = known env' before' k) (k : String)
    (feeds : Feeds all k n) : known env (before ++ l.assigns (known env before)) k =
      known env' (before' ++ l.assigns (known env' before')) k := by
  cases l with
  | assignment m ps =>
    rw [Line.assigns, Line.assigns, known_append, known_append, alike k feeds]
    by_cases same : k = m
    · subst same
      rw [fill_congr fun j part => alike j (.mention there part feeds)]
    · rw [if_neg same, if_neg same]
  | blank | unreadable _ => simpa only [Line.assigns, List.append_nil] using alike k feeds

theorem known_append_congr : ∀ (ls : List Line) {before before' as as' : List (String × String)},
    ls ⊆ all → (∀ k, Feeds all k n → known env before k = known env' before' k) →
      assigned env before ls = .ok as → assigned env' before' ls = .ok as' →
        ∀ k, Feeds all k n → known env (before ++ as) k = known env' (before' ++ as') k
  | [], before, before', as, as', there, alike, said, said' => by
    cases said
    cases said'
    simpa only [List.append_nil] using alike
  | l :: ls, before, before', as, as', there, alike, said, said' => by
    obtain ⟨-, rest, begun, rfl⟩ := assigned_cons_eq_ok_iff.1 said
    obtain ⟨-, rest', begun', rfl⟩ := assigned_cons_eq_ok_iff.1 said'
    rw [← List.append_assoc, ← List.append_assoc]
    obtain ⟨first, others⟩ := List.cons_subset.1 there
    -- The line keeps the runs alike on all that feeds the variable, not only on the variable itself.
    exact known_append_congr ls others (known_append_assigns first alike) begun begun'

/-- The value of a variable depends on those of the environment only that feed it. -/
theorem known_congr (alike : ∀ k, Feeds ls k n → env k = env' k) (said : assigned env [] ls = .ok as)
    (said' : assigned env' [] ls = .ok as') : known env as n = known env' as' n := by
  have begun (k : String) (feeds : Feeds ls k n) : known env [] k = known env' [] k := by
    rw [known, known, alike k feeds]
  exact known_append_congr ls (List.Subset.refl ls) begun said said' n (.refl n)

end

end EnvironmentFile
end Steward
