/-
# The set of listed modules

Modules that are listed make a set if each has a name with more than blanks in it and no two have the
same name (`ModuleSet.Listable`). Otherwise some module is the first that has no name or the name of
an earlier one, and its fault is that of the list (`ModuleSet.FirstMisnamed`). A list is either
(`ModuleSet.listable_or_misnamed`), by recursion from its end, as the modules are put in.

The set of a list holds the modules of the list, each as often as it is listed, and there is only one
such set (`ModuleSet.eq_of_perm`). So the order of the list has no part in it.

Key definitions: `Module.Named`, `ModuleSet.Listable`, `ModuleSet.Misnamed`,
`ModuleSet.FirstMisnamed`.
Key theorems: `ModuleSet.add_append`, `ModuleSet.create_of_listable`,
`ModuleSet.create_of_misnamed`, `ModuleSet.create_laws`.
-/
import Mathlib.Data.List.Induction
import Steward.Proofs.Module.Application

namespace Steward

/-- Whether there is more than blanks in the name. -/
def Module.Named (m : Module) : Prop := ∃ c ∈ m.name.toList, Text.isBlank c = false

theorem Module.named_iff (m : Module) : m.Named ↔ Text.allBlank m.name = false := by
  simp [Named, Text.allBlank]

namespace ModuleSet

/-! ### Lists that make a set -/

/-- Whether each module has a name, and a name of its own. -/
structure Listable (ms : List Module) : Prop where
  named : ∀ m ∈ ms, m.Named
  distinct : (ms.map Module.name).Nodup

/-- The fault of a module after some others. -/
inductive Misnamed (earlier : List Module) (m : Module) : ModuleFault → Prop
  | blank : (∀ c ∈ m.name.toList, Text.isBlank c = true) → Misnamed earlier m .emptyName
  | repeated : m.Named → m.name ∈ earlier.map Module.name →
    Misnamed earlier m (.duplicateName m.name)

/-- The fault of the first module that has one. -/
def FirstMisnamed (ms : List Module) (f : ModuleFault) : Prop :=
  ∃ earlier m later, ms = earlier ++ m :: later ∧ Listable earlier ∧ Misnamed earlier m f

variable {ms earlier : List Module} {m : Module} {f : ModuleFault} {s t : ModuleSet}

theorem Listable.nil : Listable [] where
  named _ hm := absurd hm List.not_mem_nil
  distinct := .nil

theorem listable_snoc_iff :
    Listable (earlier ++ [m]) ↔ Listable earlier ∧ m.Named ∧ m.name ∉ earlier.map Module.name := by
  have distinct : ((earlier ++ [m]).map Module.name).Nodup ↔
      (earlier.map Module.name).Nodup ∧ m.name ∉ earlier.map Module.name := by
    rw [List.map_append, List.map_singleton, List.nodup_append_comm, List.singleton_append,
      List.nodup_cons, and_comm]
  constructor
  · rintro ⟨named, unique⟩
    obtain ⟨before, own⟩ := distinct.1 unique
    refine ⟨⟨fun b hb => named b ?_, before⟩, named m ?_, own⟩
    · exact List.mem_append_left _ hb
    · exact List.mem_append_right _ (List.mem_singleton_self m)
  · rintro ⟨⟨named, before⟩, last, own⟩
    refine ⟨fun b hb => ?_, distinct.2 ⟨before, own⟩⟩
    rcases List.mem_append.1 hb with hb | hb
    · exact named b hb
    · rwa [List.mem_singleton.1 hb]

/-- A module is at fault after others, or it can be listed after them. -/
theorem misnamed_or (earlier : List Module) (m : Module) :
    (m.Named ∧ m.name ∉ earlier.map Module.name) ∨ ∃ f, Misnamed earlier m f := by
  by_cases named : m.Named
  · by_cases repeated : m.name ∈ earlier.map Module.name
    · exact .inr ⟨_, .repeated named repeated⟩
    · exact .inl ⟨named, repeated⟩
  · have blank : ∀ c ∈ m.name.toList, Text.isBlank c = true := by
      simpa [Module.Named] using named
    exact .inr ⟨_, .blank blank⟩

theorem FirstMisnamed.snoc (h : FirstMisnamed earlier f) (m : Module) :
    FirstMisnamed (earlier ++ [m]) f := by
  obtain ⟨front, m', later, rfl, sound, fault⟩ := h
  exact ⟨front, m', later ++ [m], by simp, sound, fault⟩

theorem listable_or_misnamed (ms : List Module) : Listable ms ∨ ∃ f, FirstMisnamed ms f := by
  induction ms using List.reverseRecOn with
  | nil => exact .inl .nil
  | append_singleton earlier m ih =>
    rcases ih with sound | ⟨f, fault⟩
    · rcases misnamed_or earlier m with fits | ⟨f, fault⟩
      · exact .inl (listable_snoc_iff.2 ⟨sound, fits⟩)
      · exact .inr ⟨f, earlier, m, [], rfl, sound, fault⟩
    · exact .inr ⟨f, fault.snoc m⟩

/-! ### Sets by the modules in them -/

theorem nodup_toList (s : ModuleSet) : s.toList.Nodup :=
  .of_map Module.name (s.ascending_toList.imp String.ne_of_lt)

theorem get?_eq_some_iff (s : ModuleSet) {n : String} {m : Module} :
    s.get? n = some m ↔ m ∈ s.toList ∧ m.name = n := by
  constructor
  · intro there
    have name := s.name_of_get? there
    exact ⟨s.mem_toList_iff.2 (name ▸ there), name⟩
  · rintro ⟨mem, rfl⟩
    exact s.mem_toList_iff.1 mem

/-- Sets with the same modules are the same set. -/
theorem eq_of_perm (h : s.toList.Perm t.toList) : s = t := by
  have lookups : ∀ n, s.modules.get? n = t.modules.get? n := fun n =>
    Option.ext fun m => by
      show s.get? n = some m ↔ t.get? n = some m
      rw [get?_eq_some_iff, get?_eq_some_iff, h.mem_iff]
  have maps : s.modules = t.modules := NameMap.ext_get? lookups
  cases s
  cases t
  cases maps
  rfl

/-- A module with a name of its own comes to the others. -/
theorem perm_insert (own : s.get? m.name = none) : (s.insert m).toList.Perm (m :: s.toList) := by
  have absent : m ∉ s.toList := fun mem => by
    rw [s.mem_toList_iff.1 mem] at own
    cases own
  refine (List.perm_ext_iff_of_nodup (nodup_toList _) ?_).2 fun m' => ?_
  · exact List.nodup_cons.2 ⟨absent, s.nodup_toList⟩
  · rw [mem_toList_iff, get?_insert, List.mem_cons, mem_toList_iff]
    by_cases name : m'.name = m.name
    · rw [if_pos name, name, own]
      simp [eq_comm]
    · have other : m' ≠ m := fun e => name (congrArg Module.name e)
      simp [name, other]

/-- The names in a set are those of its modules. -/
theorem contains_iff (holds : s.toList.Perm earlier) (n : String) :
    s.modules.contains n = true ↔ n ∈ earlier.map Module.name := by
  show s.contains n = true ↔ _
  rw [contains_eq, Option.isSome_iff_exists, ← mem_names_iff, names_eq, (holds.map _).mem_iff]

/-! ### Putting modules in -/

/-- What is put in after a list is put into the set of the list. -/
theorem add_append : ∀ (ms ms' : List Module) (s : ModuleSet),
    add s (ms ++ ms') = (add s ms).bind fun t => add t ms'
  | [], _, _ => rfl
  | m :: ms, ms', s => by
    rw [List.cons_append, add, add]
    split
    · rfl
    · split
      · rfl
      · exact add_append ms ms' _

theorem create_append {ms' : List Module} (before : create ms = .ok s) :
    create (ms ++ ms') = add s ms' := by
  rw [create, add_append, ← create, before]
  rfl

/-- A module with a name of its own is put in. -/
theorem add_of_fits (holds : s.toList.Perm earlier) (named : m.Named)
    (own : m.name ∉ earlier.map Module.name) : add s [m] = .ok (s.insert m) := by
  have absent : s.modules.contains m.name = false := by
    rwa [← Bool.not_eq_true, contains_iff holds]
  rw [add, m.named_iff.1 named, absent]
  rfl

/-- A module that is at fault is not put in, whatever comes after it. -/
theorem add_of_misnamed (holds : s.toList.Perm earlier) (fault : Misnamed earlier m f)
    (later : List Module) : add s (m :: later) = .error f := by
  cases fault with
  | blank blank =>
    have blank : Text.allBlank m.name = true := List.all_eq_true.2 blank
    rw [add, blank]
    rfl
  | repeated named repeated =>
    rw [add, m.named_iff.1 named, (contains_iff holds _).2 repeated]
    rfl

theorem create_of_listable (h : Listable ms) : ∃ s, create ms = .ok s ∧ s.toList.Perm ms := by
  induction ms using List.reverseRecOn with
  | nil => exact ⟨empty, rfl, .nil⟩
  | append_singleton earlier m ih =>
    obtain ⟨sound, named, own⟩ := listable_snoc_iff.1 h
    obtain ⟨s, before, holds⟩ := ih sound
    have put : create (earlier ++ [m]) = .ok (s.insert m) :=
      (create_append before).trans (add_of_fits holds named own)
    have absent : s.get? m.name = none := by
      rw [← Option.not_isSome_iff_eq_none, ← contains_eq]
      exact fun there => own ((contains_iff holds _).1 there)
    have all : (s.insert m).toList.Perm (earlier ++ [m]) :=
      ((perm_insert absent).trans (holds.cons m)).trans (List.perm_append_singleton m earlier).symm
    exact ⟨s.insert m, put, all⟩

theorem create_of_misnamed (h : FirstMisnamed ms f) : create ms = .error f := by
  obtain ⟨earlier, m, later, rfl, sound, fault⟩ := h
  obtain ⟨s, before, holds⟩ := create_of_listable sound
  rw [create_append before]
  exact add_of_misnamed holds fault later

/-- The set of a list holds its modules, and is the only set that does. -/
theorem create_ok_iff : create ms = .ok s ↔ Listable ms ∧ s.toList.Perm ms := by
  constructor
  · intro made
    rcases listable_or_misnamed ms with sound | ⟨f, fault⟩
    · obtain ⟨t, made', holds⟩ := create_of_listable sound
      obtain rfl : t = s := Except.ok.inj (made'.symm.trans made)
      exact ⟨sound, holds⟩
    · rw [create_of_misnamed fault] at made
      cases made
  · rintro ⟨sound, holds⟩
    obtain ⟨t, made, holds'⟩ := create_of_listable sound
    rw [made, eq_of_perm (holds'.trans holds.symm)]

theorem create_error_iff : create ms = .error f ↔ FirstMisnamed ms f := by
  constructor
  · intro failed
    rcases listable_or_misnamed ms with sound | ⟨f', fault⟩
    · obtain ⟨t, made, -⟩ := create_of_listable sound
      rw [made] at failed
      cases failed
    · obtain rfl : f' = f := Except.error.inj ((create_of_misnamed fault).symm.trans failed)
      exact fault
  · exact create_of_misnamed

theorem Listable.of_perm {ms' : List Module} (h : Listable ms) (p : ms'.Perm ms) :
    Listable ms' where
  named m hm := h.named m (p.mem_iff.1 hm)
  distinct := (p.map Module.name).nodup_iff.2 h.distinct

/-- **What a list of modules makes.** It makes a set exactly if each name has a character that is not
blank and all names are different. The set holds the listed modules and no others, each found under
its name; it shows them in ascending order of their names, and any other order of the list makes the
same set. Else the list has the fault of the first module with a blank name or the name of an earlier
module. -/
theorem create_laws (ms : List Module) :
    ((∃ s, create ms = .ok s) ↔
      (∀ m ∈ ms, ∃ c ∈ m.name.toList, Text.isBlank c = false) ∧ (ms.map Module.name).Nodup) ∧
    (∀ s, create ms = .ok s →
      s.toList.Perm ms ∧ (∀ n m, s.get? n = some m ↔ m ∈ ms ∧ m.name = n) ∧
      s.names = s.toList.map Module.name ∧ s.names.Pairwise (· < ·) ∧
      ∀ ms' : List Module, ms'.Perm ms → create ms' = .ok s) ∧
    (∀ f, create ms = .error f ↔ FirstMisnamed ms f) := by
  refine ⟨⟨?_, ?_⟩, fun s made => ?_, fun f => create_error_iff⟩
  · rintro ⟨s, made⟩
    obtain ⟨sound, -⟩ := create_ok_iff.1 made
    exact ⟨sound.named, sound.distinct⟩
  · rintro ⟨named, distinct⟩
    obtain ⟨s, made, -⟩ := create_of_listable ⟨named, distinct⟩
    exact ⟨s, made⟩
  · obtain ⟨sound, holds⟩ := create_ok_iff.1 made
    refine ⟨holds, fun n m => ?_, s.names_eq, s.modules.ascending, fun ms' p => ?_⟩
    · rw [get?_eq_some_iff, holds.mem_iff]
    · exact create_ok_iff.2 ⟨sound.of_perm p, holds.trans p.symm⟩

end ModuleSet
end Steward
