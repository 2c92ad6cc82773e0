/-
# What becomes of a name

Two sets of modules, those desired and those that are there, decide for every name what has to
become of it (`ModuleSet.fate`): it goes, it comes, only its status changes, it is replaced, or it
is kept. The difference of the two sets touches a name unless it is kept or in neither set
(`ModuleSet.touches_diff_iff`), and two sets that agree on every name are the same
(`ModuleSet.same_of_agree`).

Key definitions: `ModuleSet.Agree`, `Fate`, `ModuleSet.fate`.
Key theorems: `ModuleSet.mem_toList_iff`, `ModuleSet.touches_diff_iff`, `ModuleSet.same_of_agree`.
-/
import Steward.Module.Set
import Steward.Proofs.NameMap

namespace Steward

/-! ### Equality of declarations

Values are compared by what they say, so a value equals itself although two texts of zero differ. -/

theorem Number.same_refl (n : Number) : n.same n = true := by
  cases n <;> simp [Number.same, Binary64.same]

namespace Json

mutual

theorem same_refl : ∀ j : Json, j.same j = true
  | null => rfl
  | bool _ => by simp [same]
  | number n => by simp [same, n.same_refl]
  | string _ => by simp [same]
  | array js => by simp [same, sameItems_refl js]
  | object fs => by simp [same, sameFields_refl fs]

theorem sameItems_refl : ∀ js : List Json, sameItems js js = true
  | [] => rfl
  | j :: js => by simp [sameItems, same_refl j, sameItems_refl js]

theorem sameFields_refl : ∀ fs : List (String × Json), sameFields fs fs = true
  | [] => rfl
  | (_, j) :: fs => by simp [sameFields, same_refl j, sameFields_refl fs]

end

end Json

namespace Module

theorem same_refl (m : Module) : m.same m = true := by
  simp [same, m.config.same_refl]

/-- A module that differs only in its status is the other once it has its status. -/
theorem same_of_differsOnlyInStatus {old new : Module} (h : old.differsOnlyInStatus new = true) :
    ({ old with status := new.status } : Module).same new = true := by
  simp only [differsOnlyInStatus, Bool.and_eq_true] at h
  simp [same, h]

/-- Modules that differ only in their status are not the same. -/
theorem not_same_of_differsOnlyInStatus {old new : Module}
    (h : old.differsOnlyInStatus new = true) : old.same new = false := by
  simp only [differsOnlyInStatus, Bool.and_eq_true, bne_iff_ne] at h
  simp [same, h]

end Module

namespace ModuleSet

/-! ### A set by its lookups -/

theorem name_of_get? (s : ModuleSet) {n : String} {m : Module} (h : s.get? n = some m) :
    m.name = n :=
  (s.named _ (s.modules.get?_eq_some_iff.1 h)).symm

theorem mem_toList_iff (s : ModuleSet) {m : Module} : m ∈ s.toList ↔ s.get? m.name = some m := by
  rw [get?, NameMap.get?_eq_some_iff]
  simp only [toList, NameMap.values, List.mem_map, Prod.exists, exists_eq_right]
  constructor
  · rintro ⟨n, h⟩
    exact s.named _ h ▸ h
  · exact fun h => ⟨_, h⟩

theorem names_eq (s : ModuleSet) : s.names = s.toList.map Module.name := by
  simp only [names, NameMap.keys, toList, NameMap.values, List.map_map]
  exact List.map_congr_left fun e h => s.named e h

/-- The modules come in the order of their names. -/
theorem ascending_toList (s : ModuleSet) : (s.toList.map Module.name).Pairwise (· < ·) :=
  s.names_eq ▸ s.modules.ascending

theorem contains_eq (s : ModuleSet) (n : String) : s.contains n = (s.get? n).isSome := rfl

theorem mem_names_iff (s : ModuleSet) {n : String} : n ∈ s.names ↔ ∃ m, s.get? n = some m :=
  s.modules.mem_keys_iff

theorem toList_eq (s : ModuleSet) :
    s.toList = s.names.map fun n => (s.get? n).getD default := by
  rw [names_eq, List.map_map]
  conv_lhs => rw [← List.map_id s.toList]
  refine List.map_congr_left fun m h => ?_
  simp [(s.mem_toList_iff).1 h]

/-! ### The lists of a difference -/

section

variable (a b : ModuleSet)

theorem mem_created_iff {m : Module} :
    m ∈ (a.diff b).created ↔ a.get? m.name = some m ∧ b.get? m.name = none := by
  simp [diff, mem_toList_iff, contains_eq]

theorem mem_updated_iff {m : Module} : m ∈ (a.diff b).updated ↔
    a.get? m.name = some m ∧ ∃ old, b.get? m.name = some old ∧ old.same m = false := by
  simp only [diff, List.mem_filter, mem_toList_iff]
  cases h : b.get? m.name <;> simp

theorem mem_gone_iff {n : String} :
    n ∈ (a.diff b).removed ↔ a.get? n = none ∧ ∃ old, b.get? n = some old := by
  simp [diff, mem_names_iff, contains_eq, and_comm]

theorem ascending_created : ((a.diff b).created.map Module.name).Pairwise (· < ·) :=
  a.ascending_toList.sublist (List.filter_sublist.map _)

theorem ascending_updated : ((a.diff b).updated.map Module.name).Pairwise (· < ·) :=
  a.ascending_toList.sublist (List.filter_sublist.map _)

theorem ascending_removed : (a.diff b).removed.Pairwise (· < ·) :=
  b.modules.ascending.sublist List.filter_sublist

end

/-! ### Agreement -/

/-- Whether what is there under a name is what is desired. -/
def Agree (desired there : Option Module) : Prop :=
  match desired, there with
  | none, none => True
  | some new, some old => old.same new = true
  | _, _ => False

/-- The difference touches exactly the names on which the two sets disagree. -/
theorem touches_diff_iff (a b : ModuleSet) (n : String) :
    (a.diff b).touches n = true ↔ ¬ Agree (a.get? n) (b.get? n) := by
  simp only [Diff.touches, diff, List.any_append, Bool.or_eq_true, List.contains_iff_mem,
    List.mem_filter, List.any_eq_true, mem_names_iff, beq_iff_eq]
  constructor
  · rintro (⟨⟨old, there⟩, gone⟩ | ⟨new, ⟨hm, absent⟩, rfl⟩ | ⟨new, ⟨hm, changed⟩, rfl⟩)
    · cases h : a.get? n with
      | none => simp [Agree, there]
      | some new => simp [contains_eq, h] at gone
    · rw [mem_toList_iff] at hm
      cases h : b.get? new.name with
      | none => simp [Agree, hm]
      | some old => simp [contains_eq, h] at absent
    · rw [mem_toList_iff] at hm
      cases h : b.get? new.name with
      | none => simp [h] at changed
      | some old => simpa [Agree, hm, h] using changed
  · intro disagree
    cases ha : a.get? n with
    | none =>
      cases hb : b.get? n with
      | none => simp [Agree, ha, hb] at disagree
      | some old => exact .inl ⟨⟨old, rfl⟩, by simp [contains_eq, ha]⟩
    | some new =>
      obtain rfl := a.name_of_get? ha
      have hm := a.mem_toList_iff.2 ha
      cases hb : b.get? new.name with
      | none =>
        exact .inr (.inl ⟨new, ⟨hm, by simp [contains_eq, hb]⟩, rfl⟩)
      | some old =>
        exact .inr (.inr ⟨new, ⟨hm, by simpa [Agree, ha, hb] using disagree⟩, rfl⟩)

theorem sameList_map {f g : String → Module} :
    ∀ {ns : List String}, (∀ n ∈ ns, (f n).same (g n) = true) →
      sameList (ns.map f) (ns.map g) = true
  | [], _ => rfl
  | n :: ns, h => by
    simp only [List.map_cons, sameList, Bool.and_eq_true]
    exact ⟨h n List.mem_cons_self, sameList_map fun k hk => h k (List.mem_cons_of_mem _ hk)⟩

theorem names_eq_of_agree {desired there : ModuleSet}
    (h : ∀ n, Agree (desired.get? n) (there.get? n)) : there.names = desired.names := by
  have mem : ∀ n, n ∈ there.names ↔ n ∈ desired.names := fun n => by
    have hn := h n
    rw [mem_names_iff, mem_names_iff]
    cases hd : desired.get? n <;> cases ht : there.get? n <;> simp_all [Agree]
  exact NameMap.eq_of_ascending (f := id) there.modules.ascending desired.modules.ascending mem

/-- Sets that agree on every name are the same. -/
theorem same_of_agree {desired there : ModuleSet}
    (h : ∀ n, Agree (desired.get? n) (there.get? n)) : there.same desired = true := by
  rw [same, there.toList_eq, desired.toList_eq, names_eq_of_agree h]
  refine sameList_map fun n hn => ?_
  obtain ⟨new, hd⟩ := desired.mem_names_iff.1 hn
  have hn := h n
  cases ht : there.get? n with
  | none => simp [Agree, hd, ht] at hn
  | some old => simpa [Agree, hd, ht] using hn

end ModuleSet

/-! ### Fates -/

/-- What has to become of a name for what is there to be what is desired. -/
inductive Fate where
  /-- It is in neither set. -/
  | absent
  /-- It is there and not desired. -/
  | gone (old : Module)
  /-- It is desired and not there. -/
  | added (new : Module)
  /-- It is there with another status only. -/
  | adjusted (old new : Module)
  /-- It is there with another declaration. -/
  | replaced (old new : Module)
  /-- It is there as desired. -/
  | kept (old : Module)

/-- What becomes of a name that is desired so and there so. -/
def Fate.of : (desired there : Option Module) → Fate
  | none, none => .absent
  | none, some old => .gone old
  | some new, none => .added new
  | some new, some old =>
    if old.same new then .kept old
    else if old.differsOnlyInStatus new then .adjusted old new
    else .replaced old new

/-- What becomes of a name. -/
def ModuleSet.fate (desired there : ModuleSet) (n : String) : Fate :=
  .of (desired.get? n) (there.get? n)

namespace ModuleSet

variable {desired there : ModuleSet} {n : String} {old new : Module}

theorem fate_eq_absent_iff :
    desired.fate there n = .absent ↔ desired.get? n = none ∧ there.get? n = none := by
  unfold fate
  cases desired.get? n <;> cases there.get? n <;> grind [Fate.of]

theorem fate_eq_gone_iff :
    desired.fate there n = .gone old ↔ desired.get? n = none ∧ there.get? n = some old := by
  unfold fate
  cases desired.get? n <;> cases there.get? n <;> grind [Fate.of]

theorem fate_eq_added_iff :
    desired.fate there n = .added new ↔ desired.get? n = some new ∧ there.get? n = none := by
  unfold fate
  cases desired.get? n <;> cases there.get? n <;> grind [Fate.of]

theorem fate_eq_adjusted_iff : desired.fate there n = .adjusted old new ↔
    desired.get? n = some new ∧ there.get? n = some old ∧ old.differsOnlyInStatus new = true := by
  unfold fate
  cases desired.get? n <;> cases there.get? n <;>
    grind [Fate.of, Module.not_same_of_differsOnlyInStatus]

theorem fate_eq_replaced_iff : desired.fate there n = .replaced old new ↔
    desired.get? n = some new ∧ there.get? n = some old ∧ old.same new = false ∧
      old.differsOnlyInStatus new = false := by
  unfold fate
  cases desired.get? n <;> cases there.get? n <;> grind [Fate.of]

theorem fate_eq_kept_iff : desired.fate there n = .kept old ↔
    there.get? n = some old ∧ ∃ new, desired.get? n = some new ∧ old.same new = true := by
  unfold fate
  cases desired.get? n <;> cases there.get? n <;> grind [Fate.of]

/-- A name on which two sets agree is in neither of them, or it is kept. -/
theorem fate_of_agree (h : Agree (desired.get? n) (there.get? n)) :
    desired.fate there n = .absent ∨ ∃ old, desired.fate there n = .kept old := by
  unfold fate
  cases hd : desired.get? n with
  | none =>
    cases ht : there.get? n with
    | none => exact .inl rfl
    | some old => simp [Agree, hd, ht] at h
  | some new =>
    cases ht : there.get? n with
    | none => simp [Agree, hd, ht] at h
    | some old =>
      rw [hd, ht] at h
      exact .inr ⟨old, if_pos h⟩

end ModuleSet
end Steward
