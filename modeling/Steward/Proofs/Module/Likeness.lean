/-
# Modules that are declared alike

To be declared alike is an equivalence, in which observations and the sign of a zero have no part
(`Module.same_refl`, `Module.same_comm`, `Module.same_trans`). Modules that are declared alike name
the same image, and each may take the other's place wherever modules are compared.

So what becomes of a name is the same, but for such modules, whichever of two like sets is desired
and whichever of two like sets is there (`ModuleSet.fate_alike`). A name that is kept has the same
observation in both runs if the two sets that are there agree on the observations of the names that
the difference leaves alone.

Key definitions: `Fate.Alike`.
Key theorems: `Json.same_trans`, `Module.image_eq`, `Module.same_congr`, `ModuleSet.fate_alike`.
-/
import Steward.Proofs.Module.Application

namespace Steward

/-! ### Equality is transitive -/

theorem Binary64.same_trans {x y z : Binary64} (h : x.same y = true) (h' : y.same z = true) :
    x.same z = true := by
  simp only [same, Bool.or_eq_true, beq_iff_eq, Bool.and_eq_true] at *
  rcases h with rfl | ⟨zero, zero'⟩
  · exact h'
  · rcases h' with rfl | ⟨-, zero''⟩
    · exact .inr ⟨zero, zero'⟩
    · exact .inr ⟨zero, zero''⟩

theorem Number.same_trans {a b c : Number} (h : a.same b = true) (h' : b.same c = true) :
    a.same c = true := by
  cases a <;> cases b <;> cases c <;> simp only [same, Bool.false_eq_true, beq_iff_eq] at *
  · exact h.trans h'
  · exact Binary64.same_trans h h'

namespace Json

mutual

theorem same_trans : ∀ a b c : Json, a.same b = true → b.same c = true → a.same c = true
  | a, b, c, h, h' => by
    cases a <;> cases b <;> simp only [same, Bool.false_eq_true] at h <;> cases c <;>
      simp only [same, Bool.false_eq_true, beq_iff_eq] at *
    · exact h.trans h'
    · exact Number.same_trans h h'
    · exact h.trans h'
    · exact sameItems_trans _ _ _ h h'
    · exact sameFields_trans _ _ _ h h'

theorem sameItems_trans : ∀ as bs cs : List Json, sameItems as bs = true →
    sameItems bs cs = true → sameItems as cs = true
  | [], [], _, _, h' => h'
  | [], _ :: _, _, h, _ => nomatch h
  | _ :: _, [], _, h, _ => nomatch h
  | _ :: _, _ :: _, [], _, h' => nomatch h'
  | a :: as, b :: bs, c :: cs, h, h' => by
    rw [sameItems, Bool.and_eq_true] at *
    exact ⟨same_trans a b c h.1 h'.1, sameItems_trans as bs cs h.2 h'.2⟩

theorem sameFields_trans : ∀ as bs cs : List (String × Json), sameFields as bs = true →
    sameFields bs cs = true → sameFields as cs = true
  | [], [], _, _, h' => h'
  | [], _ :: _, _, h, _ => nomatch h
  | _ :: _, [], _, h, _ => nomatch h
  | _ :: _, _ :: _, [], _, h' => nomatch h'
  | (i, a) :: as, (j, b) :: bs, (k, c) :: cs, h, h' => by
    simp only [sameFields, Bool.and_eq_true, beq_iff_eq] at *
    exact ⟨⟨h.1.1.trans h'.1.1, same_trans a b c h.1.2 h'.1.2⟩, sameFields_trans as bs cs h.2 h'.2⟩

end

/-! Values that are equal have the same texts in them. -/

theorem string?_eq {a b : Json} (h : a.same b = true) : a.string? = b.string? := by
  cases a <;> cases b <;> simp only [same, Bool.false_eq_true, beq_iff_eq] at h <;>
    simp only [string?, h]

theorem lookup_string?_eq (k : String) : ∀ {fs gs : List (String × Json)},
    sameFields fs gs = true → (fs.lookup k).bind string? = (gs.lookup k).bind string?
  | [], [], _ => rfl
  | [], _ :: _, h => nomatch h
  | _ :: _, [], h => nomatch h
  | (i, a) :: fs, (j, b) :: gs, h => by
    simp only [sameFields, Bool.and_eq_true, beq_iff_eq] at h
    obtain ⟨⟨rfl, like⟩, rest⟩ := h
    rw [List.lookup_cons, List.lookup_cons]
    split
    · exact string?_eq like
    · exact lookup_string?_eq k rest

theorem field?_string?_eq {a b : Json} (h : a.same b = true) (k : String) :
    (a.field? k).bind string? = (b.field? k).bind string? := by
  cases a <;> cases b <;> simp only [same, Bool.false_eq_true] at h <;> try rfl
  exact lookup_string?_eq k h

end Json

/-! ### Like modules -/

namespace Module

variable {a b c a' b' : Module}

theorem same_iff : a.same b = true ↔ a.name = b.name ∧ a.version = b.version ∧ a.type = b.type ∧
    a.status = b.status ∧ a.restartRule = b.restartRule ∧ a.config.same b.config = true := by
  simp [same, and_assoc]

theorem same_symm (h : a.same b = true) : b.same a = true := (b.same_comm a).trans h

theorem same_trans (h : a.same b = true) (h' : b.same c = true) : a.same c = true := by
  rw [same_iff] at *
  exact ⟨h.1.trans h'.1, h.2.1.trans h'.2.1, h.2.2.1.trans h'.2.2.1, h.2.2.2.1.trans h'.2.2.2.1,
    h.2.2.2.2.1.trans h'.2.2.2.2.1, Json.same_trans _ _ _ h.2.2.2.2.2 h'.2.2.2.2.2⟩

theorem name_eq (h : a.same b = true) : a.name = b.name := (same_iff.1 h).1

theorem type_eq (h : a.same b = true) : a.type = b.type := (same_iff.1 h).2.2.1

theorem status_eq (h : a.same b = true) : a.status = b.status := (same_iff.1 h).2.2.2.1

theorem restartRule_eq (h : a.same b = true) : a.restartRule = b.restartRule :=
  (same_iff.1 h).2.2.2.2.1

/-- Like modules name the same image. -/
theorem image_eq (h : a.same b = true) : a.image = b.image :=
  Json.field?_string?_eq (same_iff.1 h).2.2.2.2.2 "image"

/-! In a comparison each module may stand for its like. -/

theorem same_congr (ha : a.same a' = true) (hb : b.same b' = true) : a.same b = a'.same b' := by
  rw [Bool.eq_iff_iff]
  constructor
  · exact fun h => same_trans (same_symm ha) (same_trans h hb)
  · exact fun h => same_trans ha (same_trans h (same_symm hb))

theorem differsOnlyInStatus_iff : a.differsOnlyInStatus b = true ↔
    a.status ≠ b.status ∧ ({ a with status := b.status } : Module).same b = true := by
  simp [differsOnlyInStatus, same_iff, and_assoc]

theorem differsOnlyInStatus_congr (ha : a.same a' = true) (hb : b.same b' = true) :
    a.differsOnlyInStatus b = a'.differsOnlyInStatus b' := by
  have turned : ({ a with status := b.status } : Module).same { a' with status := b'.status } =
      true := by
    rw [same_iff] at *
    exact ⟨ha.1, ha.2.1, ha.2.2.1, hb.2.2.2.1, ha.2.2.2.2⟩
  rw [Bool.eq_iff_iff, differsOnlyInStatus_iff, differsOnlyInStatus_iff, same_congr turned hb,
    status_eq ha, status_eq hb]

end Module

/-! ### Like fates -/

/-- Two fates of a name that are the same but for modules that are declared alike. What is kept has
the same observation. -/
inductive Fate.Alike : Fate → Fate → Prop
  | absent : Alike .absent .absent
  | gone {old old' : Module} : old.same old' = true → Alike (.gone old) (.gone old')
  | added {new new' : Module} : new.same new' = true → Alike (.added new) (.added new')
  | adjusted {old old' new new' : Module} : old.same old' = true → new.same new' = true →
    Alike (.adjusted old new) (.adjusted old' new')
  | replaced {old old' new new' : Module} : old.same old' = true → new.same new' = true →
    Alike (.replaced old new) (.replaced old' new')
  | kept {m m' : Module} : m.same m' = true → m.observed = m'.observed →
    Alike (.kept m) (.kept m')

theorem Fate.Alike.kept_iff {f f' : Fate} (h : f.Alike f') :
    (∃ m, f = .kept m) ↔ ∃ m, f' = .kept m := by
  cases h <;> simp

namespace ModuleSet

/-- What becomes of a name with like modules, if their observations are the same where they agree
with what is desired. -/
theorem alike_of : ∀ {d d' c c' : Option Module}, Agree d d' → Agree c c' →
    (Agree d c → c.bind Module.observed = c'.bind Module.observed) →
    (Fate.of d c).Alike (.of d' c')
  | none, some _, _, _, h, _, _ | some _, none, _, _, h, _, _ => h.elim
  | _, _, none, some _, _, h, _ | _, _, some _, none, _, h, _ => h.elim
  | none, none, none, none, _, _, _ => .absent
  | none, none, some _, some _, _, hc, _ => .gone (Module.same_symm hc)
  | some _, some _, none, none, hd, _, _ => .added (Module.same_symm hd)
  | some new, some new', some old, some old', hd, hc, seen => by
    have hd := Module.same_symm hd
    have hc := Module.same_symm hc
    simp only [Fate.of, ← Module.same_congr hc hd, ← Module.differsOnlyInStatus_congr hc hd]
    split
    · rename_i same
      exact .kept hc (seen same)
    · split
      · exact .adjusted hc hd
      · exact .replaced hc hd

variable {desired desired' current current' : ModuleSet}

/-- **Like sets, like fates.** -/
theorem fate_alike (wanted : desired.same desired' = true) (there : current.same current' = true)
    (seen : ∀ n, (desired.diff current).touches n = false →
      (current.get? n).bind Module.observed = (current'.get? n).bind Module.observed) (n : String) :
    (desired.fate current n).Alike (desired'.fate current' n) := by
  refine alike_of ((same_iff_agree _ _).1 wanted n) ((same_iff_agree _ _).1 there n) fun agree =>
    seen n ?_
  rw [← Bool.not_eq_true, touches_diff_iff, not_not]
  exact agree

end ModuleSet
end Steward
