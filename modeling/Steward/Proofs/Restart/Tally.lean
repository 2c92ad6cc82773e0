/-
# What is stored and what was called

The events of some runs come to a tally for each module: how often a restart was recorded since the
count was last taken back, in how many runs, and how often the runtime was asked for one (`Tally`).

The count that is stored is the number of the records, as far as 32 bits go, and its time is that of
the last one (`Sound`). This stays so whatever is called, and as long as a restart is begun only
with fewer than `M` records and tried at most `A` times, there are never more than `M + A - 1` of
them (`Contained`): each attempt adds one at most, before it asks for a restart (`Going`). A command
in which nothing counts for the module leaves its tally alone, and with a reset everything starts
again.

Key definitions: `Event`, `Tally`, `Sound`, `Contained`, `Going`.
Key theorems: `Sound.note_put`, `Contained.quiet`, `Host.Remembers.does_restart_group`,
`Host.Remembers.does_counts_reset`, `Host.Remembers.does_nothing`.
-/
import Steward.Proofs.Restart.Record

namespace Steward

variable {σ : Type}

/-! ### Events -/

/-- What happens in the course of some runs: a run begins, or a call is made in it. -/
inductive Event (σ : Type) where
  | began
  | called (m : Moment σ)

/-- What was called for a module since its count was last taken back. -/
structure Tally where
  /-- How often a restart was recorded. -/
  records : Nat := 0
  /-- The runs in which one was recorded. -/
  runs : Nat := 0
  /-- Whether one was recorded in the present run. -/
  present : Bool := false
  /-- How often the runtime was asked for a restart. -/
  restarts : Nat := 0
  /-- When a restart was last recorded, however long ago. -/
  last : Option Instant := none

/-- Takes in an event. -/
def Tally.note (n : String) (T : Tally) : Event σ → Tally
  | .began => { T with present := false }
  | .called ⟨.put name, time, _⟩ =>
    if name = n then
      { T with
        records := T.records + 1
        runs := if T.present then T.runs else T.runs + 1
        present := true
        last := some time }
    else T
  | .called ⟨.update name found, _, _⟩ => if name = n ∧ found = true then { last := T.last } else T
  | .called ⟨.request (.restart name), _, _⟩ | .called ⟨.request (.rollout name), _, _⟩ =>
    if name = n then { T with restarts := T.restarts + 1 } else T
  | .called _ => T

/-- What the events come to for a module. -/
def tally (n : String) (past : List (Event σ)) : Tally := past.foldl (Tally.note n) {}

/-- The count of what is stored. -/
def counted (state : Option RestartState) : UInt32 := (state.getD .never).count

theorem tally_snoc (n : String) (past : List (Event σ)) (e : Event σ) :
    tally n (past ++ [e]) = (tally n past).note n e := by
  rw [tally, List.foldl_append]
  rfl

/-- A call that does not count for the module is not taken in. -/
theorem Tally.note_of_not_counts {n : String} {e : Moment σ} (silent : ¬ e.call.counts n)
    (T : Tally) : T.note n (.called e) = T := by
  obtain ⟨call, time, after⟩ := e
  unfold note
  split <;> rename_i same <;> cases same
  · exact if_neg silent
  · exact if_neg fun own => silent own.1
  · exact if_neg silent
  · exact if_neg silent
  · rfl

/-- The runtime is asked for one more restart. -/
theorem Tally.note_asked {n : String} {call : Call}
    (asked : call = .request (.restart n) ∨ call = .request (.rollout n)) {time : Instant}
    {after : σ} (T : Tally) :
    T.note n (.called ⟨call, time, after⟩) = { T with restarts := T.restarts + 1 } := by
  rcases asked with rfl | rfl <;> simp only [note, if_true]

/-! ### What is stored and what was called -/

/-- The count is that of the records and the time that of the last one, and there are few enough of
both runs and records. -/
structure Sound (M A : Nat) (T : Tally) (state : Option RestartState) : Prop where
  count : (counted state).toNat = min T.records 4294967295
  last : ∀ time, T.last = some time → ∃ stored, state = some stored ∧ stored.last = time
  runs : T.runs ≤ T.records
  restarts : T.restarts ≤ T.records
  fewRuns : T.runs ≤ M
  fewRecords : T.records ≤ M + A - 1

namespace Sound

variable {M A : Nat} {n : String} {T : Tally} {state : Option RestartState}

theorem note_began (sound : Sound M A T state) : Sound M A (T.note n (.began : Event σ)) state :=
  { sound with }

/-- A record counts one more, unless the count is at its end. -/
theorem count_record (state : Option RestartState) (time : Instant) :
    (counted (some (state.elim (.first time) (.record time)))).toNat =
      min ((counted state).toNat + 1) 4294967295 := by
  cases state with
  | none => rfl
  | some s =>
    have bound := s.count.toNat_lt
    simp only [counted, Option.elim, Option.getD_some, RestartState.record]
    split
    · rename_i full
      rw [full]
      rfl
    · rename_i short
      have short : s.count.toNat ≠ 4294967295 := fun e => short (UInt32.toNat_inj.1 e)
      rw [UInt32.toNat_add]
      simp only [UInt32.toNat_one]
      omega

/-- A restart is recorded, in a run that counts already or is one of the `M`. -/
theorem note_put (sound : Sound M A T state) (room : T.records < M + A - 1)
    (run : T.present = true ∨ T.runs < M) {time : Instant} {after : σ} :
    Sound M A (T.note n (.called ⟨.put n, time, after⟩))
      (some (state.elim (.first time) (.record time))) := by
  have runs := sound.runs
  have fewRuns := sound.fewRuns
  simp only [Tally.note, if_true]
  constructor
  · rw [count_record, sound.count]
    dsimp only
    omega
  · rintro t ⟨⟩
    exact ⟨_, rfl, by cases state <;> rfl⟩
  · dsimp only
    split <;> omega
  · exact Nat.le_succ_of_le sound.restarts
  · dsimp only
    split
    · exact fewRuns
    · rename_i absent
      exact run.resolve_left absent
  · exact room

/-- A restart is asked for after it was recorded. -/
theorem note_asked (sound : Sound M A T state) (recorded : T.restarts < T.records) {call : Call}
    (asked : call = .request (.restart n) ∨ call = .request (.rollout n)) {time : Instant}
    {after : σ} : Sound M A (T.note n (.called ⟨call, time, after⟩)) state := by
  rw [Tally.note_asked asked]
  exact { sound with restarts := recorded }

/-- With a reset everything starts again, but the time of the last record stays. -/
theorem note_update (sound : Sound M A T state) {time : Instant} {after : σ} :
    Sound M A (T.note n (.called ⟨.update n state.isSome, time, after⟩)) (state.map .reset) := by
  cases state with
  | none => simpa [Tally.note] using sound
  | some stored =>
    simp only [Tally.note, Option.isSome_some, and_self, if_true]
    refine ⟨rfl, fun t ht => ?_, Nat.le_refl 0, Nat.le_refl 0, Nat.zero_le M, Nat.zero_le _⟩
    obtain ⟨_, there, same⟩ := sound.last t ht
    cases there
    exact ⟨_, rfl, same⟩

end Sound

/-! ### Histories -/

/-- What is stored and what was called fit together, and they did all along. -/
structure Contained (states : σ → States) (n : String) (M A : Nat) (past : List (Event σ))
    (state : Option RestartState) : Prop where
  sound : Sound M A (tally n past) state
  always : ∀ early, early <+: past → (tally n early).runs ≤ M ∧ (tally n early).restarts ≤ M + A - 1
  seen : ∀ m, .called m ∈ past → (counted (stateAt states n m.after)).toNat ≤ M + A - 1

namespace Contained

variable {states : σ → States} {n : String} {M A : Nat} {past : List (Event σ)}
  {state state' : Option RestartState}

/-- What is stored counts no more than what was recorded. -/
theorem counted_le (h : Contained states n M A past state) :
    (counted state).toNat ≤ M + A - 1 := by
  have count := h.sound.count
  have few := h.sound.fewRecords
  omega

/-- One more event, after which what is stored and what was called fit together. -/
theorem snoc (h : Contained states n M A past state) {e : Event σ}
    (sound : Sound M A ((tally n past).note n e) state')
    (after : ∀ m, e = .called m → stateAt states n m.after = state') :
    Contained states n M A (past ++ [e]) state' := by
  rw [← tally_snoc] at sound
  refine ⟨sound, fun early before => ?_, fun m hm => ?_⟩
  · rcases List.prefix_concat_iff.1 before with rfl | before
    · have restarts := sound.restarts
      have records := sound.fewRecords
      exact ⟨sound.fewRuns, by omega⟩
    · exact h.always early before
  · rcases List.mem_append.1 hm with hm | hm
    · exact h.seen m hm
    · rw [after m (List.mem_singleton.1 hm).symm]
      have count := sound.count
      have records := sound.fewRecords
      omega

/-- Quiet calls change nothing. -/
theorem quiet : ∀ {es : List (Moment σ)} {past : List (Event σ)},
    Contained states n M A past state →
    (∀ e ∈ es, ¬ e.call.counts n ∧ stateAt states n e.after = state) →
      Contained states n M A (past ++ es.map .called) state ∧
        tally n (past ++ es.map .called) = tally n past
  | [], past, h, _ => by simpa using h
  | e :: es, past, h, silent => by
    obtain ⟨silent₁, state₁⟩ := silent e List.mem_cons_self
    have same := (tally n past).note_of_not_counts silent₁
    have one := h.snoc (e := .called e) (same.symm ▸ h.sound) (by rintro _ ⟨⟩; exact state₁)
    have rest := quiet one fun e' he' => silent e' (List.mem_cons_of_mem e he')
    rw [tally_snoc, same, List.append_assoc] at rest
    exact rest

end Contained

/-! ### A restart, attempt by attempt -/

/-- What the events come to with a record after them. -/
abbrev tallied (n : String) (past : List (Event σ)) (record : List (Moment σ)) : Tally :=
  tally n (past ++ record.map .called)

theorem tallied_snoc (n : String) (past : List (Event σ)) (record : List (Moment σ))
    (e : Moment σ) :
    tallied n past (record ++ [e]) = (tallied n past record).note n (.called e) := by
  rw [tallied, List.map_append, ← List.append_assoc]
  exact tally_snoc n (past ++ record.map .called) (.called e)

/-- After `j` attempts at a restart: there are at most `j` records more than the `c` there were at
first, and the run counts already or is one of the `M`. -/
structure Going (states : σ → States) (n : String) (M A c : Nat) (past : List (Event σ)) (j : Nat)
    (v : Option RestartState × List (Moment σ)) : Prop where
  contained : Contained states n M A (past ++ v.2.map .called) v.1
  records : (tallied n past v.2).records ≤ c + j
  run : (tallied n past v.2).present = true ∨ (tallied n past v.2).runs < M

namespace Going

variable {states : σ → States} {n : String} {M A c : Nat} {past : List (Event σ)} {j : Nat}
  {v v' : Option RestartState × List (Moment σ)}

theorem succ (g : Going states n M A c past j v) : Going states n M A c past (j + 1) v :=
  { g with records := Nat.le_succ_of_le g.records }

/-- One more call keeps to the bounds if it keeps what is stored and what was called together. -/
theorem contained_snoc (g : Going states n M A c past j v) {e : Moment σ}
    (one : v'.2 = v.2 ++ [e]) (after : stateAt states n e.after = v'.1)
    (sound : Sound M A ((tallied n past v.2).note n (.called e)) v'.1) :
    Contained states n M A (past ++ v'.2.map .called) v'.1 := by
  have more := g.contained.snoc sound (by rintro _ ⟨⟩; exact after)
  rwa [List.append_assoc, ← List.map_singleton, ← List.map_append, ← one] at more

/-- The first step of an attempt puts one record, if it does anything. -/
theorem record (g : Going states n M A c past j v) (room : c + j < M + A - 1) {e : Moment σ}
    (call : e.call = .put n) (one : v'.2 = v.2 ++ [e]) (after : stateAt states n e.after = v'.1)
    (stored : v'.1 = some (v.1.elim (.first e.time) (.record e.time))) :
    Going states n M A c past (j + 1) v' ∧
      (tallied n past v'.2).restarts < (tallied n past v'.2).records := by
  obtain ⟨call', time, s⟩ := e
  cases call
  have few := g.records
  have sound : Sound M A ((tallied n past v.2).note n (.called ⟨.put n, time, s⟩)) v'.1 :=
    stored ▸ g.contained.sound.note_put (Nat.lt_of_le_of_lt few room) g.run
  have contained := g.contained_snoc one after sound
  have noted := one ▸ tallied_snoc n past v.2 ⟨.put n, time, s⟩
  simp only [Tally.note, if_true] at noted
  have recorded : (tallied n past v'.2).records = (tallied n past v.2).records + 1 := by rw [noted]
  have asked : (tallied n past v'.2).restarts = (tallied n past v.2).restarts := by rw [noted]
  refine ⟨⟨contained, by omega, .inl (by rw [noted])⟩, ?_⟩
  rw [asked, recorded]
  exact Nat.lt_succ_of_le g.contained.sound.restarts

/-- The second step asks the runtime for a restart, if it does anything. -/
theorem restart (g : Going states n M A c past j v)
    (recorded : (tallied n past v.2).restarts < (tallied n past v.2).records) {e : Moment σ}
    (call : e.call = .request (.restart n) ∨ e.call = .request (.rollout n))
    (one : v'.2 = v.2 ++ [e]) (after : stateAt states n e.after = v'.1) (same : v'.1 = v.1) :
    Going states n M A c past j v' := by
  obtain ⟨call', time, s⟩ := e
  have sound : Sound M A ((tallied n past v.2).note n (.called ⟨call', time, s⟩)) v.1 :=
    g.contained.sound.note_asked recorded call
  have noted : tallied n past v'.2 =
      { tallied n past v.2 with restarts := (tallied n past v.2).restarts + 1 } := by
    rw [one, tallied_snoc, Tally.note_asked call]
  exact ⟨g.contained_snoc one after (same ▸ sound), by rw [noted]; exact g.records,
    by rw [noted]; exact g.run⟩

end Going

namespace Host.Remembers

variable {h : Host σ} {states : σ → States} (remembers : h.Remembers states) {n : String}
  {M A : Nat} {past : List (Event σ)} {v v' : Option RestartState × List (Moment σ)} {ok : Bool}

include remembers

section

variable {c j : Nat}

/-- An attempt at the first step puts a record, or it fails without a call. -/
theorem attempted_record (g : Going states n M A c past j v) (room : c + j < M + A - 1)
    (attempt : Attempted (Action.behaviour h.recorded) (watched states n)
      (.leaf (.recordRestart n)) ok v v') : Going states n M A c past (j + 1) v' ∧
        (ok = true → (tallied n past v'.2).restarts < (tallied n past v'.2).records) := by
  rcases remembers.record_call attempt with ⟨rfl, rfl⟩ | ⟨e, call, one, after, stored⟩
  · exact ⟨g.succ, fun success => nomatch success⟩
  · exact (g.record room call one after stored).imp_right fun recorded _ => recorded

/-- An attempt at the second step asks for a restart, or it fails without a call. -/
theorem attempted_restart {t : Target} {m : Module} (own : m.name = n)
    (g : Going states n M A c past j v)
    (recorded : (tallied n past v.2).restarts < (tallied n past v.2).records)
    (attempt : Attempted (Action.behaviour h.recorded) (watched states n) (t.restart m) ok v v') :
    Going states n M A c past j v' := by
  rcases remembers.restart_call own attempt with ⟨-, rfl⟩ | ⟨e, call, one, after, same⟩
  · exact g
  · exact g.restart recorded call one after same

/-- An attempt at a restart adds one record at most, and asks for a restart only after it. -/
theorem attempted_restart_group {t : Target} {m : Module} (own : m.name = n)
    (g : Going states n M A c past j v) (room : c + j < M + A - 1)
    (attempt : Attempted (Action.behaviour h.recorded) (watched states n)
      (.group .restart n [.leaf (.recordRestart n), t.restart m]) ok v v') :
    Going states n M A c past (j + 1) v' := by
  cases attempt.together with
  | goes first later =>
    obtain ⟨g₁, recorded⟩ := remembers.attempted_record g room first
    cases later with
    | goes second done =>
      cases done
      exact remembers.attempted_restart own g₁ (recorded rfl) second
  | fails first => exact (remembers.attempted_record g room first).1
  | backs first later back =>
    obtain ⟨g₁, recorded⟩ := remembers.attempted_record g room first
    obtain rfl := undone_record back
    cases later with
    | fails second => exact remembers.attempted_restart own g₁ (recorded rfl) second
    | backs _ rest => cases rest

end

/-! ### Commands -/

/-- A restart that is begun with a count below the maximum keeps to the bounds, however often it is
tried. -/
theorem does_restart_group {r : Runner} {t : Target} {m : Module} (own : m.name = n)
    (few : r.attempts.toNat ≤ A) (below : (tallied n past v.2).records < M)
    (start : Contained states n M A (past ++ v.2.map .called) v.1)
    (does : r.Does (Action.behaviour h.recorded) (watched states n)
      (.group .restart n [.leaf (.recordRestart n), t.restart m]) ok v v') :
    Contained states n M A (past ++ v'.2.map .called) v'.1 := by
  obtain ⟨k, hk, tried⟩ := does
  have runs := start.sound.runs
  have going : Going states n M A (tallied n past v.2).records past 0 v :=
    ⟨start, Nat.le_refl _, .inr (Nat.lt_of_le_of_lt runs below)⟩
  -- there were `M - 1` records at most before the run, so each of `A` attempts may add one
  have step : ∀ {j ok v₁ v₂}, j < A → Going states n M A (tallied n past v.2).records past j v₁ →
      Attempted (Action.behaviour h.recorded) (watched states n)
        (.group .restart n [.leaf (.recordRestart n), t.restart m]) ok v₁ v₂ →
      Going states n M A (tallied n past v.2).records past (j + 1) v₂ := fun hj g attempt =>
    remembers.attempted_restart_group own g (by omega) attempt
  have room : 0 + k ≤ A := by omega
  have last := tried.counted (Q := Going states n M A (tallied n past v.2).records past)
    (fun hj => step hj) room going
  exact last.contained

/-- A reset keeps to the bounds, however often it is tried. -/
theorem does_counts_reset {r : Runner}
    (start : Contained states n M A (past ++ v.2.map .called) v.1)
    (does : r.Does (Action.behaviour h.recorded) (watched states n) (.leaf (.resetRestarts n)) ok
      v v') : Contained states n M A (past ++ v'.2.map .called) v'.1 := by
  have step : ∀ {ok v₁ v₂}, Contained states n M A (past ++ v₁.2.map .called) v₁.1 →
      Attempted (Action.behaviour h.recorded) (watched states n) (.leaf (.resetRestarts n)) ok
        v₁ v₂ →
      Contained states n M A (past ++ v₂.2.map .called) v₂.1 := by
    intro ok v₁ v₂ contained attempt
    rcases remembers.reset_call attempt with ⟨-, rfl⟩ | ⟨e, call, one, after, stored⟩
    · exact contained
    · obtain ⟨call', time, s⟩ := e
      cases call
      have more := contained.snoc (stored ▸ contained.sound.note_update)
        (e := .called ⟨.update n v₁.1.isSome, time, s⟩) (by rintro _ ⟨⟩; exact after)
      rwa [List.append_assoc, ← List.map_singleton, ← List.map_append, ← one] at more
  obtain ⟨k, -, tried⟩ := does
  exact tried.counted (Q := fun _ v => Contained states n M A (past ++ v.2.map .called) v.1)
    (fun _ => step) (j := 0) (Nat.le_refl _) start

/-- A command of which no leaf counts for the module keeps to the bounds, and it leaves what is
stored and what it comes to alone. -/
theorem does_nothing {r : Runner} {c : Command Action} (silent : Silent n c)
    (start : Contained states n M A (past ++ v.2.map .called) v.1)
    (does : r.Does (Action.behaviour h.recorded) (watched states n) c ok v v') :
    Contained states n M A (past ++ v'.2.map .called) v'.1 ∧
      tallied n past v'.2 = tallied n past v.2 := by
  obtain ⟨same, es, record, quiet⟩ := remembers.does_quiet silent does
  have more := start.quiet quiet
  rw [List.append_assoc, ← List.map_append, ← record, ← same] at more
  exact more

end Host.Remembers

end Steward
