import Mathlib.Data.String.Basic
import ComponentSync.Watch.Basic
import ComponentSync.Proofs.PushRun
/-!
Pending changes as a debounce. Over any sequence of changes noticed and batches taken, the
pending changes hold exactly what was noticed since the last take: the batch is due one delay
after the last change noticed, is due at a time exactly when that time has come, and taking it
gives each path noticed once, in ascending order, and leaves nothing pending.

The watch loop runs its pending changes by the operations its inputs make: a relevant event
notes the keys of its paths strictly below the source root that are not ignored, and a wake-up
once the quiet period is over takes the batch and pushes it. So a batch is built only from such
keys, is taken only a quiet period after every change noted before it, and the loop counts one
push or one failure for each batch it takes.
-/
namespace ComponentSync

/-! ### Inserting into a sorted batch -/

theorem mem_insertSorted {q s : String} {l : List String} :
    q ∈ insertSorted s l ↔ q = s ∨ q ∈ l := by
  induction l with
  | nil => simp [insertSorted]
  | cons x xs ih =>
    unfold insertSorted
    split
    · simp
    · split
      next hsame =>
        obtain rfl : s = x := by simpa using hsame
        simp
      next =>
        simp only [List.mem_cons, ih]
        exact or_left_comm

theorem pairwise_insertSorted {s : String} {l : List String} (h : l.Pairwise (· < ·)) :
    (insertSorted s l).Pairwise (· < ·) := by
  induction l with
  | nil => simp [insertSorted]
  | cons x xs ih =>
    rw [List.pairwise_cons] at h
    unfold insertSorted
    split
    next hlt =>
      refine List.pairwise_cons.mpr ⟨fun y hy => ?_, List.pairwise_cons.mpr h⟩
      rcases List.mem_cons.mp hy with rfl | hy
      · exact hlt
      · exact lt_trans hlt (h.1 y hy)
    next hnlt =>
      split
      next => exact List.pairwise_cons.mpr h
      next hne =>
        have hxs : x < s := by
          rcases lt_trichotomy s x with hsx | rfl | hxs
          · exact absurd hsx hnlt
          · simp at hne
          · exact hxs
        refine List.pairwise_cons.mpr ⟨fun y hy => ?_, ih h.2⟩
        rcases mem_insertSorted.mp hy with rfl | hy
        · exact hxs
        · exact h.1 y hy

/-! ### Sequences of operations -/

/-- What happens to pending changes: a change to a path noticed at a time, or the batch taken. -/
inductive PendingOp
  | record (path : String) (now : Nat)
  | take
  deriving DecidableEq

def PendingOp.time? : PendingOp → Option Nat
  | .record _ now => some now
  | .take => none

namespace PendingChanges

def step (p : PendingChanges) : PendingOp → PendingChanges
  | .record path now => p.record path now
  | .take => p.take.2

def run (p : PendingChanges) (ops : List PendingOp) : PendingChanges :=
  ops.foldl step p

@[simp] theorem step_record (p : PendingChanges) (path : String) (now : Nat) :
    p.step (.record path now) =
      { p with paths := insertSorted path p.paths, dueAt := some (now + p.delay) } := rfl

@[simp] theorem step_take (p : PendingChanges) :
    p.step .take = { p with paths := [], dueAt := none } := rfl

end PendingChanges

/-- The changes noticed so far, after one more operation: a take forgets them. -/
def noticeStep (since : List (String × Nat)) : PendingOp → List (String × Nat)
  | .record path now => since ++ [(path, now)]
  | .take => []

/-- The changes noticed since the last take, in the order they were noticed. -/
def sinceTake (ops : List PendingOp) : List (String × Nat) :=
  ops.foldl noticeStep []

/-- Pending changes that hold exactly the changes `since`, waiting `d` after the last. -/
structure PendingChanges.Holds (p : PendingChanges) (d : Nat) (since : List (String × Nat)) :
    Prop where
  delay : p.delay = d
  sorted : p.paths.Pairwise (· < ·)
  mem_paths : ∀ q, q ∈ p.paths ↔ ∃ t, (q, t) ∈ since
  due : p.dueAt = since.getLast?.map fun r => r.2 + d

namespace PendingChanges

variable {p : PendingChanges} {d : Nat} {since : List (String × Nat)}

theorem holds_empty (d : Nat) : (empty d).Holds d [] :=
  ⟨rfl, List.Pairwise.nil, by simp [empty], rfl⟩

theorem Holds.step (h : p.Holds d since) (op : PendingOp) :
    (p.step op).Holds d (noticeStep since op) := by
  cases op with
  | record path now =>
    refine ⟨h.delay, pairwise_insertSorted h.sorted, fun q => ?_, ?_⟩
    · simp only [step_record, mem_insertSorted, h.mem_paths, noticeStep, List.mem_append,
        List.mem_singleton, Prod.mk.injEq]
      constructor
      · rintro (rfl | ⟨t, ht⟩)
        · exact ⟨now, .inr ⟨rfl, rfl⟩⟩
        · exact ⟨t, .inl ht⟩
      · rintro ⟨t, ht | ⟨rfl, -⟩⟩
        · exact .inr ⟨t, ht⟩
        · exact .inl rfl
    · simp [noticeStep, h.delay]
  | take =>
    refine ⟨h.delay, List.Pairwise.nil, fun q => ?_, rfl⟩
    simp [noticeStep]

theorem Holds.run (h : p.Holds d since) (ops : List PendingOp) :
    (p.run ops).Holds d (ops.foldl noticeStep since) := by
  induction ops generalizing p since with
  | nil => exact h
  | cons op ops ih => exact ih (h.step op)

theorem Holds.isDue_iff (h : p.Holds d since) (now : Nat) :
    p.isDue now = true ↔ ∃ r ∈ since.getLast?, r.2 + d ≤ now := by
  unfold isDue
  rw [h.due]
  cases since.getLast? <;> simp

theorem Holds.take_snd (h : p.Holds d since) : p.take.2 = empty d := by
  rw [← h.delay]
  rfl

end PendingChanges

/-- Whatever was noticed since the last take was noticed at one of the times of the run, in
the same order. -/
theorem sinceTake_times_suffix (ops : List PendingOp) :
    ((sinceTake ops).map Prod.snd) <:+ ops.filterMap PendingOp.time? := by
  suffices ∀ since pre, since.map Prod.snd <:+ pre →
      (ops.foldl noticeStep since).map Prod.snd <:+ pre ++ ops.filterMap PendingOp.time? by
    simpa [sinceTake] using this [] [] List.nil_suffix
  induction ops with
  | nil => simp
  | cons op ops ih =>
    intro since pre hsince
    cases op with
    | record path now =>
      have := ih (since ++ [(path, now)]) (pre ++ [now])
        (by simpa using List.suffix_append_self_iff.mpr hsince)
      simpa [noticeStep, PendingOp.time?, List.filterMap_cons] using this
    | take =>
      have := ih [] pre List.nil_suffix
      simpa [noticeStep, PendingOp.time?, List.filterMap_cons] using this

/-! ### The keys of a watcher's events -/

/-- A key noted from an event names a path below the root, not the root itself, that is not
ignored. -/
theorem mem_relevantKeys {root : Path} {rules : RuleSet} {paths : List Path} {key : String} :
    key ∈ relevantKeys root rules paths ↔
      ∃ rest, root ++ rest ∈ paths ∧ key = "/".intercalate rest ∧ key ≠ "" ∧
        rules.isIgnored key = false := by
  simp only [relevantKeys, List.mem_filterMap]
  constructor
  · rintro ⟨p, hp, hkey⟩
    split at hkey
    next hpre =>
      obtain ⟨rest, rfl⟩ := List.isPrefixOf_iff_prefix.mp hpre
      split at hkey
      next hok =>
        cases hkey
        simp only [List.drop_left, Bool.and_eq_true, Bool.not_eq_true'] at hok ⊢
        refine ⟨rest, hp, rfl, fun hempty => ?_, hok.2⟩
        have hnonempty := hok.1
        rw [hempty] at hnonempty
        exact absurd hnonempty (by decide)
      next => cases hkey
    next => cases hkey
  · rintro ⟨rest, hmem, rfl, hkey, hign⟩
    refine ⟨root ++ rest, hmem, ?_⟩
    simp [hkey, hign]

/-! ### The loop's pending changes, input by input -/

def WatchInput.time : WatchInput → Nat
  | .event _ now | .wake now => now

namespace PendingChanges

variable (root : Path) (rules : RuleSet)

def inputOps (p : PendingChanges) : WatchInput → List PendingOp
  | .event e now =>
    if e.kind.isRelevant then (relevantKeys root rules e.paths).map (.record · now) else []
  | .wake now => if p.isDue now then [.take] else []

/-- The operations the loop makes on its pending changes over a run of inputs. -/
def opsOf : PendingChanges → List WatchInput → List PendingOp
  | _, [] => []
  | p, input :: inputs =>
    p.inputOps root rules input ++ opsOf (p.advance root rules input).1 inputs

def afterInputs (p : PendingChanges) (inputs : List WatchInput) : PendingChanges :=
  inputs.foldl (fun p input => (p.advance root rules input).1) p

@[simp] theorem advance_event (p : PendingChanges) (e : WatchEvent) (now : Nat) :
    p.advance root rules (.event e now) =
      if e.kind.isRelevant then
        ((relevantKeys root rules e.paths).foldl (fun p key => p.record key now) p, none)
      else (p, none) := rfl

@[simp] theorem advance_wake (p : PendingChanges) (now : Nat) :
    p.advance root rules (.wake now) =
      if p.isDue now then (p.take.2, some p.take.1) else (p, none) := rfl

@[simp] theorem inputOps_event (p : PendingChanges) (e : WatchEvent) (now : Nat) :
    p.inputOps root rules (.event e now) =
      if e.kind.isRelevant then (relevantKeys root rules e.paths).map (.record · now) else [] :=
  rfl

@[simp] theorem inputOps_wake (p : PendingChanges) (now : Nat) :
    p.inputOps root rules (.wake now) = if p.isDue now then [.take] else [] := rfl

theorem run_append (p : PendingChanges) (ops ops' : List PendingOp) :
    p.run (ops ++ ops') = (p.run ops).run ops' :=
  List.foldl_append

theorem run_records (p : PendingChanges) (keys : List String) (now : Nat) :
    p.run (keys.map (.record · now)) = keys.foldl (fun p key => p.record key now) p := by
  induction keys generalizing p with
  | nil => rfl
  | cons key keys ih => exact ih _

theorem advance_fst (p : PendingChanges) (input : WatchInput) :
    (p.advance root rules input).1 = p.run (p.inputOps root rules input) := by
  cases input with
  | event e now =>
    rw [advance_event, inputOps_event]
    split
    · exact (run_records _ _ _).symm
    · rfl
  | wake now =>
    rw [advance_wake, inputOps_wake]
    split <;> rfl

theorem afterInputs_eq (p : PendingChanges) (inputs : List WatchInput) :
    p.afterInputs root rules inputs = p.run (p.opsOf root rules inputs) := by
  induction inputs generalizing p with
  | nil => rfl
  | cons input inputs ih =>
    rw [opsOf, run_append, ← advance_fst, ← ih]
    rfl

/-- An input takes a batch exactly when it is a wake-up after the quiet period, and the batch is
everything pending. -/
theorem advance_takes {p : PendingChanges} {input : WatchInput} {batch : List String} :
    (p.advance root rules input).2 = some batch ↔
      ∃ now, input = .wake now ∧ p.isDue now = true ∧ batch = p.paths := by
  cases input with
  | event e now =>
    rw [advance_event]
    split <;> simp
  | wake now =>
    rw [advance_wake]
    split
    next hdue =>
      simp only [take, Option.some.injEq, WatchInput.wake.injEq, exists_eq_left', hdue, true_and]
      exact eq_comm
    next hdue => simp [hdue]

theorem count_take_inputOps (p : PendingChanges) (input : WatchInput) :
    (p.inputOps root rules input).count .take =
      if (p.advance root rules input).2.isSome then 1 else 0 := by
  cases input with
  | event e now =>
    rw [inputOps_event, advance_event]
    split <;> simp [List.count_eq_zero]
  | wake now =>
    rw [inputOps_wake, advance_wake]
    split <;> simp

theorem mem_opsOf_record {p : PendingChanges} {inputs : List WatchInput} {key : String} {t : Nat}
    (h : .record key t ∈ p.opsOf root rules inputs) :
    ∃ e, .event e t ∈ inputs ∧ e.kind.isRelevant = true ∧ key ∈ relevantKeys root rules e.paths := by
  induction inputs generalizing p with
  | nil => cases h
  | cons input inputs ih =>
    rcases List.mem_append.mp h with h | h
    · cases input with
      | event e now =>
        rw [inputOps_event] at h
        split at h
        next hrel =>
          obtain ⟨k, hk, hrec⟩ := List.mem_map.mp h
          cases hrec
          exact ⟨e, List.mem_cons_self, hrel, hk⟩
        next => cases h
      | wake now =>
        rw [inputOps_wake] at h
        split at h <;> simp at h
    · obtain ⟨e, he, hrel, hkey⟩ := ih h
      exact ⟨e, List.mem_cons_of_mem _ he, hrel, hkey⟩

end PendingChanges

theorem record_of_mem_sinceTake {ops : List PendingOp} {key : String} {t : Nat}
    (h : (key, t) ∈ sinceTake ops) : .record key t ∈ ops := by
  suffices ∀ since, (key, t) ∈ ops.foldl noticeStep since → (key, t) ∈ since ∨ .record key t ∈ ops by
    simpa using this [] h
  clear h
  induction ops with
  | nil => exact fun _ h => .inl h
  | cons op ops ih =>
    intro since h
    rcases ih _ h with h | h
    · cases op with
      | record path now =>
        rcases List.mem_append.mp h with h | h
        · exact .inl h
        · obtain ⟨rfl, rfl⟩ := Prod.mk.inj (List.mem_singleton.mp h)
          exact .inr List.mem_cons_self
      | take => cases h
    · exact .inr (List.mem_cons_of_mem _ h)

theorem PendingChanges.record_of_event (root : Path) (rules : RuleSet) {p : PendingChanges}
    {inputs : List WatchInput} {e : WatchEvent} {t : Nat} {key : String}
    (he : .event e t ∈ inputs) (hrel : e.kind.isRelevant = true)
    (hkey : key ∈ relevantKeys root rules e.paths) : .record key t ∈ p.opsOf root rules inputs := by
  induction inputs generalizing p with
  | nil => cases he
  | cons input inputs ih =>
    rw [opsOf]
    rcases List.mem_cons.mp he with rfl | he
    · exact List.mem_append_left _ (by simp [hrel, hkey])
    · exact List.mem_append_right _ (ih he)

/-- A batch the loop takes holds, once each and in ascending order, the keys noted since the last
take, each from a relevant event on a path below the root that is not ignored. -/
theorem taken_from_events {root : Path} {rules : RuleSet} {d : Nat} {pre : List WatchInput}
    {now : Nat} {batch : List String}
    (htake : (((PendingChanges.empty d).afterInputs root rules pre).advance root rules
      (.wake now)).2 = some batch) :
    batch.Pairwise (· < ·) ∧
      (∀ key, key ∈ batch ↔ ∃ t, (key, t) ∈ sinceTake ((PendingChanges.empty d).opsOf root rules pre)) ∧
      ∀ key ∈ batch, ∃ e t rest, WatchInput.event e t ∈ pre ∧ e.kind.isRelevant = true ∧
        root ++ rest ∈ e.paths ∧ key = "/".intercalate rest ∧ key ≠ "" ∧
        rules.isIgnored key = false := by
  obtain ⟨now', -, -, rfl⟩ := (PendingChanges.advance_takes root rules).mp htake
  rw [PendingChanges.afterInputs_eq]
  have hholds := (PendingChanges.holds_empty d).run ((PendingChanges.empty d).opsOf root rules pre)
  refine ⟨hholds.sorted, hholds.mem_paths, fun key hkey => ?_⟩
  obtain ⟨t, ht⟩ := (hholds.mem_paths key).mp hkey
  obtain ⟨e, he, hrel, hmem⟩ :=
    PendingChanges.mem_opsOf_record root rules (record_of_mem_sinceTake ht)
  obtain ⟨rest, hpath, hjoin, hne, hign⟩ := mem_relevantKeys.mp hmem
  exact ⟨e, t, rest, he, hrel, hpath, hjoin, hne, hign⟩

/-! ### A batch is taken only after a quiet period -/

theorem le_of_suffix_getLast? {l m : List Nat} (hs : l <:+ m) (hm : m.Pairwise (· ≤ ·)) {x y : Nat}
    (hx : x ∈ m) (hy : l.getLast? = some y) : x ≤ y := by
  obtain ⟨pre, rfl⟩ := hs
  obtain ⟨ys, rfl⟩ := List.getLast?_eq_some_iff.mp hy
  rw [← List.append_assoc] at hm hx
  rcases List.mem_append.mp hx with hx | hx
  · exact (List.pairwise_append.mp hm).2.2 x hx y (List.mem_singleton_self y)
  · rw [List.mem_singleton.mp hx]

namespace PendingChanges

variable (root : Path) (rules : RuleSet)

theorem time_of_inputOps {p : PendingChanges} {input : WatchInput} {t : Nat}
    (ht : t ∈ (p.inputOps root rules input).filterMap PendingOp.time?) : t = input.time := by
  obtain ⟨op, hop, htime⟩ := List.mem_filterMap.mp ht
  cases input with
  | event e now =>
    rw [inputOps_event] at hop
    split at hop
    · obtain ⟨k, -, rfl⟩ := List.mem_map.mp hop
      cases htime
      rfl
    · cases hop
  | wake now =>
    rw [inputOps_wake] at hop
    split at hop
    · rw [List.mem_singleton.mp hop] at htime
      cases htime
    · cases hop

theorem opsOf_times_sorted {p : PendingChanges} {inputs : List WatchInput}
    (hsorted : (inputs.map WatchInput.time).Pairwise (· ≤ ·)) :
    ((p.opsOf root rules inputs).filterMap PendingOp.time?).Pairwise (· ≤ ·) := by
  induction inputs generalizing p with
  | nil => simp [opsOf]
  | cons input inputs ih =>
    rw [List.map_cons, List.pairwise_cons] at hsorted
    rw [opsOf, List.filterMap_append, List.pairwise_append]
    refine ⟨List.pairwise_of_forall_mem_list fun a ha b hb => ?_, ih hsorted.2,
      fun a ha b hb => ?_⟩
    · rw [time_of_inputOps root rules ha, time_of_inputOps root rules hb]
    · -- a change noted later comes from a later input
      rw [time_of_inputOps root rules ha]
      obtain ⟨op, hop, htime⟩ := List.mem_filterMap.mp hb
      cases op with
      | record key t =>
        cases htime
        obtain ⟨e, he, -, -⟩ := mem_opsOf_record root rules hop
        exact hsorted.1 _ (List.mem_map.mpr ⟨_, he, rfl⟩)
      | take => cases htime

end PendingChanges

/-- Over inputs whose times never decrease, a wake-up at `now` takes a batch only when every
change noted before it is at least a quiet period old. -/
theorem taken_after_quiet {root : Path} {rules : RuleSet} {d : Nat} {pre : List WatchInput}
    {now : Nat} {batch : List String} (hsorted : (pre.map WatchInput.time).Pairwise (· ≤ ·))
    (htake : (((PendingChanges.empty d).afterInputs root rules pre).advance root rules
      (.wake now)).2 = some batch)
    {key : String} {t : Nat} (hkey : .record key t ∈ (PendingChanges.empty d).opsOf root rules pre) :
    t + d ≤ now := by
  obtain ⟨now', hwake, hdue, -⟩ := (PendingChanges.advance_takes root rules).mp htake
  cases hwake
  set ops := (PendingChanges.empty d).opsOf root rules pre with hops
  have hholds : ((PendingChanges.empty d).run ops).Holds d (sinceTake ops) :=
    (PendingChanges.holds_empty d).run ops
  rw [PendingChanges.afterInputs_eq, ← hops] at hdue
  obtain ⟨last, hlast, hquiet⟩ := (hholds.isDue_iff now).mp hdue
  rw [Option.mem_def] at hlast
  have hle : t ≤ last.2 :=
    le_of_suffix_getLast? (sinceTake_times_suffix ops)
      (PendingChanges.opsOf_times_sorted root rules hsorted)
      (List.mem_filterMap.mpr ⟨_, hkey, rfl⟩) (by rw [List.getLast?_map, hlast]; rfl)
  omega

/-! ### The loop goes on, and counts each batch once -/

section Loop

variable {σ : Type} (t : Target σ) (plan : PushPlan)

theorem pushTaken_counts (summary : WatchSummary) (batch : List String) (w : World σ) :
    ∃ summary' w', PushM.exec (pushTaken t plan summary batch) w = (.ok summary', w') ∧
      summary'.pushes + summary'.failures = summary.pushes + summary.failures + 1 := by
  unfold pushTaken
  simp only [PushM.exec_bind, exec_say, PushM.exec_tryCatch]
  rcases PushM.exec (push t plan) _ with ⟨_ | report, w'⟩
  · simp only [PushM.exec_pure]
    exact ⟨_, _, rfl, by dsimp only; omega⟩
  · simp only [PushM.exec_pure]
    exact ⟨_, _, rfl, by dsimp only; omega⟩

/-- One turn of the loop never fails: it advances the pending changes and counts a push or a
failure for the batch it takes, if any. -/
theorem watchStep_counts (s : WatchState) (input : WatchInput) (w : World σ) :
    ∃ s' w', PushM.exec (watchStep t plan s input) w = (.ok s', w') ∧
      s'.pending = (s.pending.advance plan.sourceRoot plan.ignore input).1 ∧
      s'.summary.pushes + s'.summary.failures = s.summary.pushes + s.summary.failures +
        (s.pending.inputOps plan.sourceRoot plan.ignore input).count .take := by
  rw [PendingChanges.count_take_inputOps]
  unfold watchStep
  rcases hadv : s.pending.advance plan.sourceRoot plan.ignore input with ⟨pending, _ | batch⟩
  · exact ⟨_, w, rfl, rfl, by simp⟩
  · obtain ⟨summary', w', hrun, hcount⟩ := pushTaken_counts t plan s.summary batch w
    refine ⟨⟨pending, summary'⟩, w', ?_, rfl, by simp [hcount]⟩
    simp [hrun]

/-- The loop never fails: its pending changes follow its inputs, and it counts one push or one
failure for each batch it takes. -/
theorem watchLoop_counts (s : WatchState) (inputs : List WatchInput) (w : World σ) :
    ∃ s' w', PushM.exec (watchLoop t plan s inputs) w = (.ok s', w') ∧
      s'.pending = s.pending.afterInputs plan.sourceRoot plan.ignore inputs ∧
      s'.summary.pushes + s'.summary.failures = s.summary.pushes + s.summary.failures +
        (s.pending.opsOf plan.sourceRoot plan.ignore inputs).count .take := by
  induction inputs generalizing s w with
  | nil => exact ⟨s, w, rfl, rfl, by simp [PendingChanges.opsOf]⟩
  | cons input inputs ih =>
    obtain ⟨s₁, w₁, hstep, hpending, hcount⟩ := watchStep_counts t plan s input w
    obtain ⟨s₂, w₂, hrest, hpending', hcount'⟩ := ih s₁ w₁
    refine ⟨s₂, w₂, ?_, ?_, ?_⟩
    · simp only [watchLoop, List.foldlM_cons, PushM.exec_bind, hstep]
      exact hrest
    · rw [hpending', hpending]
      rfl
    · rw [hcount', hcount, PendingChanges.opsOf, List.count_append, hpending]
      omega

end Loop

/-! ### The debounce of a watch -/

/-- Over any changes noted and batches taken, pending changes are due one quiet period after the
last change noted since the last take, are due at a time exactly when it has come, and give up
each path noted once, in ascending order, leaving nothing pending. In the watch loop, a batch
holds the keys noted since the last take, each from a created, modified or removed path strictly
below the root that is not ignored, and over inputs in time order it is taken only once every
change noted before it is a quiet period old. The loop never fails, and counts one push or one
failure per batch it takes. Pushes after the first follow a plan that forces them only when the
plan both forces and lists its files. -/
theorem watch_debounces (d : Nat) :
    (∀ (ops : List PendingOp) (now : Nat),
      let p := (PendingChanges.empty d).run ops
      p.dueAt = (sinceTake ops).getLast?.map (fun r => r.2 + d) ∧
      (p.isDue now = true ↔ ∃ r ∈ (sinceTake ops).getLast?, r.2 + d ≤ now) ∧
      p.take.1.Pairwise (· < ·) ∧ (∀ q, q ∈ p.take.1 ↔ ∃ t, (q, t) ∈ sinceTake ops) ∧
      p.take.2 = PendingChanges.empty d) ∧
    (∀ (root : Path) (rules : RuleSet) (pre : List WatchInput) (now : Nat) (batch : List String),
      (((PendingChanges.empty d).afterInputs root rules pre).advance root rules (.wake now)).2 =
        some batch →
      batch.Pairwise (· < ·) ∧
      (∀ key, key ∈ batch ↔
        ∃ t, (key, t) ∈ sinceTake ((PendingChanges.empty d).opsOf root rules pre)) ∧
      (∀ key ∈ batch, ∃ e t rest, WatchInput.event e t ∈ pre ∧ e.kind.isRelevant = true ∧
        root ++ rest ∈ e.paths ∧ key = "/".intercalate rest ∧ key ≠ "" ∧
        rules.isIgnored key = false) ∧
      ((pre.map WatchInput.time).Pairwise (· ≤ ·) → ∀ e t, WatchInput.event e t ∈ pre →
        e.kind.isRelevant = true → relevantKeys root rules e.paths ≠ [] → t + d ≤ now)) ∧
    (∀ (σ : Type) (t : Target σ) (plan : PushPlan) (inputs : List WatchInput) (w : World σ),
      ∃ s w', PushM.exec (watchLoop t plan ⟨PendingChanges.empty d, ⟨0, 0⟩⟩ inputs) w =
          (.ok s, w') ∧
        s.summary.pushes + s.summary.failures =
          ((PendingChanges.empty d).opsOf plan.sourceRoot plan.ignore inputs).count .take) ∧
    ∀ plan : PushPlan, plan.followup.forcePush = (plan.forcePush && plan.files.isSome) := by
  refine ⟨fun ops now => ?_, fun root rules pre now batch htake => ?_,
    fun σ t plan inputs w => ?_, fun plan => rfl⟩
  · -- the pending changes hold exactly what was noted since the last take
    have h : ((PendingChanges.empty d).run ops).Holds d (sinceTake ops) :=
      (PendingChanges.holds_empty d).run ops
    exact ⟨h.due, h.isDue_iff now, h.sorted, h.mem_paths, h.take_snd⟩
  · obtain ⟨hsorted, hmem, hfrom⟩ := taken_from_events htake
    refine ⟨hsorted, hmem, hfrom, fun horder e t he hrel hkeys => ?_⟩
    obtain ⟨key, hkey⟩ := List.exists_mem_of_ne_nil _ hkeys
    exact taken_after_quiet horder htake (PendingChanges.record_of_event root rules he hrel hkey)
  · obtain ⟨s, w', hrun, -, hcount⟩ :=
      watchLoop_counts t plan ⟨PendingChanges.empty d, ⟨0, 0⟩⟩ inputs w
    exact ⟨s, w', hrun, by simpa using hcount⟩

/-- A change to `w/a.js` at time 0, and a wake-up a quiet period of 100 later. -/
theorem watch_debounces_one_change :
    let pre : List WatchInput := [.event ⟨.modify, [["w", "a.js"]]⟩ 0]
    (((PendingChanges.empty 100).afterInputs ["w"] ⟨[]⟩ pre).advance ["w"] ⟨[]⟩ (.wake 100)).2 =
        some ["a.js"] ∧
      (pre.map WatchInput.time).Pairwise (· ≤ ·) ∧
      ∀ e t, WatchInput.event e t ∈ pre → e.kind.isRelevant = true →
        relevantKeys ["w"] ⟨[]⟩ e.paths ≠ [] → t + 100 ≤ 100 := by
  intro pre
  have htake : (((PendingChanges.empty 100).afterInputs ["w"] ⟨[]⟩ pre).advance ["w"] ⟨[]⟩
      (.wake 100)).2 = some ["a.js"] := by
    simp [pre, PendingChanges.afterInputs, relevantKeys, RuleSet.isIgnored, EventKind.isRelevant,
      PendingChanges.record, PendingChanges.empty, PendingChanges.isDue, PendingChanges.take,
      insertSorted]
  exact ⟨htake, by simp [pre, WatchInput.time],
    ((watch_debounces 100).2.1 ["w"] ⟨[]⟩ pre 100 ["a.js"] htake).2.2.2 (by simp [pre, WatchInput.time])⟩

end ComponentSync
