import Mathlib.Data.List.Nodup

universe u v

/-- Work that is started once for each key. What it ends with is kept for everyone who asks for the key. -/
structure SharedWork (κ : Type u) (ρ : Type v) where
  started : List κ
  ended : List (κ × ρ)
  once : started.Nodup
  ended_once : (ended.map Prod.fst).Nodup
  ended_started : ∀ entry ∈ ended, entry.1 ∈ started

namespace SharedWork

variable {κ : Type u} {ρ : Type v} [DecidableEq κ]

def idle : SharedWork κ ρ where
  started := []
  ended := []
  once := .nil
  ended_once := .nil
  ended_started := fun _ mem => by cases mem

def answer (work : SharedWork κ ρ) (key : κ) : Option ρ := work.ended.lookup key

/-- Work that runs. -/
def Running (work : SharedWork κ ρ) (key : κ) : Prop := key ∈ work.started ∧ work.answer key = none

instance (work : SharedWork κ ρ) (key : κ) : Decidable (work.Running key) := inferInstanceAs (Decidable (_ ∧ _))

def ask (work : SharedWork κ ρ) (key : κ) : SharedWork κ ρ :=
  if known : key ∈ work.started then work
  else
    { work with
      started := work.started ++ [key]
      once := List.nodup_append.mpr ⟨work.once, List.nodup_singleton key, fun other mem key' mem' same => by
        cases List.mem_singleton.mp mem'
        exact known (same ▸ mem)⟩
      ended_started := fun entry mem => List.mem_append_left [key] (work.ended_started entry mem) }

theorem answer_eq_none {work : SharedWork κ ρ} {key : κ} (none : work.answer key = none) :
    key ∉ work.ended.map Prod.fst := by
  intro mem
  obtain ⟨entry, here, rfl⟩ := List.mem_map.mp mem
  have missing := List.lookup_eq_none_iff.mp none entry here
  simp at missing

/-- The end of work that runs. -/
def finish (work : SharedWork κ ρ) (key : κ) (result : ρ) : Option (SharedWork κ ρ) :=
  if runs : work.Running key then
    some
      { work with
        ended := (key, result) :: work.ended
        ended_once := List.nodup_cons.mpr ⟨answer_eq_none runs.2, work.ended_once⟩
        ended_started := List.forall_mem_cons.mpr ⟨runs.1, work.ended_started⟩ }
  else none

section facts

variable {work later : SharedWork κ ρ} {key other : κ} {result given : ρ}

theorem mem_started_ask : other ∈ (work.ask key).started ↔ other ∈ work.started ∨ other = key := by
  unfold ask
  split
  next known =>
    refine ⟨.inl, fun either => ?_⟩
    rcases either with mem | same
    · exact mem
    · rw [same]
      exact known
  next => simp

@[simp] theorem answer_ask : (work.ask key).answer other = work.answer other := by
  unfold ask
  split <;> rfl

theorem started_ask_of_notMem (new : key ∉ work.started) : (work.ask key).started = work.started ++ [key] := by
  unfold ask
  rw [dif_neg new]

theorem mem_started_of_answer (ends : work.answer key = some given) : key ∈ work.started := by
  obtain ⟨before, after, split, _⟩ := List.lookup_eq_some_iff.mp ends
  have mem : (key, given) ∈ work.ended := by
    rw [split]
    simp
  exact work.ended_started _ mem

section

variable (finished : work.finish key result = some later)

include finished

theorem running_of_finish : work.Running key := by
  unfold finish at finished
  split at finished
  next runs => exact runs
  next => cases finished

theorem started_finish : later.started = work.started := by
  unfold finish at finished
  split at finished
  next => cases finished; rfl
  next => cases finished

theorem answer_finish :
    later.answer other = if other = key then some result else work.answer other := by
  unfold finish at finished
  split at finished
  next =>
    cases finished
    unfold answer
    dsimp only
    by_cases same : other = key
    · rw [if_pos same, same, List.lookup_cons_self]
    · rw [if_neg same, List.lookup_cons, beq_eq_false_iff_ne.mpr same]
  next => cases finished

/-- What work has ended with stays its end. -/
theorem answer_finish_of_some
    (ends : work.answer other = some given) : later.answer other = some given := by
  have elsewhere : other ≠ key := by
    rintro rfl
    have runs := (running_of_finish finished).2
    cases ends.symm.trans runs
  rw [answer_finish finished, if_neg elsewhere, ends]

end

end facts

end SharedWork
