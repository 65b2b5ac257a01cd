import ForgeDeno.SessionExclusivity

namespace ForgeDeno

open Gauge

/-- The sessions that `openSession` has been asked for, less the failed ones and the closed ones. -/
def Gauge.outstanding : Gauge where
  session _ := 1
  opening := 1
  refused := 0
  closing _ := 1

theorem sessionBound_pos {configured token : Nat} (positive : 0 < configured) :
    0 < sessionBound configured token := by
  unfold sessionBound
  split_ifs with limited
  · exact Nat.lt_min.mpr ⟨positive, limited⟩
  · exact positive

namespace SlotSystem

variable {s t : SlotSystem}

def RoomToOpen (s : SlotSystem) (_ : SlotEvent) (t : SlotSystem) : Prop :=
  s.pool.openCount < t.pool.openCount → s.total .outstanding < s.pool.size

instance (s : SlotSystem) (e : SlotEvent) (t : SlotSystem) : Decidable (RoomToOpen s e t) :=
  inferInstanceAs (Decidable (s.pool.openCount < t.pool.openCount → s.total .outstanding < s.pool.size))

theorem outstanding_step {e : SlotEvent} (counted : Counted s)
    (within : s.total .outstanding ≤ s.pool.size) (hs : s.step e = some t) :
    t.total .outstanding ≤ t.pool.size ↔ RoomToOpen s e t := by
  have size := step_size hs
  have opening : outstanding.opening = 1 := rfl
  have refused : outstanding.refused = 0 := rfl
  have session (other : SessionHandle) : outstanding.session other = 1 := rfl
  have closing (other : SessionHandle) : outstanding.closing other = 1 := rfl
  -- but for a claim the pool's own count does not grow
  have still (less : t.total .outstanding ≤ s.total .outstanding)
      (number : t.pool.openCount ≤ s.pool.openCount) :
      t.total .outstanding ≤ t.pool.size ↔ RoomToOpen s e t := by
    constructor
    · intro _ more
      omega
    · intro _
      omega
  cases step_flow (g := .outstanding) counted.queued hs with
  | keep gauge number => exact still (by omega) (by omega)
  | claim room gauge number =>
    constructor
    · intro fits _
      omega
    · intro room
      have := room (by omega)
      omega
  | opened n other gauge number =>
    have := session other
    exact still (by omega) (by omega)
  | refused gauge number => exact still (by omega) (by omega)
  | failed gauge number => exact still (by omega) (by omega)
  | dead other gauge number =>
    have := session other
    have := closing other
    exact still (by omega) (by omega)
  | closed other gauge number => exact still (by omega) (by omega)
  | drain gauge number =>
    have same : outstanding.closing = outstanding.session := rfl
    rw [same] at gauge
    exact still (by omega) (by omega)

/-- The token never sees more sessions than the bound exactly when no call opens one while the
sessions being closed fill the room it takes. -/
theorem session_bound {id configured token : Nat} {mechanisms : List Nat} (positive : 0 < configured)
    (es : List SlotEvent) : (∀ pre t, pre <+: es →
      slotMachine.run (.new (.new id mechanisms (sessionBound configured token))) pre = some t →
        t.total .outstanding ≤ sessionBound configured token) ↔
      slotMachine.Along RoomToOpen (.new (.new id mechanisms (sessionBound configured token))) es := by
  have bound : max (sessionBound configured token) 1 = sessionBound configured token :=
    Nat.max_eq_left (sessionBound_pos positive)
  have along := LabelledMachine.throughout_iff_along (m := slotMachine)
    (I := fun s => Counted s ∧ s.pool.size = sessionBound configured token)
    (B := fun s => s.total .outstanding ≤ sessionBound configured token) (C := RoomToOpen)
    (fun s e t h hs => ⟨h.1.step hs, (step_size hs).trans h.2⟩)
    (fun s e t h within hs => by
      have agree := outstanding_step h.1 (h.2.symm ▸ within) hs
      rw [step_size hs, h.2] at agree
      exact agree)
    (s := .new (.new id mechanisms (sessionBound configured token)))
    ⟨counted_start id mechanisms _, bound⟩ (Nat.zero_le _) es
  exact along

/-- The first call loses its session and closes it; a second one opens another before it is closed. -/
def reopened : List SlotEvent := lostSession ++ [.acquire none (.fail sessionClosed)]

theorem bound_exceeded : ∃ t, slotMachine.run oneSession reopened = some t ∧ t.pool.size = 1 ∧
      t.total .outstanding = 2 := by
  have finished : (slotMachine.run oneSession reopened).isSome = true := by decide
  obtain ⟨t, reached⟩ := Option.isSome_iff_exists.mp finished
  have facts : (slotMachine.run oneSession reopened).map
      (fun t => (t.pool.size, t.total .outstanding)) = some (1, 2) := by decide
  rw [reached] at facts
  exact ⟨t, reached, congrArg Prod.fst (Option.some.inj facts), congrArg Prod.snd (Option.some.inj facts)⟩

theorem single_session_within : slotMachine.Along RoomToOpen oneSession lostSession ∧
    ∀ pre t, pre <+: lostSession → slotMachine.run oneSession pre = some t →
      t.total .outstanding ≤ sessionBound 1 0 :=
  have room : slotMachine.Along RoomToOpen oneSession lostSession := by decide
  ⟨room, (session_bound Nat.one_pos lostSession).mpr room⟩

end SlotSystem

end ForgeDeno
