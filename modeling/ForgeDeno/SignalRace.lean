import ForgeDeno.JsString
import ForgeDeno.LabelledMachine

namespace ForgeDeno

open Option LabelledMachine

/-- What is thrown or rejected with: an `EncryptError`, another `Error`, or any other value. Reading the
message of an error or making text of a value may throw. -/
inductive Cause where
  | encryptError (message : JsString) (cause : Option Cause)
  | error (message : Except Cause JsString)
  | other (text : Except Cause JsString)

namespace Cause

def isEncryptError : Cause → Bool
  | .encryptError _ _ => true
  | _ => false

end Cause

def normalizeEncryptError : Cause → Except Cause Cause
  | .encryptError message cause => .ok (.encryptError message cause)
  | .error message => message.map fun text => .encryptError text (some (.error message))
  | .other text => text.map fun message => .encryptError message (some (.other text))

def Cause.normalized (cause : Cause) : Cause :=
  match normalizeEncryptError cause with
  | .ok normal => normal
  | .error thrown => thrown

/-- `signal.reason ?? new EncryptError("operation aborted")`, where `none` is a reason that is `null` or
`undefined`. -/
def abortReason (reason : Option Cause) : Cause :=
  reason.getD (.encryptError (js "operation aborted") none)

inductive Settlement (α : Type) where
  | pending
  | fulfilled (value : α)
  | rejected (cause : Cause)

namespace Settlement

variable {α : Type}

def settle (promise outcome : Settlement α) : Settlement α :=
  match promise with
  | .pending => outcome
  | settled => settled

def isSettled : Settlement α → Bool
  | .pending => false
  | _ => true

def rejection? : Settlement α → Option Cause
  | .rejected cause => some cause
  | _ => none

/-- The state of `promise.catch((cause) => { throw normalizeEncryptError(cause); })`. -/
def caught : Settlement α → Settlement α
  | .rejected cause => .rejected cause.normalized
  | other => other

def ofOutcome : Except Cause α → Settlement α
  | .ok value => .fulfilled value
  | .error cause => .rejected cause

end Settlement

/-- The `signal` argument when `runWithSignal` is called. -/
inductive SignalArgument where
  | absent
  | aborted (reason : Option Cause)
  | live

/-- A call of `runWithSignal`: the promise `operation` of `op()`, the promises `normalized`, `forwarded`
and `cleaned` of its `catch`, `then` and `finally`, and the promise `returned`, which without a
signal is `normalized`. -/
structure Race (α : Type) where
  signal : Bool
  aborted : Bool
  listening : Bool
  calling : Bool
  attached : Bool
  operation : Settlement α
  normalized : Settlement α
  forwarded : Settlement Unit
  cleaned : Settlement Unit
  returned : Settlement α
  thrown : Option Cause
  uncaught : List Cause

/-- What happens during a call: the signal aborts, `op()` returns its promise or throws, its promise
settles, and the reactions of the chain run. -/
inductive RaceEvent (α : Type) where
  | abort (reason : Option Cause)
  | returns
  | throws (cause : Cause)
  | settles (outcome : Except Cause α)
  | catchReaction
  | thenReaction
  | finallyReaction

namespace Race

variable {α : Type}

/-- Before `op()` is called; nothing has settled. -/
def blank (α : Type) (signal : Bool) : Race α :=
  { signal, aborted := false, listening := signal, calling := true, attached := false,
    operation := .pending, normalized := .pending, forwarded := .pending, cleaned := .pending,
    returned := .pending, thrown := none, uncaught := [] }

def runWithSignal (α : Type) : SignalArgument → Race α
  | .absent => blank α false
  | .live => blank α true
  | .aborted reason =>
    let race : Race α := { blank α true with aborted := true, listening := false, calling := false }
    match normalizeEncryptError (abortReason reason) with
    | .ok error => { race with returned := .rejected error }
    | .error thrown => { race with thrown := some thrown }

def onAbort (s : Race α) (reason : Option Cause) : Race α :=
  match normalizeEncryptError (abortReason reason) with
  | .ok error => { s with returned := s.returned.settle (.rejected error) }
  | .error thrown => { s with uncaught := s.uncaught ++ [thrown] }

def onThrow (s : Race α) (cause : Cause) : Race α :=
  match normalizeEncryptError cause with
  | .ok error =>
    { s with
      attached := true, normalized := .rejected error
      returned := if s.signal then s.returned else .rejected error }
  | .error thrown =>
    if s.signal then { s with returned := s.returned.settle (.rejected thrown) }
    else { s with thrown := some thrown }

def step (s : Race α) : RaceEvent α → Option (Race α)
  | .abort reason =>
    if s.signal ∧ ¬s.aborted then
      -- the listener is removed before it runs
      let t := { s with aborted := true, listening := false }
      some (if s.listening then t.onAbort reason else t)
    else none
  | .returns => if s.calling then some { s with calling := false, attached := true } else none
  | .throws cause => if s.calling then some ({ s with calling := false }.onThrow cause) else none
  | .settles outcome =>
    if ¬s.calling ∧ s.attached ∧ ¬s.operation.isSettled ∧ ¬s.normalized.isSettled then
      some { s with operation := .ofOutcome outcome }
    else none
  | .catchReaction =>
    if s.operation.isSettled ∧ ¬s.normalized.isSettled then
      some
        { s with
          normalized := s.operation.caught
          returned := if s.signal then s.returned else s.operation.caught }
    else none
  | .thenReaction =>
    if s.signal ∧ s.normalized.isSettled ∧ ¬s.forwarded.isSettled then
      some { s with returned := s.returned.settle s.normalized, forwarded := .fulfilled () }
    else none
  | .finallyReaction =>
    if s.forwarded.isSettled ∧ ¬s.cleaned.isSettled then
      some { s with listening := false, cleaned := s.forwarded }
    else none

def result (s : Race α) : Settlement α :=
  match s.operation with
  | .pending => s.normalized
  | settled => settled.caught

/-- The causes of the rejected promises of the chain that no reaction takes. -/
def unhandled (s : Race α) : List Cause :=
  (if s.attached then [] else s.operation.rejection?.toList) ++ s.cleaned.rejection?.toList

end Race

def raceMachine (α : Type) : LabelledMachine (Race α) (RaceEvent α) where
  start s := ∃ signal, s = .runWithSignal α signal
  step := Race.step

namespace Cause

def normalizes (cause : Cause) : Bool := (normalizeEncryptError cause).isOk

theorem isEncryptError_of_normalizeEncryptError {cause error : Cause}
    (h : normalizeEncryptError cause = .ok error) : error.isEncryptError = true := by
  unfold normalizeEncryptError at h
  split at h
  next => cases h; rfl
  next text => cases text <;> cases h; rfl
  next text => cases text <;> cases h; rfl

theorem normalizeEncryptError_eq {cause : Cause} (h : cause.normalizes = true) :
    normalizeEncryptError cause = .ok (normalized cause) := by
  unfold normalizes at h
  unfold normalized
  cases e : normalizeEncryptError cause with
  | ok error => rfl
  | error thrown => rw [e] at h; cases h

theorem isEncryptError_normalized {cause : Cause} (h : cause.normalizes = true) :
    (normalized cause).isEncryptError = true :=
  isEncryptError_of_normalizeEncryptError (normalizeEncryptError_eq h)

end Cause

namespace Settlement

variable {α : Type} {p q : Settlement α}

theorem pending_of_not_settled (h : p.isSettled = false) : p = .pending := by
  cases p with
  | pending => rfl
  | fulfilled value => cases h
  | rejected cause => cases h

@[simp] theorem isSettled_pending : (pending : Settlement α).isSettled = false := rfl

@[simp] theorem isSettled_rejected (cause : Cause) : (rejected cause : Settlement α).isSettled = true :=
  rfl

@[simp] theorem pending_settle : (pending : Settlement α).settle q = q := rfl

@[simp] theorem isSettled_caught : p.caught.isSettled = p.isSettled := by cases p <;> rfl

@[simp] theorem isSettled_ofOutcome (outcome : Except Cause α) :
    (ofOutcome outcome).isSettled = true := by cases outcome <;> rfl

theorem settle_of_settled (h : p.isSettled = true) : p.settle q = p := by
  cases p with
  | pending => cases h
  | fulfilled value => rfl
  | rejected cause => rfl

theorem isSettled_settle (h : q.isSettled = true) : (p.settle q).isSettled = true := by
  cases p with
  | pending => exact h
  | fulfilled value => rfl
  | rejected cause => rfl

end Settlement

namespace Race

variable {α : Type} {s t : Race α}

/-- What happens does not run into a normalization that throws, and the signal does not abort between
the result of the operation and the promise taking it. -/
def Meets (s : Race α) : RaceEvent α → Prop
  | .abort reason => s.listening = true →
      (abortReason reason).normalizes = true ∧ (s.result.isSettled = true → s.returned.isSettled = true)
  | .throws cause => s.returned.isSettled = true ∨ cause.normalizes = true
  | .catchReaction =>
    s.returned.isSettled = true ∨ s.operation.rejection?.all Cause.normalizes = true
  | _ => True

instance (s : Race α) : (e : RaceEvent α) → Decidable (s.Meets e)
  | .abort _ => inferInstanceAs (Decidable (_ → _ ∧ (_ → _)))
  | .returns => .isTrue trivial
  | .throws _ => inferInstanceAs (Decidable (_ ∨ _))
  | .settles _ => .isTrue trivial
  | .catchReaction => inferInstanceAs (Decidable (_ ∨ _))
  | .thenReaction => .isTrue trivial
  | .finallyReaction => .isTrue trivial

structure Wired (s : Race α) : Prop where
  thrown : s.thrown = none
  uncaught : s.uncaught = []
  errors : ∀ cause, s.returned = .rejected cause → cause.isEncryptError = true
  sound : s.returned.isSettled = false → ∀ cause, s.normalized = .rejected cause → cause.isEncryptError = true
  attached : s.operation.isSettled = true → s.attached = true
  passed : s.operation.isSettled = true → s.normalized.isSettled = true → s.normalized = s.operation.caught
  prompt : s.aborted = false → s.returned.isSettled = true → s.returned = s.result
  given : s.aborted = true → s.returned.isSettled = true
  forwards : s.forwarded.isSettled = true →
    s.forwarded = .fulfilled () ∧ s.returned.isSettled = true ∧ s.normalized.isSettled = true
  cleans : s.cleaned.isSettled = true →
    s.cleaned = .fulfilled () ∧ s.forwarded.isSettled = true ∧ s.listening = false
  listens : s.signal = true → s.listening = false → s.aborted = true ∨ s.cleaned.isSettled = true
  plain : s.signal = false → s.aborted = false ∧ s.listening = false ∧
    (s.normalized.isSettled = true → s.returned.isSettled = true)
  calls : s.calling = true → s.operation = .pending ∧ s.normalized = .pending

theorem Wired.result_eq (w : Wired s) (h : s.normalized.isSettled = true) : s.result = s.normalized := by
  unfold result
  cases e : s.operation with
  | pending => rfl
  | fulfilled value => rw [w.passed (by rw [e]; rfl) h, e]
  | rejected cause => rw [w.passed (by rw [e]; rfl) h, e]

theorem result_of_settled (h : s.operation.isSettled = true) : s.result = s.operation.caught := by
  unfold result
  cases e : s.operation with
  | pending => rw [e] at h; cases h
  | fulfilled value => rfl
  | rejected cause => rfl

theorem wired_blank (signal : Bool) : Wired (blank α signal) := by
  constructor <;> simp [blank, result]

theorem wired_runWithSignal {signal : SignalArgument}
    (h : ∀ reason, signal = .aborted reason → (abortReason reason).normalizes = true) :
    Wired (runWithSignal α signal) := by
  cases signal with
  | absent => exact wired_blank false
  | live => exact wired_blank true
  | aborted reason =>
    have ok := h reason rfl
    have error := Cause.isEncryptError_normalized ok
    unfold runWithSignal
    simp only [Cause.normalizeEncryptError_eq ok]
    constructor <;> simp [blank, error]

theorem step_abort {reason : Option Cause} (h : s.step (.abort reason) = some t) :
    s.signal = true ∧ s.aborted = false ∧
      t = if s.listening then { s with aborted := true, listening := false }.onAbort reason
        else { s with aborted := true, listening := false } := by
  simp only [step, ite_none_right_eq_some, some.injEq, Bool.not_eq_true] at h
  exact ⟨h.1.1, h.1.2, h.2.symm⟩

theorem step_returns (h : s.step .returns = some t) :
    s.calling = true ∧ t = { s with calling := false, attached := true } := by
  simp only [step, ite_none_right_eq_some, some.injEq] at h
  exact ⟨h.1, h.2.symm⟩

theorem step_throws {cause : Cause} (h : s.step (.throws cause) = some t) :
    s.calling = true ∧ t = { s with calling := false }.onThrow cause := by
  simp only [step, ite_none_right_eq_some, some.injEq] at h
  exact ⟨h.1, h.2.symm⟩

theorem step_settles {outcome : Except Cause α} (h : s.step (.settles outcome) = some t) :
    s.calling = false ∧ s.attached = true ∧ s.operation = .pending ∧ s.normalized = .pending ∧
      t = { s with operation := .ofOutcome outcome } := by
  simp only [step, ite_none_right_eq_some, some.injEq, Bool.not_eq_true] at h
  obtain ⟨⟨called, attached, open_operation, open_normalized⟩, rfl⟩ := h
  exact ⟨called, attached, Settlement.pending_of_not_settled open_operation,
    Settlement.pending_of_not_settled open_normalized, rfl⟩

theorem step_catch (h : s.step .catchReaction = some t) :
    s.operation.isSettled = true ∧ s.normalized = .pending ∧
      t = { s with
            normalized := s.operation.caught
            returned := if s.signal then s.returned else s.operation.caught } := by
  simp only [step, ite_none_right_eq_some, some.injEq, Bool.not_eq_true] at h
  exact ⟨h.1.1, Settlement.pending_of_not_settled h.1.2, h.2.symm⟩

theorem step_then (h : s.step .thenReaction = some t) :
    s.signal = true ∧ s.normalized.isSettled = true ∧ s.forwarded = .pending ∧
      t = { s with returned := s.returned.settle s.normalized, forwarded := .fulfilled () } := by
  simp only [step, ite_none_right_eq_some, some.injEq, Bool.not_eq_true] at h
  exact ⟨h.1.1, h.1.2.1, Settlement.pending_of_not_settled h.1.2.2, h.2.symm⟩

theorem step_finally (h : s.step .finallyReaction = some t) :
    s.forwarded.isSettled = true ∧ s.cleaned = .pending ∧
      t = { s with listening := false, cleaned := s.forwarded } := by
  simp only [step, ite_none_right_eq_some, some.injEq, Bool.not_eq_true] at h
  exact ⟨h.1.1, Settlement.pending_of_not_settled h.1.2, h.2.symm⟩

theorem errors_settle {outcome : Settlement α}
    (old : ∀ cause, s.returned = .rejected cause → cause.isEncryptError = true)
    (new : ∀ cause, outcome = .rejected cause → cause.isEncryptError = true) :
    ∀ cause, s.returned.settle outcome = .rejected cause → cause.isEncryptError = true := by
  intro cause same
  cases e : s.returned with
  | pending => rw [e] at same; exact new cause same
  | fulfilled value => rw [e] at same; cases same
  | rejected cause' => rw [e] at same; exact old cause (e.trans same)

section

variable (w : Wired s)

include w

theorem wired_abort {reason : Option Cause} (m : s.Meets (.abort reason))
    (h : s.step (.abort reason) = some t) : Wired t := by
  obtain ⟨signal, fresh, rfl⟩ := step_abort h
  split
  next listening =>
    obtain ⟨ok, _⟩ := m listening
    have error := Cause.isEncryptError_normalized ok
    have settled : (s.returned.settle (.rejected (abortReason reason).normalized)).isSettled = true :=
      Settlement.isSettled_settle rfl
    unfold onAbort
    simp only [Cause.normalizeEncryptError_eq ok]
    have errors := errors_settle w.errors
      fun cause (same : Settlement.rejected (abortReason reason).normalized = .rejected cause) => by cases same; exact error
    exact
      { thrown := w.thrown, uncaught := w.uncaught, errors,
        sound := fun pending => absurd pending (by simp [settled]),
        attached := w.attached, passed := w.passed, prompt := nofun, given := fun _ => settled,
        forwards := fun done => ⟨(w.forwards done).1, settled, (w.forwards done).2.2⟩,
        cleans := fun done => ⟨(w.cleans done).1, (w.cleans done).2.1, rfl⟩,
        listens := fun _ _ => .inl rfl, plain := fun off => absurd off (by simp [signal]),
        calls := w.calls }
  next silent =>
    have removed : s.listening = false := by simpa using silent
    have given : s.returned.isSettled = true := by
      rcases w.listens signal removed with old | cleaned
      · rw [fresh] at old; cases old
      · exact (w.forwards (w.cleans cleaned).2.1).2.1
    exact
      { thrown := w.thrown, uncaught := w.uncaught, errors := w.errors, sound := w.sound, attached := w.attached,
        passed := w.passed, prompt := nofun, given := fun _ => given, forwards := w.forwards,
        cleans := fun done => ⟨(w.cleans done).1, (w.cleans done).2.1, rfl⟩,
        listens := fun _ _ => .inl rfl, plain := fun off => absurd off (by simp [signal]),
        calls := w.calls }

theorem Wired.calling_open (calling : s.calling = true) (fresh : s.aborted = false) :
    s.returned = .pending := by
  apply Settlement.pending_of_not_settled
  by_contra settled
  have settled : s.returned.isSettled = true := by simpa using settled
  obtain ⟨operation, normalized⟩ := w.calls calling
  have result : s.result = .pending := by simp [Race.result, operation, normalized]
  rw [w.prompt fresh settled, result] at settled
  cases settled

theorem wired_returns (h : s.step .returns = some t) : Wired t := by
  obtain ⟨calling, rfl⟩ := step_returns h
  exact
    { thrown := w.thrown, uncaught := w.uncaught, errors := w.errors, sound := w.sound, attached := fun _ => rfl,
      passed := w.passed, prompt := w.prompt, given := w.given, forwards := w.forwards,
      cleans := w.cleans, listens := w.listens, plain := w.plain, calls := nofun }

theorem Wired.calling_chain (calling : s.calling = true) : s.forwarded = .pending := by
  apply Settlement.pending_of_not_settled
  by_contra settled
  have normal := (w.forwards (by simpa using settled)).2.2
  rw [(w.calls calling).2] at normal
  cases normal

theorem wired_throws {cause : Cause} (m : s.Meets (.throws cause))
    (h : s.step (.throws cause) = some t) : Wired t := by
  obtain ⟨calling, rfl⟩ := step_throws h
  obtain ⟨operation, normal⟩ := w.calls calling
  have forwarded := w.calling_chain calling
  cases e : normalizeEncryptError cause with
  | ok error =>
    have encrypt := Cause.isEncryptError_of_normalizeEncryptError e
    simp only [onThrow, e]
    split
    next signal =>
      exact
        { thrown := w.thrown, uncaught := w.uncaught, errors := w.errors
          sound := fun _ cause same => by cases same; exact encrypt
          attached := fun _ => rfl
          passed := fun done => absurd done (by simp [operation])
          prompt := fun fresh settled => absurd settled (by simp [w.calling_open calling fresh])
          given := w.given, forwards := fun done => absurd done (by simp [forwarded]), cleans := w.cleans, listens := w.listens
          plain := fun off => absurd off (by simp [signal])
          calls := nofun }
    next plain =>
      have off : s.signal = false := by simpa using plain
      obtain ⟨fresh, removed, _⟩ := w.plain off
      exact
        { thrown := w.thrown, uncaught := w.uncaught
          errors := fun cause same => by cases same; exact encrypt
          sound := fun _ cause same => by cases same; exact encrypt
          attached := fun _ => rfl
          passed := fun done => absurd done (by simp [operation])
          prompt := fun _ _ => by simp [Race.result, operation]
          given := fun _ => rfl
          forwards := fun done => absurd done (by simp [forwarded])
          cleans := w.cleans, listens := w.listens, plain := fun _ => ⟨fresh, removed, fun _ => rfl⟩
          calls := nofun }
  | error thrown =>
    have settled : s.returned.isSettled = true := by
      rcases m with settled | normalizes
      · exact settled
      · simp [Cause.normalizes, e, Except.isOk, Except.toBool] at normalizes
    have aborted : s.aborted = true := by
      by_contra fresh
      rw [w.calling_open calling (by simpa using fresh)] at settled
      cases settled
    simp only [onThrow, e, Settlement.settle_of_settled settled]
    split
    next signal =>
      exact
        { thrown := w.thrown, uncaught := w.uncaught, errors := w.errors, sound := w.sound, attached := w.attached
          passed := w.passed, prompt := w.prompt, given := w.given, forwards := w.forwards
          cleans := w.cleans, listens := w.listens, plain := w.plain, calls := nofun }
    next plain =>
      have off : s.signal = false := by simpa using plain
      exact absurd (w.plain off).1 (by simp [aborted])

theorem wired_settles {outcome : Except Cause α} (h : s.step (.settles outcome) = some t) : Wired t := by
  obtain ⟨called, attached, operation, normal, rfl⟩ := step_settles h
  exact
    { thrown := w.thrown, uncaught := w.uncaught, errors := w.errors, sound := w.sound, attached := fun _ => attached
      passed := fun _ settled => absurd settled (by simp [normal])
      prompt := fun fresh settled => by
        have result : s.result = .pending := by simp [Race.result, operation, normal]
        rw [w.prompt fresh settled, result] at settled
        cases settled
      given := w.given, forwards := w.forwards, cleans := w.cleans, listens := w.listens
      plain := w.plain, calls := fun calling => absurd calling (by simp [called]) }

theorem Wired.errors_caught (m : s.Meets .catchReaction) (settled : s.operation.isSettled = true)
    (open_or_plain : s.returned.isSettled = false ∨ s.signal = false) :
    ∀ cause, s.operation.caught = .rejected cause → cause.isEncryptError = true := by
  intro cause same
  rcases m with given | normalizes
  · have plain : s.signal = false := open_or_plain.resolve_left (by simp [given])
    refine w.errors cause ?_
    rw [w.prompt (w.plain plain).1 given, result_of_settled settled, same]
  · cases e : s.operation with
    | pending => rw [e] at settled; cases settled
    | fulfilled value => rw [e] at same; cases same
    | rejected thrown =>
      rw [e] at same normalizes
      cases same
      exact Cause.isEncryptError_normalized normalizes

theorem wired_catch (m : s.Meets .catchReaction) (h : s.step .catchReaction = some t) :
    Wired t := by
  obtain ⟨settled, normal, rfl⟩ := step_catch h
  have done : s.operation.caught.isSettled = true := by simp [settled]
  have uncalled : s.calling = true → False := fun calling => by
    rw [(w.calls calling).1] at settled
    cases settled
  have result (u : Race α) (same : u.operation = s.operation) : u.result = s.operation.caught := by
    rw [result_of_settled (same ▸ settled), same]
  split
  next signal =>
    exact
      { thrown := w.thrown, uncaught := w.uncaught, errors := w.errors
        sound := fun unset => w.errors_caught m settled (.inl unset)
        attached := w.attached, passed := fun _ _ => rfl
        prompt := fun fresh given =>
          ((w.prompt fresh given).trans (result s rfl)).trans (Eq.symm (result _ rfl))
        given := w.given
        forwards := fun passed => ⟨(w.forwards passed).1, (w.forwards passed).2.1, done⟩
        cleans := w.cleans, listens := w.listens, plain := fun off => absurd off (by simp [signal])
        calls := fun calling => (uncalled calling).elim }
  next plain =>
    have off : s.signal = false := by simpa using plain
    exact
      { thrown := w.thrown, uncaught := w.uncaught, errors := w.errors_caught m settled (.inr off)
        sound := fun unset => absurd unset (by simp [done])
        attached := w.attached, passed := fun _ _ => rfl
        prompt := fun _ _ => Eq.symm (result _ rfl)
        given := fun _ => done
        forwards := fun passed => ⟨(w.forwards passed).1, done, done⟩
        cleans := w.cleans, listens := w.listens
        plain := fun off => ⟨(w.plain off).1, (w.plain off).2.1, fun _ => done⟩
        calls := fun calling => (uncalled calling).elim }

theorem Wired.errors_forward :
    ∀ cause, s.returned.settle s.normalized = .rejected cause → cause.isEncryptError = true := by
  intro cause same
  cases e : s.returned with
  | pending => exact w.sound (by rw [e]; rfl) cause (by rw [e] at same; exact same)
  | fulfilled value => rw [e] at same; cases same
  | rejected cause' => exact w.errors cause (by rw [e] at same ⊢; exact same)

theorem wired_then (h : s.step .thenReaction = some t) : Wired t := by
  obtain ⟨signal, normal, forwarded, rfl⟩ := step_then h
  have settled : (s.returned.settle s.normalized).isSettled = true := Settlement.isSettled_settle normal
  exact
    { thrown := w.thrown, uncaught := w.uncaught, errors := w.errors_forward
      sound := fun unset => absurd unset (by simp [settled])
      attached := w.attached, passed := w.passed
      prompt := fun fresh _ => by
        show s.returned.settle s.normalized = s.result
        cases e : s.returned.isSettled with
        | true => rw [Settlement.settle_of_settled e, w.prompt fresh e]
        | false =>
          rw [Settlement.pending_of_not_settled e, w.result_eq normal]
          rfl
      given := fun _ => settled, forwards := fun _ => ⟨rfl, settled, normal⟩
      cleans := fun done => ⟨(w.cleans done).1, rfl, (w.cleans done).2.2⟩
      listens := w.listens
      plain := fun off => ⟨(w.plain off).1, (w.plain off).2.1, fun _ => settled⟩
      calls := w.calls }

theorem wired_finally (h : s.step .finallyReaction = some t) : Wired t := by
  obtain ⟨passed, cleaned, rfl⟩ := step_finally h
  exact
    { thrown := w.thrown, uncaught := w.uncaught, errors := w.errors, sound := w.sound, attached := w.attached
      passed := w.passed, prompt := w.prompt, given := w.given, forwards := w.forwards
      cleans := fun _ => ⟨(w.forwards passed).1, passed, rfl⟩
      listens := fun _ _ => .inr passed
      plain := fun off => ⟨(w.plain off).1, rfl, (w.plain off).2.2⟩
      calls := w.calls }

theorem step_wired {e : RaceEvent α} (m : s.Meets e) (h : s.step e = some t) : Wired t := by
  cases e with
  | abort reason => exact wired_abort w m h
  | returns => exact wired_returns w h
  | throws cause => exact wired_throws w m h
  | settles outcome => exact wired_settles w h
  | catchReaction => exact wired_catch w m h
  | thenReaction => exact wired_then w h
  | finallyReaction => exact wired_finally w h

end

theorem result_congr {u : Race α} (operation : u.operation = s.operation)
    (normal : u.normalized = s.normalized) : u.result = s.result := by
  unfold result
  rw [operation, normal]

theorem onAbort_chain (s : Race α) (reason : Option Cause) :
    (s.onAbort reason).operation = s.operation ∧ (s.onAbort reason).normalized = s.normalized := by
  unfold onAbort
  split <;> exact ⟨rfl, rfl⟩

theorem step_result {e : RaceEvent α} (w : Wired s) (settled : s.result.isSettled = true)
    (h : s.step e = some t) : t.result = s.result := by
  cases e with
  | abort reason =>
    obtain ⟨-, -, rfl⟩ := step_abort h
    split
    · exact result_congr (onAbort_chain _ reason).1 (onAbort_chain _ reason).2
    · rfl
  | returns => obtain ⟨-, rfl⟩ := step_returns h; rfl
  | throws cause =>
    obtain ⟨calling, -⟩ := step_throws h
    obtain ⟨operation, normal⟩ := w.calls calling
    have unset : s.result = .pending := by simp [result, operation, normal]
    rw [unset] at settled
    cases settled
  | settles outcome =>
    obtain ⟨-, -, operation, normal, -⟩ := step_settles h
    have unset : s.result = .pending := by simp [result, operation, normal]
    rw [unset] at settled
    cases settled
  | catchReaction =>
    obtain ⟨done, -, rfl⟩ := step_catch h
    rw [result_of_settled done]
    exact result_of_settled done
  | thenReaction => obtain ⟨-, -, -, rfl⟩ := step_then h; rfl
  | finallyReaction => obtain ⟨-, -, rfl⟩ := step_finally h; rfl

theorem step_returned {e : RaceEvent α} (w : Wired s) (settled : s.returned.isSettled = true)
    (h : s.step e = some t) : t.returned = s.returned := by
  have kept := fun outcome => Settlement.settle_of_settled (q := outcome) settled
  cases e with
  | abort reason =>
    obtain ⟨-, -, rfl⟩ := step_abort h
    split
    · unfold onAbort
      split
      · exact kept _
      · rfl
    · rfl
  | returns => obtain ⟨-, rfl⟩ := step_returns h; rfl
  | throws cause =>
    obtain ⟨calling, rfl⟩ := step_throws h
    have signal : s.signal = true := by
      by_contra plain
      have fresh := (w.plain (by simpa using plain)).1
      rw [w.calling_open calling fresh] at settled
      cases settled
    unfold onThrow
    split
    · simp [signal]
    · simp [signal, kept]
  | settles outcome => obtain ⟨-, -, -, -, rfl⟩ := step_settles h; rfl
  | catchReaction =>
    obtain ⟨done, -, rfl⟩ := step_catch h
    split
    next => rfl
    next plain =>
      have fresh := (w.plain (by simpa using plain)).1
      rw [w.prompt fresh settled, result_of_settled done]
  | thenReaction => obtain ⟨-, -, -, rfl⟩ := step_then h; exact kept _
  | finallyReaction => obtain ⟨-, -, rfl⟩ := step_finally h; rfl

theorem onThrow_aborted (s : Race α) (cause : Cause) : (s.onThrow cause).aborted = s.aborted := by
  unfold onThrow
  split
  · rfl
  · split <;> rfl

theorem step_aborted {e : RaceEvent α} (h : s.step e = some t) (fresh : s.aborted = false)
    (now : t.aborted = true) : ∃ reason, e = .abort reason := by
  have kept : t.aborted = s.aborted → ∃ reason, e = .abort reason := fun same => by
    rw [same, fresh] at now
    cases now
  cases e with
  | abort reason => exact ⟨reason, rfl⟩
  | returns => obtain ⟨-, rfl⟩ := step_returns h; exact kept rfl
  | throws cause => obtain ⟨-, rfl⟩ := step_throws h; exact kept (onThrow_aborted _ cause)
  | settles outcome => obtain ⟨-, -, -, -, rfl⟩ := step_settles h; exact kept rfl
  | catchReaction => obtain ⟨-, -, rfl⟩ := step_catch h; exact kept rfl
  | thenReaction => obtain ⟨-, -, -, rfl⟩ := step_then h; exact kept rfl
  | finallyReaction => obtain ⟨-, -, rfl⟩ := step_finally h; exact kept rfl

theorem step_prompt {e : RaceEvent α} (w : Wired s) (m : s.Meets e)
    (settled : s.result.isSettled = true) (unset : s.returned = .pending) (h : s.step e = some t) :
    t.returned = .pending ∨ t.returned = s.result := by
  have w' := step_wired w m h
  have fresh : s.aborted = false := by
    by_contra aborted
    have given := w.given (by simpa using aborted)
    rw [unset] at given
    cases given
  cases now : t.aborted with
  | true =>
    obtain ⟨reason, rfl⟩ := step_aborted h fresh now
    obtain ⟨-, -, rfl⟩ := step_abort h
    split
    next listening =>
      have given := (m listening).2 settled
      rw [unset] at given
      cases given
    next => exact .inl unset
  | false =>
    cases given : t.returned.isSettled with
    | false => exact .inl (Settlement.pending_of_not_settled given)
    | true => exact .inr ((w'.prompt now given).trans (step_result w settled h))

def MeetsAlong (s : Race α) (es : List (RaceEvent α)) : Prop :=
  (raceMachine α).Along (fun s e _ => s.Meets e) s es

instance (s : Race α) (es : List (RaceEvent α)) : Decidable (s.MeetsAlong es) :=
  inferInstanceAs (Decidable ((raceMachine α).Along (fun s e _ => s.Meets e) s es))

theorem run_wired {es : List (RaceEvent α)} (w : Wired s) (m : s.MeetsAlong es)
    (h : (raceMachine α).run s es = some t) : Wired t :=
  run_invariant_along (I := Wired) (C := fun s e _ => s.Meets e)
    (fun _ _ _ w m hs => step_wired w m hs) w m h

theorem run_returned {es : List (RaceEvent α)} (w : Wired s) (m : s.MeetsAlong es)
    (settled : s.returned.isSettled = true) (h : (raceMachine α).run s es = some t) :
    t.returned = s.returned := by
  have kept := run_invariant_along
    (I := fun u : Race α => Wired u ∧ u.returned = s.returned)
    (fun u e r held m hs => ⟨step_wired held.1 m hs,
      (step_returned held.1 (by rw [held.2]; exact settled) hs).trans held.2⟩)
    ⟨w, rfl⟩ m h
  exact kept.2

theorem run_prompt {es : List (RaceEvent α)} (w : Wired s) (m : s.MeetsAlong es)
    (settled : s.result.isSettled = true) (given : s.returned = .pending ∨ s.returned = s.result)
    (h : (raceMachine α).run s es = some t) : t.returned = .pending ∨ t.returned = s.result := by
  have kept := run_invariant_along
    (I := fun u : Race α =>
      Wired u ∧ u.result = s.result ∧ (u.returned = .pending ∨ u.returned = s.result))
    (fun u e r held m hs => by
      obtain ⟨w, same, given⟩ := held
      have done : u.result.isSettled = true := by rw [same]; exact settled
      refine ⟨step_wired w m hs, (step_result w done hs).trans same, ?_⟩
      rcases given with unset | taken
      · exact same ▸ step_prompt w m done unset hs
      · right
        rw [step_returned w (by rw [taken]; exact settled) hs, taken])
    ⟨w, rfl, given⟩ m h
  exact kept.2.2

def drain (s : Race α) : Race α :=
  [RaceEvent.catchReaction, .thenReaction, .finallyReaction].foldl (fun s e => (s.step e).getD s) s

theorem Wired.drain_catch (w : Wired s) (settled : s.result.isSettled = true) :
    ∃ u, (s.step .catchReaction).getD s = u ∧ u.normalized.isSettled = true ∧ u.signal = s.signal ∧
      u.listening = s.listening ∧ u.forwarded = s.forwarded ∧ u.cleaned = s.cleaned ∧
      (u.signal = false ∨ s.forwarded.isSettled = true → u.returned.isSettled = true) := by
  refine ⟨_, rfl, ?_⟩
  simp only [step]
  split
  next runs =>
    have done : s.operation.caught.isSettled = true := by simp [runs.1]
    refine ⟨done, rfl, rfl, rfl, rfl, fun given => ?_⟩
    show (if s.signal then s.returned else s.operation.caught).isSettled = true
    split
    next signal => exact (w.forwards (given.resolve_left (by simp [signal]))).2.1
    next => exact done
  next idle =>
    have normal : s.normalized.isSettled = true := by
      cases e : s.operation with
      | pending => simpa [result, e] using settled
      | fulfilled value => simpa [e, Settlement.isSettled] using idle
      | rejected cause => simpa [e, Settlement.isSettled] using idle
    refine ⟨normal, rfl, rfl, rfl, rfl, fun given => ?_⟩
    rcases given with plain | passed
    · exact (w.plain plain).2.2 normal
    · exact (w.forwards passed).2.1

theorem finally_drained {u : Race α}
    (removed : u.forwarded.isSettled = true ∧ u.cleaned.isSettled = false ∨ u.listening = false)
    (settled : u.returned.isSettled = true) : ((u.step .finallyReaction).getD u).listening = false ∧
      ((u.step .finallyReaction).getD u).returned.isSettled = true := by
  simp only [step]
  split
  next => exact ⟨rfl, settled⟩
  next idle =>
    rcases removed with ⟨passed, unclean⟩ | removed
    · exact absurd ⟨passed, by simp [unclean]⟩ idle
    · exact ⟨removed, settled⟩

theorem Wired.drain_settled (w : Wired s) (settled : s.result.isSettled = true) :
    s.drain.listening = false ∧ s.drain.returned.isSettled = true := by
  obtain ⟨u, caught, normal, signal, listening, forwarded, cleaned, given⟩ := w.drain_catch settled
  simp only [drain, List.foldl_cons, List.foldl_nil, caught]
  have clean : u.cleaned.isSettled = true → u.listening = false := fun done => by
    rw [listening]
    exact (w.cleans (cleaned ▸ done)).2.2
  have unclean : u.cleaned.isSettled = false ∨ u.listening = false := by
    cases done : u.cleaned.isSettled with
    | false => exact .inl rfl
    | true => exact .inr (clean done)
  have forward : u.step .thenReaction =
      if u.signal ∧ u.normalized.isSettled ∧ ¬u.forwarded.isSettled then
        some { u with returned := u.returned.settle u.normalized, forwarded := .fulfilled () }
      else none := rfl
  rw [forward]
  split
  next runs =>
    refine finally_drained (unclean.imp_left fun unclean => ⟨rfl, unclean⟩) ?_
    exact Settlement.isSettled_settle normal
  next idle =>
    cases on : u.signal with
    | false =>
      have plain := w.plain (signal.symm.trans on)
      exact finally_drained (.inr (listening.trans plain.2.1)) (given (.inl on))
    | true =>
      have passed : u.forwarded.isSettled = true := by simpa [on, normal] using idle
      exact finally_drained (unclean.imp_left fun unclean => ⟨passed, unclean⟩)
        (given (.inr (forwarded ▸ passed)))

structure Contract (signal : SignalArgument) (es : List (RaceEvent α)) (t : Race α) : Prop where
  returns : t.thrown = none
  once : ∀ before after s, es = before ++ after →
    (raceMachine α).run (.runWithSignal α signal) before = some s → s.returned.isSettled = true →
      t.returned = s.returned
  typed : ∀ cause, t.returned = .rejected cause → cause.isEncryptError = true
  aborted : ∀ reason, signal = .aborted reason → t.returned = .rejected (abortReason reason).normalized
  aborts : ∀ before reason after s, es = before ++ .abort reason :: after →
    (raceMachine α).run (.runWithSignal α signal) before = some s → s.result.isSettled = false →
      t.returned = .rejected (abortReason reason).normalized
  kept : ∀ before after s, es = before ++ after →
    (raceMachine α).run (.runWithSignal α signal) before = some s → s.aborted = false →
      s.result.isSettled = true → t.returned = .pending ∨ t.returned = s.result
  removes : t.result.isSettled = true → t.drain.listening = false ∧ t.drain.returned.isSettled = true
  quiet : t.unhandled = [] ∧ t.uncaught = []

theorem wired_unhandled (w : Wired s) : s.unhandled = [] := by
  have first : (if s.attached then [] else s.operation.rejection?.toList) = [] := by
    split
    next => rfl
    next loose =>
      cases e : s.operation with
      | pending => rfl
      | fulfilled value => rfl
      | rejected cause => exact absurd (w.attached (by rw [e]; rfl)) loose
  have last : s.cleaned.rejection?.toList = [] := by
    cases e : s.cleaned.isSettled with
    | false => rw [Settlement.pending_of_not_settled e]; rfl
    | true => rw [(w.cleans e).1]; rfl
  unfold unhandled
  rw [first, last]
  rfl

theorem Wired.aborts {reason : Option Cause} (w : Wired s) (m : s.Meets (.abort reason))
    (unset : s.result.isSettled = false) (h : s.step (.abort reason) = some t) :
    t.returned = .rejected (abortReason reason).normalized := by
  obtain ⟨signal, fresh, rfl⟩ := step_abort h
  have normal : s.normalized.isSettled = false := by
    by_contra settled
    have settled : s.normalized.isSettled = true := by simpa using settled
    rw [w.result_eq settled, settled] at unset
    cases unset
  have listening : s.listening = true := by
    by_contra removed
    rcases w.listens signal (by simpa using removed) with old | cleaned
    · rw [fresh] at old; cases old
    · rw [(w.forwards (w.cleans cleaned).2.1).2.2] at normal
      cases normal
  have open_returned : s.returned = .pending := by
    apply Settlement.pending_of_not_settled
    by_contra settled
    have settled : s.returned.isSettled = true := by simpa using settled
    rw [← w.prompt fresh settled, settled] at unset
    cases unset
  rw [if_pos listening, onAbort, Cause.normalizeEncryptError_eq (m listening).1]
  show s.returned.settle _ = _
  rw [open_returned]
  rfl

/-- Where every abort reason and every cause that is reached can be normalized and the signal does not
abort between the result and the promise taking it, a call keeps its contract. -/
theorem signal_contract {signal : SignalArgument} {es : List (RaceEvent α)}
    (start : ∀ reason, signal = .aborted reason → (abortReason reason).normalizes = true)
    (meets : (runWithSignal α signal).MeetsAlong es)
    (reached : (raceMachine α).run (.runWithSignal α signal) es = some t) : Contract signal es t := by
  have first := wired_runWithSignal (α := α) start
  have last := run_wired first meets reached
  have split : ∀ before after s, es = before ++ after →
      (raceMachine α).run (.runWithSignal α signal) before = some s →
        Wired s ∧ s.MeetsAlong after ∧ (raceMachine α).run s after = some t := by
    intro before after s same here
    subst same
    obtain ⟨m, m'⟩ := LabelledMachine.along_append meets here
    rw [LabelledMachine.run_append, here] at reached
    exact ⟨run_wired first m here, m', reached⟩
  exact
    { returns := last.thrown
      once := fun before after s same here settled => by
        obtain ⟨w, m, run⟩ := split before after s same here
        exact run_returned w m settled run
      typed := last.errors
      aborted := fun reason same => by
        subst same
        have given : (runWithSignal α (.aborted reason)).returned =
            .rejected (abortReason reason).normalized := by
          simp only [runWithSignal, Cause.normalizeEncryptError_eq (start reason rfl)]
        rw [← given]
        exact run_returned first meets (by rw [given]; rfl) reached
      aborts := fun before reason after s same here unset => by
        obtain ⟨w, m, run⟩ := split before _ s same here
        obtain ⟨r, hs, run⟩ := LabelledMachine.run_cons_some run
        obtain ⟨hm, m⟩ := LabelledMachine.along_cons m hs
        have given := w.aborts hm unset hs
        rw [← given]
        exact run_returned (step_wired w hm hs) m (by rw [given]; rfl) run
      kept := fun before after s same here fresh settled => by
        obtain ⟨w, m, run⟩ := split before after s same here
        refine run_prompt w m settled ?_ run
        cases given : s.returned.isSettled with
        | false => exact .inl (Settlement.pending_of_not_settled given)
        | true => exact .inr (w.prompt fresh given)
      removes := last.drain_settled
      quiet := ⟨wired_unhandled last, last.uncaught⟩ }

def lateFailure : List (RaceEvent Nat) :=
  [.returns, .abort (some (.error (.ok (js "stop")))), .settles (.error (.error (.ok (js "late")))),
    .catchReaction, .thenReaction, .finallyReaction]

theorem late_failure_kept : ∃ t, (raceMachine Nat).run (.runWithSignal Nat .live) lateFailure = some t ∧
    t.returned = .rejected (.encryptError (js "stop") (some (.error (.ok (js "stop"))))) ∧
    Contract .live lateFailure t := by
  have run : (raceMachine Nat).run (.runWithSignal Nat .live) lateFailure = some _ := rfl
  exact ⟨_, run, rfl, signal_contract nofun (by decide) run⟩

def unprintable : List (RaceEvent Nat) :=
  [.returns, .settles (.error (.other (.error
      (.error (.ok (js "Cannot convert object to primitive value")))))), .catchReaction, .thenReaction]

def abortAfterResult : List (RaceEvent Nat) :=
  [.returns, .settles (.ok 1), .abort none, .catchReaction, .thenReaction, .finallyReaction]

theorem contract_broken : (∃ t, (raceMachine Nat).run (.runWithSignal Nat .live) unprintable = some t ∧
      ¬Contract .live unprintable t) ∧
    ∃ t, (raceMachine Nat).run (.runWithSignal Nat .live) abortAfterResult = some t ∧
      ¬Contract .live abortAfterResult t := by
  constructor
  · refine ⟨_, rfl, fun contract => ?_⟩
    have typed := contract.typed _ rfl
    cases typed
  · refine ⟨_, rfl, fun contract => ?_⟩
    have kept := contract.kept [.returns, .settles (.ok 1)] _ _ rfl rfl rfl rfl
    rcases kept with unset | same
    · cases unset
    · cases same

end Race

end ForgeDeno
