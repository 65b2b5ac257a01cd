import ForgeDeno.JsNumber
import ForgeDeno.JsString
import ForgeDeno.LabelledMachine
import ForgeDeno.ListRules

namespace ForgeDeno

namespace Unary

open List Option

def INTERNAL : JsNumber := 13

/-- What a handler or an interceptor fails with, by its text: that of its message for an error,
`String(err)` for another value. There is none where the conversion to a string throws. -/
inductive ThrownValue where
  | grpcError (message : Option JsString) (code : JsNumber)
  | error (message : Option JsString)
  | other (text : Option JsString)

structure ServiceError where
  message : JsString
  code : JsNumber

/-- Maps a thrown value to a service error; `none` where this throws itself. -/
def toServiceError : ThrownValue → Option ServiceError
  | .grpcError message code => message.map (⟨·, code⟩)
  | .error message => message.map (⟨·, INTERNAL⟩)
  | .other text => text.map (⟨·, INTERNAL⟩)

/-- One of the functions that `reduceRight` builds. -/
inductive Thunk (Interceptor : Type) where
  | invoke
  | around (interceptor : Interceptor) (next : Thunk Interceptor)

variable {Interceptor Response : Type}

def Thunk.next? : Thunk Interceptor → Option (Thunk Interceptor)
  | .invoke => none
  | .around _ next => some next

/-- `interceptors.reduceRight((next, interceptor) => () => interceptor(ctx, next), invoke)` -/
def chainOf (interceptors : List Interceptor) : Thunk Interceptor :=
  interceptors.foldr .around .invoke

inductive Stage where
  /-- the microtask that runs the handler is queued -/
  | queued
  | running
  /-- it has returned a promise, or another value -/
  | returned
deriving DecidableEq

inductive Phase (Response : Type) where
  | pending (stage : Stage)
  | settled (outcome : Except ThrownValue Response)

def Phase.stage? : Phase Response → Option Stage
  | .pending stage => some stage
  | .settled _ => none

def Phase.outcome? : Phase Response → Option (Except ThrownValue Response)
  | .pending _ => none
  | .settled outcome => some outcome

/-- One call of a thunk, by the call whose `next` it is. -/
structure Frame (Interceptor Response : Type) where
  thunk : Thunk Interceptor
  caller : Option Nat
  phase : Phase Response

def start (thunk : Thunk Interceptor) (caller : Option Nat) : Frame Interceptor Response :=
  match thunk with
  | .invoke => ⟨thunk, caller, .pending .queued⟩
  | .around _ _ => ⟨thunk, caller, .pending .running⟩

inductive CallbackCall (Response : Type) where
  | result (response : Response)
  | failure (error : ServiceError)

def react : Except ThrownValue Response → Option (CallbackCall Response)
  | .ok response => some (.result response)
  | .error thrown => (toServiceError thrown).map .failure

structure UnaryState (Interceptor Response : Type) where
  frames : List (Frame Interceptor Response) := []
  reacted : Bool := false
  callbacks : List (CallbackCall Response) := []

/-- What the handler and the interceptors do is up to them: any of their steps may come at any
time, an interceptor may call `next` after it has settled too. -/
inductive UnaryEvent (Response : Type) where
  /-- the microtask of `Promise.resolve().then(chain)` -/
  | enter
  | callsNext (frame : Nat)
  /-- the microtask of `Promise.resolve().then(() => handler(call.request, ctx))` -/
  | handles (frame : Nat)
  | throws (frame : Nat) (thrown : ThrownValue)
  | returns (frame : Nat)
  | settles (frame : Nat) (outcome : Except ThrownValue Response)
  /-- the microtask of `.then(onFulfilled, onRejected)` -/
  | reacts

namespace UnaryState

def outcome? (s : UnaryState Interceptor Response) : Option (Except ThrownValue Response) :=
  s.frames.head?.bind fun call => call.phase.outcome?

def push (s : UnaryState Interceptor Response) (call : Frame Interceptor Response) :
    UnaryState Interceptor Response :=
  { s with frames := s.frames ++ [call] }

def setPhase (s : UnaryState Interceptor Response) (frame : Nat) (call : Frame Interceptor Response)
    (phase : Phase Response) : UnaryState Interceptor Response :=
  { s with frames := s.frames.set frame { call with phase } }

def move (s : UnaryState Interceptor Response) (stage : Stage) (frame : Nat) (phase : Phase Response) :
    Option (UnaryState Interceptor Response) :=
  (s.frames[frame]?.filter fun call => call.phase.stage? = some stage).map fun call =>
    s.setPhase frame call phase

def step (chain : Thunk Interceptor) (s : UnaryState Interceptor Response) :
    UnaryEvent Response → Option (UnaryState Interceptor Response)
  | .enter => if s.frames.isEmpty then some (s.push (start chain none)) else none
  | .callsNext frame =>
    s.frames[frame]?.bind fun call =>
      call.thunk.next?.map fun next => s.push (start next (some frame))
  | .handles frame => s.move .queued frame (.pending .running)
  | .throws frame thrown => s.move .running frame (.settled (.error thrown))
  | .returns frame => s.move .running frame (.pending .returned)
  | .settles frame outcome => s.move .returned frame (.settled outcome)
  | .reacts =>
    if s.reacted then none
    else s.outcome?.map fun outcome =>
      { s with reacted := true, callbacks := s.callbacks ++ (react outcome).toList }

end UnaryState

/-- The handler that `unary` composes, from a call of it on. -/
def unary (interceptors : List Interceptor) :
    LabelledMachine (UnaryState Interceptor Response) (UnaryEvent Response) where
  start s := s = {}
  step := UnaryState.step (chainOf interceptors)

section specification

variable {Interceptor Response : Type}

def ThrownValue.text : ThrownValue → Option JsString
  | .grpcError message _ => message
  | .error message => message
  | .other text => text

def ThrownValue.code : ThrownValue → JsNumber
  | .grpcError _ code => code
  | _ => INTERNAL

inductive Tells : Except ThrownValue Response → CallbackCall Response → Prop
  | result (response : Response) : Tells (.ok response) (.result response)
  | failure {thrown : ThrownValue} {error : ServiceError} (message : thrown.text = some error.message)
      (code : error.code = thrown.code) : Tells (.error thrown) (.failure error)

def AnsweredOnce (s : UnaryState Interceptor Response) : Prop :=
  ∃ outcome call, s.outcome? = some outcome ∧ s.callbacks = [call] ∧ Tells outcome call

def Thunk.interceptors : Thunk Interceptor → List Interceptor
  | .invoke => []
  | .around interceptor next => interceptor :: next.interceptors

def UnaryState.shape (s : UnaryState Interceptor Response) : List (Thunk Interceptor × Option Nat) :=
  s.frames.map fun frame => (frame.thunk, frame.caller)

/-- The interceptors that a call of a thunk runs inside, outermost first. Each began before the
one inside it, which is what its `next` calls. -/
inductive Encloses (shape : List (Thunk Interceptor × Option Nat)) : Nat → List Interceptor → Prop
  | outermost {thunk : Thunk Interceptor} (first : shape[0]? = some (thunk, none)) : Encloses shape 0 []
  | inside {frame caller : Nat} {outer : List Interceptor} {interceptor : Interceptor}
      {next : Thunk Interceptor} {above : Option Nat}
      (around : shape[caller]? = some (.around interceptor next, above))
      (called : shape[frame]? = some (next, some caller)) (before : caller < frame)
      (outside : Encloses shape caller outer) : Encloses shape frame (outer ++ [interceptor])

end specification

section steps

variable {interceptors : List Interceptor} {chain : Thunk Interceptor}
  {s t : UnaryState Interceptor Response} {e : UnaryEvent Response}

theorem toServiceError_eq (thrown : ThrownValue) :
    toServiceError thrown = thrown.text.map (⟨·, thrown.code⟩) := by
  cases thrown <;> rfl

theorem interceptors_chainOf (interceptors : List Interceptor) :
    (chainOf interceptors).interceptors = interceptors := by
  induction interceptors with
  | nil => rfl
  | cons interceptor interceptors ih => exact congrArg (interceptor :: ·) ih

theorem start_thunk (thunk : Thunk Interceptor) (caller : Option Nat) :
    (start thunk caller : Frame Interceptor Response).thunk = thunk := by
  cases thunk <;> rfl

theorem start_caller (thunk : Thunk Interceptor) (caller : Option Nat) :
    (start thunk caller : Frame Interceptor Response).caller = caller := by
  cases thunk <;> rfl

theorem move_eq {stage : Stage} {frame : Nat} {phase : Phase Response} (h : s.move stage frame phase = some t) :
    ∃ call, s.frames[frame]? = some call ∧ call.phase.outcome? = none ∧ t = s.setPhase frame call phase := by
  obtain ⟨call, found, same⟩ := map_eq_some_iff.mp h
  obtain ⟨found, may⟩ := filter_eq_some_iff.mp found
  refine ⟨call, found, ?_, same.symm⟩
  cases current : call.phase with
  | pending stage => rfl
  | settled outcome =>
    rw [current] at may
    cases of_decide_eq_true may

theorem next?_eq {thunk next : Thunk Interceptor} (h : thunk.next? = some next) :
    ∃ interceptor, thunk = .around interceptor next := by
  cases thunk with
  | invoke => cases h
  | around interceptor inner =>
    cases h
    exact ⟨interceptor, rfl⟩

theorem step_cases (h : s.step chain e = some t) : (s.frames = [] ∧ t = s.push (start chain none)) ∨
    (∃ frame call interceptor next, s.frames[frame]? = some call ∧
      call.thunk = .around interceptor next ∧ t = s.push (start next (some frame))) ∨
    (∃ frame call phase, s.frames[frame]? = some call ∧ call.phase.outcome? = none ∧
      t = s.setPhase frame call phase) ∨ (s.reacted = false ∧ ∃ outcome, s.outcome? = some outcome ∧
      t = { s with reacted := true, callbacks := s.callbacks ++ (react outcome).toList }) := by
  cases e with
  | enter =>
    by_cases first : s.frames.isEmpty = true
    · exact .inl ⟨List.isEmpty_iff.mp first, Option.some.inj (h.symm.trans (if_pos first))⟩
    · cases h.symm.trans (if_neg first)
  | callsNext frame =>
    obtain ⟨call, found, started⟩ := bind_eq_some_iff.mp h
    obtain ⟨next, below, same⟩ := map_eq_some_iff.mp started
    obtain ⟨interceptor, around⟩ := next?_eq below
    exact .inr (.inl ⟨frame, call, interceptor, next, found, around, same.symm⟩)
  | handles frame =>
    obtain ⟨call, found, unsettled, same⟩ := move_eq h
    exact .inr (.inr (.inl ⟨frame, call, _, found, unsettled, same⟩))
  | throws frame thrown =>
    obtain ⟨call, found, unsettled, same⟩ := move_eq h
    exact .inr (.inr (.inl ⟨frame, call, _, found, unsettled, same⟩))
  | returns frame =>
    obtain ⟨call, found, unsettled, same⟩ := move_eq h
    exact .inr (.inr (.inl ⟨frame, call, _, found, unsettled, same⟩))
  | settles frame outcome =>
    obtain ⟨call, found, unsettled, same⟩ := move_eq h
    exact .inr (.inr (.inl ⟨frame, call, _, found, unsettled, same⟩))
  | reacts =>
    by_cases done : s.reacted = true
    · cases h.symm.trans (if_pos done)
    · obtain ⟨outcome, settled, same⟩ := map_eq_some_iff.mp ((if_neg done).symm.trans h)
      exact .inr (.inr (.inr ⟨Bool.not_eq_true _ ▸ done, outcome, settled, same.symm⟩))

theorem shape_push (call : Frame Interceptor Response) :
    (s.push call).shape = s.shape ++ [(call.thunk, call.caller)] :=
  map_append

variable {call : Frame Interceptor Response}

theorem shape_setPhase {frame : Nat} (phase : Phase Response)
    (found : s.frames[frame]? = some call) : (s.setPhase frame call phase).shape = s.shape := by
  obtain ⟨bound, here⟩ := List.getElem?_eq_some_iff.mp found
  unfold UnaryState.shape UnaryState.setPhase
  rw [map_set, ← here]
  have same := @List.set_getElem_self _ (s.frames.map fun frame => (frame.thunk, frame.caller)) frame
    (by simpa using bound)
  rw [getElem_map] at same
  exact same

theorem outcome?_push {outcome : Except ThrownValue Response}
    (h : s.outcome? = some outcome) : (s.push call).outcome? = some outcome := by
  obtain ⟨first, found, settled⟩ := bind_eq_some_iff.mp h
  obtain ⟨frames, split⟩ := head?_eq_some_iff.mp found
  unfold UnaryState.outcome? UnaryState.push
  rw [split]
  exact settled

theorem outcome?_setPhase {frame : Nat} {phase : Phase Response}
    {outcome : Except ThrownValue Response} (found : s.frames[frame]? = some call)
    (unsettled : call.phase.outcome? = none) (h : s.outcome? = some outcome) :
    (s.setPhase frame call phase).outcome? = some outcome := by
  obtain ⟨first, head, settled⟩ := bind_eq_some_iff.mp h
  obtain ⟨frames, split⟩ := head?_eq_some_iff.mp head
  unfold UnaryState.outcome? UnaryState.setPhase
  rw [split] at found ⊢
  cases frame with
  | zero =>
    cases found
    cases unsettled.symm.trans settled
  | succ frame => exact settled

structure Reacted (s : UnaryState Interceptor Response) : Prop where
  before : s.reacted = false → s.callbacks = []
  after : s.reacted = true → ∃ outcome, s.outcome? = some outcome ∧ s.callbacks = (react outcome).toList

theorem reacted_step (reacted : Reacted s) (h : s.step chain e = some t) : Reacted t := by
  rcases step_cases h with ⟨-, rfl⟩ | ⟨frame, call, interceptor, next, -, -, rfl⟩ |
    ⟨frame, call, phase, found, unsettled, rfl⟩ | ⟨pending, outcome, settled, rfl⟩
  · refine ⟨reacted.before, fun done => ?_⟩
    obtain ⟨outcome, settled, told⟩ := reacted.after done
    exact ⟨outcome, outcome?_push settled, told⟩
  · refine ⟨reacted.before, fun done => ?_⟩
    obtain ⟨outcome, settled, told⟩ := reacted.after done
    exact ⟨outcome, outcome?_push settled, told⟩
  · refine ⟨reacted.before, fun done => ?_⟩
    obtain ⟨outcome, settled, told⟩ := reacted.after done
    exact ⟨outcome, outcome?_setPhase found unsettled settled, told⟩
  · refine ⟨(by cases ·), fun _ => ⟨outcome, settled, ?_⟩⟩
    rw [reacted.before pending, nil_append]

end steps

section nesting

variable {interceptors : List Interceptor} {s t : UnaryState Interceptor Response}
  {e : UnaryEvent Response} {shape : List (Thunk Interceptor × Option Nat)}

theorem Encloses.append {frame : Nat} {outer : List Interceptor} (h : Encloses shape frame outer)
    (later : List (Thunk Interceptor × Option Nat)) : Encloses (shape ++ later) frame outer := by
  have kept {i : Nat} {call : Thunk Interceptor × Option Nat} (found : shape[i]? = some call) :
      (shape ++ later)[i]? = some call :=
    (getElem?_append_left (List.getElem?_eq_some_iff.mp found).1).trans found
  induction h with
  | outermost first => exact .outermost (kept first)
  | inside around called before outside ih => exact .inside (kept around) (kept called) before ih

def Nested (interceptors : List Interceptor) (shape : List (Thunk Interceptor × Option Nat)) : Prop :=
  ∀ frame thunk caller, shape[frame]? = some (thunk, caller) →
    ∃ outer, Encloses shape frame outer ∧ outer ++ thunk.interceptors = interceptors

theorem Nested.push {frame : Nat} {interceptor : Interceptor} {next : Thunk Interceptor}
    {above : Option Nat} (nested : Nested interceptors shape)
    (around : shape[frame]? = some (.around interceptor next, above)) :
    Nested interceptors (shape ++ [(next, some frame)]) := by
  intro i thunk caller found
  rcases ListRules.getElem?_concat_iff.mp found with old | ⟨rfl, same⟩
  · obtain ⟨outer, encloses, whole⟩ := nested i thunk caller old
    exact ⟨outer, encloses.append _, whole⟩
  · cases same
    obtain ⟨outer, encloses, whole⟩ := nested frame _ above around
    have before := (List.getElem?_eq_some_iff.mp around).1
    have still : (shape ++ [(next, some frame)])[frame]? = _ := (getElem?_append_left before).trans around
    refine ⟨outer ++ [interceptor], .inside still found before (encloses.append _), ?_⟩
    rw [append_assoc]
    exact whole

theorem nested_step (nested : Nested interceptors s.shape)
    (h : s.step (chainOf interceptors) e = some t) : Nested interceptors t.shape := by
  rcases step_cases h with ⟨none, rfl⟩ | ⟨frame, call, interceptor, next, found, around, rfl⟩ |
    ⟨frame, call, phase, found, -, rfl⟩ | ⟨-, outcome, -, rfl⟩
  · have first : s.shape = [] := by rw [UnaryState.shape, none, map_nil]
    rw [shape_push, first, start_thunk, start_caller]
    intro frame thunk caller found
    cases frame with
    | zero =>
      cases found
      exact ⟨[], .outermost rfl, interceptors_chainOf interceptors⟩
    | succ frame => cases found
  · rw [shape_push, start_thunk, start_caller]
    refine @Nested.push _ _ _ _ interceptor _ call.caller nested ?_
    unfold UnaryState.shape
    rw [getElem?_map, found, ← around]
    rfl
  · rw [shape_setPhase phase found]
    exact nested
  · exact nested

end nesting

section results

variable {s : UnaryState Interceptor Response}

theorem react_tells_iff (outcome : Except ThrownValue Response) :
    (∃ call, (react outcome).toList = [call] ∧ Tells outcome call) ↔
      ∀ thrown, outcome = .error thrown → thrown.text ≠ none := by
  cases outcome with
  | ok response =>
    refine iff_of_true ⟨_, rfl, .result response⟩ ?_
    intro thrown same
    cases same
  | error thrown =>
    have made : react (.error thrown : Except ThrownValue Response) =
        (thrown.text.map (⟨·, thrown.code⟩)).map .failure := by
      rw [← toServiceError_eq]
      rfl
    rw [made]
    cases text : thrown.text with
    | none =>
      refine iff_of_false ?_ fun shown => shown thrown rfl text
      rintro ⟨call, told, -⟩
      cases told
    | some message =>
      refine iff_of_true ⟨_, rfl, .failure text rfl⟩ ?_
      intro other same
      cases same
      rw [text]
      exact some_ne_none message

theorem answeredOnce_iff (reacted : Reacted s) (done : s.reacted = true) : AnsweredOnce s ↔
    ∀ thrown, s.outcome? = some (.error thrown) → thrown.text ≠ none := by
  obtain ⟨outcome, settled, told⟩ := reacted.after done
  have tells := react_tells_iff outcome
  rw [← told] at tells
  constructor
  · rintro ⟨outcome', call, same, once, shown⟩ thrown failed
    cases settled.symm.trans same
    exact tells.mp ⟨call, once, shown⟩ thrown (Option.some.inj (settled.symm.trans failed))
  · intro texts
    obtain ⟨call, once, shown⟩ := tells.mpr fun thrown same => texts thrown (same ▸ settled)
    exact ⟨outcome, call, settled, once, shown⟩

theorem reaction_due {outcome : Except ThrownValue Response} (chain : Thunk Interceptor)
    (settled : s.outcome? = some outcome) (pending : s.reacted = false) :
    (s.step chain .reacts).isSome = true := by
  unfold UnaryState.step
  rw [if_neg (Bool.eq_false_iff.mp pending), settled]
  rfl

end results

/-- In every run of a composed handler: once the chain has settled its reaction is due, and this
calls the callback once, with the outcome, unless it is an error without a text; it is not called
before. Every call of an interceptor or of the handler runs inside the interceptors in front of
it, the first outermost. -/
theorem unary_callback (interceptors : List Interceptor) (events : List (UnaryEvent Response))
    (s : UnaryState Interceptor Response) (run : (unary interceptors).run {} events = some s) :
    (s.reacted = false → s.callbacks = [] ∧
      ∀ outcome, s.outcome? = some outcome → ((unary interceptors).step s .reacts).isSome = true) ∧
    (s.reacted = true → (AnsweredOnce s ↔ ∀ thrown, s.outcome? = some (.error thrown) → thrown.text ≠ none)) ∧
    ∀ (frame : Nat) (call : Frame Interceptor Response), s.frames[frame]? = some call →
      ∃ outer, Encloses s.shape frame outer ∧ outer ++ call.thunk.interceptors = interceptors := by
  have fresh : Reacted ({} : UnaryState Interceptor Response) := ⟨fun _ => rfl, (by cases ·)⟩
  have reacted : Reacted s :=
    LabelledMachine.run_invariant (I := Reacted) (fun _ _ _ held h => reacted_step held h) fresh run
  have nested : Nested interceptors s.shape :=
    LabelledMachine.run_invariant (I := fun t => Nested interceptors t.shape)
      (fun _ _ _ held h => nested_step held h) (by intro frame thunk caller found; cases found) run
  refine ⟨fun pending => ⟨reacted.before pending, ?_⟩, answeredOnce_iff reacted, ?_⟩
  · exact fun outcome settled => reaction_due (chainOf interceptors) settled pending
  · intro frame call found
    apply nested frame call.thunk call.caller
    unfold UnaryState.shape
    rw [List.getElem?_map, found]
    rfl

/-- One interceptor, which calls `next` twice and resolves with what the second call gives. -/
theorem unary_callback_twice :
    ∃ s, (unary [()]).run ({} : UnaryState Unit Nat) [.enter, .callsNext 0, .callsNext 0, .returns 0,
        .handles 1, .throws 1 (.other none), .handles 2, .returns 2, .settles 2 (.ok 5),
        .settles 0 (.ok 5), .reacts] = some s ∧ AnsweredOnce s := by
  have run := @unary_callback Unit Nat [()] [.enter, .callsNext 0, .callsNext 0, .returns 0,
    .handles 1, .throws 1 (.other none), .handles 2, .returns 2, .settles 2 (.ok 5), .settles 0 (.ok 5),
    .reacts]
  refine ⟨_, rfl, ?_⟩
  obtain ⟨-, answered, -⟩ := run _ rfl
  exact (answered rfl).mpr fun thrown failed => by cases failed

/-- An interceptor throws what `String` cannot convert: the callback is never called. -/
theorem unprintable_unanswered :
    ∃ s, (unary [()]).run ({} : UnaryState Unit Nat) [.enter, .throws 0 (.other none), .reacts] = some s ∧
      s.reacted = true ∧ s.callbacks = [] ∧ ¬AnsweredOnce s := by
  refine ⟨_, rfl, rfl, rfl, ?_⟩
  rintro ⟨outcome, call, settled, once, told⟩
  cases once

end Unary

end ForgeDeno
