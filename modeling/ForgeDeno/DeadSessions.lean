import ForgeDeno.KeyConfinement
import ForgeDeno.LoginFreshness
import ForgeDeno.SurfacedFailures

namespace ForgeDeno

open SlotSystem ListRules Option List

namespace CallStage

def has? : CallStage → Option SessionHandle
  | .opened (.ok session) => some session
  | stage => stage.held?

/-- The session that `acquire` has just given the call. -/
def acquired? : CallStage → Option SessionHandle
  | .acquired session => some session
  | _ => none

def isEarly : CallStage → Bool
  | .opening | .opened _ | .waiting | .woken | .acquired _ | .loggingIn _ _ | .authenticated _ => true
  | _ => false

end CallStage

def LoginPhase.died : LoginPhase → Bool
  | .answered (.error failure) | .settled (.error failure) _ => sessionIsDead failure
  | _ => false

namespace SlotEvent

def operation? : SlotEvent → Option (TokenProgram Unit)
  | .acquire _ operation => some operation
  | _ => none

def finishes? : SlotEvent → Option Nat
  | .finish n => some n
  | _ => none

end SlotEvent

/-- What a call knows of its operation: a failure for want of a living session that is on its way out and
that nothing replaces is what the operation fails with. -/
structure SessionCall.Heedful (call : SessionCall) : Prop where
  operation : call.operation.Carries none
  early : call.stage.isEarly = true → call.exposed = false
  body : ∀ session body, call.stage = .running session body → ∃ pending, body.Carries pending ∧
    (call.exposed = true → ∃ failure ∈ pending, sessionIsDead failure = true)

theorem SessionCall.Heedful.move {call after : SessionCall} (h : call.Heedful)
    (operation : after.operation = call.operation) (exposed : after.exposed = call.exposed)
    (early : after.stage.isEarly = true → call.stage.isEarly = true)
    (still : ∀ session body, after.stage ≠ .running session body) : after.Heedful := by
  refine ⟨?_, fun now => ?_, fun session body now => absurd now (still session body)⟩
  · rw [operation]
    exact h.operation
  · rw [exposed]
    exact h.early (early now)

theorem SessionCall.Heedful.start {call : SessionCall} (h : call.Heedful)
    (early : call.stage.isEarly = true) (session : SessionHandle) :
    SessionCall.Heedful { call with stage := .running session call.operation } := by
  refine ⟨h.operation, nofun, ?_⟩
  intro other body now
  cases now
  refine ⟨none, h.operation, fun exposed => ?_⟩
  have living := h.early early
  rw [show call.exposed = true from exposed] at living
  cases living

theorem SessionCall.Heedful.heard {call : SessionCall} (h : call.Heedful) {session : SessionHandle}
    {c : TokenCall} {replaced : TokenFailure → Bool} {next : Except TokenFailure c.Reply → TokenProgram Unit}
    (stage : call.stage = .running session (.call c replaced next)) (reply : Except TokenFailure c.Reply) :
    (call.heard session replaced next reply).Heedful := by
  obtain ⟨pending, ⟨goes, throws⟩, doomed⟩ := h.body session _ stage
  have running {after : SessionCall} (operation : after.operation = call.operation)
      (now : after.stage = .running session (next reply)) (left : Option TokenFailure)
      (carries : (next reply).Carries left)
      (fails : after.exposed = true → ∃ failure ∈ left, sessionIsDead failure = true) : after.Heedful := by
    refine ⟨operation ▸ h.operation, fun early => ?_, fun other body stands => ?_⟩
    · rw [now] at early
      cases early
    · rw [now] at stands
      cases stands
      exact ⟨left, carries, fails⟩
  unfold SessionCall.heard
  cases reply with
  | ok value => exact running rfl rfl pending (goes value) doomed
  | error failure =>
    have carries := throws failure
    dsimp only
    split_ifs with caught
    · rw [if_pos caught] at carries
      exact running rfl rfl pending carries doomed
    · rw [if_neg caught] at carries
      exact running rfl rfl (some failure) carries fun dead => ⟨failure, rfl, dead⟩

namespace SlotSystem

variable {s t : SlotSystem}

/-- The operation is one that a provider gives to `withSession`. -/
def OfProvider (base64 : Base64) (s : SlotSystem) (e : SlotEvent) (_ : SlotSystem) : Prop :=
  ∀ operation ∈ e.operation?, ∃ options chosen,
    operation = TokenOperation.program base64 options s.slot.mechanisms chosen

/-- An operation that has heard of its session's death and had that failure replaced ends only with
such a failure on its way out. -/
def HeedsDeath (s : SlotSystem) (e : SlotEvent) (_ : SlotSystem) : Prop :=
  ∀ n ∈ e.finishes?, ∀ call ∈ s.calls[n]?, call.hidden = true → call.exposed = true

instance (s : SlotSystem) (e : SlotEvent) (t : SlotSystem) : Decidable (HeedsDeath s e t) :=
  inferInstanceAs (Decidable (∀ n ∈ e.finishes?, ∀ call ∈ s.calls[n]?, _ → _))

/-- The call goes on to close its session: its operation has heard of the session's death, or the login
that it awaits has failed with it. -/
def Condemned (s : SlotSystem) (call : SessionCall) : Prop :=
  match call.stage with
  | .running _ _ => call.exposed = true ∨ call.hidden = true
  | .loggingIn _ a => ∃ attempt, s.attempts[a]? = some attempt ∧ attempt.phase.died = true
  | _ => False

structure Heeding (s : SlotSystem) : Prop where
  calls : ∀ call ∈ s.calls, call.Heedful
  owned : ∀ (a : Nat) (attempt : LoginAttempt), s.attempts[a]? = some attempt →
    attempt.phase.underWay = true →
      ∃ (n : Nat) (call : SessionCall), s.calls[n]? = some call ∧ call.stage = .loggingIn attempt.session a
  idle : ∀ session ∈ s.died, session ∉ s.pool.idle
  held : ∀ (n : Nat) (call : SessionCall) (session : SessionHandle), s.calls[n]? = some call →
    call.stage.has? = some session → session ∈ s.died → s.Condemned call

section exclusive

variable {n : Nat} {call : SessionCall} {session : SessionHandle}

theorem has_le_weigh (session : SessionHandle) (stage : CallStage) :
    (decide (stage.has? = some session)).toNat ≤ (Gauge.only session).weigh stage := by
  cases stage with
  | opened reply =>
    cases reply with
    | ok other =>
      by_cases same : other = session
      · simp [CallStage.has?, Gauge.weigh, Gauge.only, same]
      · simp [CallStage.has?, same]
    | error failure => simp [CallStage.has?, CallStage.held?]
  | acquired other | loggingIn other a | authenticated other | running other body =>
    by_cases same : other = session
    · simp [CallStage.has?, CallStage.held?, Gauge.weigh, Gauge.only, same]
    · simp [CallStage.has?, CallStage.held?, same]
  | _ => simp [CallStage.has?, CallStage.held?]

theorem Exclusive.alone (h : Exclusive s) (here : s.calls[n]? = some call)
    (has : call.stage.has? = some session) : session ∉ s.pool.idle ∧
      ∀ (k : Nat) (other : SessionCall), s.calls[k]? = some other → other.stage.has? = some session → k = n := by
  have once := Nat.le_trans (total_counts s session (has_le_weigh session)) (h session)
  have found : 0 < s.count fun stage => decide (stage.has? = some session) :=
    countP_pos_iff.mpr ⟨call, mem_of_getElem? here, decide_eq_true has⟩
  constructor
  · intro mem
    have idle := count_pos_iff.mpr mem
    omega
  · intro k other there too
    have single : s.calls.countP (fun call => decide (call.stage.has? = some session)) ≤ 1 :=
      Nat.le_trans (Nat.le_add_left _ _) once
    exact position_of_countP_le_one single there here (decide_eq_true too) (decide_eq_true has)

end exclusive

section heeding

variable {n : Nat} {call after : SessionCall}

theorem Condemned.mono {other : SessionCall} (h : s.Condemned other)
    (later : ∀ (a : Nat) (attempt : LoginAttempt), s.attempts[a]? = some attempt →
      attempt.phase.died = true → ∃ now, t.attempts[a]? = some now ∧ now.phase.died = true) :
    t.Condemned other := by
  unfold Condemned at h ⊢
  split
  next stage =>
    rw [stage] at h
    exact h
  next session a stage =>
    rw [stage] at h
    obtain ⟨attempt, there, died⟩ := h
    exact later a attempt there died
  next running logging =>
    split at h
    next session body stage => exact running session body stage
    next session a stage => exact logging session a stage
    next => exact h

theorem Heeding.put (h : Heeding s) (here : s.calls[n]? = some call)
    (calls : t.calls = s.calls.set n after) (attempts : t.attempts = s.attempts)
    (died : ∀ session ∈ t.died, session ∈ s.died ∨ (session ∉ s.pool.idle ∧
      ∀ (k : Nat) (other : SessionCall), s.calls[k]? = some other → other.stage.has? = some session → k = n))
    (idle : ∀ session ∈ t.pool.idle, session ∈ s.pool.idle ∨ session ∉ t.died)
    (leaves : ∀ session a, call.stage = .loggingIn session a →
      ∀ attempt ∈ s.attempts[a]?, attempt.phase.underWay = false) (heedful : call.Heedful → after.Heedful)
    (held : ∀ session, after.stage.has? = some session → session ∈ t.died → s.Condemned after) : Heeding t := by
  refine ⟨?_, ?_, ?_, ?_⟩
  · intro other mem
    rw [calls] at mem
    rcases mem_or_eq_of_mem_set mem with old | new
    · exact h.calls other old
    · rw [new]
      exact heedful (h.calls call (mem_of_getElem? here))
  · intro a attempt there open_
    rw [attempts] at there
    obtain ⟨k, owner, at_k, stage⟩ := h.owned a attempt there open_
    have apart : k ≠ n := by
      intro same
      rw [same, here] at at_k
      rw [← some.inj at_k] at stage
      have settled := leaves _ _ stage attempt there
      cases open_.symm.trans settled
    refine ⟨k, owner, ?_, stage⟩
    rw [calls]
    exact (getElem?_set_iff here).mpr (.inr ⟨apart, at_k⟩)
  · intro session dead now
    rcases idle session now with before | alive
    · rcases died session dead with old | ⟨away, _⟩
      · exact h.idle session old before
      · exact away before
    · exact alive dead
  · intro k other session there has dead
    have same : ∀ (a : Nat) (attempt : LoginAttempt), s.attempts[a]? = some attempt →
        attempt.phase.died = true → ∃ now, t.attempts[a]? = some now ∧ now.phase.died = true :=
      fun a attempt at_a failed => ⟨attempt, attempts ▸ at_a, failed⟩
    rw [calls] at there
    rcases (getElem?_set_iff here).mp there with ⟨_, new⟩ | ⟨apart, old⟩
    · rw [new] at has ⊢
      exact (held session has dead).mono same
    · rcases died session dead with before | ⟨_, only⟩
      · exact (h.held k other session old has before).mono same
      · exact absurd (only k other old has) apart

theorem Heeding.phase (h : Heeding s) (x : Exclusive s) {a : Nat} {attempt : LoginAttempt}
    {phase : LoginPhase} (here : s.attempts[a]? = some attempt) (calls : t.calls = s.calls)
    (pool : t.pool = s.pool) (attempts : t.attempts = s.attempts.set a { attempt with phase })
    (died : ∀ session ∈ t.died, session ∈ s.died ∨
      (session = attempt.session ∧ attempt.phase.underWay = true ∧ phase.died = true))
    (open_ : phase.underWay = true → attempt.phase.underWay = true)
    (dead : attempt.phase.died = true → phase.died = true) : Heeding t := by
  have later : ∀ (b : Nat) (old : LoginAttempt), s.attempts[b]? = some old → old.phase.died = true →
      ∃ now, t.attempts[b]? = some now ∧ now.phase.died = true := by
    intro b old there failed
    rw [attempts]
    by_cases same : b = a
    · rw [same] at there ⊢
      rw [here] at there
      rw [← some.inj there] at failed
      exact ⟨_, (getElem?_set_iff here).mpr (.inl ⟨rfl, rfl⟩), dead failed⟩
    · exact ⟨old, (getElem?_set_iff here).mpr (.inr ⟨same, there⟩), failed⟩
  -- a session that dies in the attempt is held by the call that has begun the attempt
  have alone (under : attempt.phase.underWay = true) : attempt.session ∉ s.pool.idle ∧
      ∀ (k : Nat) (other : SessionCall), s.calls[k]? = some other →
        other.stage.has? = some attempt.session → other.stage = .loggingIn attempt.session a := by
    obtain ⟨n, owner, at_n, stage⟩ := h.owned a attempt here under
    have has : owner.stage.has? = some attempt.session := by rw [stage]; rfl
    have only := x.alone at_n has
    refine ⟨only.1, fun k other there has => ?_⟩
    rw [only.2 k other there has, at_n] at there
    rw [← some.inj there]
    exact stage
  refine ⟨calls ▸ h.calls, ?_, ?_, ?_⟩
  · intro b now there under
    rw [attempts] at there
    rw [calls]
    rcases (getElem?_set_iff here).mp there with ⟨same, new⟩ | ⟨_, old⟩
    · rw [new] at under ⊢
      rw [same]
      exact h.owned a attempt here (open_ under)
    · exact h.owned b now old under
  · intro session now
    rw [pool]
    rcases died session now with old | ⟨same, under, _⟩
    · exact h.idle session old
    · rw [same]
      exact (alone under).1
  · intro k other session there has now
    rw [calls] at there
    rcases died session now with old | ⟨same, under, failed⟩
    · exact (h.held k other session there has old).mono later
    · rw [same] at has
      have stage := (alone under).2 k other there has
      unfold Condemned
      rw [stage, attempts]
      exact ⟨_, (getElem?_set_iff here).mpr (.inl ⟨rfl, rfl⟩), failed⟩

theorem Heeding.same (h : Heeding s) (calls : t.calls = s.calls)
    (idle : ∀ session ∈ t.pool.idle, session ∈ s.pool.idle) (attempts : t.attempts = s.attempts)
    (died : ∀ session ∈ t.died, session ∈ s.died) : Heeding t := by
  refine ⟨calls ▸ h.calls, ?_, ?_, ?_⟩
  · rw [attempts, calls]
    exact h.owned
  · exact fun session dead now => h.idle session (died session dead) (idle session now)
  · intro k other session there has dead
    rw [calls] at there
    exact (h.held k other session there has (died session dead)).mono fun a attempt at_a failed =>
      ⟨attempt, attempts ▸ at_a, failed⟩

theorem Heeding.setPool (h : Heeding s) (pool : SessionPool)
    (idle : ∀ session ∈ pool.idle, session ∈ s.pool.idle) : Heeding (s.setPool pool) :=
  h.same rfl idle rfl fun _ dead => dead

theorem Heeding.wake (h : Heeding s) (q : Queued s) : Heeding s.wake := by
  cases head : s.pool.waiters with
  | nil =>
    apply h.same
    · simp [SlotSystem.wake, head, wakeFirst]
    · exact fun session mem => mem
    · rfl
    · exact fun session dead => dead
  | cons n rest =>
    obtain ⟨call, here, stage⟩ := q.head head
    have calls : s.wake.calls = s.calls.set n { call with stage := .woken } := by
      simp [SlotSystem.wake, head, wakeFirst, modify_eq_set here]
    apply h.put here calls
    · rfl
    · exact fun session dead => .inl dead
    · exact fun session mem => .inl mem
    · intro session a waits
      cases stage.symm.trans waits
    · intro heedful
      exact heedful.move rfl rfl (fun _ => by rw [stage]; rfl) fun _ _ now => by cases now
    · exact fun session has => by cases has

section

variable (h : Heeding s) (here : s.calls[n]? = some call)

include h here

theorem Heeding.alive {session : SessionHandle}
    (has : call.stage.has? = some session) (free : call.stage.attempt? = none)
    (early : call.stage.isEarly = true) : session ∉ s.died := by
  intro dead
  have condemned := h.held n call session here has dead
  unfold Condemned at condemned
  split at condemned
  next stage =>
    rw [stage] at early
    cases early
  next stage =>
    rw [stage] at free
    cases free
  next => exact condemned

theorem Heeding.setCall
    (free : call.stage.attempt? = none) (heedful : call.Heedful → after.Heedful)
    (held : ∀ session, after.stage.has? = some session → session ∉ s.died) : Heeding (s.setCall n after) := by
  apply h.put here
  · rfl
  · rfl
  · exact fun _ dead => .inl dead
  · exact fun _ mem => .inl mem
  · intro session a stage
    rw [stage] at free
    cases free
  · exact heedful
  · exact fun session has dead => absurd dead (held session has)

theorem Heeding.prepare (after : SessionCall)
    (free : call.stage.attempt? = none) (early : call.stage.isEarly = true)
    (operation : after.operation = call.operation) (exposed : after.exposed = call.exposed)
    (still : ∀ session body, after.stage ≠ .running session body)
    (has : ∀ session, after.stage.has? = some session → call.stage.has? = some session) :
    Heeding (s.setCall n after) := by
  apply h.setCall here free
  · exact fun heedful => heedful.move operation exposed (fun _ => early) still
  · exact fun session now => h.alive here (has session now) free early

theorem Heeding.leave (after : SessionCall)
    (free : call.stage.attempt? = none) (operation : after.operation = call.operation)
    (exposed : after.exposed = call.exposed) (early : after.stage.isEarly = false)
    (still : ∀ session body, after.stage ≠ .running session body) : Heeding (s.setCall n after) := by
  apply h.setCall here free
  · intro heedful
    apply heedful.move operation exposed _ still
    intro now
    rw [early] at now
    cases now
  · intro session has
    unfold CallStage.has? at has
    split at has
    next stage =>
      rw [stage] at early
      cases early
    next =>
      cases stage : after.stage with
      | running session body => exact absurd stage (still session body)
      | acquired | loggingIn | authenticated =>
        rw [stage] at early
        cases early
      | _ =>
        rw [stage] at has
        cases has

end

theorem Heeding.turn (h : Heeding s) (here : s.calls[n]? = some call) (stage : call.stage = .woken)
    (turn : AcquireTurn s n call t) : Heeding t := by
  have free : call.stage.attempt? = none := by rw [stage]; rfl
  have early : call.stage.isEarly = true := by rw [stage]; rfl
  cases turn with
  | take session rest top =>
    have inside : ∀ other ∈ session :: rest, other ∈ s.pool.idle := fun _ mem => top ▸ mem
    have taken := h.setPool { s.pool with idle := rest } fun other mem =>
      inside other (mem_cons_of_mem session mem)
    apply taken.setCall here free
    · exact fun heedful => heedful.move rfl rfl (fun _ => early) fun _ _ now => by cases now
    · intro other has dead
      cases has
      exact h.idle session dead (inside session mem_cons_self)
  | claim empty room =>
    have claimed := h.setPool { s.pool with openCount := s.pool.openCount + 1 } fun _ mem => mem
    exact claimed.prepare here _ free early rfl rfl (fun _ _ now => by cases now) fun _ has => by cases has
  | queue empty full =>
    have queued := h.setPool { s.pool with waiters := s.pool.waiters ++ [n] } fun _ mem => mem
    exact queued.prepare here _ free early rfl rfl (fun _ _ now => by cases now) fun _ has => by cases has

theorem Heeding.release {session : SessionHandle} {outcome : Outcome} (h : Heeding s) (q : Queued s)
    (here : s.calls[n]? = some call) (running : call.stage ≠ .waiting)
    (leaves : ∀ session a, call.stage = .loggingIn session a →
      ∀ attempt ∈ s.attempts[a]?, attempt.phase.underWay = false)
    (alive : fatal outcome = none → session ∉ s.died)
    (move : ReleaseMove s n call session outcome t) : Heeding t := by
  cases move with
  | alive healthy =>
    have put := q.put here running { s.pool with idle := session :: s.pool.idle } rfl
      { call with stage := .released outcome, releases := session :: call.releases } (by simp)
    have heeding : Heeding ((s.setPool { s.pool with idle := session :: s.pool.idle }).setCall n
        { call with stage := .released outcome, releases := session :: call.releases }) := by
      apply h.put here
      · rfl
      · rfl
      · exact fun _ dead => .inl dead
      · intro other mem
        rcases mem_cons.mp mem with same | old
        · rw [same]
          exact .inr (alive healthy)
        · exact .inl old
      · exact leaves
      · exact fun heedful => heedful.move rfl rfl (fun now => by cases now) fun _ _ now => by cases now
      · exact fun _ has => by cases has
    exact heeding.wake put
  | dead failure gone =>
    apply h.put here
    · rfl
    · rfl
    · exact fun _ dead => .inl dead
    · exact fun _ mem => .inl mem
    · exact leaves
    · exact fun heedful => heedful.move rfl rfl (fun now => by cases now) fun _ _ now => by cases now
    · exact fun _ has => by cases has

theorem Heeding.add (h : Heeding s) {new : SessionCall} (heedful : new.Heedful)
    (free : new.stage.has? = none) : Heeding (s.addCall new) := by
  refine ⟨?_, ?_, h.idle, ?_⟩
  · intro other mem
    rcases mem_append.mp mem with old | last
    · exact h.calls other old
    · rw [mem_singleton.mp last]
      exact heedful
  · intro a attempt there under
    obtain ⟨k, owner, at_k, stage⟩ := h.owned a attempt there under
    exact ⟨k, owner, getElem?_concat_iff.mpr (.inl at_k), stage⟩
  · intro k other session there has dead
    rcases getElem?_concat_iff.mp there with old | ⟨_, last⟩
    · exact (h.held k other session old has dead).mono fun a attempt at_a failed => ⟨attempt, at_a, failed⟩
    · rw [last, free] at has
      cases has

theorem Heeding.enter {session : SessionHandle} (h : Heeding s) (here : s.calls[n]? = some call)
    (stage : call.stage = .acquired session) (next : CallStage)
    (still : ∀ session body, next ≠ .running session body) (has : next.has? = some session) :
    Heeding (s.setCall n { call with stage := next }) := by
  apply h.prepare here { call with stage := next } (by rw [stage]; rfl) (by rw [stage]; rfl) rfl rfl still
  intro other now
  rw [stage]
  exact has.symm.trans now

theorem Heeding.attempt {session : SessionHandle} (h : Heeding s) (here : s.calls[n]? = some call)
    (stage : call.stage = .acquired session)
    (calls : t.calls = s.calls.set n { call with stage := .loggingIn session s.attempts.length })
    (attempts : t.attempts = s.attempts ++ [⟨session, .pin⟩]) (idle : t.pool.idle = s.pool.idle)
    (died : t.died = s.died) : Heeding t := by
  have entered : Heeding (s.setCall n { call with stage := .loggingIn session s.attempts.length }) :=
    h.enter here stage _ nofun rfl
  refine ⟨calls ▸ entered.calls, ?_, ?_, ?_⟩
  · intro a attempt there under
    rw [attempts] at there
    rw [calls]
    rcases getElem?_concat_iff.mp there with old | ⟨last, new⟩
    · exact entered.owned a attempt old under
    · rw [new, last]
      exact ⟨n, _, (getElem?_set_iff here).mpr (.inl ⟨rfl, rfl⟩), rfl⟩
  · rw [died, idle]
    exact h.idle
  · intro k other held there has dead
    rw [calls] at there
    rw [died] at dead
    refine (entered.held k other held there has dead).mono fun a attempt at_a failed => ⟨attempt, ?_, failed⟩
    rw [attempts]
    exact getElem?_concat_iff.mpr (.inl at_a)

theorem Heeding.drainOn (h : Heeding s) (q : Queued s) (d : Nat) (sessions : List SessionHandle) :
    Heeding (s.drainOn d sessions) := by
  cases sessions with
  | nil =>
    have set : Queued (s.setDrain d .drained) := q.same rfl rfl
    have same : Heeding (s.setDrain d .drained) := h.same rfl (fun _ mem => mem) rfl fun _ dead => dead
    exact same.wake set
  | cons => exact h.same rfl (fun _ mem => mem) rfl fun _ dead => dead

end heeding

section replies

theorem noteReply_attempts (session : SessionHandle) {α : Type} (reply : Except TokenFailure α) :
    (s.noteReply session reply).attempts = s.attempts := by
  unfold noteReply
  split
  · rfl
  · split <;> rfl

theorem noteReply_died {session other : SessionHandle} {α : Type} {reply : Except TokenFailure α}
    (dead : other ∈ (s.noteReply session reply).died) : other ∈ s.died ∨
      (other = session ∧ ∃ failure, reply = .error failure ∧ sessionIsDead failure = true) := by
  unfold noteReply at dead
  split at dead
  · exact .inl dead
  next failure =>
    split at dead
    next gone =>
      rcases mem_cons.mp dead with same | old
      · exact .inr ⟨same, failure, rfl, gone⟩
      · exact .inl old
    next => exact .inl dead

theorem endSession_kept (session : SessionHandle) : (s.endSession session).attempts = s.attempts ∧
    (s.endSession session).died = s.died := by
  unfold endSession
  dsimp only
  split <;> exact ⟨rfl, rfl⟩

theorem heard_stage {call : SessionCall} (session : SessionHandle) {c : TokenCall}
    (replaced : TokenFailure → Bool) (next : Except TokenFailure c.Reply → TokenProgram Unit)
    (reply : Except TokenFailure c.Reply) :
    (call.heard session replaced next reply).stage = .running session (next reply) := by
  unfold SessionCall.heard
  cases reply with
  | ok value => rfl
  | error failure =>
    dsimp only
    split_ifs <;> rfl

theorem heard_of {call : SessionCall} {session : SessionHandle} {c : TokenCall}
    {replaced : TokenFailure → Bool} {next : Except TokenFailure c.Reply → TokenProgram Unit}
    {reply : Except TokenFailure c.Reply} (told : (call.exposed = true ∨ call.hidden = true) ∨
      ∃ failure, reply = .error failure ∧ sessionIsDead failure = true) :
    (call.heard session replaced next reply).exposed = true ∨
      (call.heard session replaced next reply).hidden = true := by
  unfold SessionCall.heard
  cases reply with
  | ok value =>
    rcases told with before | ⟨failure, same, _⟩
    · exact before
    · cases same
  | error failure =>
    dsimp only
    have dead : call.exposed = false → call.hidden = false → sessionIsDead failure = true := by
      intro living unheard
      rcases told with (exposed | hidden) | ⟨other, same, dead⟩
      · cases living.symm.trans exposed
      · cases unheard.symm.trans hidden
      · cases same
        exact dead
    split_ifs
    all_goals
      dsimp only
      revert dead
      cases call.exposed <;> cases call.hidden <;> cases sessionIsDead failure <;> simp

end replies

section step

variable {base64 : Base64}

theorem Heeding.answer {n : Nat} {call : SessionCall} {session : SessionHandle} {c : TokenCall}
    {replaced : TokenFailure → Bool} {next : Except TokenFailure c.Reply → TokenProgram Unit}
    {reply : Except TokenFailure c.Reply} (h : Heeding s) (x : Exclusive s)
    (here : s.calls[n]? = some call) (stage : call.stage = .running session (.call c replaced next)) :
    Heeding ((s.setCall n (call.heard session replaced next reply)).noteReply session reply) := by
  have same := noteReply_same (s.setCall n (call.heard session replaced next reply)) session reply
  have has : call.stage.has? = some session := by rw [stage]; rfl
  apply h.put here same.calls
  · exact noteReply_attempts session reply
  · intro other dead
    rcases noteReply_died dead with old | ⟨own, _⟩
    · exact .inl old
    · rw [own]
      exact .inr (x.alone here has)
  · intro other mem
    rw [same.pool] at mem
    exact .inl mem
  · intro other a waits
    rw [stage] at waits
    cases waits
  · exact fun heedful => heedful.heard stage reply
  · intro other there dead
    rw [heard_stage] at there
    cases there
    unfold Condemned
    rw [heard_stage]
    apply heard_of
    rcases noteReply_died dead with old | ⟨_, failed⟩
    · have condemned := h.held n call session here has old
      unfold Condemned at condemned
      rw [stage] at condemned
      exact .inl condemned
    · exact .inr failed

theorem Heeding.ends_alive {n : Nat} {call : SessionCall} {session : SessionHandle} {outcome : Outcome}
    (h : Heeding s) (heeds : HeedsDeath s (.finish n) t) (here : s.calls[n]? = some call)
    (stage : call.stage = .running session (.done outcome)) (healthy : fatal outcome = none) :
    session ∉ s.died := by
  intro dead
  have condemned := h.held n call session here (by rw [stage]; rfl) dead
  unfold Condemned at condemned
  rw [stage] at condemned
  have exposed : call.exposed = true := condemned.elim id (heeds n rfl call here)
  obtain ⟨pending, carries, doomed⟩ := (h.calls call (mem_of_getElem? here)).body session _ stage
  obtain ⟨failure, mem, gone⟩ := doomed exposed
  rw [carries failure mem] at healthy
  cases (if_pos gone : fatal (.error failure) = some failure).symm.trans healthy

theorem Heeding.refused_alive {n a : Nat} {call : SessionCall} {session : SessionHandle}
    {attempt : LoginAttempt} {outcome : Outcome} {forgotten : Bool} (h : Heeding s)
    (here : s.calls[n]? = some call) (stage : call.stage = .loggingIn session a)
    (there : s.attempts[a]? = some attempt) (phase : attempt.phase = .settled outcome forgotten)
    (healthy : fatal outcome = none) : session ∉ s.died := by
  intro dead
  have condemned := h.held n call session here (by rw [stage]; rfl) dead
  unfold Condemned at condemned
  rw [stage] at condemned
  obtain ⟨other, at_a, failed⟩ := condemned
  rw [there] at at_a
  rw [← some.inj at_a, phase] at failed
  cases outcome with
  | ok => cases failed
  | error failure =>
    have gone : fatal (.error failure) = some failure := if_pos failed
    cases gone.symm.trans healthy

theorem Heeding.setPhase {a : Nat} {attempt : LoginAttempt} {phase : LoginPhase} (h : Heeding s)
    (x : Exclusive s) (here : s.attempts[a]? = some attempt)
    (open_ : phase.underWay = true → attempt.phase.underWay = true)
    (dead : attempt.phase.died = true → phase.died = true) : Heeding (s.setPhase a attempt phase) := by
  apply h.phase x here
  · rfl
  · rfl
  · rfl
  · exact fun _ gone => .inl gone
  · exact open_
  · exact dead

theorem Heeding.tokenLoggedIn {a : Nat} {attempt : LoginAttempt} {secret : JsString} (h : Heeding s)
    (x : Exclusive s) (here : s.attempts[a]? = some attempt) (phase : attempt.phase = .calling secret)
    (reply : Outcome) : Heeding (s.tokenLoggedIn a attempt reply) := by
  have same := tokenLoggedIn_same s a attempt reply
  have attempts : (s.tokenLoggedIn a attempt reply).attempts =
      s.attempts.set a { attempt with phase := .answered reply } := by
    unfold SlotSystem.tokenLoggedIn
    cases reply with
    | ok => rfl
    | error failure => exact noteReply_attempts _ _
  apply h.phase x here same.calls same.pool attempts
  · intro session dead
    unfold SlotSystem.tokenLoggedIn at dead
    cases reply with
    | ok => exact .inl dead
    | error failure =>
      rcases noteReply_died dead with old | ⟨own, other, told, gone⟩
      · exact .inl old
      · cases told
        exact .inr ⟨own, by rw [phase]; rfl, gone⟩
  · intro _
    rw [phase]
    rfl
  · intro failed
    rw [phase] at failed
    cases failed

theorem heedful_new {signal : Option Nat} {operation : TokenProgram Unit} (stage : CallStage)
    (offered : OfProvider base64 s (.acquire signal operation) t)
    (still : ∀ session body, stage ≠ .running session body) :
    SessionCall.Heedful { signal, operation, stage } := by
  obtain ⟨options, chosen, same⟩ := offered operation rfl
  refine ⟨?_, fun _ => rfl, fun session body now => absurd now (still session body)⟩
  rw [same]
  exact chosen.carries base64 options s.slot.mechanisms

theorem Heeding.step {e : SlotEvent} (h : Heeding s) (q : Queued s) (x : Exclusive s)
    (offered : OfProvider base64 s e t) (heeds : HeedsDeath s e t) (hs : s.step e = some t) : Heeding t := by
  cases step_move hs with
  | refuse signal operation reason _ =>
    exact h.add (heedful_new _ offered nofun) rfl
  | begin signal operation _ _ turn =>
    have added := h.add (heedful_new .woken offered nofun) rfl
    exact added.turn getElem?_concat_length rfl turn
  | abort => exact h.same rfl (fun _ mem => mem) rfl fun _ dead => dead
  | opened n call session here stage =>
    have begun : Heeding (s.beginSession session) :=
      h.same rfl (fun _ mem => mem) rfl fun _ dead => (mem_filter.mp dead).1
    have next : Heeding ((s.beginSession session).setCall n { call with stage := .opened (.ok session) }) := by
      apply begun.setCall here (by rw [stage]; rfl)
      · exact fun heedful => heedful.move rfl rfl (fun _ => by rw [stage]; rfl) nofun
      · intro other has dead
        cases has
        exact of_decide_eq_true (mem_filter.mp dead).2 rfl
    exact next
  | notOpened n call failure here stage =>
    exact h.prepare here _ (by rw [stage]; rfl) (by rw [stage]; rfl) rfl rfl nofun nofun
  | obtain n call session here stage =>
    apply h.prepare here (call.obtain session) (by rw [stage]; rfl) (by rw [stage]; rfl) rfl rfl
      nofun
    intro other has
    rw [stage]
    exact has
  | openFailed n call failure here stage =>
    have put := q.put here (by simp [stage]) { s.pool with openCount := s.pool.openCount - 1 } rfl
      { call with stage := .settled (.error failure) } (by simp)
    have refused := h.setPool { s.pool with openCount := s.pool.openCount - 1 } fun _ mem => mem
    have left := refused.leave here { call with stage := .settled (.error failure) }
      (by rw [stage]; rfl) rfl rfl rfl nofun
    exact left.wake put
  | giveUp n call reason here stage aborted =>
    exact h.leave here _ (by rw [stage]; rfl) rfl rfl rfl nofun
  | retry n call _ here stage _ turn => exact h.turn here stage turn
  | pass n call session here stage _ => exact h.enter here stage _ nofun rfl
  | join n call session a here stage _ _ => exact h.enter here stage _ nofun rfl
  | attempt n call session here stage _ _ => exact h.attempt here stage rfl rfl rfl rfl
  | pin a attempt secret here phase =>
    have under : attempt.phase.underWay = true := by rw [phase]; rfl
    unfold pinAnswered
    cases secret with
    | ok secret =>
      have called : Heeding (s.setPhase a attempt (.calling secret)) :=
        h.setPhase x here (fun _ => under) fun failed => by rw [phase] at failed; cases failed
      exact called.same rfl (fun _ mem => mem) rfl fun _ dead => dead
    | error cause =>
      exact h.setPhase x here (fun _ => under) fun failed => by rw [phase] at failed; cases failed
  | tokenLogin a attempt secret reply here phase => exact h.tokenLoggedIn x here phase reply
  | loginReturned a attempt reply here phase =>
    have settled : Heeding (s.setPhase a attempt (.settled reply false)) := by
      apply h.setPhase x here
      · exact nofun
      · rw [phase]
        exact fun failed => by cases reply <;> exact failed
    unfold SlotSystem.loginReturned
    cases reply with
    | ok => exact settled.same rfl (fun _ mem => mem) rfl fun _ dead => dead
    | error failure => exact settled
  | forget a attempt outcome here phase =>
    have settled : Heeding (s.setPhase a attempt (.settled outcome true)) := by
      apply h.setPhase x here
      · exact nofun
      · rw [phase]
        exact fun failed => by cases outcome <;> exact failed
    exact settled.same rfl (fun _ mem => mem) rfl fun _ dead => dead
  | start n call session here stage =>
    apply h.setCall here (by rw [stage]; rfl)
    · exact fun heedful => heedful.start (by rw [stage]; rfl) session
    · intro other has
      cases has
      exact h.alive here (by rw [stage]; rfl) (by rw [stage]; rfl) (by rw [stage]; rfl)
  | startJoined n call session a attempt forgotten here stage shared phase =>
    have alive := h.refused_alive here stage shared phase rfl
    apply h.put here
    · rfl
    · rfl
    · exact fun _ dead => .inl dead
    · exact fun _ mem => .inl mem
    · intro other b waits found there
      cases stage.symm.trans waits
      rw [shared] at there
      rw [← some.inj there, phase]
      rfl
    · exact fun heedful => heedful.start (by rw [stage]; rfl) session
    · intro other has dead
      cases has
      exact absurd dead alive
  | loginFailed n call session a attempt failure forgotten _ here stage shared phase move =>
    apply h.release q here _ _ _ move
    · simp [stage]
    · intro other b waits found there
      cases stage.symm.trans waits
      rw [shared] at there
      rw [← some.inj there, phase]
      rfl
    · exact h.refused_alive here stage shared phase
  | answer n call session c replaced next reply here stage => exact h.answer x here stage
  | finish n call session outcome _ here stage move =>
    apply h.release q here _ _ _ move
    · simp [stage]
    · intro other b waits
      cases stage.symm.trans waits
    · exact h.ends_alive heeds here stage
  | tokenClosed n call session failure _ here stage =>
    have same := closeSession_same s session
    have kept := endSession_kept (s := s) session
    have closed : Heeding (s.closeSession session) :=
      h.same same.calls (fun other mem => same.pool ▸ mem) kept.1 fun other dead => kept.2 ▸ dead
    have still : (s.closeSession session).calls[n]? = some call := same.calls ▸ here
    exact closed.leave still _ (by rw [stage]; rfl) rfl rfl rfl nofun
  | closeReturned n call failure here stage =>
    have put := q.put here (by simp [stage]) s.pool rfl
      { call with stage := .released (.error failure) } (by simp)
    have left := h.leave here { call with stage := .released (.error failure) }
      (by rw [stage]; rfl) rfl rfl rfl nofun
    exact left.wake put
  | settle n call outcome here stage _ =>
    exact h.leave here _ (by rw [stage]; rfl) rfl rfl rfl nofun
  | settleDead n call outcome _ here stage _ =>
    have settled := h.leave here { call with stage := .settled outcome }
      (by rw [stage]; rfl) rfl rfl rfl nofun
    exact settled.same rfl (fun _ mem => mem) rfl fun _ dead => dead
  | drain =>
    have taken : Queued (s.takeIdle.addDrain .drained) := q.same rfl rfl
    have same : Heeding (s.takeIdle.addDrain .drained) :=
      h.same rfl nofun rfl fun _ dead => dead
    exact same.drainOn taken _ _
  | drainClosed d session rest _ here =>
    have same := closeSession_same s session
    have kept := endSession_kept (s := s) session
    exact h.same same.calls (fun other mem => same.pool ▸ mem) kept.1 fun other dead => kept.2 ▸ dead
  | drainReturned d rest here => exact h.drainOn q d rest
  | drainSettled d here => exact h.same rfl (fun _ mem => mem) rfl fun _ dead => dead
  | lost session _ =>
    have same := endSession_same s session
    have kept := endSession_kept (s := s) session
    exact h.same same.calls (fun other mem => same.pool ▸ mem) kept.1 fun other dead => kept.2 ▸ dead

theorem heeding_start {s₀ : SlotSystem} (start : slotMachine.start s₀) : Heeding s₀ := by
  obtain ⟨id, mechanisms, configured, token, _, rfl⟩ := start
  refine ⟨?_, ?_, ?_, ?_⟩
  · exact nofun
  · exact nofun
  · exact nofun
  · exact nofun

/-- While no operation swallows the death of its session, a session on which a call has failed for want of
a living one is never idle again and never handed to another call. -/
theorem dead_session_not_reused {s₀ : SlotSystem} {es : List SlotEvent} (start : slotMachine.start s₀)
    (reached : slotMachine.run s₀ es = some s) (fresh : slotMachine.Along FreshHandle s₀ es)
    (offered : slotMachine.Along (OfProvider base64) s₀ es) (heeds : slotMachine.Along HeedsDeath s₀ es) :
    (∀ session ∈ s.pool.idle, session ∉ s.died) ∧
      ∀ call ∈ s.calls, ∀ session ∈ call.stage.acquired?, session ∉ s.died := by
  have first : Queued s₀ ∧ Exclusive s₀ ∧ Heeding s₀ := by
    refine ⟨?_, ?_, heeding_start start⟩
    · obtain ⟨id, mechanisms, configured, token, _, rfl⟩ := start
      exact (counted_start id mechanisms (sessionBound configured token)).queued
    · obtain ⟨id, mechanisms, configured, token, _, rfl⟩ := start
      exact fun _ => Nat.zero_le 1
  obtain ⟨_, _, heeding⟩ := LabelledMachine.run_invariant_along
    (I := fun s => Queued s ∧ Exclusive s ∧ Heeding s)
    (fun _ _ _ h c hs => ⟨h.1.step hs, h.2.1.step h.1 c.1 hs, h.2.2.step h.1 h.2.1 c.2.1 c.2.2 hs⟩)
    first (LabelledMachine.along_and fresh (LabelledMachine.along_and offered heeds)) reached
  refine ⟨fun session mem dead => heeding.idle session dead mem, ?_⟩
  intro call mem session acquired
  obtain ⟨n, here⟩ := List.mem_iff_getElem?.mp mem
  cases stage : call.stage with
  | acquired other =>
    rw [stage] at acquired
    cases acquired
    exact heeding.alive here (by rw [stage]; rfl) (by rw [stage]; rfl) (by rw [stage]; rfl)
  | _ =>
    rw [stage] at acquired
    cases acquired

end step

section runs

def describing : TokenProgram Unit :=
  TokenOperation.program plainBase64 sealedOptions [] (.describeKey (js "pkcs11:object=k"))

/-- The search for the private key, and the one without a class behind it. -/
def classedSearch : List Attribute :=
  [ulongAttribute AttributeType.Class 3, textAttribute AttributeType.Label (js "k")]

def labelSearch : List Attribute := [textAttribute AttributeType.Label (js "k")]

def deathInSearch : List SlotEvent :=
  [.acquire none describing, .tokenOpens 0 (.ok 7), .openReturns 0, .enter 0,
    .pinAnswers 0 (.ok (js "1234")), .tokenLogsIn 0 (.ok ()), .loginReturns 0, .proceed 0,
    .answer 0 (.findObjects classedSearch) (.error sessionClosed)]

def deathHeard : List SlotEvent :=
  deathInSearch ++ [.answer 0 (.findObjects labelSearch) (.error sessionClosed), .finish 0]

def deathSwallowed : List SlotEvent :=
  deathInSearch ++ [.answer 0 (.findObjects labelSearch) (.ok ([] : List Nat)), .finish 0,
    .acquire none describing]

theorem describing_offered {es : List SlotEvent} (s : SlotSystem)
    (asked : ∀ e ∈ es, ∀ operation ∈ e.operation?, operation = describing) :
    slotMachine.Along (OfProvider plainBase64) s es := by
  apply LabelledMachine.along_of_events
  intro e mem s t operation found
  exact ⟨sealedOptions, .describeKey (js "pkcs11:object=k"), asked e mem operation found⟩

theorem heard_death_not_reused : ∃ s, slotMachine.run oneSession deathHeard = some s ∧ s.died = [7, 7] ∧
    (∀ session ∈ s.pool.idle, session ∉ s.died) ∧
      ∀ call ∈ s.calls, ∀ session ∈ call.stage.acquired?, session ∉ s.died := by
  have finished : (slotMachine.run oneSession deathHeard).isSome = true := by decide
  obtain ⟨s, reached⟩ := Option.isSome_iff_exists.mp finished
  have died : (slotMachine.run oneSession deathHeard).map SlotSystem.died = some [7, 7] := by
    decide
  rw [reached] at died
  have offered := @describing_offered deathHeard oneSession
    (by simp [deathHeard, deathInSearch, SlotEvent.operation?])
  exact ⟨s, reached, Option.some.inj died, dead_session_not_reused oneSession_start reached
    (by decide) offered (by decide)⟩

theorem swallowed_death_reused : ∃ s, slotMachine.run oneSession deathSwallowed = some s ∧
    slotMachine.Along FreshHandle oneSession deathSwallowed ∧
      slotMachine.Along (OfProvider plainBase64) oneSession deathSwallowed ∧
        ∃ call ∈ s.calls, ∃ session ∈ call.stage.acquired?, session ∈ s.died := by
  have finished : (slotMachine.run oneSession deathSwallowed).isSome = true := by decide
  obtain ⟨s, reached⟩ := Option.isSome_iff_exists.mp finished
  have died : (slotMachine.run oneSession deathSwallowed).map SlotSystem.died = some [7] := by
    decide
  have taken : (slotMachine.run oneSession deathSwallowed).map
      (fun s => s.calls.map fun call => call.stage.acquired?) = some [none, some 7] := by decide
  rw [reached] at died taken
  have offered := @describing_offered deathSwallowed oneSession
    (by simp [deathSwallowed, deathInSearch, SlotEvent.operation?])
  have stages : (s.calls.map fun call => call.stage.acquired?) = [none, some 7] := Option.some.inj taken
  have second : some 7 ∈ s.calls.map fun call => call.stage.acquired? := by
    rw [stages]
    exact List.mem_cons_of_mem _ List.mem_cons_self
  obtain ⟨call, mem, acquired⟩ := List.mem_map.mp second
  refine ⟨s, reached, by decide, offered, call, mem, 7, acquired, ?_⟩
  rw [Option.some.inj died]
  exact List.mem_singleton_self 7

end runs

end SlotSystem

end ForgeDeno
