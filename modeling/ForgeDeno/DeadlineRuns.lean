import ForgeDeno.DeadlineTimers

namespace ForgeDeno

open GoforgeWasmRuntime LabelledMachine ExceptRules Option

/-- Call `c` of the run has been made in state `q`, by an invocation that comes to its `try`. -/
def Invoked (r : GoforgeWasmRuntime) (es : List RuntimeEvent) (c : Nat) (q : GoforgeWasmRuntime)
    (options : WasmCallOptions) : Prop :=
  ∃ before operation payload seams after,
    es = before ++ .invoke operation payload options seams :: after ∧
      runtimeMachine.run r before = some q ∧ q.calls.length = c ∧ q.admits options seams = true

/-- What the host promises of the deadline timers of a run: none goes off before it has waited, by
the clock of the runtime. -/
def HostTimers (r : GoforgeWasmRuntime) (es : List RuntimeEvent) : Prop :=
  ∀ before c after s call delay q options, es = before ++ .deadlineFires c :: after →
    runtimeMachine.run r before = some s → s.calls[c]? = some call →
    call.scope.timer = some delay → Invoked r before c q options →
    Elapsed (q.clock q.turn) (hostWait delay) (s.clock s.turn)

def DeadlinesSpanned (r : GoforgeWasmRuntime) (es : List RuntimeEvent) : Prop :=
  ∀ c q options, Invoked r es c q options → q.callerAborted options = false →
    ∀ d, q.effectiveDeadline options = some d → TimerSpans (q.clock q.turn) d

variable {r q t s u : GoforgeWasmRuntime} {es : List RuntimeEvent}

theorem Invoked.append {c : Nat}
    {options : WasmCallOptions} (h : Invoked r es c q options) (fs : List RuntimeEvent) :
    Invoked r (es ++ fs) c q options := by
  obtain ⟨before, operation, payload, seams, after, rfl, reached, made⟩ := h
  exact ⟨before, operation, payload, seams, after ++ fs, by simp, reached, made⟩

theorem timer_origin {c : Nat} {call : Call}
    {delay : JsNumber} (fresh : r.calls = []) (reached : runtimeMachine.run r es = some t)
    (here : t.calls[c]? = some call) (set : call.scope.timer = some delay) :
    ∃ q options d, Invoked r es c q options ∧ q.callerAborted options = false ∧
      q.effectiveDeadline options = some d ∧ call.deadline = some d ∧
      d.le (q.clock q.turn) = false ∧ delay = d.sub (q.clock q.turn) := by
  let Set (u : GoforgeWasmRuntime) (x : JsNumber × Option JsNumber) : Prop :=
    ∃ call : Call, u.calls[c]? = some call ∧ call.scope.timer = some x.1 ∧ call.deadline = x.2
  let Sets (u : GoforgeWasmRuntime) (e : RuntimeEvent) (x : JsNumber × Option JsNumber) : Prop :=
    c = u.calls.length ∧ ∃ operation payload options seams d,
      e = .invoke operation payload options seams ∧ u.admits options seams = true ∧
        u.callerAborted options = false ∧ u.effectiveDeadline options = some d ∧ x.2 = some d ∧
        d.le (u.clock u.turn) = false ∧ x.1 = d.sub (u.clock u.turn)
  have step (s : GoforgeWasmRuntime) (e : RuntimeEvent) (u : GoforgeWasmRuntime)
      (x : JsNumber × Option JsNumber) (_ : True) (h : runtimeMachine.step s e = some u)
      (later : Set u x) : Set s x ∨ Sets s e x := by
    obtain ⟨call, there, set, dated⟩ := later
    cases known : s.calls[c]? with
    | some before =>
      obtain ⟨after, still, ticks⟩ := step_ticks h known
      cases there.symm.trans still
      exact .inl ⟨before, known, ticks.timer.symm.trans set, ticks.deadline.symm.trans dated⟩
    | none =>
      obtain ⟨place, starts | ⟨operation, payload, options, seams, event, admitted, starts⟩⟩ :=
        step_starts h there known
      · cases (starts.timer x.1 set).1
      · obtain ⟨live, d, limit, ahead, delay⟩ := starts.timer x.1 set
        exact .inr ⟨place, operation, payload, options, seams, d, event, admitted, live, limit,
          (dated.symm.trans starts.deadline).trans limit, ahead, delay⟩
  have unset : ¬Set r (delay, call.deadline) := by
    intro ⟨old, there, _⟩
    simp [fresh] at there
  obtain ⟨before, e, after, q, split, run, _, place, operation, payload, options, seams, d, rfl,
      admitted, live, limit, dated, ahead, distance⟩ :=
    run_origin (m := runtimeMachine) (I := fun _ => True) (R := Set) (W := Sets)
      (fun _ _ _ _ _ => trivial) step trivial unset reached ⟨call, here, set, rfl⟩
  exact ⟨q, options, d, ⟨before, operation, payload, seams, after, split, run, place.symm, admitted⟩,
    live, limit, dated, ahead, distance⟩

theorem timer_of_fires {c : Nat} {call : Call}
    (h : s.step (.deadlineFires c) = some u) (here : s.calls[c]? = some call) :
    ∃ delay, call.scope.timer = some delay := by
  obtain ⟨v, done, _⟩ := map_eq_some_iff.mp h
  change s.deadlineFires c = some v at done
  unfold deadlineFires at done
  rw [here, bind_eq_bind, bind_some] at done
  split_ifs at done with set
  exact isSome_iff_exists.mp (Bool.and_eq_true_iff.mp set).1

theorem expires_in_time {before after : List RuntimeEvent}
    {e : RuntimeEvent} {c : Nat} {call : Call} (fresh : r.calls = []) (timers : HostTimers r es)
    (spanned : DeadlinesSpanned r es) (split : es = before ++ e :: after)
    (reached : runtimeMachine.run r before = some s) (h : s.step e = some u)
    (there : u.calls[c]? = some call) (ended : call.expired)
    (first : ∀ earlier, s.calls[c]? = some earlier → ¬earlier.expired) :
    ∃ d, call.deadline = some d ∧ (s.clock s.turn).lt d = false := by
  cases known : s.calls[c]? with
  | none =>
    obtain ⟨place, starts | ⟨operation, payload, options, seams, event, admitted, starts⟩⟩ :=
      step_starts h there known
    · cases (starts.expired ended).1
    · obtain ⟨_, d, limit, passed⟩ := starts.expired ended
      exact ⟨d, starts.deadline.trans limit, not_lt_of_le passed⟩
  | some earlier =>
    obtain ⟨later, still, ticks⟩ := step_ticks h known
    cases there.symm.trans still
    rcases ticks.expired ended with expired | rfl
    · exact absurd expired (first earlier known)
    · obtain ⟨delay, set⟩ := timer_of_fires h known
      obtain ⟨q, options, d, invoked, live, limit, dated, ahead, rfl⟩ :=
        timer_origin fresh reached known set
      have waited := timers before c after s earlier _ q options split reached known set invoked
      have reaches := spanned c q options (split ▸ invoked.append _) live d limit
      exact ⟨d, ticks.deadline.trans dated, not_early reaches ahead waited⟩

theorem new_clock {options : GoforgeWasmRuntimeOptions}
    (constructed : GoforgeWasmRuntime.new options = .ok r) : r.clock = options.now ∧ r.turn = 0 := by
  unfold new at constructed
  obtain ⟨poolSize, _, constructed⟩ := bind_ok.mp constructed
  simp only at constructed
  split at constructed
  · obtain ⟨_, _, constructed⟩ := bind_ok.mp constructed
    obtain ⟨retry, _, constructed⟩ := bind_ok.mp constructed
    cases pure_ok.mp constructed
    exact ⟨rfl, rfl⟩
  · obtain ⟨retry, _, constructed⟩ := bind_ok.mp constructed
    cases pure_ok.mp constructed
    exact ⟨rfl, rfl⟩

theorem run_clock
    (reached : runtimeMachine.run r es = some t) : t.clock = r.clock ∧ r.turn ≤ t.turn := by
  refine run_invariant (m := runtimeMachine)
    (I := fun u => u.clock = r.clock ∧ r.turn ≤ u.turn) (fun s e u h stepped => ?_)
    ⟨rfl, Nat.le_refl _⟩ reached
  refine (step_moves stepped).invariant
    (I := fun u => u.clock = r.clock ∧ r.turn ≤ u.turn) (fun s u h move => ?_) h
  refine ⟨(move_sameHost move).clock.trans h.1, ?_⟩
  rcases move_turn move with same | rfl
  · rw [same]
    exact h.2
  · exact Nat.le_succ_of_le h.2

theorem deadline_given {c : Nat}
    {options : WasmCallOptions} {call : Call} (invoked : Invoked r es c q options)
    (reached : runtimeMachine.run r es = some t) (here : t.calls[c]? = some call) :
    call.deadline = q.effectiveDeadline options := by
  obtain ⟨before, operation, payload, seams, after, rfl, run, place, admitted⟩ := invoked
  have rest : runtimeMachine.run q (.invoke operation payload options seams :: after) = some t := by
    rw [run_append, run] at reached
    exact reached
  obtain ⟨u, stepped, rest⟩ := run_cons_some rest
  change (some (q.invoke operation payload options seams)).map nextTurn = some u at stepped
  have eq := some.inj stepped
  obtain ⟨made, added, starts⟩ :=
    invoke_starts (r := q) operation payload options seams
  have given : made.deadline = q.effectiveDeadline options := by
    rcases starts with ⟨refused, _⟩ | ⟨_, starts⟩
    · cases admitted.symm.trans refused
    · exact starts.deadline
  have there : u.calls[c]? = some made := by
    rw [← eq, ← place]
    change (q.invoke operation payload options seams).calls[q.calls.length]? = some made
    rw [added]
    simp
  obtain ⟨last, final, same⟩ := run_invariant (m := runtimeMachine)
    (I := fun u => ∃ call : Call, u.calls[c]? = some call ∧ call.deadline = q.effectiveDeadline options)
    (fun s e u h stepped => by
      obtain ⟨call, known, same⟩ := h
      obtain ⟨later, still, ticks⟩ := step_ticks stepped known
      exact ⟨later, still, ticks.deadline.trans same⟩)
    ⟨made, there, given⟩ rest
  cases here.symm.trans final
  exact same

/-- A timer that reaches its deadline lets no call expire before it, and the deadline of a call is
the earliest of those it has been given. -/
theorem deadlines_kept {options : GoforgeWasmRuntimeOptions} {r t : GoforgeWasmRuntime}
    {es : List RuntimeEvent} (constructed : GoforgeWasmRuntime.new options = .ok r)
    (reached : runtimeMachine.run r es = some t) (timers : HostTimers r es) (spanned : DeadlinesSpanned r es) :
    (∀ c q given call, Invoked r es c q given → t.calls[c]? = some call →
      call.deadline = q.effectiveDeadline given) ∧
    (∀ (before after : List RuntimeEvent) (e : RuntimeEvent) (s u : GoforgeWasmRuntime) (c : Nat)
      (call : Call), es = before ++ e :: after → runtimeMachine.run r before = some s →
      runtimeMachine.step s e = some u → u.calls[c]? = some call → call.expired →
      (∀ earlier : Call, s.calls[c]? = some earlier → ¬earlier.expired) →
      ∃ d, call.deadline = some d ∧ (s.clock s.turn).lt d = false) ∧
    ((∀ i j, i ≤ j → (r.clock i).le (r.clock j) = true) →
      ∀ (c : Nat) (call : Call), t.calls[c]? = some call → call.expired →
        ∃ d, call.deadline = some d ∧ (t.clock t.turn).lt d = false) := by
  have fresh : r.calls = [] := (GoforgeWasmRuntime.new_fresh constructed).calls
  refine ⟨fun c q given call invoked here => deadline_given invoked reached here,
    fun before after e s u c call split run stepped there ended first =>
      expires_in_time fresh timers spanned split run stepped there ended first,
    fun forward c call here ended => ?_⟩
  let Over (u : GoforgeWasmRuntime) (x : Option JsNumber) : Prop :=
    ∃ call : Call, u.calls[c]? = some call ∧ call.expired ∧ call.deadline = x
  have unmade : ¬Over r call.deadline := by
    intro ⟨old, there, _⟩
    simp [fresh] at there
  obtain ⟨before, e, after, s, split, run, first, u, stepped, last, there, expired, same⟩ :=
    LabelledMachine.run_origin (m := runtimeMachine) (I := fun _ => True) (R := Over)
      (W := fun s e x => ∃ u, runtimeMachine.step s e = some u ∧ Over u x)
      (fun _ _ _ _ _ => trivial) (fun s e u x _ h later => Or.inr ⟨u, h, later⟩) trivial unmade
      reached ⟨call, here, ended, rfl⟩
  have unexpired (earlier : Call) (known : s.calls[c]? = some earlier) : ¬earlier.expired := by
    intro already
    obtain ⟨later, still, ticks⟩ := GoforgeWasmRuntime.step_ticks stepped known
    cases there.symm.trans still
    exact first ⟨earlier, known, already, ticks.deadline.symm.trans same⟩
  obtain ⟨d, dated, onTime⟩ :=
    expires_in_time fresh timers spanned split run stepped there expired unexpired
  refine ⟨d, same.symm.trans dated, ?_⟩
  have rest : runtimeMachine.run s (e :: after) = some t := by
    rw [split, LabelledMachine.run_append, run] at reached
    exact reached
  have clocks := (run_clock reached).1.trans (run_clock run).1.symm
  have later : (s.clock s.turn).le (t.clock t.turn) = true := by
    rw [clocks, (run_clock run).1]
    exact forward s.turn t.turn (run_clock rest).2
  by_contra early
  have below : (t.clock t.turn).lt d = true := by simpa using early
  rw [le_lt_trans later below] at onTime
  cases onTime

theorem ofInt_whole {n : Nat} (small : n < 2 ^ 53) :
    ∃ z : Double, JsNumber.ofInt n = .finite z ∧ z.toRat = (n : Int) := by
  by_cases zero : n = 0
  · rw [zero]
    exact ⟨.zero false, rfl, by simp [Double.toRat, Double.magnitude, Double.zero]⟩
  · exact JsNumber.ofRat_intCast (m := n) (e := 0) (by omega) (by simp) small (by omega) false

theorem elapsed_whole {start wait reading : Nat} (small : reading < 2 ^ 53) (waited : start + wait ≤ reading) :
    Elapsed (JsNumber.ofInt start) wait (JsNumber.ofInt reading) := by
  obtain ⟨x, first, low⟩ := ofInt_whole (n := start) (by omega)
  obtain ⟨z, second, high⟩ := ofInt_whole small
  rw [first, second]
  intro y same
  cases same
  rw [low, high]
  exact_mod_cast waited

def timedRun (timeoutMs : JsNumber) : List RuntimeEvent :=
  [.invoke (js "crypto.sha256") .null { WasmCallOptions.empty with timeoutMs := some timeoutMs } .calm,
    .deadlineFires 0, .resume 0 .calm]

theorem hostTimers_timedRun {timeoutMs : JsNumber}
    (run : runtimeMachine.run r ((timedRun timeoutMs).take 1) = some s)
    (waits : ∀ call delay, s.calls[0]? = some call → call.scope.timer = some delay →
      Elapsed (r.clock r.turn) (hostWait delay) (s.clock s.turn)) : HostTimers r (timedRun timeoutMs) := by
  intro before c after s' call delay q options split reached here set invoked
  unfold timedRun at split
  rcases before with _ | ⟨e, _ | ⟨f, _ | ⟨g, rest⟩⟩⟩
  · cases split
  · obtain ⟨rfl, tail⟩ := List.cons.inj split
    cases tail
    cases run.symm.trans reached
    obtain ⟨earlier, operation, payload, seams, later, once, start, _⟩ := invoked
    have none_before : earlier = [] := by
      cases earlier with
      | nil => rfl
      | cons => simp at once
    rw [none_before] at start
    cases start
    exact waits call delay here set
  · obtain ⟨_, tail⟩ := List.cons.inj split
    obtain ⟨_, tail⟩ := List.cons.inj tail
    cases tail
  · simp at split

/-- A timeout of `2 ^ 31` milliseconds fails the call while the clock still shows 0. -/
theorem distant_deadline_expires : ∃ r t call, GoforgeWasmRuntime.new (.defaults fun _ => 0) = .ok r ∧
      runtimeMachine.run r (timedRun 2147483648) = some t ∧ HostTimers r (timedRun 2147483648) ∧
      (∀ i j, i ≤ j → (r.clock i).le (r.clock j) = true) ∧ t.calls[0]? = some call ∧
      call.phase = .settled (.error (.wasm wasmDeadlineExceededError)) ∧ call.expired ∧
      call.deadline = some 2147483648 ∧ (t.clock t.turn).lt 2147483648 = true := by
  have shows : (GoforgeWasmRuntimeOptions.defaults fun _ => 0).shows (timedRun 2147483648) (fun t =>
      (t.calls[0]?).any fun call => decide (
        call.phase.failure? = some (.wasm wasmDeadlineExceededError) ∧
        call.scope.reason = some wasmDeadlineExceededError ∧ call.deadline = some 2147483648)) =
      true := by decide +kernel
  have sets : (GoforgeWasmRuntimeOptions.defaults fun _ => 0).shows
      ((timedRun 2147483648).take 1) (fun s => (s.calls[0]?).all fun call =>
        call.scope.timer.all fun delay => hostWait delay = 0) = true := by decide +kernel
  obtain ⟨r, t, constructed, reached, holds⟩ := run_of_shows shows
  obtain ⟨r', s, again, run, waits⟩ := run_of_shows sets
  cases constructed.symm.trans again
  obtain ⟨call, here, holds⟩ := (Option.any_eq_true _ _).mp holds
  obtain ⟨failed, ended, dated⟩ := of_decide_eq_true holds
  have zero : r.clock = fun _ => 0 := (new_clock constructed).1
  have clocks : t.clock = fun _ => 0 := (run_clock reached).1.trans zero
  refine ⟨r, t, call, constructed, reached, hostTimers_timedRun run fun call delay known set => ?_,
    fun i j _ => ?_, here, CallPhase.failure?_eq.mp failed, ended, dated, ?_⟩
  · rw [known, Option.all_some, set, Option.all_some, decide_eq_true_eq] at waits
    rw [waits, zero, (run_clock run).1, zero]
    have none_waited : Elapsed (JsNumber.ofInt (0 : Nat)) 0 (JsNumber.ofInt (0 : Nat)) :=
      elapsed_whole (by decide) (by decide)
    exact none_waited
  · rw [zero]
    change JsNumber.le 0 0 = true
    decide +kernel
  · rw [clocks]
    change JsNumber.lt 0 2147483648 = true
    decide +kernel

theorem invoked_timedRun {timeoutMs : JsNumber} {c : Nat}
    {options : WasmCallOptions} (invoked : Invoked r (timedRun timeoutMs) c q options) :
    q = r ∧ options = { WasmCallOptions.empty with timeoutMs := some timeoutMs } := by
  obtain ⟨before, operation, payload, seams, after, split, run, _⟩ := invoked
  unfold timedRun at split
  rcases before with _ | ⟨e, _ | ⟨f, _ | ⟨g, rest⟩⟩⟩
  · obtain ⟨event, _⟩ := List.cons.inj split
    cases event
    exact ⟨(some.inj run).symm, rfl⟩
  · obtain ⟨_, tail⟩ := List.cons.inj split
    cases tail
  · obtain ⟨_, tail⟩ := List.cons.inj split
    obtain ⟨_, tail⟩ := List.cons.inj tail
    cases tail
  · simp at split

/-- A timeout of 10 milliseconds, and a clock that shows 10 when the timer goes off. -/
theorem near_deadline_kept :
    ∃ r t call, GoforgeWasmRuntime.new (.defaults fun turn => if turn = 0 then 0 else 10) = .ok r ∧
      runtimeMachine.run r (timedRun 10) = some t ∧ t.calls[0]? = some call ∧ call.expired ∧
      ∃ d, call.deadline = some d ∧ (t.clock t.turn).lt d = false := by
  have shows : (GoforgeWasmRuntimeOptions.defaults fun turn => if turn = 0 then 0 else 10).shows
      (timedRun 10) (fun t => (t.calls[0]?).any fun call =>
        decide (call.scope.reason = some wasmDeadlineExceededError)) = true := by decide +kernel
  have sets : (GoforgeWasmRuntimeOptions.defaults fun turn => if turn = 0 then 0 else 10).shows
      ((timedRun 10).take 1) (fun s => decide (s.turn = 1) && (s.calls[0]?).all fun call =>
        call.scope.timer.all fun delay => hostWait delay = 10) = true := by decide +kernel
  obtain ⟨r, t, constructed, reached, holds⟩ := run_of_shows shows
  obtain ⟨r', s, again, run, waits⟩ := run_of_shows sets
  cases constructed.symm.trans again
  obtain ⟨call, here, ended⟩ := (Option.any_eq_true _ _).mp holds
  obtain ⟨shown, start⟩ := new_clock constructed
  obtain ⟨second, waits⟩ := Bool.and_eq_true_iff.mp waits
  have timers : HostTimers r (timedRun 10) := hostTimers_timedRun run fun call delay known set => by
    rw [known, Option.all_some, set, Option.all_some, decide_eq_true_eq] at waits
    rw [waits, (run_clock run).1, of_decide_eq_true second, start, shown]
    have ten_waited : Elapsed (JsNumber.ofInt (0 : Nat)) 10 (JsNumber.ofInt (10 : Nat)) :=
      elapsed_whole (by decide) (by decide)
    exact ten_waited
  have spanned : DeadlinesSpanned r (timedRun 10) := fun c q options invoked _ d limit => by
    obtain ⟨same, rfl⟩ := invoked_timedRun invoked
    unfold GoforgeWasmRuntime.effectiveDeadline deadlineFloors at limit
    rw [same, start, shown] at limit ⊢
    have ten : earliest [(JsNumber.add 0 10).floor] = some 10 := by decide +kernel
    have same : some d = some 10 := limit.symm.trans ten
    obtain ⟨x, zero, low⟩ := ofInt_whole (n := 0) (by decide)
    obtain ⟨y, ten, high⟩ := ofInt_whole (n := 10) (by decide)
    cases same
    change TimerSpans (JsNumber.ofInt (0 : Nat)) (JsNumber.ofInt (10 : Nat))
    rw [zero, ten]
    exact (timerSpans_whole (m := 0) (n := 10) low high).mpr (by decide)
  have forward (i j : Nat) (le : i ≤ j) : (r.clock i).le (r.clock j) = true := by
    rw [shown]
    by_cases first : i = 0
    · by_cases second : j = 0
      · rw [first, second]
        change JsNumber.le 0 0 = true
        decide +kernel
      · have shows : (if j = 0 then (0 : JsNumber) else 10) = 10 := if_neg second
        rw [first]
        change JsNumber.le 0 (if j = 0 then 0 else 10) = true
        rw [shows]
        decide +kernel
    · have later : (if j = 0 then (0 : JsNumber) else 10) = 10 := if_neg (by omega)
      have early : (if i = 0 then (0 : JsNumber) else 10) = 10 := if_neg first
      change JsNumber.le (if i = 0 then 0 else 10) (if j = 0 then 0 else 10) = true
      rw [early, later]
      decide +kernel
  have reason : call.scope.reason = some wasmDeadlineExceededError := of_decide_eq_true ended
  exact ⟨r, t, call, constructed, reached, here, reason,
    (deadlines_kept constructed reached timers spanned).2.2 forward 0 call here reason⟩

end ForgeDeno
