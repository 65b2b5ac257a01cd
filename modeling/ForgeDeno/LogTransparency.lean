import ForgeDeno.LogMiddleware

namespace ForgeDeno

open Program

variable {W E V Res Entry : Type}

def logged (host : LogHost W E V Res) (next : Program W E Res)
    (onReply : JsNumber → Res → Program (Journal W V) E Unit)
    (onError : JsNumber → E → Program (Journal W V) E Unit) : Program (Journal W V) E Res := do
  let start ← outside host.performanceNow
  handle
    (do
      let res ← outside next
      onReply start res
      pure res)
    fun err => do
      onError start err
      Program.lift (.error err)

/-- The handler resolves to what `next` has produced or rejects with what `next` has raised, and
makes at most one logger call. -/
def Transparent (host : LogHost W E V Res) (next : Program W E Res)
    (handler : Program (Journal W V) E Res) (w : W) : Prop :=
  (handler.run ⟨w, []⟩).1 = (next.run (host.now w).2).1 ∧ (handler.run ⟨w, []⟩).2.calls.length ≤ 1

/-- The log step that follows a reply does not throw, and one that follows an error throws nothing
but that error. -/
def Quiet (host : LogHost W E V Res) (next : Program W E Res)
    (onReply : JsNumber → Res → Program W E Unit) (onError : JsNumber → E → Program W E Unit) (w : W) : Prop :=
  match next.run (host.now w).2 with
  | (.ok res, after) => ((onReply (host.now w).1 res).run after).1 = .ok ()
  | (.error err, after) => ∀ e, ((onError (host.now w).1 err).run after).1 = .error e → e = err

structure LogStep (p : Program (Journal W V) E Unit) (q : Program W E Unit) : Prop where
  once : ∀ journal, (p.run journal).2.calls.length ≤ journal.calls.length + 1
  ends : ∀ journal, (p.run journal).1 = (q.run journal.world).1

section step

variable {α : Type} {p : Program W E α} {host : LogHost W E V Res}
  {logger : Logger W E V Entry}

theorem LogStep.nothing : LogStep (pure () : Program (Journal W V) E Unit) (pure ()) :=
  ⟨fun _ => Nat.le_succ _, fun _ => rfl⟩

theorem LogStep.call (call : LoggerCall V) :
    LogStep (callLogger host logger call) (logger.log host call.level call.message call.details) := by
  constructor
  · intro journal
    have appended : ((callLogger host logger call).run journal).2.calls = journal.calls ++ [call] := rfl
    rw [appended, List.length_append, List.length_singleton]
  · intro journal
    rfl

theorem LogStep.after {f : α → Program (Journal W V) E Unit} {g : α → Program W E Unit}
    (h : ∀ a, LogStep (f a) (g a)) : LogStep (outside p >>= f) (p >>= g) := by
  constructor
  · intro journal
    rcases ran : p.run journal.world with ⟨result, w⟩
    have out : (outside (V := V) p).run journal = (result, ⟨w, journal.calls⟩) := by
      show ((p.run journal.world).1, _) = _
      rw [ran]
    cases result with
    | ok a =>
      rw [run_bind_ok out]
      exact (h a).once _
    | error e =>
      rw [run_bind_error out]
      exact Nat.le_succ _
  · intro journal
    rcases ran : p.run journal.world with ⟨result, w⟩
    have out : (outside (V := V) p).run journal = (result, ⟨w, journal.calls⟩) := by
      show ((p.run journal.world).1, _) = _
      rw [ran]
    cases result with
    | ok a =>
      rw [run_bind_ok out, run_bind_ok ran]
      exact (h a).ends _
    | error e => rw [run_bind_error out, run_bind_error ran]

end step

section logged

variable {host : LogHost W E V Res} {next : Program W E Res} {w : W}
  {onReply : JsNumber → Res → Program (Journal W V) E Unit}
  {onError : JsNumber → E → Program (Journal W V) E Unit}
  {reply : JsNumber → Res → Program W E Unit} {failure : JsNumber → E → Program W E Unit}

theorem logged_run : (logged host next onReply onError).run ⟨w, []⟩ =
    (handle
      (do
        let res ← outside next
        onReply (host.now w).1 res
        pure res)
      fun err => do
        onError (host.now w).1 err
        Program.lift (.error err)).run ⟨(host.now w).2, []⟩ := rfl

theorem logged_reply {res : Res} {after : W} (ran : next.run (host.now w).2 = (.ok res, after)) :
    (logged host next onReply onError).run ⟨w, []⟩ =
      match (onReply (host.now w).1 res).run ⟨after, []⟩ with
      | (.ok _, journal) => (.ok res, journal)
      | (.error e, journal) =>
        ((onError (host.now w).1 e >>= fun _ => Program.lift (.error e)).run journal) := by
  have out : (outside (V := V) next).run ⟨(host.now w).2, []⟩ = (.ok res, ⟨after, []⟩) := by
    show ((next.run (host.now w).2).1, _) = _
    rw [ran]
  rw [logged_run]
  rcases log : (onReply (host.now w).1 res).run ⟨after, []⟩ with ⟨_ | _, journal⟩
  · exact run_handle_error (by rw [run_bind_ok out, run_bind_error log])
  · refine run_handle_ok ?_
    rw [run_bind_ok out, run_bind_ok log]
    rfl

theorem logged_error {err : E} {after : W} (ran : next.run (host.now w).2 = (.error err, after)) :
    (logged host next onReply onError).run ⟨w, []⟩ =
      (onError (host.now w).1 err >>= fun _ => Program.lift (.error err)).run ⟨after, []⟩ := by
  have out : (outside (V := V) next).run ⟨(host.now w).2, []⟩ = (.error err, ⟨after, []⟩) := by
    show ((next.run (host.now w).2).1, _) = _
    rw [ran]
  rw [logged_run]
  exact run_handle_error (run_bind_error out)

variable {p : Program (Journal W V) E Unit}

theorem rethrown_not_ok {e : E} {journal : Journal W V}
    {res : Res} : ((p >>= fun _ => Program.lift (.error e)).run journal).1 ≠ .ok res := by
  rcases ran : p.run journal with ⟨_ | _, after⟩
  · rw [run_bind_error ran]
    exact nofun
  · rw [run_bind_ok ran]
    exact nofun

theorem rethrown_iff {e : E} {journal : Journal W V} :
    ((p >>= fun _ => (Program.lift (.error e) : Program (Journal W V) E Res)).run journal).1 = .error e ↔
      ∀ e', (p.run journal).1 = .error e' → e' = e := by
  rcases ran : p.run journal with ⟨e' | _, after⟩
  · rw [run_bind_error ran]
    exact ⟨fun h e'' eq => (Except.error.inj eq).symm.trans (Except.error.inj h),
      fun h => congrArg Except.error (h e' rfl)⟩
  · rw [run_bind_ok ran]
    exact iff_of_true rfl nofun

theorem rethrown_calls {e : E} {journal : Journal W V} :
    ((p >>= fun _ => (Program.lift (.error e) : Program (Journal W V) E Res)).run journal).2 =
      (p.run journal).2 := by
  rcases ran : p.run journal with ⟨_ | _, after⟩
  · rw [run_bind_error ran]
  · rw [run_bind_ok ran]
    rfl

theorem logged_transparent_iff (replies : ∀ start res, LogStep (onReply start res) (reply start res))
    (failures : ∀ start e, LogStep (onError start e) (failure start e)) :
    Transparent host next (logged host next onReply onError) w ↔ Quiet host next reply failure w := by
  unfold Transparent Quiet
  rcases ran : next.run (host.now w).2 with ⟨err | res, after⟩
  · have step := failures (host.now w).1 err
    have once := step.once ⟨after, []⟩
    rw [logged_error ran, rethrown_iff, rethrown_calls, step.ends]
    exact and_iff_left once
  · have step := replies (host.now w).1 res
    have once := step.once ⟨after, []⟩
    have ends := step.ends ⟨after, []⟩
    rw [logged_reply ran]
    rcases log : (onReply (host.now w).1 res).run ⟨after, []⟩ with ⟨e | _, journal⟩
    · rw [log] at ends
      refine iff_of_false (fun h => rethrown_not_ok h.1) fun h => ?_
      have both : (Except.error e : Except E Unit) = .ok () := ends.trans h
      cases both
    · rw [log] at ends once
      exact iff_of_true ⟨rfl, once⟩ ends.symm

end logged

/-- The part of a log step of `httpLogger` that runs outside it: the entry of an outcome is built and
handed to the logger. -/
def httpRecord (host : LogHost W E V Res) (logger : Logger W E V Entry)
    (options : HttpLogEntryOptions W E V Res) (req : HttpRequest E V) (startedAt : JsNumber)
    (outcome : HttpLogOutcome E Res) : Program W E Unit := do
  let entry ← buildHttpLogEntry host req outcome { options with startedAt := some startedAt }
  match entry with
  | none => pure ()
  | some entry =>
    logger.log host (if entry.level = .error then .error else .info) entry.message entry.details

/-- The same for a reply under `grpcLogger`. -/
def grpcRecord (host : LogHost W E V Res) (logger : Logger W E V Entry) (method : JsString)
    (start : JsNumber) : Program W E Unit := do
  let latency ← elapsed host start
  logger.log host .info (js "grpc.request") [(js "method", host.string method),
    (js "status", host.string (js "OK")), (js "latency", latency)]

/-- The same for an error under `grpcLogger`. -/
def grpcErrorRecord (host : LogHost W E V Res) (logger : Logger W E V Entry) (method : JsString)
    (start : JsNumber) (err : E) : Program W E Unit := do
  let latency ← elapsed host start
  let text ← host.errorText err
  logger.log host .error (js "grpc.request.error")
    [(js "method", host.string method), (js "latency", latency), (js "error", text)]

section middlewares

variable (host : LogHost W E V Res) (logger : Logger W E V Entry)

theorem logHttpOutcome_step (options : HttpLogEntryOptions W E V Res) (req : HttpRequest E V)
    (start : JsNumber) (outcome : HttpLogOutcome E Res) :
    LogStep (logHttpOutcome host logger options start req outcome)
      (httpRecord host logger options req start outcome) := by
  refine LogStep.after fun entry => ?_
  cases entry with
  | none => exact .nothing
  | some entry =>
    unfold emit
    by_cases failed : entry.level = .error
    · simp only [if_pos failed]
      exact .call ⟨.error, entry.message, entry.details⟩
    · simp only [if_neg failed]
      exact .call ⟨.info, entry.message, entry.details⟩

theorem logGrpcReply_step (method : JsString) (start : JsNumber) :
    LogStep (logGrpcReply host logger start method) (grpcRecord host logger method start) :=
  LogStep.after fun _ => .call _

theorem logGrpcError_step (method : JsString) (start : JsNumber) (err : E) :
    LogStep (logGrpcError host logger start method err) (grpcErrorRecord host logger method start err) :=
  LogStep.after fun _ => LogStep.after fun _ => .call _

/-- Both middlewares are transparent exactly where the record of the outcome can be built and logged
without an exception, or where what is thrown for an error is that error. -/
theorem middlewares_transparent_iff (options : HttpLogEntryOptions W E V Res)
    (next : HttpRequest E V → Program W E Res) (req : HttpRequest E V) (method : JsString)
    (call : Program W E Res) (w : W) : (Transparent host (next req) (httpLogger host logger options next req) w ↔
      Quiet host (next req) (fun start res => httpRecord host logger options req start (.response res))
        (fun start err => httpRecord host logger options req start (.error err none)) w) ∧
    (Transparent host call (grpcLogger host logger method call) w ↔
      Quiet host call (fun start _ => grpcRecord host logger method start)
        (fun start err => grpcErrorRecord host logger method start err) w) := by
  constructor
  · exact logged_transparent_iff (fun start res => logHttpOutcome_step host logger options req start _)
      (fun start err => logHttpOutcome_step host logger options req start _)
  · exact logged_transparent_iff (fun start _ => logGrpcReply_step host logger method start)
      (fun start err => logGrpcError_step host logger method start err)

end middlewares

def calmHost : LogHost Unit String Unit Unit where
  now w := (0, w)
  activeSpanContext _ := none
  getRequestContext _ _ := none
  testMode _ := false
  traceCaller _ := ⟨[], 0⟩
  errorText _ := pure ()
  status _ := 0
  string _ := ()
  number _ := ()
  array _ := ()
  record _ := ()
  number? _ := none

def brokenLogger : Logger Unit String Unit Unit where
  level := .info
  base := []
  omitIgnoredHeaders := pure
  buildEntry _ _ _ _ := pure ()
  sanitize := pure
  format _ := pure []
  sink _ := .lift (.error "disk full")

def plainRequest : HttpRequest String Unit := ⟨js "/", js "GET", (), fun _ => .ok none⟩

def defaultOptions : HttpLogEntryOptions Unit String Unit Unit := ⟨none, [], none, none, none, none⟩

/-- The handler answers, its record cannot be written, and the caller gets the sink's error, after two
calls of the logger. -/
theorem sink_error_replaces_response :
    let handler := httpLogger calmHost brokenLogger defaultOptions (fun _ => pure ()) plainRequest
    (handler.run ⟨(), []⟩).1 = .error "disk full" ∧ (handler.run ⟨(), []⟩).2.calls.length = 2 ∧
      ¬ Transparent calmHost (pure ()) handler () := by
  refine ⟨rfl, rfl, fun h => ?_⟩
  have replaced : (Except.error "disk full" : Except String Unit) = .ok () := h.1
  cases replaced

end ForgeDeno
