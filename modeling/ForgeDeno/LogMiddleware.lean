import ForgeDeno.JsValue
import ForgeDeno.ProgramRules

def JsNumber.round : JsNumber → JsNumber
  | .finite x => ofRat ⌊x.toRat + 1 / 2⌋ x.negative
  | x => x

namespace ForgeDeno

/-- Normalizes latency values to finite, non-negative integer milliseconds; `none` is no number. -/
def normalizeLatency : Option JsNumber → JsNumber
  | none => 0
  | some value => if !value.isFinite || value.le 0 then 0 else value.round

inductive LogLevel where
  | debug
  | info
  | warn
  | error
deriving DecidableEq

def LogLevel.value : LogLevel → Int
  | .debug => -4
  | .info => 0
  | .warn => 4
  | .error => 8

structure SpanContext where
  traceId : JsString
  spanId : JsString

/-- What `traceCaller` finds on the stack. -/
structure Caller where
  method : JsString
  line : Nat

/-- The own properties of an object that user code has built; reading one may run user code. -/
abbrev Readable (W E V : Type) : Type := List (JsString × Program W E V)

abbrev Details (V : Type) : Type := List (JsString × V)

def spread {W E V : Type} : Readable W E V → Program W E (Details V)
  | [] => pure []
  | (key, read) :: rest => do
    let value ← read
    let copied ← spread rest
    pure ((key, value) :: copied)

def merge {V : Type} (first second : Details V) : Details V :=
  second.foldl (fun members member => setMember members member.1 member.2) first

/-- A `Process`, as the value it is and by its properties. -/
structure ProcessItem (W E V : Type) where
  value : V
  properties : Readable W E V

structure StoredHttpContext (W E V : Type) where
  requestId : Option JsString
  startedAt : Option JsNumber
  attributes : Readable W E V
  process : Option (List (ProcessItem W E V))
  skipLogging : Bool

structure HttpRequest (E V : Type) where
  /-- `new URL(request.url).pathname` -/
  pathname : JsString
  method : JsString
  headers : V
  /-- `request.headers.get(name)`, which throws where the name is none of a header -/
  header : JsString → Except E (Option JsString)

inductive HttpLogOutcome (E Res : Type) where
  | response (response : Res)
  | error (error : E) (status : Option JsNumber)

/-- A regular expression is tested from the start of the path, without its flags `g` and `y`. -/
inductive PathMatcher where
  | exact (pathname : JsString)
  | pattern (test : JsString → Bool)

structure HttpLogEntryOptions (W E V Res : Type) where
  requestIdHeader : Option JsString
  skipPaths : List PathMatcher
  shouldLog : Option (HttpRequest E V → HttpLogOutcome E Res → Program W E Bool)
  includeHeaders : Option Bool
  startedAt : Option JsNumber
  process : Option (List (ProcessItem W E V))

structure HttpLogEntry (V : Type) where
  level : LogLevel
  message : JsString
  details : Details V

/-- What the middlewares use of the world around them; `W` is its state. -/
structure LogHost (W E V Res : Type) where
  /-- `performance.now()` -/
  now : W → JsNumber × W
  activeSpanContext : W → Option SpanContext
  getRequestContext : HttpRequest E V → W → Option (StoredHttpContext W E V)
  /-- whether logger test mode is on -/
  testMode : W → Bool
  traceCaller : W → Caller
  /-- `error instanceof Error ? error.message : String(error)` -/
  errorText : E → Program W E V
  /-- `response.status` -/
  status : Res → JsNumber
  string : JsString → V
  number : JsNumber → V
  array : List V → V
  record : Details V → V
  /-- a value that is a number -/
  number? : V → Option JsNumber

/-- A `Logger`; `Entry` is the type of its records. Its four helpers may throw whatever they like. -/
structure Logger (W E V Entry : Type) where
  level : LogLevel
  base : Readable W E V
  omitIgnoredHeaders : Details V → Program W E (Details V)
  buildEntry : LogLevel → JsString → Details V → Caller → Program W E Entry
  sanitize : Entry → Program W E Entry
  format : Entry → Program W E JsString
  sink : JsString → Program W E Unit

section

variable {W E V Res Entry : Type}

def consult {α : Type} (f : W → α) : Program W E α := .act fun w => (.ok (f w), w)

namespace Logger

def enabled (logger : Logger W E V Entry) (testMode : Bool) (level : LogLevel) : Bool :=
  !testMode && decide (logger.level.value ≤ level.value)

def log (host : LogHost W E V Res) (logger : Logger W E V Entry) (level : LogLevel)
    (message : JsString) (attrs : Details V) : Program W E Unit := do
  let testMode ← consult host.testMode
  if !logger.enabled testMode level then pure ()
  else
    let base ← spread logger.base
    let merged ← logger.omitIgnoredHeaders (merge base attrs)
    let caller ← consult host.traceCaller
    let entry ← logger.buildEntry level message merged caller
    let entry ← logger.sanitize entry
    let line ← logger.format entry
    logger.sink line

end Logger

namespace LogHost

def performanceNow (host : LogHost W E V Res) : Program W E JsNumber :=
  .act fun w => (.ok (host.now w).1, (host.now w).2)

def normalizeProcessLatency (host : LogHost W E V Res) (item : ProcessItem W E V) : Program W E V :=
  match lookupMember item.properties (js "latency") with
  | none => pure item.value
  | some read => do
    let record ← spread item.properties
    let latency ← read
    pure (host.record (setMember record (js "latency")
      (host.number (normalizeLatency (host.number? latency)))))

end LogHost

def matchesSkippedPath (pathname : JsString) (matchers : List PathMatcher) : Bool :=
  matchers.any fun matcher =>
    match matcher with
    | .exact path => pathname == path
    | .pattern test => test pathname

/-- A property of an object literal that is there only where it has a value. -/
def setMember? (details : Details V) (key : JsString) : Option V → Details V
  | none => details
  | some value => setMember details key value

def nonempty (text : Option JsString) : Option JsString := text.filter fun s => s ≠ []

def httpLogDetails (host : LogHost W E V Res) (request : HttpRequest E V)
    (options : HttpLogEntryOptions W E V Res) (context : Option (StoredHttpContext W E V)) :
    Program W E (Details V) := do
  let idHeader := options.requestIdHeader.getD (js "x-trace-id")
  let spanContext ← consult host.activeSpanContext
  let traceID ← match spanContext with
    | some span => pure (some span.traceId)
    | none => do
      let header ← Program.lift (request.header idHeader)
      pure (header.or (context.bind (·.requestId)))
  let latency ← match options.startedAt.or (context.bind (·.startedAt)) with
    | none => pure 0
    | some startedAt => do
      let now ← host.performanceNow
      pure (normalizeLatency (some (now.sub startedAt)))
  let details ← spread ((context.map (·.attributes)).getD [])
  let details := setMember details (js "method") (host.string request.method)
  let details := setMember details (js "path") (host.string request.pathname)
  let details := if options.includeHeaders = some false then details
    else setMember details (js "headers") request.headers
  let details := setMember details (js "latency") (host.number latency)
  let details := setMember? details (js "traceID") ((nonempty traceID).map host.string)
  let details := setMember? details (js "spanID")
    ((nonempty (spanContext.map (·.spanId))).map host.string)
  let details ← match options.process.or (context.bind (·.process)) with
    | none | some [] => pure details
    | some items => do
      let items ← items.mapM host.normalizeProcessLatency
      pure (setMember details (js "process") (host.array items))
  -- the attributes of the context do not bring the headers back
  if options.includeHeaders = some false then
    pure (details.filter fun member => member.1 ≠ js "headers")
  else pure details

def buildHttpLogEntry (host : LogHost W E V Res) (request : HttpRequest E V)
    (outcome : HttpLogOutcome E Res) (options : HttpLogEntryOptions W E V Res) :
    Program W E (Option (HttpLogEntry V)) := do
  if matchesSkippedPath request.pathname options.skipPaths then pure none
  else
    let context ← consult (host.getRequestContext request)
    if (context.map (·.skipLogging)).getD false then pure none
    else
      let wanted ← match options.shouldLog with
        | none => pure (Except.ok true)
        | some shouldLog => (shouldLog request outcome).attempt
      match wanted with
      | .error _ | .ok false => pure none
      | .ok true =>
        let details ← httpLogDetails host request options context
        match outcome with
        | .response response =>
          pure (some {
            level := .info
            message := js "http.request"
            details := setMember details (js "status") (host.number (host.status response)) })
        | .error error status => do
          let details := setMember? details (js "status") (status.map host.number)
          let text ← host.errorText error
          pure (some {
            level := .error
            message := js "http.request.error"
            details := setMember details (js "error") text })

structure LoggerCall (V : Type) where
  level : LogLevel
  message : JsString
  details : Details V

structure Journal (W V : Type) where
  world : W
  calls : List (LoggerCall V)

def outside {α : Type} (p : Program W E α) : Program (Journal W V) E α :=
  .act fun journal => ((p.run journal.world).1, { journal with world := (p.run journal.world).2 })

/-- `logger.info` and `logger.error`, called by a middleware. -/
def callLogger (host : LogHost W E V Res) (logger : Logger W E V Entry) (call : LoggerCall V) :
    Program (Journal W V) E Unit := do
  .act fun journal => (.ok (), { journal with calls := journal.calls ++ [call] })
  outside (logger.log host call.level call.message call.details)

def emit (host : LogHost W E V Res) (logger : Logger W E V Entry) :
    Option (HttpLogEntry V) → Program (Journal W V) E Unit
  | none => pure ()
  | some entry =>
    if entry.level = .error then
      callLogger host logger ⟨.error, entry.message, entry.details⟩
    else callLogger host logger ⟨.info, entry.message, entry.details⟩

/-- What `httpLogger` does about an outcome. -/
def logHttpOutcome (host : LogHost W E V Res) (logger : Logger W E V Entry)
    (options : HttpLogEntryOptions W E V Res) (startedAt : JsNumber) (req : HttpRequest E V)
    (outcome : HttpLogOutcome E Res) : Program (Journal W V) E Unit := do
  let entry ← outside (buildHttpLogEntry host req outcome { options with startedAt := some startedAt })
  emit host logger entry

def httpLogger (host : LogHost W E V Res) (logger : Logger W E V Entry)
    (options : HttpLogEntryOptions W E V Res) (next : HttpRequest E V → Program W E Res)
    (req : HttpRequest E V) : Program (Journal W V) E Res := do
  let startedAt ← outside host.performanceNow
  Program.handle
    (do
      let res ← outside (next req)
      logHttpOutcome host logger options startedAt req (.response res)
      pure res)
    fun err => do
      logHttpOutcome host logger options startedAt req (.error err none)
      Program.lift (.error err)

def elapsed (host : LogHost W E V Res) (start : JsNumber) : Program W E V := do
  let now ← host.performanceNow
  pure (host.number (now.sub start).round)

/-- What `grpcLogger` does about a reply. -/
def logGrpcReply (host : LogHost W E V Res) (logger : Logger W E V Entry) (start : JsNumber)
    (method : JsString) : Program (Journal W V) E Unit := do
  let latency ← outside (elapsed host start)
  callLogger host logger {
    level := .info
    message := js "grpc.request"
    details := [(js "method", host.string method), (js "status", host.string (js "OK")),
      (js "latency", latency)] }

/-- What `grpcLogger` does about an error. -/
def logGrpcError (host : LogHost W E V Res) (logger : Logger W E V Entry) (start : JsNumber)
    (method : JsString) (err : E) : Program (Journal W V) E Unit := do
  let latency ← outside (elapsed host start)
  let text ← outside (host.errorText err)
  callLogger host logger {
    level := .error
    message := js "grpc.request.error"
    details := [(js "method", host.string method), (js "latency", latency), (js "error", text)] }

/-- Returns an interceptor that logs each unary RPC via `logger`; `method` is `ctx.method`. -/
def grpcLogger (host : LogHost W E V Res) (logger : Logger W E V Entry) (method : JsString)
    (next : Program W E Res) : Program (Journal W V) E Res := do
  let start ← outside host.performanceNow
  Program.handle
    (do
      let res ← outside next
      logGrpcReply host logger start method
      pure res)
    fun err => do
      logGrpcError host logger start method err
      Program.lift (.error err)

end

end ForgeDeno
