import ForgeDeno.JsString
import ForgeDeno.ProgramRules

namespace ForgeDeno

open List

inductive Method where
  | get
  | post
  | put
  | patch
  | delete
  | options
  | head
deriving DecidableEq

def Method.text : Method → JsString
  | .get => js "GET"
  | .post => js "POST"
  | .put => js "PUT"
  | .patch => js "PATCH"
  | .delete => js "DELETE"
  | .options => js "OPTIONS"
  | .head => js "HEAD"

/-- What the router uses of its host: what a request tells, `URLPattern`, and the active span. -/
structure RouterHost (W E Req Res Pattern : Type) where
  method : Req → JsString
  url : Req → JsString
  /-- `new URLPattern({ pathname })`, which throws where that is no pattern -/
  compile : JsString → Except E Pattern
  test : Pattern → JsString → Bool
  /-- `setHttpRoute(activeSpan(), method, path)` -/
  setHttpRoute : JsString → JsString → Program W E Unit
  notFound : Res

abbrev Handler (W E Req Res : Type) : Type := Req → Program W E Res

abbrev Middleware (W E Req Res : Type) : Type := Handler W E Req Res → Program W E (Handler W E Req Res)

structure Route (W E Req Res Pattern : Type) where
  method : Method
  path : JsString
  pattern : Pattern
  handler : Handler W E Req Res

structure HttpServer (W E Req Res Pattern : Type) where
  routes : List (Route W E Req Res Pattern)
  global : List (Middleware W E Req Res)

structure RouteGroup (W E Req Res : Type) where
  pathPrefix : JsString
  groupMiddleware : List (Middleware W E Req Res)

variable {W E Req Res Pattern : Type}

/-- `middleware.reduceRight((next, mw) => mw(next), handler)` -/
def wrap : List (Middleware W E Req Res) → Handler W E Req Res → Program W E (Handler W E Req Res)
  | [], handler => pure handler
  | mw :: middleware, handler => do
    let next ← wrap middleware handler
    mw next

namespace HttpServer

def joinPath (a b : JsString) : JsString :=
  let left := a.rdropWhile fun u => u = 0x2F
  let right := if b.head? = some 0x2F then b else 0x2F :: b
  if left ++ right = [] then js "/" else left ++ right

variable (host : RouterHost W E Req Res Pattern) (server : HttpServer W E Req Res Pattern)

def handle (method : Method) (path : JsString) (handler : Handler W E Req Res)
    (middleware : List (Middleware W E Req Res)) : Program W E (HttpServer W E Req Res Pattern) := do
  let wrapped ← wrap middleware handler
  let pattern ← Program.lift (host.compile path)
  pure { server with routes := server.routes ++ [⟨method, path, pattern, wrapped⟩] }

def new (healthPath : JsString) (healthHandler : Handler W E Req Res)
    (middleware : List (Middleware W E Req Res)) : Program W E (HttpServer W E Req Res Pattern) :=
  let server : HttpServer W E Req Res Pattern := ⟨[], middleware⟩
  if healthPath = [] then pure server else server.handle host .get healthPath healthHandler []

def use (middleware : List (Middleware W E Req Res)) : HttpServer W E Req Res Pattern :=
  { server with global := server.global ++ middleware }

def group (_server : HttpServer W E Req Res Pattern) (pathPrefix : JsString)
    (middleware : List (Middleware W E Req Res)) : RouteGroup W E Req Res :=
  ⟨pathPrefix, middleware⟩

/-- `#route`, with the routes that are registered when the request comes. -/
def route : List (Route W E Req Res Pattern) → Handler W E Req Res
  | [], _ => pure host.notFound
  | route :: routes, req =>
    if route.method.text ≠ host.method req then HttpServer.route routes req
    else if host.test route.pattern (host.url req) then do
      host.setHttpRoute (host.method req) route.path
      route.handler req
    else HttpServer.route routes req

def handler (routes : List (Route W E Req Res Pattern)) : Program W E (Handler W E Req Res) :=
  wrap server.global (route host routes)

end HttpServer

namespace RouteGroup

variable (g : RouteGroup W E Req Res)

def group (pathPrefix : JsString) (middleware : List (Middleware W E Req Res)) : RouteGroup W E Req Res :=
  ⟨HttpServer.joinPath g.pathPrefix pathPrefix, g.groupMiddleware ++ middleware⟩

def handle (host : RouterHost W E Req Res Pattern) (server : HttpServer W E Req Res Pattern)
    (method : Method) (path : JsString) (handler : Handler W E Req Res)
    (middleware : List (Middleware W E Req Res)) : Program W E (HttpServer W E Req Res Pattern) :=
  server.handle host method (HttpServer.joinPath g.pathPrefix path) handler (g.groupMiddleware ++ middleware)

end RouteGroup

section paths

def stripSlashes (path : JsString) : JsString := path.rdropWhile fun u => u = 0x2F

def rooted (path : JsString) : JsString := if path.head? = some 0x2F then path else 0x2F :: path

theorem rooted_head (path : JsString) : (rooted path).head? = some 0x2F := by
  unfold rooted
  split
  next slash => exact slash
  next => rfl

theorem rooted_of_head {path : JsString} (slash : path.head? = some 0x2F) : rooted path = path :=
  if_pos slash

theorem joinPath_eq (a b : JsString) : HttpServer.joinPath a b = stripSlashes a ++ rooted b := by
  have some_unit : stripSlashes a ++ rooted b ≠ [] := by
    intro empty
    have slash := rooted_head b
    rw [(append_eq_nil_iff.mp empty).2] at slash
    cases slash
  exact if_neg some_unit

theorem stripSlashes_append (a b : JsString) :
    stripSlashes (a ++ b) = if stripSlashes b = [] then stripSlashes a else a ++ stripSlashes b := by
  have empty : stripSlashes b = [] ↔ (b.reverse.dropWhile fun u => u = 0x2F) = [] := by
    unfold stripSlashes rdropWhile
    exact reverse_eq_nil_iff
  unfold stripSlashes rdropWhile at empty ⊢
  rw [reverse_append, dropWhile_append]
  by_cases blank : (b.reverse.dropWhile fun u => u = 0x2F) = []
  · rw [if_pos (empty.mpr blank), blank]
    rfl
  · have some_left : (b.reverse.dropWhile fun u => decide (u = 0x2F)).isEmpty = false :=
      isEmpty_eq_false_iff.mpr blank
    rw [if_neg (mt empty.mp blank), some_left, if_neg Bool.false_ne_true, reverse_append,
      reverse_reverse]

theorem stripSlashes_twice (a : JsString) : stripSlashes (stripSlashes a) = stripSlashes a :=
  rdropWhile_idempotent _ _

theorem stripSlashes_rooted {b : JsString} (some_part : stripSlashes b ≠ []) (c : JsString) :
    stripSlashes (rooted b) ++ c = rooted (stripSlashes b ++ c) ∧ stripSlashes (rooted b) ≠ [] := by
  obtain ⟨rest, whole⟩ : stripSlashes b <+: b := rdropWhile_prefix _ b
  have first : (stripSlashes b ++ c).head? = b.head? := by
    cases parts : stripSlashes b with
    | nil => exact absurd parts some_part
    | cons u tail =>
      rw [parts] at whole
      rw [← whole]
      rfl
  by_cases slash : b.head? = some 0x2F
  · rw [rooted_of_head slash, rooted_of_head (first.trans slash)]
    exact ⟨rfl, some_part⟩
  · have plain : rooted b = [0x2F] ++ b := if_neg slash
    have joined : rooted (stripSlashes b ++ c) = 0x2F :: (stripSlashes b ++ c) :=
      if_neg fun other => slash (first.symm.trans other)
    rw [plain, stripSlashes_append, if_neg some_part, joined]
    exact ⟨rfl, cons_ne_nil _ _⟩

theorem stripSlashes_rooted_nil {b : JsString} (blank : stripSlashes b = []) : stripSlashes (rooted b) = [] := by
  unfold rooted
  split
  · exact blank
  · have parts : (0x2F : UInt16) :: b = [0x2F] ++ b := rfl
    rw [parts, stripSlashes_append, if_pos blank]
    rfl

theorem joinPath_assoc (a b c : JsString) :
    HttpServer.joinPath (HttpServer.joinPath a b) c = HttpServer.joinPath a (HttpServer.joinPath b c) := by
  rw [joinPath_eq, joinPath_eq, joinPath_eq, joinPath_eq, stripSlashes_append]
  by_cases blank : stripSlashes b = []
  · rw [if_pos (stripSlashes_rooted_nil blank), stripSlashes_twice, blank, nil_append,
      rooted_of_head (rooted_head c)]
  · obtain ⟨moved, some_part⟩ := stripSlashes_rooted blank (rooted c)
    rw [if_neg some_part, append_assoc, moved]

inductive PathTree where
  | path (path : JsString)
  | join (left right : PathTree)

namespace PathTree

def paths : PathTree → List JsString
  | path p => [p]
  | join left right => left.paths ++ right.paths

def joined : PathTree → JsString
  | path p => p
  | join left right => HttpServer.joinPath left.joined right.joined

theorem paths_ne_nil (tree : PathTree) : tree.paths ≠ [] := by
  induction tree with
  | path p => exact cons_ne_nil _ _
  | join left right ih _ => exact append_ne_nil_of_left_ne_nil ih _

end PathTree

def joinAll : JsString → List JsString → JsString := List.foldl HttpServer.joinPath

theorem joinAll_joinPath (a b : JsString) (rest : List JsString) :
    joinAll (HttpServer.joinPath a b) rest = HttpServer.joinPath a (joinAll b rest) := by
  induction rest generalizing b with
  | nil => rfl
  | cons c rest ih =>
    show joinAll (HttpServer.joinPath (HttpServer.joinPath a b) c) rest =
      HttpServer.joinPath a (joinAll (HttpServer.joinPath b c) rest)
    rw [joinPath_assoc, ih]

theorem joinAll_append (first : JsString) (a : List JsString) (second : JsString) (b : List JsString) :
    joinAll first (a ++ second :: b) = HttpServer.joinPath (joinAll first a) (joinAll second b) := by
  have cut : joinAll first (a ++ second :: b) =
      joinAll (HttpServer.joinPath (joinAll first a) second) b := foldl_append
  rw [cut, joinAll_joinPath]

theorem joined_eq {tree : PathTree} {first : JsString} {rest : List JsString}
    (parts : tree.paths = first :: rest) : tree.joined = joinAll first rest := by
  induction tree generalizing first rest with
  | path p =>
    cases parts
    rfl
  | join left right ih_left ih_right =>
    cases front : left.paths with
    | nil => exact absurd front left.paths_ne_nil
    | cons a front_rest =>
      cases back : right.paths with
      | nil => exact absurd back right.paths_ne_nil
      | cons b back_rest =>
        have whole : left.paths ++ right.paths = first :: rest := parts
        rw [front, back] at whole
        cases whole
        show HttpServer.joinPath left.joined right.joined = _
        rw [ih_left front, ih_right back]
        exact (joinAll_append _ front_rest b back_rest).symm

end paths

structure Scope (M : Type) where
  pathPrefix : JsString
  middleware : List M

section groups

variable {M : Type}

def scopePaths (scopes : List (Scope M)) (path : JsString) : List JsString :=
  scopes.map Scope.pathPrefix ++ [path]

def scopeMiddleware (scopes : List (Scope M)) (middleware : List M) : List M :=
  scopes.flatMap Scope.middleware ++ middleware

def nestGroups (server : HttpServer W E Req Res Pattern) (outer : Scope (Middleware W E Req Res))
    (inner : List (Scope (Middleware W E Req Res))) : RouteGroup W E Req Res :=
  inner.foldl (fun g scope => g.group scope.pathPrefix scope.middleware)
    (server.group outer.pathPrefix outer.middleware)

theorem foldl_group (g : RouteGroup W E Req Res) (scopes : List (Scope (Middleware W E Req Res))) :
    scopes.foldl (fun g scope => g.group scope.pathPrefix scope.middleware) g =
      ⟨joinAll g.pathPrefix (scopes.map Scope.pathPrefix),
        g.groupMiddleware ++ scopes.flatMap Scope.middleware⟩ := by
  induction scopes generalizing g with
  | nil =>
    show g = ⟨g.pathPrefix, g.groupMiddleware ++ []⟩
    rw [append_nil]
  | cons scope scopes ih =>
    rw [foldl_cons, ih, flatMap_cons, ← append_assoc]
    rfl

variable (host : RouterHost W E Req Res Pattern) (server : HttpServer W E Req Res Pattern)

theorem nested_handle (outer : Scope (Middleware W E Req Res))
    (inner : List (Scope (Middleware W E Req Res))) (method : Method) (path : JsString)
    (handler : Handler W E Req Res) (middleware : List (Middleware W E Req Res)) {tree : PathTree}
    (parts : tree.paths = scopePaths (outer :: inner) path) :
    (nestGroups server outer inner).handle host server method path handler middleware =
      server.handle host method tree.joined handler (scopeMiddleware (outer :: inner) middleware) := by
  have whole : tree.joined = joinAll outer.pathPrefix (inner.map Scope.pathPrefix ++ [path]) :=
    joined_eq parts
  unfold nestGroups RouteGroup.handle
  rw [foldl_group, whole, joinAll_append]
  rfl

end groups

section order

variable {M : Type} (record : M → Program W E Unit) (host : RouterHost W E Req Res Pattern)

def marking (mark : M) : Middleware W E Req Res := fun next => pure fun req => do
  record mark
  next req

def recordAll : List M → Program W E Unit
  | [] => pure ()
  | mark :: marks => do
    record mark
    recordAll marks

theorem recordAll_append (first second : List M) :
    recordAll record (first ++ second) = (recordAll record first >>= fun _ => recordAll record second) := by
  induction first with
  | nil => rfl
  | cons mark marks ih =>
    show (record mark >>= fun _ => recordAll record (marks ++ second)) = _
    rw [ih]
    exact (bind_assoc _ _ _).symm

theorem wrap_marking (marks : List M) (handler : Handler W E Req Res) :
    wrap (marks.map (marking record)) handler =
      pure fun req => recordAll record marks >>= fun _ => handler req := by
  induction marks with
  | nil => rfl
  | cons mark marks ih =>
    show (wrap (marks.map (marking record)) handler >>= fun next => marking record mark next) = _
    rw [ih, pure_bind]
    refine congrArg pure (funext fun req => ?_)
    exact (bind_assoc _ _ _).symm

def Scope.marking (scope : Scope M) : Scope (Middleware W E Req Res) :=
  ⟨scope.pathPrefix, scope.middleware.map (ForgeDeno.marking record)⟩

theorem scopeMiddleware_marking (scopes : List (Scope M)) (marks : List M) :
    scopeMiddleware (scopes.map (Scope.marking record)) (marks.map (marking record)) =
      (scopeMiddleware scopes marks).map (@marking W E Req Res M record) := by
  unfold scopeMiddleware
  rw [map_append, map_flatMap, flatMap_map]
  rfl

def Route.takes (req : Req) (route : Route W E Req Res Pattern) : Bool :=
  decide (route.method.text = host.method req) && host.test route.pattern (host.url req)

theorem route_find (routes : List (Route W E Req Res Pattern)) (req : Req) :
    HttpServer.route host routes req =
      match routes.find? (Route.takes host req) with
      | some route => host.setHttpRoute (host.method req) route.path >>= fun _ => route.handler req
      | none => pure host.notFound := by
  induction routes with
  | nil => rfl
  | cons route routes ih =>
    unfold HttpServer.route
    rw [find?_cons]
    unfold Route.takes
    by_cases same : route.method.text = host.method req
    · rw [if_neg (not_not.mpr same), decide_eq_true same, Bool.true_and]
      cases host.test route.pattern (host.url req) with
      | true => rfl
      | false => exact ih
    · rw [if_pos same, decide_eq_false same, Bool.false_and]
      exact ih

theorem handle_marking {server : HttpServer W E Req Res Pattern} {method : Method} {path : JsString}
    {pattern : Pattern} (compiled : host.compile path = .ok pattern) (marks : List M)
    (handler : Handler W E Req Res) : server.handle host method path handler (marks.map (marking record)) =
      pure { server with routes := server.routes ++
          [⟨method, path, pattern, fun req => recordAll record marks >>= fun _ => handler req⟩] } := by
  unfold HttpServer.handle
  rw [wrap_marking, compiled]
  rfl

end order

/-- Registering in groups is registering on the server, with the paths joined in any bracketing and with
the middleware from the outermost group to the route. Of the registered routes the first one with the
method and a matching pattern handles a request. It does so after the global middleware, that of the
groups from outer to inner, and that of the route have each left their marks. -/
theorem route_groups_flatten (host : RouterHost W E Req Res Pattern)
    (server : HttpServer W E Req Res Pattern) (method : Method) (path : JsString)
    (handler : Handler W E Req Res) :
    (∀ outer inner middleware (tree : PathTree), tree.paths = scopePaths (outer :: inner) path →
      (nestGroups server outer inner).handle host server method path handler middleware =
        server.handle host method tree.joined handler (scopeMiddleware (outer :: inner) middleware)) ∧
    (∀ routes req, HttpServer.route host routes req =
      match routes.find? (Route.takes host req) with
      | some route => host.setHttpRoute (host.method req) route.path >>= fun _ => route.handler req
      | none => pure host.notFound) ∧
    ∀ (M : Type) (record : M → Program W E Unit) (global : List M) (outer : Scope M)
        (inner : List (Scope M)) (marks : List M) pattern (tree : PathTree),
      server.global = global.map (marking record) →
      tree.paths = scopePaths (outer :: inner) path → host.compile tree.joined = .ok pattern →
        ∃ added taken, added.routes = server.routes ++ [taken] ∧
          taken.method = method ∧ taken.path = tree.joined ∧ taken.pattern = pattern ∧
          (nestGroups server (outer.marking record) (inner.map (Scope.marking record))).handle host server
            method path handler (marks.map (marking record)) = pure added ∧
          ∀ later req, (added.routes ++ later).find? (Route.takes host req) = some taken →
            ∃ root, added.handler host (added.routes ++ later) = pure root ∧
              root req = (do
                recordAll record global
                host.setHttpRoute (host.method req) tree.joined
                recordAll record ((outer :: inner).flatMap Scope.middleware)
                recordAll record marks
                handler req) := by
  refine ⟨fun outer inner middleware tree parts =>
    nested_handle host server outer inner method path handler middleware parts, route_find host, ?_⟩
  intro M record global outer inner marks pattern tree marked parts compiled
  let wrapped : Handler W E Req Res := fun req =>
    recordAll record (scopeMiddleware (outer :: inner) marks) >>= fun _ => handler req
  let taken : Route W E Req Res Pattern := ⟨method, tree.joined, pattern, wrapped⟩
  refine ⟨{ server with routes := server.routes ++ [taken] }, taken, rfl, rfl, rfl, rfl, ?_, ?_⟩
  · have same : tree.paths = scopePaths (@Scope.marking W E Req Res M record outer ::
        inner.map (Scope.marking record)) path := by
      rw [parts]
      unfold scopePaths
      rw [List.map_cons, List.map_cons, List.map_map]
      rfl
    rw [nested_handle host server _ _ method path handler _ same, ← List.map_cons,
      scopeMiddleware_marking, handle_marking record host compiled]
  · intro later req first
    refine ⟨fun req => recordAll record global >>= fun _ =>
      HttpServer.route host (server.routes ++ [taken] ++ later) req, ?_, ?_⟩
    · unfold HttpServer.handler
      dsimp only
      rw [marked, wrap_marking]
    · dsimp only
      rw [route_find, first]
      show (recordAll record global >>= fun _ => host.setHttpRoute (host.method req) tree.joined >>=
        fun _ => recordAll record (scopeMiddleware (outer :: inner) marks) >>= fun _ => handler req) = _
      unfold scopeMiddleware
      rw [recordAll_append]
      simp only [bind_assoc]

def pathHost : RouterHost (List ℕ) Unit JsString Bool JsString where
  method := fun _ => js "GET"
  url := id
  compile := .ok
  test := fun path url => decide (path = url)
  setHttpRoute := fun _ _ => pure ()
  notFound := false

def appendMark (mark : ℕ) : Program (List ℕ) Unit Unit := .modify fun marks => marks ++ [mark]

def markingServer : HttpServer (List ℕ) Unit JsString Bool JsString :=
  ⟨[], [0].map (marking appendMark)⟩

/-- A route of a group in a group. -/
theorem two_groups_flatten :
    (nestGroups markingServer ⟨js "/api/", [marking appendMark 1]⟩ [⟨js "v1", [marking appendMark 2]⟩]).handle
        pathHost markingServer .get (js "users/") (fun _ => pure true) [] =
      markingServer.handle pathHost .get (js "/api/v1/users/") (fun _ => pure true)
        [marking appendMark 1, marking appendMark 2] ∧
    ∃ added root,
      (nestGroups markingServer ⟨js "/api/", [marking appendMark 1]⟩ [⟨js "v1", [marking appendMark 2]⟩]).handle
        pathHost markingServer .get (js "users/") (fun _ => pure true) [] = pure added ∧
      added.handler pathHost added.routes = pure root ∧
      (root (js "/api/v1/users/")).run [] = (.ok true, [0, 1, 2]) := by
  let tree : PathTree := .join (.path (js "/api/")) (.join (.path (js "v1")) (.path (js "users/")))
  have joined : tree.joined = js "/api/v1/users/" := by decide
  obtain ⟨flat, -, order⟩ :=
    route_groups_flatten pathHost markingServer .get (js "users/") fun _ => pure true
  constructor
  · rw [← joined]
    exact flat ⟨js "/api/", [marking appendMark 1]⟩ [⟨js "v1", [marking appendMark 2]⟩] [] tree rfl
  · obtain ⟨added, taken, routes, method, -, pattern, registered, serves⟩ :=
      order ℕ appendMark [0] ⟨js "/api/", [1]⟩ [⟨js "v1", [2]⟩] [] tree.joined tree rfl rfl rfl
    have only : added.routes = [taken] := routes
    have first : (added.routes ++ []).find? (Route.takes pathHost (js "/api/v1/users/")) = some taken := by
      have takes : Route.takes pathHost (js "/api/v1/users/") taken = true := by
        unfold Route.takes
        rw [method, pattern, joined]
        decide
      rw [only]
      exact List.find?_cons_of_pos takes
    obtain ⟨root, handled, marks⟩ := serves [] (js "/api/v1/users/") first
    rw [List.append_nil] at handled
    refine ⟨added, root, registered, handled, ?_⟩
    rw [marks]
    rfl

end ForgeDeno
