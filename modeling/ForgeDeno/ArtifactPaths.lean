import ForgeDeno.BundleManifest
import ForgeDeno.ExceptRules
import ForgeDeno.FileUrl

namespace ForgeDeno

open List

section

variable (parseHost : List Nat → Option (List Nat))

/-- `new URL(input, base)` for a base of the scheme `file`; `parseHost` is the host parser. -/
def newUrl (input : JsString) (base : FileUrl) : Except Thrown FileUrl :=
  match FileUrl.parse parseHost input base with
  | some url => .ok url
  | none => .error (.typeError (js "Invalid URL"))

/-- The directory to which `createFileArtifactReader` scopes its reader. -/
def readerDirectory (baseUrl : FileUrl) : Except Thrown FileUrl :=
  if [0x2F].isSuffixOf baseUrl.pathname then .ok baseUrl else newUrl parseHost (js "./") baseUrl

def openedUrl (directory : FileUrl) (path : JsString) : Except Thrown FileUrl := do
  assertRelativeArtifactPath path (js "artifact path")
  match newUrl parseHost path directory with
  | .ok url => return url
  | .error cause =>
    throw (.caused (WasmErrorClass.integrity.error
      (js "unable to read component artifact " ++ JsonText.quote path)) cause)

def Confined (baseUrl : FileUrl) (path : JsString) : Prop :=
  ∀ directory url, readerDirectory parseHost baseUrl = .ok directory →
    openedUrl parseHost directory path = .ok url → url.StrictlyUnder directory

def HostRefused (behind : List Nat) : Prop :=
  let buffer := behind.takeWhile fun c => !FileUrl.isSlash c
  FileUrl.isWindowsDriveLetter buffer = false ∧ buffer ≠ [] ∧ parseHost buffer = none

/-- The cleaned input names no URL at all, or it is neither absolute nor on another drive and its
segments lead below the directory without leaving it. -/
def StaysInside (input : List Nat) : Prop :=
  (∃ a b rest, input = a :: b :: rest ∧ FileUrl.isSlash a = true ∧ FileUrl.isSlash b = true ∧
    HostRefused parseHost rest) ∨
  (∃ c rest, input = c :: rest ∧ FileUrl.isSlash c = false) ∧
    FileUrl.startsWithWindowsDriveLetter input = false ∧
    FileUrl.Descends 0 (FileUrl.segments [] input)

end

open FileUrl ExceptRules

variable {parseHost : List Nat → Option (List Nat)}

theorem pathnameOf_append (front behind : List (List Nat)) :
    pathnameOf (front ++ behind) = pathnameOf front ++ pathnameOf behind :=
  flatMap_append

theorem pathnameOf_singleton (segment : List Nat) : pathnameOf [segment] = 0x2F :: segment :=
  append_nil _

variable {directory url : FileUrl}

theorem openedUrl_ok {path : JsString} :
    openedUrl parseHost directory path = .ok url ↔
      assertRelativeArtifactPath path (js "artifact path") = .ok () ∧
        parse parseHost path directory = some url := by
  unfold openedUrl newUrl
  constructor
  · intro opened
    obtain ⟨_, accepted, opened⟩ := bind_ok.mp opened
    refine ⟨accepted, ?_⟩
    cases parsed : parse parseHost path directory with
    | none =>
      rw [parsed] at opened
      cases opened
    | some found =>
      rw [parsed] at opened
      exact congrArg some (pure_ok.mp opened)
  · rintro ⟨accepted, parsed⟩
    rw [accepted, parsed]
    rfl

theorem readerDirectory_path {baseUrl directory : FileUrl}
    (h : readerDirectory parseHost baseUrl = .ok directory) : ∃ front, directory.path = front ++ [[]] := by
  unfold readerDirectory at h
  split at h
  next slash =>
    cases h
    obtain ⟨before, eq⟩ := isSuffixOf_iff_suffix.mp slash
    rcases eq_nil_or_concat baseUrl.path with root | ⟨front, last, named⟩
    · unfold pathname at eq
      rw [root] at eq
      exact absurd eq (by simp [pathnameOf])
    · refine ⟨front, ?_⟩
      have plain := (baseUrl.resolved last (by simp [named])).plain
      have empty : last = [] := by
        rcases eq_nil_or_concat last with empty | ⟨_, unit, rfl⟩
        · exact empty
        · unfold pathname at eq
          rw [named, concat_eq_append, concat_eq_append, pathnameOf_append,
            pathnameOf_singleton, ← cons_append, ← append_assoc] at eq
          have same : 0x2F = unit := head_eq_of_cons_eq (append_inj_right' eq rfl)
          exact absurd (by simp [same]) plain
      rw [named, empty, concat_eq_append]
  next =>
    unfold newUrl at h
    have cleaned : clean (scalarValues (js "./")) = [0x2E, 0x2F] := by decide
    unfold parse at h
    rw [cleaned] at h
    cases h
    refine ⟨shorten baseUrl.path, ?_⟩
    show pathState (shorten baseUrl.path) [] [0x2E, 0x2F] = _
    have read : segments [] [0x2E, 0x2F] = [[0x2E], []] := by decide
    rw [pathState_eq_walk, read]
    show endSegment (endSegment (shorten baseUrl.path) [0x2E] true) [] false = _
    have dot : kindOf [0x2E] = .stay := by decide
    have empty : kindOf [] = .into := by decide
    rw [endSegment_into empty, endSegment_stay dot, if_pos rfl]
    unfold normalizeDrive
    rw [if_neg (fun h => absurd h.2 (by decide))]

theorem shorten_directory (front : List (List Nat)) : shorten (front ++ [[]]) = front := by
  cases front with
  | nil => rfl
  | cons first others =>
    rw [shorten_append (cons_ne_nil _ _) [[]] (cons_ne_nil _ _)]
    exact append_nil _

theorem strictlyUnder_of_path {front behind : List (List Nat)}
    (host : url.host = directory.host) (root : directory.path = front ++ [[]])
    (below : url.path = front ++ behind) (ne : behind ≠ []) (other : behind ≠ [[]]) :
    url.StrictlyUnder directory := by
  obtain ⟨first, others, rfl⟩ := exists_cons_of_ne_nil ne
  refine ⟨host, first ++ pathnameOf others, ?_, ?_⟩
  · intro empty
    obtain ⟨rfl, nothing⟩ := append_eq_nil_iff.mp empty
    cases others with
    | nil => exact other rfl
    | cons second rest => exact absurd nothing (cons_ne_nil _ _)
  · unfold pathname
    rw [below, root, pathnameOf_append, pathnameOf_append, pathnameOf_singleton, append_assoc]
    rfl

theorem confined_of_staysInside {path : JsString}
    (inside : StaysInside parseHost (clean (scalarValues path))) (baseUrl : FileUrl) :
    Confined parseHost baseUrl path := by
  intro directory url reads opened
  obtain ⟨front, root⟩ := readerDirectory_path reads
  obtain ⟨_, parsed⟩ := openedUrl_ok.mp opened
  unfold parse at parsed
  rcases inside with ⟨a, b, rest, eq, slash, again, letter, named, unknown⟩ |
    ⟨⟨c, rest, eq, plain⟩, drive, descends⟩
  · rw [eq, parseClean_refused parseHost directory slash again letter named unknown] at parsed
    cases parsed
  · rw [eq] at parsed drive descends
    obtain ⟨found, reached, host, walked⟩ :=
      parseClean_relative parseHost directory plain drive
    cases reached.symm.trans parsed
    rw [root, shorten_directory] at walked
    by_cases top : front = []
    · rw [top] at walked root
      obtain ⟨ne, other⟩ := walk_root [] descends
      exact strictlyUnder_of_path host root walked ne other
    · obtain ⟨behind, ne, other, below⟩ := walk_descends top [] descends
      rw [append_nil] at below
      exact strictlyUnder_of_path host root (walked.trans below) ne other

theorem exists_fresh (names : List (List Nat)) : ∃ fresh : List Nat, FileUrl.Resolved fresh ∧
    3 ≤ fresh.length ∧ ∀ name ∈ names, name.length < fresh.length := by
  refine ⟨replicate (names.flatten.length + 3) 0x61, ⟨?_, ?_, ?_⟩, ?_, ?_⟩
  · intro mem
    exact absurd (eq_of_mem_replicate mem) (by decide)
  · simp [isSingleDot, replicate_succ]
  · rfl
  · simp
  · intro name mem
    have bound := (sublist_flatten_of_mem mem).length_le
    rw [length_replicate]
    omega

def freshBase (fresh : List Nat) (resolved : FileUrl.Resolved fresh) : FileUrl where
  host := []
  path := [fresh, []]
  query := none
  fragment := none
  resolved := by
    intro segment mem
    rcases List.mem_cons.mp mem with rfl | mem
    · exact resolved
    · rw [List.mem_singleton.mp mem]
      exact resolved_nil

theorem readerDirectory_fresh (fresh : List Nat) (resolved : FileUrl.Resolved fresh) :
    readerDirectory parseHost (freshBase fresh resolved) = .ok (freshBase fresh resolved) := by
  apply if_pos
  apply isSuffixOf_iff_suffix.mpr
  exact ⟨0x2F :: fresh, by simp [pathname, pathnameOf, freshBase]⟩

theorem not_strictlyUnder_fresh {fresh : List Nat} {resolved : FileUrl.Resolved fresh}
    (h : url.path = [fresh, []] ∨ ∀ segment ∈ url.path, segment.length < fresh.length) :
    ¬url.StrictlyUnder (freshBase fresh resolved) := by
  rintro ⟨_, rest, ne, eq⟩
  unfold pathname at eq
  rcases h with same | beside
  · rw [same] at eq
    have empty : rest = [] := by
      have := append_cancel_left ((append_nil _).trans eq)
      exact this.symm
    exact ne empty
  · cases path : url.path with
    | nil =>
      rw [path] at eq
      exact absurd eq.symm (append_ne_nil_of_right_ne_nil _ ne)
    | cons first others =>
      have plain := (url.resolved first (path ▸ mem_cons_self)).plain
      have shorter := beside first (path ▸ mem_cons_self)
      rw [path] at eq
      have units : first ++ pathnameOf others = fresh ++ (0x2F :: rest) := by
        simpa [pathnameOf, freshBase] using eq
      have behindFirst : (pathnameOf others).takeWhile (fun c => c ≠ 0x2F) = [] := by
        cases others <;> rfl
      have same := congrArg (takeWhile fun c => c ≠ 0x2F) units
      have whole {name : List Nat} (h : 0x2F ∉ name) : ∀ c ∈ name, decide (c ≠ 0x2F) = true := by
        intro c mem
        apply decide_eq_true
        intro eq
        exact h (eq ▸ mem)
      rw [takeWhile_append_of_pos (whole plain),
        takeWhile_append_of_pos (whole resolved.plain), behindFirst] at same
      have long := congrArg length same
      simp only [append_nil, ne_eq, not_true_eq_false, decide_false, Bool.false_eq_true,
        not_false_eq_true, takeWhile_cons_of_neg] at long
      omega

theorem fresh_not_drive {fresh : List Nat} (resolved : FileUrl.Resolved fresh) (long : 3 ≤ fresh.length) :
    ∀ drive ∈ (freshBase fresh resolved).path.head?, isNormalizedWindowsDriveLetter drive = false := by
  intro drive mem
  cases mem
  unfold isNormalizedWindowsDriveLetter
  split
  next => exact absurd long (by simp)
  next => rfl

theorem escapes_of_constant {path : JsString} (accepted :
      assertRelativeArtifactPath path (js "artifact path") = .ok ()) {segments : List (List Nat)}
    (constant : ∀ base : FileUrl,
      (∀ drive ∈ base.path.head?, isNormalizedWindowsDriveLetter drive = false) →
        ∃ url, parse parseHost path base = some url ∧ url.path = segments) :
    ∃ baseUrl, ¬Confined parseHost baseUrl path := by
  obtain ⟨fresh, resolved, long, shorter⟩ := exists_fresh segments
  obtain ⟨url, parsed, eq⟩ := constant _ (fresh_not_drive resolved long)
  refine ⟨freshBase fresh resolved, fun confined => ?_⟩
  have under := confined _ url (readerDirectory_fresh fresh resolved)
    (openedUrl_ok.mpr ⟨accepted, parsed⟩)
  exact not_strictlyUnder_fresh (.inr (eq ▸ shorter)) under

theorem escapes_of_not_staysInside {path : JsString}
    (accepted : assertRelativeArtifactPath path (js "artifact path") = .ok ())
    (outside : ¬StaysInside parseHost (clean (scalarValues path))) :
    ∃ baseUrl, ¬Confined parseHost baseUrl path := by
  unfold StaysInside at outside
  obtain ⟨known, outside⟩ := not_or.mp outside
  cases cleaned : clean (scalarValues path) with
  | nil =>
    obtain ⟨fresh, resolved, _⟩ := exists_fresh []
    refine ⟨freshBase fresh resolved, fun confined => ?_⟩
    have parsed : parse parseHost path (freshBase fresh resolved) =
        some (freshBase fresh resolved) := by
      unfold parse
      rw [cleaned]
      rfl
    have under := confined _ _ (readerDirectory_fresh fresh resolved)
      (openedUrl_ok.mpr ⟨accepted, parsed⟩)
    exact not_strictlyUnder_fresh (.inl rfl) under
  | cons c rest =>
    rw [cleaned] at known outside
    cases slash : isSlash c with
    | true =>
      by_cases two : ∃ d behind, rest = d :: behind ∧ isSlash d = true
      · obtain ⟨d, behind, rfl, again⟩ := two
        obtain ⟨url, parsed⟩ := parseClean_host parseHost slash again
          fun refused => known ⟨c, d, behind, rfl, slash, again, refused⟩
        apply escapes_of_constant accepted
        intro base _
        refine ⟨url, ?_, rfl⟩
        unfold parse
        rw [cleaned]
        exact parsed base
      · apply escapes_of_constant accepted
        intro base root
        unfold parse
        rw [cleaned]
        refine parseClean_absolute parseHost base slash ?_ root
        intro d behind eq
        exact Bool.eq_false_iff.mpr fun again => two ⟨d, behind, eq, again⟩
    | false =>
      cases drive : startsWithWindowsDriveLetter (c :: rest) with
      | true =>
        apply escapes_of_constant accepted
        intro base _
        unfold parse
        rw [cleaned]
        exact parseClean_drive parseHost base slash drive
      | false =>
        have leaves : ¬Descends 0 (segments [] (c :: rest)) :=
          fun descends => outside ⟨⟨c, rest, rfl, slash⟩, drive, descends⟩
        obtain ⟨fresh, resolved, long, shorter⟩ := exists_fresh (segments [] (c :: rest))
        refine ⟨freshBase fresh resolved, fun confined => ?_⟩
        obtain ⟨url, parsed, _, walked⟩ :=
          parseClean_relative parseHost (freshBase fresh resolved) slash drive
        have opens : parse parseHost path (freshBase fresh resolved) = some url := by
          unfold parse
          rw [cleaned]
          exact parsed
        have under := confined _ url (readerDirectory_fresh fresh resolved)
          (openedUrl_ok.mpr ⟨accepted, opens⟩)
        have start : shorten (freshBase fresh resolved).path = [fresh] := shorten_directory [fresh]
        rw [start] at walked
        have ends := walk_escapes long (segments_ne_nil [] (c :: rest)) shorter []
          nofun leaves
        rw [← walked] at ends
        exact not_strictlyUnder_fresh ends under

/-- The reader confines a path, for every base URL, exactly when the check rejects the path or what
the URL parser makes of it stays inside. -/
theorem artifact_path_confined (parseHost : List Nat → Option (List Nat)) (path : JsString) :
    (∀ baseUrl, Confined parseHost baseUrl path) ↔
      (assertRelativeArtifactPath path (js "artifact path") = .ok () →
        StaysInside parseHost (clean (scalarValues path))) := by
  constructor
  · intro confined accepted
    by_contra outside
    obtain ⟨baseUrl, escapes⟩ := escapes_of_not_staysInside accepted outside
    exact escapes (confined baseUrl)
  · intro inside baseUrl directory url reads opened
    obtain ⟨accepted, _⟩ := openedUrl_ok.mp opened
    exact confined_of_staysInside (inside accepted) baseUrl directory url reads opened

def srvWasm : FileUrl where
  host := []
  path := [(js "srv").map UInt16.toNat, (js "wasm").map UInt16.toNat, []]
  query := none
  fragment := none
  resolved := by decide

/-- A tab keeps the check from seeing two dots, and the URL parser removes it. -/
theorem tab_hides_traversal : ∃ url, readerDirectory some srvWasm = .ok srvWasm ∧
    openedUrl some srvWasm (js ".\t./secret") = .ok url ∧
      url.pathname = (js "/srv/secret").map UInt16.toNat ∧ ¬url.StrictlyUnder srvWasm := by
  have accepted : (assertRelativeArtifactPath (js ".\t./secret") (js "artifact path")).isOk = true :=
    by decide
  have opens : (parse some (js ".\t./secret") srvWasm).map FileUrl.pathname =
      some ((js "/srv/secret").map UInt16.toNat) := by decide
  obtain ⟨url, parsed, pathname⟩ := Option.map_eq_some_iff.mp opens
  refine ⟨url, if_pos (by decide), openedUrl_ok.mpr ⟨?_, parsed⟩, pathname, ?_⟩
  · cases checked : assertRelativeArtifactPath (js ".\t./secret") (js "artifact path") with
    | ok _ => rfl
    | error e =>
      rw [checked] at accepted
      cases accepted
  · rintro ⟨_, rest, _, eq⟩
    rw [pathname] at eq
    have front := congrArg (List.take 10) eq
    rw [List.take_append_of_le_length (by decide)] at front
    exact absurd front (by decide)

end ForgeDeno
