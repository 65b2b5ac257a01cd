import ForgeDeno.FileUrl
import ForgeDeno.Utf8Affixes

namespace ForgeDeno

namespace ClientUrl

open List FileUrl Option

structure HttpUrl (Origin : Type) where
  origin : Origin
  path : List (List Nat)
  params : List (List Nat × List Nat)

/-- The platform's `URL`, in the parts that are its own: the parser of an authority (for https or
not), the parser of a query, and `toString`. -/
structure UrlClass where
  Origin : Type
  parseAuthority : Bool → List Nat → Option Origin
  parseParams : List Nat → List (List Nat × List Nat)
  toString : HttpUrl Origin → JsString

def lowerAscii (c : Nat) : Nat := if 0x41 ≤ c ∧ c ≤ 0x5A then c + 0x20 else c

def secure? (scheme : List Nat) : Option Bool :=
  let lower := scheme.map lowerAscii
  if lower = [0x68, 0x74, 0x74, 0x70] then some false
  else if lower = [0x68, 0x74, 0x74, 0x70, 0x73] then some true
  else none

def isColon (c : Nat) : Bool := c = 0x3A

def isMark (c : Nat) : Bool := c = 0x3F || c = 0x23

def endsAuthority (c : Nat) : Bool := FileUrl.isSlash c || isMark c

def closeSegment (path : List (List Nat)) (segment : List Nat) (slash : Bool) : List (List Nat) :=
  if FileUrl.isDoubleDot segment then
    if slash then path.dropLast else path.dropLast ++ [[]]
  else if FileUrl.isSingleDot segment then
    if slash then path else path ++ [[]]
  else path ++ [segment]

def resolve (path : List (List Nat)) : List (List Nat) → List (List Nat)
  | [] => path
  | [last] => closeSegment path last false
  | segment :: rest => resolve (closeSegment path segment true) rest

def pathOf (text : List Nat) : List (List Nat) :=
  resolve [] (FileUrl.segments [] (FileUrl.pathStart text))

/-- `searchParams.set`: the first parameter of the name takes the value, further ones go. -/
def setParam (name value : List Nat) : List (List Nat × List Nat) → List (List Nat × List Nat)
  | [] => [(name, value)]
  | param :: rest =>
    if param.1 = name then (name, value) :: rest.filter (·.1 ≠ name)
    else param :: setParam name value rest

/-- The record of a query, each value by its `String(value)`. -/
abbrev Query := List (JsString × JsString)

def setAll (params : List (List Nat × List Nat)) (query : Query) : List (List Nat × List Nat) :=
  query.foldl (fun params entry =>
    setParam (FileUrl.scalarValues entry.1) (FileUrl.scalarValues entry.2) params) params

def stripSlashes (baseUrl : JsString) : JsString := baseUrl.rdropWhile (· = 0x2F)

def joinBase (baseUrl path : JsString) : JsString :=
  if (js "http").isPrefixOf path then path
  else baseUrl ++ (if (js "/").isPrefixOf path then [] else js "/") ++ path

section parsing

variable (cls : UrlClass)

def parsePoints (input : List Nat) : Option (HttpUrl cls.Origin) := do
  let rest ← (input.dropWhile fun c => !isColon c).tail?
  let secure ← secure? (input.takeWhile fun c => !isColon c)
  let rest := rest.dropWhile FileUrl.isSlash
  let origin ← cls.parseAuthority secure (rest.takeWhile fun c => !endsAuthority c)
  let tail := rest.dropWhile fun c => !endsAuthority c
  let query := (tail.dropWhile fun c => !isMark c).takeWhile fun c => c ≠ 0x23
  return {
    origin
    path := pathOf (tail.takeWhile fun c => !isMark c)
    params := if query = [] then [] else cls.parseParams query.tail }

/-- The http or https URL that a text is parsed to, without its fragment. -/
def parse (input : JsString) : Option (HttpUrl cls.Origin) :=
  parsePoints cls (FileUrl.clean (FileUrl.scalarValues input))

/-- `#buildUrl` of a client with a base URL; `none` where `new URL` throws. -/
def buildUrl (baseUrl path : JsString) (query : Option Query) : Option JsString :=
  let base := joinBase (stripSlashes baseUrl) path
  match query with
  | none => some base
  | some query => (parse cls base).map fun url =>
    cls.toString { url with params := setAll url.params query }

end parsing

section specification

variable {cls : UrlClass}

def Unmarked (text : JsString) : Prop := ∀ c ∈ FileUrl.scalarValues text, isMark c = false

/-- An absolute http or https URL without query and fragment. No blank follows it. -/
structure BaseUrl (cls : UrlClass) (text : JsString) (url : HttpUrl cls.Origin) : Prop where
  parsed : parse cls text = some url
  unmarked : Unmarked text
  bare : ∀ c, (FileUrl.scalarValues text).getLast? = some c → FileUrl.isStripped c = false

def lastPoints (text : JsString) : List Nat :=
  ((FileUrl.scalarValues text).rdropWhile FileUrl.isStripped).filter fun c => !FileUrl.isTabOrNewline c

def isDots (segment : List Nat) : Bool := FileUrl.isDoubleDot segment || FileUrl.isSingleDot segment

structure PlainPath (path : JsString) : Prop where
  unmarked : Unmarked path
  dotless : ∀ segment ∈ FileUrl.segments [] (lastPoints path), isDots segment = false

def Extends (base path : List (List Nat)) : Prop := base.rdropWhile List.isEmpty <+: path

def Under (base url : HttpUrl cls.Origin) : Prop :=
  url.origin = base.origin ∧ Extends base.path url.path

def Holds (url : HttpUrl cls.Origin) (query : Query) : Prop :=
  ∀ entry ∈ query, (FileUrl.scalarValues entry.1, FileUrl.scalarValues entry.2) ∈ url.params

def Stays (cls : UrlClass) (base : HttpUrl cls.Origin) (baseUrl path : JsString) (query : Option Query) : Prop :=
  ∃ text url, buildUrl cls baseUrl path query = some text ∧ parse cls text = some url ∧
    Under base url ∧ Holds url (query.getD [])

/-- Names that differ stay different where unpaired surrogates are replaced, or their values are
the same. -/
def Apart (query : Query) : Prop :=
  ∀ a ∈ query, ∀ b ∈ query, FileUrl.scalarValues a.1 = FileUrl.scalarValues b.1 →
    FileUrl.scalarValues a.2 = FileUrl.scalarValues b.2

end specification

section params

variable {name value : List Nat} {param : List Nat × List Nat} {params : List (List Nat × List Nat)}

theorem mem_setParam : param ∈ setParam name value params ↔
    param = (name, value) ∨ (param ∈ params ∧ param.1 ≠ name) := by
  induction params with
  | nil => simp [setParam]
  | cons first rest ih =>
    rw [setParam]
    by_cases same : first.1 = name
    · rw [if_pos same, mem_cons, mem_filter, mem_cons]
      constructor
      · rintro (here | ⟨later, other⟩)
        · exact .inl here
        · exact .inr ⟨.inr later, of_decide_eq_true other⟩
      · rintro (here | ⟨rfl | later, other⟩)
        · exact .inl here
        · exact absurd same other
        · exact .inr ⟨later, decide_eq_true other⟩
    · rw [if_neg same, mem_cons, ih, mem_cons]
      constructor
      · rintro (rfl | here | ⟨later, other⟩)
        · exact .inr ⟨.inl rfl, same⟩
        · exact .inl here
        · exact .inr ⟨.inr later, other⟩
      · rintro (here | ⟨rfl | later, other⟩)
        · exact .inr (.inl here)
        · exact .inl rfl
        · exact .inr (.inr ⟨later, other⟩)

theorem setAll_concat (params : List (List Nat × List Nat)) (query : Query) (entry : JsString × JsString) :
    setAll params (query ++ [entry]) =
      setParam (FileUrl.scalarValues entry.1) (FileUrl.scalarValues entry.2) (setAll params query) :=
  foldl_concat ..

theorem setAll_unique (query : Query) {a b : List Nat × List Nat} (ha : a ∈ setAll [] query)
    (hb : b ∈ setAll [] query) (same : a.1 = b.1) : a.2 = b.2 := by
  induction query using reverseRecOn with
  | nil => cases ha
  | append_singleton query entry ih =>
    rw [setAll_concat, mem_setParam] at ha hb
    rcases ha with rfl | ⟨ha, otherA⟩
    · rcases hb with rfl | ⟨-, otherB⟩
      · rfl
      · exact absurd same.symm otherB
    · rcases hb with rfl | ⟨hb, -⟩
      · exact absurd same otherA
      · exact ih ha hb

theorem setAll_holds_iff (query : Query) :
    (∀ entry ∈ query, (FileUrl.scalarValues entry.1, FileUrl.scalarValues entry.2) ∈ setAll [] query) ↔
      Apart query := by
  constructor
  · intro present a memA b memB same
    exact setAll_unique query (present a memA) (present b memB) same
  · intro apart
    induction query using reverseRecOn with
    | nil => exact forall_mem_nil _
    | append_singleton query last ih =>
      have earlier := ih fun a memA b memB =>
        apart a (mem_append_left _ memA) b (mem_append_left _ memB)
      have lastMem : last ∈ query ++ [last] := mem_append_right _ (mem_singleton_self last)
      intro entry mem
      rw [setAll_concat, mem_setParam]
      rcases mem_append.mp mem with before | here
      · by_cases same : scalarValues entry.1 = scalarValues last.1
        · left
          rw [same, apart entry mem last lastMem same]
        · exact .inr ⟨earlier entry before, same⟩
      · rw [mem_singleton.mp here]
        exact .inl rfl

end params

section spans

variable {p : Nat → Bool} {s t rest : List Nat} {c : Nat}

theorem span_inside (h : s.dropWhile p = c :: rest) (t : List Nat) :
    (s ++ t).dropWhile p = c :: (rest ++ t) ∧ (s ++ t).takeWhile p = s.takeWhile p := by
  induction s with
  | nil => cases h
  | cons d s ih =>
    rw [dropWhile_cons] at h
    rw [cons_append, dropWhile_cons, takeWhile_cons, takeWhile_cons]
    by_cases keeps : p d = true
    · rw [if_pos keeps] at h
      obtain ⟨dropped, taken⟩ := ih h
      rw [if_pos keeps, if_pos keeps, if_pos keeps, dropped, taken]
      exact ⟨rfl, rfl⟩
    · rw [if_neg keeps] at h
      cases h
      rw [if_neg keeps, if_neg keeps, if_neg keeps]
      exact ⟨rfl, rfl⟩

theorem span_before (s : List Nat) (stop : ∀ c, t.head? = some c → p c = false) :
    (s ++ t).dropWhile p = s.dropWhile p ++ t ∧ (s ++ t).takeWhile p = s.takeWhile p := by
  cases left : s.dropWhile p with
  | cons c rest => exact span_inside left t
  | nil =>
    have all := dropWhile_eq_nil_iff.mp left
    have whole : s.takeWhile p = s := by
      have split := takeWhile_append_dropWhile (p := p) (l := s)
      rwa [left, append_nil] at split
    rw [dropWhile_append_of_pos all, takeWhile_append_of_pos all, whole]
    cases t with
    | nil => exact ⟨rfl, append_nil s⟩
    | cons c t =>
      have here := stop c rfl
      rw [dropWhile_cons, takeWhile_cons, here]
      exact ⟨rfl, append_nil s⟩

theorem rdropWhile_append (s : List Nat) (h : p c = false) (t : List Nat) :
    (s ++ c :: t).rdropWhile p = s ++ c :: t.rdropWhile p := by
  unfold rdropWhile
  have reversed : (s ++ c :: t).reverse = t.reverse ++ (c :: s.reverse) := by simp
  have stop : ∀ d, (c :: s.reverse).head? = some d → p d = false := by
    intro d same
    cases same
    exact h
  rw [reversed, (span_before t.reverse stop).1]
  simp

end spans

section cleaning

theorem scalarValues_slash (s rest : JsString) : FileUrl.scalarValues (s ++ 0x2F :: rest) =
      FileUrl.scalarValues s ++ 0x2F :: FileUrl.scalarValues rest := by
  have plain : JsString.isHighSurrogate 0x2F = false := by decide
  have low : JsString.isLowSurrogate 0x2F = false := by decide
  unfold scalarValues
  rw [JsString.codePoints_append, JsString.codePoints_cons plain, map_append, map_cons]
  · rfl
  · intro u _ v head
    cases head
    rw [low, Bool.and_false]

def firstPoints (input : List Nat) : List Nat :=
  (input.dropWhile FileUrl.isStripped).filter fun c => !FileUrl.isTabOrNewline c

theorem clean_slash (s t : List Nat) : FileUrl.clean (s ++ 0x2F :: t) = firstPoints s ++
      0x2F :: ((t.rdropWhile FileUrl.isStripped).filter fun c => !FileUrl.isTabOrNewline c) := by
  have stop : ∀ c, (0x2F :: t).head? = some c → isStripped c = false := by
    intro c same
    cases same
    rfl
  unfold clean
  rw [(span_before s stop).1, rdropWhile_append _ (by decide), filter_append, filter_cons]
  rfl

theorem clean_bare {s : List Nat} (bare : ∀ c, s.getLast? = some c → FileUrl.isStripped c = false) :
    FileUrl.clean s = firstPoints s := by
  unfold clean firstPoints
  have kept : (s.dropWhile isStripped).rdropWhile isStripped =
      s.dropWhile isStripped := by
    rw [rdropWhile_eq_self_iff]
    intro some_point blank
    have last := getLast?_eq_some_getLast some_point
    obtain ⟨front, split⟩ := dropWhile_suffix (p := isStripped) (l := s)
    have same : s.getLast? = (s.dropWhile isStripped).getLast? := by
      conv_lhs => rw [← split]
      rw [getLast?_append_of_ne_nil _ some_point]
    rw [bare _ (same.trans last)] at blank
    cases blank
  rw [kept]

theorem scalarValues_slashes (s : JsString) (count : Nat) :
    FileUrl.scalarValues (s ++ List.replicate count 0x2F) =
      FileUrl.scalarValues s ++ List.replicate count 0x2F := by
  induction count generalizing s with
  | zero => rw [replicate_zero, replicate_zero, append_nil, append_nil]
  | succ count ih =>
    have rest := ih []
    rw [nil_append] at rest
    rw [replicate_succ, replicate_succ, scalarValues_slash, rest]
    rfl

theorem clean_slashes (s : List Nat) (count : Nat) : FileUrl.clean (s ++ 0x2F :: List.replicate count 0x2F) =
      firstPoints s ++ List.replicate (count + 1) 0x2F := by
  have kept : (replicate count 0x2F).rdropWhile isStripped = replicate count 0x2F := by
    rw [rdropWhile_eq_self_iff]
    intro some_point blank
    rw [getLast_replicate] at blank
    cases blank
  have shown : (replicate count 0x2F).filter (fun c => !isTabOrNewline c) =
      replicate count 0x2F :=
    filter_eq_self.mpr fun c mem => by rw [(mem_replicate.mp mem).2]; rfl
  rw [clean_slash, kept, shown, replicate_succ]

theorem clean_base {base : JsString}
    (bare : ∀ c, (FileUrl.scalarValues base).getLast? = some c → FileUrl.isStripped c = false) :
    ∃ count, FileUrl.clean (FileUrl.scalarValues base) =
      firstPoints (FileUrl.scalarValues (stripSlashes base)) ++ List.replicate count 0x2F := by
  have split := rdropWhile_append_rtakeWhile (p := fun u : UInt16 => decide (u = 0x2F)) (l := base)
  have slashes : base.rtakeWhile (fun u => decide (u = 0x2F)) =
      replicate (base.rtakeWhile fun u => decide (u = 0x2F)).length 0x2F :=
    eq_replicate_iff.mpr ⟨rfl, fun u mem => by simpa using mem_rtakeWhile_imp mem⟩
  rw [slashes] at split
  generalize (base.rtakeWhile fun u => decide (u = 0x2F)).length = count at split
  have points := scalarValues_slashes (stripSlashes base) count
  have whole : stripSlashes base ++ replicate count 0x2F = base := split
  rw [whole] at points
  refine ⟨count, ?_⟩
  cases count with
  | zero =>
    rw [replicate_zero, append_nil] at points
    rw [clean_bare bare, points, replicate_zero, append_nil]
  | succ count =>
    rw [points]
    exact clean_slashes _ count

end cleaning

section paths

theorem resolve_append {more : List (List Nat)} (some_segment : more ≠ []) (path front : List (List Nat)) :
    resolve path (front ++ more) =
      resolve (front.foldl (fun path segment => closeSegment path segment true) path) more := by
  induction front generalizing path with
  | nil => rfl
  | cons segment front ih =>
    obtain ⟨next, others, split⟩ := exists_cons_of_ne_nil
      (append_ne_nil_of_right_ne_nil front some_segment)
    rw [cons_append, split, resolve, ← split, ih, foldl_cons]
    exact cons_ne_nil _ _

theorem closeSegment_plain {segment : List Nat} (h : isDots segment = false) (path : List (List Nat))
    (slash : Bool) : closeSegment path segment slash = path ++ [segment] := by
  obtain ⟨double, single⟩ := Bool.or_eq_false_iff.mp h
  unfold closeSegment
  rw [double, single]
  rfl

theorem resolve_plain {more : List (List Nat)} (dotless : ∀ segment ∈ more, isDots segment = false)
    (path : List (List Nat)) : resolve path more = path ++ more := by
  induction more generalizing path with
  | nil => exact (append_nil path).symm
  | cons segment more ih =>
    obtain ⟨here, later⟩ := forall_mem_cons.mp dotless
    cases more with
    | nil => exact closeSegment_plain here path false
    | cons next more =>
      rw [resolve, closeSegment_plain here, ih later, append_assoc, singleton_append]
      exact cons_ne_nil _ _

theorem closeSegment_end (path : List (List Nat)) (segment : List Nat) :
    ∃ count, closeSegment path segment false = closeSegment path segment true ++ List.replicate count [] := by
  unfold closeSegment
  split
  · exact ⟨1, rfl⟩
  · split
    · exact ⟨1, rfl⟩
    · exact ⟨0, (append_nil _).symm⟩

theorem segments_append (buffer first rest : List Nat) : FileUrl.segments buffer (first ++ 0x2F :: rest) =
      FileUrl.segments buffer first ++ FileUrl.segments [] rest := by
  induction first generalizing buffer with
  | nil => rfl
  | cons c first ih =>
    rw [cons_append, FileUrl.segments, FileUrl.segments]
    split
    · rw [ih, cons_append]
    · exact ih _

theorem segments_slashes (count : Nat) :
    FileUrl.segments [] (List.replicate count 0x2F) = List.replicate (count + 1) [] := by
  induction count with
  | zero => rfl
  | succ count ih =>
    rw [replicate_succ, replicate_succ, ← ih]
    exact FileUrl.segments.eq_2 [] 0x2F _

/-- What stands between an authority and the end of a path: the segments of the base URL, but the
last of them may go on. -/
def frontSegments : List Nat → List (List Nat)
  | [] => []
  | _ :: rest => FileUrl.segments [] rest

def frontPath (tail : List Nat) : List (List Nat) :=
  (frontSegments tail).foldl (fun path segment => closeSegment path segment true) []

theorem pathOf_slash {tail : List Nat} (slash : ∀ c, tail.head? = some c → FileUrl.isSlash c = true)
    (rest : List Nat) : pathOf (tail ++ 0x2F :: rest) = resolve (frontPath tail) (FileUrl.segments [] rest) := by
  have front : FileUrl.segments [] (pathStart (tail ++ 0x2F :: rest)) =
      frontSegments tail ++ FileUrl.segments [] rest := by
    cases tail with
    | nil => rfl
    | cons c tail =>
      have here := slash c rfl
      rw [cons_append, pathStart, if_pos here]
      exact segments_append [] tail rest
  unfold pathOf
  rw [front]
  exact resolve_append (segments_ne_nil [] rest) [] (frontSegments tail)

theorem pathOf_slashes {tail : List Nat} (slash : ∀ c, tail.head? = some c → FileUrl.isSlash c = true)
    (count : Nat) : ∃ empty, pathOf (tail ++ List.replicate count 0x2F) =
      frontPath tail ++ List.replicate empty [] := by
  cases count with
  | succ count =>
    have plain : ∀ segment ∈ replicate (count + 1) ([] : List Nat), isDots segment = false := by
      intro segment mem
      rw [(mem_replicate.mp mem).2]
      rfl
    rw [replicate_succ, pathOf_slash slash, segments_slashes, resolve_plain plain]
    exact ⟨count + 1, rfl⟩
  | zero =>
    rw [replicate_zero, append_nil]
    cases tail with
    | nil => exact ⟨1, rfl⟩
    | cons c tail =>
      have here := slash c rfl
      have some_segment := segments_ne_nil [] tail
      have whole : pathOf (c :: tail) = resolve [] (FileUrl.segments [] tail) := by
        unfold pathOf
        rw [pathStart, if_pos here]
      have last := dropLast_append_getLast some_segment
      have ends : frontPath (c :: tail) =
          (FileUrl.segments [] tail).foldl (fun path segment => closeSegment path segment true) [] := rfl
      rw [whole, ends, ← last, resolve_append (cons_ne_nil _ _), foldl_append]
      exact closeSegment_end _ _

theorem extends_front (front more : List (List Nat)) (empty : Nat) :
    Extends (front ++ List.replicate empty []) (front ++ more) := by
  have ends : (front ++ replicate empty ([] : List Nat)).rdropWhile isEmpty =
      front.rdropWhile isEmpty := by
    induction empty with
    | zero => rw [replicate_zero, append_nil]
    | succ empty ih =>
      rw [replicate_succ', ← append_assoc, rdropWhile_concat_pos _ _ _ rfl, ih]
  unfold Extends
  rw [ends]
  exact (List.rdropWhile_prefix _ _).trans (prefix_append front more)

end paths

section joining

variable {cls : UrlClass}

theorem unmarked_span {s : List Nat} (unmarked : ∀ c ∈ s, isMark c = false) :
    (s.takeWhile fun c => !isMark c) = s ∧ (s.dropWhile fun c => !isMark c) = [] := by
  have all : ∀ c ∈ s, (!isMark c) = true := fun c mem => by rw [unmarked c mem]; rfl
  exact ⟨takeWhile_eq_self_iff.mpr all, dropWhile_eq_nil_iff.mpr all⟩

theorem parsePoints_parts {input rest authority : List Nat} {colon : Nat} {secure : Bool}
    (scheme : (input.dropWhile fun c => !isColon c) = colon :: rest)
    (known : secure? (input.takeWhile fun c => !isColon c) = some secure)
    (host : rest.dropWhile FileUrl.isSlash = authority)
    (unmarked : ∀ c ∈ authority.dropWhile (fun c => !endsAuthority c), isMark c = false) : parsePoints cls input =
      (cls.parseAuthority secure (authority.takeWhile fun c => !endsAuthority c)).map fun origin =>
        ⟨origin, pathOf (authority.dropWhile fun c => !endsAuthority c), []⟩ := by
  obtain ⟨taken, dropped⟩ := unmarked_span unmarked
  unfold parsePoints
  rw [scheme, known]
  dsimp only [tail?_cons, bind_eq_bind, bind_some]
  rw [host, taken, dropped]
  cases cls.parseAuthority secure (authority.takeWhile fun c => !endsAuthority c) <;> rfl

theorem parsePoints_front (hostless : ∀ secure, cls.parseAuthority secure [] = none) {front : List Nat}
    {count : Nat} {url : HttpUrl cls.Origin} (unmarked : ∀ c ∈ front, isMark c = false)
    (parsed : parsePoints cls (front ++ List.replicate count 0x2F) = some url) :
    ∃ tail, (∀ c, tail.head? = some c → FileUrl.isSlash c = true) ∧
      ∀ more, (∀ c, more.head? = some c → c = 0x2F) → (∀ c ∈ more, isMark c = false) →
        parsePoints cls (front ++ more) = some ⟨url.origin, pathOf (tail ++ more), []⟩ := by
  have slashes : ∀ c ∈ replicate count 0x2F, c = 0x2F := fun c mem => (mem_replicate.mp mem).2
  cases scheme : front.dropWhile fun c => !isColon c with
  | nil =>
    have none : (front ++ replicate count 0x2F).dropWhile (fun c => !isColon c) = [] := by
      rw [dropWhile_append_of_pos (dropWhile_eq_nil_iff.mp scheme), dropWhile_eq_nil_iff]
      intro c mem
      rw [slashes c mem]
      rfl
    unfold parsePoints at parsed
    rw [none] at parsed
    cases parsed
  | cons colon rest =>
    have inside : rest ⊆ front := fun c mem =>
      (dropWhile_suffix _).subset (scheme ▸ mem_cons_of_mem colon mem)
    cases known : secure? (front.takeWhile fun c => !isColon c) with
    | none =>
      obtain ⟨dropped, taken⟩ := span_inside scheme (replicate count 0x2F)
      unfold parsePoints at parsed
      rw [dropped, taken, known] at parsed
      cases parsed
    | some secure =>
      cases host : rest.dropWhile isSlash with
      | nil =>
        obtain ⟨dropped, taken⟩ := span_inside scheme (replicate count 0x2F)
        have empty : (rest ++ replicate count 0x2F).dropWhile isSlash = [] := by
          rw [dropWhile_append_of_pos (dropWhile_eq_nil_iff.mp host), dropWhile_eq_nil_iff]
          intro c mem
          rw [slashes c mem]
          rfl
        rw [parsePoints_parts dropped (taken ▸ known) empty (forall_mem_nil _)] at parsed
        rw [takeWhile_nil, hostless] at parsed
        cases parsed
      | cons first authority =>
        have within : first :: authority ⊆ front := fun c mem =>
          inside ((dropWhile_suffix isSlash).subset (host ▸ mem))
        have read : ∀ more, (∀ c, more.head? = some c → c = 0x2F) → (∀ c ∈ more, isMark c = false) →
            parsePoints cls (front ++ more) =
              (cls.parseAuthority secure ((first :: authority).takeWhile fun c => !endsAuthority c)).map
                fun origin => ⟨origin,
                  pathOf (((first :: authority).dropWhile fun c => !endsAuthority c) ++ more), []⟩ := by
          intro more slash plain
          obtain ⟨dropped, taken⟩ := span_inside scheme more
          have behind : (rest ++ more).dropWhile isSlash = (first :: authority) ++ more :=
            (span_inside host more).1
          have stop : ∀ c, more.head? = some c → (!endsAuthority c) = false := by
            intro c same
            rw [slash c same]
            rfl
          obtain ⟨path, name⟩ := span_before (first :: authority) stop
          have marks : ∀ c ∈ (first :: authority ++ more).dropWhile (fun c => !endsAuthority c),
              isMark c = false := by
            intro c mem
            rw [path] at mem
            rcases mem_append.mp mem with mem | mem
            · exact unmarked c (within ((dropWhile_suffix _).subset mem))
            · exact plain c mem
          rw [parsePoints_parts dropped (taken ▸ known) behind marks, path, name]
        have base := read (replicate count 0x2F) (fun c same => slashes c (mem_of_head? same))
          (fun c mem => by rw [slashes c mem]; rfl)
        rw [base] at parsed
        obtain ⟨origin, allowed, rfl⟩ := map_eq_some_iff.mp parsed
        refine ⟨(first :: authority).dropWhile fun c => !endsAuthority c, ?_, ?_⟩
        · intro c head
          have some_point := mem_of_head? head
          have ends := head?_dropWhile_not (fun c => !endsAuthority c) (first :: authority)
          rw [head] at ends
          have marked := unmarked c (within ((dropWhile_suffix _).subset some_point))
          simpa [endsAuthority, marked] using ends
        · intro more slash plain
          rw [read more slash plain, allowed]
          rfl

theorem parse_joined (hostless : ∀ secure, cls.parseAuthority secure [] = none) {base path : JsString}
    {url : HttpUrl cls.Origin} (valid : BaseUrl cls base url) (plain : PlainPath path) :
    ∃ under, parse cls (stripSlashes base ++ 0x2F :: path) = some under ∧ Under url under ∧
      under.params = [] := by
  obtain ⟨count, cleaned⟩ := clean_base valid.bare
  have parsed := valid.parsed
  unfold parse at parsed ⊢
  have marks : ∀ c ∈ clean (scalarValues base), isMark c = false := fun c mem =>
    valid.unmarked c ((dropWhile_suffix _).subset
      ((List.rdropWhile_prefix _ _).subset (mem_of_mem_filter mem)))
  rw [cleaned] at parsed marks
  obtain ⟨tail, slash, read⟩ := parsePoints_front hostless
    (fun c mem => marks c (mem_append_left _ mem)) parsed
  have own := read (replicate count 0x2F)
    (fun c same => (mem_replicate.mp (mem_of_head? same)).2)
    (fun c mem => marks c (mem_append_right _ mem))
  have whole := Option.some.inj (parsed.symm.trans own)
  obtain ⟨empty, basePath⟩ := pathOf_slashes slash count
  have later : ∀ c ∈ 0x2F :: lastPoints path, isMark c = false := by
    refine forall_mem_cons.mpr ⟨rfl, fun c mem => plain.unmarked c ?_⟩
    exact (List.rdropWhile_prefix _ _).subset (mem_of_mem_filter mem)
  have joined := read (0x2F :: lastPoints path) (fun c same => (Option.some.inj same).symm) later
  rw [pathOf_slash slash, resolve_plain plain.dotless] at joined
  rw [scalarValues_slash, clean_slash]
  refine ⟨_, joined, ⟨rfl, ?_⟩, rfl⟩
  rw [whole, basePath]
  exact extends_front _ _ _

theorem plainPath_tail {path : JsString} (plain : PlainPath (0x2F :: path)) : PlainPath path := by
  have points := scalarValues_slash [] path
  rw [nil_append] at points
  have read : lastPoints (0x2F :: path) = 0x2F :: lastPoints path := by
    have kept := rdropWhile_append (p := isStripped) [] (c := 0x2F) (by decide)
      (scalarValues path)
    unfold lastPoints
    rw [points]
    exact congrArg (filter _) kept
  refine ⟨fun c mem => plain.unmarked c ?_, fun segment mem => plain.dotless segment ?_⟩
  · rw [points]
    exact mem_append_right _ (mem_cons_of_mem _ mem)
  · rw [read]
    exact mem_cons_of_mem _ mem

theorem joinBase_relative {base path : JsString} (relative : (js "http").isPrefixOf path = false)
    (plain : PlainPath path) : ∃ rest, joinBase base path = base ++ 0x2F :: rest ∧ PlainPath rest := by
  have http : ¬(js "http").isPrefixOf path = true := by
    rw [relative]
    exact Bool.false_ne_true
  unfold joinBase
  rw [if_neg http]
  have slash : js "/" = [0x2F] := by decide
  rw [slash]
  by_cases rooted : isPrefixOf [0x2F] path = true
  · obtain ⟨rest, rfl⟩ := isPrefixOf_iff_prefix.mp rooted
    refine ⟨rest, ?_, plainPath_tail plain⟩
    rw [if_pos rooted, append_nil]
    rfl
  · refine ⟨path, ?_, plain⟩
    rw [if_neg rooted, append_assoc]
    rfl

theorem no_params {path : JsString} (plain : PlainPath path) {url : HttpUrl cls.Origin}
    (parsed : parse cls path = some url) : url.params = [] := by
  obtain ⟨rest, scheme, parsed⟩ := bind_eq_some_iff.mp parsed
  obtain ⟨secure, -, parsed⟩ := bind_eq_some_iff.mp parsed
  obtain ⟨origin, -, parsed⟩ := bind_eq_some_iff.mp parsed
  have marks : ∀ c ∈ (rest.dropWhile isSlash).dropWhile fun c => !endsAuthority c,
      isMark c = false := by
    intro c mem
    have behind := (dropWhile_suffix _).subset ((dropWhile_suffix _).subset mem)
    have cleaned : c ∈ clean (scalarValues path) := by
      cases split : (clean (scalarValues path)).dropWhile fun c => !isColon c with
      | nil =>
        rw [split] at scheme
        cases scheme
      | cons colon tail =>
        rw [split] at scheme
        cases scheme
        exact (dropWhile_suffix _).subset (split ▸ mem_cons_of_mem colon behind)
    exact plain.unmarked c ((dropWhile_suffix _).subset
      ((List.rdropWhile_prefix _ _).subset (mem_of_mem_filter cleaned)))
  dsimp only at parsed
  rw [(unmarked_span marks).2] at parsed
  cases parsed
  rfl

theorem stays_iff {base path : JsString} {baseUrl : HttpUrl cls.Origin} {query : Option Query}
    (bare : ∀ url, parse cls (joinBase (stripSlashes base) path) = some url → url.params = [])
    (readBack : ∀ url, parse cls (joinBase (stripSlashes base) path) = some url →
      ∀ entries, query = some entries →
        parse cls (cls.toString { url with params := setAll url.params entries }) =
          some { url with params := setAll url.params entries }) :
    Stays cls baseUrl base path query ↔
      (∃ url, parse cls (joinBase (stripSlashes base) path) = some url ∧ Under baseUrl url) ∧
        Apart (query.getD []) := by
  cases query with
  | none =>
    constructor
    · rintro ⟨text, url, built, parsed, under, -⟩
      cases built
      exact ⟨⟨url, parsed, under⟩, nofun⟩
    · rintro ⟨⟨url, parsed, under⟩, -⟩
      exact ⟨_, url, rfl, parsed, under, forall_mem_nil _⟩
  | some entries =>
    constructor
    · rintro ⟨text, final, built, parsed, under, holds⟩
      obtain ⟨url, read, rfl⟩ := map_eq_some_iff.mp built
      have back := readBack url read entries rfl
      cases parsed.symm.trans back
      rw [Holds, bare url read] at holds
      exact ⟨⟨url, read, under⟩, (setAll_holds_iff entries).mp holds⟩
    · rintro ⟨⟨url, read, under⟩, apart⟩
      have built : buildUrl cls base path (some entries) =
          some (cls.toString { url with params := setAll url.params entries }) :=
        map_eq_some_iff.mpr ⟨url, read, rfl⟩
      refine ⟨_, _, built, readBack url read entries rfl, under, ?_⟩
      rw [Holds, bare url read]
      exact (setAll_holds_iff entries).mpr apart

end joining

theorem stays_below (cls : UrlClass) (hostless : ∀ secure, cls.parseAuthority secure [] = none)
    (base path : JsString) (baseUrl : HttpUrl cls.Origin) (query : Option Query)
    (valid : BaseUrl cls base baseUrl) (plain : PlainPath path)
    (readBack : ∀ url, parse cls (joinBase (stripSlashes base) path) = some url →
      ∀ entries, query = some entries →
        parse cls (cls.toString { url with params := setAll url.params entries }) =
          some { url with params := setAll url.params entries }) :
    Stays cls baseUrl base path query ↔
      ((js "http").isPrefixOf path = false ∨ ∃ url, parse cls path = some url ∧ Under baseUrl url) ∧
        Apart (query.getD []) := by
  by_cases http : (js "http").isPrefixOf path = true
  · have whole : joinBase (stripSlashes base) path = path := if_pos http
    rw [whole] at readBack
    have iff : Stays cls baseUrl base path query ↔ _ := stays_iff
      (by rw [whole]; exact fun url parsed => no_params plain parsed) (by rw [whole]; exact readBack)
    rw [iff, whole, http]
    simp only [Bool.true_eq_false, false_or]
  · rw [Bool.not_eq_true] at http
    obtain ⟨rest, joined, below⟩ := @joinBase_relative (stripSlashes base) path http plain
    obtain ⟨under, parsed, inside, none⟩ := parse_joined hostless valid below
    rw [← joined] at parsed
    rw [stays_iff ?_ readBack]
    · exact and_congr_left fun _ => iff_of_true ⟨under, parsed, inside⟩ (.inl http)
    · intro url read
      cases Option.some.inj (parsed.symm.trans read)
      exact none

def Absolute (path : JsString) : Prop :=
  (js "http://").isPrefixOf path = true ∨ (js "https://").isPrefixOf path = true

/-- Where the platform reads its own URL text back, a request whose path is no absolute URL stays below the base
URL with every entry of its query if and only if the path does not begin with `http`, or is itself a URL below the
base URL, and no entry overwrites another. -/
theorem client_url (cls : UrlClass) (hostless : ∀ secure, cls.parseAuthority secure [] = none)
    (base path : JsString) (baseUrl : HttpUrl cls.Origin) (query : Option Query)
    (valid : BaseUrl cls base baseUrl) (plain : PlainPath path)
    (readBack : ∀ url, parse cls (joinBase (stripSlashes base) path) = some url →
      ∀ entries, query = some entries →
        parse cls (cls.toString { url with params := setAll url.params entries }) =
          some { url with params := setAll url.params entries }) :
    (¬Absolute path → Stays cls baseUrl base path query) ↔
      Absolute path ∨ ((js "http").isPrefixOf path = false ∨ ∃ url, parse cls path = some url ∧ Under baseUrl url) ∧
        Apart (query.getD []) := by
  rw [stays_below cls hostless base path baseUrl query valid plain readBack]
  exact or_iff_not_imp_left.symm

section samples

def points (text : String) : List Nat := text.toList.map Char.toNat

def plainClass : UrlClass where
  Origin := Bool × List Nat
  parseAuthority secure authority := if authority = [] then none else some (secure, authority)
  parseParams text := (text.splitOn 0x26).map fun param =>
    (param.takeWhile (· ≠ 0x3D), (param.dropWhile (· ≠ 0x3D)).tail)
  toString url :=
    let scheme := if url.origin.1 then points "https://" else points "http://"
    let params := url.params.map fun param => param.1 ++ 0x3D :: param.2
    let text := scheme ++ url.origin.2 ++ FileUrl.pathnameOf url.path ++
      if params = [] then [] else 0x3F :: [0x26].intercalate params
    text.map Nat.toUInt16

def usersBase : HttpUrl (Bool × List Nat) := ⟨(true, points "h"), [points "v1", []], []⟩

theorem usersBase_valid : BaseUrl plainClass (js "https://h/v1/") usersBase where
  parsed := rfl
  unmarked := by
    unfold Unmarked
    decide
  bare := by
    intro c last
    cases last
    rfl

theorem client_url_users : Stays plainClass usersBase (js "https://h/v1/") (js "users")
    (some [(js "page", js "2")]) := by
  have relative : ¬Absolute (js "users") := by
    unfold Absolute
    decide
  have plain : PlainPath (js "users") := ⟨by unfold Unmarked; decide, by decide⟩
  refine (client_url plainClass (fun _ => rfl) (js "https://h/v1/") (js "users") usersBase _
    usersBase_valid plain ?_).mpr (.inr ⟨.inl (by decide), ?_⟩) relative
  · intro url parsed entries same
    cases same
    have read : parse plainClass (joinBase (stripSlashes (js "https://h/v1/")) (js "users")) =
        some ⟨(true, points "h"), [points "v1", points "users"], []⟩ := rfl
    cases Option.some.inj (parsed.symm.trans read)
    rfl
  · intro a memA b memB _
    rw [List.mem_singleton.mp memA, List.mem_singleton.mp memB]

/-- A relative path that begins with `http` is taken for a URL. -/
theorem httpbin_lost : PlainPath (js "httpbin/get") ∧ ¬Absolute (js "httpbin/get") ∧
    BaseUrl plainClass (js "https://h/v1/") usersBase ∧
    ¬Stays plainClass usersBase (js "https://h/v1/") (js "httpbin/get") none := by
  refine ⟨⟨by unfold Unmarked; decide, by decide⟩, by unfold Absolute; decide, usersBase_valid, ?_⟩
  rintro ⟨text, url, built, parsed, -⟩
  have same : some (js "httpbin/get") = some text := built
  cases same
  have none : parse plainClass (js "httpbin/get") = none := rfl
  rw [none] at parsed
  cases parsed

end samples

end ClientUrl

end ForgeDeno
