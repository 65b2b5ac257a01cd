import ForgeDeno.ConfigPrecedence
import ForgeDeno.IniLines

namespace ForgeDeno

open JsString List

/-- A segment of a dotted name: no dot, equals sign, bracket, comment marker or line break is in it. -/
def PlainName (name : JsString) : Prop :=
  ∀ u ∈ name, u ≠ 0x2E ∧ u ≠ 0x3D ∧ u ≠ 0x5B ∧ u ≠ 0x5D ∧ u ≠ 0x3B ∧ u ≠ 0x23 ∧ u ≠ 0x0A

instance (name : JsString) : Decidable (PlainName name) :=
  inferInstanceAs (Decidable (∀ u ∈ name, u ≠ 0x2E ∧ u ≠ 0x3D ∧ u ≠ 0x5B ∧ u ≠ 0x5D ∧ u ≠ 0x3B ∧ u ≠ 0x23 ∧
    u ≠ 0x0A))

inductive IniPart where
  | header (before : JsString) (names : List JsString) (after : JsString)
  | setting (names : List JsString) (value : JsString)
  | other (text : JsString)

namespace IniPart

def dotted (names : List JsString) : JsString := JsString.join (js ".") names

def text : IniPart → JsString
  | .header before names after => before ++ 0x5B :: (dotted names ++ 0x5D :: after)
  | .setting names value => dotted names ++ 0x3D :: value
  | .other text => text

/-- Headers and settings have plain names and every key has one; a header may be indented and have a
comment behind it. Any other line is blank, a comment or malformed. -/
def Formed (casing : Casing) : IniPart → Prop
  | .header before names after =>
    (∀ u ∈ before, isWhiteSpace u = true ∧ u ≠ 0x0A) ∧ (∀ name ∈ names, PlainName name) ∧
      (after.trim = [] ∨ after.trim.startsWith 0x3B ∨ after.trim.startsWith 0x23) ∧ 0x0A ∉ after
  | .setting names value =>
    (∀ name ∈ names, PlainName name) ∧ (∃ name ∈ names, keySegment casing name ≠ []) ∧ 0x0A ∉ value
  | .other text => 0x0A ∉ text ∧ (readLine casing text = .nothing ∨ ∃ message,
      readLine casing text = .malformed message)

end IniPart

def documentText (parts : List IniPart) : JsString := iniText (parts.map IniPart.text)

def SameName (casing : Casing) (name name' : JsString) : Prop :=
  keySegment casing name = keySegment casing name'

/-- The second document has the settings of the first, each key with the section it stands under
spelling the same dotted path; where the path is split between the two does not matter. Both are read
from a line on that stands under the given sections. -/
inductive Respelled (casing : Casing) : List JsString → List JsString → List IniPart → List IniPart → Prop
  | nil (here here' : List JsString) : Respelled casing here here' [] []
  | leave {here here' names : List JsString} {before after : JsString} {parts parts' : List IniPart} :
    Respelled casing names here' parts parts' →
      Respelled casing here here' (.header before names after :: parts) parts'
  | enter {here here' names : List JsString} {before after : JsString} {parts parts' : List IniPart} :
    Respelled casing here names parts parts' →
      Respelled casing here here' parts (.header before names after :: parts')
  | other {here here' : List JsString} {text : JsString} {parts parts' : List IniPart} :
    Respelled casing here here' parts parts' →
      Respelled casing here here' (.other text :: parts) (.other text :: parts')
  | setting {here here' names names' : List JsString} {value : JsString} {parts parts' : List IniPart} :
    List.Forall₂ (SameName casing) (here ++ names) (here' ++ names') →
      Respelled casing here here' parts parts' →
      Respelled casing here here' (.setting names value :: parts) (.setting names' value :: parts')

/-- The keys for which `declared` is called, in order. -/
def declaredLookups (casing : Casing) (content : JsString) : List JsString :=
  (iniSettings casing content).map IniSetting.key

section reading

variable {casing : Casing}

def namedPath (casing : Casing) (names : List JsString) : List JsString :=
  (names.map (keySegment casing)).filter fun part => part ≠ []

theorem namedPath_append (front back : List JsString) :
    namedPath casing (front ++ back) = namedPath casing front ++ namedPath casing back := by
  unfold namedPath
  rw [map_append, filter_append]

variable {names : List JsString}

theorem namedPath_same {names' : List JsString} (same : List.Forall₂ (SameName casing) names names') :
    namedPath casing names = namedPath casing names' := by
  have maps : names.map (keySegment casing) = names'.map (keySegment casing) := by
    induction same with
    | nil => rfl
    | cons first _ ih => rw [map_cons, map_cons, ih, show keySegment casing _ = _ from first]
  unfold namedPath
  rw [maps]

theorem splitKey_dotted (empty : casing.toLowerCase [] = [])
    (plain : ∀ name ∈ names, PlainName name) : splitKey casing (IniPart.dotted names) = namedPath casing names :=
  splitKey_join empty fun name mem dot => (plain name mem 0x2E dot).1 rfl

theorem dotted_unit (plain : ∀ name ∈ names, PlainName name) {u : UInt16}
    (mem : u ∈ IniPart.dotted names) : u ≠ 0x3D ∧ u ≠ 0x5B ∧ u ≠ 0x5D ∧ u ≠ 0x3B ∧ u ≠ 0x23 ∧ u ≠ 0x0A := by
  rcases mem_join mem with dot | ⟨name, inside, here⟩
  · have same : u = 0x2E := mem_singleton.mp dot
    rw [same]
    decide
  · exact (plain name inside u here).2

theorem readLine_setting (empty : casing.toLowerCase [] = []) {value : JsString}
    (formed : (IniPart.setting names value).Formed casing) : readLine casing (IniPart.setting names value).text =
      .setting (namedPath casing names) (value.rdropWhile isWhiteSpace) := by
  obtain ⟨plain, ⟨name, mem, named⟩, _⟩ := formed
  have leaf := splitKey_dotted empty plain
  have some_leaf : namedPath casing names ≠ [] := by
    apply ne_nil_of_mem (a := keySegment casing name)
    exact mem_filter.mpr ⟨mem_map_of_mem mem, decide_eq_true named⟩
  rw [← leaf] at some_leaf ⊢
  apply readLine_keyed _ _ some_leaf
  · exact fun inside => (dotted_unit plain inside).1 rfl
  · intro u first
    have inside : u ∈ IniPart.dotted names :=
      (dropWhile_suffix _).subset (mem_of_mem_head? first)
    have units := dotted_unit plain inside
    exact ⟨units.2.2.2.1, units.2.2.2.2.1, units.2.1⟩

theorem readLine_header (empty : casing.toLowerCase [] = []) {before after : JsString}
    (formed : (IniPart.header before names after).Formed casing) :
    readLine casing (IniPart.header before names after).text = .header (namedPath casing names) := by
  obtain ⟨blank, plain, comment, _⟩ := formed
  have indent : before.dropWhile isWhiteSpace = [] := by
    have all := dropWhile_blank (fun u mem => (blank u mem).1) []
    rwa [append_nil] at all
  have trimmed : (IniPart.header before names after).text.trim =
      0x5B :: (IniPart.dotted names ++ 0x5D :: after.rdropWhile isWhiteSpace) := by
    show (before ++ 0x5B :: (IniPart.dotted names ++ 0x5D :: after)).trim = _
    rw [trim_visible rfl, indent, rdropWhile_visible rfl]
    rfl
  have header : parseSection casing (0x5B :: (IniPart.dotted names ++ 0x5D ::
      after.rdropWhile isWhiteSpace)) = .ok (namedPath casing names) := by
    have absent : (0x5D : UInt16) ∉ 0x5B :: IniPart.dotted names := by
      intro mem
      rcases mem_cons.mp mem with same | inside
      · cases same
      · exact (dotted_unit plain inside).2.2.1 rfl
    have cut := cut_first absent (after.rdropWhile isWhiteSpace)
    rw [cons_append] at cut
    unfold parseSection
    rw [cut]
    dsimp only
    rw [trim_rdropWhile, tail_cons, splitKey_dotted empty plain, if_neg]
    rintro ⟨some_rest, no_semicolon, no_hash⟩
    rcases comment with none_left | semicolon | hash
    · exact some_rest none_left
    · rw [semicolon] at no_semicolon
      cases no_semicolon
    · rw [hash] at no_hash
      cases no_hash
  unfold readLine
  dsimp only
  rw [trimmed, header]
  simp [JsString.startsWith]

theorem unbroken_text {part : IniPart} (formed : part.Formed casing) : 0x0A ∉ part.text := by
  cases part with
  | header before names after =>
    obtain ⟨blank, plain, _, unbroken⟩ := formed
    intro mem
    rcases mem_append.mp mem with inside | mem
    · exact (blank _ inside).2 rfl
    · rcases mem_cons.mp mem with same | mem
      · cases same
      · rcases mem_append.mp mem with inside | mem
        · exact (dotted_unit plain inside).2.2.2.2.2 rfl
        · rcases mem_cons.mp mem with same | inside
          · cases same
          · exact unbroken inside
  | setting names value =>
    obtain ⟨plain, _, unbroken⟩ := formed
    intro mem
    rcases mem_append.mp mem with inside | mem
    · exact (dotted_unit plain inside).2.2.2.2.2 rfl
    · rcases mem_cons.mp mem with same | inside
      · cases same
      · exact unbroken inside
  | other text => exact formed.1

theorem readLines_respelled (empty : casing.toLowerCase [] = []) {here here' : List JsString}
    {parts parts' : List IniPart} (same : Respelled casing here here' parts parts')
    (formed : ∀ part ∈ parts, part.Formed casing) (formed' : ∀ part ∈ parts', part.Formed casing)
    (index index' : Nat) : (readLines casing (parts'.map IniPart.text) index' (namedPath casing here')).1 =
        (readLines casing (parts.map IniPart.text) index (namedPath casing here)).1 ∧
      ((readLines casing (parts'.map IniPart.text) index' (namedPath casing here')).2.isSome ↔
        (readLines casing (parts.map IniPart.text) index (namedPath casing here)).2.isSome) := by
  induction same generalizing index index' with
  | nil => exact ⟨rfl, Iff.rfl⟩
  | leave _ ih =>
    obtain ⟨first, later⟩ := forall_mem_cons.mp formed
    rw [map_cons, readLines, readLine_header empty first]
    exact ih later formed' (index + 1) index'
  | enter _ ih =>
    obtain ⟨first, later⟩ := forall_mem_cons.mp formed'
    rw [map_cons, readLines, readLine_header empty first]
    exact ih formed later index (index' + 1)
  | other _ ih =>
    obtain ⟨first, later⟩ := forall_mem_cons.mp formed
    have later' := (forall_mem_cons.mp formed').2
    rw [map_cons, map_cons, readLines, readLines]
    rcases first.2 with nothing | ⟨message, malformed⟩
    · rw [show readLine casing (IniPart.other _).text = _ from nothing]
      exact ih later later' (index + 1) (index' + 1)
    · rw [show readLine casing (IniPart.other _).text = _ from malformed]
      simp
  | setting path _ ih =>
    obtain ⟨first, later⟩ := forall_mem_cons.mp formed
    obtain ⟨first', later'⟩ := forall_mem_cons.mp formed'
    have whole := namedPath_same path
    rw [namedPath_append, namedPath_append] at whole
    obtain ⟨rest, failures⟩ := ih later later' (index + 1) (index' + 1)
    rw [map_cons, map_cons, readLines, readLines, readLine_setting empty first,
      readLine_setting empty first']
    dsimp only
    rw [whole, rest]
    exact ⟨rfl, failures⟩

/-- Documents that spell the same settings under their sections are parsed to the same tree, and
`declared` is asked for the same keys in the same order. -/
theorem section_flattening (empty : casing.toLowerCase [] = []) {document document' : List IniPart}
    (formed : ∀ part ∈ document, part.Formed casing) (formed' : ∀ part ∈ document', part.Formed casing)
    (same : Respelled casing [] [] document document') (declared : JsString → Option ConfigValue)
    (source : Option JsString) :
    declaredLookups casing (documentText document') = declaredLookups casing (documentText document) ∧
      (parseIni casing (documentText document') declared source).toOption =
        (parseIni casing (documentText document) declared source).toOption := by
  have lines : ∀ parts : List IniPart, (∀ part ∈ parts, part.Formed casing) →
      readLines casing (splitLines (documentText parts)) 0 [] =
        readLines casing (parts.map IniPart.text) 0 [] := by
    intro parts all
    apply readLines_iniText
    intro line mem
    obtain ⟨part, inside, rfl⟩ := List.mem_map.mp mem
    exact unbroken_text (all part inside)
  obtain ⟨settings, failures⟩ := readLines_respelled empty same formed formed' 0 0
  have root : namedPath casing [] = [] := rfl
  rw [root] at settings failures
  unfold declaredLookups iniSettings parseIni
  rw [parseIniLines_eq, parseIniLines_eq, lines document formed, lines document' formed', settings]
  refine ⟨rfl, ?_⟩
  cases failed : (readLines casing (document.map IniPart.text) 0 []).2 with
  | none =>
    have fine : (readLines casing (document'.map IniPart.text) 0 []).2 = none := by
      rw [failed] at failures
      simpa using failures
    rw [fine]
  | some failure =>
    rw [failed] at failures
    obtain ⟨failure', failed'⟩ := Option.isSome_iff_exists.mp (failures.mpr rfl)
    rw [failed']
    rfl

end reading

def sectionPort : List IniPart :=
  [.header [] [js "server", js "gin"] [], .setting [js "Port "] (js " 8080")]

def dottedPort : List IniPart :=
  [.header [] [] [], .setting [js "Server", js " GIN", js "port "] (js " 8080")]

theorem dotted_port_same : declaredLookups asciiCasing (documentText dottedPort) =
        declaredLookups asciiCasing (documentText sectionPort) ∧
      (parseIni asciiCasing (documentText dottedPort) (fun _ => none) none).toOption =
        (parseIni asciiCasing (documentText sectionPort) (fun _ => none) none).toOption := by
  have header (names : List JsString) (plain : ∀ name ∈ names, PlainName name) :
      (IniPart.header [] names []).Formed asciiCasing :=
    ⟨fun _ mem => absurd mem List.not_mem_nil, plain, .inl rfl, List.not_mem_nil⟩
  have first : ∀ part ∈ sectionPort, part.Formed asciiCasing := by
    intro part mem
    rcases List.mem_cons.mp mem with rfl | mem
    · exact header _ (by decide)
    · rw [List.mem_singleton.mp mem]
      exact ⟨by decide, ⟨js "Port ", by decide, by decide⟩, by decide⟩
  have second : ∀ part ∈ dottedPort, part.Formed asciiCasing := by
    intro part mem
    rcases List.mem_cons.mp mem with rfl | mem
    · exact header _ (by decide)
    · rw [List.mem_singleton.mp mem]
      exact ⟨by decide, ⟨js "port ", by decide, by decide⟩, by decide⟩
  have names : List.Forall₂ (SameName asciiCasing) ([js "server", js "gin"] ++ [js "Port "])
      ([] ++ [js "Server", js " GIN", js "port "]) :=
    .cons (by decide : keySegment _ _ = keySegment _ _) (.cons (by decide : keySegment _ _ = keySegment _ _)
      (.cons (by decide : keySegment _ _ = keySegment _ _) .nil))
  exact section_flattening rfl first second (.leave (.enter (.setting names (.nil _ _)))) _ _

end ForgeDeno
