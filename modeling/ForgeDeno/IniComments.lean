import ForgeDeno.ConfigPrecedence
import ForgeDeno.PathWrites

namespace ForgeDeno

open JsString List Option

def IsMarker (u : UInt16) : Prop := u = 0x3B ∨ u = 0x23

structure KeyText (casing : Casing) where
  text : JsString
  no_equals : 0x3D ∉ text
  unbroken : 0x0A ∉ text
  start : ∀ u ∈ (text.dropWhile isWhiteSpace).head?, u ≠ 0x3B ∧ u ≠ 0x23 ∧ u ≠ 0x5B
  named : splitKey casing text ≠ []

/-- An unquoted value, without the white space around it and without a comment. -/
structure BareValue where
  text : JsString
  trimmed : text.trim = text
  unbroken : 0x0A ∉ text
  unquoted : (trimIniValue text).2 = false
  markerless : text.IsChain fun before u => isWhiteSpace before = true → ¬ IsMarker u

structure Gap where
  text : JsString
  unbroken : 0x0A ∉ text
  blank : ∀ u ∈ text, isWhiteSpace u = true

structure Remark where
  marker : UInt16
  marked : IsMarker marker
  text : JsString
  unbroken : 0x0A ∉ text

namespace Remark

def after (remark : Remark) (gap : Gap) : JsString := gap.text ++ remark.marker :: remark.text

end Remark

/-- The line `key = value` with this behind it. -/
def settingLine {casing : Casing} (key : KeyText casing) (lead : Gap) (value : BareValue)
    (rest : JsString) : JsString := key.text ++ 0x3D :: (lead.text ++ value.text ++ rest)

/-- In every document, and whatever is declared, the line parses with the comment as it does without. -/
def CommentTransparent {casing : Casing} (key : KeyText casing) (lead : Gap) (value : BareValue) (gap : Gap)
    (remark : Remark) : Prop :=
  ∀ (before after : List JsString) (declared : JsString → Option ConfigValue) (source : Option JsString),
    (∀ line ∈ before, 0x0A ∉ line) → (∀ line ∈ after, 0x0A ∉ line) →
    parseIni casing (iniText (before ++ settingLine key lead value (remark.after gap) :: after)) declared
        source =
      parseIni casing (iniText (before ++ settingLine key lead value [] :: after)) declared source

def ClosesQuote (value : BareValue) (text : JsString) : Prop :=
  ∃ quote ∈ value.text.head?, (quote = 0x22 ∨ quote = 0x27) ∧ quote ∈ text

def Gap.EndsPlain (gap : Gap) : Prop := gap.text.getLast? = some 0x20 ∨ gap.text.getLast? = some 0x09

section lines

variable {casing : Casing} {declared : JsString → Option ConfigValue}

theorem readLines_replace {line line' raw raw' : JsString} {leaf : List JsString}
    (reads : readLine casing line = .setting leaf raw) (reads' : readLine casing line' = .setting leaf raw')
    (same : ∀ template, parseIniValue casing raw template = parseIniValue casing raw' template)
    (before after : List JsString) (index : Nat) (path : List JsString) :
    (readLines casing (before ++ line :: after) index path).2 =
        (readLines casing (before ++ line' :: after) index path).2 ∧
      ∀ settings, (readLines casing (before ++ line :: after) index path).1.foldl
          (IniSetting.store casing declared) settings =
        (readLines casing (before ++ line' :: after) index path).1.foldl
          (IniSetting.store casing declared) settings := by
  induction before generalizing index path with
  | nil =>
    rw [nil_append, nil_append, readLines, readLines, reads, reads']
    refine ⟨rfl, fun settings => ?_⟩
    have stored : IniSetting.store casing declared settings ⟨path ++ leaf, raw⟩ =
        IniSetting.store casing declared settings ⟨path ++ leaf, raw'⟩ :=
      congrArg (setIniValue settings (path ++ leaf)) (same _)
    dsimp only
    rw [foldl_cons, foldl_cons, stored]
  | cons other before ih =>
    rw [cons_append, cons_append, readLines, readLines]
    cases readLine casing other with
    | nothing => exact ih (index + 1) path
    | header path => exact ih (index + 1) path
    | setting leaf raw =>
      obtain ⟨failure, stored⟩ := ih (index + 1) path
      exact ⟨failure, fun settings => stored _⟩
    | malformed message => exact ⟨rfl, fun _ => rfl⟩

theorem settingLine_unbroken (key : KeyText casing) (lead : Gap) (value : BareValue) {rest : JsString}
    (unbroken : 0x0A ∉ rest) : 0x0A ∉ settingLine key lead value rest := by
  intro mem
  rcases mem_append.mp mem with inside | mem
  · exact key.unbroken inside
  · rcases mem_cons.mp mem with same | mem
    · cases same
    · rcases mem_append.mp mem with mem | inside
      · exact (mem_append.mp mem).elim lead.unbroken value.unbroken
      · exact unbroken inside

theorem Remark.after_unbroken (remark : Remark) (gap : Gap) : 0x0A ∉ remark.after gap := by
  intro mem
  rcases mem_append.mp mem with inside | mem
  · exact gap.unbroken inside
  · rcases mem_cons.mp mem with same | inside
    · have marked := remark.marked
      rw [← same] at marked
      rcases marked with bad | bad
      · cases bad
      · cases bad
    · exact remark.unbroken inside

theorem readLine_settingLine (key : KeyText casing) (lead : Gap) (value : BareValue) (rest : JsString) :
    readLine casing (settingLine key lead value rest) = .setting (splitKey casing key.text)
      ((lead.text ++ value.text ++ rest).rdropWhile isWhiteSpace) :=
  readLine_keyed key.no_equals key.start key.named _

theorem trimIniValue_trim {raw raw' : JsString} (same : raw.trim = raw'.trim) :
    trimIniValue raw = trimIniValue raw' := by
  unfold trimIniValue
  rw [same]

theorem parseIniValue_trim {raw raw' : JsString} (same : raw.trim = raw'.trim) (template : Option ConfigValue) :
    parseIniValue casing raw template = parseIniValue casing raw' template := by
  unfold parseIniValue
  rw [trimIniValue_trim same]

theorem transparent_iff (key : KeyText casing) (lead : Gap) (value : BareValue) (gap : Gap)
    (remark : Remark) : CommentTransparent key lead value gap remark ↔
      ∀ template, parseIniValue casing (value.text ++ remark.after gap) template =
        parseIniValue casing value.text template := by
  have raw : ∀ rest : JsString, trim ((lead.text ++ value.text ++ rest).rdropWhile isWhiteSpace) =
      (value.text ++ rest).trim := by
    intro rest
    rw [trim_rdropWhile, append_assoc, trim_blank_append lead.blank]
  have bare := raw []
  rw [append_nil, append_nil] at bare
  have reads := readLine_settingLine key lead value (remark.after gap)
  have reads' := readLine_settingLine key lead value []
  constructor
  · intro transparent template
    have whole := transparent [] [] (fun _ => template) none nofun nofun
    have single : ∀ rest : JsString, 0x0A ∉ rest →
        (parseIni casing (iniText ([] ++ [settingLine key lead value rest])) (fun _ => template)
          none).toOption = some (setIniValue [] (splitKey casing key.text)
            (parseIniValue casing (value.text ++ rest) template)) := by
      intro rest unbroken
      unfold parseIni
      rw [parseIniLines_eq, nil_append, @readLines_iniText casing [settingLine key lead value rest]
        fun line mem => mem_singleton.mp mem ▸ settingLine_unbroken key lead value unbroken]
      unfold readLines
      rw [readLine_settingLine]
      dsimp only [readLines, foldl_cons, foldl_nil, IniSetting.store, IniSetting.value]
      rw [parseIniValue_trim (raw rest)]
      rfl
    have first := single _ (remark.after_unbroken gap)
    have second := single [] not_mem_nil
    rw [whole, second] at first
    have same := some.inj first
    have fresh : ∀ found, setIniValue [] (splitKey casing key.text) found =
        writePath [] (splitKey casing key.text) found := by
      intro found
      have missing : readPath (.record []) (splitKey casing key.text) = none := by
        cases path : splitKey casing key.text with
        | nil => exact absurd path key.named
        | cons part path => rfl
      unfold setIniValue
      rw [missing]
    rw [fresh, fresh] at same
    have stored := congrArg (fun settings => readPath (.record settings) (splitKey casing key.text)) same
    rw [readPath_writePath key.named, readPath_writePath key.named, append_nil] at stored
    exact (some.inj stored).symm
  · intro same before after declared source unbroken unbroken'
    have lines : ∀ rest : JsString, 0x0A ∉ rest →
        ∀ line ∈ before ++ settingLine key lead value rest :: after, 0x0A ∉ line := by
      intro rest none_broken line mem
      rcases mem_append.mp mem with inside | mem
      · exact unbroken line inside
      · rcases mem_cons.mp mem with here | inside
        · rw [here]
          exact settingLine_unbroken key lead value none_broken
        · exact unbroken' line inside
    obtain ⟨failure, stored⟩ := @readLines_replace casing declared _ _ _ _ _ reads reads' (by
      intro template
      rw [parseIniValue_trim (raw _), append_nil, parseIniValue_trim bare]
      exact same template) before after 0 []
    unfold parseIni
    rw [parseIniLines_eq, parseIniLines_eq, readLines_iniText (lines _ (remark.after_unbroken gap)),
      readLines_iniText (lines _ not_mem_nil), failure, stored]

end lines

section values

variable {casing : Casing}

def ClosedQuote (text : JsString) : Prop :=
  ∃ quote ∈ text.head?, (quote = 0x22 ∨ quote = 0x27) ∧ quote ∈ text.tail

theorem trimIniValue_open {raw : JsString} (unclosed : ¬ ClosedQuote raw.trim) :
    trimIniValue raw = ((stripComment raw.trim).trim, false) := by
  unfold trimIniValue
  cases text : raw.trim with
  | nil => rfl
  | cons first rest =>
    dsimp only
    split
    next quoted =>
      have absent : first ∉ rest := by
        intro mem
        apply unclosed
        rw [text]
        exact ⟨first, rfl, quoted, mem⟩
      unfold cut?
      rw [if_neg absent]
    next => rfl

theorem trimIniValue_closed {raw rest : JsString} {first : UInt16} (text : raw.trim = first :: rest)
    (quoted : first = 0x22 ∨ first = 0x27) (closed : first ∈ rest) :
    trimIniValue raw = (rest.takeWhile (· ≠ first), true) := by
  unfold trimIniValue
  rw [text]
  dsimp only
  rw [if_pos quoted]
  unfold cut?
  rw [if_pos closed]

theorem BareValue.unclosed (value : BareValue) : ¬ ClosedQuote value.text := by
  rintro ⟨first, head, quoted, mem⟩
  have whole : value.text = first :: value.text.tail := by
    cases text : value.text with
    | nil =>
      rw [text] at head
      cases head
    | cons other rest =>
      rw [text] at head
      cases head
      rfl
  have unquoted := value.unquoted
  rw [trimIniValue_closed (value.trimmed.trans whole) quoted mem] at unquoted
  cases unquoted

theorem stripCommentFrom_append {previous : UInt16} {s : JsString}
    (markerless : (previous :: s).IsChain fun before u => isWhiteSpace before = true → ¬ IsMarker u)
    (rest : JsString) : stripCommentFrom previous (s ++ rest) =
      s ++ stripCommentFrom (s.getLast?.getD previous) rest := by
  induction s generalizing previous with
  | nil => rfl
  | cons u s ih =>
    obtain ⟨first, later⟩ := isChain_cons_cons.mp markerless
    have kept : ¬ ((u = 0x3B ∨ u = 0x23) ∧ (previous = 0x20 ∨ previous = 0x09)) := by
      rintro ⟨marked, space | tab⟩
      · exact first (space ▸ rfl) marked
      · exact first (tab ▸ rfl) marked
    rw [cons_append, stripCommentFrom, if_neg kept, ih later, getLast?_cons]
    rfl

theorem not_marker_of_blank {u : UInt16} (blank : isWhiteSpace u = true) : ¬ IsMarker u := by
  rintro (rfl | rfl)
  · cases blank
  · cases blank

theorem Remark.visible (remark : Remark) : isWhiteSpace remark.marker = false := by
  rcases remark.marked with same | same
  · rw [same]
    rfl
  · rw [same]
    rfl

variable {value : BareValue}

theorem trim_after (some_value : value.text ≠ []) (gap : Gap) (remark : Remark) :
    trim (value.text ++ remark.after gap) = value.text ++ (gap.text ++ remark.marker ::
      remark.text.rdropWhile isWhiteSpace) := by
  have visible := remark.visible
  have whole : trim ((value.text ++ gap.text) ++ remark.marker :: remark.text) = _ :=
    trim_visible visible _ _
  unfold Remark.after
  rw [← append_assoc, whole]
  have front : (value.text ++ gap.text).dropWhile isWhiteSpace = value.text ++ gap.text := by
    cases text : value.text with
    | nil => exact absurd text some_value
    | cons u rest =>
      have trimmed := value.trimmed
      rw [text] at trimmed
      rw [cons_append, dropWhile_cons_of_neg (by simp [trim_head trimmed])]
  rw [front, append_assoc]

theorem stripComment_after (some_value : value.text ≠ []) {gap : Gap}
    (spaced : gap.text ≠ []) {marker : UInt16} (marked : IsMarker marker) (rest : JsString) :
    (gap.EndsPlain → stripComment (value.text ++ (gap.text ++ marker :: rest)) = value.text ++ gap.text) ∧
      (¬ gap.EndsPlain → stripComment (value.text ++ (gap.text ++ marker :: rest)) =
        value.text ++ (gap.text ++ marker :: stripCommentFrom marker rest)) := by
  have markerless : (value.text ++ gap.text).IsChain
      fun before u => isWhiteSpace before = true → ¬ IsMarker u := by
    rw [isChain_append]
    refine ⟨value.markerless, ?_, ?_⟩
    · apply List.Pairwise.isChain
      rw [pairwise_iff_forall_sublist]
      intro before u sublist _
      have mem : u ∈ gap.text := sublist.subset (mem_cons_of_mem _ mem_cons_self)
      exact not_marker_of_blank (gap.blank u mem)
    · intro before _ u head _
      exact not_marker_of_blank (gap.blank u (mem_of_mem_head? head))
  have last : (value.text ++ gap.text).getLast? = gap.text.getLast? := by
    rw [getLast?_append_of_ne_nil _ spaced]
  obtain ⟨before, final⟩ : ∃ before, gap.text.getLast? = some before :=
    ⟨_, getLast?_eq_some_getLast spaced⟩
  rw [final] at last
  have whole : stripComment (value.text ++ (gap.text ++ marker :: rest)) =
      value.text ++ gap.text ++ stripCommentFrom before (marker :: rest) := by
    rw [← append_assoc]
    cases text : value.text with
    | nil => exact absurd text some_value
    | cons u s =>
      rw [text, cons_append] at markerless last
      rw [cons_append, cons_append, stripComment, stripCommentFrom_append markerless]
      rw [getLast?_cons] at last
      rw [some.inj last]
      rfl
  rw [whole, stripCommentFrom]
  unfold Gap.EndsPlain
  rw [final]
  constructor
  · intro plain
    have stripped : before = 0x20 ∨ before = 0x09 := by simpa using plain
    rw [if_pos ⟨marked, stripped⟩, append_nil]
  · intro plain
    have kept : ¬ (before = 0x20 ∨ before = 0x09) := by simpa using plain
    rw [if_neg fun both => kept both.2, append_assoc]

theorem closedQuote_after (some_value : value.text ≠ []) (gap : Gap)
    (remark : Remark) : ClosedQuote (trim (value.text ++ remark.after gap)) ↔ ClosesQuote value remark.text := by
  rw [trim_after some_value]
  have unclosed := value.unclosed
  cases text : value.text with
  | nil => exact absurd text some_value
  | cons u s =>
    unfold ClosedQuote ClosesQuote at *
    rw [text] at unclosed ⊢
    constructor
    · rintro ⟨quote, head, quoted, mem⟩
      refine ⟨quote, head, quoted, ?_⟩
      have visible : isWhiteSpace quote = false := by
        rcases quoted with rfl | rfl
        · rfl
        · rfl
      rcases mem_append.mp (show quote ∈ s ++ _ from mem) with inside | mem
      · exact absurd ⟨quote, head, quoted, inside⟩ unclosed
      · rcases mem_append.mp mem with blank | mem
        · have space := gap.blank quote blank
          cases visible.symm.trans space
        · rcases mem_cons.mp mem with same | inside
          · have marked := remark.marked
            rw [← same] at marked
            rcases quoted with rfl | rfl
            · rcases marked with bad | bad
              · cases bad
              · cases bad
            · rcases marked with bad | bad
              · cases bad
              · cases bad
          · exact (List.rdropWhile_prefix isWhiteSpace remark.text).subset inside
    · rintro ⟨quote, head, quoted, mem⟩
      refine ⟨quote, head, quoted, ?_⟩
      have visible : isWhiteSpace quote = false := by
        rcases quoted with rfl | rfl
        · rfl
        · rfl
      obtain ⟨before, after, split⟩ := append_of_mem mem
      show quote ∈ s ++ (gap.text ++ remark.marker :: remark.text.rdropWhile isWhiteSpace)
      rw [split, rdropWhile_visible visible]
      simp

def textTemplate : Option ConfigValue := some (.string [])

theorem parseIniValue_text {raw : JsString} (unclosed : ¬ ClosedQuote raw.trim) :
    parseIniValue casing raw textTemplate =
      if (stripComment raw.trim).trim.startsWith 0x5B && (stripComment raw.trim).trim.endsWith 0x5D then
        .list (parseList casing (stripComment raw.trim).trim false)
      else .string (stripComment raw.trim).trim := by
  unfold parseIniValue textTemplate
  rw [trimIniValue_open unclosed]
  dsimp only
  rw [if_neg Bool.false_ne_true]
  unfold parseEnvValue
  dsimp only
  rw [trim_trim]

theorem stripComment_bare (value : BareValue) : stripComment value.text = value.text := by
  have markerless := value.markerless
  cases text : value.text with
  | nil => rfl
  | cons u s =>
    rw [text] at markerless
    have whole := stripCommentFrom_append markerless []
    rw [append_nil] at whole
    rw [stripComment, whole]
    simp [stripCommentFrom]

theorem parseIniValue_bare (value : BareValue) : parseIniValue casing value.text textTemplate =
    if value.text.startsWith 0x5B && value.text.endsWith 0x5D then .list (parseList casing value.text false)
    else .string value.text := by
  have unclosed := value.unclosed
  rw [← value.trimmed] at unclosed
  rw [parseIniValue_text unclosed, value.trimmed, stripComment_bare, value.trimmed]

theorem empty_value_differs (empty : value.text = []) (gap : Gap) (remark : Remark) :
    parseIniValue casing (value.text ++ remark.after gap) textTemplate ≠
      parseIniValue casing value.text textTemplate := by
  have visible := remark.visible
  have trimmed : trim (value.text ++ remark.after gap) =
      remark.marker :: remark.text.rdropWhile isWhiteSpace := by
    unfold Remark.after
    rw [empty, nil_append, trim_blank_append gap.blank]
    exact trim_visible visible [] remark.text
  have unclosed : ¬ ClosedQuote (trim (value.text ++ remark.after gap)) := by
    rw [trimmed]
    rintro ⟨quote, head, quoted, _⟩
    have same : remark.marker = quote := some.inj head
    have marked := remark.marked
    rw [same] at marked
    unfold IsMarker at marked
    grind
  have kept : (stripComment (remark.marker :: remark.text.rdropWhile isWhiteSpace)).trim =
      remark.marker :: (stripCommentFrom remark.marker
        (remark.text.rdropWhile isWhiteSpace)).rdropWhile isWhiteSpace := trim_visible visible [] _
  have no_bracket : ∀ s : JsString, JsString.startsWith (remark.marker :: s) 0x5B = false := by
    intro s
    unfold JsString.startsWith
    rcases remark.marked with same | same
    · simp [same]
    · simp [same]
  rw [parseIniValue_text unclosed, parseIniValue_bare, trimmed, kept, no_bracket, empty]
  simp [JsString.startsWith]

theorem closed_quote_differs {gap : Gap} {remark : Remark} (closes : ClosesQuote value remark.text) :
    parseIniValue casing (value.text ++ remark.after gap) textTemplate ≠
      parseIniValue casing value.text textTemplate := by
  have some_value : value.text ≠ [] := by
    obtain ⟨quote, head, _⟩ := closes
    intro empty
    rw [empty] at head
    cases head
  obtain ⟨quote, head, quoted, mem⟩ := (closedQuote_after some_value gap remark).mpr closes
  obtain ⟨first, first_head, _⟩ := closes
  rw [parseIniValue_bare]
  cases text : value.text with
  | nil => exact absurd text some_value
  | cons u s =>
    have trimmed := trim_after some_value gap remark
    rw [text] at trimmed first_head
    rw [text, trimmed] at head mem
    have same : u = quote := some.inj head
    have no_bracket : JsString.startsWith (u :: s) 0x5B = false := by
      unfold JsString.startsWith
      rcases quoted with bad | bad
      · simp [same, bad]
      · simp [same, bad]
    unfold parseIniValue
    rw [trimIniValue_closed trimmed (same ▸ quoted) (same ▸ mem), no_bracket]
    dsimp only
    rw [if_pos rfl, Bool.false_and, if_neg Bool.false_ne_true]
    intro equal
    have inside : u ∈ takeWhile (fun v => decide (v ≠ u)) _ :=
      (ConfigValue.string.inj equal) ▸ mem_cons_self
    have differs := mem_takeWhile_imp inside
    simp at differs

theorem parseIniValue_after (some_value : value.text ≠ []) {gap : Gap}
    (spaced : gap.text ≠ []) (plain : gap.EndsPlain) {remark : Remark}
    (unclosed : ¬ ClosesQuote value remark.text) (template : Option ConfigValue) :
    parseIniValue casing (value.text ++ remark.after gap) template =
      parseIniValue casing value.text template := by
  have opened := (not_congr (closedQuote_after some_value gap remark)).mpr unclosed
  have bare := value.unclosed
  rw [← value.trimmed] at bare
  have stripped := (stripComment_after some_value spaced remark.marked
    (remark.text.rdropWhile isWhiteSpace)).1 plain
  have same : trimIniValue (value.text ++ remark.after gap) = trimIniValue value.text := by
    rw [trimIniValue_open opened, trimIniValue_open bare, trim_after some_value, stripped,
      trim_append_blank gap.blank, value.trimmed, stripComment_bare, value.trimmed]
  unfold parseIniValue
  rw [same]

theorem other_space_differs (some_value : value.text ≠ []) {gap : Gap}
    (spaced : gap.text ≠ []) (plain : ¬ gap.EndsPlain) {remark : Remark} (empty : remark.text = []) :
    parseIniValue casing (value.text ++ remark.after gap) textTemplate ≠
      parseIniValue casing value.text textTemplate := by
  have unclosed : ¬ ClosesQuote value remark.text := by
    rintro ⟨quote, _, _, mem⟩
    rw [empty] at mem
    cases mem
  have opened := (not_congr (closedQuote_after some_value gap remark)).mpr unclosed
  have kept := (stripComment_after some_value spaced remark.marked
    (remark.text.rdropWhile isWhiteSpace)).2 plain
  have trimmed := trim_after some_value gap remark
  rw [empty] at kept trimmed
  have none_left : rdropWhile isWhiteSpace ([] : JsString) = [] := rfl
  have no_more : stripCommentFrom remark.marker [] = [] := rfl
  rw [none_left] at kept trimmed
  rw [no_more] at kept
  have again : trim (value.text ++ (gap.text ++ [remark.marker])) =
      value.text ++ (gap.text ++ [remark.marker]) := by
    rw [← trimmed, trim_trim]
  have no_bracket : (value.text ++ (gap.text ++ [remark.marker])).endsWith 0x5D = false := by
    unfold JsString.endsWith
    rw [← append_assoc, getLast?_concat]
    rcases remark.marked with same | same
    · simp [same]
    · simp [same]
  rw [parseIniValue_text opened, parseIniValue_bare, trimmed, kept, again, no_bracket, Bool.and_false,
    if_neg Bool.false_ne_true]
  split
  · intro equal
    cases equal
  · intro equal
    have lengths := congrArg length (ConfigValue.string.inj equal)
    rw [length_append, length_append, length_singleton] at lengths
    omega

end values

section transparency

variable {casing : Casing}

theorem closesQuote_of_head {value : BareValue} {quote : UInt16} (head : quote ∈ value.text.head?)
    (quoted : quote = 0x22 ∨ quote = 0x27) : ClosesQuote value [quote] :=
  ⟨quote, head, quoted, mem_singleton.mpr rfl⟩

/-- Every comment behind a value is transparent exactly when there is a value, it does not begin with a
quote, and the white space before the comment ends with a space or a tab. Behind such white space, a
comment is transparent exactly when there is a value and the comment does not close a quote that it
begins with. -/
theorem comment_transparency (key : KeyText casing) (lead : Gap) (value : BareValue) {gap : Gap}
    (spaced : gap.text ≠ []) : ((∀ remark, CommentTransparent key lead value gap remark) ↔
      value.text ≠ [] ∧ (∀ u ∈ value.text.head?, u ≠ 0x22 ∧ u ≠ 0x27) ∧ gap.EndsPlain) ∧
    (gap.EndsPlain → ∀ remark, CommentTransparent key lead value gap remark ↔
      value.text ≠ [] ∧ ¬ ClosesQuote value remark.text) := by
  have exact_for (plain : gap.EndsPlain) (remark : Remark) :
      CommentTransparent key lead value gap remark ↔ value.text ≠ [] ∧ ¬ ClosesQuote value remark.text := by
    rw [transparent_iff]
    constructor
    · intro same
      exact ⟨fun empty => empty_value_differs empty gap remark (same textTemplate),
        fun closes => closed_quote_differs closes (same textTemplate)⟩
    · rintro ⟨some_value, unclosed⟩ template
      exact parseIniValue_after some_value spaced plain unclosed template
  refine ⟨?_, exact_for⟩
  constructor
  · intro all
    have some_value : value.text ≠ [] := fun empty =>
      empty_value_differs empty gap ⟨0x3B, .inl rfl, [], List.not_mem_nil⟩
        ((transparent_iff _ _ _ _ _).mp (all _) textTemplate)
    refine ⟨some_value, fun u head => ?_, ?_⟩
    · have open_start : ¬ (u = 0x22 ∨ u = 0x27) := by
        intro quoted
        have unbroken : (0x0A : UInt16) ∉ [u] := by
          intro mem
          have same := List.mem_singleton.mp mem
          rw [← same] at quoted
          rcases quoted with bad | bad
          · cases bad
          · cases bad
        have transparent := (transparent_iff _ _ _ _ _).mp (all ⟨0x3B, .inl rfl, [u], unbroken⟩)
        exact closed_quote_differs (closesQuote_of_head head quoted) (transparent textTemplate)
      exact not_or.mp open_start
    · by_contra plain
      have transparent := (transparent_iff _ _ _ _ _).mp (all ⟨0x3B, .inl rfl, [], List.not_mem_nil⟩)
      exact other_space_differs some_value spaced plain rfl (transparent textTemplate)
  · rintro ⟨some_value, unquoted, plain⟩ remark
    refine (exact_for plain remark).mpr ⟨some_value, ?_⟩
    rintro ⟨quote, head, quoted, _⟩
    exact quoted.elim (unquoted quote head).1 (unquoted quote head).2

end transparency

def passwordKey : KeyText asciiCasing where
  text := js "password "
  no_equals := by decide
  unbroken := by decide
  start := by
    intro u mem
    have first : (js "password ").dropWhile isWhiteSpace = js "password " := by decide
    rw [first] at mem
    have same : 0x70 = u := Option.some.inj mem
    rw [← same]
    decide
  named := by decide

def oneSpace : Gap := ⟨js " ", by decide, by decide⟩

def markedValue : BareValue where
  text := js "abc#123"
  trimmed := by decide
  unbroken := by decide
  unquoted := by decide
  markerless := by
    unfold IsMarker
    decide

theorem marked_value_transparent :
    ((∀ remark, CommentTransparent passwordKey oneSpace markedValue oneSpace remark) ↔
      markedValue.text ≠ [] ∧ (∀ u ∈ markedValue.text.head?, u ≠ 0x22 ∧ u ≠ 0x27) ∧ oneSpace.EndsPlain) ∧
    (oneSpace.EndsPlain → ∀ remark, CommentTransparent passwordKey oneSpace markedValue oneSpace remark ↔
      markedValue.text ≠ [] ∧ ¬ ClosesQuote markedValue remark.text) :=
  comment_transparency passwordKey oneSpace markedValue (by decide)

def emptyValue : BareValue := ⟨[], by decide, by decide, by decide, .nil⟩

def plainRemark : Remark := ⟨0x3B, .inl rfl, js " unset", by decide⟩

/-- The line `password = ; unset` does not read as an empty password. -/
theorem empty_password_keeps_comment :
    ¬ CommentTransparent passwordKey oneSpace emptyValue oneSpace plainRemark := by
  rw [transparent_iff]
  intro same
  exact empty_value_differs rfl oneSpace plainRemark (same textTemplate)

end ForgeDeno
