import ForgeDeno.KeyUriRoundTrip

namespace ForgeDeno

open JsString JsonText List

section quoting

def Detached (s : JsString) : Prop := ∀ u ∈ s.head?, isLowSurrogate u = false

theorem detached_nil : Detached [] := by
  intro u mem
  cases mem

theorem detached_cons {u : UInt16} (h : isLowSurrogate u = false) (rest : JsString) : Detached (u :: rest) := by
  intro v mem
  cases mem
  exact h

theorem Detached.append {s t : JsString} (first : Detached s) (second : Detached t) : Detached (s ++ t) := by
  cases s with
  | nil => exact second
  | cons u rest => exact detached_cons (first u rfl) (rest ++ t)

theorem quoteUnits_append (s : JsString) {t : JsString} (h : Detached t) :
    quoteUnits (s ++ t) = quoteUnits s ++ quoteUnits t := by
  induction s using quoteUnits.induct with
  | case1 => rfl
  | case2 u surrogate =>
    cases t with
    | nil => simp [quoteUnits]
    | cons v rest =>
      have low := h v rfl
      rw [singleton_append, quoteUnits, quoteUnits, if_pos surrogate, low, Bool.and_false]
      simp only [Bool.false_eq_true, if_false]
      rw [if_pos surrogate]
  | case3 u ordinary =>
    cases t with
    | nil => simp [quoteUnits]
    | cons v rest =>
      have low := h v rfl
      rw [singleton_append, quoteUnits, quoteUnits, if_neg ordinary, low, Bool.and_false]
      simp only [Bool.false_eq_true, if_false]
      rw [if_neg ordinary]
  | case4 u v rest pair ih =>
    rw [cons_append, cons_append, quoteUnits, quoteUnits, if_pos pair, if_pos pair, ih]
    rfl
  | case5 u v rest single surrogate ih =>
    rw [cons_append, cons_append, quoteUnits, quoteUnits, if_neg single, if_neg single,
      if_pos surrogate, if_pos surrogate, ← cons_append, ih]
    simp
  | case6 u v rest single ordinary ih =>
    rw [cons_append, cons_append, quoteUnits, quoteUnits, if_neg single, if_neg single,
      if_neg ordinary, if_neg ordinary, ← cons_append, ih]
    simp

theorem quoteUnits_cons {u : UInt16} (high : isHighSurrogate u = false) (low : isLowSurrogate u = false)
    (rest : JsString) : quoteUnits (u :: rest) = quoteUnit u ++ quoteUnits rest := by
  cases rest with
  | nil => simp [quoteUnits, high, low]
  | cons v rest => simp [quoteUnits, high, low]

theorem quoteUnits_infix (before value : JsString) {after : JsString} (h : Detached after) :
    quoteUnits value <:+: quoteUnits (before ++ 0x3D :: (value ++ after)) := by
  have sign : Detached (0x3D :: (value ++ after)) := detached_cons (by decide) _
  rw [quoteUnits_append before sign, quoteUnits_cons (by decide) (by decide), quoteUnits_append value h]
  exact ⟨quoteUnits before ++ quoteUnit 0x3D, quoteUnits after, by simp⟩

end quoting

section carrying

def Leaks (value text : JsString) : Prop := value <:+: text ∨ quoteUnits value <:+: text

instance (value text : JsString) : Decidable (Leaks value text) := inferInstanceAs (Decidable (_ ∨ _))

/-- The path and the query of a reference, and of a text without the scheme. -/
def components (reference : JsString) : JsString × Option JsString :=
  splitFirst 0x3F (if isKeyUri reference.trim then reference.trim.drop URI_SCHEME.length else reference.trim)

def isPinName (name : JsString) : Bool := name = js "pin-value" || name = js "pin-source"

def PinIn (segments : List JsString) (value : JsString) : Prop :=
  ∃ segment ∈ segments, ∃ name, isPinName name = true ∧ splitFirst 0x3D segment = (name, some value)

/-- The path or the query has a `pin-value` or `pin-source` attribute with the value. -/
def CarriesPin (reference value : JsString) : Prop :=
  PinIn ((components reference).1.split 0x3B) value ∨
    ∃ query, (components reference).2 = some query ∧ PinIn (query.split 0x26) value

variable {separator : UInt16} {s first reference value : JsString}

theorem splitFirst_some {rest : JsString}
    (h : splitFirst separator s = (first, some rest)) : s = first ++ separator :: rest := by
  induction s generalizing first with
  | nil => cases h
  | cons u s ih =>
    unfold splitFirst at h
    split at h
    next same => cases h; rw [same]; rfl
    next =>
      cases found : splitFirst separator s with
      | mk before after =>
        rw [found] at h
        cases h
        rw [ih found]
        rfl

theorem splitFirst_none
    (h : splitFirst separator s = (first, none)) : s = first := by
  induction s generalizing first with
  | nil => cases h; rfl
  | cons u s ih =>
    unfold splitFirst at h
    split at h
    next => cases h
    next =>
      cases found : splitFirst separator s with
      | mk before after =>
        rw [found] at h
        cases h
        rw [ih found]

theorem split_head {others : List JsString} (h : s.split separator = first :: others) :
    ∃ after, s = first ++ after ∧ (after = [] ∨ ∃ rest, after = separator :: rest) := by
  induction s generalizing first others with
  | nil => cases h; exact ⟨[], rfl, .inl rfl⟩
  | cons u s ih =>
    unfold JsString.split at h
    split at h
    next same => cases h; exact ⟨u :: s, rfl, .inr ⟨s, by rw [same]⟩⟩
    next =>
      split at h
      next none_left => exact absurd none_left (split_ne_nil separator s)
      next part parts found =>
        cases h
        obtain ⟨after, whole, ends⟩ := ih found
        exact ⟨after, by rw [whole]; rfl, ends⟩

theorem split_part {part : JsString} (h : part ∈ s.split separator) :
    ∃ before after, s = before ++ (part ++ after) ∧ (after = [] ∨ ∃ rest, after = separator :: rest) := by
  induction s generalizing part with
  | nil =>
    cases mem_singleton.mp h
    exact ⟨[], [], rfl, .inl rfl⟩
  | cons u s ih =>
    cases whole : JsString.split separator (u :: s) with
    | nil => exact absurd whole (split_ne_nil separator (u :: s))
    | cons first others =>
      rw [whole] at h
      rcases mem_cons.mp h with rfl | later
      · exact (split_head whole).elim fun after found => ⟨[], after, found⟩
      · have inner : part ∈ JsString.split separator s := by
          unfold JsString.split at whole
          split at whole
          next => cases whole; exact later
          next =>
            split at whole
            next => cases whole; cases later
            next parts found => cases whole; rw [found]; exact mem_cons_of_mem _ later
        obtain ⟨before, after, rest, ends⟩ := ih inner
        exact ⟨u :: before, after, by rw [rest]; rfl, ends⟩

theorem headD_split (separator : UInt16) (s : JsString) :
    (s.split separator).headD [] = (splitFirst separator s).1 := by
  induction s with
  | nil => rfl
  | cons u s ih =>
    unfold JsString.split splitFirst
    split
    next => rfl
    next =>
      rw [← ih]
      split
      next none_left => exact absurd none_left (split_ne_nil separator s)
      next first others found => rw [found]; rfl

theorem carried_place (carried : CarriesPin reference value) :
    ∃ before after, reference.trim = before ++ 0x3D :: (value ++ after) ∧ Detached after := by
  have ends {separator : UInt16} {after : JsString} (low : isLowSurrogate separator = false)
      (h : after = [] ∨ ∃ rest, after = separator :: rest) : Detached after := by
    rcases h with rfl | ⟨rest, rfl⟩
    · exact detached_nil
    · exact detached_cons low rest
  have inside {separator : UInt16} {text : JsString} (low : isLowSurrogate separator = false)
      (h : PinIn (text.split separator) value) :
      ∃ before after, text = before ++ 0x3D :: (value ++ after) ∧ Detached after := by
    obtain ⟨segment, mem, name, -, parts⟩ := h
    obtain ⟨before, after, whole, last⟩ := split_part mem
    refine ⟨before ++ name, after, ?_, ends low last⟩
    rw [whole, splitFirst_some parts]
    simp
  have whole : ∃ scheme rest, reference.trim = scheme ++ rest ∧ components reference = splitFirst 0x3F rest := by
    unfold components
    split
    · exact ⟨_, _, (take_append_drop URI_SCHEME.length reference.trim).symm, rfl⟩
    · exact ⟨[], _, rfl, rfl⟩
  obtain ⟨scheme, rest, same, found⟩ := whole
  cases parts : splitFirst 0x3F rest with
  | mk body query =>
    rw [parts] at found
    unfold CarriesPin at carried
    rw [found] at carried
    rcases carried with path | ⟨text, given, asked⟩
    · obtain ⟨before, after, held, last⟩ : ∃ before after,
          body = before ++ 0x3D :: (value ++ after) ∧ Detached after := inside (by decide) path
      cases query with
      | none =>
        refine ⟨scheme ++ before, after, ?_, last⟩
        rw [same, splitFirst_none parts]
        simp [held]
      | some query =>
        refine ⟨scheme ++ before, after ++ 0x3F :: query, ?_, last.append (detached_cons (by decide) query)⟩
        rw [same, splitFirst_some parts]
        simp [held]
    · cases given
      obtain ⟨before, after, held, last⟩ := inside (by decide) asked
      refine ⟨scheme ++ body ++ 0x3F :: before, after, ?_, last⟩
      rw [same, splitFirst_some parts]
      simp [held]

theorem carried_leaks (carried : CarriesPin reference value)
    (before after : JsString) : Leaks value (before ++ quote reference.trim ++ after) := by
  obtain ⟨first, last, whole, detached⟩ := carried_place carried
  obtain ⟨left, right, held⟩ := quoteUnits_infix first value detached
  refine .inr ⟨before ++ 0x22 :: left, right ++ 0x22 :: after, ?_⟩
  unfold quote
  rw [whole, ← held]
  simp

end carrying

section refusing

def queryPin (reference : JsString) : Option JsString :=
  ((((components reference).2.getD []).split 0x26).map fun segment =>
    (segment.split 0x3D).headD []).find? isPinName

def pinRefusal (name : JsString) : JsString :=
  js "pkcs11: key uri must not carry " ++ quote name ++ js "; supply the pin with the pin option"

def refusal (segment : JsString) : Option TokenFailure :=
  match parseAttribute {} segment with
  | .error failure => some failure
  | .ok _ => none

theorem parseAttribute_error {p q : KeyUri} {segment : JsString} {failure : TokenFailure}
    (h : parseAttribute p segment = .error failure) : parseAttribute q segment = .error failure := by
  unfold parseAttribute at h ⊢
  split at h
  next => cases h
  next some_text =>
    rw [if_neg some_text]
    split at h
    next => exact h
    next name raw _ =>
      cases read : unescapeAttribute name raw with
      | error failure' => rw [read] at h; exact h
      | ok value =>
        simp only [read, bind, Except.bind] at h ⊢
        split at h
        next => cases h
        next no_token =>
          split at h
          next => cases h
          next no_object =>
            split at h
            next => cases h
            next no_id =>
              split at h
              next type =>
                rw [if_neg no_token, if_neg no_object, if_neg no_id, if_pos type]
                cases known : classFromType (utf8Decode value) with
                | error failure' => rw [known] at h; exact h
                | ok found => rw [known] at h; cases h
              next => cases h

theorem foldlM_refusal (segments : List JsString) (p : KeyUri) :
    match segments.findSome? refusal with
    | some failure => segments.foldlM parseAttribute p = .error failure
    | none => ∃ parsed, segments.foldlM parseAttribute p = .ok parsed := by
  induction segments generalizing p with
  | nil => exact ⟨p, rfl⟩
  | cons segment rest ih =>
    rw [findSome?_cons, foldlM_cons]
    unfold refusal
    cases first : parseAttribute {} segment with
    | error failure =>
      dsimp only
      rw [parseAttribute_error first]
      rfl
    | ok parsed =>
      dsimp only
      cases next : parseAttribute p segment with
      | error failure =>
        rw [parseAttribute_error next] at first
        cases first
      | ok parsed' => exact ih parsed'

theorem parseKeyUri_foreign {reference : JsString} (h : isKeyUri reference.trim = false) :
    parseKeyUri reference =
      .error (pkcs11Error (js "pkcs11: " ++ quote reference.trim ++ js " is not a pkcs11 uri")) := by
  unfold parseKeyUri
  simp only [h, Bool.false_eq_true, not_false_eq_true, if_true]
  rfl

theorem parseKeyUri_pin {reference name : JsString} (h : isKeyUri reference.trim = true)
    (pin : queryPin reference = some name) : parseKeyUri reference = .error (pkcs11Error (pinRefusal name)) := by
  unfold queryPin components at pin
  rw [if_pos h] at pin
  have rejected : rejectPinAttributes (((splitFirst 0x3F (reference.trim.drop URI_SCHEME.length)).2).getD []) =
      .error (pkcs11Error (pinRefusal name)) := by
    unfold rejectPinAttributes
    dsimp only
    rw [show (fun name : JsString => decide (name = js "pin-value") || decide (name = js "pin-source")) =
      isPinName from rfl, pin]
    rfl
  unfold parseKeyUri
  simp only [h, not_true_eq_false, if_false]
  rw [rejected]
  rfl

theorem parseKeyUri_path {reference : JsString} (h : isKeyUri reference.trim = true)
    (unasked : queryPin reference = none) (some_path : (components reference).1 ≠ []) :
    parseKeyUri reference =
      (((components reference).1.split 0x3B).foldlM parseAttribute {} >>= fun parsed =>
        if parsed.label? = none ∧ parsed.id? = none then
          .error (pkcs11Error
            (js "pkcs11: key uri " ++ quote reference.trim ++ js " must set object or id"))
        else .ok parsed) := by
  unfold queryPin components at unasked
  rw [if_pos h] at unasked
  unfold components at some_path ⊢
  rw [if_pos h] at some_path ⊢
  have passed : rejectPinAttributes (((splitFirst 0x3F (reference.trim.drop URI_SCHEME.length)).2).getD []) =
      .ok () := by
    unfold rejectPinAttributes
    dsimp only
    rw [show (fun name : JsString => decide (name = js "pin-value") || decide (name = js "pin-source")) =
      isPinName from rfl, unasked]
  unfold parseKeyUri
  simp only [h, not_true_eq_false, if_false]
  rw [passed]
  show (if (splitFirst 0x3F (reference.trim.drop URI_SCHEME.length)).1 = [] then _ else _) = _
  rw [if_neg some_path]
  cases foldlM parseAttribute {}
      (split 0x3B (splitFirst 0x3F (reference.trim.drop URI_SCHEME.length)).1) with
  | error failure => rfl
  | ok parsed =>
    simp only [bind, Except.bind]
    split
    · rfl
    · rfl

theorem queryPin_some {reference query value : JsString} (given : (components reference).2 = some query)
    (carried : PinIn (query.split 0x26) value) : (queryPin reference).isSome = true := by
  obtain ⟨segment, mem, name, pin, parts⟩ := carried
  unfold queryPin
  rw [given, find?_isSome]
  refine ⟨name, mem_map.mpr ⟨segment, mem, ?_⟩, pin⟩
  rw [headD_split, parts]

theorem path_ne_nil {path value : JsString} (carried : PinIn (path.split 0x3B) value) : path ≠ [] := by
  rintro rfl
  obtain ⟨segment, mem, name, _, parts⟩ := carried
  cases mem_singleton.mp mem
  cases parts

/-- The reference is refused without the value in the message, and no key reference made from it has the
value. -/
def Refused (reference value : JsString) : Prop :=
  (∃ failure, parseKeyUri reference = .error failure ∧ ¬Leaks value failure.message) ∧
    ∀ keyRef, parseKeyUri reference >>= formatKeyUri = .ok keyRef → ¬Leaks value keyRef

theorem refused_iff {reference value : JsString} {failure : TokenFailure}
    (h : parseKeyUri reference = .error failure) : Refused reference value ↔ ¬Leaks value failure.message := by
  unfold Refused
  rw [h]
  constructor
  · rintro ⟨⟨failure', same, silent⟩, -⟩
    cases same
    exact silent
  · exact fun silent => ⟨⟨failure, rfl, silent⟩, nofun⟩

/-- The query carries a PIN and its refusal has not the value in it, or a segment of the path is refused
first and what this refusal quotes has not the value in it. -/
def Guarded (reference value : JsString) : Prop :=
  isKeyUri reference.trim = true ∧
    ((∃ name, queryPin reference = some name ∧ ¬Leaks value (pinRefusal name)) ∨
      (queryPin reference = none ∧ ∃ failure,
        ((components reference).1.split 0x3B).findSome? refusal = some failure ∧ ¬Leaks value failure.message))

section refusing

variable {reference value : JsString} (carried : CarriesPin reference value)
include carried

theorem refused_foreign (scheme : isKeyUri reference.trim = false) : ¬Refused reference value := by
  rw [refused_iff (parseKeyUri_foreign scheme)]
  exact fun silent => silent (carried_leaks carried _ _)

theorem pin_in_path (pin : queryPin reference = none) : PinIn ((components reference).1.split 0x3B) value := by
  rcases carried with path | ⟨query, given, asked⟩
  · exact path
  · have found := queryPin_some given asked
    rw [pin] at found
    cases found

theorem refused_path (scheme : isKeyUri reference.trim = true) (pin : queryPin reference = none) :
    Refused reference value ↔ ∃ failure, ((components reference).1.split 0x3B).findSome? refusal = some failure ∧
        ¬Leaks value failure.message := by
  have parsed := parseKeyUri_path scheme pin (path_ne_nil (pin_in_path carried pin))
  have fold := foldlM_refusal ((components reference).1.split 0x3B) {}
  cases first : ((components reference).1.split 0x3B).findSome? refusal with
  | some failure =>
    rw [first] at fold
    dsimp only at fold
    rw [fold] at parsed
    rw [refused_iff parsed]
    constructor
    · exact fun silent => ⟨failure, rfl, silent⟩
    · rintro ⟨failure', same, silent⟩
      cases same
      exact silent
  | none =>
    rw [first] at fold
    obtain ⟨uri, fold⟩ := fold
    rw [fold] at parsed
    refine iff_of_false ?_ nofun
    by_cases bare : uri.label? = none ∧ uri.id? = none
    · have refused : parseKeyUri reference = .error (pkcs11Error
          (js "pkcs11: key uri " ++ quote reference.trim ++ js " must set object or id")) :=
        parsed.trans (if_pos bare)
      rw [refused_iff refused]
      exact fun silent => silent (carried_leaks carried _ _)
    · have taken : parseKeyUri reference = .ok uri := parsed.trans (if_neg bare)
      rintro ⟨⟨failure, refused, -⟩, -⟩
      cases taken.symm.trans refused

end refusing

/-- A reference that carries a PIN is refused, and the PIN kept out of messages and key references, exactly
when its query carries one or a segment of its path is refused. -/
theorem pin_refused_iff {reference value : JsString} (carried : CarriesPin reference value) :
    Refused reference value ↔ Guarded reference value := by
  unfold Guarded
  cases scheme : isKeyUri reference.trim with
  | false => exact iff_of_false (refused_foreign carried scheme) fun guarded => by cases guarded.1
  | true =>
    rw [and_iff_right rfl]
    cases pin : queryPin reference with
    | some name =>
      rw [refused_iff (parseKeyUri_pin scheme pin)]
      constructor
      · exact fun silent => .inl ⟨name, rfl, silent⟩
      · rintro (⟨name', same, silent⟩ | ⟨same, -⟩)
        · cases same
          exact silent
        · cases same
    | none =>
      rw [refused_path carried scheme pin]
      constructor
      · exact fun refused => .inr ⟨rfl, refused⟩
      · rintro (⟨name, same, -⟩ | ⟨-, refused⟩)
        · cases same
        · exact refused

theorem query_pin_refused : Refused (js "pkcs11:object=k?pin-value=1234") (js "1234") := by
  have carried : CarriesPin (js "pkcs11:object=k?pin-value=1234") (js "1234") :=
    .inr ⟨js "pin-value=1234", rfl, js "pin-value=1234", by decide, js "pin-value", rfl, rfl⟩
  exact (pin_refused_iff carried).mpr ⟨rfl, .inl ⟨js "pin-value", rfl, by decide +kernel⟩⟩

/-- In the path a PIN is ignored like an unknown attribute, or quoted with the whole reference. -/
theorem path_pin_passed :
    (CarriesPin (js "pkcs11:object=k;pin-value=1234") (js "1234") ∧
      ¬Refused (js "pkcs11:object=k;pin-value=1234") (js "1234")) ∧
    CarriesPin (js "pkcs11:pin-value=1234") (js "1234") ∧
      ¬Refused (js "pkcs11:pin-value=1234") (js "1234") := by
  refine ⟨⟨.inl ⟨js "pin-value=1234", by decide, js "pin-value", rfl, rfl⟩, ?_⟩,
    .inl ⟨js "pin-value=1234", by decide, js "pin-value", rfl, rfl⟩, ?_⟩
  · rintro ⟨⟨failure, refused, -⟩, -⟩
    have taken : parseKeyUri (js "pkcs11:object=k;pin-value=1234") =
        .ok { object := some (js "k") } := rfl
    rw [taken] at refused
    cases refused
  · have refused : parseKeyUri (js "pkcs11:pin-value=1234") = .error (pkcs11Error
        (js "pkcs11: key uri \"pkcs11:pin-value=1234\" must set object or id")) := rfl
    rw [refused_iff refused]
    decide +kernel

end refusing

end ForgeDeno
