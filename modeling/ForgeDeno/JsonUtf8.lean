import ForgeDeno.Base64Text
import ForgeDeno.JsonRoundTrip
import ForgeDeno.Utf8Strict

/-! `JSON.stringify` never writes a lone surrogate, so its text goes through UTF-8 and back. -/

namespace JsString

open List

theorem wellFormed_append {s t : JsString} (first : s.WellFormed) (second : t.WellFormed) :
    WellFormed (s ++ t) := by
  have whole : (s ++ t : JsString) = (s.codePoints ++ t.codePoints).flatMap ofCodePoint := by
    rw [flatMap_append, flatMap_codePoints, flatMap_codePoints]
  rw [whole]
  apply wellFormed_flatMap
  intro c mem
  rcases mem_append.mp mem with left | right
  · exact first.scalars c left
  · exact second.scalars c right

theorem wellFormed_plain {u : UInt16} (high : isHighSurrogate u = false)
    (low : isLowSurrogate u = false) : WellFormed [u] := by
  intro c mem
  have same : c = u.toNat := mem_singleton.mp mem
  rw [same]
  have surrogate := isSurrogate_unit u
  simp only [high, low, Bool.false_eq_true, or_self, iff_false] at surrogate
  exact surrogate

theorem wellFormed_pair {u v : UInt16} (high : isHighSurrogate u = true)
    (low : isLowSurrogate v = true) : WellFormed [u, v] := by
  have first := of_decide_eq_true (Bool.and_eq_true_iff.mp high).1
  have second := of_decide_eq_true (Bool.and_eq_true_iff.mp low).1
  intro c mem
  have points : codePoints [u, v] =
      [0x10000 + (u.toNat - 0xD800) * 0x400 + (v.toNat - 0xDC00)] := by
    unfold codePoints
    rw [if_pos (Bool.and_eq_true_iff.mpr ⟨high, low⟩)]
    rfl
  rw [points] at mem
  rw [mem_singleton.mp mem]
  rintro ⟨_, most⟩
  omega

end JsString

namespace JsonText

open JsString

theorem digits_low {ds : JsString} (h : Digits ds) : ds.Low := by
  intro u mem
  have := (isDigit_bounds (h u mem)).2
  omega

theorem hexText_low (u : UInt16) : (hexText u).Low := by
  have digit : ∀ n < 16, (if n < 10 then (0x30 + n).toUInt16 else (0x57 + n).toUInt16).toNat < 0x7F := by
    decide
  have bound := u.toNat_lt
  intro v mem
  simp only [hexText, List.mem_cons, List.not_mem_nil, or_false] at mem
  rcases mem with rfl | rfl | rfl | rfl
  · exact digit _ (by omega)
  · exact digit _ (by omega)
  · exact digit _ (by omega)
  · exact digit _ (by omega)

theorem quoteUnit_formed {u : UInt16} (high : isHighSurrogate u = false)
    (low : isLowSurrogate u = false) : (quoteUnit u).WellFormed := by
  unfold quoteUnit
  split
  next => exact wellFormed_of_lt (by decide)
  next => exact wellFormed_of_lt (by decide)
  next => exact wellFormed_of_lt (by decide)
  next => exact wellFormed_of_lt (by decide)
  next => exact wellFormed_of_lt (by decide)
  next => exact wellFormed_of_lt (by decide)
  next => exact wellFormed_of_lt (by decide)
  next =>
    split
    · exact wellFormed_of_lt (Low.cons (by decide) (Low.cons (by decide) (hexText_low u)))
    · exact wellFormed_plain high low

theorem escape_formed (u : UInt16) : WellFormed (0x5C :: 0x75 :: hexText u) :=
  wellFormed_of_lt (Low.cons (by decide) (Low.cons (by decide) (hexText_low u)))

theorem quoteUnits_formed (s : JsString) : (quoteUnits s).WellFormed := by
  induction s using quoteUnits.induct with
  | case1 => exact wellFormed_nil
  | case2 u surrogate =>
    rw [quoteUnits, if_pos surrogate]
    exact escape_formed u
  | case3 u ordinary =>
    rw [quoteUnits, if_neg ordinary]
    simp only [Bool.or_eq_true, not_or, Bool.not_eq_true] at ordinary
    exact quoteUnit_formed ordinary.1 ordinary.2
  | case4 u v rest pair ih =>
    rw [quoteUnits, if_pos pair]
    obtain ⟨high, low⟩ := Bool.and_eq_true_iff.mp pair
    exact wellFormed_append (wellFormed_pair high low) ih
  | case5 u v rest unpaired surrogate ih =>
    rw [quoteUnits, if_neg unpaired, if_pos surrogate]
    exact wellFormed_append (escape_formed u) ih
  | case6 u v rest unpaired ordinary ih =>
    rw [quoteUnits, if_neg unpaired, if_neg ordinary]
    simp only [Bool.or_eq_true, not_or, Bool.not_eq_true] at ordinary
    exact wellFormed_append (quoteUnit_formed ordinary.1 ordinary.2) ih

theorem quote_formed (s : JsString) : (quote s).WellFormed := by
  have mark : WellFormed [0x22] := wellFormed_of_lt (by decide)
  exact wellFormed_append (wellFormed_append mark (quoteUnits_formed s)) mark

def Numeric (s : JsString) : Prop := ∀ u ∈ s, isDigit u = true ∨ u ∈ ([0x2B, 0x2D, 0x2E, 0x65] : JsString)

theorem Numeric.append {s t : JsString} (hs : Numeric s) (ht : Numeric t) : Numeric (s ++ t) := by
  intro u mem
  rcases List.mem_append.mp mem with left | right
  · exact hs u left
  · exact ht u right

theorem Numeric.cons {u : UInt16} {s : JsString} (sign : u ∈ ([0x2B, 0x2D, 0x2E, 0x65] : JsString))
    (hs : Numeric s) : Numeric (u :: s) := by
  intro v mem
  rcases List.mem_cons.mp mem with rfl | later
  · exact .inr sign
  · exact hs v later

theorem numeric_digits {ds : JsString} (h : Digits ds) : Numeric ds := fun u mem => .inl (h u mem)

theorem positiveText_numeric (a : ℚ) : Numeric (positiveText a) := by
  have digits (n : Nat) : Numeric (naturalText n) := numeric_digits (naturalText_digits n)
  have zeros (n : Nat) : Numeric (List.replicate n 0x30) := numeric_digits (digits_zeros n)
  unfold positiveText
  generalize shortestDigits a = shortest
  obtain ⟨s, n⟩ := shortest
  dsimp only
  split
  next => exact (digits s).append (zeros _)
  next =>
    split
    next =>
      apply Numeric.append
      · exact fun u mem => digits s u (List.mem_of_mem_take mem)
      · exact Numeric.cons (by decide) fun u mem => digits s u (List.mem_of_mem_drop mem)
    next =>
      split
      next =>
        have zero : Numeric [0x30] := zeros 1
        exact zero.append (Numeric.cons (by decide) ((zeros _).append (digits s)))
      next =>
        have sign : (if 0 ≤ n - 1 then 0x2B else 0x2D : UInt16) ∈ ([0x2B, 0x2D, 0x2E, 0x65] : JsString) := by
          split <;> decide
        have power : Numeric (0x65 :: (if 0 ≤ n - 1 then 0x2B else 0x2D) :: naturalText (n - 1).natAbs) :=
          Numeric.cons (by decide) (Numeric.cons sign (digits _))
        have whole := digits s
        split
        next d only =>
          rw [only] at whole
          exact whole.append power
        next d ds _ several =>
          rw [several] at whole
          have first : Numeric [d] := fun u mem => whole u (List.mem_cons.mpr (.inl (List.mem_singleton.mp mem)))
          have rest : Numeric ds := fun u mem => whole u (List.mem_cons_of_mem d mem)
          exact first.append (Numeric.cons (by decide) (rest.append power))
        next => exact power

theorem numeric_low {s : JsString} (h : Numeric s) : s.Low := by
  intro u mem
  rcases h u mem with digit | sign
  · exact @digits_low [u] (fun v inside => List.mem_singleton.mp inside ▸ digit) u List.mem_cons_self
  · revert sign
    simp only [List.mem_cons, List.not_mem_nil, or_false]
    rintro (rfl | rfl | rfl | rfl) <;> decide

theorem positiveText_low (a : ℚ) : (positiveText a).Low := numeric_low (positiveText_numeric a)

theorem numberText_low (n : JsNumber) : (numberText n).Low := by
  cases n with
  | nan => decide
  | infinity negative => cases negative <;> decide
  | finite x =>
    unfold numberText
    dsimp only
    split
    · exact Low.cons (by decide) nofun
    · split
      · exact Low.cons (by decide) (positiveText_low _)
      · exact positiveText_low _

theorem commaSeparated_formed {texts : List JsString} (all : ∀ text ∈ texts, text.WellFormed) :
    (commaSeparated texts).WellFormed := by
  induction texts with
  | nil => exact wellFormed_nil
  | cons s rest ih =>
    have others := ih fun text mem => all text (List.mem_cons_of_mem s mem)
    cases rest with
    | nil => exact all s List.mem_cons_self
    | cons t rest =>
      have comma : WellFormed [0x2C] := wellFormed_of_lt (by decide)
      exact wellFormed_append (all s List.mem_cons_self) (wellFormed_append comma others)

mutual

theorem text_formed : ∀ v : JsonValue, v.text.WellFormed
  | .null | .bool true | .bool false => wellFormed_of_lt (by decide)
  | .number n => by
    show WellFormed (if n.isFinite then numberText n else js "null")
    split
    · exact wellFormed_of_lt (numberText_low n)
    · exact wellFormed_of_lt (by decide)
  | .string s => quote_formed s
  | .array items => by
    have left : WellFormed [0x5B] := wellFormed_of_lt (by decide)
    have right : WellFormed [0x5D] := wellFormed_of_lt (by decide)
    exact wellFormed_append (wellFormed_append left (commaSeparated_formed (itemTexts_formed items))) right
  | .object members => by
    have left : WellFormed [0x7B] := wellFormed_of_lt (by decide)
    have right : WellFormed [0x7D] := wellFormed_of_lt (by decide)
    exact wellFormed_append (wellFormed_append left (commaSeparated_formed (memberTexts_formed members))) right

theorem itemTexts_formed : ∀ items : List JsonValue, ∀ text ∈ JsonValue.itemTexts items, text.WellFormed
  | [], _, mem => absurd mem List.not_mem_nil
  | item :: items, text, mem => by
    rcases List.mem_cons.mp mem with rfl | later
    · exact text_formed item
    · exact itemTexts_formed items text later

theorem memberTexts_formed : ∀ members : List (JsString × JsonValue),
    ∀ text ∈ JsonValue.memberTexts members, text.WellFormed
  | [], _, mem => absurd mem List.not_mem_nil
  | (key, item) :: members, text, mem => by
    rcases List.mem_cons.mp mem with rfl | later
    · have colon : WellFormed [0x3A] := wellFormed_of_lt (by decide)
      exact wellFormed_append (quote_formed key) (wellFormed_append colon (text_formed item))
    · exact memberTexts_formed members text later

end

theorem parse_utf8 {v : JsonValue} (wf : v.WellFormed) :
    parse (utf8Decode (utf8Encode v.text)) = some v.plusZero := by
  have unmarked : v.text.head? ≠ some bom := by
    obtain ⟨u, tail, text, space, _⟩ := text_head wf
    rw [text]
    intro same
    have marked : u = bom := Option.some.inj same
    cases v with
    | null => cases text; exact absurd marked (by decide)
    | bool b => cases b <;> cases text <;> exact absurd marked (by decide)
    | string s | array items | object members => cases text; exact absurd marked (by decide)
    | number n =>
      obtain ⟨x, rfl⟩ := finite_of_isFinite wf
      have low := numberText_low (.finite x) u (by
        have whole : numberText (.finite x) = u :: tail := text
        rw [whole]
        exact List.mem_cons_self)
      rw [marked] at low
      exact absurd low (by decide)
  rw [(utf8_round_trip (text_formed v)).mpr unmarked]
  exact parse_text wf

end JsonText
