import ForgeDeno.JsonNumbers
import Mathlib.Data.List.TakeWhile

/-! `JSON.parse` after `JSON.stringify`. -/

namespace JsonText

open List

inductive Quoted : JsString → JsString → Prop
  | nil : Quoted [] []
  | plain {u : UInt16} {s t : JsString} (visible : ¬u < 0x20) (quote : u ≠ 0x22) (slash : u ≠ 0x5C) :
      Quoted s t → Quoted (u :: s) (u :: t)
  | letter {u c : UInt16} {s t : JsString} (escapes : escaped? c = some u) (hex : c ≠ 0x75) :
      Quoted s t → Quoted (u :: s) (0x5C :: c :: t)
  | hex {u : UInt16} {s t : JsString} : Quoted s t → Quoted (u :: s) (0x5C :: 0x75 :: (hexText u ++ t))

theorem quoted_unit (u : UInt16) {s t : JsString} (h : Quoted s t) : Quoted (u :: s) (quoteUnit u ++ t) := by
  unfold quoteUnit
  split
  next => exact .letter rfl (by decide) h
  next => exact .letter rfl (by decide) h
  next => exact .letter rfl (by decide) h
  next => exact .letter rfl (by decide) h
  next => exact .letter rfl (by decide) h
  next => exact .letter rfl (by decide) h
  next => exact .letter rfl (by decide) h
  next quote slash _ _ _ _ _ =>
    split
    next => exact .hex h
    next visible => exact .plain visible quote slash h

theorem surrogate_plain {u : UInt16} (h : JsString.isHighSurrogate u = true ∨ JsString.isLowSurrogate u = true) :
    ¬u < 0x20 ∧ u ≠ 0x22 ∧ u ≠ 0x5C := by
  have large : 0xD800 ≤ u.toNat := by
    rcases h with high | low
    · exact of_decide_eq_true (Bool.and_eq_true_iff.mp high).1
    · have : 0xDC00 ≤ u.toNat := of_decide_eq_true (Bool.and_eq_true_iff.mp low).1
      omega
  refine ⟨?_, ?_, ?_⟩
  · intro small
    have : u.toNat < 0x20 := small
    omega
  · rintro rfl
    exact absurd large (by decide)
  · rintro rfl
    exact absurd large (by decide)

theorem quoted_quoteUnits (s : JsString) : Quoted s (quoteUnits s) := by
  induction s using quoteUnits.induct with
  | case1 => exact .nil
  | case2 u surrogate =>
    unfold quoteUnits
    rw [if_pos surrogate]
    exact append_nil (hexText u) ▸ .hex .nil
  | case3 u ordinary =>
    unfold quoteUnits
    rw [if_neg ordinary]
    exact append_nil (quoteUnit u) ▸ quoted_unit u .nil
  | case4 u v rest pair ih =>
    unfold quoteUnits
    rw [if_pos pair]
    obtain ⟨high, low⟩ := Bool.and_eq_true_iff.mp pair
    obtain ⟨visible, quote, slash⟩ := surrogate_plain (.inl high)
    obtain ⟨visible', quote', slash'⟩ := surrogate_plain (.inr low)
    exact .plain visible quote slash (.plain visible' quote' slash' ih)
  | case5 u v rest unpaired surrogate ih =>
    unfold quoteUnits
    rw [if_neg unpaired, if_pos surrogate]
    exact .hex ih
  | case6 u v rest unpaired ordinary ih =>
    unfold quoteUnits
    rw [if_neg unpaired, if_neg ordinary]
    exact quoted_unit u ih

theorem hexDigit_text : ∀ n < 16,
    hexDigit? (if n < 10 then (0x30 + n).toUInt16 else (0x57 + n).toUInt16) = some n := by
  decide

theorem parseString_hex (u : UInt16) (tail : JsString) : parseString (0x5C :: 0x75 :: (hexText u ++ tail)) =
      (parseString tail).map fun result => (u :: result.1, result.2) := by
  have bound : u.toNat < 2 ^ 16 := u.toNat_lt
  have sum : u.toNat / 0x1000 * 0x1000 + u.toNat / 0x100 % 0x10 * 0x100 +
      u.toNat / 0x10 % 0x10 * 0x10 + u.toNat % 0x10 = u.toNat := by omega
  unfold hexText
  simp only [cons_append, nil_append]
  rw [parseString.eq_3]
  simp only [hexDigit_text _ (show u.toNat / 0x1000 < 16 by omega),
    hexDigit_text _ (show u.toNat / 0x100 % 0x10 < 16 by omega),
    hexDigit_text _ (show u.toNat / 0x10 % 0x10 < 16 by omega),
    hexDigit_text _ (show u.toNat % 0x10 < 16 by omega), Option.bind_eq_bind, Option.bind_some, sum]
  have same : u.toNat.toUInt16 = u := UInt16.ofNat_toNat
  rw [same]
  cases parseString tail <;> rfl

theorem Quoted.parses {s t : JsString} (h : Quoted s t) (rest : JsString) :
    parseString (t ++ 0x22 :: rest) = some (s, rest) := by
  induction h with
  | nil => rfl
  | plain visible quote slash _ ih =>
    rw [cons_append, parseString.eq_5]
    · rw [if_neg (not_or.mpr ⟨visible, slash⟩), ih]
      rfl
    · exact fun eq => absurd eq quote
    · exact fun _ _ _ _ _ eq _ => absurd eq slash
    · exact fun _ _ eq => absurd eq slash
  | letter escapes hex _ ih =>
    rw [cons_append, cons_append, parseString.eq_4]
    · rw [escapes, ih]
      rfl
    · exact fun _ _ _ _ _ eq _ => absurd eq hex
  | hex _ ih =>
    rw [cons_append, cons_append, append_assoc, parseString_hex, ih]
    rfl

theorem parseString_quote (s rest : JsString) : parseString (quoteUnits s ++ 0x22 :: rest) = some (s, rest) :=
  (quoted_quoteUnits s).parses rest

end JsonText

/-- A key may stand before another in property order: array indices come first and ascend. -/
def precedes (a b : JsString) : Bool :=
  a ≠ b && match arrayIndex? b, arrayIndex? a with
    | none, _ => true
    | some j, some i => i < j
    | some _, none => false

theorem setMember_last {α : Type} {members : List (JsString × α)} {key : JsString}
    (h : ∀ member ∈ members, precedes member.1 key = true) (item : α) :
    setMember members key item = members ++ [(key, item)] := by
  have fresh : lookupMember members key = none := by
    unfold lookupMember
    rw [Option.map_eq_none_iff, List.find?_eq_none]
    intro member mem same
    have other := of_decide_eq_true (Bool.and_eq_true_iff.mp (h member mem)).1
    exact other (eq_of_beq same)
  unfold setMember
  rw [fresh, if_neg (by rw [Option.isSome_none]; exact Bool.false_ne_true)]
  cases index : arrayIndex? key with
  | none => rfl
  | some j =>
    simp only
    rw [List.takeWhile_eq_self_iff.mpr, List.drop_length]
    intro member mem
    have before := (Bool.and_eq_true_iff.mp (h member mem)).2
    rw [index] at before
    cases other : arrayIndex? member.1 with
    | none =>
      rw [other] at before
      exact before
    | some i =>
      rw [other] at before
      exact before

theorem setMember_foldl {α : Type} {members done : List (JsString × α)}
    (h : ((done ++ members).map Prod.fst).Pairwise fun a b => precedes a b = true) :
    members.foldl (fun acc member => setMember acc member.1 member.2) done = done ++ members := by
  induction members generalizing done with
  | nil => exact (List.append_nil done).symm
  | cons member members ih =>
    have before : ∀ other ∈ done, precedes other.1 member.1 = true := by
      intro other mem
      rw [List.map_append, List.pairwise_append] at h
      exact h.2.2 other.1 (List.mem_map_of_mem mem) member.1 List.mem_cons_self
    rw [List.foldl_cons, setMember_last before, ih (by rwa [List.append_assoc]), List.append_assoc]
    rfl

namespace JsonValue

mutual

/-- A value that JSON text denotes: its numbers are finite and the members of its objects are in
property order. -/
def WellFormed : JsonValue → Prop
  | .null | .bool _ | .string _ => True
  | .number n => n.isFinite = true
  | .array items => ItemsWellFormed items
  | .object members =>
    (members.map Prod.fst).Pairwise (fun a b => precedes a b = true) ∧ MembersWellFormed members

def ItemsWellFormed : List JsonValue → Prop
  | [] => True
  | item :: items => item.WellFormed ∧ ItemsWellFormed items

def MembersWellFormed : List (JsString × JsonValue) → Prop
  | [] => True
  | member :: members => MemberWellFormed member ∧ MembersWellFormed members

def MemberWellFormed : JsString × JsonValue → Prop
  | (_, item) => item.WellFormed

end

mutual

def plusZero : JsonValue → JsonValue
  | .null => .null
  | .bool b => .bool b
  | .number n => .number n.plusZero
  | .string s => .string s
  | .array items => .array (itemsPlusZero items)
  | .object members => .object (membersPlusZero members)

def itemsPlusZero : List JsonValue → List JsonValue
  | [] => []
  | item :: items => item.plusZero :: itemsPlusZero items

def membersPlusZero : List (JsString × JsonValue) → List (JsString × JsonValue)
  | [] => []
  | member :: members => memberPlusZero member :: membersPlusZero members

def memberPlusZero : JsString × JsonValue → JsString × JsonValue
  | (key, item) => (key, item.plusZero)

end

mutual

def text : JsonValue → JsString
  | .null => js "null"
  | .bool b => if b then js "true" else js "false"
  | .number n => if n.isFinite then JsonText.numberText n else js "null"
  | .string s => JsonText.quote s
  | .array items => 0x5B :: JsonText.commaSeparated (itemTexts items) ++ [0x5D]
  | .object members => 0x7B :: JsonText.commaSeparated (memberTexts members) ++ [0x7D]

def itemTexts : List JsonValue → List JsString
  | [] => []
  | item :: items => item.text :: itemTexts items

def memberTexts : List (JsString × JsonValue) → List JsString
  | [] => []
  | member :: members => memberText member :: memberTexts members

def memberText : JsString × JsonValue → JsString
  | (key, item) => JsonText.quote key ++ 0x3A :: item.text

end

end JsonValue

namespace JsonText

open JsonValue

mutual

theorem stringify_toJs : ∀ v : JsonValue, stringify v.toJs = some v.text
  | .null | .bool _ | .number _ | .string _ => rfl
  | .array items => by
    show some _ = some _
    rw [stringifyItems_toJs items]
    rfl
  | .object members => by
    show some _ = some _
    rw [stringifyMembers_toJs members]
    rfl

theorem stringifyItems_toJs : ∀ items : List JsonValue, stringifyItems (itemsToJs items) = itemTexts items
  | [] => rfl
  | item :: items => by
    show (stringify item.toJs).getD (js "null") :: stringifyItems (itemsToJs items) = _
    rw [stringify_toJs item, stringifyItems_toJs items]
    rfl

theorem stringifyMembers_toJs : ∀ members : List (JsString × JsonValue),
    stringifyMembers (membersToJs members) = memberTexts members
  | [] => rfl
  | (key, item) :: members => by
    have text : stringifyMember (memberToJs (key, item)) = some (memberText (key, item)) := by
      show (stringify item.toJs).map _ = _
      rw [stringify_toJs item]
      rfl
    show (match stringifyMember (memberToJs (key, item)) with
      | some text => text :: stringifyMembers (membersToJs members)
      | none => stringifyMembers (membersToJs members)) = _
    rw [text, stringifyMembers_toJs members]
    rfl

end

def EndsValue (rest : JsString) : Prop :=
  ∀ u ∈ rest.head?, u = 0x2C ∨ u = 0x5D ∨ u = 0x7D

theorem EndsValue.number {rest : JsString} (h : EndsValue rest) : EndsNumber rest := by
  intro u mem
  rcases h u mem with rfl | rfl | rfl
  · decide
  · decide
  · decide

variable {u : UInt16}

theorem endsValue_cons (h : u = 0x2C ∨ u = 0x5D ∨ u = 0x7D) (rest : JsString) :
    EndsValue (u :: rest) := by
  intro v mem
  cases mem
  exact h

theorem skipSpace_cons (h : isSpace u = false) (rest : JsString) :
    skipSpace (u :: rest) = u :: rest :=
  List.dropWhile_cons_of_neg (by rw [h]; exact Bool.false_ne_true)

theorem isSpace_digit (h : u = 0x2D ∨ isDigit u = true) :
    isSpace u = false ∧ u ≠ 0x5D ∧ u ≠ 0x7D ∧ u ≠ 0x7B ∧ u ≠ 0x5B ∧ u ≠ 0x22 ∧ u ≠ 0x74 ∧
      u ≠ 0x66 ∧ u ≠ 0x6E := by
  rcases h with rfl | digit
  · decide
  · obtain ⟨low, high⟩ := isDigit_bounds digit
    have other (c : UInt16) (far : c.toNat < 0x30 ∨ 0x39 < c.toNat) : u ≠ c := by
      rintro rfl
      omega
    have space : isSpace u = false := by
      unfold isSpace
      simp [other 0x09 (by decide), other 0x0A (by decide), other 0x0D (by decide), other 0x20 (by decide)]
    exact ⟨space, other _ (by decide), other _ (by decide), other _ (by decide),
      other _ (by decide), other _ (by decide), other _ (by decide), other _ (by decide),
      other _ (by decide)⟩

theorem numberText_head (x : Double) :
    ∃ u tail, numberText (.finite x) = u :: tail ∧ (u = 0x2D ∨ isDigit u = true) := by
  show ∃ u tail, (if x.mantissa = 0 then [0x30]
    else if x.negative then 0x2D :: positiveText x.magnitude
    else positiveText x.magnitude) = u :: tail ∧ _
  by_cases zero : x.mantissa = 0
  · rw [if_pos zero]
    exact ⟨_, _, rfl, .inr rfl⟩
  · rw [if_neg zero]
    cases x.negative with
    | true => exact ⟨_, _, rfl, .inl rfl⟩
    | false =>
      obtain ⟨l, valid, text, _⟩ := positiveText_literal (x := { x with negative := false }) rfl zero
      have same : positiveText x.magnitude = l.text := text
      obtain ⟨first, others, whole⟩ := List.exists_cons_of_ne_nil valid.nonempty
      rw [if_neg Bool.false_ne_true, same]
      refine ⟨first, others ++ (Literal.fractionText l.fraction ++
        Literal.exponentText l.exponent), ?_, .inr (valid.whole first (whole ▸ List.mem_cons_self))⟩
      unfold Literal.text
      rw [whole, List.cons_append]

theorem finite_of_isFinite {n : JsNumber} (h : n.isFinite = true) : ∃ x, n = .finite x := by
  cases n with
  | finite x => exact ⟨x, rfl⟩
  | nan | infinity s => cases h

theorem text_head {v : JsonValue} (h : v.WellFormed) :
    ∃ u tail, v.text = u :: tail ∧ isSpace u = false ∧ u ≠ 0x5D ∧ u ≠ 0x7D := by
  cases v with
  | null => exact ⟨_, _, rfl, by decide⟩
  | bool b => cases b <;> exact ⟨_, _, rfl, by decide⟩
  | string s | array items | object members => exact ⟨_, _, rfl, by decide⟩
  | number n =>
    obtain ⟨x, rfl⟩ := finite_of_isFinite h
    obtain ⟨u, tail, eq, digit⟩ := numberText_head x
    obtain ⟨space, bracket, brace, _⟩ := isSpace_digit digit
    exact ⟨u, tail, eq, space, bracket, brace⟩

theorem parseValue_number (h : u = 0x2D ∨ isDigit u = true) (fuel : Nat)
    (tail : JsString) : parseValue (fuel + 1) (u :: tail) =
      (parseNumber (u :: tail)).map fun result => (.number result.1, result.2) := by
  obtain ⟨space, _, _, brace, bracket, quote, t, f, n⟩ := isSpace_digit h
  unfold parseValue
  rw [skipSpace_cons space]
  split
  next eq => exact absurd (List.head_eq_of_cons_eq eq) brace
  next eq => exact absurd (List.head_eq_of_cons_eq eq) bracket
  next eq => exact absurd (List.head_eq_of_cons_eq eq) quote
  next eq => exact absurd (List.head_eq_of_cons_eq eq) t
  next eq => exact absurd (List.head_eq_of_cons_eq eq) f
  next eq => exact absurd (List.head_eq_of_cons_eq eq) n
  next => rfl

theorem parseValue_items (space : isSpace u = false) (other : u ≠ 0x5D) (fuel : Nat)
    (tail : JsString) : parseValue (fuel + 1) (0x5B :: u :: tail) =
      (parseItems fuel (u :: tail)).map fun result => (.array result.1, result.2) := by
  unfold parseValue
  rw [skipSpace_cons (by decide)]
  simp only
  rw [skipSpace_cons space]
  split
  next eq => exact absurd (List.head_eq_of_cons_eq eq) other
  next => cases parseItems fuel (u :: tail) <;> rfl

theorem parseValue_members (space : isSpace u = false) (other : u ≠ 0x7D) (fuel : Nat)
    (tail : JsString) : parseValue (fuel + 1) (0x7B :: u :: tail) =
      (parseMembers fuel (u :: tail)).map fun result =>
        (.object (result.1.foldl (fun acc member => setMember acc member.1 member.2) []), result.2) := by
  unfold parseValue
  rw [skipSpace_cons (by decide)]
  simp only
  rw [skipSpace_cons space]
  split
  next eq => exact absurd (List.head_eq_of_cons_eq eq) other
  next => cases parseMembers fuel (u :: tail) <;> rfl

theorem membersPlusZero_keys (members : List (JsString × JsonValue)) :
    (membersPlusZero members).map Prod.fst = members.map Prod.fst := by
  induction members with
  | nil => rfl
  | cons member members ih =>
    obtain ⟨key, item⟩ := member
    rw [membersPlusZero, List.map_cons, List.map_cons, ih]
    rfl

theorem itemTexts_head {item : JsonValue} {items : List JsonValue} (wf : ItemsWellFormed (item :: items)) :
    ∃ u tail, commaSeparated (itemTexts (item :: items)) = u :: tail ∧ isSpace u = false ∧ u ≠ 0x5D := by
  obtain ⟨u, tail, eq, space, bracket, _⟩ := text_head wf.1
  cases items with
  | nil => exact ⟨u, tail, eq, space, bracket⟩
  | cons second items =>
    refine ⟨u, tail ++ 0x2C :: commaSeparated (itemTexts (second :: items)), ?_, space, bracket⟩
    show item.text ++ _ = _
    rw [eq]
    rfl

theorem memberTexts_head (member : JsString × JsonValue) (members : List (JsString × JsonValue)) :
    ∃ tail, commaSeparated (memberTexts (member :: members)) = 0x22 :: tail := by
  obtain ⟨key, item⟩ := member
  cases members with
  | nil | cons second members => exact ⟨_, rfl⟩

theorem memberText_append (key : JsString) (item : JsonValue) (rest : JsString) : memberText (key, item) ++ rest =
      0x22 :: (quoteUnits key ++ 0x22 :: 0x3A :: (item.text ++ rest)) := by
  simp [memberText, quote]

theorem parseMembers_member (key : JsString) {item value : JsonValue} {fuel : Nat} {rest : JsString}
    (parsed : parseValue fuel (item.text ++ rest) = some (value, rest)) :
    parseMembers (fuel + 1) (memberText (key, item) ++ rest) =
      match skipSpace rest with
      | 0x7D :: rest => some ([(key, value)], rest)
      | 0x2C :: rest => (parseMembers fuel rest).bind fun result =>
          some ((key, value) :: result.1, result.2)
      | _ => none := by
  rw [memberText_append]
  conv_lhs => unfold parseMembers
  rw [skipSpace_cons (by decide)]
  simp only [parseString_quote, Option.bind_eq_bind, Option.bind_some]
  rw [skipSpace_cons (by decide)]
  exact (congrArg (Option.bind · _) parsed).trans rfl

theorem length_enclosed (a b : UInt16) (t : JsString) : (a :: t ++ [b]).length = t.length + 2 := by
  simp

theorem items_fit {items : List JsonValue} {fuel : Nat} (enough : (JsonValue.array items).text.length < fuel + 1) :
    (commaSeparated (itemTexts items)).length + 1 < fuel := by
  unfold JsonValue.text at enough
  rw [length_enclosed] at enough
  omega

theorem members_fit {members : List (JsString × JsonValue)} {fuel : Nat}
    (enough : (JsonValue.object members).text.length < fuel + 1) :
    (commaSeparated (memberTexts members)).length + 1 < fuel := by
  unfold JsonValue.text at enough
  rw [length_enclosed] at enough
  omega

theorem first_fits {head tail : JsString} {fuel : Nat} (enough : (head ++ 0x2C :: tail).length + 1 < fuel + 1) :
    head.length < fuel ∧ tail.length + 1 < fuel := by
  rw [List.length_append, List.length_cons] at enough
  omega

theorem member_fits {key : JsString} {item : JsonValue} {fuel : Nat}
    (enough : (memberText (key, item)).length < fuel) : item.text.length < fuel := by
  have text := congrArg List.length (memberText_append key item [])
  simp only [List.append_nil, List.length_cons, List.length_append] at text
  omega

mutual

theorem parseValue_text : ∀ (v : JsonValue), v.WellFormed → ∀ (fuel : Nat),
    v.text.length < fuel → ∀ (rest : JsString), EndsValue rest →
      parseValue fuel (v.text ++ rest) = some (v.plusZero, rest)
  | .null, _, fuel + 1, _, rest, _ | .bool true, _, fuel + 1, _, rest, _
  | .bool false, _, fuel + 1, _, rest, _ => rfl
  | .number n, wf, fuel + 1, _, rest, ends => by
    obtain ⟨x, rfl⟩ := finite_of_isFinite wf
    obtain ⟨u, tail, eq, digit⟩ := numberText_head x
    have parsed := parseNumber_numberText x ends.number
    show parseValue (fuel + 1) (numberText (.finite x) ++ rest) = _
    rw [eq, List.cons_append] at parsed ⊢
    rw [parseValue_number digit, parsed]
    rfl
  | .string s, _, fuel + 1, _, rest, _ => by
    show parseValue (fuel + 1) (0x22 :: (quoteUnits s ++ [0x22]) ++ rest) = _
    rw [List.cons_append, List.append_assoc, List.singleton_append]
    unfold parseValue
    rw [skipSpace_cons (by decide)]
    simp only [parseString_quote]
    rfl
  | .array [], _, fuel + 1, _, rest, _ => rfl
  | .array (item :: items), wf, fuel + 1, enough, rest, _ => by
    obtain ⟨u, tail, eq, space, bracket⟩ := itemTexts_head wf
    have parsed := parseItems_text item items wf fuel (items_fit enough) rest
    show parseValue (fuel + 1) (0x5B :: commaSeparated (itemTexts (item :: items)) ++ [0x5D] ++ rest) = _
    rw [List.append_assoc, List.singleton_append, List.cons_append]
    rw [eq, List.cons_append] at parsed ⊢
    rw [parseValue_items space bracket, parsed]
    rfl
  | .object [], _, fuel + 1, _, rest, _ => rfl
  | .object (member :: members), wf, fuel + 1, enough, rest, _ => by
    obtain ⟨tail, eq⟩ := memberTexts_head member members
    have parsed := parseMembers_text member members wf.2 fuel (members_fit enough) rest
    have ordered : (([] ++ membersPlusZero (member :: members)).map Prod.fst).Pairwise
        fun a b => precedes a b = true := by
      rw [List.nil_append, membersPlusZero_keys]
      exact wf.1
    show parseValue (fuel + 1) (0x7B :: commaSeparated (memberTexts (member :: members)) ++ [0x7D] ++ rest) = _
    rw [List.append_assoc, List.singleton_append, List.cons_append]
    rw [eq, List.cons_append] at parsed ⊢
    rw [parseValue_members (by decide) (by decide), parsed]
    show some (JsonValue.object _, rest) = _
    rw [setMember_foldl ordered]
    rfl

theorem parseItems_text : ∀ (item : JsonValue) (items : List JsonValue),
    ItemsWellFormed (item :: items) → ∀ (fuel : Nat),
      (commaSeparated (itemTexts (item :: items))).length + 1 < fuel → ∀ (rest : JsString),
        parseItems fuel (commaSeparated (itemTexts (item :: items)) ++ 0x5D :: rest) =
          some (itemsPlusZero (item :: items), rest)
  | item, [], wf, fuel + 1, enough, rest => by
    have first := parseValue_text item wf.1 fuel (Nat.lt_of_succ_lt_succ enough) _
      (endsValue_cons (.inr (.inl rfl)) rest)
    show parseItems (fuel + 1) (item.text ++ 0x5D :: rest) = _
    unfold parseItems
    rw [first]
    rfl
  | item, second :: items, wf, fuel + 1, enough, rest => by
    obtain ⟨itemFits, othersFit⟩ := first_fits enough
    have first := parseValue_text item wf.1 fuel itemFits _
      (endsValue_cons (.inl rfl) (commaSeparated (itemTexts (second :: items)) ++ 0x5D :: rest))
    have others := parseItems_text second items wf.2 fuel othersFit rest
    show parseItems (fuel + 1) ((item.text ++ 0x2C :: commaSeparated (itemTexts (second :: items))) ++
      0x5D :: rest) = _
    rw [List.append_assoc, List.cons_append]
    unfold parseItems
    rw [first]
    show (parseItems fuel _).bind _ = _
    rw [others]
    rfl

theorem parseMembers_text : ∀ (member : JsString × JsonValue)
    (members : List (JsString × JsonValue)), MembersWellFormed (member :: members) →
      ∀ (fuel : Nat), (commaSeparated (memberTexts (member :: members))).length + 1 < fuel → ∀ (rest : JsString),
          parseMembers fuel (commaSeparated (memberTexts (member :: members)) ++ 0x7D :: rest) =
            some (membersPlusZero (member :: members), rest)
  | (key, item), [], wf, fuel + 1, enough, rest => by
    have value := parseValue_text item wf.1 fuel (member_fits (Nat.lt_of_succ_lt_succ enough)) _
      (endsValue_cons (.inr (.inr rfl)) rest)
    show parseMembers (fuel + 1) (memberText (key, item) ++ 0x7D :: rest) = _
    rw [parseMembers_member key value, skipSpace_cons (by decide)]
    rfl
  | (key, item), second :: members, wf, fuel + 1, enough, rest => by
    obtain ⟨memberFits, othersFit⟩ := first_fits enough
    have value := parseValue_text item wf.1 fuel (member_fits memberFits) _
      (endsValue_cons (.inl rfl) (commaSeparated (memberTexts (second :: members)) ++ 0x7D :: rest))
    have others := parseMembers_text second members wf.2 fuel othersFit rest
    show parseMembers (fuel + 1) ((memberText (key, item) ++
      0x2C :: commaSeparated (memberTexts (second :: members))) ++ 0x7D :: rest) = _
    rw [List.append_assoc, List.cons_append, parseMembers_member key value, skipSpace_cons (by decide)]
    simp only
    rw [others]
    rfl

end

theorem parse_text {v : JsonValue} (wf : v.WellFormed) : parse v.text = some v.plusZero := by
  have nothing : EndsValue [] := by
    intro u mem
    cases mem
  have parsed := parseValue_text v wf _ (Nat.lt_succ_self v.text.length) [] nothing
  rw [List.append_nil] at parsed
  unfold parse
  rw [parsed]
  rfl

end JsonText

namespace JsonValue

mutual

theorem text_plusZero : ∀ v : JsonValue, v.plusZero.text = v.text
  | .null | .bool _ => rfl
  | .number n => by
    show (if n.plusZero.isFinite then JsonText.numberText n.plusZero else js "null") =
      if n.isFinite then JsonText.numberText n else js "null"
    cases n with
    | nan | infinity s => rfl
    | finite x =>
      unfold JsNumber.plusZero
      by_cases zero : x.mantissa = 0
      · simp [zero, JsNumber.isFinite, JsonText.numberText, Double.zero]
      · simp [zero]
  | .string _ => rfl
  | .array items => by
    show 0x5B :: JsonText.commaSeparated (itemTexts (itemsPlusZero items)) ++ [0x5D] = _
    rw [itemTexts_plusZero items]
    rfl
  | .object members => by
    show 0x7B :: JsonText.commaSeparated (memberTexts (membersPlusZero members)) ++ [0x7D] = _
    rw [memberTexts_plusZero members]
    rfl

theorem itemTexts_plusZero : ∀ items : List JsonValue, itemTexts (itemsPlusZero items) = itemTexts items
  | [] => rfl
  | item :: items => by
    rw [itemsPlusZero, itemTexts, itemTexts, text_plusZero item, itemTexts_plusZero items]

theorem memberTexts_plusZero : ∀ members : List (JsString × JsonValue),
    memberTexts (membersPlusZero members) = memberTexts members
  | [] => rfl
  | (key, item) :: members => by
    rw [membersPlusZero, memberPlusZero, memberTexts, memberTexts, memberText, memberText,
      text_plusZero item, memberTexts_plusZero members]

end

end JsonValue
