import ForgeDeno.AbiResponses

/-! The scan for duplicate fields, on the text of a value. -/

namespace ForgeDeno

open JsonText JsonValue List

theorem tokenUnits_plain {u : UInt16} (quote : u ≠ 0x22) (slash : u ≠ 0x5C) (tail : JsString) :
    tokenUnits (u :: tail) = (tokenUnits tail).map fun result => (u :: result.1, result.2) := by
  rw [tokenUnits.eq_def]
  split
  next eq => cases eq
  next eq => exact absurd (head_eq_of_cons_eq eq) slash
  next eq => exact absurd (head_eq_of_cons_eq eq) slash
  next eq => exact absurd (head_eq_of_cons_eq eq) quote
  next eq =>
    cases eq
    rfl

theorem tokenUnits_hex (u : UInt16) (tail : JsString) : tokenUnits (hexText u ++ tail) =
      (tokenUnits tail).map fun result => (hexText u ++ result.1, result.2) := by
  have digit (n : Nat) (small : n < 16) :
      (if n < 10 then (0x30 + n).toUInt16 else (0x57 + n).toUInt16) ≠ 0x22 ∧
        (if n < 10 then (0x30 + n).toUInt16 else (0x57 + n).toUInt16) ≠ 0x5C := by
    have all : ∀ n < 16, (if n < 10 then (0x30 + n).toUInt16 else (0x57 + n).toUInt16) ≠ 0x22 ∧
        (if n < 10 then (0x30 + n).toUInt16 else (0x57 + n).toUInt16) ≠ 0x5C := by decide
    exact all n small
  have bound : u.toNat < 2 ^ 16 := u.toNat_lt
  obtain ⟨q₁, s₁⟩ := digit (u.toNat / 0x1000) (by omega)
  obtain ⟨q₂, s₂⟩ := digit (u.toNat / 0x100 % 0x10) (by omega)
  obtain ⟨q₃, s₃⟩ := digit (u.toNat / 0x10 % 0x10) (by omega)
  obtain ⟨q₄, s₄⟩ := digit (u.toNat % 0x10) (by omega)
  unfold hexText
  simp only [cons_append, nil_append]
  rw [tokenUnits_plain q₁ s₁, tokenUnits_plain q₂ s₂, tokenUnits_plain q₃ s₃, tokenUnits_plain q₄ s₄]
  cases tokenUnits tail <;> rfl

variable {t rest : JsString}

theorem tokenUnits_quoted {s : JsString} (h : Quoted s t) (rest : JsString) :
    tokenUnits (t ++ 0x22 :: rest) = some (t ++ [0x22], rest) := by
  induction h with
  | nil => rfl
  | plain visible quote slash _ ih =>
    rw [cons_append, tokenUnits_plain quote slash, ih]
    rfl
  | @letter u c s t escapes hex _ ih =>
    show (tokenUnits (t ++ 0x22 :: rest)).map _ = _
    rw [ih]
    rfl
  | @hex u s t _ ih =>
    show (tokenUnits (hexText u ++ t ++ 0x22 :: rest)).map _ = _
    rw [append_assoc, tokenUnits_hex, ih]
    simp

theorem stringToken_quote (s rest : JsString) :
    stringToken (0x22 :: (quoteUnits s ++ 0x22 :: rest)) = .ok (s, rest) := by
  have units : tokenUnits (quoteUnits s ++ 0x22 :: rest) = some (quoteUnits s ++ [0x22], rest) :=
    tokenUnits_quoted (quoted_quoteUnits s) rest
  have parsed : JsonText.parse (0x22 :: (quoteUnits s ++ [0x22])) = some (.string s) :=
    @parse_text (.string s) trivial
  unfold stringToken
  simp only [drop_succ_cons, drop_zero, units, take_succ_cons, take_zero, singleton_append, parsed]

theorem endsLiteral_ends (ends : EndsValue rest) : ∀ u ∈ rest.head?, endsLiteral u = true := by
  intro u mem
  rcases ends u mem with rfl | rfl | rfl <;> decide

theorem dropWhile_inside (inside : ∀ u ∈ t, endsLiteral u = false)
    (ends : ∀ u ∈ rest.head?, endsLiteral u = true) : (t ++ rest).dropWhile (fun u => !endsLiteral u) = rest := by
  rw [dropWhile_append_of_pos fun u mem => by rw [inside u mem]; rfl]
  cases rest with
  | nil => rfl
  | cons u tail =>
    have stop := ends u rfl
    exact dropWhile_cons_of_neg (by rw [stop]; exact Bool.false_ne_true)

theorem endsLiteral_digit {u : UInt16} (h : isDigit u = true) : endsLiteral u = false := by
  obtain ⟨low, high⟩ := isDigit_bounds h
  have other (c : UInt16) (far : c.toNat < 0x30 ∨ 0x39 < c.toNat) : u ≠ c := by
    rintro rfl
    omega
  have above (c : UInt16) (far : 0x39 < c.toNat) : ¬c ≤ u := by
    intro le
    have : c.toNat ≤ u.toNat := le
    omega
  have under (c : UInt16) (far : c.toNat < 0x30) : ¬u ≤ c := by
    intro le
    have : u.toNat ≤ c.toNat := le
    omega
  unfold endsLiteral
  simp [other 0x20 (by decide), other 0xA0 (by decide), other 0x1680 (by decide),
    other 0x2028 (by decide), other 0x2029 (by decide), other 0x202F (by decide),
    other 0x205F (by decide), other 0x3000 (by decide), other 0xFEFF (by decide),
    other 0x2C (by decide), other 0x7D (by decide), other 0x5D (by decide),
    above 0x2000 (by decide), under 0x0D (by decide)]

theorem literal_endsLiteral {l : Literal} (valid : l.Valid) : ∀ u ∈ l.text, endsLiteral u = false := by
  intro u mem
  unfold Literal.text at mem
  rcases mem_append.mp mem with mem | mem
  · exact endsLiteral_digit (valid.whole u mem)
  rcases mem_append.mp mem with mem | mem
  · unfold Literal.fractionText at mem
    split at mem
    next => cases mem
    next =>
      rcases mem_cons.mp mem with rfl | mem
      · decide
      · exact endsLiteral_digit (valid.fraction u mem)
  · unfold Literal.exponentText at mem
    split at mem
    next => cases mem
    next e =>
      rcases mem_cons.mp mem with rfl | mem
      · decide
      rcases mem_cons.mp mem with rfl | mem
      · split <;> decide
      · exact endsLiteral_digit (naturalText_digits _ u mem)

theorem numberText_endsLiteral (x : Double) : ∀ u ∈ numberText (.finite x), endsLiteral u = false := by
  intro u mem
  have cases : u ∈ (if x.mantissa = 0 then [0x30]
    else if x.negative then 0x2D :: positiveText x.magnitude
    else positiveText x.magnitude) := mem
  split at cases
  next =>
    rw [mem_singleton.mp cases]
    decide
  next ne =>
    obtain ⟨l, valid, text, _⟩ := positiveText_literal (x := { x with negative := false }) rfl ne
    have same : positiveText x.magnitude = l.text := text
    rw [same] at cases
    split at cases
    next =>
      rcases mem_cons.mp cases with rfl | mem
      · decide
      · exact literal_endsLiteral valid u mem
    next => exact literal_endsLiteral valid u cases

def Scanned (deepest : Nat) (rest : JsString) (result : Except Thrown JsString) : Prop :=
  (deepest ≤ MAX_JSON_DEPTH → result = .ok rest) ∧ (MAX_JSON_DEPTH < deepest → ∃ e, result = .error e)

theorem scanned_atDepth {depth : Nat} {found : Except Thrown JsString} (h : found = .ok rest) :
    Scanned depth rest (if MAX_JSON_DEPTH < depth then
      .error (wasmCodecError (js "response exceeds maximum JSON depth 32")) else found) := by
  constructor
  · intro fits
    rw [if_neg (Nat.not_lt.mpr fits)]
    exact h
  · intro deep
    rw [if_pos deep]
    exact ⟨_, rfl⟩

theorem scanned_inside {depth deepest : Nat} {found : Except Thrown JsString}
    (h : Scanned (depth + deepest) rest found) :
    Scanned (depth + deepest) rest (if MAX_JSON_DEPTH < depth then
      .error (wasmCodecError (js "response exceeds maximum JSON depth 32")) else found) := by
  by_cases deep : MAX_JSON_DEPTH < depth
  · rw [if_pos deep]
    exact ⟨fun fits => by omega, fun _ => ⟨_, rfl⟩⟩
  · rw [if_neg deep]
    exact h

theorem scanValue_items {u : UInt16} (space : isSpace u = false) (other : u ≠ 0x5D)
    (fuel depth : Nat) (tail : JsString) :
    scanValue (fuel + 1) depth (0x5B :: u :: tail) = if MAX_JSON_DEPTH < depth then
      .error (wasmCodecError (js "response exceeds maximum JSON depth 32"))
      else scanItems fuel (depth + 1) (u :: tail) := by
  conv_lhs => unfold scanValue
  rw [skipSpace_cons (by decide)]
  simp only
  rw [skipSpace_cons space]
  split
  next => rfl
  next =>
    split
    next eq => exact absurd (head_eq_of_cons_eq eq) other
    next => rfl

theorem scanValue_members {u : UInt16} (space : isSpace u = false) (other : u ≠ 0x7D)
    (fuel depth : Nat) (tail : JsString) :
    scanValue (fuel + 1) depth (0x7B :: u :: tail) = if MAX_JSON_DEPTH < depth then
      .error (wasmCodecError (js "response exceeds maximum JSON depth 32"))
      else scanMembers fuel (depth + 1) [] (u :: tail) := by
  conv_lhs => unfold scanValue
  rw [skipSpace_cons (by decide)]
  simp only
  rw [skipSpace_cons space]
  split
  next => rfl
  next =>
    split
    next eq => exact absurd (head_eq_of_cons_eq eq) other
    next => rfl

theorem scanValue_literal {u : UInt16} (space : isSpace u = false) (brace : u ≠ 0x7B)
    (bracket : u ≠ 0x5B) (quote : u ≠ 0x22) (fuel depth : Nat) (tail : JsString) :
    scanValue (fuel + 1) depth (u :: tail) = if MAX_JSON_DEPTH < depth then
      .error (wasmCodecError (js "response exceeds maximum JSON depth 32"))
      else .ok ((u :: tail).dropWhile fun u => !endsLiteral u) := by
  conv_lhs => unfold scanValue
  rw [skipSpace_cons space]
  split
  next => rfl
  next =>
    split
    next eq => exact absurd (head_eq_of_cons_eq eq) brace
    next eq => exact absurd (head_eq_of_cons_eq eq) bracket
    next eq => exact absurd (head_eq_of_cons_eq eq) quote
    next => rfl

theorem scanned_literal {u : UInt16} {tail rest : JsString} (space : isSpace u = false)
    (brace : u ≠ 0x7B) (bracket : u ≠ 0x5B) (quote : u ≠ 0x22)
    (inside : ∀ v ∈ u :: tail, endsLiteral v = false) (ends : EndsValue rest) (fuel depth : Nat) :
    Scanned depth rest (scanValue (fuel + 1) depth (u :: tail ++ rest)) := by
  rw [cons_append, scanValue_literal space brace bracket quote]
  apply scanned_atDepth
  exact congrArg Except.ok (dropWhile_inside inside (endsLiteral_ends ends))

theorem Scanned.bind {a b : Nat} {mid : JsString} {first : Except Thrown JsString}
    {next : JsString → Except Thrown JsString} (before : Scanned a mid first)
    (after : Scanned b rest (next mid)) : Scanned (max a b) rest (first >>= next) := by
  constructor
  · intro fits
    rw [before.1 (by omega)]
    exact after.1 (by omega)
  · intro deep
    by_cases early : MAX_JSON_DEPTH < a
    · obtain ⟨e, eq⟩ := before.2 early
      rw [eq]
      exact ⟨e, rfl⟩
    · rw [before.1 (Nat.le_of_not_lt early)]
      exact after.2 (by omega)

theorem scanItems_cons (fuel depth : Nat) (u : UInt16) (tail : JsString) :
    scanItems (fuel + 1) depth (u :: tail) = scanValue fuel depth (u :: tail) >>= fun rest =>
      match skipSpace rest with
      | 0x5D :: rest => .ok rest
      | rest => scanItems fuel depth (rest.drop 1) := by
  conv_lhs => unfold scanItems
  rfl

theorem scanMembers_member (fuel depth : Nat) (fields : List JsString) (key : JsString)
    (item : JsonValue) (rest : JsString) :
    scanMembers (fuel + 1) depth fields (memberText (key, item) ++ rest) =
      if fields.contains key then
        .error (wasmCodecError (js "component response contains a duplicate object field"))
      else scanValue fuel depth (item.text ++ rest) >>= fun rest =>
        match skipSpace rest with
        | 0x7D :: rest => .ok rest
        | rest => scanMembers fuel depth (key :: fields) (rest.drop 1) := by
  rw [memberText_append]
  conv_lhs => unfold scanMembers
  rw [skipSpace_cons (by decide), stringToken_quote]
  show (if fields.contains key then _ else _) = _
  split
  next => rfl
  next =>
    rw [skipSpace_cons (by decide), drop_succ_cons, drop_zero]
    rfl

mutual

theorem scanValue_text : ∀ (v : JsonValue), v.WellFormed → ∀ (fuel : Nat), v.text.length < fuel →
    ∀ (depth : Nat) (rest : JsString), EndsValue rest →
      Scanned (depth + v.depth) rest (scanValue fuel depth (v.text ++ rest))
  | .null, _, fuel + 1, _, depth, rest, ends =>
    @scanned_literal 0x6E (js "ull") rest (by decide) (by decide) (by decide) (by decide)
      (by decide) ends fuel depth
  | .bool true, _, fuel + 1, _, depth, rest, ends =>
    @scanned_literal 0x74 (js "rue") rest (by decide) (by decide) (by decide) (by decide)
      (by decide) ends fuel depth
  | .bool false, _, fuel + 1, _, depth, rest, ends =>
    @scanned_literal 0x66 (js "alse") rest (by decide) (by decide) (by decide) (by decide)
      (by decide) ends fuel depth
  | .number n, wf, fuel + 1, _, depth, rest, ends => by
    obtain ⟨x, rfl⟩ := finite_of_isFinite wf
    obtain ⟨u, tail, eq, digit⟩ := numberText_head x
    obtain ⟨space, _, _, brace, bracket, quote, _⟩ := isSpace_digit digit
    have inside := numberText_endsLiteral x
    show Scanned depth rest (scanValue (fuel + 1) depth (numberText (.finite x) ++ rest))
    rw [eq] at inside ⊢
    exact scanned_literal space brace bracket quote inside ends fuel depth
  | .string s, _, fuel + 1, _, depth, rest, _ => by
    show Scanned depth rest (scanValue (fuel + 1) depth (0x22 :: (quoteUnits s ++ [0x22]) ++ rest))
    rw [cons_append, append_assoc, singleton_append]
    unfold scanValue
    rw [skipSpace_cons (by decide)]
    apply scanned_atDepth
    simp only [stringToken_quote]
    rfl
  | .array [], _, fuel + 1, _, depth, rest, _ => scanned_atDepth rfl
  | .array (item :: items), wf, fuel + 1, enough, depth, rest, _ => by
    obtain ⟨u, tail, eq, space, bracket⟩ := itemTexts_head wf
    have scanned := scanItems_text item items wf fuel (items_fit enough) depth rest
    show Scanned (depth + itemsDepth (item :: items)) rest (scanValue (fuel + 1) depth
      (0x5B :: commaSeparated (itemTexts (item :: items)) ++ [0x5D] ++ rest))
    rw [append_assoc, singleton_append, cons_append]
    rw [eq, cons_append] at scanned ⊢
    rw [scanValue_items space bracket]
    exact scanned_inside scanned
  | .object [], _, fuel + 1, _, depth, rest, _ => scanned_atDepth rfl
  | .object (member :: members), wf, fuel + 1, enough, depth, rest, _ => by
    obtain ⟨tail, eq⟩ := memberTexts_head member members
    have scanned := scanMembers_text member members wf.2 wf.1 [] (fun _ _ => not_mem_nil) fuel
      (members_fit enough) depth rest
    show Scanned (depth + membersDepth (member :: members)) rest (scanValue (fuel + 1) depth
      (0x7B :: commaSeparated (memberTexts (member :: members)) ++ [0x7D] ++ rest))
    rw [append_assoc, singleton_append, cons_append]
    rw [eq, cons_append] at scanned ⊢
    rw [scanValue_members (by decide) (by decide)]
    exact scanned_inside scanned

theorem scanItems_text : ∀ (item : JsonValue) (items : List JsonValue),
    ItemsWellFormed (item :: items) → ∀ (fuel : Nat),
      (commaSeparated (itemTexts (item :: items))).length + 1 < fuel → ∀ (depth : Nat)
        (rest : JsString), Scanned (depth + itemsDepth (item :: items)) rest
          (scanItems fuel (depth + 1) (commaSeparated (itemTexts (item :: items)) ++ 0x5D :: rest))
  | item, [], wf, fuel + 1, enough, depth, rest => by
    have first := scanValue_text item wf.1 fuel (Nat.lt_of_succ_lt_succ enough) (depth + 1) _
      (endsValue_cons (.inr (.inl rfl)) rest)
    obtain ⟨u, tail, eq, _⟩ := text_head wf.1
    have deepest : depth + itemsDepth [item] = max (depth + 1 + item.depth) 0 := by
      show depth + max (item.depth + 1) 0 = _
      omega
    show Scanned _ rest (scanItems (fuel + 1) (depth + 1) (item.text ++ 0x5D :: rest))
    rw [deepest]
    rw [eq, cons_append] at first ⊢
    rw [scanItems_cons]
    apply first.bind
    rw [skipSpace_cons (by decide)]
    exact ⟨fun _ => rfl, fun deep => absurd deep (Nat.not_lt_zero _)⟩
  | item, second :: items, wf, fuel + 1, enough, depth, rest => by
    obtain ⟨itemFits, othersFit⟩ := first_fits enough
    have first := scanValue_text item wf.1 fuel itemFits (depth + 1) _
      (endsValue_cons (.inl rfl) (commaSeparated (itemTexts (second :: items)) ++ 0x5D :: rest))
    have others := scanItems_text second items wf.2 fuel othersFit depth rest
    obtain ⟨u, tail, eq, _⟩ := text_head wf.1
    have deepest : depth + itemsDepth (item :: second :: items) =
        max (depth + 1 + item.depth) (depth + itemsDepth (second :: items)) := by
      show depth + max (item.depth + 1) (itemsDepth (second :: items)) = _
      omega
    show Scanned _ rest (scanItems (fuel + 1) (depth + 1)
      ((item.text ++ 0x2C :: commaSeparated (itemTexts (second :: items))) ++ 0x5D :: rest))
    rw [deepest, append_assoc, cons_append]
    rw [eq, cons_append] at first ⊢
    rw [scanItems_cons]
    apply first.bind
    rw [skipSpace_cons (by decide)]
    exact others

theorem scanMembers_text : ∀ (member : JsString × JsonValue) (members : List (JsString × JsonValue)),
    MembersWellFormed (member :: members) →
      (((member :: members).map Prod.fst).Pairwise fun a b => precedes a b = true) →
        ∀ (fields : List JsString), (∀ key ∈ (member :: members).map Prod.fst, key ∉ fields) →
          ∀ (fuel : Nat), (commaSeparated (memberTexts (member :: members))).length + 1 < fuel →
            ∀ (depth : Nat) (rest : JsString), Scanned (depth + membersDepth (member :: members)) rest
                (scanMembers fuel (depth + 1) fields
                  (commaSeparated (memberTexts (member :: members)) ++ 0x7D :: rest))
  | (key, item), [], wf, _, fields, fresh, fuel + 1, enough, depth, rest => by
    have value := scanValue_text item wf.1 fuel (member_fits (Nat.lt_of_succ_lt_succ enough)) (depth + 1) _
      (endsValue_cons (.inr (.inr rfl)) rest)
    have unseen : ¬fields.contains key = true := by
      rw [contains_iff_mem]
      exact fresh key mem_cons_self
    have deepest : depth + membersDepth [(key, item)] = max (depth + 1 + item.depth) 0 := by
      show depth + max (item.depth + 1) 0 = _
      omega
    show Scanned _ rest (scanMembers (fuel + 1) (depth + 1) fields (memberText (key, item) ++ 0x7D :: rest))
    rw [deepest, scanMembers_member, if_neg unseen]
    apply value.bind
    rw [skipSpace_cons (by decide)]
    exact ⟨fun _ => rfl, fun deep => absurd deep (Nat.not_lt_zero _)⟩
  | (key, item), second :: members, wf, ordered, fields, fresh, fuel + 1, enough, depth, rest => by
    obtain ⟨memberFits, othersFit⟩ := first_fits enough
    have value := scanValue_text item wf.1 fuel (member_fits memberFits) (depth + 1) _
      (endsValue_cons (.inl rfl) (commaSeparated (memberTexts (second :: members)) ++ 0x7D :: rest))
    rw [map_cons, pairwise_cons] at ordered
    have unseen : ¬fields.contains key = true := by
      rw [contains_iff_mem]
      exact fresh key mem_cons_self
    have later : ∀ other ∈ (second :: members).map Prod.fst, other ∉ key :: fields := by
      intro other mem seen
      rcases mem_cons.mp seen with rfl | seen
      · exact of_decide_eq_true (Bool.and_eq_true_iff.mp (ordered.1 other mem)).1 rfl
      · exact fresh other (mem_cons_of_mem _ mem) seen
    have others := scanMembers_text second members wf.2 ordered.2 (key :: fields) later
      fuel othersFit depth rest
    have deepest : depth + membersDepth ((key, item) :: second :: members) =
        max (depth + 1 + item.depth) (depth + membersDepth (second :: members)) := by
      show depth + max (item.depth + 1) (membersDepth (second :: members)) = _
      omega
    show Scanned _ rest (scanMembers (fuel + 1) (depth + 1) fields ((memberText (key, item) ++
      0x2C :: commaSeparated (memberTexts (second :: members))) ++ 0x7D :: rest))
    rw [deepest, append_assoc, cons_append, scanMembers_member, if_neg unseen]
    apply value.bind
    rw [skipSpace_cons (by decide)]
    exact others

end

theorem scan_text {v : JsonValue} (wf : v.WellFormed) :
    (v.depth ≤ MAX_JSON_DEPTH → assertUniqueAbiJsonObjectFields v.text = .ok ()) ∧
      (MAX_JSON_DEPTH < v.depth → ∃ e, assertUniqueAbiJsonObjectFields v.text = .error e) := by
  have nothing : EndsValue [] := by
    intro u mem
    cases mem
  have scanned := scanValue_text v wf (2 * v.text.length + 2) (by omega) 0 [] nothing
  rw [append_nil, Nat.zero_add] at scanned
  unfold assertUniqueAbiJsonObjectFields
  constructor
  · intro fits
    rw [scanned.1 fits]
    rfl
  · intro deep
    obtain ⟨e, eq⟩ := scanned.2 deep
    rw [eq]
    exact ⟨e, rfl⟩

end ForgeDeno
