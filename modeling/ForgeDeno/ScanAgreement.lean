import ForgeDeno.AbiScan
import ForgeDeno.JsonTree

namespace ForgeDeno

open JsonText JsonValue List Option

theorem hexDigit_plain {u : UInt16} {n : Nat} (h : hexDigit? u = some n) : u ≠ 0x22 ∧ u ≠ 0x5C := by
  constructor
  · rintro rfl
    cases h
  · rintro rfl
    cases h

theorem tokenUnits_parsed (s : JsString) : ∀ {text after : JsString},
    parseString s = some (text, after) → ∃ spelled, s = spelled ++ 0x22 :: after ∧
      tokenUnits s = some (spelled ++ [0x22], after) ∧
      ∀ more, parseString (spelled ++ 0x22 :: more) = some (text, more) := by
  induction s using parseString.induct with
  | case1 => exact nofun
  | case2 rest =>
    intro text after h
    cases h
    exact ⟨[], rfl, rfl, fun _ => rfl⟩
  | case3 a b c d rest ih =>
    intro text after h
    rw [parseString.eq_3] at h
    obtain ⟨x, hx, h⟩ := bind_eq_some_iff.mp h
    obtain ⟨y, hy, h⟩ := bind_eq_some_iff.mp h
    obtain ⟨z, hz, h⟩ := bind_eq_some_iff.mp h
    obtain ⟨w, hw, h⟩ := bind_eq_some_iff.mp h
    obtain ⟨⟨units, after'⟩, inner, h⟩ := bind_eq_some_iff.mp h
    cases h
    obtain ⟨spelled, rfl, taken, parses⟩ := ih inner
    obtain ⟨qa, sa⟩ := hexDigit_plain hx
    obtain ⟨qb, sb⟩ := hexDigit_plain hy
    obtain ⟨qc, sc⟩ := hexDigit_plain hz
    obtain ⟨qd, sd⟩ := hexDigit_plain hw
    refine ⟨0x5C :: 0x75 :: a :: b :: c :: d :: spelled, rfl, ?_, ?_⟩
    · show (tokenUnits (a :: b :: c :: d :: (spelled ++ 0x22 :: after))).map _ = _
      rw [tokenUnits_plain qa sa, tokenUnits_plain qb sb, tokenUnits_plain qc sc, tokenUnits_plain qd sd, taken]
      rfl
    · intro more
      show parseString (0x5C :: 0x75 :: a :: b :: c :: d :: (spelled ++ 0x22 :: more)) = _
      rw [parseString.eq_3, hx, hy, hz, hw, parses more]
      rfl
  | case4 u rest short ih =>
    intro text after h
    rw [parseString.eq_4 u rest short] at h
    obtain ⟨unit, escapes, h⟩ := bind_eq_some_iff.mp h
    obtain ⟨⟨units, after'⟩, inner, h⟩ := bind_eq_some_iff.mp h
    cases h
    obtain ⟨spelled, rfl, taken, parses⟩ := ih inner
    have letter : u ≠ 0x75 := by
      rintro rfl
      cases escapes
    refine ⟨0x5C :: u :: spelled, rfl, ?_, ?_⟩
    · show (tokenUnits (spelled ++ 0x22 :: after)).map _ = _
      rw [taken]
      rfl
    · intro more
      show parseString (0x5C :: u :: (spelled ++ 0x22 :: more)) = _
      rw [parseString.eq_4 u _ fun _ _ _ _ _ eq _ => absurd eq letter, escapes, parses more]
      rfl
  | case5 u rest quote hex escape invalid =>
    intro text after h
    rw [parseString.eq_5 u rest quote hex escape, if_pos invalid] at h
    cases h
  | case6 u rest quote hex escape valid ih =>
    intro text after h
    rw [parseString.eq_5 u rest quote hex escape, if_neg valid] at h
    obtain ⟨⟨units, after'⟩, inner, h⟩ := bind_eq_some_iff.mp h
    cases h
    obtain ⟨spelled, rfl, taken, parses⟩ := ih inner
    have slash : u ≠ 0x5C := fun same => valid (.inr same)
    refine ⟨u :: spelled, rfl, ?_, ?_⟩
    · rw [tokenUnits_plain quote slash, taken]
      rfl
    · intro more
      show parseString (u :: (spelled ++ 0x22 :: more)) = _
      rw [parseString.eq_5 u _ quote (fun _ _ _ _ _ eq _ => absurd eq slash)
        (fun _ _ eq => absurd eq slash), if_neg valid, parses more]
      rfl

theorem stringToken_parsed {s text after : JsString} (h : parseString s = some (text, after)) :
    stringToken (0x22 :: s) = .ok (text, after) := by
  obtain ⟨spelled, _, taken, parses⟩ := tokenUnits_parsed s h
  have literal : JsonText.parse (0x22 :: (spelled ++ [0x22])) = some (.string text) := by
    unfold JsonText.parse parseValue
    rw [skipSpace_cons (by decide)]
    simp only [parses [], bind_eq_bind, bind_some]
    rfl
  unfold stringToken
  simp only [drop_succ_cons, drop_zero, taken, take_succ_cons, take_zero, singleton_append, literal]

def NumberUnit (u : UInt16) : Prop :=
  isDigit u = true ∨ u = 0x2D ∨ u = 0x2B ∨ u = 0x2E ∨ u = 0x65 ∨ u = 0x45

theorem NumberUnit.inside {u : UInt16} (h : NumberUnit u) : endsLiteral u = false := by
  rcases h with digit | rfl | rfl | rfl | rfl | rfl
  · exact endsLiteral_digit digit
  all_goals decide

theorem digits_split (s : JsString) : s = s.takeWhile isDigit ++ s.dropWhile isDigit ∧
    ∀ u ∈ s.takeWhile isDigit, NumberUnit u :=
  ⟨takeWhile_append_dropWhile.symm, fun _ mem => .inl (mem_takeWhile_imp mem)⟩

theorem parseFraction_split {s ds rest : JsString} (h : parseFraction s = some (ds, rest)) :
    ∃ t, s = t ++ rest ∧ ∀ u ∈ t, NumberUnit u := by
  unfold parseFraction at h
  split at h
  next tail =>
    dsimp only at h
    split at h
    next => cases h
    next =>
      obtain ⟨split_, inside⟩ := digits_split tail
      cases h
      refine ⟨0x2E :: tail.takeWhile isDigit, congrArg (0x2E :: ·) split_, ?_⟩
      intro u mem
      rcases mem_cons.mp mem with rfl | mem
      · exact .inr (.inr (.inr (.inl rfl)))
      · exact inside u mem
  next =>
    cases h
    exact ⟨[], rfl, nofun⟩

theorem digits_behind (front s : JsString) (head : ∀ u ∈ front, NumberUnit u) :
    ∃ t, front ++ s = t ++ s.dropWhile isDigit ∧ ∀ u ∈ t, NumberUnit u := by
  obtain ⟨split_, inside⟩ := digits_split s
  refine ⟨front ++ s.takeWhile isDigit, ?_, ?_⟩
  · rw [append_assoc, ← split_]
  · intro u mem
    rcases mem_append.mp mem with mem | mem
    · exact head u mem
    · exact inside u mem

theorem parseExponent_split {s rest : JsString} {e : Int} (h : parseExponent s = some (e, rest)) :
    ∃ t, s = t ++ rest ∧ ∀ u ∈ t, NumberUnit u := by
  unfold parseExponent at h
  split at h
  next u tail =>
    split at h
    next letter =>
      have head : NumberUnit u := by
        rcases letter with rfl | rfl
        · exact .inr (.inr (.inr (.inr (.inl rfl))))
        · exact .inr (.inr (.inr (.inr (.inr rfl))))
      have single {v : UInt16} (unit : NumberUnit v) : ∀ w ∈ [v], NumberUnit w := by
        intro w mem
        rw [mem_singleton.mp mem]
        exact unit
      split at h
      next sign digits eq =>
        dsimp only at h
        split at h
        next => cases h
        next =>
          cases h
          split at eq
          next tail =>
            cases eq
            exact digits_behind [u, 0x2B] _ (forall_mem_cons.mpr ⟨head, single (.inr (.inr (.inl rfl)))⟩)
          next tail =>
            cases eq
            exact digits_behind [u, 0x2D] _ (forall_mem_cons.mpr ⟨head, single (.inr (.inl rfl))⟩)
          next =>
            cases eq
            exact digits_behind [u] _ (single head)
    next =>
      cases h
      exact ⟨[], rfl, nofun⟩
  next =>
    cases h
    exact ⟨[], rfl, nofun⟩

theorem parseNumber_split {s rest : JsString} {n : JsNumber}
    (h : parseNumber s = some (n, rest)) : ∃ u t, s = u :: t ++ rest ∧
      (u = 0x2D ∨ isDigit u = true) ∧ ∀ v ∈ u :: t, NumberUnit v := by
  unfold parseNumber at h
  split at h
  next negative digits eq =>
    dsimp only at h
    split at h
    next => cases h
    next whole =>
      obtain ⟨⟨fraction, rest₁⟩, point, h⟩ := bind_eq_some_iff.mp h
      obtain ⟨⟨exponent, rest₂⟩, power, h⟩ := bind_eq_some_iff.mp h
      obtain ⟨_, rfl⟩ := Prod.mk.inj (Option.some.inj h)
      have power : parseExponent rest₁ = some (exponent, rest₂) := power
      obtain ⟨t₁, split₁, inside₁⟩ := parseFraction_split point
      obtain ⟨t₂, split₂, inside₂⟩ := parseExponent_split power
      have nonempty : digits.takeWhile isDigit ≠ [] := fun none => whole (.inl none)
      obtain ⟨u, more, first⟩ := exists_cons_of_ne_nil nonempty
      have digit : isDigit u = true := mem_takeWhile_imp (first ▸ mem_cons_self)
      have text : digits = u :: (more ++ (t₁ ++ t₂)) ++ rest₂ := by
        have pieces := (digits_split digits).1
        rw [first, split₁, split₂] at pieces
        rw [pieces, cons_append, cons_append, append_assoc, append_assoc]
      have units : ∀ v ∈ u :: (more ++ (t₁ ++ t₂)), NumberUnit v := by
        intro v mem
        have mem : v ∈ digits.takeWhile isDigit ++ (t₁ ++ t₂) := first ▸ mem
        rcases mem_append.mp mem with mem | mem
        · exact (digits_split digits).2 v mem
        rcases mem_append.mp mem with mem | mem
        · exact inside₁ v mem
        · exact inside₂ v mem
      split at eq
      next tail =>
        cases eq
        refine ⟨0x2D, u :: (more ++ (t₁ ++ t₂)), congrArg (0x2D :: ·) text, .inl rfl, ?_⟩
        exact forall_mem_cons.mpr ⟨.inr (.inl rfl), units⟩
      next =>
        cases eq
        exact ⟨u, more ++ (t₁ ++ t₂), text, .inr digit, units⟩

def Decides (fits : Prop) (rest : JsString) (result : Except Thrown JsString) : Prop :=
  (fits → result = .ok rest) ∧ (¬fits → ∃ e, result = .error e)

section decides

variable {fits first second : Prop} {rest mid : JsString} {result : Except Thrown JsString}

theorem Decides.accepts (holds : fits) : Decides fits rest (.ok rest) :=
  ⟨fun _ => rfl, fun fails => absurd holds fails⟩

theorem Decides.rejects (fails : ¬fits) (e : Thrown) : Decides fits rest (.error e) :=
  ⟨fun holds => absurd holds fails, fun _ => ⟨e, rfl⟩⟩

theorem Decides.congr (same : first ↔ second) (h : Decides first rest result) : Decides second rest result :=
  ⟨fun holds => h.1 (same.mpr holds), fun fails => h.2 (mt same.mp fails)⟩

theorem Decides.checked {depth inner : Nat} {cause : Thrown}
    (h : depth ≤ MAX_JSON_DEPTH → Decides (first ∧ depth + inner ≤ MAX_JSON_DEPTH) rest result) :
    Decides (first ∧ depth + inner ≤ MAX_JSON_DEPTH) rest
      (if MAX_JSON_DEPTH < depth then .error cause else result) := by
  by_cases deep : MAX_JSON_DEPTH < depth
  · rw [if_pos deep]
    exact .rejects (fun both => by omega) cause
  · rw [if_neg deep]
    exact h (Nat.le_of_not_lt deep)

end decides

theorem endsLiteral_space {u : UInt16} (h : isSpace u = true) : endsLiteral u = true := by
  unfold isSpace at h
  simp only [Bool.or_eq_true, decide_eq_true_eq] at h
  rcases h with ((rfl | rfl) | rfl) | rfl <;> decide

theorem ends_before {s tail : JsString} {u : UInt16} (next : skipSpace s = u :: tail)
    (ends : endsLiteral u = true) : ∀ v ∈ s.head?, endsLiteral v = true := by
  intro v mem
  cases s with
  | nil => cases mem
  | cons w more =>
    cases mem
    by_cases space : isSpace v = true
    · exact endsLiteral_space space
    · have same : skipSpace (v :: more) = v :: more := skipSpace_cons (by simpa using space) more
      rw [same] at next
      rw [head_eq_of_cons_eq next]
      exact ends

theorem expect_split {literal : String} {s rest : JsString} (h : expect literal s = some rest)
    (length : (js literal).length = literal.length) : s = js literal ++ rest := by
  unfold expect at h
  split at h
  next front =>
    obtain ⟨tail, rfl⟩ := isPrefixOf_iff_prefix.mp front
    rw [← length, drop_left] at h
    rw [Option.some.inj h]
  next => cases h

def MembersFit (depth : Nat) (fields : List JsString) (members : List (JsString × JsonValue)) : Prop :=
  ((members.map Prod.fst).Nodup ∧ (∀ key ∈ members.map Prod.fst, key ∉ fields) ∧
    MembersUnique members) ∧ depth + membersDepth members ≤ MAX_JSON_DEPTH

theorem scan_literal (tree : JsonValue) {s : JsString} {u : UInt16} {t rest : JsString}
    (text : skipSpace s = u :: t ++ rest) (brace : u ≠ 0x7B) (bracket : u ≠ 0x5B) (quote : u ≠ 0x22)
    (inside : ∀ v ∈ u :: t, endsLiteral v = false) (ends : ∀ v ∈ rest.head?, endsLiteral v = true)
    (unique : tree.UniqueNames) (flat : tree.depth = 0) (fuel depth : Nat) :
    Decides (tree.UniqueNames ∧ depth + tree.depth ≤ MAX_JSON_DEPTH) rest (scanValue (fuel + 1) depth s) := by
  have skipped : (u :: (t ++ rest)).dropWhile (fun v => !endsLiteral v) = rest :=
    dropWhile_inside inside ends
  unfold scanValue
  apply Decides.checked
  intro shallow
  rw [text, flat, cons_append]
  split
  next eq => exact absurd (head_eq_of_cons_eq eq) brace
  next eq => exact absurd (head_eq_of_cons_eq eq) bracket
  next eq => exact absurd (head_eq_of_cons_eq eq) quote
  next =>
    rw [skipped]
    exact .accepts ⟨unique, shallow⟩

theorem scanMembers_named {s tail after rest : JsString} {key : JsString}
    (quote : skipSpace s = 0x22 :: tail) (named : parseString tail = some (key, after))
    (colon : skipSpace after = 0x3A :: rest) (fuel depth : Nat) (fields : List JsString) :
    scanMembers (fuel + 1) depth fields s =
      if fields.contains key then
        .error (wasmCodecError (js "component response contains a duplicate object field"))
      else scanValue fuel depth rest >>= fun rest =>
        match skipSpace rest with
        | 0x7D :: rest => .ok rest
        | rest => scanMembers fuel depth (key :: fields) (rest.drop 1) := by
  cases s with
  | nil => cases quote
  | cons u more =>
    conv_lhs => unfold scanMembers
    rw [quote, stringToken_parsed named]
    show (if fields.contains key then _ else _) = _
    split
    next => rfl
    next =>
      rw [colon, drop_succ_cons, drop_zero]
      rfl

theorem membersFit_cons (depth : Nat) (fields : List JsString) (key : JsString) (item : JsonValue)
    (members : List (JsString × JsonValue)) : MembersFit depth fields ((key, item) :: members) ↔ key ∉ fields ∧
      (item.UniqueNames ∧ depth + 1 + item.depth ≤ MAX_JSON_DEPTH) ∧
        MembersFit depth (key :: fields) members := by
  have deepest : membersDepth ((key, item) :: members) =
      max (item.depth + 1) (membersDepth members) := rfl
  unfold MembersFit
  rw [deepest, map_cons, nodup_cons]
  constructor
  · rintro ⟨⟨⟨new, distinct⟩, fresh, unique, others⟩, fits⟩
    refine ⟨fresh key mem_cons_self, ⟨unique, by omega⟩, ⟨distinct, ?_, others⟩, by omega⟩
    intro other mem seen
    rcases mem_cons.mp seen with rfl | seen
    · exact new mem
    · exact fresh other (mem_cons_of_mem _ mem) seen
  · rintro ⟨unseen, ⟨unique, fits⟩, ⟨distinct, fresh, others⟩, inside⟩
    refine ⟨⟨⟨fun mem => fresh key mem mem_cons_self, distinct⟩, ?_, unique, others⟩, by omega⟩
    intro other mem
    rcases mem_cons.mp mem with rfl | mem
    · exact unseen
    · exact fun seen => fresh other mem (mem_cons_of_mem _ seen)

section parts

variable {depth : Nat} {v : JsonValue} {mid rest : JsString} {result : Except Thrown JsString}
  {next : JsString → Except Thrown JsString}

theorem Decides.member {fields : List JsString} {key : JsString}
    {members : List (JsString × JsonValue)} {cause : Thrown}
    (value : Decides (v.UniqueNames ∧ depth + 1 + v.depth ≤ MAX_JSON_DEPTH) mid result)
    (after : depth ≤ MAX_JSON_DEPTH → Decides (MembersFit depth (key :: fields) members) rest (next mid)) :
    Decides (MembersFit depth fields ((key, v) :: members)) rest
      (if fields.contains key then .error cause else result >>= next) := by
  by_cases seen : key ∈ fields
  · rw [if_pos (contains_iff_mem.mpr seen)]
    exact .rejects (fun all => ((membersFit_cons depth fields key v members).mp all).1 seen) cause
  · rw [if_neg (mt contains_iff_mem.mp seen)]
    by_cases fits : v.UniqueNames ∧ depth + 1 + v.depth ≤ MAX_JSON_DEPTH
    · rw [value.1 fits]
      apply (after (by omega)).congr
      rw [membersFit_cons, and_iff_right seen, and_iff_right fits]
    · obtain ⟨e, failed⟩ := value.2 fits
      rw [failed]
      exact .rejects (fun all => fits ((membersFit_cons depth fields key v members).mp all).2.1) e

theorem Decides.item {items : List JsonValue}
    (value : Decides (v.UniqueNames ∧ depth + 1 + v.depth ≤ MAX_JSON_DEPTH) mid result)
    (after : depth ≤ MAX_JSON_DEPTH →
      Decides (ItemsUnique items ∧ depth + itemsDepth items ≤ MAX_JSON_DEPTH) rest (next mid)) :
    Decides (ItemsUnique (v :: items) ∧ depth + itemsDepth (v :: items) ≤ MAX_JSON_DEPTH) rest
      (result >>= next) := by
  have deepest : itemsDepth (v :: items) = max (v.depth + 1) (itemsDepth items) := rfl
  have whole : ItemsUnique (v :: items) ↔ v.UniqueNames ∧ ItemsUnique items := Iff.rfl
  rw [deepest, whole]
  by_cases fits : v.UniqueNames ∧ depth + 1 + v.depth ≤ MAX_JSON_DEPTH
  · rw [value.1 fits]
    apply (after (by omega)).congr
    constructor
    · exact fun others => ⟨⟨fits.1, others.1⟩, by omega⟩
    · exact fun all => ⟨all.1.2, by omega⟩
  · obtain ⟨e, failed⟩ := value.2 fits
    rw [failed]
    exact .rejects (fun all => fits ⟨all.1.1, by omega⟩) e

end parts

theorem treeValue_nil (fuel : Nat) : treeValue fuel [] = none := by
  cases fuel <;> rfl

def ScansValues (fuel : Nat) : Prop :=
  ∀ s tree rest, treeValue fuel s = some (tree, rest) →
    (∀ u ∈ rest.head?, endsLiteral u = true) → ∀ more depth, fuel ≤ more →
      Decides (tree.UniqueNames ∧ depth + tree.depth ≤ MAX_JSON_DEPTH) rest (scanValue more depth s)

def ScansMembers (fuel : Nat) : Prop :=
  ∀ s members rest, treeMembers fuel s = some (members, rest) → ∀ more depth fields,
    fuel ≤ more → Decides (MembersFit depth fields members) rest (scanMembers more (depth + 1) fields s)

def ScansItems (fuel : Nat) : Prop :=
  ∀ s items rest, treeItems fuel s = some (items, rest) → ∀ more depth, fuel ≤ more →
    Decides (ItemsUnique items ∧ depth + itemsDepth items ≤ MAX_JSON_DEPTH) rest (scanItems more (depth + 1) s)

theorem scan_value {fuel : Nat} (members : ScansMembers fuel) (items : ScansItems fuel) :
    ScansValues (fuel + 1) := by
  intro s tree rest read ends more depth enough
  obtain ⟨more, rfl⟩ : ∃ m, more = m + 1 := ⟨more - 1, by omega⟩
  unfold treeValue at read
  split at read
  next tail brace =>
    unfold scanValue
    apply Decides.checked
    intro shallow
    rw [brace]
    simp only
    split at read
    next rest' close =>
      cases read
      try rw [close]
      exact .accepts ⟨⟨nodup_nil, trivial⟩, shallow⟩
    next other =>
      obtain ⟨⟨parsed, rest'⟩, parts, made⟩ := bind_eq_some_iff.mp read
      cases made
      have inside := members _ _ _ parts more depth [] (by omega)
      have fits : MembersFit depth [] parsed ↔
          (JsonValue.object parsed).UniqueNames ∧ depth + (JsonValue.object parsed).depth ≤ MAX_JSON_DEPTH := by
        constructor
        · exact fun fits => ⟨⟨fits.1.1, fits.1.2.2⟩, fits.2⟩
        · exact fun fits => ⟨⟨fits.1.1, fun key _ => not_mem_nil, fits.1.2⟩, fits.2⟩
      try split
      all_goals first
        | exact absurd ‹_› (other _)
        | exact inside.congr fits
  next tail bracket =>
    unfold scanValue
    apply Decides.checked
    intro shallow
    rw [bracket]
    simp only
    split at read
    next rest' close =>
      cases read
      try rw [close]
      exact .accepts ⟨trivial, shallow⟩
    next other =>
      obtain ⟨⟨parsed, rest'⟩, parts, made⟩ := bind_eq_some_iff.mp read
      cases made
      try split
      all_goals first
        | exact absurd ‹_› (other _)
        | exact items _ _ _ parts more depth (by omega)
  next tail quote =>
    obtain ⟨⟨text, rest'⟩, parsed, made⟩ := bind_eq_some_iff.mp read
    cases made
    unfold scanValue
    apply Decides.checked
    intro shallow
    rw [quote]
    simp only [stringToken_parsed parsed]
    exact .accepts ⟨trivial, shallow⟩
  next tail letter =>
    obtain ⟨rest', matched, made⟩ := map_eq_some_iff.mp read
    cases made
    have text := letter.trans (congrArg (0x74 :: ·) (expect_split matched rfl))
    exact scan_literal (.bool true) text (by decide) (by decide) (by decide) (by decide) ends
      trivial rfl more depth
  next tail letter =>
    obtain ⟨rest', matched, made⟩ := map_eq_some_iff.mp read
    cases made
    have text := letter.trans (congrArg (0x66 :: ·) (expect_split matched rfl))
    exact scan_literal (.bool false) text (by decide) (by decide) (by decide) (by decide) ends
      trivial rfl more depth
  next tail letter =>
    obtain ⟨rest', matched, made⟩ := map_eq_some_iff.mp read
    cases made
    have text := letter.trans (congrArg (0x6E :: ·) (expect_split matched rfl))
    exact scan_literal .null text (by decide) (by decide) (by decide) (by decide) ends trivial rfl more depth
  next brace bracket quote _ _ _ =>
    obtain ⟨⟨n, rest'⟩, parsed, made⟩ := map_eq_some_iff.mp read
    cases made
    obtain ⟨u, t, text, _, units⟩ := parseNumber_split parsed
    have front : skipSpace s = u :: (t ++ rest) := text
    apply scan_literal (.number n) text _ _ _ (fun v mem => (units v mem).inside) ends trivial rfl more depth
    · rintro rfl
      exact brace _ front
    · rintro rfl
      exact bracket _ front
    · rintro rfl
      exact quote _ front

theorem scan_members {fuel : Nat} (value : ScansValues fuel) (members : ScansMembers fuel) :
    ScansMembers (fuel + 1) := by
  intro s parsed rest read more depth fields enough
  obtain ⟨more, rfl⟩ : ∃ m, more = m + 1 := ⟨more - 1, by omega⟩
  unfold treeMembers at read
  split at read
  next tail quote =>
    obtain ⟨⟨key, rest₁⟩, named, read⟩ := bind_eq_some_iff.mp read
    dsimp only at read
    split at read
    next after colon =>
      obtain ⟨⟨item, rest₂⟩, first, read⟩ := bind_eq_some_iff.mp read
      rw [scanMembers_named quote named colon]
      dsimp only at read
      split at read
      next rest₃ close =>
        cases read
        have inside := value _ _ _ first (ends_before close (by decide)) more (depth + 1)
          (by omega)
        apply inside.member
        intro shallow
        rw [close]
        have nothing : MembersFit depth (key :: fields) [] :=
          ⟨⟨nodup_nil, fun key mem => absurd mem not_mem_nil, trivial⟩, shallow⟩
        exact .accepts nothing
      next rest₃ comma =>
        obtain ⟨⟨others, rest₄⟩, next, made⟩ := bind_eq_some_iff.mp read
        cases made
        have inside := value _ _ _ first (ends_before comma (by decide)) more (depth + 1)
          (by omega)
        apply inside.member
        intro _
        rw [comma]
        exact members _ _ _ next more depth (key :: fields) (by omega)
      next => cases read
    next => cases read
  next => cases read

theorem scan_items {fuel : Nat} (value : ScansValues fuel) (items : ScansItems fuel) : ScansItems (fuel + 1) := by
  intro s parsed rest read more depth enough
  obtain ⟨more, rfl⟩ : ∃ m, more = m + 1 := ⟨more - 1, by omega⟩
  unfold treeItems at read
  obtain ⟨⟨item, rest₁⟩, first, read⟩ := bind_eq_some_iff.mp read
  dsimp only at read
  have nonempty : s ≠ [] := by
    rintro rfl
    rw [treeValue_nil] at first
    cases first
  obtain ⟨u, tail, text⟩ := exists_cons_of_ne_nil nonempty
  rw [text, scanItems_cons, ← text]
  split at read
  next rest₂ close =>
    cases read
    have inside := value _ _ _ first (ends_before close (by decide)) more (depth + 1) (by omega)
    apply inside.item
    intro shallow
    rw [close]
    exact .accepts ⟨trivial, shallow⟩
  next rest₂ comma =>
    obtain ⟨⟨others, rest₃⟩, next, made⟩ := bind_eq_some_iff.mp read
    cases made
    have inside := value _ _ _ first (ends_before comma (by decide)) more (depth + 1) (by omega)
    apply inside.item
    intro _
    rw [comma]
    exact items _ _ _ next more depth (by omega)
  next => cases read

theorem scan_parts (fuel : Nat) : ScansValues fuel ∧ ScansMembers fuel ∧ ScansItems fuel := by
  induction fuel with
  | zero =>
    exact ⟨nofun, nofun, nofun⟩
  | succ fuel ih =>
    obtain ⟨value, members, items⟩ := ih
    exact ⟨scan_value members items, scan_members value members, scan_items value items⟩

theorem scan_tree {json : JsString} {tree : JsonValue} (spells : parseTree json = some tree) :
    assertUniqueAbiJsonObjectFields json = .ok () ↔ tree.UniqueNames ∧ tree.depth ≤ MAX_JSON_DEPTH := by
  unfold parseTree at spells
  obtain ⟨⟨value, rest⟩, read, spells⟩ := bind_eq_some_iff.mp spells
  dsimp only at spells
  split at spells
  next blank =>
    cases spells
    have ends : ∀ u ∈ rest.head?, endsLiteral u = true := by
      intro u mem
      cases rest with
      | nil => cases mem
      | cons v tail =>
        cases mem
        by_contra inside
        have plain : isSpace u = false := by
          by_contra space
          exact inside (endsLiteral_space (by simpa using space))
        rw [skipSpace_cons plain] at blank
        cases blank
    have decides := (scan_parts (json.length + 1)).1 json tree rest read ends
      (2 * json.length + 2) 0 (by omega)
    rw [Nat.zero_add] at decides
    unfold assertUniqueAbiJsonObjectFields
    constructor
    · intro accepted
      by_contra fails
      obtain ⟨e, failed⟩ := decides.2 fails
      rw [failed] at accepted
      cases accepted
    · intro fits
      rw [decides.1 fits]
      rfl
  next => cases spells

end ForgeDeno
