import ForgeDeno.ScanAgreement

namespace ForgeDeno

open JsonText JsonValue List

mutual

/-- The closures of the scan, with a scan that still runs when the fuel is used up told apart from
one that threw. -/
def runValue : Nat → Nat → JsString → Except (Option Thrown) JsString
  | 0, _, _ => .error none
  | fuel + 1, depth, rest =>
    if MAX_JSON_DEPTH < depth then
      .error (some (wasmCodecError (js "response exceeds maximum JSON depth 32")))
    else match JsonText.skipSpace rest with
      | 0x7B :: rest =>
        match JsonText.skipSpace rest with
        | 0x7D :: rest => .ok rest
        | rest => runMembers fuel (depth + 1) [] rest
      | 0x5B :: rest =>
        match JsonText.skipSpace rest with
        | 0x5D :: rest => .ok rest
        | rest => runItems fuel (depth + 1) rest
      | 0x22 :: rest => ((stringToken (0x22 :: rest)).map Prod.snd).mapError some
      | rest => .ok (rest.dropWhile fun u => !endsLiteral u)

def runMembers : Nat → Nat → List JsString → JsString → Except (Option Thrown) JsString
  | 0, _, _, _ => .error none
  | _, _, _, [] => .ok []
  | fuel + 1, depth, fields, rest => do
    let (key, rest) ← (stringToken (JsonText.skipSpace rest)).mapError some
    if fields.contains key then
      throw (some (wasmCodecError (js "component response contains a duplicate object field")))
    let rest ← runValue fuel depth ((JsonText.skipSpace rest).drop 1)
    match JsonText.skipSpace rest with
    | 0x7D :: rest => return rest
    | rest => runMembers fuel depth (key :: fields) (rest.drop 1)

def runItems : Nat → Nat → JsString → Except (Option Thrown) JsString
  | 0, _, _ => .error none
  | _, _, [] => .ok []
  | fuel + 1, depth, rest => do
    let rest ← runValue fuel depth rest
    match JsonText.skipSpace rest with
    | 0x5D :: rest => return rest
    | rest => runItems fuel depth (rest.drop 1)

end

def Ended (length : Nat) : Except (Option Thrown) JsString → Prop
  | .ok rest => rest.length ≤ length
  | .error cause => cause.isSome

theorem Ended.bind {length inner : Nat} {result : Except (Option Thrown) JsString}
    {next : JsString → Except (Option Thrown) JsString} (first : Ended inner result)
    (rest : ∀ rest : JsString, rest.length ≤ inner → Ended length (next rest)) :
    Ended length (result >>= next) := by
  cases result with
  | error cause => exact first
  | ok after => exact rest after first

theorem Ended.mono {short long : Nat} {result : Except (Option Thrown) JsString}
    (h : Ended short result) (le : short ≤ long) : Ended long result := by
  cases result with
  | error cause => exact h
  | ok after => exact Nat.le_trans h le

theorem tokenUnits_length (s : JsString) : ∀ {units after : JsString},
    tokenUnits s = some (units, after) → after.length ≤ s.length := by
  induction s using tokenUnits.induct with
  | case1 => exact nofun
  | case2 => exact nofun
  | case3 u rest ih =>
    intro units after h
    obtain ⟨⟨units', after'⟩, inner, made⟩ := Option.map_eq_some_iff.mp h
    cases made
    have := ih inner
    simp only [length_cons]
    omega
  | case4 rest =>
    intro units after h
    cases h
    exact Nat.le_succ _
  | case5 u rest single escape quote ih =>
    intro units after h
    rw [tokenUnits.eq_5 u rest single escape quote] at h
    obtain ⟨⟨units', after'⟩, inner, made⟩ := Option.map_eq_some_iff.mp h
    cases made
    exact Nat.le_succ_of_le (ih inner)

theorem stringToken_ended (s : JsString) {key after : JsString}
    (h : stringToken s = .ok (key, after)) : after.length ≤ s.length := by
  unfold stringToken at h
  split at h
  next => cases h
  next units rest taken =>
    split at h
    next =>
      cases h
      have := tokenUnits_length _ taken
      rw [length_drop] at this
      omega
    next => cases h

theorem skipSpace_length (s : JsString) : (skipSpace s).length ≤ s.length :=
  (dropWhile_sublist isSpace).length_le

def ValuesEnd (fuel : Nat) : Prop :=
  ∀ depth s, 2 * s.length + 1 ≤ fuel → Ended s.length (runValue fuel depth s)

def MembersEnd (fuel : Nat) : Prop :=
  ∀ depth fields s, 2 * s.length + 2 ≤ fuel → Ended s.length (runMembers fuel depth fields s)

def ItemsEnd (fuel : Nat) : Prop :=
  ∀ depth s, 2 * s.length + 2 ≤ fuel → Ended s.length (runItems fuel depth s)

variable {fuel : Nat}

theorem runValue_ended (members : MembersEnd fuel) (items : ItemsEnd fuel) :
    ValuesEnd (fuel + 1) := by
  intro depth s enough
  have skipped := skipSpace_length s
  unfold runValue
  split
  next => rfl
  next =>
    split
    next rest brace =>
      rw [brace, length_cons] at skipped
      have inner := skipSpace_length rest
      split
      next after close =>
        rw [close, length_cons] at inner
        show after.length ≤ s.length
        omega
      next => exact (members (depth + 1) [] _ (by omega)).mono (by omega)
    next rest bracket =>
      rw [bracket, length_cons] at skipped
      have inner := skipSpace_length rest
      split
      next after close =>
        rw [close, length_cons] at inner
        show after.length ≤ s.length
        omega
      next => exact (items (depth + 1) _ (by omega)).mono (by omega)
    next rest quote =>
      rw [quote] at skipped
      cases token : stringToken (0x22 :: rest) with
      | error e => exact rfl
      | ok read => exact Nat.le_trans (stringToken_ended _ token) skipped
    next =>
      exact Nat.le_trans (dropWhile_sublist _).length_le skipped

theorem runMembers_ended (value : ValuesEnd fuel) (members : MembersEnd fuel) :
    MembersEnd (fuel + 1) := by
  intro depth fields s enough
  cases s with
  | nil => exact Nat.le_refl 0
  | cons u tail =>
    unfold runMembers
    have skipped := skipSpace_length (u :: tail)
    cases token : stringToken (skipSpace (u :: tail)) with
    | error e => exact rfl
    | ok read =>
      obtain ⟨key, after⟩ := read
      have shorter := stringToken_ended _ token
      have colon := skipSpace_length after
      simp only [length_cons] at enough skipped ⊢
      have behind : ((skipSpace after).drop 1).length ≤ tail.length := by
        rw [length_drop]
        omega
      show Ended _ (if fields.contains key then .error _ else _)
      split
      next => exact rfl
      next =>
        apply (value depth ((skipSpace after).drop 1) (by omega)).bind
        intro rest short
        have close := skipSpace_length rest
        split
        next after last =>
          rw [last, length_cons] at close
          show after.length ≤ tail.length + 1
          omega
        next =>
          have fewer : ((skipSpace rest).drop 1).length ≤ tail.length := by
            rw [length_drop]
            omega
          exact (members depth (key :: fields) _ (by omega)).mono (by omega)

theorem runItems_ended (value : ValuesEnd fuel) (items : ItemsEnd fuel) : ItemsEnd (fuel + 1) := by
  intro depth s enough
  cases s with
  | nil => exact Nat.le_refl 0
  | cons u tail =>
    unfold runItems
    simp only [length_cons] at enough ⊢
    apply (value depth (u :: tail) (by rw [length_cons]; omega)).bind
    intro rest short
    rw [length_cons] at short
    have close := skipSpace_length rest
    split
    next after last =>
      rw [last, length_cons] at close
      show after.length ≤ tail.length + 1
      omega
    next =>
      have fewer : ((skipSpace rest).drop 1).length ≤ tail.length := by
        rw [length_drop]
        omega
      exact (items depth _ (by omega)).mono (by omega)

theorem run_ended (fuel : Nat) : ValuesEnd fuel ∧ MembersEnd fuel ∧ ItemsEnd fuel := by
  induction fuel with
  | zero => exact ⟨fun _ _ h => by omega, fun _ _ _ h => by omega, fun _ _ h => by omega⟩
  | succ fuel ih =>
    obtain ⟨value, members, items⟩ := ih
    exact ⟨runValue_ended members items, runMembers_ended value members, runItems_ended value items⟩

/-- What the scan throws where it is still running does not matter once it ends. -/
def settled (result : Except (Option Thrown) JsString) : Except Thrown JsString :=
  result.mapError fun cause => cause.getD .syntaxError

theorem settled_bind (result : Except (Option Thrown) JsString)
    (next : JsString → Except (Option Thrown) JsString) :
    settled (result >>= next) = settled result >>= fun rest => settled (next rest) := by
  cases result <;> rfl

section branches

variable {t : JsString} {next : JsString → Except (Option Thrown) JsString} {after : JsString → Except Thrown JsString}
  (same : ∀ rest, settled (next rest) = after rest)

include same

theorem settled_brace : settled (match t with | 0x7D :: rest => .ok rest | rest => next rest) =
    match t with | 0x7D :: rest => .ok rest | rest => after rest := by
  split
  · rfl
  · exact same _

theorem settled_bracket : settled (match t with | 0x5D :: rest => .ok rest | rest => next rest) =
    match t with | 0x5D :: rest => .ok rest | rest => after rest := by
  split
  · rfl
  · exact same _

theorem settled_opening {items string : JsString → Except (Option Thrown) JsString}
    {items' string' : JsString → Except Thrown JsString} (sameItems : ∀ rest, settled (items rest) = items' rest)
    (sameString : ∀ rest, settled (string rest) = string' rest) {plain : JsString → JsString} :
    settled (match t with
      | 0x7B :: rest => next rest
      | 0x5B :: rest => items rest
      | 0x22 :: rest => string rest
      | rest => .ok (plain rest)) =
    match t with
      | 0x7B :: rest => after rest
      | 0x5B :: rest => items' rest
      | 0x22 :: rest => string' rest
      | rest => .ok (plain rest) := by
  split
  · exact same _
  · exact sameItems _
  · exact sameString _
  · rfl

end branches

def ValuesSettled (fuel : Nat) : Prop :=
  ∀ depth s, settled (runValue fuel depth s) = scanValue fuel depth s

def MembersSettled (fuel : Nat) : Prop :=
  ∀ depth fields s, settled (runMembers fuel depth fields s) = scanMembers fuel depth fields s

def ItemsSettled (fuel : Nat) : Prop :=
  ∀ depth s, settled (runItems fuel depth s) = scanItems fuel depth s

theorem runValue_settled (members : MembersSettled fuel) (items : ItemsSettled fuel) :
    ValuesSettled (fuel + 1) := by
  intro depth s
  unfold runValue scanValue
  split
  next => rfl
  next =>
    refine settled_opening (fun rest => settled_brace (members _ _)) (fun rest => settled_bracket (items _))
      fun rest => ?_
    cases stringToken (0x22 :: rest) <;> rfl

theorem runMembers_settled (value : ValuesSettled fuel) (members : MembersSettled fuel) :
    MembersSettled (fuel + 1) := by
  intro depth fields s
  cases s with
  | nil => rfl
  | cons u tail =>
    unfold runMembers scanMembers
    cases stringToken (skipSpace (u :: tail)) with
    | error e => rfl
    | ok read =>
      obtain ⟨key, after⟩ := read
      show settled (if fields.contains key then .error _ else _) =
        if fields.contains key then _ else _
      split
      next => rfl
      next =>
        refine (settled_bind _ _).trans ?_
        rw [value]
        congr 1
        funext rest
        exact settled_brace fun rest => members _ _ _

theorem runItems_settled (value : ValuesSettled fuel) (items : ItemsSettled fuel) :
    ItemsSettled (fuel + 1) := by
  intro depth s
  cases s with
  | nil => rfl
  | cons u tail =>
    unfold runItems scanItems
    rw [settled_bind, value]
    congr 1
    funext rest
    exact settled_bracket fun rest => items _ _

theorem run_settled (fuel : Nat) : ValuesSettled fuel ∧ MembersSettled fuel ∧ ItemsSettled fuel := by
  induction fuel with
  | zero => exact ⟨fun _ _ => rfl, fun _ _ _ => rfl, fun _ _ => rfl⟩
  | succ fuel ih =>
    obtain ⟨value, members, items⟩ := ih
    exact ⟨runValue_settled members items, runMembers_settled value members, runItems_settled value items⟩

/-- A text that the parser accepts is accepted by the scan exactly when no object in it repeats a name
and nothing in it lies too deep; on every text the scan ends. -/
theorem assertUniqueAbiJsonObjectFields_correct : (∀ json value, JsonText.parse json = some value →
      ∃ tree, parseTree json = some tree ∧ value = tree.collapse ∧
        (assertUniqueAbiJsonObjectFields json = .ok () ↔ tree.UniqueNames ∧ tree.depth ≤ MAX_JSON_DEPTH)) ∧
      ∀ json, ∃ outcome : Except Thrown JsString, runValue (2 * json.length + 2) 0 json = outcome.mapError some ∧
          assertUniqueAbiJsonObjectFields json = outcome.map fun _ => () := by
  constructor
  · intro json value parsed
    rw [parse_eq_tree] at parsed
    obtain ⟨tree, spells, made⟩ := Option.map_eq_some_iff.mp parsed
    exact ⟨tree, spells, made.symm, scan_tree spells⟩
  · intro json
    have ended := (run_ended (2 * json.length + 2)).1 0 json (by omega)
    have same := (run_settled (2 * json.length + 2)).1 0 json
    unfold assertUniqueAbiJsonObjectFields
    rw [← same]
    cases result : runValue (2 * json.length + 2) 0 json with
    | ok rest => exact ⟨.ok rest, rfl, rfl⟩
    | error cause =>
      rw [result] at ended
      obtain ⟨e, rfl⟩ := Option.isSome_iff_exists.mp ended
      exact ⟨.error e, rfl, rfl⟩

def escapedName : JsString :=
  js "\x7b \"a\" : null , \"\\u0061\" : [ ] \x7d"

/-- A name and its escaped spelling are one name. -/
theorem escaped_name_repeats : ∃ tree, parseTree escapedName = some tree ∧
    ¬(tree.UniqueNames ∧ tree.depth ≤ MAX_JSON_DEPTH) := by
  have accepted : (JsonText.parse escapedName).isSome = true := by decide +kernel
  have rejected : (assertUniqueAbiJsonObjectFields escapedName).isOk = false := by decide +kernel
  obtain ⟨value, parsed⟩ := Option.isSome_iff_exists.mp accepted
  obtain ⟨tree, spells, _, accepts⟩ :=
    assertUniqueAbiJsonObjectFields_correct.1 escapedName value parsed
  refine ⟨tree, spells, fun fits => ?_⟩
  rw [accepts.mpr fits] at rejected
  cases rejected

end ForgeDeno
