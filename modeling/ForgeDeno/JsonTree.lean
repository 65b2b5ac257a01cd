import ForgeDeno.JsonText

/-! JSON text with every member it spells, also where `JSON.parse` keeps only the last of several
members of one name. -/

namespace JsonValue

mutual

/-- What `JSON.parse` makes of a value: a repeated name overwrites the earlier member. -/
def collapse : JsonValue → JsonValue
  | .array items => .array (collapseItems items)
  | .object members =>
    .object ((collapseMembers members).foldl (fun acc member => setMember acc member.1 member.2) [])
  | value => value

def collapseItems : List JsonValue → List JsonValue
  | [] => []
  | item :: items => item.collapse :: collapseItems items

def collapseMembers : List (JsString × JsonValue) → List (JsString × JsonValue)
  | [] => []
  | member :: members => collapseMember member :: collapseMembers members

def collapseMember : JsString × JsonValue → JsString × JsonValue
  | (key, item) => (key, item.collapse)

end

mutual

def UniqueNames : JsonValue → Prop
  | .array items => ItemsUnique items
  | .object members => (members.map Prod.fst).Nodup ∧ MembersUnique members
  | _ => True

def ItemsUnique : List JsonValue → Prop
  | [] => True
  | item :: items => item.UniqueNames ∧ ItemsUnique items

def MembersUnique : List (JsString × JsonValue) → Prop
  | [] => True
  | member :: members => MemberUnique member ∧ MembersUnique members

def MemberUnique : JsString × JsonValue → Prop
  | (_, item) => item.UniqueNames

end

end JsonValue

namespace JsonText

open JsonValue

mutual

/-- `parseValue` with all members kept in text order. -/
def treeValue : Nat → JsString → Option (JsonValue × JsString)
  | 0, _ => none
  | fuel + 1, s =>
    match skipSpace s with
    | 0x7B :: rest =>
      match skipSpace rest with
      | 0x7D :: rest => some (.object [], rest)
      | rest => do
        let (members, rest) ← treeMembers fuel rest
        some (.object members, rest)
    | 0x5B :: rest =>
      match skipSpace rest with
      | 0x5D :: rest => some (.array [], rest)
      | rest => do
        let (items, rest) ← treeItems fuel rest
        some (.array items, rest)
    | 0x22 :: rest => do
      let (text, rest) ← parseString rest
      some (.string text, rest)
    | 0x74 :: rest => (expect "rue" rest).map fun rest => (.bool true, rest)
    | 0x66 :: rest => (expect "alse" rest).map fun rest => (.bool false, rest)
    | 0x6E :: rest => (expect "ull" rest).map fun rest => (.null, rest)
    | s => (parseNumber s).map fun (n, rest) => (.number n, rest)

def treeMembers : Nat → JsString → Option (List (JsString × JsonValue) × JsString)
  | 0, _ => none
  | fuel + 1, s =>
    match skipSpace s with
    | 0x22 :: rest => do
      let (key, rest) ← parseString rest
      match skipSpace rest with
      | 0x3A :: rest =>
        let (item, rest) ← treeValue fuel rest
        match skipSpace rest with
        | 0x7D :: rest => some ([(key, item)], rest)
        | 0x2C :: rest =>
          let (members, rest) ← treeMembers fuel rest
          some ((key, item) :: members, rest)
        | _ => none
      | _ => none
    | _ => none

def treeItems : Nat → JsString → Option (List JsonValue × JsString)
  | 0, _ => none
  | fuel + 1, s => do
    let (item, rest) ← treeValue fuel s
    match skipSpace rest with
    | 0x5D :: rest => some ([item], rest)
    | 0x2C :: rest =>
      let (items, rest) ← treeItems fuel rest
      some (item :: items, rest)
    | _ => none

end

def parseTree (s : JsString) : Option JsonValue := do
  let (value, rest) ← treeValue (s.length + 1) s
  if skipSpace rest = [] then some value else none

def ReadsValues (fuel : Nat) : Prop :=
  ∀ s, parseValue fuel s = (treeValue fuel s).map fun read => (read.1.collapse, read.2)

def ReadsMembers (fuel : Nat) : Prop :=
  ∀ s, parseMembers fuel s = (treeMembers fuel s).map fun read => (collapseMembers read.1, read.2)

def ReadsItems (fuel : Nat) : Prop :=
  ∀ s, parseItems fuel s = (treeItems fuel s).map fun read => (collapseItems read.1, read.2)

theorem parseValue_tree {fuel : Nat} (members : ReadsMembers fuel) (items : ReadsItems fuel) :
    ReadsValues (fuel + 1) := by
  intro s
  unfold parseValue treeValue
  generalize skipSpace s = t
  split
  next rest =>
    try simp only
    generalize skipSpace rest = t
    split
    next => rfl
    next other =>
      rw [members]
      try split
      all_goals first
        | exact (other _ rfl).elim
        | (cases treeMembers fuel _ <;> rfl)
  next rest =>
    try simp only
    generalize skipSpace rest = t
    split
    next => rfl
    next other =>
      rw [items]
      try split
      all_goals first
        | exact (other _ rfl).elim
        | (cases treeItems fuel _ <;> rfl)
  next rest =>
    try simp only
    cases parseString rest <;> rfl
  next rest =>
    try simp only
    cases expect "rue" rest <;> rfl
  next rest =>
    try simp only
    cases expect "alse" rest <;> rfl
  next rest =>
    try simp only
    cases expect "ull" rest <;> rfl
  next object array string yes no nothing =>
    try split
    all_goals first
      | exact (object _ rfl).elim
      | exact (array _ rfl).elim
      | exact (string _ rfl).elim
      | exact (yes _ rfl).elim
      | exact (no _ rfl).elim
      | exact (nothing _ rfl).elim
      | (cases parseNumber _ <;> rfl)

theorem parseMembers_tree {fuel : Nat} (value : ReadsValues fuel) (members : ReadsMembers fuel) :
    ReadsMembers (fuel + 1) := by
  intro s
  unfold parseMembers treeMembers
  generalize skipSpace s = t
  split
  next rest =>
    try simp only
    cases parseString rest with
    | none => rfl
    | some read =>
      simp only [Option.bind_eq_bind, Option.bind_some]
      generalize skipSpace read.2 = t
      split
      next rest =>
        try simp only
        rw [value]
        cases treeValue fuel rest with
        | none => rfl
        | some read =>
          simp only [Option.bind_some, Option.map_some]
          generalize skipSpace read.2 = t
          split
          next => rfl
          next rest =>
            try simp only
            rw [members]
            cases treeMembers fuel rest <;> rfl
          next close comma =>
            try split
            all_goals first
              | exact (close _ rfl).elim
              | exact (comma _ rfl).elim
              | rfl
      next colon =>
        try split
        all_goals first
          | exact (colon _ rfl).elim
          | rfl
  next quote =>
    try split
    all_goals first
      | exact (quote _ rfl).elim
      | rfl

theorem parseItems_tree {fuel : Nat} (value : ReadsValues fuel) (items : ReadsItems fuel) :
    ReadsItems (fuel + 1) := by
  intro s
  unfold parseItems treeItems
  rw [value]
  cases treeValue fuel s with
  | none => rfl
  | some read =>
    simp only [Option.bind_eq_bind, Option.bind_some, Option.map_some]
    generalize skipSpace read.2 = t
    split
    next => rfl
    next rest =>
      try simp only
      rw [items]
      cases treeItems fuel rest <;> rfl
    next close comma =>
      try split
      all_goals first
        | exact (close _ rfl).elim
        | exact (comma _ rfl).elim
        | rfl

theorem parse_parts_tree (fuel : Nat) : ReadsValues fuel ∧ ReadsMembers fuel ∧ ReadsItems fuel := by
  induction fuel with
  | zero => exact ⟨fun _ => rfl, fun _ => rfl, fun _ => rfl⟩
  | succ fuel ih =>
    obtain ⟨value, members, items⟩ := ih
    exact ⟨parseValue_tree members items, parseMembers_tree value members, parseItems_tree value items⟩

theorem parse_eq_tree (s : JsString) : parse s = (parseTree s).map collapse := by
  unfold parse parseTree
  rw [(parse_parts_tree (s.length + 1)).1]
  cases treeValue (s.length + 1) s with
  | none => rfl
  | some read =>
    dsimp only [Option.bind_eq_bind, Option.bind_some, Option.map_some]
    split
    next => rfl
    next => rfl

end JsonText
