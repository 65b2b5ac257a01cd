import ForgeDeno.JsonRoundTrip

open JsonText List

/-! What `JSON.parse` returns has its members in property order. -/

theorem digitsValue_pos {u : UInt16} {ds : JsString} (nonzero : u ≠ 0x30)
    (digits : Digits (u :: ds)) : 0 < digitsValue (u :: ds) := by
  obtain ⟨low, _⟩ := isDigit_bounds (digits u mem_cons_self)
  have more : 0x30 < u.toNat := by
    rcases Nat.lt_or_eq_of_le low with less | same
    · exact less
    · exact absurd (UInt16.toNat_inj.mp same.symm) nonzero
  have split := digitsValue_append [u] ds
  have first : digitsValue [u] = u.toNat - 0x30 := Nat.zero_add _
  rw [singleton_append, first] at split
  have power : 0 < 10 ^ ds.length := Nat.pow_pos (by decide)
  have scaled : 1 * 10 ^ ds.length ≤ (u.toNat - 0x30) * 10 ^ ds.length :=
    Nat.mul_le_mul_right _ (by omega)
  omega

def Leading (ds : JsString) : Prop := Digits ds ∧ ds.head? ≠ some 0x30

theorem leading_front {ds : JsString} {u : UInt16} (h : Leading (ds ++ [u])) : Leading ds := by
  constructor
  · exact fun v mem => h.1 v (mem_append_left _ mem)
  · intro zero
    apply h.2
    cases ds with
    | nil => cases zero
    | cons v ds => exact zero

theorem leading_injective (a : JsString) : ∀ b : JsString, Leading a → Leading b →
    digitsValue a = digitsValue b → a = b := by
  have nonempty : ∀ ds : JsString, Leading ds → digitsValue ds = 0 → ds = [] := by
    intro ds leading zero
    cases ds with
    | nil => rfl
    | cons u ds =>
      have positive := digitsValue_pos (fun same => leading.2 (congrArg some same)) leading.1
      omega
  induction a using reverseRecOn with
  | nil => exact fun b _ hb same => (nonempty b hb same.symm).symm
  | append_singleton a u ih =>
    intro b ha hb same
    rcases eq_nil_or_concat b with rfl | ⟨b, v, rfl⟩
    · exact absurd (nonempty _ ha same) (by simp)
    · have high : ∀ w : UInt16, ∀ ds : JsString, Digits (ds ++ [w]) →
          digitsValue (ds ++ [w]) = digitsValue ds * 10 + (w.toNat - 0x30) ∧ w.toNat - 0x30 < 10 ∧
            0x30 ≤ w.toNat := by
        intro w ds digits
        obtain ⟨low, top⟩ := isDigit_bounds (digits w (mem_append_right _ mem_cons_self))
        have last : digitsValue [w] = w.toNat - 0x30 := Nat.zero_add _
        rw [digitsValue_append, last]
        exact ⟨rfl, by omega, low⟩
      rw [concat_eq_append] at hb same ⊢
      obtain ⟨value, small, low⟩ := high u a ha.1
      obtain ⟨value', small', low'⟩ := high v b hb.1
      rw [value, value'] at same
      have front := ih b (leading_front ha) (leading_front hb) (by omega)
      have unit : u = v := UInt16.toNat_inj.mp (by omega)
      rw [front, unit]

theorem arrayIndex_value {key : JsString} {n : Nat} (h : arrayIndex? key = some n) :
    Digits key ∧ digitsValue key = n ∧ (key = [0x30] ∨ Leading key) := by
  unfold arrayIndex? at h
  split at h
  next digits =>
    have all : Digits key := by
      intro u mem
      exact all_eq_true.mp digits u mem
    refine ⟨all, ?_⟩
    split at h
    next => cases h
    next u =>
      cases h
      refine ⟨Nat.zero_add _, ?_⟩
      by_cases zero : u = 0x30
      · exact .inl (by rw [zero])
      · exact .inr ⟨all, fun same => zero (Option.some.inj same)⟩
    next u ds _ =>
      dsimp only at h
      split at h
      next => cases h
      next small =>
        cases h
        exact ⟨rfl, .inr ⟨all, fun same => small (.inl (Option.some.inj same))⟩⟩
  next => cases h

theorem arrayIndex_injective {a b : JsString} {n : Nat} (ha : arrayIndex? a = some n)
    (hb : arrayIndex? b = some n) : a = b := by
  obtain ⟨_, va, la⟩ := arrayIndex_value ha
  obtain ⟨_, vb, lb⟩ := arrayIndex_value hb
  have zero : digitsValue [0x30] = 0 := by rfl
  have positive : ∀ key : JsString, arrayIndex? key = some n → Leading key → 0 < digitsValue key := by
    intro key index leading
    cases key with
    | nil => cases index
    | cons u ds => exact digitsValue_pos (fun same => leading.2 (congrArg some same)) leading.1
  rcases la with rfl | la <;> rcases lb with rfl | lb
  · rfl
  · have := positive b hb lb
    omega
  · have := positive a ha la
    omega
  · exact leading_injective a b la lb (va.trans vb.symm)

section setMember

variable {α : Type} {members : List (JsString × α)} {key : JsString}

theorem mem_setMember {item : α} {member : JsString × α} (h : member ∈ setMember members key item) :
    member ∈ members ∨ member = (key, item) := by
  unfold setMember at h
  split at h
  · obtain ⟨other, mem, rfl⟩ := mem_map.mp h
    split
    · exact .inr rfl
    · exact .inl mem
  · split at h
    · rcases mem_append.mp h with old | new
      · exact .inl old
      · exact .inr (mem_singleton.mp new)
    · rcases mem_append.mp h with old | new
      · exact .inl (takeWhile_subset _ old)
      · rcases mem_cons.mp new with same | rest
        · exact .inr same
        · exact .inl (mem_of_mem_drop rest)

theorem fresh_key (fresh : (lookupMember members key).isSome ≠ true) : ∀ member ∈ members, member.1 ≠ key := by
  intro member mem same
  apply fresh
  unfold lookupMember
  rw [Option.isSome_map, find?_isSome]
  exact ⟨member, mem, beq_iff_eq.mpr same⟩

theorem precedes_last {a b : JsString} (differs : a ≠ b) (index : arrayIndex? b = none) :
    precedes a b = true := by
  unfold precedes
  rw [index, Bool.and_eq_true]
  exact ⟨decide_eq_true differs, rfl⟩

theorem precedes_index {a b : JsString} {i j : Nat} (ha : arrayIndex? a = some i)
    (hb : arrayIndex? b = some j) (less : i < j) : precedes a b = true := by
  have differs : a ≠ b := by
    intro same
    rw [same, hb] at ha
    cases ha
    exact Nat.lt_irrefl _ less
  unfold precedes
  rw [ha, hb, Bool.and_eq_true]
  exact ⟨decide_eq_true differs, decide_eq_true less⟩

theorem precedes_rest {n : Nat} (index : arrayIndex? key = some n) {f : JsString × α} {rest : List (JsString × α)}
    (h : ((f :: rest).map Prod.fst).Pairwise fun a b => precedes a b = true)
    (fresh : ∀ member ∈ f :: rest, member.1 ≠ key) (first : ∀ m, arrayIndex? f.1 = some m → n ≤ m) :
    ∀ b ∈ (f :: rest).map Prod.fst, precedes key b = true := by
  intro b mem
  obtain ⟨member, inside, rfl⟩ := mem_map.mp mem
  have differs : key ≠ member.1 := Ne.symm (fresh member inside)
  cases at_ : arrayIndex? member.1 with
  | none => exact precedes_last differs at_
  | some j =>
    apply precedes_index index at_
    rcases mem_cons.mp inside with rfl | later
    · rcases Nat.lt_or_eq_of_le (first j at_) with less | same
      · exact less
      · exact absurd (arrayIndex_injective index (same ▸ at_)) differs
    · have before := rel_of_pairwise_cons h (mem_map_of_mem later)
      unfold precedes at before
      rw [at_, Bool.and_eq_true] at before
      cases head : arrayIndex? f.1 with
      | none => rw [head] at before; cases before.2
      | some i =>
        rw [head] at before
        have less : i < j := of_decide_eq_true before.2
        have low := first i head
        omega

def numberedBelow (index : Nat) (member : JsString × α) : Bool :=
  match arrayIndex? member.1 with
  | some other => decide (other < index)
  | none => false

theorem setMember_ordered (h : (members.map Prod.fst).Pairwise fun a b => precedes a b = true) (item : α) :
    ((setMember members key item).map Prod.fst).Pairwise fun a b => precedes a b = true := by
  unfold setMember
  split
  next =>
    have keys : (members.map fun member => if member.1 == key then (key, item) else member).map
        Prod.fst = members.map Prod.fst := by
      rw [map_map]
      apply map_congr_left
      intro member _
      show (if member.1 == key then (key, item) else member).1 = member.1
      split
      next same => exact (beq_iff_eq.mp same).symm
      next => rfl
    rw [keys]
    exact h
  next absent =>
    have fresh := fresh_key absent
    split
    next index =>
      rw [map_append, pairwise_append]
      refine ⟨h, pairwise_singleton _ _, ?_⟩
      intro a mem b last
      obtain ⟨member, inside, rfl⟩ := mem_map.mp mem
      rw [mem_singleton.mp last]
      exact precedes_last (fresh member inside) index
    next n index =>
      change (map Prod.fst (members.takeWhile (numberedBelow n) ++ (key, item) ::
        members.drop (members.takeWhile (numberedBelow n)).length)).Pairwise _
      generalize less : (numberedBelow n : JsString × α → Bool) = p
      have rest : members.drop (members.takeWhile p).length = members.dropWhile p := by
        conv => lhs; arg 2; rw [← takeWhile_append_dropWhile (p := p) (l := members)]
        exact drop_left
      rw [rest, map_append, map_cons]
      have whole := h
      rw [← takeWhile_append_dropWhile (p := p) (l := members), map_append,
        pairwise_append] at whole
      obtain ⟨front, back, across⟩ := whole
      have smaller : ∀ a ∈ (members.takeWhile p).map Prod.fst, precedes a key = true := by
        intro a mem
        obtain ⟨member, inside, rfl⟩ := mem_map.mp mem
        have holds := mem_takeWhile_imp inside
        rw [← less] at holds
        unfold numberedBelow at holds
        split at holds
        next other at_ => exact precedes_index at_ index (of_decide_eq_true holds)
        next => cases holds
      have larger : ∀ b ∈ (members.dropWhile p).map Prod.fst, precedes key b = true := by
        cases tail : members.dropWhile p with
        | nil => exact nofun
        | cons f others =>
          rw [tail] at back
          have inside : ∀ member ∈ f :: others, member ∈ members := by
            intro member mem
            rw [← tail] at mem
            exact (dropWhile_sublist p).subset mem
          apply precedes_rest index back fun member mem => fresh member (inside member mem)
          intro m at_
          have fails : p f = false := by
            have head := head?_dropWhile_not p members
            rw [tail] at head
            simpa using head
          rw [← less] at fails
          simp only [numberedBelow, at_] at fails
          exact Nat.le_of_not_lt (of_decide_eq_false fails)
      rw [pairwise_append]
      refine ⟨front, pairwise_cons.mpr ⟨larger, back⟩, ?_⟩
      intro a mem b mem'
      rcases mem_cons.mp mem' with rfl | later
      · exact smaller a mem
      · exact across a mem b later

end setMember

namespace JsonValue

theorem itemsPlusZero_map (items : List JsonValue) : itemsPlusZero items = items.map plusZero := by
  induction items with
  | nil => rfl
  | cons item items ih => exact congrArg _ ih

theorem membersPlusZero_map (members : List (JsString × JsonValue)) :
    membersPlusZero members = members.map fun member => (member.1, member.2.plusZero) := by
  induction members with
  | nil => rfl
  | cons member members ih =>
    obtain ⟨key, item⟩ := member
    exact congrArg (List.cons _) ih

theorem itemsWellFormed_iff (items : List JsonValue) :
    ItemsWellFormed items ↔ ∀ item ∈ items, item.WellFormed := by
  induction items with
  | nil => exact ⟨nofun, fun _ => trivial⟩
  | cons item items ih =>
    rw [forall_mem_cons]
    exact and_congr_right fun _ => ih

theorem membersWellFormed_iff (members : List (JsString × JsonValue)) :
    MembersWellFormed members ↔ ∀ member ∈ members, member.2.WellFormed := by
  induction members with
  | nil => exact ⟨nofun, fun _ => trivial⟩
  | cons member members ih =>
    obtain ⟨key, item⟩ := member
    rw [forall_mem_cons]
    exact and_congr_right fun _ => ih

inductive Ordered : JsonValue → Prop
  | null : Ordered .null
  | bool (b : Bool) : Ordered (.bool b)
  | number (n : JsNumber) : Ordered (.number n)
  | string (s : JsString) : Ordered (.string s)
  | array {items : List JsonValue} : (∀ item ∈ items, item.Ordered) → Ordered (.array items)
  | object {members : List (JsString × JsonValue)} :
    ((members.map Prod.fst).Pairwise fun a b => precedes a b = true) →
      (∀ member ∈ members, member.2.Ordered) → Ordered (.object members)

theorem ordered_setMembers {members done : List (JsString × JsonValue)} (h : ∀ member ∈ members, member.2.Ordered)
    (order : (done.map Prod.fst).Pairwise fun a b => precedes a b = true)
    (before : ∀ member ∈ done, member.2.Ordered) :
    Ordered (.object (members.foldl (fun acc member => setMember acc member.1 member.2) done)) := by
  induction members generalizing done with
  | nil => exact .object order before
  | cons member members ih =>
    apply ih (fun other mem => h other (mem_cons_of_mem member mem))
    · exact setMember_ordered order member.2
    · intro other mem
      rcases mem_setMember mem with old | rfl
      · exact before other old
      · exact h member mem_cons_self

end JsonValue

namespace JsonText

open JsonValue

def OrdersValues (fuel : Nat) : Prop :=
  ∀ s v rest, parseValue fuel s = some (v, rest) → v.Ordered

def OrdersMembers (fuel : Nat) : Prop :=
  ∀ s members rest, parseMembers fuel s = some (members, rest) → ∀ member ∈ members, member.2.Ordered

def OrdersItems (fuel : Nat) : Prop :=
  ∀ s items rest, parseItems fuel s = some (items, rest) → ∀ item ∈ items, item.Ordered

theorem parseValue_ordered {fuel : Nat} (members : OrdersMembers fuel) (items : OrdersItems fuel) :
    OrdersValues (fuel + 1) := by
  intro s v rest h
  unfold parseValue at h
  split at h
  · split at h
    · cases h
      exact .object .nil fun _ mem => absurd mem List.not_mem_nil
    · obtain ⟨⟨parsed, rest'⟩, parts, made⟩ := Option.bind_eq_some_iff.mp h
      cases made
      exact ordered_setMembers (members _ _ _ parts) .nil fun _ mem => absurd mem List.not_mem_nil
  · split at h
    · cases h
      exact .array fun _ mem => absurd mem List.not_mem_nil
    · obtain ⟨⟨parsed, rest'⟩, parts, made⟩ := Option.bind_eq_some_iff.mp h
      cases made
      exact .array (items _ _ _ parts)
  · obtain ⟨⟨text, rest'⟩, _, made⟩ := Option.bind_eq_some_iff.mp h
    cases made
    exact .string text
  · obtain ⟨_, _, made⟩ := Option.map_eq_some_iff.mp h
    cases made
    exact .bool true
  · obtain ⟨_, _, made⟩ := Option.map_eq_some_iff.mp h
    cases made
    exact .bool false
  · obtain ⟨_, _, made⟩ := Option.map_eq_some_iff.mp h
    cases made
    exact .null
  · obtain ⟨⟨n, rest'⟩, _, made⟩ := Option.map_eq_some_iff.mp h
    cases made
    exact .number n

theorem parseMembers_ordered {fuel : Nat} (value : OrdersValues fuel) (members : OrdersMembers fuel) :
    OrdersMembers (fuel + 1) := by
  intro s parsed rest h
  unfold parseMembers at h
  split at h
  next =>
    obtain ⟨⟨key, rest₁⟩, _, h⟩ := Option.bind_eq_some_iff.mp h
    dsimp only at h
    split at h
    next =>
      obtain ⟨⟨item, rest₂⟩, first, h⟩ := Option.bind_eq_some_iff.mp h
      have ordered := value _ _ _ first
      dsimp only at h
      split at h
      next =>
        cases h
        intro member mem
        rw [mem_singleton.mp mem]
        exact ordered
      next =>
        obtain ⟨⟨others, rest₃⟩, more, made⟩ := Option.bind_eq_some_iff.mp h
        cases made
        intro member mem
        rcases mem_cons.mp mem with rfl | later
        · exact ordered
        · exact members _ _ _ more member later
      next => cases h
    next => cases h
  next => cases h

theorem parseItems_ordered {fuel : Nat} (value : OrdersValues fuel) (items : OrdersItems fuel) :
    OrdersItems (fuel + 1) := by
  intro s parsed rest h
  unfold parseItems at h
  obtain ⟨⟨item, rest₁⟩, first, h⟩ := Option.bind_eq_some_iff.mp h
  have ordered := value _ _ _ first
  dsimp only at h
  split at h
  next =>
    cases h
    intro other mem
    rw [mem_singleton.mp mem]
    exact ordered
  next =>
    obtain ⟨⟨others, rest₂⟩, more, made⟩ := Option.bind_eq_some_iff.mp h
    cases made
    intro other mem
    rcases mem_cons.mp mem with rfl | later
    · exact ordered
    · exact items _ _ _ more other later
  next => cases h

theorem parse_parts_ordered (fuel : Nat) : OrdersValues fuel ∧ OrdersMembers fuel ∧ OrdersItems fuel := by
  induction fuel with
  | zero => exact ⟨nofun, nofun, nofun⟩
  | succ fuel ih =>
    obtain ⟨value, members, items⟩ := ih
    exact ⟨parseValue_ordered members items, parseMembers_ordered value members, parseItems_ordered value items⟩

theorem parse_ordered {s : JsString} {v : JsonValue} (h : parse s = some v) : v.Ordered := by
  unfold parse at h
  obtain ⟨⟨value, rest⟩, parsed, h⟩ := Option.bind_eq_some_iff.mp h
  dsimp only at h
  split at h
  · cases h
    exact (parse_parts_ordered _).1 _ _ _ parsed
  · cases h

end JsonText
