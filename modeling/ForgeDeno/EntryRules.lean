import ForgeDeno.LogEntries

namespace JsNumber

theorem zero_eq : (0 : JsNumber) = .finite (.zero false) := rfl

theorem zero_toRat (negative : Bool) : (Double.zero negative).toRat = 0 := by
  simp [Double.toRat, Double.magnitude, Double.zero]

theorem le_zero (x : Double) : (finite x).le 0 = decide (x.toRat ≤ 0) := by
  rw [zero_eq]
  unfold le lt eq
  dsimp only
  rw [zero_toRat, ← Bool.decide_or, decide_eq_decide]
  exact le_iff_lt_or_eq.symm

theorem zero_lt (x : Double) : (0 : JsNumber).lt (.finite x) = decide (0 < x.toRat) := by
  rw [zero_eq]
  unfold lt
  dsimp only
  rw [zero_toRat]

theorem round_finite (x : Double) : ∃ z : Double, (finite x).round = .finite z ∧ z.toRat = ⌊x.toRat + 1 / 2⌋ := by
  change ∃ z : Double, ofRat ((⌊x.toRat + 1 / 2⌋ : Int) : ℚ) x.negative = .finite z ∧ z.toRat = _
  refine ofRat_whole ?_ x.negative
  rcases whole_or_small x with ⟨n, _, value, _⟩ | small
  · left
    refine ⟨x, ?_⟩
    have low : ⌊((n : ℚ) + 1 / 2)⌋ = n := by
      rw [Int.floor_eq_iff]
      constructor <;> linarith
    rw [value, low]
  · right
    rw [abs_lt] at small
    have above : ⌊x.toRat + 1 / 2⌋ < 2 ^ 52 + 1 := Int.floor_lt.mpr (by push_cast; linarith)
    have under : -(2 ^ 52) ≤ ⌊x.toRat + 1 / 2⌋ := Int.le_floor.mpr (by push_cast; linarith)
    omega

end JsNumber

namespace ForgeDeno

section latencies

open JsNumber

theorem normalizeLatency_cases (value : Option JsNumber) : normalizeLatency value = 0 ∨
      ∃ z : Double, normalizeLatency value = .finite z ∧ 0 < z.toRat ∧ (JsNumber.finite z).round = .finite z := by
  have nothing : normalizeLatency none = 0 := rfl
  cases value with
  | none => exact .inl nothing
  | some n =>
    cases n with
    | nan => exact .inl rfl
    | infinity negative => exact .inl rfl
    | finite x =>
      by_cases low : x.toRat ≤ 0
      · left
        show (if !(finite x).isFinite || (finite x).le 0 then (0 : JsNumber) else _) = 0
        rw [le_zero, decide_eq_true low, Bool.or_true, if_pos rfl]
      · have kept : normalizeLatency (some (.finite x)) = (finite x).round := by
          show (if !(finite x).isFinite || (finite x).le 0 then (0 : JsNumber) else _) = _
          rw [le_zero, decide_eq_false low]
          rfl
        have sign : x.negative = false := by
          by_contra negative
          have under : x.toRat = -x.magnitude := if_pos (by simpa using negative)
          have magnitude : 0 ≤ x.magnitude := by
            rw [← Double.abs_toRat]
            exact abs_nonneg _
          exact low (by linarith)
        obtain ⟨z, rounded, whole⟩ := round_finite x
        have above : 0 ≤ ⌊x.toRat + 1 / 2⌋ := Int.floor_nonneg.mpr (by linarith)
        have source : ofRat ((⌊x.toRat + 1 / 2⌋ : Int) : ℚ) x.negative = .finite z := rounded
        rw [kept]
        by_cases zero : ⌊x.toRat + 1 / 2⌋ = 0
        · left
          show ofRat ((⌊x.toRat + 1 / 2⌋ : Int) : ℚ) x.negative = 0
          rw [zero, sign]
          rfl
        · right
          have nonzero : ((⌊x.toRat + 1 / 2⌋ : Int) : ℚ) ≠ 0 := by exact_mod_cast zero
          refine ⟨z, rounded, ?_, ?_⟩
          · rw [whole]
            exact_mod_cast lt_of_le_of_ne above (Ne.symm zero)
          · have same : ⌊z.toRat + 1 / 2⌋ = ⌊x.toRat + 1 / 2⌋ := by
              rw [whole, Int.floor_eq_iff]
              constructor <;> linarith
            show ofRat ((⌊z.toRat + 1 / 2⌋ : Int) : ℚ) z.negative = .finite z
            rw [same, ofRat_sign nonzero _ x.negative, source]

theorem normalizeLatency_twice (value : Option JsNumber) :
    normalizeLatency (some (normalizeLatency value)) = normalizeLatency value := by
  rcases normalizeLatency_cases value with zero | ⟨z, same, positive, rounded⟩
  · have least : (0 : JsNumber).le 0 = true := by decide +kernel
    rw [zero]
    show (if !(0 : JsNumber).isFinite || (0 : JsNumber).le 0 then (0 : JsNumber) else _) = 0
    rw [least, Bool.or_true, if_pos rfl]
  · have high : (finite z).le 0 = false := by
      rw [le_zero]
      exact decide_eq_false (by linarith)
    rw [same]
    show (if !(finite z).isFinite || (finite z).le 0 then (0 : JsNumber) else
      (finite z).round) = _
    rw [high, rounded]
    rfl

theorem normalizeLatency_finite (value : Option JsNumber) : (normalizeLatency value).isFinite = true := by
  rcases normalizeLatency_cases value with zero | ⟨z, same, _⟩
  · rw [zero]
    rfl
  · rw [same]
    rfl

theorem zero_lt_latency (value : Option JsNumber) : (0 : JsNumber).lt (normalizeLatency value) =
      (!(normalizeLatency value).eq 0 && (normalizeLatency value).eq (normalizeLatency value)) := by
  rcases normalizeLatency_cases value with zero | ⟨z, same, positive, _⟩
  · rw [zero]
    decide +kernel
  · have nonzero : (finite z).eq 0 = false := by
      rw [zero_eq]
      unfold eq
      dsimp only
      rw [zero_toRat]
      exact decide_eq_false positive.ne'
    have self : (finite z).eq (.finite z) = true := decide_eq_true rfl
    rw [same, zero_lt, decide_eq_true positive, nonzero, self]
    rfl

end latencies

section fields

variable {V : Type} {protoAccessor : Bool} {rules : Details FieldRule}

def InOrder (members : Details V) : Prop := (members.map Prod.fst).Pairwise fun a b => precedes a b = true

theorem InOrder.nodup {members : Details V} (h : InOrder members) : (members.map Prod.fst).Nodup :=
  nodup_of_ordered h

def Assignable (protoAccessor : Bool) (members : Details V) : Prop :=
  ∀ member ∈ members, assigns protoAccessor member.1 = true

theorem setMember?_ordered {out : Details V} (h : InOrder out) (key : JsString) (field : Option V) :
    InOrder (setMember? out key field) := by
  cases field with
  | none => exact h
  | some value => exact setMember_ordered h value

theorem lookupMember_setMember? (out : Details V) (key other : JsString) (field : Option V) :
    lookupMember (setMember? out key field) other =
      if other = key then field.or (lookupMember out other) else lookupMember out other := by
  cases field with
  | none =>
    show lookupMember out other = _
    rw [Option.none_or, ite_self]
  | some value =>
    show lookupMember (setMember out key value) other = _
    rw [lookupMember_setMember, Option.some_or]

theorem mem_setMember? {out : Details V} {key : JsString} {field : Option V} {member : JsString × V}
    (mem : member ∈ setMember? out key field) : member.1 = key ∨ member ∈ out := by
  cases field with
  | none => exact .inr mem
  | some value =>
    rcases mem_setMember mem with before | same
    · exact .inr before
    · exact .inl (congrArg Prod.fst same)

variable [EntryValue V]

theorem writeFields_ordered (rules : Details FieldRule) (s : Details V) : InOrder (writeFields rules s) := by
  have go : ∀ done : Details V, InOrder done → InOrder (rules.foldl
      (fun out rule => setMember? out rule.1 (rule.2.emit (lookupMember s rule.1))) done) := by
    induction rules with
    | nil => exact fun done h => h
    | cons rule rules ih => exact fun done h => ih _ (setMember?_ordered h _ _)
  exact go [] .nil

theorem mem_writeFields {s : Details V} {member : JsString × V} (mem : member ∈ writeFields rules s) :
    member.1 ∈ rules.map Prod.fst := by
  have go : ∀ done : Details V, member ∈ rules.foldl
      (fun out rule => setMember? out rule.1 (rule.2.emit (lookupMember s rule.1))) done →
        member.1 ∈ rules.map Prod.fst ∨ member ∈ done := by
    clear mem
    induction rules with
    | nil => exact fun done h => .inr h
    | cons rule rules ih =>
      intro done h
      rcases ih _ h with later | here
      · exact .inl (List.mem_cons_of_mem _ later)
      · rcases mem_setMember? here with same | before
        · left
          rw [same]
          exact List.mem_cons_self
        · exact .inr before
  rcases go [] mem with found | nothing
  · exact found
  · cases nothing

theorem lookup_writeFields (unique : (rules.map Prod.fst).Nodup) (s : Details V) (key : JsString) :
    lookupMember (writeFields rules s) key =
      (lookupMember rules key).bind fun rule => rule.emit (lookupMember s key) := by
  have go : ∀ done : Details V, lookupMember (rules.foldl
      (fun out rule => setMember? out rule.1 (rule.2.emit (lookupMember s rule.1))) done) key =
        ((lookupMember rules key).bind fun rule => rule.emit (lookupMember s key)).or
          (lookupMember done key) := by
    induction rules with
    | nil => exact fun done => rfl
    | cons rule rules ih =>
      intro done
      obtain ⟨fresh, rest⟩ := List.nodup_cons.mp unique
      rw [List.foldl_cons, ih rest, lookupMember_setMember?, lookupMember_cons]
      by_cases here : rule.1 = key
      · have missing : lookupMember rules key = none := by
          cases found : lookupMember rules key with
          | none => rfl
          | some other => exact absurd (List.mem_map_of_mem (lookupMember_mem found)) (here ▸ fresh)
        rw [if_pos here.symm, if_pos here, missing, here]
        rfl
      · rw [if_neg (Ne.symm here), if_neg here]
  rw [writeFields, go []]
  exact Option.or_none

omit [EntryValue V] in
theorem assignAll_filter (out entries : Details V) :
    assignAll protoAccessor out entries = (entries.filter fun member => assigns protoAccessor member.1).foldl
      (fun out member => setMember out member.1 member.2) out := by
  unfold assignAll
  rw [List.foldl_filter]

omit [EntryValue V] in
theorem assignAll_ordered {out : Details V} (h : InOrder out) (entries : Details V) :
    InOrder (assignAll protoAccessor out entries) := by
  rw [assignAll_filter]
  generalize entries.filter _ = kept
  induction kept generalizing out with
  | nil => exact h
  | cons member kept ih => exact ih (setMember_ordered h member.2)

omit [EntryValue V] in
theorem assignAll_assignable {out : Details V} (h : Assignable protoAccessor out) (entries : Details V) :
    Assignable protoAccessor (assignAll protoAccessor out entries) := by
  unfold assignAll
  induction entries generalizing out with
  | nil => exact h
  | cons entry entries ih =>
    apply ih
    dsimp only
    split
    next made =>
      intro member mem
      rcases mem_setMember mem with before | same
      · exact h member before
      · rw [same]
        exact made
    next => exact h

omit [EntryValue V] in
theorem lookup_sortKeys {obj : Details V} (order : InOrder obj) (made : Assignable protoAccessor obj)
    (key : JsString) : lookupMember (sortKeys protoAccessor obj) key = lookupMember obj key := by
  have all : (sortEntries obj).filter (fun member => assigns protoAccessor member.1) = sortEntries obj :=
    List.filter_eq_self.mpr fun member mem => made member ((sortEntries_perm obj).subset mem)
  unfold sortKeys
  rw [assignAll_filter, all]
  exact lookupMember_sorted order.nodup key

end fields

end ForgeDeno
