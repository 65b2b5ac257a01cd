import ForgeDeno.JsonOrder

namespace ForgeDeno

section members

variable {α : Type} {members : List (JsString × α)} {key other : JsString}

theorem lookupMember_cons (member : JsString × α) : lookupMember (member :: members) key =
      if member.1 = key then some member.2 else lookupMember members key := by
  unfold lookupMember
  by_cases same : member.1 = key
  · rw [List.find?_cons_of_pos (by simp [same]), if_pos same]
    rfl
  · rw [List.find?_cons_of_neg (by simp [same]), if_neg same]

theorem lookupMember_append (front back : List (JsString × α)) :
    lookupMember (front ++ back) key = (lookupMember front key).or (lookupMember back key) := by
  induction front with
  | nil => rfl
  | cons member front ih =>
    rw [List.cons_append, lookupMember_cons, lookupMember_cons, ih]
    split <;> rfl

theorem lookupMember_map (item : α) :
    lookupMember (members.map fun member => if member.1 == key then (key, item) else member) other =
      if other = key then (lookupMember members key).map fun _ => item else lookupMember members other := by
  induction members with
  | nil => split <;> rfl
  | cons member members ih =>
    rw [List.map_cons, lookupMember_cons, ih, lookupMember_cons, lookupMember_cons]
    by_cases here : member.1 = key
    · by_cases same : other = key
      · simp [here, same]
      · simp [here, same, Ne.symm same]
    · by_cases same : other = key
      · simp [here, same]
      · simp [here, same]

theorem setMember_others (key : JsString) (item : α) :
    (setMember members key item).filter (fun member => member.1 ≠ key) =
      members.filter fun member => member.1 ≠ key := by
  unfold setMember
  split
  next present =>
    clear present
    induction members with
    | nil => rfl
    | cons member members ih =>
      rw [List.map_cons, List.filter_cons, List.filter_cons, ih]
      by_cases here : member.1 = key
      · simp [here]
      · simp [here]
  next =>
    split
    next => simp
    next index _ =>
      change ((members.takeWhile (numberedBelow index) ++ (key, item) ::
        members.drop (members.takeWhile (numberedBelow index)).length).filter _) = _
      have whole := List.prefix_iff_eq_append.mp (List.takeWhile_prefix (l := members) (numberedBelow index))
      rw [List.filter_append, List.filter_cons_of_neg (by simp), ← List.filter_append, whole]

theorem lookupMember_setMember (item : α) : lookupMember (setMember members key item) other =
    if other = key then some item else lookupMember members other := by
  unfold setMember
  split
  next present =>
    rw [lookupMember_map]
    obtain ⟨before, found⟩ := Option.isSome_iff_exists.mp present
    rw [found]
    rfl
  next absent =>
    have missing : lookupMember members key = none := by simpa using absent
    split
    next =>
      rw [lookupMember_append, lookupMember_cons]
      by_cases same : other = key
      · rw [if_pos same, if_pos same.symm, same, missing]
        rfl
      · rw [if_neg same, if_neg (Ne.symm same)]
        exact Option.or_none
    next index _ =>
      change lookupMember (members.takeWhile (numberedBelow index) ++ (key, item) ::
        members.drop (members.takeWhile (numberedBelow index)).length) other = _
      generalize (numberedBelow index : JsString × α → Bool) = p
      have whole := List.prefix_iff_eq_append.mp (List.takeWhile_prefix (l := members) p)
      have before : lookupMember members other = (lookupMember (members.takeWhile p) other).or
          (lookupMember (members.drop (members.takeWhile p).length) other) := by
        rw [← lookupMember_append, whole]
      rw [lookupMember_append, lookupMember_cons]
      by_cases same : other = key
      · have front : lookupMember (members.takeWhile p) other = none := by
          rw [same, missing] at before
          exact same ▸ (Option.or_eq_none_iff.mp before.symm).1
        rw [if_pos same, if_pos same.symm, front]
        rfl
      · rw [if_neg same, if_neg (Ne.symm same)]
        exact before.symm

end members

end ForgeDeno
