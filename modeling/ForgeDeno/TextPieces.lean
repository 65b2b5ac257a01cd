import ForgeDeno.JsString

namespace ForgeDeno

open JsString List

section splitting

variable {separator : UInt16}

theorem split_of_not_mem {s : JsString} (h : separator ∉ s) : s.split separator = [s] := by
  induction s with
  | nil => rfl
  | cons u rest ih =>
    have other : u ≠ separator := fun same => h (same ▸ mem_cons_self)
    rw [split, if_neg other, ih fun mem => h (mem_cons_of_mem u mem)]

theorem split_append {s : JsString} (h : separator ∉ s) (rest : JsString) :
    (s ++ separator :: rest).split separator = s :: rest.split separator := by
  induction s with
  | nil => exact if_pos rfl
  | cons u s ih =>
    have other : u ≠ separator := fun same => h (same ▸ mem_cons_self)
    rw [cons_append, split, if_neg other, ih fun mem => h (mem_cons_of_mem u mem)]

theorem split_ne_nil (separator : UInt16) (s : JsString) : s.split separator ≠ [] := by
  cases s with
  | nil => exact cons_ne_nil _ _
  | cons u s =>
    unfold JsString.split
    split
    · exact cons_ne_nil _ _
    · split
      · exact cons_ne_nil _ _
      · exact cons_ne_nil _ _

theorem not_mem_split {s part : JsString} (h : part ∈ s.split separator) : separator ∉ part := by
  induction s generalizing part with
  | nil =>
    rw [mem_singleton.mp h]
    exact not_mem_nil
  | cons u s ih =>
    rw [split] at h
    by_cases same : u = separator
    · rw [if_pos same] at h
      rcases mem_cons.mp h with rfl | later
      · exact not_mem_nil
      · exact ih later
    · rw [if_neg same] at h
      cases parts : JsString.split separator s with
      | nil => exact absurd parts (split_ne_nil separator s)
      | cons first others =>
        rw [parts] at h ih
        rcases mem_cons.mp h with rfl | later
        · intro mem
          rcases mem_cons.mp mem with here | mem
          · exact same here.symm
          · exact ih mem_cons_self mem
        · exact ih (mem_cons_of_mem first later)

end splitting

section trimming

variable {s w : JsString} {u : UInt16}

theorem trim_of_visible {s : JsString} (h : ∀ u ∈ s, isWhiteSpace u = false) : s.trim = s := by
  have kept : ∀ t : JsString, (∀ u ∈ t, isWhiteSpace u = false) → t.dropWhile isWhiteSpace = t := by
    intro t visible
    rw [dropWhile_eq_self_iff]
    intro positive space
    have shown := visible _ (getElem_mem positive)
    cases shown.symm.trans space
  unfold trim
  rw [kept s h, kept s.reverse fun u mem => h u (mem_reverse.mp mem), reverse_reverse]

theorem trim_subset {s : JsString} {u : UInt16} (mem : u ∈ s.trim) : u ∈ s :=
  (dropWhile_suffix _).subset ((List.rdropWhile_prefix _ _).subset mem)

theorem dropWhile_blank (blank : ∀ u ∈ w, isWhiteSpace u = true) (s : JsString) :
    (w ++ s).dropWhile isWhiteSpace = s.dropWhile isWhiteSpace := by
  induction w with
  | nil => rfl
  | cons u w ih =>
    obtain ⟨here, later⟩ := forall_mem_cons.mp blank
    rw [cons_append, dropWhile_cons_of_pos here, ih later]

theorem rdropWhile_blank (blank : ∀ u ∈ w, isWhiteSpace u = true) (s : JsString) :
    (s ++ w).rdropWhile isWhiteSpace = s.rdropWhile isWhiteSpace := by
  unfold rdropWhile
  rw [reverse_append, dropWhile_blank fun u mem => blank u (mem_reverse.mp mem)]

theorem dropWhile_visible (visible : isWhiteSpace u = false) (before after : JsString) :
    (before ++ u :: after).dropWhile isWhiteSpace = before.dropWhile isWhiteSpace ++ u :: after := by
  induction before with
  | nil => exact dropWhile_cons_of_neg (by simp [visible])
  | cons v before ih =>
    rw [cons_append]
    cases space : isWhiteSpace v with
    | true => rw [dropWhile_cons_of_pos space, dropWhile_cons_of_pos space, ih]
    | false =>
      rw [dropWhile_cons_of_neg (by simp [space]), dropWhile_cons_of_neg (by simp [space])]
      rfl

theorem rdropWhile_visible (visible : isWhiteSpace u = false) (before after : JsString) :
    (before ++ u :: after).rdropWhile isWhiteSpace = before ++ u :: after.rdropWhile isWhiteSpace := by
  unfold rdropWhile
  rw [reverse_append, reverse_cons, append_assoc, singleton_append,
    dropWhile_visible visible, reverse_append, reverse_cons, reverse_reverse]
  simp

theorem trim_visible (visible : isWhiteSpace u = false) (before after : JsString) : (before ++ u :: after).trim =
      before.dropWhile isWhiteSpace ++ u :: after.rdropWhile isWhiteSpace := by
  show ((before ++ u :: after).dropWhile isWhiteSpace).rdropWhile isWhiteSpace = _
  rw [dropWhile_visible visible, rdropWhile_visible visible]

theorem trim_blank_append (blank : ∀ u ∈ w, isWhiteSpace u = true) (s : JsString) : (w ++ s).trim = s.trim := by
  show ((w ++ s).dropWhile isWhiteSpace).rdropWhile isWhiteSpace = _
  rw [dropWhile_blank blank]
  rfl

theorem trim_cons_blank (blank : isWhiteSpace u = true) (s : JsString) : trim (u :: s) = s.trim :=
  trim_blank_append (w := [u]) (fun _ mem => (mem_singleton.mp mem) ▸ blank) s

theorem trim_eq_nil : s.trim = [] ↔ ∀ u ∈ s, isWhiteSpace u = true := by
  constructor
  · intro empty u mem
    cases space : isWhiteSpace u with
    | true => rfl
    | false =>
      obtain ⟨before, after, rfl⟩ := append_of_mem mem
      rw [trim_visible space] at empty
      simp at empty
  · intro blank
    have gone : s.dropWhile isWhiteSpace = [] := by
      have all := dropWhile_blank blank []
      rwa [append_nil] at all
    show (s.dropWhile isWhiteSpace).rdropWhile isWhiteSpace = []
    rw [gone]
    rfl

theorem trim_append_blank (blank : ∀ u ∈ w, isWhiteSpace u = true) (s : JsString) : (s ++ w).trim = s.trim := by
  by_cases none_visible : ∀ u ∈ s, isWhiteSpace u = true
  · rw [trim_eq_nil.mpr none_visible, trim_eq_nil]
    intro u mem
    exact (mem_append.mp mem).elim (none_visible u) (blank u)
  · push Not at none_visible
    obtain ⟨u, mem, visible⟩ := none_visible
    have shown : isWhiteSpace u = false := by simpa using visible
    obtain ⟨before, after, rfl⟩ := append_of_mem mem
    rw [append_assoc, cons_append, trim_visible shown, trim_visible shown, rdropWhile_blank blank]

theorem trim_rdropWhile (s : JsString) : trim (s.rdropWhile isWhiteSpace) = s.trim := by
  have parts : s = s.rdropWhile isWhiteSpace ++ s.rtakeWhile isWhiteSpace :=
    (rdropWhile_append_rtakeWhile).symm
  conv_rhs => rw [parts]
  exact (trim_append_blank (fun u mem => mem_rtakeWhile_imp mem) _).symm

theorem trim_head {rest : JsString} (h : s.trim = u :: rest) : isWhiteSpace u = false := by
  have kept : (s.trim).dropWhile isWhiteSpace = s.trim := by
    have again := trim_trim s
    rw [h] at again ⊢
    cases space : isWhiteSpace u with
    | false => exact dropWhile_cons_of_neg (by simp [space])
    | true =>
      rw [trim_cons_blank space] at again
      have shorter : rest.trim.length ≤ rest.length := by
        have first := (List.rdropWhile_prefix isWhiteSpace (rest.dropWhile isWhiteSpace)).length_le
        have second := (dropWhile_suffix isWhiteSpace (l := rest)).length_le
        exact Nat.le_trans first second
      have longer := congrArg length again
      rw [length_cons] at longer
      omega
  cases space : isWhiteSpace u with
  | false => rfl
  | true =>
    rw [h, dropWhile_cons_of_pos space] at kept
    have shorter := (dropWhile_suffix isWhiteSpace (l := rest)).length_le
    rw [kept, length_cons] at shorter
    omega

theorem trim_enclosed {a b : UInt16} (ha : isWhiteSpace a = false) (hb : isWhiteSpace b = false) (t : JsString) :
    trim (a :: t ++ [b]) = a :: t ++ [b] := by
  have start := trim_visible ha [] (t ++ [b])
  have ends := rdropWhile_visible hb t []
  rw [ends] at start
  exact start

end trimming

end ForgeDeno
