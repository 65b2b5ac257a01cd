import ForgeDeno.TextPattern
import Mathlib.Data.List.Basic

namespace TextPattern

variable {α : Type}

theorem test_alt (p q : TextPattern α) (word : List α) : (alt p q).test word = (p.test word || q.test word) := by
  induction word generalizing p q with
  | nil => rfl
  | cons a word ih => exact ih (p.after a) (q.after a)

theorem test_seq (p q : TextPattern α) (word : List α) : (seq p q).test word = true ↔
    ∃ u v, word = u ++ v ∧ p.test u = true ∧ q.test v = true := by
  induction word generalizing p q with
  | nil =>
    constructor
    · intro h
      obtain ⟨first, second⟩ := Bool.and_eq_true_iff.mp h
      exact ⟨[], [], rfl, first, second⟩
    · rintro ⟨u, v, eq, first, second⟩
      obtain ⟨rfl, rfl⟩ := List.append_eq_nil_iff.mp eq.symm
      exact Bool.and_eq_true_iff.mpr ⟨first, second⟩
  | cons a word ih =>
    have step : (seq p q).test (a :: word) = true ↔
        (seq (p.after a) q).test word = true ∨ (p.nullable = true ∧ (q.after a).test word = true) := by
      rw [test, after]
      by_cases empty : p.nullable = true
      · rw [if_pos empty, test_alt]
        simp [empty]
      · rw [if_neg empty]
        simp [empty]
    rw [step, ih]
    constructor
    · rintro (⟨u, v, rfl, first, second⟩ | ⟨empty, second⟩)
      · exact ⟨a :: u, v, rfl, first, second⟩
      · exact ⟨[], a :: word, rfl, empty, second⟩
    · rintro ⟨u, v, eq, first, second⟩
      cases u with
      | nil =>
        cases eq
        exact .inr ⟨first, second⟩
      | cons b u =>
        cases eq
        exact .inl ⟨u, v, rfl, first, second⟩

theorem test_star_cons (p : TextPattern α) (a : α) (word : List α) : (star p).test (a :: word) = true ↔
      ∃ u v, word = u ++ v ∧ p.test (a :: u) = true ∧ (star p).test v = true := test_seq _ _ _

section words

variable {p q : TextPattern α} {u v : List α}

theorem seq_word (first : p.test u = true) (second : q.test v = true) :
    (seq p q).test (u ++ v) = true := (test_seq p q _).mpr ⟨u, v, rfl, first, second⟩

theorem star_word (first : p.test u = true) (rest : (star p).test v = true) : (star p).test (u ++ v) = true := by
  cases u with
  | nil => exact rest
  | cons a u => exact (test_star_cons p a _).mpr ⟨u, v, rfl, first, rest⟩

theorem times_succ_word {n : Nat} (first : p.test u = true) (rest : (p.times n).test v = true) :
    (p.times (n + 1)).test (u ++ v) = true := seq_word first rest

theorem opt_word (h : p.test u = true) : (opt p).test u = true := by
  rw [opt, test_alt, h, Bool.true_or]

theorem opt_nil : (opt p).test [] = true := Bool.or_true _

theorem alt_left (h : p.test u = true) : (alt p q).test u = true := by
  rw [test_alt, h, Bool.true_or]

theorem alt_right (h : q.test u = true) : (alt p q).test u = true := by
  rw [test_alt, h, Bool.or_true]

end words

end TextPattern
