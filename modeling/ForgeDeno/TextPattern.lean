import ForgeDeno.JsString

inductive TextPattern (α : Type) where
  | never
  | done
  | one (accepts : α → Bool)
  | seq (first second : TextPattern α)
  | alt (left right : TextPattern α)
  | star (body : TextPattern α)

namespace TextPattern

variable {α : Type}

def nullable : TextPattern α → Bool
  | never => false
  | done => true
  | one _ => false
  | seq p q => p.nullable && q.nullable
  | alt p q => p.nullable || q.nullable
  | star _ => true

def after (a : α) : TextPattern α → TextPattern α
  | never => never
  | done => never
  | one accepts => if accepts a then done else never
  | seq p q => if p.nullable then alt (seq (p.after a) q) (q.after a) else seq (p.after a) q
  | alt p q => alt (p.after a) (q.after a)
  | star p => seq (p.after a) (star p)

/-- Whether the whole word matches, as under the anchors `^` and `$`. -/
def test (p : TextPattern α) : List α → Bool
  | [] => p.nullable
  | a :: word => (p.after a).test word

def plus (p : TextPattern α) : TextPattern α := seq p (star p)

def opt (p : TextPattern α) : TextPattern α := alt p done

/-- The pattern repeated exactly `n` times. -/
def times (p : TextPattern α) : Nat → TextPattern α
  | 0 => done
  | n + 1 => seq p (p.times n)

def text (s : String) : TextPattern UInt16 :=
  (js s).foldr (fun u p => seq (one (· == u)) p) done

def among (letters : String) (ranges : List (UInt16 × UInt16)) : TextPattern UInt16 :=
  one fun u => (js letters).contains u || ranges.any fun r => r.1 ≤ u && u ≤ r.2

def lower : UInt16 × UInt16 := (0x61, 0x7A)

def upper : UInt16 × UInt16 := (0x41, 0x5A)

def digit : UInt16 × UInt16 := (0x30, 0x39)

end TextPattern
