import Mathlib.Data.Rat.Floor

/-- A finite IEEE binary64 value `± mantissa * 2 ^ exponent` in its canonical form. -/
structure Double where
  negative : Bool
  mantissa : Nat
  exponent : Int
  canonical : mantissa < 2 ^ 53 ∧ -1074 ≤ exponent ∧ exponent ≤ 971 ∧ (2 ^ 52 ≤ mantissa ∨ exponent = -1074)
deriving DecidableEq

inductive JsNumber where
  | nan
  | infinity (negative : Bool)
  | finite (value : Double)
deriving DecidableEq

namespace Double

def zero (negative : Bool) : Double := ⟨negative, 0, -1074, by decide⟩

def scale (e : Int) : ℚ := if 0 ≤ e then 2 ^ e.toNat else 1 / 2 ^ (-e).toNat

def magnitude (x : Double) : ℚ := x.mantissa * scale x.exponent

def toRat (x : Double) : ℚ := if x.negative then -x.magnitude else x.magnitude

end Double

namespace JsNumber

def roundHalfEven (q : ℚ) : Int :=
  let low := ⌊q⌋
  if q - low < 1 / 2 then low
  else if 1 / 2 < q - low then low + 1
  else if low % 2 = 0 then low
  else low + 1

def leadingBit (q : ℚ) : Int :=
  let guess : Int := (q.num.natAbs.log2 : Int) - (q.den.log2 : Int)
  if q < Double.scale guess then guess - 1 else guess

/-- The double nearest to a rational, ties to even; `sign` is the sign of a zero result. -/
def ofRat (q : ℚ) (sign : Bool) : JsNumber :=
  if q = 0 then .finite (.zero sign)
  else
    let negative := decide (q < 0)
    let exponent := max (leadingBit |q| - 52) (-1074)
    let rounded := (roundHalfEven (|q| / Double.scale exponent)).toNat
    let carry := rounded = 2 ^ 53
    let mantissa := if carry then 2 ^ 52 else rounded
    let exponent := if carry then exponent + 1 else exponent
    if mantissa = 0 then .finite (.zero negative)
    else if h : mantissa < 2 ^ 53 ∧ -1074 ≤ exponent ∧ exponent ≤ 971 ∧
        (2 ^ 52 ≤ mantissa ∨ exponent = -1074) then
      .finite ⟨negative, mantissa, exponent, h⟩
    else .infinity negative

def ofInt (n : Int) : JsNumber := ofRat n false

instance (n : Nat) : OfNat JsNumber n := ⟨ofInt n⟩

def isFinite : JsNumber → Bool
  | .finite _ => true
  | _ => false

/-- `x < y`; every comparison with `NaN` is false. -/
def lt : JsNumber → JsNumber → Bool
  | .finite x, .finite y => decide (x.toRat < y.toRat)
  | .infinity true, .infinity false => true
  | .infinity true, .finite _ => true
  | .finite _, .infinity false => true
  | _, _ => false

/-- `x === y` on numbers: `NaN` differs from itself and the zeros are equal. -/
def eq : JsNumber → JsNumber → Bool
  | .finite x, .finite y => decide (x.toRat = y.toRat)
  | .infinity s, .infinity t => s == t
  | _, _ => false

def le (x y : JsNumber) : Bool := x.lt y || x.eq y

def neg : JsNumber → JsNumber
  | .nan => .nan
  | .infinity s => .infinity !s
  | .finite x => .finite { x with negative := !x.negative }

def add : JsNumber → JsNumber → JsNumber
  | .nan, _ => .nan
  | _, .nan => .nan
  | .infinity s, .infinity t => if s = t then .infinity s else .nan
  | .infinity s, .finite _ => .infinity s
  | .finite _, .infinity t => .infinity t
  | .finite x, .finite y => ofRat (x.toRat + y.toRat) (x.negative && y.negative)

def sub (x y : JsNumber) : JsNumber := x.add y.neg

def shift (k : Nat) : JsNumber → JsNumber
  | .finite x => ofRat (x.toRat * 2 ^ k) x.negative
  | x => x

def isNegative : JsNumber → Bool
  | .nan => false
  | .infinity s => s
  | .finite x => x.negative

/-- `Math.min` of two arguments; a negative zero is below a positive one. -/
def min (x y : JsNumber) : JsNumber :=
  match x, y with
  | .nan, _ => .nan
  | _, .nan => .nan
  | x, y => if y.lt x || (y.eq x && y.isNegative) then y else x

def max (x y : JsNumber) : JsNumber :=
  match x, y with
  | .nan, _ => .nan
  | _, .nan => .nan
  | x, y => if x.lt y || (x.eq y && x.isNegative) then y else x

def floor : JsNumber → JsNumber
  | .finite x => ofRat ⌊x.toRat⌋ x.negative
  | x => x

/-- The integer a number is, when `Number.isInteger` accepts it. -/
def integer? : JsNumber → Option Int
  | .finite x => if x.toRat.den = 1 then some x.toRat.num else none
  | _ => none

def isSafeInteger (x : JsNumber) : Bool :=
  match x.integer? with
  | some n => decide (n.natAbs < 2 ^ 53)
  | none => false

end JsNumber
