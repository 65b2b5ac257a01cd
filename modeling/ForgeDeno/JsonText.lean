import ForgeDeno.JsValue
import Mathlib.Data.Nat.Digits.Defs

/-! JSON text: `JSON.parse` and `JSON.stringify` on code units, and the decimal notation of
numbers they share. -/

namespace JsonText

def isDigit (u : UInt16) : Bool := 0x30 ≤ u && u ≤ 0x39

def isSpace (u : UInt16) : Bool := u = 0x09 || u = 0x0A || u = 0x0D || u = 0x20

def skipSpace (s : JsString) : JsString := s.dropWhile isSpace

def hexDigit? (u : UInt16) : Option Nat :=
  if isDigit u then some (u.toNat - 0x30)
  else if 0x61 ≤ u && u ≤ 0x66 then some (u.toNat - 0x61 + 10)
  else if 0x41 ≤ u && u ≤ 0x46 then some (u.toNat - 0x41 + 10)
  else none

/-- The unit an escape letter other than `u` stands for. -/
def escaped? (u : UInt16) : Option UInt16 :=
  match u with
  | 0x22 => some 0x22
  | 0x5C => some 0x5C
  | 0x2F => some 0x2F
  | 0x62 => some 0x08
  | 0x66 => some 0x0C
  | 0x6E => some 0x0A
  | 0x72 => some 0x0D
  | 0x74 => some 0x09
  | _ => none

def parseString : JsString → Option (JsString × JsString)
  | [] => none
  | 0x22 :: rest => some ([], rest)
  | 0x5C :: 0x75 :: a :: b :: c :: d :: rest => do
    let unit := (← hexDigit? a) * 0x1000 + (← hexDigit? b) * 0x100 + (← hexDigit? c) * 0x10 +
      (← hexDigit? d)
    let (text, rest) ← parseString rest
    some (unit.toUInt16 :: text, rest)
  | 0x5C :: u :: rest => do
    let unit ← escaped? u
    let (text, rest) ← parseString rest
    some (unit :: text, rest)
  | u :: rest =>
    if u < 0x20 ∨ u = 0x5C then none
    else do
      let (text, rest) ← parseString rest
      some (u :: text, rest)

def digitsValue (ds : JsString) : Nat := ds.foldl (fun n u => 10 * n + (u.toNat - 0x30)) 0

def pow10 (e : Int) : ℚ := if 0 ≤ e then 10 ^ e.toNat else 1 / 10 ^ (-e).toNat

/-- The exponent part of a number literal; without one the exponent is zero. -/
def parseExponent (s : JsString) : Option (Int × JsString) :=
  match s with
  | u :: rest =>
    if u = 0x65 ∨ u = 0x45 then
      let (negative, rest) : Bool × JsString := match rest with
        | 0x2B :: rest => (false, rest)
        | 0x2D :: rest => (true, rest)
        | _ => (false, rest)
      let ds := rest.takeWhile isDigit
      if ds = [] then none
      else some (if negative then -(digitsValue ds : Int) else digitsValue ds, rest.dropWhile isDigit)
    else some (0, s)
  | [] => some (0, s)

def parseFraction (s : JsString) : Option (JsString × JsString) :=
  match s with
  | 0x2E :: rest =>
    let ds := rest.takeWhile isDigit
    if ds = [] then none else some (ds, rest.dropWhile isDigit)
  | _ => some ([], s)

def parseNumber (s : JsString) : Option (JsNumber × JsString) := do
  let (negative, s) : Bool × JsString := match s with
    | 0x2D :: rest => (true, rest)
    | _ => (false, s)
  let whole := s.takeWhile isDigit
  if whole = [] ∨ (whole.head? = some 0x30 ∧ 1 < whole.length) then none
  else
    let (fraction, rest) ← parseFraction (s.dropWhile isDigit)
    let (exponent, rest) ← parseExponent rest
    let value := (digitsValue (whole ++ fraction) : ℚ) * pow10 (exponent - fraction.length)
    some (JsNumber.ofRat (if negative then -value else value) negative, rest)

def expect (literal : String) (s : JsString) : Option JsString :=
  if (js literal).isPrefixOf s then some (s.drop literal.length) else none

mutual

def parseValue : Nat → JsString → Option (JsonValue × JsString)
  | 0, _ => none
  | fuel + 1, s =>
    match skipSpace s with
    | 0x7B :: rest =>
      match skipSpace rest with
      | 0x7D :: rest => some (.object [], rest)
      | rest => do
        let (members, rest) ← parseMembers fuel rest
        -- a repeated name overwrites the earlier member
        some (.object (members.foldl (fun acc member => setMember acc member.1 member.2) []), rest)
    | 0x5B :: rest =>
      match skipSpace rest with
      | 0x5D :: rest => some (.array [], rest)
      | rest => do
        let (items, rest) ← parseItems fuel rest
        some (.array items, rest)
    | 0x22 :: rest => do
      let (text, rest) ← parseString rest
      some (.string text, rest)
    | 0x74 :: rest => (expect "rue" rest).map fun rest => (.bool true, rest)
    | 0x66 :: rest => (expect "alse" rest).map fun rest => (.bool false, rest)
    | 0x6E :: rest => (expect "ull" rest).map fun rest => (.null, rest)
    | s => (parseNumber s).map fun (n, rest) => (.number n, rest)

def parseMembers : Nat → JsString → Option (List (JsString × JsonValue) × JsString)
  | 0, _ => none
  | fuel + 1, s =>
    match skipSpace s with
    | 0x22 :: rest => do
      let (key, rest) ← parseString rest
      match skipSpace rest with
      | 0x3A :: rest =>
        let (item, rest) ← parseValue fuel rest
        match skipSpace rest with
        | 0x7D :: rest => some ([(key, item)], rest)
        | 0x2C :: rest =>
          let (members, rest) ← parseMembers fuel rest
          some ((key, item) :: members, rest)
        | _ => none
      | _ => none
    | _ => none

def parseItems : Nat → JsString → Option (List JsonValue × JsString)
  | 0, _ => none
  | fuel + 1, s => do
    let (item, rest) ← parseValue fuel s
    match skipSpace rest with
    | 0x5D :: rest => some ([item], rest)
    | 0x2C :: rest =>
      let (items, rest) ← parseItems fuel rest
      some (item :: items, rest)
    | _ => none

end

/-- `JSON.parse`; each recursive call consumes a unit, so the length is fuel enough. -/
def parse (s : JsString) : Option JsonValue := do
  let (value, rest) ← parseValue (s.length + 1) s
  if skipSpace rest = [] then some value else none

def naturalText (n : Nat) : JsString := (Nat.toDigits 10 n).map fun c => c.toNat.toUInt16

/-- The `n` with `10 ^ (n - 1) ≤ a < 10 ^ n`, for a positive double. -/
def pointPosition (a : ℚ) : Int :=
  if 1 ≤ a then (Nat.toDigits 10 ⌊a⌋.toNat).length
  else match (List.range 400).find? fun j => 1 ≤ a * 10 ^ (j + 1) with
    | some j => -(j : Int)
    | none => 0

def digitsAt (n : Int) (k s : Nat) : Nat × Int := if s = 10 ^ k then (10 ^ (k - 1), n + 1) else (s, n)

/-- The `k` digits nearest to a double. -/
def nearestDigits (a : ℚ) (k : Nat) : Nat := (JsNumber.roundHalfEven (a / pow10 (pointPosition a - k))).toNat

/-- Their neighbour on the other side of the double. -/
def nextDigits (a : ℚ) (k : Nat) : Nat :=
  if nearestDigits a k ≤ a / pow10 (pointPosition a - k) then nearestDigits a k + 1
  else nearestDigits a k - 1

def readsBack (a : ℚ) (k : Nat) (digits : Nat × Int) : Bool :=
  JsNumber.ofRat (digits.1 * pow10 (digits.2 - k)) false = JsNumber.ofRat a false

/-- The digits of `Number::toString` and the point's position: `k` digits, for the least `k` of which
some read back as the same double, and of those the nearest to it. -/
def shortestDigits (a : ℚ) : Nat × Int :=
  let digits (k : Nat) := [nearestDigits a k, nextDigits a k].map (digitsAt (pointPosition a) k)
  ((List.range 17).findSome? fun k => (digits (k + 1)).find? (readsBack a (k + 1))).getD
    (digitsAt (pointPosition a) 17 (nearestDigits a 17))

def positiveText (a : ℚ) : JsString :=
  let (s, n) := shortestDigits a
  let ds := naturalText s
  let k : Int := ds.length
  let zeros (m : Int) : JsString := List.replicate m.toNat 0x30
  if k ≤ n ∧ n ≤ 21 then ds ++ zeros (n - k)
  else if 0 < n ∧ n ≤ 21 then ds.take n.toNat ++ 0x2E :: ds.drop n.toNat
  else if -6 < n ∧ n ≤ 0 then 0x30 :: 0x2E :: zeros (-n) ++ ds
  else
    let e := n - 1
    let power := 0x65 :: (if 0 ≤ e then 0x2B else 0x2D) :: naturalText e.natAbs
    match ds with
    | [d] => d :: power
    | d :: ds => d :: 0x2E :: ds ++ power
    | [] => power

def numberText : JsNumber → JsString
  | .nan => js "NaN"
  | .infinity negative => if negative then js "-Infinity" else js "Infinity"
  | .finite x =>
    if x.mantissa = 0 then [0x30]
    else if x.negative then 0x2D :: positiveText x.magnitude
    else positiveText x.magnitude

def hexText (u : UInt16) : JsString :=
  let hex (n : Nat) : UInt16 := if n < 10 then (0x30 + n).toUInt16 else (0x57 + n).toUInt16
  [hex (u.toNat / 0x1000), hex (u.toNat / 0x100 % 0x10), hex (u.toNat / 0x10 % 0x10), hex (u.toNat % 0x10)]

def quoteUnit (u : UInt16) : JsString :=
  match u with
  | 0x22 => [0x5C, 0x22]
  | 0x5C => [0x5C, 0x5C]
  | 0x08 => [0x5C, 0x62]
  | 0x0C => [0x5C, 0x66]
  | 0x0A => [0x5C, 0x6E]
  | 0x0D => [0x5C, 0x72]
  | 0x09 => [0x5C, 0x74]
  | u => if u < 0x20 then 0x5C :: 0x75 :: hexText u else [u]

def quoteUnits : JsString → JsString
  | [] => []
  | [u] =>
    if JsString.isHighSurrogate u || JsString.isLowSurrogate u then 0x5C :: 0x75 :: hexText u
    else quoteUnit u
  | u :: v :: rest =>
    if JsString.isHighSurrogate u && JsString.isLowSurrogate v then u :: v :: quoteUnits rest
    else if JsString.isHighSurrogate u || JsString.isLowSurrogate u then
      0x5C :: 0x75 :: hexText u ++ quoteUnits (v :: rest)
    else quoteUnit u ++ quoteUnits (v :: rest)

def quote (s : JsString) : JsString := 0x22 :: quoteUnits s ++ [0x22]

def commaSeparated : List JsString → JsString
  | [] => []
  | [s] => s
  | s :: t :: rest => s ++ 0x2C :: commaSeparated (t :: rest)

mutual

def stringify : JsValue → Option JsString
  | .null => some (js "null")
  | .bool b => some (if b then js "true" else js "false")
  | .number n => some (if n.isFinite then numberText n else js "null")
  | .string s => some (quote s)
  | .array items => some (0x5B :: commaSeparated (stringifyItems items) ++ [0x5D])
  | .record members => some (0x7B :: commaSeparated (stringifyMembers members) ++ [0x7D])
  | .exotic members => some (0x7B :: commaSeparated (stringifyMembers members) ++ [0x7D])
  | _ => none

def stringifyItems : List JsValue → List JsString
  | [] => []
  | item :: items => (stringify item).getD (js "null") :: stringifyItems items

def stringifyMembers : List (JsString × JsValue) → List JsString
  | [] => []
  | member :: members =>
    match stringifyMember member with
    | some text => text :: stringifyMembers members
    | none => stringifyMembers members

def stringifyMember : JsString × JsValue → Option JsString
  | (key, item) => (stringify item).map fun text => quote key ++ 0x3A :: text

end

end JsonText
