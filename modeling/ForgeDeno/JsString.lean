import Mathlib.Data.List.Basic
import Mathlib.Data.List.DropRight

abbrev JsString := List UInt16

namespace JsString

/-- A property of all units is decided along the string. -/
instance (priority := high) decidableForallUnits (p : UInt16 → Prop) [DecidablePred p]
    (s : JsString) : Decidable (∀ u ∈ s, p u) :=
  List.decidableBAll p s

instance (priority := high) decidableMem (s : JsString) (texts : List JsString) :
    Decidable (s ∈ texts) :=
  List.instDecidableMemOfLawfulBEq s texts

def ofCodePoint (c : Nat) : JsString :=
  if c < 0x10000 then [c.toUInt16]
  else [(0xD800 + (c - 0x10000) / 0x400).toUInt16, (0xDC00 + (c - 0x10000) % 0x400).toUInt16]

def isHighSurrogate (u : UInt16) : Bool := 0xD800 ≤ u && u ≤ 0xDBFF

def isLowSurrogate (u : UInt16) : Bool := 0xDC00 ≤ u && u ≤ 0xDFFF

def codePoints : JsString → List Nat
  | [] => []
  | [u] => [u.toNat]
  | u :: v :: rest =>
    if isHighSurrogate u && isLowSurrogate v then
      (0x10000 + (u.toNat - 0xD800) * 0x400 + (v.toNat - 0xDC00)) :: codePoints rest
    else u.toNat :: codePoints (v :: rest)

def utf8OfCodePoint (c : Nat) : List UInt8 :=
  if 0xD800 ≤ c ∧ c ≤ 0xDFFF then [0xEF, 0xBF, 0xBD]
  else if c < 0x80 then [c.toUInt8]
  else if c < 0x800 then [(0xC0 + c / 0x40).toUInt8, (0x80 + c % 0x40).toUInt8]
  else if c < 0x10000 then
    [(0xE0 + c / 0x1000).toUInt8, (0x80 + c / 0x40 % 0x40).toUInt8, (0x80 + c % 0x40).toUInt8]
  else
    [(0xF0 + c / 0x40000).toUInt8, (0x80 + c / 0x1000 % 0x40).toUInt8,
      (0x80 + c / 0x40 % 0x40).toUInt8, (0x80 + c % 0x40).toUInt8]

def utf8Encode (s : JsString) : List UInt8 := s.codePoints.flatMap utf8OfCodePoint

def continuation? (b : UInt8) : Option Nat :=
  if 0x80 ≤ b && b ≤ 0xBF then some (b.toNat - 0x80) else none

def utf8DecodeStrict : List UInt8 → Option JsString
  | [] => some []
  | a :: rest =>
    if a < 0x80 then (utf8DecodeStrict rest).map (ofCodePoint a.toNat ++ ·)
    else match rest with
      | [] => none
      | b :: rest =>
        if 0xC2 ≤ a && a ≤ 0xDF then do
          let y ← continuation? b
          let tail ← utf8DecodeStrict rest
          some (ofCodePoint ((a.toNat - 0xC0) * 0x40 + y) ++ tail)
        else match rest with
          | [] => none
          | c :: rest =>
            if 0xE0 ≤ a && a ≤ 0xEF then do
              let y ← continuation? b
              let z ← continuation? c
              let point := (a.toNat - 0xE0) * 0x1000 + y * 0x40 + z
              -- overlong forms and surrogates are malformed
              if point < 0x800 ∨ (0xD800 ≤ point ∧ point ≤ 0xDFFF) then none
              else
                let tail ← utf8DecodeStrict rest
                some (ofCodePoint point ++ tail)
            else match rest with
              | [] => none
              | d :: rest =>
                if 0xF0 ≤ a && a ≤ 0xF4 then do
                  let y ← continuation? b
                  let z ← continuation? c
                  let w ← continuation? d
                  let point := (a.toNat - 0xF0) * 0x40000 + y * 0x1000 + z * 0x40 + w
                  if point < 0x10000 ∨ 0x10FFFF < point then none
                  else
                    let tail ← utf8DecodeStrict rest
                    some (ofCodePoint point ++ tail)
                else none

/-- `new TextDecoder("utf-8", fatal).decode(bytes)`: one leading byte order mark is dropped. -/
def utf8DecodeFatal : List UInt8 → Option JsString
  | 0xEF :: 0xBB :: 0xBF :: rest => utf8DecodeStrict rest
  | bytes => utf8DecodeStrict bytes

def split (separator : UInt16) : JsString → List JsString
  | [] => [[]]
  | u :: rest =>
    if u = separator then [] :: split separator rest
    else match split separator rest with
      | [] => [[u]]
      | first :: others => (u :: first) :: others

def isWhiteSpace (u : UInt16) : Bool :=
  (0x09 ≤ u && u ≤ 0x0D) || u = 0x20 || u = 0xA0 || u = 0x1680 || (0x2000 ≤ u && u ≤ 0x200A) ||
    u = 0x2028 || u = 0x2029 || u = 0x202F || u = 0x205F || u = 0x3000 || u = 0xFEFF

def trim (s : JsString) : JsString :=
  ((s.dropWhile isWhiteSpace).reverse.dropWhile isWhiteSpace).reverse

theorem trim_trim (s : JsString) : s.trim.trim = s.trim := by
  have whole : s.trim = (s.dropWhile isWhiteSpace).rdropWhile isWhiteSpace := rfl
  have first : s.trim.dropWhile isWhiteSpace = s.trim := by
    rw [List.dropWhile_eq_self_iff]
    intro positive
    have start := (List.rdropWhile_prefix isWhiteSpace
      (s.dropWhile isWhiteSpace)).getElem (whole ▸ positive)
    have kept : (s.dropWhile isWhiteSpace).dropWhile isWhiteSpace = s.dropWhile isWhiteSpace :=
      List.dropWhile_idempotent _ _
    have longer := (List.rdropWhile_prefix isWhiteSpace (s.dropWhile isWhiteSpace)).length_le
    have head := List.dropWhile_eq_self_iff.mp kept (Nat.lt_of_lt_of_le (whole ▸ positive) longer)
    intro space
    apply head
    rw [← start]
    exact space
  calc s.trim.trim = (s.trim.dropWhile isWhiteSpace).rdropWhile isWhiteSpace := rfl
    _ = s.trim.rdropWhile isWhiteSpace := by rw [first]
    _ = s.trim := by rw [whole, List.rdropWhile_idempotent]

/-- The order of `Array.prototype.sort` on strings: by code units. -/
def unitsLe : JsString → JsString → Bool
  | [], _ => true
  | _ :: _, [] => false
  | u :: s, v :: t => if u = v then unitsLe s t else u < v

end JsString

def js (text : String) : JsString := text.toList.flatMap fun c => JsString.ofCodePoint c.toNat

/-- The names a plain object inherits; Deno deletes the `__proto__` accessor. -/
def ForgeDeno.inheritedNames : List JsString :=
  [js "constructor", js "hasOwnProperty", js "isPrototypeOf", js "propertyIsEnumerable",
    js "toLocaleString", js "toString", js "valueOf", js "__defineGetter__",
    js "__defineSetter__", js "__lookupGetter__", js "__lookupSetter__"]
