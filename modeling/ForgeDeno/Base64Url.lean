import ForgeDeno.Base64Text

namespace ForgeDeno

open Option

/-- `encodeBase64Url` and `decodeBase64Url`, which throws where the result is `none`. -/
structure Base64Url where
  encode : Bytes → JsString
  decode : JsString → Option Bytes

structure Base64Url.Lawful (base64url : Base64Url) : Prop where
  round_trip : ∀ bytes, base64url.decode (base64url.encode bytes) = some bytes
  undotted : ∀ bytes, 0x2E ∉ base64url.encode bytes

namespace Rfc4648

def urlUnitOf (digit : Nat) : UInt16 :=
  if digit = 62 then 0x2D else if digit = 63 then 0x5F else unitOf digit

def urlDigitOf (u : UInt16) : Option Nat :=
  if u = 0x2D then some 62 else if u = 0x5F then some 63
  else if u = 0x2B ∨ u = 0x2F then none else digitOf u

def urlEncode : Bytes → JsString
  | [] => []
  | [a] => [urlUnitOf (a.toNat / 4), urlUnitOf (a.toNat % 4 * 16)]
  | [a, b] =>
    [urlUnitOf (a.toNat / 4), urlUnitOf (a.toNat % 4 * 16 + b.toNat / 16), urlUnitOf (b.toNat % 16 * 4)]
  | a :: b :: c :: rest =>
    urlUnitOf (a.toNat / 4) :: urlUnitOf (a.toNat % 4 * 16 + b.toNat / 16) ::
      urlUnitOf (b.toNat % 16 * 4 + c.toNat / 64) :: urlUnitOf (c.toNat % 64) :: urlEncode rest

def urlDecode : JsString → Option Bytes
  | [] => some []
  | [_] => none
  | [p, q] => do
    let x ← urlDigitOf p
    let y ← urlDigitOf q
    return [(x * 4 + y / 16).toUInt8]
  | [p, q, r] => do
    let x ← urlDigitOf p
    let y ← urlDigitOf q
    let z ← urlDigitOf r
    return [(x * 4 + y / 16).toUInt8, (y % 16 * 16 + z / 4).toUInt8]
  | p :: q :: r :: s :: rest => do
    let x ← urlDigitOf p
    let y ← urlDigitOf q
    let z ← urlDigitOf r
    let w ← urlDigitOf s
    let others ← urlDecode rest
    return (x * 4 + y / 16).toUInt8 :: (y % 16 * 16 + z / 4).toUInt8 :: (z % 4 * 64 + w).toUInt8 :: others

theorem urlDigitOf_urlUnitOf {digit : Nat} (h : digit < 64) : urlDigitOf (urlUnitOf digit) = some digit := by
  have all : ∀ n < 64, urlDigitOf (urlUnitOf n) = some n := by decide
  exact all digit h

theorem urlUnitOf_ne_dot {digit : Nat} (h : digit < 64) : 0x2E ≠ urlUnitOf digit := by
  have all : ∀ n < 64, 0x2E ≠ urlUnitOf n := by decide
  exact all digit h

theorem urlDecode_urlEncode (bytes : Bytes) : urlDecode (urlEncode bytes) = some bytes := by
  induction bytes using urlEncode.induct with
  | case1 => rfl
  | case2 a =>
    have bound := a.toNat_lt
    rw [urlEncode, urlDecode, urlDigitOf_urlUnitOf (by omega), urlDigitOf_urlUnitOf (by omega)]
    simp only [bind_eq_bind, bind_some, pure]
    rw [toUInt8_of_toNat (a := a) (by omega)]
  | case3 a b =>
    have boundA := a.toNat_lt
    have boundB := b.toNat_lt
    rw [urlEncode, urlDecode, urlDigitOf_urlUnitOf (by omega), urlDigitOf_urlUnitOf (by omega),
      urlDigitOf_urlUnitOf (by omega)]
    simp only [bind_eq_bind, bind_some, pure]
    rw [toUInt8_of_toNat (a := a) (by omega), toUInt8_of_toNat (a := b) (by omega)]
  | case4 a b c rest ih =>
    have boundA := a.toNat_lt
    have boundB := b.toNat_lt
    have boundC := c.toNat_lt
    rw [urlEncode, urlDecode, urlDigitOf_urlUnitOf (by omega), urlDigitOf_urlUnitOf (by omega),
      urlDigitOf_urlUnitOf (by omega), urlDigitOf_urlUnitOf (by omega), ih]
    simp only [bind_eq_bind, bind_some, pure]
    rw [toUInt8_of_toNat (a := a) (by omega), toUInt8_of_toNat (a := b) (by omega),
      toUInt8_of_toNat (a := c) (by omega)]

theorem urlEncode_undotted (bytes : Bytes) : 0x2E ∉ urlEncode bytes := by
  induction bytes using urlEncode.induct with
  | case1 => exact List.not_mem_nil
  | case2 a =>
    have bound := a.toNat_lt
    have first := urlUnitOf_ne_dot (show a.toNat / 4 < 64 by omega)
    have second := urlUnitOf_ne_dot (show a.toNat % 4 * 16 < 64 by omega)
    simp [urlEncode, first, second]
  | case3 a b =>
    have boundA := a.toNat_lt
    have boundB := b.toNat_lt
    have first := urlUnitOf_ne_dot (show a.toNat / 4 < 64 by omega)
    have second := urlUnitOf_ne_dot (show a.toNat % 4 * 16 + b.toNat / 16 < 64 by omega)
    have third := urlUnitOf_ne_dot (show b.toNat % 16 * 4 < 64 by omega)
    simp [urlEncode, first, second, third]
  | case4 a b c rest ih =>
    have boundA := a.toNat_lt
    have boundB := b.toNat_lt
    have boundC := c.toNat_lt
    have first := urlUnitOf_ne_dot (show a.toNat / 4 < 64 by omega)
    have second := urlUnitOf_ne_dot (show a.toNat % 4 * 16 + b.toNat / 16 < 64 by omega)
    have third := urlUnitOf_ne_dot (show b.toNat % 16 * 4 + c.toNat / 64 < 64 by omega)
    have fourth := urlUnitOf_ne_dot (show c.toNat % 64 < 64 by omega)
    simp [urlEncode, first, second, third, fourth, ih]

end Rfc4648

def rfcBase64Url : Base64Url where
  encode := Rfc4648.urlEncode
  decode := Rfc4648.urlDecode

theorem rfcBase64Url_lawful : rfcBase64Url.Lawful where
  round_trip := Rfc4648.urlDecode_urlEncode
  undotted := Rfc4648.urlEncode_undotted

end ForgeDeno
