/-
Bytes as text.

In hexadecimal each byte is two lower-case digits, the high half first.  In base 64
three bytes become four letters of six bits each.  A last group of one or two bytes is
filled up with padding, so that the text has a multiple of four letters.  Reading
base 64 accepts exactly what writing produces.
-/
import AnimatedGlyph.Bytes.WordOrder

namespace AnimatedGlyph
namespace Bytes

/-! ## Hexadecimal -/

/-- The digit of a number below sixteen. -/
def hexDigit (n : Nat) : Char :=
  if n < 10 then Char.ofNat (48 + n) else Char.ofNat (87 + n)

/-- The two digits of a byte. -/
def hexByte (b : UInt8) : List Char :=
  [hexDigit (b.toNat / 16), hexDigit (b.toNat % 16)]

/-- The bytes in hexadecimal. -/
def hex (bs : List UInt8) : String :=
  String.ofList (bs.flatMap hexByte)

/-! ## Base 64 -/

/-- The letter of a number below sixty-four. -/
def base64Letter (n : Nat) : Char :=
  if n < 26 then Char.ofNat (65 + n)
  else if n < 52 then Char.ofNat (71 + n)
  else if n < 62 then Char.ofNat (n - 4)
  else if n = 62 then '+' else '/'

/-- The number of a letter. -/
def base64Value? (c : Char) : Option Nat :=
  if 'A' ≤ c ∧ c ≤ 'Z' then some (c.toNat - 65)
  else if 'a' ≤ c ∧ c ≤ 'z' then some (c.toNat - 71)
  else if '0' ≤ c ∧ c ≤ '9' then some (c.toNat + 4)
  else if c = '+' then some 62
  else if c = '/' then some 63
  else none

/-- The bytes as letters, three bytes at a time. -/
def base64Chars : List UInt8 → List Char
  | [] => []
  | [a] =>
    let n := a.toNat * 65536
    [base64Letter (n / 262144), base64Letter (n / 4096 % 64), '=', '=']
  | [a, b] =>
    let n := a.toNat * 65536 + b.toNat * 256
    [base64Letter (n / 262144), base64Letter (n / 4096 % 64), base64Letter (n / 64 % 64), '=']
  | a :: b :: c :: rest =>
    let n := a.toNat * 65536 + b.toNat * 256 + c.toNat
    base64Letter (n / 262144) :: base64Letter (n / 4096 % 64) ::
      base64Letter (n / 64 % 64) :: base64Letter (n % 64) :: base64Chars rest

/-- The bytes in base 64. -/
def base64 (bs : List UInt8) : String :=
  String.ofList (base64Chars bs)

/-- The bytes that the letters stand for. -/
def ofBase64Chars? : List Char → Option (List UInt8)
  | [] => some []
  | [p, q, '=', '='] => do
    let n := (← base64Value? p) * 262144 + (← base64Value? q) * 4096
    if n % 65536 = 0 then some [UInt8.ofNat (n / 65536)] else none
  | [p, q, r, '='] => do
    let n := (← base64Value? p) * 262144 + (← base64Value? q) * 4096 + (← base64Value? r) * 64
    if n % 256 = 0 then some [UInt8.ofNat (n / 65536), UInt8.ofNat (n / 256)] else none
  | p :: q :: r :: s :: rest => do
    let n := (← base64Value? p) * 262144 + (← base64Value? q) * 4096 +
      (← base64Value? r) * 64 + (← base64Value? s)
    let bytes ← ofBase64Chars? rest
    return UInt8.ofNat (n / 65536) :: UInt8.ofNat (n / 256) :: UInt8.ofNat n :: bytes
  | _ => none

/-- The bytes that a text in base 64 stands for. -/
def ofBase64? (s : String) : Option (List UInt8) :=
  ofBase64Chars? s.toList

/-- A letter reads back as its number. -/
theorem base64Value?_base64Letter : ∀ n < 64, base64Value? (base64Letter n) = some n := by decide

end Bytes
end AnimatedGlyph
