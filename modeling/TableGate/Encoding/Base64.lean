import TableGate.Value.Basic

/-!
# Base64 with the URL-safe alphabet

Three bytes become four characters of six bits each; a last group of one or
two bytes is filled up with padding characters. Reading accepts the ordinary
spellings `+` and `/` of the last two digits beside `-` and `_`, wants an
incomplete last group padded exactly with nothing after it, lets any padding
follow a complete last group, and passes over bits of the last digit that
belong to no byte.
-/

namespace TableGate.Encoding.Base64

/-- The digits, in order of value. -/
def alphabet : List Char :=
  "ABCDEFGHIJKLMNOPQRSTUVWXYZabcdefghijklmnopqrstuvwxyz0123456789-_".toList

/-- The padding character. -/
def pad : Char := '='

/-- The digit of a value below 64. -/
def digit (n : Nat) : Char := alphabet.getD n pad

/-- The value of a digit. -/
def value? (c : Char) : Option Nat :=
  if 'A' ≤ c ∧ c ≤ 'Z' then some (c.toNat - 'A'.toNat)
  else if 'a' ≤ c ∧ c ≤ 'z' then some (c.toNat - 'a'.toNat + 26)
  else if '0' ≤ c ∧ c ≤ '9' then some (c.toNat - '0'.toNat + 52)
  else if c = '-' ∨ c = '+' then some 62
  else if c = '_' ∨ c = '/' then some 63
  else none

/-- The text of a byte sequence. -/
def encode : Bytes → List Char
  | [] => []
  | [a] =>
      let n := a.toNat
      [digit (n / 4), digit (n % 4 * 16), pad, pad]
  | [a, b] =>
      let n := a.toNat * 256 + b.toNat
      [digit (n / 1024), digit (n / 16 % 64), digit (n % 16 * 4), pad]
  | a :: b :: c :: rest =>
      let n := (a.toNat * 256 + b.toNat) * 256 + c.toNat
      digit (n / 262144) :: digit (n / 4096 % 64) :: digit (n / 64 % 64) ::
        digit (n % 64) :: encode rest

/-- The bytes of a text, if it is well formed. -/
def decode? : List Char → Option Bytes
  | [] => some []
  | [a, b, '=', '='] => do
      let n := (← value? a) * 64 + (← value? b)
      return [.ofNat (n / 16)]
  | [a, b, c, '='] => do
      let n := ((← value? a) * 64 + (← value? b)) * 64 + (← value? c)
      return [.ofNat (n / 1024), .ofNat (n / 4 % 256)]
  | a :: b :: c :: d :: rest => do
      let n := (((← value? a) * 64 + (← value? b)) * 64 + (← value? c)) * 64 +
        (← value? d)
      let bytes ← if rest.all (· == pad) then some [] else decode? rest
      return .ofNat (n / 65536) :: .ofNat (n / 256 % 256) ::
        .ofNat (n % 256) :: bytes
  | _ => none

end TableGate.Encoding.Base64
