import Mathlib.Data.List.Basic
import Mathlib.Data.List.Nodup

/-! Base64 of bytes with the URL-safe digits and padding: no two texts have the same
encoding. -/

namespace TrajProxy.Base64

def alphabet : List Char :=
  "ABCDEFGHIJKLMNOPQRSTUVWXYZabcdefghijklmnopqrstuvwxyz0123456789-_".toList

def digit (n : Nat) : Char := alphabet.getD n '='

/-- `base64.urlsafe_b64encode(bytes)` -/
def encode : List UInt8 → List Char
  | [] => []
  | [a] => [digit (a.toNat / 4), digit (a.toNat % 4 * 16), '=', '=']
  | [a, b] =>
    [digit (a.toNat / 4), digit (a.toNat % 4 * 16 + b.toNat / 16), digit (b.toNat % 16 * 4), '=']
  | a :: b :: c :: rest =>
    digit (a.toNat / 4) :: digit (a.toNat % 4 * 16 + b.toNat / 16) ::
      digit (b.toNat % 16 * 4 + c.toNat / 64) :: digit (c.toNat % 64) :: encode rest

def value (c : Char) : Nat := alphabet.idxOf c

def decode : List Char → List UInt8
  | c₀ :: c₁ :: c₂ :: c₃ :: rest =>
    let first := UInt8.ofNat (value c₀ * 4 + value c₁ / 16)
    let second := UInt8.ofNat (value c₁ % 16 * 16 + value c₂ / 4)
    let third := UInt8.ofNat (value c₂ % 4 * 64 + value c₃)
    if c₂ = '=' then [first] else if c₃ = '=' then [first, second]
    else first :: second :: third :: decode rest
  | _ => []

theorem nodup_alphabet : ('=' :: alphabet).Nodup := by decide

theorem digit_eq {n : Nat} (small : n < 64) : ∃ h : n < alphabet.length, digit n = alphabet[n] := by
  have bound : n < alphabet.length := small
  refine ⟨bound, ?_⟩
  rw [digit, List.getD_eq_getElem?_getD, List.getElem?_eq_getElem bound, Option.getD_some]

theorem value_digit {n : Nat} (small : n < 64) : value (digit n) = n := by
  obtain ⟨bound, same⟩ := digit_eq small
  rw [value, same]
  exact nodup_alphabet.of_cons.idxOf_getElem n bound

theorem digit_ne_pad {n : Nat} (small : n < 64) : digit n ≠ '=' := by
  obtain ⟨bound, same⟩ := digit_eq small
  rw [same]
  intro pad
  exact (List.nodup_cons.mp nodup_alphabet).1 (pad ▸ List.getElem_mem bound)

theorem ofNat_eq {a : UInt8} {n : Nat} (same : n = a.toNat) : UInt8.ofNat n = a := by
  rw [same, UInt8.ofNat_toNat]

/-- A byte from the six bits of one digit and the first two of the next. -/
theorem first_byte (a : UInt8) {n : Nat} (small : n < 16) :
    UInt8.ofNat (value (digit (a.toNat / 4)) * 4 + value (digit (a.toNat % 4 * 16 + n)) / 16) =
      a := by
  have bound := a.toNat_lt
  rw [value_digit (by omega), value_digit (by omega)]
  exact ofNat_eq (by omega)

theorem second_byte (b : UInt8) {m n : Nat} (left : m < 4) (right : n < 4) :
    UInt8.ofNat (value (digit (m * 16 + b.toNat / 16)) % 16 * 16 +
      value (digit (b.toNat % 16 * 4 + n)) / 4) = b := by
  have bound := b.toNat_lt
  rw [value_digit (by omega), value_digit (by omega)]
  exact ofNat_eq (by omega)

theorem third_byte (c : UInt8) {m : Nat} (left : m < 16) :
    UInt8.ofNat (value (digit (m * 4 + c.toNat / 64)) % 4 * 64 + value (digit (c.toNat % 64))) =
      c := by
  have bound := c.toNat_lt
  rw [value_digit (by omega), value_digit (by omega)]
  exact ofNat_eq (by omega)

theorem decode_encode (bytes : List UInt8) : decode (encode bytes) = bytes := by
  induction bytes using encode.induct with
  | case1 => rfl
  | case2 a =>
    have first := first_byte a (show 0 < 16 by decide)
    rw [Nat.add_zero] at first
    rw [encode, decode, if_pos rfl, first]
  | case3 a b =>
    have hb := b.toNat_lt
    have first := first_byte a (show b.toNat / 16 < 16 by omega)
    have second := second_byte b (show a.toNat % 4 < 4 by omega) (show 0 < 4 by decide)
    rw [Nat.add_zero] at second
    rw [encode, decode, if_neg (digit_ne_pad (by omega)), if_pos rfl, first, second]
  | case4 a b c rest ih =>
    have hb := b.toNat_lt
    have hc := c.toNat_lt
    have first := first_byte a (show b.toNat / 16 < 16 by omega)
    have second := second_byte b (show a.toNat % 4 < 4 by omega) (show c.toNat / 64 < 4 by omega)
    have third := third_byte c (show b.toNat % 16 < 16 by omega)
    rw [encode, decode, if_neg (digit_ne_pad (by omega)), if_neg (digit_ne_pad (by omega)), first,
      second, third, ih]

theorem encode_injective : Function.Injective encode :=
  Function.LeftInverse.injective decode_encode

end TrajProxy.Base64
