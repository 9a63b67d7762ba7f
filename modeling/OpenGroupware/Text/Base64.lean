import Mathlib.Data.List.Basic

/-!
Base64 in the URL-safe alphabet, without padding. A decoder that accepts
canonical texts only reads back what has been encoded.
-/

namespace Base64

/-- The character that stands for six bits. -/
def digit (n : Nat) : Char :=
  if n < 26 then Char.ofNat (65 + n)
  else if n < 52 then Char.ofNat (71 + n)
  else if n < 62 then Char.ofNat (n - 4)
  else if n = 62 then '-'
  else '_'

def value (c : Char) : Option Nat :=
  let n := c.toNat
  if 65 ≤ n ∧ n ≤ 90 then some (n - 65)
  else if 97 ≤ n ∧ n ≤ 122 then some (n - 71)
  else if 48 ≤ n ∧ n ≤ 57 then some (n + 4)
  else if c = '-' then some 62
  else if c = '_' then some 63
  else none

def encode : List UInt8 → List Char
  | [] => []
  | [a] => [digit (a.toNat / 4), digit (a.toNat % 4 * 16)]
  | [a, b] =>
      [digit (a.toNat / 4), digit (a.toNat % 4 * 16 + b.toNat / 16), digit (b.toNat % 16 * 4)]
  | a :: b :: c :: bs =>
      digit (a.toNat / 4) :: digit (a.toNat % 4 * 16 + b.toNat / 16) ::
        digit (b.toNat % 16 * 4 + c.toNat / 64) :: digit (c.toNat % 64) :: encode bs

/-- The bits that are left over at the end have to be zero. -/
def decode : List Char → Option (List UInt8)
  | [] => some []
  | [_] => none
  | [x, y] => do
      let x ← value x
      let y ← value y
      if y % 16 = 0 then some [UInt8.ofNat (x * 4 + y / 16)] else none
  | [x, y, z] => do
      let x ← value x
      let y ← value y
      let z ← value z
      if z % 4 = 0 then some [UInt8.ofNat (x * 4 + y / 16), UInt8.ofNat (y % 16 * 16 + z / 4)]
      else none
  | x :: y :: z :: w :: cs => do
      let x ← value x
      let y ← value y
      let z ← value z
      let w ← value w
      let bs ← decode cs
      return UInt8.ofNat (x * 4 + y / 16) :: UInt8.ofNat (y % 16 * 16 + z / 4) ::
        UInt8.ofNat (z % 4 * 64 + w) :: bs

theorem value_digit : ∀ n < 64, value (digit n) = some n := by decide

theorem digit_isSome (n : Nat) : (value (digit n)).isSome = true := by
  by_cases hn : n < 64
  · rw [value_digit n hn]
    rfl
  · have hlast : digit n = '_' := by
      unfold digit
      rw [if_neg (by omega), if_neg (by omega), if_neg (by omega), if_neg (by omega)]
    rw [hlast]
    decide

/-- An encoded text consists of digits. -/
theorem isSome_of_mem_encode {bs : List UInt8} {c : Char} (h : c ∈ encode bs) :
    (value c).isSome = true := by
  induction bs using encode.induct with
  | case1 => cases h
  | case2 a | case3 a b =>
      simp only [encode, List.mem_cons, List.not_mem_nil, or_false] at h
      rcases h with rfl | rfl | rfl
      all_goals exact digit_isSome _
  | case4 a b c bs ih =>
      simp only [encode, List.mem_cons] at h
      rcases h with rfl | rfl | rfl | rfl | h
      · exact digit_isSome _
      · exact digit_isSome _
      · exact digit_isSome _
      · exact digit_isSome _
      · exact ih h

theorem ofNat_eq {n : Nat} {a : UInt8} (h : n = a.toNat) : UInt8.ofNat n = a := by
  rw [h, UInt8.ofNat_toNat]

/-- What has been encoded is read back. -/
theorem decode_encode (bs : List UInt8) : decode (encode bs) = some bs := by
  induction bs using encode.induct with
  | case1 => rfl
  | case2 a =>
      have ha : a.toNat < 256 := a.toNat_lt
      simp only [encode, decode, value_digit _ (show a.toNat / 4 < 64 by omega),
        value_digit _ (show a.toNat % 4 * 16 < 64 by omega), bind, Option.bind_some]
      rw [if_pos (by omega), ofNat_eq (a := a) (by omega)]
  | case3 a b =>
      have ha : a.toNat < 256 := a.toNat_lt
      have hb : b.toNat < 256 := b.toNat_lt
      simp only [encode, decode, value_digit _ (show a.toNat / 4 < 64 by omega),
        value_digit _ (show a.toNat % 4 * 16 + b.toNat / 16 < 64 by omega),
        value_digit _ (show b.toNat % 16 * 4 < 64 by omega), bind, Option.bind_some]
      rw [if_pos (by omega), ofNat_eq (a := a) (by omega), ofNat_eq (a := b) (by omega)]
  | case4 a b c bs ih =>
      have ha : a.toNat < 256 := a.toNat_lt
      have hb : b.toNat < 256 := b.toNat_lt
      have hc : c.toNat < 256 := c.toNat_lt
      simp only [encode, decode, value_digit _ (show a.toNat / 4 < 64 by omega),
        value_digit _ (show a.toNat % 4 * 16 + b.toNat / 16 < 64 by omega),
        value_digit _ (show b.toNat % 16 * 4 + c.toNat / 64 < 64 by omega),
        value_digit _ (show c.toNat % 64 < 64 by omega), ih, bind, Option.bind_some, pure]
      rw [ofNat_eq (a := a) (by omega), ofNat_eq (a := b) (by omega),
        ofNat_eq (a := c) (by omega)]

end Base64
