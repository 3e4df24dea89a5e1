/-
# Go's `float64`, as the Prometheus collector uses it

The collector keeps its sums and counts in `float64` and prints them with
`%f`; a sample's duration comes from `time.Duration.Seconds()`.  This module
models those operations bit for bit: `float64(int)` (`ofInt`), `+` (`add`),
`/` (`div`), `<=` (`le`), `Duration.Seconds` (`seconds`) and `%f` / `%.6f`
(`formatF`).

A `Float64` is its IEEE 754 binary64 word.  A finite value is `±mag / 2^1074`
for a natural `mag` (`scaled` is the signed integer), so the exact result of
`+` and `/` is a quotient of naturals, and one rounding function, `roundMag`
(to nearest, ties to even, with the carry of a significand that rounds up to
`2^53` into the exponent), serves every operation.  `%f` rounds the exact
value to six decimals, ties to even, as `strconv`'s decimal conversion does.

Every operation that yields a NaN here yields the one quiet NaN `nan`; Go's
hardware NaN may carry other bits, but `<=` and `%f` read every NaN alike.

What is proved is what the collector's counters need: every natural up to
`2^53` is a double exactly (`ofInt_natCast_spec`), and adding such integers
is exact while their sum stays within `2^53` (`add_ofInt`).
-/

import Ecs.Basic

namespace Ecs

/-- A Go `float64`, held as its binary64 word. -/
structure Float64 where
  bits : UInt64
deriving DecidableEq, Repr

namespace Float64

/-! ### Decoding the word -/

/-- The word as a natural. -/
def word (x : Float64) : ℕ := x.bits.toNat

/-- The sign bit. -/
def sign (x : Float64) : Bool := decide (2 ^ 63 ≤ x.word)

/-- The biased exponent field. -/
def bexp (x : Float64) : ℕ := x.word / 2 ^ 52 % 2 ^ 11

/-- The fraction field. -/
def frac (x : Float64) : ℕ := x.word % 2 ^ 52

def isNaN (x : Float64) : Bool := x.bexp = 2047 && x.frac ≠ 0

def isInf (x : Float64) : Bool := x.bexp = 2047 && x.frac = 0

/-- The significand, with its hidden bit when the value is normal. -/
def sig (x : Float64) : ℕ := if x.bexp = 0 then x.frac else x.frac + 2 ^ 52

/-- The exponent of the significand's unit, counted from `2^-1074`. -/
def uexp (x : Float64) : ℕ := if x.bexp = 0 then 0 else x.bexp - 1

/-- The magnitude of a finite value, in units of `2^-1074`. -/
def mag (x : Float64) : ℕ := x.sig * 2 ^ x.uexp

/-- A finite value times `2^1074`, as an integer. -/
def scaled (x : Float64) : ℤ := if x.sign then -(x.mag : ℤ) else x.mag

/-- The word of `±m * 2^p / 2^1074`, for a significand `m < 2^53` that is
normal (`2^52 ≤ m`) or has `p = 0`. -/
def make (s : Bool) (m p : ℕ) : Float64 :=
  ⟨UInt64.ofNat ((if s then 2 ^ 63 else 0) + if m < 2 ^ 52 then m else (p + 1) * 2 ^ 52 + (m - 2 ^ 52))⟩

/-- `±∞`. -/
def inf (s : Bool) : Float64 := ⟨UInt64.ofNat ((if s then 2 ^ 63 else 0) + 2047 * 2 ^ 52)⟩

/-- The quiet NaN. -/
def nan : Float64 := ⟨0x7FF8000000000000⟩

/-- `+0`, a zeroed `float64`. -/
def zero : Float64 := ⟨0⟩

/-! ### Rounding -/

/-- The number of binary digits of `n`, in at most `fuel` steps, each
dropping 64, 8 or 1 of them, the most `n` has. -/
def bitLengthAux : ℕ → ℕ → ℕ
  | 0, _ => 0
  | fuel + 1, n =>
    if 2 ^ 64 ≤ n then bitLengthAux fuel (n / 2 ^ 64) + 64
    else if 2 ^ 8 ≤ n then bitLengthAux fuel (n / 2 ^ 8) + 8
    else if n = 0 then 0 else bitLengthAux fuel (n / 2) + 1

/-- The number of binary digits of `n`. -/
def bitLength (n : ℕ) : ℕ := bitLengthAux n n

/-- `a / d` rounded to the nearest natural, ties to the even one. -/
def roundHalfEven (a d : ℕ) : ℕ :=
  if d < 2 * (a % d) ∨ (2 * (a % d) = d ∧ a / d % 2 = 1) then a / d + 1 else a / d

/-- The significand and unit exponent of `a / d` (in units of `2^-1074`)
rounded to 53 bits, ties to even; `none` past the largest finite double. -/
def roundMag (a d : ℕ) : Option (ℕ × ℕ) :=
  let p := bitLength (a / d) - 53
  let m := roundHalfEven a (d * 2 ^ p)
  let mp := if m = 2 ^ 53 then (2 ^ 52, p + 1) else (m, p)
  if mp.2 ≤ 2045 then some mp else none

/-- `±(a / d) / 2^1074` rounded to a double: to nearest, ties to even, and
`±∞` past the largest finite. -/
def round (s : Bool) (a d : ℕ) : Float64 :=
  match roundMag a d with
  | some (m, p) => make s m p
  | none => inf s

/-! ### The operations -/

/-- Go's `float64(n)` of an integer. -/
def ofInt (n : ℤ) : Float64 := round (decide (n < 0)) (n.natAbs * 2 ^ 1074) 1

/-- Go's `+`: a NaN operand or `∞ + -∞` gives NaN, an infinite operand
wins, and finite operands give their exact sum rounded, an exact zero being
`-0` only when both are negative. -/
def add (x y : Float64) : Float64 :=
  if x.isNaN || y.isNaN then nan
  else if x.isInf then (if y.isInf && x.sign != y.sign then nan else x)
  else if y.isInf then y
  else if x.scaled + y.scaled = 0 then make (x.sign && y.sign) 0 0
  else round (decide (x.scaled + y.scaled < 0)) (x.scaled + y.scaled).natAbs 1

/-- Go's `/`: NaN for a NaN operand, `∞ / ∞` and `0 / 0`; `±∞` for an
infinite dividend or a zero divisor; `±0` for an infinite divisor; else the
exact quotient rounded. -/
def div (x y : Float64) : Float64 :=
  if x.isNaN || y.isNaN then nan
  else if x.isInf then (if y.isInf then nan else inf (x.sign != y.sign))
  else if y.isInf then make (x.sign != y.sign) 0 0
  else if y.mag = 0 then (if x.mag = 0 then nan else inf (x.sign != y.sign))
  else round (x.sign != y.sign) (x.mag * 2 ^ 1074) y.mag

/-- The order of non-NaN values as integers: finite values by `scaled`,
infinities beyond every finite magnitude. -/
def key (x : Float64) : ℤ :=
  if x.isInf then (if x.sign then -2 ^ 2100 else 2 ^ 2100) else x.scaled

/-- Go's `<=`: false when either operand is NaN. -/
def le (x y : Float64) : Bool := !x.isNaN && !y.isNaN && decide (x.key ≤ y.key)

/-- Go's `time.Duration.Seconds`: `float64(d / Second) + float64(d % Second) / 1e9`,
with Go's truncating `/` and `%`. -/
def seconds (d : ℤ) : Float64 :=
  add (ofInt (d.tdiv 1000000000)) (div (ofInt (d.tmod 1000000000)) (ofInt 1000000000))

end Float64

/-! ### `%f` -/

/-- `%f` of a nonnegative number given in millionths: its integer part, a
point and six digits. -/
def formatMicros (m : ℕ) : String :=
  let frac := toString (m % 1000000)
  toString (m / 1000000) ++ "." ++ String.mk (List.replicate (6 - frac.length) '0') ++ frac

/-- Go's `%f` (and `%.6f`) of a `float64`: `NaN`, `+Inf` and `-Inf` for the
special values, and otherwise the sign of a negative value (of `-0` too)
and the exact value rounded to six decimals, ties to even. -/
def formatF (x : Float64) : String :=
  if x.isNaN then "NaN"
  else if x.isInf then (if x.sign then "-Inf" else "+Inf")
  else (if x.sign then "-" else "") ++ formatMicros (Float64.roundHalfEven (x.mag * 10 ^ 6) (2 ^ 1074))

namespace Float64

/-! ### What `make` encodes -/

/-- A significand and unit exponent that `make` encodes as they are. -/
structure Valid (m p : ℕ) : Prop where
  lt : m < 2 ^ 53
  norm : 2 ^ 52 ≤ m ∨ p = 0
  le : p ≤ 2045

section Make

variable {s : Bool} {m p : ℕ} (h : Valid m p)
include h

theorem make_word : (make s m p).word =
    (if s then 2 ^ 63 else 0) + if m < 2 ^ 52 then m else (p + 1) * 2 ^ 52 + (m - 2 ^ 52) := by
  have := h.lt; have := h.le
  simp only [make, word, UInt64.toNat_ofNat']
  apply Nat.mod_eq_of_lt
  by_cases hm : m < 2 ^ 52 <;> cases s <;> simp only [hm, Bool.false_eq_true, ↓reduceIte] <;> omega

theorem make_sign : (make s m p).sign = s := by
  have := h.lt; have := h.le
  rw [sign, make_word h]
  by_cases hm : m < 2 ^ 52 <;> cases s <;>
    simp only [hm, Bool.false_eq_true, ↓reduceIte, decide_eq_true_eq, decide_eq_false_iff_not] <;> omega

theorem make_bexp : (make s m p).bexp = if m < 2 ^ 52 then 0 else p + 1 := by
  have := h.lt; have := h.le
  rw [bexp, make_word h]
  by_cases hm : m < 2 ^ 52 <;> cases s <;> simp only [hm, Bool.false_eq_true, ↓reduceIte] <;> omega

theorem make_frac : (make s m p).frac = if m < 2 ^ 52 then m else m - 2 ^ 52 := by
  have := h.lt
  rw [frac, make_word h]
  by_cases hm : m < 2 ^ 52 <;> cases s <;> simp only [hm, Bool.false_eq_true, ↓reduceIte] <;> omega

theorem make_isNaN : (make s m p).isNaN = false := by
  have := h.le
  rw [isNaN, make_bexp h]
  split <;> simp only [Bool.and_eq_false_iff, decide_eq_false_iff_not] <;> omega

theorem make_isInf : (make s m p).isInf = false := by
  have := h.le
  rw [isInf, make_bexp h]
  split <;> simp only [Bool.and_eq_false_iff, decide_eq_false_iff_not] <;> omega

theorem make_mag : (make s m p).mag = m * 2 ^ p := by
  have hn := h.norm
  simp only [mag, sig, uexp, make_bexp h, make_frac h]
  split
  · obtain rfl : p = 0 := hn.resolve_left (by omega)
    rfl
  · simp only [Nat.add_one_ne_zero, if_false, Nat.add_sub_cancel]
    congr 1; omega

theorem make_scaled : (make s m p).scaled = if s then -((m * 2 ^ p : ℕ) : ℤ) else (m * 2 ^ p : ℕ) := by
  simp only [scaled, make_sign h, make_mag h]

end Make

/-! ### Bit length -/

/-- A step of `bitLengthAux`: dropping `c` digits of an `n` that has at
least `c`. -/
theorem add_le_iff_of_drop {n c b : ℕ} (hc : 0 < c) (hn : 2 ^ (c - 1) ≤ n)
    (ih : ∀ j, b ≤ j ↔ n / 2 ^ c < 2 ^ j) (k : ℕ) : b + c ≤ k ↔ n < 2 ^ k := by
  rcases Nat.lt_or_ge k c with hk | hk
  · have : 2 ^ k ≤ 2 ^ (c - 1) := Nat.pow_le_pow_right (by norm_num) (by omega)
    omega
  · obtain ⟨j, rfl⟩ := Nat.exists_eq_add_of_le' hk
    rw [Nat.add_le_add_iff_right, ih, pow_add, Nat.div_lt_iff_lt_mul (Nat.two_pow_pos c)]

theorem bitLengthAux_le_iff : ∀ {fuel n : ℕ}, n ≤ fuel → ∀ k, bitLengthAux fuel n ≤ k ↔ n < 2 ^ k
  | 0, n, hn, k => by
    obtain rfl : n = 0 := by omega
    simp [bitLengthAux, Nat.pos_pow_of_pos]
  | fuel + 1, n, hn, k => by
    -- what is left after dropping `c` digits is within the fuel left
    have ih : ∀ c, 0 < c → 2 ^ (c - 1) ≤ n → ∀ j,
        bitLengthAux fuel (n / 2 ^ c) ≤ j ↔ n / 2 ^ c < 2 ^ j := fun c hc hcn => by
      have := Nat.div_lt_self (Nat.one_le_two_pow.trans hcn) (Nat.one_lt_two_pow hc.ne')
      exact bitLengthAux_le_iff (by omega)
    have hdrop : ∀ {c}, 2 ^ c ≤ n → 2 ^ (c - 1) ≤ n :=
      fun h => (Nat.pow_le_pow_right two_pos (Nat.sub_le _ _)).trans h
    simp only [bitLengthAux]
    split_ifs with h64 h8 h0
    · exact add_le_iff_of_drop (by norm_num) (hdrop h64) (ih 64 (by norm_num) (hdrop h64)) k
    · exact add_le_iff_of_drop (by norm_num) (hdrop h8) (ih 8 (by norm_num) (hdrop h8)) k
    · subst h0; simp [Nat.pos_pow_of_pos]
    · have h1 : 2 ^ (1 - 1) ≤ n := by rw [Nat.sub_self, pow_zero]; omega
      simpa using add_le_iff_of_drop (b := bitLengthAux fuel (n / 2)) (by norm_num) h1
        (by simpa using ih 1 (by norm_num) h1) k

/-- The bit length is `Nat.size`. -/
theorem bitLength_eq_size (n : ℕ) : bitLength n = n.size :=
  le_antisymm ((bitLengthAux_le_iff le_rfl _).2 (Nat.lt_size_self n))
    (Nat.size_le.2 ((bitLengthAux_le_iff le_rfl _).1 le_rfl))

/-! ### Exact values round to themselves -/

theorem roundHalfEven_mul (k : ℕ) {d : ℕ} (hd : 0 < d) : roundHalfEven (k * d) d = k := by
  rw [roundHalfEven, Nat.mul_mod_left, Nat.mul_div_cancel _ hd, if_neg (by omega)]

/-- A 53-bit significand times `2^p` is its own rounding. -/
theorem roundMag_exact {k p : ℕ} (hk : 2 ^ 52 ≤ k) (hk' : k < 2 ^ 53) (hp : p ≤ 2045) :
    roundMag (k * 2 ^ p) 1 = some (k, p) := by
  have hsize : k.size = 53 :=
    le_antisymm (Nat.size_le.2 hk') (Nat.lt_size.2 (by simpa using hk))
  have hL : bitLength (k * 2 ^ p / 1) - 53 = p := by
    rw [Nat.div_one, bitLength_eq_size, ← Nat.shiftLeft_eq, Nat.size_shiftLeft (by omega), hsize]
    omega
  have hm : roundHalfEven (k * 2 ^ p) (1 * 2 ^ p) = k := by
    rw [Nat.one_mul, roundHalfEven_mul k (Nat.two_pow_pos p)]
  have hk53 : k ≠ 2 ^ 53 := by omega
  simp only [roundMag, hL, hm, hk53, hp, ↓reduceIte]

/-- Every natural from `1` to `2^53` is a 53-bit significand times a power
of two within the exponent range, in units of `2^-1074`. -/
theorem exists_normal {n : ℕ} (hn : 0 < n) (hn' : n ≤ 2 ^ 53) :
    ∃ k p, 2 ^ 52 ≤ k ∧ k < 2 ^ 53 ∧ p ≤ 2045 ∧ k * 2 ^ p = n * 2 ^ 1074 := by
  have hlo : 2 ^ (n.size - 1) ≤ n := Nat.lt_size.1 (by have := Nat.size_pos.2 hn; omega)
  have hhi := Nat.lt_size_self n
  by_cases h53 : n = 2 ^ 53
  · exact ⟨2 ^ 52, 1075, by norm_num, by norm_num, by norm_num, by subst h53; rw [← pow_add, ← pow_add]⟩
  · have hL : n.size ≤ 53 := Nat.size_le.2 (by omega)
    have h1 := Nat.size_pos.2 hn
    refine ⟨n * 2 ^ (53 - n.size), n.size + 1021, ?_, ?_, by omega, ?_⟩
    · calc 2 ^ 52 = 2 ^ (n.size - 1) * 2 ^ (53 - n.size) := by rw [← pow_add]; congr 1; omega
        _ ≤ n * 2 ^ (53 - n.size) := Nat.mul_le_mul_right _ hlo
    · calc n * 2 ^ (53 - n.size) < 2 ^ n.size * 2 ^ (53 - n.size) :=
            Nat.mul_lt_mul_of_pos_right hhi (Nat.two_pow_pos _)
        _ = 2 ^ 53 := by rw [← pow_add]; congr 1; omega
    · rw [mul_assoc, ← pow_add, show 53 - n.size + (n.size + 1021) = 1074 by omega]

/-! ### Integers up to `2^53` -/

theorem ofInt_zero : ofInt 0 = zero := by
  simp only [ofInt, Int.natAbs_zero, Nat.zero_mul, lt_self_iff_false, decide_False]
  decide

/-- **Small integers are exact.**  Every natural up to `2^53` converts to a
finite, nonnegative double whose value is that natural. -/
theorem ofInt_natCast_spec {n : ℕ} (hn : n ≤ 2 ^ 53) :
    (ofInt n).isNaN = false ∧ (ofInt n).isInf = false ∧ (ofInt n).sign = false ∧
      (ofInt n).scaled = ((n * 2 ^ 1074 : ℕ) : ℤ) := by
  rcases Nat.eq_zero_or_pos n with rfl | hn0
  · rw [Nat.cast_zero, ofInt_zero, zero_mul, Nat.cast_zero]
    decide
  · obtain ⟨k, p, hk, hk', hp, he⟩ := exists_normal hn0 hn
    have hv : Valid k p := ⟨hk', .inl hk, hp⟩
    have hr : ofInt n = make false k p := by
      simp only [ofInt, round, Int.natAbs_ofNat, ← he, roundMag_exact hk hk' hp]
      rfl
    rw [hr, make_isNaN hv, make_isInf hv, make_sign hv, make_scaled hv, he]
    exact ⟨rfl, rfl, rfl, rfl⟩

theorem add_ofInt_natCast {m n : ℕ} (h : m + n ≤ 2 ^ 53) :
    add (ofInt m) (ofInt n) = ofInt ((m + n : ℕ) : ℤ) := by
  obtain ⟨am, im, sm, hm⟩ := ofInt_natCast_spec (n := m) (by omega)
  obtain ⟨an, i_n, sn, hn⟩ := ofInt_natCast_spec (n := n) (by omega)
  have hsum : (ofInt m).scaled + (ofInt n).scaled = (((m + n) * 2 ^ 1074 : ℕ) : ℤ) := by
    rw [hm, hn, Nat.add_mul, Nat.cast_add]
  simp only [add, am, an, im, i_n, Bool.or_false, Bool.false_eq_true, if_false, hsum]
  split
  · rename_i h0
    obtain ⟨rfl, rfl⟩ : m = 0 ∧ n = 0 := by
      have := (Nat.mul_eq_zero.1 (Int.ofNat_eq_zero.1 h0)).resolve_right (pow_ne_zero _ two_ne_zero)
      omega
    rw [sm, Bool.false_and, Nat.add_zero, Nat.cast_zero, ofInt_zero]
    decide
  · have h1 : ¬((((m + n) * 2 ^ 1074 : ℕ) : ℤ) < 0) := not_lt.2 (Int.natCast_nonneg _)
    have h2 : ¬(((m + n : ℕ) : ℤ) < 0) := not_lt.2 (Int.natCast_nonneg _)
    simp only [ofInt, h1, h2, decide_False, Int.natAbs_ofNat]

/-- **Adding integers is exact while the sum stays within `2^53`.** -/
theorem add_ofInt {a b : ℤ} (ha : 0 ≤ a) (hb : 0 ≤ b) (h : a + b ≤ 2 ^ 53) :
    add (ofInt a) (ofInt b) = ofInt (a + b) := by
  lift a to ℕ using ha
  lift b to ℕ using hb
  rw [← Nat.cast_add]
  exact add_ofInt_natCast (by omega)

end Float64

end Ecs
