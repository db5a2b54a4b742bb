import Mathlib

/-!
# IEEE 754 binary64

A bit-level model of double precision numbers.  Finite values denote
rationals; every arithmetic operation computes the exact rational result and
rounds it once, to nearest with ties to even.
-/

namespace NetLang

/-- A double precision number, as its 64 bits. -/
structure Binary64 where
  bits : BitVec 64
deriving DecidableEq, Repr

namespace Binary64

def negative (x : Binary64) : Bool :=
  x.bits.msb

def exponentField (x : Binary64) : Nat :=
  x.bits.toNat / 2 ^ 52 % 2 ^ 11

def fraction (x : Binary64) : Nat :=
  x.bits.toNat % 2 ^ 52

def isFinite (x : Binary64) : Bool :=
  x.exponentField != 2047

def isNaN (x : Binary64) : Bool :=
  x.exponentField == 2047 && x.fraction != 0

def isInfinite (x : Binary64) : Bool :=
  x.exponentField == 2047 && x.fraction == 0

/-- A finite number is `significand * 2 ^ (scale - 1074)` up to its sign. -/
def significand (x : Binary64) : Nat :=
  if x.exponentField = 0 then x.fraction else 2 ^ 52 + x.fraction

def scale (x : Binary64) : Nat :=
  x.exponentField - 1

/-- The rational that a finite number denotes. -/
def toRat (x : Binary64) : ℚ :=
  let magnitude : ℚ := (x.significand * 2 ^ x.scale : Nat) / (2 ^ 1074 : Nat)
  if x.negative then -magnitude else magnitude

def ofFields (negative : Bool) (low : Nat) : Binary64 :=
  ⟨BitVec.ofNat 64 ((if negative then 2 ^ 63 else 0) + low)⟩

def zero (negative : Bool) : Binary64 :=
  ofFields negative 0

def infinity (negative : Bool) : Binary64 :=
  ofFields negative (2047 * 2 ^ 52)

def nan : Binary64 :=
  ofFields false (2047 * 2 ^ 52 + 2 ^ 51)

/-- Round `numerator / denominator` to an integer, ties to even. -/
def roundEven (numerator denominator : Nat) : Nat :=
  let quotient := numerator / denominator
  let remainder := numerator % denominator
  if 2 * remainder < denominator then quotient
  else if denominator < 2 * remainder then quotient + 1
  else quotient + quotient % 2

/-- The scale of the binade of `numerator / denominator`, at least that of
the subnormal numbers. -/
def binade (numerator denominator : Nat) : Nat :=
  let scaled := numerator * 2 ^ 1074 / denominator
  Nat.log2 scaled - 52

/-- Round a rational to the nearest double, ties to even.  The encoding of
the scale and the rounded significand is additive, so a significand that
rounds up to `2 ^ 53` moves into the next binade by itself. -/
def round (negativeZero : Bool) (value : ℚ) : Binary64 :=
  if value = 0 then zero negativeZero
  else
    let numerator := value.num.natAbs
    let scale := binade numerator value.den
    let rounded := roundEven (numerator * 2 ^ 1074) (value.den * 2 ^ scale)
    let low := scale * 2 ^ 52 + rounded
    if low ≥ 2047 * 2 ^ 52 then infinity (value < 0) else ofFields (value < 0) low

def ofInt (value : Int) : Binary64 :=
  round false value

def neg (x : Binary64) : Binary64 :=
  ⟨x.bits ^^^ BitVec.ofNat 64 (2 ^ 63)⟩

def add (x y : Binary64) : Binary64 :=
  if x.isNaN || y.isNaN then nan
  else if x.isInfinite then
    if y.isInfinite && x.negative != y.negative then nan else x
  else if y.isInfinite then y
  else round (x.negative && y.negative) (x.toRat + y.toRat)

def sub (x y : Binary64) : Binary64 :=
  x.add y.neg

def mul (x y : Binary64) : Binary64 :=
  let negative := x.negative != y.negative
  if x.isNaN || y.isNaN then nan
  else if x.isInfinite || y.isInfinite then
    if (x.isFinite && x.toRat == 0) || (y.isFinite && y.toRat == 0) then nan
    else infinity negative
  else round negative (x.toRat * y.toRat)

def div (x y : Binary64) : Binary64 :=
  let negative := x.negative != y.negative
  if x.isNaN || y.isNaN || (x.isInfinite && y.isInfinite) then nan
  else if x.isInfinite then infinity negative
  else if y.isInfinite then zero negative
  else if y.toRat = 0 then
    if x.toRat = 0 then nan else infinity negative
  else round negative (x.toRat / y.toRat)

/-- Truncation toward zero. -/
def truncate (value : ℚ) : Int :=
  value.num.tdiv value.den

/-- The remainder of a truncating division; its sign is that of `x`. -/
def rem (x y : Binary64) : Binary64 :=
  if x.isNaN || y.isNaN || x.isInfinite then nan
  else if y.isInfinite then x
  else if y.toRat = 0 then nan
  else round x.negative (x.toRat - y.toRat * truncate (x.toRat / y.toRat))

/-- IEEE comparison: unordered when an operand is not a number. -/
def partialCompare (x y : Binary64) : Option Ordering :=
  if x.isNaN || y.isNaN then none
  else if x.isInfinite then
    if y.isInfinite && x.negative == y.negative then some .eq
    else some (if x.negative then .lt else .gt)
  else if y.isInfinite then some (if y.negative then .gt else .lt)
  else some (compare x.toRat y.toRat)

/-- IEEE equality: not reflexive at a number that is not one. -/
def equal (x y : Binary64) : Bool :=
  x.partialCompare y == some .eq

/-- The fractional part, for finite numbers. -/
def fract (x : Binary64) : ℚ :=
  x.toRat - truncate x.toRat

end Binary64

end NetLang
