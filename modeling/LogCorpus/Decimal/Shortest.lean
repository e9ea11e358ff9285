/-
The shortest decimal of a binary fraction.

A positive finite binary number `m * 2 ^ q` is the nearest one to every real of
an interval around it.  `shortest` finds the coarsest power of ten with a
multiple in that interval, and takes the multiple nearest to the number; of two
equally near ones it takes the larger.  All arithmetic is on natural numbers.
-/

namespace LogCorpus

/-- The number `digits * 10 ^ exponent`. -/
structure Scaled where
  digits : Nat
  exponent : Int
deriving Repr, DecidableEq

/-- The least mantissa that fills all its 53 bits. -/
def fullMantissa : Nat :=
  0x10000000000000

/-- The multiple of `10 ^ power` nearest to `m * 2 ^ q`, if it lies in the
interval of the reals that round to `m * 2 ^ q`.  The interval is measured in
quarters of `2 ^ q`: it reaches half a unit up and half a unit down, only a
quarter down where the binary numbers below lie twice as dense.  Its ends
belong to it when `m` is even. -/
def nearestMultiple? (m : Nat) (q power : Int) : Option Nat :=
  let step := Nat.pow 10 power.toNat * Nat.pow 2 (2 - q).toNat
  let quarter := Nat.pow 2 (q - 2).toNat * Nat.pow 10 (-power).toNat
  let value := 4 * m * quarter
  let dense := m = fullMantissa ∧ -1074 < q
  let low := (if dense then 4 * m - 1 else 4 * m - 2) * quarter
  let high := (4 * m + 2) * quarter
  let inside (multiple : Nat) : Bool :=
    if m % 2 = 0 then low ≤ multiple * step && multiple * step ≤ high
    else low < multiple * step && multiple * step < high
  let below := value / step
  match inside below, inside (below + 1) with
  | true, true =>
      if 2 * value < (2 * below + 1) * step then some below else some (below + 1)
  | true, false => some below
  | false, true => some (below + 1)
  | false, false => none

/-- Search downwards from a power of ten for the coarsest one with a multiple
in the interval. -/
def shortestFrom (m : Nat) (q : Int) : Nat → Int → Scaled
  | 0, power => ⟨(nearestMultiple? m q power).getD 0, power⟩
  | steps + 1, power =>
      match nearestMultiple? m q power with
      | some digits => ⟨digits, power⟩
      | none => shortestFrom m q steps (power - 1)

/-- The shortest decimal that reads back as `m * 2 ^ q`.  The search starts
above the number and needs no more than seventeen digits. -/
def shortest (m : Nat) (q : Int) : Scaled :=
  shortestFrom m q 22 ((m.log2 + q + 1) * 30103 / 100000 + 1)

end LogCorpus
