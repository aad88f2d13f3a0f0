/-!
# The shortest decimal that reads back

A binary number `m · 2 ^ q` stands for every real that rounds to it: an interval around it that
ends halfway to its neighbours, ends included exactly when `m` is even.  Among the decimals of
that interval the shortest is wanted, and of two equally short ones the nearer.

The decimals with `n` digits at the magnitude of the number form a grid, and if any point of the
grid lies in the interval, so does one of the two grid points around the number.  So it is enough
to look at those two for `n = 1, 2, …`, in exact arithmetic.

* `Decimal.Binary` — a positive binary number, with the shape of its interval.
* `Decimal.Binary.shortest` — digits and decimal exponent.
-/

namespace ProfilePipeline

/-- The number `digits · 10 ^ exponent`. -/
structure Decimal where
  digits : Nat
  exponent : Int
  deriving DecidableEq, Repr

/-- The positive number `mantissa · 2 ^ exponent`.  Its lower neighbour is only half as far away as
the upper one if `narrowBelow`. -/
structure Decimal.Binary where
  mantissa : Nat
  exponent : Int
  narrowBelow : Bool
  deriving DecidableEq, Repr

namespace Decimal.Binary

/-- The number of quarter units that the interval extends below the number. -/
def below (b : Binary) : Nat := if b.narrowBelow then 1 else 2

/-- What a count of quarter units is multiplied by to compare it with multiples of `10 ^ k`, and
what those are multiplied by. -/
def scales (b : Binary) (k : Int) : Nat × Nat :=
  (Nat.pow 2 (b.exponent - 2).toNat * Nat.pow 10 (-k).toNat,
    Nat.pow 2 (2 - b.exponent).toNat * Nat.pow 10 k.toNat)

/-- Whether `digits · 10 ^ k` reads back as the number. -/
def contains (b : Binary) (k : Int) (digits : Nat) : Bool :=
  let (unit, grid) := b.scales k
  let low := (4 * b.mantissa - b.below) * unit
  let high := (4 * b.mantissa + 2) * unit
  let x := digits * grid
  if b.mantissa % 2 = 0 then decide (low ≤ x ∧ x ≤ high) else decide (low < x ∧ x < high)

/-- The largest multiple of `10 ^ k` that is not above the number. -/
def floorAt (b : Binary) (k : Int) : Nat :=
  let (unit, grid) := b.scales k
  4 * b.mantissa * unit / grid

/-- Whether the grid point above the number is at least as near as the one below it. -/
def nearerAbove (b : Binary) (k : Int) : Bool :=
  let (unit, grid) := b.scales k
  let d := b.floorAt k
  decide ((d + 1) * grid - 4 * b.mantissa * unit ≤ 4 * b.mantissa * unit - d * grid)

/-- A grid fine enough for every 64-bit double: `10 ^ -400`. -/
def finest : Int := -400

/-- The exponent of the leading decimal digit.  The leading binary digit stands for a power of two;
the greatest power of ten that is not above it is the estimate, as `log10 2` is close to `0.30103`
over the exponents of a double, and the number itself reaches at most one power of ten more. -/
def magnitude (b : Binary) : Int :=
  let estimate := ((b.mantissa.log2 : Int) + b.exponent) * 30103 / 100000
  if b.floorAt (estimate + 1) = 0 then estimate else estimate + 1

/-- The point of the grid `10 ^ k` that reads back as the number, if there is one.  Of two the
nearer is taken, and the upper one when they are equally near. -/
def onGrid? (b : Binary) (k : Int) : Option Decimal :=
  let d := b.floorAt k
  match b.contains k d, b.contains k (d + 1) with
  | true, true => some ⟨if b.nearerAbove k then d + 1 else d, k⟩
  | true, false => some ⟨d, k⟩
  | false, true => some ⟨d + 1, k⟩
  | false, false => none

/-- Tries the grids with `n, n + 1, …` digits, `fuel` of them. -/
def search (b : Binary) (top : Int) (n : Nat) : Nat → Decimal
  | 0 => ⟨b.floorAt finest, finest⟩
  | fuel + 1 =>
    match b.onGrid? (top + 1 - n) with
    | some d => d
    | none => b.search top (n + 1) fuel

/-- **The shortest decimal that reads back.**  Seventeen digits are always enough for a double. -/
def shortest (b : Binary) : Decimal := b.search b.magnitude 1 17

end Decimal.Binary

namespace Decimal

/-- The decimal without zeros at the end of its digits; `fuel` bounds how many are dropped. -/
def dropZeros : Nat → Decimal → Decimal
  | 0, d => d
  | fuel + 1, d =>
    if d.digits % 10 = 0 then dropZeros fuel ⟨d.digits / 10, d.exponent + 1⟩ else d

/-- **Positional notation**: never an exponent, and a point only before digits that are not all
zeros. -/
def positional (d : Decimal) : String :=
  let d := dropZeros 20 d
  let digits := Nat.toDigits 10 d.digits
  if 0 ≤ d.exponent then
    String.ofList (digits ++ List.replicate d.exponent.toNat '0')
  else
    let places := (-d.exponent).toNat
    let padded := List.replicate (places + 1 - digits.length) '0' ++ digits
    let cut := padded.length - places
    String.ofList (padded.take cut ++ '.' :: padded.drop cut)

end Decimal

end ProfilePipeline
