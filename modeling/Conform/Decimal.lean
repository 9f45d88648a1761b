/-!
# Decimals

Numbers as they are written in base ten: runs of digits, the literals of integers and of decimal
fractions, and the text of a float in the fewest digits that read back; and which integers fit the
words of 64 bits that they are kept in.
-/

namespace Conform.Decimal

/-! ## Decimal digits

Natural numbers as runs of ASCII digits, written with a least width and read with an exact one. -/

/-- The digits of a number, filled with zeros on the left up to `width`. -/
def padded (width n : Nat) : List Char :=
  let digits := Nat.toDigits 10 n
  List.replicate (width - digits.length) '0' ++ digits

/-- The value of a run of digits; the empty run is zero. -/
def value (digits : List Char) : Nat := Nat.ofDigitChars 10 digits 0

/-- Takes exactly `count` digits off the front. -/
def take? : Nat → List Char → Option (List Char × List Char)
  | 0, text => some ([], text)
  | _ + 1, [] => none
  | count + 1, c :: text =>
    if c.isDigit then (take? count text).map fun (digits, rest) => (c :: digits, rest) else none

/-- Reads a number of exactly `count` digits off the front. -/
def number? (count : Nat) (text : List Char) : Option (Nat × List Char) :=
  (take? count text).map fun (digits, rest) => (value digits, rest)

/-- The longest run of digits at the front, and what follows it. -/
def span (text : List Char) : List Char × List Char :=
  (text.takeWhile Char.isDigit, text.dropWhile Char.isDigit)

/-- What `take?` takes and leaves is the text it was given, and it takes digits only. -/
theorem take?_eq_some {count : Nat} {text digits rest : List Char}
    (h : take? count text = some (digits, rest)) :
    text = digits ++ rest ∧ digits.length = count ∧ ∀ c ∈ digits, c.isDigit = true := by
  induction count generalizing text digits with
  | zero =>
    simp only [take?, Option.some.injEq, Prod.mk.injEq] at h
    obtain ⟨rfl, rfl⟩ := h
    simp
  | succ count ih =>
    cases text with
    | nil => simp [take?] at h
    | cons c text =>
      simp only [take?] at h
      split at h
      · rename_i hc
        obtain ⟨⟨digits', rest'⟩, found, heq⟩ := Option.map_eq_some_iff.1 h
        simp only [Prod.mk.injEq] at heq
        obtain ⟨rfl, rfl⟩ := heq
        obtain ⟨rfl, hlen, hall⟩ := ih found
        simp [hlen, hc]
        exact hall
      · cases h

/-! ## Decimal literals

The texts of integers and of decimal fractions, and the numbers they stand for.

An integer is an optional sign and at least one digit.  A decimal has digits before a point, after
it, or both, the point being optional after digits, and may end with a power of ten.  Only ASCII
digits count, and nothing may stand before or after the literal.  Reading keeps the digits; the
value is taken exactly for an integer, and rounded once to the nearest float, ties to even, for a
decimal. -/

/-- Takes an optional sign off the front and says whether it is a minus. -/
def sign : List Char → Bool × List Char
  | '+' :: rest => (false, rest)
  | '-' :: rest => (true, rest)
  | text => (false, text)

/-- A number with its sign restored. -/
def signed (negative : Bool) (size : Nat) : Int := if negative then -size else size

/-- The integer a text spells out, of whatever size. -/
def integer? (text : List Char) : Option Int :=
  let (negative, digits) := sign text
  if digits ≠ [] ∧ digits.all Char.isDigit then some (signed negative (value digits)) else none

/-- A decimal literal taken apart. -/
structure Literal where
  negative : Bool
  whole : List Char
  fraction : List Char
  exponent : Int
deriving DecidableEq, Repr

namespace Literal

/-- The power of ten at the end of a literal; none when the text ends here. -/
def exponent? : List Char → Option Int
  | [] => some 0
  | 'e' :: text => integer? text
  | 'E' :: text => integer? text
  | _ => none

/-- The digits after the point, if there is a point. -/
def pointed : List Char → List Char × List Char
  | '.' :: text => span text
  | text => ([], text)

/-- Takes apart a literal that fills the whole text. -/
def ofChars? (text : List Char) : Option Literal :=
  let (negative, text) := sign text
  let (whole, text) := span text
  let (fraction, text) := pointed text
  if whole = [] ∧ fraction = [] then none
  else (exponent? text).map fun exponent => ⟨negative, whole, fraction, exponent⟩

/-- The float nearest to `significand * 10 ^ exponent`. -/
def nearest (significand : Nat) (exponent : Int) : Float :=
  if exponent < 0 then Float.ofScientific significand true exponent.natAbs
  else Float.ofScientific significand false exponent.toNat

/-- The float nearest to the literal's value, infinite when it is out of range. -/
def toFloat (literal : Literal) : Float :=
  let size := nearest (value (literal.whole ++ literal.fraction))
    (literal.exponent - literal.fraction.length)
  if literal.negative then -size else size

end Literal

/-! ## The fewest digits that read back

A finite float stands for all the reals that round to it.  Its shortest decimal is the one on the
coarsest grid of powers of ten that has a point among them; of two such points the nearer one is
taken, and of two equally near ones the even one.  All comparisons are made on natural numbers, so
nothing is lost on the way. -/

/-- The number `mantissa * 2 ^ exponent`. -/
structure Binary where
  mantissa : Nat
  exponent : Int
deriving DecidableEq, Repr

/-- The number `digits * 10 ^ exponent`. -/
structure Scaled where
  digits : Nat
  exponent : Int
deriving DecidableEq, Repr

namespace Binary

/-- The least exponent of a float. -/
def leastExponent : Int := -1074

/-- The magnitude of a finite float; infinities and what is not a number have none. -/
def ofFloat? (f : Float) : Option Binary :=
  let bits := f.toBits.toNat
  let fraction := bits % Nat.pow 2 52
  let power : Nat := bits / Nat.pow 2 52 % Nat.pow 2 11
  if power = Nat.pow 2 11 - 1 then none
  else if power = 0 then some ⟨fraction, leastExponent⟩
  else some ⟨Nat.pow 2 52 + fraction, leastExponent + (power - 1 : Nat)⟩

/-- How far down the reals reach that round to this number, in quarters of its last place: half as
far below a power of two, where the floats lie twice as dense. -/
def reachDown (b : Binary) : Nat :=
  if b.mantissa = Nat.pow 2 52 ∧ leastExponent < b.exponent then 1 else 2

/-- Two natural numbers in the proportion of `quarters / 4 * 2 ^ exponent` to `10 ^ grid`. -/
def ratio (exponent : Int) (quarters : Nat) (grid : Int) : Nat × Nat :=
  (quarters * Nat.pow 2 (exponent - 2).toNat * Nat.pow 10 (-grid).toNat,
    Nat.pow 2 (2 - exponent).toNat * Nat.pow 10 grid.toNat)

/-- Whether the point `digits * 10 ^ grid` rounds to this number.  The two ends of the interval
belong to it when the mantissa is even. -/
def covers (b : Binary) (grid : Int) (digits : Nat) : Bool :=
  let (low, unit) := ratio b.exponent (4 * b.mantissa - b.reachDown) grid
  let (high, _) := ratio b.exponent (4 * b.mantissa + 2) grid
  let point := digits * unit
  if b.mantissa % 2 = 0 then low ≤ point && point ≤ high else low < point && point < high

/-- The point of a grid nearest to this number among the two around it that round to it. -/
def nearest? (b : Binary) (grid : Int) : Option Nat :=
  let (size, unit) := ratio b.exponent (4 * b.mantissa) grid
  let below := size / unit
  let rest := size % unit
  match b.covers grid below, b.covers grid (below + 1) with
  | true, true =>
    if 2 * rest < unit then some below
    else if unit < 2 * rest then some (below + 1)
    else if below % 2 = 0 then some below
    else some (below + 1)
  | true, false => some below
  | false, true => some (below + 1)
  | false, false => none

/-- Tries ever finer grids, as many as are allowed, and takes the first that has a point. -/
def search (b : Binary) : Nat → Int → Scaled
  | 0, grid => ⟨(ratio b.exponent (4 * b.mantissa) grid).1, grid⟩
  | tries + 1, grid =>
    match b.nearest? grid with
    | some digits => ⟨digits, grid⟩
    | none => search b tries (grid - 1)

/-- A grid too coarse to have a point near the number: a power of ten beyond it. -/
def coarseGrid (b : Binary) : Int :=
  (b.mantissa.log2 + 1 + b.exponent) * 30103 / 100000 + 2

/-- The shortest decimal of a number that is not zero.  Seventeen digits always suffice, and the
first grids tried are too coarse for one. -/
def shortest (b : Binary) : Scaled := search b 21 b.coarseGrid

end Binary

/-! ## How a decimal is written out

Positional for moderate sizes, always with a fraction, and with a power of ten for the rest.  The
bounds between the two are a choice of the format that writes the number. -/

/-- The powers of ten of the leading digit for which a number is written positionally. -/
structure Layout where
  lowest : Int
  highest : Int

namespace Layout

/-- Digits with the point after the first `places` of them, zeros filled in at either end. -/
def positional (digits : List Char) (places : Int) : List Char :=
  if places ≤ 0 then
    '0' :: '.' :: List.replicate (-places).toNat '0' ++ digits
  else if digits.length ≤ places.toNat then
    digits ++ List.replicate (places.toNat - digits.length) '0' ++ ['.', '0']
  else
    digits.take places.toNat ++ '.' :: digits.drop places.toNat

/-- One digit, a point and the others if there are any, and the signed power of ten. -/
def exponential (digits : List Char) (power : Int) : List Char :=
  let fraction := digits.drop 1
  digits.take 1 ++ (if fraction.isEmpty then [] else '.' :: fraction) ++
    'e' :: (if power < 0 then '-' else '+') :: Nat.toDigits 10 power.natAbs

/-- The text of a positive decimal. -/
def scaled (layout : Layout) (number : Scaled) : List Char :=
  let digits := Nat.toDigits 10 number.digits
  let power := number.exponent + digits.length - 1
  if layout.lowest ≤ power ∧ power ≤ layout.highest then positional digits (power + 1)
  else exponential digits power

/-- Whether the sign of a float is set; also zero has one. -/
def isNegative (f : Float) : Bool := f.toBits >>> 63 = 1

/-- The text of a finite float in its fewest digits; infinities and what is not a number have
none. -/
def float? (layout : Layout) (f : Float) : Option (List Char) :=
  (Binary.ofFloat? f).map fun binary =>
    (if isNegative f then ['-'] else []) ++
      if binary.mantissa = 0 then ['0', '.', '0'] else layout.scaled binary.shortest

end Layout

end Conform.Decimal

/-! ## Integers of 64 bits

Integers are kept in signed words of 64 bits where a value holds them.  An integer of any size has a
word when turning it into one and back loses nothing. -/

namespace Conform.Word

/-- Whether an integer has a word. -/
def fits (number : Int) : Bool := (Int64.ofInt number).toInt = number

/-- The word of an integer, if it has one. -/
def ofInt? (number : Int) : Option Int64 :=
  if fits number then some (Int64.ofInt number) else none

theorem fits_toInt (word : Int64) : fits word.toInt = true := by
  simp only [fits, Int64.ofInt_toInt, decide_true]

@[simp] theorem ofInt?_toInt (word : Int64) : ofInt? word.toInt = some word := by
  rw [ofInt?, if_pos (fits_toInt word), Int64.ofInt_toInt]

/-- A word is that of an integer exactly when it stands for it. -/
theorem ofInt?_eq_some_iff {number : Int} {word : Int64} :
    ofInt? number = some word ↔ word.toInt = number := by
  constructor
  · intro h
    unfold ofInt? at h
    split at h
    · next hfits =>
      obtain rfl := Option.some.inj h
      exact of_decide_eq_true hfits
    · cases h
  · intro h
    rw [← h, ofInt?_toInt]

end Conform.Word
