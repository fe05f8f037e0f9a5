import SchemaLedger.Text.Integer

/-!
# Binary floating-point numbers in texts

A `Double` is the bit pattern of a 64-bit binary floating-point number. Reading a
decimal rounds its exact value to the nearest such number, halves going to the even
significand. Writing picks, among all decimals that read back as the number, one with
the fewest digits, the nearest of those, and the greater one of two equally near; the
digits are set out positionally, without an exponent and without a fraction that is
zero. Everything is exact arithmetic on natural numbers.
-/

namespace SchemaLedger.Text

/-- A 64-bit binary floating-point number, given by its bit pattern. -/
structure Double where
  bits : UInt64
  deriving DecidableEq, Inhabited

namespace Double

/-- What a bit pattern stands for; a finite value is `significand · 2 ^ exponent`. -/
inductive Value where
  | nan
  | infinite (negative : Bool)
  | finite (negative : Bool) (significand : Nat) (exponent : Int)

/-- The sign bit. -/
def isNegative (d : Double) : Bool :=
  d.bits.toNat / Nat.pow 2 63 = 1

/-- Reads the bit pattern. -/
def value (d : Double) : Value :=
  let fraction := d.bits.toNat % Nat.pow 2 52
  let exponent : Nat := d.bits.toNat / Nat.pow 2 52 % Nat.pow 2 11
  if exponent = 2047 then
    if fraction = 0 then .infinite d.isNegative else .nan
  else if exponent = 0 then .finite d.isNegative fraction (-1074)
  else .finite d.isNegative (fraction + Nat.pow 2 52) ((exponent : Int) - 1075)

/-- Neither infinite nor a NaN. -/
def isFinite (d : Double) : Bool :=
  match d.value with
  | .finite .. => true
  | _ => false

/-- Sets the sign bit of a pattern below it. -/
def ofMagnitude (negative : Bool) (magnitude : Nat) : Double :=
  ⟨UInt64.ofNat ((if negative then Nat.pow 2 63 else 0) + magnitude)⟩

/-- Infinity of either sign. -/
def infinity (negative : Bool) : Double := ofMagnitude negative (2047 * Nat.pow 2 52)

/-- The NaN that texts name. -/
def nan : Double := ofMagnitude false (2047 * Nat.pow 2 52 + Nat.pow 2 51)

/-- The quotient to the nearest integer, halves to the even one. -/
def divToEven (num den : Nat) : Nat :=
  let q := num / den
  let twice := 2 * (num % den)
  if twice < den then q
  else if den < twice then q + 1
  else q + q % 2

/-- `num / den · 2 ^ (-e)` to the nearest integer. -/
def significandAt (num den : Nat) (e : Int) : Nat :=
  if 0 ≤ e then divToEven num (den * Nat.pow 2 e.toNat)
  else divToEven (num * Nat.pow 2 (-e).toNat) den

/-- Whether `num / den` is at least `2 ^ 53` units of `2 ^ e`. -/
def needsCoarser (num den : Nat) (e : Int) : Bool :=
  if 0 ≤ e then Nat.pow 2 53 * (den * Nat.pow 2 e.toNat) ≤ num
  else Nat.pow 2 53 * den ≤ num * Nat.pow 2 (-e).toNat

/-- The number nearest to `num / den`, of which `den` is positive. -/
def ofRatio (negative : Bool) (num den : Nat) : Double :=
  if num = 0 then ofMagnitude negative 0
  else
    let guess : Int := max ((num.log2 : Int) - den.log2 - 53) (-1074)
    let e := if needsCoarser num den guess then guess + 1 else guess
    let magnitude := (e + 1074).toNat * Nat.pow 2 52 + significandAt num den e
    if 2047 * Nat.pow 2 52 ≤ magnitude then infinity negative else ofMagnitude negative magnitude

/-- The number nearest to a natural number. -/
def ofNat (n : Nat) : Double := ofRatio false n 1

/-- The number nearest to an integer. -/
def ofInt (n : Int) : Double := ofRatio (n < 0) n.natAbs 1

/-- The number nearest to `digits · 10 ^ exponent`. Exponents far outside the range are
settled by the number of digits alone. -/
def ofScaled (negative : Bool) (digits : Nat) (exponent : Int) : Double :=
  let size : Int := (Nat.toDigits 10 digits).length + exponent
  if digits = 0 || size < -330 then ofMagnitude negative 0
  else if 400 < size then infinity negative
  else if 0 ≤ exponent then ofRatio negative (digits * Nat.pow 10 exponent.toNat) 1
  else ofRatio negative digits (Nat.pow 10 (-exponent).toNat)

/-! ## Reading -/

/-- The exponent part of a decimal: nothing, or `e` with an optional sign and digits. -/
def exponent? : List Char → Option Int
  | [] => some 0
  | c :: rest =>
    if c = 'e' || c = 'E' then
      match rest with
      | '-' :: r => (digits? 10 r).map fun n => -(n : Int)
      | '+' :: r => (digits? 10 r).map fun n => (n : Int)
      | _ => (digits? 10 rest).map fun n => (n : Int)
    else none

/-- A decimal without its sign: digits with an optional point, at least one digit in
all, then an optional exponent. -/
def magnitude? (negative : Bool) (s : List Char) : Option Double :=
  let whole := s.takeWhile Char.isDigit
  let rest := s.dropWhile Char.isDigit
  let (fraction, tail) := match rest with
    | '.' :: r => (r.takeWhile Char.isDigit, r.dropWhile Char.isDigit)
    | _ => ([], rest)
  if whole.isEmpty && fraction.isEmpty then none
  else
    (exponent? tail).bind fun e =>
      (digits? 10 (whole ++ fraction)).map fun n => ofScaled negative n (e - fraction.length)

/-- A decimal or the name of a special value in any letter case, with an optional sign. -/
def ofText? (s : String) : Option Double :=
  let (negative, body) := match s.toList with
    | '-' :: r => (true, r)
    | '+' :: r => (false, r)
    | r => (false, r)
  let name := String.ofList (body.map Char.toLower)
  if name = "inf" || name = "infinity" then some (infinity negative)
  else if name = "nan" then some nan
  else magnitude? negative body

/-! ## Writing -/

/-- `10 ^ k` as a fraction. -/
def powerOfTen (k : Int) : Nat × Nat :=
  if 0 ≤ k then (Nat.pow 10 k.toNat, 1) else (1, Nat.pow 10 (-k).toNat)

/-- On the grid of multiples of `10 ^ k`: of the two neighbours of `num / den` those that
lie between `lo / (4 · den)` and `hi / (4 · den)`, the nearer one if both do. -/
def gridPoint? (num den lo hi : Nat) (closed : Bool) (k : Int) : Option Nat :=
  let (a, b) := powerOfTen k
  let below := num * b / (a * den)
  let within (c : Nat) : Bool :=
    let x := c * a * 4 * den
    if closed then lo * b ≤ x && x ≤ hi * b else lo * b < x && x < hi * b
  match within below, within (below + 1) with
  | true, true => some (if (2 * below + 1) * (a * den) ≤ 2 * (num * b) then below + 1 else below)
  | true, false => some below
  | false, true => some (below + 1)
  | false, false => none

/-- The decimal exponent of the leading digit of `num / den`, for values above `10 ^ -400`. -/
def leadingExponent (num den : Nat) : Int :=
  ((Nat.toDigits 10 (num * Nat.pow 10 400 / den)).length : Int) - 401

/-- The shortest decimal `digits · 10 ^ k` that reads back as `significand · 2 ^ exponent`. -/
def shortest (significand : Nat) (exponent : Int) : Nat × Int :=
  let (num, den) :=
    if 0 ≤ exponent then (significand * Nat.pow 2 exponent.toNat, 1)
    else (significand, Nat.pow 2 (-exponent).toNat)
  let unit := if 0 ≤ exponent then Nat.pow 2 exponent.toNat else 1
  let narrow := significand = Nat.pow 2 52 && exponent ≠ -1074
  let lo := 4 * num - (if narrow then 1 else 2) * unit
  let hi := 4 * num + 2 * unit
  let top := leadingExponent num den
  let grids := (List.range 17).map fun (n : Nat) => top - (n : Int)
  match grids.findSome? fun k => (gridPoint? num den lo hi (significand % 2 = 0) k).map (·, k) with
  | some r => r
  | none => (0, 0)

/-- Sets out `digits · 10 ^ k` positionally. -/
def positional (digits : Nat) (k : Int) : String :=
  let all := (Nat.toDigits 10 digits).reverse
  let ds := (all.dropWhile (· = '0')).reverse
  let k := k + ((all.takeWhile (· = '0')).length : Int)
  let point : Int := ds.length + k
  if point ≤ 0 then
    "0." ++ String.ofList (List.replicate (-point).toNat '0' ++ ds)
  else if ds.length ≤ point then
    String.ofList (ds ++ List.replicate k.toNat '0')
  else
    String.ofList (ds.take point.toNat ++ '.' :: ds.drop point.toNat)

/-- The text of a number: the shortest decimal that reads back, positional, a sign for
negative zero too. -/
def toText (d : Double) : String :=
  match d.value with
  | .nan => "NaN"
  | .infinite negative => if negative then "-inf" else "inf"
  | .finite negative significand exponent =>
    let body :=
      if significand = 0 then "0"
      else
        let (digits, k) := shortest significand exponent
        positional digits k
    if negative then "-" ++ body else body

/-- The text of a number with a fraction, `.0` if it would have none. -/
def toTextWithPoint (d : Double) : String :=
  let text := d.toText
  if d.isFinite && !text.toList.contains '.' then text ++ ".0" else text

/-- The integer part of a finite number. -/
def truncate? (d : Double) : Option Int :=
  match d.value with
  | .finite negative significand exponent =>
    let n : Nat :=
      if 0 ≤ exponent then significand * Nat.pow 2 exponent.toNat
      else significand / Nat.pow 2 (-exponent).toNat
    some (if negative then -(n : Int) else n)
  | _ => none

end Double

end SchemaLedger.Text
