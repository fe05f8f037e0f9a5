/-!
# Integers in texts

Digits are read in a given radix, both letter cases counting alike, and never with
separators. The signed form takes one optional sign. Range limits are arguments, so
that one reader serves every width: a text that names a number outside the range is
not an integer of that width.
-/

namespace SchemaLedger.Text

/-- The value of a digit, letters following nine. -/
def digitValue? (radix : Nat) (c : Char) : Option Nat :=
  let v :=
    if '0' ≤ c && c ≤ '9' then some (c.toNat - '0'.toNat)
    else if 'a' ≤ c && c ≤ 'z' then some (c.toNat - 'a'.toNat + 10)
    else if 'A' ≤ c && c ≤ 'Z' then some (c.toNat - 'A'.toNat + 10)
    else none
  v.filter (· < radix)

/-- The number that digits spell out after `acc` has been read. -/
def digitsFrom? (radix : Nat) (acc : Nat) : List Char → Option Nat
  | [] => some acc
  | c :: rest => (digitValue? radix c).bind fun v => digitsFrom? radix (acc * radix + v) rest

/-- A non-empty run of digits. -/
def digits? (radix : Nat) (s : List Char) : Option Nat :=
  if s.isEmpty then none else digitsFrom? radix 0 s

/-- A non-negative integer of at most `hi`, with an optional plus sign. -/
def natural? (radix hi : Nat) (s : List Char) : Option Nat :=
  let unsigned := match s with
    | '+' :: rest => rest
    | _ => s
  (digits? radix unsigned).filter (· ≤ hi)

/-- An integer between `lo` and `hi`, with an optional sign. -/
def integer? (radix : Nat) (lo hi : Int) (s : List Char) : Option Int :=
  let n := match s with
    | '-' :: rest => (digits? radix rest).map fun n => -(n : Int)
    | '+' :: rest => (digits? radix rest).map fun n => (n : Int)
    | _ => (digits? radix s).map fun n => (n : Int)
  n.filter fun n => lo ≤ n && n ≤ hi

/-- The least and greatest signed 64-bit integers. -/
def int64Min : Int := -9223372036854775808

/-- The greatest signed 64-bit integer. -/
def int64Max : Int := 9223372036854775807

/-- A decimal integer that fits signed 64 bits. -/
def int64? (s : String) : Option Int :=
  integer? 10 int64Min int64Max s.toList

/-- The greatest unsigned 64-bit integer. -/
def uint64Max : Nat := 18446744073709551615

/-- The greatest unsigned 128-bit integer. -/
def uint128Max : Nat := 340282366920938463463374607431768211455

/-- The least signed 128-bit integer. -/
def int128Min : Int := -170141183460469231731687303715884105728

/-- The greatest signed 128-bit integer. -/
def int128Max : Int := 170141183460469231731687303715884105727

/-- A number with leading zeros, at least `width` digits long. -/
def zeroPadded (width n : Nat) : String :=
  let digits := toString n
  String.ofList (List.replicate (width - digits.length) '0') ++ digits

end SchemaLedger.Text
