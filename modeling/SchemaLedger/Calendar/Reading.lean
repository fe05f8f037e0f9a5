import SchemaLedger.Calendar.Moment
import SchemaLedger.Text.Blank

/-!
# Reading moments

A moment is written as `YYYY-MM-DD HH:MM:SS`, with a fraction of a second behind it if
there is one. Blanks may stand in front of every number, and the one between date and time
may be missing or be several. A year with a sign may have any number of digits.
-/

namespace SchemaLedger

/-- Why a text is no moment. -/
inductive MomentFault where
  | endsEarly
  | goesOn
  | unexpectedCharacter
  | outOfRange
  deriving DecidableEq

/-- The wording of a fault. -/
def MomentFault.message : MomentFault → String
  | .endsEarly => "premature end of input"
  | .goesOn => "trailing input"
  | .unexpectedCharacter => "input contains invalid characters"
  | .outOfRange => "input is out of range"

namespace Moment

/-- A reader takes something off the front of a text. -/
abbrev Reader := StateT (List Char) (Except MomentFault)

namespace Reader

/-- Passes blanks. -/
def skipBlanks : Reader Unit := modify (·.dropWhile Text.isBlank)

/-- Passes one character. -/
def expect (c : Char) : Reader Unit := fun s =>
  match s with
  | [] => .error .endsEarly
  | d :: rest => if c = d then .ok ((), rest) else .error .unexpectedCharacter

/-- Takes digits, not more than `width` if that is given. There has to be one. -/
def digits (width : Option Nat) : Reader (List Char) := fun s =>
  match s with
  | [] => .error .endsEarly
  | _ =>
    let all := s.takeWhile Char.isDigit
    let taken := match width with
      | some n => all.take n
      | none => all
    if taken.isEmpty then .error .unexpectedCharacter else .ok (taken, s.drop taken.length)

/-- The number that digits spell out. -/
def valueOf (digits : List Char) : Nat :=
  digits.foldl (fun n d => n * 10 + (d.toNat - '0'.toNat)) 0

/-- Takes a number of at most two digits that lies between `lo` and `hi`. -/
def field (lo hi : Nat) : Reader Nat := do
  skipBlanks
  let n := valueOf (← digits (some 2))
  if lo ≤ n && n ≤ hi then return n else throw .outOfRange

/-- A year has to fit signed 32 bits. -/
def checkYear (year : Int) : Reader Int :=
  if -2147483648 ≤ year && year ≤ 2147483647 then return year else throw .outOfRange

/-- Takes a year. -/
def year : Reader Int := do
  skipBlanks
  match (← get).head? with
  | some '-' => do
    expect '-'
    checkYear (-(valueOf (← digits none) : Int))
  | some '+' => do
    expect '+'
    checkYear (valueOf (← digits none))
  | _ => return valueOf (← digits (some 4))

/-- Takes a fraction of a second if there is one. Digits after the ninth do not count. -/
def fraction : Reader Nat := do
  match (← get).head? with
  | some '.' => do
    expect '.'
    let nine ← digits (some 9)
    modify (·.dropWhile Char.isDigit)
    return valueOf nine * Nat.pow 10 (9 - nine.length)
  | _ => return 0

/-- Takes a moment. -/
def moment : Reader Moment := do
  let year ← year
  expect '-'
  let month ← field 1 12
  expect '-'
  let day ← field 1 31
  skipBlanks
  let hour ← field 0 23
  expect ':'
  let minute ← field 0 59
  expect ':'
  let second ← field 0 60
  return { year, month, day, hour, minute, second, nanosecond := ← fraction }

end Reader

/-- The moment that a text is. -/
def ofText (s : String) : Except MomentFault Moment :=
  match Reader.moment s.toList with
  | .error fault => .error fault
  | .ok (m, rest) =>
    if rest ≠ [] then .error .goesOn else if m.isDate then .ok m else .error .outOfRange

end Moment

end SchemaLedger
