import Mathlib.Algebra.Order.Ring.Int
import QuizApp.Js.Numeric

/-! ECMAScript's StringToNumber.  A numeric literal stands for a mathematical value,
`n * 10 ^ e` or infinity, which is rounded to the nearest Number value, ties to even. -/

namespace QuizApp.Js

/-- A Number value; the finite ones are `significand * 2 ^ exponent` with a sign. -/
inductive Number
  | nan
  | infinite (negative : Bool)
  | finite (negative : Bool) (significand : Nat) (exponent : Int)
  deriving DecidableEq

def Number.IsNonNegative : Number → Prop
  | .nan | .infinite _ => False
  | .finite negative significand _ => negative = true → significand = 0

instance : DecidablePred Number.IsNonNegative
  | .nan | .infinite _ => inferInstanceAs (Decidable False)
  | .finite _ _ _ => inferInstanceAs (Decidable (_ → _))

inductive Magnitude
  | infinity
  | scaled (n : Nat) (e : Int)
  deriving DecidableEq

def roundQuotient (n d : Nat) : Nat :=
  let q := n / d
  let r := n % d
  if 2 * r < d then q else if d < 2 * r then q + 1 else q + q % 2

def binaryExponent (n d : Nat) : Int :=
  let k : Int := n.log2 - d.log2
  if d * 2 ^ k.toNat ≤ n * 2 ^ (-k).toNat then k else k - 1

/-- `n / d` rounded to 53 significant bits, or to a multiple of `2 ^ -1074` below them. -/
def roundToDouble (negative : Bool) (n d : Nat) : Number :=
  if n = 0 then .finite negative 0 0
  else
    let e := max (binaryExponent n d - 52) (-1074)
    let q := roundQuotient (n * 2 ^ (-e).toNat) (d * 2 ^ e.toNat)
    if q ≠ 0 ∧ 1024 ≤ (q.log2 : Int) + e then .infinite negative else .finite negative q e

def Magnitude.toNumber (negative : Bool) : Magnitude → Number
  | .infinity => .infinite negative
  | .scaled n e => roundToDouble negative (n * 10 ^ e.toNat) (10 ^ (-e).toNat)

def digitValue (c : UInt16) : Nat :=
  if isDigit c then (c - unit '0').toNat
  else if unit 'a' ≤ c then (c - unit 'a').toNat + 10
  else (c - unit 'A').toNat + 10

def digitsValue (base : Nat) (s : JsString) : Nat :=
  s.foldl (fun n c => base * n + digitValue c) 0

def exponentValue : JsString → Int
  | _ :: c :: s =>
    if c == unit '-' then -digitsValue 10 s
    else if c == unit '+' then digitsValue 10 s
    else digitsValue 10 (c :: s)
  | _ => 0

def unsignedDecimalValue (s : JsString) : Magnitude :=
  let whole := s.takeWhile isDigit
  match s.dropWhile isDigit with
  | c :: rest =>
    if c == unit '.' then
      let fraction := rest.takeWhile isDigit
      .scaled (digitsValue 10 (whole ++ fraction))
        (exponentValue (rest.dropWhile isDigit) - fraction.length)
    else .scaled (digitsValue 10 whole) (exponentValue (c :: rest))
  | [] => .scaled (digitsValue 10 whole) 0

def isNegative (s : JsString) : Bool := s.head? == some (unit '-')

def nonDecimalBase : JsString → Nat
  | _ :: x :: _ =>
    if x == unit 'x' || x == unit 'X' then 16 else if x == unit 'o' || x == unit 'O' then 8 else 2
  | _ => 0

def numericLiteral? (s : JsString) : Option (Bool × Magnitude) :=
  if dropSign s == JsString.lit "Infinity" then some (isNegative s, .infinity)
  else if isUnsignedDecimal (dropSign s) then some (isNegative s, unsignedDecimalValue (dropSign s))
  else if isNonDecimalLiteral s then
    some (false, .scaled (digitsValue (nonDecimalBase s) (s.drop 2)) 0)
  else none

def stringToNumber (s : JsString) : Number :=
  if (trim s).isEmpty then .finite false 0 0
  else
    match numericLiteral? (trim s) with
    | some (negative, m) => m.toNumber negative
    | none => .nan

theorem numericLiteral?_isSome (s : JsString) :
    (numericLiteral? s).isSome = (isDecimalLiteral s || isNonDecimalLiteral s) := by
  simp only [numericLiteral?, isDecimalLiteral]
  cases dropSign s == JsString.lit "Infinity" <;> cases isUnsignedDecimal (dropSign s) <;>
    cases isNonDecimalLiteral s <;> rfl

theorem roundToDouble_ne_nan (negative : Bool) (n d : Nat) : roundToDouble negative n d ≠ .nan := by
  simp only [roundToDouble]
  split
  · simp
  · split <;> simp

theorem Magnitude.toNumber_ne_nan (negative : Bool) (m : Magnitude) : m.toNumber negative ≠ .nan := by
  cases m with
  | infinity => simp [toNumber]
  | scaled n e => exact roundToDouble_ne_nan _ _ _

theorem isNaN_iff (s : JsString) : isNaN s = true ↔ stringToNumber s = .nan := by
  have hsome := numericLiteral?_isSome (trim s)
  simp only [isNaN, stringToNumber, Bool.or_assoc, ← hsome]
  cases (trim s).isEmpty with
  | true => simp
  | false =>
    cases numericLiteral? (trim s) with
    | none => simp
    | some r => simp [Magnitude.toNumber_ne_nan]

example :
    ["0.1", "-0", "9007199254740993", "5e-324", "2e-324", "-1e-400", "1.7976931348623158e308",
      "1.7976931348623159e308", "-Infinity", " 0x1F ", "", "12px"].map
        (fun s => stringToNumber (.lit s)) =
      [.finite false 0x1999999999999A (-56), .finite true 0 0, .finite false 0x10000000000000 1,
        .finite false 1 (-1074), .finite false 0 (-1074), .finite true 0 (-1074),
        .finite false 0x1FFFFFFFFFFFFF 971, .infinite false, .infinite true,
        .finite false 0x1F000000000000 (-48), .finite false 0 0, .nan] := by
  decide +kernel

end QuizApp.Js
