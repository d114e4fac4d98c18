import QuizApp.Js.Text

namespace QuizApp.Js

def unit (c : Char) : UInt16 := UInt16.ofNat c.toNat

def isDigit (c : UInt16) : Bool := unit '0' ≤ c && c ≤ unit '9'

def isHexDigit (c : UInt16) : Bool :=
  isDigit c || (unit 'a' ≤ c && c ≤ unit 'f') || (unit 'A' ≤ c && c ≤ unit 'F')

def isOctalDigit (c : UInt16) : Bool := unit '0' ≤ c && c ≤ unit '7'

def isBinaryDigit (c : UInt16) : Bool := c == unit '0' || c == unit '1'

def isDigits (digit : UInt16 → Bool) (s : JsString) : Bool := !s.isEmpty && s.all digit

def dropSign : JsString → JsString
  | c :: s => if c == unit '+' || c == unit '-' then s else c :: s
  | [] => []

def isExponent : JsString → Bool
  | [] => true
  | c :: s => (c == unit 'e' || c == unit 'E') && isDigits isDigit (dropSign s)

def isUnsignedDecimal (s : JsString) : Bool :=
  let whole := s.takeWhile isDigit
  match s.dropWhile isDigit with
  | c :: rest =>
    if c == unit '.' then
      (!whole.isEmpty || !(rest.takeWhile isDigit).isEmpty) && isExponent (rest.dropWhile isDigit)
    else !whole.isEmpty && isExponent (c :: rest)
  | [] => !whole.isEmpty

def isDecimalLiteral (s : JsString) : Bool :=
  dropSign s == JsString.lit "Infinity" || isUnsignedDecimal (dropSign s)

def isNonDecimalLiteral : JsString → Bool
  | z :: x :: digits =>
    z == unit '0' &&
      (((x == unit 'x' || x == unit 'X') && isDigits isHexDigit digits) ||
        ((x == unit 'o' || x == unit 'O') && isDigits isOctalDigit digits) ||
        ((x == unit 'b' || x == unit 'B') && isDigits isBinaryDigit digits))
  | _ => false

/-- `isNaN(s)` of a string: white space around the literal is skipped, and a
string of nothing but white space denotes 0. -/
def isNaN (s : JsString) : Bool :=
  !((trim s).isEmpty || isDecimalLiteral (trim s) || isNonDecimalLiteral (trim s))

example : (["", " \n", "7", "-3", "+.5e-2", "12.", "0x1F", "0b10", "-Infinity"].map
    fun s => isNaN (JsString.lit s)) = List.replicate 9 false := by decide

example : (["abc", "1e", ".", "0x", "-0x1", "1_000", "12px", "1 2", "infinity"].map
    fun s => isNaN (JsString.lit s)) = List.replicate 9 true := by decide

end QuizApp.Js
