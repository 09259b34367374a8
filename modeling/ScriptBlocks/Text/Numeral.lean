import ScriptBlocks.Text.Blank
import ScriptBlocks.Text.DecimalDigit

/-!
# Integer numerals

`readInt?` reads an integer in decimal.  Blanks may stand around it, though not the information
separators; a sign may come first; the digits may be those of any script; and a single underscore
may stand between two digits.  A numeral of more than `maxDigits` digits is refused.
-/

namespace ScriptBlocks.Text.Numeral

/-- The greatest number of digits that are read, leading zeros counted. -/
def maxDigits : Nat := 4300

/-- Whether the character may stand around a numeral. -/
def isMargin (c : Char) : Bool := isBlank c && !(0x1C ≤ c.toNat && c.toNat ≤ 0x1F)

/-- The digits that follow a digit. -/
def moreDigits? : List Char → Option (List Nat)
  | [] => some []
  | '_' :: c :: s => do
    let d ← digitValue? c
    let ds ← moreDigits? s
    return d :: ds
  | c :: s => do
    let d ← digitValue? c
    let ds ← moreDigits? s
    return d :: ds

/-- The digits of an unsigned numeral, most significant first. -/
def digits? : List Char → Option (List Nat)
  | [] => none
  | c :: s => do
    let d ← digitValue? c
    let ds ← moreDigits? s
    return d :: ds

/-- The value of digits, most significant first. -/
def value (digits : List Nat) : Nat := digits.foldl (fun n d => 10 * n + d) 0

/-- Reads an unsigned numeral. -/
def readNat? (s : List Char) : Option Nat := do
  let ds ← digits? s
  if maxDigits < ds.length then none else some (value ds)

/-- The text without the margins at its ends. -/
def withoutMargins (s : List Char) : List Char :=
  ((s.dropWhile isMargin).reverse.dropWhile isMargin).reverse

def readInt? (s : String) : Option Int :=
  match withoutMargins s.toList with
  | '-' :: s => (readNat? s).map fun n => -(n : Int)
  | '+' :: s => (readNat? s).map fun n => (n : Int)
  | s => (readNat? s).map fun n => (n : Int)

end ScriptBlocks.Text.Numeral
