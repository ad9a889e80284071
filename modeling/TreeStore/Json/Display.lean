import TreeStore.Json
import TreeStore.Number.Shortest
import TreeStore.Text.Integer
import TreeStore.Text.Quoted

/-!
# Values in words

The text of a JSON value in a message: a string alone stands for itself, inside a list or an object
it is quoted; `null`, `true` and `false` are written `None`, `True` and `False`.  An integer with
more than `Text.maxDigits` digits has no text, and neither has a value that holds one.
-/

namespace TreeStore

/-- How a double is written: positional notation for leading exponents from `least` up to `most`,
and at least `exponentDigits` digits in the exponent otherwise. -/
structure DoubleStyle where
  least : Int
  most : Int
  exponentDigits : Nat

/-- Positional from `0.0001` up to below `10 ^ 16`; two digits or more in an exponent. -/
def DoubleStyle.message : DoubleStyle := ⟨-4, 15, 2⟩

namespace Double

/-- Zeros in front of a text up to a length. -/
def padZeros (width : Nat) (s : String) : String :=
  String.ofList (List.replicate (width - s.length) '0') ++ s

/-- The text of a positive decimal in the given style. -/
def Decimal.write (style : DoubleStyle) (d : Decimal) : String :=
  let ds := (toString d.digits).toList
  let lead := d.exponent + ds.length - 1
  if style.least ≤ lead ∧ lead ≤ style.most then
    if lead < 0 then
      "0." ++ String.ofList (List.replicate (-lead - 1).toNat '0' ++ ds)
    else
      let whole := lead.toNat + 1
      if ds.length ≤ whole then
        String.ofList (ds ++ List.replicate (whole - ds.length) '0') ++ ".0"
      else String.ofList (ds.take whole ++ '.' :: ds.drop whole)
  else
    let rest := ds.drop 1
    let mantissa := ds.take 1 ++ (if rest.isEmpty then [] else '.' :: rest)
    let sign := if lead < 0 then "e-" else "e+"
    String.ofList mantissa ++ sign ++ padZeros style.exponentDigits (toString lead.natAbs)

/-- The shortest text that reads back as the double. -/
def write (style : DoubleStyle) : Double → String
  | finite neg m e =>
    let text := if m = 0 then "0.0" else (shortest m e).write style
    if neg then "-" ++ text else text
  | infinite neg => if neg then "-inf" else "inf"
  | nan => "nan"

end Double

namespace Json

/-- `True` or `False`. -/
def displayBool (b : Bool) : String := if b then "True" else "False"

mutual
/-- The text of a value inside another one, where strings are quoted. -/
def display : Json → Option String
  | null => some "None"
  | bool b => some (displayBool b)
  | int n => Text.writeInteger? n
  | double x => some (x.write DoubleStyle.message)
  | str s => some (Text.quoted s)
  | arr xs => (displayItems xs).map fun texts => "[" ++ ", ".intercalate texts ++ "]"
  | obj fs => (displayFields fs).map fun texts => "\x7b" ++ ", ".intercalate texts ++ "\x7d"

/-- The texts of the items of a list. -/
def displayItems : List Json → Option (List String)
  | [] => some []
  | x :: xs => do return (← display x) :: (← displayItems xs)

/-- The texts of the fields of an object. -/
def displayFields : List (String × Json) → Option (List String)
  | [] => some []
  | (name, x) :: fs => do
    return (Text.quoted name ++ ": " ++ (← display x)) :: (← displayFields fs)
end

/-- The text of a value as a message: a string stands for itself. -/
def asMessage : Json → Option String
  | str s => some s
  | v => v.display

/-- The word for the kind of a value in a message. -/
def kindName : Json → String
  | null => "NoneType"
  | bool _ => "bool"
  | int _ => "int"
  | double _ => "float"
  | str _ => "str"
  | arr _ => "list"
  | obj _ => "dict"

@[simp] theorem asMessage_str (s : String) : (str s).asMessage = some s := rfl

end Json

end TreeStore
