import LdbBackend.Lib.Normal
import LdbBackend.Lib.Numeral
import LdbBackend.Model.Json

/-!
# Display of amounts

`app/utils/formatting.py`.
-/

namespace LdbBackend

open Fixed

/-- What `format_amount` is given: a `Decimal`, or any other value. -/
inductive AmountValue
  | decimal (d : Decimal)
  | json (value : Json)

namespace AmountValue

/-- `value is None or value == ""`. -/
def isBlank : AmountValue → Bool
  | decimal _ => false
  | json .null => true
  | json value => value.isText ""

/-- `str(value)`. -/
def text : AmountValue → String
  | decimal d => d.str
  | json value => value.text

@[simp] theorem isBlank_decimal (d : Decimal) : (decimal d).isBlank = false := rfl

end AmountValue

def decimalToFloatStr (value : Decimal) : String := value.fixedText false

/-- `text.rstrip(c)`. -/
def rstrip (c : Char) (text : String) : String :=
  String.ofList (text.toList.reverse.dropWhile (· = c)).reverse

/-- An integral amount at exponent 0, any other without trailing zeros in its coefficient. -/
def normalizedAmount (amount : Decimal) : Except Err Decimal :=
  if amount.sameValue amount.toIntegralValue then
    match amount.quantizeUnits with
    | some units => .ok units
    | none => .error .invalidOperation
  else .ok (Decimal.fix amount).normalize

def formatAmount (value : AmountValue) : Except Err String :=
  if value.isBlank then .ok ""
  else
    match Decimal.ofString value.text with
    | none => .ok value.text
    | some amount => do
      let normalized ← normalizedAmount amount
      let formatted := normalized.fixedText true
      if '.' ∈ formatted.toList then return rstrip '.' (rstrip '0' formatted)
      else return formatted

end LdbBackend
