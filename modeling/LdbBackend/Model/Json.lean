import LdbBackend.Lib.Binary

/-!
# JSON values as the handlers see them

The values `json.loads` yields and what the handlers do with them: truthiness, `dict.get`, `or`,
`str` and `Decimal(str(x))`. A float is kept as the number its text reads as. Calling `get` on
anything but an object raises `AttributeError`.
-/

namespace LdbBackend

open Fixed

inductive Json
  | null
  | bool (b : Bool)
  | int (n : Int)
  | float (d : Decimal)
  | str (s : String)
  | arr (items : List Json)
  | obj (fields : List (String × Json))

/-- The exceptions that leave a handler. `http` is the `ErrorResponse` of `error_response`. -/
inductive Err
  | http (status : Nat) (message : String) (errors : Option (List String))
  | attributeError
  | valueError
  | invalidOperation
  | typeError
  | validationError
  | integrityError
  | multipleObjectsReturned
  | dataError
  | runtimeError (message : String)
  | invalidUrl
  | cancelled
  deriving DecidableEq, Repr

/-- `text.replace(" ", "")`. -/
def removeSpaces (text : String) : String := String.ofList (text.toList.filter (· ≠ ' '))

/-- The text of a float, from the number it reads as: exponents have at least two digits. -/
def floatText (d : Decimal) : String :=
  let (mantissa, exponent) := (d.str.toList.takeWhile (· ≠ 'E'), d.str.toList.dropWhile (· ≠ 'E'))
  match exponent with
  | 'E' :: sign :: [digit] => String.ofList (mantissa ++ ['e', sign, '0', digit])
  | 'E' :: rest => String.ofList (mantissa ++ 'e' :: rest)
  | _ => String.ofList mantissa

/-- Python's quoted form of a text. Characters outside ASCII are taken as printable. -/
def quoted (s : String) : String :=
  let quote := if s.toList.contains '\'' && !s.toList.contains '"' then '"' else '\''
  let hex (n : Nat) : List Char := [Nat.digitChar (n / 16), Nat.digitChar (n % 16)]
  let escape (c : Char) : List Char :=
    if c = quote ∨ c = '\\' then ['\\', c]
    else if c = '\n' then ['\\', 'n']
    else if c = '\r' then ['\\', 'r']
    else if c = '\t' then ['\\', 't']
    else if c.toNat < 32 ∨ c.toNat = 127 then ['\\', 'x'] ++ hex c.toNat
    else [c]
  String.ofList (quote :: s.toList.flatMap escape ++ [quote])

namespace Json

def truthy : Json → Bool
  | null => false
  | bool b => b
  | int n => n != 0
  | float d => !d.isZero
  | str s => s != ""
  | arr items => !items.isEmpty
  | obj fields => !fields.isEmpty

/-- `a or b`. -/
def orElse (a b : Json) : Json := if a.truthy then a else b

/-- `value == text`. -/
def isText (text : String) : Json → Bool
  | str s => s == text
  | _ => false

/-- `value.get(key, default)`. -/
def get (value : Json) (key : String) (default : Json) : Except Err Json :=
  match value with
  | obj fields => .ok ((fields.lookup key).getD default)
  | _ => .error .attributeError

mutual

/-- `repr(value)`. -/
def repr : Json → String
  | null => "None"
  | bool b => if b then "True" else "False"
  | int n => toString n
  | float d => floatText d
  | str s => quoted s
  | arr items => "[" ++ ", ".intercalate (reprItems items) ++ "]"
  | obj fields => "\x7b" ++ ", ".intercalate (reprFields fields) ++ "\x7d"

def reprItems : List Json → List String
  | [] => []
  | item :: items => repr item :: reprItems items

def reprFields : List (String × Json) → List String
  | [] => []
  | (key, value) :: fields => (quoted key ++ ": " ++ repr value) :: reprFields fields

end

/-- `str(value)`. -/
def text : Json → String
  | str s => s
  | value => value.repr

@[simp] theorem text_str (s : String) : (Json.str s).text = s := rfl

mutual

/-- What a JSON column takes: `orjson` writes no integer beyond 64 bits, and PostgreSQL knows no U+0000. -/
def storable : Json → Bool
  | int n => decide (-2 ^ 63 ≤ n ∧ n < 2 ^ 64)
  | str s => !s.toList.contains '\x00'
  | arr items => storableItems items
  | obj fields => storableFields fields
  | null | bool _ | float _ => true

def storableItems : List Json → Bool
  | [] => true
  | item :: items => storable item && storableItems items

def storableFields : List (String × Json) → Bool
  | [] => true
  | (key, value) :: fields => !key.toList.contains '\x00' && storable value && storableFields fields

end

mutual

/-- How deep arrays and objects are nested. -/
def depth : Json → Nat
  | arr items => depthItems items + 1
  | obj fields => depthFields fields + 1
  | null | bool _ | int _ | float _ | str _ => 0

def depthItems : List Json → Nat
  | [] => 0
  | item :: items => max (depth item) (depthItems items)

def depthFields : List (String × Json) → Nat
  | [] => 0
  | (_, value) :: fields => max (depth value) (depthFields fields)

end

/-- `Decimal(str(value))`; anything that does not read as a number raises `InvalidOperation`. -/
def toDecimal : Json → Except Err Decimal
  | int n => .ok ⟨decide (n < 0), n.natAbs, 0⟩
  | float d => .ok d
  | str s => match Decimal.ofString s with
    | some d => .ok d
    | none => .error .invalidOperation
  | _ => .error .invalidOperation

end Json

end LdbBackend
