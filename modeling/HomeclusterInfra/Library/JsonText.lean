import HomeclusterInfra.Library.Binary64

/-!
# JSON text

JSON values and their serialization by Python's `json.dumps`, with and without
`ensure_ascii`, and with the default or the compact separators.
-/

set_option autoImplicit false

namespace HomeclusterInfra.JsonText

open Text

inductive Json where
  | null
  | bool (value : Bool)
  | int (value : Int)
  /-- A nonnegative double. -/
  | float (value : Rat)
  | str (value : List Char)
  | arr (items : List Json)
  | obj (fields : List (List Char × Json))

/-- A string literal as a JSON string. -/
def Json.text (value : String) : Json :=
  .str value.toList

/-- An object whose keys are string literals. -/
def Json.object (fields : List (String × Json)) : Json :=
  .obj (fields.map fun field => (field.1.toList, field.2))

/-- How `json.dumps` is called. -/
structure Style where
  ensureAscii : Bool := true
  itemSeparator : List Char := ", ".toList
  keySeparator : List Char := ": ".toList

/-- The separators `(',', ':')`. -/
def Style.compact (ensureAscii : Bool) : Style :=
  ⟨ensureAscii, [','], [':']⟩

def intText : Int → List Char
  | .ofNat n => natText n
  | .negSucc n => '-' :: natText (n + 1)

/-- Four lower-case hexadecimal digits. -/
def hex4 (code : Nat) : List Char :=
  let digits := Nat.toDigits 16 code
  List.replicate (4 - digits.length) '0' ++ digits

def unicodeEscape (code : Nat) : List Char :=
  '\\' :: 'u' :: hex4 code

/-- One character inside a JSON string. -/
def escapeChar (style : Style) (char : Char) : List Char :=
  let code := char.toNat
  if char = '"' then ['\\', '"']
  else if char = '\\' then ['\\', '\\']
  else if char = '\n' then ['\\', 'n']
  else if char = '\r' then ['\\', 'r']
  else if char = '\t' then ['\\', 't']
  else if code = 12 then ['\\', 'f']
  else if code = 8 then ['\\', 'b']
  else if code < 32 then unicodeEscape code
  else if style.ensureAscii && 126 < code then
    if code < 0x10000 then unicodeEscape code
    else
      let offset := code - 0x10000
      unicodeEscape (0xd800 + offset / 0x400) ++ unicodeEscape (0xdc00 + offset % 0x400)
  else [char]

def stringText (style : Style) (value : List Char) : List Char :=
  '"' :: value.flatMap (escapeChar style) ++ ['"']

mutual
/-- `json.dumps`. -/
def dumps (style : Style) : Json → List Char
  | .null => "null".toList
  | .bool true => "true".toList
  | .bool false => "false".toList
  | .int value => intText value
  | .float value => Binary64.reprText value
  | .str value => stringText style value
  | .arr items => '[' :: dumpsItems style items ++ [']']
  | .obj fields => '\x7b' :: dumpsFields style fields ++ ['\x7d']

def dumpsItems (style : Style) : List Json → List Char
  | [] => []
  | [item] => dumps style item
  | item :: items => dumps style item ++ style.itemSeparator ++ dumpsItems style items

def dumpsFields (style : Style) : List (List Char × Json) → List Char
  | [] => []
  | [(key, value)] => stringText style key ++ style.keySeparator ++ dumps style value
  | (key, value) :: fields =>
      stringText style key ++ style.keySeparator ++ dumps style value ++
        style.itemSeparator ++ dumpsFields style fields
end

/-- `len(json.dumps(value).encode())`. -/
def encodedLength (style : Style) (value : Json) : Nat :=
  utf8Length (dumps style value)

end HomeclusterInfra.JsonText
