import HomeclusterInfra.Library.JsonText
import HomeclusterInfra.Library.Mapping

/-!
# Values of a dynamic language

The values a Python program reads from JSON, YAML or a host inventory, with the
truth of a value, its text and the equality of two values. Numbers are compared
by what they count as, so that `1 == 1.0 == True`.
-/

set_option autoImplicit false

namespace HomeclusterInfra.Python

open Text

inductive Value where
  | none
  | bool (value : Bool)
  | int (value : Int)
  | float (value : Rat)
  | str (value : String)
  | list (items : List Value)
  | dict (fields : List (String × Value))

/-- A dictionary with string keys. -/
abbrev Dict := Mapping Value

namespace Value

/-! ## Text -/

section Text

variable [UnicodeData]

/-- One character inside the `repr` of a string delimited by a quote. -/
def reprChar (quote char : Char) : List Char :=
  let code := char.toNat
  if char = quote || char = '\\' then ['\\', char]
  else if char = '\n' then ['\\', 'n']
  else if char = '\r' then ['\\', 'r']
  else if char = '\t' then ['\\', 't']
  else if UnicodeData.isPrintable char then [char]
  else
    let digits := Nat.toDigits 16 code
    let (letter, width) := if code < 0x100 then ('x', 2) else if code < 0x10000 then ('u', 4)
      else ('U', 8)
    '\\' :: letter :: List.replicate (width - digits.length) '0' ++ digits

/-- `repr` of a string. -/
def reprString (value : String) : List Char :=
  let quote := if value.toList.contains '\'' && !value.toList.contains '"' then '"' else '\''
  quote :: value.toList.flatMap (reprChar quote) ++ [quote]

/-- `repr` of a float. -/
def floatText (value : Rat) : List Char :=
  if value < 0 then '-' :: Binary64.reprText (-value) else Binary64.reprText value

mutual
/-- `repr` -/
def repr : Value → List Char
  | .none => "None".toList
  | .bool true => "True".toList
  | .bool false => "False".toList
  | .int value => JsonText.intText value
  | .float value => floatText value
  | .str value => reprString value
  | .list items => '[' :: reprItems items ++ [']']
  | .dict fields => '\x7b' :: reprFields fields ++ ['\x7d']

def reprItems : List Value → List Char
  | [] => []
  | [item] => repr item
  | item :: items => repr item ++ ", ".toList ++ reprItems items

def reprFields : List (String × Value) → List Char
  | [] => []
  | [(key, value)] => reprString key ++ ": ".toList ++ repr value
  | (key, value) :: fields =>
      reprString key ++ ": ".toList ++ repr value ++ ", ".toList ++ reprFields fields
end

/-- `str` -/
def text : Value → List Char
  | .str value => value.toList
  | value => value.repr

end Text

/-! ## Truth and parts -/

/-- `bool(value)` -/
def truthy : Value → Bool
  | .none => false
  | .bool value => value
  | .int value => value ≠ 0
  | .float value => value ≠ 0
  | .str value => value ≠ ""
  | .list items => !items.isEmpty
  | .dict fields => !fields.isEmpty

/-- The fields of a mapping, `isinstance(value, Mapping)`. -/
def asMapping? : Value → Option Dict
  | .dict fields => some fields
  | _ => Option.none

/-- The number a value counts as in comparisons. -/
def number? : Value → Option Rat
  | .bool value => some (if value then 1 else 0)
  | .int value => some value
  | .float value => some value
  | _ => Option.none

mutual
/-- Equality of values as they are written. -/
def same : Value → Value → Bool
  | .none, .none => true
  | .bool first, .bool second => first == second
  | .int first, .int second => first == second
  | .float first, .float second => first == second
  | .str first, .str second => first == second
  | .list first, .list second => sameItems first second
  | .dict first, .dict second => sameFields first second
  | _, _ => false

def sameItems : List Value → List Value → Bool
  | [], [] => true
  | first :: rest, second :: others => same first second && sameItems rest others
  | _, _ => false

def sameFields : List (String × Value) → List (String × Value) → Bool
  | [], [] => true
  | (key, first) :: rest, (name, second) :: others =>
      key == name && same first second && sameFields rest others
  | _, _ => false
end

mutual
/-- `first == second`: numbers count by their value and mappings without order. -/
def equal : Value → Value → Bool
  | .list first, second =>
      match second with
      | .list second => equalItems first second
      | _ => false
  | .dict first, second =>
      match second with
      | .dict second =>
          sameFields first second || (first.length == second.length && equalFields first second)
      | _ => false
  | first, second =>
      same first second || (first.number?.isSome && first.number? == second.number?)

def equalItems : List Value → List Value → Bool
  | [], [] => true
  | first :: rest, second :: others => equal first second && equalItems rest others
  | _, _ => false

/-- Every field has an equal one under its key. -/
def equalFields : List (String × Value) → Dict → Bool
  | [], _ => true
  | (key, first) :: rest, others =>
      (match others.get key with
        | some second => equal first second
        | Option.none => false) && equalFields rest others
end

theorem same_str {value : Value} {text : String} : same value (.str text) = true ↔
    value = .str text := by
  cases value <;> simp [same]

theorem same_bool {value : Value} {flag : Bool} : same value (.bool flag) = true ↔
    value = .bool flag := by
  cases value <;> simp [same]

mutual
theorem same_refl : ∀ value : Value, same value value = true
  | .none => rfl
  | .bool value => by simp [same]
  | .int value => by simp [same]
  | .float value => by simp [same]
  | .str value => by simp [same]
  | .list items => by
      rw [same]
      exact sameItems_refl items
  | .dict fields => by
      rw [same]
      exact sameFields_refl fields

theorem sameItems_refl : ∀ items : List Value, sameItems items items = true
  | [] => rfl
  | item :: items => by
      rw [sameItems, same_refl item, sameItems_refl items]
      rfl

theorem sameFields_refl : ∀ fields : List (String × Value), sameFields fields fields = true
  | [] => rfl
  | (key, value) :: fields => by
      rw [sameFields, same_refl value, sameFields_refl fields]
      simp
end

mutual
/-- A value equals itself. -/
theorem equal_refl : ∀ value : Value, equal value value = true
  | .none => rfl
  | .bool value => by simp [equal, same]
  | .int value => by simp [equal, same]
  | .float value => by simp [equal, same]
  | .str value => by simp [equal, same]
  | .list items => by
      rw [equal]
      exact equalItems_refl items
  | .dict fields => by
      rw [equal, sameFields_refl]
      rfl

theorem equalItems_refl : ∀ items : List Value, equalItems items items = true
  | [] => rfl
  | item :: items => by
      rw [equalItems, equal_refl item, equalItems_refl items]
      rfl
end

end Value

end HomeclusterInfra.Python
