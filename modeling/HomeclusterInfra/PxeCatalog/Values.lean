import HomeclusterInfra.Library.PyValue

/-!
# Host variables

Host variables are values of a dynamic language. The catalog reads them with a
few conversions of its own: a cleaned text, a flag, a list of items.
-/

set_option autoImplicit false

namespace HomeclusterInfra.Python.Value

open Text

/-- `_clean_string` -/
def cleanString [UnicodeData] : Value → String
  | .none => ""
  | value => String.ofList (strip value.text)

/-- `_as_bool`. Only ASCII capitals become letters of these words in lower case. -/
def asBool : Value → Bool
  | .str value =>
      let word := (strip value.toList).map Char.toLower
      word == "1".toList || word == "true".toList || word == "yes".toList || word == "on".toList
  | value => value.truthy

/-- `_as_list` -/
def asList : Value → List Value
  | .none => []
  | .str value =>
      (((value.toList.splitOn ',').map strip).filter fun item => !item.isEmpty).map fun item =>
        .str (String.ofList item)
  | .list items => items
  | value => [value]

end HomeclusterInfra.Python.Value

namespace HomeclusterInfra.PxeCatalog

open Python

/-- The variables of a host, a role or a client. -/
abbrev Vars := Dict

/-- `_first_present` -/
def firstPresent : List (Option Value) → Value
  | [] => .none
  | none :: rest => firstPresent rest
  | some .none :: rest => firstPresent rest
  | some value :: _ => value

end HomeclusterInfra.PxeCatalog
