import Mathlib.Data.List.Forall2
import Mathlib.Algebra.Order.Ring.Rat

/-!
# JSON values under jq

The values a jq filter works on and the operations of the language on them. A
filter with one output is a function to `Option`: `none` means that the filter
stops with an error, and then nothing is printed.

Reading a field of `null` gives `null`, reading a field of anything else but an
object is an error. `.[]` lists the elements of an array and the values of an
object. In the order of jq, `null` and the booleans come before all numbers,
and strings, arrays and objects after them.

An interpreter brings its parser, its regular expressions, and what `//` does
with an error on its left, either pass it on or take the right side. Nothing
below depends on which of the two it is.
-/

set_option autoImplicit false

namespace HomeclusterInfra.Jq

inductive Json where
  | null
  | bool (value : Bool)
  | num (value : Rat)
  | str (value : List Char)
  | arr (elements : List Json)
  | obj (fields : List (String × Json))

/-- What a filter takes from the interpreter that runs it. -/
structure Interpreter where
  /-- `fromjson`, without a value on a text that is not one JSON value. -/
  fromjson : List Char → Option Json
  /-- `tonumber` of a string. -/
  tonumber : List Char → Option Rat
  /-- `test`, with the pattern, the flags and the subject. -/
  test : String → String → List Char → Bool
  /-- Whether `//` takes its right side when its left side is an error. -/
  alternativeOnError : Bool

namespace Json

/-- `.name` -/
def field (name : String) : Json → Option Json
  | .null => some .null
  | .obj fields => some ((fields.lookup name).getD .null)
  | _ => none

/-- `.[]` -/
def each : Json → Option (List Json)
  | .arr elements => some elements
  | .obj fields => some (fields.map Prod.snd)
  | _ => none

/-- `. == "word"` -/
def isString (word : String) : Json → Bool
  | .str value => value == word.toList
  | _ => false

/-- `. == true` -/
def isTrue : Json → Bool
  | .bool value => value
  | _ => false

/-- `. == null` -/
def isNull : Json → Bool
  | .null => true
  | _ => false

/-- `number < .` -/
def above (number : Rat) : Json → Bool
  | .null | .bool _ => false
  | .num value => number < value
  | .str _ | .arr _ | .obj _ => true

/-- `[., number] | max` -/
def maxWith (number : Rat) (value : Json) : Json :=
  if value.above number then value else .num number

/-- The larger of two values is above a number when one of them is. -/
theorem above_maxWith (bound number : Rat) (value : Json) :
    (value.maxWith number).above bound =
      (decide (bound < number) || value.above bound && value.above number) := by
  unfold maxWith
  cases value with
  | null | bool _ => simp [above]
  | str _ | arr _ | obj _ => simp [above]
  | num larger =>
      by_cases exceeds : number < larger
      · have chain : bound < number → bound < larger := fun below => lt_trans below exceeds
        by_cases below : bound < larger
        · simp [above, exceeds, below]
        · have notBelow : ¬ bound < number := fun small => below (chain small)
          simp [above, exceeds, below, notBelow]
      · simp [above, exceeds]

end Json

variable (jq : Interpreter)

/-- `left // right` -/
def Interpreter.alternative (left : Option Json) (right : Json) : Option Json :=
  match left with
  | some .null | some (.bool false) => some right
  | some value => some value
  | none => if jq.alternativeOnError then some right else none

/-- `split` of a string at a character. The empty string has no pieces. -/
def split (separator : Char) (text : List Char) : List (List Char) :=
  if text.isEmpty then [] else text.splitOn separator

/-- `split` and then `map(select(length > 0))`. -/
def splitNonempty (separator : Char) (text : List Char) : List (List Char) :=
  (split separator text).filter fun piece => !piece.isEmpty

theorem splitNonempty_eq (separator : Char) (text : List Char) :
    splitNonempty separator text =
      (text.splitOn separator).filter fun piece => !piece.isEmpty := by
  cases text with
  | nil => rfl
  | cons char text => rfl

/-- `map(select(keeps))` on a list of values. -/
def select {α : Type} (keeps : α → Option Bool) : List α → Option (List α)
  | [] => some []
  | element :: elements => do
      let kept ← keeps element
      let rest ← select keeps elements
      some (if kept then element :: rest else rest)

/-- The elements that `select` keeps and a filter maps to a value of some kind,
counted in the list itself. -/
theorem length_filter_of_select_mapM {α β : Type} {keeps : α → Option Bool}
    {maps : α → Option β} (counts : β → Bool) :
    ∀ {elements kept : List α} {values : List β},
      select keeps elements = some kept → kept.mapM maps = some values →
        (values.filter counts).length =
          elements.countP fun element =>
            keeps element == some true && (maps element).any counts := by
  intro elements
  induction elements with
  | nil =>
      intro kept values selected mapped
      cases selected
      cases mapped
      rfl
  | cons element elements ih =>
      intro kept values selected mapped
      obtain ⟨keep, keepElement, selected⟩ := Option.bind_eq_some_iff.mp selected
      obtain ⟨rest, selectRest, selected⟩ := Option.bind_eq_some_iff.mp selected
      rw [List.countP_cons, keepElement]
      cases keep with
      | false =>
          have same : rest = kept := by simpa using selected
          subst same
          rw [ih selectRest mapped]
          simp
      | true =>
          have whole : element :: rest = kept := by simpa using selected
          subst whole
          rw [List.mapM_cons] at mapped
          obtain ⟨value, mapElement, mapped⟩ := Option.bind_eq_some_iff.mp mapped
          obtain ⟨others, mapRest, mapped⟩ := Option.bind_eq_some_iff.mp mapped
          have list : value :: others = values := by simpa using mapped
          subst list
          rw [List.filter_cons, mapElement, ← ih selectRest mapRest]
          cases counted : counts value with
          | false => simp [counted]
          | true => simp [counted]

end HomeclusterInfra.Jq
