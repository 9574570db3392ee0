import Mathlib.Data.List.Basic

/-!
# Backtracking regular expressions

Regular expressions over an arbitrary alphabet, with capture groups, back
references and zero-width assertions, and the matcher that tries the
alternatives in order: the left branch of an alternative first, one more
repetition before the end of a repetition.

A position keeps the symbols already read (last one first), the symbols still
to read, and the text each group captured. The matcher takes a continuation,
so that a later failure returns to the last open choice. A repetition whose
body read nothing stops, which bounds the number of rounds by the length of
the input.
-/

set_option autoImplicit false

namespace HomeclusterInfra.Regex

universe u v

variable {α : Type u}

/-- A position in the input. -/
structure Position (α : Type u) where
  past : List α
  rest : List α
  groups : Nat → Option (List α)

/-- The beginning of an input. -/
def Position.start (input : List α) : Position α :=
  ⟨[], input, fun _ => none⟩

/-- Read one symbol. -/
def Position.advance (position : Position α) : Option (α × Position α) :=
  match position.rest with
  | [] => none
  | symbol :: rest => some (symbol, ⟨symbol :: position.past, rest, position.groups⟩)

/-- Read a fixed word. -/
def Position.readWord [BEq α] (position : Position α) : List α → Option (Position α)
  | [] => some position
  | symbol :: word =>
      match position.advance with
      | none => none
      | some (found, next) => if found == symbol then next.readWord word else none

/-- The symbols read between two positions. -/
def Position.readSince (position earlier : Position α) : List α :=
  (position.past.take (position.past.length - earlier.past.length)).reverse

inductive Rx (α : Type u) where
  /-- The empty word. -/
  | empty
  /-- One symbol of a class. -/
  | symbol (accepts : α → Bool)
  | seq (first second : Rx α)
  | alt (first second : Rx α)
  /-- Any number of repetitions, as many as possible. -/
  | star (body : Rx α)
  /-- A capture group. -/
  | group (index : Nat) (body : Rx α)
  /-- The text captured by a group. -/
  | backref (index : Nat)
  /-- A condition on the symbols before (last first) and after the position. -/
  | look (holds : List α → List α → Bool)

namespace Rx

/-- One symbol after another. -/
def word [BEq α] : List α → Rx α
  | [] => empty
  | letter :: rest => seq (.symbol (· == letter)) (word rest)

/-- The expressions of a list one after another. -/
def cat : List (Rx α) → Rx α
  | [] => empty
  | [body] => body
  | body :: rest => seq body (cat rest)

/-- One of the expressions of a list, the earlier ones first. -/
def oneOf : List (Rx α) → Rx α
  | [] => symbol fun _ => false
  | [body] => body
  | body :: rest => alt body (oneOf rest)

/-- Exactly `count` repetitions. -/
def exactly (count : Nat) (body : Rx α) : Rx α :=
  cat (List.replicate count body)

/-- At most `count` repetitions, as many as possible. -/
def upTo : Nat → Rx α → Rx α
  | 0, _ => empty
  | count + 1, body => alt (seq body (upTo count body)) empty

/-- Between `least` and `most` repetitions. -/
def between (least most : Nat) (body : Rx α) : Rx α :=
  seq (exactly least body) (upTo (most - least) body)

def plus (body : Rx α) : Rx α :=
  seq body (star body)

def optional (body : Rx α) : Rx α :=
  alt body empty

/-- The beginning of the input. -/
def bol : Rx α :=
  look fun past _ => past.isEmpty

/-- The rounds of a repetition. `rounds` bounds them by the length of the input. -/
def starLoop {β : Type v} (body : Position α → (Position α → Option β) → Option β) :
    Nat → Position α → (Position α → Option β) → Option β
  | 0, position, next => next position
  | rounds + 1, position, next =>
      (body position fun after =>
        if after.past.length = position.past.length then none
        else starLoop body rounds after next) <|> next position

/-- Match an expression at a position and go on with a continuation. -/
def run [BEq α] {β : Type v} :
    Rx α → Position α → (Position α → Option β) → Option β
  | empty, position, next => next position
  | symbol accepts, position, next =>
      match position.advance with
      | none => none
      | some (found, after) => if accepts found then next after else none
  | seq first second, position, next =>
      first.run position fun middle => second.run middle next
  | alt first second, position, next => first.run position next <|> second.run position next
  | star body, position, next => starLoop body.run position.rest.length position next
  | group index body, position, next =>
      body.run position fun after =>
        next { after with
          groups := Function.update after.groups index (some (after.readSince position)) }
  | backref index, position, next =>
      match position.groups index with
      | none => none
      | some captured => (position.readWord captured).bind next
  | look holds, position, next =>
      if holds position.past position.rest then next position else none

/-- Match at the beginning of the input. -/
def matchPrefix [BEq α] (body : Rx α) (input : List α) : Option (Position α) :=
  body.run (.start input) some

/-- Match the whole input. -/
def fullmatch [BEq α] (body : Rx α) (input : List α) : Option (Position α) :=
  body.run (.start input) fun after => if after.rest.isEmpty then some after else none

/-- Try every position from `past` on. -/
def searchFrom [BEq α] (body : Rx α) : List α → List α → Option (Position α × Position α)
  | past, [] => (body.run ⟨past, [], fun _ => none⟩ some).map (⟨past, [], fun _ => none⟩, ·)
  | past, letter :: rest =>
      let position : Position α := ⟨past, letter :: rest, fun _ => none⟩
      (body.run position some).map (position, ·) <|> searchFrom body (letter :: past) rest

/-- The first match anywhere in the input: where it begins and where it ends. -/
def search [BEq α] (body : Rx α) (input : List α) : Option (Position α × Position α) :=
  body.searchFrom [] input

/-- The text of the first match anywhere in the input. -/
def searchText [BEq α] (body : Rx α) (input : List α) : Option (List α) :=
  (body.search input).map fun found => found.2.readSince found.1

end Rx

/-- The text a group captured. -/
def Position.captured (position : Position α) (index : Nat) : List α :=
  (position.groups index).getD []

end HomeclusterInfra.Regex
