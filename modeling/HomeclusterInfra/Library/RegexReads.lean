import Mathlib.Data.List.Forall2
import HomeclusterInfra.Library.Regex

/-!
# What a regular expression reads

The matcher of `Regex` is a search with continuations. Here is what it searches
for: a relation between the position where an expression begins and the one
where it ends, by the structure of the expression. The matcher finds an end
whenever there is one that the continuation accepts, and nothing else, so a
question about a match is one about this relation.

Of an expression without conditions the relation only says which texts are
read. What the groups have captured is kept as a property that the texts of
back references then have.
-/

set_option autoImplicit false

namespace HomeclusterInfra.Regex

universe u v

variable {α : Type u}

/-! ## The relation -/

/-- Any number of steps, each of which reads something. -/
inductive Repeats (step : Position α → Position α → Prop) : Position α → Position α → Prop where
  | done (position : Position α) : Repeats step position position
  | more {position middle after : Position α} : step position middle →
      middle.past.length ≠ position.past.length → Repeats step middle after →
      Repeats step position after

theorem Position.advance_length {position after : Position α} {symbol : α}
    (advanced : position.advance = some (symbol, after)) :
    after.past.length + after.rest.length = position.past.length + position.rest.length := by
  unfold Position.advance at advanced
  split at advanced
  · cases advanced
  next symbol rest isRest =>
      cases advanced
      show (symbol :: position.past).length + rest.length = _
      rw [isRest, List.length_cons, List.length_cons]
      omega

theorem Position.advance_input {position after : Position α} {symbol : α}
    (advanced : position.advance = some (symbol, after)) :
    after.past.reverse ++ after.rest = position.past.reverse ++ position.rest := by
  unfold Position.advance at advanced
  split at advanced
  · cases advanced
  next symbol rest isRest =>
      cases advanced
      rw [isRest, List.reverse_cons, List.append_assoc]
      rfl

theorem Position.readWord_input [BEq α] {position after : Position α} {word : List α}
    (reads : position.readWord word = some after) :
    after.past.reverse ++ after.rest = position.past.reverse ++ position.rest := by
  induction word generalizing position with
  | nil =>
      cases reads
      rfl
  | cons symbol word ih =>
      rw [Position.readWord] at reads
      split at reads
      · cases reads
      next found middle advanced =>
          split at reads
          · exact (ih reads).trans (Position.advance_input advanced)
          · cases reads

theorem Position.readWord_length [BEq α] {position after : Position α} {word : List α}
    (reads : position.readWord word = some after) :
    after.past.length + after.rest.length = position.past.length + position.rest.length ∧
      position.past.length ≤ after.past.length := by
  induction word generalizing position with
  | nil =>
      cases reads
      exact ⟨rfl, Nat.le_refl _⟩
  | cons symbol word ih =>
      rw [Position.readWord] at reads
      split at reads
      · cases reads
      next found middle advanced =>
          split at reads
          next =>
              have whole := Position.advance_length advanced
              have longer : middle.past.length = position.past.length + 1 := by
                unfold Position.advance at advanced
                split at advanced
                · cases advanced
                · cases advanced
                  exact List.length_cons
              obtain ⟨rest, grows⟩ := ih reads
              omega
          next => cases reads

/-- The position behind a text that is read. -/
def Position.through (position : Position α) (text rest : List α) : Position α :=
  ⟨text.reverse ++ position.past, rest, position.groups⟩

theorem Position.through_append (position : Position α) (first second middle rest : List α) :
    (position.through first middle).through second rest = position.through (first ++ second) rest := by
  simp only [Position.through, List.reverse_append, List.append_assoc]

/-- What was read is what a group captures. -/
theorem Position.readSince_through (position : Position α) (text rest : List α) :
    (position.through text rest).readSince position = text := by
  have length : (text.reverse ++ position.past).length - position.past.length =
      text.reverse.length := by
    rw [List.length_append]
    omega
  rw [Position.readSince, Position.through, length, List.take_left, List.reverse_reverse]

/-- A position with a text in a group. -/
def Position.capture (position : Position α) (index : Nat) (text : List α) : Position α :=
  { position with groups := Function.update position.groups index (some text) }

@[simp] theorem Position.rest_through (position : Position α) (text rest : List α) :
    (position.through text rest).rest = rest :=
  rfl

@[simp] theorem Position.rest_capture (position : Position α) (index : Nat) (text : List α) :
    (position.capture index text).rest = position.rest :=
  rfl

@[simp] theorem Position.captured_through (position : Position α) (text rest : List α)
    (index : Nat) : (position.through text rest).captured index = position.captured index :=
  rfl

@[simp] theorem Position.captured_capture (position : Position α) (index : Nat) (text : List α)
    (other : Nat) : (position.capture index text).captured other =
      if other = index then text else position.captured other := by
  show (Function.update position.groups index (some text) other).getD [] = _
  by_cases same : other = index
  · subst same
    rw [Function.update_self, if_pos rfl]
    rfl
  · rw [Function.update_of_ne same, if_neg same]
    rfl

namespace Rx

/-- An expression can be read from a position up to another one. -/
def Reads [BEq α] : Rx α → Position α → Position α → Prop
  | empty, position, after => after = position
  | symbol accepts, position, after =>
      ∃ found, position.advance = some (found, after) ∧ accepts found = true
  | seq first second, position, after =>
      ∃ middle, first.Reads position middle ∧ second.Reads middle after
  | alt first second, position, after => first.Reads position after ∨ second.Reads position after
  | star body, position, after => Repeats body.Reads position after
  | group index body, position, after => ∃ middle, body.Reads position middle ∧
      after = { middle with
        groups := Function.update middle.groups index (some (middle.readSince position)) }
  | backref index, position, after =>
      ∃ captured, position.groups index = some captured ∧ position.readWord captured = some after
  | look holds, position, after => holds position.past position.rest = true ∧ after = position

/-! ## The matcher finds what can be read -/

section Matcher

variable [BEq α] {β : Type v} {body : Rx α} {position after : Position α}
  {next : Position α → Option β} {result : β}

theorem orElse_eq_some {first second : Option β} :
    (first <|> second) = some result → first = some result ∨ second = some result := by
  cases first with
  | none => exact .inr
  | some value => exact .inl

theorem starLoop_sound {rounds : Nat}
    (sound : ∀ (position : Position α) (next : Position α → Option β),
      body.run position next = some result →
        ∃ after, body.Reads position after ∧ next after = some result)
    (found : starLoop body.run rounds position next = some result) :
    ∃ after, Repeats body.Reads position after ∧ next after = some result := by
  induction rounds generalizing position with
  | zero => exact ⟨position, .done position, found⟩
  | succ rounds ih =>
      rcases orElse_eq_some found with once | stop
      · obtain ⟨middle, reads, goesOn⟩ := sound _ _ once
        split at goesOn
        · cases goesOn
        next progress =>
            obtain ⟨after, repeats, accepted⟩ := ih goesOn
            exact ⟨after, .more reads progress repeats, accepted⟩
      · exact ⟨position, .done position, stop⟩

/-- **What the matcher finds can be read.** -/
theorem run_sound (body : Rx α) : ∀ {position : Position α} {next : Position α → Option β}
    {result : β}, body.run position next = some result →
      ∃ after, body.Reads position after ∧ next after = some result := by
  induction body with
  | empty => exact fun found => ⟨_, rfl, found⟩
  | symbol accepts =>
      intro position next result found
      rw [run] at found
      split at found
      · cases found
      next symbol after advanced =>
          split at found
          next accepted => exact ⟨after, ⟨symbol, advanced, accepted⟩, found⟩
          next => cases found
  | seq first second ihFirst ihSecond =>
      intro position next result found
      obtain ⟨middle, reads, found⟩ := ihFirst found
      obtain ⟨after, reads', accepted⟩ := ihSecond found
      exact ⟨after, ⟨middle, reads, reads'⟩, accepted⟩
  | alt first second ihFirst ihSecond =>
      intro position next result found
      rcases orElse_eq_some found with left | right
      · obtain ⟨after, reads, accepted⟩ := ihFirst left
        exact ⟨after, .inl reads, accepted⟩
      · obtain ⟨after, reads, accepted⟩ := ihSecond right
        exact ⟨after, .inr reads, accepted⟩
  | star body ih =>
      intro position next result found
      exact starLoop_sound (fun _ _ => ih) found
  | group index body ih =>
      intro position next result found
      obtain ⟨middle, reads, accepted⟩ := ih found
      exact ⟨_, ⟨middle, reads, rfl⟩, accepted⟩
  | backref index =>
      intro position next result found
      rw [run] at found
      split at found
      · cases found
      next captured isCaptured =>
          obtain ⟨after, reads, accepted⟩ := Option.bind_eq_some_iff.mp found
          exact ⟨after, ⟨captured, isCaptured, reads⟩, accepted⟩
  | look holds =>
      intro position next result found
      rw [run] at found
      split at found
      next holds => exact ⟨position, ⟨holds, rfl⟩, found⟩
      next => cases found

/-- Reading keeps the input together. -/
theorem reads_length (body : Rx α) : ∀ {position after : Position α}, body.Reads position after →
    after.past.length + after.rest.length = position.past.length + position.rest.length ∧
      position.past.length ≤ after.past.length := by
  induction body with
  | empty =>
      rintro position after rfl
      exact ⟨rfl, Nat.le_refl _⟩
  | symbol accepts =>
      rintro position after ⟨symbol, advanced, -⟩
      have word : position.readWord [] = some position := rfl
      have whole := Position.advance_length advanced
      unfold Position.advance at advanced
      split at advanced
      · cases advanced
      · cases advanced
        exact ⟨whole, Nat.le_succ _⟩
  | seq first second ihFirst ihSecond =>
      rintro position after ⟨middle, reads, reads'⟩
      have one := ihFirst reads
      have two := ihSecond reads'
      omega
  | alt first second ihFirst ihSecond =>
      rintro position after (reads | reads)
      · exact ihFirst reads
      · exact ihSecond reads
  | star body ih =>
      intro position after repeats
      induction repeats with
      | done => exact ⟨rfl, Nat.le_refl _⟩
      | more reads _ _ ihRest =>
          have one := ih reads
          omega
  | group index body ih =>
      rintro position after ⟨middle, reads, rfl⟩
      exact (ih reads : _ ∧ position.past.length ≤ middle.past.length)
  | backref index =>
      rintro position after ⟨captured, -, reads⟩
      exact Position.readWord_length reads
  | look holds =>
      rintro position after ⟨-, rfl⟩
      exact ⟨rfl, Nat.le_refl _⟩

/-- What was read and what is left is the input. -/
theorem reads_input (body : Rx α) : ∀ {position after : Position α}, body.Reads position after →
    after.past.reverse ++ after.rest = position.past.reverse ++ position.rest := by
  induction body with
  | empty =>
      rintro position after rfl
      rfl
  | symbol accepts =>
      rintro position after ⟨symbol, advanced, -⟩
      exact Position.advance_input advanced
  | seq first second ihFirst ihSecond =>
      rintro position after ⟨middle, reads, reads'⟩
      exact (ihSecond reads').trans (ihFirst reads)
  | alt first second ihFirst ihSecond =>
      rintro position after (reads | reads)
      · exact ihFirst reads
      · exact ihSecond reads
  | star body ih =>
      intro position after repeats
      induction repeats with
      | done => rfl
      | more reads _ _ ihRest => exact ihRest.trans (ih reads)
  | group index body ih =>
      rintro position after ⟨middle, reads, rfl⟩
      have same := ih reads
      exact same
  | backref index =>
      rintro position after ⟨captured, -, reads⟩
      exact Position.readWord_input reads
  | look holds =>
      rintro position after ⟨-, rfl⟩
      rfl

theorem isSome_orElse {first second : Option β} :
    (first <|> second).isSome = (first.isSome || second.isSome) := by
  cases first with
  | none => rfl
  | some value => rfl

theorem starLoop_complete {rounds : Nat}
    (complete : ∀ {position after : Position α} {next : Position α → Option β},
      body.Reads position after → (next after).isSome → (body.run position next).isSome)
    (repeats : Repeats body.Reads position after) (accepted : (next after).isSome)
    (enough : position.rest.length ≤ rounds) :
    (starLoop body.run rounds position next).isSome := by
  induction repeats generalizing rounds with
  | done position =>
      cases rounds with
      | zero => exact accepted
      | succ rounds =>
          rw [starLoop, isSome_orElse, accepted, Bool.or_true]
  | more reads progress _ ih =>
      have whole := reads_length body reads
      cases rounds with
      | zero => omega
      | succ rounds =>
          rw [starLoop, isSome_orElse]
          refine Bool.or_eq_true_iff.mpr (.inl (complete reads ?_))
          rw [if_neg progress]
          exact ih accepted (by omega)

/-- **The matcher finds what can be read.** -/
theorem run_complete (body : Rx α) : ∀ {position after : Position α}
    {next : Position α → Option β}, body.Reads position after → (next after).isSome →
      (body.run position next).isSome := by
  induction body with
  | empty =>
      rintro position after next rfl accepted
      exact accepted
  | symbol accepts =>
      rintro position after next ⟨symbol, advanced, fits⟩ accepted
      simp only [run, advanced, fits, if_true]
      exact accepted
  | seq first second ihFirst ihSecond =>
      rintro position after next ⟨middle, reads, reads'⟩ accepted
      exact ihFirst reads (ihSecond reads' accepted)
  | alt first second ihFirst ihSecond =>
      rintro position after next (reads | reads) accepted
      · rw [run, isSome_orElse, ihFirst reads accepted, Bool.true_or]
      · rw [run, isSome_orElse, ihSecond reads accepted, Bool.or_true]
  | star body ih =>
      intro position after next repeats accepted
      exact starLoop_complete ih repeats accepted (Nat.le_refl _)
  | group index body ih =>
      rintro position after next ⟨middle, reads, rfl⟩ accepted
      exact ih reads accepted
  | backref index =>
      rintro position after next ⟨captured, isCaptured, reads⟩ accepted
      simp only [run, isCaptured, reads, Option.bind_some]
      exact accepted
  | look holds =>
      rintro position after next ⟨condition, rfl⟩ accepted
      rw [run, if_pos condition]
      exact accepted

/-! ## Whole inputs and searches -/

variable {input : List α}

theorem fullmatch_sound (found : body.fullmatch input = some after) :
    body.Reads (.start input) after ∧ after.rest = [] := by
  obtain ⟨position, reads, ends⟩ := run_sound body found
  split at ends
  next empty =>
      cases ends
      exact ⟨reads, List.isEmpty_iff.mp empty⟩
  next => cases ends

/-- **An input matches when it can be read to its end.** -/
theorem fullmatch_isSome_iff : (body.fullmatch input).isSome ↔
    ∃ after, body.Reads (.start input) after ∧ after.rest = [] := by
  constructor
  · intro found
    obtain ⟨after, found⟩ := Option.isSome_iff_exists.mp found
    exact ⟨after, fullmatch_sound found⟩
  · rintro ⟨after, reads, ends⟩
    refine run_complete body reads ?_
    rw [ends]
    rfl

theorem matchPrefix_sound (found : body.matchPrefix input = some after) :
    body.Reads (.start input) after := by
  obtain ⟨position, reads, ends⟩ := run_sound body found
  exact Option.some.inj ends ▸ reads

theorem searchFrom_isSome_iff {past : List α} : (body.searchFrom past input).isSome ↔
    ∃ before rest after, input = before ++ rest ∧
      body.Reads ⟨before.reverse ++ past, rest, fun _ => none⟩ after := by
  induction input generalizing past with
  | nil =>
      rw [searchFrom, Option.isSome_map]
      constructor
      · intro found
        obtain ⟨after, found⟩ := Option.isSome_iff_exists.mp found
        obtain ⟨position, reads, -⟩ := run_sound body found
        exact ⟨[], [], position, rfl, reads⟩
      · rintro ⟨before, rest, after, split, reads⟩
        obtain ⟨rfl, rfl⟩ := List.append_eq_nil_iff.mp split.symm
        exact run_complete body reads rfl
  | cons symbol input ih =>
      rw [searchFrom, isSome_orElse, Option.isSome_map, Bool.or_eq_true, ih]
      constructor
      · rintro (found | ⟨before, rest, after, rfl, reads⟩)
        · obtain ⟨after, found⟩ := Option.isSome_iff_exists.mp found
          obtain ⟨position, reads, -⟩ := run_sound body found
          exact ⟨[], symbol :: input, position, rfl, reads⟩
        · refine ⟨symbol :: before, rest, after, rfl, ?_⟩
          rw [List.reverse_cons, List.append_assoc]
          exact reads
      · rintro ⟨before, rest, after, split, reads⟩
        cases before with
        | nil =>
            rw [List.nil_append] at split
            subst split
            exact .inl (run_complete body reads rfl)
        | cons first before =>
            obtain ⟨rfl, rfl⟩ := List.cons.inj split
            refine .inr ⟨before, rest, after, rfl, ?_⟩
            rw [List.reverse_cons, List.append_assoc] at reads
            exact reads

/-- **A search finds something when it can be read somewhere.** -/
theorem search_isSome_iff : (body.search input).isSome ↔
    ∃ before rest after, input = before ++ rest ∧
      body.Reads ⟨before.reverse, rest, fun _ => none⟩ after := by
  rw [search, searchFrom_isSome_iff]
  simp only [List.append_nil]

end Matcher

/-! ## Runs of symbols -/

section Symbols

variable [BEq α] {accepts : α → Bool} {position after : Position α}

theorem reads_symbol_iff : (symbol accepts).Reads position after ↔
    ∃ found rest, position.rest = found :: rest ∧ accepts found = true ∧
      after = position.through [found] rest := by
  constructor
  · rintro ⟨found, advanced, fits⟩
    unfold Position.advance at advanced
    split at advanced
    · cases advanced
    next symbol rest isRest =>
        cases advanced
        exact ⟨_, rest, isRest, fits, rfl⟩
  · rintro ⟨found, rest, isRest, fits, rfl⟩
    refine ⟨found, ?_, fits⟩
    rw [Position.advance, isRest]
    rfl

theorem reads_star_symbol_iff : (star (symbol accepts)).Reads position after ↔
    ∃ run rest, position.rest = run ++ rest ∧ (∀ found ∈ run, accepts found = true) ∧
      after = position.through run rest := by
  constructor
  · intro repeats
    induction repeats with
    | done position => exact ⟨[], position.rest, rfl, by simp, rfl⟩
    | more reads _ _ ih =>
        obtain ⟨found, rest, isRest, fits, rfl⟩ := reads_symbol_iff.mp reads
        obtain ⟨run, rest', split, all, rfl⟩ := ih
        have joined : rest = run ++ rest' := split
        subst joined
        exact ⟨found :: run, rest', isRest, List.forall_mem_cons.mpr ⟨fits, all⟩,
          Position.through_append _ [found] run _ _⟩
  · rintro ⟨run, rest, isRest, all, rfl⟩
    induction run generalizing position with
    | nil =>
        have same : position.through [] rest = position := by
          rw [List.nil_append] at isRest
          rw [← isRest]
          rfl
        rw [same]
        exact .done position
    | cons found run ih =>
        rw [List.forall_mem_cons] at all
        have reads : (symbol accepts).Reads position (position.through [found] (run ++ rest)) :=
          reads_symbol_iff.mpr ⟨found, run ++ rest, isRest, all.1, rfl⟩
        refine .more reads ?_ ?_
        · show (found :: position.past).length ≠ _
          rw [List.length_cons]
          omega
        · have further := @ih (position.through [found] (run ++ rest)) rfl all.2
          rwa [Position.through_append] at further

theorem reads_plus_symbol_iff : (plus (symbol accepts)).Reads position after ↔
    ∃ run rest, position.rest = run ++ rest ∧ run ≠ [] ∧ (∀ found ∈ run, accepts found = true) ∧
      after = position.through run rest := by
  constructor
  · rintro ⟨middle, first, repeats⟩
    obtain ⟨found, rest, isRest, fits, rfl⟩ := reads_symbol_iff.mp first
    obtain ⟨run, rest', split, all, rfl⟩ := reads_star_symbol_iff.mp repeats
    have joined : rest = run ++ rest' := split
    subst joined
    exact ⟨found :: run, rest', isRest, List.cons_ne_nil _ _, List.forall_mem_cons.mpr ⟨fits, all⟩,
      Position.through_append _ [found] run _ _⟩
  · rintro ⟨run, rest, isRest, nonempty, all, rfl⟩
    cases run with
    | nil => exact absurd rfl nonempty
    | cons found run =>
        rw [List.forall_mem_cons] at all
        refine ⟨_, reads_symbol_iff.mpr ⟨found, run ++ rest, isRest, all.1, rfl⟩, ?_⟩
        exact reads_star_symbol_iff.mpr ⟨run, rest, rfl, all.2,
          (Position.through_append _ [found] run _ _).symm⟩

theorem reads_exactly_symbol_iff {count : Nat} :
    (exactly count (symbol accepts)).Reads position after ↔
    ∃ run rest, position.rest = run ++ rest ∧ run.length = count ∧
      (∀ found ∈ run, accepts found = true) ∧ after = position.through run rest := by
  induction count generalizing position with
  | zero =>
      constructor
      · rintro rfl
        exact ⟨[], _, rfl, rfl, by simp, rfl⟩
      · rintro ⟨run, rest, isRest, none, -, rfl⟩
        rw [List.length_eq_zero_iff] at none
        subst none
        rw [List.nil_append] at isRest
        rw [← isRest]
        rfl
  | succ count ih =>
      have unfolded : (exactly (count + 1) (symbol accepts)).Reads position after ↔
          ∃ middle, (symbol accepts).Reads position middle ∧
            (exactly count (symbol accepts)).Reads middle after := by
        cases count with
        | zero => exact ⟨fun reads => ⟨after, reads, rfl⟩, fun ⟨_, reads, same⟩ => same ▸ reads⟩
        | succ count => exact Iff.rfl
      rw [unfolded]
      constructor
      · rintro ⟨middle, first, others⟩
        obtain ⟨found, rest, isRest, fits, rfl⟩ := reads_symbol_iff.mp first
        obtain ⟨run, rest', split, length, all, rfl⟩ := ih.mp others
        have joined : rest = run ++ rest' := split
        subst joined
        exact ⟨found :: run, rest', isRest, congrArg (· + 1) length,
          List.forall_mem_cons.mpr ⟨fits, all⟩, Position.through_append _ [found] run _ _⟩
      · rintro ⟨run, rest, isRest, length, all, rfl⟩
        cases run with
        | nil => cases length
        | cons found run =>
            rw [List.forall_mem_cons] at all
            refine ⟨_, reads_symbol_iff.mpr ⟨found, run ++ rest, isRest, all.1, rfl⟩, ?_⟩
            exact ih.mpr ⟨run, rest, rfl, Nat.succ.inj length, all.2,
              (Position.through_append _ [found] run _ _).symm⟩

theorem reads_group_plus_iff {index : Nat} :
    (group index (plus (symbol accepts))).Reads position after ↔
      ∃ run rest, position.rest = run ++ rest ∧ run ≠ [] ∧ (∀ found ∈ run, accepts found = true) ∧
        after = (position.through run rest).capture index run := by
  constructor
  · rintro ⟨middle, reads, rfl⟩
    obtain ⟨run, rest, isRest, nonempty, all, rfl⟩ := reads_plus_symbol_iff.mp reads
    rw [Position.readSince_through]
    exact ⟨run, rest, isRest, nonempty, all, rfl⟩
  · rintro ⟨run, rest, isRest, nonempty, all, rfl⟩
    refine ⟨_, reads_plus_symbol_iff.mpr ⟨run, rest, isRest, nonempty, all, rfl⟩, ?_⟩
    rw [Position.readSince_through]
    rfl

theorem reads_group_exactly_iff {index count : Nat} :
    (group index (exactly count (symbol accepts))).Reads position after ↔
      ∃ run rest, position.rest = run ++ rest ∧ run.length = count ∧
        (∀ found ∈ run, accepts found = true) ∧
        after = (position.through run rest).capture index run := by
  constructor
  · rintro ⟨middle, reads, rfl⟩
    obtain ⟨run, rest, isRest, length, all, rfl⟩ := reads_exactly_symbol_iff.mp reads
    rw [Position.readSince_through]
    exact ⟨run, rest, isRest, length, all, rfl⟩
  · rintro ⟨run, rest, isRest, length, all, rfl⟩
    refine ⟨_, reads_exactly_symbol_iff.mpr ⟨run, rest, isRest, length, all, rfl⟩, ?_⟩
    rw [Position.readSince_through]
    rfl

theorem reads_word_iff [LawfulBEq α] {letters : List α} : (word letters).Reads position after ↔
    ∃ rest, position.rest = letters ++ rest ∧ after = position.through letters rest := by
  induction letters generalizing position with
  | nil =>
      constructor
      · rintro rfl
        exact ⟨_, rfl, rfl⟩
      · rintro ⟨rest, isRest, rfl⟩
        rw [List.nil_append] at isRest
        rw [← isRest]
        rfl
  | cons letter letters ih =>
      constructor
      · rintro ⟨middle, first, others⟩
        obtain ⟨found, rest, isRest, fits, rfl⟩ := reads_symbol_iff.mp first
        obtain ⟨rest', split, rfl⟩ := ih.mp others
        have same : found = letter := by simpa using fits
        have joined : rest = letters ++ rest' := split
        subst same joined
        exact ⟨rest', isRest, Position.through_append _ [found] letters _ _⟩
      · rintro ⟨rest, isRest, rfl⟩
        refine ⟨_, reads_symbol_iff.mpr ⟨letter, letters ++ rest, isRest, by simp, rfl⟩, ?_⟩
        exact ih.mpr ⟨rest, rfl, (Position.through_append _ [letter] letters _ _).symm⟩

/-- Reading a fixed word. -/
theorem readWord_eq_some [LawfulBEq α] {letters : List α} :
    position.readWord letters = some after →
      ∃ rest, position.rest = letters ++ rest ∧ after = position.through letters rest := by
  induction letters generalizing position with
  | nil =>
      intro reads
      cases reads
      exact ⟨_, rfl, rfl⟩
  | cons letter letters ih =>
      intro reads
      rw [Position.readWord] at reads
      split at reads
      · cases reads
      next found middle advanced =>
          split at reads
          next fits =>
              obtain ⟨rest, split, rfl⟩ := ih reads
              have first : (symbol (· == letter)).Reads position middle := ⟨found, advanced, fits⟩
              obtain ⟨other, rest', isRest, same, rfl⟩ := reads_symbol_iff.mp first
              obtain rfl : other = letter := by simpa using same
              have joined : rest' = letters ++ rest := split
              subst joined
              exact ⟨rest, isRest, Position.through_append _ [other] letters _ _⟩
          next => cases reads

/-! ## Lists of expressions -/

theorem reads_cat_cons {body : Rx α} {bodies : List (Rx α)} :
    (cat (body :: bodies)).Reads position after ↔
      ∃ middle, body.Reads position middle ∧ (cat bodies).Reads middle after := by
  cases bodies with
  | nil =>
      constructor
      · exact fun reads => ⟨after, reads, rfl⟩
      · rintro ⟨middle, reads, rfl⟩
        exact reads
  | cons other bodies => exact Iff.rfl

theorem reads_oneOf {bodies : List (Rx α)} :
    (oneOf bodies).Reads position after ↔ ∃ body ∈ bodies, body.Reads position after := by
  induction bodies with
  | nil =>
      constructor
      · rintro ⟨_, -, none⟩
        cases none
      · rintro ⟨_, none, -⟩
        cases none
  | cons body bodies ih =>
      cases bodies with
      | nil => simp [oneOf]
      | cons other bodies =>
          have split : (oneOf (body :: other :: bodies)).Reads position after ↔
              body.Reads position after ∨ (oneOf (other :: bodies)).Reads position after := Iff.rfl
          rw [split, ih]
          simp only [List.exists_mem_cons_iff]

/-- One symbol after another, each of a class of its own. -/
theorem reads_cat_symbols_iff {β : Type v} {classes : β → α → Bool} {letters : List β} :
    (cat (letters.map fun letter => symbol (classes letter))).Reads position after ↔
      ∃ run rest, position.rest = run ++ rest ∧
        List.Forall₂ (fun letter found => classes letter found = true) letters run ∧
        after = position.through run rest := by
  induction letters generalizing position with
  | nil =>
      constructor
      · rintro rfl
        exact ⟨[], _, rfl, .nil, rfl⟩
      · rintro ⟨run, rest, isRest, ⟨⟩, rfl⟩
        rw [List.nil_append] at isRest
        rw [← isRest]
        rfl
  | cons letter letters ih =>
      rw [List.map_cons, reads_cat_cons]
      constructor
      · rintro ⟨middle, first, others⟩
        obtain ⟨found, rest, isRest, fits, rfl⟩ := reads_symbol_iff.mp first
        obtain ⟨run, rest', split, each, rfl⟩ := ih.mp others
        have joined : rest = run ++ rest' := split
        subst joined
        exact ⟨found :: run, rest', isRest, .cons fits each,
          Position.through_append _ [found] run _ _⟩
      · rintro ⟨run, rest, isRest, each, rfl⟩
        cases each with
        | @cons _ found _ run fits each =>
            refine ⟨_, reads_symbol_iff.mpr ⟨found, run ++ rest, isRest, fits, rfl⟩, ?_⟩
            exact ih.mpr ⟨run, rest, rfl, each, (Position.through_append _ [found] run _ _).symm⟩

/-! ## Greedy runs -/

theorem run_cat_pair {β : Type v} (first second : Rx α) (position : Position α)
    (next : Position α → Option β) : (cat [first, second]).run position next =
      first.run position fun middle => second.run middle next :=
  rfl

theorem run_optional {β : Type v} (body : Rx α) (position : Position α)
    (next : Position α → Option β) : (Rx.optional body).run position next =
      (body.run position next <|> next position) :=
  rfl

/-- A repetition takes all that is left when its symbols are all accepted. -/
theorem starLoop_symbol_all {β : Type v} {next : Position α → Option β} {result : β}
    {text : List α} (all : ∀ symbol ∈ text, accepts symbol = true) :
    ∀ {rounds : Nat} {past : List α} {groups : Nat → Option (List α)}, text.length ≤ rounds →
      next ⟨text.reverse ++ past, [], groups⟩ = some result →
      starLoop (symbol accepts).run rounds ⟨past, text, groups⟩ next = some result := by
  induction text with
  | nil =>
      intro rounds past groups _ accepted
      cases rounds with
      | zero => exact accepted
      | succ rounds => exact accepted
  | cons letter text ih =>
      intro rounds past groups enough accepted
      rw [List.forall_mem_cons] at all
      cases rounds with
      | zero => cases enough
      | succ rounds =>
          rw [List.reverse_cons, List.append_assoc] at accepted
          have later := ih all.2 (Nat.le_of_succ_le_succ enough) accepted
          have one : (symbol accepts).run (⟨past, letter :: text, groups⟩ : Position α)
              (fun after => if after.past.length = past.length then none
                else starLoop (symbol accepts).run rounds after next) = some result := by
            rw [run]
            simp only [Position.advance, all.1, if_true, List.length_cons]
            rw [if_neg (Nat.succ_ne_self _)]
            exact later
          rw [starLoop, one]
          rfl

/-- The same of a repetition that reads at least one symbol. -/
theorem run_plus_symbol_all {β : Type v} {next : Position α → Option β} {result : β} {letter : α}
    {text past : List α} {groups : Nat → Option (List α)}
    (all : ∀ symbol ∈ letter :: text, accepts symbol = true)
    (accepted : next ⟨(letter :: text).reverse ++ past, [], groups⟩ = some result) :
    (plus (symbol accepts)).run ⟨past, letter :: text, groups⟩ next = some result := by
  rw [List.forall_mem_cons] at all
  rw [List.reverse_cons, List.append_assoc] at accepted
  rw [plus, run, run]
  simp only [Position.advance, all.1, if_true, run]
  exact starLoop_symbol_all all.2 (Nat.le_refl _) accepted

end Symbols

end Rx

end HomeclusterInfra.Regex
