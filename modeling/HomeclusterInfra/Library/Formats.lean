import HomeclusterInfra.Library.Checked

/-!
# Self-delimiting formats

A parser reads a value from the beginning of a text and returns what is left.
It reads a format exactly when it succeeds on the encodings of the format,
whatever follows them, and on nothing else. Then more text behind an accepted
text does not change what is read, and a sequence of values, one for each of
some slots, is read exactly as well.
-/

set_option autoImplicit false

namespace HomeclusterInfra.Formats

open Checked

universe u

variable {β α σ ε : Type u}

/-- The parser succeeds on the encodings and on nothing else. -/
def Reads (parse : List β → Except ε (α × List β)) (Encodes : α → List β → Prop) : Prop :=
  ∀ data value rest, parse data = .ok (value, rest) ↔
    ∃ text, Encodes value text ∧ data = text ++ rest

/-- More text behind what is accepted is left over. -/
theorem Reads.extends {parse : List β → Except ε (α × List β)} {Encodes : α → List β → Prop}
    (reads : Reads parse Encodes) {data rest : List β} {value : α}
    (parsed : parse data = .ok (value, rest)) (more : List β) :
    parse (data ++ more) = .ok (value, rest ++ more) := by
  obtain ⟨text, encodes, same⟩ := (reads _ _ _).1 parsed
  exact (reads _ _ _).2 ⟨text, encodes, by rw [same, List.append_assoc]⟩

/-- One value for each slot. -/
def parseEach (parse : σ → List β → Except ε (α × List β)) :
    List σ → List β → Except ε (List (σ × α) × List β)
  | [], data => .ok ([], data)
  | slot :: slots, data => do
      let (value, rest) ← parse slot data
      let (values, rest) ← parseEach parse slots rest
      pure ((slot, value) :: values, rest)

/-- The encodings of the values of some slots, one after the other. -/
inductive EncodesEach (Encodes : σ → α → List β → Prop) : List (σ × α) → List β → Prop where
  | nil : EncodesEach Encodes [] []
  | cons {slot : σ} {value : α} {values : List (σ × α)} {text more : List β}
      (first : Encodes slot value text) (rest : EncodesEach Encodes values more) :
      EncodesEach Encodes ((slot, value) :: values) (text ++ more)

/-- **Values for slots are read exactly when each of them is.** -/
theorem parseEach_reads {parse : σ → List β → Except ε (α × List β)}
    {Encodes : σ → α → List β → Prop} (reads : ∀ slot, Reads (parse slot) (Encodes slot))
    (slots : List σ) :
    Reads (parseEach parse slots)
      (fun values text => values.map Prod.fst = slots ∧ EncodesEach Encodes values text) := by
  induction slots with
  | nil =>
      intro data values rest
      constructor
      · intro parsed
        obtain ⟨rfl, rfl⟩ := Prod.mk.inj (Except.ok.inj parsed)
        exact ⟨[], ⟨rfl, .nil⟩, rfl⟩
      · rintro ⟨text, ⟨slotless, encodes⟩, same⟩
        obtain rfl := List.map_eq_nil_iff.1 slotless
        cases encodes
        rw [same]
        rfl
  | cons slot slots ih =>
      intro data values rest
      simp only [parseEach, bind_eq_ok, pure_eq_ok]
      constructor
      · rintro ⟨⟨value, middle⟩, first, ⟨others, left⟩, second, same⟩
        obtain ⟨rfl, rfl⟩ := Prod.mk.inj same
        obtain ⟨text, encodes, rfl⟩ := (reads slot _ _ _).1 first
        obtain ⟨more, ⟨rfl, encodesMore⟩, rfl⟩ := (ih _ _ _).1 second
        exact ⟨text ++ more, ⟨rfl, .cons encodes encodesMore⟩, (List.append_assoc _ _ _).symm⟩
      · rintro ⟨text, ⟨keys, encodes⟩, rfl⟩
        cases encodes with
        | nil => cases keys
        | cons first others =>
            obtain ⟨rfl, rest⟩ := List.cons.inj keys
            refine ⟨(_, _), (reads _ _ _ _).2 ⟨_, first, List.append_assoc _ _ _⟩, (_, _),
              (ih _ _ _).2 ⟨_, ⟨rest, others⟩, rfl⟩, rfl⟩

/-! ## Joined fields -/

/-- What is in the joined fields is the separator or in a field. -/
theorem mem_intercalate {symbol separator : β} {fields : List (List β)}
    (member : symbol ∈ [separator].intercalate fields) :
    symbol = separator ∨ ∃ field ∈ fields, symbol ∈ field := by
  induction fields with
  | nil => simp at member
  | cons field fields ih =>
      cases fields with
      | nil =>
          rw [List.intercalate_singleton] at member
          exact .inr ⟨field, List.mem_cons_self, member⟩
      | cons next fields =>
          rw [List.intercalate_cons_cons, List.mem_append, List.mem_append,
            List.mem_singleton] at member
          rcases member with (inField | same) | inRest
          · exact .inr ⟨field, List.mem_cons_self, inField⟩
          · exact .inl same
          · refine (ih inRest).imp_right ?_
            rintro ⟨other, among, inOther⟩
            exact ⟨other, .tail field among, inOther⟩

theorem notMem_intercalate {symbol separator : β} (other : symbol ≠ separator)
    {fields : List (List β)} (clean : ∀ field ∈ fields, symbol ∉ field) :
    symbol ∉ [separator].intercalate fields := by
  intro member
  rcases mem_intercalate member with same | ⟨field, among, inField⟩
  · exact other same
  · exact clean field among inField

end HomeclusterInfra.Formats
