import Mathlib.Data.Rat.Cast.Order
import HomeclusterInfra.Library.PyValue

/-!
# Equality of values

`==` of two values is symmetric and transitive when no mapping in them has a key
twice, which a `dict` never has.
-/

set_option autoImplicit false

namespace HomeclusterInfra.Python.Value

instance : BEq Value :=
  ⟨equal⟩

/-! ## Distinct keys -/

mutual
/-- No mapping in a value has a key twice. -/
def Distinct : Value → Prop
  | .list items => ItemsDistinct items
  | .dict fields => (fields.map Prod.fst).Nodup ∧ FieldsDistinct fields
  | _ => True

def ItemsDistinct : List Value → Prop
  | [] => True
  | item :: items => Distinct item ∧ ItemsDistinct items

def FieldsDistinct : List (String × Value) → Prop
  | [] => True
  | (_, value) :: fields => Distinct value ∧ FieldsDistinct fields
end

theorem itemsDistinct_iff {items : List Value} :
    ItemsDistinct items ↔ ∀ item ∈ items, Distinct item := by
  induction items with
  | nil => simp [ItemsDistinct]
  | cons item items ih => rw [ItemsDistinct, ih, List.forall_mem_cons]

theorem fieldsDistinct_iff {fields : List (String × Value)} :
    FieldsDistinct fields ↔ ∀ field ∈ fields, Distinct field.2 := by
  induction fields with
  | nil => simp [FieldsDistinct]
  | cons field fields ih => rw [FieldsDistinct, ih, List.forall_mem_cons]

theorem distinct_of_get {fields : Dict} {key : String} {value : Value}
    (distinct : Distinct (.dict fields)) (found : Mapping.get fields key = some value) :
    Distinct value :=
  fieldsDistinct_iff.1 distinct.2 (key, value) (Mapping.mem_of_get found)

/-! ## Scalars -/

/-- What a value that has no parts counts as. -/
def scalar? : Value → Option (Option (Rat ⊕ String))
  | .none => some Option.none
  | .bool value => some (some (.inl (if value then 1 else 0)))
  | .int value => some (some (.inl value))
  | .float value => some (some (.inl value))
  | .str value => some (some (.inr value))
  | .list _ => Option.none
  | .dict _ => Option.none

/-- A scalar equals the scalars that count as the same. -/
theorem equal_scalar {first second : Value} (scalar : (scalar? first).isSome) :
    equal first second = true ↔ scalar? first = scalar? second := by
  have ofBool : ∀ one other : Bool, ((if one then (1 : Rat) else 0) = if other then 1 else 0) ↔
      one = other := by
    intro one other
    cases one <;> cases other <;> norm_num
  cases first with
  | list items => cases scalar
  | dict fields => cases scalar
  | none => cases second <;> simp [equal, same, number?, scalar?]
  | bool value => cases second <;> simp [equal, same, number?, scalar?, ofBool]
  | int value => cases second <;> simp [equal, same, number?, scalar?]
  | float value => cases second <;> simp [equal, same, number?, scalar?]
  | str value => cases second <;> simp [equal, same, number?, scalar?]

/-! ## Lists and mappings -/

mutual
theorem eq_of_same : ∀ first second : Value, same first second = true → first = second
  | .none, second, equal => by
      cases second <;> first | rfl | cases equal
  | .bool value, second, equal => by
      cases second <;> simp_all [same]
  | .int value, second, equal => by
      cases second <;> simp_all [same]
  | .float value, second, equal => by
      cases second <;> simp_all [same]
  | .str value, second, equal => by
      cases second <;> simp_all [same]
  | .list items, second, equal => by
      cases second with
      | list others => rw [eq_of_sameItems items others equal]
      | none | bool | int | float | str | dict => cases equal
  | .dict fields, second, equal => by
      cases second with
      | dict others => rw [eq_of_sameFields fields others equal]
      | none | bool | int | float | str | list => cases equal

theorem eq_of_sameItems : ∀ first second : List Value, sameItems first second = true →
    first = second
  | [], [], _ => rfl
  | item :: items, other :: others, equal => by
      rw [sameItems, Bool.and_eq_true] at equal
      rw [eq_of_same item other equal.1, eq_of_sameItems items others equal.2]

theorem eq_of_sameFields : ∀ first second : List (String × Value),
    sameFields first second = true → first = second
  | [], [], _ => rfl
  | (key, value) :: fields, (name, other) :: others, equal => by
      rw [sameFields, Bool.and_eq_true, Bool.and_eq_true, beq_iff_eq] at equal
      rw [equal.1.1, eq_of_same value other equal.1.2, eq_of_sameFields fields others equal.2]
end

theorem equalItems_iff {first second : List Value} :
    equalItems first second = true ↔
      List.Forall₂ (fun one other => equal one other = true) first second := by
  induction first generalizing second with
  | nil => cases second <;> simp [equalItems]
  | cons item items ih =>
      cases second with
      | nil => simp [equalItems]
      | cons other others => rw [equalItems, Bool.and_eq_true, ih, List.forall₂_cons]

theorem equal_list {items : List Value} {second : Value} :
    equal (.list items) second = true ↔
      ∃ others, second = .list others ∧
        List.Forall₂ (fun one other => equal one other = true) items others := by
  cases second with
  | list others => simp [equal, equalItems_iff]
  | none | bool | int | float | str | dict => simp [equal]

theorem equalFields_iff {first : List (String × Value)} {second : Dict} :
    equalFields first second = true ↔
      ∀ key value, (key, value) ∈ first →
        ∃ other, Mapping.get second key = some other ∧ equal value other = true := by
  induction first with
  | nil => simp [equalFields]
  | cons field fields ih =>
      obtain ⟨name, one⟩ := field
      rw [equalFields, Bool.and_eq_true, ih]
      constructor
      · rintro ⟨here, later⟩ key value member
        rcases List.mem_cons.1 member with same | below
        · obtain ⟨rfl, rfl⟩ := Prod.mk.inj same
          cases found : Mapping.get second key with
          | none => simp [found] at here
          | some other => exact ⟨other, rfl, by simpa [found] using here⟩
        · exact later key value below
      · intro all
        refine ⟨?_, fun key value below => all key value (List.mem_cons_of_mem _ below)⟩
        obtain ⟨other, found, equals⟩ := all name one List.mem_cons_self
        rw [found]
        exact equals

/-- Mappings are equal when they have equally many keys and equal values under them. -/
theorem equal_dict {fields : Dict} {second : Value} (distinct : (fields.map Prod.fst).Nodup) :
    equal (.dict fields) second = true ↔
      ∃ others, second = .dict others ∧ fields.length = others.length ∧
        ∀ key value, (key, value) ∈ fields →
          ∃ other, Mapping.get others key = some other ∧ equal value other = true := by
  cases second with
  | none | bool | int | float | str | list => simp [equal]
  | dict others =>
      rw [equal, Bool.or_eq_true, Bool.and_eq_true, beq_iff_eq, equalFields_iff]
      constructor
      · rintro (same | ⟨length, values⟩)
        · obtain rfl := eq_of_sameFields fields others same
          exact ⟨fields, rfl, rfl, fun key value member =>
            ⟨value, Mapping.get_of_mem distinct member, equal_refl value⟩⟩
        · exact ⟨others, rfl, length, values⟩
      · rintro ⟨_, same, length, values⟩
        obtain rfl := Value.dict.inj same
        exact .inr ⟨length, values⟩

theorem names_subset {fields others : Dict}
    (held : ∀ key value, (key, value) ∈ fields → ∃ other, Mapping.get others key = some other) :
    fields.map Prod.fst ⊆ others.map Prod.fst := by
  intro key member
  obtain ⟨⟨_, value⟩, listed, rfl⟩ := List.mem_map.1 member
  obtain ⟨other, found⟩ := held _ value listed
  exact List.mem_map.2 ⟨_, Mapping.mem_of_get found, rfl⟩

/-- A mapping whose keys another mapping has is no longer than that. -/
theorem length_le_of_held {fields others : Dict} (distinct : (fields.map Prod.fst).Nodup)
    (held : ∀ key value, (key, value) ∈ fields → ∃ other, Mapping.get others key = some other) :
    fields.length ≤ others.length := by
  have shorter := (List.subperm_of_subset distinct (names_subset held)).length_le
  rwa [List.length_map, List.length_map] at shorter

/-- Equal mappings have the same keys. -/
theorem names_perm {fields others : Dict} (distinct : (fields.map Prod.fst).Nodup)
    (length : fields.length = others.length)
    (held : ∀ key value, (key, value) ∈ fields → ∃ other, Mapping.get others key = some other) :
    (fields.map Prod.fst).Perm (others.map Prod.fst) := by
  refine List.Subperm.perm_of_length_le (List.subperm_of_subset distinct (names_subset held)) ?_
  rw [List.length_map, List.length_map, length]

/-- Mappings with the same keys in the same order and equal values are equal. -/
theorem equal_of_forall₂ {fields others : Dict} (distinct : (fields.map Prod.fst).Nodup)
    (each : List.Forall₂ (fun one other => one.1 = other.1 ∧ equal one.2 other.2 = true)
      fields others) : equal (.dict fields) (.dict others) = true := by
  refine (equal_dict distinct).2 ⟨others, rfl, each.length_eq, ?_⟩
  induction each with
  | nil =>
      intro key value member
      cases member
  | @cons one other fields others here _ ih =>
      obtain ⟨name, first⟩ := one
      obtain ⟨_, second⟩ := other
      obtain ⟨rfl, equals⟩ := here
      rw [List.map_cons, List.nodup_cons] at distinct
      intro key value member
      rcases List.mem_cons.1 member with same | later
      · obtain ⟨rfl, rfl⟩ := Prod.mk.inj same
        exact ⟨second, by rw [Mapping.get_cons, if_pos rfl], equals⟩
      · have different : name ≠ key := by
          rintro rfl
          exact distinct.1 (List.mem_map.2 ⟨_, later, rfl⟩)
        rw [Mapping.get_cons, if_neg different]
        exact ih distinct.2 key value later

/-! ## Symmetry and transitivity -/

/-- Equality is symmetric. -/
theorem equal_symm (first second : Value) (distinctFirst : Distinct first)
    (distinctSecond : Distinct second) (equals : equal first second = true) :
    equal second first = true := by
  match first with
  | .list items =>
      obtain ⟨others, rfl, each⟩ := equal_list.1 equals
      refine equal_list.2 ⟨items, rfl, ?_⟩
      rw [List.forall₂_iff_get] at each ⊢
      refine ⟨each.1.symm, fun i inOthers inItems => ?_⟩
      have smaller : sizeOf (items.get ⟨i, inItems⟩) < 1 + sizeOf items := by
        have listed := List.sizeOf_lt_of_mem (List.get_mem items ⟨i, inItems⟩)
        omega
      exact equal_symm _ _ (itemsDistinct_iff.1 distinctFirst _ (List.get_mem _ _))
        (itemsDistinct_iff.1 distinctSecond _ (List.get_mem _ _)) (each.2 i inItems inOthers)
  | .dict fields =>
      obtain ⟨others, rfl, length, values⟩ := (equal_dict distinctFirst.1).1 equals
      have names := names_perm distinctFirst.1 length fun key value member =>
        (values key value member).imp fun _ both => both.1
      refine (equal_dict distinctSecond.1).2 ⟨fields, rfl, length.symm, ?_⟩
      intro key other member
      have listed := names.mem_iff.2 (List.mem_map.2 ⟨_, member, rfl⟩)
      obtain ⟨⟨_, value⟩, inFields, rfl⟩ := List.mem_map.1 listed
      refine ⟨value, Mapping.get_of_mem distinctFirst.1 inFields, ?_⟩
      obtain ⟨found, got, same⟩ := values _ value inFields
      rw [Mapping.get_of_mem distinctSecond.1 member] at got
      obtain rfl := Option.some.inj got
      have smaller : sizeOf value < 1 + sizeOf fields := by
        have listed := List.sizeOf_lt_of_mem inFields
        rw [Prod.mk.sizeOf_spec] at listed
        omega
      exact equal_symm value other (fieldsDistinct_iff.1 distinctFirst.2 _ inFields)
        (fieldsDistinct_iff.1 distinctSecond.2 _ member) same
  | .none | .bool _ | .int _ | .float _ | .str _ =>
      have same := (equal_scalar rfl).1 equals
      exact (equal_scalar (by rw [← same]; rfl)).2 same.symm
termination_by sizeOf first

/-- Equality is transitive. -/
theorem equal_trans (first second third : Value) (distinctFirst : Distinct first)
    (distinctSecond : Distinct second) (left : equal first second = true)
    (right : equal second third = true) : equal first third = true := by
  match first with
  | .list items =>
      obtain ⟨others, rfl, each⟩ := equal_list.1 left
      obtain ⟨thirds, rfl, next⟩ := equal_list.1 right
      refine equal_list.2 ⟨thirds, rfl, ?_⟩
      rw [List.forall₂_iff_get] at each next ⊢
      refine ⟨each.1.trans next.1, fun i inItems inThirds => ?_⟩
      have inOthers : i < others.length := each.1 ▸ inItems
      have smaller : sizeOf (items.get ⟨i, inItems⟩) < 1 + sizeOf items := by
        have listed := List.sizeOf_lt_of_mem (List.get_mem items ⟨i, inItems⟩)
        omega
      exact equal_trans _ _ _ (itemsDistinct_iff.1 distinctFirst _ (List.get_mem _ _))
        (itemsDistinct_iff.1 distinctSecond _ (List.get_mem _ _)) (each.2 i inItems inOthers)
        (next.2 i inOthers inThirds)
  | .dict fields =>
      obtain ⟨others, rfl, length, values⟩ := (equal_dict distinctFirst.1).1 left
      obtain ⟨thirds, rfl, next, nextValues⟩ := (equal_dict distinctSecond.1).1 right
      refine (equal_dict distinctFirst.1).2 ⟨thirds, rfl, length.trans next, ?_⟩
      intro key value member
      obtain ⟨other, inOthers, same⟩ := values key value member
      obtain ⟨last, inThirds, again⟩ := nextValues key other (Mapping.mem_of_get inOthers)
      have smaller : sizeOf value < 1 + sizeOf fields := by
        have listed := List.sizeOf_lt_of_mem member
        rw [Prod.mk.sizeOf_spec] at listed
        omega
      exact ⟨last, inThirds, equal_trans value other last
        (fieldsDistinct_iff.1 distinctFirst.2 _ member) (distinct_of_get distinctSecond inOthers)
        same again⟩
  | .none | .bool _ | .int _ | .float _ | .str _ =>
      have same := (equal_scalar rfl).1 left
      have again := (equal_scalar (by rw [← same]; rfl)).1 right
      exact (equal_scalar rfl).2 (same.trans again)
termination_by sizeOf first

end HomeclusterInfra.Python.Value
