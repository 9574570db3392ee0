import HomeclusterInfra.PxeReceipt.Agreement
import HomeclusterInfra.PxeReceipt.Publication

/-!
# The receipt of a date is made once

Whatever order the steps of the runs of a date have, and wherever they fail, a receipt
that is there stays as it is, and one run at most makes it. A run that returns has
measured what the receipt says.

A run that finds the receipt and agrees with it returns it unchanged. A run that looked
before the receipt was there, and comes to link after another has, raises although the
two agree (`receipt_published_once`, `receipt_lost_race`).
-/

set_option autoImplicit false

namespace HomeclusterInfra.PxeReceipt

open Text JsonText Calendar

variable {sha256 : List UInt8 → List Char} {date : List Char}

/-! ## Names -/

theorem receiptName_ne_temporaryName (dated : isDate date = true) (hex : List Char) :
    receiptName date ≠ temporaryName hex := by
  intro same
  rw [isDate, Bool.and_eq_true, decide_eq_true_eq] at dated
  obtain ⟨length, read⟩ := dated
  cases date with
  | nil => cases length
  | cons first rest =>
      have head : first = '.' := (List.cons.inj same).1
      subst head
      have digits : readDigits (('.' :: rest).take 4) = none := by
        rw [List.take_succ_cons, readDigits, List.all_cons]
        rfl
      rw [digits] at read
      cases read

/-! ## What a run may do -/

/-- The receipt of a run. -/
def Stage.value : Stage → Option Json
  | .idle | .refused => none
  | .looking value | .comparing value _ | .creating value | .writing value _ _ _
  | .linking value _ | .unlinking value _ _ | .ended value _ => some value

/-- The temporary name of a run. -/
def Stage.temporary : Stage → Option (List Char)
  | .writing _ temporary _ _ | .linking _ temporary | .unlinking _ temporary _ => some temporary
  | _ => none

/-- What one step of a run does to the directory and to the run. -/
inductive Moves (sha256 : List UInt8 → List Char) (date : List Char) (disk : Disk) :
    Stage → Disk → Stage → Prop where
  | refuse : Moves sha256 date disk .idle disk .refused
  | begin {value : Json} (stores : Stores sha256 (encoded value) date value) :
      Moves sha256 date disk .idle disk (.looking value)
  | found {value : Json} {inode : Nat} (named : disk.names (receiptName date) = some inode) :
      Moves sha256 date disk (.looking value) disk (.comparing value inode)
  | absent {value : Json} (free : disk.names (receiptName date) = none) :
      Moves sha256 date disk (.looking value) disk (.creating value)
  | compare {value : Json} {inode : Nat} :
      Moves sha256 date disk (.comparing value inode) disk
        (.ended value (compared sha256 value (disk.content inode)))
  | create {value : Json} (hex : List Char) (free : disk.names (temporaryName hex) = none) :
      Moves sha256 date disk (.creating value) (disk.create (temporaryName hex))
        (.writing value (temporaryName hex) disk.next (encoded value))
  | written {value : Json} {temporary : List Char} {inode : Nat} :
      Moves sha256 date disk (.writing value temporary inode []) disk (.linking value temporary)
  | append {value : Json} {temporary : List Char} {inode : Nat} (chunk rest : List UInt8) :
      Moves sha256 date disk (.writing value temporary inode (chunk ++ rest))
        (disk.append inode chunk) (.writing value temporary inode rest)
  | link {value : Json} {temporary : List Char} {inode : Nat}
      (named : disk.names temporary = some inode)
      (free : disk.names (receiptName date) = none) :
      Moves sha256 date disk (.linking value temporary) (disk.link (receiptName date) inode)
        (.unlinking value temporary true)
  | abandon {stage : Stage} {value : Json} {temporary : List Char}
      (valued : stage.value = some value) (owns : stage.temporary = some temporary) :
      Moves sha256 date disk stage disk (.unlinking value temporary false)
  | unlink {value : Json} {temporary : List Char} {published : Bool} :
      Moves sha256 date disk (.unlinking value temporary published) (disk.unlink temporary)
        (.ended value (if published then
          .returned "written" (identityOf value) (sha256 (encoded value)) else .raised))
  | stop {stage : Stage} {value : Json} {outcome : Outcome} (valued : stage.value = some value)
      (stopped : outcome = .raised ∨ outcome = .killed) :
      Moves sha256 date disk stage disk (.ended value outcome)

theorem validated_stores {request : Request} {build : Build} {value : Json}
    (built : validated sha256 request build = some value) :
    Stores sha256 (encoded value) request.bundleDate value := by
  simp only [validated, Option.bind_eq_some_iff, Option.ite_none_right_eq_some,
    Option.some.injEq, Bool.and_eq_true] at built
  obtain ⟨measured, steps, ⟨-, valid⟩, rfl⟩ := built
  refine ⟨rfl, valid, ?_⟩
  simp only [measure, Option.ite_none_right_eq_some, Option.bind_eq_bind, Option.bind_eq_some_iff,
    Option.some.injEq] at steps
  obtain ⟨-, manifest, -, paths, -, rpi4, -, rpi5, -, -, rfl⟩ := steps
  exact fieldText_object _ _

theorem moves_of_failed {disk : Disk} {stage stage' : Stage}
    (failed : stage.failed = some stage') : Moves sha256 date disk stage disk stage' := by
  cases stage with
  | idle => exact Option.some.inj failed ▸ .refuse
  | looking | comparing | creating =>
      exact Option.some.inj failed ▸ .stop rfl (.inl rfl)
  | writing | linking => exact Option.some.inj failed ▸ .abandon rfl rfl
  | unlinking value temporary published =>
      cases published with
      | true => exact Option.some.inj failed ▸ .abandon rfl rfl
      | false => exact Option.some.inj failed ▸ .stop rfl (.inl rfl)
  | refused | ended => cases failed

theorem moves_of_killed {disk : Disk} {stage stage' : Stage}
    (killed : stage.killed = some stage') : Moves sha256 date disk stage disk stage' := by
  cases stage with
  | idle => exact Option.some.inj killed ▸ .refuse
  | looking | comparing | creating | writing | linking | unlinking =>
      exact Option.some.inj killed ▸ .stop rfl (.inr rfl)
  | refused | ended => cases killed

/-- **The steps of a run are these.** -/
theorem moves_of_act {disk disk' : Disk} {stage stage' : Stage} {action : Action}
    (acts : act sha256 date disk stage action = some (disk', stage')) :
    Moves sha256 date disk stage disk' stage' := by
  unfold act at acts
  split at acts
  next request build =>
      rw [Option.ite_none_right_eq_some, Option.some.injEq, Prod.mk.injEq] at acts
      obtain ⟨rfl, rfl, rfl⟩ := acts
      cases built : validated sha256 request build with
      | none => exact .refuse
      | some value => exact .begin (validated_stores built)
  next value =>
      split at acts
      next inode named =>
          obtain ⟨rfl, rfl⟩ := Prod.mk.inj (Option.some.inj acts)
          exact .found named
      next free =>
          obtain ⟨rfl, rfl⟩ := Prod.mk.inj (Option.some.inj acts)
          exact .absent free
  next value inode =>
      obtain ⟨rfl, rfl⟩ := Prod.mk.inj (Option.some.inj acts)
      exact .compare
  next value hex =>
      split at acts
      next allowed =>
          obtain ⟨rfl, rfl⟩ := Prod.mk.inj (Option.some.inj acts)
          rw [Bool.and_eq_true, Option.isNone_iff_eq_none] at allowed
          exact .create hex allowed.2
      next =>
          obtain ⟨rfl, rfl⟩ := Prod.mk.inj (Option.some.inj acts)
          exact .stop rfl (.inl rfl)
  next value temporary inode rest count =>
      split at acts
      next empty =>
          obtain ⟨rfl, rfl⟩ := Prod.mk.inj (Option.some.inj acts)
          rw [List.isEmpty_iff] at empty
          subst empty
          exact .written
      next =>
          obtain ⟨rfl, rfl⟩ := Prod.mk.inj (Option.some.inj acts)
          have whole := @Moves.append sha256 date disk value temporary inode (rest.take count)
            (rest.drop count)
          rwa [List.take_append_drop] at whole
  next value temporary =>
      split at acts
      next inode named free =>
          obtain ⟨rfl, rfl⟩ := Prod.mk.inj (Option.some.inj acts)
          exact .link named free
      next =>
          obtain ⟨rfl, rfl⟩ := Prod.mk.inj (Option.some.inj acts)
          exact .abandon rfl rfl
  next value temporary published =>
      obtain ⟨rfl, rfl⟩ := Prod.mk.inj (Option.some.inj acts)
      exact .unlink
  next =>
      obtain ⟨next, failed, same⟩ := Option.map_eq_some_iff.mp acts
      obtain ⟨rfl, rfl⟩ := Prod.mk.inj same
      exact moves_of_failed failed
  next =>
      obtain ⟨next, killed, same⟩ := Option.map_eq_some_iff.mp acts
      obtain ⟨rfl, rfl⟩ := Prod.mk.inj same
      exact moves_of_killed killed
  next => cases acts

/-! ## The invariant -/

/-- A name alone refers to a file. -/
structure Alone (disk : Disk) (name : List Char) (inode : Nat) : Prop where
  named : disk.names name = some inode
  only : ∀ other, disk.names other = some inode → other = name

/-- What holds for a run, by where it is. -/
def Holds (sha256 : List UInt8 → List Char) (date : List Char) (disk : Disk) : Stage → Prop
  | .comparing _ inode => disk.names (receiptName date) = some inode
  | .writing value temporary inode rest =>
      Alone disk temporary inode ∧ disk.content inode ++ rest = encoded value
  | .linking value temporary =>
      ∃ inode, Alone disk temporary inode ∧ disk.content inode = encoded value
  | .unlinking value _ published =>
      published = true → disk.read (receiptName date) = some (encoded value)
  | .ended value (.returned _ receiptId receiptSha256) =>
      ∃ raw stored, disk.read (receiptName date) = some raw ∧ Stores sha256 raw date stored ∧
        SameMeasured value stored ∧ receiptId = identityOf stored ∧ receiptSha256 = sha256 raw
  | _ => True

/-- What holds in every state of the runs of a date. -/
structure Invariant (sha256 : List UInt8 → List Char) (date : List Char) (world : World) : Prop where
  known : ∀ name inode, world.disk.names name = some inode → inode < world.disk.next
  stored : ∀ raw, world.disk.read (receiptName date) = some raw →
    ∃ stored, Stores sha256 raw date stored
  valid : ∀ index value, (world.runs index).value = some value →
    Stores sha256 (encoded value) date value
  temporaries : ∀ index temporary, (world.runs index).temporary = some temporary →
    (∃ hex, temporary = temporaryName hex) ∧ (world.disk.names temporary).isSome
  apart : ∀ index other temporary, (world.runs index).temporary = some temporary →
    (world.runs other).temporary = some temporary → index = other
  stages : ∀ index, Holds sha256 date world.disk (world.runs index)
  once : world.creators.length ≤ 1
  uncreated : world.disk.names (receiptName date) = none → world.creators = []

/-- What a step leaves as it is, but for the temporary name of its run. -/
structure Frame (date : List Char) (own : Option (List Char)) (disk disk' : Disk) : Prop where
  receipt : ∀ inode, disk.names (receiptName date) = some inode →
    disk'.names (receiptName date) = some inode ∧ disk'.content inode = disk.content inode
  temporary : ∀ hex, own ≠ some (temporaryName hex) →
    (disk.names (temporaryName hex)).isSome → (disk'.names (temporaryName hex)).isSome
  alone : ∀ hex inode, own ≠ some (temporaryName hex) → Alone disk (temporaryName hex) inode →
    Alone disk' (temporaryName hex) inode ∧ disk'.content inode = disk.content inode

section Frames

variable {disk disk' : Disk} {own : Option (List Char)}

theorem Frame.refl (own : Option (List Char)) (disk : Disk) : Frame date own disk disk :=
  ⟨fun _ named => ⟨named, rfl⟩, fun _ _ some => some, fun _ _ _ alone => ⟨alone, rfl⟩⟩

theorem Frame.create (known : ∀ name inode, disk.names name = some inode → inode < disk.next)
    {hex : List Char} (free : disk.names (temporaryName hex) = none) :
    Frame date own disk (disk.create (temporaryName hex)) := by
  have kept : ∀ {name inode}, disk.names name = some inode →
      (disk.create (temporaryName hex)).names name = some inode ∧
        (disk.create (temporaryName hex)).content inode = disk.content inode := by
    intro name inode named
    have other : name ≠ temporaryName hex := by
      rintro rfl
      rw [free] at named
      cases named
    have old := known name inode named
    rw [Disk.names_create, if_neg other, Disk.content_create, if_neg (Nat.ne_of_lt old)]
    exact ⟨named, rfl⟩
  refine ⟨fun inode named => kept named, fun hex' _ some => ?_, fun hex' inode _ alone => ?_⟩
  · obtain ⟨inode, named⟩ := Option.isSome_iff_exists.mp some
    rw [(kept named).1]
    rfl
  · obtain ⟨named, content⟩ := kept alone.named
    refine ⟨⟨named, fun other found => ?_⟩, content⟩
    rw [Disk.names_create] at found
    split at found
    next =>
        have old := known _ inode alone.named
        have same := Option.some.inj found
        omega
    next => exact alone.only other found

theorem Frame.append (dated : isDate date = true) {hex : List Char} {inode : Nat}
    (alone : Alone disk (temporaryName hex) inode) (chunk : List UInt8) :
    Frame date (some (temporaryName hex)) disk (disk.append inode chunk) := by
  have kept : ∀ {other}, other ≠ inode →
      (disk.append inode chunk).content other = disk.content other := by
    intro other different
    rw [Disk.content_append, if_neg different]
  refine ⟨fun other named => ⟨named, kept ?_⟩, fun _ _ some => some,
    fun hex' other foreign alone' => ⟨⟨alone'.named, alone'.only⟩, kept ?_⟩⟩
  · rintro rfl
    exact receiptName_ne_temporaryName dated hex (alone.only _ named)
  · rintro rfl
    exact foreign (congrArg some (alone.only _ alone'.named).symm)

theorem Frame.link (dated : isDate date = true) {hex : List Char} {inode : Nat}
    (named : disk.names (temporaryName hex) = some inode)
    (free : disk.names (receiptName date) = none) :
    Frame date (some (temporaryName hex)) disk (disk.link (receiptName date) inode) := by
  have kept : ∀ other, (disk.link (receiptName date) inode).names (temporaryName other) =
      disk.names (temporaryName other) := by
    intro other
    rw [Disk.names_link, if_neg (Ne.symm (receiptName_ne_temporaryName dated other))]
  refine ⟨fun other found => ?_, fun other _ some => kept other ▸ some,
    fun other inode' foreign alone => ⟨⟨(kept other).trans alone.named, fun name found => ?_⟩, rfl⟩⟩
  · rw [free] at found
    cases found
  · rw [Disk.names_link] at found
    split at found
    next =>
        obtain rfl := Option.some.inj found
        exact absurd (congrArg some (alone.only _ named)) foreign
    next => exact alone.only name found

theorem Frame.unlink (dated : isDate date = true) (hex : List Char) :
    Frame date (some (temporaryName hex)) disk (disk.unlink (temporaryName hex)) := by
  have kept : ∀ {name}, name ≠ temporaryName hex →
      (disk.unlink (temporaryName hex)).names name = disk.names name := by
    intro name other
    rw [Disk.names_unlink, if_neg other]
  have fewer : ∀ {name inode}, (disk.unlink (temporaryName hex)).names name = some inode →
      disk.names name = some inode := by
    intro name inode found
    rw [Disk.names_unlink, Option.ite_none_left_eq_some] at found
    exact found.2
  have foreign : ∀ {other}, some (temporaryName hex) ≠ some (temporaryName other) →
      temporaryName other ≠ temporaryName hex := fun apart same => apart (congrArg some same.symm)
  refine ⟨fun inode named => ⟨?_, rfl⟩, fun other apart some => ?_,
    fun other inode apart alone => ⟨⟨?_, fun name found => alone.only name (fewer found)⟩, rfl⟩⟩
  · rw [kept (receiptName_ne_temporaryName dated hex), named]
  · rw [kept (foreign apart)]
    exact some
  · rw [kept (foreign apart), alone.named]

/-- A receipt that is there is read as before. -/
theorem Frame.read (frame : Frame date own disk disk') {raw : List UInt8}
    (stored : disk.read (receiptName date) = some raw) :
    disk'.read (receiptName date) = some raw := by
  obtain ⟨inode, named, content⟩ := Option.map_eq_some_iff.mp stored
  obtain ⟨named', content'⟩ := frame.receipt inode named
  rw [Disk.read, named', Option.map_some, content', content]

/-- What holds for a run holds after a step of another one. -/
theorem Holds.frame {stage : Stage} (holds : Holds sha256 date disk stage)
    (frame : Frame date own disk disk')
    (temporaries : ∀ name, stage.temporary = some name →
      (∃ hex, name = temporaryName hex) ∧ own ≠ some name) :
    Holds sha256 date disk' stage := by
  cases stage with
  | comparing value inode => exact (frame.receipt inode holds).1
  | writing value temporary inode rest =>
      obtain ⟨⟨hex, rfl⟩, foreign⟩ := temporaries temporary rfl
      obtain ⟨alone, content⟩ := frame.alone hex inode foreign holds.1
      exact ⟨alone, content ▸ holds.2⟩
  | linking value temporary =>
      obtain ⟨⟨hex, rfl⟩, foreign⟩ := temporaries temporary rfl
      obtain ⟨inode, alone, whole⟩ := holds
      obtain ⟨alone', content⟩ := frame.alone hex inode foreign alone
      exact ⟨inode, alone', content.trans whole⟩
  | unlinking value temporary published => exact fun linked => frame.read (holds linked)
  | ended value outcome =>
      cases outcome with
      | returned status receiptId receiptSha256 =>
          obtain ⟨raw, stored, read, rest⟩ := holds
          exact ⟨raw, stored, frame.read read, rest⟩
      | raised | killed => trivial
  | idle | refused | looking | creating => trivial

end Frames

/-! ## One step -/

section Steps

variable {disk disk' : Disk} {stage stage' : Stage}

/-- The frame of a step of a run. -/
theorem Moves.frame (moves : Moves sha256 date disk stage disk' stage')
    (dated : isDate date = true)
    (known : ∀ name inode, disk.names name = some inode → inode < disk.next)
    (temporaries : ∀ name, stage.temporary = some name → ∃ hex, name = temporaryName hex)
    (holds : Holds sha256 date disk stage) : Frame date stage.temporary disk disk' := by
  cases moves with
  | create hex free => exact Frame.create known free
  | append chunk rest =>
      obtain ⟨hex, rfl⟩ := temporaries _ rfl
      exact Frame.append dated holds.1 chunk
  | link named free =>
      obtain ⟨hex, rfl⟩ := temporaries _ rfl
      exact Frame.link dated named free
  | unlink =>
      obtain ⟨hex, rfl⟩ := temporaries _ rfl
      exact Frame.unlink dated hex
  | refuse | begin | found | absent | compare | written | abandon | stop =>
      exact Frame.refl _ disk

theorem SameMeasured.refl (value : Json) : SameMeasured value value :=
  fun _ _ _ _ => rfl

/-- The answer of a comparison. -/
theorem compared_eq (hexadecimal : Hexadecimal sha256) {value stored : Json} {raw : List UInt8}
    (own : Stores sha256 (encoded value) date value) (stores : Stores sha256 raw date stored) :
    (SameMeasured value stored →
        compared sha256 value raw = .returned "unchanged" (identityOf stored) (sha256 raw)) ∧
      (¬ SameMeasured value stored → compared sha256 value raw = .raised) := by
  have valid := validateReceipt_eq_true.mp own.valid
  have valid' := validateReceipt_eq_true.mp stores.valid
  have size := valid'.sorted.compactLength_le hexadecimal
  have length := length_encoded stored
  have limit : maxReceipt = 262144 := rfl
  have read : fileBytes maxReceipt raw = some raw := by
    refine fileBytes_eq_some.mpr ⟨?_, rfl⟩
    rw [stores.bytes]
    omega
  have compares := compareReceipt_iff valid valid'
  unfold compared
  rw [read, Option.bind_some, stores.bytes]
  constructor
  · intro same
    rw [(compares _).mpr ⟨same, rfl⟩]
    simp only [identityOf, fieldText_sorted valid'.readable]
  · intro differs
    cases found : compareReceipt sha256 value (encoded stored) with
    | none => rfl
    | some existing => exact absurd ((compares existing).mp found).1 differs

/-- What holds for a run after its own step. -/
theorem Moves.holds (moves : Moves sha256 date disk stage disk' stage')
    (hexadecimal : Hexadecimal sha256) (dated : isDate date = true)
    (known : ∀ name inode, disk.names name = some inode → inode < disk.next)
    (stored : ∀ raw, disk.read (receiptName date) = some raw →
      ∃ stored, Stores sha256 raw date stored)
    (valid : ∀ value, stage.value = some value → Stores sha256 (encoded value) date value)
    (temporaries : ∀ name, stage.temporary = some name → ∃ hex, name = temporaryName hex)
    (holds : Holds sha256 date disk stage) : Holds sha256 date disk' stage' := by
  cases moves with
  | found named => exact named
  | @compare value inode =>
      have named : disk.names (receiptName date) = some inode := holds
      have read : disk.read (receiptName date) = some (disk.content inode) := by
        rw [Disk.read, named, Option.map_some]
      obtain ⟨existing, stores⟩ := stored _ read
      obtain ⟨same, differs⟩ := compared_eq hexadecimal (valid value rfl) stores
      by_cases agree : SameMeasured value existing
      · rw [same agree]
        exact ⟨_, existing, read, stores, agree, rfl, rfl⟩
      · rw [differs agree]
        trivial
  | create hex free =>
      refine ⟨⟨?_, fun other found => ?_⟩, ?_⟩
      · rw [Disk.names_create, if_pos rfl]
      · rw [Disk.names_create] at found
        split at found
        next same => exact same
        next => exact absurd (known other _ found) (Nat.lt_irrefl _)
      · rw [Disk.content_create, if_pos rfl, List.nil_append]
  | written => exact ⟨_, holds.1, (List.append_nil _).symm.trans holds.2⟩
  | append chunk rest =>
      refine ⟨⟨holds.1.named, holds.1.only⟩, ?_⟩
      rw [Disk.content_append, if_pos rfl, List.append_assoc]
      exact holds.2
  | link named free =>
      obtain ⟨inode, alone, whole⟩ := holds
      obtain rfl := Option.some.inj (alone.named.symm.trans named)
      intro _
      rw [Disk.read, Disk.names_link, if_pos rfl, Option.map_some, Disk.content_link, whole]
  | @unlink value temporary published =>
      cases published with
      | false => trivial
      | true =>
          obtain ⟨hex, rfl⟩ := temporaries _ rfl
          have read := (Frame.unlink dated hex).read (holds rfl)
          exact ⟨_, value, read, valid value rfl, .refl value, rfl, rfl⟩
  | abandon => exact fun published => absurd published Bool.false_ne_true
  | stop valued stopped =>
      rcases stopped with rfl | rfl
      · trivial
      · trivial
  | refuse | begin | absent => trivial

/-- The receipt that a run has is its own, or was built now. -/
theorem Moves.value (moves : Moves sha256 date disk stage disk' stage') {value : Json}
    (has : stage'.value = some value) :
    stage.value = some value ∨ Stores sha256 (encoded value) date value := by
  cases moves with
  | begin stores => exact .inr (Option.some.inj has ▸ stores)
  | abandon valued => exact .inl (valued.trans has)
  | stop valued => exact .inl (valued.trans has)
  | refuse => cases has
  | found | absent | compare | create | written | append | link | unlink => exact .inl has

/-- The temporary name that a run has is its own, or is made now. -/
theorem Moves.temporary (moves : Moves sha256 date disk stage disk' stage')
    (dated : isDate date = true)
    (temporaries : ∀ name, stage.temporary = some name →
      (∃ hex, name = temporaryName hex) ∧ (disk.names name).isSome) {name : List Char}
    (has : stage'.temporary = some name) :
    ((∃ hex, name = temporaryName hex) ∧ (disk'.names name).isSome) ∧
      (stage.temporary = some name ∨ disk.names name = none) := by
  cases moves with
  | create hex free =>
      obtain rfl := Option.some.inj has
      rw [Disk.names_create, if_pos rfl]
      exact ⟨⟨⟨hex, rfl⟩, rfl⟩, .inr free⟩
  | link named free =>
      obtain rfl := Option.some.inj has
      obtain ⟨⟨hex, rfl⟩, some⟩ := temporaries _ rfl
      rw [Disk.names_link, if_neg (Ne.symm (receiptName_ne_temporaryName dated hex))]
      exact ⟨⟨⟨hex, rfl⟩, some⟩, .inl rfl⟩
  | abandon valued owns => exact ⟨temporaries name (owns.trans has), .inl (owns.trans has)⟩
  | written | append => exact ⟨temporaries name has, .inl has⟩
  | refuse | begin | found | absent | compare | unlink | stop => cases has

/-- The receipt is made by a link. -/
theorem Moves.creates (moves : Moves sha256 date disk stage disk' stage')
    (dated : isDate date = true) (holds : Holds sha256 date disk stage) {raw : List UInt8}
    (free : disk.names (receiptName date) = none)
    (made : disk'.read (receiptName date) = some raw) :
    ∃ value, stage.value = some value ∧ raw = encoded value := by
  obtain ⟨inode, named, content⟩ := Option.map_eq_some_iff.mp made
  cases moves with
  | create hex =>
      rw [Disk.names_create, if_neg (receiptName_ne_temporaryName dated hex), free] at named
      cases named
  | @link value temporary inode' own =>
      obtain ⟨inode'', alone, whole⟩ := holds
      obtain rfl := Option.some.inj (alone.named.symm.trans own)
      rw [Disk.names_link, if_pos rfl] at named
      obtain rfl := Option.some.inj named
      exact ⟨value, rfl, content.symm.trans whole⟩
  | unlink =>
      rw [Disk.names_unlink, Option.ite_none_left_eq_some, free] at named
      cases named.2
  | refuse | begin | found | absent | compare | written | append | abandon | stop =>
      exact absurd (free.symm.trans named) (by simp)

/-- Files are known by numbers that were given out. -/
theorem Moves.known (moves : Moves sha256 date disk stage disk' stage')
    (known : ∀ name inode, disk.names name = some inode → inode < disk.next) :
    ∀ name inode, disk'.names name = some inode → inode < disk'.next := by
  intro name inode found
  cases moves with
  | create hex =>
      change inode < disk.next + 1
      rw [Disk.names_create] at found
      split at found
      next => exact Option.some.inj found ▸ Nat.lt_succ_self _
      next => exact Nat.lt_succ_of_lt (known name inode found)
  | @link value temporary inode' named =>
      rw [Disk.names_link] at found
      split at found
      next => exact Option.some.inj found ▸ known _ _ named
      next => exact known name inode found
  | unlink =>
      rw [Disk.names_unlink, Option.ite_none_left_eq_some] at found
      exact known name inode found.2
  | refuse | begin | found | absent | compare | written | append | abandon | stop =>
      exact known name inode found

end Steps

/-! ## Runs -/

section Worlds

variable {world world' : World}

theorem step_eq_some {event : Nat × Action} (steps : step sha256 date world event = some world') :
    ∃ stage', Moves sha256 date world.disk (world.runs event.1) world'.disk stage' ∧
      world'.runs = Function.update world.runs event.1 stage' ∧
      world'.creators =
        if (world.disk.names (receiptName date)).isNone &&
            (world'.disk.names (receiptName date)).isSome then
          event.1 :: world.creators
        else world.creators := by
  obtain ⟨⟨disk, stage'⟩, acts, rfl⟩ := Option.map_eq_some_iff.mp steps
  exact ⟨stage', moves_of_act acts, rfl, rfl⟩

/-- The frame of a step. -/
theorem Invariant.frame (invariant : Invariant sha256 date world) (dated : isDate date = true)
    {index : Nat} {disk' : Disk} {stage' : Stage}
    (moves : Moves sha256 date world.disk (world.runs index) disk' stage') :
    Frame date (world.runs index).temporary world.disk disk' :=
  moves.frame dated invariant.known
    (fun name owns => (invariant.temporaries index name owns).1) (invariant.stages index)

/-- **A step keeps the invariant.** -/
theorem Invariant.after_step (invariant : Invariant sha256 date world)
    (hexadecimal : Hexadecimal sha256) (dated : isDate date = true) {event : Nat × Action}
    (steps : step sha256 date world event = some world') : Invariant sha256 date world' := by
  obtain ⟨index, action⟩ := event
  obtain ⟨stage', moves, runs, creators⟩ := step_eq_some steps
  have frame := invariant.frame dated moves
  have holds := invariant.stages index
  have own : world'.runs index = stage' := by rw [runs, Function.update_self]
  have others : ∀ other, other ≠ index → world'.runs other = world.runs other := by
    intro other different
    rw [runs, Function.update_of_ne different]
  have foreign : ∀ other, other ≠ index → ∀ name, (world.runs other).temporary = some name →
      (world.runs index).temporary ≠ some name := fun other different name owns same =>
    different (invariant.apart other index name owns same)
  refine ⟨moves.known invariant.known, ?_, ?_, ?_, ?_, ?_, ?_, ?_⟩
  · intro raw read
    cases old : world.disk.read (receiptName date) with
    | some raw' =>
        obtain rfl := Option.some.inj ((frame.read old).symm.trans read)
        exact invariant.stored _ old
    | none =>
        obtain ⟨value, has, rfl⟩ := moves.creates dated holds (Option.map_eq_none_iff.mp old) read
        exact ⟨value, invariant.valid index value has⟩
  · intro other value has
    by_cases same : other = index
    · subst same
      rw [own] at has
      rcases moves.value has with before | now
      · exact invariant.valid _ value before
      · exact now
    · rw [others other same] at has
      exact invariant.valid other value has
  · intro other name owns
    by_cases same : other = index
    · subst same
      rw [own] at owns
      exact (moves.temporary dated (invariant.temporaries _) owns).1
    · rw [others other same] at owns
      obtain ⟨⟨hex, rfl⟩, some⟩ := invariant.temporaries other name owns
      exact ⟨⟨hex, rfl⟩, frame.temporary hex (foreign other same _ owns) some⟩
  · have fresh : ∀ other name, other ≠ index → stage'.temporary = some name →
        (world.runs other).temporary ≠ some name := by
      intro other name different owns owns'
      rcases (moves.temporary dated (invariant.temporaries index) owns).2 with before | free
      · exact foreign other different name owns' before
      · have some := (invariant.temporaries other name owns').2
        rw [free] at some
        cases some
    intro one other name owns owns'
    by_cases same : one = index
    · by_cases same' : other = index
      · exact same.trans same'.symm
      · rw [others other same'] at owns'
        rw [same, own] at owns
        exact absurd owns' (fresh other name same' owns)
    · rw [others one same] at owns
      by_cases same' : other = index
      · rw [same', own] at owns'
        exact absurd owns (fresh one name same owns')
      · rw [others other same'] at owns'
        exact invariant.apart one other name owns owns'
  · intro other
    by_cases same : other = index
    · subst same
      rw [own]
      exact moves.holds hexadecimal dated invariant.known invariant.stored
        (invariant.valid _) (fun name owns => (invariant.temporaries _ name owns).1) holds
    · rw [others other same]
      exact (invariant.stages other).frame frame fun name owns =>
        ⟨(invariant.temporaries other name owns).1, foreign other same name owns⟩
  · rw [creators]
    split
    next made =>
        rw [Bool.and_eq_true, Option.isNone_iff_eq_none] at made
        rw [invariant.uncreated made.1]
        exact Nat.le_refl 1
    next => exact invariant.once
  · intro free
    have before : world.disk.names (receiptName date) = none := by
      cases old : world.disk.names (receiptName date) with
      | none => rfl
      | some inode => exact absurd (free.symm.trans (frame.receipt inode old).1) (by simp)
    rw [creators, free, Option.isSome_none, Bool.and_false, if_neg Bool.false_ne_true]
    exact invariant.uncreated before

/-- **Runs keep the invariant.** -/
theorem Invariant.after_run (invariant : Invariant sha256 date world)
    (hexadecimal : Hexadecimal sha256) (dated : isDate date = true)
    {events : List (Nat × Action)} (ran : run sha256 date world events = some world') :
    Invariant sha256 date world' := by
  induction events generalizing world with
  | nil => exact Option.some.inj ran ▸ invariant
  | cons event events ih =>
      rw [PxeReceipt.run, List.foldlM_cons] at ran
      obtain ⟨between, first, rest⟩ := Option.bind_eq_some_iff.mp ran
      exact ih (invariant.after_step hexadecimal dated first) rest

/-- **A receipt that is there stays as it is.** -/
theorem Invariant.receipt_stays (invariant : Invariant sha256 date world)
    (hexadecimal : Hexadecimal sha256) (dated : isDate date = true) {raw : List UInt8}
    (stored : world.disk.read (receiptName date) = some raw)
    {events : List (Nat × Action)} (ran : run sha256 date world events = some world') :
    world'.disk.read (receiptName date) = some raw := by
  induction events generalizing world with
  | nil => exact Option.some.inj ran ▸ stored
  | cons event events ih =>
      rw [PxeReceipt.run, List.foldlM_cons] at ran
      obtain ⟨between, first, rest⟩ := Option.bind_eq_some_iff.mp ran
      obtain ⟨stage', moves, -, -⟩ := step_eq_some first
      exact ih (invariant.after_step hexadecimal dated first)
        ((invariant.frame dated moves).read stored) rest

end Worlds

/-! ## Steps one by one -/

section Single

variable {sha256 : List UInt8 → List Char} {date : List Char} {disk disk' : Disk} {world : World}
  {value : Json} {stage : Stage} {index : Nat} {action : Action} {events : List (Nat × Action)}

/-- A step after which the receipt is there if it was there before. -/
theorem step_quiet {current : Stage} (here : world.runs index = current)
    (acts : act sha256 date world.disk current action = some (disk', stage))
    (same : disk'.names (receiptName date) = world.disk.names (receiptName date)) :
    step sha256 date world (index, action) =
      some ⟨disk', Function.update world.runs index stage, world.creators⟩ := by
  have unmade : ((world.disk.names (receiptName date)).isNone &&
      (world.disk.names (receiptName date)).isSome) = false := by
    cases world.disk.names (receiptName date) <;> rfl
  simp only [step, here, acts, Option.map_some, same, unmade, if_neg Bool.false_ne_true]

theorem run_cons {next : World} {event : Nat × Action}
    (steps : step sha256 date world event = some next) :
    run sha256 date world (event :: events) = run sha256 date next events := by
  rw [run, List.foldlM_cons, steps]
  rfl

theorem run_quiet {current : Stage} (here : world.runs index = current)
    (acts : act sha256 date world.disk current action = some (disk', stage))
    (same : disk'.names (receiptName date) = world.disk.names (receiptName date)) :
    run sha256 date world ((index, action) :: events) =
      run sha256 date ⟨disk', Function.update world.runs index stage, world.creators⟩ events :=
  run_cons (step_quiet here acts same)

/-- A step that makes the receipt. -/
theorem run_made {current : Stage} (here : world.runs index = current)
    (acts : act sha256 date world.disk current action = some (disk', stage))
    (free : world.disk.names (receiptName date) = none)
    (made : (disk'.names (receiptName date)).isSome) :
    run sha256 date world ((index, action) :: events) =
      run sha256 date ⟨disk', Function.update world.runs index stage, index :: world.creators⟩
        events := by
  refine run_cons ?_
  simp only [step, here, acts, Option.map_some, free, made, Option.isNone_none, Bool.and_self,
    if_true]

theorem act_begin {request : Request} {build : Build}
    (built : validated sha256 request build = some value) :
    act sha256 request.bundleDate disk .idle (.begin request build) =
      some (disk, .looking value) := by
  rw [act, if_pos rfl, built]
  rfl

theorem act_absent (free : disk.names (receiptName date) = none) :
    act sha256 date disk (.looking value) .look = some (disk, .creating value) := by
  simp only [act, free]

theorem act_create {hex : List Char} (small : (encoded value).length ≤ maxReceipt)
    (free : disk.names (temporaryName hex) = none) :
    act sha256 date disk (.creating value) (.create hex) = some (disk.create (temporaryName hex),
      .writing value (temporaryName hex) disk.next (encoded value)) := by
  rw [act, if_pos]
  rw [free, decide_eq_true small]
  rfl

theorem act_write {temporary : List Char} {inode : Nat} :
    act sha256 date disk (.writing value temporary inode (encoded value))
        (.write (encoded value).length) =
      some (disk.append inode (encoded value), .writing value temporary inode []) := by
  have some : (encoded value).isEmpty = false := by
    have length := length_encoded value
    cases bytes : encoded value with
    | nil => rw [bytes] at length; cases length
    | cons => rfl
  rw [act, if_neg (by rw [some]; exact Bool.false_ne_true), List.take_length, List.drop_length]

theorem act_written {temporary : List Char} {inode : Nat} :
    act sha256 date disk (.writing value temporary inode []) (.write 0) =
      some (disk, .linking value temporary) :=
  rfl

theorem act_link {temporary : List Char} {inode : Nat}
    (named : disk.names temporary = some inode) (free : disk.names (receiptName date) = none) :
    act sha256 date disk (.linking value temporary) .link =
      some (disk.link (receiptName date) inode, .unlinking value temporary true) := by
  simp only [act, named, free]

/-- Another run made the receipt. -/
theorem act_lost {temporary : List Char} {inode : Nat}
    (named : disk.names (receiptName date) = some inode) :
    act sha256 date disk (.linking value temporary) .link =
      some (disk, .unlinking value temporary false) := by
  cases found : disk.names temporary with
  | none => simp only [act, named, found]
  | some other => simp only [act, named, found]

theorem act_unlink {temporary : List Char} {published : Bool} :
    act sha256 date disk (.unlinking value temporary published) .unlink =
      some (disk.unlink temporary, .ended value
        (if published then .returned "written" (identityOf value) (sha256 (encoded value))
          else .raised)) :=
  rfl

end Single

/-! ## The main result -/

/-- No run has begun, and a receipt that is there was published. -/
structure Initial (sha256 : List UInt8 → List Char) (date : List Char) (world : World) : Prop where
  idle : ∀ index, world.runs index = .idle
  known : ∀ name inode, world.disk.names name = some inode → inode < world.disk.next
  stored : ∀ raw, world.disk.read (receiptName date) = some raw →
    ∃ stored, Stores sha256 raw date stored
  creators : world.creators = []

theorem Initial.invariant {world : World} (initial : Initial sha256 date world) :
    Invariant sha256 date world where
  known := initial.known
  stored := initial.stored
  valid := fun index value has => by
    rw [initial.idle] at has
    cases has
  temporaries := fun index name owns => by
    rw [initial.idle] at owns
    cases owns
  apart := fun index other name owns => by
    rw [initial.idle] at owns
    cases owns
  stages := fun index => by
    rw [initial.idle]
    trivial
  once := by rw [initial.creators]; exact Nat.zero_le 1
  uncreated := fun _ => initial.creators

/-- Once the receipt is there, a step changes no file but those with temporary names. -/
theorem Moves.reads {disk disk' : Disk} {stage stage' : Stage}
    (moves : Moves sha256 date disk stage disk' stage')
    (known : ∀ name inode, disk.names name = some inode → inode < disk.next)
    (temporaries : ∀ name, stage.temporary = some name → ∃ hex, name = temporaryName hex)
    (holds : Holds sha256 date disk stage) {name : List Char}
    (stored : (disk.names (receiptName date)).isSome) (other : ∀ hex, name ≠ temporaryName hex) :
    disk'.read name = disk.read name := by
  cases moves with
  | create hex free =>
      rw [Disk.read, Disk.names_create, if_neg (other hex), Disk.read]
      cases named : disk.names name with
      | none => rfl
      | some inode =>
          rw [Option.map_some, Option.map_some, Disk.content_create,
            if_neg (Nat.ne_of_lt (known name inode named))]
  | @append value temporary inode chunk rest =>
      obtain ⟨hex, rfl⟩ := temporaries _ rfl
      rw [Disk.read, Disk.names_append, Disk.read]
      cases named : disk.names name with
      | none => rfl
      | some number =>
          have apart : number ≠ inode := by
            rintro rfl
            exact other hex (holds.1.only name named)
          rw [Option.map_some, Option.map_some, Disk.content_append, if_neg apart]
  | link named free =>
      rw [free] at stored
      cases stored
  | unlink =>
      obtain ⟨hex, rfl⟩ := temporaries _ rfl
      rw [Disk.read, Disk.names_unlink, if_neg (other hex)]
      rfl
  | refuse | begin | found | absent | compare | written | abandon | stop => rfl

/-- What holds for the runs of a date in a state that they reach. -/
structure Published (sha256 : List UInt8 → List Char) (date : List Char) (world : World) :
    Prop where
  /-- A receipt that is there is a valid one, and stays as it is whatever follows. -/
  immutable : ∀ raw, world.disk.read (receiptName date) = some raw →
    (∃ stored, Stores sha256 raw date stored) ∧ ∀ events later,
      run sha256 date world events = some later →
        later.disk.read (receiptName date) = some raw
  /-- One run at most made it. -/
  once : world.creators.length ≤ 1
  /-- Once it is there, nothing else changes but files with temporary names. -/
  still : ∀ event later, step sha256 date world event = some later →
    (world.disk.read (receiptName date)).isSome → ∀ name, (∀ hex, name ≠ temporaryName hex) →
      later.disk.read name = world.disk.read name
  /-- A run that returned has measured what the receipt says, and answers with its hash. -/
  returned : ∀ index value status receiptId receiptSha256,
    world.runs index = .ended value (.returned status receiptId receiptSha256) →
      ∃ raw stored, world.disk.read (receiptName date) = some raw ∧ Stores sha256 raw date stored ∧
        SameMeasured value stored ∧ receiptId = identityOf stored ∧ receiptSha256 = sha256 raw
  /-- A run that looks finds the receipt if it is there. -/
  finds : ∀ index value raw, world.runs index = .looking value →
    world.disk.read (receiptName date) = some raw → ∃ inode later,
      step sha256 date world (index, .look) = some later ∧ later.disk = world.disk ∧
        later.runs index = .comparing value inode
  /-- A run that found it and compares it changes nothing, and returns if the two agree. -/
  compares : ∀ index value inode, world.runs index = .comparing value inode →
    ∃ raw stored later, world.disk.read (receiptName date) = some raw ∧
      Stores sha256 raw date stored ∧ step sha256 date world (index, .compare) = some later ∧
        later.disk = world.disk ∧
        (SameMeasured value stored → later.runs index =
          .ended value (.returned "unchanged" (identityOf stored) (sha256 raw))) ∧
        (¬ SameMeasured value stored → later.runs index = .ended value .raised)
  /-- A run that comes too late with its link raises, and removes its temporary name. -/
  loses : ∀ index value temporary, world.runs index = .linking value temporary →
    (world.disk.read (receiptName date)).isSome → ∃ later,
      run sha256 date world [(index, .link), (index, .unlink)] = some later ∧
        later.disk = world.disk.unlink temporary ∧ later.runs index = .ended value .raised

/-- **The receipt of a date is made once and stays as it is**, in every order of the steps
of its runs, with failures and kills anywhere. -/
theorem receipt_published_once (hexadecimal : Hexadecimal sha256) (dated : isDate date = true)
    {start world : World} {events : List (Nat × Action)} (initial : Initial sha256 date start)
    (ran : run sha256 date start events = some world) : Published sha256 date world := by
  have invariant := initial.invariant.after_run hexadecimal dated ran
  refine ⟨fun raw read => ⟨invariant.stored raw read, fun events later further => ?_⟩,
    invariant.once, fun event later steps some name other => ?_,
    fun index value status receiptId receiptSha256 ended => ?_, fun index value raw here read => ?_,
    fun index value inode here => ?_, fun index value temporary here some => ?_⟩
  · exact invariant.receipt_stays hexadecimal dated read further
  · obtain ⟨stage', moves, -, -⟩ := step_eq_some steps
    exact moves.reads invariant.known (fun name owns => (invariant.temporaries _ name owns).1)
      (invariant.stages _) (by rwa [Disk.read, Option.isSome_map] at some) other
  · have holds := invariant.stages index
    rw [ended] at holds
    exact holds
  · obtain ⟨inode, named, -⟩ := Option.map_eq_some_iff.mp read
    have acts : act sha256 date world.disk (.looking value) .look =
        some (world.disk, .comparing value inode) := by simp only [act, named]
    exact ⟨inode, _, step_quiet here acts rfl, rfl, Function.update_self _ _ _⟩
  · have named := invariant.stages index
    rw [here] at named
    have read : world.disk.read (receiptName date) = some (world.disk.content inode) := by
      rw [Disk.read, show world.disk.names (receiptName date) = some inode from named,
        Option.map_some]
    obtain ⟨stored, stores⟩ := invariant.stored _ read
    have own := invariant.valid index value (by rw [here]; rfl)
    obtain ⟨same, differs⟩ := compared_eq hexadecimal own stores
    have acts : act sha256 date world.disk (.comparing value inode) .compare = some (world.disk,
      .ended value (compared sha256 value (world.disk.content inode))) := rfl
    refine ⟨_, stored, _, read, stores, step_quiet here acts rfl, rfl, fun agree => ?_,
      fun differ => ?_⟩
    · exact (Function.update_self _ _ _).trans (congrArg _ (same agree))
    · exact (Function.update_self _ _ _).trans (congrArg _ (differs differ))
  · rw [Disk.read, Option.isSome_map] at some
    obtain ⟨inode, named⟩ := Option.isSome_iff_exists.mp some
    obtain ⟨⟨hex, rfl⟩, -⟩ := invariant.temporaries index temporary (by rw [here]; rfl)
    refine ⟨?later, ?ran, ?facts⟩
    case ran =>
      refine (run_quiet here (act_lost named) (by rfl)).trans ?_
      refine (run_quiet (Function.update_self _ _ _) act_unlink ?_).trans ?_
      · rw [Disk.names_unlink, if_neg (receiptName_ne_temporaryName dated hex)]
      rfl
    case facts => exact ⟨rfl, Function.update_self _ _ _⟩

theorem validated_of_measure {sha256 : List UInt8 → List Char} (hexadecimal : Hexadecimal sha256)
    {request : Request} {build : Build} {value : Json}
    (measured : measure sha256 request build = some value)
    (order : build.started.fields ≤ build.finished.fields) :
    validated sha256 request build = some value := by
  obtain ⟨manifest, rpi4, rpi5, built, rfl⟩ := measure_eq_some hexadecimal measured
  have valid := built.valid hexadecimal order
  rw [validated, measured, Option.bind_some, if_pos]
  rw [valid.window, validateReceipt_eq_true.mpr valid]
  rfl

section Race

variable {sha256 : List UInt8 → List Char} {date : List Char} {world : World} {value : Json}
  {index : Nat}

/-- The steps of a run from the temporary name on. -/
def publication (index : Nat) (hex : List Char) (size : Nat) : List (Nat × Action) :=
  [(index, .create hex), (index, .write size), (index, .write 0), (index, .link), (index, .unlink)]

/-- A run that finds the name free publishes. -/
theorem run_publishes {hex : List Char} (here : world.runs index = .creating value)
    (other : receiptName date ≠ temporaryName hex) (small : (encoded value).length ≤ maxReceipt)
    (unused : world.disk.names (temporaryName hex) = none)
    (free : world.disk.names (receiptName date) = none) :
    ∃ next, run sha256 date world (publication index hex (encoded value).length) = some next ∧
      next.disk.names (receiptName date) = some world.disk.next ∧
      next.disk.content world.disk.next = encoded value ∧
      next.disk.next = world.disk.next + 1 ∧
      (∀ name, name ≠ receiptName date → name ≠ temporaryName hex →
        next.disk.names name = world.disk.names name) ∧
      (∀ other, other ≠ index → next.runs other = world.runs other) ∧
      next.creators = index :: world.creators := by
  refine ⟨?world, ?ran, ?facts⟩
  case ran =>
    refine (run_quiet here (act_create small unused) ?_).trans ?_
    · rw [Disk.names_create, if_neg other]
    refine (run_quiet (Function.update_self _ _ _) act_write (by rfl)).trans ?_
    refine (run_quiet (Function.update_self _ _ _) act_written (by rfl)).trans ?_
    refine (run_made (Function.update_self _ _ _) (@act_link _ _ _ _ _ world.disk.next ?_ ?_)
      ?_ ?_).trans ?_
    · rw [Disk.names_append, Disk.names_create, if_pos rfl]
    · rw [Disk.names_append, Disk.names_create, if_neg other, free]
    · rw [Disk.names_append, Disk.names_create, if_neg other, free]
    · rw [Disk.names_link, if_pos rfl]
      rfl
    refine (run_quiet (Function.update_self _ _ _) act_unlink ?_).trans ?_
    · rw [Disk.names_unlink, if_neg other]
    rfl
  case facts =>
    refine ⟨?_, ?_, rfl, fun name apart apart' => ?_, fun index' different => ?_, rfl⟩
    · rw [Disk.names_unlink, if_neg other, Disk.names_link, if_pos rfl]
    · simp
    · rw [Disk.names_unlink, if_neg apart', Disk.names_link, if_neg apart, Disk.names_append,
        Disk.names_create, if_neg apart']
    · simp only [Function.update_of_ne different]

/-- A run that finds the name taken raises. -/
theorem run_loses {hex : List Char} {inode : Nat} (here : world.runs index = .creating value)
    (other : receiptName date ≠ temporaryName hex) (small : (encoded value).length ≤ maxReceipt)
    (unused : world.disk.names (temporaryName hex) = none)
    (old : inode ≠ world.disk.next)
    (taken : world.disk.names (receiptName date) = some inode) :
    ∃ next, run sha256 date world (publication index hex (encoded value).length) = some next ∧
      next.runs index = .ended value .raised ∧ next.creators = world.creators ∧
      next.disk.read (receiptName date) = some (world.disk.content inode) := by
  refine ⟨?world, ?ran, ?facts⟩
  case ran =>
    refine (run_quiet here (act_create small unused) ?_).trans ?_
    · rw [Disk.names_create, if_neg other]
    refine (run_quiet (Function.update_self _ _ _) act_write (by rfl)).trans ?_
    refine (run_quiet (Function.update_self _ _ _) act_written (by rfl)).trans ?_
    refine (run_quiet (Function.update_self _ _ _) (@act_lost _ _ _ _ _ inode ?_)
      (by rfl)).trans ?_
    · rw [Disk.names_append, Disk.names_create, if_neg other, taken]
    refine (run_quiet (Function.update_self _ _ _) act_unlink ?_).trans ?_
    · rw [Disk.names_unlink, if_neg other]
    rfl
  case facts =>
    refine ⟨Function.update_self _ _ _, rfl, ?_⟩
    simp [Disk.read, other, taken, old]

end Race

/-- An empty directory. -/
def emptyWorld : World :=
  ⟨⟨fun _ => none, fun _ => [], 0⟩, fun _ => .idle, []⟩

/-- Two runs that look, and then publish one after the other. -/
def race (build : Build) (size : Nat) : List (Nat × Action) :=
  [(0, .begin sampleRequest build), (1, .begin sampleRequest build), (0, .look), (1, .look)] ++
    (publication 0 "0".toList size ++ publication 1 "1".toList size)

theorem run_append (sha256 : List UInt8 → List Char) (date : List Char) (world : World)
    (events later : List (Nat × Action)) :
    run sha256 date world (events ++ later) =
      (run sha256 date world events).bind fun next => run sha256 date next later :=
  List.foldlM_append

theorem ended_of_race {build : Build} {value : Json}
    (built : validated sampleSha256 sampleRequest build = some value)
    (small : (encoded value).length ≤ maxReceipt) :
    ∃ world, run sampleSha256 sampleRequest.bundleDate emptyWorld
        (race build (encoded value).length) = some world ∧
      world.runs 1 = .ended value .raised ∧ world.creators = [0] ∧
      world.disk.read (receiptName sampleRequest.bundleDate) = some (encoded value) := by
  have names : receiptName sampleRequest.bundleDate ≠ temporaryName "0".toList ∧
      receiptName sampleRequest.bundleDate ≠ temporaryName "1".toList ∧
      temporaryName "1".toList ≠ temporaryName "0".toList := by decide
  obtain ⟨other, other', apart⟩ := names
  have looked : ∃ world, run sampleSha256 sampleRequest.bundleDate emptyWorld
      [(0, .begin sampleRequest build), (1, .begin sampleRequest build), (0, .look), (1, .look)] =
        some world ∧ world.runs 0 = .creating value ∧ world.runs 1 = .creating value ∧
      world.disk = emptyWorld.disk ∧ world.creators = [] := by
    refine ⟨?world, ?ran, ?facts⟩
    case ran =>
      refine (run_quiet (by rfl) (act_begin built) (by rfl)).trans ?_
      refine (run_quiet (by rfl) (act_begin built) (by rfl)).trans ?_
      refine (run_quiet (by rfl) (act_absent (by rfl)) (by rfl)).trans ?_
      refine (run_quiet (by rfl) (act_absent (by rfl)) (by rfl)).trans ?_
      rfl
    case facts => exact ⟨rfl, rfl, rfl, rfl⟩
  obtain ⟨world, ran, first, second, disk, creators⟩ := looked
  obtain ⟨next, ran', named, content, more, kept, runs, made⟩ := @run_publishes sampleSha256
    sampleRequest.bundleDate world value 0 "0".toList first other small (disk ▸ rfl) (disk ▸ rfl)
  have unused : next.disk.names (temporaryName "1".toList) = none := by
    rw [kept _ (Ne.symm other') apart, disk]
    rfl
  have waits : next.runs 1 = .creating value := by
    rw [runs 1 Nat.one_ne_zero, second]
  obtain ⟨last, ran'', raised, unmade, read⟩ := @run_loses sampleSha256 sampleRequest.bundleDate
    next value 1 "1".toList _ waits other' small unused (by omega) named
  refine ⟨last, ?_, raised, ?_, ?_⟩
  · rw [race, run_append, ran, Option.bind_some, run_append, ran', Option.bind_some, ran'']
  · rw [unmade, made, creators]
  · rw [read, content]

theorem emptyWorld_initial :
    Initial sampleSha256 sampleRequest.bundleDate emptyWorld where
  idle := fun _ => rfl
  known := fun _ _ named => absurd named (by simp [emptyWorld])
  stored := fun _ read => absurd read (by simp [emptyWorld, Disk.read])
  creators := rfl

/-- A receipt that is built, and runs that race with it. -/
theorem race_sample : ∃ build value world,
    Stores sampleSha256 (encoded value) sampleRequest.bundleDate value ∧
      run sampleSha256 sampleRequest.bundleDate emptyWorld (race build (encoded value).length) =
        some world ∧
      world.runs 1 = .ended value .raised ∧ world.creators = [0] ∧
      world.disk.read (receiptName sampleRequest.bundleDate) = some (encoded value) := by
  obtain ⟨value, measured⟩ := sample_measured (sampleMoment 0 (by decide))
    (sampleMoment 1 (by decide))
  have built := validated_of_measure sampleSha256_hexadecimal measured (by decide)
  have stores := validated_stores built
  have valid := validateReceipt_eq_true.mp stores.valid
  have small : (encoded value).length ≤ maxReceipt := by
    have size := valid.sorted.compactLength_le sampleSha256_hexadecimal
    rw [length_encoded, maxReceipt]
    omega
  obtain ⟨world, ran, rest⟩ := ended_of_race built small
  exact ⟨_, value, world, stores, ran, rest⟩

theorem receipt_published_once_sample : ∃ build value world,
    run sampleSha256 sampleRequest.bundleDate emptyWorld (race build (encoded value).length) =
        some world ∧
      Published sampleSha256 sampleRequest.bundleDate world := by
  obtain ⟨build, value, world, -, ran, -⟩ := race_sample
  exact ⟨build, value, world, ran,
    receipt_published_once sampleSha256_hexadecimal (by decide) emptyWorld_initial ran⟩

/-- **A run may raise although the stored receipt agrees with it**, when another run
published after it had looked. -/
theorem receipt_lost_race :
    ¬ ∀ (start world : World) (events : List (Nat × Action)),
      Initial sampleSha256 sampleRequest.bundleDate start →
      run sampleSha256 sampleRequest.bundleDate start events = some world →
      (∀ event ∈ events, event.2 ≠ .fail ∧ event.2 ≠ .kill) →
      ∀ (index : Nat) (value stored : Json) (outcome : Outcome) (raw : List UInt8),
        world.runs index = .ended value outcome → index ∉ world.creators →
        world.disk.read (receiptName sampleRequest.bundleDate) = some raw →
        Stores sampleSha256 raw sampleRequest.bundleDate stored → SameMeasured value stored →
        outcome = .returned "unchanged" (identityOf stored) (sampleSha256 raw) := by
  intro returns
  obtain ⟨build, value, world, stores, ran, raised, creators, read⟩ := race_sample
  have undisturbed : ∀ event ∈ race build (encoded value).length,
      event.2 ≠ .fail ∧ event.2 ≠ .kill := by
    simp [race, publication]
  have outcome := returns emptyWorld world _ emptyWorld_initial ran undisturbed 1 value value
    .raised _ raised (by rw [creators]; decide) read stores (.refl value)
  cases outcome

end HomeclusterInfra.PxeReceipt
