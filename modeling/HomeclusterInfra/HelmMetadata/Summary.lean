import HomeclusterInfra.Library.Checked
import HomeclusterInfra.Library.Latest
import HomeclusterInfra.Library.NamedTree
import HomeclusterInfra.Library.PyValue
import Mathlib.Data.Prod.Lex
import Mathlib.Data.String.Basic

/-!
# The summary of the Helm metadata

`k3s_helm_metadata_status.py` lists the labels of all Helm secrets and sums them up:
the release of highest revision for each namespace and name, the number of failed
records and the number of releases that are pending. `_parse` does so in one pass with
a set of what it has seen, and refuses a list with a record it cannot use. The result
does not depend on the order of the records.
-/

set_option autoImplicit false

namespace HomeclusterInfra.HelmMetadata

open Text Python Checked Latest

/-! ## Records -/

/-- `STATUSES` -/
inductive Status where
  | deployed
  | superseded
  | failed
  | pendingInstall
  | pendingUpgrade
  | pendingRollback
  | uninstalled
  | uninstalling
deriving DecidableEq

def Status.text : Status → String
  | deployed => "deployed"
  | superseded => "superseded"
  | failed => "failed"
  | pendingInstall => "pending-install"
  | pendingUpgrade => "pending-upgrade"
  | pendingRollback => "pending-rollback"
  | uninstalled => "uninstalled"
  | uninstalling => "uninstalling"

def Status.all : List Status :=
  [deployed, superseded, failed, pendingInstall, pendingUpgrade, pendingRollback, uninstalled,
    uninstalling]

/-- `status.startswith("pending-")` -/
def Status.isPending (status : Status) : Bool :=
  "pending-".toList.isPrefixOf status.text.toList

/-- One revision of a release. -/
structure Release where
  namespaceName : String
  name : String
  revision : Nat
  status : Status
deriving DecidableEq

/-- What the releases are kept and sorted under. -/
def Release.key (release : Release) : String ×ₗ String :=
  toLex (release.namespaceName, release.name)

/-- What no two records may share. -/
def Release.identity (release : Release) : (String ×ₗ String) × Nat :=
  (release.key, release.revision)

/-! ## Reading a record -/

/-- What `_parse` raises. -/
inductive Raised where
  | valueError (message : String)
  | typeError
deriving DecidableEq

def listInvalid : Raised := .valueError "metadata list invalid"
def listTruncated : Raised := .valueError "metadata list truncated"
def cardinalityInvalid : Raised := .valueError "metadata cardinality invalid"
def objectInvalid : Raised := .valueError "full Secret object or invalid metadata"
def labelInvalid : Raised := .valueError "Helm label invalid"
def identityInvalid : Raised := .valueError "metadata identity invalid"
def revisionInvalid : Raised := .valueError "metadata revision invalid"
def releasesInvalid : Raised := .valueError "release cardinality invalid"

/-- `MAX_RECORDS` -/
def maxRecords : Nat := 128

/-- `MAX_RELEASES` -/
def maxReleases : Nat := 32

/-- `set(fields) == keys` -/
def keysAre (fields : Dict) (keys : List String) : Bool :=
  keys.all fields.has && fields.all fun field => keys.contains field.1

/-- `fields.get(key) == text` -/
def fieldIs (fields : Dict) (key text : String) : Bool :=
  (fields.get key).any (Value.same · (.str text))

/-- `[a-z0-9]` -/
def isNameChar (char : Char) : Bool :=
  char.isLower || char.isDigit

/-- `NAME.fullmatch` -/
def isName (text : List Char) : Bool :=
  text.head?.any isNameChar && text.getLast?.any isNameChar &&
    text.all (fun char => isNameChar char || char = '-') && text.length ≤ 63

/-- The metadata of an item. -/
def metadataOf : Value → Except Raised Dict
  | .dict item => do
      require (keysAre item ["apiVersion", "kind", "metadata"] &&
        fieldIs item "apiVersion" "meta.k8s.io/v1" &&
        fieldIs item "kind" "PartialObjectMetadata") objectInvalid
      match Mapping.get item "metadata" with
      | some (.dict metadata) => .ok metadata
      | _ => .error objectInvalid
  | _ => .error objectInvalid

/-- The labels of an owner `helm`. -/
def labelsOf (metadata : Dict) : Except Raised Dict :=
  match metadata.get "labels" with
  | some (.dict labels) => do
      require (fieldIs labels "owner" "helm") labelInvalid
      return labels
  | _ => .error labelInvalid

/-- A text that `NAME` matches. Another type cannot be matched at all. -/
def nameOf : Option Value → Except Raised String
  | some (.str text) => do
      require (isName text.toList) identityInvalid
      return text
  | _ => .error .typeError

/-- A member of `STATUSES`. A list or an object cannot be looked up. -/
def statusOf : Option Value → Except Raised Status
  | some (.str text) =>
      match Status.all.find? (·.text = text) with
      | some status => .ok status
      | none => .error identityInvalid
  | some (.list _) | some (.dict _) => .error .typeError
  | _ => .error identityInvalid

/-- One to six ASCII digits. -/
def revisionText : Option Value → Except Raised (List Char)
  | some (.str text) => do
      require (text.toList.all Char.isDigit && 1 ≤ text.toList.length && text.toList.length ≤ 6)
        identityInvalid
      return text.toList
  | _ => .error identityInvalid

/-- The tests of one record that do not depend on the others. -/
def readRecord (item : Value) : Except Raised Release := do
  let metadata ← metadataOf item
  let labels ← labelsOf metadata
  let namespaceName ← nameOf (metadata.get "namespace")
  let name ← nameOf (labels.get "name")
  let status ← statusOf (labels.get "status")
  let digits ← revisionText (labels.get "version")
  require (1 ≤ digitsValue digits && natText (digitsValue digits) = digits) revisionInvalid
  return ⟨namespaceName, name, digitsValue digits, status⟩

/-! ## The pass -/

structure Tally where
  seen : List ((String ×ₗ String) × Nat)
  latest : List ((String ×ₗ String) × Release)
  failed : Nat

def Tally.start : Tally :=
  ⟨[], [], 0⟩

def Tally.add (tally : Tally) (release : Release) : Tally where
  seen := release.identity :: tally.seen
  latest := keep Release.key Release.revision tally.latest release
  failed := if release.status = .failed then tally.failed + 1 else tally.failed

def step (tally : Tally) (item : Value) : Except Raised Tally := do
  let release ← readRecord item
  require (!tally.seen.contains release.identity) revisionInvalid
  return tally.add release

structure Summary where
  releases : List Release
  failed : Nat
  pending : Nat
  records : Nat
deriving DecidableEq

/-- What is returned after the pass. -/
def Tally.summary (tally : Tally) (records : Nat) : Summary :=
  let releases := (sortedByKey tally.latest).map Prod.snd
  ⟨releases, tally.failed, releases.countP (·.status.isPending), records⟩

/-- `meta.get("continue") in (None, "")` -/
def isComplete (metadata : Dict) : Bool :=
  match metadata.get "continue" with
  | none | some .none => true
  | some (.str text) => text = ""
  | _ => false

/-- The items of a list that is complete and of a permitted length. -/
def itemsOf : Value → Except Raised (List Value)
  | .dict fields => do
      require (keysAre fields ["kind", "apiVersion", "metadata", "items"]) listInvalid
      match Mapping.get fields "metadata" with
      | some (.dict metadata) => do
          require (isComplete metadata) listTruncated
          match Mapping.get fields "items" with
          | some (.list items) => do
              require (1 ≤ items.length && items.length ≤ maxRecords) cardinalityInvalid
              return items
          | _ => .error cardinalityInvalid
      | _ => .error listTruncated
  | _ => .error listInvalid

/-- `_parse` -/
def parse (value : Value) : Except Raised Summary := do
  let items ← itemsOf value
  let tally ← items.foldlM step .start
  require (tally.latest.length ≤ maxReleases) releasesInvalid
  return tally.summary items.length

/-! ## What a record says -/

/-- The metadata and labels of an item are those of a release. -/
def Describes (item : Value) (release : Release) : Prop :=
  ∃ fields metadata labels : Dict, item = .dict fields ∧
    fields.get "metadata" = some (.dict metadata) ∧
    metadata.get "labels" = some (.dict labels) ∧
    metadata.get "namespace" = some (.str release.namespaceName) ∧
    labels.get "name" = some (.str release.name) ∧
    labels.get "status" = some (.str release.status.text) ∧
    labels.get "version" = some (.str (String.ofList (natText release.revision)))

theorem metadataOf_eq_ok {item : Value} {metadata : Dict} (read : metadataOf item = .ok metadata) :
    ∃ fields : Dict, item = .dict fields ∧ fields.get "metadata" = some (.dict metadata) := by
  unfold metadataOf at read
  split at read
  next fields =>
    rw [require_bind_eq_ok] at read
    obtain ⟨-, read⟩ := read
    split at read
    next other found =>
      cases read
      exact ⟨fields, rfl, found⟩
    next => cases read
  next => cases read

theorem labelsOf_eq_ok {metadata labels : Dict} (read : labelsOf metadata = .ok labels) :
    metadata.get "labels" = some (.dict labels) := by
  unfold labelsOf at read
  split at read
  next other found =>
    rw [require_bind_eq_ok, pure_eq_ok] at read
    rw [found, read.2]
  next => cases read

theorem nameOf_eq_ok {value : Option Value} {name : String} (read : nameOf value = .ok name) :
    value = some (.str name) := by
  unfold nameOf at read
  split at read
  next text =>
    rw [require_bind_eq_ok, pure_eq_ok] at read
    rw [read.2]
  next => cases read

theorem statusOf_eq_ok {value : Option Value} {status : Status}
    (read : statusOf value = .ok status) : value = some (.str status.text) := by
  unfold statusOf at read
  split at read
  next text =>
    split at read
    next found here =>
      cases read
      have same : status.text = text := by simpa using List.find?_some here
      rw [same]
    next => cases read
  next => cases read
  next => cases read
  next => cases read

theorem revisionText_eq_ok {value : Option Value} {digits : List Char}
    (read : revisionText value = .ok digits) : value = some (.str (String.ofList digits)) := by
  unfold revisionText at read
  split at read
  next text =>
    rw [require_bind_eq_ok, pure_eq_ok] at read
    rw [← read.2, String.ofList_toList]
  next => cases read

/-- **A record that is read says what was read.** -/
theorem describes_of_readRecord {item : Value} {release : Release}
    (read : readRecord item = .ok release) : Describes item release := by
  simp only [readRecord, bind_eq_ok, pure_eq_ok, require_eq_ok, Bool.and_eq_true,
    decide_eq_true_eq] at read
  obtain ⟨metadata, readMetadata, labels, readLabels, namespaceName, readNamespace, name, readName,
    status, readStatus, digits, readDigits, -, ⟨-, plain⟩, rfl⟩ := read
  obtain ⟨fields, rfl, found⟩ := metadataOf_eq_ok readMetadata
  refine ⟨fields, metadata, labels, rfl, found, labelsOf_eq_ok readLabels,
    nameOf_eq_ok readNamespace, nameOf_eq_ok readName, statusOf_eq_ok readStatus, ?_⟩
  rw [revisionText_eq_ok readDigits]
  exact congrArg (fun digits => some (Value.str (String.ofList digits))) plain.symm

/-! ## What the pass finds -/

/-- The releases that can be read. -/
def readings (items : List Value) : List Release :=
  items.filterMap fun item => (readRecord item).toOption

theorem step_eq_ok {tally result : Tally} {item : Value} : step tally item = .ok result ↔
    ∃ release, readRecord item = .ok release ∧ release.identity ∉ tally.seen ∧
      result = tally.add release := by
  simp only [step, bind_eq_ok, pure_eq_ok, require_eq_ok, Bool.not_eq_true', List.contains_eq_mem,
    decide_eq_false_iff_not]
  constructor
  · rintro ⟨release, read, -, fresh, rfl⟩
    exact ⟨release, read, fresh, rfl⟩
  · rintro ⟨release, read, fresh, rfl⟩
    exact ⟨release, read, ⟨⟩, fresh, rfl⟩

/-- **The pass succeeds on different records that can be read**, and adds them up. -/
theorem foldlM_step_eq_ok {items : List Value} {tally result : Tally} :
    items.foldlM step tally = .ok result ↔
      (∀ item ∈ items, ∃ release, readRecord item = .ok release) ∧
        (∀ release ∈ readings items, release.identity ∉ tally.seen) ∧
        ((readings items).map Release.identity).Nodup ∧
        result = (readings items).foldl Tally.add tally := by
  induction items generalizing tally result with
  | nil =>
      rw [List.foldlM_nil, pure_eq_ok]
      simp [readings, eq_comm]
  | cons item items ih =>
      rw [List.foldlM_cons, bind_eq_ok]
      constructor
      · rintro ⟨middle, stepped, rest⟩
        obtain ⟨release, read, fresh, rfl⟩ := step_eq_ok.mp stepped
        obtain ⟨readable, apart, distinct, rfl⟩ := ih.mp rest
        have front : readings (item :: items) = release :: readings items := by
          rw [readings, List.filterMap_cons, read]
          rfl
        rw [front]
        refine ⟨List.forall_mem_cons.mpr ⟨⟨release, read⟩, readable⟩,
          List.forall_mem_cons.mpr ⟨fresh, fun other member => ?_⟩, ?_, rfl⟩
        · exact fun before => apart other member (List.mem_cons_of_mem _ before)
        · rw [List.map_cons, List.nodup_cons]
          refine ⟨fun again => ?_, distinct⟩
          obtain ⟨other, member, same⟩ := List.mem_map.mp again
          exact apart other member (same ▸ List.mem_cons_self)
      · rintro ⟨readable, apart, distinct, rfl⟩
        rw [List.forall_mem_cons] at readable
        obtain ⟨⟨release, read⟩, readable⟩ := readable
        have front : readings (item :: items) = release :: readings items := by
          rw [readings, List.filterMap_cons, read]
          rfl
        rw [front] at apart distinct
        rw [List.map_cons, List.nodup_cons] at distinct
        rw [List.forall_mem_cons] at apart
        refine ⟨tally.add release, step_eq_ok.mpr ⟨release, read, apart.1, rfl⟩, ?_⟩
        rw [front, List.foldl_cons, ih]
        refine ⟨readable, fun other member before => ?_, distinct.2, rfl⟩
        rcases List.mem_cons.mp before with same | earlier
        · exact distinct.1 (same ▸ List.mem_map_of_mem member)
        · exact apart.2 other member earlier

theorem foldl_add (releases : List Release) (tally : Tally) :
    (releases.foldl Tally.add tally).latest =
        releases.foldl (keep Release.key Release.revision) tally.latest ∧
      (releases.foldl Tally.add tally).failed =
        tally.failed + releases.countP (·.status = .failed) := by
  induction releases generalizing tally with
  | nil => exact ⟨rfl, rfl⟩
  | cons release releases ih =>
      rw [List.foldl_cons, List.foldl_cons, (ih _).1, (ih _).2, List.countP_cons]
      refine ⟨rfl, ?_⟩
      show (if release.status = .failed then tally.failed + 1 else tally.failed) + _ = _
      by_cases failed : release.status = .failed
      · rw [if_pos failed, if_pos (decide_eq_true failed)]
        omega
      · rw [if_neg failed, if_neg (by simpa using failed)]
        omega

/-- The latest releases, as the pass keeps them. -/
def latestOf (releases : List Release) : List ((String ×ₗ String) × Release) :=
  releases.foldl (keep Release.key Release.revision) []

/-- What the pass returns for the releases it reads. -/
def summaryOf (releases : List Release) : Summary :=
  Tally.summary ⟨[], latestOf releases, releases.countP (·.status = .failed)⟩ releases.length

theorem forall₂_readings {items : List Value}
    (readable : ∀ item ∈ items, ∃ release, readRecord item = .ok release) :
    List.Forall₂ (fun item release => readRecord item = .ok release) items (readings items) := by
  induction items with
  | nil => exact .nil
  | cons item items ih =>
      rw [List.forall_mem_cons] at readable
      obtain ⟨⟨release, read⟩, readable⟩ := readable
      rw [readings, List.filterMap_cons, read]
      exact .cons read (ih readable)

theorem summaryOf_readings {items : List Value}
    (readable : ∀ item ∈ items, ∃ release, readRecord item = .ok release) :
    ((readings items).foldl Tally.add .start).summary items.length =
      summaryOf (readings items) := by
  obtain ⟨latest, failed⟩ := foldl_add (readings items) .start
  rw [Tally.summary, latest, failed, (forall₂_readings readable).length_eq, summaryOf,
    Tally.summary, Tally.start, Nat.zero_add]
  rfl

/-- **When `_parse` returns, and what.** -/
theorem parse_eq_ok {value : Value} {summary : Summary} : parse value = .ok summary ↔
    ∃ items, itemsOf value = .ok items ∧
      (∀ item ∈ items, ∃ release, readRecord item = .ok release) ∧
      ((readings items).map Release.identity).Nodup ∧
      (latestOf (readings items)).length ≤ maxReleases ∧ summary = summaryOf (readings items) := by
  simp only [parse, bind_eq_ok, require_eq_ok, decide_eq_true_eq, pure_eq_ok, foldlM_step_eq_ok]
  constructor
  · rintro ⟨items, listed, tally, ⟨readable, -, distinct, rfl⟩, -, few, rfl⟩
    rw [(foldl_add _ _).1] at few
    refine ⟨items, listed, readable, distinct, few, ?_⟩
    rw [summaryOf_readings readable]
  · rintro ⟨items, listed, readable, distinct, few, rfl⟩
    refine ⟨items, listed, _, ⟨readable, fun _ _ => List.not_mem_nil, distinct, rfl⟩, ⟨⟩, ?_, ?_⟩
    · rw [(foldl_add _ _).1]
      exact few
    · exact summaryOf_readings readable

/-! ## The order of the records -/

variable {items others : List Value} {releases : List Release}

theorem apart_of_nodup (distinct : (releases.map Release.identity).Nodup) :
    Apart Release.key Release.revision releases := by
  intro first one second other sameKey sameRevision
  exact List.inj_on_of_nodup_map distinct one other (Prod.ext sameKey sameRevision)

/-- The summary of other releases in another order. -/
theorem summaryOf_perm {shuffled : List Release} (perm : releases.Perm shuffled)
    (distinct : (releases.map Release.identity).Nodup) :
    summaryOf releases = summaryOf shuffled ∧
      (latestOf releases).length = (latestOf shuffled).length := by
  have same := mem_foldl_keep_perm perm (apart_of_nodup distinct)
  have one : ((latestOf releases).map Prod.fst).Nodup := (keeps_foldl releases).distinct
  have other : ((latestOf shuffled).map Prod.fst).Nodup := (keeps_foldl shuffled).distinct
  have sorted : sortedByKey (latestOf releases) = sortedByKey (latestOf shuffled) :=
    sortedByKey_eq_of_mem_iff one other same
  constructor
  · rw [summaryOf, summaryOf, Tally.summary, Tally.summary, sorted, perm.countP_eq,
      perm.length_eq]
  · rw [← length_sortedByKey, sorted, length_sortedByKey]

/-- The same list with its items in another order. -/
def Reordered (value other : Value) : Prop :=
  ∃ (before after : Dict) (items shuffled : List Value), "items" ∉ before.map Prod.fst ∧
    items.Perm shuffled ∧ value = .dict (before ++ ("items", .list items) :: after) ∧
    other = .dict (before ++ ("items", .list shuffled) :: after)

theorem keysAre_congr {fields other : Dict} (same : fields.map Prod.fst = other.map Prod.fst)
    (keys : List String) : keysAre fields keys = keysAre other keys := by
  have has : fields.has = other.has := by
    funext key
    have missing : fields.get key = none ↔ other.get key = none := by
      rw [Mapping.get_eq_none, Mapping.get_eq_none, same]
    rw [Bool.eq_iff_iff, Mapping.has, Mapping.has, Option.isSome_iff_ne_none,
      Option.isSome_iff_ne_none, Ne, Ne, missing]
  have each : ∀ fields : Dict, (fields.all fun field => keys.contains field.1) =
      (fields.map Prod.fst).all keys.contains := by
    intro fields
    rw [List.all_map]
    rfl
  rw [keysAre, keysAre, has, each, each, same]

/-- What `_parse` goes through, as far as the items do not matter. -/
theorem itemsOf_eq_ok {value : Value} : itemsOf value = .ok items ↔
    ∃ fields metadata : Dict, value = .dict fields ∧
      keysAre fields ["kind", "apiVersion", "metadata", "items"] = true ∧
      fields.get "metadata" = some (.dict metadata) ∧ isComplete metadata = true ∧
      fields.get "items" = some (.list items) ∧ 1 ≤ items.length ∧ items.length ≤ maxRecords := by
  constructor
  · intro read
    unfold itemsOf at read
    split at read
    next fields =>
      obtain ⟨keys, read⟩ := require_bind_eq_ok.mp read
      split at read
      next metadata here =>
        obtain ⟨complete, read⟩ := require_bind_eq_ok.mp read
        split at read
        next listed found =>
          rw [require_bind_eq_ok, pure_eq_ok, Bool.and_eq_true, decide_eq_true_eq,
            decide_eq_true_eq] at read
          obtain ⟨⟨some, few⟩, rfl⟩ := read
          exact ⟨fields, metadata, rfl, keys, here, complete, found, some, few⟩
        next => cases read
      next => cases read
    next => cases read
  · rintro ⟨fields, metadata, rfl, keys, here, complete, found, some, few⟩
    simp only [itemsOf, require_bind_eq_ok, keys, here, complete, found, pure_eq_ok,
      Bool.and_eq_true, decide_eq_true_eq, true_and, and_true]
    exact ⟨some, few⟩

/-- The tests before the pass do not look at the order. -/
theorem itemsOf_reordered {value other : Value} (reordered : Reordered value other)
    (read : itemsOf value = .ok items) : ∃ shuffled, itemsOf other = .ok shuffled ∧
      items.Perm shuffled := by
  obtain ⟨before, after, listed, shuffled, fresh, perm, rfl, rfl⟩ := reordered
  obtain ⟨_, metadata, same, keys, here, complete, found, some, few⟩ := itemsOf_eq_ok.mp read
  obtain rfl := Value.dict.inj same
  have front : before.get "items" = none := Mapping.get_eq_none.mpr fresh
  rw [Mapping.get_append, front, Option.none_or, Mapping.get_cons, if_pos rfl] at found
  obtain rfl : listed = items := Value.list.inj (Option.some.inj found)
  refine ⟨shuffled, itemsOf_eq_ok.mpr ⟨_, metadata, rfl, ?_, ?_, complete, ?_, ?_, ?_⟩, perm⟩
  · rw [← keys]
    apply keysAre_congr
    rw [List.map_append, List.map_append]
    rfl
  · rw [← here, Mapping.get_append, Mapping.get_append]
    rfl
  · rw [Mapping.get_append, front, Option.none_or, Mapping.get_cons, if_pos rfl]
  · rwa [← perm.length_eq]
  · rwa [← perm.length_eq]

theorem Reordered.symm {value other : Value} (reordered : Reordered value other) :
    Reordered other value := by
  obtain ⟨before, after, items, shuffled, fresh, perm, rfl, rfl⟩ := reordered
  exact ⟨before, after, shuffled, items, fresh, perm.symm, rfl, rfl⟩

theorem parse_of_reordered {value other : Value} {summary : Summary}
    (reordered : Reordered value other) (parsed : parse value = .ok summary) :
    parse other = .ok summary := by
  obtain ⟨items, listed, readable, distinct, few, rfl⟩ := parse_eq_ok.mp parsed
  obtain ⟨shuffled, listedOther, perm⟩ := itemsOf_reordered reordered listed
  have permReadings : (readings items).Perm (readings shuffled) := perm.filterMap _
  obtain ⟨same, sameLength⟩ := summaryOf_perm permReadings distinct
  rw [same]
  refine parse_eq_ok.mpr ⟨shuffled, listedOther, fun item member => ?_, ?_, ?_, rfl⟩
  · exact readable item (perm.mem_iff.mpr member)
  · exact (permReadings.map _).nodup_iff.mp distinct
  · rwa [← sameLength]

/-! ## What is returned -/

theorem mem_summaryOf_releases (distinct : (releases.map Release.identity).Nodup)
    {release : Release} :
    release ∈ (summaryOf releases).releases ↔
      IsLatest Release.key Release.revision releases release := by
  have kept : ∀ key, (key, release) ∈ latestOf releases ↔
      release.key = key ∧ IsLatest Release.key Release.revision releases release :=
    fun key => (keeps_foldl releases).mem_iff (apart_of_nodup distinct)
  constructor
  · intro member
    obtain ⟨⟨key, _⟩, listed, rfl⟩ := List.mem_map.mp member
    exact ((kept key).mp (mem_sortedByKey.mp listed)).2
  · intro latest
    exact List.mem_map.mpr
      ⟨(release.key, release), mem_sortedByKey.mpr ((kept _).mpr ⟨rfl, latest⟩), rfl⟩

theorem summaryOf_releases_ascend (releases : List Release) :
    (summaryOf releases).releases.Pairwise (·.key < ·.key) := by
  have keeps : Keeps Release.key Release.revision releases (latestOf releases) :=
    keeps_foldl releases
  have ascend : (sortedByKey (latestOf releases)).Pairwise fun first second =>
      first.1 < second.1 := sortedByKey_pairwise keeps.distinct
  refine List.pairwise_map.mpr (ascend.imp_of_mem fun one other less => ?_)
  have keyed : ∀ pair ∈ sortedByKey (latestOf releases), pair.2.key = pair.1 := fun pair member =>
    (keeps.latest _ _ (@Keyed.lookup_of_mem _ _ instBEqOfDecidableEq _ _ _ _ keeps.distinct
      (mem_sortedByKey.mp member))).1
  rw [keyed _ one, keyed _ other]
  exact less

/-- Every key of the records has its release. -/
theorem exists_release_of_mem {release : Release} (member : release ∈ releases)
    (distinct : (releases.map Release.identity).Nodup) :
    ∃ latest ∈ (summaryOf releases).releases, latest.key = release.key := by
  have keeps : Keeps Release.key Release.revision releases (latestOf releases) :=
    keeps_foldl releases
  obtain ⟨latest, found⟩ := Option.isSome_iff_exists.mp (keeps.covers release member)
  obtain ⟨same, isLatest⟩ := keeps.latest _ latest found
  exact ⟨latest, (mem_summaryOf_releases distinct).mpr isLatest, same⟩

/-- **The summary does not depend on the order of the records**, and is what it says. -/
theorem parse_reordered {value other : Value} (reordered : Reordered value other) :
    (∀ summary, parse value = .ok summary ↔ parse other = .ok summary) ∧
      ∀ summary, parse value = .ok summary →
        ∃ items records, itemsOf value = .ok items ∧ List.Forall₂ Describes items records ∧
          (records.map Release.identity).Nodup ∧
          summary.releases.Pairwise (·.key < ·.key) ∧
          (∀ release, release ∈ summary.releases ↔ release ∈ records ∧
            ∀ record ∈ records, record.key = release.key → record.revision ≤ release.revision) ∧
          (∀ record ∈ records, ∃ release ∈ summary.releases, release.key = record.key) ∧
          summary.failed = records.countP (·.status = .failed) ∧
          summary.pending = summary.releases.countP (·.status.isPending) ∧
          summary.records = items.length := by
  refine ⟨fun summary => ⟨parse_of_reordered reordered, parse_of_reordered reordered.symm⟩, ?_⟩
  intro summary parsed
  obtain ⟨items, listed, readable, distinct, -, rfl⟩ := parse_eq_ok.mp parsed
  have read := forall₂_readings readable
  exact ⟨items, readings items, listed, read.imp fun _ _ => describes_of_readRecord, distinct,
    summaryOf_releases_ascend _, fun _ => mem_summaryOf_releases distinct,
    fun record member => exists_release_of_mem member distinct, rfl, rfl,
    read.length_eq.symm⟩

/-- A record as the API lists it. -/
def grafanaRecord (version status : String) : Value :=
  .dict [("apiVersion", .str "meta.k8s.io/v1"), ("kind", .str "PartialObjectMetadata"),
    ("metadata", .dict [("namespace", .str "obs"), ("labels", .dict [("owner", .str "helm"),
      ("name", .str "grafana"), ("status", .str status), ("version", .str version)])])]

def grafanaList (items : List Value) : Value :=
  .dict [("kind", .str "List"), ("apiVersion", .str "v1"), ("metadata", .dict []),
    ("items", .list items)]

/-- Two revisions the other way round. -/
theorem parse_reordered_grafana :
    parse (grafanaList [grafanaRecord "10" "pending-upgrade", grafanaRecord "9" "failed"]) =
      .ok ⟨[⟨"obs", "grafana", 10, .pendingUpgrade⟩], 1, 1, 2⟩ := by
  have reordered : Reordered
      (grafanaList [grafanaRecord "9" "failed", grafanaRecord "10" "pending-upgrade"])
      (grafanaList [grafanaRecord "10" "pending-upgrade", grafanaRecord "9" "failed"]) :=
    ⟨[("kind", .str "List"), ("apiVersion", .str "v1"), ("metadata", .dict [])], [], _, _,
      by decide, List.Perm.swap _ _ _, rfl, rfl⟩
  exact ((parse_reordered reordered).1 _).mp (by decide +kernel)

end HomeclusterInfra.HelmMetadata
