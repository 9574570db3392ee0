import HomeclusterInfra.BanipProof.Coverage
import HomeclusterInfra.BanipProof.Store
import HomeclusterInfra.Library.JsonSizes

/-!
# The text of the store

What is saved is read back as it was: each object as the program prints it, with sorted keys, is
accepted exactly where its times, digests and counts are in range, and then read as it was.
-/

set_option autoImplicit false

namespace HomeclusterInfra.BanipProof

open Text JsonText Binary64

/-! ## Values -/

theorem item_sorted {named : List (String × Json)} (readable : (Json.object named).Readable)
    (key : String) : item (Json.object named).sortKeys key =
      orRaise ((Mapping.get named key).map Json.sortKeys) .lookupOrProcess := by
  rw [← field_sortKeys_object readable key]
  rfl

/-- A time that is read as it was written. -/
def Stamp.Exact : Stamp → Prop
  | .int value => overflows value = false
  | .float value => IsDouble value ∧ 1 ≤ value

variable {now : Rat} {check : Check} {good : Verified} {record : Record} {config : Config}

theorem Stamp.Exact.readable {time : Stamp} (exact : time.Exact) : time.toJson.Readable := by
  cases time with
  | int => trivial
  | float value =>
      refine ⟨exact.1, Or.inr ?_⟩
      have large : (1 : Rat) ≤ 10 ^ 400 := one_le_pow₀ (by norm_num)
      calc (1 : Rat) = 1 * 1 := (one_mul 1).symm
        _ ≤ value * 10 ^ 400 := mul_le_mul exact.2 large zero_le_one (zero_le_one.trans exact.2)

theorem Stamp.sortKeys_toJson (time : Stamp) : time.toJson.sortKeys = time.toJson := by
  cases time <;> rfl

theorem stampOf_toJson {time : Stamp} (exact : time.Exact) (refused : Raised) {found : Stamp} :
    stampOf refused now time.toJson = .ok found ↔ isEpoch time.value now = true ∧ time = found := by
  have judged : stampOf refused now time.toJson =
      if isEpoch time.value now then .ok time else .error refused := by
    cases time with
    | float => rfl
    | int value =>
        have small : overflows value = false := exact
        simp only [Stamp.toJson, stampOf, small, Bool.false_eq_true, if_false]
        rfl
  rw [judged]
  split
  next epoch => rw [Except.ok.injEq, epoch, eq_self, true_and]
  next notEpoch => simp [notEpoch]

theorem isText_str (chars : List Char) (text : String) :
    isText (.str chars) text = (chars == text.toList) :=
  rfl

theorem reasonOf_text (reason : Reason) : reasonOf (.text reason.text) = some reason := by
  obtain ⟨text, form⟩ := reason
  have same : String.ofList text.toList = text := String.ofList_toList
  unfold reasonOf Json.text
  dsimp only
  split
  next => exact congrArg some (Reason.mk.injEq .. ▸ same)
  next broken => exact absurd (same.symm ▸ form) broken

theorem Check.readable (exact : check.time.Exact) : check.toJson.Readable := by
  have keys : (["at", "reason", "status"] : List String).Nodup := by decide
  refine readable_object keys ?_
  simp only [List.forall_mem_cons]
  exact ⟨exact.readable, trivial, trivial, fun _ member => absurd member List.not_mem_nil⟩

theorem readCheck_toJson (exact : check.time.Exact) {found : Check} :
    readCheck now check.toJson.sortKeys = .ok found ↔
      isEpoch check.time.value now = true ∧ check = found := by
  have named : checkStatuses.find? (fun known =>
      isText (Json.text check.status.text) known.text) = some check.status := by
    cases check.status <;> rfl
  have readable := Check.readable exact
  rw [Check.toJson] at readable
  have status : item check.toJson.sortKeys "status" = .ok (Json.text check.status.text) :=
    item_sorted readable "status"
  have time : item check.toJson.sortKeys "at" = .ok check.time.toJson :=
    (item_sorted readable "at").trans (congrArg Except.ok check.time.sortKeys_toJson)
  have reason : item check.toJson.sortKeys "reason" = .ok (Json.text check.reason.text) :=
    item_sorted readable "reason"
  simp only [readCheck, Checked.bind_eq_ok, status, time, reason, orRaise_eq_ok, Except.ok.injEq,
    Checked.pure_eq_ok, exists_eq_left', named, reasonOf_text, Option.some.injEq,
    stampOf_toJson exact, and_assoc, exists_and_left]

/-- What is verified is read as it was written. -/
structure Verified.Exact (good : Verified) : Prop where
  time : good.time.Exact
  records : ∀ records ∈ good.sourceRecords, records.Readable ∧ records.sortKeys = records

/-- What `state` asks of `last_verified`. -/
structure Verified.Accepted (now : Rat) (good : Verified) : Prop where
  time : isEpoch good.time.value now = true
  source : isDigest good.sourceSha256.toList = true
  canonical : isDigest good.canonicalSha256.toList = true
  positive : 1 ≤ good.count
  bounded : good.count ≤ maxRecords

def Verified.fields (good : Verified) : List (String × Json) :=
  [("at", good.time.toJson), ("canonical_sha256", .text good.canonicalSha256),
    ("count", .int good.count), ("scope", .text scope)] ++
    (good.sourceRecords.map fun records => ("source_records", records)).toList ++
    [("source_sha256", .text good.sourceSha256)]

theorem Verified.readable (exact : good.Exact) : (Json.object good.fields).Readable := by
  rw [Verified.fields]
  cases records : good.sourceRecords with
  | none =>
      have keys : (["at", "canonical_sha256", "count", "scope", "source_sha256"] :
        List String).Nodup := by decide
      refine readable_object keys ?_
      simp only [Option.map_none, Option.toList_none, List.append_nil, List.cons_append,
        List.nil_append, List.forall_mem_cons]
      exact ⟨exact.time.readable, trivial, trivial, trivial, trivial,
        fun _ member => absurd member List.not_mem_nil⟩
  | some value =>
      have keys : (["at", "canonical_sha256", "count", "scope", "source_records",
        "source_sha256"] : List String).Nodup := by decide
      refine readable_object keys ?_
      simp only [Option.map_some, Option.toList_some, List.cons_append,
        List.nil_append, List.forall_mem_cons]
      exact ⟨exact.time.readable, trivial, trivial, trivial, (exact.records value records).1,
        trivial, fun _ member => absurd member List.not_mem_nil⟩

theorem digestOf_text {digest found : String} :
    digestOf (.text digest) = some found ↔ isDigest digest.toList = true ∧ digest = found := by
  show (if isDigest digest.toList then some (String.ofList digest.toList) else none) = _ ↔ _
  rw [Option.ite_none_right_eq_some, String.ofList_toList, Option.some.injEq]

theorem countOf_natCast {count found : Nat} : countOf (.int count) = some found ↔
    (1 ≤ count ∧ count ≤ maxRecords) ∧ count = found := by
  rw [countOf, Option.ite_none_right_eq_some, Option.some.injEq, Int.toNat_natCast,
    Bool.and_eq_true, decide_eq_true_eq, decide_eq_true_eq]
  exact and_congr_left' (and_congr (by omega) (by omega))

theorem readVerified_toJson (exact : good.Exact) {found : Verified} :
    readVerified now good.toJson.sortKeys = .ok found ↔ good.Accepted now ∧ good = found := by
  have readable := Verified.readable exact
  have get : ∀ key, item good.toJson.sortKeys key =
      orRaise ((Mapping.get good.fields key).map Json.sortKeys) .lookupOrProcess :=
    item_sorted readable
  have time : item good.toJson.sortKeys "at" = .ok good.time.toJson :=
    (get "at").trans (congrArg Except.ok good.time.sortKeys_toJson)
  have named : item good.toJson.sortKeys "scope" = .ok (Json.text scope) := get "scope"
  have canonical : item good.toJson.sortKeys "canonical_sha256" =
    .ok (Json.text good.canonicalSha256) := get "canonical_sha256"
  have count : item good.toJson.sortKeys "count" = .ok (.int good.count) := get "count"
  have source : item good.toJson.sortKeys "source_sha256" = .ok (Json.text good.sourceSha256) := by
    rw [get, Verified.fields]
    cases good.sourceRecords <;> rfl
  have records : good.toJson.sortKeys.field "source_records" = good.sourceRecords := by
    have field : good.toJson.sortKeys.field "source_records" =
      (Mapping.get good.fields "source_records").map Json.sortKeys :=
        field_sortKeys_object readable _
    rw [field, Verified.fields]
    cases given : good.sourceRecords with
    | none => rfl
    | some value => exact congrArg some (exact.records value given).2
  have isScope : isText (Json.text scope) scope = true := beq_iff_eq.mpr rfl
  simp only [readVerified, Checked.bind_eq_ok, time, named, canonical, count, source, orRaise_eq_ok,
    Except.ok.injEq, Checked.pure_eq_ok, exists_eq_left', stampOf_toJson exact.time, isScope,
    digestOf_text, countOf_natCast, records, and_assoc, exists_and_left, require_eq_ok, true_and,
    exists_const]
  constructor
  · rintro ⟨epoch, isSource, isCanonical, positive, bounded, same⟩
    exact ⟨⟨epoch, isSource, isCanonical, positive, bounded⟩, same⟩
  · rintro ⟨accepted, same⟩
    exact ⟨accepted.time, accepted.source, accepted.canonical, accepted.positive,
      accepted.bounded, same⟩

/-! ## Records -/

/-- A record is read as it was written. -/
structure Record.Exact (record : Record) : Prop where
  check : record.lastCheck.time.Exact
  verified : ∀ good ∈ record.lastVerified, good.Exact

/-- What `state` asks of a record. -/
structure Record.Accepted (now : Rat) (record : Record) : Prop where
  check : isEpoch record.lastCheck.time.value now = true
  verified : ∀ good ∈ record.lastVerified, good.Accepted now

def Record.fields (record : Record) : List (String × Json) :=
  ("last_check", record.lastCheck.toJson) ::
    (record.lastVerified.map fun good => ("last_verified", good.toJson)).toList

/-- The fields of an object, in the order of the keys. -/
def sortedFields (named : List (String × Json)) : Fields :=
  (sortedByKey (named.map fun field => (field.1.toList, field.2))).map fun field =>
    (field.1, field.2.sortKeys)

theorem sortKeys_object (named : List (String × Json)) :
    (Json.object named).sortKeys = .obj (sortedFields named) :=
  sortKeys_obj _

theorem mem_sortedFields {named : List (String × Json)} {field : List Char × Json} :
    field ∈ sortedFields named ↔
      ∃ entry ∈ named, (entry.1.toList, entry.2.sortKeys) = field := by
  rw [sortedFields, List.mem_map]
  constructor
  · rintro ⟨middle, listed, rfl⟩
    obtain ⟨entry, member, rfl⟩ := List.mem_map.mp (mem_sortedByKey.mp listed)
    exact ⟨entry, member, rfl⟩
  · rintro ⟨entry, member, rfl⟩
    exact ⟨(entry.1.toList, entry.2), mem_sortedByKey.mpr (List.mem_map_of_mem member), rfl⟩

theorem get_sortedFields {named : List (String × Json)} (readable : (Json.object named).Readable)
    (key : String) :
    Fields.get (sortedFields named) key = (Mapping.get named key).map Json.sortKeys := by
  rw [← field_sortKeys_object readable key, sortKeys_object]
  rfl

theorem Record.readable (exact : record.Exact) : (Json.object record.fields).Readable := by
  have check := Check.readable exact.check
  rw [Record.fields]
  cases verified : record.lastVerified with
  | none =>
      have keys : (["last_check"] : List String).Nodup := by decide
      refine readable_object keys ?_
      simp only [Option.map_none, Option.toList_none, List.forall_mem_cons]
      exact ⟨check, fun _ member => absurd member List.not_mem_nil⟩
  | some good =>
      have keys : (["last_check", "last_verified"] : List String).Nodup := by decide
      refine readable_object keys ?_
      simp only [Option.map_some, Option.toList_some, List.forall_mem_cons]
      exact ⟨check, Verified.readable (exact.verified good verified),
        fun _ member => absurd member List.not_mem_nil⟩

theorem readRecord_toJson (exact : record.Exact) {found : Record} :
    readRecord now record.toJson.sortKeys = .ok found ↔
      record.Accepted now ∧ record = found := by
  have readable := Record.readable exact
  have whole : record.toJson.sortKeys = .obj (sortedFields record.fields) := sortKeys_object _
  have within : Fields.within (sortedFields record.fields) ["last_check", "last_verified"] =
      true := by
    rw [Fields.within, List.all_eq_true]
    intro field member
    obtain ⟨entry, listed, rfl⟩ := mem_sortedFields.mp member
    rw [Record.fields] at listed
    rw [List.contains_iff_mem]
    rcases List.mem_cons.mp listed with rfl | later
    · dsimp only
      exact List.mem_map_of_mem List.mem_cons_self
    · rw [Option.mem_toList, Option.map_eq_some_iff] at later
      obtain ⟨good, -, rfl⟩ := later
      dsimp only
      exact List.mem_map_of_mem (List.mem_cons_of_mem _ List.mem_cons_self)
  have check : item (.obj (sortedFields record.fields)) "last_check" =
      .ok record.lastCheck.toJson.sortKeys := by
    rw [← whole]
    exact item_sorted readable "last_check"
  have verified : Fields.get (sortedFields record.fields) "last_verified" =
      record.lastVerified.map fun good => good.toJson.sortKeys := by
    rw [get_sortedFields readable, Record.fields]
    cases record.lastVerified <;> rfl
  rw [whole, readRecord]
  simp only [Checked.bind_eq_ok, require_eq_ok, within, check, verified, Except.ok.injEq,
    exists_eq_left', readCheck_toJson exact.check, true_and, exists_const, and_assoc,
    exists_and_left]
  cases given : record.lastVerified with
  | none =>
      rw [Option.map_none]
      dsimp only
      rw [Checked.pure_eq_ok]
      have same : (⟨record.lastCheck, none⟩ : Record) = record := by rw [← given]
      rw [same]
      refine and_congr_left' ⟨fun epoch => ⟨epoch, fun good member => ?_⟩, Record.Accepted.check⟩
      rw [given] at member
      cases member
  | some good =>
      rw [Option.map_some]
      dsimp only
      simp only [Checked.bind_eq_ok, readVerified_toJson (exact.verified good given),
        Checked.pure_eq_ok, and_assoc, exists_and_left, exists_eq_left']
      have same : (⟨record.lastCheck, some good⟩ : Record) = record := by rw [← given]
      rw [same, ← and_assoc]
      refine and_congr_left' ⟨fun both => ⟨both.1, fun other member => ?_⟩,
        fun accepted => ⟨accepted.check, accepted.verified good given⟩⟩
      rw [given] at member
      exact Option.some.inj member ▸ both.2

/-! ## Proofs -/

/-- A proof is read as it was written. -/
def Proof.Exact (proof : Proof) : Prop :=
  ∀ feed record, proof feed = some record → record.Exact

/-- What `state` asks of a proof. -/
structure Proof.Accepted (config : Config) (now : Rat) (proof : Proof) : Prop where
  configured : ∀ feed record, proof feed = some record → feed ∈ config.feeds
  records : ∀ feed record, proof feed = some record → record.Accepted now

/-- The fields of the feeds. -/
def feedFields (proof : Proof) : List (String × Json) :=
  registry.filterMap fun feed => (proof feed).map fun record => (feed.name, record.toJson)

theorem mem_feedFields {proof : Proof} {field : String × Json} : field ∈ feedFields proof ↔
    ∃ feed record, proof feed = some record ∧ (feed.name, record.toJson) = field := by
  rw [feedFields, List.mem_filterMap]
  constructor
  · rintro ⟨feed, -, found⟩
    obtain ⟨record, here, same⟩ := Option.map_eq_some_iff.mp found
    exact ⟨feed, record, here, same⟩
  · rintro ⟨feed, record, here, same⟩
    exact ⟨feed, mem_registry feed, Option.map_eq_some_iff.mpr ⟨record, here, same⟩⟩

theorem Feed.name_injective : Function.Injective Feed.name := by
  intro one other same
  cases one <;> cases other
  · rfl
  · exact absurd same (by decide)
  · exact absurd same (by decide)
  · rfl

theorem feedFields_nodup (proof : Proof) : ((feedFields proof).map Prod.fst).Nodup := by
  have sublist : ∀ feeds : List Feed, ((feeds.filterMap fun feed =>
      (proof feed).map fun record => (feed.name, record.toJson)).map Prod.fst).Sublist
        (feeds.map Feed.name) := by
    intro feeds
    induction feeds with
    | nil => exact List.Sublist.refl []
    | cons feed feeds ih =>
        cases found : proof feed with
        | none =>
            rw [List.filterMap_cons_none (by rw [found]; rfl), List.map_cons]
            exact ih.cons _
        | some record =>
            rw [List.filterMap_cons_some (by rw [found]; rfl), List.map_cons, List.map_cons]
            exact ih.cons_cons _
  exact (show (registry.map Feed.name).Nodup by decide).sublist (sublist registry)

theorem Proof.readable_feeds {proof : Proof} (exact : proof.Exact) :
    (Json.object (feedFields proof)).Readable := by
  refine readable_object (feedFields_nodup proof) fun field member => ?_
  obtain ⟨feed, record, found, rfl⟩ := mem_feedFields.mp member
  exact Record.readable (exact feed record found)

theorem Proof.readable {proof : Proof} (hash : List Char) (exact : proof.Exact) :
    (proofJson hash proof).Readable := by
  have keys : (["definition_sha256", "feeds", "schema"] : List String).Nodup := by decide
  refine readable_object keys ?_
  simp only [List.forall_mem_cons]
  exact ⟨trivial, Proof.readable_feeds exact, trivial,
    fun _ member => absurd member List.not_mem_nil⟩

theorem readEntry_sorted {feed : Feed} (exact : record.Exact) {entry : Feed × Record} :
    readEntry now config (feed.name.toList, record.toJson.sortKeys) = .ok entry ↔
      feed ∈ config.feeds ∧ record.Accepted now ∧ (feed, record) = entry := by
  have named : ∀ found, config.feeds.find? (fun other => other.name.toList = feed.name.toList) =
      some found ↔ feed ∈ config.feeds ∧ feed = found := by
    intro found
    constructor
    · intro here
      have same := List.find?_some here
      rw [decide_eq_true_eq, String.toList_inj] at same
      have isFeed := Feed.name_injective same
      exact ⟨isFeed ▸ List.mem_of_find?_eq_some here, isFeed.symm⟩
    · rintro ⟨member, rfl⟩
      have some_feed : (config.feeds.find? fun other =>
          other.name.toList = feed.name.toList).isSome := by
        rw [List.find?_isSome]
        exact ⟨feed, member, decide_eq_true rfl⟩
      obtain ⟨other, here⟩ := Option.isSome_iff_exists.mp some_feed
      have same := List.find?_some here
      rw [decide_eq_true_eq, String.toList_inj] at same
      rw [here, Feed.name_injective same]
  obtain ⟨found, read⟩ := entry
  simp only [readEntry, Checked.bind_eq_ok, orRaise_eq_ok, named, readRecord_toJson exact,
    Checked.pure_eq_ok, and_assoc, exists_and_left, exists_eq_left']

theorem mem_sortedFeeds {proof : Proof} {field : List Char × Json} :
    field ∈ sortedFields (feedFields proof) ↔
      ∃ feed record, proof feed = some record ∧
        field = (feed.name.toList, record.toJson.sortKeys) := by
  rw [mem_sortedFields]
  constructor
  · rintro ⟨entry, listed, rfl⟩
    obtain ⟨feed, record, found, rfl⟩ := mem_feedFields.mp listed
    exact ⟨feed, record, found, rfl⟩
  · rintro ⟨feed, record, found, rfl⟩
    exact ⟨_, mem_feedFields.mpr ⟨feed, record, found, rfl⟩, rfl⟩

/-- What is read of the feeds is what was written. -/
theorem lookup_readEntries {proof : Proof} (exact : proof.Exact) {entries : List (Feed × Record)}
    (read : (sortedFields (feedFields proof)).mapM (readEntry now config) = .ok entries) :
    (fun feed => entries.lookup feed) = proof := by
  have mem : ∀ feed record, (feed, record) ∈ entries ↔ proof feed = some record := by
    intro feed record
    constructor
    · intro member
      obtain ⟨field, listed, isEntry⟩ := Checked.exists_of_mem_mapM_ok read member
      obtain ⟨other, written, found, rfl⟩ := mem_sortedFeeds.mp listed
      obtain ⟨-, -, same⟩ := (readEntry_sorted (exact other written found)).mp isEntry
      cases same
      exact found
    · intro found
      obtain ⟨entry, member, isEntry⟩ := Checked.exists_mapM_ok_of_mem read
        (mem_sortedFeeds.mpr ⟨feed, record, found, rfl⟩)
      obtain ⟨-, -, same⟩ := (readEntry_sorted (exact feed record found)).mp isEntry
      exact same ▸ member
  funext feed
  cases found : entries.lookup feed with
  | some record => exact ((mem feed record).mp (Keyed.mem_of_lookup found)).symm
  | none =>
      cases here : proof feed with
      | none => rfl
      | some record =>
          have absent := List.lookup_eq_none_iff.mp found _ ((mem feed record).mpr here)
          exact absurd absent (by simp)

/-- **What is saved is read back**, where it is accepted. -/
theorem readProof_proofJson {sha256 : List UInt8 → String} {proof : Proof} {hash : List Char}
    (exact : proof.Exact) {found : Proof} :
    readProof sha256 config now (proofJson hash proof).sortKeys = .ok found ↔
      (hash = definitionHash sha256 config ∧ proof.Accepted config now) ∧ proof = found := by
  have readable := Proof.readable hash exact
  have field : ∀ key, (proofJson hash proof).sortKeys.field key = (Mapping.get
      [("definition_sha256", .str hash), ("feeds", .object (feedFields proof)),
        ("schema", .int 1)] key).map Json.sortKeys := field_sortKeys_object readable
  have schema : (proofJson hash proof).sortKeys.field "schema" = some (.int 1) := field "schema"
  have hashed : (proofJson hash proof).sortKeys.field "definition_sha256" = some (.str hash) :=
    field "definition_sha256"
  have feeds : (proofJson hash proof).sortKeys.field "feeds" =
      some (.obj (sortedFields (feedFields proof))) :=
    (field "feeds").trans (congrArg some (sortKeys_object _))
  have isHash : isText (.str hash) (String.ofList (definitionHash sha256 config)) = true ↔
      hash = definitionHash sha256 config := by
    rw [isText_str, String.toList_ofList, beq_iff_eq]
  have configured : ((sortedFields (feedFields proof)).all fun field =>
      config.feeds.any fun feed => feed.name.toList = field.1) = true ↔
        ∀ feed record, proof feed = some record → feed ∈ config.feeds := by
    rw [List.all_eq_true]
    constructor
    · intro all feed record here
      have listed := all _ (mem_sortedFeeds.mpr ⟨feed, record, here, rfl⟩)
      obtain ⟨other, member, same⟩ := List.any_eq_true.mp listed
      rw [decide_eq_true_eq, String.toList_inj] at same
      exact Feed.name_injective same ▸ member
    · intro all field member
      obtain ⟨feed, record, here, rfl⟩ := mem_sortedFeeds.mp member
      exact List.any_eq_true.mpr ⟨feed, all feed record here, decide_eq_true rfl⟩
  rw [readProof, schema, hashed, feeds]
  simp only [Checked.bind_eq_ok, require_eq_ok, Bool.and_eq_true, decide_eq_true_eq, true_and,
    Option.any_some, isHash, configured, exists_const, Checked.pure_eq_ok]
  constructor
  · rintro ⟨same, inside, entries, read, rfl⟩
    refine ⟨⟨same, inside, fun feed record here => ?_⟩, (lookup_readEntries exact read).symm⟩
    obtain ⟨entry, -, isEntry⟩ := Checked.exists_mapM_ok_of_mem read
      (mem_sortedFeeds.mpr ⟨feed, record, here, rfl⟩)
    exact ((readEntry_sorted (exact feed record here)).mp isEntry).2.1
  · rintro ⟨⟨same, accepted⟩, rfl⟩
    have each : ∀ field ∈ sortedFields (feedFields proof),
        ∃ entry, readEntry now config field = .ok entry := by
      intro field member
      obtain ⟨feed, record, here, rfl⟩ := mem_sortedFeeds.mp member
      exact ⟨_, (readEntry_sorted (exact feed record here)).mpr
        ⟨accepted.configured feed record here, accepted.records feed record here, rfl⟩⟩
    obtain ⟨entries, read⟩ := Checked.exists_mapM_ok each
    exact ⟨same, accepted.configured, entries, read, lookup_readEntries exact read⟩

/-! ## The file -/

theorem state_proofText {sha256 : List UInt8 → String} {proof : Proof} {hash : List Char}
    {store : Store} (exact : proof.Exact) (file : store.file = some (proofText hash proof))
    {found : Proof} :
    state sha256 config now store = .ok found ↔ isEpoch now now = true ∧ store.part = false ∧
      utf8Length (proofText hash proof) ≤ 16384 ∧
        (hash = definitionHash sha256 config ∧ proof.Accepted config now) ∧ proof = found := by
  have loaded : loads (proofText hash proof) = some (proofJson hash proof).sortKeys :=
    loads_dumps (compact_standard true) (Proof.readable hash exact).sortKeys
  rw [state, file]
  simp only [Checked.bind_eq_ok, require_eq_ok, orRaise_eq_ok, loaded, exists_const,
    decide_eq_true_eq, Bool.not_eq_true', exists_eq_left', readProof_proofJson exact,
    Option.some.injEq]

end HomeclusterInfra.BanipProof
