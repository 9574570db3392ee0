import HomeclusterInfra.BanipProof.StoreRuns

/-!
# The store stays readable

What a check saves stays within what the program reads back: the digests, the counts, the times
and the length of the whole text. So the file that any calls leave is read as what they saved,
and a call that nothing interrupts ends with a report.
-/

set_option autoImplicit false

namespace HomeclusterInfra.BanipProof

open Text JsonText Binary64 Interruption DyadicBlocks Ipv4

/-! ## Downloads -/

section Downloads

variable {sha256 : List UInt8 → String} {feed : Feed} {data : List UInt8} {content : FeedContent}

theorem lt_of_lineCovers {line : List Char} {number : Nat} (covers : lineCovers feed line number) :
    number < 2 ^ 32 := by
  unfold lineCovers at covers
  split at covers
  next =>
    obtain ⟨first, last, -, readsLast, -, below⟩ := covers
    exact lt_of_le_of_lt below (parseAddress_lt readsLast)
  next => exact parseAddress_lt covers
  next => cases covers

/-- What is reported of a download is in range. -/
theorem parseFeed_bounds (read : parseFeed sha256 feed data = .ok content) :
    (∃ text, content.canonicalSha256 = sha256 text) ∧ content.sourceSha256 = sha256 data ∧
      1 ≤ content.count ∧ content.count ≤ maxRecords ∧ content.sourceRecords ≤ maxRecords := by
  simp only [parseFeed, canonical, Checked.bind_eq_ok, require_eq_ok, orRaise_eq_ok,
    Checked.pure_eq_ok, exists_const, Bool.and_eq_true, decide_eq_true_eq] at read
  obtain ⟨-, text, -, networks, run, form, ⟨⟨some_network, few⟩, levels, rfl⟩, rfl⟩ := read
  refine ⟨⟨_, rfl⟩, rfl, ?_, (length_collapse_le fun network member => ?_).trans few, few⟩
  · cases networks with
    | nil => cases some_network
    | cons network networks =>
        have covered : network.first ∈ unionOf (network :: networks) :=
          ⟨network, List.mem_cons_self, network.contains_first⟩
        obtain ⟨line, -, covers⟩ := (handleLines_cover run network.first).mp covered
        exact List.length_pos_of_ne_nil (collapse_ne_nil (lt_of_lineCovers covers) covered)
  · have level := List.all_eq_true.mp levels network member
    exact (of_decide_eq_true level).le

end Downloads

/-! ## Lengths -/

/-- A time that is written in few digits. -/
def Stamp.Bounded (time : Stamp) : Prop :=
  1 ≤ time.value ∧ time.value < 10 ^ 15

/-- What a check writes of a verified feed. -/
structure Verified.Bounded (good : Verified) : Prop where
  time : good.time.Bounded
  source : isDigest good.sourceSha256.toList = true
  canonical : isDigest good.canonicalSha256.toList = true
  count : good.count ≤ maxRecords
  records : ∀ records ∈ good.sourceRecords, ∃ count : Nat, count ≤ maxRecords ∧
    records = .int count

structure Record.Bounded (record : Record) : Prop where
  check : record.lastCheck.time.Bounded
  verified : ∀ good ∈ record.lastVerified, good.Bounded

section Lengths

theorem Stamp.Bounded.length_le {time : Stamp} (bounded : time.Bounded) :
    compactLength time.toJson.sortKeys ≤ 40 := by
  obtain ⟨large, small⟩ := bounded
  rw [Stamp.sortKeys_toJson]
  cases time with
  | float value => exact compactLength_float_le large small le_rfl
  | int value =>
      have positive : 1 ≤ value := by exact_mod_cast (show (1 : Rat) ≤ value from large)
      have below : value < 10 ^ 15 := by exact_mod_cast (show (value : Rat) < 10 ^ 15 from small)
      obtain ⟨count, rfl⟩ := Int.eq_ofNat_of_zero_le (by omega : 0 ≤ value)
      have few : count < 10 ^ 15 := by exact_mod_cast below
      exact (compactLength_nat (by norm_num) few).trans (by norm_num)

theorem isPlain_of_isDigest {text : List Char} (digest : isDigest text = true) :
    text.all isPlain = true ∧ text.length = 64 := by
  rw [isDigest, Bool.and_eq_true, decide_eq_true_eq, List.all_eq_true] at digest
  refine ⟨List.all_eq_true.mpr fun char member => ?_, digest.1⟩
  have hex := digest.2 char member
  have range : ∀ {low high : Char}, low ≤ char → char ≤ high →
      low.toNat ≤ char.toNat ∧ char.toNat ≤ high.toNat := fun low high => ⟨low, high⟩
  simp only [Bool.or_eq_true, Bool.and_eq_true, Char.isDigit, decide_eq_true_eq, ge_iff_le] at hex
  have bounds : 48 ≤ char.toNat ∧ char.toNat ≤ 57 ∨ 97 ≤ char.toNat ∧ char.toNat ≤ 102 := by
    rcases hex with ⟨low, high⟩ | ⟨low, high⟩
    · exact Or.inl ⟨low, high⟩
    · exact Or.inr (range low high)
  simp only [isPlain, Bool.and_eq_true, decide_eq_true_eq]
  refine ⟨⟨⟨by omega, by omega⟩, ?_⟩, ?_⟩
  · rintro rfl
    revert bounds
    decide
  · rintro rfl
    revert bounds
    decide

theorem compactLength_digest {text : List Char} (digest : isDigest text = true) :
    compactLength (.str text) = 66 := by
  obtain ⟨plain, length⟩ := isPlain_of_isDigest digest
  rw [compactLength_str plain, length]

theorem compactLength_reason_le (reason : Reason) : compactLength (.text reason.text) ≤ 66 := by
  obtain ⟨text, form⟩ := reason
  simp only [isReason, Bool.and_eq_true, decide_eq_true_eq, List.all_eq_true] at form
  have plain : text.toList.all isPlain = true := by
    refine List.all_eq_true.mpr fun char member => ?_
    have letter := form.2 char member
    rw [Bool.or_eq_true, Bool.and_eq_true, decide_eq_true_eq, decide_eq_true_eq,
      decide_eq_true_eq] at letter
    have bounds : 97 ≤ char.toNat ∧ char.toNat ≤ 122 ∨ char = '_' :=
      letter.imp_left fun both => both
    simp only [isPlain, Bool.and_eq_true, decide_eq_true_eq]
    rcases bounds with ⟨low, high⟩ | rfl
    · refine ⟨⟨⟨by omega, by omega⟩, ?_⟩, ?_⟩
      · rintro rfl
        revert low
        decide
      · rintro rfl
        revert low
        decide
    · decide
  exact (compactLength_str plain).trans_le (by omega)

theorem Check.length_le {check : Check} (bounded : check.time.Bounded) :
    compactLength check.toJson.sortKeys ≤ 263 := by
  have time := bounded.length_le
  have reason : compactLength (Json.text check.reason.text).sortKeys ≤ 66 :=
    compactLength_reason_le check.reason
  have status : compactLength (Json.text check.status.text).sortKeys ≤ 66 := by
    cases check.status <;> decide
  refine (@compactLength_sorted_le 17 66 _ fun field member => ?_).trans
    (show 2 + 3 * (17 + 4 + 66) ≤ 263 by norm_num)
  simp only [List.mem_cons, List.not_mem_nil, or_false] at member
  rcases member with rfl | rfl | rfl
  · exact fits_of "at" (by decide) (time.trans (by norm_num))
  · exact fits_of "reason" (by decide) (reason)
  · exact fits_of "status" (by decide) (status)

theorem Verified.Bounded.length_le {good : Verified} (bounded : good.Bounded) :
    compactLength good.toJson.sortKeys ≤ 524 := by
  have count : ∀ {count : Nat}, count ≤ maxRecords → compactLength (.int count) ≤ 66 :=
    fun few => (compactLength_nat (by norm_num : 0 < 4) (lt_of_le_of_lt few (by decide))).trans
      (by norm_num)
  have named : compactLength (Json.text scope).sortKeys ≤ 66 := by decide
  have fits : ∀ field ∈ good.fields, Fits 17 66 (field.1, field.2.sortKeys) := by
    intro field member
    simp only [Verified.fields, List.mem_append, List.mem_cons, List.not_mem_nil, or_false,
      Option.mem_toList, Option.map_eq_some_iff] at member
    rcases member with ((rfl | rfl | rfl | rfl) | ⟨records, given, rfl⟩) | rfl
    · exact fits_of "at" (by decide) (bounded.time.length_le.trans (by norm_num))
    · exact fits_of "canonical_sha256" (by decide) ((compactLength_digest bounded.canonical).le)
    · exact fits_of "count" (by decide) (count bounded.count)
    · exact fits_of "scope" (by decide) (named)
    · obtain ⟨number, few, rfl⟩ := bounded.records records given
      exact fits_of "source_records" (by decide) (count few)
    · exact fits_of "source_sha256" (by decide) ((compactLength_digest bounded.source).le)
  have few : good.fields.length ≤ 6 := by
    rw [Verified.fields]
    cases good.sourceRecords <;> exact Nat.le_of_ble_eq_true rfl
  exact (compactLength_sorted_le fits).trans (by omega)

theorem Record.Bounded.length_le {record : Record} (bounded : record.Bounded) :
    compactLength record.toJson.sortKeys ≤ 1092 := by
  have fits : ∀ field ∈ record.fields, Fits 17 524 (field.1, field.2.sortKeys) := by
    intro field member
    rcases List.mem_cons.mp member with rfl | later
    · exact fits_of "last_check" (by decide) ((Check.length_le bounded.check).trans (by norm_num))
    · rw [Option.mem_toList, Option.map_eq_some_iff] at later
      obtain ⟨good, given, rfl⟩ := later
      exact fits_of "last_verified" (by decide) ((bounded.verified good given).length_le)
  have few : record.fields.length ≤ 2 := by
    rw [Record.fields]
    cases record.lastVerified <;> exact Nat.le_of_ble_eq_true rfl
  exact (compactLength_sorted_le fits).trans (by omega)

/-- **The text of the file is short enough to be read.** -/
theorem utf8Length_proofText_le {hash : List Char} {proof : Proof} (digest : isDigest hash = true)
    (bounded : ∀ feed record, proof feed = some record → record.Bounded) :
    utf8Length (proofText hash proof) ≤ 16384 := by
  have feeds : compactLength (Json.object (feedFields proof)).sortKeys ≤ 2228 := by
    have fits : ∀ field ∈ feedFields proof, Fits 17 1092 (field.1, field.2.sortKeys) := by
      intro field member
      obtain ⟨feed, record, found, rfl⟩ := mem_feedFields.mp member
      have known : feed.name.toList.all isPlain = true ∧ feed.name.length ≤ 17 := by
        cases feed <;> decide
      exact fits_of feed.name known (bounded feed record found).length_le
    have few : (feedFields proof).length ≤ 2 := List.length_filterMap_le _ registry
    exact (compactLength_sorted_le fits).trans (by omega)
  have whole : compactLength (proofJson hash proof).sortKeys ≤ 6749 := by
    refine (@compactLength_sorted_le 17 2228 _ fun field member => ?_).trans
      (show 2 + 3 * (17 + 4 + 2228) ≤ 6749 by norm_num)
    simp only [List.mem_cons, List.not_mem_nil, or_false] at member
    rcases member with rfl | rfl | rfl
    · exact fits_of "definition_sha256" (by decide)
        ((compactLength_digest digest).le.trans (by norm_num))
    · exact fits_of "feeds" (by decide) (feeds)
    · exact fits_of "schema" (by decide) (by decide)
  exact whole.trans (by norm_num)

end Lengths

/-! ## What was saved -/

section Kept

variable {sha256 : List UInt8 → String} {store : Store} {config : Config} {now : Rat}

/-- A record was made by checks that were saved. -/
theorem record_of_proofOf {saved : List Saved} {feed : Feed} {record : Record}
    (found : proofOf saved feed = some record) :
    (∃ entry ∈ saved, ∃ finding : Finding, record.lastCheck = finding.check entry.time) ∧
      ∀ good ∈ record.lastVerified, ∃ entry ∈ saved, ∃ content,
        entry.found.lookup feed = some (.verified content) ∧
          good = verifiedAt entry.time content := by
  induction saved using List.reverseRecOn generalizing record with
  | nil => cases found
  | append_singleton saved entry ih =>
      have earlier : ∀ {old : Record}, proofOf saved feed = some old →
          ∀ good ∈ old.lastVerified, ∃ one ∈ saved ++ [entry], ∃ content,
            one.found.lookup feed = some (.verified content) ∧
              good = verifiedAt one.time content := by
        intro old here good member
        obtain ⟨one, among, made⟩ := (ih here).2 good member
        exact ⟨one, List.mem_append_left _ among, made⟩
      have last : entry ∈ saved ++ [entry] := List.mem_append_right _ List.mem_cons_self
      rw [proofOf_concat, recordAll] at found
      split at found
      next finding here =>
        cases found
        refine ⟨⟨entry, last, finding, rfl⟩, fun good member => ?_⟩
        cases finding with
        | verified content =>
            cases member
            exact ⟨entry, last, content, here, rfl⟩
        | failed reason | changed | mismatch =>
            obtain ⟨old, before, isGood⟩ := Option.bind_eq_some_iff.mp member
            exact earlier before good isGood
      next =>
        obtain ⟨⟨one, among, made⟩, -⟩ := ih found
        exact ⟨⟨one, List.mem_append_left _ among, made⟩, earlier found⟩

theorem Finding.check_time (finding : Finding) (time : Rat) :
    (finding.check time).time = .float time := by
  cases finding <;> rfl

/-- A digest that was saved is one of SHA-256, and a count is in range. -/
theorem Kept.verified (kept : Kept sha256 store)
    (digests : ∀ data, isDigest (sha256 data).toList = true) {feed : Feed} {record : Record}
    (found : proofOf store.saved feed = some record) {good : Verified}
    (member : good ∈ record.lastVerified) :
    ∃ entry ∈ store.saved, good.time = .float entry.time ∧
      isDigest good.sourceSha256.toList = true ∧ isDigest good.canonicalSha256.toList = true ∧
        1 ≤ good.count ∧ good.count ≤ maxRecords ∧
          ∃ count : Nat, count ≤ maxRecords ∧ good.sourceRecords = some (.int count) := by
  obtain ⟨entry, among, content, here, rfl⟩ := (record_of_proofOf found).2 good member
  obtain ⟨data, seen, -, parsed, -⟩ := isVerifiedBy_of_checked (kept.checks entry among) here
  obtain ⟨⟨text, canonical⟩, source, positive, few, records⟩ := parseFeed_bounds parsed
  refine ⟨entry, among, rfl, ?_, ?_, positive, few, content.sourceRecords, records, rfl⟩
  · rw [verifiedAt, source]
    exact digests data
  · rw [verifiedAt, canonical]
    exact digests text

theorem Kept.bounded (kept : Kept sha256 store)
    (digests : ∀ data, isDigest (sha256 data).toList = true)
    (past : ∀ entry ∈ store.saved, entry.time < 10 ^ 15) {feed : Feed} {record : Record}
    (found : proofOf store.saved feed = some record) : record.Bounded := by
  have large : ∀ entry ∈ store.saved, 1 ≤ entry.time := fun entry member =>
    one_le_of_isEpoch (isEpoch_checked (kept.checks entry member)).1
  obtain ⟨⟨entry, among, finding, made⟩, -⟩ := record_of_proofOf found
  refine ⟨?_, fun good member => ?_⟩
  · rw [made, finding.check_time]
    exact ⟨large entry among, past entry among⟩
  · obtain ⟨entry, among, time, source, canonical, -, few, count, small, records⟩ :=
      kept.verified digests found member
    refine ⟨time ▸ ⟨large entry among, past entry among⟩, source, canonical, few, ?_⟩
    rw [records]
    exact fun other same => ⟨count, small, (Option.some.inj same).symm⟩

theorem Kept.accepted (kept : Kept sha256 store)
    (digests : ∀ data, isDigest (sha256 data).toList = true)
    (past : ∀ entry ∈ store.saved, entry.time ≤ nearest (now + 300)) {feed : Feed}
    {record : Record} (found : proofOf store.saved feed = some record) :
    record.Accepted now := by
  have epoch : ∀ entry ∈ store.saved, isEpoch entry.time now = true := by
    intro entry member
    have trusted := (isEpoch_checked (kept.checks entry member)).1
    rw [isEpoch, Bool.and_eq_true, decide_eq_true_eq, decide_eq_true_eq] at trusted ⊢
    exact ⟨trusted.1, past entry member⟩
  obtain ⟨⟨entry, among, finding, made⟩, -⟩ := record_of_proofOf found
  refine ⟨?_, fun good member => ?_⟩
  · rw [made, finding.check_time]
    exact epoch entry among
  · obtain ⟨entry, among, time, source, canonical, positive, few, -⟩ :=
      kept.verified digests found member
    exact ⟨time ▸ epoch entry among, source, canonical, positive, few⟩

/-- What a clock has to be, so that what was saved is read. -/
structure IsReadable (store : Store) (config : Config) (now : Rat) : Prop where
  trusted : isEpoch now now = true
  soon : now ≤ 10 ^ 12
  whole : store.part = false
  configured : ∀ last ∈ store.saved.getLast?, last.config = config
  past : ∀ entry ∈ store.saved, entry.time ≤ nearest (now + 300)

/-- **What was saved is read.** -/
theorem Kept.state_readable (kept : Kept sha256 store)
    (digests : ∀ data, isDigest (sha256 data).toList = true)
    (readable : IsReadable store config now) :
    state sha256 config now store = .ok (proofOf store.saved) := by
  cases last : store.saved.getLast? with
  | none =>
      have file := kept.file
      rw [last, Option.map_none] at file
      rw [List.getLast?_eq_none_iff.mp last, state, file, Checked.bind_eq_ok]
      refine ⟨(), require_eq_ok.mpr readable.trusted, Checked.bind_eq_ok.mpr ⟨(), ?_, rfl⟩⟩
      exact require_eq_ok.mpr (by rw [readable.whole]; rfl)
  | some entry =>
      have file := kept.file
      obtain rfl := readable.configured entry last
      rw [last, Option.map_some] at file
      have near : nearest (now + 300) < 10 ^ 15 := by
        have double : IsDouble (10 ^ 13 : Nat) := isDouble_natCast (by norm_num)
        refine lt_of_le_of_lt ((nearest_mono ?_).trans_eq double) (by norm_num)
        have bound := readable.soon
        push_cast
        linarith
      refine (state_proofText kept.exact file).mpr ⟨readable.trusted, readable.whole, ?_,
        ⟨rfl, kept.configured entry last, ?_⟩, rfl⟩
      · exact utf8Length_proofText_le (digests _) fun feed record =>
          kept.bounded digests fun one member => lt_of_le_of_lt (readable.past one member) near
      · exact fun feed record => kept.accepted digests readable.past

end Kept

/-! ## Calls return -/

/-- **A call that nothing interrupts saves and reports what it found**, whatever calls came
before it, where none of them left a file beside. -/
theorem call_reports (sha256 : List UInt8 → String)
    (digests : ∀ data, isDigest (sha256 data).toList = true) (calls : List (Call × List Fault))
    (clocked : ∀ entry ∈ calls, Clocked entry.1) (call : Call) (config : Config) (time : Rat)
    (found : List (Feed × Finding)) (current : Option Snapshot)
    (unhindered : Unhindered sha256 call config time found current)
    (readable : IsReadable (afterCalls sha256 emptyStore calls) config call.read)
    (locked : IsReadable (afterCalls sha256 emptyStore calls) config call.readLocked) :
    (main sha256 call).ended (afterCalls sha256 emptyStore calls) [] = .returned
        (summary config (proofOf (storeAfter sha256 calls call []).saved) current
          call.summarized) ∧
      (storeAfter sha256 calls call []).saved =
        (afterCalls sha256 emptyStore calls).saved ++ [⟨call, config, time, found⟩] := by
  obtain ⟨kept, -⟩ := kept_afterCalls sha256 calls clocked
  have runs := unhindered.runs_main (kept.state_readable digests readable)
    (kept.state_readable digests locked) readable.whole
  have saved : (storeAfter sha256 calls call []).saved =
      (afterCalls sha256 emptyStore calls).saved ++ [⟨call, config, time, found⟩] :=
    congrArg Store.saved runs.state_eq
  rw [saved, proofOf_concat]
  exact ⟨runs.ended_eq, rfl⟩

theorem sampleSha256_digests (data : List UInt8) : isDigest (sampleSha256 data).toList = true := by
  rw [sampleSha256]
  split
  next => decide
  next =>
    split
    next => decide
    next => decide

theorem sampleReadable : IsReadable (afterCalls sampleSha256 emptyStore
    [(sampleCall 1770000000, [])]) sampleConfig (1770000100 : Nat) := by
  obtain ⟨file, runs⟩ := sampleCall_runs
  have before : afterCalls sampleSha256 emptyStore [(sampleCall 1770000000, [])] =
      ⟨some file, false, [sampleSaved]⟩ := runs.state_eq
  rw [before]
  refine ⟨by decide +kernel, by norm_num, rfl, fun last member => ?_, fun entry member => ?_⟩
  · cases member
    rfl
  · rw [List.mem_singleton.mp member]
    show ((1770000001 : Nat) : Rat) ≤ nearest ((1770000100 : Nat) + 300)
    decide +kernel

theorem call_reports_sample :
    (storeAfter sampleSha256 [(sampleCall 1770000000, [])] (sampleCall 1770000100) []).saved =
      [sampleSaved, ⟨sampleCall 1770000100, sampleConfig, (1770000101 : Nat),
        [(.feodo, .verified sampleContent)]⟩] := by
  obtain ⟨file, runs⟩ := sampleCall_runs
  have before : afterCalls sampleSha256 emptyStore [(sampleCall 1770000000, [])] =
      ⟨some file, false, [sampleSaved]⟩ := runs.state_eq
  have isChecked := sampleChecked_eq_ok 1770000100 (by decide +kernel) (by decide +kernel)
  have unhindered : Unhindered sampleSha256 (sampleCall 1770000100) sampleConfig
      (1770000101 : Nat) [(.feodo, .verified sampleContent)] (some sampleSnapshot) :=
    ⟨sampleConfig_eq_ok, rfl, by decide, rfl, isChecked, sampleUnhindered.taken⟩
  have clocked : ∀ entry ∈ [(sampleCall 1770000000, ([] : List Fault))], Clocked entry.1 :=
    List.forall_mem_singleton.mpr (sampleCall_clocked _ (by norm_num))
  have saved := (call_reports sampleSha256 sampleSha256_digests _ clocked (sampleCall 1770000100)
    sampleConfig _ _ _ unhindered sampleReadable
    sampleReadable).2
  rw [saved, before]
  rfl

end HomeclusterInfra.BanipProof
