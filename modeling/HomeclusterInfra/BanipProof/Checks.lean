import HomeclusterInfra.BanipProof.Coverage
import HomeclusterInfra.BanipProof.Store

/-!
# What a check returns

A check of all feeds returns a finding for each, in their order, and a time of a trusted clock. A
feed is verified only by a download that agrees with two equal snapshots around it.
-/

set_option autoImplicit false

namespace HomeclusterInfra.BanipProof

open Text JsonText Binary64

variable {config : Config}

/-! ## What a check returns -/

section Checks

variable {sha256 : List UInt8 → String} {call : Call} {time : Rat} {found : List (Feed × Finding)}

theorem keys_failing (config : Config) (reason : Reason) :
    (failing config reason).map Prod.fst = config.feeds := by
  rw [failing, List.map_map]
  exact List.map_id _

/-- The feeds between two snapshots that are both taken. -/
theorem compareAll_eq_ok {env : Surroundings}
    (compared : compareAll sha256 config env = .ok found) :
    ∃ before contents after, snapshot sha256 config env.before = .ok before ∧
      (config.feeds.mapM fun feed => do
        let content ← contentOf sha256 feed (env.download feed)
        pure (feed, content)) = .ok contents ∧
      snapshot sha256 config env.after = .ok after ∧
      found = contents.map fun entry => (entry.1, compare before after entry.1 entry.2) := by
  obtain ⟨before, first, rest⟩ := Checked.bind_eq_ok.mp compared
  obtain ⟨contents, taken, rest⟩ := Checked.bind_eq_ok.mp rest
  obtain ⟨after, second, same⟩ := Checked.bind_eq_ok.mp rest
  exact ⟨before, contents, after, first, taken, second, (Checked.pure_eq_ok.mp same).symm⟩

theorem findings_eq_ok {env : Surroundings} (returned : findings sha256 config env = .ok found) :
    compareAll sha256 config env = .ok found ∨ ∃ reason, found = failing config reason := by
  rw [findings] at returned
  split at returned
  next compared =>
    cases returned
    exact Or.inl compared
  next reason _ =>
    cases returned
    exact Or.inr ⟨reason, rfl⟩
  next => cases returned
  next =>
    cases returned
    exact Or.inr ⟨_, rfl⟩

theorem verify_eq_ok (returned : verify sha256 config call = .ok (time, found)) :
    findings sha256 config call.check = .ok found ∧
      clockAgrees call.check.started call.check.finished = true ∧ time = call.check.finished := by
  obtain ⟨_, _, rest⟩ := Checked.bind_eq_ok.mp returned
  obtain ⟨_, _, rest⟩ := Checked.bind_eq_ok.mp rest
  obtain ⟨others, taken, rest⟩ := Checked.bind_eq_ok.mp rest
  obtain ⟨_, agrees, same⟩ := Checked.bind_eq_ok.mp rest
  rw [require_eq_ok] at agrees
  cases same
  exact ⟨taken, agrees, rfl⟩

theorem checked_eq_ok (returned : checked sha256 config call = .ok (time, found)) :
    verify sha256 config call = .ok (time, found) ∨
      isEpoch call.failed call.failed = true ∧ time = call.failed ∧
        ∃ reason, found = failing config reason := by
  rw [checked] at returned
  split at returned
  next verified =>
    cases returned
    exact Or.inl verified
  next => cases returned
  next =>
    obtain ⟨_, epoch, same⟩ := Checked.bind_eq_ok.mp returned
    rw [require_eq_ok] at epoch
    cases same
    exact Or.inr ⟨epoch, rfl, _, rfl⟩

theorem keys_compareAll {env : Surroundings} (compared : compareAll sha256 config env = .ok found) :
    found.map Prod.fst = config.feeds := by
  obtain ⟨before, contents, after, -, taken, -, rfl⟩ := compareAll_eq_ok compared
  have pairs := Checked.mapM_eq_ok.mp taken
  rw [List.map_map]
  clear compared taken
  generalize config.feeds = feeds at pairs
  induction pairs with
  | nil => rfl
  | cons first _ ih =>
      obtain ⟨content, -, same⟩ := Checked.bind_eq_ok.mp first
      rw [List.map_cons, ih, ← Checked.pure_eq_ok.mp same]
      rfl

theorem keys_checked (returned : checked sha256 config call = .ok (time, found)) :
    found.map Prod.fst = config.feeds := by
  rcases checked_eq_ok returned with verified | ⟨-, -, reason, rfl⟩
  · rcases findings_eq_ok (verify_eq_ok verified).1 with compared | ⟨reason, rfl⟩
    · exact keys_compareAll compared
    · exact keys_failing config reason
  · exact keys_failing config reason

/-- The clock of a check is trusted. -/
theorem isEpoch_checked (returned : checked sha256 config call = .ok (time, found)) :
    isEpoch time time = true ∧ (time = call.check.finished ∨ time = call.failed) := by
  rcases checked_eq_ok returned with verified | ⟨epoch, rfl, -⟩
  · obtain ⟨-, agrees, rfl⟩ := verify_eq_ok verified
    rw [clockAgrees, Bool.and_eq_true, Bool.and_eq_true] at agrees
    exact ⟨agrees.1.1, Or.inl rfl⟩
  · exact ⟨epoch, Or.inr rfl⟩

/-- What a verified feed was verified by: a download whose digest is that of its set in two equal
snapshots around it. -/
def IsVerifiedBy (sha256 : List UInt8 → String) (saved : Saved) (feed : Feed)
    (content : FeedContent) : Prop :=
  ∃ data seen, saved.call.check.download feed = .ok data ∧
    parseFeed sha256 feed data = .ok content ∧
    snapshot sha256 saved.config saved.call.check.before = .ok seen ∧
    snapshot sha256 saved.config saved.call.check.after = .ok seen ∧
    seen.digest feed = some content.canonicalSha256

theorem contentOf_eq_ok {feed : Feed} {download : Except Raised (List UInt8)}
    {content : FeedContent} (taken : contentOf sha256 feed download = .ok (.ok content)) :
    ∃ data, download = .ok data ∧ parseFeed sha256 feed data = .ok content := by
  rw [contentOf] at taken
  split at taken
  next parsed =>
    cases taken
    exact Checked.bind_eq_ok.mp parsed
  next => cases taken
  next => cases taken
  next => cases taken

theorem lookup_failing {feed : Feed} {reason : Reason} {finding : Finding}
    (found : (failing config reason).lookup feed = some finding) : finding = .failed reason := by
  obtain ⟨other, -, same⟩ := List.mem_map.mp (Keyed.mem_of_lookup found)
  exact (Prod.mk.inj same).2.symm

theorem compare_eq_verified {before after : Snapshot} {feed : Feed}
    {given : Except Reason FeedContent} {content : FeedContent}
    (verified : compare before after feed given = .verified content) :
    given = .ok content ∧ before = after ∧
      after.digest feed = some content.canonicalSha256 := by
  cases given with
  | error => cases verified
  | ok other =>
      rw [compare] at verified
      split at verified
      next => cases verified
      next same =>
        split at verified
        next => cases verified
        next agree =>
          cases verified
          exact ⟨rfl, not_not.mp same, not_not.mp agree⟩

theorem isVerifiedBy_of_checked {feed : Feed} {content : FeedContent}
    (returned : checked sha256 config call = .ok (time, found))
    (verified : found.lookup feed = some (.verified content)) :
    IsVerifiedBy sha256 ⟨call, config, time, found⟩ feed content := by
  have notFailing : ∀ reason, found ≠ failing config reason := by
    rintro reason rfl
    cases lookup_failing verified
  rcases checked_eq_ok returned with through | ⟨-, -, reason, same⟩
  · rcases findings_eq_ok (verify_eq_ok through).1 with compared | ⟨reason, same⟩
    · obtain ⟨before, contents, after, first, taken, second, rfl⟩ := compareAll_eq_ok compared
      obtain ⟨entry, listed, same⟩ := List.mem_map.mp (Keyed.mem_of_lookup verified)
      obtain ⟨rfl, isVerified⟩ := Prod.mk.inj same
      obtain ⟨given, rfl, agree⟩ := compare_eq_verified isVerified
      obtain ⟨feed, -, read⟩ := Checked.exists_of_mem_mapM_ok taken listed
      obtain ⟨other, isContent, pair⟩ := Checked.bind_eq_ok.mp read
      rw [Checked.pure_eq_ok] at pair
      subst pair
      dsimp only at given
      rw [given] at isContent
      obtain ⟨data, downloaded, parsed⟩ := contentOf_eq_ok isContent
      exact ⟨data, before, downloaded, parsed, first, second, agree⟩
    · exact absurd same (notFailing reason)
  · exact absurd same (notFailing reason)

end Checks

end HomeclusterInfra.BanipProof
