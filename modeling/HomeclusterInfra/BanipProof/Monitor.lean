import HomeclusterInfra.BanipProof.StoreBounds
import HomeclusterInfra.Library.JsonBytes

/-!
# The monitor of the feed proofs

The security monitor runs the status action and takes over what it prints only where it fits
together: each row with the monitor's own clock, and the rows with the whole. Of the store that
calls left, it takes over every summary, as it was printed.
-/

set_option autoImplicit false

namespace HomeclusterInfra.BanipProof

open Text JsonText Binary64 Interruption

/-! ## What is printed -/

def Status.text : Status → String
  | .verified => "verified"
  | .error => "error"
  | .unknown => "unknown"
  | .stale => "stale"

def countJson : Option Nat → Json
  | some count => .int count
  | none => .null

def stampJson : Option Stamp → Json
  | some time => time.toJson
  | none => .null

def Feed.setName (feed : Feed) : String :=
  feed.name ++ ".v4"

def Row.fields (row : Row) : List (String × Json) :=
  [("feed", .text row.feed.setName), ("status", .text row.status.text),
    ("reason", .text row.reason.text), ("verified_at", stampJson row.verifiedAt),
    ("age_seconds", countJson row.ageSeconds),
    ("last_verified_count", countJson row.lastVerifiedCount)]

def Row.toJson (row : Row) : Json :=
  .object row.fields

def Summary.fields (report : Summary) : List (String × Json) :=
  [("status", .text report.status.text), ("age_seconds", countJson report.ageSeconds),
    ("feeds", .arr (report.feeds.map Row.toJson))]

def Summary.toJson (report : Summary) : Json :=
  .object report.fields

/-- What `main` prints. -/
def printed (report : Summary) : List UInt8 :=
  utf8Bytes (dumps (Style.compact true) report.toJson ++ ['\n'])

/-- What `main` returns after it. -/
def exitCode (action : Action) (report : Summary) : Nat :=
  if action = .status || report.status = .verified then 0 else 1

/-! ## The monitor -/

/-- `read_feed_proof`, of a child that ended in time. -/
def readFeedProof (code : Nat) (output : List UInt8) : Except Raised Json := do
  Checked.require (output.length ≤ 2048) .valueOrOs
  Checked.require (code = 0) .valueOrOs
  orRaise (loadsBytes dictOf output) .valueOrOs

/-- Which of some texts a value is. What has no hash is looked up in no set. -/
def choiceOf {α : Type} (choices : List α) (text : α → String) (value : Option Json) :
    Except Raised α :=
  match value with
  | some (.arr _) | some (.obj _) => .error .lookupOrProcess
  | some (.str chars) =>
      orRaise (choices.find? fun choice => (text choice).toList = chars) .valueOrOs
  | _ => .error .valueOrOs

def statusOf : Option Json → Except Raised Status :=
  choiceOf [.verified, .error, .unknown, .stale] Status.text

/-- A row as it is taken over. -/
structure Reported where
  feed : Feed
  status : Status
  verifiedAt : Option Stamp
  ageSeconds : Option Nat
  lastVerifiedCount : Option Nat

/-- An age that is near the one of the monitor's clock. -/
def ageOf (now : Rat) (time : Stamp) : Option Json → Option Nat
  | some (.int age) =>
      if 0 ≤ age && |age - (ageAt now time : Int)| ≤ 30 then some age.toNat else none
  | _ => none

/-- `is None`, of `get`. -/
def isMissing : Option Json → Bool
  | none | some .null => true
  | _ => false

/-- A row. -/
def checkedRow (now : Rat) (row : Json) : Except Raised Reported := do
  match row with
  | .obj fields =>
      let feed ← choiceOf registry Feed.setName (Fields.get fields "feed")
      let status ← statusOf (Fields.get fields "status")
      let age := Fields.get fields "age_seconds"
      let count := Fields.get fields "last_verified_count"
      match (Fields.get fields "verified_at").getD .null with
      | .null =>
          Checked.require (isMissing age && isMissing count &&
            status ≠ .verified && status ≠ .stale) .valueOrOs
          pure ⟨feed, status, none, none, none⟩
      | written =>
          let time ← stampOf .valueOrOs now written
          let age ← orRaise (ageOf now time age) .valueOrOs
          let count ← orRaise (count.bind countOf) .valueOrOs
          Checked.require (!(status = .verified && maxAge < age)) .valueOrOs
          pure ⟨feed, status, some time, some age, some count⟩
  | _ => .error .valueOrOs

/-- `==` of a value and an age, or none. -/
def equalsAge (value : Option Json) : Option Nat → Bool
  | none => isMissing value
  | some age =>
      match value with
      | some (.int number) => number = age
      | some (.float number) => number = age
      | some (.bool truth) => (if truth then 1 else 0) = age
      | _ => false

/-- What the heartbeat takes over. -/
structure MonitorReport where
  status : Status
  ageSeconds : Option Nat
  rows : List Reported

/-- `checked_feed_proof` -/
def checkedFeedProof (now : Rat) (value : Json) : Except Raised MonitorReport := do
  match value with
  | .obj fields =>
      let status ← statusOf (Fields.get fields "status")
      match Fields.get fields "feeds" with
      | some (.arr items) =>
          Checked.require (1 ≤ items.length && items.length ≤ 2) .valueOrOs
          let rows ← items.mapM (checkedRow now)
          Checked.require (rows.map (·.feed)).Nodup .valueOrOs
          let age := greatestAge (rows.map (·.ageSeconds))
          Checked.require (status = combined (rows.map (·.status)) &&
            equalsAge (Fields.get fields "age_seconds") age) .valueOrOs
          pure ⟨combined (rows.map (·.status)), age, rows⟩
      | _ => .error .valueOrOs
  | _ => .error .valueOrOs

/-- What the heartbeat says of the feeds. Of what cannot be read it says nothing. -/
def feedVerification (now : Rat) (read : Except Raised Json) :
    Except Raised (Status × Option Nat × Option (List Reported)) :=
  match read >>= checkedFeedProof now with
  | .ok report => .ok (report.status, report.ageSeconds, some report.rows)
  | .error .other => .error .other
  | .error _ => .ok (.unknown, none, none)


/-! ## Ages -/

section Ages

variable {one other : Rat} {time : Stamp}

theorem nearest_natCast {number : Nat} (small : number ≤ 2 ^ 53) :
    nearest (number : Rat) = number :=
  isDouble_natCast small

/-- An age is no less than the whole seconds that went by. -/
theorem le_ageAt {number : Nat} (small : number ≤ 2 ^ 53) {now : Rat}
    (gone : (number : Rat) ≤ now - nearest time.value) : number ≤ ageAt now time := by
  have order : nearest time.value ≤ now := by
    have nonneg : (0 : Rat) ≤ number := Nat.cast_nonneg number
    linarith
  have rounded : (number : Rat) ≤ nearest (now - nearest time.value) := by
    rw [← nearest_natCast small]
    exact nearest_mono gone
  have floor : (number : Int) ≤ (nearest (now - nearest time.value)).floor := by
    rw [Rat.le_floor_iff]
    exact_mod_cast rounded
  rw [ageAt, minus, if_pos order]
  omega

theorem ageAt_le {number : Nat} (small : number ≤ 2 ^ 53) {now : Rat}
    (gone : now - nearest time.value ≤ number) : ageAt now time ≤ number := by
  have rounded : minus now (nearest time.value) ≤ number :=
    minus_le_of (isDouble_natCast small) gone
  have floor : (minus now (nearest time.value)).floor ≤ number := by
    have below := (floor_le (minus now (nearest time.value))).trans rounded
    exact_mod_cast below
  rw [ageAt]
  omega

/-- Clocks that are near to each other give ages that are. -/
theorem ageAt_le_add (near : one ≤ other + 29) (early : other - nearest time.value < 2 ^ 52) :
    ageAt one time ≤ ageAt other time + 30 := by
  rcases le_total (nearest time.value) other with after | before
  · have nonneg : 0 ≤ other - nearest time.value := sub_nonneg.mpr after
    obtain ⟨whole, isWhole⟩ := Int.eq_ofNat_of_zero_le
      (Rat.le_floor_iff.mpr (by exact_mod_cast nonneg) : 0 ≤ (other - nearest time.value).floor)
    have below : (whole : Rat) ≤ other - nearest time.value := by
      have floor := floor_le (other - nearest time.value)
      rw [isWhole] at floor
      exact_mod_cast floor
    have above : other - nearest time.value < (whole : Rat) + 1 := by
      have floor := lt_floor_add_one (other - nearest time.value)
      rw [isWhole] at floor
      exact_mod_cast floor
    have small : whole < 2 ^ 52 := by exact_mod_cast lt_of_le_of_lt below early
    have least := le_ageAt (by omega : whole ≤ 2 ^ 53) below
    have most : ageAt one time ≤ whole + 30 := by
      refine ageAt_le (by omega) ?_
      push_cast
      linarith
    omega
  · have most : ageAt one time ≤ 29 := by
      refine @ageAt_le time 29 (by norm_num) one ?_
      push_cast
      linarith
    omega

end Ages

/-! ## Rows -/

section Rows

variable {now : Rat} {row : Row}

def Row.reported (row : Row) : Reported :=
  ⟨row.feed, row.status, row.verifiedAt, row.ageSeconds, row.lastVerifiedCount⟩

/-- A row that the monitor's clock agrees with. -/
inductive Row.Fitting (now : Rat) : Row → Prop
  | missing {feed : Feed} {status : Status} {reason : Reason} (notVerified : status ≠ .verified)
      (notStale : status ≠ .stale) : Row.Fitting now ⟨feed, status, reason, none, none, none⟩
  | verified {feed : Feed} {status : Status} {reason : Reason} {time : Stamp} {age count : Nat}
      (exact : time.Exact) (epoch : isEpoch time.value now = true)
      (near : |(age : Int) - ageAt now time| ≤ 30) (some_network : 1 ≤ count)
      (few : count ≤ maxRecords) (young : status = .verified → age ≤ maxAge) :
      Row.Fitting now ⟨feed, status, reason, some time, some age, some count⟩

theorem choiceOf_text {α : Type} {choices : List α} {text : α → String}
    (distinct : Function.Injective text) {choice : α} (member : choice ∈ choices) :
    choiceOf choices text (some (.text (text choice))) = .ok choice := by
  have found : choices.find? (fun other => (text other).toList = (text choice).toList) =
      some choice := by
    cases here : choices.find? fun other => (text other).toList = (text choice).toList with
    | none =>
        have absent := List.find?_eq_none.mp here choice member
        simp at absent
    | some other =>
        have same : (text other).toList = (text choice).toList := by
          simpa using List.find?_some here
        rw [distinct (String.toList_inj.mp same)]
  show orRaise (choices.find? fun other => (text other).toList = (text choice).toList) _ = _
  rw [found]
  rfl

theorem statusOf_text (status : Status) : statusOf (some (.text status.text)) = .ok status := by
  refine choiceOf_text ?_ ?_
  · intro one other same
    cases one <;> cases other <;> first | rfl | exact absurd same (by decide)
  · cases status <;> decide

theorem choiceOf_setName (feed : Feed) :
    choiceOf registry Feed.setName (some (.text feed.setName)) = .ok feed := by
  refine choiceOf_text ?_ (mem_registry feed)
  intro one other same
  cases one <;> cases other <;> first | rfl | exact absurd same (by decide)

theorem get_object (named : List (String × Json)) (key : String) :
    Fields.get (named.map fun field => (field.1.toList, field.2)) key = Mapping.get named key :=
  lookup_map_toList named key

/-- **A row that fits is taken over.** -/
theorem checkedRow_toJson (fitting : row.Fitting now) :
    checkedRow now row.toJson = .ok row.reported := by
  have feed : Mapping.get row.fields "feed" = some (.text row.feed.setName) := rfl
  have status : Mapping.get row.fields "status" = some (.text row.status.text) := rfl
  have written : Mapping.get row.fields "verified_at" = some (stampJson row.verifiedAt) := rfl
  have age : Mapping.get row.fields "age_seconds" = some (countJson row.ageSeconds) := rfl
  have count : Mapping.get row.fields "last_verified_count" =
    some (countJson row.lastVerifiedCount) := rfl
  rw [Row.toJson, Json.object, checkedRow]
  simp only [get_object, feed, status, written, age, count, choiceOf_setName, statusOf_text,
    Checked.bind_eq_ok, Except.ok.injEq, exists_eq_left', Option.getD_some]
  clear feed status written age count
  cases fitting with
  | @missing feed status reason notVerified notStale =>
      refine Checked.bind_eq_ok.mpr ⟨(), Checked.require_eq_ok.mpr ?_, rfl⟩
      rw [decide_eq_true notVerified, decide_eq_true notStale]
      rfl
  | @verified feed status reason time age count exact epoch near some_network few young =>
      have isAge : ageOf now time (some (.int age)) = some age := by
        rw [ageOf, if_pos, Int.toNat_natCast]
        rw [Bool.and_eq_true, decide_eq_true_eq, decide_eq_true_eq]
        exact ⟨Int.natCast_nonneg age, near⟩
      have isCount : countOf (.int count) = some count :=
        countOf_natCast.mpr ⟨⟨some_network, few⟩, rfl⟩
      have isYoung : (!(decide (status = .verified) && decide (maxAge < age))) = true := by
        rw [Bool.not_eq_true', Bool.and_eq_false_iff, decide_eq_false_iff_not,
          decide_eq_false_iff_not, not_lt]
        exact or_iff_not_imp_left.mpr fun isVerified => young (not_not.mp isVerified)
      have isTime : stampOf .valueOrOs now time.toJson = .ok time :=
        (stampOf_toJson exact _).mpr ⟨epoch, rfl⟩
      have rest : (do
          let time ← stampOf .valueOrOs now time.toJson
          let age ← orRaise (ageOf now time (some (.int age))) .valueOrOs
          let count ← orRaise (countOf (.int count)) .valueOrOs
          Checked.require (!(status = .verified && maxAge < age)) .valueOrOs
          pure ⟨feed, status, some time, some age, some count⟩ : Except Raised Reported) =
            .ok ⟨feed, status, some time, some age, some count⟩ :=
        Checked.bind_eq_ok.mpr ⟨time, isTime, Checked.bind_eq_ok.mpr ⟨age, orRaise_eq_ok.mpr isAge,
          Checked.bind_eq_ok.mpr ⟨count, orRaise_eq_ok.mpr isCount,
            Checked.bind_eq_ok.mpr ⟨(), Checked.require_eq_ok.mpr isYoung, rfl⟩⟩⟩⟩
      cases time with
      | int value => exact rest
      | float value => exact rest

end Rows

/-! ## The whole -/

section Whole

variable {now : Rat} {report : Summary}

/-- A summary whose rows fit, and which fits its rows. -/
structure Summary.Fitting (now : Rat) (report : Summary) : Prop where
  rows : ∀ row ∈ report.feeds, row.Fitting now
  some_row : 1 ≤ report.feeds.length
  few : report.feeds.length ≤ 2
  distinct : (report.feeds.map (·.feed)).Nodup
  status : report.status = combined (report.feeds.map (·.status))
  age : report.ageSeconds = greatestAge (report.feeds.map (·.ageSeconds))

def Summary.reported (report : Summary) : MonitorReport :=
  ⟨report.status, report.ageSeconds, report.feeds.map Row.reported⟩

theorem equalsAge_countJson (age : Option Nat) : equalsAge (some (countJson age)) age = true := by
  cases age with
  | none => rfl
  | some age => exact decide_eq_true rfl

theorem Summary.Fitting.checked (fitting : report.Fitting now) :
    checkedFeedProof now report.toJson = .ok report.reported := by
  have status : Mapping.get report.fields "status" = some (.text report.status.text) := rfl
  have age : Mapping.get report.fields "age_seconds" = some (countJson report.ageSeconds) := rfl
  have feeds : Mapping.get report.fields "feeds" =
    some (.arr (report.feeds.map Row.toJson)) := rfl
  have rows : (report.feeds.map Row.toJson).mapM (checkedRow now) =
      .ok (report.feeds.map Row.reported) := by
    rw [Checked.mapM_eq_ok, List.forall₂_map_left_iff, List.forall₂_map_right_iff,
      List.forall₂_same]
    exact fun row member => checkedRow_toJson (fitting.rows row member)
  have number : (decide (1 ≤ (report.feeds.map Row.toJson).length) &&
      decide ((report.feeds.map Row.toJson).length ≤ 2)) = true := by
    rw [List.length_map, decide_eq_true fitting.some_row, decide_eq_true fitting.few]
    rfl
  have distinct : decide ((report.feeds.map Row.reported).map (·.feed)).Nodup = true := by
    rw [List.map_map]
    exact decide_eq_true fitting.distinct
  have ages : greatestAge ((report.feeds.map Row.reported).map (·.ageSeconds)) =
      report.ageSeconds := by
    rw [List.map_map, fitting.age]
    rfl
  have statuses : combined ((report.feeds.map Row.reported).map (·.status)) = report.status := by
    rw [List.map_map, fitting.status]
    rfl
  rw [Summary.toJson, Json.object, checkedFeedProof]
  simp only [get_object, status, age, feeds, statusOf_text, Checked.bind_eq_ok, Except.ok.injEq,
    exists_eq_left', rows, Checked.require_eq_ok, number, distinct, ages, statuses,
    equalsAge_countJson, decide_true, Bool.and_self, exists_const, Checked.pure_eq_ok, true_and]
  rfl

theorem Summary.readable (exact : ∀ row ∈ report.feeds, ∀ time ∈ row.verifiedAt, time.Exact) :
    report.toJson.Readable := by
  have count : ∀ age, (countJson age).Readable := fun age => by cases age <;> trivial
  have rows : ∀ row ∈ report.feeds, row.toJson.Readable := by
    intro row member
    have keys : (["feed", "status", "reason", "verified_at", "age_seconds",
      "last_verified_count"] : List String).Nodup := by decide
    have stamp : (stampJson row.verifiedAt).Readable := by
      cases given : row.verifiedAt with
      | none => trivial
      | some time => exact (exact row member time given).readable
    rw [Row.toJson, Row.fields]
    refine readable_object keys ?_
    simp only [List.forall_mem_cons]
    exact ⟨trivial, trivial, trivial, stamp, count _, count _,
      fun _ none => absurd none List.not_mem_nil⟩
  have keys : (["status", "age_seconds", "feeds"] : List String).Nodup := by decide
  rw [Summary.toJson, Summary.fields]
  refine readable_object keys ?_
  simp only [List.forall_mem_cons]
  refine ⟨trivial, count _, readable_arr fun item member => ?_,
    fun _ none => absurd none List.not_mem_nil⟩
  obtain ⟨row, among, rfl⟩ := List.mem_map.mp member
  exact rows row among

/-- Every number of a summary is written in few digits. -/
structure Summary.Bounded (report : Summary) : Prop where
  rows : ∀ row ∈ report.feeds, (∀ time ∈ row.verifiedAt, time.Bounded) ∧
    (∀ age ∈ row.ageSeconds, age < 10 ^ 15) ∧ ∀ count ∈ row.lastVerifiedCount, count < 10 ^ 15
  age : ∀ age ∈ report.ageSeconds, age < 10 ^ 15

theorem compactLength_countJson_le {count : Option Nat} (small : ∀ value ∈ count, value < 10 ^ 15) :
    compactLength (countJson count) ≤ 66 := by
  cases count with
  | none => decide
  | some value => exact (compactLength_nat (by norm_num) (small value rfl)).trans (by norm_num)

theorem Row.length_le {row : Row} (time : ∀ time ∈ row.verifiedAt, time.Bounded)
    (age : ∀ age ∈ row.ageSeconds, age < 10 ^ 15)
    (count : ∀ count ∈ row.lastVerifiedCount, count < 10 ^ 15) :
    compactLength row.toJson ≤ 536 := by
  have stamp : compactLength (stampJson row.verifiedAt) ≤ 66 := by
    cases given : row.verifiedAt with
    | none => decide
    | some written =>
        have length := (time written given).length_le
        rw [Stamp.sortKeys_toJson] at length
        exact length.trans (by norm_num)
  have name : compactLength (Json.text row.feed.setName) ≤ 66 := by
    cases row.feed <;> decide
  have status : compactLength (Json.text row.status.text) ≤ 66 := by
    cases row.status <;> decide
  refine (@compactLength_object_le 19 66 row.fields fun field member => ?_).trans
    (show 2 + 6 * (19 + 4 + 66) ≤ 536 by norm_num)
  simp only [Row.fields, List.mem_cons, List.not_mem_nil, or_false] at member
  rcases member with rfl | rfl | rfl | rfl | rfl | rfl
  · exact fits_of "feed" (by decide) name
  · exact fits_of "status" (by decide) status
  · exact fits_of "reason" (by decide) (compactLength_reason_le row.reason)
  · exact fits_of "verified_at" (by decide) stamp
  · exact fits_of "age_seconds" (by decide) (compactLength_countJson_le age)
  · exact fits_of "last_verified_count" (by decide) (compactLength_countJson_le count)

/-- **What is printed is short enough to be taken over.** -/
theorem Summary.Bounded.length_le (bounded : report.Bounded) (few : report.feeds.length ≤ 2) :
    (printed report).length ≤ 2048 := by
  have rows : compactLength (.arr (report.feeds.map Row.toJson)) ≤ 1076 := by
    have sum : ((report.feeds.map Row.toJson).map fun item => compactLength item + 1).sum ≤
        report.feeds.length * 537 := by
      have each := bounded.rows
      generalize report.feeds = feeds at each
      induction feeds with
      | nil => exact Nat.zero_le _
      | cons row feeds ih =>
          rw [List.forall_mem_cons] at each
          have first := Row.length_le each.1.1 each.1.2.1 each.1.2.2
          have later := ih each.2
          rw [List.map_cons, List.map_cons, List.sum_cons, List.length_cons, Nat.succ_mul]
          omega
    exact (compactLength_arr_le _).trans (by omega)
  have age := compactLength_countJson_le bounded.age
  have status : compactLength (Json.text report.status.text) ≤ 66 := by
    cases report.status <;> decide
  have plain : ∀ field ∈ report.fields.map fun field => (field.1.toList, field.2),
      field.1.all isPlain = true := by
    intro field member
    simp only [Summary.fields, List.map_cons, List.map_nil, List.mem_cons, List.not_mem_nil,
      or_false] at member
    rcases member with rfl | rfl | rfl
    · exact (by decide : "status".toList.all isPlain = true)
    · exact (by decide : "age_seconds".toList.all isPlain = true)
    · exact (by decide : "feeds".toList.all isPlain = true)
  have whole := compactLength_obj_le plain
  have names : "status".toList.length = 6 ∧ "age_seconds".toList.length = 11 ∧
    "feeds".toList.length = 5 := by decide
  simp only [Summary.fields, List.map_cons, List.map_nil, List.sum_cons, List.sum_nil,
    names.1, names.2.1, names.2.2] at whole
  have newline : '\n'.utf8Size = 1 := rfl
  rw [printed, length_utf8Bytes, utf8Length_append, utf8Length_cons, utf8Length_nil, newline]
  have text : utf8Length (dumps (Style.compact true) report.toJson) ≤ 1300 :=
    le_trans whole (by omega)
  omega

theorem loadsBytes_printed (exact : ∀ row ∈ report.feeds, ∀ time ∈ row.verifiedAt, time.Exact) :
    loadsBytes dictOf (printed report) = some report.toJson := by
  have read : loadsWith dictOf (dumps (Style.compact true) report.toJson ++ ['\n']) =
      some report.toJson :=
    loadsWith_dumps dictOf_keeps (compact_standard true) (Summary.readable exact) rfl
  have decoded := utf8Decode_utf8Bytes (dumps (Style.compact true) report.toJson ++ ['\n'])
  rw [loadsBytes, printed, detectEncoding_of_object decoded read, decodeAs, decoded,
    Option.bind_some]
  exact read

end Whole

/-! ## Summaries of the store -/

section Store

variable {sha256 : List UInt8 → String} {store : Store} {config : Config} {now taken : Rat}
  {current : Option Snapshot} {feed : Feed}

/-- Without a success a feed is neither verified nor stale. -/
theorem judge_of_none {record : Option Record}
    (none_verified : record.bind Record.lastVerified = none) :
    (judge record current feed now).1 ≠ .verified ∧ (judge record current feed now).1 ≠ .stale := by
  have unknown : Status.unknown ≠ .verified ∧ Status.unknown ≠ .stale := by decide
  unfold judge
  cases current with
  | none => exact unknown
  | some seen =>
      cases record with
      | none => exact unknown
      | some record =>
          have missing : record.lastVerified = none := none_verified
          dsimp only
          rw [missing]
          split
          next other =>
            cases status : record.lastCheck.status with
            | verified => exact absurd status other
            | error => exact (by decide : Status.error ≠ .verified ∧ Status.error ≠ .stale)
            | unknown => exact unknown
          next => exact unknown

theorem mem_of_greatestAge {ages : List (Option Nat)} {age : Nat}
    (greatest : greatestAge ages = some age) : some age ∈ ages := by
  obtain ⟨known, all, isMax⟩ := Option.bind_eq_some_iff.mp greatest
  have member := List.max?_mem isMax
  have same : ages = known.map some := by
    clear isMax member greatest
    induction ages generalizing known with
    | nil =>
        cases all
        rfl
    | cons first ages ih =>
        rw [List.mapM_cons] at all
        obtain ⟨value, here, rest⟩ := Option.bind_eq_some_iff.mp all
        obtain ⟨values, later, done⟩ := Option.bind_eq_some_iff.mp rest
        cases done
        rw [ih values later, List.map_cons, ← here, id]
  rw [same]
  exact List.mem_map_of_mem member

/-- What the clocks of a summary and of the monitor have to be. -/
structure Clocks (store : Store) (taken now : Rat) : Prop where
  near : |taken - now| ≤ 29
  early : now ≤ 10 ^ 12
  past : ∀ entry ∈ store.saved, entry.time ≤ nearest (now + 300)

/-- The row of a feed. -/
theorem Kept.row_cases (kept : Kept sha256 store)
    (digests : ∀ data, isDigest (sha256 data).toList = true) (feed : Feed) :
    (∃ status reason, rowOf (proofOf store.saved) current taken feed =
        ⟨feed, status, reason, none, none, none⟩ ∧ status ≠ .verified ∧ status ≠ .stale) ∨
      ∃ status reason count, ∃ entry ∈ store.saved,
        rowOf (proofOf store.saved) current taken feed = ⟨feed, status, reason,
          some (.float entry.time), some (ageAt taken (.float entry.time)), some count⟩ ∧
        1 ≤ count ∧ count ≤ maxRecords ∧
          (status = .verified → ageAt taken (.float entry.time) ≤ maxAge) := by
  cases last : (proofOf store.saved feed).bind Record.lastVerified with
  | none =>
      obtain ⟨notVerified, notStale⟩ := @judge_of_none taken current feed _ last
      refine Or.inl ⟨_, (judge (proofOf store.saved feed) current feed taken).2, ?_, notVerified,
        notStale⟩
      rw [rowOf, last]
      rfl
  | some good =>
      obtain ⟨record, found, isGood⟩ := Option.bind_eq_some_iff.mp last
      obtain ⟨entry, among, time, -, -, some_network, few, -⟩ := kept.verified digests found isGood
      have row : rowOf (proofOf store.saved) current taken feed =
          ⟨feed, (judge (proofOf store.saved feed) current feed taken).1,
            (judge (proofOf store.saved feed) current feed taken).2,
            some (.float entry.time), some (ageAt taken (.float entry.time)), some good.count⟩ := by
        rw [rowOf, last]
        simp only [Option.map_some, time]
      refine Or.inr ⟨_, _, good.count, entry, among, row, some_network, few, fun verified => ?_⟩
      obtain ⟨_, other, same, -, here, -, isSame, -, young⟩ := rowOf_verified_iff.mp
        (show (rowOf (proofOf store.saved) current taken feed).status = .verified from verified)
      cases found.symm.trans here
      cases isGood.symm.trans isSame
      rwa [time] at young

theorem Kept.fitting (kept : Kept sha256 store)
    (digests : ∀ data, isDigest (sha256 data).toList = true) (clocks : Clocks store taken now) :
    (summary config (proofOf store.saved) current taken).Fitting now := by
  have feeds : (summary config (proofOf store.saved) current taken).feeds.map (·.feed) =
      config.feeds := by
    rw [summary, List.map_map]
    exact List.map_id _
  have number : (summary config (proofOf store.saved) current taken).feeds.length =
      config.feeds.length := List.length_map _
  refine ⟨fun row member => ?_, ?_, ?_, feeds ▸ config.distinct, rfl, rfl⟩
  · obtain ⟨feed, -, rfl⟩ := List.mem_map.mp member
    rcases kept.row_cases digests feed with
      ⟨status, reason, same, notVerified, notStale⟩ |
        ⟨status, reason, count, entry, among, same, some_network, few, young⟩
    · rw [same]
      exact .missing notVerified notStale
    · rw [same]
      have trusted := (isEpoch_checked (kept.checks entry among)).1
      have epoch : isEpoch entry.time now = true := by
        rw [isEpoch, Bool.and_eq_true, decide_eq_true_eq, decide_eq_true_eq] at trusted ⊢
        exact ⟨trusted.1, clocks.past entry among⟩
      obtain ⟨below, above⟩ := abs_le.mp clocks.near
      have early := clocks.early
      have nonneg := nearest_nonneg (Stamp.float entry.time).value
      have up : ageAt taken (.float entry.time) ≤ ageAt now (.float entry.time) + 30 :=
        ageAt_le_add (by linarith) (by norm_num at early ⊢; linarith)
      have down : ageAt now (.float entry.time) ≤ ageAt taken (.float entry.time) + 30 :=
        ageAt_le_add (by linarith) (by norm_num at early ⊢; linarith)
      refine .verified ⟨kept.doubles entry among, one_le_of_isEpoch trusted⟩ epoch ?_ some_network
        few young
      rw [abs_le]
      omega
  · rw [number]
    exact List.length_pos_of_ne_nil config.some_feed
  · rw [number]
    exact (config.distinct.subperm fun feed _ => mem_registry feed).length_le

theorem Kept.summary_bounded (kept : Kept sha256 store)
    (digests : ∀ data, isDigest (sha256 data).toList = true) (early : taken ≤ 10 ^ 13)
    (past : ∀ entry ∈ store.saved, entry.time < 10 ^ 15) :
    (summary config (proofOf store.saved) current taken).Bounded := by
  have rows : ∀ row ∈ (summary config (proofOf store.saved) current taken).feeds,
      (∀ time ∈ row.verifiedAt, time.Bounded) ∧ (∀ age ∈ row.ageSeconds, age < 10 ^ 15) ∧
        ∀ count ∈ row.lastVerifiedCount, count < 10 ^ 15 := by
    intro row member
    obtain ⟨feed, -, rfl⟩ := List.mem_map.mp member
    rcases kept.row_cases digests feed with
      ⟨status, reason, same, -, -⟩ | ⟨status, reason, count, entry, among, same, -, few, -⟩
    · rw [same]
      exact ⟨fun _ absent => (by cases absent), fun _ absent => (by cases absent),
        fun _ absent => (by cases absent)⟩
    · rw [same]
      have trusted := (isEpoch_checked (kept.checks entry among)).1
      have nonneg := nearest_nonneg (Stamp.float entry.time).value
      have age : ageAt taken (.float entry.time) ≤ 10 ^ 13 :=
        ageAt_le (by norm_num) (by push_cast; linarith)
      refine ⟨fun time given => ?_, fun other given => ?_, fun other given => ?_⟩
      · cases given
        exact ⟨one_le_of_isEpoch trusted, past entry among⟩
      · cases given
        exact lt_of_le_of_lt age (by norm_num)
      · cases given
        exact lt_of_le_of_lt few (by decide)
  refine ⟨rows, fun age greatest => ?_⟩
  obtain ⟨row, member, isAge⟩ := List.mem_map.mp (mem_of_greatestAge greatest)
  exact (rows row member).2.1 age isAge

theorem Kept.summary_exact (kept : Kept sha256 store)
    (digests : ∀ data, isDigest (sha256 data).toList = true) :
    ∀ row ∈ (summary config (proofOf store.saved) current taken).feeds,
      ∀ time ∈ row.verifiedAt, time.Exact := by
  intro row member
  obtain ⟨feed, -, rfl⟩ := List.mem_map.mp member
  rcases kept.row_cases digests feed with
    ⟨status, reason, same, -, -⟩ | ⟨status, reason, count, entry, among, same, -, -, -⟩
  · rw [same]
    exact fun _ absent => by cases absent
  · rw [same]
    intro time given
    cases given
    exact ⟨kept.doubles entry among,
      one_le_of_isEpoch (isEpoch_checked (kept.checks entry among)).1⟩

end Store

section Agreement

/-- **The monitor takes over what the status action prints**, whatever calls came before it. -/
theorem monitor_agrees (sha256 : List UInt8 → String)
    (digests : ∀ data, isDigest (sha256 data).toList = true) (calls : List (Call × List Fault))
    (clocked : ∀ entry ∈ calls, Clocked entry.1) (call : Call) (clockedCall : Clocked call)
    (asked : call.action = .status) (faults : List Fault) (report : Summary)
    (returned : (main sha256 call).ended (afterCalls sha256 emptyStore calls) faults =
      .returned report) (now : Rat)
    (clocks : Clocks (storeAfter sha256 calls call faults) call.summarized now) :
    feedVerification now (readFeedProof (exitCode call.action report) (printed report)) =
      .ok (report.status, report.ageSeconds, some (report.feeds.map Row.reported)) := by
  have follows := always_main call clockedCall (kept_afterCalls sha256 calls clocked).1 faults
  obtain ⟨config, current, -, -, rfl, -⟩ := follows.returned report returned
  have kept : Kept sha256 (storeAfter sha256 calls call faults) := follows.kept
  rw [← storeAfter] at returned ⊢
  generalize storeAfter sha256 calls call faults = store at kept clocks returned ⊢
  have near := (abs_le.mp clocks.near).2
  have early := clocks.early
  have soon : nearest (now + 300) < 10 ^ 15 := by
    have double : IsDouble (10 ^ 13 : Nat) := isDouble_natCast (by norm_num)
    refine lt_of_le_of_lt ((nearest_mono ?_).trans_eq double) (by norm_num)
    push_cast
    linarith
  have fitting := @Kept.fitting sha256 store config now call.summarized current kept digests clocks
  have bounded := @Kept.summary_bounded sha256 store config call.summarized current kept digests
    (by linarith) fun entry member => lt_of_le_of_lt (clocks.past entry member) soon
  have exact := @Kept.summary_exact sha256 store config call.summarized current kept digests
  have code : exitCode call.action (summary config (proofOf store.saved) current
      call.summarized) = 0 := by
    rw [asked, exitCode]
    rfl
  have read : readFeedProof (exitCode call.action (summary config (proofOf store.saved) current
      call.summarized)) (printed (summary config (proofOf store.saved) current
        call.summarized)) = .ok (summary config (proofOf store.saved) current
          call.summarized).toJson := by
    refine Checked.bind_eq_ok.mpr ⟨(), Checked.require_eq_ok.mpr
      (decide_eq_true (bounded.length_le fitting.few)), ?_⟩
    exact Checked.bind_eq_ok.mpr ⟨(), Checked.require_eq_ok.mpr (decide_eq_true code),
      orRaise_eq_ok.mpr (loadsBytes_printed exact)⟩
  have accepted := Checked.bind_eq_ok.mpr ⟨_, read, fitting.checked⟩
  rw [feedVerification, accepted]
  rfl

def sampleStatus : Call :=
  { sampleCall 1770000100 with action := .status }

theorem sampleStatus_runs {store : Store} {prior : Proof}
    (read : state sampleSha256 sampleConfig (1770000100 : Nat) store = .ok prior) :
    Runs (main sampleSha256 sampleStatus) store
      (.returned (summary sampleConfig prior (some sampleSnapshot) (1770000101 : Nat))) store :=
  runs_status sampleUnhindered.configured rfl rfl read sampleUnhindered.taken

theorem monitor_agrees_sample :
    ∃ report, (main sampleSha256 sampleStatus).ended
        (afterCalls sampleSha256 emptyStore [(sampleCall 1770000000, [])]) [] = .returned report ∧
      feedVerification 1770000090 (readFeedProof (exitCode .status report) (printed report)) =
        .ok (report.status, report.ageSeconds, some (report.feeds.map Row.reported)) := by
  obtain ⟨file, runs⟩ := sampleCall_runs
  have before : afterCalls sampleSha256 emptyStore [(sampleCall 1770000000, [])] =
      ⟨some file, false, [sampleSaved]⟩ := runs.state_eq
  have clocked : ∀ entry ∈ [(sampleCall 1770000000, ([] : List Fault))], Clocked entry.1 :=
    List.forall_mem_singleton.mpr (sampleCall_clocked _ (by norm_num))
  have kept := (kept_afterCalls sampleSha256 _ clocked).1
  have asks := sampleStatus_runs (kept.state_readable sampleSha256_digests sampleReadable)
  have after : storeAfter sampleSha256 [(sampleCall 1770000000, [])] sampleStatus [] =
      ⟨some file, false, [sampleSaved]⟩ := asks.state_eq.trans before
  have clocks : Clocks (storeAfter sampleSha256 [(sampleCall 1770000000, [])] sampleStatus [])
      sampleStatus.summarized 1770000090 := by
    refine ⟨?_, by norm_num, fun entry member => ?_⟩
    · show |((1770000101 : Nat) : Rat) - 1770000090| ≤ 29
      norm_num
    · rw [after] at member
      rw [List.mem_singleton.mp member]
      show ((1770000001 : Nat) : Rat) ≤ nearest (1770000090 + 300)
      decide +kernel
  have given := sampleCall_clocked 1770000100 (by norm_num)
  exact ⟨_, asks.ended_eq, monitor_agrees sampleSha256 sampleSha256_digests _ clocked
    sampleStatus ⟨given.finished, given.failed⟩ rfl [] _
    asks.ended_eq 1770000090 clocks⟩

end Agreement

end HomeclusterInfra.BanipProof
