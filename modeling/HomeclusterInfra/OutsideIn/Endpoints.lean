import HomeclusterInfra.OutsideIn.Site

/-!
# Which endpoints are rendered as they were validated

The validation looks at the parts of a URL, which do not tell how the target was
spelt: an empty query, capitals of a host, leading zeros of a port, brackets
around a name and, for the router, a user all pass in one place or another. What
is rendered is the target as it was spelt.

A document that is accepted has endpoints of the one spelling that is meant
exactly when its targets are plain texts: lower-case letters, digits and `.-:/`,
without a zero behind a colon (`endpoints_literal_iff`).
-/

set_option autoImplicit false

namespace HomeclusterInfra.OutsideIn

open Text Checked Python Ipv4 UrlSplit

/-! ## The spelling that is meant -/

/-- `host:9100` -/
def IsHostPort (target : String) : Prop :=
  ∃ host, validHost host = true ∧ target.toList = host ++ ":9100".toList

/-- `https://host:port/readyz` -/
def IsReadyz (target : String) : Prop :=
  ∃ host port, validHost host = true ∧ (port = "443".toList ∨ port = "6443".toList) ∧
    target.toList = "https://".toList ++ host ++ ':' :: port ++ "/readyz".toList

/-- The target of an entry of the document. -/
def textOf : Value → Option String
  | .dict fields =>
      match Mapping.get fields "target" with
      | some (.str target) => some target
      | _ => none
  | _ => none

/-- The targets under a key of the document, in a list or in one entry. -/
def documentTargets (document : Value) (key : String) : List String :=
  match document with
  | .dict fields =>
      match Mapping.get fields key with
      | some (.list items) => items.filterMap textOf
      | some item => (textOf item).toList
      | none => []
  | _ => []

/-- All targets of the document are endpoints of the spelling that is meant. -/
def LiteralEndpoints (document : Value) : Prop :=
  (∀ key ∈ ["tcp_targets", "metrics_targets", "openwrt_metrics_target", "prod_metrics_target"],
    ∀ target ∈ documentTargets document key, IsHostPort target) ∧
  ∀ target ∈ documentTargets document "api_targets", IsReadyz target

/-- So are the targets of the scrape jobs, but for the server's own. -/
def RendersEndpoints (site : Site) : Prop :=
  ∀ job ∈ scrapeJobs site, ∀ target ∈ job.2,
    job.1 = "prod-prometheus-self" ∨ IsHostPort target ∨ IsReadyz target

/-- All targets of the document are plain. -/
def PlainTargets (document : Value) : Prop :=
  ∀ key ∈ ["api_targets", "tcp_targets", "metrics_targets", "openwrt_metrics_target",
      "prod_metrics_target"],
    ∀ target ∈ documentTargets document key, Plain target.toList

/-! ## Endpoints are plain -/

variable {rules : Rules} {target : String} {host : List Char} {parts : Parts}

theorem isPlainChar_of_isDigit {char : Char} (digit : char.isDigit = true) :
    isPlainChar char = true ∧ char ≠ ':' := by
  refine ⟨by simp [isPlainChar, digit], ?_⟩
  rintro rfl
  exact absurd digit (by decide)

theorem isPlainChar_of_isAlnumLower {char : Char} (alnum : isAlnumLower char = true) :
    isPlainChar char = true ∧ char ≠ ':' := by
  refine ⟨?_, ?_⟩
  · unfold isAlnumLower at alnum
    unfold isPlainChar
    rw [alnum]
    rfl
  · rintro rfl
    exact absurd alnum (by decide)

/-- A host has plain characters, and no colon. -/
theorem validHost_plain (valid : validHost host = true) :
    ∀ char ∈ host, isPlainChar char = true ∧ char ≠ ':' := by
  unfold validHost at valid
  rw [Bool.and_eq_true, Bool.and_eq_true] at valid
  obtain ⟨-, valid⟩ := valid
  intro char member
  split at valid
  next address read =>
    rcases parseAddress_chars read char member with digit | rfl
    · exact isPlainChar_of_isDigit digit
    · decide
  next =>
    simp only [isBounded, Bool.and_eq_true, List.all_eq_true] at valid
    have good := valid.1.1.2 char member
    simp only [Bool.or_eq_true, List.contains_iff_mem, List.mem_cons, List.not_mem_nil,
      or_false] at good
    rcases good with alnum | rfl | rfl
    · exact isPlainChar_of_isAlnumLower alnum
    · decide
    · decide

theorem validHost_colonless (valid : validHost host = true) : ':' ∉ host := by
  intro member
  exact (validHost_plain valid ':' member).2 rfl

theorem isHostPort_plain (literal : IsHostPort target) : Plain target.toList := by
  obtain ⟨host, valid, same⟩ := literal
  rw [same]
  refine ⟨?_, ?_⟩
  · rw [List.forall_mem_append]
    exact ⟨fun char member => (validHost_plain valid char member).1,
      List.all_eq_true.mp (by decide)⟩
  · rw [noZeroPort_append (validHost_colonless valid)]
    decide

theorem isReadyz_plain (literal : IsReadyz target) : Plain target.toList := by
  obtain ⟨host, number, valid, numbers, same⟩ := literal
  rw [same]
  have inHost := fun char member => (validHost_plain valid char member).1
  refine ⟨?_, ?_⟩
  · simp only [List.forall_mem_append, List.forall_mem_cons]
    refine ⟨⟨⟨List.all_eq_true.mp (by decide), inHost⟩, by decide, ?_⟩,
      List.all_eq_true.mp (by decide)⟩
    rcases numbers with rfl | rfl <;> exact List.all_eq_true.mp (by decide)
  · have scheme : "https://".toList ++ host ++ ':' :: number ++ "/readyz".toList =
        "https".toList ++ (':' :: ('/' :: '/' :: host ++ (':' :: (number ++ "/readyz".toList)))) := by
      simp
    have colonless : ':' ∉ '/' :: '/' :: host := by
      simp only [List.mem_cons, not_or]
      exact ⟨by decide, by decide, validHost_colonless valid⟩
    rw [scheme, noZeroPort_append (by decide)]
    change noZeroPort ('/' :: '/' :: host ++ (':' :: (number ++ "/readyz".toList))) = true
    rw [noZeroPort_append colonless]
    rcases numbers with rfl | rfl <;> decide

/-! ## Plain targets that are accepted are endpoints -/

/-- A plain authority with the port of a node exporter. -/
theorem target_of_tcp (plain : Plain target.toList)
    (split : urlsplit rules ("tcp://".toList ++ target.toList) = some parts)
    (pathless : parts.path = []) (read : port parts.netloc = some (some 9100)) :
    target.toList = hostname rules parts.netloc ++ ":9100".toList := by
  have all : ∀ char ∈ "tcp://".toList ++ target.toList, isPlainChar char = true := by
    rw [List.forall_mem_append]
    exact ⟨List.all_eq_true.mp (by decide), plain.1⟩
  have scheme : splitScheme ("tcp://".toList ++ target.toList) =
      ("tcp".toList, '/' :: '/' :: target.toList) := by
    rfl
  have same := (urlsplit_plain all).symm.trans split
  rw [scheme] at same
  rw [← Option.some.inj same] at pathless read ⊢
  dsimp only at pathless read ⊢
  have netloc : (splitNetloc ('/' :: '/' :: target.toList)).1 = target.toList := by
    have whole := splitNetloc_whole target.toList
    rw [pathless, List.append_nil] at whole
    exact whole
  rw [netloc] at read ⊢
  rw [hostname_plain plain.1]
  exact port_plain plain.1 plain.2 (by decide) read

/-- A plain URL of a health endpoint. -/
theorem target_of_api {number : Nat} (plain : Plain target.toList)
    (split : urlsplit rules target.toList = some parts) (secure : parts.scheme = "https".toList)
    (ready : parts.path = "/readyz".toList) (nonempty : parts.netloc ≠ [])
    (positive : 0 < number) (read : port parts.netloc = some (some number)) :
    target.toList = "https://".toList ++ hostname rules parts.netloc ++ ':' :: natText number ++
      "/readyz".toList := by
  have same := (urlsplit_plain plain.1).symm.trans split
  rw [← Option.some.inj same] at secure ready nonempty read ⊢
  dsimp only at secure ready nonempty read ⊢
  have named : (splitScheme target.toList).1 ≠ [] := by
    rw [secure]
    decide
  have whole : target.toList = "https://".toList ++
      ((splitNetloc (splitScheme target.toList).2).1 ++ "/readyz".toList) := by
    have pieces := splitScheme_append plain.1 named
    rw [secure, splitNetloc_append nonempty, ready] at pieces
    exact pieces
  have inNetloc : ∀ char ∈ (splitNetloc (splitScheme target.toList).2).1,
      isPlainChar char = true := by
    intro char member
    apply plain.1
    rw [whole]
    exact List.mem_append_right _ (List.mem_append_left _ member)
  have fine : noZeroPort (splitNetloc (splitScheme target.toList).2).1 = true := by
    have all := plain.2
    rw [whole] at all
    exact noZeroPort_of_append_left (noZeroPort_of_append all)
  have spelt := port_plain inNetloc fine positive read
  rw [hostname_plain inNetloc]
  generalize (partition ':' (splitNetloc (splitScheme target.toList).2).1).1 = host at spelt ⊢
  rw [whole, spelt]
  simp only [List.append_assoc]

/-! ## What an accepted document has -/

theorem parsed_eq_ok {text : List Char} :
    parsed rules text = .ok parts ↔ urlsplit rules text = some parts := by
  unfold parsed
  split <;> simp_all

theorem portOf_eq_ok {number : Option Nat} :
    portOf parts = .ok number ↔ port parts.netloc = some number := by
  unfold portOf
  split <;> simp_all

theorem checkApi_literal (plain : Plain target.toList) (accepted : checkApi rules target = .ok ()) :
    IsReadyz target := by
  unfold checkApi at accepted
  obtain ⟨url, split, accepted⟩ := bind_eq_ok.mp accepted
  obtain ⟨_, checks, accepted⟩ := bind_eq_ok.mp accepted
  obtain ⟨number, read, numbers⟩ := bind_eq_ok.mp accepted
  simp only [require_eq_ok, Bool.and_eq_true, decide_eq_true_eq, Bool.not_eq_true',
    List.isEmpty_eq_false_iff, Bool.or_eq_true] at checks numbers
  obtain ⟨⟨⟨⟨⟨⟨⟨secure, valid⟩, -⟩, -⟩, -⟩, -⟩, ready⟩, nonempty⟩ := checks
  have split := parsed_eq_ok.mp split
  have read := portOf_eq_ok.mp read
  rcases numbers with rfl | rfl
  · exact ⟨_, _, valid, .inl rfl,
      target_of_api plain split secure ready nonempty (by decide) read⟩
  · exact ⟨_, _, valid, .inr rfl,
      target_of_api plain split secure ready nonempty (by decide) read⟩

theorem checkTcp_literal (plain : Plain target.toList) (accepted : checkTcp rules target = .ok ()) :
    IsHostPort target := by
  unfold checkTcp at accepted
  obtain ⟨url, split, accepted⟩ := bind_eq_ok.mp accepted
  obtain ⟨_, valid, accepted⟩ := bind_eq_ok.mp accepted
  obtain ⟨number, read, checks⟩ := bind_eq_ok.mp accepted
  simp only [require_eq_ok, Bool.and_eq_true, decide_eq_true_eq, List.isEmpty_iff] at checks valid
  obtain ⟨⟨⟨⟨⟨-, pathless⟩, -⟩, -⟩, -⟩, rfl⟩ := checks
  exact ⟨_, valid, target_of_tcp plain (parsed_eq_ok.mp split) pathless (portOf_eq_ok.mp read)⟩

theorem checkMetrics_literal (plain : Plain target.toList)
    (accepted : checkMetrics rules target = .ok ()) : IsHostPort target := by
  unfold checkMetrics at accepted
  obtain ⟨url, split, accepted⟩ := bind_eq_ok.mp accepted
  obtain ⟨_, valid, accepted⟩ := bind_eq_ok.mp accepted
  obtain ⟨number, read, checks⟩ := bind_eq_ok.mp accepted
  simp only [require_eq_ok, Bool.and_eq_true, decide_eq_true_eq, List.isEmpty_iff] at checks valid
  obtain ⟨⟨⟨⟨⟨⟨⟨rfl, -⟩, -⟩, pathless⟩, -⟩, -⟩, -⟩, -⟩ := checks
  exact ⟨_, valid, target_of_tcp plain (parsed_eq_ok.mp split) pathless (portOf_eq_ok.mp read)⟩

/-- A host that is an address is as safe as the address. -/
theorem validHost_of_address {address : Nat} (read : parseAddress host = some address)
    (valid : validHost (addressText address) = true) (short : host.length ≤ 253) :
    validHost host = true := by
  have back := parseAddress_addressText (parseAddress_lt read)
  have nonempty : host ≠ [] := by
    rintro rfl
    rw [parseAddress_dotless List.not_mem_nil] at read
    cases read
  unfold validHost at valid ⊢
  rw [back, Bool.and_eq_true] at valid
  rw [read, Bool.and_eq_true, Bool.and_eq_true]
  exact ⟨⟨by simpa using nonempty, decide_eq_true short⟩, valid.2⟩

/-- A target is read off its entry. -/
theorem textOf_of_nameItem {key : String} {value : Value} {entry : Target}
    (read : nameItem key value = .ok entry) :
    textOf value = some entry.target ∧ entry.target.toList.length ≤ 256 := by
  unfold nameItem at read
  split at read
  next fields =>
    obtain ⟨_, -, read⟩ := bind_eq_ok.mp read
    split at read
    next name named =>
      obtain ⟨_, -, read⟩ := bind_eq_ok.mp read
      split at read
      next target found =>
        obtain ⟨_, short, same⟩ := bind_eq_ok.mp read
        rw [← pure_eq_ok.mp same]
        simp only [require_eq_ok, Bool.and_eq_true, decide_eq_true_eq] at short
        refine ⟨?_, short.1⟩
        unfold textOf
        simp only [found]
      next => cases read
    next => cases read
  next => cases read

theorem openwrtTarget_literal {value : Value} {entry : Target}
    (accepted : openwrtTarget rules value = .ok entry) :
    textOf value = some entry.target ∧ (Plain entry.target.toList → IsHostPort entry.target) := by
  unfold openwrtTarget at accepted
  obtain ⟨item, named, accepted⟩ := bind_eq_ok.mp accepted
  obtain ⟨authority, split, accepted⟩ := bind_eq_ok.mp accepted
  obtain ⟨text, short⟩ := textOf_of_nameItem named
  split at accepted
  next => cases accepted
  next address read_address =>
    obtain ⟨_, valid, accepted⟩ := bind_eq_ok.mp accepted
    obtain ⟨number, read, accepted⟩ := bind_eq_ok.mp accepted
    obtain ⟨_, checks, same⟩ := bind_eq_ok.mp accepted
    cases pure_eq_ok.mp same
    refine ⟨text, fun plain => ?_⟩
    simp only [require_eq_ok, Bool.and_eq_true, decide_eq_true_eq, List.isEmpty_iff] at checks valid
    obtain ⟨⟨⟨⟨rfl, -⟩, pathless⟩, -⟩, -⟩ := checks
    have spelt := target_of_tcp plain (parsed_eq_ok.mp split) pathless (portOf_eq_ok.mp read)
    -- the host is as safe as the canonical text of its address
    refine ⟨_, validHost_of_address read_address valid ?_, spelt⟩
    rw [spelt, List.length_append] at short
    have suffix : (":9100".toList).length = 5 := rfl
    omega

theorem prodTarget_literal {value : Value} {entry : Target × Option String}
    (accepted : prodTarget rules value = .ok entry) : textOf value = some entry.1.target ∧
      (Plain entry.1.target.toList → IsHostPort entry.1.target) := by
  unfold prodTarget at accepted
  split at accepted
  next fields =>
    obtain ⟨_, -, accepted⟩ := bind_eq_ok.mp accepted
    obtain ⟨item, named, accepted⟩ := bind_eq_ok.mp accepted
    obtain ⟨authority, split, accepted⟩ := bind_eq_ok.mp accepted
    obtain ⟨_, valid, accepted⟩ := bind_eq_ok.mp accepted
    obtain ⟨number, read, accepted⟩ := bind_eq_ok.mp accepted
    obtain ⟨_, checks, accepted⟩ := bind_eq_ok.mp accepted
    obtain ⟨_, -, accepted⟩ := bind_eq_ok.mp accepted
    obtain ⟨address, -, same⟩ := bind_eq_ok.mp accepted
    rw [← pure_eq_ok.mp same]
    simp only [require_eq_ok, Bool.and_eq_true, decide_eq_true_eq, List.isEmpty_iff] at checks valid
    obtain ⟨⟨⟨⟨⟨rfl, -⟩, -⟩, pathless⟩, -⟩, -⟩ := checks
    refine ⟨?_, fun plain => ⟨_, valid, target_of_tcp plain (parsed_eq_ok.mp split) pathless
      (portOf_eq_ok.mp read)⟩⟩
    have text := (textOf_of_nameItem named).1
    unfold textOf at text ⊢
    cases found : Mapping.get fields "target" with
    | none =>
        simp [found] at text
    | some target =>
        simpa [found] using text
  next => cases accepted

theorem filterMap_textOf {key : String} {items : List Value} {targets : List Target}
    (read : List.Forall₂ (fun item entry => nameItem key item = .ok entry) items targets) :
    items.filterMap textOf = targets.map Target.target := by
  induction read with
  | nil => rfl
  | cons first _ ih => rw [List.filterMap_cons_some (textOf_of_nameItem first).1, ih, List.map_cons]

/-- The targets of a list are read off its entries. -/
theorem targets_of_names {items : Value} {key : String} {maximum : Nat} {targets : List Target}
    (read : names items key maximum = .ok targets) :
    ∃ list, items = .list list ∧ list.filterMap textOf = targets.map Target.target := by
  unfold names at read
  split at read
  next list =>
    obtain ⟨_, -, read⟩ := bind_eq_ok.mp read
    obtain ⟨_, -, read⟩ := bind_eq_ok.mp read
    exact ⟨list, rfl, filterMap_textOf (mapM_eq_ok.mp read)⟩
  next => cases read

theorem documentTargets_of_list {fields : Dict} {key : String} {default : Value}
    {list : List Value} (empty : default = .none ∨ default = .list [])
    (found : (Mapping.get fields key).getD default = .list list) :
    documentTargets (.dict fields) key = list.filterMap textOf := by
  unfold documentTargets
  cases there : Mapping.get fields key with
  | none =>
      rw [there, Option.getD_none] at found
      rcases empty with rfl | rfl
      · cases found
      · cases found
        simp only [there, List.filterMap_nil]
  | some value =>
      rw [there, Option.getD_some] at found
      simp only [there, found]

/-- What an optional value was mapped to. -/
theorem option_mapM_eq_ok {α β ε : Type} {maps : α → Except ε β} {value : Option α}
    {result : Option β} (mapped : value.mapM maps = .ok result) :
    (value = none ∧ result = none) ∨
      ∃ given made, value = some given ∧ result = some made ∧ maps given = .ok made := by
  cases value with
  | none =>
      cases mapped
      exact .inl ⟨rfl, rfl⟩
  | some given =>
      obtain ⟨made, done, same⟩ := bind_eq_ok.mp mapped
      exact .inr ⟨given, made, rfl, (pure_eq_ok.mp same).symm, done⟩

theorem documentTargets_of_given {α : Type} {fields : Dict} {key : String}
    {maps : Value → Except String α} {target : α → String} {result : Option α}
    (reads : ∀ value made, maps value = .ok made → textOf value = some (target made))
    (mapped : (given fields key).mapM maps = .ok result) :
    documentTargets (.dict fields) key = result.toList.map target := by
  unfold documentTargets
  rcases option_mapM_eq_ok mapped with ⟨absent, rfl⟩ | ⟨value, made, there, rfl, done⟩
  · unfold given at absent
    split at absent
    next missing => simp [missing]
    next missing => simp [missing, textOf]
    next => cases absent
  · have found : Mapping.get fields key = some value := by
      unfold given at there
      split at there
      next => cases there
      next => cases there
      next other _ present => rw [present, there]
    have text := reads value made done
    cases value with
    | list items => cases text
    | none | bool | int | float | str | dict =>
        simp only [found, text, Option.toList_some, List.map_cons, List.map_nil]

/-- What holds of a site that was accepted. -/
theorem validateSite_eq_ok {document : Value} {site : Site}
    (accepted : validateSite rules document = .ok site) :
    (documentTargets document "api_targets" = site.api.map Target.target ∧
      documentTargets document "tcp_targets" = site.tcp.map Target.target ∧
      documentTargets document "metrics_targets" = site.metrics.map Target.target ∧
      documentTargets document "openwrt_metrics_target" =
        site.openwrt.toList.map Target.target ∧
      documentTargets document "prod_metrics_target" =
        site.prod.toList.map fun entry => entry.1.target) ∧
    (∀ entry ∈ site.api, checkApi rules entry.target = .ok ()) ∧
    (∀ entry ∈ site.tcp, checkTcp rules entry.target = .ok ()) ∧
    (∀ entry ∈ site.metrics, checkMetrics rules entry.target = .ok ()) ∧
    (∀ entry ∈ site.openwrt.toList, ∃ value, openwrtTarget rules value = .ok entry) ∧
    (∀ entry ∈ site.prod.toList, ∃ value, prodTarget rules value = .ok entry) := by
  unfold validateSite at accepted
  split at accepted
  next fields =>
    obtain ⟨_, -, accepted⟩ := bind_eq_ok.mp accepted
    obtain ⟨api, readApi, accepted⟩ := bind_eq_ok.mp accepted
    obtain ⟨tcp, readTcp, accepted⟩ := bind_eq_ok.mp accepted
    obtain ⟨metrics, readMetrics, accepted⟩ := bind_eq_ok.mp accepted
    obtain ⟨openwrt, readOpenwrt, accepted⟩ := bind_eq_ok.mp accepted
    obtain ⟨_, -, accepted⟩ := bind_eq_ok.mp accepted
    obtain ⟨_, -, accepted⟩ := bind_eq_ok.mp accepted
    obtain ⟨_, -, accepted⟩ := bind_eq_ok.mp accepted
    obtain ⟨prod, readProd, accepted⟩ := bind_eq_ok.mp accepted
    obtain ⟨_, -, accepted⟩ := bind_eq_ok.mp accepted
    obtain ⟨_, -, accepted⟩ := bind_eq_ok.mp accepted
    obtain ⟨_, apiChecked, accepted⟩ := bind_eq_ok.mp accepted
    obtain ⟨_, tcpChecked, accepted⟩ := bind_eq_ok.mp accepted
    obtain ⟨_, metricsChecked, accepted⟩ := bind_eq_ok.mp accepted
    obtain ⟨cidrs, -, accepted⟩ := bind_eq_ok.mp accepted
    obtain ⟨secret, -, same⟩ := bind_eq_ok.mp accepted
    rw [← pure_eq_ok.mp same]
    refine ⟨⟨?_, ?_, ?_, ?_, ?_⟩, forM_eq_ok.mp apiChecked, forM_eq_ok.mp tcpChecked,
      forM_eq_ok.mp metricsChecked, ?_, ?_⟩
    · obtain ⟨list, found, texts⟩ := targets_of_names readApi
      rw [documentTargets_of_list (.inl rfl) found, texts]
    · obtain ⟨list, found, texts⟩ := targets_of_names readTcp
      rw [documentTargets_of_list (.inl rfl) found, texts]
    · obtain ⟨list, found, texts⟩ := targets_of_names readMetrics
      rw [documentTargets_of_list (.inr rfl) found, texts]
    · exact documentTargets_of_given (fun _ _ made => (openwrtTarget_literal made).1) readOpenwrt
    · exact documentTargets_of_given (fun _ _ made => (prodTarget_literal made).1) readProd
    · intro entry member
      rcases option_mapM_eq_ok readOpenwrt with ⟨-, rfl⟩ | ⟨value, made, -, rfl, done⟩
      · cases member
      · exact ⟨value, by rwa [List.mem_singleton.mp member]⟩
    · intro entry member
      rcases option_mapM_eq_ok readProd with ⟨-, rfl⟩ | ⟨value, made, -, rfl, done⟩
      · cases member
      · exact ⟨value, by rwa [List.mem_singleton.mp member]⟩
  next => cases accepted

/-- The targets of a job are the server's own or those of one kind. -/
theorem targets_of_scrapeJobs {site : Site} {job : String × List String}
    (member : job ∈ scrapeJobs site) : job.1 = "prod-prometheus-self" ∨
      ∃ targets ∈ [site.api, site.tcp, site.metrics, site.prod.toList.map Prod.fst,
        site.openwrt.toList], job.2 = targets.map Target.target := by
  have unlessEmpty : ∀ {name : String} {targets : List Target},
      job ∈ (if targets.isEmpty then [] else [(name, targets.map Target.target)]) →
        job.2 = targets.map Target.target := by
    intro name targets inJobs
    split at inJobs
    next => cases inJobs
    next => rw [List.mem_singleton.mp inJobs]
  unfold scrapeJobs at member
  simp only [List.mem_append] at member
  rcases member with (((fixed | inTcp) | inMetrics) | inProd) | inOpenwrt
  · rcases List.mem_cons.mp fixed with rfl | inApi
    · exact .inl rfl
    · exact .inr ⟨site.api, by simp, by rw [List.mem_singleton.mp inApi]⟩
  · exact .inr ⟨site.tcp, by simp, unlessEmpty inTcp⟩
  · exact .inr ⟨site.metrics, by simp, unlessEmpty inMetrics⟩
  · exact .inr ⟨_, by simp, unlessEmpty inProd⟩
  · exact .inr ⟨site.openwrt.toList, by simp, unlessEmpty inOpenwrt⟩

/-- **A document that is accepted has the endpoints that are meant exactly when its targets are
plain**: they consist of lower-case letters, digits and `.-:/`, and no colon in them is followed by
a zero. Then the scrape jobs have no other endpoints. -/
theorem endpoints_literal_iff {document : Value} {site : Site}
    (accepted : validateSite rules document = .ok site) :
    LiteralEndpoints document ∧ RendersEndpoints site ↔ PlainTargets document := by
  obtain ⟨⟨api, tcp, metrics, openwrt, prod⟩, apiChecked, tcpChecked, metricsChecked,
    openwrtChecked, prodChecked⟩ := validateSite_eq_ok accepted
  constructor
  · rintro ⟨⟨authorities, urls⟩, -⟩ key among target member
    rcases List.mem_cons.mp among with rfl | later
    · exact isReadyz_plain (urls target member)
    · exact isHostPort_plain (authorities key later target member)
  · intro plain
    have apiLiteral : ∀ entry ∈ site.api, IsReadyz entry.target := by
      intro entry member
      refine checkApi_literal (plain "api_targets" (by simp) _ ?_) (apiChecked entry member)
      rw [api]
      exact List.mem_map_of_mem member
    have tcpLiteral : ∀ entry ∈ site.tcp, IsHostPort entry.target := by
      intro entry member
      refine checkTcp_literal (plain "tcp_targets" (by simp) _ ?_) (tcpChecked entry member)
      rw [tcp]
      exact List.mem_map_of_mem member
    have metricsLiteral : ∀ entry ∈ site.metrics, IsHostPort entry.target := by
      intro entry member
      refine checkMetrics_literal (plain "metrics_targets" (by simp) _ ?_)
        (metricsChecked entry member)
      rw [metrics]
      exact List.mem_map_of_mem member
    have openwrtLiteral : ∀ entry ∈ site.openwrt.toList, IsHostPort entry.target := by
      intro entry member
      obtain ⟨value, made⟩ := openwrtChecked entry member
      refine (openwrtTarget_literal made).2 (plain "openwrt_metrics_target" (by simp) _ ?_)
      rw [openwrt]
      exact List.mem_map_of_mem member
    have prodLiteral : ∀ entry ∈ site.prod.toList, IsHostPort entry.1.target := by
      intro entry member
      obtain ⟨value, made⟩ := prodChecked entry member
      refine (prodTarget_literal made).2 (plain "prod_metrics_target" (by simp) _ ?_)
      rw [prod]
      exact List.mem_map_of_mem member
    refine ⟨⟨?_, ?_⟩, ?_⟩
    · intro key among target member
      simp only [List.mem_cons, List.not_mem_nil, or_false] at among
      rcases among with rfl | rfl | rfl | rfl
      · rw [tcp] at member
        obtain ⟨entry, inSite, rfl⟩ := List.mem_map.mp member
        exact tcpLiteral entry inSite
      · rw [metrics] at member
        obtain ⟨entry, inSite, rfl⟩ := List.mem_map.mp member
        exact metricsLiteral entry inSite
      · rw [openwrt] at member
        obtain ⟨entry, inSite, rfl⟩ := List.mem_map.mp member
        exact openwrtLiteral entry inSite
      · rw [prod] at member
        obtain ⟨entry, inSite, rfl⟩ := List.mem_map.mp member
        exact prodLiteral entry inSite
    · intro target member
      rw [api] at member
      obtain ⟨entry, inSite, rfl⟩ := List.mem_map.mp member
      exact apiLiteral entry inSite
    · intro job member target inJob
      rcases targets_of_scrapeJobs member with self | ⟨targets, kind, same⟩
      · exact .inl self
      · rw [same] at inJob
        obtain ⟨entry, inKind, rfl⟩ := List.mem_map.mp inJob
        simp only [List.mem_cons, List.not_mem_nil, or_false] at kind
        rcases kind with rfl | rfl | rfl | rfl | rfl
        · exact .inr (.inr (apiLiteral entry inKind))
        · exact .inr (.inl (tcpLiteral entry inKind))
        · exact .inr (.inl (metricsLiteral entry inKind))
        · obtain ⟨found, inProd, rfl⟩ := List.mem_map.mp inKind
          exact .inr (.inl (prodLiteral found inProd))
        · exact .inr (.inl (openwrtLiteral entry inKind))

/-! A TCP target with an empty query. -/

/-- Lower case of ASCII texts, and a library that refuses all brackets. -/
def asciiRules : Rules where
  lower := fun text => text.map Char.toLower
  lower_ascii := fun _ _ => rfl
  decomposes := fun _ => false
  bracketed := fun _ => false

def sampleSite (tcpTarget : String) : Value :=
  let entry := fun name target => Value.dict [("name", .str name), ("target", .str target)]
  .dict [("api_targets", .list [entry "staging-api" "https://api.lab.example:6443/readyz"]),
    ("tcp_targets", .list [entry "staging-node" tcpTarget]),
    ("egress_cidrs", .list [.str "198.51.100.0/24"]), ("api_ca_secret", .none)]

theorem endpoints_literal_iff_sample : ∃ site,
    validateSite asciiRules (sampleSite "node.lab.example:9100") = .ok site ∧
      (LiteralEndpoints (sampleSite "node.lab.example:9100") ∧ RendersEndpoints site ↔
        PlainTargets (sampleSite "node.lab.example:9100")) := by
  have accepted : ∃ site,
      validateSite asciiRules (sampleSite "node.lab.example:9100") = .ok site := ⟨_, rfl⟩
  obtain ⟨site, accepted⟩ := accepted
  exact ⟨site, accepted, endpoints_literal_iff accepted⟩

theorem renders_empty_query : ∃ site,
    validateSite asciiRules (sampleSite "node.lab.example:9100?") = .ok site ∧
      ¬ LiteralEndpoints (sampleSite "node.lab.example:9100?") := by
  refine ⟨_, rfl, ?_⟩
  rintro ⟨literal, -⟩
  obtain ⟨host, -, same⟩ := literal "tcp_targets" (by simp) "node.lab.example:9100?"
    (by simp [documentTargets, sampleSite, textOf])
  have lasts := congrArg List.getLast? same
  rw [List.getLast?_append_of_ne_nil _ (by decide)] at lasts
  exact absurd lasts (by decide)

end HomeclusterInfra.OutsideIn
