import HomeclusterInfra.Library.Runs
import HomeclusterInfra.Library.Shell

/-!
# The saved node password

`k3s-node-password-sync.sh` saves the password of a k3s node on the disk of the agent
and restores it after a boot. Beside the password it saves the hash of the server CA
that the cluster token names, and where the token names another one it resets the
identity of the agent instead of restoring it.

The two files are written one after the other, the hash only where the token can be
read. So the saved hash may be older than the password, and it may be missing.
-/

set_option autoImplicit false

namespace HomeclusterInfra.K3sStorage.NodePassword

open Text Shell Runs

/-! ## Files -/

/-- The files that the script looks at. An empty text stands for a file that is empty
or missing. -/
structure Node where
  /-- `LOCAL_FILE` -/
  localPassword : List Char
  /-- `STATE_FILE` -/
  statePassword : List Char
  /-- `CA_HASH_STATE_FILE` -/
  caHashState : List Char
  /-- The names of the files below `AGENT_DIR`. -/
  agentFiles : List (List Char)
deriving DecidableEq

/-- `tr -d '\r\n'` in a command substitution. -/
def readWord (content : List Char) : List Char :=
  captured (without ['\r', '\n'] content)

/-- What stands before the first `::`. -/
def beforeColons : List Char → Option (List Char)
  | ':' :: ':' :: _ => some []
  | char :: rest => (beforeColons rest).map (char :: ·)
  | [] => none

/-- `current_token_ca_hash`, what it prints for the content of the token file. -/
def currentTokenCaHash (tokenFile : List Char) : Option (List Char) :=
  let token := readWord tokenFile
  if "K10".toList.isPrefixOf token then
    (beforeColons (dropHead "K10".toList token)).map (· ++ ['\n'])
  else none

/-- `current_hash`, empty where it is not known. -/
def currentHash (tokenFile : List Char) : List Char :=
  captured ((currentTokenCaHash tokenFile).getD [])

/-- A name that a glob of a head and a tail stands for. -/
def isGlob (head tail : List Char) (name : List Char) : Bool :=
  head.isPrefixOf name && tail.isSuffixOf name && head.length + tail.length ≤ name.length &&
    !name.contains '/' && (!head.isEmpty || name.head? ≠ some '.')

/-- The files that `reset_agent_identity` removes from `AGENT_DIR`. -/
def isIdentity (name : List Char) : Bool :=
  isGlob "client-".toList ".crt".toList name || isGlob "client-".toList ".key".toList name ||
    name = "serving-kubelet.crt".toList || name = "serving-kubelet.key".toList ||
    name = "server-ca.crt".toList || isGlob [] ".kubeconfig".toList name ||
    name = "etc/k3s-agent-load-balancer.json".toList

/-- `agent_identity_exists` -/
def Node.agentIdentityExists (node : Node) : Bool :=
  node.agentFiles.contains "server-ca.crt".toList ||
    node.agentFiles.contains "client-kubelet.crt".toList ||
    node.agentFiles.contains "kubelet.kubeconfig".toList

/-- `reset_agent_identity` -/
def Node.resetAgentIdentity (node : Node) : Node :=
  ⟨[], [], [], node.agentFiles.filter (!isIdentity ·)⟩

/-! ## The two modes -/

/-- The outcome that `record_status` records. -/
inductive Outcome where
  | mountUnavailable
  | resetMissingLocal
  | noPriorIdentity
  | resetCaChanged
  | resetCaStateMissing
  | restoredSsd
  | ssdPasswordMissing
  | persisted
  | passwordMissingAfterTimeout
deriving DecidableEq

/-- `restore_password` -/
def restorePassword (resetWhenLocalMissing mounted : Bool) (tokenFile : List Char) (node : Node) :
    Node × Outcome :=
  if !mounted then (node, .mountUnavailable)
  else if resetWhenLocalMissing && node.localPassword.isEmpty then
    if !node.statePassword.isEmpty || !node.caHashState.isEmpty || node.agentIdentityExists then
      (node.resetAgentIdentity, .resetMissingLocal)
    else (node, .noPriorIdentity)
  else
    let current := currentHash tokenFile
    let stored := readWord node.caHashState
    if !current.isEmpty && !stored.isEmpty && current ≠ stored then
      (node.resetAgentIdentity, .resetCaChanged)
    else if !current.isEmpty && stored.isEmpty && node.agentIdentityExists then
      (node.resetAgentIdentity, .resetCaStateMissing)
    else if !node.statePassword.isEmpty then
      ({ node with localPassword := node.statePassword }, .restoredSsd)
    else (node, .ssdPasswordMissing)

/-- `persist_password`, where `found` has what is in the local file at each try. -/
def persistPassword (mounted : Bool) (found : Nat → List Char) (tokenFile : List Char)
    (node : Node) : Node × Outcome :=
  if !mounted then (node, .mountUnavailable)
  else
    match (List.range 60).find? fun round => !(found round).isEmpty with
    | none => ({ node with localPassword := [] }, .passwordMissingAfterTimeout)
    | some round =>
        let current := currentHash tokenFile
        ({ node with
            localPassword := found round
            statePassword := found round
            caHashState := if current.isEmpty then node.caHashState else current ++ ['\n'] },
          .persisted)

/-! ## Histories -/

/-- What happens to a node. -/
inductive Event where
  | restore (mounted : Bool) (tokenFile : List Char)
  | persist (mounted : Bool) (found : Nat → List Char) (tokenFile : List Char)
  /-- k3s, a boot or somebody else changes the local password and the files of the agent. -/
  | outside (localPassword : List Char) (agentFiles : List (List Char))

/-- A node, and the CA hash that the run saw which saved the password; none where no
password is saved, and empty where that run could not read the token. -/
structure History where
  node : Node
  savedUnder : Option (List Char)

/-- One event, with the outcome where it is a run. -/
def advance (resetWhenLocalMissing : Bool) (history : History) :
    Event → History × Option Outcome
  | .restore mounted tokenFile =>
      let (node, outcome) := restorePassword resetWhenLocalMissing mounted tokenFile history.node
      (⟨node, if node.statePassword.isEmpty then none else history.savedUnder⟩, some outcome)
  | .persist mounted found tokenFile =>
      let (node, outcome) := persistPassword mounted found tokenFile history.node
      (⟨node, if outcome = .persisted then some (currentHash tokenFile) else history.savedUnder⟩,
        some outcome)
  | .outside localPassword agentFiles =>
      (⟨{ history.node with localPassword, agentFiles }, history.savedUnder⟩, none)

/-- A disk on which nothing is saved. -/
def fresh (localPassword : List Char) (agentFiles : List (List Char)) : History :=
  ⟨⟨localPassword, [], [], agentFiles⟩, none⟩

/-! ## Hashes -/

theorem mem_beforeColons {text word : List Char} (found : beforeColons text = some word) :
    ∀ char ∈ word, char ∈ text := by
  induction text using beforeColons.induct generalizing word with
  | case1 rest =>
      cases found
      exact fun _ none_there => absurd none_there List.not_mem_nil
  | case2 char rest _ ih =>
      rw [beforeColons] at found
      · obtain ⟨front, before, rfl⟩ := Option.map_eq_some_iff.mp found
        intro other member
        rcases List.mem_cons.mp member with rfl | later
        · exact List.mem_cons_self
        · exact List.mem_cons_of_mem _ (ih before other later)
      · assumption
  | case3 => cases found

/-- A character of a word that was read. -/
theorem mem_readWord {content : List Char} {char : Char} (member : char ∈ readWord content) :
    char ≠ '\x00' ∧ char ∉ ['\r', '\n'] := by
  obtain ⟨inside, notNul⟩ := mem_captured member
  exact ⟨notNul, (mem_without.mp inside).2⟩

/-- A known hash is a word of the token. -/
theorem currentHash_clean (tokenFile : List Char) :
    ∀ char ∈ currentHash tokenFile, char ≠ '\x00' ∧ char ∉ ['\r', '\n'] := by
  intro char member
  rw [currentHash, currentTokenCaHash] at member
  split at member
  next isHead =>
    rcases found : beforeColons (dropHead "K10".toList (readWord tokenFile)) with - | word
    · rw [found] at member
      exact absurd (mem_captured member).1 List.not_mem_nil
    · rw [found, Option.map_some, Option.getD_some, captured_line] at member
      have inToken := mem_beforeColons found char (mem_captured member).1
      rw [dropHead, if_pos isHead] at inToken
      exact mem_readWord (List.mem_of_mem_drop inToken)
  next => exact absurd (mem_captured member).1 List.not_mem_nil

/-- **A hash that is written is read back.** -/
theorem readWord_currentHash (tokenFile : List Char) :
    readWord (currentHash tokenFile ++ ['\n']) = currentHash tokenFile := by
  have clean := currentHash_clean tokenFile
  have kept : without ['\r', '\n'] (currentHash tokenFile) = currentHash tokenFile :=
    without_eq_self.mpr fun char member => (clean char member).2
  have line : without ['\r', '\n'] ['\n'] = [] := by rfl
  rw [readWord, without_append, kept, line, List.append_nil]
  apply captured_eq_self
  · exact fun member => (clean _ member).1 rfl
  · exact fun member => (clean _ member).2 (by simp)

/-! ## What the modes do -/

theorem agentIdentityExists_reset (node : Node) :
    node.resetAgentIdentity.agentIdentityExists = false := by
  have gone : ∀ name, isIdentity name = true →
      (node.agentFiles.filter (!isIdentity ·)).contains name = false := by
    intro name identity
    rw [List.contains_eq_mem, decide_eq_false_iff_not, List.mem_filter, identity]
    simp
  rw [Node.agentIdentityExists, Node.resetAgentIdentity, gone _ (by rfl), gone _ (by rfl),
    gone _ (by rfl)]
  rfl

section Restore

variable {reset mounted : Bool} {tokenFile : List Char} {node : Node}

/-- A restore changes the saved files only by resetting the identity. -/
theorem restorePassword_saved :
    (restorePassword reset mounted tokenFile node).1 = node.resetAgentIdentity ∨
      ((restorePassword reset mounted tokenFile node).1.statePassword = node.statePassword ∧
        (restorePassword reset mounted tokenFile node).1.caHashState = node.caHashState) := by
  unfold restorePassword
  split
  next => exact Or.inr ⟨rfl, rfl⟩
  next =>
    split
    next =>
      split
      next => exact Or.inl rfl
      next => exact Or.inr ⟨rfl, rfl⟩
    next =>
      dsimp only
      split
      next => exact Or.inl rfl
      next =>
        split
        next => exact Or.inl rfl
        next =>
          split
          next => exact Or.inr ⟨rfl, rfl⟩
          next => exact Or.inr ⟨rfl, rfl⟩

/-- When a restore copies the saved password. -/
theorem of_restoredSsd
    (restored : (restorePassword reset mounted tokenFile node).2 = .restoredSsd) :
    node.statePassword ≠ [] ∧ (currentHash tokenFile = [] ∨ readWord node.caHashState = [] ∨
      currentHash tokenFile = readWord node.caHashState) := by
  unfold restorePassword at restored
  split at restored
  next => cases restored
  next =>
    split at restored
    next => split at restored <;> cases restored
    next =>
      dsimp only at restored
      split at restored
      next => cases restored
      next alike =>
        split at restored
        next => cases restored
        next =>
          split at restored
          next saved =>
            refine ⟨by simpa using saved, ?_⟩
            simp only [Bool.and_eq_true, Bool.not_eq_true', List.isEmpty_eq_false_iff,
              decide_eq_true_eq, not_and, ne_eq, not_not] at alike
            by_cases unknown : currentHash tokenFile = []
            · exact Or.inl unknown
            · by_cases missing : readWord node.caHashState = []
              · exact Or.inr (Or.inl missing)
              · exact Or.inr (Or.inr (alike ⟨unknown, missing⟩))
          next => cases restored

/-- What a restore does under another hash. -/
theorem restorePassword_of_ne (known : currentHash tokenFile ≠ [])
    (stored : readWord node.caHashState ≠ [])
    (different : currentHash tokenFile ≠ readWord node.caHashState) :
    (restorePassword reset true tokenFile node).1 = node.resetAgentIdentity ∧
      (restorePassword reset true tokenFile node).2 ≠ .restoredSsd := by
  have somethingStored : (!node.caHashState.isEmpty) = true := by
    rw [Bool.not_eq_true', List.isEmpty_eq_false_iff]
    intro nothing
    rw [nothing] at stored
    exact stored rfl
  have otherHash : (!(currentHash tokenFile).isEmpty && !(readWord node.caHashState).isEmpty &&
      currentHash tokenFile ≠ readWord node.caHashState) = true := by
    simp [known, stored, different]
  unfold restorePassword
  split
  next unmounted => cases unmounted
  next =>
    split
    next =>
      rw [if_pos (by rw [somethingStored, Bool.or_true, Bool.true_or])]
      exact ⟨rfl, Outcome.noConfusion⟩
    next =>
      dsimp only
      rw [if_pos otherHash]
      exact ⟨rfl, Outcome.noConfusion⟩

end Restore

/-! ## Every history -/

/-- A password that was saved under a known hash stands beside that hash. -/
structure Paired (history : History) : Prop where
  saved : history.savedUnder = none → history.node.statePassword = []
  hash : ∀ hash, history.savedUnder = some hash → hash ≠ [] →
    readWord history.node.caHashState = hash

variable {reset : Bool}

theorem paired_fresh (localPassword : List Char) (agentFiles : List (List Char)) :
    Paired (fresh localPassword agentFiles) :=
  ⟨fun _ => rfl, fun _ none_there => (by cases none_there)⟩

theorem Paired.restore {history : History} (paired : Paired history) (mounted : Bool)
    (tokenFile : List Char) :
    Paired (advance reset history (.restore mounted tokenFile)).1 := by
  have saved := @restorePassword_saved reset mounted tokenFile history.node
  constructor
  · intro unsaved
    show (restorePassword reset mounted tokenFile history.node).1.statePassword = []
    rcases saved with isReset | ⟨password, -⟩
    · rw [isReset]
      rfl
    · rw [password]
      simp only [NodePassword.advance, password] at unsaved
      split at unsaved
      next nothing => exact List.isEmpty_iff.mp nothing
      next => exact paired.saved unsaved
  · intro hash under known
    show readWord (restorePassword reset mounted tokenFile history.node).1.caHashState = hash
    rcases saved with isReset | ⟨password, stored⟩
    · simp only [NodePassword.advance, isReset, Node.resetAgentIdentity] at under
      cases under
    · rw [stored]
      simp only [NodePassword.advance, password] at under
      split at under
      next => cases under
      next => exact paired.hash hash under known

theorem Paired.persist {history : History} (paired : Paired history) (mounted : Bool)
    (found : Nat → List Char) (tokenFile : List Char) :
    Paired (advance reset history (.persist mounted found tokenFile)).1 := by
  simp only [NodePassword.advance, persistPassword]
  split
  next => exact ⟨paired.saved, paired.hash⟩
  next =>
    split
    next => exact ⟨paired.saved, paired.hash⟩
    next =>
      refine ⟨fun none_there => (by cases none_there), fun hash under known => ?_⟩
      obtain rfl : currentHash tokenFile = hash := Option.some.inj under
      have written : ¬(currentHash tokenFile).isEmpty = true := by simpa using known
      simp only [if_neg written]
      exact readWord_currentHash tokenFile

/-- One event. -/
theorem Paired.advance {history : History} (paired : Paired history) (event : Event) :
    Paired (advance reset history event).1 := by
  cases event with
  | restore mounted tokenFile => exact paired.restore mounted tokenFile
  | persist mounted found tokenFile => exact paired.persist mounted found tokenFile
  | outside localPassword agentFiles => exact ⟨paired.saved, paired.hash⟩

/-- **The pairing holds after every history.** -/
theorem paired_run (localPassword : List Char) (agentFiles : List (List Char))
    (events : List Event) :
    Paired (run (advance reset) (fresh localPassword agentFiles) events).1 :=
  run_invariant (fun _ => Paired) (fun _ _ event paired => paired.advance event)
    (paired_fresh localPassword agentFiles) events

/-- A restore copies only what was saved under the hash it sees, whatever happened before. -/
def RestoresItsOwn (reset : Bool) : Prop :=
  ∀ localPassword agentFiles events tokenFile,
    let history := (run (advance reset) (fresh localPassword agentFiles) events).1
    (restorePassword reset true tokenFile history.node).2 = .restoredSsd →
      currentHash tokenFile ≠ [] → history.savedUnder = some (currentHash tokenFile)

/-- **A password that was saved without a readable token is restored under any hash**, where
no hash is saved and the agent has no identity. -/
theorem not_restoresItsOwn : ¬RestoresItsOwn false := by
  intro itsOwn
  have copied := itsOwn [] [] [.persist true (fun _ => "pw".toList) []] "K10a::t".toList
    (by decide +kernel) (by decide +kernel)
  exact absurd copied (by decide +kernel)

/-- **Over every history, a restore under a known hash copies only what was saved under it
or without a readable token, and under another hash it resets the identity.** -/
theorem restore_after_history (reset : Bool) (localPassword : List Char)
    (agentFiles : List (List Char)) (events : List Event) (tokenFile : List Char) :
    let history := (run (advance reset) (fresh localPassword agentFiles) events).1
    let restored := restorePassword reset true tokenFile history.node
    (restored.2 = .restoredSsd → currentHash tokenFile ≠ [] →
      history.savedUnder = some (currentHash tokenFile) ∨ history.savedUnder = some []) ∧
    (∀ hash, history.savedUnder = some hash → hash ≠ [] → currentHash tokenFile ≠ [] →
      currentHash tokenFile ≠ hash →
        restored.1.statePassword = [] ∧ restored.1.caHashState = [] ∧
          restored.1.agentIdentityExists = false ∧ restored.2 ≠ .restoredSsd) := by
  intro history restored
  have paired : Paired history := paired_run localPassword agentFiles events
  constructor
  · intro copied known
    obtain ⟨saved, alike⟩ := of_restoredSsd copied
    rcases under : history.savedUnder with - | hash
    · exact absurd (paired.saved under) saved
    · by_cases blind : hash = []
      · exact Or.inr (by rw [blind])
      · have stored := paired.hash hash under blind
        rw [stored] at alike
        have same := (alike.resolve_left known).resolve_left blind
        exact Or.inl (by rw [same])
  · intro hash under seen known different
    have stored := paired.hash hash under seen
    obtain ⟨isReset, notCopied⟩ := @restorePassword_of_ne reset tokenFile history.node known
      (by rwa [stored]) (by rwa [stored])
    refine ⟨?_, ?_, ?_, notCopied⟩
    · exact (congrArg Node.statePassword isReset)
    · exact (congrArg Node.caHashState isReset)
    · exact (congrArg Node.agentIdentityExists isReset).trans (agentIdentityExists_reset _)

end HomeclusterInfra.K3sStorage.NodePassword
