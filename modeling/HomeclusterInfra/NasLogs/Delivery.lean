import HomeclusterInfra.Library.Runs
import HomeclusterInfra.NasLogs.Accounting
import HomeclusterInfra.NasLogs.Collector

/-!
# Delivery at least once

Whatever fails in whatever order, the ledger in the state file changes only by
installing the next ledger of an outbox whose batches were all accepted in one
poll. The argument is an invariant that ties the state in memory to the state
in the file: an idle state in memory has the ledger of the file, where a save
that failed late may have left an outbox that was never offered; and a state
with an outbox in memory is either in the file itself or already committed
there.
-/

set_option autoImplicit false

namespace HomeclusterInfra.NasLogs

open Text JsonText Checked Runs

/-! ## Saves and deliveries -/

theorem loadState_saved {state : State} (valid : (validateState state).isOk)
    (fits : savedLength state ≤ maxState) :
    loadState (.document state (savedLength state)) = some state := by
  rw [loadState, if_pos ⟨fits, valid⟩]

/-- A save leaves the file as it was or puts the state into it; when it returns
it has done so. -/
theorem atomicSave_cases (file : StateFile) (state : State) (fault : SaveFault) :
    (atomicSave file state fault = (file, false)) ∨
      loadState (atomicSave file state fault).1 = some state := by
  unfold atomicSave
  split
  case isFalse => exact .inl rfl
  case isTrue good =>
      cases fault with
      | none => exact .inr (loadState_saved good.1 good.2)
      | beforeReplace => exact .inl rfl
      | afterReplace => exact .inr (loadState_saved good.1 good.2)

/-- The batches offered are the first ones of the outbox, in order, those
accepted the first ones of these, and a loop that ends has all accepted. -/
theorem deliver_spec (env : PollEnv) (index : Nat) (batches : List Batch) :
    (deliver env index batches).1 <+: batches ∧
      (deliver env index batches).2.1 <+: (deliver env index batches).1 ∧
      ((deliver env index batches).2.2 = true → (deliver env index batches).2.1 = batches) := by
  induction batches generalizing index with
  | nil => exact ⟨List.prefix_rfl, List.prefix_rfl, fun _ => rfl⟩
  | cons batch batches ih =>
      obtain ⟨offered, accepted, done⟩ := ih (index + 1)
      unfold deliver
      split
      · exact ⟨List.nil_prefix, List.prefix_rfl, fun above => by cases above⟩
      · split
        · refine ⟨?_, ?_, ?_⟩
          · exact (List.prefix_cons_inj batch).2 offered
          · exact (List.prefix_cons_inj batch).2 accepted
          · intro above
            exact congrArg (batch :: ·) (done above)
        · exact ⟨List.prefix_append [batch] batches, List.nil_prefix, fun above => by cases above⟩

/-! ## What one poll can do -/

variable [UnicodeData] (digest : List UInt8 → String)

/-- The state a poll finds, in memory or in the file. -/
def Finds (world : World) (state : State) : Prop :=
  world.collector.state = some state ∨
    (world.collector.state = none ∧ loadState world.file = some state)

/-- The outbox was prepared from the state. -/
def PreparedFrom (ledger : Ledger) (outbox : Outbox) : Prop :=
  ∃ poll : Poll digest, poll.state.toLedger = ledger ∧ poll.outbox = outbox

/-- The state a poll delivers from, and the file at that time: what the poll
found with an outbox pending, or an idle state that was found, with an outbox
prepared from it and saved. -/
inductive Ready (world : World) (file : StateFile) (state : State) (outbox : Outbox) : Prop where
  | found (finds : Finds world state) (same : file = world.file)
      (pending : state.pending = some outbox)
  | prepared (idle : State) (finds : Finds world idle) (empty : idle.pending = none)
      (genuine : PreparedFrom digest idle.toLedger outbox)
      (same : state = { idle with pending := some outbox }) (saved : loadState file = some state)

/-- What a poll can do to the file and the memory, and its log. -/
inductive Polled (world : World) : StateFile → Option State → PollLog → Prop where
  /-- No state could be read. -/
  | unread (empty : world.collector.state = none) : Polled world world.file none .quiet
  /-- No outbox could be prepared or saved. -/
  | unprepared (state : State) (finds : Finds world state) :
      Polled world world.file (some state) .quiet
  /-- The save of the outbox raised after it had taken place. -/
  | halfSaved (state : State) (outbox : Outbox) (file : StateFile) (finds : Finds world state)
      (empty : state.pending = none) (genuine : PreparedFrom digest state.toLedger outbox)
      (saved : loadState file = some { state with pending := some outbox }) :
      Polled world file (some state) .quiet
  /-- The delivery or the save after it failed and left the outbox pending. -/
  | delivered (state : State) (outbox : Outbox) (file : StateFile) (offered accepted : List Batch)
      (ready : Ready digest world file state outbox) (offers : offered <+: outbox.batches)
      (accepts : accepted <+: offered) :
      Polled world file (some state) ⟨some outbox, offered, accepted⟩
  /-- Everything was accepted and the next ledger is in the file. -/
  | committed (state : State) (outbox : Outbox) (file after : StateFile) (memory : State)
      (offered : List Batch) (ready : Ready digest world file state outbox)
      (offers : offered <+: outbox.batches)
      (saved : loadState after = some outbox.next.toState)
      (held : memory = state ∨ memory = outbox.next.toState) :
      Polled world after (some memory) ⟨some outbox, offered, outbox.batches⟩

variable {digest}

theorem Ready.pending {world : World} {file : StateFile} {state : State} {outbox : Outbox}
    (ready : Ready digest world file state outbox) : state.pending = some outbox := by
  cases ready with
  | found _ _ pending => exact pending
  | prepared _ _ _ _ same _ => rw [same]

omit [UnicodeData] in
theorem finds_of_readState {env : PollEnv} {world : World} {state : State}
    (read : readState env world = some state) : Finds world state := by
  unfold readState at read
  split at read
  next held => exact .inl (held.trans read)
  next empty =>
      split at read
      · cases read
      · exact .inr ⟨empty, read⟩

/-- What the step that makes sure of an outbox can do. -/
theorem ensureOutbox_cases {env : PollEnv} {world : World} {filterNormal : Bool} {state : State}
    (finds : Finds world state) :
    (ensureOutbox digest env world.file filterNormal state = (world.file, none)) ∨
      (∃ file outbox, ensureOutbox digest env world.file filterNormal state = (file, none) ∧
        state.pending = none ∧ PreparedFrom digest state.toLedger outbox ∧
        loadState file = some { state with pending := some outbox }) ∨
      ∃ file ready outbox, ensureOutbox digest env world.file filterNormal state =
        (file, some ready) ∧ Ready digest world file ready outbox := by
  unfold ensureOutbox
  split
  next outbox pending => exact .inr (.inr ⟨_, _, outbox, rfl, .found finds rfl pending⟩)
  next idle =>
      split
      next snapshot nowNs _ _ =>
          split
          · exact .inl rfl
          next candidate prepared =>
              obtain ⟨outbox, rfl, -⟩ := prepare_ok digest idle prepared
              have genuine : PreparedFrom digest state.toLedger outbox :=
                ⟨⟨state, idle, snapshot, nowNs, filterNormal, outbox, prepared⟩, rfl, rfl⟩
              rcases atomicSave_cases world.file { state with pending := some outbox }
                env.saveOutbox with untouched | saved
              · rw [untouched]
                exact .inl rfl
              · generalize atomicSave world.file _ env.saveOutbox = result at saved
                obtain ⟨file, returned⟩ := result
                cases returned with
                | false => exact .inr (.inl ⟨file, outbox, rfl, idle, genuine, saved⟩)
                | true =>
                    exact .inr (.inr ⟨file, _, outbox, rfl,
                      .prepared state finds idle genuine rfl saved⟩)
      next => exact .inl rfl

/-- What delivering and committing can do. -/
theorem deliverAndCommit_polled {env : PollEnv} {world : World} {file : StateFile}
    {collector : Collector} {state : State} {outbox : Outbox}
    (held : collector.state = some state) (ready : Ready digest world file state outbox) :
    Polled digest world (deliverAndCommit env ⟨file, collector⟩ outbox).1.file
      (deliverAndCommit env ⟨file, collector⟩ outbox).1.collector.state
      (deliverAndCommit env ⟨file, collector⟩ outbox).2 := by
  obtain ⟨offers, accepts, all⟩ := deliver_spec env 0 outbox.batches
  unfold deliverAndCommit
  generalize deliver env 0 outbox.batches = delivery at offers accepts all
  obtain ⟨offered, accepted, done⟩ := delivery
  cases done with
  | false =>
      simp only [Bool.false_eq_true, if_false, Collector.fail, held]
      exact .delivered state outbox file offered accepted ready offers accepts
  | true =>
      obtain rfl : accepted = outbox.batches := all rfl
      simp only [if_true]
      rcases atomicSave_cases file outbox.next.toState env.saveCommit with untouched | saved
      · rw [untouched]
        simp only [Collector.fail, held]
        exact .delivered state outbox file offered _ ready offers accepts
      · generalize atomicSave file outbox.next.toState env.saveCommit = result at saved
        obtain ⟨after, returned⟩ := result
        cases returned with
        | false =>
            simp only [Collector.fail, held]
            exact .committed state outbox file after state offered ready offers saved (.inl rfl)
        | true =>
            exact .committed state outbox file after _ offered ready offers saved (.inr rfl)

/-- **A poll does one of the five things.** -/
theorem pollOnce_polled (env : PollEnv) (world : World) :
    Polled digest world (pollOnce digest env world).1.file
      (pollOnce digest env world).1.collector.state (pollOnce digest env world).2 := by
  unfold pollOnce
  split
  next unread =>
      have empty : world.collector.state = none := by
        unfold readState at unread
        split at unread
        · cases unread
        · assumption
      have kept : world.collector.fail.state = none := empty
      simp only [kept]
      exact .unread empty
  next state read =>
      have finds := finds_of_readState read
      simp only
      rcases @ensureOutbox_cases _ digest env world world.collector.filterNormal state finds with
        failed | ⟨file, outbox, failed, idle, genuine, saved⟩ | ⟨file, ready, outbox, made, isReady⟩
      · rw [failed]
        exact .unprepared state finds
      · rw [failed]
        exact .halfSaved state outbox file finds idle genuine saved
      · rw [made]
        simp only [isReady.pending]
        exact deliverAndCommit_polled rfl isReady

/-! ## The invariant -/

/-- The ledger in a state file. -/
def persisted (file : StateFile) : Option Ledger :=
  (loadState file).map State.toLedger

/-- The batches accepted in a run. -/
def acceptedIn (logs : List PollLog) : List Batch :=
  logs.flatMap PollLog.accepted

/-- The last poll that delivered. -/
def lastDelivery (logs : List PollLog) : Option PollLog :=
  logs.reverse.find? fun log => log.pending.isSome

/-- Some poll saw all batches of the outbox accepted. -/
def DeliveredIn (logs : List PollLog) (outbox : Outbox) : Prop :=
  ∃ log ∈ logs, log.pending = some outbox ∧ log.accepted = outbox.batches

/-- The state is in memory or in the file. -/
def Holds (world : World) (state : State) : Prop :=
  world.collector.state = some state ∨ loadState world.file = some state

section Ghost

omit [UnicodeData]

theorem Finds.holds {world : World} {state : State} (finds : Finds world state) :
    Holds world state := by
  rcases finds with held | ⟨-, loaded⟩
  · exact .inl held
  · exact .inr loaded

theorem acceptedIn_append (logs : List PollLog) (log : PollLog) :
    acceptedIn (logs ++ [log]) = acceptedIn logs ++ log.accepted := by
  simp [acceptedIn]

theorem lastDelivery_quiet (logs : List PollLog) :
    lastDelivery (logs ++ [PollLog.quiet]) = lastDelivery logs := by
  simp [lastDelivery, PollLog.quiet]

theorem lastDelivery_append (logs : List PollLog) {log : PollLog} {outbox : Outbox}
    (delivers : log.pending = some outbox) : lastDelivery (logs ++ [log]) = some log := by
  simp [lastDelivery, delivers]

theorem DeliveredIn.append {logs : List PollLog} {outbox : Outbox}
    (delivered : DeliveredIn logs outbox) (log : PollLog) : DeliveredIn (logs ++ [log]) outbox := by
  obtain ⟨earlier, member, rest⟩ := delivered
  exact ⟨earlier, List.mem_append_left _ member, rest⟩

end Ghost

variable (digest)

/-- A ledger reached from a state file by polls whose outboxes were accepted.
The first of them may be an outbox found in the file. -/
inductive DeliveredUpTo (origin : StateFile) (accepted : List Batch) :
    List (Poll digest) → Ledger → Prop where
  | start (state : State) (loaded : loadState origin = some state) :
      DeliveredUpTo origin accepted [] state.toLedger
  | inherited (state : State) (outbox : Outbox) (loaded : loadState origin = some state)
      (pending : state.pending = some outbox)
      (all : ∀ batch ∈ outbox.batches, batch ∈ accepted) :
      DeliveredUpTo origin accepted [] outbox.next
  | install (polls : List (Poll digest)) (poll : Poll digest)
      (before : DeliveredUpTo origin accepted polls poll.state.toLedger)
      (all : ∀ batch ∈ poll.outbox.batches, batch ∈ accepted) :
      DeliveredUpTo origin accepted (polls ++ [poll]) poll.outbox.next

/-- The outbox was prepared from the ledger, or found with it in the first file. -/
def Genuine (origin : StateFile) (ledger : Ledger) (outbox : Outbox) : Prop :=
  PreparedFrom digest ledger outbox ∨
    ∃ state, loadState origin = some state ∧ state.pending = some outbox ∧ state.toLedger = ledger

variable {digest} {origin : StateFile}

theorem DeliveredUpTo.mono {accepted more : List Batch} {polls : List (Poll digest)}
    {ledger : Ledger} (delivered : DeliveredUpTo digest origin accepted polls ledger)
    (subset : accepted ⊆ more) : DeliveredUpTo digest origin more polls ledger := by
  induction delivered with
  | start state loaded => exact .start state loaded
  | inherited state outbox loaded pending all =>
      exact .inherited state outbox loaded pending fun batch member => subset (all batch member)
  | install polls poll _ all ih =>
      exact .install polls poll ih fun batch member => subset (all batch member)

/-- Accepting an outbox carries the delivered ledger forward to its next one. -/
theorem DeliveredUpTo.next {accepted : List Batch} {polls : List (Poll digest)} {ledger : Ledger}
    {outbox : Outbox} (delivered : DeliveredUpTo digest origin accepted polls ledger)
    (genuine : Genuine digest origin ledger outbox)
    (all : ∀ batch ∈ outbox.batches, batch ∈ accepted) :
    ∃ polls, DeliveredUpTo digest origin accepted polls outbox.next := by
  rcases genuine with ⟨poll, rfl, rfl⟩ | ⟨state, loaded, pending, -⟩
  · exact ⟨polls ++ [poll], .install polls poll delivered all⟩
  · exact ⟨[], .inherited state outbox loaded pending all⟩

/-- Every record that the polls read and did not count was accepted. -/
theorem DeliveredUpTo.carried {accepted : List Batch} {polls : List (Poll digest)}
    {ledger : Ledger} (delivered : DeliveredUpTo digest origin accepted polls ledger) :
    ∀ poll ∈ polls, ∀ record ∈ allRecords digest poll.state poll.snapshot,
      record.counter poll.filterNormal = none →
        ∃ batch ∈ accepted, ∃ stream ∈ batch, CarriedBy record stream := by
  induction delivered with
  | start => intro poll member; cases member
  | inherited => intro poll member; cases member
  | install polls last _ all ih =>
      intro poll member record read uncounted
      rcases List.mem_append.1 member with earlier | here
      · exact ih poll earlier record read uncounted
      · obtain rfl := List.mem_singleton.1 here
        have sent : record ∈ (allRecords digest poll.state poll.snapshot).filter
            fun record => (record.counter poll.filterNormal).isNone :=
          List.mem_filter.2 ⟨read, by rw [uncounted]; rfl⟩
        obtain ⟨position, inside, same⟩ := List.mem_iff_getElem.1 sent
        have carried := poll.spec.accounts.carried
        have bound := inside
        rw [carried.length_eq] at bound
        have stream := carried.get inside bound
        simp only [List.get_eq_getElem, same] at stream
        obtain ⟨batch, among, inBatch⟩ := List.mem_flatten.1 (List.getElem_mem bound)
        exact ⟨batch, all batch among, _, inBatch, stream⟩

variable (digest) (origin)

/-- What holds between the file, the memory and the batches accepted so far. -/
structure Consistent (logs : List PollLog) (world : World) : Prop where
  /-- The file holds the ledger of an idle memory; an outbox in memory is in
  the file or committed there. -/
  agrees : ∀ memory, world.collector.state = some memory →
    ∃ filed, loadState world.file = some filed ∧
      (memory.pending = none → filed.toLedger = memory.toLedger) ∧
      ∀ outbox, memory.pending = some outbox →
        filed = memory ∨ (filed = outbox.next.toState ∧ DeliveredIn logs outbox)
  /-- Everything up to the ledger was accepted. -/
  delivered : ∀ state, Holds world state →
    ∃ polls, DeliveredUpTo digest origin (acceptedIn logs) polls state.toLedger
  /-- An outbox belongs to the ledger it stands beside. -/
  genuine : ∀ state, Holds world state → ∀ outbox, state.pending = some outbox →
    Genuine digest origin state.toLedger outbox
  /-- The outbox of the last delivery stays until a poll has seen it accepted. -/
  outstanding : ∀ log outbox, lastDelivery logs = some log → log.pending = some outbox →
    DeliveredIn logs outbox ∨ ∀ state, Holds world state → state.pending = some outbox

variable {digest} {origin} {logs : List PollLog} {world : World}

theorem Consistent.start (filterNormal : Bool) :
    Consistent digest origin [] ⟨origin, .start filterNormal⟩ := by
  refine ⟨?_, ?_, ?_, ?_⟩
  · intro memory held
    cases held
  · rintro state (held | loaded)
    · cases held
    · exact ⟨[], .start state loaded⟩
  · rintro state (held | loaded) outbox pending
    · cases held
    · exact .inr ⟨state, loaded, pending, rfl⟩
  · intro log outbox last
    cases last

/-- Where nothing is offered and no new state appears, the invariant stays. -/
theorem Consistent.quiet {next : World} (consistent : Consistent digest origin logs world)
    (agrees : ∀ memory, next.collector.state = some memory →
      ∃ filed, loadState next.file = some filed ∧
        (memory.pending = none → filed.toLedger = memory.toLedger) ∧
        ∀ outbox, memory.pending = some outbox →
          filed = memory ∨ (filed = outbox.next.toState ∧ DeliveredIn logs outbox))
    (holds : ∀ state, Holds next state → Holds world state) :
    Consistent digest origin (logs ++ [.quiet]) next := by
  refine ⟨?_, ?_, ?_, ?_⟩
  · intro memory held
    obtain ⟨filed, loaded, idle, busy⟩ := agrees memory held
    refine ⟨filed, loaded, idle, fun outbox pending => ?_⟩
    exact (busy outbox pending).imp_right fun both => ⟨both.1, both.2.append _⟩
  · intro state here
    rw [acceptedIn_append]
    simpa [PollLog.quiet] using consistent.delivered state (holds state here)
  · intro state here
    exact consistent.genuine state (holds state here)
  · intro log outbox last pending
    rw [lastDelivery_quiet] at last
    refine (consistent.outstanding log outbox last pending).imp (·.append _) fun all => ?_
    exact fun state here => all state (holds state here)

/-- A state that a poll finds agrees with the file, also when it comes from there. -/
theorem Consistent.finds (consistent : Consistent digest origin logs world) {state : State}
    (finds : Finds world state) :
    ∃ filed, loadState world.file = some filed ∧
      (state.pending = none → filed.toLedger = state.toLedger) ∧
      ∀ outbox, state.pending = some outbox →
        filed = state ∨ (filed = outbox.next.toState ∧ DeliveredIn logs outbox) := by
  rcases finds with held | ⟨-, loaded⟩
  · exact consistent.agrees state held
  · exact ⟨state, loaded, fun _ => rfl, fun _ _ => .inl rfl⟩

section Ready

variable {file : StateFile} {state : State} {outbox : Outbox}

/-- The ledger a poll delivers from was delivered, and its outbox is genuine. -/
theorem Consistent.ready (consistent : Consistent digest origin logs world)
    (ready : Ready digest world file state outbox) :
    (∃ polls, DeliveredUpTo digest origin (acceptedIn logs) polls state.toLedger) ∧
      Genuine digest origin state.toLedger outbox := by
  cases ready with
  | found finds _ pending =>
      exact ⟨consistent.delivered state finds.holds,
        consistent.genuine state finds.holds outbox pending⟩
  | prepared idle finds _ genuine same _ =>
      subst same
      exact ⟨consistent.delivered idle finds.holds, .inl genuine⟩

/-- The file at the time of the delivery. -/
theorem Consistent.ready_file (consistent : Consistent digest origin logs world)
    (ready : Ready digest world file state outbox) :
    loadState file = some state ∨
      (file = world.file ∧ Finds world state ∧
        loadState file = some outbox.next.toState ∧ DeliveredIn logs outbox) := by
  cases ready with
  | found finds same pending =>
      obtain ⟨filed, loaded, -, busy⟩ := consistent.finds finds
      rcases busy outbox pending with rfl | ⟨rfl, delivered⟩
      · exact .inl (same ▸ loaded)
      · exact .inr ⟨same, finds, same ▸ loaded, delivered⟩
  | prepared _ _ _ _ _ saved => exact .inl saved

/-- The persisted ledger does not change before the commit. -/
theorem Consistent.ready_persisted (consistent : Consistent digest origin logs world)
    (ready : Ready digest world file state outbox) : persisted file = persisted world.file := by
  cases ready with
  | found _ same _ => rw [same]
  | prepared idle finds empty _ same saved =>
      obtain ⟨filed, loaded, ledger, -⟩ := consistent.finds finds
      subst same
      rw [persisted, persisted, saved, loaded, Option.map_some, Option.map_some, ledger empty]

end Ready

/-! ## One event -/

/-- A delivery that ends early keeps the invariant. -/
theorem Consistent.deliver {next : World} {file : StateFile} {state : State} {outbox : Outbox}
    {offered accepted : List Batch} (consistent : Consistent digest origin logs world)
    (ready : Ready digest world file state outbox) (atFile : next.file = file)
    (memory : next.collector.state = some state) :
    Consistent digest origin (logs ++ [⟨some outbox, offered, accepted⟩]) next := by
  obtain ⟨⟨polls, delivered⟩, genuine⟩ := consistent.ready ready
  have filed := consistent.ready_file ready
  have only : ∀ other, Holds next other →
      other = state ∨ (Holds world other ∧ DeliveredIn logs outbox) := by
    rintro other (held | loaded)
    · exact .inl (Option.some.inj (held.symm.trans memory))
    · rw [atFile] at loaded
      rcases filed with saved | ⟨same, -, -, accepted⟩
      · exact .inl (Option.some.inj (loaded.symm.trans saved))
      · exact .inr ⟨.inr (same ▸ loaded), accepted⟩
  refine ⟨?_, ?_, ?_, ?_⟩
  · intro other held
    obtain rfl : state = other := Option.some.inj (memory.symm.trans held)
    rw [atFile]
    have same : ∀ other, state.pending = some other → other = outbox := fun other pending =>
      Option.some.inj (pending.symm.trans ready.pending)
    rcases filed with saved | ⟨-, -, saved, accepted⟩
    · exact ⟨state, saved, fun _ => rfl, fun _ _ => .inl rfl⟩
    · refine ⟨_, saved, fun idle => ?_, fun other pending => ?_⟩
      · rw [ready.pending] at idle
        cases idle
      · rw [same other pending]
        exact .inr ⟨rfl, accepted.append _⟩
  · intro other here
    rw [acceptedIn_append]
    rcases only other here with rfl | ⟨before, -⟩
    · exact ⟨polls, delivered.mono (List.subset_append_left _ _)⟩
    · obtain ⟨polls, delivered⟩ := consistent.delivered other before
      exact ⟨polls, delivered.mono (List.subset_append_left _ _)⟩
  · intro other here pendingOutbox pending
    rcases only other here with rfl | ⟨before, -⟩
    · obtain rfl : outbox = pendingOutbox := Option.some.inj (ready.pending.symm.trans pending)
      exact genuine
    · exact consistent.genuine other before pendingOutbox pending
  · intro log last isLast pending
    rw [@lastDelivery_append logs _ outbox rfl] at isLast
    obtain rfl := Option.some.inj isLast
    obtain rfl : outbox = last := Option.some.inj pending
    rcases filed with saved | ⟨-, -, -, accepted⟩
    · refine .inr fun other here => ?_
      rcases here with held | loaded
      · rw [← Option.some.inj (memory.symm.trans held)]
        exact ready.pending
      · rw [atFile, saved] at loaded
        rw [← Option.some.inj loaded]
        exact ready.pending
    · exact .inl (accepted.append _)

/-- A save of an outbox that raised after it took place keeps the invariant. -/
theorem Consistent.halfSave {next : World} {state : State} {outbox : Outbox}
    (consistent : Consistent digest origin logs world) (finds : Finds world state)
    (empty : state.pending = none) (genuine : PreparedFrom digest state.toLedger outbox)
    (saved : loadState next.file = some { state with pending := some outbox })
    (memory : next.collector.state = some state) :
    Consistent digest origin (logs ++ [.quiet]) next := by
  have only : ∀ other, Holds next other →
      other = state ∨ other = { state with pending := some outbox } := by
    rintro other (held | loaded)
    · exact .inl (Option.some.inj (held.symm.trans memory))
    · exact .inr (Option.some.inj (loaded.symm.trans saved))
  refine ⟨?_, ?_, ?_, ?_⟩
  · intro other held
    obtain rfl : state = other := Option.some.inj (memory.symm.trans held)
    refine ⟨_, saved, fun _ => rfl, fun other pending => ?_⟩
    rw [empty] at pending
    cases pending
  · intro other here
    have ledger : other.toLedger = state.toLedger := by
      rcases only other here with rfl | rfl <;> rfl
    rw [acceptedIn_append, ledger]
    simpa [PollLog.quiet] using consistent.delivered state finds.holds
  · intro other here pendingOutbox pending
    rcases only other here with rfl | rfl
    · rw [empty] at pending
      cases pending
    · rw [← Option.some.inj pending]
      exact .inl genuine
  · intro log last isLast pending
    rw [lastDelivery_quiet] at isLast
    rcases consistent.outstanding log last isLast pending with accepted | all
    · exact .inl (accepted.append _)
    · have busy := all state finds.holds
      rw [empty] at busy
      cases busy

/-- A commit keeps the invariant. -/
theorem Consistent.commit {next : World} {file after : StateFile} {state memory : State}
    {outbox : Outbox} {offered : List Batch} (consistent : Consistent digest origin logs world)
    (ready : Ready digest world file state outbox) (atFile : next.file = after)
    (inMemory : next.collector.state = some memory)
    (saved : loadState after = some outbox.next.toState)
    (held : memory = state ∨ memory = outbox.next.toState) :
    Consistent digest origin (logs ++ [⟨some outbox, offered, outbox.batches⟩]) next := by
  obtain ⟨⟨polls, delivered⟩, genuine⟩ := consistent.ready ready
  have accepted : DeliveredIn (logs ++ [⟨some outbox, offered, outbox.batches⟩]) outbox :=
    ⟨_, List.mem_append_right _ List.mem_cons_self, rfl, rfl⟩
  have more := delivered.mono (List.subset_append_left (acceptedIn logs) outbox.batches)
  obtain ⟨further, installed⟩ := more.next genuine fun batch member =>
    List.mem_append_right _ member
  have only : ∀ other, Holds next other → other = state ∨ other = outbox.next.toState := by
    rintro other (here | loaded)
    · rw [← Option.some.inj (inMemory.symm.trans here)]
      exact held
    · rw [atFile, saved] at loaded
      exact .inr (Option.some.inj loaded).symm
  refine ⟨?_, ?_, ?_, ?_⟩
  · intro other here
    obtain rfl : memory = other := Option.some.inj (inMemory.symm.trans here)
    rw [atFile]
    refine ⟨_, saved, fun idle => ?_, fun other pending => ?_⟩
    · rcases held with rfl | rfl
      · rw [ready.pending] at idle
        cases idle
      · rfl
    · rcases held with rfl | rfl
      · rw [← Option.some.inj (ready.pending.symm.trans pending)]
        exact .inr ⟨rfl, accepted⟩
      · cases pending
  · intro other here
    rw [acceptedIn_append]
    rcases only other here with rfl | rfl
    · exact ⟨polls, more⟩
    · exact ⟨further, installed⟩
  · intro other here pendingOutbox pending
    rcases only other here with rfl | rfl
    · rw [← Option.some.inj (ready.pending.symm.trans pending)]
      exact genuine
    · cases pending
  · intro log last isLast pending
    rw [@lastDelivery_append logs _ outbox rfl] at isLast
    obtain rfl := Option.some.inj isLast
    obtain rfl : outbox = last := Option.some.inj pending
    exact .inl accepted

/-- **Every event keeps the invariant.** -/
theorem Consistent.step (consistent : Consistent digest origin logs world) (event : Event) :
    Consistent digest origin (logs ++ [(NasLogs.step digest world event).2])
      (NasLogs.step digest world event).1 := by
  cases event with
  | restart filterNormal =>
      refine consistent.quiet (fun memory held => by cases held) ?_
      rintro state (held | loaded)
      · cases held
      · exact .inr loaded
  | poll env =>
      have polled := @pollOnce_polled _ digest env world
      simp only [NasLogs.step]
      generalize pollOnce digest env world = result at polled
      obtain ⟨next, log⟩ := result
      obtain ⟨file, collector⟩ := next
      obtain ⟨_, memory, _, _, _, _⟩ := collector
      simp only at polled ⊢
      cases polled with
      | unread empty =>
          refine consistent.quiet (fun memory held => by cases held) ?_
          rintro state (held | loaded)
          · cases held
          · exact .inr loaded
      | unprepared state finds =>
          refine consistent.quiet ?_ ?_
          · intro memory held
            obtain rfl := Option.some.inj held
            exact consistent.finds finds
          · rintro other (held | loaded)
            · rw [← Option.some.inj held]
              exact finds.holds
            · exact .inr loaded
      | halfSaved state outbox _ finds empty genuine saved =>
          exact consistent.halfSave finds empty genuine saved rfl
      | delivered state outbox _ offered accepted ready =>
          exact consistent.deliver ready rfl rfl
      | committed state outbox file _ memory offered ready _ saved held =>
          exact consistent.commit ready rfl rfl saved held

/-! ## Every run -/

variable (digest) (origin)

variable {digest} {origin}

end HomeclusterInfra.NasLogs
