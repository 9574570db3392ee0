import Mathlib.Data.List.Nodup
import Mathlib.Logic.Relation
import HomeclusterInfra.Library.SegmentedLog
import HomeclusterInfra.NasLogs.Sources

/-!
# The files of a kind over time

The NAS appends to the current file of a kind and rotates it in one of two
ways: it renames the files and begins a new one, or it saves a copy and
truncates the current file in place. The model keeps beside the files the whole
log ever written, and for each file where in the log it begins, so that a place
in a file is a position in the log. A new file may take an inode that a lost
one had.
-/

set_option autoImplicit false

namespace HomeclusterInfra.NasLogs

open SegmentedLog

/-- A file and where in the log of its kind it begins. -/
structure Stored where
  start : Nat
  file : LogFile
  deriving DecidableEq

def Stored.segment (stored : Stored) : Segment UInt8 :=
  ⟨stored.start, stored.file.data⟩

def Stored.id (stored : Stored) : Nat × Nat :=
  stored.file.id

/-- The files of a kind, the rotated ones newest first, and the log they are
the end of. -/
structure LogFiles (kind : Kind) where
  log : List UInt8
  rotated : List Stored
  current : Stored
  covers : Covers log ((rotated.reverse ++ [current]).map Stored.segment)
  distinct : ((current :: rotated).map Stored.id).Nodup
  room : rotated.length ≤ kind.rotatedGens.length

namespace LogFiles

variable {kind : Kind}

/-- The files, the oldest first. -/
def all (files : LogFiles kind) : List Stored :=
  files.rotated.reverse ++ [files.current]

theorem covers_all (files : LogFiles kind) : Covers files.log (files.all.map Stored.segment) :=
  files.covers

theorem id_injective (files : LogFiles kind) {first second : Stored} (one : first ∈ files.all)
    (two : second ∈ files.all) (same : first.id = second.id) : first = second := by
  refine List.inj_on_of_nodup_map files.distinct ?_ ?_ same
  · simpa [all, or_comm] using one
  · simpa [all, or_comm] using two

theorem current_mem (files : LogFiles kind) : files.current ∈ files.all := by
  simp [all]

/-! ## Events -/

/-- Only the newest rotated files are kept. -/
theorem covers_take {log : List UInt8} {rotated : List Stored} {current : Stored} (kept : Nat)
    (covers : Covers log ((rotated.reverse ++ [current]).map Stored.segment)) :
    Covers log (((rotated.take kept).reverse ++ [current]).map Stored.segment) := by
  have split : (rotated.reverse ++ [current]).map Stored.segment =
      (rotated.drop kept).reverse.map Stored.segment ++
        ((rotated.take kept).reverse ++ [current]).map Stored.segment := by
    rw [← List.map_append, ← List.append_assoc, ← List.reverse_append, List.take_append_drop]
  rw [split] at covers
  exact covers.drop

/-- Bytes are appended to the current file. -/
def append (files : LogFiles kind) (bytes : List UInt8) (mtime : Nat) : LogFiles kind where
  log := files.log ++ bytes
  rotated := files.rotated
  current := ⟨files.current.start,
    { files.current.file with mtime := mtime, data := files.current.file.data ++ bytes }⟩
  covers := by
    have covers := files.covers
    rw [List.map_append] at covers ⊢
    exact covers.append bytes
  distinct := files.distinct
  room := files.room

/-- The rotated files after a file was saved as the newest of them. -/
def shifted (files : LogFiles kind) (saved : Stored) : List Stored :=
  (saved :: files.rotated).take kind.rotatedGens.length

theorem covers_shifted (files : LogFiles kind) {saved next : Stored}
    (same : saved.segment = files.current.segment) (empty : next.segment = ⟨files.log.length, []⟩) :
    Covers files.log (((files.shifted saved).reverse ++ [next]).map Stored.segment) := by
  refine covers_take _ ?_
  have covers := files.covers.begin
  rw [List.map_append] at covers
  rw [List.reverse_cons, List.map_append, List.map_append]
  simpa [same, empty] using covers

/-- Rename rotation: the current file becomes the newest rotated one and an
empty file with a new identity becomes current. -/
def rename (files : LogFiles kind) (fresh : LogFile) (empty : fresh.data = [])
    (unused : fresh.id ∉ (files.shifted files.current).map Stored.id) : LogFiles kind where
  log := files.log
  rotated := files.shifted files.current
  current := ⟨files.log.length, fresh⟩
  covers := files.covers_shifted rfl (by simp [Stored.segment, empty])
  distinct := by
    refine List.nodup_cons.2 ⟨unused, ?_⟩
    exact files.distinct.sublist ((List.take_sublist _ _).map Stored.id)
  room := by
    rw [shifted, List.length_take]
    exact Nat.min_le_left _ _

theorem shifted_sublist (files : LogFiles kind) (saved : Stored) :
    (files.shifted saved).Sublist
      (saved :: files.rotated.take (kind.rotatedGens.length - 1)) := by
  unfold shifted
  cases kind.rotatedGens.length with
  | zero => exact List.nil_sublist _
  | succ room => exact List.Sublist.refl _

/-- Copytruncate rotation: a copy of the current file with a new identity
becomes the newest rotated one, and the current file is emptied in place. -/
def copytruncate (files : LogFiles kind) (copied : LogFile) (mtime : Nat)
    (same : copied.data = files.current.file.data)
    (unused : copied.id ∉ (files.current ::
      files.rotated.take (kind.rotatedGens.length - 1)).map Stored.id) : LogFiles kind where
  log := files.log
  rotated := files.shifted ⟨files.current.start, copied⟩
  current := ⟨files.log.length, { files.current.file with mtime := mtime, data := [] }⟩
  covers := files.covers_shifted (by simp [Stored.segment, same]) rfl
  distinct := by
    have distinct : ((files.current :: files.rotated.take (kind.rotatedGens.length - 1)).map
        Stored.id).Nodup :=
      files.distinct.sublist (((List.take_sublist _ _).cons_cons _).map Stored.id)
    have whole : ((files.current :: ⟨files.current.start, copied⟩ ::
        files.rotated.take (kind.rotatedGens.length - 1)).map Stored.id).Nodup := by
      simp only [List.map_cons, List.nodup_cons, List.mem_cons, not_or] at distinct unused ⊢
      exact ⟨⟨fun equal => unused.1 equal.symm, distinct.1⟩, unused.2, distinct.2⟩
    exact whole.sublist (((files.shifted_sublist _).cons_cons _).map Stored.id)
  room := by
    rw [shifted, List.length_take]
    exact Nat.min_le_left _ _

/-- The oldest rotated file is lost. -/
def loseOldest (files : LogFiles kind) : LogFiles kind where
  log := files.log
  rotated := files.rotated.take (files.rotated.length - 1)
  current := files.current
  covers := covers_take _ files.covers
  distinct := by
    refine files.distinct.sublist (List.Sublist.cons_cons _ ?_)
    exact (List.take_sublist _ _).map Stored.id
  room := by
    rw [List.length_take]
    exact Nat.le_trans (Nat.min_le_right _ _) files.room

/-- One event on the files of a kind. -/
inductive Happens : LogFiles kind → LogFiles kind → Prop where
  | append (files : LogFiles kind) (bytes : List UInt8) (mtime : Nat) :
      Happens files (files.append bytes mtime)
  | rename (files : LogFiles kind) (fresh : LogFile) (empty : fresh.data = [])
      (unused : fresh.id ∉ (files.shifted files.current).map Stored.id) :
      Happens files (files.rename fresh empty unused)
  | copytruncate (files : LogFiles kind) (copied : LogFile) (mtime : Nat)
      (same : copied.data = files.current.file.data)
      (unused : copied.id ∉ (files.current ::
        files.rotated.take (kind.rotatedGens.length - 1)).map Stored.id) :
      Happens files (files.copytruncate copied mtime same unused)
  | loseOldest (files : LogFiles kind) : Happens files files.loseOldest

/-- Any sequence of events. -/
abbrev History : LogFiles kind → LogFiles kind → Prop :=
  Relation.ReflTransGen Happens

/-! ## What a history leaves -/

/-- The current file is the one it was, with more in it, or it begins after
everything that had been written. -/
structure Later (before after : LogFiles kind) : Prop where
  length_le : before.log.length ≤ after.log.length
  current : (after.current.start = before.current.start ∧ after.current.id = before.current.id ∧
      before.current.file.data <+: after.current.file.data) ∨
    before.log.length ≤ after.current.start

theorem Later.refl (files : LogFiles kind) : Later files files :=
  ⟨Nat.le_refl _, .inl ⟨rfl, rfl, List.prefix_rfl⟩⟩

/-- One event leaves the current file as it was, but for more bytes, or begins it anew. -/
theorem Later.step {before middle after : LogFiles kind} (later : Later before middle)
    (happens : Happens middle after) : Later before after := by
  cases happens with
  | append bytes mtime =>
      refine ⟨?_, ?_⟩
      · exact Nat.le_trans later.length_le (by simp [LogFiles.append])
      · rcases later.current with ⟨start, id, data⟩ | past
        · exact .inl ⟨start, id, data.trans (List.prefix_append _ _)⟩
        · exact .inr past
  | rename => exact ⟨later.length_le, .inr later.length_le⟩
  | copytruncate => exact ⟨later.length_le, .inr later.length_le⟩
  | loseOldest => exact ⟨later.length_le, later.current⟩

/-- **No history moves the current file back.** -/
theorem Later.of_history {before after : LogFiles kind} (history : History before after) :
    Later before after := by
  induction history with
  | refl => exact Later.refl before
  | tail _ happens ih => exact ih.step happens

/-! ## Snapshots -/

/-- The snapshot shows the files: each rotated generation holds the file at its
place, and the places beyond the last file are empty. -/
structure Shows (files : LogFiles kind) (snapshot : Snapshot) : Prop where
  current : snapshot.current kind = files.current.file
  rotated : kind.rotatedGens.map (snapshot.file kind) =
    files.rotated.map (fun stored => some stored.file) ++
      List.replicate (kind.rotatedGens.length - files.rotated.length) none

end LogFiles

end HomeclusterInfra.NasLogs
