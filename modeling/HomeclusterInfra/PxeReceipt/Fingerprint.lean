import HomeclusterInfra.Library.CanonicalJson

/-!
# The artifact fingerprint

The fingerprint of a build artifact is the digest of a stream of records, one for
each entry of a file tree. A walk visits the tree from the root on, each directory
in the order of the raw names, and keeps within budgets of entries, depth and
bytes. A regular file with several links refers to the name under which the walk
met it first.

The trees here do not change while they are measured, so the checks against
changes and the second digest, which compares the two passes, are left out. Every
error of the walk is one of the measurement, and `none` here. The SHA-256 of bytes,
as hexadecimal text, is a parameter.
-/

set_option autoImplicit false

namespace HomeclusterInfra

/-! ## Raw names -/

instance linearOrderByte : LinearOrder UInt8 where
  le_refl := UInt8.le_refl
  le_trans _ _ _ := UInt8.le_trans
  le_antisymm _ _ := UInt8.le_antisymm
  le_total := UInt8.le_total
  lt_iff_le_not_ge first second := by
    rw [UInt8.lt_iff_toNat_lt, UInt8.le_iff_toNat_le, UInt8.le_iff_toNat_le]
    omega
  toDecidableLE := inferInstance
  toDecidableEq := inferInstance
  toDecidableLT := inferInstance

namespace PxeReceipt

open Text JsonText

/-- The name of a file in its directory. -/
structure FileName where
  bytes : List UInt8
  nonempty : bytes ≠ []
  noSlash : 47 ∉ bytes
  deriving DecidableEq

theorem FileName.bytes_injective : Function.Injective FileName.bytes := by
  intro first second same
  cases first
  cases second
  obtain rfl := same
  rfl

instance : LinearOrder FileName :=
  LinearOrder.lift' FileName.bytes FileName.bytes_injective

/-- The path of a child, where the root has the empty path. -/
def childPath (relative : List UInt8) (name : FileName) : List UInt8 :=
  (if relative.isEmpty then [] else relative ++ [47]) ++ name.bytes

/-- The path from the root, as bytes. -/
def relativePath (path : List FileName) : List UInt8 :=
  path.foldl childPath []

/-! ## Files -/

/-- The type of a file, with what belongs to it. -/
inductive Kind where
  | directory
  | regular (content : List UInt8)
  | symlink (target : List UInt8)
  | fifo
  | character (major minor : Nat)
  | block (major minor : Nat)
  | socket

def Kind.isDirectory : Kind → Bool
  | .directory => true
  | _ => false

def Kind.isRegular : Kind → Bool
  | .regular _ => true
  | _ => false

/-- The size of a regular file. -/
def Kind.size : Kind → Nat
  | .regular content => content.length
  | _ => 0

def Kind.isSupported : Kind → Bool
  | .socket => false
  | _ => true

/-- What the system says of a file. -/
structure Inode where
  /-- The permission bits of `st_mode`. -/
  mode : Nat
  uid : Nat
  gid : Nat
  mtimeNs : Int
  /-- The extended attributes, in the order in which they are listed. -/
  xattrs : List (List UInt8 × List UInt8)
  /-- `st_dev` and `st_ino` -/
  file : Nat × Nat
  /-- `st_nlink` -/
  links : Nat
  kind : Kind

/-- The entries of a directory stand in the order in which they are listed. -/
abbrev Files : Type := NamedTree FileName Inode

/-- A path with the file it leads to. -/
abbrev Entry : Type := List FileName × Inode

/-! ## The walk -/

structure Limits where
  maxEntries : Nat
  maxBytes : Nat

/-- What the visits share. -/
structure Progress where
  entries : Nat
  regularBytes : Nat
  /-- The first path under which a file with several links was met. -/
  links : List ((Nat × Nat) × List Char)
  /-- What the digest was updated with. -/
  stream : List UInt8

/-- `links.setdefault(key, path)` -/
def setDefault (links : List ((Nat × Nat) × List Char)) (file : Nat × Nat) (path : List Char) :
    List ((Nat × Nat) × List Char) :=
  if (links.lookup file).isSome then links else links ++ [(file, path)]

/-- The values of extended attributes fit into what is left of their budget. -/
def attributesFit : Nat → List (List UInt8 × List UInt8) → Bool
  | _, [] => true
  | size, (_, value) :: rest =>
      size + value.length ≤ 262144 && attributesFit (size + value.length) rest

/-- `_attributes` -/
def attributes (xattrs : List (List UInt8 × List UInt8)) : Option Json :=
  let names := sortedByKey xattrs
  if 64 < names.length then none
  else if attributesFit 0 names then
    some (.arr (names.map fun entry => .arr [.str (hexText entry.1), .str (hexText entry.2)]))
  else none

/-- `_encoded` -/
def encoded (value : Json) : List UInt8 :=
  utf8Bytes (canonical value ++ ['\n'])

section Walk

variable (sha256 : List UInt8 → List Char)

/-- The fields of a record that depend on the type, the path of the first link to
the file among them. -/
def typeFields (firstLink : Option (List Char)) : Kind → List (String × Json)
  | .directory => [("type", .text "directory")]
  | .regular content => [("type", .text "regular"), ("size", .int content.length),
      ("content_sha256", .str (sha256 content)),
      ("hardlink_to", match firstLink with
        | some path => .str path
        | none => .null)]
  | .symlink target => [("type", .text "symlink"), ("target_hex", .str (hexText target))]
  | .fifo => [("type", .text "fifo")]
  | .character major minor =>
      [("type", .text "character"), ("major", .int major), ("minor", .int minor)]
  | .block major minor => [("type", .text "block"), ("major", .int major), ("minor", .int minor)]
  | .socket => []

/-- The record of an entry. -/
def record (relative : List UInt8) (inode : Inode) (xattrs : Json)
    (firstLink : Option (List Char)) : Json :=
  .object ([("path_hex", .str (hexText relative)), ("mode", .int inode.mode),
    ("uid", .int inode.uid), ("gid", .int inode.gid), ("mtime_ns", .int inode.mtimeNs),
    ("xattrs", xattrs)] ++ typeFields sha256 firstLink inode.kind)

/-- `links` after an entry. -/
def linksAfter (links : List ((Nat × Nat) × List Char)) (relative : List UInt8) (inode : Inode) :
    List ((Nat × Nat) × List Char) :=
  if inode.kind.isRegular && 1 < inode.links then setDefault links inode.file (hexText relative)
  else links

/-- `visit` up to the entries of a directory. -/
def enter (limits : Limits) (relative : List UInt8) (depth : Nat) (inode : Inode)
    (progress : Progress) : Option Progress :=
  let entries := progress.entries + 1
  if limits.maxEntries < entries || 128 < depth then none
  else if relative.isEmpty && !inode.kind.isDirectory then none
  else (attributes inode.xattrs).bind fun xattrs =>
    if !inode.kind.isSupported then none
    else if inode.kind.isRegular && limits.maxBytes < progress.regularBytes + inode.kind.size then
      none
    else some {
      entries
      regularBytes := progress.regularBytes + inode.kind.size
      links := linksAfter progress.links relative inode
      stream := progress.stream ++
        encoded (record sha256 relative inode xattrs (progress.links.lookup inode.file)) }

/-- A visit of one entry: its path, its depth, and what the visits share. -/
abbrev Visit : Type := List UInt8 → Nat → Progress → Option Progress

/-- The visits of the entries of a directory. -/
def visitNames (relative : List UInt8) (depth : Nat) :
    List (FileName × Visit) → Progress → Option Progress
  | [], progress => some progress
  | (name, visit) :: names, progress =>
      (visit (childPath relative name) (depth + 1) progress).bind
        (visitNames relative depth names)

mutual
/-- `visit` -/
def visit (limits : Limits) : Files → Visit
  | .node inode children => fun relative depth progress =>
      (enter sha256 limits relative depth inode progress).bind fun progress =>
        if inode.kind.isDirectory then
          let names := sortedByKey (visitors limits children)
          if limits.maxEntries < progress.entries + names.length then none
          else visitNames relative depth names progress
        else some progress

/-- The entries of a directory with their visits. -/
def visitors (limits : Limits) : List (FileName × Files) → List (FileName × Visit)
  | [] => []
  | (name, child) :: children => (name, visit limits child) :: visitors limits children
end

/-- `DOMAIN` of the fingerprint. -/
def treeDomain : List UInt8 :=
  utf8Bytes "homecluster-pxe-artifact-tree-v1\x00".toList

/-- What a walk reports. -/
structure Measured where
  digest : List Char
  entries : Nat
  regularBytes : Nat

/-- `_walk` -/
def walk (limits : Limits) (files : Files) : Option Measured :=
  (visit sha256 limits files [] 0 ⟨0, 0, [], []⟩).map fun progress =>
    ⟨sha256 (treeDomain ++ progress.stream), progress.entries, progress.regularBytes⟩

end Walk

end PxeReceipt

end HomeclusterInfra
