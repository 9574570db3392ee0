import HomeclusterInfra.Library.Calendar
import HomeclusterInfra.Library.Ranking
import HomeclusterInfra.Tftp.LiveReaders
import Mathlib.Data.Prod.Lex

/-!
# Pruning of old root filesystems

The releases under `/srv/gentoo` are ranked by date within each variant, and those behind
the newest ones are deleted unless one of five sources protects them: the explicit list,
the release of the inventory, the releases of the hosts, the `cmdline.txt` of a board, and
a mount.

The names of the sources are cleaned before they are compared. A `cmdline.txt` or a mount
table that cannot be read only gives a warning and protects nothing.
-/

set_option autoImplicit false

namespace HomeclusterInfra.Tftp.Prune

open Text Calendar Ranking

/-! ## What a run finds -/

/-- A symbolic link leads into an entry of `/srv/gentoo`, or elsewhere. -/
inductive Kind where
  | plain
  | link (into : Option (List Char))
deriving DecidableEq

/-- A name in `/srv/gentoo`. -/
structure RootEntry where
  name : List Char
  kind : Kind
  /-- `os.path.isdir`, which follows links. -/
  isDir : Bool
  hasNfs : Bool
  files : List (List Char)
deriving DecidableEq

/-- The entry that a link leads into. -/
def RootEntry.leadsInto (entry : RootEntry) : Option (List Char) :=
  match entry.kind with
  | .plain => none
  | .link into => into

def RootEntry.isSymlink (entry : RootEntry) : Bool :=
  match entry.kind with
  | .plain => false
  | .link _ => true

/-- A `cmdline.txt`, and whether it is seen and can be read. -/
structure Cmdline where
  text : List Char
  isFile : Bool
  opens : Bool
deriving DecidableEq

structure Board where
  name : List Char
  cmdline : Option Cmdline
deriving DecidableEq

/-- A mount, whose source and the rest are as the mount table prints them. -/
structure MountLine where
  source : List Char
  point : List Char
  rest : List Char

structure Date where
  year : Nat
  month : Nat
  day : Nat
deriving DecidableEq

structure Host where
  rootIsDir : Bool
  entries : List RootEntry
  /-- The names of a directory are distinct. -/
  distinct : (entries.map RootEntry.name).Nodup
  /-- The boards in the TFTP root, if it is a directory. -/
  tftpRoot : Option (List Board)
  mounts : List MountLine
  mountsOpen : Bool
  /-- `unicodedata.decimal` -/
  decimal : Char → Option Nat
  today : Date

/-- A host of the inventory; the text of a missing field is empty. -/
structure PxeHost where
  rootfsRelease : List Char
  tftpRelease : List Char

/-- The variables of the tasks. -/
structure Settings where
  keepGenerations : Int
  minReleaseAgeDays : Int
  apply : Bool
  confirm : List Char
  confirmValue : List Char
  explicitProtected : List (List Char)
  gentooRelease : List Char
  pxeHosts : List PxeHost

/-! ## Releases -/

/-- A release that is ranked. -/
structure Release where
  name : List Char
  date : Date
  variant : List Char
  isSymlink : Bool
deriving DecidableEq

def Date.fields (date : Date) : List Nat :=
  [date.year, date.month, date.day]

/-- `date.toordinal` -/
def Date.toordinal (date : Date) : Nat :=
  let before := date.year - 1
  before * 365 + before / 4 - before / 100 + before / 400 +
    ((List.range (date.month - 1)).map fun month => daysInMonth date.year (month + 1)).sum +
      date.day

/-- `(item["date"], item["name"])` -/
def Release.key (release : Release) : List Nat ×ₗ List Char :=
  toLex (release.date.fields, release.name)

section Names

variable (decimal : Char → Option Nat)

/-- `1[0-2]|0[1-9]` -/
def readMonth (first second : Char) : Option Nat :=
  if first = '1' ∧ '0' ≤ second ∧ second ≤ '2' then some (10 + (second.toNat - 48))
  else if first = '0' ∧ '1' ≤ second ∧ second ≤ '9' then some (second.toNat - 48)
  else none

/-- `3[0-1]|[1-2]\d|0[1-9]` -/
def readDay (first second : Char) : Option Nat :=
  if first = '3' ∧ '0' ≤ second ∧ second ≤ '1' then some (30 + (second.toNat - 48))
  else if '1' ≤ first ∧ first ≤ '2' then
    (decimal second).map fun unit => 10 * (first.toNat - 48) + unit
  else if first = '0' ∧ '1' ≤ second ∧ second ≤ '9' then some (second.toNat - 48)
  else none

/-- `strptime` with `%Y%m%d` on eight characters: a month or a day of one digit leaves
a character over. -/
def readDate (text : List Char) : Option Date :=
  match text with
  | [y₁, y₂, y₃, y₄, m₁, m₂, d₁, d₂] => do
      let thousands ← decimal y₁
      let hundreds ← decimal y₂
      let tens ← decimal y₃
      let units ← decimal y₄
      let month ← readMonth m₁ m₂
      let day ← readDay decimal d₁ d₂
      let date : Date := ⟨1000 * thousands + 100 * hundreds + 10 * tens + units, month, day⟩
      if isDay date.year month day then some date else none
  | _ => none

/-- `$` also matches before a line end that is the last character. -/
def beforeLineEnd (text : List Char) : List Char :=
  if text.getLast? = some '\n' then text.dropLast else text

/-- `(?:-(rpi[0-9]+(?:-clone)?))?$`: the group, if it matches. -/
def readVariant (text : List Char) : Option (Option (List Char)) :=
  let whole := beforeLineEnd text
  let digits := (whole.drop 4).takeWhile Char.isDigit
  let after := (whole.drop 4).drop digits.length
  if whole.isEmpty then some none
  else if "-rpi".toList.isPrefixOf whole && !digits.isEmpty &&
      (after.isEmpty || after == "-clone".toList) then some (some (whole.drop 1))
  else none

/-- A release of the listing, if its name is recognised. -/
def readRelease (entry : RootEntry) : Option Release :=
  if entry.isDir && entry.hasNfs then
    if (entry.name.take 8).all (fun char => (decimal char).isSome) && entry.name.length ≥ 8 then
      match readVariant (entry.name.drop 8), readDate decimal (entry.name.take 8) with
      | some variant, some date =>
          some ⟨entry.name, date, variant.getD "base".toList, entry.isSymlink⟩
      | _, _ => none
    else none
  else none

end Names

/-! ## Protected releases -/

/-- `[0-9A-Za-z._-]` -/
def isSafe (char : Char) : Bool :=
  char.isAlphanum || char == '.' || char == '_' || char == '-'

/-- `clean_release` -/
def cleanRelease (value : List Char) : List Char :=
  if (strip value).all isSafe then strip value else []

/-- The protected release of a host of the inventory. -/
def PxeHost.release (host : PxeHost) : List Char :=
  if (cleanRelease host.rootfsRelease).isEmpty then cleanRelease host.tftpRelease
  else cleanRelease host.rootfsRelease

/-- `^[0-9A-Fa-f]{8}$` -/
def isBoardHash (name : List Char) : Bool :=
  let whole := beforeLineEnd name
  whole.length = 8 && whole.all fun char =>
    char.isDigit || ('A' ≤ char && char ≤ 'F') || ('a' ≤ char && char ≤ 'f')

/-- `/gentoo/([^/\s,]+)/nfs(?:[\s,]|$)` at the beginning of a text: the release and the
length of the match. -/
def rootArgAt (text : List Char) : Option (List Char × Nat) :=
  let release := (text.drop 8).takeWhile fun char =>
    char != '/' && !isSpace char && char != ','
  let after := text.drop (8 + release.length)
  if "/gentoo/".toList.isPrefixOf text && !release.isEmpty && "/nfs".toList.isPrefixOf after then
    match after.drop 4 with
    | [] => some (release, 12 + release.length)
    | char :: _ =>
        if isSpace char || char == ',' then some (release, 13 + release.length) else none
  else none

/-- The releases that a `cmdline.txt` names. -/
def rootArgs (text : List Char) : List (List Char) :=
  findAll rootArgAt 0 text

section Sources

variable (settings : Settings) (host : Host)

def boards : List Board :=
  (host.tftpRoot.getD []).filter fun board => isBoardHash board.name

/-- The texts of the files that were read. -/
def readCmdlines : List (List Char) :=
  (boards host).filterMap fun board =>
    (board.cmdline.filter fun cmdline => cmdline.isFile && cmdline.opens).map Cmdline.text

/-- `protected`, before empty names are left out. -/
def protectedNames : List (List Char) :=
  settings.explicitProtected.map cleanRelease ++ [cleanRelease settings.gentooRelease] ++
    settings.pxeHosts.map PxeHost.release ++
      (readCmdlines host).flatMap fun text => (rootArgs text).map cleanRelease

def isProtected (name : List Char) : Bool :=
  !name.isEmpty && (protectedNames settings host).contains name

/-! ## Mounts -/

/-- A mount point in the mount table. -/
def mangle (name : List Char) : List Char :=
  name.flatMap fun char =>
    if char = ' ' then "\\040".toList
    else if char = '\t' then "\\011".toList
    else if char = '\n' then "\\012".toList
    else if char = '\\' then "\\134".toList
    else [char]

def MountLine.text (mount : MountLine) : List Char :=
  mount.source ++ ' ' :: (mangle mount.point ++ ' ' :: (mount.rest ++ ['\n']))

/-- `/proc/mounts` -/
def mountTable : List Char :=
  host.mounts.flatMap MountLine.text

/-- The line ends of a file that is opened as text. -/
def universalNewlines : List Char → List Char
  | '\r' :: '\n' :: rest => '\n' :: universalNewlines rest
  | '\r' :: rest => '\n' :: universalNewlines rest
  | char :: rest => char :: universalNewlines rest
  | [] => []

/-- `replace("\\040", " ")` -/
def replaceBlanks : List Char → List Char
  | '\\' :: '0' :: '4' :: '0' :: rest => ' ' :: replaceBlanks rest
  | char :: rest => char :: replaceBlanks rest
  | [] => []

/-- `mount_points` -/
def mountPoints : List (List Char) :=
  if host.mountsOpen then
    ((universalNewlines (mountTable host)).splitOn '\n').filterMap fun line =>
      match words line with
      | _ :: point :: _ => some (replaceBlanks point)
      | _ => none
  else []

def releasePath (name : List Char) : List Char :=
  "/srv/gentoo/".toList ++ name

/-- Whether a mount point is a path or below it. -/
def isUnder (path point : List Char) : Bool :=
  point == path || (path ++ ['/']).isPrefixOf point

/-- `has_mount_under` -/
def hasMountUnder (path : List Char) : Bool :=
  (mountPoints host).any (isUnder path)

/-! ## The run -/

/-- Why a release is kept. -/
inductive Reason where
  | generationRank (rank : Nat)
  | releaseAge (days least : Int)
  | isProtected
  | mounted
deriving DecidableEq

def ageDays (release : Release) : Int :=
  host.today.toordinal - release.date.toordinal

/-- `reasons` -/
def reasons (release : Release) (rank : Nat) : List Reason :=
  (if rank ≤ settings.keepGenerations then [.generationRank rank] else []) ++
    (if 0 < settings.minReleaseAgeDays ∧ ageDays host release < settings.minReleaseAgeDays
      then [.releaseAge (ageDays host release) settings.minReleaseAgeDays] else []) ++
    (if isProtected settings host release.name then [.isProtected] else []) ++
    if hasMountUnder host (releasePath release.name) then [.mounted] else []

def releases : List Release :=
  host.entries.filterMap (readRelease host.decimal)

/-- The releases of a variant, the newest first, with their ranks. -/
def rankedVariant (variant : List Char) : List (Release × Nat) :=
  (greatestFirst Release.key
    ((releases host).filter fun release => release.variant = variant)).zipIdx 1

def variants : List (List Char) :=
  ((releases host).map Release.variant).dedup.insertionSort (· ≤ ·)

/-- The releases in the order in which the loop comes to them. -/
def ranked : List (Release × Nat) :=
  (variants host).flatMap (rankedVariant host)

/-- What is left after a run: the directory, what was deleted, and whether the script
ended without an error. -/
structure Outcome where
  entries : List RootEntry
  deleted : List (List Char)
  succeeded : Bool
deriving DecidableEq

/-- The loop over the releases; `rmtree` refuses a symbolic link. -/
def pruneLoop : List (Release × Nat) → Outcome → Outcome
  | [], outcome => outcome
  | (release, rank) :: rest, outcome =>
      if !(reasons settings host release rank).isEmpty then pruneLoop rest outcome
      else if settings.apply then
        if release.isSymlink then { outcome with succeeded := false }
        else pruneLoop rest
          { outcome with
            entries := outcome.entries.filter fun entry => entry.name ≠ release.name
            deleted := outcome.deleted ++ [release.name] }
      else pruneLoop rest outcome

/-- The tasks of `rootfs_prune.yml`. -/
def prune : Outcome :=
  let untouched : Outcome := ⟨host.entries, [], false⟩
  if 1 ≤ settings.keepGenerations ∧ 0 ≤ settings.minReleaseAgeDays then
    if settings.apply && settings.confirm != settings.confirmValue then untouched
    else if host.rootIsDir then
      pruneLoop settings host (ranked host) { untouched with succeeded := true }
    else untouched
  else untouched

end Sources

end HomeclusterInfra.Tftp.Prune
