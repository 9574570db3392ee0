import HomeclusterInfra.Library.Awk
import HomeclusterInfra.Library.HexGroups
import Mathlib.Data.Rat.Defs

/-!
# The receipt of a Terraform apply

`k3s-observability-apply.sh` writes a receipt of seven lines when Terraform is through,
and a later run reads it: in the same boot and with the same bundle it skips, otherwise it
refuses. `k3s_terraform_apply_receipt_status.py` reads the receipt as well.

The revisions come from marker files of the bundle. `grep` checks their form, and it is
content with one line of that form among others. So a revision may have more lines than
one, and so has the receipt then.
-/

set_option autoImplicit false

namespace HomeclusterInfra.K3sObservability.ApplyReceipt

open Text Shell Awk HexGroups

/-! ## Texts -/

/-- The lines that `grep` reads of `printf '%s\n'`. -/
def linesOf (text : List Char) : List (List Char) :=
  text.splitOn '\n'

/-- `grep -Eq` for a form of whole lines. -/
def grepLine (accepts : List Char → Bool) (text : List Char) : Bool :=
  (linesOf text).any accepts

/-- `sed -n 'Np'`, none where there is no such line. -/
def sedLine (number : Nat) (text : List Char) : Option (List Char) :=
  (records text)[number - 1]?

/-- `grep -Fqx` with a pattern, each line of which is a text to be found. -/
def grepFixed (pattern : List Char) (line : Option (List Char)) : Bool :=
  line.any fun found => (linesOf pattern).contains found

/-- `$(printf '%s' text | cut -c1-12)` -/
def cut12 (text : List Char) : List Char :=
  captured (unlines ((records text).map (List.take 12)))

/-- `^[0-9a-f]{40}$` -/
def isRevision (line : List Char) : Bool :=
  isHexGroups [40] line

/-- `^[0-9a-f]{12}-[0-9a-f]{12}$` -/
def isBundleId (line : List Char) : Bool :=
  isHexGroups [12, 12] line

/-- `^[0-9a-f]{8}(-[0-9a-f]{4}){3}-[0-9a-f]{12}$` -/
def isBootId (line : List Char) : Bool :=
  isHexGroups [8, 4, 4, 4, 12] line

/-- What the kernel shows as the identity of a boot. -/
abbrev BootId : Type :=
  {text : List Char // isBootId text = true}

/-! ## Bundles -/

/-- The files of the staged bundle that the script reads, an empty one where none is. -/
structure Staged where
  linksResolve : Bool
  infraBundleId : List Char
  siteInputBundleId : List Char
  infraRevision : List Char
  siteInputInfraRevision : List Char
  siteInputInventoryRevision : List Char
  liveContract : List Char
  stagedContract : List Char

/-- What the script takes a bundle for. -/
structure Identity where
  bundleId : List Char
  infraRevision : List Char
  inventoryRevision : List Char
deriving DecidableEq

/-- `[:space:]` -/
def isBlank (char : Char) : Bool :=
  char = ' ' || (9 ≤ char.toNat && char.toNat ≤ 13)

/-- `read_contract_version` -/
def readContractVersion (content : List Char) : Option (List Char) :=
  let version := captured (((records content).headD []).filter fun char => !isBlank char)
  if content.isEmpty || version.isEmpty then none else some version

/-- The identity of the two revisions. -/
def expectedBundleId (infraRevision inventoryRevision : List Char) : List Char :=
  captured (cut12 infraRevision ++ '-' :: cut12 inventoryRevision)

/-- The checks of the bundle. -/
def readBundle (staged : Staged) : Option Identity :=
  let identity : Identity := ⟨captured staged.infraBundleId, captured staged.infraRevision,
    captured staged.siteInputInventoryRevision⟩
  if !staged.linksResolve then none
  else if staged.infraBundleId.isEmpty || staged.siteInputBundleId.isEmpty ||
      staged.infraRevision.isEmpty || staged.siteInputInfraRevision.isEmpty ||
      staged.siteInputInventoryRevision.isEmpty then none
  else if identity.bundleId != captured staged.siteInputBundleId then none
  else if identity.infraRevision != captured staged.siteInputInfraRevision then none
  else if !grepLine isRevision identity.infraRevision ||
      !grepLine isRevision identity.inventoryRevision then none
  else if identity.bundleId !=
      expectedBundleId identity.infraRevision identity.inventoryRevision then none
  else if (readContractVersion staged.liveContract).isNone ||
      readContractVersion staged.liveContract != readContractVersion staged.stagedContract then none
  else some identity

/-- The markers are as they were. -/
def Staged.still (staged : Staged) (identity : Identity) : Bool :=
  captured staged.infraBundleId == identity.bundleId &&
    captured staged.siteInputBundleId == identity.bundleId &&
    captured staged.infraRevision == identity.infraRevision &&
    captured staged.siteInputInfraRevision == identity.infraRevision &&
    captured staged.siteInputInventoryRevision == identity.inventoryRevision

/-! ## The receipt -/

def schemaLine : List Char :=
  "SCHEMA=homecluster-terraform-apply-receipt-v1".toList

def scopeLine : List Char :=
  "SCOPE=terraform_apply_success_not_helm_state_attested".toList

/-- The lines that are printed. -/
def receiptLines (bootId : BootId) (identity : Identity) (epoch : Nat) : List (List Char) :=
  [schemaLine, scopeLine, "BOOT_ID=".toList ++ bootId.val,
    "BUNDLE_ID=".toList ++ identity.bundleId,
    "INFRA_REVISION=".toList ++ identity.infraRevision,
    "INVENTORY_REVISION=".toList ++ identity.inventoryRevision,
    "APPLIED_AT_EPOCH=".toList ++ natText epoch]

def receiptText (bootId : BootId) (identity : Identity) (epoch : Nat) : List Char :=
  unlines (receiptLines bootId identity epoch)

/-- `^APPLIED_AT_EPOCH=[0-9]{1,16}$` -/
def isEpochLine (line : List Char) : Bool :=
  let digits := line.drop 17
  "APPLIED_AT_EPOCH=".toList.isPrefixOf line && !digits.isEmpty && digits.length ≤ 16 &&
    digits.all Char.isDigit

/-- The completion receipt matches the boot and the bundle. -/
def matchesReceipt (bootId : BootId) (identity : Identity) (content : List Char) : Bool :=
  content.length ≤ 1024 && content.count '\n' = 7 &&
    grepFixed schemaLine (sedLine 1 content) && grepFixed scopeLine (sedLine 2 content) &&
    grepFixed ("BOOT_ID=".toList ++ bootId.val) (sedLine 3 content) &&
    grepFixed ("BUNDLE_ID=".toList ++ identity.bundleId) (sedLine 4 content) &&
    grepFixed ("INFRA_REVISION=".toList ++ identity.infraRevision) (sedLine 5 content) &&
    grepFixed ("INVENTORY_REVISION=".toList ++ identity.inventoryRevision) (sedLine 6 content) &&
    (sedLine 7 content).any fun line => grepLine isEpochLine line

/-! ## Runs -/

/-- What stands at the path of the receipt. -/
inductive DoneMarker where
  | absent
  /-- No regular file, or one of another owner or mode. -/
  | foreign
  | receipt (content : List Char)
deriving DecidableEq

/-- What a run meets. A kill after the receipt was moved into place changes nothing more, and is
left out. -/
structure Run where
  staged : Staged
  bootId : BootId
  /-- Everything up to the last Terraform run succeeds. -/
  applies : Bool
  stagedAfter : Staged
  /-- `date +%s` -/
  epoch : Nat
  writes : Bool

inductive Outcome where
  | failed
  | skipped
  | applied
deriving DecidableEq

/-- What is written at the end. -/
def publish (run : Run) (identity : Identity) : Option (List Char) :=
  if !grepLine isBundleId identity.bundleId then none
  else if !grepLine isRevision identity.infraRevision then none
  else if !run.stagedAfter.still identity then none
  else if !grepLine isBootId run.bootId.val then none
  else if run.writes then some (receiptText run.bootId identity run.epoch)
  else none

/-- `k3s-observability-apply.sh` -/
def apply (run : Run) (marker : DoneMarker) : Outcome × DoneMarker :=
  match readBundle run.staged with
  | none => (.failed, marker)
  | some identity =>
      match marker with
      | .absent =>
          if !run.applies then (.failed, marker)
          else
            match publish run identity with
            | none => (.failed, marker)
            | some content => (.applied, .receipt content)
      | .foreign => (.failed, marker)
      | .receipt content =>
          if matchesReceipt run.bootId identity content then (.skipped, marker)
          else (.failed, marker)

/-! ## The observer -/

/-- The clocks that the observer reads, and the time of the file. -/
structure Readings where
  uptime : Rat
  now : Rat
  mtime : Rat

def fieldNames : List (List Char) :=
  ["SCHEMA".toList, "SCOPE".toList, "BOOT_ID".toList, "BUNDLE_ID".toList,
    "INFRA_REVISION".toList, "INVENTORY_REVISION".toList, "APPLIED_AT_EPOCH".toList]

/-- The value of a field in its line. -/
def readField (name line : List Char) : Option (List Char) :=
  let start := name ++ ['=']
  if start.isPrefixOf line && !(line.drop start.length).isEmpty && line.length ≤ 160 then
    some (line.drop start.length)
  else none

/-- `_read` -/
def readReceipt (raw : List Char) : Option (List (List Char)) :=
  if raw.isEmpty || 1024 < raw.length then none
  else if raw.getLast? != some '\n' || raw.contains '\r' || raw.contains '\x00' then none
  else if !(raw.dropLast.all fun char => char.toNat < 128) then none
  else if (raw.dropLast.splitOn '\n').length != fieldNames.length then none
  else (fieldNames.zip (raw.dropLast.splitOn '\n')).mapM fun entry => readField entry.1 entry.2

/-- The times of a receipt and of its file are plausible. They are exact here, where the observer
adds floats. -/
def isTimely (readings : Readings) (applied : Nat) : Bool :=
  readings.now - readings.uptime - 2 ≤ applied && applied ≤ readings.mtime + 2 &&
    readings.mtime + 2 ≤ readings.now + 4 && |readings.mtime - applied| ≤ 30

/-- The uptime and the clock that are believed. -/
def isPlausible (readings : Readings) : Bool :=
  0 ≤ readings.uptime && readings.uptime ≤ 5 * 365 * 86400 && readings.uptime < readings.now

/-- `datetime.fromtimestamp` has no later years than 9999. -/
def isRepresentable (time : Rat) : Bool :=
  time < 253402300800

/-- `snapshot`: the identity of the receipt and its time, where the status is partial. -/
def snapshot (bootId : BootId) (readings : Readings) (raw : List Char) : Option (Identity × Nat) :=
  if !isPlausible readings then none
  else
    match readReceipt raw with
    | some [schema, scope, boot, bundle, infra, inventory, epoch] =>
        if schema != "homecluster-terraform-apply-receipt-v1".toList ||
            scope != "terraform_apply_success_not_helm_state_attested".toList ||
            boot != bootId.val || !isBundleId bundle || !isRevision infra ||
            !isRevision inventory || bundle != infra.take 12 ++ '-' :: inventory.take 12 then none
        else if !epoch.all Char.isDigit || 16 < epoch.length then none
        else if !isTimely readings (digitsValue epoch) then none
        else if !isRepresentable (digitsValue epoch) || !isRepresentable readings.now then none
        else some (⟨bundle, infra, inventory⟩, digitsValue epoch)
    | _ => none

end HomeclusterInfra.K3sObservability.ApplyReceipt
