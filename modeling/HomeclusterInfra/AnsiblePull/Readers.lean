import HomeclusterInfra.AnsiblePull.Wrapper
import HomeclusterInfra.Library.Checked
import HomeclusterInfra.Library.Rounding

/-!
# The readers of a run

Three programs on a booted node read what the wrapper left: the receipts of pinned runs, the
receipts of observed checkouts, and the state of the last run. Each compares the files with one
another and with the time of the boot.
-/

set_option autoImplicit false

namespace HomeclusterInfra.AnsiblePull

open Text Checked Assignments PxeReceipt Binary64

/-! ## Files -/

/-- What a value of a receipt may be. -/
def isShort (value : List Char) : Bool :=
  value ≠ [] && value.length ≤ 128

/-- `_read_env`, of files that are regular and private. One reader refuses an empty file
itself. -/
def readEnv (refusesEmpty : Bool) (fields : List (List Char)) :
    Option File → Except String (List Entry × Rat)
  | none => .error "receipt_missing"
  | some file =>
      if (refusesEmpty && file.text = []) || 2048 < file.text.length ||
          file.text.any (128 ≤ ·.toNat) then .error "receipt_invalid"
      else
        match read fields isShort file.text with
        | none => .error "receipt_invalid"
        | some parsed => .ok (parsed, file.mtime)

def value (parsed : List Entry) (key : String) : List Char :=
  (parsed.lookup key.toList).getD []

/-- `STATE_FIELDS` -/
def stateFields : List (List Char) :=
  ["ROLE", "STAGE", "BRANCH", "RC", "ELAPSED_SECS", "STEP"].map String.toList

def executionFields : List (List Char) :=
  ["SCHEMA", "EVIDENCE_SCOPE", "ROLE", "STAGE", "BRANCH", "BOOT_ID", "BUILD_ID", "PIN_REVISION",
    "DECLARATION_SHA256", "CHECKOUT_HEAD_AFTER_SUCCESS", "RECORDED_AT_EPOCH"].map String.toList

def postPullFields : List (List Char) :=
  ["SCHEMA", "ROLE", "STAGE", "BRANCH", "BOOT_ID", "CHECKOUT_HEAD_AFTER_SUCCESS",
    "RECORDED_AT_EPOCH"].map String.toList

/-! ## Times -/

/-- What a reader knows of the boot. -/
structure Boot where
  bootId : List Char
  epoch : Rat
  now : Rat

def timesAgree (boot : Boot) (statusTime receiptTime : Rat) (recorded : Nat) : Bool :=
  minus boot.epoch 2 ≤ statusTime && statusTime ≤ receiptTime &&
    receiptTime ≤ nearest (boot.now + 2) && minus boot.epoch 2 ≤ recorded &&
    recorded ≤ nearest (boot.now + 2) && |minus (nearest recorded) receiptTime| ≤ 30 &&
    minus receiptTime statusTime ≤ 30

/-- A time in seconds, as it is reported. -/
def timeText (seconds : Rat) : Option (List Char) :=
  (isoFormat seconds).map fun text => text.take (text.length - 6) ++ ['Z']

/-- The time of a receipt, if it agrees with the files. -/
def recordedAt (boot : Boot) (statusTime receiptTime : Rat) (epoch : List Char) :
    Except String (List Char) := do
  require (isEpoch epoch && epoch.length ≤ 16) "receipt_time_invalid"
  require (timesAgree boot statusTime receiptTime (digitsValue epoch)) "receipt_time_invalid"
  (timeText (digitsValue epoch)).elim (.error "receipt_time_invalid") .ok

/-! ## Roles -/

/-- What both receipts and the state of a role have in common. -/
def rolesAgree (role : List Char) (boot : Boot) (receipt status : List Entry) : Bool :=
  value receipt "SCHEMA" = ['1'] && value receipt "ROLE" = role && value status "ROLE" = role &&
    isStaging (value receipt "STAGE") && value status "STAGE" = value receipt "STAGE" &&
    value receipt "BRANCH" = "stg".toList && value status "BRANCH" = "stg".toList &&
    value receipt "BOOT_ID" = boot.bootId &&
    isHex 40 (value receipt "CHECKOUT_HEAD_AFTER_SUCCESS") && value status "RC" = ['0'] &&
    value status "STEP" = "complete".toList && isEpoch (value status "ELAPSED_SECS")

/-- The pin of a receipt is well formed, and the checkout was there. -/
def pinAgrees (receipt : List Entry) : Bool :=
  value receipt "EVIDENCE_SCOPE" = evidenceScope && isBuildId (value receipt "BUILD_ID") &&
    isHex 40 (value receipt "PIN_REVISION") && isHex 64 (value receipt "DECLARATION_SHA256") &&
    value receipt "PIN_REVISION" = value receipt "CHECKOUT_HEAD_AFTER_SUCCESS"

structure ExecutionReport where
  buildId : List Char
  pinRevision : List Char
  declarationSha256 : List Char
  recordedAt : List Char
deriving DecidableEq

/-- `_read_role` of `pxe_pinned_execution_status.py` -/
def readExecution (files : Directory) (boot : Boot) (role : List Char) :
    Except String ExecutionReport := do
  let receipt ← readEnv true executionFields (files (role ++ ".pinned-execution.env".toList))
  let status ←
    (readEnv true stateFields (files (role ++ ".env".toList))).mapError ("role_state_" ++ ·)
  require (rolesAgree role boot receipt.1 status.1 && pinAgrees receipt.1)
    "receipt_identity_or_status_mismatch"
  let text ← recordedAt boot status.2 receipt.2 (value receipt.1 "RECORDED_AT_EPOCH")
  pure ⟨value receipt.1 "BUILD_ID", value receipt.1 "PIN_REVISION",
    value receipt.1 "DECLARATION_SHA256", text⟩

structure CheckoutReport where
  checkoutHeadAfterSuccess : List Char
  recordedAt : List Char
deriving DecidableEq

/-- `_read_role` of `pxe_post_pull_receipt_status.py` -/
def readCheckout (files : Directory) (boot : Boot) (role : List Char) :
    Except String CheckoutReport := do
  let receipt ← readEnv false postPullFields (files (role ++ ".post-pull.env".toList))
  let status ←
    (readEnv false stateFields (files (role ++ ".env".toList))).mapError ("role_state_" ++ ·)
  require (rolesAgree role boot receipt.1 status.1) "receipt_identity_or_status_mismatch"
  let text ← recordedAt boot status.2 receipt.2 (value receipt.1 "RECORDED_AT_EPOCH")
  pure ⟨value receipt.1 "CHECKOUT_HEAD_AFTER_SUCCESS", text⟩

/-- `ROLES` -/
def roles : List (List Char) :=
  ["base", "workstation_cli", "k3s_stg_storage", "k3s_stg_server", "k3s_stg_agent",
    "terraform_stg"].map String.toList

/-! ## Snapshots -/

/-- What a snapshot is taken from. -/
structure Readings where
  /-- The stripped texts of the boot id, before and after. -/
  firstBoot : Option (List Char)
  secondBoot : Option (List Char)
  uptime : Option Rat
  now : Rat

/-- `snapshot`: the reports of all roles, of one boot. -/
def snapshot {α : Type} (readings : Readings) (readRole : Boot → List Char → Except String α) :
    Except String (List (List Char × Except String α)) :=
  match readings.firstBoot, readings.uptime with
  | some first, some uptime =>
      if !isBootId first || uptime < 0 || 5 * 365 * 86400 < uptime || readings.now ≤ uptime then
        .error "boot_identity_invalid"
      else
        let boot : Boot := ⟨first, minus readings.now uptime, readings.now⟩
        let reports := roles.map fun role => (role, readRole boot role)
        if readings.secondBoot ≠ some first then .error "boot_identity_changed"
        else if (timeText readings.now).isNone then .error "observation_time_invalid"
        else .ok reports
  | _, _ => .error "boot_identity_unavailable"

/-! ## The last run -/

inductive PullState where
  | unknown
  | completed
  | notCompleted
deriving DecidableEq

/-- A value of the state, in `pxe_node_lineage_status.py`. -/
def isPlainValue (text : List Char) : Bool :=
  !text.contains '\x00' && text.length ≤ 128

/-- `_state` -/
def pullState (boot : Boot) : Option File → PullState
  | none => .unknown
  | some file =>
      if 2048 < file.text.length || file.mtime < minus boot.epoch 2 ||
          nearest (boot.now + 2) < file.mtime || file.text.any (128 ≤ ·.toNat) then .unknown
      else
        match read stateFields isPlainValue file.text with
        | none => .unknown
        | some parsed =>
            if !isStaging (value parsed "STAGE") || value parsed "BRANCH" ≠ "stg".toList ||
                !isEpoch (value parsed "RC") || !isEpoch (value parsed "ELAPSED_SECS") then .unknown
            else if value parsed "RC" = ['0'] ∧ value parsed "STEP" = "complete".toList then
              .completed
            else .notCompleted

end HomeclusterInfra.AnsiblePull
