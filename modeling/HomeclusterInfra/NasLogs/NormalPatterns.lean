import HomeclusterInfra.Library.Regex
import HomeclusterInfra.NasLogs.Sources

/-!
# Reviewed normal messages

The messages that are counted and not forwarded. A message is normal when its
body, after the optional time stamp and the kernel prefix, matches one of the
reviewed patterns of its log kind and its severity is not a warning. Unknown
messages and explicit warnings survive.
-/

set_option autoImplicit false

namespace HomeclusterInfra.NasLogs

open Regex Regex.Rx Text

/-- `RULE_VERSION` -/
def ruleVersion : String := "2026-11-05.2"

/-- `BAD_LEVELS` -/
def badLevels : List String :=
  ["warn", "warning", "error", "critical", "alert", "emerg"]

/-! ## Building blocks of the patterns -/

section Blocks

/-- A literal text. -/
def lit (text : String) : Rx Char :=
  .word text.toList

/-- `[0-9]` -/
def digit : Rx Char :=
  .symbol Char.isDigit

/-- `[0-9]+` -/
def digits : Rx Char :=
  .plus digit

/-- One of the characters of a text. -/
def among (text : String) : Rx Char :=
  .symbol text.toList.contains

/-- `[0-9A-Fa-f]` -/
def hexDigit : Rx Char :=
  among "0123456789ABCDEFabcdef"

/-- `\d` of a text pattern. -/
def decimal [UnicodeData] : Rx Char :=
  .symbol UnicodeData.isDecimal

/-- `\s` -/
def space : Rx Char :=
  .symbol isSpace

/-- `$`: the end, or a line feed before it. -/
def eol : Rx Char :=
  .look fun _ rest => rest.isEmpty || rest == ['\n']

/-- `\d{4}-\d{2}-\d{2} \d{2}:\d{2}:\d{2}`, with the separators of the date. -/
def timeStamp [UnicodeData] (separator : Rx Char) : Rx Char :=
  cat [exactly 4 decimal, separator, exactly 2 decimal, separator, exactly 2 decimal, lit " ",
    exactly 2 decimal, lit ":", exactly 2 decimal, lit ":", exactly 2 decimal]

/-- `PREFIX` -/
def prefixPattern [UnicodeData] : Rx Char :=
  cat [bol, timeStamp (lit "-"), lit " [",
    plus (symbol fun char => !("]\r\n".toList.contains char)), lit "] "]

/-- `KERNEL` -/
def kernelPattern : Rx Char :=
  cat [bol, lit "<", group 1 (among "01234567"), lit ">[", star space, digits, lit ".", digits,
    lit "] "]

end Blocks

/-! ## Rules -/

/-- `TEXT_RULES` -/
def textRules : List (Kind × String × Rx Char) :=
  [ (.storage, "raid_healthy",
      cat [lit "md_get_status: /dev/md", digits, lit " : status=0, progress=100.000000."]),
    (.storage, "disk_conf_ok", lit "NAS_Disk_Check_Conf: ret = 0, wwnP = (null)."),
    (.storage, "disk_conf_call",
      cat [lit "NAS_Disk_Check_Conf: got call with (0x", among "1234",
        lit ", /mnt/HDA_ROOT/.conf)."]),
    (.storage, "disk_conf_match",
      cat [lit "NAS_Disk_Check_Conf: HAL disk WWN(", group 1 (cat [lit "0x", among "1234"]),
        lit "): ", exactly 16 hexDigit, lit " match conf WWN, the last dev_id(", backref 1,
        lit ")!"]),
    (.storage, "volume_enumeration",
      cat [lit "Do_Get_Volume_Func: index = ", digits, lit ", count=", digits, lit "."]),
    (.hal, "device_lookup",
      cat [lit "PD_Get_Sys_Name: Retrieve pd_sys_name value from /etc/enclosure_", digits,
        lit ".conf!"]),
    (.sdmd, "device_enumeration",
      cat [lit "SDM: ",
        group 1 (oneOf [
          cat [lit "total enc = ", digits],
          cat [lit "scan ", digits, lit "th enc, total enc = ", digits],
          cat [lit "enc = ", digits, lit " is ", group 2 (optional (lit "not ")),
            lit "internal."],
          cat [lit "start predict enc = ", digits, lit " port = ", digits, lit " device"]])]),
    (.sdmd, "health_prediction_started", lit "SDM_Health_Predict:Start to predict sata disk"),
    (.kernel, "raid_selftest_ok",
      cat [lit "raid6test: ",
        group 1 (oneOf [
          cat [lit "test_disks(", digits, lit ", ", digits, lit "): faila=", star (lit " "),
            digits, lit "(", among "DPQ", lit ") ", star (lit " "), lit "failb=",
            star (lit " "), digits, lit "(", among "DPQ", lit ") ", star (lit " "), lit "OK"],
          cat [lit "complete (", digits, lit " tests, 0 failures)"]])]) ]

/-- `SMART` -/
def smartPattern : Rx Char :=
  cat [lit "id = ", group 1 digits, lit ", name = ",
    group 2 (plus (symbol fun char => char.isAlphanum || char = '_' || char = '-')),
    lit ", status_flag = 0x", plus (among "0123456789abcdef"), lit ", value = ", group 3 digits,
    lit ",worst = ", group 4 digits, lit ", thresh = ", group 5 digits, lit ",raw = ",
    group 6 digits]

/-- `ZERO_ATTRIBUTES` -/
def zeroAttributes : List (Nat × String) :=
  [ (5, "Retired_Block_Count"), (10, "Spin_Retry_Count"), (183, "Runtime_Bad_Block"),
    (184, "End-to-End_Error"), (187, "Reported_Uncorrect_Error"), (188, "Command_Timeout"),
    (189, "High_Fly_Writes"), (191, "G-Sense_Error_Rate"), (197, "Current_Pending_Sector"),
    (198, "Uncorrectable_Sector_Count"), (199, "SATA_R-Error_Count") ]

/-- `COUNTER_ATTRIBUTES` -/
def counterAttributes : List (Nat × String) :=
  [ (1, "Raw_Read_Error_Rate"), (3, "Spin_Up_Time"), (4, "Start_Stop_Count"),
    (7, "Seek_Error_Rate"), (9, "Power-On_Hours"), (12, "Power_Cycle_Count"),
    (192, "Power-Off_Retract_Count"), (193, "Load_Cycle_Count"), (195, "ECC_On-The-Fly_Error"),
    (240, "Head_Flying_Hours"), (241, "Total_LBA_Written"), (242, "Total_LBA_Read") ]

/-- The temperature attributes. -/
def temperatureAttributes : List (Nat × String) :=
  [ (190, "Airflow_Temperature_Cel"), (194, "Temperature_Celsius") ]

/-- `READ_COMMANDS + NEW_READ_COMMANDS` -/
def readCommands : List String :=
  [ "/sbin/lvs vg1/tp1 -o lv_attr --noheadings 2>>/dev/null | /bin/sed s/^[[:space:]]*// 2>>/dev/null",
    "/bin/df -k /share/CACHEDEV1_DATA 2>>/dev/null | /usr/bin/tail -n1 | /bin/awk -F ' ' '\x7bprint $(NF-2)\x7d'",
    "/sbin/lvs /dev/mapper/vg1-tp1 --unit S -o chunk_size --noheadings 2>>/dev/null | /bin/sed s/^[[:space:]]*// 2>>/dev/null",
    "/bin/df -k /share/CACHEDEV1_DATA 2>>/dev/null | /usr/bin/tail -n1 | /bin/awk -F ' ' '\x7bprint $(NF-3)\x7d'",
    "/sbin/vgs vg1 --unit S -o vg_size --noheadings 2>>/dev/null | /bin/sed s/^[[:space:]]*// 2>>/dev/null",
    "/sbin/vgs vg1 --unit S -o vg_free --noheadings 2>>/dev/null | /bin/sed s/^[[:space:]]*// 2>>/dev/null",
    "/sbin/lvs /dev/mapper/vg1-tp1 --unit S -o lv_size --noheadings 2>>/dev/null | /bin/sed s/^[[:space:]]*// 2>>/dev/null",
    "/sbin/lvs /dev/mapper/vg1-tp1 -o used_data_blocks --noheadings  2>>/dev/null | /bin/sed s/^[[:space:]]*//  2>>/dev/null",
    "/sbin/dmsetup info --noheadings --columns -o minor vg1-tp1-tpool 2>>/dev/null",
    "/sbin/vgs vg1 -o vg_extent_size --noheadings 2>>/dev/null  | /bin/sed s/^[[:space:]]*//  2>>/dev/null",
    "/sbin/lvs -a /dev/mapper/vg1-tp1_tmeta -o lv_size --unit S 2>>/dev/null | /bin/awk 'NR==2 \x7bprint $1\x7d' 2>>/dev/null" ]

/-- `READ_SUCCESS` -/
def readSuccess : List String :=
  readCommands.map fun command =>
    "Perform cmd \"" ++ command ++ "\" OK, cmd_rsp=0, reason code:0."

/-- `ENUM` -/
def enumPattern : Rx Char :=
  cat [lit "Volume_Enumerate_", group 1 (oneOf [lit "General", lit "Data"]),
    lit "_Volumes: got called with (0x", plus hexDigit, lit ", 772)."]

/-- `HD` -/
def hdPattern : Rx Char :=
  cat [lit "SystemHdTableEx_handler: hdindex=", among "1234", lit ", model=ST8000DM004-2CX188."]

/-- `BLK` -/
def blkPattern : Rx Char :=
  lit ("Blk_Dev_Generate_Mount_Point: mount point for \"/dev/mapper/cachedev1\" is " ++
    "\"/share/CACHEDEV1_DATA\", is_internal is 1.")

/-- `POOLSIZE` -/
def poolSizePattern : Rx Char :=
  cat [lit "Pool_TP_Get_Size: [Pool(1)] *lldatalP: ", group 1 digits, lit ", *llfreeP: ",
    group 2 digits, lit ", *llmetaP: ", group 3 digits, lit ", *llmeta_spareP: ",
    group 4 digits]

/-- `POOLFULL` -/
def poolFullPattern : Rx Char :=
  cat [lit "Pool_Is_Full: [Pool(1)] full: 0, *thin_lv_exist: 0, *snapshot_exist: 0, free_size: ",
    group 1 digits, lit ", limit: ", group 2 digits, lit "."]

/-- `LED` -/
def ledPattern : Rx Char :=
  cat [lit "GPIO_Set_NAS_Status_LED: event = 0x", oneOf [lit "1000", lit "2000"],
    lit ",status = 0, value = 0x0, formatting_count = 0"]

/-- The number a group captured. -/
def capturedNat (found : Position Char) (index : Nat) : Nat :=
  digitsValue (found.captured index)

/-! ## The decision -/

/-- The storage patterns after the text rules. -/
def storageNormal (body : List Char) : Option String :=
  if readSuccess.any (·.toList == body) then some "storage_read_success"
  else if (enumPattern.fullmatch body).isSome then some "storage_volume_enumerate"
  else if (hdPattern.fullmatch body).isSome then some "storage_system_hd_table_ex"
  else if (blkPattern.fullmatch body).isSome then some "storage_blk_dev_mount"
  else match poolSizePattern.fullmatch body with
    | some found =>
        let total := capturedNat found 1
        let free := capturedNat found 2
        let metaSize := capturedNat found 3
        let spare := capturedNat found 4
        if 0 < total && (0 < free && free ≤ total) && 0 < metaSize && spare = 0 then
          some "storage_pool_tp_get_size"
        else none
    | none =>
        match poolFullPattern.fullmatch body with
        | some found =>
            let free := capturedNat found 1
            let limit := capturedNat found 2
            if 0 < limit && limit < free then some "storage_pool_is_full" else none
        | none => none

/-- The hal patterns after the text rules. -/
def halNormal (body : List Char) : Option String :=
  if (ledPattern.fullmatch body).isSome then some "hal_gpio_led"
  else match smartPattern.fullmatch body with
    | none => none
    | some found =>
        let ident := capturedNat found 1
        let attributeName := String.ofList (found.captured 2)
        let value := capturedNat found 3
        let worst := capturedNat found 4
        let threshold := capturedNat found 5
        let raw := capturedNat found 6
        if value ≤ threshold || (0 < threshold && worst ≤ threshold) then none
        else if zeroAttributes.lookup ident == some attributeName && raw = 0 then
          some "smart_counter_zero"
        else if counterAttributes.lookup ident == some attributeName then
          some "smart_attribute_healthy"
        else if temperatureAttributes.contains (ident, attributeName) &&
            (1 ≤ raw % 256 && raw % 256 ≤ 50) then
          some "smart_temperature_normal"
        else none

/-- The body of a message without its time stamp. -/
def stripPrefix [UnicodeData] (message : List Char) : List Char :=
  match prefixPattern.matchPrefix message with
  | some found => found.rest
  | none => message

/-- The body of a kernel message without its native prefix; nothing when the
native severity is a warning or worse. -/
def kernelBody (body : List Char) : Option (List Char) :=
  match kernelPattern.matchPrefix body with
  | some found => if capturedNat found 1 ≤ 4 then none else some found.rest
  | none => some body

/-- The reviewed pattern a body matches. -/
def bodyPattern (kind : Kind) (body : List Char) : Option String :=
  match textRules.find? fun rule => rule.1 = kind && (rule.2.2.fullmatch body).isSome with
  | some rule => some rule.2.1
  | none =>
      match kind with
      | .storage => storageNormal body
      | .hal => halNormal body
      | _ => none

/-- `normal_pattern`, for the kinds of `SOURCES`. -/
def normalPattern [UnicodeData] (kind : Kind) (message : List Char) (level : String) :
    Option String :=
  if badLevels.contains level then none
  else
    let body := stripPrefix message
    if kind = .kernel then (kernelBody body).bind (bodyPattern kind)
    else bodyPattern kind body

/-! ## The numerals that are converted -/

/-- `int` reads what the groups captured: a numeral may have 4300 digits. -/
def readsNumbers (found : Position Char) (groups : List Nat) : Bool :=
  groups.all fun index => (found.captured index).length ≤ 4300

/-- The conversions of the storage patterns succeed. -/
def storageReads (body : List Char) : Bool :=
  if readSuccess.any (·.toList == body) || (enumPattern.fullmatch body).isSome ||
      (hdPattern.fullmatch body).isSome || (blkPattern.fullmatch body).isSome then true
  else match poolSizePattern.fullmatch body with
    | some found => readsNumbers found [1, 2, 3, 4]
    | none =>
        match poolFullPattern.fullmatch body with
        | some found => readsNumbers found [1, 2]
        | none => true

/-- The conversions of the hal patterns succeed. -/
def halReads (body : List Char) : Bool :=
  if (ledPattern.fullmatch body).isSome then true
  else match smartPattern.fullmatch body with
    | some found => readsNumbers found [1, 3, 4, 5, 6]
    | none => true

/-- `normal_pattern` returns, with a name or without. -/
def patternReads [UnicodeData] (kind : Kind) (message : List Char) (level : String) : Bool :=
  let body := stripPrefix message
  if badLevels.contains level || (textRules.any fun rule =>
      rule.1 = kind && (rule.2.2.fullmatch body).isSome) then true
  else
    match kind with
    | .storage => storageReads body
    | .hal => halReads body
    | _ => true

end HomeclusterInfra.NasLogs
