import HomeclusterInfra.Library.ByteOrder
import HomeclusterInfra.Library.Checked

/-!
# The validator of packet captures

The capture tool on the router reads a closed capture file back before it
publishes it: the header of the classic format in either byte order, then
records whose length fields stand in the file itself. The validator accepts
exactly the texts of the captures it describes. A short read anywhere is told
apart from the end of the file, and a capture of a thousand full packets is
just as long as the size limit allows.
-/

set_option autoImplicit false

namespace HomeclusterInfra.SecurityCapture

open Checked

/-! ## The validator -/

/-- The size of a capture of a thousand full packets. -/
def limit : Nat :=
  24 + 1000 * (16 + 65535)

/-- What the validator reports of a capture. -/
structure PcapReport where
  sizeBytes : Nat
  packetCount : Nat
  truncatedPacketCount : Nat
  snaplen : Nat
  linktype : Nat
  pcapSha256 : List Char
deriving DecidableEq

/-- The byte order that the magic value selects. -/
def endian (magic : List UInt8) : Option ByteOrder :=
  [([0xd4, 0xc3, 0xb2, 0xa1], .little), ([0xa1, 0xb2, 0xc3, 0xd4], .big),
    ([0x4d, 0x3c, 0xb2, 0xa1], .little), ([0xa1, 0xb2, 0x3c, 0x4d], ByteOrder.big)].lookup magic

/-- The loop over the records: the numbers of all and of the truncated packets. -/
def readRecords (order : ByteOrder) (snaplen : Nat) (rest : List UInt8) (count truncated : Nat) :
    Except String (Nat × Nat) :=
  if _ended : rest = [] then .ok (count, truncated)
  else if (rest.take 16).length ≠ 16 then .error "pcap_record_header"
  else
    match order.unpackFields [4, 4, 4, 4] (rest.take 16) with
    | [_, _, included, original] =>
        if included > snaplen ∨ included > original ∨
            ((rest.drop 16).take included).length ≠ included then
          .error "pcap_record_length"
        else if count + 1 > 1000 then .error "pcap_packet_limit"
        else
          readRecords order snaplen ((rest.drop 16).drop included) (count + 1)
            (truncated + (decide (included < original)).toNat)
    -- Four fields were read.
    | _ => .error "unpack"
termination_by rest.length
decreasing_by
  have positive := List.length_pos_of_ne_nil _ended
  simp only [List.length_drop]
  omega

/-- `pcap`, on a file with a content. -/
def pcap (digest : List UInt8 → List Char) (content : List UInt8) : Except String PcapReport :=
  if content.length < 24 ∨ content.length > limit then .error "pcap_size"
  else
    match endian ((content.take 24).take 4) with
    | none => .error "pcap_magic"
    | some order =>
        match order.unpackFields [2, 2, 4, 4, 4, 4] ((content.take 24).drop 4) with
        | [major, minor, _, _, snaplen, linktype] =>
            if (major, minor) ≠ (2, 4) ∨ snaplen ≠ 65535 then .error "pcap_header"
            else
              (readRecords order snaplen (content.drop 24) 0 0).map fun counts =>
                { sizeBytes := content.length
                  packetCount := counts.1
                  truncatedPacketCount := counts.2
                  snaplen := snaplen
                  linktype := linktype
                  pcapSha256 := digest content }
        -- Six fields were read.
        | _ => .error "unpack"

/-! ## Captures -/

/-- A record: the time, the packet as far as it was kept, and its length on the
wire. -/
structure Record where
  seconds : UInt32
  fraction : UInt32
  packet : List UInt8
  original : UInt32
  within_snaplen : packet.length ≤ 65535
  within_original : packet.length ≤ original.toNat

/-- Whether a record holds less than the packet had. -/
def Record.isTruncated (record : Record) : Bool :=
  record.packet.length < record.original.toNat

/-- The header of a record. -/
def Record.fields (record : Record) : List (Nat × Nat) :=
  [(4, record.seconds.toNat), (4, record.fraction.toNat), (4, record.packet.length),
    (4, record.original.toNat)]

/-- The bytes of a record. -/
def Record.encode (order : ByteOrder) (record : Record) : List UInt8 :=
  order.packFields record.fields ++ record.packet

/-- The bytes of records. -/
def encodeRecords (order : ByteOrder) (records : List Record) : List UInt8 :=
  records.flatMap (Record.encode order)

/-- What the fraction of a second is counted in. -/
inductive Resolution where
  | microseconds
  | nanoseconds
deriving DecidableEq, Repr

/-- The four magic values. -/
def magic : ByteOrder → Resolution → List UInt8
  | .little, .microseconds => [0xd4, 0xc3, 0xb2, 0xa1]
  | .big, .microseconds => [0xa1, 0xb2, 0xc3, 0xd4]
  | .little, .nanoseconds => [0x4d, 0x3c, 0xb2, 0xa1]
  | .big, .nanoseconds => [0xa1, 0xb2, 0x3c, 0x4d]

/-- A capture of at most a thousand records. -/
structure Capture where
  order : ByteOrder
  resolution : Resolution
  zone : UInt32
  accuracy : UInt32
  linktype : UInt32
  records : List Record
  few : records.length ≤ 1000

/-- The header of a capture behind its magic value: version 2.4 with the largest
snapshot length. -/
def Capture.fields (capture : Capture) : List (Nat × Nat) :=
  [(2, 2), (2, 4), (4, capture.zone.toNat), (4, capture.accuracy.toNat), (4, 65535),
    (4, capture.linktype.toNat)]

/-- The bytes of a capture. -/
def Capture.encode (capture : Capture) : List UInt8 :=
  magic capture.order capture.resolution ++ capture.order.packFields capture.fields ++
    encodeRecords capture.order capture.records

/-- What is to be reported of a capture. -/
def Capture.report (digest : List UInt8 → List Char) (capture : Capture) : PcapReport where
  sizeBytes := capture.encode.length
  packetCount := capture.records.length
  truncatedPacketCount := capture.records.countP Record.isTruncated
  snaplen := 65535
  linktype := capture.linktype.toNat
  pcapSha256 := digest capture.encode

/-! ## The records that are read -/

variable {order : ByteOrder} {rest : List UInt8} {count truncated : Nat}

theorem Record.fields_small (record : Record) :
    ∀ field ∈ record.fields, field.2 < 256 ^ field.1 := by
  intro field member
  simp only [Record.fields, List.mem_cons, List.not_mem_nil, or_false] at member
  rcases member with rfl | rfl | rfl | rfl
  · exact record.seconds.toNat_lt
  · exact record.fraction.toNat_lt
  · show record.packet.length < 4294967296
    have short := record.within_snaplen
    omega
  · exact record.original.toNat_lt

theorem Record.length_header (record : Record) :
    (order.packFields record.fields).length = 16 := by
  rw [ByteOrder.length_packFields]
  rfl

theorem Record.length_encode (record : Record) :
    (record.encode order).length = 16 + record.packet.length := by
  rw [Record.encode, List.length_append, record.length_header]

/-- What is read where a record stands. -/
theorem readRecords_encode (record : Record) (few : count < 1000) :
    readRecords order 65535 (record.encode order ++ rest) count truncated =
      readRecords order 65535 rest (count + 1)
        (truncated + record.isTruncated.toNat) := by
  have header : (record.encode order ++ rest).take 16 = order.packFields record.fields := by
    rw [Record.encode, List.append_assoc, List.take_left' record.length_header]
  have behind : (record.encode order ++ rest).drop 16 = record.packet ++ rest := by
    rw [Record.encode, List.append_assoc, List.drop_left' record.length_header]
  have fields : order.unpackFields [4, 4, 4, 4] (order.packFields record.fields) =
      [record.seconds.toNat, record.fraction.toNat, record.packet.length,
        record.original.toNat] := by
    have read := order.unpackFields_packFields record.fields_small []
    rwa [List.append_nil] at read
  have nonempty : record.encode order ++ rest ≠ [] := by
    refine List.ne_nil_of_length_pos ?_
    rw [List.length_append, record.length_encode]
    omega
  have whole : (record.packet ++ rest).take record.packet.length = record.packet :=
    List.take_left
  have after : (record.packet ++ rest).drop record.packet.length = rest :=
    List.drop_left
  have short := record.within_snaplen
  have included := record.within_original
  rw [readRecords, dif_neg nonempty, header, behind, if_neg (not_not.mpr record.length_header),
    fields]
  simp only [whole, after]
  rw [if_neg (by omega), if_neg (by omega)]
  rfl

/-- Header and packet that are let through are a record. -/
theorem exists_record {header packet : List UInt8} {seconds fraction included original : Nat}
    (length : header.length = 16)
    (fields : order.unpackFields [4, 4, 4, 4] header = [seconds, fraction, included, original])
    (short : included ≤ 65535) (within : included ≤ original) (whole : packet.length = included) :
    ∃ record : Record, record.encode order = header ++ packet ∧
      record.isTruncated = decide (included < original) := by
  have packed := @ByteOrder.packFields_unpackFields order [4, 4, 4, 4] header length
  have small := @ByteOrder.unpackFields_lt order [4, 4, 4, 4] header length
  rw [fields] at packed small
  simp only [List.zip_cons_cons, List.zip_nil_left, List.forall_mem_cons] at small
  obtain ⟨smallSeconds, smallFraction, -, smallOriginal, -⟩ := small
  subst whole
  have readSeconds : (UInt32.ofNat seconds).toNat = seconds :=
    UInt32.toNat_ofNat_of_lt' smallSeconds
  have readFraction : (UInt32.ofNat fraction).toNat = fraction :=
    UInt32.toNat_ofNat_of_lt' smallFraction
  have readOriginal : (UInt32.ofNat original).toNat = original :=
    UInt32.toNat_ofNat_of_lt' smallOriginal
  refine ⟨⟨UInt32.ofNat seconds, UInt32.ofNat fraction, packet, UInt32.ofNat original, short,
    readOriginal.symm ▸ within⟩, ?_, ?_⟩
  · show order.packFields [(4, (UInt32.ofNat seconds).toNat), (4, (UInt32.ofNat fraction).toNat),
      (4, packet.length), (4, (UInt32.ofNat original).toNat)] ++ packet = header ++ packet
    rw [readSeconds, readFraction, readOriginal]
    exact congrArg (· ++ packet) packed
  · show decide (packet.length < (UInt32.ofNat original).toNat) = _
    rw [readOriginal]

theorem encodeRecords_cons (record : Record) (records : List Record) :
    encodeRecords order (record :: records) =
      record.encode order ++ encodeRecords order records :=
  rfl

theorem countP_isTruncated_cons (record : Record) (records : List Record) :
    (record :: records).countP Record.isTruncated =
      record.isTruncated.toNat + records.countP Record.isTruncated := by
  rw [List.countP_cons, Nat.add_comm]
  cases record.isTruncated <;> rfl

/-- **Exactly the texts of records are read**, and they are counted. -/
theorem readRecords_eq_ok {counts : Nat × Nat} (few : count ≤ 1000) :
    readRecords order 65535 rest count truncated = .ok counts ↔
      ∃ records : List Record, rest = encodeRecords order records ∧
        count + records.length ≤ 1000 ∧
        counts = (count + records.length, truncated + records.countP Record.isTruncated) := by
  constructor
  · intro read
    fun_induction readRecords order 65535 rest count truncated with
    | case1 => exact ⟨[], rfl, few, (Except.ok.inj read).symm⟩
    | case2 | case3 | case4 | case6 => cases read
    | case5 rest count truncated _ length seconds fraction included original fields lengths room
        ih =>
        simp only [not_or, not_lt, not_not, gt_iff_lt] at lengths length room
        obtain ⟨record, text, kept⟩ :=
          exists_record length fields lengths.1 lengths.2.1 lengths.2.2
        obtain ⟨records, behind, fits, rfl⟩ := ih room read
        refine ⟨record :: records, ?_, ?_, ?_⟩
        · rw [encodeRecords_cons, text, ← behind, List.append_assoc, List.take_append_drop,
            List.take_append_drop]
        · rw [List.length_cons]
          omega
        · rw [countP_isTruncated_cons, List.length_cons, kept]
          refine Prod.ext ?_ ?_
          · show count + 1 + records.length = count + (records.length + 1)
            omega
          · exact Nat.add_assoc _ _ _
  · rintro ⟨records, rfl, fits, rfl⟩
    induction records generalizing count truncated with
    | nil =>
        rw [readRecords]
        rfl
    | cons record records ih =>
        rw [List.length_cons] at fits
        rw [encodeRecords_cons, readRecords_encode record (by omega), ih (by omega) (by omega),
          countP_isTruncated_cons, List.length_cons, Nat.add_assoc, Nat.add_comm 1,
          Nat.add_assoc truncated]

/-! ## The captures that are accepted -/

theorem endian_magic (order : ByteOrder) (resolution : Resolution) :
    endian (magic order resolution) = some order := by
  cases order <;> cases resolution <;> rfl

/-- Only the four magic values select a byte order. -/
theorem exists_magic {bytes : List UInt8} (selected : endian bytes = some order) :
    ∃ resolution, bytes = magic order resolution := by
  simp only [endian, List.lookup_cons, List.lookup_nil] at selected
  split at selected
  · next same =>
      cases selected
      exact ⟨.microseconds, beq_iff_eq.mp same⟩
  · split at selected
    · next same =>
        cases selected
        exact ⟨.microseconds, beq_iff_eq.mp same⟩
    · split at selected
      · next same =>
          cases selected
          exact ⟨.nanoseconds, beq_iff_eq.mp same⟩
      · split at selected
        · next same =>
            cases selected
            exact ⟨.nanoseconds, beq_iff_eq.mp same⟩
        · cases selected

theorem length_magic (order : ByteOrder) (resolution : Resolution) :
    (magic order resolution).length = 4 := by
  cases order <;> cases resolution <;> rfl

variable {digest : List UInt8 → List Char} {content : List UInt8}

theorem Capture.fields_small (capture : Capture) :
    ∀ field ∈ capture.fields, field.2 < 256 ^ field.1 := by
  intro field member
  simp only [Capture.fields, List.mem_cons, List.not_mem_nil, or_false] at member
  rcases member with rfl | rfl | rfl | rfl | rfl | rfl
  · show 2 < 256 ^ 2
    omega
  · show 4 < 256 ^ 2
    omega
  · exact capture.zone.toNat_lt
  · exact capture.accuracy.toNat_lt
  · show 65535 < 256 ^ 4
    omega
  · exact capture.linktype.toNat_lt

theorem Capture.length_header (capture : Capture) :
    (magic capture.order capture.resolution ++
      capture.order.packFields capture.fields).length = 24 := by
  rw [List.length_append, length_magic, ByteOrder.length_packFields]
  rfl

theorem length_encodeRecords (records : List Record) :
    (encodeRecords order records).length ≤ records.length * (16 + 65535) := by
  induction records with
  | nil => exact Nat.le_refl 0
  | cons record records ih =>
      have short := record.within_snaplen
      rw [encodeRecords_cons, List.length_append, record.length_encode, List.length_cons]
      omega

/-- **Every capture is within the limit.** -/
theorem Capture.length_le_limit (capture : Capture) : capture.encode.length ≤ limit := by
  have records : (encodeRecords capture.order capture.records).length ≤
      capture.records.length * (16 + 65535) := length_encodeRecords capture.records
  have few := capture.few
  rw [Capture.encode, List.length_append, capture.length_header, limit]
  omega

theorem Capture.length_ge (capture : Capture) : 24 ≤ capture.encode.length := by
  rw [Capture.encode, List.length_append, capture.length_header]
  omega

/-- **The validator reports the counts of a capture.** -/
theorem pcap_encode (capture : Capture) :
    pcap digest capture.encode = .ok (capture.report digest) := by
  have fits := capture.length_le_limit
  have long := capture.length_ge
  have head : capture.encode.take 24 =
      magic capture.order capture.resolution ++ capture.order.packFields capture.fields := by
    rw [Capture.encode, List.take_left' capture.length_header]
  have behind : capture.encode.drop 24 = encodeRecords capture.order capture.records := by
    rw [Capture.encode, List.drop_left' capture.length_header]
  have first : (capture.encode.take 24).take 4 = magic capture.order capture.resolution := by
    rw [head, List.take_left' (length_magic _ _)]
  have second : (capture.encode.take 24).drop 4 = capture.order.packFields capture.fields := by
    rw [head, List.drop_left' (length_magic _ _)]
  have fields : capture.order.unpackFields [2, 2, 4, 4, 4, 4]
      (capture.order.packFields capture.fields) =
        [2, 4, capture.zone.toNat, capture.accuracy.toNat, 65535, capture.linktype.toNat] := by
    have read := capture.order.unpackFields_packFields capture.fields_small []
    rwa [List.append_nil] at read
  have records : readRecords capture.order 65535 (encodeRecords capture.order capture.records) 0 0 =
      .ok (capture.records.length, capture.records.countP Record.isTruncated) := by
    refine (readRecords_eq_ok (Nat.zero_le 1000)).mpr ⟨capture.records, rfl, ?_, ?_⟩
    · rw [Nat.zero_add]
      exact capture.few
    · rw [Nat.zero_add, Nat.zero_add]
  rw [pcap, if_neg (by omega), first, second, endian_magic]
  simp only [fields]
  rw [if_neg (by simp), behind, records]
  rfl

/-- What is accepted is the text of a capture. -/
theorem exists_capture {report : PcapReport} (accepted : pcap digest content = .ok report) :
    ∃ capture : Capture, content = capture.encode := by
  unfold pcap at accepted
  split at accepted
  · cases accepted
  next size =>
  split at accepted
  · cases accepted
  next order selected =>
  split at accepted
  case h_2 => cases accepted
  next major minor zone accuracy snaplen linktype fields =>
  split at accepted
  · cases accepted
  next version =>
  simp only [not_or, ne_eq, not_not, Prod.mk.injEq] at version
  obtain ⟨⟨rfl, rfl⟩, rfl⟩ := version
  obtain ⟨resolution, isMagic⟩ := exists_magic selected
  have length : ((content.take 24).drop 4).length = 20 := by
    rw [List.length_drop, List.length_take]
    omega
  have packed := @ByteOrder.packFields_unpackFields order [2, 2, 4, 4, 4, 4] _ length
  have small := @ByteOrder.unpackFields_lt order [2, 2, 4, 4, 4, 4] _ length
  rw [fields] at packed small
  simp only [List.zip_cons_cons, List.zip_nil_left, List.forall_mem_cons] at small
  obtain ⟨-, -, smallZone, smallAccuracy, -, smallLinktype, -⟩ := small
  cases loop : readRecords order 65535 (content.drop 24) 0 0 with
  | error problem =>
      rw [loop] at accepted
      cases accepted
  | ok counts =>
      obtain ⟨records, behind, few, -⟩ := (readRecords_eq_ok (Nat.zero_le 1000)).mp loop
      rw [Nat.zero_add] at few
      refine ⟨⟨order, resolution, UInt32.ofNat zone, UInt32.ofNat accuracy, UInt32.ofNat linktype,
        records, few⟩, ?_⟩
      have header : order.packFields [(2, 2), (2, 4), (4, (UInt32.ofNat zone).toNat),
          (4, (UInt32.ofNat accuracy).toNat), (4, 65535), (4, (UInt32.ofNat linktype).toNat)] =
          (content.take 24).drop 4 := by
        rw [UInt32.toNat_ofNat_of_lt' smallZone, UInt32.toNat_ofNat_of_lt' smallAccuracy,
          UInt32.toNat_ofNat_of_lt' smallLinktype]
        exact packed
      calc content
          = content.take 24 ++ content.drop 24 := (List.take_append_drop 24 content).symm
        _ = ((content.take 24).take 4 ++ (content.take 24).drop 4) ++ content.drop 24 := by
            rw [List.take_append_drop 4, List.take_append_drop 24]
        _ = magic order resolution ++ order.packFields _ ++ encodeRecords order records := by
            rw [isMagic, behind]
            exact congrArg (magic order resolution ++ · ++ encodeRecords order records) header.symm

/-- **The validator accepts exactly the captures.** Content is accepted with a
report if and only if it is the text of a capture, which has at most a thousand
records, and the report is the one of that capture. Every capture is within the
limit, and validating the text of one returns its counts. -/
theorem pcap_accepts_captures (digest : List UInt8 → List Char) :
    (∀ content report, pcap digest content = .ok report ↔
      ∃ capture : Capture, content = capture.encode ∧
        report.sizeBytes = content.length ∧
        report.packetCount = capture.records.length ∧
        report.truncatedPacketCount =
          capture.records.countP (fun record => record.packet.length < record.original.toNat) ∧
        report.snaplen = 65535 ∧ report.linktype = capture.linktype.toNat ∧
        report.pcapSha256 = digest content) ∧
    (∀ capture : Capture, capture.encode.length ≤ limit) ∧
    ∀ capture : Capture, ∃ report, pcap digest capture.encode = .ok report ∧
      report.packetCount = capture.records.length ∧
      report.truncatedPacketCount =
        capture.records.countP (fun record => record.packet.length < record.original.toNat) := by
  refine ⟨fun content report => ⟨fun accepted => ?_, ?_⟩, Capture.length_le_limit,
    fun capture => ⟨_, pcap_encode capture, rfl, rfl⟩⟩
  · obtain ⟨capture, rfl⟩ := exists_capture accepted
    rw [pcap_encode] at accepted
    cases accepted
    exact ⟨capture, rfl, rfl, rfl, rfl, rfl, rfl, rfl⟩
  · obtain ⟨size, packets, truncated, snaplen, linktype, sha256⟩ := report
    rintro ⟨capture, rfl, rfl, rfl, rfl, rfl, rfl, rfl⟩
    exact pcap_encode capture

/-- A file that ends inside a packet is refused as such. -/
example : pcap (fun _ => []) (magic .little .microseconds ++
    ByteOrder.little.packFields [(2, 2), (2, 4), (4, 0), (4, 0), (4, 65535), (4, 1), (4, 1), (4, 0),
      (4, 3), (4, 3)] ++ [0x66]) = .error "pcap_record_length" := by
  decide +kernel

end HomeclusterInfra.SecurityCapture
