import Mathlib.Data.List.Basic
import Mathlib.Tactic.Ring

/-!
# Numbers of a fixed width as bytes

A number below `256 ^ width` has one text of `width` bytes in each byte order,
and each text of that length is the text of one number. Packing and unpacking
are inverse to each other, so a reader that unpacks its fields accepts exactly
what a writer that packs them writes.
-/

set_option autoImplicit false

namespace HomeclusterInfra

/-- Which end of a number comes first. -/
inductive ByteOrder where
  | little
  | big
deriving DecidableEq, Repr

namespace ByteOrder

/-! ## The least significant byte first -/

/-- The number that bytes stand for, the least significant one first. -/
def littleEndian : List UInt8 → Nat
  | [] => 0
  | byte :: bytes => byte.toNat + 256 * littleEndian bytes

/-- A number as bytes, the least significant one first. -/
def littleEndianBytes : Nat → Nat → List UInt8
  | 0, _ => []
  | width + 1, value => UInt8.ofNat value :: littleEndianBytes width (value / 256)

theorem length_littleEndianBytes (width value : Nat) :
    (littleEndianBytes width value).length = width := by
  induction width generalizing value with
  | zero => rfl
  | succ width ih => rw [littleEndianBytes, List.length_cons, ih]

theorem littleEndian_lt (bytes : List UInt8) : littleEndian bytes < 256 ^ bytes.length := by
  induction bytes with
  | nil => exact Nat.one_pos
  | cons byte bytes ih =>
      have small := byte.toNat_lt
      rw [littleEndian, List.length_cons, Nat.pow_succ]
      omega

theorem littleEndian_littleEndianBytes (width : Nat) {value : Nat} (small : value < 256 ^ width) :
    littleEndian (littleEndianBytes width value) = value := by
  induction width generalizing value with
  | zero =>
      rw [Nat.pow_zero, Nat.lt_one_iff] at small
      exact small.symm
  | succ width ih =>
      have rest : value / 256 < 256 ^ width := by
        rw [Nat.div_lt_iff_lt_mul (by omega), ← Nat.pow_succ]
        exact small
      rw [littleEndianBytes, littleEndian, ih rest, UInt8.toNat_ofNat']
      omega

theorem littleEndianBytes_littleEndian (bytes : List UInt8) :
    littleEndianBytes bytes.length (littleEndian bytes) = bytes := by
  induction bytes with
  | nil => rfl
  | cons byte bytes ih =>
      have small := byte.toNat_lt
      have first : UInt8.ofNat (byte.toNat + 256 * littleEndian bytes) = byte := by
        apply UInt8.toNat_inj.mp
        rw [UInt8.toNat_ofNat']
        omega
      have rest : (byte.toNat + 256 * littleEndian bytes) / 256 = littleEndian bytes := by
        omega
      rw [List.length_cons, littleEndian, littleEndianBytes, first, rest, ih]

/-! ## Both orders -/

/-- The number that bytes stand for. -/
def unpack : ByteOrder → List UInt8 → Nat
  | little, bytes => littleEndian bytes
  | big, bytes => littleEndian bytes.reverse

/-- A number as so many bytes. -/
def pack : ByteOrder → Nat → Nat → List UInt8
  | little, width, value => littleEndianBytes width value
  | big, width, value => (littleEndianBytes width value).reverse

variable (order : ByteOrder)

@[simp] theorem length_pack (width value : Nat) : (order.pack width value).length = width := by
  cases order with
  | little => exact length_littleEndianBytes width value
  | big => rw [pack, List.length_reverse, length_littleEndianBytes]

theorem unpack_lt (bytes : List UInt8) : order.unpack bytes < 256 ^ bytes.length := by
  cases order with
  | little => exact littleEndian_lt bytes
  | big =>
      rw [unpack, ← List.length_reverse]
      exact littleEndian_lt bytes.reverse

/-- **A packed number reads back.** -/
theorem unpack_pack (width : Nat) {value : Nat} (small : value < 256 ^ width) :
    order.unpack (order.pack width value) = value := by
  cases order with
  | little => exact littleEndian_littleEndianBytes width small
  | big =>
      rw [unpack, pack, List.reverse_reverse]
      exact littleEndian_littleEndianBytes width small

/-- **Bytes are what their number is packed to.** -/
theorem pack_unpack {width : Nat} {bytes : List UInt8} (length : bytes.length = width) :
    order.pack width (order.unpack bytes) = bytes := by
  subst length
  cases order with
  | little => exact littleEndianBytes_littleEndian bytes
  | big =>
      have reversed := littleEndianBytes_littleEndian bytes.reverse
      rw [List.length_reverse] at reversed
      rw [unpack, pack, reversed, List.reverse_reverse]

/-! ## Several numbers in a row -/

/-- The numbers of consecutive fields of the given widths. -/
def unpackFields : List Nat → List UInt8 → List Nat
  | [], _ => []
  | width :: widths, bytes =>
      order.unpack (bytes.take width) :: unpackFields widths (bytes.drop width)

/-- Numbers with their widths, one after another. -/
def packFields (fields : List (Nat × Nat)) : List UInt8 :=
  fields.flatMap fun field => order.pack field.1 field.2

@[simp] theorem packFields_nil : order.packFields [] = [] :=
  rfl

@[simp] theorem packFields_cons (field : Nat × Nat) (fields : List (Nat × Nat)) :
    order.packFields (field :: fields) = order.pack field.1 field.2 ++ order.packFields fields :=
  rfl

theorem length_packFields (fields : List (Nat × Nat)) :
    (order.packFields fields).length = (fields.map Prod.fst).sum := by
  induction fields with
  | nil => rfl
  | cons field fields ih =>
      rw [packFields_cons, List.length_append, length_pack, ih, List.map_cons, List.sum_cons]

/-- **Packed fields read back**, whatever follows them. -/
theorem unpackFields_packFields {fields : List (Nat × Nat)}
    (small : ∀ field ∈ fields, field.2 < 256 ^ field.1) (rest : List UInt8) :
    order.unpackFields (fields.map Prod.fst) (order.packFields fields ++ rest) =
      fields.map Prod.snd := by
  induction fields with
  | nil => rfl
  | cons field fields ih =>
      have length := order.length_pack field.1 field.2
      rw [packFields_cons, List.append_assoc, List.map_cons, unpackFields,
        List.take_left' length, List.drop_left' length,
        order.unpack_pack field.1 (small field (List.mem_cons_self ..)),
        ih fun other member => small other (List.mem_cons_of_mem field member)]
      rfl

/-- **Bytes are what their fields are packed to.** -/
theorem packFields_unpackFields {widths : List Nat} {bytes : List UInt8}
    (length : bytes.length = widths.sum) :
    order.packFields (widths.zip (order.unpackFields widths bytes)) = bytes := by
  induction widths generalizing bytes with
  | nil => exact (List.eq_nil_of_length_eq_zero length).symm
  | cons width widths ih =>
      rw [List.sum_cons] at length
      have first : (bytes.take width).length = width := by
        rw [List.length_take]
        omega
      have others : (bytes.drop width).length = widths.sum := by
        rw [List.length_drop]
        omega
      rw [unpackFields, List.zip_cons_cons, packFields_cons, order.pack_unpack first, ih others,
        List.take_append_drop]

/-- A field holds a number below the bound of its width. -/
theorem unpackFields_lt {widths : List Nat} {bytes : List UInt8}
    (length : bytes.length = widths.sum) :
    ∀ field ∈ widths.zip (order.unpackFields widths bytes), field.2 < 256 ^ field.1 := by
  induction widths generalizing bytes with
  | nil => intro field member; cases member
  | cons width widths ih =>
      rw [List.sum_cons] at length
      have first : (bytes.take width).length = width := by
        rw [List.length_take]
        omega
      intro field member
      rw [unpackFields, List.zip_cons_cons, List.mem_cons] at member
      rcases member with rfl | member
      · have bound := order.unpack_lt (bytes.take width)
        rwa [first] at bound
      · refine ih ?_ field member
        rw [List.length_drop]
        omega

end ByteOrder

end HomeclusterInfra
