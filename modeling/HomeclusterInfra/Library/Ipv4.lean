import HomeclusterInfra.Library.Checked
import HomeclusterInfra.Library.DyadicBlocks
import HomeclusterInfra.Library.Formats
import HomeclusterInfra.Library.Text

/-!
# IPv4 addresses and networks

An address is a number below `2 ^ 32` and a network a dyadic block of them. This
module reads and prints them as Python's `ipaddress` module does: dotted quads
without leading zeros, a prefix length or a mask after the slash, and networks
with or without host bits. The printed text of a network reads back.
-/

set_option autoImplicit false

namespace HomeclusterInfra.Ipv4

open Text Checked DyadicBlocks

/-! ## Reading -/

/-- `_parse_octet` -/
def parseOctet (text : List Char) : Option Nat :=
  if !text.isEmpty && text.all Char.isDigit && text.length ≤ 3 &&
      (text == ['0'] || text.head? != some '0') && digitsValue text ≤ 255 then
    some (digitsValue text)
  else none

/-- `int(IPv4Address(text))` -/
def parseAddress (text : List Char) : Option Nat :=
  match (text.splitOn '.').mapM parseOctet with
  | some [first, second, third, fourth] =>
      some (((first * 256 + second) * 256 + third) * 256 + fourth)
  | _ => none

/-- `_prefix_from_ip_int`: the length of a mask of leading ones. -/
def lengthOfMask (mask : Nat) : Option Nat :=
  (List.range 33).find? fun length => mask = 2 ^ 32 - 2 ^ (32 - length)

/-- `_make_netmask`: a prefix length, a netmask or a hostmask. -/
def parseLength (text : List Char) : Option Nat :=
  if !text.isEmpty && text.all Char.isDigit && digitsValue text ≤ 32 then some (digitsValue text)
  else (parseAddress text).bind fun mask =>
    (lengthOfMask mask).or (lengthOfMask (2 ^ 32 - 1 - mask))

/-- The address and the prefix length of the text of a network. -/
def parseInterface (text : List Char) : Option (Nat × Nat) :=
  match text.splitOn '/' with
  | [address] => (parseAddress address).map (·, 32)
  | [address, length] =>
      (parseAddress address).bind fun address => (parseLength length).map (address, ·)
  | _ => none

/-- The network of an address with a prefix length. -/
def networkOf (address length : Nat) : Block :=
  ⟨32 - length, address / 2 ^ (32 - length)⟩

/-- `IPv4Network(text, strict)` -/
def parseNetwork (strict : Bool) (text : List Char) : Option Block :=
  (parseInterface text).bind fun (address, length) =>
    if strict && address % 2 ^ (32 - length) ≠ 0 then none else some (networkOf address length)

/-! ## Printing -/

/-- `str` of an address. -/
def addressText (address : Nat) : List Char :=
  ['.'].intercalate [natText (address / 2 ^ 24 % 256), natText (address / 2 ^ 16 % 256),
    natText (address / 2 ^ 8 % 256), natText (address % 256)]

/-- `str` of a network. -/
def networkText (network : Block) : List Char :=
  addressText network.first ++ '/' :: natText (32 - network.level)

/-- A block of addresses. -/
def IsNetwork (network : Block) : Prop :=
  network.level ≤ 32 ∧ network.first < 2 ^ 32

theorem parseOctet_natText {n : Nat} (small : n < 256) : parseOctet (natText n) = some n := by
  have all : ∀ n < 256, parseOctet (natText n) = some n := by decide +kernel
  exact all n small

/-- The text of an address reads back. -/
theorem parseAddress_addressText {address : Nat} (small : address < 2 ^ 32) :
    parseAddress (addressText address) = some address := by
  have octet : ∀ n, parseOctet (natText (n % 256)) = some (n % 256) := fun n =>
    parseOctet_natText (Nat.mod_lt n (by decide))
  have split : (addressText address).splitOn '.' = [natText (address / 2 ^ 24 % 256),
      natText (address / 2 ^ 16 % 256), natText (address / 2 ^ 8 % 256),
      natText (address % 256)] := by
    refine List.splitOn_intercalate '.' ?_ (by simp)
    intro part member
    simp only [List.mem_cons, List.not_mem_nil, or_false] at member
    rcases member with rfl | rfl | rfl | rfl <;> exact notMem_natText (by decide)
  rw [parseAddress, split]
  simp only [List.mapM_cons, List.mapM_nil, octet, Option.pure_def, Option.bind_eq_bind,
    Option.bind_some, Option.some.injEq]
  omega

theorem notMem_addressText {address : Nat} {char : Char} (digit : char.isDigit = false)
    (dot : char ≠ '.') : char ∉ addressText address := by
  refine Formats.notMem_intercalate dot ?_
  intro part member
  simp only [List.mem_cons, List.not_mem_nil, or_false] at member
  rcases member with rfl | rfl | rfl | rfl <;> exact notMem_natText digit

theorem addressText_ascii {address : Nat} : ∀ char ∈ addressText address, char.toNat < 128 := by
  intro char member
  rcases Formats.mem_intercalate member with rfl | ⟨part, among, inPart⟩
  · decide
  · simp only [List.mem_cons, List.not_mem_nil, or_false] at among
    rcases among with rfl | rfl | rfl | rfl <;> exact natText_ascii inPart

theorem networkText_ascii {network : Block} : ∀ char ∈ networkText network, char.toNat < 128 := by
  intro char member
  rw [networkText, List.mem_append, List.mem_cons] at member
  rcases member with address | rfl | length
  · exact addressText_ascii char address
  · decide
  · exact natText_ascii length

theorem parseLength_natText {length : Nat} (small : length ≤ 32) :
    parseLength (natText length) = some length := by
  have digits : (natText length).all Char.isDigit = true :=
    List.all_eq_true.2 fun _ member => natText_isDigit member
  have value := digitsValue_natText length
  have nonempty := natText_ne_nil length
  rw [parseLength, if_pos, value]
  simp [digits, value, small, nonempty]

/-- An address with a prefix length reads back. -/
theorem parseInterface_text {address length : Nat} (small : address < 2 ^ 32)
    (short : length ≤ 32) :
    parseInterface (addressText address ++ '/' :: natText length) = some (address, length) := by
  have joined : addressText address ++ '/' :: natText length =
      ['/'].intercalate [addressText address, natText length] := by
    simp
  have split : (['/'].intercalate [addressText address, natText length]).splitOn '/' =
      [addressText address, natText length] := by
    refine List.splitOn_intercalate '/' ?_ (by simp)
    intro part member
    simp only [List.mem_cons, List.not_mem_nil, or_false] at member
    rcases member with rfl | rfl
    · exact notMem_addressText (by decide) (by decide)
    · exact notMem_natText (by decide)
  rw [parseInterface, joined, split]
  simp only [parseAddress_addressText small, parseLength_natText short, Option.bind_some,
    Option.map_some]

/-- **The text of a network reads back.** -/
theorem parseNetwork_networkText {network : Block} (isNetwork : IsNetwork network) :
    parseNetwork true (networkText network) = some network := by
  have level : 32 - (32 - network.level) = network.level := by
    have small := isNetwork.1
    omega
  have aligned : network.first % 2 ^ network.level = 0 :=
    Nat.mul_mod_left network.index (2 ^ network.level)
  have index : network.first / 2 ^ network.level = network.index :=
    Nat.mul_div_cancel _ (Nat.two_pow_pos _)
  rw [parseNetwork, networkText, parseInterface_text isNetwork.2 (Nat.sub_le 32 _)]
  simp [level, aligned, networkOf, index]

/-- What a network that is read covers: the addresses that share its prefix. -/
theorem parseNetwork_eq_some {strict : Bool} {text : List Char} {network : Block} :
    parseNetwork strict text = some network ↔
      ∃ address length, parseInterface text = some (address, length) ∧
        (strict = true → address % 2 ^ (32 - length) = 0) ∧ network = networkOf address length := by
  simp only [parseNetwork, Option.bind_eq_some_iff, Prod.exists]
  refine exists_congr fun address => exists_congr fun length => and_congr_right fun _ => ?_
  cases strict with
  | false => simp [eq_comm]
  | true =>
      by_cases aligned : address % 2 ^ (32 - length) = 0
      · simp [aligned, eq_comm]
      · simp [aligned]

theorem parseAddress_lt {text : List Char} {address : Nat}
    (reads : parseAddress text = some address) : address < 2 ^ 32 := by
  unfold parseAddress at reads
  split at reads
  next first second third fourth octets =>
      have small : ∀ octet ∈ [first, second, third, fourth], octet ≤ 255 := by
        intro octet member
        obtain ⟨part, -, read⟩ := exists_of_mem_mapM octets member
        unfold parseOctet at read
        split at read
        next good =>
            simp only [Bool.and_eq_true, decide_eq_true_eq] at good
            rw [← Option.some.inj read]
            exact good.2
        next => cases read
      simp only [List.forall_mem_cons] at small
      obtain ⟨one, two, three, four, -⟩ := small
      have same := Option.some.inj reads
      omega
  next => cases reads

/-- Behind the only slash stands the prefix length. -/
theorem parseInterface_slash {text suffix : List Char} {address length : Nat}
    (single : '/' ∉ suffix)
    (reads : parseInterface (text ++ '/' :: suffix) = some (address, length)) :
    parseAddress text = some address ∧ parseLength suffix = some length := by
  unfold parseInterface at reads
  rw [List.splitOn_append_cons_self, List.splitOn_eq_singleton single] at reads
  have pieces := @List.intercalate_splitOn _ text _ _ '/'
  cases split : text.splitOn '/' with
  | nil => exact absurd split (List.splitOn_ne_nil '/' text)
  | cons first others =>
      rw [split] at reads pieces
      cases others with
      | nil =>
          rw [List.intercalate_singleton] at pieces
          subst pieces
          simp only [List.cons_append, List.nil_append, Option.bind_eq_some_iff,
            Option.map_eq_some_iff, Prod.mk.injEq] at reads
          obtain ⟨_, one, _, two, rfl, rfl⟩ := reads
          exact ⟨one, two⟩
      | cons second others => simp at reads

/-- The text of an address consists of digits and dots. -/
theorem parseAddress_chars {text : List Char} {address : Nat}
    (reads : parseAddress text = some address) :
    ∀ char ∈ text, char.isDigit = true ∨ char = '.' := by
  intro char member
  rw [← @List.intercalate_splitOn _ text _ _ '.'] at member
  rcases Formats.mem_intercalate member with dot | ⟨part, among, inPart⟩
  · exact .inr dot
  · unfold parseAddress at reads
    split at reads
    next octets =>
      obtain ⟨octet, -, read⟩ := exists_mapM_of_mem octets among
      unfold parseOctet at read
      split at read
      next good =>
        simp only [Bool.and_eq_true, List.all_eq_true] at good
        exact .inl (good.1.1.1.2 char inPart)
      next => cases read
    next => cases reads

/-- A text without a dot is no address. -/
theorem parseAddress_dotless {text : List Char} (dotless : '.' ∉ text) :
    parseAddress text = none := by
  rw [parseAddress, List.splitOn_eq_singleton dotless]
  cases octet : parseOctet text <;> simp [octet]

theorem networkText_inj {one other : Block} (isOne : IsNetwork one) (isOther : IsNetwork other)
    (same : networkText one = networkText other) : one = other := by
  have read := parseNetwork_networkText isOne
  rw [same, parseNetwork_networkText isOther] at read
  exact (Option.some.inj read).symm

/-! ## Networks of lists -/

/-- `collapse_addresses`: the fewest networks with the same addresses, in order. -/
def collapseAddresses (networks : List Block) : List Block :=
  collapse 32 networks

/-- `summarize_address_range`: the fewest networks with the addresses from the
first to the last, in order; nothing when the last is below the first. -/
def summarizeAddressRange (first last : Nat) : Option (List Block) :=
  if last < first then none else some (summarize 32 first last)

theorem isNetwork_of_mem_collapse {networks : List Block} {network : Block}
    (member : network ∈ collapseAddresses networks) : IsNetwork network := by
  rw [collapseAddresses, collapse_eq_maximal] at member
  obtain ⟨level, part⟩ := of_mem_maximal member
  have inside := Block.contains_iff.1 (part network.first network.contains_first)
  refine ⟨level, ?_⟩
  simpa [Block.stop] using inside.2

/-- An address is in the network of another exactly when they share the prefix. -/
theorem networkOf_contains {address length number : Nat} :
    (networkOf address length).Contains number ↔
      number / 2 ^ (32 - length) = address / 2 ^ (32 - length) :=
  Iff.rfl

/-! ## Registered ranges -/

/-- A network written as four octets and a prefix length. -/
def cidr (first second third fourth length : Nat) : Block :=
  networkOf (((first * 256 + second) * 256 + third) * 256 + fourth) length

/-- `_private_networks` -/
def privateNetworks : List Block :=
  [cidr 0 0 0 0 8, cidr 10 0 0 0 8, cidr 127 0 0 0 8, cidr 169 254 0 0 16, cidr 172 16 0 0 12,
    cidr 192 0 0 0 24, cidr 192 0 0 170 31, cidr 192 0 2 0 24, cidr 192 168 0 0 16,
    cidr 198 18 0 0 15, cidr 198 51 100 0 24, cidr 203 0 113 0 24, cidr 240 0 0 0 4,
    cidr 255 255 255 255 32]

/-- `_private_networks_exceptions` -/
def privateExceptions : List Block :=
  [cidr 192 0 0 9 32, cidr 192 0 0 10 32]

/-- Both ends of a network lie in another. -/
def bothEnds (network other : Block) : Bool :=
  other.Contains network.first && other.Contains (network.stop - 1)

/-- `network.is_private` -/
def isPrivate (network : Block) : Bool :=
  privateNetworks.any (bothEnds network) &&
    privateExceptions.all fun other =>
      !other.Contains network.first && !other.Contains (network.stop - 1)

/-- `network.is_global` -/
def isGlobal (network : Block) : Bool :=
  !bothEnds network (cidr 100 64 0 0 10) && !isPrivate network

/-- `network.is_multicast` -/
def isMulticast (network : Block) : Bool :=
  bothEnds network (cidr 224 0 0 0 4)

end HomeclusterInfra.Ipv4
