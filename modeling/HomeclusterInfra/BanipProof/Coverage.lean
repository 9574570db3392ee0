import HomeclusterInfra.BanipProof.FeedProof

/-!
# Equal digests mean equal addresses

The digest of a feed and the digest of a kernel set are equal exactly when the
two cover the same addresses. Every parser keeps the networks it has read equal
to the addresses covered so far; the canonical form depends on the addresses
alone and determines them, and so does its text.

What a line or an element covers is stated on its own: a range of addresses, or
the addresses that share a prefix with a given one.
-/

set_option autoImplicit false

namespace HomeclusterInfra.BanipProof

open Text JsonText Checked DyadicBlocks Ipv4

/-! ## Covered addresses -/

/-- The address shares a prefix of some length with another. -/
def SharesPrefix (address length number : Nat) : Prop :=
  number / 2 ^ (32 - length) = address / 2 ^ (32 - length)

/-- The addresses of a line of a feed. -/
def lineCovers (feed : Feed) (line : List Char) (number : Nat) : Prop :=
  match feed, words line with
  | .dshield, start :: stop :: _ =>
      ∃ first last, parseAddress start = some first ∧ parseAddress stop = some last ∧
        first ≤ number ∧ number ≤ last
  | .feodo, [address] => parseAddress address = some number
  | _, _ => False

/-- The addresses of a feed. -/
def feedCovers (feed : Feed) (data : List UInt8) : Set Nat :=
  {number | number < 2 ^ 32 ∧ ∃ text, decodeAscii data = some text ∧
    ∃ line ∈ feedLines text, lineCovers feed line number}

/-- The value inside the counter wrapper of an element. -/
def wrapped (element : Json) : Option Json :=
  match element with
  | .obj fields =>
      match Fields.get fields "elem" with
      | some (.obj wrapper) => Fields.get wrapper "val"
      | _ => none
  | _ => none

/-- The addresses of a value: a text of an address or a prefix, a prefix object,
or a range object. -/
inductive ValueCovers : Json → Nat → Prop where
  | text {chars : List Char} {address length number : Nat}
      (reads : parseInterface chars = some (address, length))
      (shares : SharesPrefix address length number) : ValueCovers (.str chars) number
  | subnet {fields inner : Fields} {chars : List Char} {address number : Nat} {length : Nat}
      (outer : Fields.get fields "prefix" = some (.obj inner))
      (atAddress : Fields.get inner "addr" = some (.str chars))
      (reads : parseAddress chars = some address)
      (atLength : Fields.get inner "len" = some (.int length))
      (shares : SharesPrefix address length number) : ValueCovers (.obj fields) number
  | range {fields : Fields} {firstChars lastChars : List Char} {first last number : Nat}
      (outer : Fields.get fields "range" = some (.arr [.str firstChars, .str lastChars]))
      (readsFirst : parseAddress firstChars = some first)
      (readsLast : parseAddress lastChars = some last)
      (above : first ≤ number) (below : number ≤ last) : ValueCovers (.obj fields) number

/-- The addresses of an element, wrapped or not. -/
def elementCovers (element : Json) (number : Nat) : Prop :=
  ValueCovers ((wrapped element).getD element) number

/-- The addresses of a kernel set. -/
def nftCovers (feed : Feed) (value : Json) : Set Nat :=
  {number | number < 2 ^ 32 ∧ ∃ current elements, checkedSet feed value = .ok current ∧
    elementsOf current = some elements ∧ ∃ element ∈ elements, elementCovers element number}

/-! ## Checks and lookups that succeed -/

section Results

@[simp] theorem require_eq_ok {holds : Bool} {reason : Reason} {done : Unit} :
    require holds reason = .ok done ↔ holds = true :=
  Checked.require_eq_ok

@[simp] theorem orRaise_eq_ok {α : Type} {result : Option α} {raised : Raised} {value : α} :
    orRaise result raised = .ok value ↔ result = some value := by
  cases result <;> simp [orRaise]

theorem map_eq_ok {α β : Type} {f : α → β} {result : Except Raised α} {value : β} :
    result.map f = .ok value ↔ ∃ found, result = .ok found ∧ f found = value := by
  cases result <;> simp [Except.map]

end Results

/-! ## Lines -/

section Lines

variable {feed : Feed} {line : List Char} {network : Block}

/-- The network of a line covers the addresses of the line. -/
theorem lineNetwork_covers (read : lineNetwork feed line = .ok network) (number : Nat) :
    network.Contains number ↔ lineCovers feed line number := by
  unfold lineNetwork at read
  unfold lineCovers
  split at read
  next start stop length _ fields =>
      simp only [bind_eq_ok, require_eq_ok, orRaise_eq_ok, pure_eq_ok, exists_const,
        Bool.and_eq_true, decide_eq_true_eq] at read
      obtain ⟨-, first, readsFirst, last, readsLast, ⟨-, short⟩, found, made, ends, rfl⟩ := read
      rw [parseNetwork_eq_some, parseInterface_text (parseAddress_lt readsFirst) short] at made
      obtain ⟨address, bits, same, aligned, rfl⟩ := made
      obtain ⟨rfl, rfl⟩ := Prod.mk.inj (Option.some.inj same)
      have begins : (networkOf first (digitsValue length)).first = first :=
        Nat.div_mul_cancel (Nat.dvd_of_mod_eq_zero (aligned rfl))
      have nonempty := (Block.contains_iff.1
        (networkOf first (digitsValue length)).contains_first).2
      rw [Block.contains_iff, begins]
      rw [begins] at nonempty
      simp only [fields]
      constructor
      · rintro ⟨above, below⟩
        exact ⟨first, last, readsFirst, readsLast, above, by omega⟩
      · rintro ⟨_, _, one, two, above, below⟩
        obtain rfl := Option.some.inj (readsFirst.symm.trans one)
        obtain rfl := Option.some.inj (readsLast.symm.trans two)
        exact ⟨above, by omega⟩
  next address fields =>
      simp only [bind_eq_ok, orRaise_eq_ok] at read
      obtain ⟨single, reads, made⟩ := read
      have printed : addressText single ++ "/32".toList = addressText single ++ '/' :: natText 32 :=
        rfl
      rw [printed, parseNetwork_eq_some, parseInterface_text (parseAddress_lt reads) le_rfl] at made
      obtain ⟨other, bits, same, -, rfl⟩ := made
      obtain ⟨rfl, rfl⟩ := Prod.mk.inj (Option.some.inj same)
      simp only [fields]
      rw [networkOf_contains, reads]
      simp [eq_comm]
  next => cases read

theorem handleLine_eq_ok {networks after : List Block}
    (step : handleLine feed networks line = .ok after) :
    ∃ network, lineNetwork feed line = .ok network ∧ after = networks ++ [network] := by
  simp only [handleLine, bind_eq_ok, pure_eq_ok] at step
  obtain ⟨network, read, _, -, _, -, rfl⟩ := step
  exact ⟨network, read, rfl⟩

/-- The networks that the loop collects cover the addresses of the lines. -/
theorem handleLines_cover {lines : List (List Char)} {networks : List Block}
    (run : lines.foldlM (handleLine feed) [] = .ok networks) (number : Nat) :
    number ∈ unionOf networks ↔ ∃ line ∈ lines, lineCovers feed line number := by
  have kept := foldlM_invariant
    (fun consumed collected =>
      number ∈ unionOf collected ↔ ∃ line ∈ consumed, lineCovers feed line number)
    (fun consumed collected line next here step => by
      obtain ⟨network, read, rfl⟩ := handleLine_eq_ok step
      have one := lineNetwork_covers read number
      simp only [unionOf, Set.mem_ofPred_eq, List.mem_append, or_and_right, exists_or,
        List.mem_singleton, exists_eq_left] at here ⊢
      rw [here, one])
    lines [] [] networks (by simp [unionOf]) run
  simpa using kept

end Lines

/-- **The digest of a feed is the digest of the addresses it covers.** -/
theorem parseFeed_covers {sha256 : List UInt8 → String} {feed : Feed} {data : List UInt8}
    {content : FeedContent} (read : parseFeed sha256 feed data = .ok content) :
    ∃ networks, content.canonicalSha256 =
        sha256 (asciiBytes (canonicalText (collapseAddresses networks))) ∧
      ∀ number < 2 ^ 32, number ∈ unionOf networks ↔ number ∈ feedCovers feed data := by
  simp only [parseFeed, canonical, bind_eq_ok, require_eq_ok, orRaise_eq_ok, pure_eq_ok,
    exists_const] at read
  obtain ⟨-, text, decoded, networks, run, form, ⟨-, -, rfl⟩, rfl⟩ := read
  refine ⟨networks, rfl, fun number small => ?_⟩
  rw [handleLines_cover run]
  constructor
  · intro covered
    exact ⟨small, text, decoded, covered⟩
  · rintro ⟨-, other, also, covered⟩
    rwa [← Option.some.inj (decoded.symm.trans also)] at covered

/-! ## Elements -/

section Elements

variable {element value : Json}

/-- Where only one key is allowed, no other is found. -/
theorem Fields.get_other {fields : Fields} {key other : String}
    (keys : fields.keysAre [key] = true) (different : key ≠ other) : fields.get other = none := by
  simp only [Fields.keysAre, Fields.within, Bool.and_eq_true, List.all_eq_true] at keys
  rw [Fields.get, List.lookup_eq_none_iff]
  intro field member
  have named := keys.1 field member
  simp only [List.map_cons, List.map_nil, List.contains_cons, List.contains_nil, Bool.or_false,
    beq_iff_eq] at named
  rw [named, bne_iff_ne]
  exact fun same => different (String.toList_inj.1 same).symm

/-- A printed integer reads back as a prefix length only as itself. -/
theorem parseLength_intText {printed : Int} {length : Nat}
    (reads : parseLength (intText printed) = some length) : printed = length := by
  unfold parseLength at reads
  cases printed with
  | ofNat n =>
      have dotless : parseAddress (natText n) = none :=
        parseAddress_dotless (notMem_natText (by decide))
      rw [intText, dotless, digitsValue_natText] at reads
      split at reads
      · rw [Option.some.inj reads]
        rfl
      · cases reads
  | negSucc n =>
      have dotless : parseAddress ('-' :: natText (n + 1)) = none := by
        refine parseAddress_dotless ?_
        rw [List.mem_cons, not_or]
        exact ⟨by decide, notMem_natText (by decide)⟩
      rw [intText, dotless] at reads
      have sign : ('-' :: natText (n + 1)).all Char.isDigit = false := rfl
      simp [sign] at reads

theorem slash_notMem_intText (printed : Int) : '/' ∉ intText printed := by
  cases printed with
  | ofNat n => exact notMem_natText (by decide)
  | negSucc n =>
      rw [intText, List.mem_cons, not_or]
      exact ⟨by decide, notMem_natText (by decide)⟩

/-- What a prefix object reads as. -/
theorem prefixNetwork_eq_ok {network : Block} (read : prefixNetwork value = .ok network) :
    ∃ inner chars address, ∃ length : Nat, value = .obj inner ∧
      Fields.get inner "addr" = some (.str chars) ∧ parseAddress chars = some address ∧
      Fields.get inner "len" = some (.int length) ∧ network = networkOf address length := by
  simp only [prefixNetwork, bind_eq_ok, require_eq_ok, exists_const] at read
  obtain ⟨named, -, -, length, atLength, read⟩ := read
  cases value with
  | obj inner =>
      simp only [item, orRaise_eq_ok] at atLength
      cases length with
      | int length =>
          simp only [bind_eq_ok, item, orRaise_eq_ok] at read
          obtain ⟨address, atAddress, read⟩ := read
          cases address with
          | str chars =>
              simp only [orRaise_eq_ok, parseNetwork_eq_some] at read
              obtain ⟨address, bits, reads, -, rfl⟩ := read
              obtain ⟨readsAddress, readsLength⟩ :=
                parseInterface_slash (slash_notMem_intText length) reads
              obtain rfl := parseLength_intText readsLength
              exact ⟨inner, chars, address, bits, rfl, atAddress, readsAddress, atLength, rfl⟩
          | _ => cases read
      | _ => cases read
  | _ => cases atLength

/-- What a range object reads as. -/
theorem rangeNetworks_eq_ok {networks : List Block} (read : rangeNetworks value = .ok networks) :
    ∃ firstChars lastChars first last, value = .arr [.str firstChars, .str lastChars] ∧
      parseAddress firstChars = some first ∧ parseAddress lastChars = some last ∧
      networks = summarize 32 first last := by
  unfold rangeNetworks at read
  split at read
  next firstChars lastChars =>
      simp only [bind_eq_ok, orRaise_eq_ok] at read
      obtain ⟨first, readsFirst, last, readsLast, read⟩ := read
      unfold summarizeAddressRange at read
      split at read
      · cases read
      · exact ⟨firstChars, lastChars, first, last, rfl, readsFirst, readsLast,
          (Option.some.inj read).symm⟩
  next => cases read

/-- The networks of a value cover the addresses of the value. -/
theorem valueNetworks_cover {networks : List Block} (read : valueNetworks value = .ok networks)
    {number : Nat} (small : number < 2 ^ 32) :
    number ∈ unionOf networks ↔ ValueCovers value number := by
  unfold valueNetworks at read
  split at read
  next text =>
      rw [map_eq_ok] at read
      obtain ⟨network, found, rfl⟩ := read
      rw [orRaise_eq_ok, parseNetwork_eq_some] at found
      obtain ⟨address, length, reads, -, rfl⟩ := found
      simp only [unionOf, Set.mem_ofPred_eq, List.mem_singleton, exists_eq_left,
        networkOf_contains]
      constructor
      · exact fun shares => .text reads shares
      · rintro ⟨also, shares⟩
        obtain ⟨rfl, rfl⟩ := Prod.mk.inj (Option.some.inj (reads.symm.trans also))
        exact shares
  next fields =>
      split at read
      next isPrefix =>
          rw [map_eq_ok] at read
          obtain ⟨network, found, rfl⟩ := read
          simp only [bind_eq_ok, item, orRaise_eq_ok] at found
          obtain ⟨_, outer, found⟩ := found
          obtain ⟨inner, chars, address, length, rfl, atAddress, reads, atLength, rfl⟩ :=
            prefixNetwork_eq_ok found
          simp only [unionOf, Set.mem_ofPred_eq, List.mem_singleton, exists_eq_left,
            networkOf_contains]
          constructor
          · exact fun shares => .subnet outer atAddress reads atLength shares
          · intro covers
            cases covers with
            | subnet outer' atAddress' reads' atLength' shares =>
                obtain rfl := Json.obj.inj (Option.some.inj (outer.symm.trans outer'))
                obtain rfl := Json.str.inj (Option.some.inj (atAddress.symm.trans atAddress'))
                obtain rfl := Option.some.inj (reads.symm.trans reads')
                have same := Json.int.inj (Option.some.inj (atLength.symm.trans atLength'))
                obtain rfl := Int.ofNat.inj same
                exact shares
            | range outer' =>
                rw [Fields.get_other isPrefix (by decide)] at outer'
                cases outer'
      next =>
          split at read
          next isRange =>
              simp only [bind_eq_ok, item, orRaise_eq_ok] at read
              obtain ⟨_, outer, found⟩ := read
              obtain ⟨firstChars, lastChars, first, last, rfl, readsFirst, readsLast, rfl⟩ :=
                rangeNetworks_eq_ok found
              rw [mem_unionOf_summarize small]
              constructor
              · rintro ⟨above, below⟩
                exact .range outer readsFirst readsLast above below
              · intro covers
                cases covers with
                | subnet outer' =>
                    rw [Fields.get_other isRange (by decide)] at outer'
                    cases outer'
                | range outer' readsFirst' readsLast' above below =>
                    have same := Json.arr.inj (Option.some.inj (outer.symm.trans outer'))
                    simp only [List.cons.injEq, Json.str.injEq, and_true] at same
                    obtain ⟨rfl, rfl⟩ := same
                    obtain rfl := Option.some.inj (readsFirst.symm.trans readsFirst')
                    obtain rfl := Option.some.inj (readsLast.symm.trans readsLast')
                    exact ⟨above, below⟩
          next => cases read
  next => cases read

/-- What is read of an element is what its wrapper holds, if it has one. -/
theorem unwrapElement_eq {networks : List Block} (unwrapped : unwrapElement element = .ok value)
    (read : valueNetworks value = .ok networks) : value = (wrapped element).getD element := by
  unfold unwrapElement at unwrapped
  split at unwrapped
  next fields =>
      split at unwrapped
      next =>
          split at unwrapped
          next wrapper outer =>
              split at unwrapped
              next inner found =>
                  split at unwrapped
                  · obtain rfl := Except.ok.inj unwrapped
                    simp only [wrapped, outer, found, Option.getD_some]
                  · cases unwrapped
              next => cases unwrapped
          next => cases unwrapped
      next =>
          obtain rfl := Except.ok.inj unwrapped
          -- An object with another key beside its wrapper is no value either.
          have unnamed : Fields.get fields "elem" = none := by
            unfold valueNetworks at read
            simp only at read
            split at read
            next isPrefix => exact Fields.get_other isPrefix (by decide)
            next =>
                split at read
                next isRange => exact Fields.get_other isRange (by decide)
                next => cases read
          simp only [wrapped, unnamed, Option.getD_none]
  next other =>
      obtain rfl := Except.ok.inj unwrapped
      unfold wrapped
      split
      next fields => exact absurd rfl (other fields)
      next => rfl

theorem handleElement_eq_ok {networks after : List Block}
    (step : handleElement networks element = .ok after) :
    ∃ more, after = networks ++ more ∧
      ∀ number < 2 ^ 32, number ∈ unionOf more ↔ elementCovers element number := by
  simp only [handleElement, bind_eq_ok, pure_eq_ok] at step
  obtain ⟨value, unwrapped, more, read, _, -, rfl⟩ := step
  refine ⟨more, rfl, fun number small => ?_⟩
  rw [elementCovers, ← unwrapElement_eq unwrapped read]
  exact valueNetworks_cover read small

/-- The networks that the loop collects cover the addresses of the elements. -/
theorem handleElements_cover {elements : List Json} {networks : List Block}
    (run : elements.foldlM handleElement [] = .ok networks) {number : Nat}
    (small : number < 2 ^ 32) :
    number ∈ unionOf networks ↔ ∃ element ∈ elements, elementCovers element number := by
  have kept := foldlM_invariant
    (fun consumed collected =>
      number ∈ unionOf collected ↔ ∃ element ∈ consumed, elementCovers element number)
    (fun consumed collected element next here step => by
      obtain ⟨more, rfl, covers⟩ := handleElement_eq_ok step
      have one := covers number small
      simp only [unionOf, Set.mem_ofPred_eq, List.mem_append, or_and_right, exists_or,
        List.mem_singleton, exists_eq_left] at here one ⊢
      rw [here, one])
    elements [] [] networks (by simp [unionOf]) run
  simpa using kept

end Elements

/-- **The digest of a kernel set is the digest of the addresses it covers.** -/
theorem nftSet_covers {sha256 : List UInt8 → String} {feed : Feed} {size : Nat} {value : Json}
    {content : SetContent} (read : nftSet sha256 feed size value = .ok content) :
    ∃ networks, content.canonicalSha256 =
        sha256 (asciiBytes (canonicalText (collapseAddresses networks))) ∧
      ∀ number < 2 ^ 32, number ∈ unionOf networks ↔ number ∈ nftCovers feed value := by
  simp only [nftSet, canonical, bind_eq_ok, require_eq_ok, orRaise_eq_ok, pure_eq_ok,
    exists_const] at read
  obtain ⟨-, current, identified, elements, listed, -, networks, run, form, ⟨-, -, rfl⟩, rfl⟩ :=
    read
  refine ⟨networks, rfl, fun number small => ?_⟩
  rw [handleElements_cover run small]
  constructor
  · intro covered
    exact ⟨small, current, elements, identified, listed, covered⟩
  · rintro ⟨-, other, others, also, alsoListed, covered⟩
    obtain rfl := Except.ok.inj (identified.symm.trans also)
    rwa [← Option.some.inj (listed.symm.trans alsoListed)] at covered

/-! ## The canonical text -/

section CanonicalText

theorem lineFeed_notMem_networkText (network : Block) : '\n' ∉ networkText network := by
  rw [networkText, List.mem_append, List.mem_cons]
  rintro (address | same | length)
  · exact notMem_addressText (by decide) (by decide) address
  · exact absurd same (by decide)
  · exact notMem_natText (by decide) length

theorem networkText_ne_nil (network : Block) : networkText network ≠ [] := by
  simp [networkText]

/-- The lines of networks determine the networks. -/
theorem canonicalText_inj {one other : List Block} (isOne : ∀ network ∈ one, IsNetwork network)
    (isOther : ∀ network ∈ other, IsNetwork network)
    (same : canonicalText one = canonicalText other) : one = other := by
  have texts : one.map networkText = other.map networkText := by
    have clean : ∀ networks : List Block, ∀ line ∈ networks.map networkText, '\n' ∉ line := by
      intro networks line member
      obtain ⟨network, -, rfl⟩ := List.mem_map.1 member
      exact lineFeed_notMem_networkText network
    cases one with
    | nil =>
        cases other with
        | nil => rfl
        | cons network networks =>
            have split := List.splitOn_intercalate '\n' (clean (network :: networks)) (by simp)
            rw [← canonicalText, ← same] at split
            simp [canonicalText, networkText_ne_nil] at split
    | cons first rest =>
        have split := List.splitOn_intercalate '\n' (clean (first :: rest)) (by simp)
        cases other with
        | nil =>
            rw [← canonicalText, same] at split
            simp [canonicalText, networkText_ne_nil] at split
        | cons network networks =>
            have again := List.splitOn_intercalate '\n' (clean (network :: networks)) (by simp)
            rw [← canonicalText, same, canonicalText] at split
            exact split.symm.trans again
  clear same
  induction one generalizing other with
  | nil => exact (List.map_eq_nil_iff.1 texts.symm).symm
  | cons network networks ih =>
      cases other with
      | nil => cases texts
      | cons next others =>
          rw [List.forall_mem_cons] at isOne isOther
          obtain ⟨first, rest⟩ := List.cons.inj texts
          rw [networkText_inj isOne.1 isOther.1 first, ih isOne.2 isOther.2 rest]

theorem canonicalText_ascii {networks : List Block} :
    ∀ char ∈ canonicalText networks, char.toNat < 128 := by
  intro char member
  rcases Formats.mem_intercalate member with rfl | ⟨line, among, inLine⟩
  · decide
  · obtain ⟨network, -, rfl⟩ := List.mem_map.1 among
    exact networkText_ascii char inLine

end CanonicalText

/-! ## The comparison -/

/-- **A feed is verified exactly when the kernel set covers the same addresses.** -/
theorem digests_equal_iff {sha256 : List UInt8 → String} (injective : Function.Injective sha256)
    {feed : Feed} {data : List UInt8} {size : Nat} {value : Json} {content : FeedContent}
    {inKernel : SetContent} (downloaded : parseFeed sha256 feed data = .ok content)
    (listed : nftSet sha256 feed size value = .ok inKernel) :
    content.canonicalSha256 = inKernel.canonicalSha256 ↔
      feedCovers feed data = nftCovers feed value := by
  obtain ⟨networks, digest, covers⟩ := parseFeed_covers downloaded
  obtain ⟨others, otherDigest, otherCovers⟩ := nftSet_covers listed
  rw [digest, otherDigest]
  constructor
  · intro same
    have texts := asciiBytes_inj canonicalText_ascii canonicalText_ascii (injective same)
    have lists := canonicalText_inj (fun _ member => isNetwork_of_mem_collapse member)
      (fun _ member => isNetwork_of_mem_collapse member) texts
    have numbers := collapse_eq_iff.1 lists
    ext number
    constructor
    · intro covered
      rwa [← otherCovers number covered.1, ← numbers number covered.1, covers number covered.1]
    · intro covered
      rwa [← covers number covered.1, numbers number covered.1, otherCovers number covered.1]
  · intro same
    have lists : collapseAddresses networks = collapseAddresses others := by
      refine collapse_eq_iff.2 fun number small => ?_
      rw [covers number small, otherCovers number small, same]
    rw [lists]

/-- The text of two hosts with a comment. -/
def twoHosts : List UInt8 :=
  asciiBytes "# list\n8.8.8.8\n8.8.8.9\n".toList

/-- The set of the same two hosts as one range. -/
def twoHostSet : Json :=
  .obj [("nftables".toList, .arr [.obj [("set".toList, .obj
    [("family".toList, .str "inet".toList), ("table".toList, .str "banIP".toList),
      ("name".toList, .str "feodo.v4".toList), ("type".toList, .str "ipv4_addr".toList),
      ("flags".toList, .arr [.str "interval".toList]),
      ("elem".toList, .arr [.obj [("range".toList,
        .arr [.str "8.8.8.8".toList, .str "8.8.8.9".toList])]])])]])]

/-- SHA-256 on the two texts, and injective everywhere. -/
def twoHostDigest (data : List UInt8) : String :=
  if data = twoHosts then "983d987f7b3670ac135966680563b958a6b7da1ebc99818ef25d65644c0133bf"
  else if data = asciiBytes "8.8.8.8/31".toList then
    "4ff0ad32d7ec4ddf37582169a41d490016a5988d8d1faf84340bb0ed6c13d6fb"
  else String.ofList ('-' :: data.map fun byte => Char.ofNat byte.toNat)


theorem twoHostDigest_injective : Function.Injective twoHostDigest := by
  have dashed : ∀ text rest : List Char, text.head? ≠ some '-' →
      String.ofList text ≠ String.ofList ('-' :: rest) := by
    intro text rest different same
    rw [String.ofList_inj.1 same] at different
    exact different rfl
  intro one other same
  unfold twoHostDigest at same
  split_ifs at same with first second third fourth fifth sixth
  · rw [first, second]
  · exact absurd same (by decide)
  · exact absurd same (dashed _ _ (by decide))
  · exact absurd same (by decide)
  · rw [fourth, sixth]
  · exact absurd same (dashed _ _ (by decide))
  · exact absurd same.symm (dashed _ _ (by decide))
  · exact absurd same.symm (dashed _ _ (by decide))
  · exact charOfByte_injective.list_map (List.cons.inj (String.ofList_inj.1 same)).2

/-- The text and the set of the two hosts have one digest and cover the same. -/
theorem digests_equal_iff_twoHosts :
    feedCovers .feodo twoHosts = nftCovers .feodo twoHostSet := by
  have downloaded : (parseFeed twoHostDigest .feodo twoHosts).toOption = some
      ⟨⟨"4ff0ad32d7ec4ddf37582169a41d490016a5988d8d1faf84340bb0ed6c13d6fb", 1⟩, 2,
        "983d987f7b3670ac135966680563b958a6b7da1ebc99818ef25d65644c0133bf"⟩ := by
    decide +kernel
  have listed : (nftSet twoHostDigest .feodo 170 twoHostSet).toOption = some
      ⟨⟨"4ff0ad32d7ec4ddf37582169a41d490016a5988d8d1faf84340bb0ed6c13d6fb", 1⟩, 1⟩ := by
    decide +kernel
  rw [toOption_eq_some] at downloaded listed
  exact (digests_equal_iff twoHostDigest_injective downloaded listed).1 rfl

end HomeclusterInfra.BanipProof
