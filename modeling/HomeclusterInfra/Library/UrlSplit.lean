import Mathlib.Data.List.TakeWhile
import HomeclusterInfra.Library.Calendar

/-!
# Splitting URLs

`urllib.parse.urlsplit` and the parts of an authority, as Python documents them.
The split forgets how the text was spelt: letters of the scheme and the host
become lower case, an empty query or fragment leaves no trace, control characters
in front are dropped and a port is a number.

Three things depend on Unicode tables or on the version of the library: the
lower case of a text, which authorities are refused because their characters
decompose into delimiters, and which of those in brackets are refused. They are
the fields of `Rules`.

A text of lower-case letters, digits and `.-:/` is spelt in one way only, as long
as its ports have no leading zeros.
-/

set_option autoImplicit false

namespace HomeclusterInfra.UrlSplit

open Text

structure Rules where
  /-- `str.lower` -/
  lower : List Char → List Char
  lower_ascii : ∀ text : List Char, (∀ char ∈ text, char.toNat < 128) →
    lower text = text.map Char.toLower
  /-- The authority decomposes into a text with a delimiter. -/
  decomposes : List Char → Bool
  /-- The authority with brackets is accepted. -/
  bracketed : List Char → Bool

/-! ## The split -/

structure Parts where
  scheme : List Char
  netloc : List Char
  path : List Char
  query : List Char
  fragment : List Char

/-- `text.partition(mark)`, without the mark. -/
def partition (mark : Char) (text : List Char) : List Char × List Char :=
  (text.takeWhile (· ≠ mark), (text.dropWhile (· ≠ mark)).drop 1)

/-- `text.rpartition(mark)[2]` -/
def afterLast (mark : Char) (text : List Char) : List Char :=
  (text.reverse.takeWhile (· ≠ mark)).reverse

/-- Drop control characters and blanks in front, and line breaks and tabs everywhere. -/
def cleaned (text : List Char) : List Char :=
  (text.dropWhile fun char => char.toNat ≤ 32).filter fun char =>
    char ≠ '\t' && char ≠ '\r' && char ≠ '\n'

/-- `scheme_chars` -/
def isSchemeChar (char : Char) : Bool :=
  char.isAlphanum || char = '+' || char = '-' || char = '.'

/-- The scheme, in lower case, and what comes after it. -/
def splitScheme (url : List Char) : List Char × List Char :=
  let front := url.takeWhile (· ≠ ':')
  if url.contains ':' && (front.head?.any Char.isAlpha) && front.all isSchemeChar then
    (front.map Char.toLower, (partition ':' url).2)
  else ([], url)

/-- `_splitnetloc` -/
def splitNetloc : List Char → List Char × List Char
  | '/' :: '/' :: rest =>
      let ends := fun char : Char => char ≠ '/' && char ≠ '?' && char ≠ '#'
      (rest.takeWhile ends, rest.dropWhile ends)
  | url => ([], url)

/-- `urlsplit`; `none` is its `ValueError`. -/
def urlsplit (rules : Rules) (text : List Char) : Option Parts :=
  let (scheme, url) := splitScheme (cleaned text)
  let (netloc, url) := splitNetloc url
  if netloc.contains '[' != netloc.contains ']' then none
  else if netloc.contains '[' && !rules.bracketed netloc then none
  else if (netloc.any fun char => 128 ≤ char.toNat) && rules.decomposes netloc then none
  else
    let (url, fragment) := partition '#' url
    let (path, query) := partition '?' url
    some ⟨scheme, netloc, path, query, fragment⟩

/-! ## The authority -/

/-- `username is not None` -/
def hasUsername (netloc : List Char) : Bool :=
  netloc.contains '@'

/-- `password is not None` -/
def hasPassword (netloc : List Char) : Bool :=
  netloc.contains '@' && ((netloc.reverse.dropWhile (· ≠ '@')).drop 1).contains ':'

/-- `_hostinfo`: the host as it is written, and the port. -/
def hostinfo (netloc : List Char) : List Char × List Char :=
  let info := afterLast '@' netloc
  if info.contains '[' then
    let (host, rest) := partition ']' (partition '[' info).2
    (host, (partition ':' rest).2)
  else partition ':' info

/-- `hostname`, with `None` as the empty text. A zone is not turned to lower case. -/
def hostname (rules : Rules) (netloc : List Char) : List Char :=
  let host := (hostinfo netloc).1
  if host = [] then []
  else rules.lower (host.takeWhile (· ≠ '%')) ++ host.dropWhile (· ≠ '%')

/-- `port`; `none` is its `ValueError`. -/
def port (netloc : List Char) : Option (Option Nat) :=
  let text := (hostinfo netloc).2
  if text = [] then some none
  else if text.all Char.isDigit && digitsValue text ≤ 65535 then some (some (digitsValue text))
  else none

/-! ## Plain texts -/

/-- A lower-case letter, a digit or one of `.-:/`. -/
def isPlainChar (char : Char) : Bool :=
  char.isLower || char.isDigit || char = '.' || char = '-' || char = ':' || char = '/'

/-- No colon is followed by a zero. -/
def noZeroPort : List Char → Bool
  | ':' :: '0' :: _ => false
  | _ :: rest => noZeroPort rest
  | [] => true

/-- The text consists of plain characters, and no port in it begins with a zero. -/
def Plain (text : List Char) : Prop :=
  (∀ char ∈ text, isPlainChar char = true) ∧ noZeroPort text = true

variable {rules : Rules} {text first rest host : List Char} {char mark : Char}

theorem isPlainChar_iff : isPlainChar char = true ↔
    (97 ≤ char.toNat ∧ char.toNat ≤ 122) ∨ (48 ≤ char.toNat ∧ char.toNat ≤ 57) ∨
      char = '.' ∨ char = '-' ∨ char = ':' ∨ char = '/' := by
  simp only [isPlainChar, Bool.or_eq_true, decide_eq_true_eq, or_assoc, isLower_iff,
    Char.isDigit_iff_toNat]
  rfl

/-- Plain characters lie between these codes, and none is a capital. -/
theorem toNat_of_isPlainChar (plain : isPlainChar char = true) :
    45 ≤ char.toNat ∧ char.toNat ≤ 122 ∧ (char.toNat ≤ 58 ∨ 97 ≤ char.toNat) := by
  rcases isPlainChar_iff.mp plain with letter | digit | rfl | rfl | rfl | rfl
  · omega
  · omega
  all_goals decide

theorem ne_of_isPlainChar (plain : isPlainChar char = true) (other : isPlainChar mark = false) :
    char ≠ mark := by
  rintro rfl
  rw [plain] at other
  cases other

theorem toLower_of_isPlainChar (plain : isPlainChar char = true) : char.toLower = char := by
  have codes := toNat_of_isPlainChar plain
  refine dif_neg ?_
  rintro ⟨lower, upper⟩
  have low : 65 ≤ char.toNat := UInt32.le_iff_toNat_le.mp lower
  have high : char.toNat ≤ 90 := UInt32.le_iff_toNat_le.mp upper
  omega

theorem partition_append (absent : mark ∉ first) :
    partition mark (first ++ mark :: rest) = (first, rest) := by
  have stops : ∀ char ∈ first, (decide (char ≠ mark)) = true := by
    intro char member
    rw [decide_eq_true_eq]
    rintro rfl
    exact absent member
  rw [partition, List.takeWhile_append_of_pos stops, List.dropWhile_append_of_pos stops]
  simp

theorem partition_absent (absent : mark ∉ text) : partition mark text = (text, []) := by
  have stops : ∀ char ∈ text, (decide (char ≠ mark)) = true := by
    intro char member
    rw [decide_eq_true_eq]
    rintro rfl
    exact absent member
  rw [partition, List.takeWhile_eq_self_iff.mpr stops, List.dropWhile_eq_nil_iff.mpr stops]
  rfl

theorem afterLast_absent (absent : mark ∉ text) : afterLast mark text = text := by
  have stops : ∀ char ∈ text.reverse, (decide (char ≠ mark)) = true := by
    intro char member
    rw [decide_eq_true_eq]
    rintro rfl
    exact absent (List.mem_reverse.mp member)
  rw [afterLast, List.takeWhile_eq_self_iff.mpr stops, List.reverse_reverse]

theorem cleaned_plain (plain : ∀ char ∈ text, isPlainChar char = true) : cleaned text = text := by
  have kept : text.dropWhile (fun char => decide (char.toNat ≤ 32)) = text := by
    cases text with
    | nil => rfl
    | cons char text =>
        have codes := toNat_of_isPlainChar (plain char List.mem_cons_self)
        rw [List.dropWhile_cons_of_neg]
        simp only [decide_eq_true_eq]
        omega
  unfold cleaned
  rw [kept]
  apply List.filter_eq_self.mpr
  intro char member
  have is_plain := plain char member
  simp only [Bool.and_eq_true, decide_eq_true_eq]
  exact ⟨⟨ne_of_isPlainChar is_plain (by decide), ne_of_isPlainChar is_plain (by decide)⟩,
    ne_of_isPlainChar is_plain (by decide)⟩

theorem map_toLower_plain (plain : ∀ char ∈ text, isPlainChar char = true) :
    text.map Char.toLower = text := by
  conv_rhs => rw [← List.map_id text]
  apply List.map_congr_left
  intro char member
  exact toLower_of_isPlainChar (plain char member)

theorem notMem_plain (plain : ∀ char ∈ text, isPlainChar char = true)
    (other : isPlainChar mark = false) : mark ∉ text := by
  intro member
  exact ne_of_isPlainChar (plain mark member) other rfl

/-- A plain authority has no user, and its host is the text before the colon. -/
theorem hostinfo_plain (plain : ∀ char ∈ text, isPlainChar char = true) :
    hostinfo text = partition ':' text := by
  have whole := afterLast_absent (notMem_plain plain (by decide : isPlainChar '@' = false))
  have unbracketed : text.contains '[' = false := by
    rw [← Bool.not_eq_true, List.contains_iff_mem]
    exact notMem_plain plain (by decide)
  unfold hostinfo
  simp only [whole, unbracketed, Bool.false_eq_true, if_false]

/-- A host of plain characters is read as it is written. -/
theorem hostname_plain (plain : ∀ char ∈ text, isPlainChar char = true) :
    hostname rules text = (partition ':' text).1 := by
  have front : ∀ char ∈ (partition ':' text).1, isPlainChar char = true := fun char member =>
    plain char (List.takeWhile_subset _ member)
  have zoneless : ∀ char ∈ (partition ':' text).1, (decide (char ≠ '%')) = true := by
    intro char member
    rw [decide_eq_true_eq]
    exact ne_of_isPlainChar (front char member) (by decide)
  have ascii : ∀ char ∈ (partition ':' text).1, char.toNat < 128 := by
    intro char member
    have codes := toNat_of_isPlainChar (front char member)
    omega
  unfold hostname
  rw [hostinfo_plain plain]
  by_cases empty : (partition ':' text).1 = []
  · simp only [empty, if_true]
  · simp only [if_neg empty]
    rw [List.takeWhile_eq_self_iff.mpr zoneless, List.dropWhile_eq_nil_iff.mpr zoneless,
      rules.lower_ascii _ ascii, map_toLower_plain front, List.append_nil]

/-! ## Plain texts are split into what they are made of -/

variable {url netloc : List Char} {number : Nat}

theorem partition_of_mem (member : mark ∈ text) :
    text = (partition mark text).1 ++ mark :: (partition mark text).2 := by
  obtain ⟨before, after, rfl, absent⟩ := List.eq_append_cons_of_mem member
  rw [partition_append absent]

theorem splitScheme_append (plain : ∀ char ∈ text, isPlainChar char = true)
    (named : (splitScheme text).1 ≠ []) :
    text = (splitScheme text).1 ++ ':' :: (splitScheme text).2 := by
  have front : ∀ char ∈ text.takeWhile (· ≠ ':'), isPlainChar char = true := fun char member =>
    plain char (List.takeWhile_subset _ member)
  unfold splitScheme at named ⊢
  by_cases taken : (text.contains ':' && (text.takeWhile (· ≠ ':')).head?.any Char.isAlpha &&
      (text.takeWhile (· ≠ ':')).all isSchemeChar) = true
  · simp only [if_pos taken, map_toLower_plain front]
    simp only [Bool.and_eq_true, List.contains_iff_mem] at taken
    exact partition_of_mem taken.1.1
  · simp only [if_neg taken] at named
    exact absurd rfl named

theorem splitNetloc_whole (text : List Char) :
    (splitNetloc ('/' :: '/' :: text)).1 ++ (splitNetloc ('/' :: '/' :: text)).2 = text :=
  List.takeWhile_append_dropWhile

theorem splitNetloc_append (nonempty : (splitNetloc url).1 ≠ []) :
    url = '/' :: '/' :: ((splitNetloc url).1 ++ (splitNetloc url).2) := by
  unfold splitNetloc at nonempty ⊢
  split at nonempty
  next rest => simp
  next => exact absurd rfl nonempty

/-- **A plain text is split at its marks**, and has no query and no fragment. -/
theorem urlsplit_plain (plain : ∀ char ∈ text, isPlainChar char = true) :
    urlsplit rules text = some ⟨(splitScheme text).1, (splitNetloc (splitScheme text).2).1,
      (splitNetloc (splitScheme text).2).2, [], []⟩ := by
  have later : ∀ char ∈ (splitScheme text).2, char ∈ text := by
    intro char member
    unfold splitScheme at member
    dsimp only at member
    split at member
    next => exact (List.dropWhile_suffix _).mem (List.mem_of_mem_drop member)
    next => exact member
  have parts : ∀ char, char ∈ (splitNetloc (splitScheme text).2).1 ∨
      char ∈ (splitNetloc (splitScheme text).2).2 → isPlainChar char = true := by
    intro char member
    apply plain char
    apply later
    unfold splitNetloc at member
    split at member
    next rest same =>
      rw [same]
      rcases member with inNetloc | after
      · exact .tail _ (.tail _ (List.takeWhile_subset _ inNetloc))
      · exact .tail _ (.tail _ ((List.dropWhile_suffix _).mem after))
    next =>
      rcases member with inNetloc | after
      · cases inNetloc
      · exact after
  have inNetloc := fun char member => parts char (.inl member)
  have inPath := fun char member => parts char (.inr member)
  have absent : ∀ mark, isPlainChar mark = false →
      (splitNetloc (splitScheme text).2).1.contains mark = false := by
    intro mark other
    rw [← Bool.not_eq_true, List.contains_iff_mem]
    exact notMem_plain inNetloc other
  have ascii : ((splitNetloc (splitScheme text).2).1.any fun char =>
      decide (128 ≤ char.toNat)) = false := by
    rw [List.any_eq_false]
    intro char member
    have codes := toNat_of_isPlainChar (inNetloc char member)
    simp only [decide_eq_true_eq]
    omega
  unfold urlsplit
  rw [cleaned_plain plain]
  simp only [absent '[' (by decide), absent ']' (by decide), ascii, bne_self_eq_false,
    Bool.false_and, Bool.false_eq_true, if_false,
    partition_absent (notMem_plain inPath (by decide : isPlainChar '#' = false)),
    partition_absent (notMem_plain inPath (by decide : isPlainChar '?' = false))]

theorem noZeroPort_of_cons (fine : noZeroPort (char :: rest) = true) :
    noZeroPort rest = true := by
  unfold noZeroPort at fine
  split at fine
  next => cases fine
  next same =>
    rw [(List.cons.inj same).2]
    exact fine
  next same => cases same

theorem noZeroPort_of_append (fine : noZeroPort (first ++ rest) = true) :
    noZeroPort rest = true := by
  induction first with
  | nil => exact fine
  | cons char first ih => exact ih (noZeroPort_of_cons fine)

theorem noZeroPort_cons (other : char ≠ ':') : noZeroPort (char :: rest) = noZeroPort rest := by
  rw [noZeroPort]
  intro _ same
  exact absurd same other

theorem head_of_noZeroPort (fine : noZeroPort (':' :: rest) = true) : rest.head? ≠ some '0' := by
  intro zero
  cases rest with
  | nil => cases zero
  | cons char rest =>
      cases zero
      cases fine

theorem noZeroPort_of_append_left (fine : noZeroPort (first ++ rest) = true) :
    noZeroPort first = true := by
  induction first with
  | nil => rfl
  | cons char first ih =>
      have tail := ih (noZeroPort_of_cons fine)
      by_cases colon : char = ':'
      · subst colon
        cases first with
        | nil => rfl
        | cons digit first =>
            have other : digit ≠ '0' := fun zero =>
              @head_of_noZeroPort (digit :: (first ++ rest)) fine (congrArg some zero)
            rw [noZeroPort]
            · exact tail
            · rintro _ - same
              exact absurd (List.cons.inj same).1 other
      · rw [noZeroPort_cons colon]
        exact tail

theorem noZeroPort_append (absent : ':' ∉ first) :
    noZeroPort (first ++ rest) = noZeroPort rest := by
  induction first with
  | nil => rfl
  | cons char first ih =>
      rw [List.mem_cons, not_or] at absent
      rw [List.cons_append, noZeroPort_cons (Ne.symm absent.1), ih absent.2]

/-- **A plain port is written without leading zeros**, so it is the numeral of its number. -/
theorem port_plain (plain : ∀ char ∈ netloc, isPlainChar char = true)
    (fine : noZeroPort netloc = true) (positive : 0 < number)
    (read : port netloc = some (some number)) :
    netloc = (partition ':' netloc).1 ++ ':' :: natText number := by
  unfold port at read
  rw [hostinfo_plain plain] at read
  dsimp only at read
  split at read
  next => cases read
  next nonempty =>
    split at read
    next digits =>
      have value : digitsValue (partition ':' netloc).2 = number :=
        Option.some.inj (Option.some.inj read)
      have member : ':' ∈ netloc := by
        by_contra absent
        rw [partition_absent absent] at nonempty
        exact nonempty rfl
      have split := partition_of_mem member
      have head : (partition ':' netloc).2.head? ≠ some '0' := by
        apply head_of_noZeroPort
        apply noZeroPort_of_append
        rw [← split]
        exact fine
      simp only [Bool.and_eq_true, List.all_eq_true] at digits
      rw [← value, ← Calendar.eq_natText digits.1 head (value ▸ positive)]
      exact split
    next => cases read

end HomeclusterInfra.UrlSplit
