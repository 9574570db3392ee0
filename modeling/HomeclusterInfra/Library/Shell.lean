import HomeclusterInfra.Library.Text

/-!
# Texts in a shell

The parameter expansions that remove a literal head, a mark at the end, or what
stands before or after the first mark; the output of a command as a command
substitution captures it; and hexadecimal digits packed into bytes. A character
stands for a byte.
-/

set_option autoImplicit false

namespace HomeclusterInfra.Shell

open Text

/-- `${value#head}` -/
def dropHead (head value : List Char) : List Char :=
  if head.isPrefixOf value then value.drop head.length else value

/-- `${value%?}` of one literal character. -/
def dropMark (mark : Char) (value : List Char) : List Char :=
  if value.getLast? = some mark then value.dropLast else value

/-- `${value%%=*}`, whatever the mark is. -/
def beforeFirst (mark : Char) (value : List Char) : List Char :=
  value.takeWhile (· ≠ mark)

/-- `${value#*=}`, whatever the mark is; a value without the mark stays. -/
def afterFirst (mark : Char) (value : List Char) : List Char :=
  if mark ∈ value then (value.dropWhile (· ≠ mark)).tail else value

/-- `${value//x/}` of one literal character, or `tr -d`. -/
def without (marks : List Char) (value : List Char) : List Char :=
  value.filter fun char => !marks.contains char

/-- `$(…)`: the output of a command without NUL bytes and newlines at its end. -/
def captured (output : List Char) : List Char :=
  rstripWhile (· = '\n') (without ['\x00'] output)

/-! ## Hexadecimal digits -/

def isHexDigit (char : Char) : Bool :=
  char.isDigit || ('a' ≤ char && char ≤ 'f') || ('A' ≤ char && char ≤ 'F')

def hexValue (char : Char) : Nat :=
  if char.isDigit then char.toNat - '0'.toNat else char.toNat % 16 + 9

/-- `pack("H*", digits)` -/
def packHex : List Char → List Char
  | [] => []
  | [high] => [Char.ofNat (16 * hexValue high)]
  | high :: low :: digits => Char.ofNat (16 * hexValue high + hexValue low) :: packHex digits

section Lemmas

variable {mark : Char} {head value rest : List Char}

theorem dropHead_append (head rest : List Char) : dropHead head (head ++ rest) = rest := by
  rw [dropHead, if_pos (List.isPrefixOf_iff_prefix.2 (List.prefix_append head rest)),
    List.drop_left]

/-- A head that begins with a character the value lacks is not removed. -/
theorem dropHead_of_notMem (inside : mark ∈ head) (missing : mark ∉ value) :
    dropHead head value = value := by
  rw [dropHead, if_neg]
  intro isPrefix
  exact missing ((List.isPrefixOf_iff_prefix.1 isPrefix).subset inside)

theorem dropMark_append (mark : Char) (value : List Char) :
    dropMark mark (value ++ [mark]) = value := by
  rw [dropMark, if_pos (by simp), List.dropLast_concat]

theorem dropMark_of_notMem (missing : mark ∉ value) : dropMark mark value = value := by
  rw [dropMark, if_neg]
  intro last
  exact missing (List.mem_of_getLast? last)

theorem beforeFirst_append (missing : mark ∉ value) (rest : List Char) :
    beforeFirst mark (value ++ mark :: rest) = value := by
  rw [beforeFirst, List.takeWhile_append_of_pos]
  · simp
  · intro char member
    simpa using fun same : char = mark => missing (same ▸ member)

theorem afterFirst_append (missing : mark ∉ value) (rest : List Char) :
    afterFirst mark (value ++ mark :: rest) = rest := by
  rw [afterFirst, if_pos (by simp), List.dropWhile_append_of_pos]
  · simp
  · intro char member
    simpa using fun same : char = mark => missing (same ▸ member)

theorem without_eq_self {marks : List Char} :
    without marks value = value ↔ ∀ char ∈ value, char ∉ marks := by
  simp [without, List.filter_eq_self]

theorem without_append (marks : List Char) (first second : List Char) :
    without marks (first ++ second) = without marks first ++ without marks second :=
  List.filter_append ..

theorem without_cons {marks : List Char} {char : Char} (kept : char ∉ marks) (value : List Char) :
    without marks (char :: value) = char :: without marks value := by
  rw [without, List.filter_cons_of_pos (by simpa using kept)]
  rfl

theorem mem_without {marks : List Char} {char : Char} :
    char ∈ without marks value ↔ char ∈ value ∧ char ∉ marks := by
  simp [without]

/-- Output without NUL bytes and newlines is captured as it is. -/
theorem captured_eq_self (noNul : '\x00' ∉ value) (noNewline : '\n' ∉ value) :
    captured value = value := by
  have kept : without ['\x00'] value = value :=
    without_eq_self.2 fun char member => by
      simpa using fun same : char = '\x00' => noNul (same ▸ member)
  rw [captured, kept, rstripWhile, List.dropWhile_eq_self_iff.2, List.reverse_reverse]
  intro nonempty
  have last : value.reverse[0] ∈ value := List.mem_reverse.1 (List.getElem_mem nonempty)
  simpa only [decide_eq_true_eq] using
    fun same : value.reverse[0] = '\n' => noNewline (same ▸ last)

/-- A newline at the end is not captured. -/
theorem captured_line (value : List Char) : captured (value ++ ['\n']) = captured value := by
  have kept : without ['\x00'] ['\n'] = ['\n'] := without_eq_self.2 (by simp)
  rw [captured, without_append, kept, rstripWhile, List.reverse_append, List.reverse_singleton,
    List.singleton_append, List.dropWhile_cons_of_pos (by simp)]
  rfl

/-- What is captured was in the output, and is no NUL byte. -/
theorem mem_captured {char : Char} {output : List Char} (member : char ∈ captured output) :
    char ∈ output ∧ char ≠ '\x00' := by
  rw [captured, rstripWhile, List.mem_reverse] at member
  have kept := List.mem_reverse.1 ((List.dropWhile_sublist _).mem member)
  have here := mem_without.1 kept
  exact ⟨here.1, by simpa using here.2⟩

/-- A text without the mark is one piece. -/
theorem splitOn_of_notMem (missing : mark ∉ value) : value.splitOn mark = [value] := by
  have split := @List.splitOn_intercalate Char [value] _ _ mark (by simpa using missing) (by simp)
  rwa [List.intercalate_singleton] at split

end Lemmas

end HomeclusterInfra.Shell
