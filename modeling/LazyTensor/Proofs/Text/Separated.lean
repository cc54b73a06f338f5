import LazyTensor.Text.Listing
import LazyTensor.Text.Path
import Mathlib.Data.List.Basic
import Mathlib.Data.List.TakeWhile

/-! Texts that can be read back. Decimal digits, and hexadecimal digits behind zeros, give the
number; pieces between separators are found again when no piece contains the separator, and so
is the name at the end of a path.
-/

namespace LazyTensor.Text

theorem repr_injective : Function.Injective Nat.repr := by
  intro left right same
  have digits := congrArg String.toList same
  rw [Nat.toList_repr, Nat.toList_repr] at digits
  have values := congrArg (Nat.ofDigitChars 10 · 0) digits
  simpa only [Nat.ofDigitChars_ten_toDigits] using values

theorem isDigit_toDigits (number : Nat)
    : ∀ char ∈ Nat.toDigits 10 number, char.isDigit = true :=
  fun _ => Nat.isDigit_of_mem_toDigits (by decide) (by decide)

/-- A number has a first digit. -/
theorem toDigits_eq_cons (number : Nat) : ∃ first rest, Nat.toDigits 10 number = first :: rest :=
  List.exists_cons_of_ne_nil Nat.toDigits_ne_nil

theorem notMem_repr {char : Char} (other : char.isDigit = false) (number : Nat)
    : char ∉ number.repr.toList := by
  rw [Nat.toList_repr]
  intro member
  rw [isDigit_toDigits number char member] at other
  cases other

/-- The value of a digit in base sixteen, zero for any other character. -/
def hexValue (digit : Char) : Nat := (hexDigit? digit).getD 0

/-- The number that digits of base sixteen stand for, with what stands in front of them. -/
def hexNumber (front : Nat) (digits : List Char) : Nat :=
  digits.foldl (fun value digit => 16 * value + hexValue digit) front

theorem hexValue_digitChar : ∀ digit < 16, hexValue (Nat.digitChar digit) = digit := by
  decide

/-- Digits of base sixteen tell the number, by induction on the digits. -/
theorem hexNumber_toDigits (number : Nat) : hexNumber 0 (Nat.toDigits 16 number) = number := by
  induction number using Nat.base_induction 16 (by decide) with
  | single digit small =>
      rw [Nat.toDigits_of_lt_base small]
      simp [hexNumber, hexValue_digitChar digit small]
  | digit front last small positive ih =>
      rw [hexNumber] at ih
      rw [← Nat.toDigits_append_toDigits (by decide) positive small,
        Nat.toDigits_of_lt_base small, hexNumber, List.foldl_append, ih]
      simp [hexValue_digitChar last small]

/-- Zeros in front do not count, by induction on their number. -/
theorem hexNumber_zeros (count : Nat) (digits : List Char)
    : hexNumber 0 (List.replicate count '0' ++ digits) = hexNumber 0 digits := by
  induction count with
  | zero => rfl
  | succ count ih => exact ih

/-- Hexadecimal digits tell the number, whatever their width. -/
theorem hexadecimal_injective (width : Nat) : Function.Injective (hexadecimal width) := by
  intro left right same
  have digits := congrArg String.toList same
  simp only [hexadecimal, String.toList_ofList] at digits
  have values := congrArg (hexNumber 0) digits
  simpa only [hexNumber_zeros, hexNumber_toDigits] using values

/-- Digits of base sixteen are the sixteen digits, by induction on the number. -/
theorem exists_digitChar {number : Nat} {char : Char} (member : char ∈ Nat.toDigits 16 number)
    : ∃ digit < 16, char = Nat.digitChar digit := by
  induction number using Nat.base_induction 16 (by decide) with
  | single digit small =>
      rw [Nat.toDigits_of_lt_base small] at member
      exact ⟨digit, small, List.mem_singleton.mp member⟩
  | digit front last small positive ih =>
      rw [← Nat.toDigits_append_toDigits (by decide) positive small,
        Nat.toDigits_of_lt_base small] at member
      rcases List.mem_append.mp member with inside | final
      · exact ih inside
      · exact ⟨last, small, List.mem_singleton.mp final⟩

/-- Hexadecimal digits contain no character that is none of them. -/
theorem notMem_hexadecimal {char : Char} (other : ∀ digit < 16, char ≠ Nat.digitChar digit)
    (width number : Nat)
    : char ∉ (hexadecimal width number).toList := by
  simp only [hexadecimal, String.toList_ofList, List.mem_append, List.mem_replicate, not_or,
    not_and]
  refine ⟨fun _ => other 0 (by decide), ?_⟩
  intro member
  obtain ⟨digit, small, same⟩ := exists_digitChar member
  exact other digit small same

-----------------------------------------------------------------------------------------
-- Marks
-----------------------------------------------------------------------------------------

theorem isDigit_of_mark {char : Char} (mark : char.isAlphanum = false) : char.isDigit = false := by
  rw [Char.isAlphanum, Bool.or_eq_false_iff] at mark
  exact mark.2

theorem notMem_alphanumeric {char : Char} (mark : char.isAlphanum = false) {text : String}
    (plain : text.toList.all Char.isAlphanum = true)
    : char ∉ text.toList := by
  intro member
  have letter := List.all_eq_true.mp plain char member
  rw [mark] at letter
  cases letter

theorem notMem_append_repr {char : Char} (mark : char.isAlphanum = false) {text : String}
    (plain : text.toList.all Char.isAlphanum = true) (number : Nat)
    : char ∉ (text ++ number.repr).toList := by
  rw [String.toList_append, List.mem_append, not_or]
  exact ⟨notMem_alphanumeric mark plain, notMem_repr (isDigit_of_mark mark) number⟩

/-- No mark is within hexadecimal digits. -/
theorem notMem_hexadecimal_of_mark {char : Char} (mark : char.isAlphanum = false)
    (width number : Nat)
    : char ∉ (hexadecimal width number).toList := by
  refine notMem_hexadecimal ?_ width number
  intro digit small same
  subst same
  have letter : ∀ digit < 16, (Nat.digitChar digit).isAlphanum = true := by decide
  rw [letter digit small] at mark
  cases mark

-----------------------------------------------------------------------------------------
-- Pieces between separators
-----------------------------------------------------------------------------------------

/-- Pieces without the separator are found again between separators. -/
theorem eq_of_intercalate_eq (separator : Char) {left right : List String}
    (leftFree : ∀ piece ∈ left, separator ∉ piece.toList)
    (rightFree : ∀ piece ∈ right, separator ∉ piece.toList)
    (leftSome : left ≠ []) (rightSome : right ≠ [])
    (same
      : (String.singleton separator).intercalate left
        = (String.singleton separator).intercalate right)
    : left = right := by
  have pieces := String.toList_split_intercalate leftFree
  rw [same, String.toList_split_intercalate rightFree, if_neg leftSome, if_neg rightSome]
    at pieces
  exact pieces.symm

/-- Separated pieces are the first one and then each other behind a separator, by induction on
the pieces.
-/
theorem intercalate_cons (separator piece : String) (pieces : List String)
    : separator.intercalate (piece :: pieces)
      = piece ++ String.join (pieces.map (separator ++ ·)) := by
  induction pieces generalizing piece with
  | nil => simp
  | cons next rest ih =>
      rw [String.intercalate_cons_cons, ih, List.map_cons, String.join_cons, String.append_assoc,
        String.append_assoc]

theorem joined_cons_ne_empty (separator : String) (value : Nat) (rest : List Nat)
    : joined separator (value :: rest) ≠ "" := by
  rw [joined, List.map_cons, intercalate_cons]
  simp

/-- Numbers between separators that are no digits are found again. -/
theorem joined_injective {separator : Char} (other : separator.isDigit = false)
    : Function.Injective (joined (String.singleton separator)) := by
  intro left right same
  have free (values : List Nat) : ∀ piece ∈ values.map Nat.repr, separator ∉ piece.toList := by
    intro piece member
    obtain ⟨value, _, rfl⟩ := List.mem_map.mp member
    exact notMem_repr other value
  cases left with
  | nil =>
      cases right with
      | nil => rfl
      | cons value rest => exact absurd same.symm (joined_cons_ne_empty _ value rest)
  | cons value rest =>
      cases right with
      | nil => exact absurd same (joined_cons_ne_empty _ value rest)
      | cons value' rest' =>
          exact List.map_injective_iff.mpr repr_injective
            (eq_of_intercalate_eq separator (free _) (free _) (by simp) (by simp) same)

/-- A character that is in no piece and not the separator is not within separated pieces. -/
theorem notMem_intercalate {separator : String} {char : Char} (other : char ∉ separator.toList)
    {pieces : List String} (free : ∀ piece ∈ pieces, char ∉ piece.toList)
    : char ∉ (separator.intercalate pieces).toList := by
  cases pieces with
  | nil => simp
  | cons piece rest =>
      rw [intercalate_cons, String.toList_append, String.toList_join]
      simp only [List.mem_append, List.mem_flatMap, List.mem_map, not_or, not_exists, not_and]
      obtain ⟨first, others⟩ := List.forall_mem_cons.mp free
      refine ⟨first, ?_⟩
      intro _ given
      rcases given with ⟨next, member, rfl⟩
      rw [String.toList_append, List.mem_append, not_or]
      exact ⟨other, others next member⟩

theorem notMem_joined (separator : Char) {char : Char} (digit : char.isDigit = false)
    (other : char ≠ separator) (values : List Nat)
    : char ∉ (joined (String.singleton separator) values).toList := by
  refine notMem_intercalate (by simpa using other) ?_
  intro piece member
  obtain ⟨value, _, rfl⟩ := List.mem_map.mp member
  exact notMem_repr digit value

theorem notMem_joined_of_mark {char : Char} (mark : char.isAlphanum = false) (values : List Nat)
    : char ∉ (joined "x" values).toList := by
  refine notMem_joined 'x' (isDigit_of_mark mark) ?_ values
  intro same
  subst same
  exact absurd mark (by decide)

-----------------------------------------------------------------------------------------
-- Names at the end of paths
-----------------------------------------------------------------------------------------

/-- What stands behind the last separator of a path, read from the end. -/
def lastName (path : String) : List Char := path.toList.reverse.takeWhile (· ≠ '/')

/-- A path is the name or has a separator in front of it. -/
theorem lastName_of_separated {path name : String} (free : '/' ∉ name.toList)
    (separated : path.toList = name.toList ∨ ∃ front, path.toList = front ++ '/' :: name.toList)
    : lastName path = name.toList.reverse := by
  have whole : name.toList.reverse.takeWhile (· ≠ '/') = name.toList.reverse := by
    refine List.takeWhile_eq_self_iff.mpr ?_
    intro char member
    exact decide_eq_true fun same => free (same ▸ List.mem_reverse.mp member)
  rcases separated with same | ⟨front, same⟩
  · rw [lastName, same, whole]
  · rw [lastName, same, List.reverse_append, List.reverse_cons, List.append_assoc,
      List.takeWhile_append_of_pos]
    · simp
    · intro char member
      exact decide_eq_true fun same => free (same ▸ List.mem_reverse.mp member)

/-- A name without separators stands at the end of a joined path. -/
theorem lastName_joinPath (base : String) {name : String} (free : '/' ∉ name.toList)
    : lastName (joinPath base name) = name.toList.reverse := by
  refine lastName_of_separated free ?_
  have relative : name.startsWith "/" = false := by
    rw [String.startsWith_string_eq_false_iff]
    intro given
    rcases given with ⟨rest, same⟩
    exact free (same ▸ List.mem_append_left _ (by decide))
  rw [joinPath, relative, if_neg (by decide)]
  split
  · next ends =>
      rw [Bool.or_eq_true, String.isEmpty_iff] at ends
      rcases ends with rfl | ends
      · exact Or.inl (by simp)
      · rw [← String.endsWith_toSlice, String.Slice.endsWith_string_iff] at ends
        obtain ⟨front, same⟩ := ends
        refine Or.inr ⟨front, ?_⟩
        rw [String.copy_toSlice] at same
        rw [String.toList_append, ← same]
        simp
  · refine Or.inr ⟨base.toList, ?_⟩
    simp

theorem eq_of_joinPath_eq {left right name other : String} (free : '/' ∉ name.toList)
    (otherFree : '/' ∉ other.toList) (same : joinPath left name = joinPath right other)
    : name = other := by
  have names := lastName_joinPath left free
  rw [same, lastName_joinPath right otherFree] at names
  exact String.toList_inj.mp (List.reverse_injective names).symm

end LazyTensor.Text
