import BetterParsec.Library.Utf8

set_option autoImplicit false
set_option linter.all false

/-!
# Destination names

`safe_dest_name` of `common/src/file_transfer.rs`, the filter that the name of a
received file passes before it is written, and what a name must not be for
Windows.
-/

namespace BetterParsec

namespace DestName

def reserved : List (List Char) :=
  ["CON", "PRN", "AUX", "NUL", "COM1", "COM2", "COM3", "COM4", "COM5", "COM6", "COM7", "COM8",
    "COM9", "LPT1", "LPT2", "LPT3", "LPT4", "LPT5", "LPT6", "LPT7", "LPT8", "LPT9"].map
    String.toList

def within (c : Char) (first last : Nat) : Bool := first ≤ c.toNat && c.toNat ≤ last

def isBidiOrFormat (c : Char) : Bool :=
  within c 0x200B 0x200F || within c 0x202A 0x202E || within c 0x2066 0x2069 || c.toNat = 0xFEFF

-- `char::is_control`: the general category Cc.
def isControl (c : Char) : Bool := within c 0 0x1F || within c 0x7F 0x9F

-- What Windows forbids in a name, besides control characters.
def isPunctuation (c : Char) : Bool := c ∈ "/\\:<>\"|?*".toList

def isIllegal (c : Char) : Bool := isPunctuation c || c.toNat = 0

def eqIgnoreAsciiCase (a b : List Char) : Bool := a.map Char.toLower = b.map Char.toLower

-- What `split('.')` gives first.
def stem (name : List Char) : List Char := name.takeWhile (· ≠ '.')

def safeDestName (name : List Char) : Option (List Char) :=
  if name = [] ∨ (Utf8.encode name).length > 255 then none
  else if name.any (fun c => isIllegal c || isControl c || isBidiOrFormat c) then none
  else if name = ".".toList ∨ name = "..".toList then none
  else if reserved.any (fun device => eqIgnoreAsciiCase device (stem name)) then none
  else if name.getLast? = some ' ' ∨ name.getLast? = some '.' then none
  else some name

-- The property `Bidi_Control` of Unicode.
def isBidiControl (c : Char) : Bool :=
  c.toNat = 0x061C || within c 0x200E 0x200F || within c 0x202A 0x202E || within c 0x2066 0x2069

-- What else the function lists.
def isFurtherFormat (c : Char) : Bool := within c 0x200B 0x200D || c.toNat = 0xFEFF

def NamesDevice (text : List Char) : Prop :=
  ∃ device ∈ reserved, eqIgnoreAsciiCase device text

-- Windows drops spaces at the end of what stands before the first dot.
def trimmed (text : List Char) : List Char := text.rdropWhile (· = ' ')

structure Safe (name : List Char) : Prop where
  nonempty : name ≠ []
  short : (Utf8.encode name).length ≤ 255
  plain : ∀ c ∈ name, isPunctuation c = false ∧ isControl c = false
  unturned : ∀ c ∈ name, isBidiControl c = false
  apart : name ≠ ".".toList ∧ name ≠ "..".toList
  ends : name.getLast? ≠ some ' ' ∧ name.getLast? ≠ some '.'
  file : ¬ NamesDevice (trimmed (stem name))

-- The names that are let through are safe, and the safe ones are let through.
def Filters (name : List Char) : Prop :=
  (∀ accepted, safeDestName name = some accepted → accepted = name ∧ Safe name) ∧
    (Safe name → (∀ c ∈ name, isFurtherFormat c = false) → safeDestName name = some name)

-- What the function looks for is not there.
structure Checked (name : List Char) : Prop where
  nonempty : name ≠ []
  short : (Utf8.encode name).length ≤ 255
  plain : ∀ c ∈ name, isIllegal c = false ∧ isControl c = false ∧ isBidiOrFormat c = false
  apart : name ≠ ".".toList ∧ name ≠ "..".toList
  ends : name.getLast? ≠ some ' ' ∧ name.getLast? ≠ some '.'
  file : ¬ NamesDevice (stem name)

-- The name of a device, followed by spaces, stands before the first dot.
def SpacedDevice (name : List Char) : Prop :=
  ∃ front spaces, stem name = front ++ List.replicate (spaces + 1) ' ' ∧ NamesDevice front

-- The Arabic letter mark.
def Marked (name : List Char) : Prop := ∃ c ∈ name, c.toNat = 0x061C

section Exactness

variable {name : List Char}

theorem safeDestName_eq_some_iff {accepted : List Char} :
    safeDestName name = some accepted ↔ accepted = name ∧ Checked name := by
  constructor
  · intro passed
    rw [safeDestName] at passed
    split_ifs at passed with size illegal dots device ends
    obtain rfl := Option.some.inj passed
    simp only [not_or, Nat.not_lt] at size dots ends
    simp only [List.any_eq_true, not_exists, not_and, Bool.not_eq_true, Bool.or_eq_false_iff] at illegal
    refine ⟨rfl, size.1, size.2, fun c member => ?_, dots, ends, ?_⟩
    · exact ⟨(illegal c member).1.1, (illegal c member).1.2, (illegal c member).2⟩
    · rintro ⟨reservedName, member, same⟩
      exact device (List.any_eq_true.mpr ⟨reservedName, member, same⟩)
  · rintro ⟨rfl, checked⟩
    rw [safeDestName, if_neg (by simp [checked.nonempty, checked.short]), if_neg, if_neg, if_neg,
      if_neg]
    · simp [checked.ends]
    · rw [List.any_eq_true]
      exact checked.file
    · rw [not_or]
      exact checked.apart
    · rw [List.any_eq_true]
      rintro ⟨c, member, found⟩
      obtain ⟨illegal, control, format⟩ := checked.plain c member
      simp [illegal, control, format] at found

theorem isBidiOrFormat_eq (c : Char) :
    isBidiOrFormat c = ((isBidiControl c && c.toNat ≠ 0x061C) || isFurtherFormat c) := by
  rw [Bool.eq_iff_iff]
  simp only [isBidiOrFormat, isBidiControl, isFurtherFormat, within, Bool.or_eq_true,
    Bool.and_eq_true, decide_eq_true_eq, ne_eq, decide_not, Bool.not_eq_true', decide_eq_false_iff_not]
  omega

theorem namesDevice_unspaced {text : List Char} (device : NamesDevice text) :
    trimmed text = text := by
  obtain ⟨device, member, same⟩ := device
  have ends : ∀ device ∈ reserved, (device.map Char.toLower).getLast? ≠ some ' ' := by decide
  have same : device.map Char.toLower = text.map Char.toLower := of_decide_eq_true same
  refine List.rdropWhile_eq_self_iff.mpr fun some_ space => ends device member ?_
  rw [same, List.getLast?_map, List.getLast?_eq_some_getLast some_, of_decide_eq_true space]
  rfl

theorem trimmed_append_spaces (front : List Char) (spaces : Nat) :
    trimmed (front ++ List.replicate spaces ' ') = trimmed front := by
  induction spaces with
  | zero => rw [List.replicate_zero, List.append_nil]
  | succ spaces ih =>
    rw [List.replicate_succ', ← List.append_assoc]
    exact (List.rdropWhile_concat_pos _ _ _ (by decide)).trans ih

theorem trimmed_spaces (text : List Char) :
    ∃ spaces, text = trimmed text ++ List.replicate spaces ' ' := by
  refine ⟨(text.rtakeWhile (· = ' ')).length, ?_⟩
  have spaces : text.rtakeWhile (· = ' ') =
      List.replicate (text.rtakeWhile (· = ' ')).length ' ' := by
    refine List.eq_replicate_of_mem fun c member => ?_
    simpa using List.mem_rtakeWhile_imp member
  rw [← spaces]
  exact List.rdropWhile_append_rtakeWhile.symm

theorem namesDevice_trimmed_iff :
    NamesDevice (trimmed (stem name)) ↔ NamesDevice (stem name) ∨ SpacedDevice name := by
  constructor
  · intro device
    obtain ⟨spaces, split⟩ := trimmed_spaces (stem name)
    cases spaces with
    | zero =>
      rw [List.replicate_zero, List.append_nil] at split
      exact .inl (split ▸ device)
    | succ spaces => exact .inr ⟨_, spaces, split, device⟩
  · rintro (device | ⟨front, spaces, split, device⟩)
    · rwa [namesDevice_unspaced device]
    · rwa [split, trimmed_append_spaces, namesDevice_unspaced device]

theorem Safe.checked (safe : Safe name) (listed : ∀ c ∈ name, isFurtherFormat c = false) :
    Checked name where
  nonempty := safe.nonempty
  short := safe.short
  plain := by
    intro c member
    obtain ⟨punctuation, control⟩ := safe.plain c member
    have nul : c.toNat ≠ 0 := by
      intro zero
      simp [isControl, within, zero] at control
    exact ⟨by simp [isIllegal, punctuation, nul], control,
      by simp [isBidiOrFormat_eq, safe.unturned c member, listed c member]⟩
  apart := safe.apart
  ends := safe.ends
  file := fun device => safe.file (namesDevice_trimmed_iff.mpr (.inl device))

theorem Checked.safe_iff (checked : Checked name) :
    Safe name ↔ ¬(Marked name ∨ SpacedDevice name) := by
  constructor
  · rintro safe (⟨c, member, mark⟩ | device)
    · have turned := safe.unturned c member
      simp [isBidiControl, mark] at turned
    · exact safe.file (namesDevice_trimmed_iff.mpr (.inr device))
  · intro neither
    obtain ⟨unmarked, unspaced⟩ := not_or.mp neither
    exact {
      nonempty := checked.nonempty
      short := checked.short
      plain := fun c member =>
        ⟨(Bool.or_eq_false_iff.mp (checked.plain c member).1).1, (checked.plain c member).2.1⟩
      unturned := by
        intro c member
        have plain := (checked.plain c member).2.2
        have other : c.toNat ≠ 0x061C := fun mark => unmarked ⟨c, member, mark⟩
        rw [isBidiOrFormat_eq] at plain
        simpa [other] using (Bool.or_eq_false_iff.mp plain).1
      apart := checked.apart
      ends := checked.ends
      file := fun device =>
        (namesDevice_trimmed_iff.mp device).elim checked.file unspaced }

/-- The filter is exact but for the Arabic letter mark and for spaces behind a device. -/
theorem filters_iff (name : List Char) :
    Filters name ↔ ¬(Checked name ∧ (Marked name ∨ SpacedDevice name)) := by
  constructor
  · rintro ⟨sound, -⟩ ⟨checked, slips⟩
    obtain ⟨-, safe⟩ := sound name (safeDestName_eq_some_iff.mpr ⟨rfl, checked⟩)
    exact checked.safe_iff.mp safe slips
  · intro exact_
    refine ⟨fun accepted passed => ?_, fun safe listed => ?_⟩
    · obtain ⟨same, checked⟩ := safeDestName_eq_some_iff.mp passed
      exact ⟨same, checked.safe_iff.mpr fun slips => exact_ ⟨checked, slips⟩⟩
    · exact safeDestName_eq_some_iff.mpr ⟨rfl, safe.checked listed⟩

theorem filters_fails :
    ¬ Filters "CON .txt".toList ∧ ¬ Filters ['a', Char.ofNat 0x061C, 'b'] := by
  constructor
  · intro law
    obtain ⟨-, safe⟩ := law.1 "CON .txt".toList (by decide)
    exact safe.file ⟨"CON".toList, by decide, by decide⟩
  · intro law
    obtain ⟨-, safe⟩ := law.1 ['a', Char.ofNat 0x061C, 'b'] (by decide)
    exact absurd (safe.unturned (Char.ofNat 0x061C) (by decide)) (by decide)

end Exactness

end DestName

end BetterParsec
