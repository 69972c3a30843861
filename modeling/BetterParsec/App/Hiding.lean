import BetterParsec.App.Redaction

set_option autoImplicit false
set_option linter.all false

/-!
# What redaction hides

A context holds all of a text but the value of one sensitive key.  `redact` hides the
value if what it returns does not depend on it.  It does where the scanner has not
taken the key for part of an earlier value or token, and where the value cannot pass
for the marker of a bearer token.
-/

namespace BetterParsec

namespace Redaction

-- One of the keys, in any letter case.
structure SensitiveKey where
  chars : List Char
  listed : chars.map Char.toLower ∈ sensitiveKeys

inductive Separator where
  | equals
  | colon
  deriving DecidableEq

def Separator.text : Separator → List Char
  | .equals => ['=']
  | .colon => [':', ' ']

structure Value where
  chars : List Char
  nonempty : chars ≠ []
  inside : ∀ c ∈ chars, isWhitespace c = false

structure Context where
  before : List Char
  key : SensitiveKey
  separator : Separator
  after : List Char
  apart : ∀ c ∈ after.head?, isWhitespace c = true

def Context.text (context : Context) (value : Value) : List Char :=
  context.before ++ (context.key.chars ++ context.separator.text ++ value.chars) ++ context.after

-- `redact` returns, and the same for every value.
def Hides (context : Context) : Prop :=
  ∃ out, ∀ value, redact (context.text value) = some out

section Line

-- The scanner gets through without cutting a character.
def Readable (scan : Scan) (text : List Char) : Prop := (scan.run text).isSome = true

-- Standing here the scanner takes what follows for a key of its own, or hides it anyway.
def Passes (separator : Separator) : Scan → Bool
  | .free beforeSep => !cutsCharacter beforeSep
  | .awaiting sensitive | .inside sensitive => sensitive && separator == .equals

def Reached (separator : Separator) (before : List Char) : Prop :=
  ∃ scan written, (Scan.free []).run before = some (scan, written) ∧
    Passes separator scan = true

end Line

section Keys

def isKeyChar (c : Char) : Bool := !isWhitespace c && !isSeparator c && !isQuote c && c ≠ '\n'

theorem keyChar_of_toLower {c : Char} (lower : isKeyChar c.toLower = true) :
    isKeyChar c = true := by
  by_cases upper : c.val ≥ 'A'.val ∧ c.val ≤ 'Z'.val
  · obtain ⟨low, high⟩ := upper
    have low : 65 ≤ c.val.toNat := UInt32.le_iff_toNat_le.mp low
    have high : c.val.toNat ≤ 90 := UInt32.le_iff_toNat_le.mp high
    have blank : isWhitespace c = false := by
      have same : c.val.toNat = c.toNat := rfl
      simp [isWhitespace, UInt32.le_iff_toNat_le, ← UInt32.toNat_inj]
      omega
    have other {d : Char} (outside : d.val.toNat < 65 ∨ 90 < d.val.toNat) : c ≠ d := by
      rintro rfl
      omega
    simp [isKeyChar, isSeparator, isQuote, blank, other (d := '=') (by decide),
      other (d := ':') (by decide), other (d := '-') (by decide), other (d := '"') (by decide),
      other (d := '\'') (by decide), other (d := '\n') (by decide)]
  · rw [Char.toLower, dif_neg upper] at lower
    exact lower

theorem SensitiveKey.chars_plain (key : SensitiveKey) : ∀ c ∈ key.chars, isKeyChar c = true := by
  intro c member
  have all : ∀ key ∈ sensitiveKeys, key.all isKeyChar = true := by decide +kernel
  exact keyChar_of_toLower (List.all_eq_true.mp (all _ key.listed) _ (List.mem_map_of_mem member))

theorem SensitiveKey.unblank (key : SensitiveKey) : ∀ c ∈ key.chars, isWhitespace c = false := by
  intro c member
  have plain := key.chars_plain c member
  simp only [isKeyChar, Bool.and_eq_true, Bool.not_eq_true'] at plain
  exact plain.1.1.1

theorem SensitiveKey.unseparated (key : SensitiveKey) :
    ∀ c ∈ key.chars, isSeparator c = false := by
  intro c member
  have plain := key.chars_plain c member
  simp only [isKeyChar, Bool.and_eq_true, Bool.not_eq_true'] at plain
  exact plain.1.1.2

theorem SensitiveKey.starts (key : SensitiveKey) :
    ∃ c rest, key.chars = c :: rest ∧ isQuote c = false := by
  cases found : key.chars with
  | nil =>
    have listed := key.listed
    rw [found] at listed
    exact absurd listed (by decide)
  | cons c rest =>
    have plain := key.chars_plain c (by simp [found])
    simp only [isKeyChar, Bool.and_eq_true, Bool.not_eq_true'] at plain
    exact ⟨c, rest, rfl, plain.1.2⟩

theorem takeWhile_reverse_append {p : Char → Bool} {back : List Char} (all : ∀ c ∈ back, p c = true)
    (front : List Char) :
    (front ++ back).reverse.takeWhile p = back.reverse ++ front.reverse.takeWhile p := by
  rw [List.reverse_append, List.takeWhile_append_of_pos]
  exact fun c member => all c (List.mem_reverse.mp member)

theorem suffix_dropWhile {p : Char → Bool} {c : Char} {rest : List Char} (stops : p c = false)
    (front : List Char) : (c :: rest) <:+ (front ++ c :: rest).dropWhile p := by
  induction front with
  | nil => simp [stops]
  | cons first front ih =>
    rw [List.cons_append, List.dropWhile_cons]
    split_ifs
    · exact ih
    · exact ⟨first :: front, rfl⟩

-- Whatever stands right before a sensitive key, the key is sensitive.
theorem keyIsSensitive_key (before : List Char) (key : SensitiveKey) :
    keyIsSensitive (keyOf (before ++ key.chars)) = true := by
  have whole : keyOf (before ++ key.chars) = keyOf before ++ key.chars := by
    rw [keyOf, takeWhile_reverse_append fun c member => by simp [key.unblank c member],
      List.reverse_append, List.reverse_reverse]
    rfl
  have inside : ∀ c ∈ keyOf before ++ key.chars, isWhitespace c = false := by
    intro c member
    rcases List.mem_append.mp member with front | back
    · simpa using List.mem_takeWhile_imp (List.mem_reverse.mp front)
    · exact key.unblank c back
  obtain ⟨c, rest, starts, unquoted⟩ := key.starts
  have suffix : key.chars <:+ (keyOf before ++ key.chars).dropWhile isQuote := by
    rw [starts]
    exact suffix_dropWhile unquoted _
  rw [keyIsSensitive, whole, trim_value inside, List.any_eq_true]
  refine ⟨_, key.listed, ?_⟩
  rw [Bool.or_eq_true, List.isSuffixOf_iff_suffix]
  exact .inl (suffix.map _)

end Keys

section Scanning

variable {before : List Char} {key : SensitiveKey} {separator : Separator}

theorem cutsCharacter_key (before : List Char) (key : SensitiveKey) :
    cutsCharacter (before ++ key.chars) = cutsCharacter before := by
  have none : key.chars.reverse.find? isWhitespace = none := by
    rw [List.find?_eq_none]
    intro c member
    simp [key.unblank c (List.mem_reverse.mp member)]
  rw [cutsCharacter, List.reverse_append, List.find?_append, none]
  rfl

-- A key of its own: its value is sensitive.
theorem run_key (beforeSep : List Char) (cuts : cutsCharacter beforeSep = false) :
    (Scan.free beforeSep).run (key.chars ++ separator.text) =
      some (.awaiting true, key.chars ++ separator.text) := by
  rw [Scan.run_append, Scan.run_free key.unseparated, Option.bind_some]
  cases separator with
  | equals =>
    simp [Separator.text, Scan.run, Scan.next, isSeparator, cutsCharacter_key, cuts,
      keyIsSensitive_key]
  | colon =>
    have space : isWhitespace ' ' = true := by decide
    simp [Separator.text, Scan.run, Scan.next, isSeparator, cutsCharacter_key, cuts,
      keyIsSensitive_key, space]

theorem run_cut (beforeSep : List Char) (cuts : cutsCharacter beforeSep = true) :
    (Scan.free beforeSep).run (key.chars ++ separator.text) = none := by
  rw [Scan.run_append, Scan.run_free key.unseparated, Option.bind_some]
  cases separator <;>
    simp [Separator.text, Scan.run, Scan.next, isSeparator, cutsCharacter_key, cuts]

def valueOf (c : Char) (inside : isWhitespace c = false) : Value :=
  ⟨[c], by simp, by simp [inside]⟩

def valueA : Value := valueOf 'a' (by decide)

def valueB : Value := valueOf 'b' (by decide)

theorem unblank_equals (key : SensitiveKey) (value : Value) :
    ∀ c ∈ key.chars ++ ['='] ++ value.chars, isWhitespace c = false := by
  intro c member
  rcases List.mem_append.mp member with front | inside
  · rcases List.mem_append.mp front with front | equals
    · exact key.unblank c front
    · rw [List.mem_singleton.mp equals]
      decide
  · exact value.inside c inside

-- Where the scanner passes, the value is hidden.
theorem run_passes {scan : Scan} (passes : Passes separator scan = true) :
    ∃ written, ∀ value : Value,
      scan.run (key.chars ++ separator.text ++ value.chars) = some (.inside true, written) := by
  cases scan with
  | free beforeSep =>
    refine ⟨key.chars ++ separator.text ++ redacted, fun value => ?_⟩
    have cuts : cutsCharacter beforeSep = false := by simpa [Passes] using passes
    rw [Scan.run_append, run_key beforeSep cuts, Option.bind_some,
      Scan.run_value value.inside value.nonempty]
    rfl
  | awaiting sensitive =>
    obtain ⟨rfl, rfl⟩ : sensitive = true ∧ separator = .equals := by simpa [Passes] using passes
    refine ⟨redacted, fun value => ?_⟩
    exact Scan.run_value (unblank_equals key value) (by simp) true
  | inside sensitive =>
    obtain ⟨rfl, rfl⟩ : sensitive = true ∧ separator = .equals := by simpa [Passes] using passes
    exact ⟨[], fun value => Scan.run_inside (unblank_equals key value) true⟩

theorem unblank_colon (key : SensitiveKey) :
    ∀ c ∈ key.chars ++ [':'], isWhitespace c = false := by
  intro c member
  rcases List.mem_append.mp member with front | colon
  · exact key.unblank c front
  · rw [List.mem_singleton.mp colon]
    decide

-- A blank behind the key ends the value that the key was taken for.
theorem run_colon {scan : Scan} {sensitive : Bool} {written : List Char}
    (ran : scan.run (key.chars ++ [':']) = some (.inside sensitive, written)) {c : Char}
    (separated : isSeparator c = false) :
    scan.run (key.chars ++ [':', ' '] ++ [c]) = some (.free [' ', c], written ++ [' '] ++ [c]) := by
  have space : isWhitespace ' ' = true := by decide
  have split : key.chars ++ [':', ' '] ++ [c] = key.chars ++ [':'] ++ [' ', c] := by simp
  rw [split, Scan.run_append, ran]
  simp [Scan.run, Scan.next, space, separated]

-- Where it does not, it stops, or two values are told apart.
theorem run_leaks {scan : Scan} (leaks : Passes separator scan = false) :
    (∀ value : Value, scan.run (key.chars ++ separator.text ++ value.chars) = none) ∨
      ∃ written first second,
        scan.run (key.chars ++ separator.text ++ ['a']) = some (first, written ++ ['a']) ∧
          scan.run (key.chars ++ separator.text ++ ['b']) = some (second, written ++ ['b']) := by
  cases scan with
  | free beforeSep =>
    refine .inl fun value => ?_
    have cuts : cutsCharacter beforeSep = true := by simpa [Passes] using leaks
    rw [Scan.run_append, run_cut beforeSep cuts]
    rfl
  | awaiting sensitive =>
    right
    cases separator with
    | equals =>
      obtain rfl : sensitive = false := by simpa [Passes] using leaks
      exact ⟨key.chars ++ ['='], _, _,
        Scan.run_value (unblank_equals key valueA) (by simp) false,
        Scan.run_value (unblank_equals key valueB) (by simp) false⟩
    | colon =>
      have ran := Scan.run_value (unblank_colon key) (by simp) sensitive
      exact ⟨_, _, _, run_colon ran (by decide), run_colon ran (by decide)⟩
  | inside sensitive =>
    right
    cases separator with
    | equals =>
      obtain rfl : sensitive = false := by simpa [Passes] using leaks
      exact ⟨key.chars ++ ['='], _, _, Scan.run_inside (unblank_equals key valueA) false,
        Scan.run_inside (unblank_equals key valueB) false⟩
    | colon =>
      have ran := Scan.run_inside (unblank_colon key) sensitive
      exact ⟨_, _, _, run_colon ran (by decide), run_colon ran (by decide)⟩

-- What the scanner writes of a line, with what follows the value.
theorem out_hides_iff (before : List Char) (key : SensitiveKey) (separator : Separator)
    (behind : Value → List Char) :
    (∃ out, ∀ value : Value, (Scan.free []).out
        (before ++ (key.chars ++ separator.text ++ value.chars) ++ behind value) = some out) ↔
      Reached separator before ∧ ∃ out, ∀ value, (Scan.inside true).out (behind value) = some out := by
  constructor
  · rintro ⟨out, same⟩
    cases ran : (Scan.free []).run before with
    | none =>
      have none := same valueA
      simp [Scan.out, Scan.run_append, ran] at none
    | some found =>
      obtain ⟨scan, written⟩ := found
      have scanned (value : Value) :
          (scan.out (key.chars ++ separator.text ++ value.chars ++ behind value)).map
            (written ++ ·) = some out := by
        rw [← Scan.out_append ran, ← List.append_assoc]
        exact same value
      cases passes : Passes separator scan with
      | false =>
        rcases @run_leaks key _ _ passes with stops | ⟨more, first, second, ranA, ranB⟩
        · have none := scanned valueA
          rw [Scan.out, Scan.run_append, stops valueA] at none
          simp at none
        · -- Both outputs have this character at the same place.
          have outA := scanned valueA
          have outB := scanned valueB
          rw [Scan.out_append (by exact ranA), Option.map_map] at outA
          rw [Scan.out_append (by exact ranB), Option.map_map] at outB
          obtain ⟨restA, -, sameA⟩ := Option.map_eq_some_iff.mp outA
          obtain ⟨restB, -, sameB⟩ := Option.map_eq_some_iff.mp outB
          have equal := sameA.trans sameB.symm
          simp at equal
      | true =>
        refine ⟨⟨scan, written, ran, passes⟩, ?_⟩
        obtain ⟨more, hides⟩ := @run_passes key _ _ passes
        have shown (value : Value) :
            ((Scan.inside true).out (behind value)).map (fun rest => written ++ (more ++ rest)) =
              some out := by
          have line := scanned value
          rw [Scan.out_append (hides value), Option.map_map] at line
          exact line
        obtain ⟨rest, found, first⟩ := Option.map_eq_some_iff.mp (shown valueA)
        refine ⟨rest, fun value => ?_⟩
        obtain ⟨other, found', second⟩ := Option.map_eq_some_iff.mp (shown value)
        rw [found', List.append_cancel_left (List.append_cancel_left (second.trans first.symm))]
  · rintro ⟨⟨scan, written, ran, passes⟩, out, same⟩
    obtain ⟨more, hides⟩ := @run_passes key _ _ passes
    refine ⟨written ++ (more ++ out), fun value => ?_⟩
    rw [List.append_assoc, Scan.out_append ran, Scan.out_append (hides value), same]
    rfl

end Scanning

end Redaction

end BetterParsec
