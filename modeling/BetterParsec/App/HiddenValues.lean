import BetterParsec.App.BearerTokens
import BetterParsec.App.Hiding

set_option autoImplicit false
set_option linter.all false

/-!
# The values that stay hidden

First a line, where the marker of a bearer token may stand before the key, right behind
the value or further on; then a text, of which the other lines only have to be read.
-/

namespace BetterParsec

namespace Redaction

section Tokens

theorem takeWhile_word {word rest : List Char} (inside : ∀ c ∈ word, isWhitespace c = false)
    (apart : ∀ c ∈ rest.head?, isWhitespace c = true) :
    (word ++ rest).takeWhile (!isWhitespace ·) = word := by
  rw [List.takeWhile_append_of_pos fun c member => by simp [inside c member]]
  cases rest with
  | nil => simp
  | cons c rest => simp [apart c rfl]

theorem dropWhile_word {word rest : List Char} (inside : ∀ c ∈ word, isWhitespace c = false)
    (apart : ∀ c ∈ rest.head?, isWhitespace c = true) :
    (word ++ rest).dropWhile (!isWhitespace ·) = rest := by
  rw [List.dropWhile_append_of_pos fun c member => by simp [inside c member]]
  cases rest with
  | nil => rfl
  | cons c rest => simp [apart c rfl]

theorem dropWhile_apart (text : List Char) :
    ∀ c ∈ (text.dropWhile (!isWhitespace ·)).head?, isWhitespace c = true := by
  intro c first
  have last := List.head?_dropWhile_not (!isWhitespace ·) text
  rw [Option.mem_def.mp first] at last
  simpa using last

theorem redacted_unblank : ∀ c ∈ redacted, isWhitespace c = false := by
  have all : redacted.all (!isWhitespace ·) = true := by decide
  exact fun c member => by simpa using List.all_eq_true.mp all c member

theorem redacted_unseparated : ∀ c ∈ redacted, isSeparator c = false := by
  have all : redacted.all (!isSeparator ·) = true := by decide
  exact fun c member => by simpa using List.all_eq_true.mp all c member

namespace Scan

-- Whitespace is never hidden.
theorem out_apart {scan : Scan} {text out : List Char}
    (apart : ∀ c ∈ text.head?, isWhitespace c = true) (written : scan.out text = some out) :
    ∀ c ∈ out.head?, isWhitespace c = true := by
  cases text with
  | nil =>
    obtain rfl : [] = out := by simpa [Scan.out, run] using written
    exact apart
  | cons c text =>
    have blank := apart c rfl
    have shown : out.head? = some c := by
      cases scan <;>
        simp only [Scan.out, run, next, blank, separator_plain blank, if_true, Bool.false_eq_true,
          if_false, Option.bind_some, Option.map_map] at written
      all_goals
        obtain ⟨later, -, rfl⟩ := Option.map_eq_some_iff.mp written
        rfl
    rw [shown]
    exact apart

-- A word from the start is written as a word, and as itself if that has no separator.
theorem run_word {beforeSep word written : List Char} {scan : Scan}
    (inside : ∀ c ∈ word, isWhitespace c = false)
    (ran : (Scan.free beforeSep).run word = some (scan, written)) :
    (∀ c ∈ written, isWhitespace c = false) ∧
      ((∀ c ∈ written, isSeparator c = false) → written = word) := by
  have split := List.takeWhile_append_dropWhile (p := (!isSeparator ·)) (l := word)
  have plain : ∀ c ∈ word.takeWhile (!isSeparator ·), isSeparator c = false :=
    fun c member => by simpa using List.mem_takeWhile_imp member
  cases found : word.dropWhile (!isSeparator ·) with
  | nil =>
    rw [found, List.append_nil] at split
    rw [split] at plain
    rw [run_free plain] at ran
    obtain ⟨-, rfl⟩ : Scan.free (beforeSep ++ word) = scan ∧ word = written := by
      simpa using ran
    exact ⟨inside, fun _ => rfl⟩
  | cons sep value =>
    have isSep : isSeparator sep = true := by
      have last := List.head_dropWhile_not (!isSeparator ·) (l := word) (by simp [found])
      simpa [found] using last
    have valueInside : ∀ c ∈ value, isWhitespace c = false := fun c member =>
      inside c ((List.dropWhile_suffix _).mem (found ▸ List.mem_cons_of_mem _ member))
    have frontInside : ∀ c ∈ word.takeWhile (!isSeparator ·), isWhitespace c = false :=
      fun c member => inside c ((List.takeWhile_prefix _).mem member)
    have sepInside : isWhitespace sep = false :=
      inside sep ((List.dropWhile_suffix _).mem (found ▸ List.mem_cons_self))
    rw [← split, found, run_append, run_free plain, Option.bind_some, run, next, if_pos isSep]
      at ran
    split_ifs at ran
    · simp at ran
    · -- What is shown for the value is a word as well.
      have shown : ∃ shown, written = word.takeWhile (!isSeparator ·) ++ sep :: shown ∧
          ∀ c ∈ shown, isWhitespace c = false := by
        cases value with
        | nil =>
          simp only [Option.bind_some, run, Option.map_some, Option.some.injEq, Prod.mk.injEq]
            at ran
          exact ⟨[], ran.2.symm, by simp⟩
        | cons c value =>
          rw [Option.bind_some, run_value valueInside (by simp)] at ran
          simp only [Option.map_some, Option.some.injEq, Prod.mk.injEq] at ran
          refine ⟨_, ran.2.symm, ?_⟩
          split_ifs
          · exact redacted_unblank
          · exact valueInside
      obtain ⟨shown, rfl, shownInside⟩ := shown
      constructor
      · intro c member
        rcases List.mem_append.mp member with front | back
        · exact frontInside c front
        · rcases List.mem_cons.mp back with rfl | back
          · exact sepInside
          · exact shownInside c back
      · intro unseparated
        have none := unseparated sep (by simp)
        rw [isSep] at none
        exact absurd none (by decide)

-- A word that is shown as `<redacted>` is that.
theorem out_redacted {beforeSep word rest rest' out : List Char}
    (inside : ∀ c ∈ word, isWhitespace c = false)
    (apart : ∀ c ∈ rest.head?, isWhitespace c = true)
    (apart' : ∀ c ∈ rest'.head?, isWhitespace c = true)
    (shown : (Scan.free beforeSep).out (word ++ rest) = some out)
    (shown' : (Scan.free beforeSep).out (redacted ++ rest') = some out) : word = redacted := by
  rw [out_append (run_free redacted_unseparated beforeSep)] at shown'
  obtain ⟨later', out', same'⟩ := Option.map_eq_some_iff.mp shown'
  cases ran : (Scan.free beforeSep).run word with
  | none => simp [Scan.out, run_append, ran] at shown
  | some found =>
    obtain ⟨scan, written⟩ := found
    rw [out_append ran] at shown
    obtain ⟨later, out, same⟩ := Option.map_eq_some_iff.mp shown
    have words := congrArg (List.takeWhile (!isWhitespace ·)) (same.trans same'.symm)
    have result := run_word inside ran
    rw [takeWhile_word result.1 (out_apart apart out),
      takeWhile_word redacted_unblank (out_apart apart' out')] at words
    rw [← result.2 (by rw [words]; exact redacted_unseparated), words]

-- Behind a marker no value is open.
theorem run_marker {start scan : Scan} {front written : List Char} (ends : marker <:+ front)
    (ran : start.run front = some (scan, written)) : ∃ beforeSep, scan = .free beforeSep := by
  obtain ⟨text, rfl⟩ := ends
  have split : text ++ marker = (text ++ "Beare".toList) ++ ['r', ' '] := by
    have marker : marker = "Beare".toList ++ ['r', ' '] := by decide
    rw [marker, List.append_assoc]
  rw [split, run_append] at ran
  have letter : isWhitespace 'r' = false := by decide
  have space : isWhitespace ' ' = true := by decide
  cases middle : start.run (text ++ "Beare".toList) with
  | none =>
    rw [middle] at ran
    simp at ran
  | some found =>
    obtain ⟨reached, before⟩ := found
    rw [middle] at ran
    cases reached <;> simp [run, next, letter, space, isSeparator] at ran <;> exact ⟨_, ran.1.symm⟩

-- The bearer pass is only not seen where it changes nothing.
theorem out_redactBearer {beforeSep text out : List Char}
    (shown : (Scan.free beforeSep).out text = some out)
    (shown' : (Scan.free beforeSep).out (redactBearer text) = some out) :
    redactBearer text = text := by
  cases found : splitMarker text with
  | none => rw [redactBearer, found]
  | some split =>
    obtain ⟨front, after⟩ := split
    obtain ⟨rfl, ends, -⟩ := splitMarker_eq_some found
    have token := List.takeWhile_append_dropWhile (p := (!isWhitespace ·)) (l := after)
    have inside : ∀ c ∈ after.takeWhile (!isWhitespace ·), isWhitespace c = false :=
      fun c member => by simpa using List.mem_takeWhile_imp member
    have pass : redactBearer (front ++ after) =
        front ++ (redacted ++ after.dropWhile (!isWhitespace ·)) := by
      rw [redactBearer, found]
      exact List.append_assoc ..
    cases ran : (Scan.free beforeSep).run front with
    | none => simp [Scan.out, run_append, ran] at shown
    | some reached =>
      obtain ⟨scan, written⟩ := reached
      obtain ⟨behind, rfl⟩ := run_marker ends ran
      rw [out_append ran] at shown
      rw [pass, out_append ran] at shown'
      obtain ⟨later, outAfter, same⟩ := Option.map_eq_some_iff.mp shown
      obtain ⟨later', outPass, same'⟩ := Option.map_eq_some_iff.mp shown'
      have equal := List.append_cancel_left (same.trans same'.symm)
      rw [← token] at outAfter
      have hidden := out_redacted inside (dropWhile_apart after) (dropWhile_apart after) outAfter
        (by rw [equal]; exact outPass)
      rw [pass, ← hidden, token]

end Scan

end Tokens

section Line

-- What the bearer pass makes of the text behind a value that ends in `Bearer`.
def bearerBehind (after : List Char) : List Char :=
  ' ' :: redacted ++ after.tail.dropWhile (!isWhitespace ·)

-- The word behind the value says `<redacted>`, and so does the first bearer token.
def AlreadyRedacted (after : List Char) : Prop :=
  bearerBehind after = after ∧ redactBearer after = after

-- The condition on a line, without its key and value.
def LineCovered (before : List Char) (separator : Separator) (after : List Char) : Prop :=
  match splitMarker before with
  | some (front, token) =>
    if token.any isWhitespace then
      Reached separator (redactBearer before) ∧ Readable (.inside true) after
    -- The token of the marker reaches up to the key.
    else separator = .equals ∧ Readable (.free []) (front ++ redacted ++ after)
  | none =>
    Reached separator before ∧ Readable (.inside true) (redactBearer after) ∧
      (after.head? = some ' ' → AlreadyRedacted after)

theorem redactBearer_cons {c : Char} (blank : isWhitespace c = true) (after : List Char) :
    redactBearer (c :: after) = c :: redactBearer after := by
  have long : ¬ marker.length ≤ 1 := by decide
  have short : ¬ marker <:+: [] ++ [c] := fun short => long short.length_le
  exact redactBearer_blank blank short

theorem redactBearer_append {text after : List Char} (unmarked : ¬ marker <:+: text)
    (apart : ∀ c ∈ after.head?, isWhitespace c = true) :
    redactBearer (text ++ after) = text ++
      if bearer.isSuffixOf text ∧ after.head? = some ' ' then bearerBehind after
      else redactBearer after := by
  cases after with
  | nil =>
    have none := (splitMarker_eq_none_iff text).mpr unmarked
    simp [redactBearer, none, splitMarker]
  | cons c after =>
    have blank := apart c rfl
    by_cases marked : marker <:+ text ++ [c]
    · obtain ⟨rfl, ends⟩ := suffix_marker_iff.mp marked
      rw [if_pos ⟨List.isSuffixOf_iff_suffix.mpr ends, rfl⟩, redactBearer_marked unmarked ends]
      simp [bearerBehind]
    · rw [if_neg, redactBearer_cons blank]
      · refine redactBearer_blank blank ?_
        rw [List.infix_concat_iff, not_or]
        exact ⟨marked, unmarked⟩
      · rintro ⟨ends, first⟩
        obtain rfl : c = ' ' := by simpa using first
        exact marked (suffix_marker_iff.mpr ⟨rfl, List.isSuffixOf_iff_suffix.mp ends⟩)

theorem unmarked_word {word : List Char} (inside : ∀ c ∈ word, isWhitespace c = false) :
    ¬ marker <:+: word := by
  have none : ¬ marker <:+: [] ++ word :=
    unmarked_append (fun short => absurd short.length_le (by decide)) fun c member space => by
      have blank := inside c member
      rw [space] at blank
      exact absurd blank (by decide)
  simpa using none

theorem redactBearer_apart {after : List Char} (apart : ∀ c ∈ after.head?, isWhitespace c = true) :
    ∀ c ∈ (redactBearer after).head?, isWhitespace c = true := by
  cases after with
  | nil => exact apart
  | cons c after =>
    rw [redactBearer_cons (apart c rfl)]
    exact apart

-- The passes behind a value that ends in `Bearer` and behind another one differ in the output,
-- if they differ at all.
theorem alreadyRedacted {after out : List Char} (starts : after.head? = some ' ')
    (shown : (Scan.inside true).out (bearerBehind after) = some out)
    (shown' : (Scan.inside true).out (redactBearer after) = some out) :
    AlreadyRedacted after := by
  cases after with
  | nil => exact absurd starts (by simp)
  | cons c after =>
    obtain rfl : c = ' ' := by simpa using starts
    have space : isWhitespace ' ' = true := by decide
    have step : (Scan.inside true).run [' '] = some (.free [' '], [' ']) := by
      simp [Scan.run, Scan.next, space]
    have behind : redactBearer (' ' :: after) = [' '] ++ redactBearer after :=
      redactBearer_cons space after
    have token := List.takeWhile_append_dropWhile (p := (!isWhitespace ·)) (l := after)
    have inside : ∀ c ∈ after.takeWhile (!isWhitespace ·), isWhitespace c = false :=
      fun c member => by simpa using List.mem_takeWhile_imp member
    have rest := dropWhile_apart after
    have split : bearerBehind (' ' :: after) =
        [' '] ++ (redacted ++ after.dropWhile (!isWhitespace ·)) := rfl
    rw [split, Scan.out_append step] at shown
    rw [behind, Scan.out_append step] at shown'
    obtain ⟨later, outBehind, same⟩ := Option.map_eq_some_iff.mp shown
    obtain ⟨later', outPass, same'⟩ := Option.map_eq_some_iff.mp shown'
    obtain rfl := List.append_cancel_left (same.trans same'.symm)
    have pass := redactBearer_append (unmarked_word inside) rest
    rw [token] at pass
    have hidden : after.takeWhile (!isWhitespace ·) = redacted := by
      have passed := outPass
      rw [pass] at passed
      refine Scan.out_redacted inside ?_ rest passed outBehind
      split_ifs
      · intro c first
        obtain rfl : ' ' = c := by simpa [bearerBehind] using first
        exact space
      · exact redactBearer_apart rest
    rw [hidden] at token
    rw [token] at outBehind
    refine ⟨by rw [split, token]; rfl, ?_⟩
    rw [behind, Scan.out_redactBearer outBehind outPass]
    rfl

variable {before after : List Char} {key : SensitiveKey} {separator : Separator}

theorem out_constant_iff (scan : Scan) (text : List Char) :
    (∃ out, ∀ _ : Value, scan.out text = some out) ↔ Readable scan text := by
  rw [Readable, Option.isSome_iff_exists, Scan.out]
  constructor
  · rintro ⟨out, same⟩
    obtain ⟨found, ran, -⟩ := Option.map_eq_some_iff.mp (same valueA)
    exact ⟨found, ran⟩
  · rintro ⟨found, ran⟩
    exact ⟨found.2, fun _ => by rw [ran]; rfl⟩

theorem out_hides_constant_iff (before : List Char) (key : SensitiveKey) (separator : Separator)
    (behind : List Char) :
    (∃ out, ∀ value : Value, (Scan.free []).out
        (before ++ (key.chars ++ separator.text ++ value.chars) ++ behind) = some out) ↔
      Reached separator before ∧ Readable (.inside true) behind := by
  rw [out_hides_iff before key separator fun _ => behind, out_constant_iff]

theorem unmarked_key (unmarked : ¬ marker <:+: before) (value : Value) :
    ¬ marker <:+: before ++ (key.chars ++ separator.text ++ value.chars) := by
  have unspaced {word : List Char} (inside : ∀ c ∈ word, isWhitespace c = false) :
      ∀ c ∈ word, c ≠ ' ' := by
    rintro c member rfl
    exact absurd (inside ' ' member) (by decide)
  have separated : ¬ marker <:+: before ++ key.chars ++ separator.text := by
    have unmarked := unmarked_append unmarked (unspaced key.unblank)
    cases separator with
    | equals => exact unmarked_append unmarked (List.forall_mem_singleton.mpr (by decide))
    | colon =>
      have split : before ++ key.chars ++ Separator.colon.text =
          before ++ key.chars ++ [':'] ++ [' '] := by simp [Separator.text]
      rw [split, List.infix_concat_iff, suffix_marker_iff, not_or]
      refine ⟨?_, unmarked_append unmarked (List.forall_mem_singleton.mpr (by decide))⟩
      rintro ⟨-, ends⟩
      have last : bearer.getLast? = some ':' := by
        obtain ⟨front, same⟩ := ends
        have more : bearer ≠ [] := by decide
        rw [← List.getLast?_append_of_ne_nil front more, same, List.getLast?_concat]
      exact absurd last (by decide)
  have value := unmarked_append separated (unspaced value.inside)
  simpa using value

-- Neither `=` nor a blank is in the marker.
theorem ends_bearer_iff (before : List Char) (key : SensitiveKey) (separator : Separator)
    (value : Value) :
    bearer <:+ before ++ (key.chars ++ separator.text ++ value.chars) ↔ bearer <:+ value.chars := by
  have split : ∃ front sep, sep ∉ bearer ∧
      before ++ (key.chars ++ separator.text ++ value.chars) = front ++ sep :: value.chars := by
    cases separator with
    | equals => exact ⟨before ++ key.chars, '=', by decide, by simp [Separator.text]⟩
    | colon => exact ⟨before ++ key.chars ++ [':'], ' ', by decide, by simp [Separator.text]⟩
  obtain ⟨front, sep, other, split⟩ := split
  rw [split]
  constructor
  · intro ends
    rcases List.suffix_or_suffix_of_suffix ends (List.suffix_append front (sep :: value.chars)) with
      short | long
    · rcases List.suffix_cons_iff.mp short with same | short
      · exact absurd (same ▸ List.mem_cons_self) other
      · exact short
    · exact absurd (long.mem List.mem_cons_self) other
  · intro ends
    exact ends.trans ((List.suffix_cons sep _).trans (List.suffix_append front _))

def valueBearer : Value :=
  ⟨bearer, by decide, fun _ member =>
    Bool.eq_false_iff.mpr fun blank => blank_not_mem_bearer blank member⟩

-- Where no marker stands before the key, the bearer pass leaves all before the value's end.
theorem line_unmarked_iff (unmarked : ¬ marker <:+: before)
    (apart : ∀ c ∈ after.head?, isWhitespace c = true) :
    (∃ out, ∀ value : Value,
        redactLine (before ++ (key.chars ++ separator.text ++ value.chars) ++ after) = some out) ↔
      Reached separator before ∧ Readable (.inside true) (redactBearer after) ∧
        (after.head? = some ' ' → AlreadyRedacted after) := by
  let behind (value : Value) : List Char :=
    if bearer.isSuffixOf value.chars ∧ after.head? = some ' ' then bearerBehind after
    else redactBearer after
  have pass (value : Value) :
      redactBearer (before ++ (key.chars ++ separator.text ++ value.chars) ++ after) =
        before ++ (key.chars ++ separator.text ++ value.chars) ++ behind value := by
    rw [redactBearer_append (unmarked_key unmarked value) apart]
    simp only [behind, List.isSuffixOf_iff_suffix, ends_bearer_iff]
  simp only [redactLine_scan, pass]
  rw [out_hides_iff]
  refine and_congr_right fun _ => ?_
  constructor
  · rintro ⟨out, same⟩
    have plain : behind valueA = redactBearer after :=
      if_neg fun both => absurd both.1 (by decide)
    have shown := same valueA
    rw [plain] at shown
    refine ⟨?_, fun starts => ?_⟩
    · obtain ⟨found, ran, -⟩ := Option.map_eq_some_iff.mp shown
      rw [Readable, ran]
      rfl
    · have marked : behind valueBearer = bearerBehind after := if_pos ⟨by decide, starts⟩
      have other := same valueBearer
      rw [marked] at other
      exact alreadyRedacted starts other shown
  · rintro ⟨readable, already⟩
    obtain ⟨found, ran⟩ := Option.isSome_iff_exists.mp readable
    refine ⟨found.2, fun value => ?_⟩
    have rest : behind value = redactBearer after := by
      by_cases ends : bearer.isSuffixOf value.chars ∧ after.head? = some ' '
      · have found := already ends.2
        simp only [behind, if_pos ends]
        rw [found.1, found.2]
      · simp only [behind, if_neg ends]
    rw [rest, Scan.out, ran]
    rfl

-- Behind the token of a marker the scanner is free, and a value after a blank is shown.
theorem not_hides_token {front : List Char} (ends : marker <:+ front) (after : List Char) :
    ¬ ∃ out, ∀ value : Value, (Scan.free []).out
      (front ++ redacted ++ ' ' :: (value.chars ++ after)) = some out := by
  rintro ⟨out, same⟩
  cases ran : (Scan.free []).run front with
  | none =>
    have none := same valueA
    rw [List.append_assoc, Scan.out, Scan.run_append, ran] at none
    exact absurd none (by simp)
  | some found =>
    obtain ⟨scan, written⟩ := found
    obtain ⟨beforeSep, rfl⟩ := Scan.run_marker ends ran
    have shown (c : Char) (inside : isWhitespace c = false) (other : isSeparator c = false) :
        ∃ later, written ++ (redacted ++ [' '] ++ [c] ++ later) = out := by
      have line := same (valueOf c inside)
      have split : front ++ redacted ++ ' ' :: ((valueOf c inside).chars ++ after) =
          front ++ ((redacted ++ [' '] ++ [c]) ++ after) := by simp [valueOf]
      have plain : ∀ d ∈ redacted ++ [' '] ++ [c], isSeparator d = false := by
        intro d member
        rcases List.mem_append.mp member with front | last
        · rcases List.mem_append.mp front with word | space
          · exact redacted_unseparated d word
          · rw [List.mem_singleton.mp space]
            decide
        · rwa [List.mem_singleton.mp last]
      rw [split, Scan.out_append ran, Scan.out_append (Scan.run_free plain beforeSep),
        Option.map_map] at line
      obtain ⟨later, -, line⟩ := Option.map_eq_some_iff.mp line
      exact ⟨later, line⟩
    obtain ⟨laterA, sameA⟩ := shown 'a' (by decide) (by decide)
    obtain ⟨laterB, sameB⟩ := shown 'b' (by decide) (by decide)
    have equal := sameA.trans sameB.symm
    simp at equal

theorem line_hides_iff (before : List Char) (key : SensitiveKey) (separator : Separator)
    {after : List Char} (apart : ∀ c ∈ after.head?, isWhitespace c = true) :
    (∃ out, ∀ value : Value,
        redactLine (before ++ (key.chars ++ separator.text ++ value.chars) ++ after) = some out) ↔
      LineCovered before separator after := by
  unfold LineCovered
  cases found : splitMarker before with
  | none => exact line_unmarked_iff ((splitMarker_eq_none_iff before).mp found) apart
  | some split =>
    obtain ⟨front, token⟩ := split
    have pass (value : Value) :
        redactBearer (before ++ (key.chars ++ separator.text ++ value.chars) ++ after) =
          front ++ redacted ++
            (token ++ (key.chars ++ separator.text ++ value.chars ++ after)).dropWhile
              (!isWhitespace ·) := by
      rw [List.append_assoc, redactBearer, splitMarker_append found]
    simp only [redactLine_scan, pass]
    by_cases ended : token.any isWhitespace = true
    · -- The token ends before the key.
      have rest : (token.dropWhile (!isWhitespace ·)).isEmpty = false := by
        obtain ⟨c, member, blank⟩ := List.any_eq_true.mp ended
        cases dropped : token.dropWhile (!isWhitespace ·) with
        | cons => rfl
        | nil =>
          have inside := List.dropWhile_eq_nil_iff.mp dropped c member
          rw [blank] at inside
          exact absurd inside (by decide)
      rw [if_pos ended, ← out_hides_constant_iff _ key]
      have before : redactBearer before =
          front ++ redacted ++ token.dropWhile (!isWhitespace ·) := by rw [redactBearer, found]
      simp only [List.dropWhile_append, rest, before, List.append_assoc, Bool.false_eq_true,
        if_false]
    · have inside : ∀ c ∈ token, isWhitespace c = false := by simpa using ended
      rw [if_neg ended]
      cases separator with
      | equals =>
        have dropped (value : Value) :
            (token ++ (key.chars ++ ['='] ++ value.chars ++ after)).dropWhile (!isWhitespace ·) =
              after := by
          rw [← List.append_assoc]
          refine dropWhile_word (fun c member => ?_) apart
          rcases List.mem_append.mp member with front | back
          · exact inside c front
          · exact unblank_equals key value c back
        simp only [Separator.text, dropped, true_and]
        exact out_constant_iff _ _
      | colon =>
        have dropped (value : Value) :
            (token ++ (key.chars ++ [':', ' '] ++ value.chars ++ after)).dropWhile
              (!isWhitespace ·) = ' ' :: (value.chars ++ after) := by
          have split : token ++ (key.chars ++ [':', ' '] ++ value.chars ++ after) =
              (token ++ (key.chars ++ [':'])) ++ ' ' :: (value.chars ++ after) := by simp
          have space : isWhitespace ' ' = true := by decide
          rw [split]
          refine dropWhile_word (fun c member => ?_) (by simpa using space)
          rcases List.mem_append.mp member with front | back
          · exact inside c front
          · exact unblank_colon key c back
        simp only [Separator.text, dropped, reduceCtorEq, false_and, iff_false]
        exact not_hides_token (splitMarker_eq_some found).2.1 after

end Line

section Lines

-- The lines that a text ends, and the one that it leaves open.
def closedLines : List Char → List Char → List (List Char) × List Char
  | current, [] => ([], current)
  | current, c :: rest =>
    if c = '\n' then
      let later := closedLines [] rest
      (stripReturn current :: later.1, later.2)
    else closedLines (current ++ [c]) rest

theorem linesFrom_append (current text rest : List Char) :
    linesFrom current (text ++ rest) =
      (closedLines current text).1 ++ linesFrom (closedLines current text).2 rest := by
  induction text generalizing current with
  | nil => rfl
  | cons c text ih =>
    rw [List.cons_append, linesFrom, closedLines]
    split_ifs
    · rw [ih]
      rfl
    · rw [ih]

theorem linesFrom_open {word : List Char} (within : ∀ c ∈ word, c ≠ '\n')
    (current rest : List Char) :
    linesFrom current (word ++ rest) = linesFrom (current ++ word) rest := by
  induction word generalizing current with
  | nil => simp
  | cons c word ih =>
    rw [List.cons_append, linesFrom, if_neg (within c List.mem_cons_self),
      ih fun c member => within c (List.mem_cons_of_mem _ member)]
    simp

def lastLine (text : List Char) : List Char := (closedLines [] text).2

-- What a text adds to the line it stands behind.
def lineEnd (text : List Char) : List Char :=
  let line := text.takeWhile (· ≠ '\n')
  if '\n' ∈ text then stripReturn line else line

def linesBefore (text : List Char) : List (List Char) := (closedLines [] text).1

def linesAfter (text : List Char) : List (List Char) := lines (text.dropWhile (· ≠ '\n')).tail

theorem stripReturn_append {line rest : List Char} (kept : line.getLast? ≠ some '\r') :
    stripReturn (line ++ rest) = line ++ stripReturn rest := by
  cases rest using List.reverseRecOn with
  | nil => simp [stripReturn, kept]
  | append_singleton rest c =>
    rw [← List.append_assoc, stripReturn, stripReturn]
    simp only [List.getLast?_concat, List.dropLast_concat]
    split_ifs <;> simp

theorem linesFrom_end {line : List Char} (more : line ≠ [])
    (kept : line.getLast? ≠ some '\r') (after : List Char) :
    linesFrom line after = (line ++ lineEnd after) :: linesAfter after := by
  have split := List.takeWhile_append_dropWhile (p := (· ≠ '\n')) (l := after)
  have within : ∀ c ∈ after.takeWhile (· ≠ '\n'), c ≠ '\n' := fun c member => by
    simpa using List.mem_takeWhile_imp member
  cases found : after.dropWhile (· ≠ '\n') with
  | nil =>
    rw [found, List.append_nil] at split
    have none : '\n' ∉ after := fun member => within _ (split.symm ▸ member) rfl
    rw [lineEnd, if_neg none, split]
    have whole := linesFrom_open (fun c member => within c (split.symm ▸ member)) line []
    rw [List.append_nil] at whole
    rw [whole, linesFrom, if_neg (by simp [more]), linesAfter, found]
    rfl
  | cons c rest =>
    have first := List.head?_dropWhile_not (· ≠ '\n') after
    rw [found] at first
    obtain rfl : c = '\n' := by simpa using first
    have member : '\n' ∈ after := (List.dropWhile_suffix _).mem (found ▸ List.mem_cons_self)
    rw [lineEnd, if_pos member, ← stripReturn_append kept, linesAfter, found]
    conv_lhs => rw [← split, found]
    rw [linesFrom_open within, linesFrom, if_pos rfl]
    rfl

theorem lines_context (context : Context) (value : Value) :
    lines (context.text value) = linesBefore context.before ++
      (lastLine context.before ++ (context.key.chars ++ context.separator.text ++ value.chars) ++
        lineEnd context.after) :: linesAfter context.after := by
  have feed : isWhitespace '\n' = true := by decide
  have within : ∀ c ∈ context.key.chars ++ context.separator.text ++ value.chars, c ≠ '\n' := by
    rintro c member rfl
    rcases List.mem_append.mp member with front | inside
    · rcases List.mem_append.mp front with inside | separator
      · exact absurd (context.key.unblank _ inside) (by simp [feed])
      · cases same : context.separator <;> rw [same] at separator <;>
          exact absurd separator (by decide)
    · exact absurd (value.inside _ inside) (by simp [feed])
  have more := value.nonempty
  have kept : (lastLine context.before ++
      (context.key.chars ++ context.separator.text ++ value.chars)).getLast? ≠ some '\r' := by
    rw [← List.append_assoc, List.getLast?_append_of_ne_nil _ more]
    intro last
    have inside := value.inside _ (List.mem_of_getLast? last)
    exact absurd inside (by decide)
  rw [lines, Context.text, List.append_assoc, linesFrom_append, linesFrom_open within]
  exact congrArg _ (linesFrom_end (by simp [more]) kept _)

theorem lineEnd_apart {after : List Char} (apart : ∀ c ∈ after.head?, isWhitespace c = true) :
    ∀ c ∈ (lineEnd after).head?, isWhitespace c = true := by
  have short : lineEnd after <+: after := by
    have line := List.takeWhile_prefix (· ≠ '\n') (l := after)
    rw [lineEnd, stripReturn]
    split_ifs
    · exact (List.dropLast_prefix _).trans line
    · exact line
    · exact line
  obtain ⟨rest, whole⟩ := short
  intro c first
  exact apart c (by rw [← whole, List.head?_append, Option.mem_def.mp first]; rfl)

theorem mapM_isSome_iff (f : List Char → Option (List Char)) (texts : List (List Char)) :
    (texts.mapM f).isSome = true ↔ ∀ text ∈ texts, (f text).isSome = true := by
  induction texts with
  | nil => simp
  | cons text texts ih =>
    rw [List.mapM_cons, List.forall_mem_cons, ← ih]
    cases f text with
    | none => simp
    | some shown => cases texts.mapM f <;> simp

theorem intercalate_middle (front back : List (List Char)) :
    ∃ before after, ∀ line : List Char,
      List.intercalate ['\n'] (front ++ line :: back) = before ++ (line ++ after) := by
  induction front with
  | nil =>
    cases back with
    | nil => exact ⟨[], [], fun line => by simp⟩
    | cons next back =>
      exact ⟨[], _, fun line => by rw [List.nil_append, List.intercalate_cons_cons]; simp; rfl⟩
  | cons first front ih =>
    obtain ⟨before, after, same⟩ := ih
    refine ⟨first ++ ['\n'] ++ before, after, fun line => ?_⟩
    rw [List.cons_append, List.intercalate_cons_of_ne_nil (by simp), same]
    simp

-- Around one line of a text.
theorem mapM_middle_iff (f : List Char → Option (List Char)) (front back : List (List Char))
    (line : Value → List Char) :
    (∃ out, ∀ value,
        ((front ++ line value :: back).mapM f).map (List.intercalate ['\n']) = some out) ↔
      ((front.mapM f).isSome = true ∧ (back.mapM f).isSome = true) ∧
        ∃ out, ∀ value, f (line value) = some out := by
  constructor
  · rintro ⟨out, same⟩
    have parts (value : Value) : ∃ shownFront shown shownBack, front.mapM f = some shownFront ∧
        f (line value) = some shown ∧ back.mapM f = some shownBack ∧
          List.intercalate ['\n'] (shownFront ++ shown :: shownBack) = out := by
      obtain ⟨all, found, joined⟩ := Option.map_eq_some_iff.mp (same value)
      rw [List.mapM_append] at found
      obtain ⟨shownFront, foundFront, found⟩ := Option.bind_eq_some_iff.mp found
      rw [List.mapM_cons] at found
      obtain ⟨rest, found, whole⟩ := Option.bind_eq_some_iff.mp found
      obtain ⟨shown, foundLine, found⟩ := Option.bind_eq_some_iff.mp found
      obtain ⟨shownBack, foundBack, last⟩ := Option.bind_eq_some_iff.mp found
      obtain rfl := Option.some.inj last
      obtain rfl := Option.some.inj whole
      exact ⟨shownFront, shown, shownBack, foundFront, foundLine, foundBack, joined⟩
    obtain ⟨shownFront, shown, shownBack, foundFront, foundLine, foundBack, whole⟩ := parts valueA
    refine ⟨⟨by rw [foundFront]; rfl, by rw [foundBack]; rfl⟩, shown, fun value => ?_⟩
    obtain ⟨shownFront', shown', shownBack', foundFront', foundLine', foundBack', whole'⟩ :=
      parts value
    obtain rfl := Option.some.inj (foundFront.symm.trans foundFront')
    obtain rfl := Option.some.inj (foundBack.symm.trans foundBack')
    obtain ⟨before, after, joined⟩ := intercalate_middle shownFront shownBack
    rw [joined] at whole whole'
    have equal := List.append_cancel_left (whole'.trans whole.symm)
    rw [foundLine', List.append_cancel_right equal]
  · rintro ⟨⟨foundFront, foundBack⟩, out, same⟩
    obtain ⟨shownFront, foundFront⟩ := Option.isSome_iff_exists.mp foundFront
    obtain ⟨shownBack, foundBack⟩ := Option.isSome_iff_exists.mp foundBack
    refine ⟨List.intercalate ['\n'] (shownFront ++ out :: shownBack), fun value => ?_⟩
    rw [List.mapM_append, foundFront, List.mapM_cons, same, foundBack]
    rfl

theorem readable_iff (line : List Char) :
    (redactLine line).isSome = true ↔ Readable (.free []) (redactBearer line) := by
  rw [redactLine_scan, Scan.out, Option.isSome_map, Readable]

end Lines

-- A value is hidden exactly where its line covers it and every other line is read.
theorem redact_hides_iff (context : Context) :
    Hides context ↔
      (∀ line ∈ linesBefore context.before ++ linesAfter context.after,
        Readable (.free []) (redactBearer line)) ∧
      LineCovered (lastLine context.before) context.separator (lineEnd context.after) := by
  simp only [Hides, redact, lines_context, mapM_middle_iff, mapM_isSome_iff, readable_iff,
    List.forall_mem_append]
  exact and_congr_right fun _ => line_hides_iff _ _ _ (lineEnd_apart context.apart)

-- `password=…` is the value of `error:`.
def behindError : Context where
  before := "error: ".toList
  key := ⟨"password".toList, by decide⟩
  separator := .equals
  after := []
  apart := by simp

def hunter : Value := ⟨"hunter2".toList, by decide, by
  have all : ("hunter2".toList).all (!isWhitespace ·) = true := by decide
  exact fun c member => by simpa using List.all_eq_true.mp all c member⟩

theorem behindError_shown :
    (∀ c ∈ behindError.before.getLast?, c.isAlphanum = false) ∧
      redact (behindError.text hunter) = some "error: password=hunter2".toList ∧
      redact (behindError.text hunter) ≠ redact (behindError.text valueA) := by
  refine ⟨?_, by decide +kernel, by decide +kernel⟩
  intro c last
  have ends : behindError.before.getLast? = some ' ' := by decide +kernel
  obtain rfl : ' ' = c := Option.some.inj (ends.symm.trans (Option.mem_def.mp last))
  decide

end Redaction

end BetterParsec
