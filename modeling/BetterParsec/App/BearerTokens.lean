import BetterParsec.App.Redaction

set_option autoImplicit false
set_option linter.all false

/-!
# The bearer pass

The first marker of a line, and where it stands when the line is put together from a
text, a word without whitespace and the text behind it.
-/

namespace BetterParsec

namespace Redaction

section FirstMarker

theorem splitMarker_eq_none_iff (text : List Char) :
    splitMarker text = none ↔ ¬ marker <:+: text := by
  induction text with
  | nil =>
    refine iff_of_true rfl fun found => ?_
    exact absurd (List.infix_nil.mp found) (by decide)
  | cons c text ih =>
    rw [splitMarker, List.infix_cons_iff]
    by_cases here : marker <+: c :: text
    · rw [if_pos (List.isPrefixOf_iff_prefix.mpr here)]
      simp [here]
    · rw [if_neg fun found => here (List.isPrefixOf_iff_prefix.mp found)]
      simp [here, ih]

-- The front is the shortest that ends in the marker.
theorem splitMarker_of {front : List Char} (ends : marker <:+ front)
    (first : ¬ marker <:+: front.dropLast) (after : List Char) :
    splitMarker (front ++ after) = some (front, after) := by
  induction front with
  | nil => exact absurd (List.suffix_nil.mp ends) (by decide)
  | cons c front ih =>
    rw [List.cons_append, splitMarker]
    rcases List.suffix_cons_iff.mp ends with whole | later
    · rw [if_pos]
      · have text : c :: (front ++ after) = marker ++ after := by rw [whole]; rfl
        rw [text, List.drop_left, whole]
      · rw [List.isPrefixOf_iff_prefix, whole]
        exact ⟨after, rfl⟩
    · have more : front ≠ [] := by
        rintro rfl
        exact absurd (List.suffix_nil.mp later) (by decide)
      rw [List.dropLast_cons_of_ne_nil more, List.infix_cons_iff, not_or] at first
      rw [if_neg, ih later first.2]
      · rfl
      · intro found
        have starts : marker <+: c :: (front ++ after) := List.isPrefixOf_iff_prefix.mp found
        have fits : marker.length ≤ (c :: front.dropLast).length := by
          have length := later.length_le
          have positive := List.length_pos_iff.mpr more
          simp only [List.length_cons, List.length_dropLast]
          omega
        have rest : c :: front.dropLast <+: c :: (front ++ after) :=
          List.cons_prefix_cons.mpr ⟨rfl, (List.dropLast_prefix front).trans ⟨after, rfl⟩⟩
        exact first.1 (List.prefix_of_prefix_length_le starts rest fits)

theorem splitMarker_eq_some {text front after : List Char}
    (found : splitMarker text = some (front, after)) :
    front ++ after = text ∧ marker <:+ front ∧ ¬ marker <:+: front.dropLast := by
  induction text generalizing front with
  | nil => exact absurd found (by simp [splitMarker])
  | cons c text ih =>
    rw [splitMarker] at found
    by_cases here : marker <+: c :: text
    · rw [if_pos (List.isPrefixOf_iff_prefix.mpr here)] at found
      obtain ⟨rfl, rfl⟩ : marker = front ∧ _ = after := by simpa using found
      obtain ⟨rest, whole⟩ := here
      refine ⟨?_, List.suffix_refl _, fun short => absurd short.length_le (by decide)⟩
      rw [← whole, List.drop_left]
    · rw [if_neg fun found => here (List.isPrefixOf_iff_prefix.mp found),
        Option.map_eq_some_iff] at found
      obtain ⟨⟨later, rest⟩, found, same⟩ := found
      obtain ⟨rfl, rfl⟩ : c :: later = front ∧ rest = after := by simpa using same
      obtain ⟨whole, ends, first⟩ := ih found
      refine ⟨by rw [List.cons_append, whole], ends.trans (List.suffix_cons c later), ?_⟩
      have more : later ≠ [] := by
        rintro rfl
        exact absurd (List.suffix_nil.mp ends) (by decide)
      rw [List.dropLast_cons_of_ne_nil more, List.infix_cons_iff, not_or]
      refine ⟨fun starts => here (starts.trans ?_), first⟩
      rw [← whole]
      exact List.cons_prefix_cons.mpr ⟨rfl, (List.dropLast_prefix later).trans ⟨rest, rfl⟩⟩

theorem splitMarker_append {text front after : List Char}
    (found : splitMarker text = some (front, after)) (more : List Char) :
    splitMarker (text ++ more) = some (front, after ++ more) := by
  obtain ⟨whole, ends, first⟩ := splitMarker_eq_some found
  rw [← whole, List.append_assoc]
  exact splitMarker_of ends first _

end FirstMarker

section Marked

def bearer : List Char := "Bearer".toList

theorem marker_eq : marker = bearer ++ [' '] := by decide

theorem suffix_marker_iff {text : List Char} {c : Char} :
    marker <:+ text ++ [c] ↔ c = ' ' ∧ bearer <:+ text := by
  rw [List.suffix_concat_iff, marker_eq]
  constructor
  · rintro (none | ⟨front, same, ends⟩)
    · exact absurd none (by decide)
    · obtain ⟨rfl, rfl⟩ : bearer = front ∧ ' ' = c := by
        simpa [List.append_inj_right'] using List.append_inj' same rfl
      exact ⟨rfl, ends⟩
  · rintro ⟨rfl, ends⟩
    exact .inr ⟨bearer, rfl, ends⟩

theorem unmarked_append {text word : List Char} (unmarked : ¬ marker <:+: text)
    (inside : ∀ c ∈ word, c ≠ ' ') : ¬ marker <:+: text ++ word := by
  induction word using List.reverseRecOn with
  | nil => simpa using unmarked
  | append_singleton word c ih =>
    rw [← List.append_assoc, List.infix_concat_iff, suffix_marker_iff]
    rintro (⟨space, -⟩ | found)
    · exact inside c (by simp) space
    · exact ih (fun c member => inside c (List.mem_append_left _ member)) found

theorem blank_not_mem_bearer {c : Char} (blank : isWhitespace c = true) : c ∉ bearer := by
  intro member
  have inside : bearer.all (!isWhitespace ·) = true := by decide
  have other := List.all_eq_true.mp inside c member
  rw [blank] at other
  exact absurd other (by decide)

-- No marker has whitespace before its end.
theorem infix_marker_blank {text rest : List Char} {c : Char} (blank : isWhitespace c = true)
    (found : marker <:+: text ++ c :: rest) :
    marker <:+: text ++ [c] ∨ marker <:+: rest := by
  induction rest using List.reverseRecOn with
  | nil => exact .inl found
  | append_singleton rest d ih =>
    have whole : text ++ c :: (rest ++ [d]) = (text ++ c :: rest) ++ [d] := by simp
    rw [whole, List.infix_concat_iff, suffix_marker_iff] at found
    rcases found with ⟨rfl, ends⟩ | found
    · right
      have within : bearer <:+ rest := by
        rcases List.suffix_or_suffix_of_suffix ends (List.suffix_append text (c :: rest)) with
          short | long
        · rcases List.suffix_cons_iff.mp short with same | short
          · exact absurd (same ▸ List.mem_cons_self) (blank_not_mem_bearer blank)
          · exact short
        · exact absurd (long.mem List.mem_cons_self) (blank_not_mem_bearer blank)
      exact (suffix_marker_iff.mpr ⟨rfl, within⟩).isInfix
    · rcases ih found with front | back
      · exact .inl front
      · exact .inr (back.trans (List.prefix_append rest [d]).isInfix)

theorem redactBearer_blank {text rest : List Char} {c : Char} (blank : isWhitespace c = true)
    (unmarked : ¬ marker <:+: text ++ [c]) :
    redactBearer (text ++ c :: rest) = text ++ c :: redactBearer rest := by
  cases found : splitMarker rest with
  | none =>
    have none : splitMarker (text ++ c :: rest) = none := by
      rw [splitMarker_eq_none_iff] at found ⊢
      intro marked
      rcases infix_marker_blank blank marked with front | back
      · exact unmarked front
      · exact found back
    simp [redactBearer, none, found]
  | some split =>
    obtain ⟨front, after⟩ := split
    obtain ⟨whole, ends, first⟩ := splitMarker_eq_some found
    have more : front ≠ [] := by
      rintro rfl
      exact absurd (List.suffix_nil.mp ends) (by decide)
    have marked : splitMarker (text ++ c :: rest) = some (text ++ c :: front, after) := by
      have split : text ++ c :: rest = (text ++ c :: front) ++ after := by simp [whole]
      rw [split]
      refine splitMarker_of (ends.trans ⟨text ++ [c], by simp⟩) ?_ after
      rw [List.dropLast_append_of_ne_nil (by simp), List.dropLast_cons_of_ne_nil more]
      intro marked
      rcases infix_marker_blank blank marked with earlier | later
      · exact unmarked earlier
      · exact first later
    simp [redactBearer, marked, found]

theorem redactBearer_marked {text : List Char} (unmarked : ¬ marker <:+: text)
    (ends : bearer <:+ text) (rest : List Char) :
    redactBearer (text ++ ' ' :: rest) =
      text ++ ' ' :: redacted ++ rest.dropWhile (!isWhitespace ·) := by
  have split : text ++ ' ' :: rest = (text ++ [' ']) ++ rest := by simp
  have marked := splitMarker_of (suffix_marker_iff.mpr ⟨rfl, ends⟩)
    (by rwa [List.dropLast_concat]) rest
  rw [split, redactBearer, marked]
  simp

end Marked

end Redaction

end BetterParsec
