import Mathlib

set_option autoImplicit false
set_option linter.all false

/-!
# Byte streams with start codes

A stream of units, each behind `00 00 01` or `00 00 00 01`. Every such sequence in
a stream is a start code, with a zero in front of it as its fourth byte, so that a
stream is cut into units in one way.
-/

namespace StartCodes

inductive StartCode where
  | b3
  | b4
  deriving DecidableEq

namespace StartCode

def code : StartCode → List UInt8
  | .b3 => [0, 0, 1]
  | .b4 => [0, 0, 0, 1]

end StartCode

structure Piece where
  startCode : StartCode
  payload : List UInt8
  deriving DecidableEq

def Piece.bytes (piece : Piece) : List UInt8 := piece.startCode.code ++ piece.payload

def joined (pieces : List Piece) : List UInt8 := pieces.flatMap Piece.bytes

def mark : List UInt8 := [0, 0, 1]

-- The start code at the front, the longer one first.
def startsAt : List UInt8 → Option StartCode
  | a :: b :: c :: rest =>
      if a = 0 ∧ b = 0 ∧ c = 0 ∧ rest.head? = some 1 then some .b4
      else if a = 0 ∧ b = 0 ∧ c = 1 then some .b3
      else none
  | _ => none

def cutWithin : Nat → List UInt8 → List UInt8 × List Piece
  | 0, _ => ([], [])
  | _, [] => ([], [])
  | fuel + 1, byte :: rest =>
      match startsAt (byte :: rest) with
      | some startCode =>
          let (payload, later) := cutWithin fuel ((byte :: rest).drop startCode.code.length)
          ([], ⟨startCode, payload⟩ :: later)
      | none =>
          let (lead, pieces) := cutWithin fuel rest
          (byte :: lead, pieces)

-- What stands before the first start code, and the units.
def cut (input : List UInt8) : List UInt8 × List Piece := cutWithin input.length input

-- A zero in front of a start code belongs to it, and there is no start code in what is cut off.
def Maximal : List UInt8 → List Piece → Prop
  | lead, [] => ¬ mark <:+: lead
  | lead, piece :: later =>
      ¬ mark <:+: lead ∧ (piece.startCode = .b3 → lead.getLast? ≠ some 0) ∧
        Maximal piece.payload later

structure Decomposes (input lead : List UInt8) (pieces : List Piece) : Prop where
  whole : input = lead ++ joined pieces
  maximal : Maximal lead pieces

-- The input from the first start code on.
def fromFirst : List UInt8 → List UInt8
  | [] => []
  | byte :: rest =>
      if startsAt (byte :: rest) = none then fromFirst rest else byte :: rest

section Cut

@[simp] theorem joined_cons (piece : Piece) (later : List Piece) :
    joined (piece :: later) = piece.startCode.code ++ (piece.payload ++ joined later) := by
  rw [joined, List.flatMap_cons, Piece.bytes, List.append_assoc]
  rfl

theorem startsAt_code (startCode : StartCode) (rest : List UInt8) :
    startsAt (startCode.code ++ rest) = some startCode := by
  cases startCode <;> rfl

theorem code_of_startsAt {input : List UInt8} {startCode : StartCode}
    (starts : startsAt input = some startCode) : startCode.code <+: input := by
  match input with
  | [] | [_] | [_, _] => simp [startsAt] at starts
  | a :: b :: c :: rest =>
    rw [startsAt] at starts
    split_ifs at starts with long short
    · obtain rfl := Option.some.inj starts
      obtain ⟨rfl, rfl, rfl, next⟩ := long
      cases rest with
      | nil => simp at next
      | cons d rest =>
        obtain rfl := Option.some.inj next
        exact ⟨rest, rfl⟩
    · obtain rfl := Option.some.inj starts
      obtain ⟨rfl, rfl, rfl⟩ := short
      exact ⟨rest, rfl⟩

theorem startsAt_plain {byte : UInt8} {rest : List UInt8}
    (other : byte ≠ 0 ∨ rest.head? ≠ some 0) : startsAt (byte :: rest) = none := by
  by_contra starts
  obtain ⟨startCode, starts⟩ := Option.ne_none_iff_exists'.mp starts
  obtain ⟨after, same⟩ := code_of_startsAt starts
  cases startCode with
  | b3 | b4 =>
    obtain ⟨rfl, rfl⟩ := List.cons.inj same
    simp at other

theorem startsAt_of_mark {input : List UInt8} (front : mark <+: input) :
    startsAt input ≠ none := by
  obtain ⟨rest, rfl⟩ := front
  rw [show mark ++ rest = StartCode.b3.code ++ rest from rfl, startsAt_code]
  exact Option.some_ne_none _

-- The longer start code is tried first.
theorem startsAt_eq (input : List UInt8) :
    startsAt input = if StartCode.b4.code <+: input then some .b4
      else if StartCode.b3.code <+: input then some .b3 else none := by
  split_ifs with long short
  · obtain ⟨rest, rfl⟩ := long
    exact startsAt_code .b4 rest
  · obtain ⟨rest, rfl⟩ := short
    exact startsAt_code .b3 rest
  · by_contra starts
    obtain ⟨startCode, starts⟩ := Option.ne_none_iff_exists'.mp starts
    cases startCode with
    | b3 => exact short (code_of_startsAt starts)
    | b4 => exact long (code_of_startsAt starts)

theorem code_length_pos (startCode : StartCode) : 0 < startCode.code.length := by
  cases startCode <;> decide

-- The cut does not depend on the fuel.
theorem cutWithin_eq {fuel : Nat} {input : List UInt8} (enough : input.length ≤ fuel) :
    cutWithin fuel input = cut input := by
  have general : ∀ (first second : Nat) (input : List UInt8), input.length ≤ first →
      input.length ≤ second → cutWithin first input = cutWithin second input := by
    intro first
    induction first with
    | zero =>
      intro second input small _
      obtain rfl := List.eq_nil_of_length_eq_zero (Nat.le_zero.mp small)
      cases second <;> rfl
    | succ first ih =>
      intro second input small least
      cases input with
      | nil => cases second <;> rfl
      | cons byte rest =>
        cases second with
        | zero => simp at least
        | succ second =>
          simp only [List.length_cons] at small least
          simp only [cutWithin]
          cases startsAt (byte :: rest) with
          | none => simp only [ih second rest (by omega) (by omega)]
          | some startCode =>
            have shorter : ((byte :: rest).drop startCode.code.length).length ≤ rest.length := by
              have positive := code_length_pos startCode
              rw [List.length_drop, List.length_cons]
              omega
            have same := ih second ((byte :: rest).drop startCode.code.length) (by omega) (by omega)
            simp only [same]
  exact general fuel input.length input enough le_rfl

theorem cut_start {input : List UInt8} {startCode : StartCode}
    (starts : startsAt input = some startCode) :
    cut input = ([], ⟨startCode, (cut (input.drop startCode.code.length)).1⟩ ::
      (cut (input.drop startCode.code.length)).2) := by
  cases input with
  | nil => simp [startsAt] at starts
  | cons byte rest =>
    have shorter : ((byte :: rest).drop startCode.code.length).length ≤ rest.length := by
      have positive := code_length_pos startCode
      rw [List.length_drop, List.length_cons]
      omega
    rw [cut, List.length_cons, cutWithin, starts]
    simp only [cutWithin_eq shorter]

theorem cut_code (startCode : StartCode) (rest : List UInt8) :
    cut (startCode.code ++ rest) = ([], ⟨startCode, (cut rest).1⟩ :: (cut rest).2) := by
  rw [cut_start (startsAt_code startCode rest), List.drop_left]

theorem cut_byte {byte : UInt8} {rest : List UInt8} (plain : startsAt (byte :: rest) = none) :
    cut (byte :: rest) = (byte :: (cut rest).1, (cut rest).2) := by
  rw [cut, List.length_cons, cutWithin, plain]
  rfl

end Cut

section Decomposition

variable {byte : UInt8} {lead : List UInt8} {pieces : List Piece}

theorem Maximal.clean (maximal : Maximal lead pieces) : ¬ mark <:+: lead := by
  cases pieces with
  | nil => exact maximal
  | cons piece later => exact maximal.1

theorem Maximal.clean_payload (maximal : Maximal lead pieces) :
    ∀ piece ∈ pieces, ¬ mark <:+: piece.payload := by
  induction pieces generalizing lead with
  | nil => simp
  | cons first later ih =>
    intro piece member
    rcases List.mem_cons.mp member with rfl | behind
    · exact maximal.2.2.clean
    · exact ih maximal.2.2 piece behind

theorem Maximal.cons (maximal : Maximal lead pieces)
    (plain : startsAt (byte :: (lead ++ joined pieces)) = none) : Maximal (byte :: lead) pieces := by
  have clean : ¬ mark <:+: byte :: lead := by
    intro found
    rcases List.infix_cons_iff.mp found with front | inside
    · have longer : byte :: lead <+: byte :: (lead ++ joined pieces) :=
        (List.prefix_cons_inj byte).mpr (List.prefix_append _ _)
      exact startsAt_of_mark (front.trans longer) plain
    · exact maximal.clean inside
  cases pieces with
  | nil => exact clean
  | cons piece later =>
    refine ⟨clean, fun short last => ?_, maximal.2.2⟩
    cases lead with
    | nil =>
      obtain rfl : byte = 0 := by simpa using last
      rw [List.nil_append, joined_cons, short] at plain
      exact absurd plain (by simp [startsAt, StartCode.code])
    | cons next lead =>
      rw [List.getLast?_cons_cons] at last
      exact maximal.2.1 short last

theorem Maximal.tail (maximal : Maximal (byte :: lead) pieces) : Maximal lead pieces := by
  have clean : ¬ mark <:+: lead := fun inside => maximal.clean (inside.trans (List.suffix_cons byte lead).isInfix)
  cases pieces with
  | nil => exact clean
  | cons piece later =>
    refine ⟨clean, fun short => ?_, maximal.2.2⟩
    cases lead with
    | nil => exact fun last => nomatch last
    | cons next lead =>
      have ends := maximal.2.1 short
      rwa [List.getLast?_cons_cons] at ends

theorem joined_head {first : UInt8} {rest : List UInt8} (same : joined pieces = first :: rest) :
    first = 0 ∧ rest.head? = some 0 := by
  cases pieces with
  | nil => exact nomatch same
  | cons piece later =>
    rw [joined_cons] at same
    cases kind : piece.startCode with
    | b3 | b4 =>
      rw [kind] at same
      obtain ⟨zero, next⟩ := List.cons.inj same
      exact ⟨zero.symm, by rw [← next]; rfl⟩

theorem Maximal.not_short {rest : List UInt8} (maximal : Maximal lead pieces)
    (zero : lead.getLast? = some 0) : joined pieces ≠ mark ++ rest := by
  intro same
  cases pieces with
  | nil => exact nomatch same
  | cons piece later =>
    rw [joined_cons] at same
    cases kind : piece.startCode with
    | b3 => exact maximal.2.1 kind zero
    | b4 =>
      rw [kind] at same
      exact absurd same (by simp [StartCode.code, mark])

-- No start code begins in what is cut off.
theorem Maximal.plain (maximal : Maximal (byte :: lead) pieces) :
    startsAt (byte :: (lead ++ joined pieces)) = none := by
  by_contra starts
  obtain ⟨startCode, starts⟩ := Option.ne_none_iff_exists'.mp starts
  obtain ⟨after, same⟩ := code_of_startsAt starts
  have clean := maximal.clean
  -- How far the start code reaches into the units.
  match lead, startCode with
  | [], .b3 =>
    have next := (joined_head (List.cons.inj same).2.symm).2
    exact absurd next (by simp)
  | [], .b4 =>
    obtain ⟨zero, same⟩ := List.cons.inj same
    exact maximal.not_short (by rw [← zero]; rfl) same.symm
  | [_], .b3 =>
    have one := (joined_head (List.cons.inj (List.cons.inj same).2).2.symm).1
    exact absurd one (by decide)
  | [_], .b4 =>
    have next := (joined_head (List.cons.inj (List.cons.inj same).2).2.symm).2
    exact absurd next (by simp)
  | [_, _], .b4 =>
    have one := (joined_head (List.cons.inj (List.cons.inj (List.cons.inj same).2).2).2.symm).1
    exact absurd one (by decide)
  | second :: third :: more, .b3 =>
    obtain ⟨rfl, behind⟩ := List.cons.inj same
    obtain ⟨rfl, last⟩ := List.cons.inj behind
    obtain ⟨rfl, -⟩ := List.cons.inj last
    exact clean ⟨[], more, rfl⟩
  | second :: third :: fourth :: more, .b4 =>
    obtain ⟨rfl, behind⟩ := List.cons.inj same
    obtain ⟨rfl, late⟩ := List.cons.inj behind
    obtain ⟨rfl, last⟩ := List.cons.inj late
    obtain ⟨rfl, -⟩ := List.cons.inj last
    exact clean ⟨[0], more, rfl⟩

theorem cut_decomposes (input : List UInt8) : Decomposes input (cut input).1 (cut input).2 := by
  induction length : input.length using Nat.strong_induction_on generalizing input with
  | _ size ih =>
    cases input with
    | nil => exact ⟨rfl, by simp [cut, cutWithin, Maximal, mark]⟩
    | cons byte rest =>
      cases starts : startsAt (byte :: rest) with
      | none =>
        obtain ⟨whole, maximal⟩ := ih rest.length (by simp [← length]) rest rfl
        rw [cut_byte starts]
        refine ⟨congrArg (byte :: ·) whole, maximal.cons ?_⟩
        rwa [← whole]
      | some startCode =>
        obtain ⟨after, same⟩ := code_of_startsAt starts
        have shorter : after.length < size := by
          have positive := code_length_pos startCode
          rw [← length, ← same, List.length_append]
          omega
        obtain ⟨whole, maximal⟩ := ih after.length shorter after rfl
        rw [← same, cut_code]
        refine ⟨?_, by simp [mark], fun _ => by simp, maximal⟩
        rw [List.nil_append, joined_cons, ← whole]

/-- A maximal decomposition is the cut. -/
theorem cut_of_maximal (maximal : Maximal lead pieces) :
    cut (lead ++ joined pieces) = (lead, pieces) := by
  induction pieces generalizing lead with
  | nil =>
    induction lead with
    | nil => rfl
    | cons byte lead ih => rw [List.cons_append, cut_byte maximal.plain, ih maximal.tail]
  | cons piece later rest =>
    induction lead with
    | nil => rw [List.nil_append, joined_cons, cut_code, rest maximal.2.2]
    | cons byte lead ih => rw [List.cons_append, cut_byte maximal.plain, ih maximal.tail]

theorem Decomposes.cut_eq {input : List UInt8} (decomposes : Decomposes input lead pieces) :
    cut input = (lead, pieces) := by
  rw [decomposes.whole, cut_of_maximal decomposes.maximal]

/-- The units are the input from its first start code on. -/
theorem joined_cut (input : List UInt8) : joined (cut input).2 = fromFirst input := by
  induction input with
  | nil => rfl
  | cons byte rest ih =>
    rw [fromFirst]
    cases starts : startsAt (byte :: rest) with
    | none => rw [cut_byte starts, if_pos rfl, ih]
    | some startCode =>
      have whole := (cut_decomposes (byte :: rest)).whole
      rw [cut_start starts] at whole ⊢
      rw [if_neg (Option.some_ne_none _)]
      exact whole.symm

end Decomposition

end StartCodes
