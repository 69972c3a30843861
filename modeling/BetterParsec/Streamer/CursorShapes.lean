import BetterParsec.Streamer.CursorTracker

set_option autoImplicit false
set_option linter.all false

/-!
# Which shape a position carries

After a tick without a failure the last POS should carry the shape of the sampled cursor.
The loop keeps no record of the shape id its last POS had, nor of whose shape
`current_shape_id` is; the ticks where neither matters are those that are steady.
-/

namespace BetterParsec

namespace Cursor

section Property

-- The tick sampled, extracted if it had to, and lost no frame.
structure Succeeds (t : Option Tracker) (tick : Tick) (sampled : CursorPos) (hcursor : HCursor) :
    Prop where
  running : t ≠ none
  ready : tick.sink = .ready
  sample : tick.sample = some (sampled, hcursor)
  whole : ∀ event ∈ (Tracker.step t tick).2, event.isFailure = false

-- The last POS has the sampled position, and the shape id of the last SHAPE of the cursor.
def UpToDate (log : List Event) (sampled : CursorPos) (hcursor : HCursor) : Prop :=
  ∃ shapeId, lastPos log = some { sampled with shapeId := shapeId } ∧
    shapeIdOf hcursor log = some shapeId

-- No POS among the events carries the id of a SHAPE that was another cursor's.
def OwnShapes (log events : List Event) : Prop :=
  ∀ hcursor pos frame, .pos hcursor pos frame ∈ events →
    ∀ other, (pos.shapeId, other) ∈ shapes log → other = hcursor

def Consistent (log : List Event) (t : Option Tracker) (tick : Tick) : Prop :=
  let events := (Tracker.step t tick).2
  (∀ sampled hcursor, Succeeds t tick sampled hcursor →
    UpToDate (log ++ events) sampled hcursor) ∧ OwnShapes (log ++ events) events

-- The condition on a sample that the loop gets to see.
def SteadySample (log : List Event) (t : Tracker) (tick : Tick) (sampled : CursorPos)
    (hcursor : HCursor) : Prop :=
  let repeated := t.last = some (sampled, hcursor)
  if t.lastExtractedHcursor = some hcursor then
    -- Skipping leaves the id of the last POS, sending takes the current one.
    if repeated then (lastPos log).map CursorPos.shapeId = shapeIdOf hcursor log
    else tick.posSent = true → t.currentShapeId = 0 → shapeIdOf hcursor log = some 0
  else match tick.extracted with
    | none => True
    | some shape =>
      if (encodeShape t.nextShapeId shape).isNone then
        repeated → (lastPos log).map CursorPos.shapeId = some 0
      else if tick.shapeSent then ¬ repeated
      -- The shape is lost, and a POS goes out with the one before.
      else t.failures + 1 < maxSendFailures → ¬ repeated → tick.posSent = true →
        t.currentShapeId = 0 ∨ ∃ shapeId, (shapes log).getLast? = some (shapeId, hcursor)

def Steady (log : List Event) (t : Option Tracker) (tick : Tick) : Prop :=
  ∀ tracker sampled hcursor, t = some tracker → tick.sink = .ready →
    tick.sample = some (sampled, hcursor) → SteadySample log tracker tick sampled hcursor

end Property

section Records

theorem shapes_append (log events : List Event) :
    shapes (log ++ events) = shapes log ++ shapes events := List.filterMap_append

theorem shapeIds_append (hcursor : HCursor) (log events : List Event) :
    shapeIds hcursor (log ++ events) = shapeIds hcursor log ++ shapeIds hcursor events :=
  List.filterMap_append

theorem positions_append (log events : List Event) :
    positions (log ++ events) = positions log ++ positions events := List.filterMap_append

-- The shapes are numbered from one on.
def Numbered (log : List Event) : Prop :=
  (shapes log).map Prod.fst =
    (List.range (shapes log).length).map fun place => UInt32.ofNat (place + 1)

variable {log : List Event} {t : Tracker}

theorem toNat_place {place : Nat} (small : place + 1 < 2 ^ 32) :
    (UInt32.ofNat (place + 1)).toNat = place + 1 :=
  UInt32.toNat_ofNat_of_lt' small

theorem Numbered.range (numbered : Numbered log) {shapeId : UInt32} {hcursor : HCursor}
    (member : (shapeId, hcursor) ∈ shapes log) (within : (shapes log).length < 2 ^ 32) :
    0 < shapeId.toNat ∧ shapeId.toNat ≤ (shapes log).length := by
  have listed : shapeId ∈ (shapes log).map Prod.fst := List.mem_map_of_mem member
  rw [numbered] at listed
  obtain ⟨place, inside, rfl⟩ := List.mem_map.mp listed
  have inside := List.mem_range.mp inside
  rw [toNat_place (by omega)]
  omega

theorem Numbered.nonzero (numbered : Numbered log) (within : (shapes log).length < 2 ^ 32)
    (hcursor : HCursor) : (0, hcursor) ∉ shapes log := by
  intro member
  exact absurd (numbered.range member within).1 (by decide)

theorem Numbered.unique (numbered : Numbered log) (within : (shapes log).length < 2 ^ 32)
    {shapeId : UInt32} {one two : HCursor} (first : (shapeId, one) ∈ shapes log)
    (second : (shapeId, two) ∈ shapes log) : one = two := by
  have distinct : ((shapes log).map Prod.fst).Nodup := by
    rw [numbered]
    refine List.Nodup.map_on ?_ List.nodup_range
    intro place inside other inside' same
    have inside := List.mem_range.mp inside
    have inside' := List.mem_range.mp inside'
    have value := congrArg UInt32.toNat same
    rw [toNat_place (by omega), toNat_place (by omega)] at value
    omega
  have same := List.inj_on_of_nodup_map distinct first second rfl
  exact (Prod.mk.inj same).2

theorem Numbered.concat (numbered : Numbered log) {shapeId : UInt32} {hcursor : HCursor}
    {events : List Event} (added : shapes events = [(shapeId, hcursor)])
    (next : shapeId = UInt32.ofNat ((shapes log).length + 1)) : Numbered (log ++ events) := by
  rw [Numbered, shapes_append, added, List.map_append, numbered, List.length_append,
    List.length_singleton, List.range_succ, List.map_append, next]
  rfl

theorem Numbered.same (numbered : Numbered log) {events : List Event} (none : shapes events = []) :
    Numbered (log ++ events) := by
  rwa [Numbered, shapes_append, none, List.append_nil]

-- What the fields of the tracker say about the log.
structure Kept (log : List Event) (t : Tracker) : Prop where
  numbered : Numbered log
  next : (shapes log).length + 1 < 2 ^ 32 → t.nextShapeId.toNat = (shapes log).length + 1
  current : t.currentShapeId ≠ 0 → ∃ hcursor, (shapes log).getLast? = some (t.currentShapeId, hcursor)
  taken : ∀ hcursor, t.lastExtractedHcursor = some hcursor →
    ∃ shapeId, shapeIdOf hcursor log = some shapeId ∧
      (t.currentShapeId ≠ 0 → t.currentShapeId = shapeId)
  last : ∀ sampled hcursor, t.last = some (sampled, hcursor) →
    ∃ shapeId, lastPos log = some { sampled with shapeId := shapeId } ∧
      (shapeId ≠ 0 → ∃ owner, (shapeId, owner) ∈ shapes log)

theorem kept_start : Kept [] .start where
  numbered := rfl
  next := fun _ => rfl
  current := fun some => absurd rfl some
  taken := fun _ found => absurd found (by simp [Tracker.start])
  last := fun _ _ found => absurd found (by simp [Tracker.start])

-- A shape of a cursor that is not zero was delivered for it.
theorem shapeIdOf_mem {hcursor : HCursor} {shapeId : UInt32}
    (found : shapeIdOf hcursor log = some shapeId) (some : shapeId ≠ 0) :
    (shapeId, hcursor) ∈ shapes log := by
  have member := List.mem_of_getLast? found
  obtain ⟨event, listed, entry⟩ := List.mem_filterMap.mp member
  cases event with
  | shape other found frame =>
    by_cases same : other = hcursor
    · refine List.mem_filterMap.mpr ⟨_, listed, ?_⟩
      simp_all
    · simp [same] at entry
  | refused other =>
    by_cases same : other = hcursor
    · simp only [same, if_true, Option.some.injEq] at entry
      exact absurd entry.symm some
    · simp [same] at entry
  | shapeLost other => simp at entry
  | unextracted other => simp at entry
  | pos other pos frame => simp at entry
  | posLost other => simp at entry

end Records

section Steps

variable {log : List Event} {t : Tracker}

def Known (log : List Event) (t : Option Tracker) : Prop :=
  ∀ tracker, t = some tracker → Kept log tracker

-- Events that no record is about.
theorem Kept.quiet (kept : Kept log t) {events : List Event} (noShapes : shapes events = [])
    (noIds : ∀ hcursor, shapeIds hcursor events = []) (noPos : positions events = []) :
    Kept (log ++ events) t where
  numbered := kept.numbered.same noShapes
  next := by
    rw [shapes_append, noShapes, List.append_nil]
    exact kept.next
  current := by
    rw [shapes_append, noShapes, List.append_nil]
    exact kept.current
  taken := by
    intro hcursor
    rw [shapeIdOf, shapeIds_append, noIds, List.append_nil]
    exact kept.taken hcursor
  last := by
    intro sampled hcursor
    rw [lastPos, positions_append, noPos, List.append_nil, shapes_append, noShapes,
      List.append_nil]
    exact kept.last sampled hcursor

theorem Kept.failed (kept : Kept log t) : Known log t.failed := by
  intro tracker found
  rw [Tracker.failed] at found
  split_ifs at found
  obtain rfl := Option.some.inj found
  exact ⟨kept.numbered, kept.next, kept.current, kept.taken, kept.last⟩

theorem shapeIdOf_shape (log : List Event) (hcursor : HCursor) (shapeId : UInt32)
    (frame : List UInt8) :
    shapeIdOf hcursor (log ++ [Event.shape hcursor shapeId frame]) = some shapeId := by
  simp [shapeIdOf, shapeIds]

theorem shapeIdOf_refused (log : List Event) (hcursor : HCursor) :
    shapeIdOf hcursor (log ++ [Event.refused hcursor]) = some 0 := by
  simp [shapeIdOf, shapeIds]

theorem next_eq (kept : Kept log t) (within : (shapes log).length + 1 < 2 ^ 32) :
    t.nextShapeId = UInt32.ofNat ((shapes log).length + 1) := by
  rw [← kept.next within, UInt32.ofNat_toNat]

theorem next_after (kept : Kept log t) (within : (shapes log).length + 2 < 2 ^ 32) :
    (max (t.nextShapeId + 1) 1).toNat = (shapes log).length + 2 := by
  have value := kept.next (by omega)
  have sum : (t.nextShapeId + 1).toNat = (shapes log).length + 2 := by
    rw [UInt32.toNat_add, value, UInt32.toNat_one]
    omega
  have larger : ¬ t.nextShapeId + 1 ≤ 1 := by
    rw [UInt32.le_iff_toNat_le, sum, UInt32.toNat_one]
    omega
  have itself : max (t.nextShapeId + 1) 1 = t.nextShapeId + 1 := if_neg larger
  rw [itself, sum]

-- A shape that arrived has a number of its own.
theorem Kept.shape (kept : Kept log t) (hcursor : HCursor) (frame : List UInt8)
    (within : (shapes log).length + 1 < 2 ^ 32) :
    Kept (log ++ [Event.shape hcursor t.nextShapeId frame])
      { t with
        currentShapeId := t.nextShapeId
        nextShapeId := max (t.nextShapeId + 1) 1
        lastExtractedHcursor := some hcursor
        failures := 0 } where
  numbered := kept.numbered.concat rfl (next_eq kept within)
  next := by
    intro within'
    rw [shapes_append, List.length_append] at within' ⊢
    exact next_after kept within'
  current := by
    intro _
    exact ⟨hcursor, by rw [shapes_append]; exact List.getLast?_concat ..⟩
  taken := by
    intro other same
    obtain rfl : hcursor = other := Option.some.inj same
    exact ⟨_, shapeIdOf_shape log hcursor _ frame, fun _ => rfl⟩
  last := by
    intro sampled other found
    obtain ⟨shapeId, last, owned⟩ := kept.last sampled other found
    refine ⟨shapeId, ?_, fun some => ?_⟩
    · rw [lastPos, positions_append]
      exact (congrArg List.getLast? (List.append_nil _)).trans last
    · obtain ⟨owner, member⟩ := owned some
      exact ⟨owner, by rw [shapes_append]; exact List.mem_append_left _ member⟩

theorem Kept.refused (kept : Kept log t) (hcursor : HCursor) :
    Kept (log ++ [Event.refused hcursor])
      { t with currentShapeId := 0, lastExtractedHcursor := some hcursor } where
  numbered := kept.numbered.same rfl
  next := by
    rw [shapes_append]
    exact (List.append_nil (shapes log)).symm ▸ kept.next
  current := fun some => absurd rfl some
  taken := by
    intro other same
    obtain rfl : hcursor = other := Option.some.inj same
    exact ⟨0, shapeIdOf_refused log hcursor, fun some => absurd rfl some⟩
  last := by
    intro sampled other found
    have last := kept.last sampled other found
    rw [← List.append_nil (shapes log)] at last
    rw [lastPos, positions_append, shapes_append]
    exact (List.append_nil (positions log)).symm ▸ last

-- What the first half of a turn can do.
inductive Extraction (t : Tracker) (tick : Tick) (hcursor : HCursor) :
    Option Tracker × List Event → Prop where
  | taken (known : t.lastExtractedHcursor = some hcursor) :
      Extraction t tick hcursor (some t, [])
  | unextracted (fresh : t.lastExtractedHcursor ≠ some hcursor) (failed : tick.extracted = none) :
      Extraction t tick hcursor (some { t with currentShapeId := 0 }, [.unextracted hcursor])
  | refused (fresh : t.lastExtractedHcursor ≠ some hcursor) {shape : Shape}
      (extracted : tick.extracted = some shape) (oversized : encodeShape t.nextShapeId shape = none) :
      Extraction t tick hcursor
        (some { t with currentShapeId := 0, lastExtractedHcursor := some hcursor },
          [.refused hcursor])
  | sent (fresh : t.lastExtractedHcursor ≠ some hcursor) {shape : Shape} {frame : List UInt8}
      (extracted : tick.extracted = some shape)
      (encoded : encodeShape t.nextShapeId shape = some frame) (delivered : tick.shapeSent = true) :
      Extraction t tick hcursor
        (some { t with
          currentShapeId := t.nextShapeId
          nextShapeId := max (t.nextShapeId + 1) 1
          lastExtractedHcursor := some hcursor
          failures := 0 }, [.shape hcursor t.nextShapeId frame])
  | lost (fresh : t.lastExtractedHcursor ≠ some hcursor) {shape : Shape} {frame : List UInt8}
      (extracted : tick.extracted = some shape)
      (encoded : encodeShape t.nextShapeId shape = some frame) (dropped : tick.shapeSent = false) :
      Extraction t tick hcursor (t.failed, [.shapeLost hcursor])

theorem extractStage_extraction (t : Tracker) (tick : Tick) (hcursor : HCursor) :
    Extraction t tick hcursor (t.extractStage tick hcursor) := by
  rw [Tracker.extractStage]
  by_cases known : t.lastExtractedHcursor = some hcursor
  · rw [if_pos known]
    exact .taken known
  · rw [if_neg known]
    cases extracted : tick.extracted with
    | none => exact .unextracted known extracted
    | some shape =>
      cases encoded : encodeShape t.nextShapeId shape with
      | none =>
        simp only [encoded]
        exact .refused known extracted encoded
      | some frame =>
        simp only [encoded]
        cases sent : tick.shapeSent with
        | true => exact .sent known extracted encoded sent
        | false => exact .lost known extracted encoded sent

theorem Kept.extraction (kept : Kept log t) {tick : Tick} {hcursor : HCursor}
    {result : Option Tracker × List Event} (extraction : Extraction t tick hcursor result)
    (within : (shapes (log ++ result.2)).length < 2 ^ 32) : Known (log ++ result.2) result.1 := by
  cases extraction with
  | taken =>
    rintro tracker ⟨⟩
    rwa [List.append_nil]
  | unextracted =>
    rintro tracker ⟨⟩
    have quiet : Kept (log ++ [Event.unextracted hcursor]) t := kept.quiet rfl (fun _ => rfl) rfl
    exact ⟨quiet.numbered, quiet.next, fun some => absurd rfl some,
      fun other found => (quiet.taken other found).imp
        fun _ both => ⟨both.1, fun some => absurd rfl some⟩, quiet.last⟩
  | refused =>
    rintro tracker ⟨⟩
    exact kept.refused hcursor
  | sent =>
    rintro tracker ⟨⟩
    refine kept.shape hcursor _ ?_
    rw [shapes_append, List.length_append] at within
    exact within
  | lost =>
    have quiet : Kept (log ++ [Event.shapeLost hcursor]) t := kept.quiet rfl (fun _ => rfl) rfl
    exact quiet.failed

theorem Kept.posStage (kept : Kept log t) (tick : Tick) (sampled : CursorPos) (hcursor : HCursor) :
    Known (log ++ (t.posStage tick sampled hcursor).2) (t.posStage tick sampled hcursor).1 := by
  rw [Tracker.posStage]
  split_ifs with repeated sent
  · rintro tracker ⟨⟩
    rwa [List.append_nil]
  · rintro tracker ⟨⟩
    let events : List Event :=
      [.pos hcursor { sampled with shapeId := t.currentShapeId }
        (encodePos { sampled with shapeId := t.currentShapeId })]
    have noShapes : shapes (log ++ events) = shapes log := by
      rw [shapes_append]
      exact List.append_nil _
    refine ⟨kept.numbered.same rfl, ?_, ?_, ?_, ?_⟩
    · rw [noShapes]
      exact kept.next
    · rw [noShapes]
      exact kept.current
    · intro other found
      have taken := kept.taken other found
      rw [shapeIdOf, shapeIds_append]
      simpa [shapeIds, shapeIdOf] using taken
    · intro found other same
      obtain ⟨rfl, rfl⟩ : sampled = found ∧ hcursor = other := by simpa using same
      refine ⟨t.currentShapeId, ?_, fun some => ?_⟩
      · rw [lastPos, positions_append]
        exact List.getLast?_concat ..
      · obtain ⟨owner, last⟩ := kept.current some
        exact ⟨owner, noShapes.symm ▸ List.mem_of_getLast? last⟩
  · have quiet : Kept (log ++ [Event.posLost hcursor]) t := kept.quiet rfl (fun _ => rfl) rfl
    exact quiet.failed

theorem Known.step {t : Option Tracker} (known : Known log t) (tick : Tick)
    (within : (shapes (log ++ (Tracker.step t tick).2)).length < 2 ^ 32) :
    Known (log ++ (Tracker.step t tick).2) (Tracker.step t tick).1 := by
  cases t with
  | none => exact fun tracker found => nomatch found
  | some t =>
    have kept := known t rfl
    rw [Tracker.step, Tracker.turn] at within ⊢
    cases sink : tick.sink with
    | closed => exact fun tracker found => nomatch found
    | wait =>
      rintro tracker ⟨⟩
      rw [List.append_nil]
      exact ⟨kept.numbered, kept.next, kept.current,
        fun _ found => absurd found (by simp), kept.last⟩
    | ready =>
      simp only [sink] at within
      cases sample : tick.sample with
      | none =>
        rintro tracker ⟨⟩
        rwa [List.append_nil]
      | some both =>
        obtain ⟨sampled, hcursor⟩ := both
        simp only [sample] at within ⊢
        have extraction := extractStage_extraction t tick hcursor
        cases stage : t.extractStage tick hcursor with
        | mk next events =>
          rw [stage] at extraction within
          have bound : (shapes (log ++ events)).length < 2 ^ 32 := by
            cases next with
            | none => exact within
            | some t =>
              simp only [← List.append_assoc] at within
              rw [shapes_append, List.length_append] at within
              omega
          have first := kept.extraction extraction bound
          cases next with
          | none => exact fun tracker found => nomatch found
          | some t =>
            simp only [← List.append_assoc]
            exact (first t rfl).posStage tick sampled hcursor

end Steps

section Ticks

variable {log events : List Event} {t : Tracker} {tick : Tick} {sampled : CursorPos}
  {hcursor : HCursor}

-- What is left of the property when the sample is known.
def ConsistentSample (log events : List Event) (sampled : CursorPos) (hcursor : HCursor) : Prop :=
  ((∀ event ∈ events, event.isFailure = false) → UpToDate (log ++ events) sampled hcursor) ∧
    OwnShapes (log ++ events) events

theorem steady_iff_sample (ready : tick.sink = .ready)
    (sample : tick.sample = some (sampled, hcursor)) :
    Steady log (some t) tick ↔ SteadySample log t tick sampled hcursor := by
  constructor
  · exact fun steady => steady t sampled hcursor rfl ready sample
  · rintro steady tracker other cursor ⟨⟩ - found
    obtain ⟨rfl, rfl⟩ : sampled = other ∧ hcursor = cursor := by simpa [sample] using found
    exact steady

theorem consistent_iff_sample (ready : tick.sink = .ready)
    (sample : tick.sample = some (sampled, hcursor)) :
    Consistent log (some t) tick ↔
      ConsistentSample log (Tracker.step (some t) tick).2 sampled hcursor := by
  refine and_congr_left fun _ => ⟨fun holds whole => ?_, fun holds other cursor succeeds => ?_⟩
  · exact holds sampled hcursor ⟨by simp, ready, sample, whole⟩
  · obtain ⟨rfl, rfl⟩ : sampled = other ∧ hcursor = cursor := by
      simpa [sample] using succeeds.sample
    exact holds succeeds.whole

-- Without a POS nothing can be another cursor's.
theorem consistentSample_silent (noPos : positions events = []) :
    ConsistentSample log events sampled hcursor ↔
      ((∀ event ∈ events, event.isFailure = false) → UpToDate (log ++ events) sampled hcursor) := by
  refine and_iff_left fun cursor pos frame member => ?_
  have listed : pos ∈ positions events := List.mem_filterMap.mpr ⟨_, member, rfl⟩
  rw [noPos] at listed
  exact absurd listed List.not_mem_nil

theorem consistentSample_failed {event : Event} (member : event ∈ events)
    (failure : event.isFailure = true) (noPos : positions events = []) :
    ConsistentSample log events sampled hcursor := by
  refine (consistentSample_silent noPos).mpr fun whole => ?_
  have other := whole event member
  rw [failure] at other
  exact absurd other (by decide)

-- Where a POS is the last thing delivered.
theorem consistentSample_pos (noPos : positions events = []) (shapeId : UInt32)
    (frame : List UInt8) :
    ConsistentSample log
      (events ++ [Event.pos hcursor { sampled with shapeId := shapeId } frame]) sampled hcursor ↔
        ((∀ event ∈ events, event.isFailure = false) →
          shapeIdOf hcursor (log ++ events) = some shapeId) ∧
        ∀ other, (shapeId, other) ∈ shapes (log ++ events) → other = hcursor := by
  have last : lastPos
      (log ++ (events ++ [Event.pos hcursor { sampled with shapeId := shapeId } frame])) =
      some { sampled with shapeId := shapeId } := by
    rw [lastPos, ← List.append_assoc, positions_append]
    exact List.getLast?_concat ..
  have ids : shapeIdOf hcursor
      (log ++ (events ++ [Event.pos hcursor { sampled with shapeId := shapeId } frame])) =
        shapeIdOf hcursor (log ++ events) := by
    rw [shapeIdOf, ← List.append_assoc, shapeIds_append]
    exact congrArg List.getLast? (List.append_nil _)
  have shapes' : shapes (log ++
      (events ++ [Event.pos hcursor { sampled with shapeId := shapeId } frame])) =
        shapes (log ++ events) := by
    rw [← List.append_assoc, shapes_append]
    exact List.append_nil _
  rw [ConsistentSample, UpToDate, last, ids, OwnShapes, shapes']
  refine and_congr ?_ ?_
  · constructor
    · intro holds whole
      obtain ⟨found, same, id⟩ := holds fun event member => by
        rcases List.mem_append.mp member with early | late
        · exact whole event early
        · rw [List.mem_singleton.mp late]
          rfl
      obtain rfl : shapeId = found := congrArg CursorPos.shapeId (Option.some.inj same)
      exact id
    · intro holds whole
      exact ⟨shapeId, rfl, holds fun event member => whole event (List.mem_append_left _ member)⟩
  · constructor
    · intro own other member
      exact own hcursor _ frame (List.mem_append_right _ List.mem_cons_self) other member
    · intro own cursor pos frame' member other found
      rcases List.mem_append.mp member with early | late
      · have listed : pos ∈ positions events := List.mem_filterMap.mpr ⟨_, early, rfl⟩
        rw [noPos] at listed
        exact absurd listed List.not_mem_nil
      · obtain ⟨rfl, rfl, rfl⟩ : cursor = hcursor ∧ pos = _ ∧ frame' = frame := by
          simpa using List.mem_singleton.mp late
        exact own other found

-- The skipped POS is right if the last one has the id.
theorem Kept.upToDate_iff (kept : Kept log t) (repeated : t.last = some (sampled, hcursor))
    {id : Option UInt32} (noPos : positions events = [])
    (found : shapeIdOf hcursor (log ++ events) = id) :
    UpToDate (log ++ events) sampled hcursor ↔ (lastPos log).map CursorPos.shapeId = id := by
  obtain ⟨shapeId, last, -⟩ := kept.last sampled hcursor repeated
  have same : lastPos (log ++ events) = lastPos log := by
    rw [lastPos, positions_append, noPos, List.append_nil, lastPos]
  rw [UpToDate, same, last, found]
  constructor
  · rintro ⟨other, equal, rfl⟩
    exact congrArg (Option.map CursorPos.shapeId) equal
  · intro equal
    exact ⟨shapeId, rfl, equal.symm⟩

-- The frames of a whole turn.
def finish (tick : Tick) (sampled : CursorPos) (hcursor : HCursor) :
    Option Tracker × List Event → List Event
  | (none, events) => events
  | (some t, events) => events ++ (t.posStage tick sampled hcursor).2

theorem step_finish (t : Tracker) (ready : tick.sink = .ready)
    (sample : tick.sample = some (sampled, hcursor)) :
    (Tracker.step (some t) tick).2 = finish tick sampled hcursor (t.extractStage tick hcursor) := by
  rw [Tracker.step, Tracker.turn, ready, sample]
  simp only
  cases t.extractStage tick hcursor with
  | mk next events => cases next <;> rfl

theorem posStage_repeated (repeated : t.last = some (sampled, hcursor)) :
    (t.posStage tick sampled hcursor).2 = [] := by
  rw [Tracker.posStage, if_pos repeated]

theorem posStage_sent (fresh : t.last ≠ some (sampled, hcursor)) (sent : tick.posSent = true) :
    (t.posStage tick sampled hcursor).2 =
      [.pos hcursor { sampled with shapeId := t.currentShapeId }
        (encodePos { sampled with shapeId := t.currentShapeId })] := by
  rw [Tracker.posStage, if_neg fresh, if_pos sent]

theorem posStage_lost (fresh : t.last ≠ some (sampled, hcursor)) (lost : tick.posSent = false) :
    (t.posStage tick sampled hcursor).2 = [.posLost hcursor] := by
  rw [Tracker.posStage, if_neg fresh, if_neg (by simp [lost])]

-- What a lost POS leaves of the property.
theorem consistentSample_lost (noPos : positions events = []) :
    ConsistentSample log (events ++ [Event.posLost hcursor]) sampled hcursor :=
  consistentSample_failed (List.mem_append_right _ List.mem_cons_self) rfl
    (by rw [positions_append, noPos]; rfl)

-- With a shape id of zero no POS is another cursor's.
theorem Numbered.zero (numbered : Numbered log) (within : (shapes log).length < 2 ^ 32) :
    ∀ other, (0, other) ∈ shapes log → other = hcursor :=
  fun other member => absurd member (numbered.nonzero within other)

theorem taken_exact (kept : Kept log t) (within : (shapes log).length < 2 ^ 32)
    (known : t.lastExtractedHcursor = some hcursor) :
    ConsistentSample log (finish tick sampled hcursor (some t, [])) sampled hcursor ↔
      SteadySample log t tick sampled hcursor := by
  rw [SteadySample, if_pos known, finish]
  by_cases repeated : t.last = some (sampled, hcursor)
  · rw [if_pos repeated, posStage_repeated repeated, consistentSample_silent rfl,
      kept.upToDate_iff repeated rfl (by rw [List.append_nil, List.append_nil])]
    exact ⟨fun holds => holds (by simp), fun holds _ => holds⟩
  · rw [if_neg repeated]
    cases sent : tick.posSent with
    | false =>
      rw [posStage_lost repeated sent]
      exact iff_of_true (consistentSample_lost rfl) (by simp)
    | true =>
      rw [posStage_sent repeated sent, consistentSample_pos rfl, List.append_nil]
      obtain ⟨shapeId, found, same⟩ := kept.taken hcursor known
      constructor
      · intro holds _ zero
        rw [holds.1 (by simp), zero]
      · intro holds
        by_cases zero : t.currentShapeId = 0
        · rw [zero]
          exact ⟨fun _ => holds rfl zero, kept.numbered.zero within⟩
        · rw [same zero]
          refine ⟨fun _ => found, fun other member => ?_⟩
          exact kept.numbered.unique within member (shapeIdOf_mem found (same zero ▸ zero))

theorem unextracted_exact (kept : Kept log t) (within : (shapes log).length < 2 ^ 32)
    (fresh : t.lastExtractedHcursor ≠ some hcursor) (failed : tick.extracted = none) :
    ConsistentSample log
      (finish tick sampled hcursor (some { t with currentShapeId := 0 }, [.unextracted hcursor]))
      sampled hcursor ↔ SteadySample log t tick sampled hcursor := by
  rw [SteadySample, if_neg fresh, failed, finish]
  refine iff_of_true ?_ trivial
  by_cases repeated : t.last = some (sampled, hcursor)
  · rw [posStage_repeated (by exact repeated)]
    exact consistentSample_failed List.mem_cons_self rfl rfl
  · cases sent : tick.posSent with
    | false =>
      rw [posStage_lost (by exact repeated) sent]
      exact consistentSample_lost rfl
    | true =>
      rw [posStage_sent (by exact repeated) sent, consistentSample_pos rfl]
      refine ⟨fun whole => absurd (whole _ List.mem_cons_self) (by simp [Event.isFailure]), ?_⟩
      rw [shapes_append]
      exact (List.append_nil (shapes log)).symm ▸ kept.numbered.zero within

theorem refused_exact (kept : Kept log t) (within : (shapes log).length < 2 ^ 32)
    (fresh : t.lastExtractedHcursor ≠ some hcursor) {shape : Shape}
    (extracted : tick.extracted = some shape)
    (oversized : encodeShape t.nextShapeId shape = none) :
    ConsistentSample log
      (finish tick sampled hcursor
        (some { t with currentShapeId := 0, lastExtractedHcursor := some hcursor },
          [.refused hcursor])) sampled hcursor ↔
      SteadySample log t tick sampled hcursor := by
  rw [SteadySample, if_neg fresh, extracted, finish]
  simp only [oversized, Option.isNone_none, if_true]
  by_cases repeated : t.last = some (sampled, hcursor)
  · have found : shapeIdOf hcursor (log ++ ([Event.refused hcursor] ++ [])) = some 0 :=
      shapeIdOf_refused log hcursor
    rw [posStage_repeated (by exact repeated), consistentSample_silent rfl,
      kept.upToDate_iff repeated rfl found]
    exact ⟨fun holds _ => holds (by simp [Event.isFailure]), fun holds _ => holds repeated⟩
  · refine iff_of_true ?_ fun same => absurd same repeated
    cases sent : tick.posSent with
    | false =>
      rw [posStage_lost (by exact repeated) sent]
      exact consistentSample_lost rfl
    | true =>
      rw [posStage_sent (by exact repeated) sent, consistentSample_pos rfl]
      refine ⟨fun _ => shapeIdOf_refused log hcursor, ?_⟩
      rw [shapes_append]
      exact (List.append_nil (shapes log)).symm ▸ kept.numbered.zero within

theorem sent_exact (kept : Kept log t) (within : (shapes log).length + 1 < 2 ^ 32)
    (fresh : t.lastExtractedHcursor ≠ some hcursor) {shape : Shape} {frame : List UInt8}
    (extracted : tick.extracted = some shape)
    (encoded : encodeShape t.nextShapeId shape = some frame) (delivered : tick.shapeSent = true)
    {next : Tracker} (last : next.last = t.last) (current : next.currentShapeId = t.nextShapeId) :
    ConsistentSample log
      (finish tick sampled hcursor (some next, [.shape hcursor t.nextShapeId frame]))
      sampled hcursor ↔ SteadySample log t tick sampled hcursor := by
  rw [SteadySample, if_neg fresh, extracted, finish]
  simp only [encoded, Option.isNone_some, Bool.false_eq_true, if_false, delivered, if_true]
  have after := kept.shape hcursor frame within
  by_cases repeated : t.last = some (sampled, hcursor)
  · -- The POS that is skipped has an older id.
    have found : shapeIdOf hcursor (log ++ ([Event.shape hcursor t.nextShapeId frame] ++ [])) =
        some t.nextShapeId := shapeIdOf_shape log hcursor _ frame
    rw [posStage_repeated (by rw [last]; exact repeated), consistentSample_silent rfl,
      kept.upToDate_iff repeated rfl found]
    refine iff_of_false (fun holds => ?_) fun other => other repeated
    obtain ⟨shapeId, pos, owned⟩ := kept.last sampled hcursor repeated
    have same := holds (by simp [Event.isFailure])
    rw [pos] at same
    obtain rfl : shapeId = t.nextShapeId := by simpa using same
    have value := kept.next within
    have some : t.nextShapeId ≠ 0 := by
      intro zero
      rw [zero] at value
      simp at value
    obtain ⟨owner, member⟩ := owned some
    have range := (kept.numbered.range member (by omega)).2
    omega
  · refine iff_of_true ?_ repeated
    cases sent : tick.posSent with
    | false =>
      rw [posStage_lost (by rw [last]; exact repeated) sent]
      exact consistentSample_lost rfl
    | true =>
      rw [posStage_sent (by rw [last]; exact repeated) sent, consistentSample_pos rfl, current]
      refine ⟨fun _ => shapeIdOf_shape log hcursor _ frame, fun other member => ?_⟩
      refine after.numbered.unique ?_ member ?_
      · rw [shapes_append, List.length_append]
        exact within
      · rw [shapes_append]
        exact List.mem_append_right _ List.mem_cons_self

theorem lost_exact (kept : Kept log t) (within : (shapes log).length < 2 ^ 32)
    (fresh : t.lastExtractedHcursor ≠ some hcursor) {shape : Shape} {frame : List UInt8}
    (extracted : tick.extracted = some shape)
    (encoded : encodeShape t.nextShapeId shape = some frame) (dropped : tick.shapeSent = false) :
    ConsistentSample log (finish tick sampled hcursor (t.failed, [.shapeLost hcursor]))
      sampled hcursor ↔ SteadySample log t tick sampled hcursor := by
  rw [SteadySample, if_neg fresh, extracted]
  simp only [encoded, Option.isNone_some, Bool.false_eq_true, if_false, dropped]
  by_cases last : t.failures + 1 < maxSendFailures
  · rw [Tracker.failed, if_neg (Nat.not_le.mpr last), finish]
    by_cases repeated : t.last = some (sampled, hcursor)
    · rw [posStage_repeated (by exact repeated)]
      refine iff_of_true ?_ fun _ other => absurd repeated other
      exact consistentSample_failed List.mem_cons_self rfl rfl
    · cases sent : tick.posSent with
      | false =>
        rw [posStage_lost (by exact repeated) sent]
        exact iff_of_true (consistentSample_lost rfl) (by simp)
      | true =>
        rw [posStage_sent (by exact repeated) sent, consistentSample_pos rfl, shapes_append]
        have none : shapes log ++ shapes [.shapeLost hcursor] = shapes log := List.append_nil _
        rw [none]
        constructor
        · rintro ⟨-, own⟩ _ _ _
          refine or_iff_not_imp_left.mpr fun some => ?_
          obtain ⟨owner, latest⟩ := kept.current some
          obtain rfl := own owner (List.mem_of_getLast? latest)
          exact ⟨_, latest⟩
        · intro holds
          refine ⟨fun whole => absurd (whole _ List.mem_cons_self) (by simp [Event.isFailure]), ?_⟩
          intro other member
          rcases holds last repeated rfl with zero | ⟨shapeId, latest⟩
          · have member : (0, other) ∈ shapes log := zero ▸ member
            exact absurd member (kept.numbered.nonzero within other)
          · have some : t.currentShapeId ≠ 0 := by
              intro zero
              exact absurd (zero ▸ member) (kept.numbered.nonzero within other)
            obtain ⟨owner, found⟩ := kept.current some
            obtain ⟨-, rfl⟩ : shapeId = t.currentShapeId ∧ hcursor = owner := by
              simpa [latest] using found
            exact kept.numbered.unique within member (List.mem_of_getLast? found)
  · rw [Tracker.failed, if_pos (Nat.not_lt.mp last), finish]
    refine iff_of_true ?_ fun within => absurd within last
    exact consistentSample_failed List.mem_cons_self rfl rfl

theorem shapes_length_le (log events : List Event) :
    (shapes log).length ≤ (shapes (log ++ events)).length := by
  rw [shapes_append, List.length_append]
  exact Nat.le_add_right _ _

theorem sample_exact (kept : Kept log t) {result : Option Tracker × List Event}
    (extraction : Extraction t tick hcursor result)
    (within : (shapes (log ++ finish tick sampled hcursor result)).length < 2 ^ 32) :
    ConsistentSample log (finish tick sampled hcursor result) sampled hcursor ↔
      SteadySample log t tick sampled hcursor := by
  have before := Nat.lt_of_le_of_lt (shapes_length_le log _) within
  cases extraction with
  | taken known => exact taken_exact kept before known
  | unextracted fresh failed => exact unextracted_exact kept before fresh failed
  | refused fresh extracted oversized => exact refused_exact kept before fresh extracted oversized
  | sent fresh extracted encoded delivered =>
    refine sent_exact kept ?_ fresh extracted encoded delivered rfl rfl
    rw [finish, ← List.append_assoc] at within
    have short := Nat.lt_of_le_of_lt (shapes_length_le _ _) within
    rw [shapes_append, List.length_append] at short
    exact short
  | lost fresh extracted encoded dropped =>
    exact lost_exact kept before fresh extracted encoded dropped

-- A tick with nothing to send.
theorem consistent_idle {t : Option Tracker} (silent : (Tracker.step t tick).2 = [])
    (idle : ∀ tracker, t = some tracker → tick.sink = .ready → tick.sample = none) :
    Consistent log t tick ↔ Steady log t tick := by
  refine iff_of_true ⟨fun sampled hcursor succeeds => ?_, ?_⟩ ?_
  · obtain ⟨tracker, running⟩ := Option.ne_none_iff_exists'.mp succeeds.running
    have none := idle tracker running succeeds.ready
    rw [succeeds.sample] at none
    contradiction
  · rw [silent]
    exact fun _ _ _ member => absurd member List.not_mem_nil
  · intro tracker sampled hcursor running ready sample
    rw [idle tracker running ready] at sample
    contradiction

theorem consistent_iff_steady {t : Option Tracker} (known : Known log t)
    (within : (shapes (log ++ (Tracker.step t tick).2)).length < 2 ^ 32) :
    Consistent log t tick ↔ Steady log t tick := by
  cases t with
  | none => exact consistent_idle rfl fun _ found => nomatch found
  | some t =>
    have kept := known t rfl
    cases sink : tick.sink with
    | closed =>
      refine consistent_idle (by simp [Tracker.step, Tracker.turn, sink]) fun _ _ ready => ?_
      rw [sink] at ready
      contradiction
    | wait =>
      refine consistent_idle (by simp [Tracker.step, Tracker.turn, sink]) fun _ _ ready => ?_
      rw [sink] at ready
      contradiction
    | ready =>
      cases sample : tick.sample with
      | none =>
        exact consistent_idle (by simp [Tracker.step, Tracker.turn, sink, sample])
          fun _ _ _ => sample
      | some both =>
        obtain ⟨sampled, hcursor⟩ := both
        have events := step_finish t sink sample
        rw [consistent_iff_sample sink sample, steady_iff_sample sink sample, events]
        rw [events] at within
        exact sample_exact kept (extractStage_extraction t tick hcursor) within

end Ticks

section Runs

/-- A run reports the right shapes exactly if each of its ticks is steady. -/
theorem cursor_consistent_iff (ticks : List Tick)
    (fewer : (shapes (Runs.run Tracker.step (some .start) ticks).2).length < 2 ^ 32) :
    Runs.Along Tracker.step Consistent [] (some .start) ticks ↔
      Runs.Along Tracker.step Steady [] (some .start) ticks := by
  refine Runs.along_iff_along Tracker.step (fun log => (shapes log).length < 2 ^ 32) Known
    (fun log events within => Nat.lt_of_le_of_lt (shapes_length_le log events) within)
    (fun log t tick within known => known.step tick within)
    (fun log t tick within known => consistent_iff_steady known within) ?_ (by simpa using fewer)
  rintro tracker ⟨⟩
  exact kept_start

def resting : CursorPos := ⟨true, 5, 6, 100, 80, 0⟩

def arrow : Shape := ⟨1, 1, 0, 0, [7]⟩

theorem cursor_consistent_iff_arrow :
    Runs.Along Tracker.step Consistent [] (some .start)
        [⟨.ready, some (resting, 1), some arrow, true, true⟩] ↔
      Runs.Along Tracker.step Steady [] (some .start)
        [⟨.ready, some (resting, 1), some arrow, true, true⟩] :=
  cursor_consistent_iff [⟨.ready, some (resting, 1), some arrow, true, true⟩] (by decide)

-- The shape comes a tick late; and a shape is lost on its way.
def lateShape : List Tick :=
  [⟨.ready, some (resting, 1), none, true, true⟩, ⟨.ready, some (resting, 1), some arrow, true, true⟩]

def lostShape : List Tick :=
  [⟨.ready, some (resting, 1), some arrow, true, true⟩,
    ⟨.ready, some (resting, 2), some arrow, false, true⟩]

theorem cursor_shapes_wrong :
    ((shapes (Runs.run Tracker.step (some .start) lateShape).2).length < 2 ^ 32 ∧
      ¬ Runs.Along Tracker.step Consistent [] (some .start) lateShape) ∧
    (shapes (Runs.run Tracker.step (some .start) lostShape).2).length < 2 ^ 32 ∧
      ¬ Runs.Along Tracker.step Consistent [] (some .start) lostShape := by
  refine ⟨⟨by decide, fun along => ?_⟩, by decide, fun along => ?_⟩
  · obtain ⟨-, ⟨upToDate, -⟩, -⟩ := along
    obtain ⟨shapeId, pos, shape⟩ := upToDate resting 1 ⟨by decide, rfl, rfl, by decide⟩
    -- The last POS still says zero.
    have zero : some resting = some { resting with shapeId := shapeId } := pos
    have one : some 1 = some shapeId := shape
    rw [← Option.some.inj one] at zero
    exact absurd zero (by decide)
  · obtain ⟨-, ⟨-, own⟩, -⟩ := along
    exact absurd (own 2 { resting with shapeId := 1 } _ (List.mem_cons_of_mem _ List.mem_cons_self) 1 (by decide)) (by decide)

end Runs

end Cursor

end BetterParsec
