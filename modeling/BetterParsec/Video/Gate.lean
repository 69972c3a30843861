import BetterParsec.Video.Order

set_option autoImplicit false
set_option linter.all false

/-!
# The recovery gate

After a discontinuity the first frame has to be a key frame. A damaged frame
breaks this: its discontinuity is raised inside the flush loop, whose tail then
restores an ordering anchor, and a delta frame with that id can overtake the key
frame the receiver waits for.
-/

namespace BetterParsec

deriving instance DecidableEq for Since

namespace VideoReceiver

-- A frame with this id and kind is under reassembly or queued.
def holds (rx : VideoReceiver) (frameId : UInt32) (isKey : Bool) : Bool :=
  rx.pending.entries.any (fun entry => entry.1.2 = frameId && entry.2.isKey = isKey) ||
    rx.completed.entries.any (fun entry => entry.1.2 = frameId && entry.2.frame.isKey = isKey)

theorem holds_iff (rx : VideoReceiver) (frameId : UInt32) (isKey : Bool) :
    rx.holds frameId isKey ↔
      (∃ epoch frame, rx.pending.lookup (epoch, frameId) = some frame ∧ frame.isKey = isKey) ∨
      ∃ epoch found, rx.completed.lookup (epoch, frameId) = some found ∧
        found.frame.isKey = isKey := by
  have listed {V : Type} (frames : FrameMap V) (kind : V → Bool) :
      frames.entries.any (fun entry => entry.1.2 = frameId && kind entry.2 = isKey) ↔
        ∃ epoch value, frames.lookup (epoch, frameId) = some value ∧ kind value = isKey := by
    simp only [List.any_eq_true, Bool.and_eq_true, decide_eq_true_eq]
    constructor
    · rintro ⟨⟨⟨epoch, other⟩, value⟩, member, rfl, same⟩
      exact ⟨epoch, value, AList.mem_lookup_iff.mpr member, same⟩
    · rintro ⟨epoch, value, found, same⟩
      exact ⟨⟨(epoch, frameId), value⟩, AList.mem_lookup_iff.mp found, rfl, same⟩
  rw [holds, Bool.or_eq_true, listed rx.pending (·.isKey), listed rx.completed (·.frame.isKey)]

/-- Frames are held in the active epoch only. -/
theorem Kept.not_holds {rx : VideoReceiver} (kept : rx.Kept) {epoch frameId : UInt32}
    (active : rx.activeEpoch = some epoch) (fresh : rx.pending.lookup (epoch, frameId) = none)
    (absent : rx.completed.lookup (epoch, frameId) = none) (isKey : Bool) :
    rx.holds frameId isKey = false := by
  rw [← Bool.not_eq_true, holds_iff]
  rintro (⟨other, frame, found, -⟩ | ⟨other, queued, found, -⟩)
  · have same : some epoch = some other := active.symm.trans (kept.pending _ _ found).1
    cases same
    simp [fresh] at found
  · have same : some epoch = some other := active.symm.trans (kept.completed _ _ found).1
    cases same
    simp [absent] at found

theorem holds_openPending (rx : VideoReceiver) (key : UInt32 × UInt32) (frame : PendingFrame)
    (fresh : rx.pending.lookup key = none) (frameId : UInt32) (isKey : Bool) :
    (rx.openPending key frame).holds frameId isKey ↔
      rx.holds frameId isKey ∨ frameId = key.2 ∧ frame.isKey = isKey := by
  simp only [holds_iff, openPending, Assoc.lookup_insert_some]
  constructor
  · rintro (⟨epoch, other, ⟨rfl, rfl⟩ | ⟨-, found⟩, same⟩ | queued)
    · exact Or.inr ⟨rfl, same⟩
    · exact Or.inl (Or.inl ⟨epoch, other, found, same⟩)
    · exact Or.inl (Or.inr queued)
  · rintro ((⟨epoch, other, found, same⟩ | queued) | ⟨rfl, same⟩)
    · refine Or.inl ⟨epoch, other, Or.inr ⟨?_, found⟩, same⟩
      rintro rfl
      simp [fresh] at found
    · exact Or.inr queued
    · exact Or.inl ⟨key.1, frame, Or.inl ⟨rfl, rfl⟩, same⟩

theorem holds_updatePending (rx : VideoReceiver) (key : UInt32 × UInt32)
    (old frame : PendingFrame) (added : Nat) (found : rx.pending.lookup key = some old)
    (kind : frame.isKey = old.isKey) (frameId : UInt32) (isKey : Bool) :
    (rx.updatePending key frame added).holds frameId isKey ↔ rx.holds frameId isKey := by
  simp only [holds_iff, updatePending, Assoc.lookup_insert_some]
  apply or_congr_left
  constructor
  · rintro ⟨epoch, other, ⟨rfl, rfl⟩ | ⟨-, held⟩, same⟩
    · exact ⟨epoch, old, found, kind.symm.trans same⟩
    · exact ⟨epoch, other, held, same⟩
  · rintro ⟨epoch, other, held, same⟩
    by_cases here : (epoch, frameId) = key
    · subst here
      rw [found, Option.some.injEq] at held
      exact ⟨epoch, frame, Or.inl ⟨rfl, rfl⟩, by rw [kind, held, same]⟩
    · exact ⟨epoch, other, Or.inr ⟨here, held⟩, same⟩

theorem holds_dropFrame (rx : VideoReceiver) (key : UInt32 × UInt32) (frame : PendingFrame)
    (frameId : UInt32) (isKey : Bool) (held : (rx.dropFrame key frame).holds frameId isKey) :
    rx.holds frameId isKey := by
  simp only [holds_iff, dropFrame, Assoc.lookup_erase_some] at held ⊢
  obtain ⟨epoch, other, ⟨-, found⟩, same⟩ | queued := held
  · exact Or.inl ⟨epoch, other, found, same⟩
  · exact Or.inr queued

theorem holds_of_dropFrame (rx : VideoReceiver) (key : UInt32 × UInt32) (frame : PendingFrame)
    (found : rx.pending.lookup key = some frame) (delta : frame.isKey = false) (frameId : UInt32)
    (held : rx.holds frameId true) : (rx.dropFrame key frame).holds frameId true := by
  simp only [holds_iff, dropFrame, Assoc.lookup_erase_some] at held ⊢
  obtain ⟨epoch, other, other_held, same⟩ | queued := held
  · refine Or.inl ⟨epoch, other, ⟨?_, other_held⟩, same⟩
    rintro rfl
    rw [found, Option.some.injEq] at other_held
    simp [← other_held, delta] at same
  · exact Or.inr queued

theorem holds_queueFrame (rx : VideoReceiver) (key : UInt32 × UInt32) (frame : PendingFrame)
    (nowMs : Nat) (found : rx.pending.lookup key = some frame)
    (absent : rx.completed.lookup key = none) (frameId : UInt32) (isKey : Bool) :
    (rx.queueFrame key frame nowMs).holds frameId isKey ↔ rx.holds frameId isKey := by
  simp only [holds_iff, queueFrame, Assoc.lookup_erase_some, Assoc.lookup_insert_some]
  constructor
  · rintro (⟨epoch, other, ⟨-, held⟩, same⟩ | ⟨epoch, queued, ⟨rfl, rfl⟩ | ⟨-, held⟩, same⟩)
    · exact Or.inl ⟨epoch, other, held, same⟩
    · exact Or.inl ⟨epoch, frame, found, same⟩
    · exact Or.inr ⟨epoch, queued, held, same⟩
  · rintro (⟨epoch, other, held, same⟩ | ⟨epoch, queued, held, same⟩)
    · by_cases here : (epoch, frameId) = key
      · subst here
        rw [found, Option.some.injEq] at held
        exact Or.inr ⟨epoch, _, Or.inl ⟨rfl, rfl⟩, held ▸ same⟩
      · exact Or.inl ⟨epoch, other, ⟨here, held⟩, same⟩
    · refine Or.inr ⟨epoch, queued, Or.inr ⟨?_, held⟩, same⟩
      rintro rfl
      simp [absent] at held

-- The anchor is claimed by a held key frame, or it is `stale`: nothing held has claimed it.
structure Guarded (stale : Option UInt32) (rx : VideoReceiver) : Prop where
  keyed : ∀ frameId, rx.nextFrameId = some frameId → ¬ rx.holds frameId false
  unclaimed : rx.awaitingIdr → rx.nextFrameId = none → ∀ frameId, ¬ rx.holds frameId true
  anchored : rx.awaitingIdr = false → rx.nextFrameId ≠ none
  steady : ∀ frameId, rx.nextFrameId = some frameId →
    rx.holds frameId true ∨ stale = some frameId

theorem guarded_reset (stale : Option UInt32) (rx : VideoReceiver) : rx.reset.Guarded stale := by
  refine ⟨?_, ?_, ?_, ?_⟩ <;> simp [reset, holds]

theorem Guarded.openFrame {stale : Option UInt32} {rx : VideoReceiver} {epoch : UInt32}
    {chunk : Chunk} (guarded : rx.Guarded stale) (kept : rx.Kept)
    (active : rx.activeEpoch = some epoch)
    (absent : rx.completed.lookup (epoch, chunk.frameId) = none)
    (fresh : rx.pending.lookup (epoch, chunk.frameId) = none)
    (safe : chunk.isKey = false → stale ≠ some chunk.frameId) (isV2 : Bool) :
    (rx.openPending (epoch, chunk.frameId) (chunk.openFrame isV2)).Guarded stale := by
  have unheld := kept.not_holds active fresh absent
  let opened := rx.openPending (epoch, chunk.frameId) (chunk.openFrame isV2)
  have held (frameId : UInt32) (isKey : Bool) : opened.holds frameId isKey ↔
      rx.holds frameId isKey ∨ frameId = chunk.frameId ∧ chunk.isKey = isKey :=
    rx.holds_openPending (epoch, chunk.frameId) (chunk.openFrame isV2) fresh frameId isKey
  change opened.Guarded stale
  cases anchor : rx.nextFrameId with
  | some current =>
    have same : opened.nextFrameId = some current := by simp [opened, openPending, anchor]
    refine ⟨fun frameId claimed => ?_, fun _ none => by simp [same] at none,
      fun _ => by simp [same], fun frameId claimed => ?_⟩
    · rw [same, Option.some.injEq] at claimed
      subst claimed
      rw [held]
      rintro (delta | ⟨rfl, delta⟩)
      · exact guarded.keyed current anchor delta
      · -- A delta frame opens under the anchor only if the anchor was stale.
        rcases guarded.steady _ anchor with key | found
        · simp [unheld] at key
        · exact safe delta found
    · rw [same] at claimed
      rw [held]
      rcases guarded.steady frameId (anchor.trans claimed) with key | found
      · exact Or.inl (Or.inl key)
      · exact Or.inr found
  | none =>
    have awaiting : rx.awaitingIdr = true := by
      by_contra settled
      exact guarded.anchored (by simpa using settled) anchor
    have noKey := guarded.unclaimed awaiting anchor
    cases kind : chunk.isKey with
    | false =>
      have same : opened.nextFrameId = none := by
        simp [opened, openPending, anchor, awaiting, Chunk.openFrame, kind]
      refine ⟨by simp [same], fun _ _ frameId => ?_, fun settled => ?_, by simp [same]⟩
      · rw [held]
        rintro (key | ⟨-, key⟩)
        · exact noKey frameId key
        · simp [kind] at key
      · have awaits : opened.awaitingIdr = true := awaiting
        simp [awaits] at settled
    | true =>
      have claimed : opened.nextFrameId = some chunk.frameId := by
        simp [opened, openPending, anchor, Chunk.openFrame, kind]
      refine ⟨fun frameId same => ?_, fun _ none => by simp [claimed] at none,
        fun _ => by simp [claimed], fun frameId same => ?_⟩
      · rw [claimed, Option.some.injEq] at same
        subst same
        rw [held]
        rintro (delta | ⟨-, delta⟩)
        · simp [unheld] at delta
        · simp [kind] at delta
      · rw [claimed, Option.some.injEq] at same
        exact Or.inl ((held frameId true).mpr (Or.inr ⟨same.symm, kind⟩))

theorem Guarded.intake {stale : Option UInt32} {epoch : UInt32} {isV2 : Bool}
    {chunks : Chunk → Prop} {rx next : VideoReceiver} {emitted : List RxEvent}
    (guarded : rx.Guarded stale) (kept : rx.Kept) (active : rx.activeEpoch = some epoch)
    (safe : ∀ chunk, chunks chunk → chunk.isKey = false → stale ≠ some chunk.frameId)
    (move : Intake epoch isV2 chunks rx emitted next) : next.Guarded stale := by
  cases move with
  | discontinue => exact guarded_reset stale rx
  | openFrame chunk brought absent fresh =>
    exact guarded.openFrame kept active absent fresh (safe chunk brought) isV2
  | store chunk frame viaFec brought absent found =>
    have held := rx.holds_updatePending (epoch, chunk.frameId) frame (frame.store chunk viaFec)
      chunk.fragment.length found rfl
    refine ⟨fun frameId anchor => ?_, fun awaiting none frameId => ?_, guarded.anchored,
      fun frameId anchor => ?_⟩
    · rw [held]
      exact guarded.keyed frameId anchor
    · rw [held]
      exact guarded.unclaimed awaiting none frameId
    · rw [held]
      exact guarded.steady frameId anchor
  | drop frameId frame found awaiting delta =>
    have held : rx.holds frameId false := (rx.holds_iff _ _).mpr (Or.inl ⟨epoch, frame, found, delta⟩)
    have same : (rx.dropFrame (epoch, frameId) frame).nextFrameId = rx.nextFrameId := by
      simp only [dropFrame, ite_eq_right_iff]
      intro anchor
      exact absurd held (guarded.keyed frameId anchor)
    have fewer := rx.holds_dropFrame (epoch, frameId) frame
    refine ⟨fun other anchor => ?_, fun _ none other key => ?_, fun settled => ?_,
      fun other anchor => ?_⟩
    · exact fun held => guarded.keyed other (same ▸ anchor) (fewer other false held)
    · exact guarded.unclaimed awaiting (same ▸ none) other (fewer other true key)
    · rw [same]
      exact guarded.anchored settled
    · rcases guarded.steady other (same ▸ anchor) with key | found_stale
      · exact Or.inl (rx.holds_of_dropFrame _ frame found delta other key)
      · exact Or.inr found_stale
  | queue frameId frame nowMs absent found full admitted =>
    have held := rx.holds_queueFrame (epoch, frameId) frame nowMs found absent
    have settled : (rx.queueFrame (epoch, frameId) frame nowMs).awaitingIdr = false := by
      cases kind : frame.isKey with
      | true => simp [queueFrame, kind]
      | false =>
        have released : rx.awaitingIdr = false := by
          by_contra awaiting
          simp [admitted (by simpa using awaiting)] at kind
        simp [queueFrame, kind, released]
    refine ⟨fun other anchor => ?_, fun awaiting => by simp [settled] at awaiting, fun _ none => ?_,
      fun other anchor => ?_⟩
    · rw [held]
      exact guarded.keyed other anchor
    · cases awaiting : rx.awaitingIdr with
      | false => exact guarded.anchored awaiting none
      | true =>
        -- The frame that ends the wait is a key frame, so the anchor had been claimed.
        have key : rx.holds frameId true :=
          (rx.holds_iff _ _).mpr (Or.inl ⟨epoch, frame, found, admitted awaiting⟩)
        exact guarded.unclaimed awaiting none frameId key
    · rw [held]
      exact guarded.steady other anchor
  | ack nowMs =>
    obtain ⟨⟨count, time, highest, state⟩, -⟩ := rx.ackEvents_frame nowMs
    rw [state]
    exact ⟨guarded.keyed, guarded.unclaimed, guarded.anchored, guarded.steady⟩

theorem Intake.quiet {epoch : UInt32} {isV2 : Bool} {chunks : Chunk → Prop}
    {rx next : VideoReceiver} {emitted : List RxEvent}
    (move : Intake epoch isV2 chunks rx emitted next) (seen : List RxEvent) :
    (∃ reason, emitted = [.discontinuity epoch reason] ∧ next = rx.reset) ∨
      since (seen ++ emitted) = since seen ∧ (next.awaitingIdr → rx.awaitingIdr) := by
  cases move with
  | discontinue reason => exact Or.inl ⟨reason, rfl, rfl⟩
  | openFrame => exact Or.inr ⟨by simp, id⟩
  | store => exact Or.inr ⟨by simp, id⟩
  | drop => exact Or.inr ⟨by simp, id⟩
  | queue =>
    refine Or.inr ⟨by simp, fun awaiting => ?_⟩
    simp [queueFrame] at awaiting
    exact awaiting.2
  | ack nowMs =>
    refine Or.inr ⟨since_ackEvents seen rx nowMs, fun awaiting => ?_⟩
    obtain ⟨⟨count, time, highest, state⟩, -⟩ := rx.ackEvents_frame nowMs
    rwa [state] at awaiting

-- The receiver is guarded for as long as no frame has followed the last discontinuity.
structure Gate (stale : Option UInt32) (seen : List RxEvent) (rx : VideoReceiver) : Prop where
  awaiting : rx.awaitingIdr → since seen = .gap
  guarded : since seen = .gap → rx.Guarded stale

theorem gate_reset (stale : Option UInt32) (seen : List RxEvent) (rx : VideoReceiver)
    (epoch : UInt32) (reason : DiscontinuityReason) :
    rx.reset.Gate stale (seen ++ [RxEvent.discontinuity epoch reason]) :=
  ⟨fun _ => since_concat seen _, fun _ => guarded_reset stale rx⟩

theorem Gate.intake {stale : Option UInt32} {seen emitted : List RxEvent} {epoch : UInt32}
    {isV2 : Bool} {chunks : Chunk → Prop} {rx next : VideoReceiver} (gate : rx.Gate stale seen)
    (kept : rx.Kept) (active : rx.activeEpoch = some epoch)
    (safe : ∀ chunk, chunks chunk → chunk.isKey = false → stale ≠ some chunk.frameId)
    (move : Intake epoch isV2 chunks rx emitted next) : next.Gate stale (seen ++ emitted) := by
  obtain ⟨reason, rfl, rfl⟩ | ⟨same, awaits⟩ := move.quiet seen
  · exact gate_reset stale seen rx epoch reason
  · refine ⟨fun awaiting => ?_, fun gap => ?_⟩
    · rw [same]
      exact gate.awaiting (awaits awaiting)
    · rw [same] at gap
      exact (gate.guarded gap).intake kept active safe move

/-- What a release that found no damaged frame keeps. -/
theorem Gate.release_sound {stale : Option UInt32} {seen emitted : List RxEvent}
    {rx next : VideoReceiver} (gate : rx.Gate stale seen) (kept : rx.Kept)
    (move : Release rx emitted next)
    (sound : ∀ event ∈ emitted, ∀ epoch, event ≠ .discontinuity epoch .frameCrc) :
    next.Gate stale (seen ++ emitted) := by
  cases move with
  | gap epoch => exact gate_reset stale seen rx epoch _
  | emit key first found data oldest turn =>
    have settled := (kept.emitted oldest turn).2.2
    refine ⟨fun awaiting => ?_, fun gap => by simp [RxEvent.track] at gap⟩
    simp [afterEmit, settled] at awaiting
  | corrupt key => exact absurd rfl (sound _ List.mem_cons_self key.1)
  | hollow key first found turn missing =>
    obtain ⟨-, -, data, whole⟩ := kept.completed _ found turn
    simp [missing] at whole
  | ack nowMs =>
    have same := since_ackEvents seen rx nowMs
    obtain ⟨⟨count, time, highest, state⟩, -⟩ := rx.ackEvents_frame nowMs
    rw [state]
    refine ⟨fun awaiting => same.trans (gate.awaiting awaiting), fun gap => ?_⟩
    have guarded := gate.guarded (same.symm.trans gap)
    exact ⟨guarded.keyed, guarded.unclaimed, guarded.anchored, guarded.steady⟩

theorem Gate.release {stale : Option UInt32} {seen emitted : List RxEvent} {rx next : VideoReceiver}
    (gate : rx.Gate stale seen) (kept : rx.Kept) (move : Release rx emitted next) :
    ∃ stale, next.Gate stale (seen ++ emitted) := by
  by_cases sound : ∀ event ∈ emitted, ∀ epoch, event ≠ .discontinuity epoch .frameCrc
  · exact ⟨stale, gate.release_sound kept move sound⟩
  · cases move with
    | corrupt key first found =>
      -- The anchor that the flush loop leaves behind names no frame at all.
      refine ⟨some (found.frameId + 1), fun _ => since_concat seen _, fun _ => ?_⟩
      refine ⟨?_, ?_, ?_, ?_⟩ <;> simp [reset, holds]
    | ack nowMs =>
      obtain ⟨-, none | ⟨seq, some⟩⟩ := rx.ackEvents_frame nowMs
      · simp [none] at sound
      · simp [some] at sound
    | gap | emit | hollow => simp at sound

-- The first frame after a discontinuity is a key frame.
def KeyFirst (before : List RxEvent) (event : RxEvent) : Prop :=
  ∀ unit, event = .frame unit → since before = .gap → unit.isKey

theorem keyFirst_of_no_frame (before : List RxEvent) (event : RxEvent)
    (other : ∀ unit, event ≠ .frame unit) : KeyFirst before event := by
  intro unit framed
  exact absurd framed (other unit)

theorem keyFirst_release {stale : Option UInt32} {seen emitted : List RxEvent}
    {rx next : VideoReceiver} (earlier : Runs.Emissions KeyFirst seen) (gate : rx.Gate stale seen)
    (kept : rx.Kept) (move : Release rx emitted next) :
    Runs.Emissions KeyFirst (seen ++ emitted) := by
  cases move with
  | gap => exact earlier.concat (keyFirst_of_no_frame _ _ (by simp))
  | emit key first found data oldest turn =>
    apply earlier.concat
    intro unit framed gap
    have settled := (kept.emitted oldest turn).2.2
    have guarded := gate.guarded gap
    obtain ⟨anchor, claimed⟩ := Option.ne_none_iff_exists'.mp (guarded.anchored settled)
    rw [claimed, Option.getD_some] at turn
    rw [RxEvent.frame.injEq] at framed
    subst framed
    by_contra delta
    have held : rx.holds anchor false :=
      (rx.holds_iff _ _).mpr (Or.inr ⟨key.1, found, turn, by simpa [unitOf] using delta⟩)
    exact guarded.keyed anchor claimed held
  | corrupt => exact earlier.concat (keyFirst_of_no_frame _ _ (by simp))
  | hollow => simpa using earlier
  | ack nowMs =>
    apply earlier.append
    intro before event member
    exact keyFirst_of_no_frame before event (rx.ackEvents_no_frame nowMs event member)

-- The anchor, if no key frame with its id is held.
def staleAnchor (rx : VideoReceiver) : Option UInt32 :=
  rx.nextFrameId.filter (fun frameId => !rx.holds frameId true)

theorem Gate.restart {stale : Option UInt32} {seen : List RxEvent} {rx : VideoReceiver}
    (gate : rx.Gate stale seen) (gap : since seen = .gap) : rx.Gate rx.staleAnchor seen := by
  refine ⟨gate.awaiting, fun _ => ?_⟩
  have guarded := gate.guarded gap
  refine ⟨guarded.keyed, guarded.unclaimed, guarded.anchored, fun frameId anchor => ?_⟩
  by_cases key : rx.holds frameId true
  · exact Or.inl key
  · exact Or.inr (by simp [staleAnchor, anchor, key])

-- While no frame has followed the last discontinuity, a message brings no chunk of a delta frame
-- whose id is a stale anchor.
def AvoidsStaleAnchor (seen : List RxEvent) (rx : VideoReceiver) : RxCall → Prop
  | .onMessage buf nowMs => ∀ arrival ∈ rx.arrival buf nowMs,
      since (seen ++ arrival.start.2) = .gap → ∀ chunk ∈ arrival.chunks, chunk.isKey = false →
        arrival.start.1.staleAnchor ≠ some chunk.frameId
  | .tickEvents _ | .tick _ | .pollNeedsIdr => True

-- The invariant of a run: no delta frame was the first after a discontinuity, nor can one be.
structure Gating (seen : List RxEvent) (rx : VideoReceiver) : Prop where
  kept : rx.Kept
  gate : ∃ stale, rx.Gate stale seen
  keyFirst : Runs.Emissions KeyFirst seen

theorem gating_reset {seen : List RxEvent} (earlier : Runs.Emissions KeyFirst seen)
    (rx : VideoReceiver) (epoch : UInt32) (reason : DiscontinuityReason) :
    rx.reset.Gating (seen ++ [RxEvent.discontinuity epoch reason]) :=
  ⟨kept_reset rx, ⟨none, gate_reset none seen rx epoch reason⟩,
    earlier.concat (keyFirst_of_no_frame _ _ (by simp))⟩

/-- The gate does not read the epoch, the decoder or the IDR latch. -/
theorem Gating.relabel {seen : List RxEvent} {rx : VideoReceiver} (gating : rx.Gating seen)
    (epoch : Option UInt32) (decoder : FecDecoder) (needsIdr : Bool)
    (kept : { rx with activeEpoch := epoch, decoder := decoder, needsIdr := needsIdr }.Kept) :
    { rx with activeEpoch := epoch, decoder := decoder, needsIdr := needsIdr }.Gating seen := by
  obtain ⟨stale, gate⟩ := gating.gate
  refine ⟨kept, ⟨stale, gate.awaiting, fun gap => ?_⟩, gating.keyFirst⟩
  have guarded := gate.guarded gap
  exact ⟨guarded.keyed, guarded.unclaimed, guarded.anchored, guarded.steady⟩

theorem gating_entry : Entry Gating := by
  refine ⟨?_, ?_, ?_, ?_⟩
  · intro seen rx epoch inactive gating
    exact gating.relabel (some epoch) rx.decoder rx.needsIdr (gating.kept.activate epoch inactive)
  · intro seen rx epoch nowMs gating
    exact gating_reset gating.keyFirst _ epoch _
  · intro seen rx symbol gating
    exact gating.relabel rx.activeEpoch (rx.decode symbol).decoder rx.needsIdr
      ⟨gating.kept.pending, gating.kept.completed, gating.kept.gated⟩
  · intro seen rx epoch gating
    exact gating_reset gating.keyFirst _ epoch _

theorem Gating.release {seen emitted : List RxEvent} {rx next : VideoReceiver}
    (gating : rx.Gating seen) (move : Release rx emitted next) : next.Gating (seen ++ emitted) := by
  obtain ⟨stale, gate⟩ := gating.gate
  exact ⟨gating.kept.release move, gate.release gating.kept move,
    keyFirst_release gating.keyFirst gate gating.kept move⟩

/-- The chunks of a message are taken in under the anchor that was stale when it arrived. -/
theorem Gating.taken {seen taken : List RxEvent} {rx middle : VideoReceiver} {epoch : UInt32}
    {isV2 : Bool} {chunks : List Chunk} (gating : rx.Gating seen)
    (active : rx.activeEpoch = some epoch)
    (avoids : since seen = .gap → ∀ chunk ∈ chunks, chunk.isKey = false →
      rx.staleAnchor ≠ some chunk.frameId)
    (path : Runs.Path (Intake epoch isV2 (· ∈ chunks)) rx taken middle) :
    middle.Gating (seen ++ taken) := by
  have opened : ∃ stale, rx.Gate stale seen ∧
      ∀ chunk ∈ chunks, chunk.isKey = false → stale ≠ some chunk.frameId := by
    obtain ⟨stale, gate⟩ := gating.gate
    by_cases gap : since seen = .gap
    · exact ⟨rx.staleAnchor, gate.restart gap, avoids gap⟩
    · exact ⟨none, ⟨gate.awaiting, fun framed => absurd framed gap⟩, by simp⟩
  obtain ⟨stale, gate, safe⟩ := opened
  have held := path.keeps
    (fun seen rx => (rx.Kept ∧ rx.activeEpoch = some epoch) ∧ rx.Gate stale seen ∧
      Runs.Emissions KeyFirst seen) ?_ seen ⟨⟨gating.kept, active⟩, gate, gating.keyFirst⟩
  · exact ⟨held.1.1, ⟨stale, held.2.1⟩, held.2.2⟩
  · rintro seen rx emitted next ⟨⟨kept, active⟩, gate, earlier⟩ move
    refine ⟨⟨kept.intake active move, move.activeEpoch.trans active⟩,
      gate.intake kept active safe move, earlier.append ?_⟩
    intro before event member
    exact keyFirst_of_no_frame before event (move.no_frame event member)

theorem call_gating {seen : List RxEvent} {rx : VideoReceiver} (gating : rx.Gating seen)
    (call : RxCall) (avoids : rx.AvoidsStaleAnchor seen call) :
    (rx.call call).1.Gating (seen ++ (rx.call call).2) := by
  have release (seen : List RxEvent) (rx : VideoReceiver) (emitted : List RxEvent)
      (next : VideoReceiver) (gating : rx.Gating seen) (move : Release rx emitted next) :=
    gating.release move
  cases call with
  | onMessage buf nowMs =>
    obtain ⟨-, ignored⟩ | ⟨arrival, middle, taken, given, arrived, accepted, taking, giving,
      emitted⟩ := rx.onMessage_cases buf nowMs
    · simpa [VideoReceiver.call, ignored] using gating
    · obtain ⟨started, active⟩ := gating_entry.start gating accepted
      have delivered := started.taken active (avoids arrival arrived) taking
      have released := giving.keeps (fun seen rx => rx.Gating seen) release _ delivered
      simp only [VideoReceiver.call, emitted]
      simpa [List.append_assoc] using released
  | tickEvents nowMs =>
    exact (rx.tickEvents_path nowMs).keeps (fun seen rx => rx.Gating seen) release seen gating
  | tick nowMs => exact gating.release (.ack rx nowMs)
  | pollNeedsIdr =>
    have polled := gating.relabel rx.activeEpoch rx.decoder false
      ⟨gating.kept.pending, gating.kept.completed, gating.kept.gated⟩
    simpa [VideoReceiver.call, pollNeedsIdr] using polled

/-- In every run that avoids stale anchors, the first frame after a discontinuity is a key frame. -/
theorem run_gate_opens_on_key (nowMs : Nat) (calls : List RxCall)
    (avoids : Runs.Along call AvoidsStaleAnchor [] (.new nowMs) calls) :
    Runs.Emissions KeyFirst (Runs.run call (.new nowMs) calls).2 := by
  have kept := Runs.run_invariant call AvoidsStaleAnchor Gating
    (fun _ _ input gating avoids => call_gating gating input avoids) [] (.new nowMs) calls ?_ avoids
  · exact kept.keyFirst
  · refine ⟨⟨?_, ?_, ?_⟩, ⟨none, ?_, ?_⟩, Runs.emissions_nil _⟩ <;> simp [VideoReceiver.new, since]

instance (seen : List RxEvent) (rx : VideoReceiver) :
    (call : RxCall) → Decidable (rx.AvoidsStaleAnchor seen call)
  | .onMessage buf nowMs =>
      match arrived : rx.arrival buf nowMs with
      | none => .isTrue (by simp [AvoidsStaleAnchor, arrived])
      | some arrival => decidable_of_iff (since (seen ++ arrival.start.2) = .gap →
          ∀ chunk ∈ arrival.chunks, chunk.isKey = false →
            arrival.start.1.staleAnchor ≠ some chunk.frameId)
          (by simp [AvoidsStaleAnchor, arrived])
  | .tickEvents _ | .tick _ | .pollNeedsIdr => .isTrue trivial

-- A frame of one chunk as a message of epoch 1; `checksum` is what its header claims.
def soloMessage (seq frameId : UInt32) (isKey : Bool) (data : List UInt8) (checksum : UInt32) :
    List UInt8 :=
  2 :: (leU32 1 ++ leU32 seq ++ v2Tail (chunkV2Bytes
    { chunkHeaderV2 frameId isKey 0 data 0 with encodedFrameCrc32 := checksum } data))

/-- A damaged frame 0, then the key frame 1. -/
theorem run_gate_opens_on_key_damaged :
    Runs.Emissions KeyFirst (Runs.run call (.new 0)
      [.onMessage (soloMessage 0 0 false [1] 0) 0,
        .onMessage (soloMessage 1 1 true [2] (ieeeCrc32 [2])) 1]).2 :=
  run_gate_opens_on_key 0 _ (by decide +kernel)

/-- The damaged frame 0 leaves the anchor 1 behind. The key frame 20 ends the wait for an IDR, but
it is the delta frame 1 that leaves first. -/
theorem run_gate_opens_on_delta :
    ¬ Runs.Emissions KeyFirst (Runs.run call (.new 0)
      [.onMessage (soloMessage 0 0 false [1] 0) 0,
        .onMessage (soloMessage 1 20 true [2] (ieeeCrc32 [2])) 1,
        .onMessage (soloMessage 2 1 false [3] (ieeeCrc32 [3])) 2]).2 := by
  have output : (Runs.run call (.new 0)
      [.onMessage (soloMessage 0 0 false [1] 0) 0,
        .onMessage (soloMessage 1 20 true [2] (ieeeCrc32 [2])) 1,
        .onMessage (soloMessage 2 1 false [3] (ieeeCrc32 [3])) 2]).2 =
      [.discontinuity 1 .frameCrc, .frame ⟨1, 1, false, 0, 0, [3]⟩] := by decide +kernel
  intro keyFirst
  have key := keyFirst [.discontinuity 1 .frameCrc] _ [] output _ rfl rfl
  simp at key

end VideoReceiver

end BetterParsec
