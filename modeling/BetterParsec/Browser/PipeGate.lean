import BetterParsec.Browser.PipeOrder

set_option autoImplicit false
set_option linter.all false

/-!
# The recovery gate of the pipe

Behind a discontinuity, and behind the first configuration, the first unit has
to be a key frame. As in the receiver, a damaged frame breaks this: the flush
loop restores an anchor after `emitFrame` has cleared it, and a delta frame with
that id overtakes the key frame the pipe waits for.
-/

namespace BetterParsec

namespace Web

-- No unit has followed the last discontinuity, or the start.
def awaitsFirst (seen : List RxEvent) : Bool :=
  match since seen with
  | .start | .gap => true
  | .frame _ => false

-- The first unit behind a discontinuity, or behind the start, is a key frame.
def KeyLeads (before : List RxEvent) (event : RxEvent) : Prop :=
  ∀ unit, event = .frame unit → awaitsFirst before → unit.isKey

-- The start counts as a discontinuity.
def opening : RxEvent := .discontinuity 0 .epochTransition

theorem since_opening (seen : List RxEvent) :
    since (opening :: seen) = .gap ↔ awaitsFirst seen := by
  have same : since (opening :: seen) =
      match since seen with
      | .start | .gap => .gap
      | .frame unit => .frame unit := by
    induction seen using List.reverseRecOn with
    | nil => rfl
    | append_singleton earlier event ih =>
      rw [← List.cons_append, since_concat, since_concat, ih]
      cases event with
      | frame | discontinuity => rfl
      | ack => rfl
  rw [same, awaitsFirst]
  cases since seen <;> simp

theorem keyLeads_of_keyFirst {output : List RxEvent}
    (keyFirst : Runs.Emissions VideoReceiver.KeyFirst (opening :: output)) :
    Runs.Emissions KeyLeads output := by
  intro before event after split unit framed awaits
  exact keyFirst (opening :: before) event after (congrArg (opening :: ·) split) unit framed
    ((since_opening before).mpr awaits)

namespace FecDecodePipe

-- Until a unit has followed the last discontinuity, no chunk is delivered of a delta frame whose id
-- is an anchor that no held key frame has claimed.
def AvoidsStaleAnchor (seen : List RxEvent) (pipe : FecDecodePipe) (event : DecoderEvent) : Prop :=
  awaitsFirst seen → ∀ chunk ∈ chunkOf pipe.config.isV2 event, chunk.isKey = false →
    pipe.view.staleAnchor ≠ some chunk.frameId

open VideoReceiver in
theorem upkeep_gating : Upkeep AvoidsStaleAnchor (fun seen rx => rx.Gating (opening :: seen)) := by
  refine ⟨fun seen pipe clock event booked avoids gating => ?_, ?_, ?_, ?_⟩
  · have path := (booked.deliverEvent pipe.config.epoch pipe.config.isV2 clock event).1
    have listed : (fun chunk => chunkOf pipe.config.isV2 event = some chunk) =
        (· ∈ (chunkOf pipe.config.isV2 event).toList) := by
      funext chunk
      rw [Option.mem_toList]
    rw [listed] at path
    refine gating.taken rfl (fun gap chunk brought => ?_) path
    rw [Option.mem_toList] at brought
    exact avoids ((since_opening seen).mp gap) chunk brought
  · intro seen rx emitted next gating move
    exact gating.release move
  · intro seen rx decoder needsIdr gating
    exact gating.relabel rx.activeEpoch decoder needsIdr
      ⟨gating.kept.pending, gating.kept.completed, gating.kept.gated⟩
  · intro seen rx epoch gating other
    exact gating_reset gating.keyFirst other epoch _

/-- The first version 2 configuration empties the pipe and closes the gate. -/
theorem configure_first (pipe : FecDecodePipe) (unset : pipe.hasExplicitConfig = false) {epoch : Int}
    (valid : 0 < epoch ∧ epoch ≤ 0xFFFFFFFF) (clock : Nat → Int) :
    (pipe.call (.configure (.v2 epoch) clock)).1.hasExplicitConfig ∧ ∃ rx : VideoReceiver,
      (pipe.call (.configure (.v2 epoch) clock)).1.view = { rx.reset with needsIdr := false } := by
  have accepted : (ConfigRequest.v2 epoch).accepted = some (.v2 (UInt32.ofNat epoch.toNat)) := by
    rw [ConfigRequest.accepted, if_neg (by omega)]
  simp only [call, configure, accepted, unset, FecPipeConfig.isV2, Bool.not_false, Bool.true_and,
    if_true]
  exact ⟨rfl,
    { pipe.view with
      decoder := newDecoder
      activeEpoch := some (UInt32.ofNat epoch.toNat)
      lastTimestampUs := 0 }, rfl⟩

/-- In every run that avoids stale anchors, the first unit behind the first configuration and
behind every discontinuity is a key frame. -/
theorem run_key_leads (onAck : Bool) (start : Nat → Int) (before calls : List PipeCall)
    (epoch : Int) (clock : Nat → Int)
    (unset : (Runs.run call (.new onAck start) before).1.hasExplicitConfig = false)
    (valid : 0 < epoch ∧ epoch ≤ 0xFFFFFFFF)
    (avoids : Runs.Along call (fun seen pipe input => pipe.Guards AvoidsStaleAnchor seen input) []
      (Runs.run call (.new onAck start)
        (before ++ [PipeCall.configure (.v2 epoch) clock])).1 calls) :
    Runs.Emissions KeyLeads (Runs.run call
      (Runs.run call (.new onAck start)
        (before ++ [PipeCall.configure (.v2 epoch) clock])).1 calls).2 := by
  have ready := run_ready onAck start (before ++ [PipeCall.configure (.v2 epoch) clock])
  have last : (Runs.run call (.new onAck start)
      (before ++ [PipeCall.configure (.v2 epoch) clock])).1 =
      ((Runs.run call (.new onAck start) before).1.call (.configure (.v2 epoch) clock)).1 := by
    rw [Runs.run_append]
    rfl
  rw [last] at ready avoids ⊢
  obtain ⟨explicit, rx, closed⟩ := configure_first _ unset valid clock
  have initial : VideoReceiver.Gating [opening]
      ((Runs.run call (.new onAck start) before).1.call (.configure (.v2 epoch) clock)).1.view := by
    have reset := VideoReceiver.gating_reset (Runs.emissions_nil _) rx 0 .epochTransition
    have kept : { rx.reset with needsIdr := false }.Kept :=
      ⟨reset.kept.pending, reset.kept.completed, reset.kept.gated⟩
    rw [closed]
    exact reset.relabel rx.activeEpoch rx.decoder false kept
  have kept := Runs.run_invariant call _
    (fun seen pipe => (pipe.Ready ∧ pipe.hasExplicitConfig) ∧
      pipe.view.Gating (opening :: seen)) ?_ [] _ calls ⟨⟨ready, explicit⟩, initial⟩ avoids
  · exact keyLeads_of_keyFirst kept.2.keyFirst
  · rintro seen pipe input ⟨⟨ready, configured⟩, gating⟩ guarded
    have first (fresh : pipe.hasExplicitConfig = false) (rx : VideoReceiver) :
        VideoReceiver.Gating (opening :: seen) { rx.reset with needsIdr := false } := by
      simp [configured] at fresh
    have called := upkeep_gating.call ready.booked ready.latched gating first input guarded
    exact ⟨⟨ready.call input, call_configured configured input⟩, called.2⟩

instance decidableAvoidsStaleAnchor (seen : List RxEvent) (pipe : FecDecodePipe)
    (event : DecoderEvent) : Decidable (pipe.AvoidsStaleAnchor seen event) :=
  inferInstanceAs (Decidable (_ → ∀ chunk ∈ chunkOf pipe.config.isV2 event, _ → _))

instance decidableGuards (guard : List RxEvent → FecDecodePipe → DecoderEvent → Prop)
    [∀ seen pipe event, Decidable (guard seen pipe event)] (seen : List RxEvent)
    (pipe : FecDecodePipe) (input : PipeCall) : Decidable (pipe.Guards guard seen input) :=
  match input with
  | .submitPacket buffer clock =>
      inferInstanceAs (Decidable (∀ symbol ∈ pipe.symbolOf buffer,
        Runs.Along (deliverEvent pipe.config.epoch pipe.config.isV2 clock) guard seen
          (pipe.decode symbol) (pipe.decoderEvents symbol)))
  | .configure _ _ | .tickTimer _ | .pollRequestIdr _ | .setOnAck => .isTrue trivial

/-- A damaged key frame 0, then the key frame 1. -/
theorem run_key_leads_damaged :
    Runs.Emissions KeyLeads (Runs.run call
      (Runs.run call (.new true (fun _ => 0)) ([] ++ [PipeCall.configure (.v2 1) (fun _ => 0)])).1
      [.submitPacket (VideoReceiver.soloMessage 0 0 true [1] 0) (fun _ => 0),
        .submitPacket (VideoReceiver.soloMessage 1 1 true [2] (ieeeCrc32 [2])) (fun _ => 1)]).2 :=
  run_key_leads true (fun _ => 0) [] _ 1 (fun _ => 0) rfl (by decide) (by decide +kernel)

/-- The damaged key frame 0 leaves the anchor 1 behind. The key frame 20 ends the wait for an IDR,
but it is the delta frame 1 that is submitted first. -/
theorem run_delta_leads :
    ¬ Runs.Emissions KeyLeads (Runs.run call
      (Runs.run call (.new true (fun _ => 0)) [.configure (.v2 1) (fun _ => 0)]).1
      [.submitPacket (VideoReceiver.soloMessage 0 0 true [1] 0) (fun _ => 0),
        .submitPacket (VideoReceiver.soloMessage 1 20 true [2] (ieeeCrc32 [2])) (fun _ => 1),
        .submitPacket (VideoReceiver.soloMessage 2 1 false [3] (ieeeCrc32 [3])) (fun _ => 2)]).2 := by
  have output : (Runs.run call
      (Runs.run call (.new true (fun _ => 0)) [.configure (.v2 1) (fun _ => 0)]).1
      [.submitPacket (VideoReceiver.soloMessage 0 0 true [1] 0) (fun _ => 0),
        .submitPacket (VideoReceiver.soloMessage 1 20 true [2] (ieeeCrc32 [2])) (fun _ => 1),
        .submitPacket (VideoReceiver.soloMessage 2 1 false [3] (ieeeCrc32 [3])) (fun _ => 2)]).2 =
      [.discontinuity 1 .frameCrc, .frame ⟨1, 1, false, 0, 0, [3]⟩] := by decide +kernel
  intro leads
  have key := leads [.discontinuity 1 .frameCrc] _ [] output _ rfl rfl
  simp at key

end FecDecodePipe

end Web

end BetterParsec
