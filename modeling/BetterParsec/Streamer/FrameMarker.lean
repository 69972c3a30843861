import BetterParsec.Streamer.Fragments

set_option autoImplicit false
set_option linter.all false

/-!
# The marker of a frame

`send_single_frame` and `packetize` of `webrtc/video.rs`: the last packet of the last
NAL unit is marked as the end of the frame. A NAL unit for which the payloader
returns nothing leaves the frame without a mark when it is the last one.
-/

namespace BetterParsec

namespace Rtp

structure Header where
  version : Nat
  padding : Bool
  extension : Bool
  marker : Bool
  sequenceNumber : UInt16
  timestamp : UInt32
  payloadType : UInt8
  ssrc : UInt32
  deriving DecidableEq

structure Packet where
  header : Header
  payload : List UInt8
  deriving DecidableEq

def Packet.ofPayload (sequenceNumber : UInt16) (timestamp : UInt32) (marker : Bool)
    (payload : List UInt8) : Packet :=
  { header := ⟨2, false, false, marker, sequenceNumber, timestamp, 0, 0⟩, payload := payload }

-- A decode unit: its timestamp and its NAL units.
structure DecodeUnit where
  timestamp : UInt32
  samples : List Nal

-- `RTP_OUTBOUND_MTU` is a constant of the WebRTC library.
variable {S : Type} (payload : S → Nat → Nal → S × Except RtpError (List (List UInt8)))
  (outboundMtu : Nat)

def packetize (payloader : S) (sequenceNumber : UInt16) (timestamp : UInt32) (nal : Nal)
    (endHasMarker : Bool) : S × Except RtpError (List Packet) :=
  let (next, payloads) := payload payloader (outboundMtu - 12) nal
  (next, payloads.map fun payloads => payloads.mapIdx fun i payload =>
    .ofPayload sequenceNumber timestamp (endHasMarker && i = payloads.length - 1) payload)

-- What is handed to `send_samples`. A NAL unit that is not packetized is skipped.
def sendSingleFrame (timestamp : UInt32) : S → List Nal → S × List Packet
  | payloader, [] => (payloader, [])
  | payloader, sample :: samples =>
      match packetize payload outboundMtu payloader 0 timestamp sample samples.isEmpty with
      | (next, .ok packets) =>
          ((sendSingleFrame timestamp next samples).1,
            packets ++ (sendSingleFrame timestamp next samples).2)
      | (next, .error _) => sendSingleFrame timestamp next samples

def sendUnit (payloader : S) (decodeUnit : DecodeUnit) : S × List (List Packet) :=
  ((sendSingleFrame payload outboundMtu decodeUnit.timestamp payloader decodeUnit.samples).1,
    [(sendSingleFrame payload outboundMtu decodeUnit.timestamp payloader decodeUnit.samples).2])

-- The last packet has the marker and no other one does.
def Marked (packets : List Packet) : Prop :=
  packets ≠ [] → ∃ (front : List Packet) (last : Packet), packets = front ++ [last] ∧
    last.header.marker = true ∧ ∀ packet ∈ front, packet.header.marker = false

-- Whether each NAL unit leads to a packet when it comes.
def sounding (sounds : S → Nal → Bool) : S → List Nal → List Bool
  | _, [] => []
  | payloader, sample :: samples =>
      sounds payloader sample ::
        sounding sounds (payload payloader (outboundMtu - 12) sample).1 samples

-- If any NAL unit of the frame leads to a packet, the last one does.
def EndsSounding (sounds : S → Nal → Bool) (payloader : S) (samples : List Nal) : Prop :=
  true ∈ sounding payload outboundMtu sounds payloader samples →
    (sounding payload outboundMtu sounds payloader samples).getLast? = some true

namespace H264

-- Delimiters, filler and parameter sets lead to no packet, and neither does a slice that comes while
-- the parameter sets are too long for one packet.
def sounds (mtu : Nat) (payloader : H264Payloader) (nal : Nal) : Bool :=
  nal ≠ [] && kept nal &&
    match payloader.ppsNalu, payloader.spsNalu with
    | some pps, some sps => 1 + (2 + sps.length) + (2 + pps.length) < mtu
    | _, _ => true

def sendUnit (outboundMtu : Nat) :
    H264Payloader → DecodeUnit → H264Payloader × List (List Packet) :=
  Rtp.sendUnit H264Payloader.payload outboundMtu

def EndsSounding (outboundMtu : Nat) (payloader : H264Payloader) (decodeUnit : DecodeUnit) : Prop :=
  Rtp.EndsSounding H264Payloader.payload outboundMtu (sounds (outboundMtu - 12)) payloader
    decodeUnit.samples

end H264

namespace H265

-- A parameter set leads to packets when the other two are there.
def sounds (payloader : H265Payloader) (nal : Nal) : Bool :=
  2 ≤ nal.length && (kept nal || (payloader.known nal .vps).isSome &&
    (payloader.known nal .sps).isSome && (payloader.known nal .pps).isSome)

def sendUnit (outboundMtu : Nat) :
    H265Payloader → DecodeUnit → H265Payloader × List (List Packet) :=
  Rtp.sendUnit H265Payloader.payload outboundMtu

def EndsSounding (outboundMtu : Nat) (payloader : H265Payloader) (decodeUnit : DecodeUnit) : Prop :=
  Rtp.EndsSounding H265Payloader.payload outboundMtu sounds payloader decodeUnit.samples

end H265

section Marking

variable {payload outboundMtu} {front later : List Packet}

theorem unmarked_mapIdx (timestamp : UInt32) (payloads : List (List UInt8)) :
    ∀ packet ∈ payloads.mapIdx fun i payload =>
      Packet.ofPayload 0 timestamp (false && i = payloads.length - 1) payload,
      packet.header.marker = false := by
  intro packet member
  obtain ⟨i, _, rfl⟩ := List.mem_mapIdx.mp member
  rfl

theorem marked_mapIdx (timestamp : UInt32) (payloads : List (List UInt8)) :
    Marked (payloads.mapIdx fun i payload =>
      Packet.ofPayload 0 timestamp (true && i = payloads.length - 1) payload) := by
  intro some_
  rcases List.eq_nil_or_concat payloads with rfl | ⟨init, last, rfl⟩
  · exact absurd rfl some_
  · rw [List.concat_eq_append, List.mapIdx_concat]
    refine ⟨_, _, rfl, by simp [Packet.ofPayload], fun packet member => ?_⟩
    obtain ⟨i, bound, rfl⟩ := List.mem_mapIdx.mp member
    simp [Packet.ofPayload, bound.ne]

-- Packets without a marker in front of the others.
theorem marked_append (unmarked : ∀ packet ∈ front, packet.header.marker = false) :
    Marked (front ++ later) ↔ (front = [] ∨ later ≠ []) ∧ Marked later := by
  constructor
  · intro marked
    rcases List.eq_nil_or_concat later with rfl | ⟨init, last, rfl⟩
    · refine ⟨.inl ?_, fun some_ => absurd rfl some_⟩
      by_contra some_
      rw [List.append_nil] at marked
      obtain ⟨before, last, rfl, set, -⟩ := marked some_
      have unset := unmarked last (by simp)
      rw [set] at unset
      exact nomatch unset
    · rw [List.concat_eq_append] at marked ⊢
      refine ⟨.inr (by simp), fun _ => ?_⟩
      obtain ⟨before, final, same, set, others⟩ := marked (by simp)
      rw [← List.append_assoc] at same
      obtain ⟨rfl, ends⟩ := List.append_inj' same rfl
      obtain rfl := List.singleton_inj.mp ends
      exact ⟨init, last, rfl, set, fun packet member => others packet (by simp [member])⟩
  · rintro ⟨rfl | some_, marked⟩ whole
    · exact marked whole
    · obtain ⟨before, last, rfl, set, others⟩ := marked some_
      refine ⟨front ++ before, last, by rw [List.append_assoc], set, fun packet member => ?_⟩
      rcases List.mem_append.mp member with own | other
      · exact unmarked packet own
      · exact others packet other

theorem sendSingleFrame_cons (timestamp : UInt32) (payloader : S) (sample : Nal)
    (samples : List Nal) :
    sendSingleFrame payload outboundMtu timestamp payloader (sample :: samples) =
      let (next, result) := payload payloader (outboundMtu - 12) sample
      ((sendSingleFrame payload outboundMtu timestamp next samples).1,
        ((payloads result).mapIdx fun i bytes => .ofPayload 0 timestamp
          (samples.isEmpty && i = (payloads result).length - 1) bytes) ++
        (sendSingleFrame payload outboundMtu timestamp next samples).2) := by
  rw [sendSingleFrame, packetize]
  rcases payload payloader (outboundMtu - 12) sample with ⟨next, result⟩
  cases result with
  | ok packets => rfl
  | error => rfl

section Sounding

variable {sounds : S → Nal → Bool}
  (heard : ∀ payloader nal, sounds payloader nal ↔
    payloads (payload payloader (outboundMtu - 12) nal).2 ≠ [])

include heard

theorem sendSingleFrame_ne_nil_iff (timestamp : UInt32) (payloader : S) (samples : List Nal) :
    (sendSingleFrame payload outboundMtu timestamp payloader samples).2 ≠ [] ↔
      true ∈ sounding payload outboundMtu sounds payloader samples := by
  induction samples generalizing payloader with
  | nil => simp [sendSingleFrame, sounding]
  | cons sample samples ih =>
    rw [sendSingleFrame_cons, sounding, List.mem_cons, ← ih, eq_comm, heard]
    simp only [ne_eq, List.append_eq_nil_iff, List.mapIdx_eq_nil_iff, not_and_or]

/-- The frame is marked exactly if its last NAL unit leads to a packet or none does. -/
theorem marked_iff (timestamp : UInt32) (payloader : S) (samples : List Nal) :
    Marked (sendSingleFrame payload outboundMtu timestamp payloader samples).2 ↔
      EndsSounding payload outboundMtu sounds payloader samples := by
  induction samples generalizing payloader with
  | nil => exact iff_of_true (fun some_ => absurd rfl some_) fun member => nomatch member
  | cons sample samples ih =>
    rw [sendSingleFrame_cons]
    cases samples with
    | nil =>
      refine iff_of_true ?_ fun member => ?_
      · simp only [sendSingleFrame, List.append_nil]
        exact marked_mapIdx timestamp _
      · rw [sounding, sounding, List.mem_singleton] at member
        rw [sounding, sounding, ← member]
        rfl
    | cons next samples =>
      have later := sendSingleFrame_ne_nil_iff heard timestamp
        (payload payloader (outboundMtu - 12) sample).1 (next :: samples)
      have rest := ih (payload payloader (outboundMtu - 12) sample).1
      have whole : sounding payload outboundMtu sounds payloader (sample :: next :: samples) =
          sounds payloader sample :: sounding payload outboundMtu sounds
            (payload payloader (outboundMtu - 12) sample).1 (next :: samples) := rfl
      have last : (sounds payloader sample :: sounding payload outboundMtu sounds
            (payload payloader (outboundMtu - 12) sample).1 (next :: samples)).getLast? =
          (sounding payload outboundMtu sounds (payload payloader (outboundMtu - 12) sample).1
            (next :: samples)).getLast? := List.getLast?_cons_cons
      simp only [List.isEmpty_cons]
      rw [marked_append (unmarked_mapIdx timestamp _), List.mapIdx_eq_nil_iff, later, rest,
        EndsSounding, EndsSounding, whole, last, List.mem_cons, @eq_comm _ true, heard]
      generalize sounding payload outboundMtu sounds
        (payload payloader (outboundMtu - 12) sample).1 (next :: samples) = sounded
      constructor
      · rintro ⟨silent | some_, ends⟩ member
        · exact ends (member.resolve_left fun loud => loud silent)
        · exact ends some_
      · intro ends
        refine ⟨?_, fun member => ends (.inr member)⟩
        by_cases silent : payloads (payload payloader (outboundMtu - 12) sample).2 = []
        · exact .inl silent
        · exact .inr (List.mem_of_getLast? (ends (.inl silent)))

end Sounding

end Marking

section Runs

variable {outboundMtu}

theorem run_marked_iff {payload} {sounds : S → Nal → Bool}
    (heard : ∀ payloader nal, sounds payloader nal ↔
      payloads (payload payloader (outboundMtu - 12) nal).2 ≠ [])
    (payloader : S) (decodeUnits : List DecodeUnit) :
    (∀ packets ∈ (Runs.run (sendUnit payload outboundMtu) payloader decodeUnits).2,
        Marked packets) ↔
      Runs.Along (sendUnit payload outboundMtu) (fun _ payloader decodeUnit =>
        EndsSounding payload outboundMtu sounds payloader decodeUnit.samples) [] payloader
        decodeUnits := by
  rw [← Runs.emissionsAfter_each Marked []]
  refine Runs.emissions_run_iff _ (fun _ _ => True) (fun _ _ _ _ => trivial)
    (fun seen payloader decodeUnit _ => ?_) decodeUnits trivial
  rw [Runs.emissionsAfter_each, sendUnit, List.forall_mem_singleton]
  exact marked_iff heard decodeUnit.timestamp payloader decodeUnit.samples

theorem RoundTrip.ne_nil {read : List UInt8 → Packets.Received UInt8} {mtu : Nat} {nal : Nal}
    {packets : List (List UInt8)} (whole : RoundTrip read mtu nal packets) : packets ≠ [] := by
  rintro rfl
  have several : 2 ≤ 0 := whole.2.several
  omega

theorem length_stapA (spsNalu ppsNalu : Nal) :
    (H264.buildStapAPacket [spsNalu, ppsNalu]).length =
      1 + (2 + spsNalu.length) + (2 + ppsNalu.length) := by
  simp only [H264.buildStapAPacket, Packets.sized, List.flatMap_cons, List.flatMap_nil,
    List.length_cons, List.length_append, List.length_nil]
  omega

theorem H264.sounds_iff {mtu : Nat} (enough : 4 ≤ mtu) (payloader : H264Payloader) (nal : Nal) :
    sounds mtu payloader nal ↔ payloads (payloader.payload mtu nal).2 ≠ [] := by
  cases nal with
  | nil => simp [sounds, H264Payloader.payload, payloads]
  | cons first rest =>
    by_cases keeps : kept (first :: rest)
    · obtain ⟨notSps, notPps, notDelimiter, notFiller⟩ := kept_iff.mp keeps
      have own : (if (first :: rest).length ≤ mtu then [first :: rest]
          else buildFragmentedPackets (first :: rest) (.parse first) mtu) ≠ [] := by
        split_ifs with short
        · exact List.cons_ne_nil _ _
        · exact (roundTrip enough first rest (by omega)).ne_nil
      simp only [payload_cons, notSps, notPps, notDelimiter, notFiller, or_self, if_false, sounds,
        keeps]
      obtain ⟨spsNalu, ppsNalu⟩ := payloader
      cases ppsNalu with
      | none => simpa [payloads] using own
      | some ppsNalu =>
        cases spsNalu with
        | none => simpa [payloads] using own
        | some spsNalu =>
          simp only [length_stapA]
          by_cases room : 1 + (2 + spsNalu.length) + (2 + ppsNalu.length) < mtu
          · simp [room, Nat.not_le.mpr room, payloads]
          · simp [room, Nat.not_lt.mp room, payloads]
    · have dropped : kept (first :: rest) = false := by simpa using keeps
      have silent : payloads (payloader.payload mtu (first :: rest)).2 = [] := by
        rw [kept_iff] at keeps
        rw [payload_cons]
        by_cases other : typeOf (first :: rest) = 9 ∨ typeOf (first :: rest) = 12
        · rw [if_pos other]
          rfl
        rw [if_neg other]
        by_cases isPps : typeOf (first :: rest) = 8
        · rw [if_pos isPps]
          rfl
        rw [if_neg isPps]
        by_cases isSps : typeOf (first :: rest) = 7
        · rw [if_pos isSps]
          rfl
        · exact absurd ⟨isSps, isPps, fun is => other (.inl is), fun is => other (.inr is)⟩ keeps
      simp [sounds, dropped, silent]

theorem H265.sounds_iff {mtu : Nat} (enough : 4 ≤ mtu) (payloader : H265Payloader) (nal : Nal) :
    sounds payloader nal ↔ payloads (payloader.payload mtu nal).2 ≠ [] := by
  match nal with
  | [] | [_] => simp [sounds, H265Payloader.payload, payloads]
  | first :: second :: rest =>
    have own : (if kept (first :: second :: rest) = false then []
        else if (first :: second :: rest).length ≤ mtu then [first :: second :: rest]
        else buildFragmentedPackets (.parse first second) (first :: second :: rest) mtu) ≠ [] ↔
          kept (first :: second :: rest) := by
      split_ifs with dropped short
      · simp [dropped]
      · simpa using dropped
      · exact iff_of_true (roundTrip enough first second rest (by omega)).ne_nil
          (by simpa using dropped)
    rw [payload_eq]
    simp only [sounds]
    cases payloader.known (first :: second :: rest) .vps with
    | none => simpa [payloads] using own.symm
    | some vpsNalu =>
      cases payloader.known (first :: second :: rest) .sps with
      | none => simpa [payloads] using own.symm
      | some spsNalu =>
        cases payloader.known (first :: second :: rest) .pps with
        | none => simpa [payloads] using own.symm
        | some ppsNalu =>
          simp only [payloads]
          split_ifs <;> simp

/-- In a run of decode units every frame that leads to packets is marked at its last one exactly if
in each unit that leads to packets the last NAL unit does. -/
theorem frames_marked_iff (enough : 16 ≤ outboundMtu) (decodeUnits : List DecodeUnit) :
    ((∀ packets ∈ (Runs.run (H264.sendUnit outboundMtu) ⟨none, none⟩ decodeUnits).2,
        Marked packets) ↔
      Runs.Along (H264.sendUnit outboundMtu) (fun _ => H264.EndsSounding outboundMtu) []
        ⟨none, none⟩ decodeUnits) ∧
    ((∀ packets ∈ (Runs.run (H265.sendUnit outboundMtu) ⟨none, none, none⟩ decodeUnits).2,
        Marked packets) ↔
      Runs.Along (H265.sendUnit outboundMtu) (fun _ => H265.EndsSounding outboundMtu) []
        ⟨none, none, none⟩ decodeUnits) :=
  ⟨run_marked_iff (fun payloader nal => H264.sounds_iff (by omega) payloader nal) _ decodeUnits,
    run_marked_iff (fun payloader nal => H265.sounds_iff (by omega) payloader nal) _ decodeUnits⟩

-- A slice and the delimiter behind it.
theorem frames_marked_iff_slice :
    (∀ packets ∈ (Runs.run (H264.sendUnit 1200) ⟨none, none⟩ [⟨0, [[0x65, 1]]⟩]).2,
        Marked packets) ∧
      ¬ ∀ packets ∈ (Runs.run (H265.sendUnit 1200) ⟨none, none, none⟩
        [⟨0, [[0x26, 1], [0x40, 1]]⟩]).2, Marked packets := by
  constructor
  · exact (frames_marked_iff (by decide) [⟨0, [[0x65, 1]]⟩]).1.mpr ⟨fun _ => by decide +kernel, trivial⟩
  · intro marked
    have ends := ((frames_marked_iff (by decide) [⟨0, [[0x26, 1], [0x40, 1]]⟩]).2.mp marked).1
    exact absurd (ends (by decide +kernel)) (by decide +kernel)

theorem frame_not_marked :
    ¬ ∀ packets ∈ (Runs.run (H264.sendUnit 1200) ⟨none, none⟩
      [⟨0, [[0x65, 1], [0x09, 0xF0]]⟩]).2, Marked packets := by
  intro marked
  have packets : (Runs.run (H264.sendUnit 1200) ⟨none, none⟩
      [⟨0, [[0x65, 1], [0x09, 0xF0]]⟩]).2 = [[.ofPayload 0 0 false [0x65, 1]]] := by
    decide +kernel
  rw [packets] at marked
  obtain ⟨front, last, same, set, -⟩ := marked _ (List.mem_singleton_self _) (List.cons_ne_nil _ _)
  have member : last ∈ [Packet.ofPayload 0 0 false [0x65, 1]] := by simp [same]
  rw [List.mem_singleton.mp member] at set
  exact nomatch set

end Runs

end Rtp

end BetterParsec
