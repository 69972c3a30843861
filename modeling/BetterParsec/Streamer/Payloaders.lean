import BetterParsec.Library.Packets

set_option autoImplicit false
set_option linter.all false

/-!
# RTP payloaders

The two payloaders of `webrtc/video/h264/payloader.rs` and
`webrtc/video/h265/payloader.rs`, which turn NAL units into the payloads of RTP
packets and hold back parameter sets, and the receivers of RFC 6184 and RFC
7798 that turn the payloads into NAL units again.
-/

namespace BetterParsec

namespace Rtp

inductive RtpError where
  | errBufferTooSmall
  deriving DecidableEq

abbrev Nal := List UInt8

def flag (set : Bool) (bit : UInt8) : UInt8 := if set then bit else 0

section Fidelity

-- The kinds of parameter sets of a codec, the NAL units that are to arrive besides them, and how a
-- payload is read.
variable {S K : Type} (kindOf : Nal → Option K) (kept : Nal → Bool)
  (read : List UInt8 → Packets.Received UInt8)

-- Each NAL unit with the payloads that it led to.
abbrev Payloads := List (Nal × List (List UInt8))

def received (history : Payloads) : List Nal :=
  (Runs.run Packets.reassemble none ((history.flatMap Prod.snd).map read)).2

def latest [DecidableEq K] (kind : K) (nals : List Nal) : Option Nal :=
  (nals.filter (kindOf · = some kind)).getLast?

def payloads : Except RtpError (List (List UInt8)) → List (List UInt8)
  | .ok packets => packets
  | .error _ => []

def logged (payload : S → Nal → S × Except RtpError (List (List UInt8))) (state : S) (nal : Nal) :
    S × Payloads :=
  ((payload state nal).1, [(nal, payloads (payload state nal).2)])

-- A NAL unit that is to arrive does so when it is payloaded, after the latest parameter sets.
def Arrives [DecidableEq K] (step : S → Nal → S × Payloads) (history : Payloads) (state : S)
    (nal : Nal) : Prop :=
  kept nal → ∃ front, received read (history ++ (step state nal).2) = front ++ [nal] ∧
    ∀ kind, latest kindOf kind front = latest kindOf kind (history.map Prod.fst)

-- The payloads fit, all units that are to arrive do so in their order, each after the parameter
-- sets that were the latest ones when it was payloaded.
def Faithful [DecidableEq K] (mtu : Nat) (step : S → Nal → S × Payloads) (initial : S)
    (nals : List Nal) : Prop :=
  let history := (Runs.run step initial nals).2
  (∀ packet ∈ history.flatMap Prod.snd, packet.length ≤ mtu) ∧
    (received read history).filter (kindOf · = none) = nals.filter kept ∧
    Runs.Along step (Arrives kindOf kept read step) [] initial nals

section Booked

variable {kindOf kept read} [DecidableEq K]

theorem latest_append (kind : K) (first second : List Nal) :
    latest kindOf kind (first ++ second) =
      (latest kindOf kind second).or (latest kindOf kind first) := by
  simp [latest, List.filter_append, List.getLast?_append]

theorem latest_singleton (kind : K) (nal : Nal) :
    latest kindOf kind [nal] = if kindOf nal = some kind then some nal else none := by
  by_cases own : kindOf nal = some kind <;> simp [latest, own]

-- One call: what its payloads are read as, and what is held back before and after.
structure Passes (kindOf : Nal → Option K) (kept : Nal → Bool)
    (read : List UInt8 → Packets.Received UInt8) (stored : S → K → Option Nal) (mtu : Nat)
    (nal : Nal) (packets : List (List UInt8)) (before after : S) : Prop where
  units : ∃ units, Runs.run Packets.reassemble none (packets.map read) = (none, units) ∧
    units.filter (kindOf · = none) = [nal].filter kept ∧
    (kept nal → ∃ sets, units = sets ++ [nal]) ∧
    ∀ kind, (stored after kind).or (latest kindOf kind units) =
      (latest kindOf kind [nal]).or (stored before kind)
  small : ∀ packet ∈ packets, packet.length ≤ mtu
  sent : kept nal → kindOf nal = none ∧ ∀ kind, stored after kind = none

structure Booked (kindOf : Nal → Option K) (kept : Nal → Bool)
    (read : List UInt8 → Packets.Received UInt8) (stored : S → K → Option Nal) (mtu : Nat)
    (history : Payloads) (state : S) : Prop where
  whole : (Runs.run Packets.reassemble none ((history.flatMap Prod.snd).map read)).1 = none
  small : ∀ packet ∈ history.flatMap Prod.snd, packet.length ≤ mtu
  order : (received read history).filter (kindOf · = none) = (history.map Prod.fst).filter kept
  pending : ∀ kind, (stored state kind).or (latest kindOf kind (received read history)) =
    latest kindOf kind (history.map Prod.fst)

variable {stored : S → K → Option Nal} {mtu : Nat} {history : Payloads} {before after : S}
  {nal : Nal} {packets : List (List UInt8)}

theorem Booked.received_append (booked : Booked kindOf kept read stored mtu history before)
    {units : List Nal}
    (reads : Runs.run Packets.reassemble none (packets.map read) = (none, units)) :
    Runs.run Packets.reassemble none (((history ++ [(nal, packets)]).flatMap Prod.snd).map read) =
      (none, received read history ++ units) := by
  have joined : ((history ++ [(nal, packets)]).flatMap Prod.snd).map read =
      (history.flatMap Prod.snd).map read ++ packets.map read := by
    simp [List.flatMap_append]
  rw [joined, Runs.run_append, booked.whole, reads]
  rfl

theorem Booked.step (booked : Booked kindOf kept read stored mtu history before)
    (passes : Passes kindOf kept read stored mtu nal packets before after) :
    Booked kindOf kept read stored mtu (history ++ [(nal, packets)]) after := by
  obtain ⟨units, reads, slices, -, held⟩ := passes.units
  have arrived : received read (history ++ [(nal, packets)]) = received read history ++ units := by
    rw [received, booked.received_append reads]
  refine ⟨by rw [booked.received_append reads], ?_, ?_, fun kind => ?_⟩
  · intro packet member
    rw [List.flatMap_append, List.mem_append] at member
    rcases member with old | new
    · exact booked.small packet old
    · exact passes.small packet (by simpa using new)
  · rw [arrived, List.filter_append, booked.order, slices, List.map_append, List.filter_append]
    rfl
  · rw [arrived, latest_append, ← Option.or_assoc, held, Option.or_assoc, booked.pending,
      List.map_append, latest_append]
    rfl

theorem Booked.arrives (booked : Booked kindOf kept read stored mtu history before)
    (passes : Passes kindOf kept read stored mtu nal packets before after) (keeps : kept nal) :
    ∃ front, received read (history ++ [(nal, packets)]) = front ++ [nal] ∧
      ∀ kind, latest kindOf kind front = latest kindOf kind (history.map Prod.fst) := by
  obtain ⟨other, none_left⟩ := passes.sent keeps
  have next := booked.step passes
  obtain ⟨units, reads, -, last, -⟩ := passes.units
  obtain ⟨sets, rfl⟩ := last keeps
  have arrived : received read (history ++ [(nal, packets)]) =
      received read history ++ sets ++ [nal] := by
    rw [received, booked.received_append reads, List.append_assoc]
  refine ⟨_, arrived, fun kind => ?_⟩
  have alone : latest kindOf kind [nal] = none := by
    rw [latest_singleton, other]
    rfl
  have others : ∀ nals, latest kindOf kind (nals ++ [nal]) = latest kindOf kind nals := by
    intro nals
    rw [latest_append, alone, Option.none_or]
  have pending := next.pending kind
  rw [none_left, Option.none_or, arrived, others, List.map_append] at pending
  exact pending.trans (others _)

-- A unit that leads to no payload.
theorem passes_held (dropped : kept nal = false)
    (held : ∀ kind, stored after kind = (latest kindOf kind [nal]).or (stored before kind)) :
    Passes kindOf kept read stored mtu nal [] before after := by
  refine ⟨⟨[], rfl, by simp [dropped], by simp [dropped], fun kind => ?_⟩, by simp,
    by simp [dropped]⟩
  rw [held]
  exact Option.or_none

-- A parameter set with which all that are held back are sent.
theorem passes_released (sets : List Nal) (dropped : kept nal = false)
    (reads : Runs.run Packets.reassemble none (packets.map read) = (none, sets))
    (small : ∀ packet ∈ packets, packet.length ≤ mtu) (only : ∀ set ∈ sets, kindOf set ≠ none)
    (released : ∀ kind, stored after kind = none)
    (included : ∀ kind, latest kindOf kind sets =
      (latest kindOf kind [nal]).or (stored before kind)) :
    Passes kindOf kept read stored mtu nal packets before after := by
  have none_left : sets.filter (kindOf · = none) = [] := by
    apply List.filter_eq_nil_iff.mpr
    intro set member
    simpa using only set member
  refine ⟨⟨sets, reads, by simp [none_left, dropped], by simp [dropped], fun kind => ?_⟩, small,
    by simp [dropped]⟩
  rw [released, included]
  rfl

-- A unit that is sent after all parameter sets that were held back.
theorem passes_sent (sets : List Nal) (keeps : kept nal) (other : kindOf nal = none)
    (reads : Runs.run Packets.reassemble none (packets.map read) = (none, sets ++ [nal]))
    (small : ∀ packet ∈ packets, packet.length ≤ mtu) (only : ∀ set ∈ sets, kindOf set ≠ none)
    (released : ∀ kind, stored after kind = none)
    (included : ∀ kind, latest kindOf kind sets = stored before kind) :
    Passes kindOf kept read stored mtu nal packets before after := by
  have alone : ∀ kind, latest kindOf kind [nal] = none := by
    intro kind
    rw [latest_singleton, other, if_neg (by simp)]
  refine ⟨⟨_, reads, ?_, fun _ => ⟨sets, rfl⟩, fun kind => ?_⟩, small, fun _ => ⟨other, released⟩⟩
  · have none_left : sets.filter (kindOf · = none) = [] := by
      apply List.filter_eq_nil_iff.mpr
      intro set member
      simpa using only set member
    rw [List.filter_append, none_left]
    simp [keeps, other]
  · rw [released, latest_append, alone, included]
    rfl

theorem passes_alone (keeps : kept nal) (other : kindOf nal = none)
    (reads : Runs.run Packets.reassemble none (packets.map read) = (none, [nal]))
    (small : ∀ packet ∈ packets, packet.length ≤ mtu)
    (nothing : ∀ kind, stored before kind = none) :
    Passes kindOf kept read stored mtu nal packets before before :=
  passes_sent [] keeps other reads small (by simp) nothing fun kind => (nothing kind).symm

theorem booked_nil {initial : S} (empty : ∀ kind, stored initial kind = none) :
    Booked kindOf kept read stored mtu [] initial :=
  ⟨rfl, by simp, rfl, fun kind => by rw [empty]; rfl⟩

/-- A payloader all of whose guarded calls pass is faithful in every guarded run. -/
theorem faithful_of_passes {payload : S → Nal → S × Except RtpError (List (List UInt8))}
    {guard : S → Nal → Prop} (valid : S → Prop)
    (passes : ∀ state nal, valid state → guard state nal →
      Passes kindOf kept read stored mtu nal (payloads (payload state nal).2) state
          (payload state nal).1 ∧ valid (payload state nal).1)
    {initial : S} (start : valid initial) (empty : ∀ kind, stored initial kind = none)
    {nals : List Nal}
    (guarded : Runs.Along (logged payload) (fun _ state nal => guard state nal) [] initial nals) :
    Faithful kindOf kept read mtu (logged payload) initial nals := by
  let invariant (history : Payloads) (state : S) : Prop :=
    Booked kindOf kept read stored mtu history state ∧ valid state
  have preserved : ∀ history state nal, invariant history state → guard state nal →
      invariant (history ++ (logged payload state nal).2) (logged payload state nal).1 := by
    rintro history state nal ⟨booked, sound⟩ allowed
    obtain ⟨pass, next⟩ := passes state nal sound allowed
    exact ⟨booked.step pass, next⟩
  have initially : invariant [] initial := ⟨booked_nil empty, start⟩
  have reached := Runs.run_invariant (logged payload) _ invariant preserved [] initial nals
    initially guarded
  have inputs : ((Runs.run (logged payload) initial nals).2.map Prod.fst) = nals := by
    clear guarded start empty reached initially
    induction nals generalizing initial with
    | nil => rfl
    | cons nal rest ih => simp [Runs.run, logged, ih]
  refine ⟨reached.1.small, ?_, ?_⟩
  · have order := reached.1.order
    rw [List.nil_append, inputs] at order
    exact order
  · refine Runs.along_of_invariant (logged payload) _ invariant preserved ?_ [] initial nals
      initially guarded
    rintro history state nal ⟨booked, sound⟩ allowed keeps
    exact booked.arrives (passes state nal sound allowed).1 keeps

end Booked

end Fidelity

theorem ofNat_injective {width : Nat} (small : width ≤ 256) {left right : Fin width}
    (same : UInt8.ofNat left = UInt8.ofNat right) : left = right := by
  have equal := congrArg UInt8.toNat same
  rw [UInt8.toNat_ofNat_of_lt' (left.isLt.trans_le small),
    UInt8.toNat_ofNat_of_lt' (right.isLt.trans_le small)] at equal
  exact Fin.ext equal

namespace H264

-- The enumeration has a name for each number of five bits.
abbrev NalUnitType := Fin 32

def sps : NalUnitType := 7

def pps : NalUnitType := 8

def accessUnitDelimiter : NalUnitType := 9

def fillerData : NalUnitType := 12

def stapA : NalUnitType := 24

def fragmentationUnit : NalUnitType := 28

structure NalHeader where
  forbiddenZeroBit : Bool
  nalRefIdc : UInt8
  nalUnitType : NalUnitType

def NalHeader.parse (header : UInt8) : NalHeader :=
  { forbiddenZeroBit := (header &&& 0b10000000) >>> 7 = 1
    nalRefIdc := (header &&& 0b01100000) >>> 5
    nalUnitType := Fin.ofNat 32 (header &&& 0b00011111).toNat }

def NalHeader.serialize (header : NalHeader) : UInt8 :=
  flag header.forbiddenZeroBit 0b10000000 ||| ((header.nalRefIdc &&& 0b11) <<< 5) |||
    (UInt8.ofNat header.nalUnitType &&& 0b00011111)

structure FuHeader where
  start : Bool
  final : Bool
  reservedBit : Bool
  nalUnitType : NalUnitType

def FuHeader.serialize (header : FuHeader) : UInt8 :=
  flag header.start 0b10000000 ||| flag header.final 0b01000000 |||
    flag header.reservedBit 0b00100000 |||
    (UInt8.ofNat header.nalUnitType &&& 0b00011111)

structure H264Payloader where
  spsNalu : Option Nal
  ppsNalu : Option Nal
  deriving DecidableEq

def buildStapAPacket (nalus : List Nal) : List UInt8 :=
  let nalRefIdc := nalus.foldl
    (fun highest nalu => max highest (NalHeader.parse (nalu.headD 0)).nalRefIdc) 0
  (NalHeader.mk false nalRefIdc stapA).serialize :: nalus.flatMap Packets.sized

def buildFragmentedPackets (nalu : Nal) (nalHeader : NalHeader) (mtu : Nat) : List (List UInt8) :=
  let header := { nalHeader with nalUnitType := fragmentationUnit }.serialize
  Packets.flagged
    (fun isFirst isLast fragment =>
      header :: (FuHeader.mk isFirst isLast false nalHeader.nalUnitType).serialize :: fragment)
    true (Packets.chunks (mtu - 1 - 1) (nalu.drop 1))

def H264Payloader.payload (payloader : H264Payloader) (mtu : Nat) (b : Nal) :
    H264Payloader × Except RtpError (List (List UInt8)) :=
  match b with
  | [] => (payloader, .error .errBufferTooSmall)
  | first :: _ =>
      let nalHeader := NalHeader.parse first
      if nalHeader.nalUnitType = accessUnitDelimiter ∨ nalHeader.nalUnitType = fillerData then
        (payloader, .ok [])
      else if nalHeader.nalUnitType = pps then ({ payloader with ppsNalu := some b }, .ok [])
      else if nalHeader.nalUnitType = sps then ({ payloader with spsNalu := some b }, .ok [])
      else
        let own := if b.length ≤ mtu then [b] else buildFragmentedPackets b nalHeader mtu
        match payloader.ppsNalu, payloader.spsNalu with
        | some ppsNalu, some spsNalu =>
            let stapAPacket := buildStapAPacket [spsNalu, ppsNalu]
            if stapAPacket.length ≥ mtu then (payloader, .ok [])
            else (⟨none, none⟩, .ok (stapAPacket :: own))
        | _, _ => (payloader, .ok own)

def step (mtu : Nat) : H264Payloader → Nal → H264Payloader × Payloads :=
  logged fun payloader => payloader.payload mtu

-- The receiver of RFC 6184 in the non-interleaved mode.
def read : List UInt8 → Packets.Received UInt8
  | [] => .units []
  | header :: rest =>
      let type := header &&& 0x1F
      if 1 ≤ type ∧ type ≤ 23 then .units [header :: rest]
      else if type = 24 then .units (Packets.unitsOf rest)
      else if type = 28 then
        match rest with
        | [] => .units []
        | fu :: payload =>
            .fragment (fu &&& 0x80 ≠ 0) (fu &&& 0x40 ≠ 0) [(header &&& 0xE0) ||| (fu &&& 0x1F)]
              payload
      else .units []

inductive ParameterSet where
  | sps
  | pps
  deriving DecidableEq

def typeOf (nal : Nal) : UInt8 := nal.headD 0 &&& 0x1F

def kindOf (nal : Nal) : Option ParameterSet :=
  if typeOf nal = 7 then some .sps else if typeOf nal = 8 then some .pps else none

-- All but parameter sets, delimiters and filler.
def kept (nal : Nal) : Bool := kindOf nal = none && typeOf nal ≠ 9 && typeOf nal ≠ 12

-- The length of a parameter set has two bytes.
def WellFormed (nal : Nal) : Prop :=
  1 ≤ nal.length ∧ (kindOf nal ≠ none → nal.length < 2 ^ 16)

instance decidableWellFormed (nal : Nal) : Decidable (WellFormed nal) :=
  inferInstanceAs (Decidable (_ ∧ _))

section Passing

variable {mtu : Nat} {payloader : H264Payloader} {nal : Nal}

def H264Payloader.stored (payloader : H264Payloader) : ParameterSet → Option Nal
  | .sps => payloader.spsNalu
  | .pps => payloader.ppsNalu

-- No parameter set is held back, or both are and their packet is shorter than the MTU.
def fit (mtu : Nat) : Option Nal → Option Nal → Bool
  | none, none => true
  | some sps, some pps => 1 + (2 + sps.length) + (2 + pps.length) < mtu
  | _, _ => false

-- A unit that is to arrive is of a type that a receiver takes for a single unit, or in fragments,
-- and comes when the parameter sets can be sent with it.
def Deliverable (mtu : Nat) (payloader : H264Payloader) (nal : Nal) : Prop :=
  kept nal → (nal.length ≤ mtu → 1 ≤ typeOf nal ∧ typeOf nal ≤ 23) ∧
    fit mtu payloader.spsNalu payloader.ppsNalu

instance decidableDeliverable (mtu : Nat) (payloader : H264Payloader) (nal : Nal) :
    Decidable (Deliverable mtu payloader nal) :=
  inferInstanceAs (Decidable (_ → _))

-- What is held back is a parameter set of its kind.
def H264Payloader.Valid (payloader : H264Payloader) : Prop :=
  ∀ kind, ∀ nal ∈ payloader.stored kind, kindOf nal = some kind ∧ nal.length < 2 ^ 16

theorem typeOf_eq_iff (first : UInt8) (rest : List UInt8) (type : NalUnitType) :
    (NalHeader.parse first).nalUnitType = type ↔ typeOf (first :: rest) = UInt8.ofNat type := by
  have value : ∀ first, UInt8.ofNat (NalHeader.parse first).nalUnitType = first &&& 0x1F := by
    decide +kernel
  change _ ↔ first &&& 0x1F = _
  rw [← value first]
  exact ⟨fun same => same ▸ rfl, ofNat_injective (by decide)⟩

theorem read_single (type : 1 ≤ typeOf nal ∧ typeOf nal ≤ 23) : read nal = .units [nal] := by
  cases nal with
  | nil => exact absurd type.1 (by decide)
  | cons first rest => exact if_pos type

theorem read_stapA {spsNalu ppsNalu : Nal} (spsShort : spsNalu.length < 2 ^ 16)
    (ppsShort : ppsNalu.length < 2 ^ 16) :
    read (buildStapAPacket [spsNalu, ppsNalu]) = .units [spsNalu, ppsNalu] := by
  have header : ∀ nalRefIdc, (NalHeader.mk false nalRefIdc stapA).serialize &&& 0x1F = 24 := by
    decide +kernel
  have short : ∀ nalu ∈ [spsNalu, ppsNalu], nalu.length < 2 ^ 16 := by
    simp only [List.mem_cons, List.not_mem_nil, or_false, forall_eq_or_imp, forall_eq]
    exact ⟨spsShort, ppsShort⟩
  simp only [read, buildStapAPacket, header, Packets.unitsOf_sized short]
  rfl

theorem read_fragment (first : UInt8) (isFirst isLast : Bool) (fragment : List UInt8) :
    read ({ NalHeader.parse first with nalUnitType := fragmentationUnit }.serialize ::
        (FuHeader.mk isFirst isLast false (NalHeader.parse first).nalUnitType).serialize ::
          fragment) = .fragment isFirst isLast [first] fragment := by
  have indicator : ∀ first, { NalHeader.parse first with
      nalUnitType := fragmentationUnit }.serialize &&& 0x1F = 28 := by decide +kernel
  have flags : ∀ isFirst isLast type,
      (FuHeader.mk isFirst isLast false type).serialize &&& 0x80 = flag isFirst 0x80 ∧
        (FuHeader.mk isFirst isLast false type).serialize &&& 0x40 = flag isLast 0x40 := by
    decide +kernel
  have type : ∀ isFirst isLast type,
      (FuHeader.mk isFirst isLast false type).serialize &&& 0x1F = UInt8.ofNat type := by
    decide +kernel
  have header : ∀ first,
      ({ NalHeader.parse first with nalUnitType := fragmentationUnit }.serialize &&& 0xE0) |||
        UInt8.ofNat (NalHeader.parse first).nalUnitType = first := by decide +kernel
  simp only [read, indicator, flags, type, header]
  cases isFirst <;> cases isLast <;> rfl

theorem run_fragmented (enough : 4 ≤ mtu) (first : UInt8) (rest : List UInt8)
    (long : mtu < (first :: rest).length) :
    Runs.run Packets.reassemble none
        ((buildFragmentedPackets (first :: rest) (.parse first) mtu).map read) =
      (none, [first :: rest]) := by
  simp only [buildFragmentedPackets, Packets.map_flagged, read_fragment]
  exact Packets.run_flagged_chunks (by omega) [first] rest
    (List.ne_nil_of_length_pos (by simp at long; omega)) none

theorem small_fragmented (enough : 4 ≤ mtu) {header : NalHeader} {packet : List UInt8}
    (member : packet ∈ buildFragmentedPackets nal header mtu) : packet.length ≤ mtu := by
  obtain ⟨begins, ends, piece, inside, rfl⟩ := Packets.mem_flagged member
  have short := Packets.length_le_of_mem_chunks inside
  simp only [List.length_cons]
  omega

-- The payloads of the unit itself.
theorem run_own (enough : 4 ≤ mtu) {first : UInt8} {rest : List UInt8}
    (single : (first :: rest).length ≤ mtu →
      1 ≤ typeOf (first :: rest) ∧ typeOf (first :: rest) ≤ 23) :
    ∃ own, own = (if (first :: rest).length ≤ mtu then [first :: rest]
        else buildFragmentedPackets (first :: rest) (.parse first) mtu) ∧
      Runs.run Packets.reassemble none (own.map read) = (none, [first :: rest]) ∧
      ∀ packet ∈ own, packet.length ≤ mtu := by
  refine ⟨_, rfl, ?_⟩
  split_ifs with short
  · refine ⟨?_, by simpa using short⟩
    rw [List.map_singleton, read_single (single short)]
    rfl
  · exact ⟨run_fragmented enough first rest (by omega), fun packet => small_fragmented enough⟩

theorem read_run_stapA {spsNalu ppsNalu : Nal} (spsShort : spsNalu.length < 2 ^ 16)
    (ppsShort : ppsNalu.length < 2 ^ 16) {own : List (List UInt8)} {units : List Nal}
    (reads : Runs.run Packets.reassemble none (own.map read) = (none, units)) :
    Runs.run Packets.reassemble none ((buildStapAPacket [spsNalu, ppsNalu] :: own).map read) =
      (none, [spsNalu, ppsNalu] ++ units) := by
  rw [List.map_cons, read_stapA spsShort ppsShort]
  simp [Runs.run, Packets.reassemble, reads]

theorem kept_iff {first : UInt8} {rest : List UInt8} :
    kept (first :: rest) = true ↔ typeOf (first :: rest) ≠ 7 ∧ typeOf (first :: rest) ≠ 8 ∧
      typeOf (first :: rest) ≠ 9 ∧ typeOf (first :: rest) ≠ 12 := by
  simp only [kept, kindOf]
  split_ifs <;> simp_all

-- The call by the type of the unit.
theorem payload_cons (payloader : H264Payloader) (mtu : Nat) (first : UInt8) (rest : List UInt8) :
    payloader.payload mtu (first :: rest) =
      if typeOf (first :: rest) = 9 ∨ typeOf (first :: rest) = 12 then (payloader, .ok [])
      else if typeOf (first :: rest) = 8 then
        ({ payloader with ppsNalu := some (first :: rest) }, .ok [])
      else if typeOf (first :: rest) = 7 then
        ({ payloader with spsNalu := some (first :: rest) }, .ok [])
      else
        let own := if (first :: rest).length ≤ mtu then [first :: rest]
          else buildFragmentedPackets (first :: rest) (.parse first) mtu
        match payloader.ppsNalu, payloader.spsNalu with
        | some ppsNalu, some spsNalu =>
            let stapAPacket := buildStapAPacket [spsNalu, ppsNalu]
            if stapAPacket.length ≥ mtu then (payloader, .ok [])
            else (⟨none, none⟩, .ok (stapAPacket :: own))
        | _, _ => (payloader, .ok own) := by
  simp only [H264Payloader.payload, typeOf_eq_iff first rest]
  rfl

theorem passes_slice (enough : 4 ≤ mtu) (valid : payloader.Valid) {first : UInt8}
    {rest : List UInt8} (keeps : kept (first :: rest))
    (deliverable : Deliverable mtu payloader (first :: rest)) :
    Passes kindOf kept read H264Payloader.stored mtu (first :: rest)
        (payloads (payloader.payload mtu (first :: rest)).2) payloader
        (payloader.payload mtu (first :: rest)).1 ∧
      (payloader.payload mtu (first :: rest)).1.Valid := by
  obtain ⟨single, room⟩ := deliverable keeps
  obtain ⟨own, same, reads, small⟩ := run_own enough single
  obtain ⟨notSps, notPps, notDelimiter, notFiller⟩ := kept_iff.mp keeps
  have other : kindOf (first :: rest) = none := by simp [kindOf, notSps, notPps]
  simp only [payload_cons, notSps, notPps, notDelimiter, notFiller, or_self, if_false, ← same]
  obtain ⟨spsNalu, ppsNalu⟩ := payloader
  cases spsNalu with
  | none =>
    cases ppsNalu with
    | none =>
      have nothing : ∀ kind, H264Payloader.stored ⟨none, none⟩ kind = none := by
        intro kind
        cases kind <;> rfl
      exact ⟨passes_alone keeps other reads small nothing, valid⟩
    | some ppsNalu => simp [fit] at room
  | some spsNalu =>
    cases ppsNalu with
    | none => simp [fit] at room
    | some ppsNalu =>
      obtain ⟨isSps, spsShort⟩ := valid .sps spsNalu rfl
      obtain ⟨isPps, ppsShort⟩ := valid .pps ppsNalu rfl
      have length : (buildStapAPacket [spsNalu, ppsNalu]).length < mtu := by
        simp only [buildStapAPacket, Packets.sized, List.flatMap_cons, List.flatMap_nil,
          List.length_cons, List.length_append, List.length_nil]
        simp only [fit, decide_eq_true_eq] at room
        omega
      simp only [ge_iff_le, Nat.not_le.mpr length, if_false]
      refine ⟨passes_sent _ keeps other (read_run_stapA spsShort ppsShort reads) ?_ ?_ ?_ ?_, ?_⟩
      · intro packet member
        rcases List.mem_cons.mp member with rfl | later
        · exact length.le
        · exact small packet later
      · simp [isSps, isPps]
      · intro kind
        cases kind <;> rfl
      · intro kind
        cases kind <;> simp [latest, isSps, isPps, H264Payloader.stored]
      · intro kind nal held
        cases kind <;> simp [H264Payloader.stored] at held

theorem payload_passes (enough : 4 ≤ mtu) (valid : payloader.Valid) (wellFormed : WellFormed nal)
    (deliverable : Deliverable mtu payloader nal) :
    Passes kindOf kept read H264Payloader.stored mtu nal (payloads (payloader.payload mtu nal).2)
      payloader (payloader.payload mtu nal).1 ∧ (payloader.payload mtu nal).1.Valid := by
  cases nal with
  | nil => exact absurd wellFormed.1 (by decide)
  | cons first rest =>
    by_cases keeps : kept (first :: rest)
    · exact passes_slice enough valid keeps deliverable
    have dropped : kept (first :: rest) = false := by simpa using keeps
    have type : typeOf (first :: rest) = 7 ∨ typeOf (first :: rest) = 8 ∨
        typeOf (first :: rest) = 9 ∨ typeOf (first :: rest) = 12 := by
      by_contra! other
      exact keeps (kept_iff.mpr other)
    rw [payload_cons]
    rcases type with isSps | isPps | delimiter | filler
    · have own : kindOf (first :: rest) = some .sps := by simp [kindOf, isSps]
      rw [isSps]
      refine ⟨passes_held dropped ?_, ?_⟩
      · intro kind
        cases kind <;> simp [latest_singleton, own, H264Payloader.stored]
      · intro kind nal held
        cases kind with
        | sps =>
          obtain rfl := Option.some.inj held
          exact ⟨own, wellFormed.2 (by simp [own])⟩
        | pps => exact valid .pps nal held
    · have own : kindOf (first :: rest) = some .pps := by simp [kindOf, isPps]
      rw [isPps]
      refine ⟨passes_held dropped ?_, ?_⟩
      · intro kind
        cases kind <;> simp [latest_singleton, own, H264Payloader.stored]
      · intro kind nal held
        cases kind with
        | sps => exact valid .sps nal held
        | pps =>
          obtain rfl := Option.some.inj held
          exact ⟨own, wellFormed.2 (by simp [own])⟩
    · rw [if_pos (.inl delimiter)]
      exact ⟨passes_held dropped fun kind => by simp [latest_singleton, kindOf, delimiter], valid⟩
    · rw [if_pos (.inr filler)]
      exact ⟨passes_held dropped fun kind => by simp [latest_singleton, kindOf, filler], valid⟩

/-- The payloads of a deliverable run are read as its units. -/
theorem faithful (enough : 4 ≤ mtu) {nals : List Nal} (wellFormed : ∀ nal ∈ nals, WellFormed nal)
    (deliverable : Runs.Along (step mtu) (fun _ => Deliverable mtu) [] ⟨none, none⟩ nals) :
    Faithful kindOf kept read mtu (step mtu) ⟨none, none⟩ nals := by
  have formed : Runs.Along (step mtu) (fun _ _ nal => WellFormed nal) [] ⟨none, none⟩ nals :=
    Runs.along_of_forall (fun nal member _ _ => wellFormed nal member) _ _
  have guarded := formed.and deliverable
  refine faithful_of_passes H264Payloader.Valid
    (fun state nal valid allowed => payload_passes enough valid allowed.1 allowed.2) ?_ ?_ guarded
  · intro kind nal held
    cases kind <;> simp [H264Payloader.stored] at held
  · intro kind
    cases kind <;> rfl

end Passing

end H264

namespace H265

-- The enumeration has a name for each number of six bits.
abbrev NalUnitType := Fin 64

def vpsNut : NalUnitType := 32

def spsNut : NalUnitType := 33

def ppsNut : NalUnitType := 34

def aggregationUnit : NalUnitType := 48

def fragmentationUnit : NalUnitType := 49

structure NalHeader where
  forbiddenZeroBit : Bool
  nalUnitType : NalUnitType
  nuhLayerId : UInt8
  nuhTemporalIdPlus1 : UInt8

def NalHeader.parse (first second : UInt8) : NalHeader :=
  { forbiddenZeroBit := first &&& 0b10000000 ≠ 0
    nalUnitType := Fin.ofNat 64 ((first &&& 0b01111110) >>> 1).toNat
    nuhLayerId := ((first &&& 0b00000001) <<< 5) ||| ((second &&& 0b11111000) >>> 3)
    nuhTemporalIdPlus1 := second &&& 0b00000111 }

def NalHeader.serialize (header : NalHeader) : List UInt8 :=
  [flag header.forbiddenZeroBit 0b10000000 |||
      ((UInt8.ofNat header.nalUnitType &&& 0b00111111) <<< 1) |||
      ((header.nuhLayerId >>> 5) &&& 0b00000001),
    ((header.nuhLayerId &&& 0b00011111) <<< 3) ||| (header.nuhTemporalIdPlus1 &&& 0b00000111)]

structure FuHeader where
  start : Bool
  final : Bool
  nalUnitType : NalUnitType

def FuHeader.serialize (header : FuHeader) : UInt8 :=
  flag header.start 0b10000000 ||| flag header.final 0b01000000 |||
    (UInt8.ofNat header.nalUnitType &&& 0b00111111)

structure H265Payloader where
  vpsNalu : Option Nal
  spsNalu : Option Nal
  ppsNalu : Option Nal
  deriving DecidableEq

def buildFragmentedPackets (nalHeader : NalHeader) (nalu : Nal) (mtu : Nat) : List (List UInt8) :=
  let header := { nalHeader with nalUnitType := fragmentationUnit }.serialize
  Packets.flagged
    (fun isFirst isLast fragment =>
      header ++ (FuHeader.mk isFirst isLast nalHeader.nalUnitType).serialize :: fragment)
    true (Packets.chunks (mtu - 2 - 1) (nalu.drop 2))

def aggregated (aggregate : NalHeader) (nalu : Nal) : NalHeader :=
  let header := NalHeader.parse (nalu.getD 0 0) (nalu.getD 1 0)
  { aggregate with
    forbiddenZeroBit := header.forbiddenZeroBit || aggregate.forbiddenZeroBit
    nuhLayerId := min header.nuhLayerId aggregate.nuhLayerId
    nuhTemporalIdPlus1 := min header.nuhTemporalIdPlus1 aggregate.nuhTemporalIdPlus1 }

def buildAggregationPacket (nalus : List Nal) : List UInt8 :=
  (nalus.foldl aggregated ⟨false, aggregationUnit, 255, 255⟩).serialize ++
    nalus.flatMap Packets.sized

def H265Payloader.store (payloader : H265Payloader) (nalUnitType : NalUnitType) (b : Nal) :
    H265Payloader :=
  if nalUnitType = vpsNut then { payloader with vpsNalu := some b }
  else if nalUnitType = spsNut then { payloader with spsNalu := some b }
  else if nalUnitType = ppsNut then { payloader with ppsNalu := some b }
  else payloader

def H265Payloader.payload (payloader : H265Payloader) (mtu : Nat) (b : Nal) :
    H265Payloader × Except RtpError (List (List UInt8)) :=
  match b with
  | first :: second :: _ =>
      let header := NalHeader.parse first second
      let payloader := payloader.store header.nalUnitType b
      match payloader.vpsNalu, payloader.spsNalu, payloader.ppsNalu with
      | some vpsNalu, some spsNalu, some ppsNalu =>
          let packet := buildAggregationPacket [vpsNalu, spsNalu, ppsNalu]
          (⟨none, none, none⟩,
            .ok (if packet.length ≤ mtu then [packet] else [vpsNalu, spsNalu, ppsNalu]))
      | _, _, _ =>
          if header.nalUnitType = vpsNut ∨ header.nalUnitType = spsNut ∨
              header.nalUnitType = ppsNut then (payloader, .ok [])
          else if b.length ≤ mtu then (payloader, .ok [b])
          else (payloader, .ok (buildFragmentedPackets header b mtu))
  | _ => (payloader, .error .errBufferTooSmall)

def step (mtu : Nat) : H265Payloader → Nal → H265Payloader × Payloads :=
  logged fun payloader => payloader.payload mtu

-- The receiver of RFC 7798 without decoding order numbers.
def read : List UInt8 → Packets.Received UInt8
  | first :: second :: rest =>
      let type := (first >>> 1) &&& 0x3F
      if type < 48 then .units [first :: second :: rest]
      else if type = 48 then .units (Packets.unitsOf rest)
      else if type = 49 then
        match rest with
        | [] => .units []
        | fu :: payload =>
            .fragment (fu &&& 0x80 ≠ 0) (fu &&& 0x40 ≠ 0)
              [(first &&& (0x81 : UInt8)) ||| ((fu &&& (0x3F : UInt8)) <<< 1), second] payload
      else .units []
  | _ => .units []

inductive ParameterSet where
  | vps
  | sps
  | pps
  deriving DecidableEq

def typeOf (nal : Nal) : UInt8 := (nal.headD 0 >>> 1) &&& 0x3F

def kindOf (nal : Nal) : Option ParameterSet :=
  if typeOf nal = 32 then some .vps
  else if typeOf nal = 33 then some .sps
  else if typeOf nal = 34 then some .pps
  else none

def kept (nal : Nal) : Bool := kindOf nal = none

def WellFormed (nal : Nal) : Prop :=
  2 ≤ nal.length ∧ (kindOf nal ≠ none → nal.length < 2 ^ 16)

instance decidableWellFormed (nal : Nal) : Decidable (WellFormed nal) :=
  inferInstanceAs (Decidable (_ ∧ _))

section Passing

variable {mtu : Nat} {payloader : H265Payloader} {nal : Nal}

def H265Payloader.stored (payloader : H265Payloader) : ParameterSet → Option Nal
  | .vps => payloader.vpsNalu
  | .sps => payloader.spsNalu
  | .pps => payloader.ppsNalu

-- The latest parameter set of a kind that was not sent, once the unit is there.
def H265Payloader.known (payloader : H265Payloader) (nal : Nal) (kind : ParameterSet) :
    Option Nal :=
  if kindOf nal = some kind then some nal else payloader.stored kind

-- A unit that is to arrive is of a type that a receiver takes for a single unit, or in fragments,
-- and comes when no parameter set is held back; when the three are there, none exceeds the MTU.
def Deliverable (mtu : Nat) (payloader : H265Payloader) (nal : Nal) : Prop :=
  (kept nal → (nal.length ≤ mtu → typeOf nal < 48) ∧ payloader = ⟨none, none, none⟩) ∧
    ∀ vps ∈ payloader.known nal .vps, ∀ sps ∈ payloader.known nal .sps,
      ∀ pps ∈ payloader.known nal .pps, vps.length ≤ mtu ∧ sps.length ≤ mtu ∧ pps.length ≤ mtu

instance decidableDeliverable (mtu : Nat) (payloader : H265Payloader) (nal : Nal) :
    Decidable (Deliverable mtu payloader nal) :=
  inferInstanceAs (Decidable (_ ∧ _))

def H265Payloader.Valid (payloader : H265Payloader) : Prop :=
  ∀ kind, ∀ nal ∈ payloader.stored kind,
    kindOf nal = some kind ∧ 2 ≤ nal.length ∧ nal.length < 2 ^ 16

theorem typeOf_eq_iff (first second : UInt8) (rest : List UInt8) (type : NalUnitType) :
    (NalHeader.parse first second).nalUnitType = type ↔
      typeOf (first :: second :: rest) = UInt8.ofNat type := by
  have value : ∀ first : UInt8, UInt8.ofNat (Fin.ofNat 64 ((first &&& 0b01111110) >>> 1).toNat) =
      (first >>> 1) &&& 0x3F := by decide +kernel
  change _ ↔ (first >>> 1) &&& 0x3F = _
  rw [← value first]
  exact ⟨fun same => same ▸ rfl, ofNat_injective (by decide)⟩

theorem read_single (header : 2 ≤ nal.length) (type : typeOf nal < 48) :
    read nal = .units [nal] := by
  match nal, header, type with
  | first :: second :: rest, _, type => exact if_pos type

theorem lowest_bit (byte : UInt8) : byte &&& 0b00000001 = 0 ∨ byte &&& 0b00000001 = 1 := by
  revert byte
  decide +kernel

theorem type_serialize (header : NalHeader) :
    (header.serialize.headD 0 >>> 1) &&& 0x3F = UInt8.ofNat header.nalUnitType := by
  obtain ⟨forbidden, type, layer, tid⟩ := header
  simp only [NalHeader.serialize, List.headD_cons]
  rcases lowest_bit (layer >>> 5) with zero | one
  · rw [zero]
    revert forbidden type
    decide +kernel
  · rw [one]
    revert forbidden type
    decide +kernel

theorem read_aggregation {units : List Nal} (short : ∀ nal ∈ units, nal.length < 2 ^ 16) :
    read (buildAggregationPacket units) = .units units := by
  have type : ∀ (units : List Nal) (aggregate : NalHeader),
      (units.foldl aggregated aggregate).nalUnitType = aggregate.nalUnitType := by
    intro units
    induction units with
    | nil => exact fun _ => rfl
    | cons nal rest ih => exact fun aggregate => ih (aggregated aggregate nal)
  have header := type_serialize (units.foldl aggregated ⟨false, aggregationUnit, 255, 255⟩)
  rw [type] at header
  simp only [NalHeader.serialize, List.headD_cons] at header
  simp only [buildAggregationPacket, NalHeader.serialize, List.cons_append, List.nil_append, read,
    header, Packets.unitsOf_sized short]
  rfl

-- The two parts of the layer go back to where they came from.
theorem high_layer_bit (first second : UInt8) :
    ((((first &&& 0b00000001) <<< 5) ||| ((second &&& 0b11111000) >>> 3)) >>> 5) &&& 0b00000001 =
      first &&& 0b00000001 := by
  rcases lowest_bit first with zero | one
  · rw [zero]
    revert second
    decide +kernel
  · rw [one]
    revert second
    decide +kernel

theorem low_layer_bits (first second : UInt8) :
    (((((first &&& 0b00000001) <<< 5) ||| ((second &&& 0b11111000) >>> 3)) &&& 0b00011111) <<< 3) |||
        ((second &&& 0b00000111) &&& 0b00000111) = second := by
  rcases lowest_bit first with zero | one
  · rw [zero]
    revert second
    decide +kernel
  · rw [one]
    revert second
    decide +kernel

theorem read_fragment (first second : UInt8) (isFirst isLast : Bool) (fragment : List UInt8) :
    read ({ NalHeader.parse first second with nalUnitType := fragmentationUnit }.serialize ++
        (FuHeader.mk isFirst isLast (NalHeader.parse first second).nalUnitType).serialize ::
          fragment) = .fragment isFirst isLast [first, second] fragment := by
  have type := type_serialize
    { NalHeader.parse first second with nalUnitType := fragmentationUnit }
  have flags : ∀ isFirst isLast type,
      (FuHeader.mk isFirst isLast type).serialize &&& 0x80 = flag isFirst 0x80 ∧
        (FuHeader.mk isFirst isLast type).serialize &&& 0x40 = flag isLast 0x40 := by
    decide +kernel
  have whole : ∀ (first : UInt8) (isFirst isLast : Bool),
      ((flag (first &&& 0b10000000 ≠ 0) 0b10000000 |||
          ((UInt8.ofNat fragmentationUnit &&& 0b00111111) <<< 1) |||
          (first &&& (0b00000001 : UInt8))) &&& (0x81 : UInt8)) |||
        (((FuHeader.mk isFirst isLast (Fin.ofNat 64 ((first &&& 0b01111110) >>> 1).toNat)).serialize
          &&& (0x3F : UInt8)) <<< 1) = first := by
    decide +kernel
  simp only [NalHeader.parse, NalHeader.serialize, List.headD_cons, high_layer_bit] at type
  simp only [NalHeader.parse, NalHeader.serialize, List.cons_append, List.nil_append, read,
    high_layer_bit, low_layer_bits, type, flags, whole]
  cases isFirst <;> cases isLast <;> rfl

theorem run_fragmented (enough : 4 ≤ mtu) (first second : UInt8) (rest : List UInt8)
    (long : mtu < (first :: second :: rest).length) :
    Runs.run Packets.reassemble none
        ((buildFragmentedPackets (.parse first second) (first :: second :: rest) mtu).map read) =
      (none, [first :: second :: rest]) := by
  simp only [buildFragmentedPackets, Packets.map_flagged, read_fragment]
  exact Packets.run_flagged_chunks (by omega) [first, second] rest
    (List.ne_nil_of_length_pos (by simp at long; omega)) none

theorem small_fragmented (enough : 4 ≤ mtu) {header : NalHeader} {packet : List UInt8}
    (member : packet ∈ buildFragmentedPackets header nal mtu) : packet.length ≤ mtu := by
  obtain ⟨begins, ends, piece, inside, rfl⟩ := Packets.mem_flagged member
  have short := Packets.length_le_of_mem_chunks inside
  simp only [NalHeader.serialize, List.length_append, List.length_cons, List.length_nil]
  omega

theorem store_type (first second : UInt8) (rest : List UInt8) :
    payloader.store (NalHeader.parse first second).nalUnitType (first :: second :: rest) =
      if typeOf (first :: second :: rest) = 32 then
        { payloader with vpsNalu := some (first :: second :: rest) }
      else if typeOf (first :: second :: rest) = 33 then
        { payloader with spsNalu := some (first :: second :: rest) }
      else if typeOf (first :: second :: rest) = 34 then
        { payloader with ppsNalu := some (first :: second :: rest) }
      else payloader := by
  simp only [H265Payloader.store, typeOf_eq_iff first second rest]
  rfl

theorem stored_store (first second : UInt8) (rest : List UInt8) (kind : ParameterSet) :
    (payloader.store (NalHeader.parse first second).nalUnitType
      (first :: second :: rest)).stored kind = payloader.known (first :: second :: rest) kind := by
  rw [store_type]
  simp only [H265Payloader.known, kindOf]
  by_cases isVps : typeOf (first :: second :: rest) = 32
  · cases kind <;> simp [isVps, H265Payloader.stored]
  by_cases isSps : typeOf (first :: second :: rest) = 33
  · cases kind <;> simp [isSps, H265Payloader.stored]
  by_cases isPps : typeOf (first :: second :: rest) = 34
  · cases kind <;> simp [isPps, H265Payloader.stored]
  · simp [isVps, isSps, isPps]

theorem known_eq (nal : Nal) (kind : ParameterSet) :
    payloader.known nal kind = (latest kindOf kind [nal]).or (payloader.stored kind) := by
  rw [latest_singleton, H265Payloader.known]
  split_ifs <;> rfl

theorem known_valid (valid : payloader.Valid) (wellFormed : WellFormed nal) (kind : ParameterSet) :
    ∀ set ∈ payloader.known nal kind,
      kindOf set = some kind ∧ 2 ≤ set.length ∧ set.length < 2 ^ 16 := by
  intro set held
  unfold H265Payloader.known at held
  split_ifs at held with own
  · obtain rfl := Option.some.inj held
    exact ⟨own, wellFormed.1, wellFormed.2 (by simp [own])⟩
  · exact valid kind set held

theorem kept_iff (first second : UInt8) (rest : List UInt8) :
    (NalHeader.parse first second).nalUnitType = vpsNut ∨
        (NalHeader.parse first second).nalUnitType = spsNut ∨
        (NalHeader.parse first second).nalUnitType = ppsNut ↔
      kept (first :: second :: rest) = false := by
  have types : UInt8.ofNat vpsNut = 32 ∧ UInt8.ofNat spsNut = 33 ∧ UInt8.ofNat ppsNut = 34 := by
    decide
  simp only [typeOf_eq_iff first second rest, types, kept, kindOf]
  split_ifs with isVps isSps isPps
  · simp [isVps]
  · simp [isSps]
  · simp [isPps]
  · simp [isVps, isSps, isPps]

theorem payload_eq (first second : UInt8) (rest : List UInt8) :
    payloader.payload mtu (first :: second :: rest) =
      match payloader.known (first :: second :: rest) .vps,
        payloader.known (first :: second :: rest) .sps,
        payloader.known (first :: second :: rest) .pps with
      | some vpsNalu, some spsNalu, some ppsNalu =>
          (⟨none, none, none⟩,
            .ok (if (buildAggregationPacket [vpsNalu, spsNalu, ppsNalu]).length ≤ mtu then
              [buildAggregationPacket [vpsNalu, spsNalu, ppsNalu]]
            else [vpsNalu, spsNalu, ppsNalu]))
      | vpsNalu, spsNalu, ppsNalu =>
          (⟨vpsNalu, spsNalu, ppsNalu⟩,
            .ok (if kept (first :: second :: rest) = false then []
            else if (first :: second :: rest).length ≤ mtu then [first :: second :: rest]
            else buildFragmentedPackets (.parse first second) (first :: second :: rest) mtu)) := by
  simp only [← stored_store, H265Payloader.stored, H265Payloader.payload, kept_iff first second rest]
  split
  · rfl
  · split_ifs <;> rfl

theorem typeOf_kind {set : Nal} (kind : kindOf set ≠ none) : typeOf set < 48 := by
  unfold kindOf at kind
  split_ifs at kind with isVps isSps isPps
  · rw [isVps]
    decide
  · rw [isSps]
    decide
  · rw [isPps]
    decide
  · exact absurd rfl kind

-- The three parameter sets in one packet or in three.
theorem run_sets {vps sps pps : Nal}
    (formed : ∀ set ∈ [vps, sps, pps],
      kindOf set ≠ none ∧ 2 ≤ set.length ∧ set.length < 2 ^ 16 ∧ set.length ≤ mtu) :
    ∃ packets, packets = (if (buildAggregationPacket [vps, sps, pps]).length ≤ mtu then
        [buildAggregationPacket [vps, sps, pps]] else [vps, sps, pps]) ∧
      Runs.run Packets.reassemble none (packets.map read) = (none, [vps, sps, pps]) ∧
      ∀ packet ∈ packets, packet.length ≤ mtu := by
  refine ⟨_, rfl, ?_⟩
  split_ifs with together
  · refine ⟨?_, by simpa using together⟩
    rw [List.map_singleton, read_aggregation fun set member => (formed set member).2.2.1]
    rfl
  · refine ⟨?_, fun set member => (formed set member).2.2.2⟩
    have single : ∀ set ∈ [vps, sps, pps], read set = .units [set] := fun set member =>
      read_single (formed set member).2.1 (typeOf_kind (formed set member).1)
    rw [List.map_congr_left single]
    rfl

theorem passes_complete (valid : payloader.Valid) (wellFormed : WellFormed nal)
    (deliverable : Deliverable mtu payloader nal) {vps sps pps : Nal}
    (isVps : payloader.known nal .vps = some vps) (isSps : payloader.known nal .sps = some sps)
    (isPps : payloader.known nal .pps = some pps) :
    Passes kindOf kept read H265Payloader.stored mtu nal
      (if (buildAggregationPacket [vps, sps, pps]).length ≤ mtu then
        [buildAggregationPacket [vps, sps, pps]] else [vps, sps, pps])
      payloader ⟨none, none, none⟩ := by
  have formedVps := known_valid valid wellFormed .vps vps isVps
  have formedSps := known_valid valid wellFormed .sps sps isSps
  have formedPps := known_valid valid wellFormed .pps pps isPps
  obtain ⟨vpsFits, spsFits, ppsFits⟩ := deliverable.2 vps isVps sps isSps pps isPps
  have formed : ∀ set ∈ [vps, sps, pps],
      kindOf set ≠ none ∧ 2 ≤ set.length ∧ set.length < 2 ^ 16 ∧ set.length ≤ mtu := by
    simp only [List.mem_cons, List.not_mem_nil, or_false, forall_eq_or_imp, forall_eq]
    exact ⟨⟨by simp [formedVps.1], formedVps.2.1, formedVps.2.2, vpsFits⟩,
      ⟨by simp [formedSps.1], formedSps.2.1, formedSps.2.2, spsFits⟩,
      by simp [formedPps.1], formedPps.2.1, formedPps.2.2, ppsFits⟩
  obtain ⟨packets, same, reads, small⟩ := run_sets formed
  rw [← same]
  -- A unit that is to arrive would find nothing held back.
  have dropped : kept nal = false := by
    by_contra keeps
    have keeps : kept nal = true := by simpa using keeps
    have other : kindOf nal = none := by simpa [kept] using keeps
    rw [(deliverable.1 keeps).2] at isVps
    simp [H265Payloader.known, other, H265Payloader.stored] at isVps
  refine passes_released [vps, sps, pps] dropped reads small
    (fun set member => (formed set member).1) ?_ ?_
  · intro kind
    cases kind <;> rfl
  · intro kind
    rw [← known_eq]
    cases kind <;> simp [latest, formedVps.1, formedSps.1, formedPps.1, isVps, isSps, isPps]

theorem passes_incomplete (enough : 4 ≤ mtu) {first second : UInt8} {rest : List UInt8}
    (deliverable : Deliverable mtu payloader (first :: second :: rest)) :
    Passes kindOf kept read H265Payloader.stored mtu (first :: second :: rest)
      (if kept (first :: second :: rest) = false then []
        else if (first :: second :: rest).length ≤ mtu then [first :: second :: rest]
        else buildFragmentedPackets (.parse first second) (first :: second :: rest) mtu)
      payloader
      ⟨payloader.known (first :: second :: rest) .vps,
        payloader.known (first :: second :: rest) .sps,
        payloader.known (first :: second :: rest) .pps⟩ := by
  have after : ∀ kind, H265Payloader.stored
      ⟨payloader.known (first :: second :: rest) .vps,
        payloader.known (first :: second :: rest) .sps,
        payloader.known (first :: second :: rest) .pps⟩ kind =
      payloader.known (first :: second :: rest) kind := by
    intro kind
    cases kind <;> rfl
  by_cases dropped : kept (first :: second :: rest) = false
  · rw [if_pos dropped]
    exact passes_held dropped fun kind => by rw [after, known_eq]
  rw [if_neg dropped]
  have keeps : kept (first :: second :: rest) = true := by simpa using dropped
  have other : kindOf (first :: second :: rest) = none := by simpa [kept] using keeps
  obtain ⟨single, rfl⟩ := deliverable.1 keeps
  have nothing : ∀ kind, H265Payloader.stored ⟨none, none, none⟩ kind = none := by
    intro kind
    cases kind <;> rfl
  simp only [H265Payloader.known, other, reduceCtorEq, if_false, H265Payloader.stored]
  split_ifs with short
  · refine passes_alone keeps other ?_ (by simpa using short) nothing
    rw [List.map_singleton, read_single (by simp) (single short)]
    rfl
  · exact passes_alone keeps other (run_fragmented enough first second rest (by omega))
      (fun packet => small_fragmented enough) nothing

theorem payload_passes (enough : 4 ≤ mtu) (valid : payloader.Valid) (wellFormed : WellFormed nal)
    (deliverable : Deliverable mtu payloader nal) :
    Passes kindOf kept read H265Payloader.stored mtu nal (payloads (payloader.payload mtu nal).2)
      payloader (payloader.payload mtu nal).1 ∧ (payloader.payload mtu nal).1.Valid := by
  match nal, wellFormed, deliverable with
  | first :: second :: rest, wellFormed, deliverable =>
    have incomplete := passes_incomplete enough deliverable
    have stillValid : H265Payloader.Valid ⟨payloader.known (first :: second :: rest) .vps,
        payloader.known (first :: second :: rest) .sps,
        payloader.known (first :: second :: rest) .pps⟩ := by
      intro kind set held
      apply known_valid valid wellFormed kind
      cases kind <;> exact held
    rw [payload_eq]
    cases isVps : payloader.known (first :: second :: rest) .vps with
    | none =>
      rw [isVps] at incomplete stillValid
      exact ⟨incomplete, stillValid⟩
    | some vps =>
      cases isSps : payloader.known (first :: second :: rest) .sps with
      | none =>
        rw [isVps, isSps] at incomplete stillValid
        exact ⟨incomplete, stillValid⟩
      | some sps =>
        cases isPps : payloader.known (first :: second :: rest) .pps with
        | none =>
          rw [isVps, isSps, isPps] at incomplete stillValid
          exact ⟨incomplete, stillValid⟩
        | some pps =>
          refine ⟨passes_complete valid wellFormed deliverable isVps isSps isPps, ?_⟩
          intro kind set held
          cases kind <;> simp [H265Payloader.stored] at held

theorem faithful (enough : 4 ≤ mtu) {nals : List Nal} (wellFormed : ∀ nal ∈ nals, WellFormed nal)
    (deliverable : Runs.Along (step mtu) (fun _ => Deliverable mtu) [] ⟨none, none, none⟩ nals) :
    Faithful kindOf kept read mtu (step mtu) ⟨none, none, none⟩ nals := by
  have formed : Runs.Along (step mtu) (fun _ _ nal => WellFormed nal) [] ⟨none, none, none⟩ nals :=
    Runs.along_of_forall (fun nal member _ _ => wellFormed nal member) _ _
  have guarded := formed.and deliverable
  refine faithful_of_passes H265Payloader.Valid
    (fun state nal valid allowed => payload_passes enough valid allowed.1 allowed.2) ?_ ?_ guarded
  · intro kind nal held
    cases kind <;> simp [H265Payloader.stored] at held
  · intro kind
    cases kind <;> rfl

end Passing

end H265

/-- In every deliverable run both payloaders make packets of at most the MTU, from which a receiver
gets every unit that is to arrive, once and in order, after the latest parameter sets. -/
theorem payloaders_faithful (mtu : Nat) (enough : 4 ≤ mtu) (nals : List Nal) :
    ((∀ nal ∈ nals, H264.WellFormed nal) →
      Runs.Along (H264.step mtu) (fun _ => H264.Deliverable mtu) [] ⟨none, none⟩ nals →
      Faithful H264.kindOf H264.kept H264.read mtu (H264.step mtu) ⟨none, none⟩ nals) ∧
    ((∀ nal ∈ nals, H265.WellFormed nal) →
      Runs.Along (H265.step mtu) (fun _ => H265.Deliverable mtu) [] ⟨none, none, none⟩ nals →
      Faithful H265.kindOf H265.kept H265.read mtu (H265.step mtu) ⟨none, none, none⟩ nals) :=
  ⟨H264.faithful enough, H265.faithful enough⟩

-- Both parameter sets, a slice in fragments, a delimiter and a short slice.
def h264Stream : List Nal :=
  [[0x67, 1, 2], [0x68, 3], [0x65, 1, 2, 3, 4, 5, 6, 7, 8, 9, 10, 11, 12], [9, 16], [0x41, 7]]

-- The three parameter sets, a slice in fragments and a short one.
def h265Stream : List Nal :=
  [[0x40, 1, 5], [0x42, 1, 6], [0x44, 1, 7], [0x26, 1, 2, 3, 4, 5, 6, 7, 8, 9, 10, 11, 12], [2, 1, 7]]

theorem payloaders_faithful_streams :
    ((∀ nal ∈ h264Stream, H264.WellFormed nal) ∧
      Runs.Along (H264.step 12) (fun _ => H264.Deliverable 12) [] ⟨none, none⟩ h264Stream ∧
      Faithful H264.kindOf H264.kept H264.read 12 (H264.step 12) ⟨none, none⟩ h264Stream) ∧
    ((∀ nal ∈ h265Stream, H265.WellFormed nal) ∧
      Runs.Along (H265.step 12) (fun _ => H265.Deliverable 12) [] ⟨none, none, none⟩ h265Stream ∧
      Faithful H265.kindOf H265.kept H265.read 12 (H265.step 12) ⟨none, none, none⟩ h265Stream) := by
  have formed264 : ∀ nal ∈ h264Stream, H264.WellFormed nal := by decide
  have formed265 : ∀ nal ∈ h265Stream, H265.WellFormed nal := by decide
  have along264 : Runs.Along (H264.step 12) (fun _ => H264.Deliverable 12) [] ⟨none, none⟩
      h264Stream := by decide +kernel
  have along265 : Runs.Along (H265.step 12) (fun _ => H265.Deliverable 12) [] ⟨none, none, none⟩
      h265Stream := by decide +kernel
  exact ⟨⟨formed264, along264, (payloaders_faithful 12 (by decide) _).1 formed264 along264⟩,
    formed265, along265, (payloaders_faithful 12 (by decide) _).2 formed265 along265⟩

-- Parameter sets that do not fit one packet: the slice after them is dropped.
def h264Large : List Nal := [[0x67, 1, 2, 3, 4, 5], [0x68, 3, 4], [0x65, 7]]

-- A parameter set that is longer than the MTU goes out as it is.
def h265Large : List Nal := [[0x40, 1, 1, 2, 3, 4, 5, 6, 7, 8, 9, 10, 11], [0x42, 1, 6], [0x44, 1, 7]]

theorem large_parameter_sets :
    ((∀ nal ∈ h264Large, H264.WellFormed nal) ∧
      received H264.read (Runs.run (H264.step 12) ⟨none, none⟩ h264Large).2 = [] ∧
      ¬ Faithful H264.kindOf H264.kept H264.read 12 (H264.step 12) ⟨none, none⟩ h264Large) ∧
    ((∀ nal ∈ h265Large, H265.WellFormed nal) ∧
      ¬ Faithful H265.kindOf H265.kept H265.read 12 (H265.step 12) ⟨none, none, none⟩ h265Large) := by
  refine ⟨⟨by decide, by decide +kernel, ?_⟩, by decide, ?_⟩
  · rintro ⟨-, order, -⟩
    exact absurd order (by decide +kernel)
  · rintro ⟨small, -⟩
    exact absurd small (by decide +kernel)

end Rtp

end BetterParsec
