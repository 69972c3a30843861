import BetterParsec.Streamer.Payloaders

set_option autoImplicit false
set_option linter.all false

/-!
# Fragmentation units

What the receivers of RFC 6184 and RFC 7798 read in the packets of a NAL unit that is
longer than the MTU.
-/

namespace BetterParsec

namespace Rtp

-- The packets fit and are read as the fragments of the unit.
def RoundTrip (read : List UInt8 → Packets.Received UInt8) (mtu : Nat) (nal : Nal)
    (packets : List (List UInt8)) : Prop :=
  (∀ packet ∈ packets, packet.length ≤ mtu) ∧ Packets.Fragments (packets.map read) nal

namespace H264

theorem roundTrip {mtu : Nat} (enough : 4 ≤ mtu) (first : UInt8) (rest : List UInt8)
    (long : mtu < (first :: rest).length) :
    RoundTrip read mtu (first :: rest)
      (buildFragmentedPackets (first :: rest) (.parse first) mtu) := by
  refine ⟨fun packet => small_fragmented enough, ?_⟩
  rw [List.length_cons] at long
  simp only [buildFragmentedPackets, Packets.map_flagged, read_fragment]
  exact Packets.fragments_flagged (by omega) [first]
    (by simp only [List.drop_succ_cons, List.drop_zero]; omega)

end H264

namespace H265

theorem roundTrip {mtu : Nat} (enough : 4 ≤ mtu) (first second : UInt8) (rest : List UInt8)
    (long : mtu < (first :: second :: rest).length) :
    RoundTrip read mtu (first :: second :: rest)
      (buildFragmentedPackets (.parse first second) (first :: second :: rest) mtu) := by
  refine ⟨fun packet => small_fragmented enough, ?_⟩
  rw [List.length_cons, List.length_cons] at long
  simp only [buildFragmentedPackets, Packets.map_flagged, read_fragment]
  exact Packets.fragments_flagged (by omega) [first, second]
    (by simp only [List.drop_succ_cons, List.drop_zero]; omega)

end H265

/-- A NAL unit longer than the MTU is cut into fragments that give it back, with either codec and
whatever its header is. -/
theorem fragmented_roundTrip {mtu : Nat} (enough : 4 ≤ mtu) :
    (∀ first rest, mtu < (first :: rest).length →
      RoundTrip H264.read mtu (first :: rest)
        (H264.buildFragmentedPackets (first :: rest) (.parse first) mtu)) ∧
    ∀ first second rest, mtu < (first :: second :: rest).length →
      RoundTrip H265.read mtu (first :: second :: rest)
        (H265.buildFragmentedPackets (.parse first second) (first :: second :: rest) mtu) :=
  ⟨fun first rest => H264.roundTrip enough first rest,
    fun first second rest => H265.roundTrip enough first second rest⟩

theorem fragmented_roundTrip_small :
    RoundTrip H264.read 4 [0x65, 1, 2, 3, 4]
        (H264.buildFragmentedPackets [0x65, 1, 2, 3, 4] (.parse 0x65) 4) ∧
      RoundTrip H265.read 4 [0x26, 0x01, 1, 2, 3]
        (H265.buildFragmentedPackets (.parse 0x26 0x01) [0x26, 0x01, 1, 2, 3] 4) :=
  ⟨(fragmented_roundTrip (by decide)).1 0x65 [1, 2, 3, 4] (by decide),
    (fragmented_roundTrip (by decide)).2 0x26 0x01 [1, 2, 3] (by decide)⟩

end Rtp

end BetterParsec
