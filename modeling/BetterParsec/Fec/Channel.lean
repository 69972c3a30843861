import BetterParsec.Fec.Decoder

set_option autoImplicit false
set_option linter.all false

/-!
# The channel between encoder and decoder

Emissions are handed over in any order, any number of times or never. A seq is
a stream index modulo 2^32; the flight window says which index it stands for,
and it moves past an index only once the decoder no longer refers to it.
-/

namespace BetterParsec

inductive Delivery where
  | deliver (emission : Emission)
  | retire
  deriving DecidableEq

-- A decoder and the first stream index that is still in flight.
structure Flight where
  decoder : FecDecoder
  low : Nat

-- An event together with the flight window it was emitted in.
structure Report where
  low : Nat
  event : DecoderEvent
  deriving DecidableEq

def indexAt (low : Nat) (seq : UInt32) : Nat := low + (seq - UInt32.ofNat low).toNat

-- The payload the encoder was given for a seq of the flight window.
def truthAt (stream : Nat → Payload) (low : Nat) (seq : UInt32) : Payload :=
  stream (indexAt low seq)

theorem indexAt_ofNat (low index : Nat) (after : low ≤ index) (bound : index < low + 2 ^ 32) :
    indexAt low (UInt32.ofNat index) = index := by
  simp only [indexAt, UInt32.toNat_sub, UInt32.toNat_ofNat']
  omega

/-- Moving the window by one changes the index of a single seq. -/
theorem indexAt_succ (low : Nat) (seq : UInt32) (other : seq ≠ UInt32.ofNat low) :
    indexAt (low + 1) seq = indexAt low seq := by
  have distinct : seq.toNat ≠ low % 2 ^ 32 := fun same =>
    other (UInt32.toNat_inj.mp (by rw [UInt32.toNat_ofNat', same]))
  have bound := seq.toNat_lt
  simp only [indexAt, UInt32.toNat_sub, UInt32.toNat_ofNat']
  omega

def FecDecoder.Mentions (decoder : FecDecoder) (seq : UInt32) : Prop :=
  decoder.sources.get? seq ≠ none ∨ ∃ repair ∈ decoder.repairs, seq ∈ repair.seqs

instance (decoder : FecDecoder) (seq : UInt32) : Decidable (decoder.Mentions seq) :=
  inferInstanceAs (Decidable (_ ∨ _))

-- Emissions come from the encoder, and those in flight span at most 2^31 stream indices.
def InFlight (sent : List Emission) (flight : Flight) : Delivery → Prop
  | .deliver emission =>
      emission ∈ sent ∧ flight.low ≤ emission.first ∧ emission.limit ≤ flight.low + 2 ^ 31
  | .retire => ¬ flight.decoder.Mentions (UInt32.ofNat flight.low)

instance (sent : List Emission) (flight : Flight) :
    (delivery : Delivery) → Decidable (InFlight sent flight delivery)
  | .deliver _ => inferInstanceAs (Decidable (_ ∧ _ ∧ _))
  | .retire => inferInstanceAs (Decidable (¬ _))

-- One delivery to a decoder that handles symbols with `push`.
def Flight.step (push : FecDecoder → Symbol → FecDecoder × List DecoderEvent) (flight : Flight) :
    Delivery → Flight × List Report
  | .deliver emission =>
      ({ flight with decoder := (push flight.decoder emission.symbol).1 },
        (push flight.decoder emission.symbol).2.map (fun event => ⟨flight.low, event⟩))
  | .retire => ({ flight with low := flight.low + 1 }, [])

/-- The seqs of a window in flight stand for consecutive indices. -/
theorem truthAt_window (stream : Nat → Payload) (low first limit : Nat) (after : low ≤ first)
    (ordered : first ≤ limit) (bound : limit ≤ low + 2 ^ 31) :
    (windowSeqs (UInt32.ofNat first) (UInt32.ofNat limit)).map
        (fun seq => (⟨seq, prefixed (truthAt stream low seq)⟩ : WindowEntry)) =
      (List.range' first (limit - first)).map (entryAt stream) := by
  rw [windowSeqs_ofNat first limit ordered (by omega), List.map_map]
  refine List.map_congr_left (fun index member => ?_)
  have inside := List.mem_range'_1.mp member
  simp only [Function.comp_apply, truthAt, entryAt,
    indexAt_ofNat low index (by omega) (by omega)]

end BetterParsec
