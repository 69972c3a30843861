import BetterParsec.Fec.Gf256
import BetterParsec.Library.Runs

set_option autoImplicit false
set_option linter.all false

/-!
# Sliding-window encoder

Source symbols pass through with their sequence number; each repair symbol is
the GF(256) combination of the length-prefixed payloads in the current window.
-/

namespace BetterParsec

abbrev Payload := List UInt8

structure FecConfig where
  redundancyNumerator : UInt8
  redundancyDenominator : UInt8
  windowMaxSymbols : UInt16
  windowMaxBytes : UInt32

def FecConfig.sanitised (config : FecConfig) : FecConfig :=
  { redundancyNumerator := config.redundancyNumerator
    redundancyDenominator := max config.redundancyDenominator 1
    windowMaxSymbols := min (max config.windowMaxSymbols 1) 128
    windowMaxBytes := max config.windowMaxBytes 1 }

inductive Symbol where
  | source (seq : UInt32) (payload : Payload)
  | repair (repairSeq : UInt16) (windowBase windowEnd : UInt32) (payload : Payload)
  deriving DecidableEq

-- RFC 1982 ordering of u32 serials; the exact half range is unordered.
def serialCmp (a b : UInt32) : Option Ordering :=
  if a = b then some .eq
  else
    let distance := a - b
    if distance = 0x80000000 then none
    else if distance < 0x80000000 then some .gt
    else some .lt

-- `seq` lies in the bounded serial interval of `len` seqs from `base`.
def seqInWindow (seq base len : UInt32) : Bool := seq - base < len

-- The seqs from `base` up to and excluding `limit`, wrapping.
def windowSeqs (base limit : UInt32) : List UInt32 :=
  (List.range (limit - base).toNat).map (fun offset => base + UInt32.ofNat offset)

-- Length prefix (u16, little-endian) followed by the payload.
def prefixed (payload : Payload) : List UInt8 :=
  let length := UInt16.ofNat payload.length
  length.toUInt8 :: (length >>> 8).toUInt8 :: payload

structure WindowEntry where
  seq : UInt32
  prefixedPayload : List UInt8

structure FecEncoder where
  config : FecConfig
  window : List WindowEntry
  windowByteTotal : Nat
  nextRepairSeq : UInt16
  ratioAcc : Nat

structure EncoderOutput where
  source : Symbol
  repairs : List Symbol

def saturatingAdd32 (a b : Nat) : Nat := min (a + b) 0xFFFFFFFF

namespace FecEncoder

def new (config : FecConfig) : FecEncoder :=
  { config := config.sanitised, window := [], windowByteTotal := 0, nextRepairSeq := 0
    ratioAcc := 0 }

def setRedundancy (encoder : FecEncoder) (numerator denominator : UInt8) : FecEncoder :=
  { encoder with config :=
      { encoder.config with
        redundancyNumerator := numerator
        redundancyDenominator := max denominator 1 } }

def evictOldest (encoder : FecEncoder) : FecEncoder :=
  match encoder.window with
  | [] => encoder
  | entry :: rest =>
      { encoder with
        window := rest
        windowByteTotal := encoder.windowByteTotal - (entry.prefixedPayload.length - 2) }

-- Evict from the front while `full` holds; the fuel is the window length.
def evictWhile (full : FecEncoder → Bool) : Nat → FecEncoder → FecEncoder
  | 0, encoder => encoder
  | fuel + 1, encoder =>
      if full encoder then evictWhile full fuel encoder.evictOldest else encoder

def xorScaled (payload : List UInt8) (coeff : UInt8) (bytes : List UInt8) : List UInt8 :=
  payload.mapIdx (fun j b => b ^^^ gfMul coeff (bytes.getD j 0))

def maxEffLen (window : List WindowEntry) : Nat :=
  (window.map (fun entry => entry.prefixedPayload.length)).foldr max 0

def combine (repairSeq : UInt16) (window : List WindowEntry) : List UInt8 :=
  window.foldl (fun payload entry =>
    xorScaled payload (gfCoeff repairSeq entry.seq) entry.prefixedPayload)
    (List.replicate (maxEffLen window) 0)

def buildRepair (encoder : FecEncoder) : FecEncoder × Symbol :=
  let repairSeq := encoder.nextRepairSeq
  let advanced := { encoder with nextRepairSeq := repairSeq + 1 }
  match encoder.window.head?, encoder.window.getLast? with
  | some front, some back =>
      (advanced, .repair repairSeq front.seq (back.seq + 1) (combine repairSeq encoder.window))
  | _, _ => (advanced, .repair repairSeq 0 0 [])

-- Emit repairs while the accumulator covers the denominator.
def drainRatio : Nat → FecEncoder → FecEncoder × List Symbol
  | 0, encoder => (encoder, [])
  | fuel + 1, encoder =>
      let denominator := encoder.config.redundancyDenominator.toNat
      if encoder.ratioAcc ≥ denominator then
        let (built, repair) :=
          buildRepair { encoder with ratioAcc := encoder.ratioAcc - denominator }
        let (last, repairs) := drainRatio fuel built
        (last, repair :: repairs)
      else (encoder, [])

def symbolsFull (encoder : FecEncoder) : Bool :=
  encoder.window.length ≥ encoder.config.windowMaxSymbols.toNat

def bytesFull (newBytes : Nat) (encoder : FecEncoder) : Bool :=
  !encoder.window.isEmpty &&
    saturatingAdd32 encoder.windowByteTotal newBytes > encoder.config.windowMaxBytes.toNat

-- The window after both caps have been enforced for `newBytes` more payload bytes.
def makeRoom (encoder : FecEncoder) (newBytes : Nat) : FecEncoder :=
  let fitting := encoder.evictWhile symbolsFull encoder.window.length
  fitting.evictWhile (bytesFull newBytes) fitting.window.length

def pushSource (encoder : FecEncoder) (seq : UInt32) (payload : Payload) :
    FecEncoder × EncoderOutput :=
  let room := encoder.makeRoom payload.length
  let pushed :=
    { room with
      windowByteTotal := saturatingAdd32 room.windowByteTotal payload.length
      window := room.window ++ [⟨seq, prefixed payload⟩] }
  let (last, repairs) :=
    if pushed.config.redundancyNumerator > 0 then
      let acc := pushed.ratioAcc + pushed.config.redundancyNumerator.toNat
      drainRatio acc { pushed with ratioAcc := acc }
    else (pushed, [])
  (last, { source := .source seq payload, repairs := repairs })

def acknowledge (encoder : FecEncoder) (highestFullyDecoded : UInt32) : FecEncoder :=
  match encoder.window.getLast? with
  | none => encoder
  | some back =>
      match serialCmp highestFullyDecoded back.seq with
      | none | some .gt => encoder
      | some .lt | some .eq =>
          encoder.evictWhile
            (fun e => match e.window.head? with
              | none => false
              | some front =>
                  match serialCmp front.seq highestFullyDecoded with
                  | some .lt | some .eq => true
                  | none | some .gt => false)
            encoder.window.length

end FecEncoder

-- What the channel carries: a symbol and the half-open range of stream indices it speaks about.
structure Emission where
  symbol : Symbol
  first : Nat
  limit : Nat
  deriving DecidableEq

inductive EncoderCall where
  | pushSource
  | setRedundancy (numerator denominator : UInt8)
  | acknowledge (highestFullyDecoded : UInt32)

-- An encoder together with the number of sources it has been given so far.
structure Sender where
  encoder : FecEncoder
  next : Nat

def Sender.step (stream : Nat → Payload) (sender : Sender) : EncoderCall → Sender × List Emission
  | .pushSource =>
      let (encoder, output) :=
        sender.encoder.pushSource (UInt32.ofNat sender.next) (stream sender.next)
      let limit := sender.next + 1
      ({ encoder := encoder, next := limit },
        ⟨output.source, sender.next, limit⟩ ::
          output.repairs.map (fun repair => ⟨repair, limit - encoder.window.length, limit⟩))
  | .setRedundancy numerator denominator =>
      ({ sender with encoder := sender.encoder.setRedundancy numerator denominator }, [])
  | .acknowledge highestFullyDecoded =>
      ({ sender with encoder := sender.encoder.acknowledge highestFullyDecoded }, [])

-- Everything emitted by a fresh encoder that is fed `stream` from seq 0.
def emissions (stream : Nat → Payload) (config : FecConfig) (calls : List EncoderCall) :
    List Emission :=
  (Runs.run (Sender.step stream) ⟨.new config, 0⟩ calls).2

theorem mem_windowSeqs (base limit seq : UInt32) :
    seq ∈ windowSeqs base limit ↔ seq - base < limit - base := by
  simp only [windowSeqs, List.mem_map, List.mem_range, UInt32.lt_iff_toNat_lt]
  constructor
  · rintro ⟨offset, less, rfl⟩
    have bound := (limit - base).toNat_lt
    rw [UInt32.add_comm, UInt32.add_sub_cancel, UInt32.toNat_ofNat']
    omega
  · intro less
    refine ⟨(seq - base).toNat, less, ?_⟩
    rw [UInt32.ofNat_toNat, UInt32.add_comm, UInt32.sub_add_cancel]

theorem windowSeqs_ofNat (first limit : Nat) (ordered : first ≤ limit)
    (bound : limit - first < 2 ^ 32) :
    windowSeqs (UInt32.ofNat first) (UInt32.ofNat limit) =
      (List.range' first (limit - first)).map UInt32.ofNat := by
  have length : (UInt32.ofNat limit - UInt32.ofNat first).toNat = limit - first := by
    simp only [UInt32.toNat_sub, UInt32.toNat_ofNat']
    omega
  simp [windowSeqs, length, List.range'_eq_map_range, Function.comp_def]

def entryAt (stream : Nat → Payload) (index : Nat) : WindowEntry :=
  ⟨UInt32.ofNat index, prefixed (stream index)⟩

-- The window holds the most recent sources, from `first` up to the next index.
structure Sender.Windowed (stream : Nat → Payload) (first : Nat) (sender : Sender) : Prop where
  ordered : first ≤ sender.next
  window : sender.encoder.window =
    (List.range' first (sender.next - first)).map (entryAt stream)
  narrow : sender.next - first ≤ 128
  cap : 1 ≤ sender.encoder.config.windowMaxSymbols.toNat ∧
    sender.encoder.config.windowMaxSymbols.toNat ≤ 128

namespace FecEncoder

@[simp] theorem evictOldest_window (encoder : FecEncoder) :
    encoder.evictOldest.window = encoder.window.tail := by
  unfold evictOldest
  split <;> simp_all

@[simp] theorem evictOldest_config (encoder : FecEncoder) :
    encoder.evictOldest.config = encoder.config := by
  unfold evictOldest
  split <;> rfl

@[simp] theorem evictWhile_config (full : FecEncoder → Bool) (fuel : Nat) (encoder : FecEncoder) :
    (encoder.evictWhile full fuel).config = encoder.config := by
  induction fuel generalizing encoder with
  | zero => rfl
  | succ fuel ih =>
    rw [evictWhile]
    split_ifs
    · rw [ih, evictOldest_config]
    · rfl

theorem evictWhile_window (full : FecEncoder → Bool) (fuel : Nat) (encoder : FecEncoder) :
    ∃ dropped, (encoder.evictWhile full fuel).window = encoder.window.drop dropped := by
  induction fuel generalizing encoder with
  | zero => exact ⟨0, rfl⟩
  | succ fuel ih =>
    rw [evictWhile]
    split_ifs
    · obtain ⟨dropped, result⟩ := ih encoder.evictOldest
      exact ⟨dropped + 1, by rw [result, evictOldest_window, List.drop_tail]⟩
    · exact ⟨0, rfl⟩

/-- With the window length as fuel the loop stops because its condition fails. -/
theorem evictWhile_done (full : FecEncoder → Bool) (fuel : Nat) (encoder : FecEncoder)
    (enough : encoder.window.length ≤ fuel)
    (stops : ∀ e : FecEncoder, e.config = encoder.config → e.window = [] → full e = false) :
    full (encoder.evictWhile full fuel) = false := by
  induction fuel generalizing encoder with
  | zero => exact stops encoder rfl (List.eq_nil_of_length_eq_zero (by omega))
  | succ fuel ih =>
    rw [evictWhile]
    split_ifs with crowded
    · refine ih encoder.evictOldest ?_ ?_
      · rw [evictOldest_window, List.length_tail]
        omega
      · intro e config
        exact stops e (by rw [config, evictOldest_config])
    · simpa using crowded

theorem makeRoom_config (encoder : FecEncoder) (newBytes : Nat) :
    (encoder.makeRoom newBytes).config = encoder.config := by
  simp [makeRoom]

theorem makeRoom_window (encoder : FecEncoder) (newBytes : Nat) :
    ∃ dropped, (encoder.makeRoom newBytes).window = encoder.window.drop dropped := by
  obtain ⟨first, symbols⟩ := evictWhile_window symbolsFull encoder.window.length encoder
  obtain ⟨second, bytes⟩ := evictWhile_window (bytesFull newBytes) _
    (encoder.evictWhile symbolsFull encoder.window.length)
  exact ⟨first + second, by rw [makeRoom, bytes, symbols, List.drop_drop]⟩

theorem makeRoom_length (encoder : FecEncoder) (newBytes : Nat)
    (cap : 1 ≤ encoder.config.windowMaxSymbols.toNat) :
    (encoder.makeRoom newBytes).window.length < encoder.config.windowMaxSymbols.toNat := by
  have symbols := evictWhile_done symbolsFull encoder.window.length encoder le_rfl
    (fun e config empty => by simp [symbolsFull, config, empty]; omega)
  obtain ⟨dropped, bytes⟩ := evictWhile_window (bytesFull newBytes) _
    (encoder.evictWhile symbolsFull encoder.window.length)
  rw [symbolsFull, evictWhile_config, decide_eq_false_iff_not, not_le] at symbols
  rw [makeRoom, bytes, List.length_drop]
  omega

theorem acknowledge_window (encoder : FecEncoder) (highest : UInt32) :
    ∃ dropped, (encoder.acknowledge highest).window = encoder.window.drop dropped := by
  unfold acknowledge
  split
  · exact ⟨0, rfl⟩
  · split
    · exact ⟨0, rfl⟩
    · exact ⟨0, rfl⟩
    · exact evictWhile_window _ _ _
    · exact evictWhile_window _ _ _

theorem acknowledge_config (encoder : FecEncoder) (highest : UInt32) :
    (encoder.acknowledge highest).config = encoder.config := by
  unfold acknowledge
  split
  · rfl
  · split <;> simp

end FecEncoder

-- The symbol an emission carries is the one its index range calls for.
def Emission.Faithful (stream : Nat → Payload) (emission : Emission) : Prop :=
  match emission.symbol with
  | .source seq payload =>
      emission.limit = emission.first + 1 ∧ seq = UInt32.ofNat emission.first ∧
        payload = stream emission.first
  | .repair repairSeq windowBase windowEnd payload =>
      emission.first < emission.limit ∧ emission.limit - emission.first ≤ 128 ∧
        windowBase = UInt32.ofNat emission.first ∧ windowEnd = UInt32.ofNat emission.limit ∧
        payload = FecEncoder.combine repairSeq
          ((List.range' emission.first (emission.limit - emission.first)).map (entryAt stream))

namespace FecEncoder

@[simp] theorem buildRepair_window (encoder : FecEncoder) :
    encoder.buildRepair.1.window = encoder.window := by
  unfold buildRepair
  split <;> rfl

@[simp] theorem buildRepair_config (encoder : FecEncoder) :
    encoder.buildRepair.1.config = encoder.config := by
  unfold buildRepair
  split <;> rfl

theorem buildRepair_symbol (stream : Nat → Payload) (encoder : FecEncoder) (first limit : Nat)
    (nonempty : first < limit) (narrow : limit - first ≤ 128)
    (window : encoder.window = (List.range' first (limit - first)).map (entryAt stream)) :
    Emission.Faithful stream ⟨encoder.buildRepair.2, first, limit⟩ := by
  have front : encoder.window.head? = some (entryAt stream first) := by
    rw [window, List.head?_map, List.head?_range', if_neg (by omega)]
    rfl
  have back : encoder.window.getLast? = some (entryAt stream (limit - 1)) := by
    rw [window, List.getLast?_map, List.getLast?_range', if_neg (by omega)]
    simp
    congr
    omega
  have wrap : UInt32.ofNat (limit - 1) + 1 = UInt32.ofNat limit := by
    rw [show limit = limit - 1 + 1 by omega, UInt32.ofNat_add]
    rfl
  have built : encoder.buildRepair.2 = .repair encoder.nextRepairSeq (UInt32.ofNat first)
      (UInt32.ofNat limit) (combine encoder.nextRepairSeq encoder.window) := by
    simp only [buildRepair, front, back, entryAt, wrap]
  rw [built, window]
  exact ⟨nonempty, narrow, rfl, rfl, rfl⟩

theorem drainRatio_window (fuel : Nat) (encoder : FecEncoder) :
    (drainRatio fuel encoder).1.window = encoder.window ∧
      (drainRatio fuel encoder).1.config = encoder.config := by
  induction fuel generalizing encoder with
  | zero => exact ⟨rfl, rfl⟩
  | succ fuel ih =>
    rw [drainRatio]
    split_ifs
    · have later := ih (buildRepair
        { encoder with ratioAcc := encoder.ratioAcc - encoder.config.redundancyDenominator.toNat }).1
      simpa using later
    · exact ⟨rfl, rfl⟩

theorem drainRatio_faithful (stream : Nat → Payload) (first limit : Nat) (nonempty : first < limit)
    (narrow : limit - first ≤ 128) (fuel : Nat) (encoder : FecEncoder)
    (window : encoder.window = (List.range' first (limit - first)).map (entryAt stream)) :
    ∀ repair ∈ (drainRatio fuel encoder).2, Emission.Faithful stream ⟨repair, first, limit⟩ := by
  induction fuel generalizing encoder with
  | zero => simp [drainRatio]
  | succ fuel ih =>
    rw [drainRatio]
    split_ifs
    · intro repair member
      rcases List.mem_cons.mp member with rfl | later
      · exact buildRepair_symbol stream _ first limit nonempty narrow window
      · exact ih _ (by simpa using window) repair later
    · simp

end FecEncoder

theorem drop_range'_map (stream : Nat → Payload) (first length dropped : Nat) :
    ((List.range' first length).map (entryAt stream)).drop dropped =
      (List.range' (first + dropped) (length - dropped)).map (entryAt stream) := by
  rw [← List.map_drop, List.drop_range']
  simp

theorem Sender.Windowed.drop {stream : Nat → Payload} {first : Nat} {sender : Sender}
    (windowed : sender.Windowed stream first) (dropped : Nat) (encoder : FecEncoder)
    (config : encoder.config = sender.encoder.config)
    (window : encoder.window = sender.encoder.window.drop dropped) :
    ∃ base, Sender.Windowed stream base ⟨encoder, sender.next⟩ := by
  have ordered := windowed.ordered
  have narrow := windowed.narrow
  by_cases beyond : sender.next ≤ first + dropped
  · refine ⟨sender.next, le_rfl, ?_, by simp, by simpa [config] using windowed.cap⟩
    rw [window, windowed.window, drop_range'_map]
    simp [show sender.next - first - dropped = 0 by omega]
  · refine ⟨first + dropped, by simp; omega, ?_, by simp; omega,
      by simpa [config] using windowed.cap⟩
    rw [window, windowed.window, drop_range'_map, Nat.sub_sub]

/-- One call keeps the window a run of the most recent sources and emits faithful symbols. -/
theorem Sender.Windowed.step {stream : Nat → Payload} {first : Nat} {sender : Sender}
    (windowed : sender.Windowed stream first) (call : EncoderCall) :
    (∃ base, (sender.step stream call).1.Windowed stream base) ∧
      ∀ emission ∈ (sender.step stream call).2, emission.Faithful stream := by
  cases call with
  | setRedundancy numerator denominator =>
    exact ⟨⟨first, windowed.ordered, windowed.window, windowed.narrow, windowed.cap⟩,
      by simp [Sender.step]⟩
  | acknowledge highest =>
    obtain ⟨dropped, window⟩ := sender.encoder.acknowledge_window highest
    exact ⟨windowed.drop dropped _ (sender.encoder.acknowledge_config highest) window,
      by simp [Sender.step]⟩
  | pushSource =>
    obtain ⟨dropped, dropWindow⟩ := sender.encoder.makeRoom_window (stream sender.next).length
    obtain ⟨base, room⟩ := windowed.drop dropped _
      (sender.encoder.makeRoom_config _) dropWindow
    have short := sender.encoder.makeRoom_length (stream sender.next).length windowed.cap.1
    have kept : (sender.encoder.makeRoom (stream sender.next).length).window =
        (List.range' base (sender.next - base)).map (entryAt stream) := room.window
    have length : (sender.encoder.makeRoom (stream sender.next).length).window.length =
        sender.next - base := by simp [kept]
    have ordered : base ≤ sender.next := room.ordered
    have limit := windowed.cap.2
    have narrow : sender.next + 1 - base ≤ 128 := by omega
    have pushed : (sender.encoder.makeRoom (stream sender.next).length).window ++
          [⟨UInt32.ofNat sender.next, prefixed (stream sender.next)⟩] =
        (List.range' base (sender.next + 1 - base)).map (entryAt stream) := by
      rw [kept, Nat.succ_sub ordered, List.range'_concat, List.map_append]
      simp [entryAt, ordered]
    have final : (sender.step stream .pushSource).1.encoder.window =
        (List.range' base (sender.next + 1 - base)).map (entryAt stream) ∧
        (sender.step stream .pushSource).1.encoder.config = sender.encoder.config := by
      simp only [Sender.step, FecEncoder.pushSource]
      split_ifs
      · refine ⟨?_, ?_⟩
        · rw [(FecEncoder.drainRatio_window _ _).1]
          exact pushed
        · rw [(FecEncoder.drainRatio_window _ _).2]
          exact sender.encoder.makeRoom_config _
      · exact ⟨pushed, sender.encoder.makeRoom_config _⟩
    refine ⟨⟨base, by simp [Sender.step]; omega, final.1, by simpa [Sender.step] using narrow, ?_⟩,
      ?_⟩
    · rw [final.2]
      exact windowed.cap
    · have first : sender.next + 1 - (sender.step stream .pushSource).1.encoder.window.length =
          base := by
        rw [final.1]
        simp
        omega
      intro emission member
      simp only [Sender.step, List.mem_cons, List.mem_map] at member
      rcases member with rfl | ⟨repair, member, rfl⟩
      · exact ⟨rfl, rfl, rfl⟩
      · change Emission.Faithful stream
          ⟨repair, sender.next + 1 - (sender.step stream .pushSource).1.encoder.window.length, _⟩
        rw [first]
        simp only [FecEncoder.pushSource] at member
        split_ifs at member
        · exact FecEncoder.drainRatio_faithful stream base (sender.next + 1) (by omega) narrow _ _
            pushed repair member
        · simp at member

/-- Every symbol a fresh encoder ever emits is the one its index range calls for. -/
theorem emissions_faithful (stream : Nat → Payload) (config : FecConfig) (calls : List EncoderCall) :
    ∀ emission ∈ emissions stream config calls, emission.Faithful stream := by
  have clamp (cap : UInt16) :
      1 ≤ (min (max cap 1) 128).toNat ∧ (min (max cap 1) 128).toNat ≤ 128 := by
    have largest : max cap 1 = if cap ≤ 1 then 1 else cap := rfl
    have least (n : UInt16) : min n 128 = if n ≤ 128 then n else 128 := rfl
    rw [largest, least]
    have one : (1 : UInt16).toNat = 1 := rfl
    have top : (128 : UInt16).toNat = 128 := rfl
    by_cases low : cap ≤ 1
    · rw [if_pos low]
      decide
    · rw [if_neg low]
      rw [UInt16.le_iff_toNat_le, one] at low
      split_ifs with small
      · rw [UInt16.le_iff_toNat_le, top] at small
        omega
      · decide
  have initial : Sender.Windowed stream 0 ⟨.new config, 0⟩ :=
    ⟨le_rfl, rfl, by simp, clamp config.windowMaxSymbols⟩
  have kept := Runs.run_invariant_of_forall (Sender.step stream)
    (fun seen sender => (∃ base, sender.Windowed stream base) ∧
      ∀ emission ∈ seen, emission.Faithful stream)
    (by
      rintro seen sender call ⟨⟨base, windowed⟩, faithful⟩
      obtain ⟨next, fresh⟩ := windowed.step call
      refine ⟨next, fun emission member => ?_⟩
      rcases List.mem_append.mp member with old | new
      · exact faithful emission old
      · exact fresh emission new)
    [] ⟨.new config, 0⟩ calls ⟨⟨0, initial⟩, by simp⟩
  rw [List.nil_append] at kept
  exact kept.2

end BetterParsec
