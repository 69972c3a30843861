import BetterParsec.Fec.Equations

set_option autoImplicit false
set_option linter.all false

/-!
# The window of the encoder

What holds of the window, its byte count and the repairs made from it in every
run of an encoder, and how many repairs a fixed ratio comes to.
-/

namespace BetterParsec

def WindowEntry.payloadLen (entry : WindowEntry) : Nat := entry.prefixedPayload.length - 2

def payloadBytes (window : List WindowEntry) : Nat := (window.map WindowEntry.payloadLen).sum

-- The repair that belongs to a window: its interval, and the combination of its payloads.
def RepairOf (window : List WindowEntry) (symbol : Symbol) : Prop :=
  ∃ repairSeq front back payload, symbol = .repair repairSeq front.seq (back.seq + 1) payload ∧
    window.head? = some front ∧ window.getLast? = some back ∧
    payload.length = FecEncoder.maxEffLen window ∧
    ∀ index, (⟨payload.getD index 0⟩ : Gf256) = (window.map (fun entry =>
      (⟨gfCoeff repairSeq entry.seq⟩ : Gf256) * ⟨entry.prefixedPayload.getD index 0⟩)).sum

def EncoderCall.isPush : EncoderCall → Bool
  | .pushSource => true
  | _ => false

def Emission.isRepair (emission : Emission) : Bool :=
  match emission.symbol with
  | .repair _ _ _ _ => true
  | .source _ _ => false

-- A call that leaves the ratio as it is.
def EncoderCall.Keeps (numerator denominator : UInt8) : EncoderCall → Prop
  | .setRedundancy n d => n = numerator ∧ max d 1 = max denominator 1
  | _ => True

namespace FecEncoder

variable {encoder : FecEncoder}

-- The count of the bytes is that of the window, which stays below the caps.
structure Counted (encoder : FecEncoder) : Prop where
  total : encoder.windowByteTotal = payloadBytes encoder.window
  small : ∀ entry ∈ encoder.window, entry.payloadLen ≤ 65520
  within : encoder.windowByteTotal ≤ encoder.config.windowMaxBytes.toNat ∨
    encoder.window.length = 1

@[simp] theorem buildRepair_windowByteTotal (encoder : FecEncoder) :
    encoder.buildRepair.1.windowByteTotal = encoder.windowByteTotal := by
  unfold buildRepair
  split <;> rfl

@[simp] theorem buildRepair_ratioAcc (encoder : FecEncoder) :
    encoder.buildRepair.1.ratioAcc = encoder.ratioAcc := by
  unfold buildRepair
  split <;> rfl

theorem drainRatio_windowByteTotal (fuel : Nat) (encoder : FecEncoder) :
    (drainRatio fuel encoder).1.windowByteTotal = encoder.windowByteTotal := by
  induction fuel generalizing encoder with
  | zero => rfl
  | succ fuel ih =>
    rw [drainRatio]
    split_ifs
    · dsimp only
      rw [ih, buildRepair_windowByteTotal]
    · rfl

-- The loop divides the accumulator by the denominator.
theorem drainRatio_count (fuel : Nat) (encoder : FecEncoder)
    (positive : 1 ≤ encoder.config.redundancyDenominator.toNat) (enough : encoder.ratioAcc ≤ fuel) :
    (drainRatio fuel encoder).2.length =
        encoder.ratioAcc / encoder.config.redundancyDenominator.toNat ∧
      (drainRatio fuel encoder).1.ratioAcc =
        encoder.ratioAcc % encoder.config.redundancyDenominator.toNat := by
  induction fuel generalizing encoder with
  | zero =>
    have zero : encoder.ratioAcc = 0 := Nat.le_zero.mp enough
    rw [drainRatio, zero, Nat.zero_div, Nat.zero_mod]
    exact ⟨rfl, rfl⟩
  | succ fuel ih =>
    rw [drainRatio]
    split_ifs with full
    · obtain ⟨count, left⟩ := ih (buildRepair { encoder with
        ratioAcc := encoder.ratioAcc - encoder.config.redundancyDenominator.toNat }).1
        (by simpa using positive) (by
          rw [buildRepair_ratioAcc]
          dsimp only
          omega)
      rw [buildRepair_ratioAcc, buildRepair_config] at count left
      dsimp only at count left ⊢
      rw [List.length_cons, count, left, ← Nat.div_eq_sub_div positive full,
        ← Nat.mod_eq_sub_mod full]
      exact ⟨rfl, rfl⟩
    · have less : encoder.ratioAcc < encoder.config.redundancyDenominator.toNat :=
        Nat.lt_of_not_le full
      rw [Nat.div_eq_of_lt less, Nat.mod_eq_of_lt less]
      exact ⟨rfl, rfl⟩

theorem buildRepair_repairOf (nonempty : encoder.window ≠ []) :
    RepairOf encoder.window encoder.buildRepair.2 := by
  have front : encoder.window.head? = some (encoder.window.head nonempty) :=
    List.head?_eq_some_head nonempty
  have back : encoder.window.getLast? = some (encoder.window.getLast nonempty) :=
    List.getLast?_eq_some_getLast nonempty
  refine ⟨encoder.nextRepairSeq, _, _, combine encoder.nextRepairSeq encoder.window, ?_, front, back,
    combine_length _ _, fun index => combine_getD _ _ index⟩
  rw [buildRepair, front, back]

theorem drainRatio_repairOf (fuel : Nat) (encoder : FecEncoder) (nonempty : encoder.window ≠ []) :
    ∀ repair ∈ (drainRatio fuel encoder).2, RepairOf encoder.window repair := by
  induction fuel generalizing encoder with
  | zero => exact fun repair member => absurd member List.not_mem_nil
  | succ fuel ih =>
    rw [drainRatio]
    split_ifs
    · intro repair member
      rcases List.mem_cons.mp member with rfl | later
      · let paid : FecEncoder := { encoder with
          ratioAcc := encoder.ratioAcc - encoder.config.redundancyDenominator.toNat }
        have window : paid.window ≠ [] := nonempty
        exact buildRepair_repairOf window
      · have made := ih _ (by
          rw [buildRepair_window]
          exact nonempty) repair later
        rw [buildRepair_window] at made
        exact made
    · exact fun repair member => absurd member List.not_mem_nil

theorem Counted.evictOldest (counted : encoder.Counted) : encoder.evictOldest.Counted := by
  cases window : encoder.window with
  | nil =>
    have same : encoder.evictOldest = encoder := by
      rw [FecEncoder.evictOldest, window]
    rw [same]
    exact counted
  | cons entry rest =>
    have total := counted.total
    have evicted : encoder.evictOldest = { encoder with
        window := rest
        windowByteTotal := encoder.windowByteTotal - (entry.prefixedPayload.length - 2) } := by
      rw [FecEncoder.evictOldest, window]
    rw [window, payloadBytes, List.map_cons, List.sum_cons] at total
    rw [evicted]
    refine ⟨?_, fun other member => counted.small other (by simp [window, member]), ?_⟩
    · simp only [total]
      exact Nat.add_sub_cancel_left _ _
    · left
      rcases counted.within with within | single
      · exact (Nat.sub_le _ _).trans within
      · rw [window, List.length_cons] at single
        have none : rest = [] := List.length_eq_zero_iff.mp (by omega)
        rw [none, List.map_nil, List.sum_nil, Nat.add_zero] at total
        simp only [total]
        exact (Nat.sub_self _).trans_le (Nat.zero_le _)

theorem Counted.evictWhile (counted : encoder.Counted) (full : FecEncoder → Bool) (fuel : Nat) :
    (encoder.evictWhile full fuel).Counted := by
  induction fuel generalizing encoder with
  | zero => exact counted
  | succ fuel ih =>
    rw [FecEncoder.evictWhile]
    split_ifs
    · exact ih counted.evictOldest
    · exact counted

theorem Counted.acknowledge (counted : encoder.Counted) (highest : UInt32) :
    (encoder.acknowledge highest).Counted := by
  unfold FecEncoder.acknowledge
  split
  · exact counted
  · split
    · exact counted
    · exact counted
    · exact counted.evictWhile _ _
    · exact counted.evictWhile _ _

-- A window within the symbol cap never comes near the width of the count.
theorem payloadBytes_le (window : List WindowEntry)
    (small : ∀ entry ∈ window, entry.payloadLen ≤ 65520) :
    payloadBytes window ≤ window.length * 65520 :=
  (List.sum_le_card_nsmul _ 65520 (by simpa using small)).trans (by simp)

theorem makeRoom_bytes (encoder : FecEncoder) (newBytes : Nat) :
    (encoder.makeRoom newBytes).window = [] ∨
      saturatingAdd32 (encoder.makeRoom newBytes).windowByteTotal newBytes ≤
        encoder.config.windowMaxBytes.toNat := by
  have done := evictWhile_done (bytesFull newBytes) _
    (encoder.evictWhile symbolsFull encoder.window.length) le_rfl
    (fun e _ empty => by rw [bytesFull, empty]; rfl)
  rw [bytesFull, Bool.and_eq_false_iff, evictWhile_config, evictWhile_config] at done
  rcases done with empty | fits
  · left
    rw [Bool.not_eq_false'] at empty
    exact List.isEmpty_iff.mp empty
  · right
    exact Nat.le_of_not_lt (of_decide_eq_false fits)

-- The encoder with the source in its window, before any repair is made.
def stored (encoder : FecEncoder) (seq : UInt32) (payload : Payload) : FecEncoder :=
  { encoder.makeRoom payload.length with
    windowByteTotal :=
      saturatingAdd32 (encoder.makeRoom payload.length).windowByteTotal payload.length
    window := (encoder.makeRoom payload.length).window ++ [⟨seq, prefixed payload⟩] }

def accumulated (encoder : FecEncoder) : FecEncoder :=
  { encoder with
    ratioAcc := encoder.ratioAcc + encoder.config.redundancyNumerator.toNat }

theorem pushSource_cases (encoder : FecEncoder) (seq : UInt32) (payload : Payload) :
    encoder.config.redundancyNumerator = 0 ∧
        encoder.pushSource seq payload =
          (encoder.stored seq payload, ⟨.source seq payload, []⟩) ∨
      encoder.pushSource seq payload =
        ((drainRatio (encoder.stored seq payload).accumulated.ratioAcc
            (encoder.stored seq payload).accumulated).1,
          ⟨.source seq payload, (drainRatio (encoder.stored seq payload).accumulated.ratioAcc
            (encoder.stored seq payload).accumulated).2⟩) := by
  unfold pushSource
  by_cases positive : (encoder.makeRoom payload.length).config.redundancyNumerator > 0
  · right
    simp only [if_pos positive]
    rfl
  · left
    simp only [if_neg positive]
    rw [makeRoom_config] at positive
    exact ⟨UInt8.toNat.inj (Nat.le_zero.mp (Nat.le_of_not_lt fun some =>
      positive (UInt8.lt_iff_toNat_lt.mpr some))), rfl⟩

theorem pushSource_frame (encoder : FecEncoder) (seq : UInt32) (payload : Payload) :
    (encoder.pushSource seq payload).1.window = (encoder.stored seq payload).window ∧
      (encoder.pushSource seq payload).1.windowByteTotal =
        (encoder.stored seq payload).windowByteTotal ∧
      (encoder.pushSource seq payload).1.config = encoder.config := by
  have config : (encoder.stored seq payload).config = encoder.config :=
    encoder.makeRoom_config payload.length
  rcases encoder.pushSource_cases seq payload with ⟨-, same⟩ | same
  · rw [same]
    exact ⟨rfl, rfl, config⟩
  · rw [same]
    obtain ⟨window, configs⟩ := drainRatio_window
      (encoder.stored seq payload).accumulated.ratioAcc (encoder.stored seq payload).accumulated
    exact ⟨window, drainRatio_windowByteTotal _ _, configs.trans config⟩

/-- Every repair is one of the window it is sent with. -/
theorem pushSource_repairOf (encoder : FecEncoder) (seq : UInt32) (payload : Payload) :
    ∀ repair ∈ (encoder.pushSource seq payload).2.repairs,
      RepairOf (encoder.pushSource seq payload).1.window repair := by
  rw [(encoder.pushSource_frame seq payload).1]
  have nonempty : (encoder.stored seq payload).window ≠ [] := by
    rw [stored]
    exact List.append_ne_nil_of_right_ne_nil _ (List.cons_ne_nil _ _)
  rcases encoder.pushSource_cases seq payload with ⟨-, same⟩ | same
  · rw [same]
    exact fun repair member => (nomatch member)
  · rw [same]
    exact drainRatio_repairOf _ (encoder.stored seq payload).accumulated nonempty

theorem Counted.pushSource (counted : encoder.Counted) (seq : UInt32) {payload : Payload}
    (short : payload.length ≤ 65520)
    (cap : 1 ≤ encoder.config.windowMaxSymbols.toNat ∧
      encoder.config.windowMaxSymbols.toNat ≤ 128) :
    (encoder.pushSource seq payload).1.Counted := by
  obtain ⟨window, total, configs⟩ := encoder.pushSource_frame seq payload
  have room : (encoder.makeRoom payload.length).Counted :=
    (counted.evictWhile _ _).evictWhile _ _
  have few := encoder.makeRoom_length payload.length cap.1
  have within := encoder.makeRoom_bytes payload.length
  rw [stored] at window total
  generalize encoder.makeRoom payload.length = fitting at room few within window total
  have bytes : payloadBytes (fitting.window ++ [⟨seq, prefixed payload⟩]) =
      payloadBytes fitting.window + payload.length := by
    rw [payloadBytes, List.map_append, List.sum_append]
    rfl
  have bound := payloadBytes_le fitting.window room.small
  have unsaturated : saturatingAdd32 fitting.windowByteTotal payload.length =
      payloadBytes fitting.window + payload.length := by
    rw [saturatingAdd32, room.total]
    omega
  refine ⟨?_, ?_, ?_⟩
  · rw [window, total]
    exact unsaturated.trans bytes.symm
  · rw [window]
    intro entry member
    rcases List.mem_append.mp member with old | new
    · exact room.small entry old
    · exact List.mem_singleton.mp new ▸ short
  · rw [window, total, configs]
    rcases within with empty | fits
    · exact .inr (by rw [empty]; rfl)
    · exact .inl fits

theorem evictWhile_ratioAcc (full : FecEncoder → Bool) (fuel : Nat) (encoder : FecEncoder) :
    (encoder.evictWhile full fuel).ratioAcc = encoder.ratioAcc := by
  have evicted (encoder : FecEncoder) : encoder.evictOldest.ratioAcc = encoder.ratioAcc := by
    unfold FecEncoder.evictOldest
    split <;> rfl
  induction fuel generalizing encoder with
  | zero => rfl
  | succ fuel ih =>
    rw [FecEncoder.evictWhile]
    split_ifs
    · exact (ih _).trans (evicted encoder)
    · rfl

theorem makeRoom_ratioAcc (encoder : FecEncoder) (newBytes : Nat) :
    (encoder.makeRoom newBytes).ratioAcc = encoder.ratioAcc :=
  (evictWhile_ratioAcc _ _ _).trans (evictWhile_ratioAcc _ _ _)

theorem acknowledge_ratioAcc (encoder : FecEncoder) (highest : UInt32) :
    (encoder.acknowledge highest).ratioAcc = encoder.ratioAcc := by
  unfold FecEncoder.acknowledge
  split
  · rfl
  · split
    · rfl
    · rfl
    · exact evictWhile_ratioAcc _ _ _
    · exact evictWhile_ratioAcc _ _ _

/-- A push pays the numerator in and every repair takes the denominator out. -/
theorem pushSource_ratio (encoder : FecEncoder) (seq : UInt32) (payload : Payload)
    (positive : 1 ≤ encoder.config.redundancyDenominator.toNat)
    (below : encoder.ratioAcc < encoder.config.redundancyDenominator.toNat) :
    (encoder.pushSource seq payload).2.repairs.length *
          encoder.config.redundancyDenominator.toNat +
        (encoder.pushSource seq payload).1.ratioAcc =
      encoder.ratioAcc + encoder.config.redundancyNumerator.toNat ∧
    (encoder.pushSource seq payload).1.ratioAcc < encoder.config.redundancyDenominator.toNat := by
  have config : (encoder.stored seq payload).config = encoder.config :=
    encoder.makeRoom_config payload.length
  have acc : (encoder.stored seq payload).ratioAcc = encoder.ratioAcc :=
    encoder.makeRoom_ratioAcc payload.length
  rcases encoder.pushSource_cases seq payload with ⟨none, same⟩ | same
  · rw [same, none, acc]
    exact ⟨(congrArg (· + encoder.ratioAcc) (Nat.zero_mul _)).trans (Nat.zero_add _), below⟩
  · have accumulated : (encoder.stored seq payload).accumulated.ratioAcc =
        encoder.ratioAcc + encoder.config.redundancyNumerator.toNat := by
      rw [FecEncoder.accumulated, acc, config]
    have denominator : (encoder.stored seq payload).accumulated.config.redundancyDenominator.toNat =
        encoder.config.redundancyDenominator.toNat := by
      rw [FecEncoder.accumulated, config]
    obtain ⟨count, left⟩ := drainRatio_count _ (encoder.stored seq payload).accumulated
      (denominator ▸ positive) le_rfl
    rw [same]
    dsimp only
    rw [count, left, denominator, ← accumulated]
    exact ⟨Nat.div_add_mod' _ _, Nat.mod_lt _ positive⟩

end FecEncoder

section Runs

variable {stream : Nat → Payload} {config : FecConfig} {start : Nat}

theorem sanitised_windowMaxSymbols (config : FecConfig) :
    config.sanitised.windowMaxSymbols.toNat = min (max config.windowMaxSymbols.toNat 1) 128 := by
  have largest (cap : UInt16) : max cap 1 = if cap ≤ 1 then 1 else cap := rfl
  have least (cap : UInt16) : min cap 128 = if cap ≤ 128 then cap else 128 := rfl
  rw [FecConfig.sanitised, largest, least]
  split_ifs with low small small <;> rw [UInt16.le_iff_toNat_le] at * <;>
    simp only [UInt16.reduceToNat] at * <;> omega

theorem sanitised_windowMaxBytes (config : FecConfig) :
    config.sanitised.windowMaxBytes.toNat = max config.windowMaxBytes.toNat 1 := by
  have largest (cap : UInt32) : max cap 1 = if cap ≤ 1 then 1 else cap := rfl
  rw [FecConfig.sanitised, largest]
  split_ifs with low <;> rw [UInt32.le_iff_toNat_le] at low <;>
    simp only [UInt32.reduceToNat] at * <;> omega

theorem max_one_toNat (denominator : UInt8) :
    (max denominator 1).toNat = max denominator.toNat 1 := by
  have largest (value : UInt8) : max value 1 = if value ≤ 1 then 1 else value := rfl
  rw [largest]
  split_ifs with low <;> rw [UInt8.le_iff_toNat_le] at low <;>
    simp only [UInt8.reduceToNat] at * <;> omega

-- The invariant of a run.
structure Sender.Lawful (stream : Nat → Payload) (config : FecConfig) (start : Nat)
    (sender : Sender) : Prop where
  windowed : ∃ first, sender.Windowed stream first
  recent : start + sender.encoder.window.length ≤ sender.next
  few : sender.encoder.window.length ≤ config.sanitised.windowMaxSymbols.toNat
  counted : sender.encoder.Counted
  caps : sender.encoder.config.windowMaxSymbols = config.sanitised.windowMaxSymbols ∧
    sender.encoder.config.windowMaxBytes = config.sanitised.windowMaxBytes

theorem new_lawful (stream : Nat → Payload) (config : FecConfig) (start : Nat) :
    Sender.Lawful stream config start ⟨.new config, start⟩ := by
  have cap := sanitised_windowMaxSymbols config
  refine ⟨⟨start, le_rfl, ?_, ?_, ?_⟩, le_rfl, Nat.zero_le _, ⟨rfl, ?_, .inl (Nat.zero_le _)⟩,
    rfl, rfl⟩
  · rw [Nat.sub_self]
    rfl
  · rw [Nat.sub_self]
    exact Nat.zero_le _
  · change 1 ≤ config.sanitised.windowMaxSymbols.toNat ∧
      config.sanitised.windowMaxSymbols.toNat ≤ 128
    omega
  · exact fun entry member => (nomatch member)

theorem Sender.Lawful.step (short : ∀ index, (stream index).length ≤ 65520) {sender : Sender}
    (lawful : sender.Lawful stream config start) (call : EncoderCall) :
    (sender.step stream call).1.Lawful stream config start := by
  obtain ⟨first, windowed⟩ := lawful.windowed
  have next := (windowed.step call).1
  cases call with
  | setRedundancy numerator denominator =>
    exact ⟨next, lawful.recent, lawful.few, ⟨lawful.counted.total, lawful.counted.small,
      lawful.counted.within⟩, lawful.caps⟩
  | acknowledge highest =>
    obtain ⟨dropped, window⟩ := sender.encoder.acknowledge_window highest
    have fewer : (sender.encoder.acknowledge highest).window.length ≤
        sender.encoder.window.length := by
      rw [window, List.length_drop]
      exact Nat.sub_le _ _
    have config := sender.encoder.acknowledge_config highest
    refine ⟨next, (Nat.add_le_add_left fewer start).trans lawful.recent, fewer.trans lawful.few,
      lawful.counted.acknowledge highest, ?_⟩
    change (sender.encoder.acknowledge highest).config.windowMaxSymbols = _ ∧
      (sender.encoder.acknowledge highest).config.windowMaxBytes = _
    rw [config]
    exact lawful.caps
  | pushSource =>
    obtain ⟨window, -, configs⟩ := sender.encoder.pushSource_frame (UInt32.ofNat sender.next)
      (stream sender.next)
    obtain ⟨dropped, room⟩ := sender.encoder.makeRoom_window (stream sender.next).length
    have fits := sender.encoder.makeRoom_length (stream sender.next).length windowed.cap.1
    have length : (sender.encoder.pushSource (UInt32.ofNat sender.next)
        (stream sender.next)).1.window.length =
          (sender.encoder.makeRoom (stream sender.next).length).window.length + 1 := by
      rw [window, FecEncoder.stored, List.length_append]
      rfl
    have kept : (sender.encoder.makeRoom (stream sender.next).length).window.length ≤
        sender.encoder.window.length := by
      rw [room, List.length_drop]
      exact Nat.sub_le _ _
    have recent := lawful.recent
    refine ⟨next, ?_, ?_, lawful.counted.pushSource _ (short sender.next) windowed.cap, ?_⟩
    · change start + (sender.encoder.pushSource _ _).1.window.length ≤ sender.next + 1
      omega
    · change (sender.encoder.pushSource _ _).1.window.length ≤ _
      rw [length, ← lawful.caps.1]
      exact fits
    · change (sender.encoder.pushSource _ _).1.config.windowMaxSymbols = _ ∧
        (sender.encoder.pushSource _ _).1.config.windowMaxBytes = _
      rw [configs]
      exact lawful.caps

-- Every numerator that was paid in is in a repair or in the accumulator.
structure Sender.Balanced (numerator denominator : UInt8) (start : Nat) (log : List Emission)
    (sender : Sender) : Prop where
  ratio : sender.encoder.config.redundancyNumerator = numerator ∧
    sender.encoder.config.redundancyDenominator = max denominator 1
  started : start ≤ sender.next
  below : sender.encoder.ratioAcc < max denominator.toNat 1
  paid : (log.filter Emission.isRepair).length * max denominator.toNat 1 +
    sender.encoder.ratioAcc = (sender.next - start) * numerator.toNat

theorem repair_of_repairOf {window : List WindowEntry} {symbol : Symbol}
    (repair : RepairOf window symbol) (first limit : Nat) :
    Emission.isRepair ⟨symbol, first, limit⟩ = true := by
  obtain ⟨_, _, _, _, rfl, -⟩ := repair
  rfl

-- What a push emits besides its source are repairs.
theorem step_push_repairs (stream : Nat → Payload) (sender : Sender) :
    ((sender.step stream .pushSource).2.filter Emission.isRepair).length =
      (sender.encoder.pushSource (UInt32.ofNat sender.next)
        (stream sender.next)).2.repairs.length := by
  have source : (sender.encoder.pushSource (UInt32.ofNat sender.next)
      (stream sender.next)).2.source = .source (UInt32.ofNat sender.next) (stream sender.next) := by
    rcases sender.encoder.pushSource_cases (UInt32.ofNat sender.next) (stream sender.next) with
      ⟨-, same⟩ | same <;> rw [same]
  have all := sender.encoder.pushSource_repairOf (UInt32.ofNat sender.next) (stream sender.next)
  unfold Sender.step
  dsimp only
  rw [source, List.filter_cons_of_neg (by exact Bool.false_ne_true), List.filter_eq_self.mpr,
    List.length_map]
  intro emission member
  obtain ⟨repair, made, rfl⟩ := List.mem_map.mp member
  exact repair_of_repairOf (all repair made) _ _

theorem Sender.Balanced.step {numerator denominator : UInt8} {log : List Emission}
    {sender : Sender} (balanced : sender.Balanced numerator denominator start log)
    (call : EncoderCall) (keeps : call.Keeps numerator denominator) :
    (sender.step stream call).1.Balanced numerator denominator start
      (log ++ (sender.step stream call).2) := by
  have denominatorNat : sender.encoder.config.redundancyDenominator.toNat =
      max denominator.toNat 1 := by
    rw [balanced.ratio.2, max_one_toNat]
  cases call with
  | setRedundancy n d =>
    obtain ⟨rfl, same⟩ := keeps
    refine ⟨⟨rfl, same⟩, balanced.started, balanced.below, ?_⟩
    rw [Sender.step, List.append_nil]
    exact balanced.paid
  | acknowledge highest =>
    have acc := sender.encoder.acknowledge_ratioAcc highest
    have config := sender.encoder.acknowledge_config highest
    refine ⟨?_, balanced.started, ?_, ?_⟩
    · change (sender.encoder.acknowledge highest).config.redundancyNumerator = _ ∧
        (sender.encoder.acknowledge highest).config.redundancyDenominator = _
      rw [config]
      exact balanced.ratio
    · exact acc.trans_lt balanced.below
    · rw [Sender.step, List.append_nil]
      exact (congrArg (_ + ·) acc).trans balanced.paid
  | pushSource =>
    obtain ⟨-, -, configs⟩ := sender.encoder.pushSource_frame (UInt32.ofNat sender.next)
      (stream sender.next)
    obtain ⟨paid, below⟩ := sender.encoder.pushSource_ratio (UInt32.ofNat sender.next)
      (stream sender.next) (by omega) (denominatorNat.symm ▸ balanced.below)
    have count := step_push_repairs stream sender
    have before := balanced.paid
    rw [denominatorNat, balanced.ratio.1] at paid
    rw [denominatorNat] at below
    have nextAcc : (sender.step stream .pushSource).1.encoder.ratioAcc =
        (sender.encoder.pushSource (UInt32.ofNat sender.next) (stream sender.next)).1.ratioAcc := rfl
    have next : (sender.step stream .pushSource).1.next - start = sender.next - start + 1 :=
      Nat.succ_sub balanced.started
    refine ⟨?_, Nat.le_succ_of_le balanced.started, below, ?_⟩
    · change (sender.encoder.pushSource _ _).1.config.redundancyNumerator = _ ∧
        (sender.encoder.pushSource _ _).1.config.redundancyDenominator = _
      rw [configs]
      exact balanced.ratio
    · rw [List.filter_append, List.length_append, count, next, nextAcc, Nat.add_mul, Nat.succ_mul]
      omega

theorem Sender.Balanced.count {numerator denominator : UInt8} {log : List Emission}
    {sender : Sender} (balanced : sender.Balanced numerator denominator start log) :
    (log.filter Emission.isRepair).length =
      (sender.next - start) * numerator.toNat / max denominator.toNat 1 := by
  rw [← balanced.paid, Nat.add_comm, Nat.add_mul_div_right _ _ (by omega),
    Nat.div_eq_of_lt balanced.below, Nat.zero_add]

theorem run_next (stream : Nat → Payload) (calls : List EncoderCall) (sender : Sender) :
    (Runs.run (Sender.step stream) sender calls).1.next =
      sender.next + (calls.filter EncoderCall.isPush).length := by
  induction calls generalizing sender with
  | nil => rfl
  | cons call calls ih =>
    rw [Runs.run]
    dsimp only
    rw [ih]
    cases call with
    | pushSource =>
      rw [List.filter_cons_of_pos rfl, List.length_cons]
      change sender.next + 1 + _ = _
      omega
    | setRedundancy n d => rw [List.filter_cons_of_neg (by exact Bool.false_ne_true)]; rfl
    | acknowledge highest => rw [List.filter_cons_of_neg (by exact Bool.false_ne_true)]; rfl

-- What is true of an encoder after a run of calls, and of the repairs it has sent.
structure WindowLaw (stream : Nat → Payload) (config : FecConfig) (start : Nat)
    (calls : List EncoderCall) (sender : Sender) (log : List Emission) : Prop where
  next : sender.next = start + (calls.filter EncoderCall.isPush).length
  recent : start + sender.encoder.window.length ≤ sender.next
  window : sender.encoder.window = (List.range' (sender.next - sender.encoder.window.length)
    sender.encoder.window.length).map (entryAt stream)
  symbols : sender.encoder.window.length ≤ min (max config.windowMaxSymbols.toNat 1) 128
  total : sender.encoder.windowByteTotal = payloadBytes sender.encoder.window
  bytes : sender.encoder.windowByteTotal ≤ max config.windowMaxBytes.toNat 1 ∨
    sender.encoder.window.length = 1
  repairs : ∀ repair ∈ (sender.encoder.pushSource (UInt32.ofNat sender.next)
    (stream sender.next)).2.repairs, RepairOf (sender.encoder.pushSource (UInt32.ofNat sender.next)
      (stream sender.next)).1.window repair
  count : (∀ call ∈ calls, call.Keeps config.redundancyNumerator config.redundancyDenominator) →
    (log.filter Emission.isRepair).length = (calls.filter EncoderCall.isPush).length *
      config.redundancyNumerator.toNat / max config.redundancyDenominator.toNat 1

/-- In every run the window is a run of the most recent sources within the caps, every repair is
the combination of the window it declares, and a fixed ratio is met to the repair. -/
theorem run_window_law (stream : Nat → Payload) (short : ∀ index, (stream index).length ≤ 65520)
    (config : FecConfig) (start : Nat) (calls : List EncoderCall) :
    WindowLaw stream config start calls
      (Runs.run (Sender.step stream) ⟨.new config, start⟩ calls).1
      (Runs.run (Sender.step stream) ⟨.new config, start⟩ calls).2 := by
  have next := run_next stream calls ⟨.new config, start⟩
  have lawful : (Runs.run (Sender.step stream) ⟨.new config, start⟩ calls).1.Lawful stream config
      start :=
    Runs.run_invariant_of_forall (Sender.step stream) (fun _ sender => sender.Lawful stream config
      start) (fun _ sender call lawful => lawful.step short call) [] ⟨.new config, start⟩ calls
      (new_lawful stream config start)
  have balanced (keeps : ∀ call ∈ calls,
      call.Keeps config.redundancyNumerator config.redundancyDenominator) :=
    Runs.run_invariant (Sender.step stream)
      (fun _ _ call => call.Keeps config.redundancyNumerator config.redundancyDenominator)
      (fun log sender => sender.Balanced config.redundancyNumerator config.redundancyDenominator
        start log)
      (fun _ _ call balanced keeps => balanced.step call keeps) [] ⟨.new config, start⟩ calls
      ⟨⟨rfl, rfl⟩, le_rfl, by change 0 < _; omega, by
        rw [Nat.sub_self, Nat.zero_mul]
        exact Nat.zero_mul _⟩
      (Runs.along_of_forall (fun call member _ _ => keeps call member) _ _)
  generalize Runs.run (Sender.step stream) ⟨.new config, start⟩ calls = result at next lawful balanced
  obtain ⟨first, windowed⟩ := lawful.windowed
  have length : result.1.encoder.window.length = result.1.next - first := by
    rw [windowed.window, List.length_map, List.length_range']
  have ordered := windowed.ordered
  refine ⟨next, lawful.recent, ?_, ?_, lawful.counted.total, ?_,
    FecEncoder.pushSource_repairOf _ _ _, fun keeps => ?_⟩
  · rw [length, show result.1.next - (result.1.next - first) = first by omega]
    exact windowed.window
  · rw [← sanitised_windowMaxSymbols]
    exact lawful.few
  · rw [← sanitised_windowMaxBytes, ← lawful.caps.2]
    exact lawful.counted.within
  · have count := (balanced keeps).count
    rw [next, Nat.add_sub_cancel_left] at count
    exact count

theorem run_window_law_empty :
    WindowLaw (fun _ => []) ⟨1, 2, 4, 100⟩ 0 [.pushSource, .acknowledge 0, .pushSource]
      (Runs.run (Sender.step fun _ => []) ⟨.new ⟨1, 2, 4, 100⟩, 0⟩
        [.pushSource, .acknowledge 0, .pushSource]).1
      (Runs.run (Sender.step fun _ => []) ⟨.new ⟨1, 2, 4, 100⟩, 0⟩
        [.pushSource, .acknowledge 0, .pushSource]).2 :=
  run_window_law (fun _ => []) (fun _ => by decide) ⟨1, 2, 4, 100⟩ 0
    [.pushSource, .acknowledge 0, .pushSource]

-- A budget of no bytes is taken as one of one byte.
theorem zero_budget_exceeded :
    ¬∀ (stream : Nat → Payload), (∀ index, (stream index).length ≤ 65520) →
      ∀ (config : FecConfig) (start : Nat) (calls : List EncoderCall),
        (Runs.run (Sender.step stream) ⟨.new config, start⟩ calls).1.encoder.windowByteTotal ≤
            config.windowMaxBytes.toNat ∨
          (Runs.run (Sender.step stream) ⟨.new config, start⟩ calls).1.encoder.window.length = 1 := by
  intro all
  have held := all (fun index => if index = 0 then [7] else [])
    (fun index => by split_ifs <;> decide) ⟨0, 1, 128, 0⟩ 0 [.pushSource, .pushSource]
  exact absurd held (by decide +kernel)

end Runs

end BetterParsec
