import BetterParsec.Browser.ByteBufferReads
import BetterParsec.Input.Decoding
import BetterParsec.Library.Runs
import BetterParsec.Library.Truncation

set_option autoImplicit false
set_option linter.all false

/-!
# Scrolling

`sendAccumulatedScroll` of `web/stream/input.ts` with the two messages it sends, and
what the decoder of the streamer reads from them. Deltas are exact numbers; a message
holds integers of 8 or of 16 signed bits, and `DataView` cuts off what is above.
-/

namespace BetterParsec

namespace BrowserBuffer

def ByteBuffer.reset (b : ByteBuffer) : ByteBuffer := { b with position := 0, limit := 0 }

end BrowserBuffer

namespace WebScroll

open BrowserBuffer (Own Wrote)
open Truncation (trunc)

inductive MouseScrollMode where
  | highres
  | normal
  deriving DecidableEq

structure StreamInput where
  buffer : BrowserBuffer.ByteBuffer
  scrollRemainderX : ℚ
  scrollRemainderY : ℚ

-- `channel` says whether there is one.
def trySendChannel (channel : Bool) (b : BrowserBuffer.ByteBuffer) :
    Except String (BrowserBuffer.ByteBuffer × Option (List UInt8)) :=
  if channel then
    let b := b.flip
    let readBuffer := b.getRemainingBuffer
    if readBuffer.length = 0 then .error "illegal buffer size" else .ok (b, some readBuffer)
  else .ok (b, none)

namespace StreamInput

def new : StreamInput := ⟨BrowserBuffer.ByteBuffer.new 1024 false, 0, 0⟩

def remainder (input : StreamInput) : ℚ × ℚ := (input.scrollRemainderX, input.scrollRemainderY)

def sendMouseWheelHighRes (mouseRelative : Bool) (input : StreamInput) (deltaX deltaY : Int) :
    Except String (StreamInput × Option (List UInt8)) := do
  let b := input.buffer.reset
  let b ← b.putU8 3 none
  let b ← b.putI16 (Int16.ofInt deltaX) none
  let b ← b.putI16 (Int16.ofInt deltaY) none
  let (b, sent) ← trySendChannel mouseRelative b
  pure ({ input with buffer := b }, sent)

def sendMouseWheel (mouseRelative : Bool) (input : StreamInput) (deltaX deltaY : Int) :
    Except String (StreamInput × Option (List UInt8)) := do
  let b := input.buffer.reset
  let b ← b.putU8 4 none
  let b ← b.putI8 (Int8.ofInt deltaX) none
  let b ← b.putI8 (Int8.ofInt deltaY) none
  let (b, sent) ← trySendChannel mouseRelative b
  pure ({ input with buffer := b }, sent)

def sendAccumulatedScroll (mouseScrollMode : MouseScrollMode) (mouseRelative : Bool)
    (input : StreamInput) (deltaX deltaY : ℚ) :
    Except String (StreamInput × Option (List UInt8)) :=
  let input :=
    { input with
      scrollRemainderX := input.scrollRemainderX + deltaX
      scrollRemainderY := input.scrollRemainderY + deltaY }
  let integerX := trunc input.scrollRemainderX
  let integerY := trunc input.scrollRemainderY
  if integerX = 0 ∧ integerY = 0 then .ok (input, none)
  else
    let input :=
      { input with
        scrollRemainderX := input.scrollRemainderX - integerX
        scrollRemainderY := input.scrollRemainderY - integerY }
    match mouseScrollMode with
    | .highres => input.sendMouseWheelHighRes mouseRelative integerX integerY
    | .normal => input.sendMouseWheel mouseRelative integerX integerY

-- One call for each pair of deltas, with the messages they sent.
def scrollAll (mouseScrollMode : MouseScrollMode) (mouseRelative : Bool) :
    StreamInput → List (ℚ × ℚ) → Except String (StreamInput × List (List UInt8))
  | input, [] => .ok (input, [])
  | input, (deltaX, deltaY) :: rest => do
      let (input, sent) ← input.sendAccumulatedScroll mouseScrollMode mouseRelative deltaX deltaY
      let (last, messages) ← scrollAll mouseScrollMode mouseRelative input rest
      pure (last, sent.toList ++ messages)

end StreamInput

-- What the streamer reads as the deltas of a wheel message.
def wheelDeltas (types : WireTypes) (message : List UInt8) : Int × Int :=
  match InboundPacket.deserialize TransportChannelId.mouseRelative message with
  | some (some (.highResScroll x y : InboundPacket types)) => (x.toInt, y.toInt)
  | some (some (.scroll x y)) => (x.toInt, y.toInt)
  | _ => (0, 0)

def received (types : WireTypes) (messages : List (List UInt8)) : Int × Int :=
  (messages.map (wheelDeltas types)).sum

def exactly (deltas : Int × Int) : ℚ × ℚ := (deltas.1, deltas.2)

-- What was put in is what was received and what remains.
def Conserved (types : WireTypes) (mouseScrollMode : MouseScrollMode) (mouseRelative : Bool)
    (input : StreamInput) (deltas : List (ℚ × ℚ)) : Prop :=
  ∃ last messages, input.scrollAll mouseScrollMode mouseRelative deltas = .ok (last, messages) ∧
    exactly (received types messages) + last.remainder = input.remainder + deltas.sum

-- The largest integer of the wire form is one less.
def MouseScrollMode.limit : MouseScrollMode → ℚ
  | .highres => 2 ^ 15
  | .normal => 2 ^ 7

-- Nothing is sent, or it can be sent and holds.
def Carried (mouseScrollMode : MouseScrollMode) (mouseRelative : Bool) (total : ℚ × ℚ) : Prop :=
  |total.1| < 1 ∧ |total.2| < 1 ∨
    mouseRelative = true ∧
      (-mouseScrollMode.limit - 1 < total.1 ∧ total.1 < mouseScrollMode.limit) ∧
      (-mouseScrollMode.limit - 1 < total.2 ∧ total.2 < mouseScrollMode.limit)

-- The remainders and the integers of a call.
def integers (total : ℚ × ℚ) : Int × Int := (trunc total.1, trunc total.2)

def accumulate (remainder delta : ℚ × ℚ) : (ℚ × ℚ) × List (Int × Int) :=
  let total := remainder + delta
  (total - exactly (integers total), [integers total])

def wheelMessage : MouseScrollMode → Int × Int → List UInt8
  | .highres, (x, y) => [3] ++ beI16 (Int16.ofInt x) ++ beI16 (Int16.ofInt y)
  | .normal, (x, y) => [4] ++ [(Int8.ofInt x).toUInt8] ++ [(Int8.ofInt y).toUInt8]

def stored : MouseScrollMode → Int × Int → Int × Int
  | .highres, (x, y) => (x.bmod (2 ^ 16), y.bmod (2 ^ 16))
  | .normal, (x, y) => (x.bmod (2 ^ 8), y.bmod (2 ^ 8))

theorem wheelDeltas_message (types : WireTypes) (mode : MouseScrollMode) (deltas : Int × Int) :
    wheelDeltas types (wheelMessage mode deltas) = stored mode deltas := by
  obtain ⟨x, y⟩ := deltas
  cases mode with
  | highres =>
    have read := @InboundPacket.deserialize_of_yields types TransportChannelId.mouseRelative _ _
      (InboundPacket.yields_highResScroll (Int16.ofInt x) (Int16.ofInt y))
    rw [wheelDeltas, wheelMessage, read]
    exact Prod.ext Int16.toInt_ofInt Int16.toInt_ofInt
  | normal =>
    have read := @InboundPacket.deserialize_of_yields types TransportChannelId.mouseRelative _ _
      (InboundPacket.yields_scroll (Int8.ofInt x) (Int8.ofInt y))
    rw [wheelDeltas, wheelMessage, read]
    exact Prod.ext Int8.toInt_ofInt Int8.toInt_ofInt

section Sending

-- What every call leaves.
structure StreamInput.Ready (input : StreamInput) : Prop where
  own : Own input.buffer
  capacity : input.buffer.buffer.length = 1024
  bigEndian : input.buffer.littleEndian = false

theorem ready_new : StreamInput.new.Ready :=
  ⟨BrowserBuffer.own_new 1024 false, rfl, rfl⟩

variable {input : StreamInput}

def sendPuts (mouseRelative : Bool) (input : StreamInput) (puts : List BrowserBuffer.Put) :
    Except String (StreamInput × Option (List UInt8)) := do
  let b ← input.buffer.reset.putAll puts
  let (b, sent) ← trySendChannel mouseRelative b
  pure ({ input with buffer := b }, sent)

theorem sendPuts_spec (ready : input.Ready) (mouseRelative : Bool) {puts : List BrowserBuffer.Put}
    (narrow : ∀ data, .u64 data ∉ puts) (fits : BrowserBuffer.size puts ≤ 1024)
    (some : 0 < BrowserBuffer.size puts) :
    ∃ b, sendPuts mouseRelative input puts = .ok ({ input with buffer := b },
        if mouseRelative then .some (puts.flatMap (BrowserBuffer.Put.stored false)) else none) ∧
      StreamInput.Ready { input with buffer := b } := by
  have own : Own input.buffer.reset := ⟨ready.own.start, ready.own.whole⟩
  have room : input.buffer.reset.position + BrowserBuffer.size puts ≤
      input.buffer.reset.buffer.length := by
    change 0 + _ ≤ input.buffer.buffer.length
    rw [ready.capacity]
    omega
  obtain ⟨b, put, wrote⟩ := BrowserBuffer.putAll_wrote own narrow room
  have bytes := wrote.stored
  simp only [BrowserBuffer.ByteBuffer.reset, ready.bigEndian, List.take_zero, List.nil_append,
    Nat.zero_add, BrowserBuffer.length_flatMap_stored] at bytes
  have position : b.position = BrowserBuffer.size puts := wrote.position.trans (Nat.zero_add _)
  have message : b.flip.getRemainingBuffer = puts.flatMap (BrowserBuffer.Put.stored false) := by
    rw [BrowserBuffer.remaining_flip wrote.own, position, bytes]
  have filled : ¬(puts.flatMap (BrowserBuffer.Put.stored false)).length = 0 := by
    rw [BrowserBuffer.length_flatMap_stored]
    omega
  have capacity : b.buffer.length = 1024 := wrote.capacity.trans ready.capacity
  have bigEndian : b.littleEndian = false := wrote.littleEndian.trans ready.bigEndian
  cases mouseRelative with
  | true =>
    have sent : trySendChannel true b =
        .ok (b.flip, .some (puts.flatMap (BrowserBuffer.Put.stored false))) := by
      simp only [trySendChannel, message, filled, if_true, if_false]
    refine ⟨b.flip, ?_, ⟨wrote.own.start, wrote.own.whole⟩, capacity, bigEndian⟩
    simp [sendPuts, put, sent, bind, Except.bind, pure, Except.pure]
  | false =>
    refine ⟨b, ?_, wrote.own, capacity, bigEndian⟩
    simp [sendPuts, put, trySendChannel, bind, Except.bind, pure, Except.pure]

def wheelPuts : MouseScrollMode → Int × Int → List BrowserBuffer.Put
  | .highres, (x, y) => [.u8 3, .i16 (Int16.ofInt x), .i16 (Int16.ofInt y)]
  | .normal, (x, y) => [.u8 4, .i8 (Int8.ofInt x), .i8 (Int8.ofInt y)]

theorem wheelPuts_stored (mode : MouseScrollMode) (deltas : Int × Int) :
    (wheelPuts mode deltas).flatMap (BrowserBuffer.Put.stored false) = wheelMessage mode deltas := by
  cases mode <;> rfl

theorem wheelPuts_size (mode : MouseScrollMode) (deltas : Int × Int) :
    0 < BrowserBuffer.size (wheelPuts mode deltas) ∧
      BrowserBuffer.size (wheelPuts mode deltas) ≤ 1024 := by
  have highres : BrowserBuffer.size (wheelPuts .highres deltas) = 5 := rfl
  have normal : BrowserBuffer.size (wheelPuts .normal deltas) = 3 := rfl
  cases mode <;> omega

theorem sendMouseWheelHighRes_puts (mouseRelative : Bool) (input : StreamInput) (x y : Int) :
    input.sendMouseWheelHighRes mouseRelative x y =
      sendPuts mouseRelative input (wheelPuts .highres (x, y)) := by
  simp [StreamInput.sendMouseWheelHighRes, sendPuts, wheelPuts, BrowserBuffer.ByteBuffer.putAll,
    BrowserBuffer.ByteBuffer.put]

theorem sendMouseWheel_puts (mouseRelative : Bool) (input : StreamInput) (x y : Int) :
    input.sendMouseWheel mouseRelative x y =
      sendPuts mouseRelative input (wheelPuts .normal (x, y)) := by
  simp [StreamInput.sendMouseWheel, sendPuts, wheelPuts, BrowserBuffer.ByteBuffer.putAll,
    BrowserBuffer.ByteBuffer.put]

/-- A call takes the integers out of the remainders, and sends them unless both are zero. -/
theorem sendAccumulatedScroll_spec (ready : input.Ready) (mode : MouseScrollMode)
    (mouseRelative : Bool) (delta : ℚ × ℚ) :
    ∃ next, next.Ready ∧ next.remainder = (accumulate input.remainder delta).1 ∧
      input.sendAccumulatedScroll mode mouseRelative delta.1 delta.2 = .ok (next,
        if integers (input.remainder + delta) = (0, 0) ∨ mouseRelative = false then none
        else some (wheelMessage mode (integers (input.remainder + delta)))) := by
  obtain ⟨deltaX, deltaY⟩ := delta
  let totalled : StreamInput :=
    { input with
      scrollRemainderX := input.scrollRemainderX + deltaX
      scrollRemainderY := input.scrollRemainderY + deltaY }
  have split : integers (input.remainder + (deltaX, deltaY)) =
      (trunc totalled.scrollRemainderX, trunc totalled.scrollRemainderY) := rfl
  rw [accumulate, split]
  by_cases none : trunc totalled.scrollRemainderX = 0 ∧ trunc totalled.scrollRemainderY = 0
  · refine ⟨totalled, ⟨ready.1, ready.2, ready.3⟩, ?_, ?_⟩
    · rw [none.1, none.2]
      exact Prod.ext (sub_zero _).symm (sub_zero _).symm
    · rw [if_pos (.inl (Prod.ext none.1 none.2))]
      exact if_pos none
  · let taken : StreamInput :=
      { totalled with
        scrollRemainderX := totalled.scrollRemainderX - trunc totalled.scrollRemainderX
        scrollRemainderY := totalled.scrollRemainderY - trunc totalled.scrollRemainderY }
    have takenReady : taken.Ready := ⟨ready.1, ready.2, ready.3⟩
    let puts := wheelPuts mode (trunc totalled.scrollRemainderX, trunc totalled.scrollRemainderY)
    have called : input.sendAccumulatedScroll mode mouseRelative deltaX deltaY =
        sendPuts mouseRelative taken puts := by
      refine (if_neg none).trans ?_
      cases mode with
      | highres => exact sendMouseWheelHighRes_puts mouseRelative taken _ _
      | normal => exact sendMouseWheel_puts mouseRelative taken _ _
    have narrow : ∀ data, .u64 data ∉ puts := by cases mode <;> simp [puts, wheelPuts]
    obtain ⟨some, fits⟩ := wheelPuts_size mode
      (trunc totalled.scrollRemainderX, trunc totalled.scrollRemainderY)
    obtain ⟨b, sent, sentReady⟩ := sendPuts_spec takenReady mouseRelative narrow fits some
    refine ⟨{ taken with buffer := b }, sentReady, rfl, ?_⟩
    rw [called, sent, wheelPuts_stored]
    have some : ¬(trunc totalled.scrollRemainderX, trunc totalled.scrollRemainderY) = (0, 0) :=
      fun both => none (Prod.mk.inj both)
    cases mouseRelative <;> simp [some]

end Sending

section Conservation

variable (types : WireTypes) (mode : MouseScrollMode) (mouseRelative : Bool)

-- What arrives of the integers of one call.
def arrives (sum : ℚ × ℚ) : Int × Int :=
  if integers sum = (0, 0) ∨ mouseRelative = false then 0 else stored mode (integers sum)

theorem bmod_carried {total : ℚ} (width : Nat) :
    (trunc total).bmod (2 ^ (width + 1)) = trunc total ↔
      -(2 ^ width : ℚ) - 1 < total ∧ total < 2 ^ width := by
  have positive : (0 : Int) < 2 ^ width := by positivity
  have lower := @Truncation.le_trunc_iff total (-2 ^ width) (by omega)
  have upper := @Truncation.trunc_le_iff total (2 ^ width - 1) (by omega)
  rw [Truncation.bmod_eq_self_iff, ← Int.le_sub_one_iff, lower, upper]
  push_cast
  rw [sub_add_cancel]

theorem arrives_iff (total : ℚ × ℚ) :
    arrives mode mouseRelative total = integers total ↔ Carried mode mouseRelative total := by
  obtain ⟨x, y⟩ := total
  have zero : integers (x, y) = (0, 0) ↔ |x| < 1 ∧ |y| < 1 := by
    rw [integers, Prod.mk.injEq, Truncation.trunc_eq_zero_iff, Truncation.trunc_eq_zero_iff]
  have holds : stored mode (integers (x, y)) = integers (x, y) ↔
      (-mode.limit - 1 < x ∧ x < mode.limit) ∧ (-mode.limit - 1 < y ∧ y < mode.limit) := by
    cases mode with
    | highres => exact Prod.mk_inj.trans (and_congr (bmod_carried 15) (bmod_carried 15))
    | normal => exact Prod.mk_inj.trans (and_congr (bmod_carried 7) (bmod_carried 7))
  unfold arrives Carried
  by_cases none : integers (x, y) = (0, 0)
  · rw [if_pos (.inl none), none]
    exact ⟨fun _ => .inl (zero.mp none), fun _ => rfl⟩
  · have some : ¬(|x| < 1 ∧ |y| < 1) := fun both => none (zero.mpr both)
    cases mouseRelative with
    | true => simpa [none, ← and_assoc, some] using holds
    | false =>
      rw [if_pos (.inr rfl)]
      refine ⟨fun same => absurd same.symm none, fun carried => ?_⟩
      rcases carried with small | ⟨absent, -⟩
      · exact absurd small some
      · simp at absent

theorem exactly_add (first second : Int × Int) :
    exactly (first + second) = exactly first + exactly second :=
  Prod.ext (Int.cast_add ..) (Int.cast_add ..)

theorem exactly_zero : exactly 0 = 0 := Prod.ext Int.cast_zero Int.cast_zero

theorem exactly_injective : Function.Injective exactly := fun _ _ same =>
  Prod.ext (Int.cast_injective (congrArg Prod.fst same))
    (Int.cast_injective (congrArg Prod.snd same))

variable {input : StreamInput}

/-- The first call, and what is left to be conserved after it. -/
theorem conserved_cons (ready : input.Ready) (delta : ℚ × ℚ) :
    ∃ next : StreamInput, next.Ready ∧
      next.remainder = (accumulate input.remainder delta).1 ∧
      ∀ rest, (Conserved types mode mouseRelative input (delta :: rest) ↔
        ∃ last messages, next.scrollAll mode mouseRelative rest = .ok (last, messages) ∧
          exactly (arrives mode mouseRelative (input.remainder + delta)) +
              (exactly (received types messages) + last.remainder) =
            exactly (integers (input.remainder + delta)) + (next.remainder + rest.sum)) := by
  obtain ⟨next, nextReady, left, called⟩ :=
    sendAccumulatedScroll_spec ready mode mouseRelative delta
  refine ⟨next, nextReady, left, fun rest => ?_⟩
  have sent : received types (if integers (input.remainder + delta) = (0, 0) ∨ mouseRelative = false
      then none else some (wheelMessage mode (integers (input.remainder + delta)))).toList =
        arrives mode mouseRelative (input.remainder + delta) := by
    unfold arrives
    split_ifs
    · rfl
    · simp [received, wheelDeltas_message]
  have taken : next.remainder =
      input.remainder + delta - exactly (integers (input.remainder + delta)) := left
  have total : input.remainder + (delta + rest.sum) =
      exactly (integers (input.remainder + delta)) + (next.remainder + rest.sum) := by
    rw [taken, ← add_assoc, ← add_assoc, add_sub_cancel]
  have messagesSum (first later : List (List UInt8)) :
      received types (first ++ later) = received types first + received types later := by
    simp [received]
  unfold Conserved
  rw [List.sum_cons, total, StreamInput.scrollAll, called]
  cases run : next.scrollAll mode mouseRelative rest with
  | error text => simp [run, bind, Except.bind]
  | ok result =>
    obtain ⟨last, messages⟩ := result
    simp [run, bind, Except.bind, pure, Except.pure, messagesSum, sent, exactly_add, add_assoc]

theorem conserved_nil : Conserved types mode mouseRelative input [] :=
  ⟨input, [], rfl, by simp [received, exactly]⟩

theorem conserved_single (ready : input.Ready) (delta : ℚ × ℚ) :
    Conserved types mode mouseRelative input [delta] ↔
      Carried mode mouseRelative (input.remainder + delta) := by
  obtain ⟨next, -, -, first⟩ := conserved_cons types mode mouseRelative ready delta
  rw [first, ← arrives_iff]
  simp [StreamInput.scrollAll, received, exactly_injective.eq_iff, exactly_zero]

theorem conserved_prefixes_iff (ready : input.Ready) (deltas : List (ℚ × ℚ)) (seen : List (Int × Int)) :
    (∀ taken, taken <+: deltas → Conserved types mode mouseRelative input taken) ↔
      Runs.Along accumulate
        (fun _ remainder delta => Carried mode mouseRelative (remainder + delta)) seen
        input.remainder deltas := by
  induction deltas generalizing input seen with
  | nil =>
    refine ⟨fun _ => trivial, fun _ taken front => ?_⟩
    rw [List.prefix_nil.mp front]
    exact conserved_nil types mode mouseRelative
  | cons delta rest ih =>
    obtain ⟨next, nextReady, left, first⟩ := conserved_cons types mode mouseRelative ready delta
    have single := conserved_single types mode mouseRelative ready delta
    have later (carried : Carried mode mouseRelative (input.remainder + delta))
        (taken : List (ℚ × ℚ)) : Conserved types mode mouseRelative input (delta :: taken) ↔
          Conserved types mode mouseRelative next taken := by
      rw [first, (arrives_iff mode mouseRelative _).mpr carried]
      simp [Conserved]
    rw [Runs.Along, ← left, ← ih nextReady]
    constructor
    · intro conserved
      have carried := single.mp (conserved [delta] ((List.prefix_cons_inj delta).mpr List.nil_prefix))
      refine ⟨carried, fun taken front => (later carried taken).mp ?_⟩
      exact conserved (delta :: taken) ((List.prefix_cons_inj delta).mpr front)
    · intro ⟨carried, conserved⟩ taken front
      cases taken with
      | nil => exact conserved_nil types mode mouseRelative
      | cons other taken =>
        obtain ⟨rfl, within⟩ := List.cons_prefix_cons.mp front
        exact (later carried taken).mpr (conserved taken within)

theorem scrollAll_returns (ready : input.Ready) (small : |input.scrollRemainderX| < 1 ∧
    |input.scrollRemainderY| < 1) (deltas : List (ℚ × ℚ)) :
    ∃ last messages, input.scrollAll mode mouseRelative deltas = .ok (last, messages) ∧
      |last.scrollRemainderX| < 1 ∧ |last.scrollRemainderY| < 1 := by
  induction deltas generalizing input with
  | nil => exact ⟨input, [], rfl, small⟩
  | cons delta rest ih =>
    obtain ⟨next, nextReady, left, called⟩ :=
      sendAccumulatedScroll_spec ready mode mouseRelative delta
    have nextSmall : |next.scrollRemainderX| < 1 ∧ |next.scrollRemainderY| < 1 := by
      have leftX : next.scrollRemainderX = _ := congrArg Prod.fst left
      have leftY : next.scrollRemainderY = _ := congrArg Prod.snd left
      rw [leftX, leftY]
      exact ⟨Truncation.abs_sub_trunc_lt _, Truncation.abs_sub_trunc_lt _⟩
    obtain ⟨last, messages, run, lastSmall⟩ := ih nextReady nextSmall
    obtain ⟨all, ran⟩ : ∃ all, input.scrollAll mode mouseRelative (delta :: rest) =
        .ok (last, all) := by
      rw [StreamInput.scrollAll, called]
      simp [bind, Except.bind, run, pure, Except.pure]
    exact ⟨last, all, ran, lastSmall⟩

/-- Nothing is lost or made up after any number of calls exactly if every call has nothing to send,
or a channel to send it on and room for it in the message; and every remainder is small. -/
theorem scroll_conserved_iff (deltas : List (ℚ × ℚ)) :
    ((∀ taken, taken <+: deltas → Conserved types mode mouseRelative .new taken) ↔
      Runs.Along accumulate
        (fun _ remainder delta => Carried mode mouseRelative (remainder + delta)) [] 0 deltas) ∧
      ∃ last messages, StreamInput.new.scrollAll mode mouseRelative deltas = .ok (last, messages) ∧
        |last.scrollRemainderX| < 1 ∧ |last.scrollRemainderY| < 1 :=
  ⟨conserved_prefixes_iff types mode mouseRelative ready_new deltas [],
    scrollAll_returns mode mouseRelative ready_new (by simp [StreamInput.new]) deltas⟩

end Conservation

-- A delta of 128 arrives as -128.
theorem scroll_not_conserved :
    ¬Conserved sampleTypes .normal true .new [(0, 128)] := by
  rw [conserved_single _ _ _ ready_new]
  norm_num [Carried, MouseScrollMode.limit, StreamInput.remainder, StreamInput.new]

end WebScroll

end BetterParsec
