import BetterParsec.Broker.CaptureState
import BetterParsec.Library.LittleEndian

set_option autoImplicit false
set_option linter.all false

/-!
# Batches of key events

`encode_batch` and `decode_batch` of `input-broker/src/protocol.rs`: a count, the
number of dropped events, and 32 bytes for each event.
-/

namespace BetterParsec

namespace BatchCodec

open LittleEndian (bytes slice valueAt)

def version : UInt16 := 1

abbrev maxPayload : Nat := 64 * 1024

abbrev eventSize : Nat := 32

abbrev batchPrefixSize : Nat := 8

-- The operations of `usize`.
def checkedMul (a b : Nat) : Option Nat := if a * b < 2 ^ 64 then some (a * b) else none

def checkedAdd (a b : Nat) : Option Nat := if a + b < 2 ^ 64 then some (a + b) else none

def okOr (error : ProtocolError) : Option Nat → Except ProtocolError Nat
  | some value => .ok value
  | none => .error error

def encodeEvent (event : BrokerEvent) : List UInt8 :=
  bytes 2 version.toNat ++ bytes 2 event.kind.toNat ++ bytes 4 event.sequence.toNat ++
    bytes 8 event.nonce.toNat ++ bytes 2 event.makeCode.toNat ++ bytes 2 event.flags.toNat ++
    bytes 4 event.extraInformation.toNat ++ bytes 8 event.interruptTime100ns.toNat

def encodeBatch (batch : BrokerBatch) : Except ProtocolError (List UInt8) := do
  let bodyLen ← okOr .payloadTooLarge (checkedMul batch.events.length eventSize)
  let totalLen ← okOr .payloadTooLarge (checkedAdd batchPrefixSize bodyLen)
  if totalLen > maxPayload then .error .payloadTooLarge
  else .ok (bytes 4 batch.events.length ++ bytes 4 batch.dropped.toNat ++
    batch.events.flatMap encodeEvent)

-- The pieces of this size, without what is left of the bytes.
def chunksExact (size : Nat) : Nat → List UInt8 → List (List UInt8)
  | 0, _ => []
  | count + 1, buf => buf.take size :: chunksExact size count (buf.drop size)

def decodeEvent (chunk : List UInt8) : Except ProtocolError BrokerEvent :=
  if UInt16.ofNat (valueAt chunk 0 2) ≠ version then .error .versionMismatch
  else .ok {
    kind := UInt16.ofNat (valueAt chunk 2 2)
    sequence := UInt32.ofNat (valueAt chunk 4 4)
    nonce := UInt64.ofNat (valueAt chunk 8 8)
    makeCode := UInt16.ofNat (valueAt chunk 16 2)
    flags := UInt16.ofNat (valueAt chunk 18 2)
    extraInformation := UInt32.ofNat (valueAt chunk 20 4)
    interruptTime100ns := UInt64.ofNat (valueAt chunk 24 8) }

def decodeEvents : List (List UInt8) → Except ProtocolError (List BrokerEvent)
  | [] => .ok []
  | chunk :: rest => do
      let event ← decodeEvent chunk
      let events ← decodeEvents rest
      return event :: events

def decodeBatch (buf : List UInt8) : Except ProtocolError BrokerBatch :=
  if buf.length < batchPrefixSize then .error .malformedBatch
  else do
    let count := valueAt buf 0 4
    let dropped := UInt32.ofNat (valueAt buf 4 4)
    let body ← okOr .malformedBatch (checkedMul count eventSize)
    let expected ← okOr .malformedBatch (checkedAdd batchPrefixSize body)
    if buf.length ≠ expected ∨ buf.length > maxPayload then .error .malformedBatch
    else
      let chunks := chunksExact eventSize ((buf.length - batchPrefixSize) / eventSize)
        (buf.drop batchPrefixSize)
      let events ← decodeEvents chunks
      return ⟨dropped, events⟩

section Canonicity

theorem value_bytes16 (n : UInt16) : UInt16.ofNat (LittleEndian.value (bytes 2 n.toNat)) = n := by
  rw [LittleEndian.value_bytes, Nat.mod_eq_of_lt (show n.toNat < 256 ^ 2 from n.toNat_lt),
    UInt16.ofNat_toNat]

theorem value_bytes32 (n : UInt32) : UInt32.ofNat (LittleEndian.value (bytes 4 n.toNat)) = n := by
  rw [LittleEndian.value_bytes, Nat.mod_eq_of_lt (show n.toNat < 256 ^ 4 from n.toNat_lt),
    UInt32.ofNat_toNat]

theorem value_bytes64 (n : UInt64) : UInt64.ofNat (LittleEndian.value (bytes 8 n.toNat)) = n := by
  rw [LittleEndian.value_bytes, Nat.mod_eq_of_lt (show n.toNat < 256 ^ 8 from n.toNat_lt),
    UInt64.ofNat_toNat]

@[simp] theorem length_encodeEvent (event : BrokerEvent) :
    (encodeEvent event).length = eventSize := by
  simp [encodeEvent, eventSize]

theorem decodeEvent_encodeEvent (event : BrokerEvent) :
    decodeEvent (encodeEvent event) = .ok event := by
  -- Each field is where it was written.
  have same : UInt16.ofNat (valueAt (encodeEvent event) 0 2) = version := value_bytes16 version
  have kind : UInt16.ofNat (valueAt (encodeEvent event) 2 2) = event.kind := value_bytes16 _
  have sequence : UInt32.ofNat (valueAt (encodeEvent event) 4 4) = event.sequence :=
    value_bytes32 _
  have nonce : UInt64.ofNat (valueAt (encodeEvent event) 8 8) = event.nonce := value_bytes64 _
  have makeCode : UInt16.ofNat (valueAt (encodeEvent event) 16 2) = event.makeCode :=
    value_bytes16 _
  have flags : UInt16.ofNat (valueAt (encodeEvent event) 18 2) = event.flags := value_bytes16 _
  have extra : UInt32.ofNat (valueAt (encodeEvent event) 20 4) = event.extraInformation :=
    value_bytes32 _
  have time : UInt64.ofNat (valueAt (encodeEvent event) 24 8) = event.interruptTime100ns :=
    value_bytes64 _
  rw [decodeEvent, if_neg (not_not.mpr same), kind, sequence, nonce, makeCode, flags, extra, time]

theorem encodeEvent_decodeEvent {chunk : List UInt8} (whole : chunk.length = eventSize)
    {event : BrokerEvent} (decoded : decodeEvent chunk = .ok event) :
    chunk = encodeEvent event := by
  rw [decodeEvent] at decoded
  split_ifs at decoded with other
  obtain rfl := Except.ok.inj decoded
  have half (first : Nat) (inside : first + 2 ≤ chunk.length) :
      (UInt16.ofNat (valueAt chunk first 2)).toNat = valueAt chunk first 2 :=
    UInt16.toNat_ofNat_of_lt' (LittleEndian.valueAt_lt chunk first 2 inside)
  have word (first : Nat) (inside : first + 4 ≤ chunk.length) :
      (UInt32.ofNat (valueAt chunk first 4)).toNat = valueAt chunk first 4 :=
    UInt32.toNat_ofNat_of_lt' (LittleEndian.valueAt_lt chunk first 4 inside)
  have long (first : Nat) (inside : first + 8 ≤ chunk.length) :
      (UInt64.ofNat (valueAt chunk first 8)).toNat = valueAt chunk first 8 :=
    UInt64.toNat_ofNat_of_lt' (LittleEndian.valueAt_lt chunk first 8 inside)
  have next (first width : Nat) (inside : first + width ≤ chunk.length) :
      chunk.drop first = bytes width (valueAt chunk first width) ++ chunk.drop (first + width) :=
    (LittleEndian.bytes_valueAt_append chunk first width inside).symm
  rw [eventSize] at whole
  have none_left : chunk.drop 32 = [] := List.drop_of_length_le whole.le
  have same : version.toNat = valueAt chunk 0 2 := by rw [← not_not.mp other, half 0 (by omega)]
  rw [encodeEvent, same, half 2 (by omega), word 4 (by omega), long 8 (by omega),
    half 16 (by omega), half 18 (by omega), word 20 (by omega), long 24 (by omega)]
  calc chunk = chunk.drop 0 := rfl
    _ = _ := by
      rw [next 0 2 (by omega), next 2 2 (by omega), next 4 4 (by omega), next 8 8 (by omega),
        next 16 2 (by omega), next 18 2 (by omega), next 20 4 (by omega), next 24 8 (by omega),
        none_left]
      simp only [List.append_assoc, List.append_nil]

theorem decodeEvent_eq_ok_iff {chunk : List UInt8} (whole : chunk.length = eventSize)
    {event : BrokerEvent} : decodeEvent chunk = .ok event ↔ chunk = encodeEvent event := by
  constructor
  · exact encodeEvent_decodeEvent whole
  · rintro rfl
    exact decodeEvent_encodeEvent event

theorem decodeEvents_cons_eq_ok_iff {chunk : List UInt8} {rest : List (List UInt8)}
    {events : List BrokerEvent} :
    decodeEvents (chunk :: rest) = .ok events ↔
      ∃ event later, decodeEvent chunk = .ok event ∧ decodeEvents rest = .ok later ∧
        events = event :: later := by
  rw [decodeEvents]
  cases decodeEvent chunk with
  | error error => simp [Bind.bind, Except.bind]
  | ok event =>
    cases decodeEvents rest with
    | error error => simp [Bind.bind, Except.bind]
    | ok later => simp [Bind.bind, Except.bind, Pure.pure, Except.pure, eq_comm]

theorem decodeEvents_eq_ok_iff {count : Nat} {body : List UInt8}
    (whole : body.length = count * eventSize) {events : List BrokerEvent} :
    decodeEvents (chunksExact eventSize count body) = .ok events ↔
      events.length = count ∧ body = events.flatMap encodeEvent := by
  induction count generalizing body events with
  | zero =>
    have empty : body = [] := List.eq_nil_of_length_eq_zero (by rw [whole, Nat.zero_mul])
    subst empty
    rw [chunksExact, decodeEvents]
    constructor
    · intro decoded
      obtain rfl := Except.ok.inj decoded
      exact ⟨rfl, rfl⟩
    · rintro ⟨none_, -⟩
      rw [List.eq_nil_of_length_eq_zero none_]
  | succ count ih =>
    rw [eventSize] at whole
    have first : (body.take eventSize).length = eventSize := by
      rw [List.length_take, eventSize]
      omega
    have rest : (body.drop eventSize).length = count * eventSize := by
      rw [List.length_drop, eventSize]
      omega
    simp only [chunksExact, decodeEvents_cons_eq_ok_iff, decodeEvent_eq_ok_iff first, ih rest]
    constructor
    · rintro ⟨event, later, head, ⟨length, tail⟩, rfl⟩
      refine ⟨by rw [List.length_cons, length], ?_⟩
      rw [List.flatMap_cons, ← head, ← tail, List.take_append_drop]
    · rintro ⟨length, same⟩
      cases events with
      | nil => simp at length
      | cons event later =>
        refine ⟨event, later, ?_, ⟨by simpa using length, ?_⟩, rfl⟩
        · rw [same, List.flatMap_cons]
          exact List.take_left' (length_encodeEvent event)
        · rw [same, List.flatMap_cons]
          exact List.drop_left' (length_encodeEvent event)

theorem okOr_checkedMul {error : ProtocolError} {count : Nat} (small : count * 32 < 2 ^ 64) :
    okOr error (checkedMul count eventSize) = .ok (count * 32) := by
  rw [checkedMul, if_pos small, okOr]

theorem okOr_checkedAdd {error : ProtocolError} {body : Nat} (small : 8 + body < 2 ^ 64) :
    okOr error (checkedAdd batchPrefixSize body) = .ok (8 + body) := by
  rw [checkedAdd, if_pos small, okOr]

theorem encodeBatch_eq_ok_iff {batch : BrokerBatch} {buf : List UInt8} :
    encodeBatch batch = .ok buf ↔ 8 + batch.events.length * 32 ≤ 65536 ∧
      buf = bytes 4 batch.events.length ++ bytes 4 batch.dropped.toNat ++
        batch.events.flatMap encodeEvent := by
  by_cases fits : 8 + batch.events.length * 32 ≤ 65536
  · rw [encodeBatch, okOr_checkedMul (by omega)]
    simp only [Bind.bind, Except.bind, maxPayload]
    rw [okOr_checkedAdd (by omega)]
    simp only
    rw [if_neg (by omega), Except.ok.injEq]
    exact ⟨fun same => ⟨fits, same.symm⟩, fun both => both.2.symm⟩
  · refine iff_of_false ?_ fun both => fits both.1
    intro encoded
    rw [encodeBatch] at encoded
    by_cases body : batch.events.length * 32 < 2 ^ 64
    · rw [okOr_checkedMul body] at encoded
      simp only [Bind.bind, Except.bind, maxPayload] at encoded
      by_cases total : 8 + batch.events.length * 32 < 2 ^ 64
      · rw [okOr_checkedAdd total] at encoded
        simp only at encoded
        rw [if_pos (by omega)] at encoded
        exact nomatch encoded
      · rw [checkedAdd, if_neg total, okOr] at encoded
        exact nomatch encoded
    · rw [checkedMul, if_neg body, okOr] at encoded
      exact nomatch encoded

theorem decodeBatch_eq_ok_iff {buf : List UInt8} {batch : BrokerBatch} :
    decodeBatch buf = .ok batch ↔ buf.length = 8 + valueAt buf 0 4 * 32 ∧
      buf.length ≤ 65536 ∧ batch.dropped = UInt32.ofNat (valueAt buf 4 4) ∧
        decodeEvents (chunksExact eventSize (valueAt buf 0 4) (buf.drop 8)) = .ok batch.events := by
  rw [decodeBatch]
  by_cases short : buf.length < 8
  · rw [if_pos short]
    exact iff_of_false (fun ok => nomatch ok) fun all => by omega
  · have count := LittleEndian.valueAt_lt buf 0 4 (by omega)
    rw [if_neg short]
    simp only
    rw [okOr_checkedMul (by omega)]
    simp only [Bind.bind, Except.bind, maxPayload]
    rw [okOr_checkedAdd (by omega)]
    simp only
    by_cases whole : buf.length = 8 + valueAt buf 0 4 * 32 ∧ buf.length ≤ 65536
    · have chunks : (buf.length - 8) / 32 = valueAt buf 0 4 := by omega
      rw [if_neg (by omega), chunks]
      cases decodeEvents (chunksExact 32 (valueAt buf 0 4) (buf.drop 8)) with
      | error error => simp
      | ok events =>
        obtain ⟨dropped, own⟩ := batch
        simp [Pure.pure, Except.pure, whole.2, ← whole.1, eq_comm]
    · rw [if_pos (by omega)]
      exact iff_of_false (fun ok => nomatch ok) fun all => whole ⟨all.1, all.2.1⟩

theorem decodeBatch_iff_encodeBatch {buf : List UInt8} {batch : BrokerBatch} :
    decodeBatch buf = .ok batch ↔ encodeBatch batch = .ok buf := by
  rw [encodeBatch_eq_ok_iff, decodeBatch_eq_ok_iff]
  constructor
  · rintro ⟨length, fits, dropped, decoded⟩
    have rest : (buf.drop 8).length = valueAt buf 0 4 * eventSize := by
      rw [List.length_drop, eventSize]
      omega
    obtain ⟨count, same⟩ := (decodeEvents_eq_ok_iff rest).mp decoded
    have small := LittleEndian.valueAt_lt buf 4 4 (by omega)
    refine ⟨by omega, ?_⟩
    rw [← same, count, dropped, UInt32.toNat_ofNat_of_lt' small, List.append_assoc,
      LittleEndian.bytes_valueAt_append buf 4 4 (by omega)]
    exact (LittleEndian.bytes_valueAt_append buf 0 4 (by omega)).symm
  · rintro ⟨fits, same⟩
    have count : valueAt buf 0 4 = batch.events.length := by
      rw [same, List.append_assoc]
      exact LittleEndian.valueAt_bytes 4 _ _ (by omega)
    have dropped : UInt32.ofNat (valueAt buf 4 4) = batch.dropped := by
      rw [same]
      exact value_bytes32 batch.dropped
    have body : buf.drop 8 = batch.events.flatMap encodeEvent := by
      rw [same]
      exact List.drop_left' (by simp)
    have length : buf.length = 8 + batch.events.length * 32 := by
      have whole : (batch.events.flatMap encodeEvent).length = batch.events.length * 32 := by
        simp [List.length_flatMap]
      rw [same, List.length_append, whole]
      simp
    have rest : (buf.drop 8).length = batch.events.length * eventSize := by
      rw [List.length_drop, eventSize]
      omega
    rw [count]
    exact ⟨length, by omega, dropped.symm, (decodeEvents_eq_ok_iff rest).mpr ⟨rfl, body⟩⟩

/-- A byte string decodes to a batch exactly if the batch encodes to it; no other one does. -/
theorem batch_canonical (buf : List UInt8) (batch : BrokerBatch) :
    (decodeBatch buf = .ok batch ↔ encodeBatch batch = .ok buf) ∧
      ∀ other, decodeBatch buf = .ok batch → decodeBatch other = .ok batch → buf = other := by
  refine ⟨decodeBatch_iff_encodeBatch, fun other first second => ?_⟩
  have same := (decodeBatch_iff_encodeBatch.mp first).symm.trans
    (decodeBatch_iff_encodeBatch.mp second)
  exact Except.ok.inj same

end Canonicity

end BatchCodec

end BetterParsec
