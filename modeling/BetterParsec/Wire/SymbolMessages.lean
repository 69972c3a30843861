import BetterParsec.Wire.Chunks

set_option autoImplicit false
set_option linter.all false

/-!
# Symbol messages

The messages of the `video_fec` channel: version 1 symbols, and version 2
symbols, which carry the stream epoch, the payload length and its checksum.
-/

namespace BetterParsec

def fecMsgMax : Nat := 1200

def v2SourcePayloadMax : Nat := 1185

def v2RepairPayloadMax : Nat := 1200

def v2RepairMsgMax : Nat := 1221

def v2SourceHeaderLen : Nat := 15

def v2RepairHeaderLen : Nat := 21

structure Epoch where
  get : UInt32
  nonzero : get ≠ 0
  deriving DecidableEq

def Epoch.new (value : UInt32) : Option Epoch :=
  if nonzero : value ≠ 0 then some ⟨value, nonzero⟩ else none

theorem Epoch.new_get (epoch : Epoch) : Epoch.new epoch.get = some epoch := by
  rw [Epoch.new, dif_pos epoch.nonzero]

theorem Epoch.get_new {value : UInt32} {epoch : Epoch} (entered : Epoch.new value = some epoch) :
    epoch.get = value := by
  unfold Epoch.new at entered
  split_ifs at entered
  cases entered
  rfl

inductive V2Symbol where
  | source (epoch : Epoch) (seq : UInt32) (payload : Payload)
  | repair (epoch : Epoch) (repairSeq : UInt16) (windowBase windowEnd : UInt32) (payload : Payload)
  deriving DecidableEq

inductive ParsedSymbolMsg where
  | v1 (symbol : Symbol)
  | v2 (symbol : V2Symbol)
  deriving DecidableEq

-- Payload length, payload checksum and payload: the tail of both version 2 kinds.
def v2Tail (payload : Payload) : List UInt8 :=
  leU16 (UInt16.ofNat payload.length) ++ leU32 (ieeeCrc32 payload) ++ payload

def encodeSymbolMsg : Symbol → List UInt8
  | .source seq payload => 0 :: (leU32 seq ++ payload)
  | .repair repairSeq windowBase windowEnd payload =>
      1 :: (leU16 repairSeq ++ leU32 windowBase ++ leU32 windowEnd ++ payload)

def encodeSymbolMsgV2 : V2Symbol → Except FecWireError (List UInt8)
  | .source epoch seq payload =>
      if payload.length > v2SourcePayloadMax then .error .oversize
      else .ok (2 :: (leU32 epoch.get ++ leU32 seq ++ v2Tail payload))
  | .repair epoch repairSeq windowBase windowEnd payload =>
      if payload.length > v2RepairPayloadMax then .error .oversize
      else .ok (3 :: (leU32 epoch.get ++ leU16 repairSeq ++ leU32 windowBase ++ leU32 windowEnd ++
        v2Tail payload))

def parseV2Source (buf : List UInt8) : Except FecWireError V2Symbol :=
  if buf.length < v2SourceHeaderLen then .error .truncated
  else if buf.length > fecMsgMax then .error .oversize
  else
    match Epoch.new (u32At buf 1) with
    | none => .error .invalidEpoch
    | some epoch =>
        let len := (u16At buf 9).toNat
        let payload := buf.drop v2SourceHeaderLen
        if len > v2SourcePayloadMax ∨ buf.length ≠ v2SourceHeaderLen + len then
          .error .invalidLength
        else if ieeeCrc32 payload ≠ u32At buf 11 then .error .crcMismatch
        else .ok (.source epoch (u32At buf 5) payload)

def parseV2Repair (buf : List UInt8) : Except FecWireError V2Symbol :=
  if buf.length < v2RepairHeaderLen then .error .truncated
  else if buf.length > v2RepairMsgMax then .error .oversize
  else
    match Epoch.new (u32At buf 1) with
    | none => .error .invalidEpoch
    | some epoch =>
        let len := (u16At buf 15).toNat
        let payload := buf.drop v2RepairHeaderLen
        if len > v2RepairPayloadMax ∨ buf.length ≠ v2RepairHeaderLen + len then
          .error .invalidLength
        else if ieeeCrc32 payload ≠ u32At buf 17 then .error .crcMismatch
        else .ok (.repair epoch (u16At buf 5) (u32At buf 7) (u32At buf 11) payload)

def parseSymbolMsgVersioned (buf : List UInt8) : Except FecWireError ParsedSymbolMsg :=
  match buf with
  | [] => .error .empty
  | kind :: _ =>
      if kind = 0 then
        if buf.length < 5 then .error .truncated
        else .ok (.v1 (.source (u32At buf 1) (buf.drop 5)))
      else if kind = 1 then
        if buf.length < 11 then .error .truncated
        else .ok (.v1 (.repair (u16At buf 1) (u32At buf 3) (u32At buf 7) (buf.drop 11)))
      else if kind = 2 then (parseV2Source buf).map .v2
      else if kind = 3 then (parseV2Repair buf).map .v2
      else .error (.unknownKind kind)

@[simp] theorem length_v2Tail (payload : Payload) :
    (v2Tail payload).length = 6 + payload.length := by
  simp only [v2Tail, List.length_append, length_leU16, length_leU32]

/-- What a parser reads of a tail behind a header of `before`. -/
theorem v2Tail_read (before : List UInt8) (count : UInt16) (crc : UInt32) (payload : Payload) :
    u16At (before ++ (leU16 count ++ leU32 crc ++ payload)) before.length = count ∧
      u32At (before ++ (leU16 count ++ leU32 crc ++ payload)) (before.length + 2) = crc ∧
      (before ++ (leU16 count ++ leU32 crc ++ payload)).drop (before.length + 6) = payload := by
  have rest : (leU16 count ++ leU32 crc ++ payload).drop 6 = payload := by
    apply List.drop_left'
    simp
  refine ⟨?_, ?_, ?_⟩
  · simp
  · simp
  · rw [← List.drop_drop, List.drop_left, rest]

theorem parseV2Source_tail (epoch : Epoch) (seq : UInt32) (count : UInt16) (crc : UInt32)
    (payload : Payload) (counted : count.toNat = payload.length)
    (fits : payload.length ≤ v2SourcePayloadMax) :
    parseV2Source
        (2 :: (leU32 epoch.get ++ leU32 seq ++ (leU16 count ++ leU32 crc ++ payload))) =
      if ieeeCrc32 payload ≠ crc then .error .crcMismatch else .ok (.source epoch seq payload) := by
  simp only [v2SourcePayloadMax] at fits
  let head := leU32 epoch.get ++ leU32 seq
  let rest := leU16 count ++ leU32 crc ++ payload
  have tail := v2Tail_read (2 :: head) count crc payload
  have header : (2 :: head).length = 9 := by simp [head]
  have fields : u32At (2 :: (head ++ rest)) 1 = epoch.get ∧
      u32At (2 :: (head ++ rest)) 5 = seq := by simp [head]
  have length : (2 :: (head ++ rest)).length = 15 + payload.length := by
    simp [head, rest]
    omega
  rw [header, List.cons_append] at tail
  change parseV2Source (2 :: (head ++ rest)) = _
  simp only [parseV2Source, v2SourceHeaderLen, fecMsgMax, v2SourcePayloadMax, length, fields, rest,
    tail, counted, Epoch.new_get]
  rw [if_neg (by omega), if_neg (by omega), if_neg (by omega)]

theorem parseV2Repair_tail (epoch : Epoch) (repairSeq : UInt16) (windowBase windowEnd : UInt32)
    (count : UInt16) (crc : UInt32) (payload : Payload) (counted : count.toNat = payload.length)
    (fits : payload.length ≤ v2RepairPayloadMax) :
    parseV2Repair (3 :: (leU32 epoch.get ++ leU16 repairSeq ++ leU32 windowBase ++
        leU32 windowEnd ++ (leU16 count ++ leU32 crc ++ payload))) =
      if ieeeCrc32 payload ≠ crc then .error .crcMismatch
      else .ok (.repair epoch repairSeq windowBase windowEnd payload) := by
  simp only [v2RepairPayloadMax] at fits
  let head := leU32 epoch.get ++ leU16 repairSeq ++ leU32 windowBase ++ leU32 windowEnd
  let rest := leU16 count ++ leU32 crc ++ payload
  have tail := v2Tail_read (3 :: head) count crc payload
  have header : (3 :: head).length = 15 := by simp [head]
  have fields : u32At (3 :: (head ++ rest)) 1 = epoch.get ∧
      u16At (3 :: (head ++ rest)) 5 = repairSeq ∧
      u32At (3 :: (head ++ rest)) 7 = windowBase ∧
      u32At (3 :: (head ++ rest)) 11 = windowEnd := by simp [head]
  have length : (3 :: (head ++ rest)).length = 21 + payload.length := by
    simp [head, rest]
    omega
  rw [header, List.cons_append] at tail
  change parseV2Repair (3 :: (head ++ rest)) = _
  simp only [parseV2Repair, v2RepairHeaderLen, v2RepairMsgMax, v2RepairPayloadMax, length, fields,
    rest, tail, counted, Epoch.new_get]
  rw [if_neg (by omega), if_neg (by omega), if_neg (by omega)]

theorem parseV2Source_bytes (epoch : Epoch) (seq : UInt32) (payload : Payload)
    (fits : payload.length ≤ v2SourcePayloadMax) :
    parseV2Source (2 :: (leU32 epoch.get ++ leU32 seq ++ v2Tail payload)) =
      .ok (.source epoch seq payload) := by
  have counted : (UInt16.ofNat payload.length).toNat = payload.length :=
    UInt16.toNat_ofNat_of_lt' (Nat.lt_of_le_of_lt fits (by decide))
  rw [v2Tail, parseV2Source_tail epoch seq _ _ payload counted fits, if_neg (fun other => other rfl)]

theorem parseV2Repair_bytes (epoch : Epoch) (repairSeq : UInt16) (windowBase windowEnd : UInt32)
    (payload : Payload) (fits : payload.length ≤ v2RepairPayloadMax) :
    parseV2Repair (3 :: (leU32 epoch.get ++ leU16 repairSeq ++ leU32 windowBase ++
      leU32 windowEnd ++ v2Tail payload)) =
      .ok (.repair epoch repairSeq windowBase windowEnd payload) := by
  have counted : (UInt16.ofNat payload.length).toNat = payload.length :=
    UInt16.toNat_ofNat_of_lt' (Nat.lt_of_le_of_lt fits (by decide))
  rw [v2Tail, parseV2Repair_tail epoch repairSeq windowBase windowEnd _ _ payload counted fits,
    if_neg (fun other => other rfl)]

/-- A version 2 symbol that could be encoded is parsed back. -/
theorem parseSymbolMsgVersioned_encode (symbol : V2Symbol) (buf : List UInt8)
    (encoded : encodeSymbolMsgV2 symbol = .ok buf) :
    parseSymbolMsgVersioned buf = .ok (.v2 symbol) := by
  cases symbol with
  | source epoch seq payload =>
    simp only [encodeSymbolMsgV2] at encoded
    split at encoded
    · contradiction
    · rename_i fits
      cases encoded
      have parsed := parseV2Source_bytes epoch seq payload (by omega)
      simp only [parseSymbolMsgVersioned, parsed]
      rfl
  | repair epoch repairSeq windowBase windowEnd payload =>
    simp only [encodeSymbolMsgV2] at encoded
    split at encoded
    · contradiction
    · rename_i fits
      cases encoded
      have parsed := parseV2Repair_bytes epoch repairSeq windowBase windowEnd payload (by omega)
      simp only [parseSymbolMsgVersioned, parsed]
      rfl

theorem parseSymbolMsgVersioned_encodeSymbolMsg (symbol : Symbol) :
    parseSymbolMsgVersioned (encodeSymbolMsg symbol) = .ok (.v1 symbol) := by
  cases symbol with
  | source seq payload =>
    have rest : (leU32 seq ++ payload).drop 4 = payload := List.drop_left' (length_leU32 seq)
    simp [encodeSymbolMsg, parseSymbolMsgVersioned, rest]
  | repair repairSeq windowBase windowEnd payload =>
    have rest : (leU16 repairSeq ++ leU32 windowBase ++ leU32 windowEnd ++ payload).drop 10 =
        payload := by
      apply List.drop_left'
      simp
    simp only [List.append_assoc] at rest
    simp [encodeSymbolMsg, parseSymbolMsgVersioned, rest]
    omega

/-- A tail whose length and checksum were accepted is what the encoder writes. -/
theorem v2Tail_drop (buf : List UInt8) (first : Nat)
    (length : buf.length = first + 6 + (u16At buf first).toNat)
    (crc : ieeeCrc32 (buf.drop (first + 6)) = u32At buf (first + 2)) :
    v2Tail (buf.drop (first + 6)) = buf.drop first := by
  have counted : UInt16.ofNat (buf.drop (first + 6)).length = u16At buf first := by
    rw [List.length_drop, length, Nat.add_sub_cancel_left, UInt16.ofNat_toNat]
  rw [v2Tail, counted, crc, List.append_assoc, leU32_u32At_append (first + 2) buf (by omega),
    leU16_u16At_append first buf (by omega)]

theorem encode_parseV2Source (rest : List UInt8) (symbol : V2Symbol)
    (parsed : parseV2Source (2 :: rest) = .ok symbol) :
    encodeSymbolMsgV2 symbol = .ok (2 :: rest) := by
  unfold parseV2Source at parsed
  split_ifs at parsed with short long
  cases entered : Epoch.new (u32At (2 :: rest) 1) with
  | none => simp only [entered, reduceCtorEq] at parsed
  | some epoch =>
    simp only [entered] at parsed
    split_ifs at parsed with length crc
    cases parsed
    push Not at length crc
    simp only [v2SourceHeaderLen, v2SourcePayloadMax] at short length crc
    have value := Epoch.get_new entered
    have fits : ¬ ((2 :: rest).drop v2SourceHeaderLen).length > v2SourcePayloadMax := by
      rw [List.length_drop]
      simp only [v2SourceHeaderLen, v2SourcePayloadMax]
      omega
    rw [encodeSymbolMsgV2, if_neg fits, value, v2SourceHeaderLen,
      v2Tail_drop (2 :: rest) 9 length.2 crc, List.append_assoc,
      leU32_u32At_append 5 (2 :: rest) (by omega), leU32_u32At_append 1 (2 :: rest) (by omega)]
    rfl

theorem encode_parseV2Repair (rest : List UInt8) (symbol : V2Symbol)
    (parsed : parseV2Repair (3 :: rest) = .ok symbol) :
    encodeSymbolMsgV2 symbol = .ok (3 :: rest) := by
  unfold parseV2Repair at parsed
  split_ifs at parsed with short long
  cases entered : Epoch.new (u32At (3 :: rest) 1) with
  | none => simp only [entered, reduceCtorEq] at parsed
  | some epoch =>
    simp only [entered] at parsed
    split_ifs at parsed with length crc
    cases parsed
    push Not at length crc
    simp only [v2RepairHeaderLen, v2RepairPayloadMax] at short length crc
    have value := Epoch.get_new entered
    have fits : ¬ ((3 :: rest).drop v2RepairHeaderLen).length > v2RepairPayloadMax := by
      rw [List.length_drop]
      simp only [v2RepairHeaderLen, v2RepairPayloadMax]
      omega
    rw [encodeSymbolMsgV2, if_neg fits, value, v2RepairHeaderLen,
      v2Tail_drop (3 :: rest) 15 length.2 crc]
    simp only [List.append_assoc]
    rw [leU32_u32At_append 11 (3 :: rest) (by omega), leU32_u32At_append 7 (3 :: rest) (by omega),
      leU16_u16At_append 5 (3 :: rest) (by omega), leU32_u32At_append 1 (3 :: rest) (by omega)]
    rfl

/-- Whatever a message parses to is encoded as that very message. -/
theorem encode_parseSymbolMsgVersioned (buf : List UInt8) (message : ParsedSymbolMsg)
    (parsed : parseSymbolMsgVersioned buf = .ok message) :
    (∀ symbol, message = .v1 symbol → encodeSymbolMsg symbol = buf) ∧
      ∀ symbol, message = .v2 symbol → encodeSymbolMsgV2 symbol = .ok buf := by
  cases buf with
  | nil => simp [parseSymbolMsgVersioned] at parsed
  | cons kind rest =>
    simp only [parseSymbolMsgVersioned] at parsed
    split_ifs at parsed with source short repair short v2Source v2Repair
    · cases parsed
      refine ⟨fun symbol same => ?_, by simp⟩
      cases same
      rw [encodeSymbolMsg, leU32_u32At_append 1 (kind :: rest) (by omega), source]
      rfl
    · cases parsed
      refine ⟨fun symbol same => ?_, by simp⟩
      cases same
      rw [encodeSymbolMsg]
      simp only [List.append_assoc]
      rw [leU32_u32At_append 7 (kind :: rest) (by omega),
        leU32_u32At_append 3 (kind :: rest) (by omega),
        leU16_u16At_append 1 (kind :: rest) (by omega), repair]
      rfl
    · subst v2Source
      cases inner : parseV2Source (2 :: rest) with
      | error fault => simp [inner, Except.map] at parsed
      | ok symbol =>
        simp only [inner, Except.map] at parsed
        cases parsed
        refine ⟨by simp, fun other same => ?_⟩
        cases same
        exact encode_parseV2Source rest symbol inner
    · subst v2Repair
      cases inner : parseV2Repair (3 :: rest) with
      | error fault => simp [inner, Except.map] at parsed
      | ok symbol =>
        simp only [inner, Except.map] at parsed
        cases parsed
        refine ⟨by simp, fun other same => ?_⟩
        cases same
        exact encode_parseV2Repair rest symbol inner

/-- Encoders and parsers of symbols and of version 2 chunks are inverse to each other, so every
accepted message has exactly one meaning and every meaning exactly one message. -/
theorem symbol_messages_canonical :
    (∀ symbol buf, encodeSymbolMsgV2 symbol = .ok buf →
      parseSymbolMsgVersioned buf = .ok (.v2 symbol)) ∧
    (∀ symbol, parseSymbolMsgVersioned (encodeSymbolMsg symbol) = .ok (.v1 symbol)) ∧
    (∀ buf symbol, parseSymbolMsgVersioned buf = .ok (.v1 symbol) →
      encodeSymbolMsg symbol = buf) ∧
    (∀ buf symbol, parseSymbolMsgVersioned buf = .ok (.v2 symbol) →
      encodeSymbolMsgV2 symbol = .ok buf) ∧
    ∀ buf header fragment, parseChunkV2 buf = .ok (header, fragment) ↔
      encodeChunkV2 header fragment = .ok buf := by
  refine ⟨parseSymbolMsgVersioned_encode, parseSymbolMsgVersioned_encodeSymbolMsg, ?_, ?_, ?_⟩
  · intro buf symbol parsed
    exact (encode_parseSymbolMsgVersioned buf _ parsed).1 symbol rfl
  · intro buf symbol parsed
    exact (encode_parseSymbolMsgVersioned buf _ parsed).2 symbol rfl
  · intro buf header fragment
    exact parseChunkV2_iff buf fragment header

end BetterParsec
