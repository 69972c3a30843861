import BetterParsec.Wire.SymbolMessages

set_option autoImplicit false
set_option linter.all false

/-!
# Control messages

The messages of the `video_fec_ack` channel. A version 1 ACK is a bare sequence
number; version 2 messages start with one of three reserved kinds, and the one
parser for both never reads a reserved kind as an ACK.
-/

namespace BetterParsec

inductive AckMsg where
  | subscribe
  | needsIdr
  | ack (seq : UInt32)
  deriving DecidableEq

inductive V2ControlMsg where
  | subscribe (epoch : Epoch)
  | ack (epoch : Epoch) (highestSeq : UInt32)
  | needsIdr (epoch : Epoch) (reason : UInt8)
  deriving DecidableEq

inductive ParsedControlMsg where
  | v1 (msg : AckMsg)
  | v2 (msg : V2ControlMsg)
  deriving DecidableEq

def encodeAckMsg : AckMsg → List UInt8
  | .subscribe => [0x01]
  | .needsIdr => [0x00]
  | .ack seq => leU32 seq

def encodeControlMsgV2 : V2ControlMsg → List UInt8
  | .subscribe epoch => 0x82 :: leU32 epoch.get
  | .ack epoch highestSeq => 0x81 :: (leU32 epoch.get ++ leU32 highestSeq)
  | .needsIdr epoch reason => 0x80 :: (leU32 epoch.get ++ [reason])

-- A version 2 control whose body has exactly `width` bytes, an epoch first.
def parseV2Control (width : Nat) (build : Epoch → V2ControlMsg) (body : List UInt8) :
    Except FecWireError ParsedControlMsg :=
  if body.length < width then .error .truncated
  else if body.length > width then .error .invalidLength
  else
    match Epoch.new (u32At body 0) with
    | none => .error .invalidEpoch
    | some epoch => .ok (.v2 (build epoch))

def parseControlMsg : List UInt8 → Except FecWireError ParsedControlMsg
  | [] => .error .empty
  | kind :: body =>
      if kind = 0x80 then parseV2Control 5 (fun epoch => .needsIdr epoch (body.getD 4 0)) body
      else if kind = 0x81 then parseV2Control 8 (fun epoch => .ack epoch (u32At body 4)) body
      else if kind = 0x82 then parseV2Control 4 .subscribe body
      else if kind = 0x00 && body = [] then .ok (.v1 .needsIdr)
      else if kind = 0x01 && body = [] then .ok (.v1 .subscribe)
      else if body.length = 3 then .ok (.v1 (.ack (u32At (kind :: body) 0)))
      else .error (.unknownKind kind)

theorem parseV2Control_bytes (epoch : Epoch) (rest : List UInt8)
    (build : Epoch → V2ControlMsg) :
    parseV2Control (4 + rest.length) build (leU32 epoch.get ++ rest) = .ok (.v2 (build epoch)) := by
  have length : (leU32 epoch.get ++ rest).length = 4 + rest.length := by simp
  rw [parseV2Control, if_neg (by omega), if_neg (by omega), u32At_leU32, Epoch.new_get]

theorem parseControlMsg_encodeV2 (msg : V2ControlMsg) :
    parseControlMsg (encodeControlMsgV2 msg) = .ok (.v2 msg) := by
  cases msg with
  | subscribe epoch =>
    have body := parseV2Control_bytes epoch [] .subscribe
    rw [List.append_nil] at body
    simpa [encodeControlMsgV2, parseControlMsg] using body
  | ack epoch highestSeq =>
    have body := parseV2Control_bytes epoch (leU32 highestSeq) (.ack · highestSeq)
    have field := u32At_leU32 [] highestSeq
    rw [List.append_nil] at field
    simpa [encodeControlMsgV2, parseControlMsg, field] using body
  | needsIdr epoch reason =>
    have body := parseV2Control_bytes epoch [reason] (.needsIdr · reason)
    simpa [encodeControlMsgV2, parseControlMsg] using body

-- The first byte of a version 1 message is a version 2 kind.
def AckMsg.reserved : AckMsg → Bool
  | .ack seq => 0x80 ≤ seq.toNat % 256 && seq.toNat % 256 ≤ 0x82
  | .subscribe | .needsIdr => false

theorem leU32_eq_cons (seq : UInt32) : ∃ (kind : UInt8) (body : List UInt8),
    leU32 seq = kind :: body ∧ kind.toNat = seq.toNat % 256 ∧ body.length = 3 :=
  ⟨UInt8.ofNat seq.toNat, _, rfl, by simp, LittleEndian.length_bytes 3 (seq.toNat / 256)⟩

theorem parseControlMsg_encodeAck (msg : AckMsg) :
    parseControlMsg (encodeAckMsg msg) =
      if msg.reserved then .error .truncated else .ok (.v1 msg) := by
  cases msg with
  | subscribe => rfl
  | needsIdr => rfl
  | ack seq =>
    obtain ⟨kind, body, bytes, low, short⟩ := leU32_eq_cons seq
    have field := u32At_leU32 [] seq
    rw [List.append_nil, bytes] at field
    have filled : body ≠ [] := by
      intro empty
      simp [empty] at short
    -- Three bytes are too few for each of the three reserved kinds.
    have few (width : Nat) (build : Epoch → V2ControlMsg) (wide : 3 < width) :
        parseV2Control width build body = .error .truncated := by
      rw [parseV2Control, if_pos (by omega)]
    have isKind (other : UInt8) : kind = other ↔ seq.toNat % 256 = other.toNat := by
      rw [← low, UInt8.toNat_inj]
    rw [encodeAckMsg, bytes, parseControlMsg, few 5 _ (by omega), few 8 _ (by omega),
      few 4 _ (by omega)]
    by_cases taken : 0x80 ≤ seq.toNat % 256 ∧ seq.toNat % 256 ≤ 0x82
    · have reserved : (AckMsg.ack seq).reserved := by simpa [AckMsg.reserved] using taken
      have kinds : kind = 0x80 ∨ kind = 0x81 ∨ kind = 0x82 := by
        rw [isKind, isKind, isKind]
        simp only [UInt8.reduceToNat]
        omega
      rw [if_pos reserved]
      obtain rfl | rfl | rfl := kinds <;> rfl
    · have free : ¬ (AckMsg.ack seq).reserved := by simpa [AckMsg.reserved] using taken
      have kinds : kind ≠ 0x80 ∧ kind ≠ 0x81 ∧ kind ≠ 0x82 := by
        rw [ne_eq, ne_eq, ne_eq, isKind, isKind, isKind]
        simp only [UInt8.reduceToNat]
        omega
      rw [if_neg free, if_neg kinds.1, if_neg kinds.2.1, if_neg kinds.2.2]
      simp [filled, short, field]

/-- Every version 2 control is read back, and so is every version 1 control except the ACKs whose
low byte is a version 2 kind; those are refused, never read as something else. -/
theorem control_messages_round_trip :
    (∀ msg : V2ControlMsg, parseControlMsg (encodeControlMsgV2 msg) = .ok (.v2 msg)) ∧
      (∀ msg : AckMsg, msg.reserved = false →
        parseControlMsg (encodeAckMsg msg) = .ok (.v1 msg)) ∧
      ∀ msg : AckMsg, msg.reserved → parseControlMsg (encodeAckMsg msg) = .error .truncated := by
  refine ⟨parseControlMsg_encodeV2, fun msg free => ?_, fun msg taken => ?_⟩
  · rw [parseControlMsg_encodeAck, free]
    rfl
  · rw [parseControlMsg_encodeAck, if_pos taken]

theorem ack_of_seq_128_refused :
    parseControlMsg (encodeAckMsg (.ack 0x80)) ≠ .ok (.v1 (.ack 0x80)) := by
  decide

end BetterParsec
