import BetterParsec.Wire.QuWire

set_option autoImplicit false
set_option linter.all false

/-!
# QU messages in the browser

`parseQuMessage` of `web/stream/video/qu_wire.ts` and where it agrees with the parser of
the streamer: it wants an invalidation to end with its last tile.
-/

namespace BetterParsec

open LittleEndian (bytes slice valueAt)
open QuWire (QuMsg)

namespace Web

namespace QuWire

-- The fields are numbers.
inductive QuMessage where
  | config (tileW tileH gridCols gridRows epoch : Nat)
  | tile (epoch col row format flags crc32Bgra : Nat) (payload : List UInt8)
  | invalidate (epoch : Nat) (tiles : List (Nat × Nat))
  | epoch (epoch : Nat)
  | subscribe (version : Nat)
  | budget (kbps : Nat)
  deriving DecidableEq

def getUint8 (view : List UInt8) (offset : Nat) : Nat := (view.getD offset 0).toNat

-- The loop over the tiles, with its running offset.
def readTiles (view : List UInt8) : Nat → Nat → List (Nat × Nat)
  | _, 0 => []
  | off, count + 1 => (valueAt view off 2, valueAt view (off + 2) 2) :: readTiles view (off + 4) count

def parseConfig (view : List UInt8) : Option QuMessage :=
  if view.length < 13 then none
  else some (.config (valueAt view 1 2) (valueAt view 3 2) (valueAt view 5 2) (valueAt view 7 2)
    (valueAt view 9 4))

def parseTile (view : List UInt8) : Option QuMessage :=
  if view.length < 19 then none
  else
    let payloadLen := valueAt view 15 4
    if view.length < 19 + payloadLen then none
    else some (.tile (valueAt view 1 4) (valueAt view 5 2) (valueAt view 7 2) (getUint8 view 9)
      (getUint8 view 10) (valueAt view 11 4) (slice view 19 payloadLen))

def parseInvalidate (view : List UInt8) : Option QuMessage :=
  if view.length < 7 then none
  else
    let count := valueAt view 5 2
    if view.length ≠ 7 + count * 4 then none
    else some (.invalidate (valueAt view 1 4) (readTiles view 7 count))

def parseEpoch (view : List UInt8) : Option QuMessage :=
  if view.length < 5 then none else some (.epoch (valueAt view 1 4))

def parseSubscribe (view : List UInt8) : Option QuMessage :=
  if view.length < 2 then none else some (.subscribe (getUint8 view 1))

def parseBudget (view : List UInt8) : Option QuMessage :=
  if view.length < 5 then none else some (.budget (valueAt view 1 4))

def parseQuMessage (buf : List UInt8) : Option QuMessage :=
  match buf with
  | [] => none
  | kind :: _ =>
    if kind = 0x01 then parseConfig buf
    else if kind = 0x02 then parseTile buf
    else if kind = 0x03 then parseInvalidate buf
    else if kind = 0x04 then parseEpoch buf
    else if kind = 0x81 then parseSubscribe buf
    else if kind = 0x82 then parseBudget buf
    else none

example : parseQuMessage [0x03, 7, 0, 0, 0, 1, 0, 2, 0, 3, 0] = some (.invalidate 7 [(2, 3)]) ∧
    parseQuMessage [0x03, 7, 0, 0, 0, 1, 0, 2, 0, 3, 0, 9] = none := by
  decide

section Agreement

-- A message of the streamer with its fields as numbers.
def toWeb : QuMsg → QuMessage
  | .config tileW tileH gridCols gridRows epoch =>
    .config tileW.toNat tileH.toNat gridCols.toNat gridRows.toNat epoch.toNat
  | .tile epoch col row format flags crc32Bgra payload =>
    .tile epoch.toNat col.toNat row.toNat format.toNat flags.toNat crc32Bgra.toNat payload
  | .invalidate epoch tiles =>
    .invalidate epoch.toNat (tiles.map fun (col, row) => (col.toNat, row.toNat))
  | .epoch newEpoch => .epoch newEpoch.toNat
  | .subscribe version => .subscribe version.toNat
  | .budget kbps => .budget kbps.toNat

def Agree (buf : List UInt8) : Prop :=
  parseQuMessage buf = (BetterParsec.QuWire.parseMsg buf).map toWeb

-- An invalidation with bytes behind its last tile.
def Padded (buf : List UInt8) : Prop :=
  buf.head? = some 0x03 ∧ 7 ≤ buf.length ∧ 7 + valueAt buf 5 2 * 4 < buf.length

-- Both parsers give back what was encoded.
def RoundTrip (msg : QuMsg) : Prop :=
  BetterParsec.QuWire.parseMsg (BetterParsec.QuWire.encode msg) = some msg ∧
    parseQuMessage (BetterParsec.QuWire.encode msg) = some (toWeb msg)

def Peeks (buf : List UInt8) : Prop :=
  ∀ msg epoch, BetterParsec.QuWire.parseMsg buf = some msg → msg.routedEpoch = some epoch →
    BetterParsec.QuWire.peek buf = some (msg.kind, some epoch)

open BetterParsec.QuWire (u16At_toNat u32At_toNat)

variable {buf : List UInt8}

theorem config_agree : parseConfig buf = (BetterParsec.QuWire.parseConfig buf).map toWeb := by
  rw [parseConfig, BetterParsec.QuWire.parseConfig, BetterParsec.QuWire.configLen]
  split_ifs with short
  · rfl
  · simp only [Option.map_some, toWeb]
    rw [u16At_toNat (by omega), u16At_toNat (by omega), u16At_toNat (by omega),
      u16At_toNat (by omega), u32At_toNat (by omega)]

theorem tile_agree : parseTile buf = (BetterParsec.QuWire.parseTile buf).map toWeb := by
  rw [parseTile, BetterParsec.QuWire.parseTile, BetterParsec.QuWire.tileHdr]
  by_cases short : buf.length < 19
  · rw [if_pos short, if_pos short]
    rfl
  · rw [if_neg short, if_neg short]
    simp only
    rw [u32At_toNat (by omega)]
    split_ifs with long
    · rfl
    · simp only [Option.map_some, toWeb]
      rw [u16At_toNat (by omega), u16At_toNat (by omega), u32At_toNat (by omega),
        u32At_toNat (by omega)]
      rfl

theorem epoch_agree : parseEpoch buf = (BetterParsec.QuWire.parseEpoch buf).map toWeb := by
  rw [parseEpoch, BetterParsec.QuWire.parseEpoch, BetterParsec.QuWire.epochLen]
  split_ifs with short
  · rfl
  · simp only [Option.map_some, toWeb]
    rw [u32At_toNat (by omega)]

theorem subscribe_agree : parseSubscribe buf = (BetterParsec.QuWire.parseSubscribe buf).map toWeb := by
  rw [parseSubscribe, BetterParsec.QuWire.parseSubscribe, BetterParsec.QuWire.subscribeLen]
  split_ifs <;> rfl

theorem budget_agree : parseBudget buf = (BetterParsec.QuWire.parseBudget buf).map toWeb := by
  rw [parseBudget, BetterParsec.QuWire.parseBudget, BetterParsec.QuWire.budgetLen]
  split_ifs with short
  · rfl
  · simp only [Option.map_some, toWeb]
    rw [u32At_toNat (by omega)]

-- The running offset and the computed one meet at every tile.
theorem readTiles_range {count off : Nat} (inside : off + count * 4 ≤ buf.length) :
    readTiles buf off count = ((List.range count).map fun i =>
      (BetterParsec.QuWire.u16At buf (off + i * 4),
        BetterParsec.QuWire.u16At buf (off + i * 4 + 2))).map
        fun (col, row) => (col.toNat, row.toNat) := by
  induction count generalizing off with
  | zero => rfl
  | succ count ih =>
    rw [List.range_succ_eq_map, List.map_cons, List.map_map, List.map_cons, readTiles,
      ih (by omega)]
    simp only [Nat.zero_mul, Nat.add_zero]
    rw [u16At_toNat (by omega), u16At_toNat (by omega)]
    congr 2
    refine List.map_congr_left fun i _ => ?_
    have place : off + (i + 1) * 4 = off + 4 + i * 4 := by omega
    simp only [Function.comp_apply, Nat.succ_eq_add_one, place]

theorem invalidate_agree_iff :
    parseInvalidate buf = (BetterParsec.QuWire.parseInvalidate buf).map toWeb ↔
      ¬ (7 ≤ buf.length ∧ 7 + valueAt buf 5 2 * 4 < buf.length) := by
  rw [parseInvalidate, BetterParsec.QuWire.parseInvalidate, BetterParsec.QuWire.invalidateHdr]
  by_cases short : buf.length < 7
  · rw [if_pos short, if_pos short]
    exact iff_of_true rfl (by omega)
  · rw [if_neg short, if_neg short]
    simp only
    rw [u16At_toNat (by omega)]
    rcases Nat.lt_trichotomy buf.length (7 + valueAt buf 5 2 * 4) with few | exact' | many
    · rw [if_pos (by omega), if_pos few]
      exact iff_of_true rfl (by omega)
    · rw [if_neg (by omega), if_neg (by omega)]
      refine iff_of_true ?_ (by omega)
      simp only [Option.map_some, toWeb]
      rw [u32At_toNat (by omega), readTiles_range (by omega)]
    · rw [if_pos (by omega), if_neg (by omega)]
      exact iff_of_false (by simp) (by omega)

theorem agree_iff (buf : List UInt8) : Agree buf ↔ ¬ Padded buf := by
  cases buf with
  | nil => exact iff_of_true rfl (by simp [Padded])
  | cons kind rest =>
    by_cases invalidate : kind = 0x03
    · subst invalidate
      have agree := @invalidate_agree_iff (0x03 :: rest)
      exact agree.trans (not_congr (by simp [Padded]))
    · refine iff_of_true ?_ (by simp [Padded, invalidate])
      by_cases config : kind = 0x01
      · subst config
        exact config_agree
      by_cases tile : kind = 0x02
      · subst tile
        exact tile_agree
      by_cases epoch : kind = 0x04
      · subst epoch
        exact epoch_agree
      by_cases subscribe : kind = 0x81
      · subst subscribe
        exact subscribe_agree
      by_cases budget : kind = 0x82
      · subst budget
        exact budget_agree
      have none : parseQuMessage (kind :: rest) = .none := by
        simp [parseQuMessage, invalidate, config, tile, epoch, subscribe, budget]
      have none' : BetterParsec.QuWire.parseMsg (kind :: rest) = .none := by
        simp [BetterParsec.QuWire.parseMsg, BetterParsec.QuWire.kindQuConfig,
          BetterParsec.QuWire.kindQuTile, BetterParsec.QuWire.kindQuInvalidate,
          BetterParsec.QuWire.kindQuEpoch, BetterParsec.QuWire.kindQuSubscribe,
          BetterParsec.QuWire.kindQuBudget, invalidate, config, tile, epoch, subscribe, budget]
      rw [Agree, none, none']
      rfl

-- The encoder writes nothing behind its tiles.
theorem encode_unpadded {msg : QuMsg} (counted : msg.Counted) :
    ¬ Padded (BetterParsec.QuWire.encode msg) := by
  rintro ⟨kind, -, long⟩
  cases msg with
  | config => exact absurd kind (by simp [BetterParsec.QuWire.encode,
      BetterParsec.QuWire.encodeConfig, BetterParsec.QuWire.kindQuConfig])
  | tile => exact absurd kind (by simp [BetterParsec.QuWire.encode,
      BetterParsec.QuWire.encodeTile, BetterParsec.QuWire.kindQuTile])
  | epoch => exact absurd kind (by simp [BetterParsec.QuWire.encode,
      BetterParsec.QuWire.encodeEpoch, BetterParsec.QuWire.kindQuEpoch])
  | subscribe => exact absurd kind (by simp [BetterParsec.QuWire.encode,
      BetterParsec.QuWire.encodeSubscribe, BetterParsec.QuWire.kindQuSubscribe])
  | budget => exact absurd kind (by simp [BetterParsec.QuWire.encode,
      BetterParsec.QuWire.encodeBudget, BetterParsec.QuWire.kindQuBudget])
  | invalidate epoch tiles =>
    have counted : tiles.length < 2 ^ 16 := counted
    have length : (BetterParsec.QuWire.encode (.invalidate epoch tiles)).length =
        7 + tiles.length * 4 := by
      simp [BetterParsec.QuWire.encode, BetterParsec.QuWire.encodeInvalidate]
      omega
    have field : BetterParsec.QuWire.u16At (BetterParsec.QuWire.encode (.invalidate epoch tiles)) 5 =
        UInt16.ofNat tiles.length := BetterParsec.QuWire.u16At_bytes rfl
    rw [← u16At_toNat (by omega), field, UInt16.toNat_ofNat_of_lt' counted, length] at long
    exact Nat.lt_irrefl _ long

theorem roundTrip_iff {msg : QuMsg} (sized : msg.Sized) : RoundTrip msg ↔ msg.Counted := by
  rw [RoundTrip, BetterParsec.QuWire.parse_encode_iff sized]
  refine and_iff_left_of_imp fun counted => ?_
  have agree := (agree_iff (BetterParsec.QuWire.encode msg)).mpr (encode_unpadded counted)
  rw [agree, (BetterParsec.QuWire.parse_encode_iff sized).mpr counted]
  rfl

/-- Where the two parsers agree, what the relay sees, and what comes back of a message. -/
theorem quWire_exact_iff (buf : List UInt8) (msg : QuMsg) (sized : msg.Sized) :
    (Agree buf ↔ ¬ Padded buf) ∧ Peeks buf ∧ (RoundTrip msg ↔ msg.Counted) :=
  ⟨agree_iff buf, fun _ _ parsed found => BetterParsec.QuWire.peek_parsed parsed found,
    roundTrip_iff sized⟩

theorem quWire_exact_iff_tile :
    (Agree [0x04, 1, 0, 0, 0] ↔ ¬ Padded [0x04, 1, 0, 0, 0]) ∧ Peeks [0x04, 1, 0, 0, 0] ∧
      (RoundTrip (.tile 7 3 2 0 0 0xDEADBEEF [0xAA, 0xBB]) ↔
        (QuMsg.tile 7 3 2 0 0 0xDEADBEEF [0xAA, 0xBB]).Counted) :=
  quWire_exact_iff [0x04, 1, 0, 0, 0] (.tile 7 3 2 0 0 0xDEADBEEF [0xAA, 0xBB])
    (show 2 < 2 ^ 32 by decide)

-- A byte behind an empty invalidation; and a list that is one longer than its count can say.
theorem quWire_disagree :
    ¬ Agree [0x03, 0, 0, 0, 0, 0, 0, 0] ∧
      ¬ RoundTrip (.invalidate 0 (List.replicate 65536 (0, 0))) := by
  constructor
  · exact fun agree => (agree_iff _).mp agree ⟨rfl, by decide, by decide⟩
  · intro back
    have sized : (QuMsg.invalidate 0 (List.replicate 65536 (0, 0))).Sized := trivial
    have counted := (roundTrip_iff sized).mp back
    rw [QuMsg.Counted, List.length_replicate] at counted
    exact absurd counted (by decide)

end Agreement

end QuWire

end Web

end BetterParsec
