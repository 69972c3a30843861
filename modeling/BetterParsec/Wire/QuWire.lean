import BetterParsec.Library.LittleEndian

set_option autoImplicit false
set_option linter.all false

/-!
# QU messages

`streamer/src/transport/webrtc/qu_wire.rs`: six layouts in little-endian, the parser that
allows bytes behind a message, and the look at kind and epoch that the relay goes by.
-/

namespace BetterParsec

open LittleEndian (bytes value slice valueAt)

namespace QuWire

def kindQuConfig : UInt8 := 0x01

def kindQuTile : UInt8 := 0x02

def kindQuInvalidate : UInt8 := 0x03

def kindQuEpoch : UInt8 := 0x04

def kindQuSubscribe : UInt8 := 0x81

def kindQuBudget : UInt8 := 0x82

def configLen : Nat := 13

def tileHdr : Nat := 19

def invalidateHdr : Nat := 7

def epochLen : Nat := 5

def subscribeLen : Nat := 2

def budgetLen : Nat := 5

inductive QuMsg where
  | config (tileW tileH gridCols gridRows : UInt16) (epoch : UInt32)
  | tile (epoch : UInt32) (col row : UInt16) (format flags : UInt8) (crc32Bgra : UInt32)
      (payload : List UInt8)
  | invalidate (epoch : UInt32) (tiles : List (UInt16 × UInt16))
  | epoch (newEpoch : UInt32)
  | subscribe (version : UInt8)
  | budget (kbps : UInt32)
  deriving DecidableEq

section Encode

def encodeConfig (tileW tileH gridCols gridRows : UInt16) (epoch : UInt32) : List UInt8 :=
  kindQuConfig :: bytes 2 tileW.toNat ++ bytes 2 tileH.toNat ++ bytes 2 gridCols.toNat ++
    bytes 2 gridRows.toNat ++ bytes 4 epoch.toNat

-- `as u32` keeps the low bits of the length.
def encodeTile (epoch : UInt32) (col row : UInt16) (format flags : UInt8) (crc32Bgra : UInt32)
    (payload : List UInt8) : List UInt8 :=
  let payloadLen := UInt32.ofNat payload.length
  kindQuTile :: bytes 4 epoch.toNat ++ bytes 2 col.toNat ++ bytes 2 row.toNat ++ [format, flags] ++
    bytes 4 crc32Bgra.toNat ++ bytes 4 payloadLen.toNat ++ payload

def encodeTiles (tiles : List (UInt16 × UInt16)) : List UInt8 :=
  tiles.flatMap fun (col, row) => bytes 2 col.toNat ++ bytes 2 row.toNat

-- And `as u16` those of the count.
def encodeInvalidate (epoch : UInt32) (tiles : List (UInt16 × UInt16)) : List UInt8 :=
  let count := UInt16.ofNat tiles.length
  kindQuInvalidate :: bytes 4 epoch.toNat ++ bytes 2 count.toNat ++ encodeTiles tiles

def encodeEpoch (newEpoch : UInt32) : List UInt8 := kindQuEpoch :: bytes 4 newEpoch.toNat

def encodeSubscribe (version : UInt8) : List UInt8 := [kindQuSubscribe, version]

def encodeBudget (kbps : UInt32) : List UInt8 := kindQuBudget :: bytes 4 kbps.toNat

def encode : QuMsg → List UInt8
  | .config tileW tileH gridCols gridRows epoch => encodeConfig tileW tileH gridCols gridRows epoch
  | .tile epoch col row format flags crc32Bgra payload =>
    encodeTile epoch col row format flags crc32Bgra payload
  | .invalidate epoch tiles => encodeInvalidate epoch tiles
  | .epoch newEpoch => encodeEpoch newEpoch
  | .subscribe version => encodeSubscribe version
  | .budget kbps => encodeBudget kbps

end Encode

section Parse

def u8At (buf : List UInt8) (i : Nat) : UInt8 := buf.getD i 0

def u16At (buf : List UInt8) (i : Nat) : UInt16 := UInt16.ofNat (valueAt buf i 2)

def u32At (buf : List UInt8) (i : Nat) : UInt32 := UInt32.ofNat (valueAt buf i 4)

def parseConfig (buf : List UInt8) : Option QuMsg :=
  if buf.length < configLen then none
  else some (.config (u16At buf 1) (u16At buf 3) (u16At buf 5) (u16At buf 7) (u32At buf 9))

def parseTile (buf : List UInt8) : Option QuMsg :=
  if buf.length < tileHdr then none
  else
    let payloadLen := (u32At buf 15).toNat
    if buf.length < tileHdr + payloadLen then none
    else some (.tile (u32At buf 1) (u16At buf 5) (u16At buf 7) (u8At buf 9) (u8At buf 10)
      (u32At buf 11) (slice buf tileHdr payloadLen))

def parseInvalidate (buf : List UInt8) : Option QuMsg :=
  if buf.length < invalidateHdr then none
  else
    let count := (u16At buf 5).toNat
    let expected := invalidateHdr + count * 4
    if buf.length < expected then none
    else some (.invalidate (u32At buf 1) ((List.range count).map fun i =>
      let off := invalidateHdr + i * 4
      (u16At buf off, u16At buf (off + 2))))

def parseEpoch (buf : List UInt8) : Option QuMsg :=
  if buf.length < epochLen then none else some (.epoch (u32At buf 1))

def parseSubscribe (buf : List UInt8) : Option QuMsg :=
  if buf.length < subscribeLen then none else some (.subscribe (u8At buf 1))

def parseBudget (buf : List UInt8) : Option QuMsg :=
  if buf.length < budgetLen then none else some (.budget (u32At buf 1))

def parseMsg (buf : List UInt8) : Option QuMsg :=
  match buf with
  | [] => none
  | kind :: _ =>
    if kind = kindQuConfig then parseConfig buf
    else if kind = kindQuTile then parseTile buf
    else if kind = kindQuInvalidate then parseInvalidate buf
    else if kind = kindQuEpoch then parseEpoch buf
    else if kind = kindQuSubscribe then parseSubscribe buf
    else if kind = kindQuBudget then parseBudget buf
    else none

def peek (buf : List UInt8) : Option (UInt8 × Option UInt32) :=
  match buf with
  | [] => none
  | kind :: _ =>
    some (kind,
      if (kind = kindQuTile ∨ kind = kindQuInvalidate) ∧ buf.length ≥ 5 then some (u32At buf 1)
      else none)

end Parse

section Fields

theorem u16At_toNat {buf : List UInt8} {i : Nat} (inside : i + 2 ≤ buf.length) :
    (u16At buf i).toNat = valueAt buf i 2 :=
  UInt16.toNat_ofNat_of_lt' (LittleEndian.valueAt_lt buf i 2 inside)

theorem u32At_toNat {buf : List UInt8} {i : Nat} (inside : i + 4 ≤ buf.length) :
    (u32At buf i).toNat = valueAt buf i 4 :=
  UInt32.toNat_ofNat_of_lt' (LittleEndian.valueAt_lt buf i 4 inside)

theorem u16At_bytes {buf : List UInt8} {i : Nat} {n : UInt16}
    (field : slice buf i 2 = bytes 2 n.toNat) : u16At buf i = n := by
  rw [u16At, valueAt, field, LittleEndian.value_bytes,
    Nat.mod_eq_of_lt (show n.toNat < 256 ^ 2 from n.toNat_lt), UInt16.ofNat_toNat]

theorem u32At_bytes {buf : List UInt8} {i : Nat} {n : UInt32}
    (field : slice buf i 4 = bytes 4 n.toNat) : u32At buf i = n := by
  rw [u32At, valueAt, field, LittleEndian.value_bytes,
    Nat.mod_eq_of_lt (show n.toNat < 256 ^ 4 from n.toNat_lt), UInt32.ofNat_toNat]

@[simp] theorem length_encodeTiles (tiles : List (UInt16 × UInt16)) :
    (encodeTiles tiles).length = tiles.length * 4 := by
  induction tiles with
  | nil => rfl
  | cons tile tiles ih =>
    rw [encodeTiles, List.flatMap_cons, List.length_append, List.length_cons]
    rw [encodeTiles] at ih
    rw [ih]
    simp
    omega

-- Each entry of the list stands where the loop looks for it.
theorem readTiles_encode (tiles : List (UInt16 × UInt16)) (before after : List UInt8) :
    ((List.range tiles.length).map fun i =>
      (u16At (before ++ encodeTiles tiles ++ after) (before.length + i * 4),
        u16At (before ++ encodeTiles tiles ++ after) (before.length + i * 4 + 2))) = tiles := by
  induction tiles generalizing before with
  | nil => rfl
  | cons tile tiles ih =>
    obtain ⟨col, row⟩ := tile
    have split : encodeTiles ((col, row) :: tiles) =
        bytes 2 col.toNat ++ bytes 2 row.toNat ++ encodeTiles tiles := rfl
    have shift : before ++ encodeTiles ((col, row) :: tiles) ++ after =
        before ++ (bytes 2 col.toNat ++ bytes 2 row.toNat) ++ encodeTiles tiles ++ after := by
      rw [split]
      simp only [List.append_assoc]
    have first : slice (before ++ encodeTiles ((col, row) :: tiles) ++ after) before.length 2 =
        bytes 2 col.toNat := by
      rw [split, slice, List.append_assoc, List.drop_left]
      rfl
    have second : slice (before ++ encodeTiles ((col, row) :: tiles) ++ after)
        (before.length + 2) 2 = bytes 2 row.toNat := by
      rw [split, slice, ← List.drop_drop, List.append_assoc, List.drop_left]
      rfl
    have later := ih (before ++ (bytes 2 col.toNat ++ bytes 2 row.toNat))
    have length : (before ++ (bytes 2 col.toNat ++ bytes 2 row.toNat)).length =
        before.length + 4 := by simp
    rw [List.length_cons, List.range_succ_eq_map, List.map_cons, List.map_map]
    congr 1
    · rw [Nat.zero_mul, Nat.add_zero, u16At_bytes first, u16At_bytes second]
    · rw [length, ← shift] at later
      refine Eq.trans (List.map_congr_left fun i _ => ?_) later
      have place : before.length + i.succ * 4 = before.length + 4 + i * 4 := by omega
      simp only [Function.comp_apply, place]

end Fields

section RoundTrip

-- What fits in the two fields that hold a length.
def QuMsg.Sized : QuMsg → Prop
  | .tile _ _ _ _ _ _ payload => payload.length < 2 ^ 32
  | _ => True

def QuMsg.Counted : QuMsg → Prop
  | .invalidate _ tiles => tiles.length < 2 ^ 16
  | _ => True

theorem parse_encodeConfig (tileW tileH gridCols gridRows : UInt16) (epoch : UInt32) :
    parseMsg (encodeConfig tileW tileH gridCols gridRows epoch) =
      some (.config tileW tileH gridCols gridRows epoch) := by
  let buf := encodeConfig tileW tileH gridCols gridRows epoch
  have one : u16At buf 1 = tileW := u16At_bytes rfl
  have two : u16At buf 3 = tileH := u16At_bytes rfl
  have three : u16At buf 5 = gridCols := u16At_bytes rfl
  have four : u16At buf 7 = gridRows := u16At_bytes rfl
  have five : u32At buf 9 = epoch := u32At_bytes rfl
  change some (QuMsg.config (u16At buf 1) (u16At buf 3) (u16At buf 5) (u16At buf 7) (u32At buf 9)) = _
  rw [one, two, three, four, five]

theorem parse_encodeEpoch (newEpoch : UInt32) :
    parseMsg (encodeEpoch newEpoch) = some (.epoch newEpoch) := by
  have field : u32At (encodeEpoch newEpoch) 1 = newEpoch := u32At_bytes rfl
  change some (QuMsg.epoch (u32At (encodeEpoch newEpoch) 1)) = _
  rw [field]

theorem parse_encodeBudget (kbps : UInt32) : parseMsg (encodeBudget kbps) = some (.budget kbps) := by
  have field : u32At (encodeBudget kbps) 1 = kbps := u32At_bytes rfl
  change some (QuMsg.budget (u32At (encodeBudget kbps) 1)) = _
  rw [field]

theorem parseMsg_tile {buf rest : List UInt8} (tile : buf = kindQuTile :: rest) :
    parseMsg buf = parseTile buf := by
  subst tile
  rw [parseMsg, if_neg (by decide), if_pos rfl]

theorem parseMsg_invalidate {buf rest : List UInt8} (invalidate : buf = kindQuInvalidate :: rest) :
    parseMsg buf = parseInvalidate buf := by
  subst invalidate
  rw [parseMsg, if_neg (by decide), if_neg (by decide), if_pos rfl]

theorem parse_encodeTile (epoch : UInt32) (col row : UInt16) (format flags : UInt8)
    (crc32Bgra : UInt32) {payload : List UInt8} (sized : payload.length < 2 ^ 32) :
    parseMsg (encodeTile epoch col row format flags crc32Bgra payload) =
      some (.tile epoch col row format flags crc32Bgra payload) := by
  let buf := encodeTile epoch col row format flags crc32Bgra payload
  have count : (UInt32.ofNat payload.length).toNat = payload.length :=
    UInt32.toNat_ofNat_of_lt' sized
  have length : buf.length = tileHdr + payload.length := by
    simp [buf, encodeTile, tileHdr]
    omega
  have field : u32At buf 15 = UInt32.ofNat payload.length := u32At_bytes rfl
  have one : u32At buf 1 = epoch := u32At_bytes rfl
  have two : u16At buf 5 = col := u16At_bytes rfl
  have three : u16At buf 7 = row := u16At_bytes rfl
  have four : u32At buf 11 = crc32Bgra := u32At_bytes rfl
  have rest : slice buf tileHdr payload.length = payload := List.take_length
  have tile : parseMsg buf = parseTile buf := parseMsg_tile rfl
  change parseMsg buf = _
  rw [tile, parseTile, field, count, length, one, two, three, four, if_neg (by omega)]
  simp only [Nat.lt_irrefl, if_false, rest]
  rfl

-- The count that is stored, and as many of the tiles.
theorem parse_encodeInvalidate (epoch : UInt32) (tiles : List (UInt16 × UInt16)) :
    parseMsg (encodeInvalidate epoch tiles) =
      some (.invalidate epoch (tiles.take (tiles.length % 2 ^ 16))) := by
  let buf := encodeInvalidate epoch tiles
  let kept := tiles.take (tiles.length % 2 ^ 16)
  let header := kindQuInvalidate :: bytes 4 epoch.toNat ++ bytes 2 (UInt16.ofNat tiles.length).toNat
  have fewer : tiles.length % 2 ^ 16 ≤ tiles.length := Nat.mod_le _ _
  have count : (UInt16.ofNat tiles.length).toNat = kept.length := by
    rw [UInt16.toNat_ofNat', List.length_take, Nat.min_eq_left fewer]
  have split : buf = header ++ encodeTiles kept ++ encodeTiles (tiles.drop (tiles.length % 2 ^ 16)) := by
    have parts : encodeTiles tiles =
        encodeTiles kept ++ encodeTiles (tiles.drop (tiles.length % 2 ^ 16)) := by
      rw [encodeTiles, encodeTiles, encodeTiles, ← List.flatMap_append, List.take_append_drop]
    rw [List.append_assoc, ← parts]
    rfl
  have size : header.length = invalidateHdr := rfl
  have length : buf.length = invalidateHdr + tiles.length * 4 := by
    simp [buf, encodeInvalidate, invalidateHdr]
    omega
  have read := readTiles_encode kept header (encodeTiles (tiles.drop (tiles.length % 2 ^ 16)))
  rw [← split, size] at read
  have field : u16At buf 5 = UInt16.ofNat tiles.length := u16At_bytes rfl
  have first : u32At buf 1 = epoch := u32At_bytes rfl
  have shorter : kept.length ≤ tiles.length := by
    rw [List.length_take]
    exact Nat.min_le_right _ _
  have invalidate : parseMsg buf = parseInvalidate buf := parseMsg_invalidate rfl
  change parseMsg buf = _
  rw [invalidate, parseInvalidate, field, count, length, first, if_neg (by omega),
    if_neg (by omega)]
  exact congrArg (fun tiles => some (QuMsg.invalidate epoch tiles)) read

/-- A message comes back exactly if the count of its tiles fits in sixteen bits. -/
theorem parse_encode_iff {msg : QuMsg} (sized : msg.Sized) :
    parseMsg (encode msg) = some msg ↔ msg.Counted := by
  cases msg with
  | config tileW tileH gridCols gridRows epoch =>
    exact iff_of_true (parse_encodeConfig tileW tileH gridCols gridRows epoch) trivial
  | tile epoch col row format flags crc32Bgra payload =>
    exact iff_of_true (parse_encodeTile epoch col row format flags crc32Bgra sized) trivial
  | epoch newEpoch => exact iff_of_true (parse_encodeEpoch newEpoch) trivial
  | subscribe version => exact iff_of_true rfl trivial
  | budget kbps => exact iff_of_true (parse_encodeBudget kbps) trivial
  | invalidate epoch tiles =>
    rw [encode, parse_encodeInvalidate, QuMsg.Counted]
    constructor
    · intro same
      have taken : tiles.take (tiles.length % 2 ^ 16) = tiles := by simpa using same
      have length := congrArg List.length taken
      rw [List.length_take] at length
      omega
    · intro counted
      rw [Nat.mod_eq_of_lt counted, List.take_length]

-- The kind byte of a message.
def QuMsg.kind : QuMsg → UInt8
  | .config .. => kindQuConfig
  | .tile .. => kindQuTile
  | .invalidate .. => kindQuInvalidate
  | .epoch .. => kindQuEpoch
  | .subscribe .. => kindQuSubscribe
  | .budget .. => kindQuBudget

-- The epoch that the relay compares.
def QuMsg.routedEpoch : QuMsg → Option UInt32
  | .tile at' _ _ _ _ _ _ => some at'
  | .invalidate at' _ => some at'
  | _ => none

theorem parse_kind {kind : UInt8} {rest : List UInt8} {msg : QuMsg}
    (parsed : parseMsg (kind :: rest) = some msg) : msg.kind = kind := by
  rw [parseMsg] at parsed
  by_cases config : kind = kindQuConfig
  · rw [if_pos config, parseConfig] at parsed
    split_ifs at parsed
    cases parsed
    exact config.symm
  rw [if_neg config] at parsed
  by_cases tile : kind = kindQuTile
  · rw [if_pos tile, parseTile] at parsed
    simp only at parsed
    split_ifs at parsed
    cases parsed
    exact tile.symm
  rw [if_neg tile] at parsed
  by_cases invalidate : kind = kindQuInvalidate
  · rw [if_pos invalidate, parseInvalidate] at parsed
    simp only at parsed
    split_ifs at parsed
    cases parsed
    exact invalidate.symm
  rw [if_neg invalidate] at parsed
  by_cases epoch : kind = kindQuEpoch
  · rw [if_pos epoch, parseEpoch] at parsed
    split_ifs at parsed
    cases parsed
    exact epoch.symm
  rw [if_neg epoch] at parsed
  by_cases subscribe : kind = kindQuSubscribe
  · rw [if_pos subscribe, parseSubscribe] at parsed
    split_ifs at parsed
    cases parsed
    exact subscribe.symm
  rw [if_neg subscribe] at parsed
  by_cases budget : kind = kindQuBudget
  · rw [if_pos budget, parseBudget] at parsed
    split_ifs at parsed
    cases parsed
    exact budget.symm
  rw [if_neg budget] at parsed
  cases parsed

/-- The relay's look at a tile or an invalidation sees its kind and epoch. -/
theorem peek_parsed {buf : List UInt8} {msg : QuMsg} (parsed : parseMsg buf = some msg)
    {epoch : UInt32} (found : msg.routedEpoch = some epoch) : peek buf = some (msg.kind, some epoch) := by
  cases buf with
  | nil => exact absurd parsed (by simp [parseMsg])
  | cons kind rest =>
    have kinds := parse_kind parsed
    rw [peek, kinds]
    cases msg with
    | config | epoch | subscribe | budget => exact absurd found (by simp [QuMsg.routedEpoch])
    | tile other col row format flags crc32Bgra payload =>
      obtain rfl : kindQuTile = kind := kinds
      change parseTile _ = _ at parsed
      rw [parseTile] at parsed
      simp only at parsed
      split_ifs at parsed with short long
      have room : 5 ≤ (kindQuTile :: rest).length := Nat.le_trans (by decide) (Nat.not_lt.mp short)
      cases parsed
      rw [if_pos ⟨.inl rfl, room⟩]
      exact congrArg (fun epoch => some (kindQuTile, epoch)) found
    | invalidate other tiles =>
      obtain rfl : kindQuInvalidate = kind := kinds
      change parseInvalidate _ = _ at parsed
      rw [parseInvalidate] at parsed
      simp only at parsed
      split_ifs at parsed with short long
      have room : 5 ≤ (kindQuInvalidate :: rest).length :=
        Nat.le_trans (by decide) (Nat.not_lt.mp short)
      cases parsed
      rw [if_pos ⟨.inr rfl, room⟩]
      exact congrArg (fun epoch => some (kindQuInvalidate, epoch)) found

end RoundTrip

end QuWire

end BetterParsec
