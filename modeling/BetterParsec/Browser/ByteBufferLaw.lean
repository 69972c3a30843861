import BetterParsec.Browser.ByteBuffers

set_option autoImplicit false
set_option linter.all false

/-!
# Writing and reading back

What a sequence of writes should leave in a buffer and what reading it should give, and
the calls for which the code does so: every call advances by the size of its encoding
but `putU64`, and not every one goes by the endianness of the buffer.
-/

namespace BetterParsec

open LittleEndian (overwrite slice take_overwrite length_overwrite)
open BrowserInput (encodeInto textDecode utf16Length utf16Size)

namespace BrowserBuffer

section Law

namespace Put

def encoding (littleEndian : Bool) : Put → List UInt8
  | .u8 data => [data]
  | .bool data => [if data then 1 else 0]
  | .i8 data => [data.toUInt8]
  | .u16 data => fieldOf littleEndian 2 data.toNat
  | .i16 data => fieldOf littleEndian 2 data.toUInt16.toNat
  | .u32 data => fieldOf littleEndian 4 data.toNat
  | .i32 data => fieldOf littleEndian 4 data.toUInt32.toNat
  | .u64 data => fieldOf littleEndian 8 data.toNat
  | .f32 data => fieldOf littleEndian 4 data.toNat
  | .u8Array data => data
  | .utf8Raw text => Utf8.encode (Utf16.decode text)

def size (put : Put) : Nat := (put.encoding false).length

-- What has no reader of its own is read byte by byte.
def reads : Put → List Get
  | .u8 _ => [.u8]
  | .bool _ => [.bool]
  | .u16 _ => [.u16]
  | .u32 _ => [.u32]
  | .utf8Raw text => [.utf8Raw (Utf8.encode (Utf16.decode text)).length]
  | put => List.replicate put.size .u8

def values (littleEndian : Bool) : Put → List Got
  | .u8 data => [.u8 data]
  | .bool data => [.bool data]
  | .u16 data => [.u16 data]
  | .u32 data => [.u32 data]
  | .utf8Raw text => [.utf8Raw text]
  | put => (put.encoding littleEndian).map .u8

end Put

-- What the code stores.
def Put.stored (littleEndian : Bool) : Put → List UInt8
  | .i32 data => fieldOf false 4 data.toUInt32.toNat
  | put => put.encoding littleEndian

def size (puts : List Put) : Nat := (puts.map Put.size).sum

-- The calls succeed, the buffer holds the encodings, and reading gives the values.
def WriteReadLaw (capacity : Nat) (littleEndian : Bool) (puts : List Put) : Prop :=
  ∃ b, (ByteBuffer.new capacity littleEndian).putAll puts = .ok b ∧
    b.flip.getRemainingBuffer = puts.flatMap (Put.encoding littleEndian) ∧
    b.flip.getAll (puts.flatMap Put.reads) = .ok (puts.flatMap (Put.values littleEndian))

-- A buffer over an array reads what one over a copy of its bytes does.
def ViewLaw (array : Uint8Array) (littleEndian : Bool) : Prop :=
  ∀ gets, ((ByteBuffer.overArray array littleEndian).getAll gets).toOption =
    ((ByteBuffer.overArray array.copy littleEndian).getAll gets).toOption

-- The same bytes in either order.
def Symmetric (width n : Nat) : Prop :=
  (LittleEndian.bytes width n).reverse = LittleEndian.bytes width n

-- Without a lone surrogate.
def WellFormed (text : List UInt16) : Prop := text ∈ Set.range Utf16.encode

-- The values that are stored and read as they should be.
def Put.Kept (littleEndian : Bool) : Put → Prop
  | .u16 data => littleEndian = true → Symmetric 2 data.toNat
  | .u32 data => littleEndian = true → Symmetric 4 data.toNat
  | .i32 data => littleEndian = true → Symmetric 4 data.toUInt32.toNat
  | .utf8Raw text => WellFormed text ∧ text.head? ≠ some 0xFEFF
  | _ => True

-- Only empty texts follow a `putU64`, and the buffer is full.
def Gapless (capacity : Nat) (puts : List Put) : Prop :=
  ∀ before data after, puts = before ++ Put.u64 data :: after →
    (∀ put ∈ after, put = .utf8Raw []) ∧ size puts = capacity

end Law

section Texts

theorem toNat_ofNat {n : Nat} (valid : n.isValidChar) : (Char.ofNat n).toNat = n := by
  rw [Char.ofNat, dif_pos valid]
  rfl

theorem utf16Size_single (u : UInt16) : utf16Size (Utf16.single u) = 1 := by
  rw [Utf16.single]
  split_ifs with surrogate
  · rfl
  · have small := u.toNat_lt
    have valid : u.toNat.isValidChar := by
      simp only [Utf16.highSurrogate, Utf16.lowSurrogate, Bool.or_eq_true, Bool.and_eq_true,
        decide_eq_true_eq] at surrogate
      rcases Nat.lt_or_ge u.toNat 0xD800 with low | high
      · exact .inl low
      · exact .inr ⟨by omega, by omega⟩
    rw [utf16Size, toNat_ofNat valid, if_pos (by omega)]

theorem utf16Size_pair {u v : UInt16}
    (surrogates : (Utf16.highSurrogate u && Utf16.lowSurrogate v) = true) :
    utf16Size (Utf16.pair u v) = 2 := by
  simp only [Utf16.highSurrogate, Utf16.lowSurrogate, Bool.and_eq_true, decide_eq_true_eq]
    at surrogates
  have valid : (0x10000 + (u.toNat - 0xD800) * 0x400 + (v.toNat - 0xDC00)).isValidChar :=
    .inr ⟨by omega, by omega⟩
  rw [utf16Size, Utf16.pair, toNat_ofNat valid, if_neg (by omega)]

theorem utf16Length_cons (c : Char) (text : List Char) :
    utf16Length (c :: text) = utf16Size c + utf16Length text := by
  rw [utf16Length, List.map_cons, List.sum_cons, utf16Length]

-- Every code unit is counted, a lone surrogate as the character that replaces it.
theorem utf16Length_decode (text : List UInt16) :
    utf16Length (Utf16.decode text) = text.length := by
  induction text using Utf16.decode.induct with
  | case1 => rfl
  | case2 u => rw [Utf16.decode, utf16Length_cons, utf16Size_single]; rfl
  | case3 u v rest surrogates ih =>
    rw [Utf16.decode, if_pos surrogates, utf16Length_cons, utf16Size_pair surrogates, ih,
      List.length_cons, List.length_cons]
    omega
  | case4 u v rest other ih =>
    rw [Utf16.decode, if_neg other, utf16Length_cons, utf16Size_single, ih, Nat.add_comm]
    rfl

theorem length_encode (text : List Char) : (Utf16.encode text).length = utf16Length text := by
  induction text with
  | nil => rfl
  | cons c text ih =>
    have first : (Utf16.encodeChar c).length = utf16Size c := by
      rw [Utf16.encodeChar, utf16Size]
      split_ifs <;> first | rfl | omega
    rw [utf16Length_cons, ← ih, ← first, Utf16.encode, List.flatMap_cons, List.length_append]
    rfl

theorem encodeInto_all {text : List Char} {room : Nat}
    (all : (encodeInto text room).1 = utf16Length text) :
    (encodeInto text room).2 = Utf8.encode text ∧ (Utf8.encode text).length ≤ room := by
  induction text generalizing room with
  | nil => exact ⟨rfl, Nat.zero_le _⟩
  | cons c text ih =>
    rw [encodeInto] at all ⊢
    split_ifs at all ⊢ with fits
    · rw [utf16Length_cons] at all
      obtain ⟨written, within⟩ := ih (Nat.add_left_cancel all)
      refine ⟨?_, by rw [Utf8.length_encode_cons]; omega⟩
      rw [Utf8.encode_cons, ← written]
    · rw [utf16Length_cons, utf16Size] at all
      split_ifs at all <;> omega

theorem head_encodeChar (c : Char) (text : List UInt16) :
    (Utf16.encodeChar c ++ text).head? = some 0xFEFF ↔ c = '\uFEFF' := by
  have valid : c.toNat < 0xD800 ∨ (0xDFFF < c.toNat ∧ c.toNat < 0x110000) := c.valid
  constructor
  · intro first
    rw [Utf16.encodeChar] at first
    split_ifs at first with basic
    · have unit : UInt16.ofNat c.toNat = 0xFEFF := by simpa using first
      have same := congrArg UInt16.toNat unit
      rw [UInt16.toNat_ofNat_of_lt' (by rw [UInt16.size]; omega)] at same
      exact Char.toNat_inj.mp same
    · -- The first unit of a pair is a surrogate.
      have unit : UInt16.ofNat (0xD800 + (c.toNat - 0x10000) / 0x400) = 0xFEFF := by
        simpa using first
      have same := congrArg UInt16.toNat unit
      rw [UInt16.toNat_ofNat_of_lt' (by rw [UInt16.size]; omega)] at same
      have value : UInt16.toNat 0xFEFF = 0xFEFF := rfl
      omega
  · rintro rfl
    rfl

theorem text_kept_iff (text : List UInt16) :
    Utf16.encode (textDecode (Utf8.encode (Utf16.decode text))) = text ↔
      WellFormed text ∧ text.head? ≠ some 0xFEFF := by
  have size := utf16Length_decode text
  rw [textDecode, Utf8.lossy_encode]
  cases chars : Utf16.decode text with
  | nil =>
    rw [chars] at size
    obtain rfl : text = [] := List.eq_nil_of_length_eq_zero size.symm
    exact ⟨fun _ => ⟨⟨[], rfl⟩, by simp⟩, fun _ => rfl⟩
  | cons c rest =>
    rw [Web.DesktopControl.withoutMark]
    by_cases mark : c = '\uFEFF'
    · rw [if_pos mark]
      subst mark
      constructor
      · -- The mark is not there any more.
        intro same
        rw [chars, utf16Length_cons, ← length_encode rest, same] at size
        have one : utf16Size '\uFEFF' = 1 := rfl
        omega
      · rintro ⟨⟨whole, rfl⟩, unmarked⟩
        rw [Utf16.decode_encode] at chars
        rw [chars] at unmarked
        exact absurd ((head_encodeChar '\uFEFF' (Utf16.encode rest)).mpr rfl) unmarked
    · rw [if_neg mark]
      constructor
      · intro same
        refine ⟨⟨_, same⟩, ?_⟩
        rw [← same]
        exact fun first => mark ((head_encodeChar c (Utf16.encode rest)).mp first)
      · rintro ⟨⟨whole, rfl⟩, -⟩
        rw [Utf16.decode_encode] at chars
        rw [chars]

end Texts

section Fields

@[simp] theorem length_fieldOf (littleEndian : Bool) (width n : Nat) :
    (fieldOf littleEndian width n).length = width := by
  rw [fieldOf]
  split_ifs <;> simp

theorem Put.length_encoding (littleEndian : Bool) (put : Put) :
    (put.encoding littleEndian).length = put.size := by
  cases put <;> simp [Put.encoding, Put.size]

theorem Put.length_stored (littleEndian : Bool) (put : Put) :
    (put.stored littleEndian).length = put.size := by
  cases put <;> simp [Put.stored, Put.encoding, Put.size]

theorem value_reverse_iff {width n : Nat} (bound : n < 256 ^ width) :
    BigEndian.value (LittleEndian.bytes width n) = n ↔ Symmetric width n := by
  have back := LittleEndian.bytes_value (LittleEndian.bytes width n).reverse
  rw [List.length_reverse, LittleEndian.length_bytes] at back
  rw [Symmetric, BigEndian.value]
  constructor
  · intro same
    rw [same] at back
    exact back.symm
  · intro same
    rw [same, LittleEndian.value_bytes, Nat.mod_eq_of_lt bound]

theorem fieldOf_symmetric_iff (littleEndian : Bool) (width n : Nat) :
    fieldOf false width n = fieldOf littleEndian width n ↔
      (littleEndian = true → Symmetric width n) := by
  cases littleEndian with
  | false => simp
  | true => simp [fieldOf, BigEndian.bytes, Symmetric]

theorem value_fieldOf_iff (littleEndian : Bool) {width n : Nat} (bound : n < 256 ^ width) :
    BigEndian.value (fieldOf littleEndian width n) = n ↔
      (littleEndian = true → Symmetric width n) := by
  cases littleEndian with
  | false => simp [fieldOf, BigEndian.value_bytes, Nat.mod_eq_of_lt bound]
  | true => simp [fieldOf, value_reverse_iff bound]

-- The two halves of a wide field, each in the order of the buffer.
theorem fieldOf_halves (littleEndian : Bool) (n : Nat) :
    fieldOf littleEndian 8 n =
      if littleEndian then fieldOf true 4 (n % 0x100000000) ++ fieldOf true 4 (n / 0x100000000)
      else fieldOf false 4 (n / 0x100000000) ++ fieldOf false 4 (n % 0x100000000) := by
  have halves := LittleEndian.bytes_add 4 4 n
  have low := LittleEndian.bytes_mod 4 n
  cases littleEndian with
  | true =>
    simp only [fieldOf, if_true]
    rw [← low] at halves
    exact halves
  | false =>
    simp only [fieldOf, BigEndian.bytes, Bool.false_eq_true, if_false]
    rw [← List.reverse_append]
    rw [← low] at halves
    exact congrArg List.reverse halves

end Fields

section Writing

-- The buffer has the memory for itself.
structure Own (b : ByteBuffer) : Prop where
  start : b.buffer.byteOffset = 0
  whole : b.buffer.length = b.buffer.memory.length

-- A call that stored a field where the buffer stood.
structure Wrote (b b' : ByteBuffer) (advance : Nat) (field : List UInt8) : Prop where
  own : Own b'
  littleEndian : b'.littleEndian = b.littleEndian
  capacity : b'.buffer.length = b.buffer.length
  position : b'.position = b.position + advance
  stored : b'.buffer.memory.take (b.position + field.length) =
    b.buffer.memory.take b.position ++ field

variable {b b' b'' : ByteBuffer} {field : List UInt8}

theorem Wrote.refl (own : Own b) : Wrote b b 0 [] :=
  ⟨own, rfl, rfl, rfl, by simp⟩

theorem Wrote.trans {advance : Nat} {later : List UInt8} (first : Wrote b b' field.length field)
    (second : Wrote b' b'' advance later) :
    Wrote b b'' (field.length + advance) (field ++ later) := by
  refine ⟨second.own, second.littleEndian.trans first.littleEndian,
    second.capacity.trans first.capacity, ?_, ?_⟩
  · rw [second.position, first.position, Nat.add_assoc]
  · have stored := second.stored
    rw [first.position, first.stored] at stored
    rw [List.length_append, ← Nat.add_assoc, stored, List.append_assoc]

theorem store_own {array : Uint8Array} {first : Nat}
    (fits : first + field.length ≤ array.memory.length) :
    (array.store first field).memory = overwrite array.memory first field := by
  rw [Uint8Array.store, dif_pos fits]

theorem store_byteOffset (array : Uint8Array) (first : Nat) (field : List UInt8) :
    (array.store first field).byteOffset = array.byteOffset := by
  rw [Uint8Array.store]
  split_ifs <;> rfl

theorem store_length (array : Uint8Array) (first : Nat) (field : List UInt8) :
    (array.store first field).length = array.length := by
  rw [Uint8Array.store]
  split_ifs <;> rfl

theorem length_store (array : Uint8Array) (first : Nat) (field : List UInt8) :
    (array.store first field).memory.length = array.memory.length := by
  rw [Uint8Array.store]
  split_ifs with fits
  · exact length_overwrite _ _ _ fits
  · rfl

theorem Own.store (own : Own b) (first : Nat) (field : List UInt8) (position limit : Nat) :
    Own ⟨position, limit, b.littleEndian, b.buffer.store first field⟩ where
  start := by rw [store_byteOffset, own.start]
  whole := by rw [store_length, length_store, own.whole]

-- Whatever the limit is, storing at the position is a call that wrote.
theorem wrote_store (own : Own b) (fits : b.position + field.length ≤ b.buffer.length)
    (advance limit : Nat) :
    Wrote b ⟨b.position + advance, limit, b.littleEndian, b.buffer.store b.position field⟩
      advance field := by
  have room : b.position + field.length ≤ b.buffer.memory.length := own.whole ▸ fits
  refine ⟨own.store _ _ _ _, rfl, store_length _ _ _, rfl, ?_⟩
  rw [store_own room]
  exact take_overwrite _ _ _ (by omega)

theorem putField_wrote (own : Own b) (fits : b.position + field.length ≤ b.buffer.length) :
    ∃ b', b.putField field none = .ok b' ∧ Wrote b b' field.length field := by
  have room : ¬ b.position + field.length > b.buffer.length := Nat.not_lt.mpr fits
  refine ⟨_, ?_, wrote_store own fits field.length
    (if b.position + field.length > b.limit then b.position + field.length else b.limit)⟩
  simp [ByteBuffer.putField, ByteBuffer.useDataView, ByteBuffer.bytesUsed, ByteBuffer.set, room,
    bind, Except.bind, pure, Except.pure]

theorem putFieldOf_wrote (own : Own b) (littleEndian : Bool) (width n : Nat)
    (fits : b.position + width ≤ b.buffer.length) :
    ∃ b', b.putField (fieldOf littleEndian width n) none = .ok b' ∧
      Wrote b b' width (fieldOf littleEndian width n) := by
  have wrote := putField_wrote own (by rwa [length_fieldOf littleEndian width n])
  rwa [length_fieldOf] at wrote

theorem putU8Array_wrote (own : Own b) (fits : b.position + field.length ≤ b.buffer.length) :
    ∃ b', b.putU8Array field none = .ok b' ∧ Wrote b b' field.length field := by
  have room : ¬ b.position + field.length > b.buffer.length := Nat.not_lt.mpr fits
  refine ⟨_, ?_, wrote_store own fits field.length
    (if b.position + field.length > b.limit then b.position + field.length else b.limit)⟩
  simp [ByteBuffer.putU8Array, ByteBuffer.bytesUsed, ByteBuffer.set, room, own.start]

theorem putUtf8Raw_wrote (own : Own b) (text : List UInt16)
    (fits : b.position + (Utf8.encode (Utf16.decode text)).length ≤ b.buffer.length) :
    ∃ b', b.putUtf8Raw text = .ok b' ∧
      Wrote b b' (Utf8.encode (Utf16.decode text)).length (Utf8.encode (Utf16.decode text)) := by
  have all := BrowserInput.encodeInto_fits (Utf16.decode text) (b.buffer.length - b.position)
    (by omega)
  have count := utf16Length_decode text
  refine ⟨_, ?_, wrote_store own fits _ b.limit⟩
  simp [ByteBuffer.putUtf8Raw, ByteBuffer.bytesUsed, ByteBuffer.set, all, count, own.start, bind,
    Except.bind]

theorem putF32_wrote (own : Own b) (data : UInt32) (fits : b.position + 4 ≤ b.buffer.length) :
    ∃ b', b.putF32 data = .ok b' ∧ Wrote b b' 4 (fieldOf b.littleEndian 4 data.toNat) := by
  have room : ¬ b.position + 4 > b.buffer.memory.length := Nat.not_lt.mpr (own.whole ▸ fits)
  refine ⟨_, ?_, wrote_store own (by rwa [length_fieldOf]) 4 b.limit⟩
  simp [ByteBuffer.putF32, ByteBuffer.bytesUsed, ByteBuffer.set, room]

-- Two halves of four bytes, and sixteen bytes forward.
theorem putU64_wrote (own : Own b) (data : UInt64) (fits : b.position + 8 ≤ b.buffer.length) :
    ∃ b', b.putU64 data none = .ok b' ∧ Wrote b b' 16 (fieldOf b.littleEndian 8 data.toNat) := by
  have room : ¬ b.position + 8 > b.buffer.length := Nat.not_lt.mpr fits
  let limit := if b.position + 8 > b.limit then b.position + 8 else b.limit
  have halves {one two : List UInt8} (lengthOne : one.length = 4) (lengthTwo : two.length = 4) :
      Wrote b ⟨b.position + 16, limit, b.littleEndian,
        (b.buffer.store b.position one).store (b.position + 4) two⟩ 16 (one ++ two) := by
    have first := wrote_store own (by rw [lengthOne]; omega) one.length limit
    have room : b.position + one.length + two.length ≤ (b.buffer.store b.position one).length := by
      rw [store_length, lengthOne, lengthTwo]
      omega
    have both := first.trans (wrote_store first.own room 12 limit)
    simpa only [lengthOne, Nat.add_assoc] using both
  rw [fieldOf_halves]
  cases order : b.littleEndian with
  | true =>
    rw [order] at halves
    refine ⟨_, ?_, halves (length_fieldOf true 4 (data.toNat % 0x100000000))
      (length_fieldOf true 4 (data.toNat / 0x100000000))⟩
    simp [ByteBuffer.putU64, ByteBuffer.useDataView, ByteBuffer.bytesUsed, ByteBuffer.set, room,
      order, limit, bind, Except.bind, pure, Except.pure]
  | false =>
    rw [order] at halves
    refine ⟨_, ?_, halves (length_fieldOf false 4 (data.toNat / 0x100000000))
      (length_fieldOf false 4 (data.toNat % 0x100000000))⟩
    simp [ByteBuffer.putU64, ByteBuffer.useDataView, ByteBuffer.bytesUsed, ByteBuffer.set, room,
      order, limit, bind, Except.bind, pure, Except.pure]

theorem put_wrote (own : Own b) (put : Put) (narrow : ∀ data, put ≠ .u64 data)
    (fits : b.position + put.size ≤ b.buffer.length) :
    ∃ b', b.put put = .ok b' ∧ Wrote b b' put.size (put.stored b.littleEndian) := by
  cases put with
  | u8 data => exact putField_wrote own fits
  | bool data => exact putField_wrote own fits
  | i8 data => exact putField_wrote own fits
  | u16 data => exact putFieldOf_wrote own _ 2 _ fits
  | i16 data => exact putFieldOf_wrote own _ 2 _ fits
  | u32 data => exact putFieldOf_wrote own _ 4 _ fits
  | i32 data => exact putFieldOf_wrote own _ 4 _ fits
  | u64 data => exact absurd rfl (narrow data)
  | f32 data => exact putF32_wrote own data fits
  | u8Array data => exact putU8Array_wrote own fits
  | utf8Raw text => exact putUtf8Raw_wrote own text fits

theorem putAll_wrote {puts : List Put} (own : Own b)
    (narrow : ∀ data, .u64 data ∉ puts) (fits : b.position + size puts ≤ b.buffer.length) :
    ∃ b', b.putAll puts = .ok b' ∧
      Wrote b b' (size puts) (puts.flatMap (Put.stored b.littleEndian)) := by
  induction puts generalizing b with
  | nil => exact ⟨b, rfl, Wrote.refl own⟩
  | cons put puts ih =>
    have total : size (put :: puts) = put.size + size puts := rfl
    obtain ⟨b', called, wrote⟩ := put_wrote own put
      (fun data same => narrow data (same ▸ List.mem_cons_self)) (by omega)
    obtain ⟨b'', rest, later⟩ := ih wrote.own
      (fun data member => narrow data (List.mem_cons_of_mem _ member))
      (by rw [wrote.position, wrote.capacity]; omega)
    refine ⟨b'', ?_, ?_⟩
    · rw [ByteBuffer.putAll, List.foldlM_cons, called]
      exact rest
    · rw [← Put.length_stored b.littleEndian put] at wrote
      rw [total, ← Put.length_stored b.littleEndian put, List.flatMap_cons]
      have both := wrote.trans later
      rwa [wrote.littleEndian] at both

theorem putAll_append (b : ByteBuffer) (before after : List Put) :
    b.putAll (before ++ after) = b.putAll before >>= fun b' => b'.putAll after := by
  rw [ByteBuffer.putAll, List.foldlM_append]
  rfl

theorem put_empty (b : ByteBuffer) : b.put (.utf8Raw []) = .ok b := by
  have none (array : Uint8Array) (first : Nat) : array.store first [] = array := by
    rw [Uint8Array.store]
    split_ifs
    · simp [overwrite]
    · rfl
  simp [ByteBuffer.put, ByteBuffer.putUtf8Raw, Utf16.decode, encodeInto, ByteBuffer.set, none,
    ByteBuffer.bytesUsed, bind, Except.bind]

-- Empty texts leave everything as it is, wherever the buffer stands.
theorem putAll_empty {puts : List Put} (empty : ∀ put ∈ puts, put = .utf8Raw [])
    (b : ByteBuffer) : b.putAll puts = .ok b := by
  induction puts with
  | nil => rfl
  | cons put puts ih =>
    rw [ByteBuffer.putAll, List.foldlM_cons, empty put List.mem_cons_self, put_empty]
    exact ih fun put member => empty put (List.mem_cons_of_mem _ member)

end Writing

section Bounds

variable {b b' : ByteBuffer}

theorem putField_refused {field : List UInt8}
    (full : b.buffer.length < b.position + field.length) :
    ∃ error, b.putField field none = .error error := by
  refine ⟨"failed to write over the capacity", ?_⟩
  simp [ByteBuffer.putField, ByteBuffer.useDataView, full, bind, Except.bind]

theorem putUtf8Raw_refused {text : List UInt16} (some : text ≠ [])
    (full : b.buffer.length < b.position + (Utf8.encode (Utf16.decode text)).length) :
    ∃ error, b.putUtf8Raw text = .error error := by
  refine ⟨"failed to put utf8 text", ?_⟩
  have count := utf16Length_decode text
  have short : (encodeInto (Utf16.decode text) (b.buffer.length - b.position)).1 ≠ text.length := by
    intro all
    rw [← count] at all
    obtain ⟨-, within⟩ := encodeInto_all all
    -- Where the buffer is past its end, only an empty text fits.
    have none : Utf16.decode text = [] := by
      have least := Utf8.length_le_length_encode (Utf16.decode text)
      exact List.eq_nil_of_length_eq_zero (by omega)
    rw [none] at count
    exact some (List.eq_nil_of_length_eq_zero count.symm)
  simp [ByteBuffer.putUtf8Raw, ByteBuffer.bytesUsed, short, bind, Except.bind]

theorem put_refused (own : Own b) {put : Put} (some : put ≠ .utf8Raw [])
    (full : b.buffer.length < b.position + put.size) : ∃ error, b.put put = .error error := by
  cases put with
  | u8 data => exact putField_refused full
  | bool data => exact putField_refused full
  | i8 data => exact putField_refused full
  | u16 data => exact putField_refused (by rwa [length_fieldOf])
  | i16 data => exact putField_refused (by rwa [length_fieldOf])
  | u32 data => exact putField_refused (by rwa [length_fieldOf])
  | i32 data => exact putField_refused (by rwa [length_fieldOf])
  | u64 data =>
    have full : b.buffer.length < b.position + 8 := full
    refine ⟨"failed to write over the capacity", ?_⟩
    simp [ByteBuffer.put, ByteBuffer.putU64, ByteBuffer.useDataView, full, bind, Except.bind]
  | f32 data =>
    have full : b.buffer.memory.length < b.position + 4 := own.whole ▸ full
    refine ⟨"RangeError", ?_⟩
    simp [ByteBuffer.put, ByteBuffer.putF32, full]
  | u8Array data =>
    have full : b.buffer.length < b.position + data.length := full
    refine ⟨"failed to write over the capacity", ?_⟩
    simp [ByteBuffer.put, ByteBuffer.putU8Array, full]
  | utf8Raw text => exact putUtf8Raw_refused (fun none => some (congrArg Put.utf8Raw none)) full

-- What a call that succeeds has room for, and how far it goes.
structure Advanced (b b' : ByteBuffer) (amount : Nat) : Prop where
  own : Own b'
  capacity : b'.buffer.length = b.buffer.length
  position : b.position + amount ≤ b'.position

theorem put_advanced (own : Own b) {put : Put} (called : b.put put = .ok b') :
    Advanced b b' put.size ∧
      (put ≠ .utf8Raw [] → b.position + put.size ≤ b.buffer.length) := by
  by_cases empty : put = .utf8Raw []
  · rw [empty, put_empty] at called
    cases called
    rw [empty]
    exact ⟨⟨own, rfl, Nat.le_refl _⟩, fun some => absurd rfl some⟩
  · rcases Nat.lt_or_ge b.buffer.length (b.position + put.size) with full | fits
    · obtain ⟨error, refused⟩ := put_refused own empty full
      rw [refused] at called
      contradiction
    · refine ⟨?_, fun _ => fits⟩
      by_cases wide : ∃ data, put = .u64 data
      · obtain ⟨data, rfl⟩ := wide
        obtain ⟨b'', done, wrote⟩ := putU64_wrote own data fits
        obtain rfl := Except.ok.inj (done.symm.trans called)
        have eight : (Put.u64 data).size = 8 := rfl
        refine ⟨wrote.own, wrote.capacity, ?_⟩
        rw [wrote.position, eight]
        omega
      · obtain ⟨b'', done, wrote⟩ := put_wrote own put (fun data same => wide ⟨data, same⟩) fits
        obtain rfl := Except.ok.inj (done.symm.trans called)
        exact ⟨wrote.own, wrote.capacity, Nat.le_of_eq wrote.position.symm⟩

theorem size_empty {puts : List Put} (empty : ∀ put ∈ puts, put = .utf8Raw []) :
    size puts = 0 := by
  induction puts with
  | nil => rfl
  | cons put puts ih =>
    have rest := ih fun put member => empty put (List.mem_cons_of_mem _ member)
    rw [size] at rest
    rw [size, List.map_cons, List.sum_cons, empty put List.mem_cons_self, rest]
    rfl

theorem putAll_advanced {puts : List Put} (own : Own b) (called : b.putAll puts = .ok b') :
    Advanced b b' (size puts) ∧
      ((∃ put ∈ puts, put ≠ .utf8Raw []) → b.position + size puts ≤ b.buffer.length) := by
  induction puts generalizing b with
  | nil =>
    cases called
    exact ⟨⟨own, rfl, Nat.le_refl _⟩, by simp⟩
  | cons put puts ih =>
    have total : size (put :: puts) = put.size + size puts := rfl
    rw [ByteBuffer.putAll, List.foldlM_cons] at called
    cases first : b.put put with
    | error error =>
      rw [first] at called
      contradiction
    | ok middle =>
      rw [first] at called
      obtain ⟨start, room⟩ := put_advanced own first
      obtain ⟨later, rest⟩ := ih start.own called
      have capacity := start.capacity
      have position := start.position
      have final := later.position
      refine ⟨⟨later.own, later.capacity.trans capacity, by omega⟩, fun some => ?_⟩
      by_cases more : ∃ put ∈ puts, put ≠ .utf8Raw []
      · have within := rest more
        omega
      · have none : ∀ put ∈ puts, put = .utf8Raw [] := by simpa using more
        have within : b.position + put.size ≤ b.buffer.length := by
          refine room fun empty => ?_
          obtain ⟨other, member, full⟩ := some
          rcases List.mem_cons.mp member with rfl | member
          · exact full empty
          · exact full (none other member)
        rw [total, size_empty none]
        omega

end Bounds

end BrowserBuffer

end BetterParsec
