import BetterParsec.Browser.ByteBufferLaw

set_option autoImplicit false
set_option linter.all false

/-!
# Reading what was written

The readers over a buffer that has its memory for itself, then over a view into a longer
memory, and the exact law of both.
-/

namespace BetterParsec

open LittleEndian (overwrite slice take_overwrite length_overwrite)
open BrowserInput (encodeInto textDecode utf16Length utf16Size)

namespace BrowserBuffer

section Reading

-- What the readers give for a call.
def Put.got (littleEndian : Bool) : Put → List Got
  | .u8 data => [.u8 data]
  | .bool data => [.bool data]
  | .u16 data => [.u16 (UInt16.ofNat (BigEndian.value (fieldOf littleEndian 2 data.toNat)))]
  | .u32 data => [.u32 (UInt32.ofNat (BigEndian.value (fieldOf littleEndian 4 data.toNat)))]
  | .utf8Raw text =>
    [.utf8Raw (Utf16.encode (textDecode (Utf8.encode (Utf16.decode text))))]
  | put => (put.stored littleEndian).map .u8

-- The bytes ahead in the memory, as far as the limit allows.
structure Ahead (b : ByteBuffer) (data : List UInt8) : Prop where
  limit : b.position + data.length ≤ b.limit
  inside : b.position + data.length ≤ b.buffer.memory.length
  data : slice b.buffer.memory b.position data.length = data

structure Ready (b : ByteBuffer) (data : List UInt8) : Prop extends Ahead b data where
  own : Own b

def ByteBuffer.skip (b : ByteBuffer) (amount : Nat) : ByteBuffer :=
  { b with position := b.position + amount }

variable {b : ByteBuffer} {field rest : List UInt8}

theorem Ahead.first (ahead : Ahead b (field ++ rest)) :
    slice b.buffer.memory b.position field.length = field := by
  have data := congrArg (List.take field.length) ahead.data
  rw [slice, List.take_take, List.length_append, Nat.min_eq_left (Nat.le_add_right _ _),
    List.take_left] at data
  exact data

theorem Ahead.next (ahead : Ahead b (field ++ rest)) : Ahead (b.skip field.length) rest where
  limit := by
    have limit := ahead.limit
    rw [List.length_append] at limit
    simp only [ByteBuffer.skip]
    omega
  inside := by
    have inside := ahead.inside
    rw [List.length_append] at inside
    simp only [ByteBuffer.skip]
    omega
  data := by
    have data := congrArg (List.drop field.length) ahead.data
    rw [slice, List.drop_take, List.drop_drop, List.length_append, Nat.add_sub_cancel_left,
      List.drop_left] at data
    exact data

theorem Ready.next (ready : Ready b (field ++ rest)) : Ready (b.skip field.length) rest :=
  ⟨ready.toAhead.next, ready.own.start, ready.own.whole⟩

theorem bytesUsed_ahead (ahead : Ahead b (field ++ rest)) :
    b.bytesUsed field.length true = .ok (b.skip field.length) := by
  have limit := ahead.limit
  rw [List.length_append] at limit
  have within : ¬ b.position + field.length > b.limit := by omega
  simp [ByteBuffer.bytesUsed, ByteBuffer.skip, within]

theorem getUint_ahead (ahead : Ahead b (field ++ rest)) :
    b.getUint field.length = .ok (BigEndian.value field, b.skip field.length) := by
  have inside := ahead.inside
  rw [List.length_append] at inside
  have room : ¬ b.position + field.length > b.buffer.memory.length := by omega
  rw [ByteBuffer.getUint, if_neg room, bytesUsed_ahead ahead, ahead.first]
  rfl

theorem subarray_own (own : Own b) (first last : Nat) :
    b.buffer.subarray first last = (b.buffer.memory.take last).drop first := by
  rw [Uint8Array.subarray, Uint8Array.bytes, own.start, own.whole, slice, List.drop_zero,
    List.take_length]

theorem get_ready (ready : Ready b (field ++ rest)) :
    b.get field.length = .ok (field, b.skip field.length) := by
  have data : b.buffer.subarray b.position (b.position + field.length) = field := by
    rw [subarray_own ready.own, List.drop_take, Nat.add_sub_cancel_left]
    exact ready.toAhead.first
  have filled : overwrite (List.replicate field.length 0) 0 field = field := by
    simp [overwrite]
  rw [ByteBuffer.get, data, bytesUsed_ahead ready.toAhead, filled]
  rfl

theorem getU8_ahead {first : UInt8} (ahead : Ahead b (first :: rest)) :
    b.getU8 = .ok (first, b.skip 1) := by
  have whole : Ahead b ([first] ++ rest) := ahead
  have read := getUint_ahead whole
  have value : UInt8.ofNat (BigEndian.value [first]) = first := by
    simp [BigEndian.value, LittleEndian.value]
  rw [List.length_singleton] at read
  rw [ByteBuffer.getU8, read]
  exact congrArg (fun first => Except.ok (first, b.skip 1)) value

-- Byte by byte.
theorem getAll_bytes (ahead : Ahead b (field ++ rest)) (later : List Get) :
    b.getAll (List.replicate field.length Get.u8 ++ later) =
      ((b.skip field.length).getAll later).map (field.map Got.u8 ++ ·) := by
  induction field generalizing b with
  | nil =>
    have same : b.skip 0 = b := rfl
    simp only [List.length_nil, List.replicate_zero, List.nil_append, same, List.map_nil]
    cases b.getAll later <;> rfl
  | cons first field ih =>
    have whole : Ahead b ([first] ++ (field ++ rest)) := ahead
    have next : Ahead (b.skip 1) (field ++ rest) := whole.next
    have skip : (b.skip 1).skip field.length = b.skip (field.length + 1) := by
      simp only [ByteBuffer.skip]
      congr 1
      omega
    rw [List.length_cons, List.replicate_succ, List.cons_append, ByteBuffer.getAll,
      ByteBuffer.getOne, getU8_ahead ahead]
    simp only [bind, Except.bind, pure, Except.pure]
    rw [ih next, skip]
    cases (b.skip (field.length + 1)).getAll later <;> rfl

theorem getAll_stored {littleEndian : Bool} {put : Put}
    (ready : Ready b (put.stored littleEndian ++ rest)) (later : List Get) :
    b.getAll (List.replicate put.size Get.u8 ++ later) =
      ((b.skip put.size).getAll later).map ((put.stored littleEndian).map Got.u8 ++ ·) := by
  have read := getAll_bytes ready.toAhead later
  rwa [Put.length_stored] at read

theorem getAll_uint {width n : Nat} {littleEndian : Bool}
    (ready : Ready b (fieldOf littleEndian width n ++ rest)) :
    b.getUint width =
      .ok (BigEndian.value (fieldOf littleEndian width n), b.skip width) := by
  have read := getUint_ahead ready.toAhead
  rwa [length_fieldOf] at read

-- One reader, then the others.
theorem getAll_one {b' : ByteBuffer} {get : Get} {got : Got} (read : b.getOne get = .ok (got, b'))
    (later : List Get) : b.getAll (get :: later) = (b'.getAll later).map ([got] ++ ·) := by
  rw [ByteBuffer.getAll, read]
  simp only [bind, Except.bind]
  cases b'.getAll later <;> rfl

theorem getAll_put (littleEndian : Bool) (put : Put)
    (ready : Ready b (put.stored littleEndian ++ rest)) (later : List Get) :
    b.getAll (put.reads ++ later) =
      ((b.skip put.size).getAll later).map (put.got littleEndian ++ ·) := by
  cases put with
  | u8 data =>
    refine getAll_one ?_ later
    rw [ByteBuffer.getOne, getU8_ahead ready.toAhead]
    rfl
  | bool data =>
    refine getAll_one ?_ later
    rw [ByteBuffer.getOne, ByteBuffer.getBool, getU8_ahead ready.toAhead]
    cases data <;> rfl
  | u16 data =>
    refine getAll_one ?_ later
    rw [ByteBuffer.getOne, ByteBuffer.getU16, getAll_uint ready]
    rfl
  | u32 data =>
    refine getAll_one ?_ later
    rw [ByteBuffer.getOne, ByteBuffer.getU32, getAll_uint ready]
    rfl
  | utf8Raw text =>
    have whole : Ready b (Utf8.encode (Utf16.decode text) ++ rest) := ready
    refine getAll_one ?_ later
    rw [ByteBuffer.getOne, ByteBuffer.getUtf8Raw, get_ready whole]
    rfl
  | i8 data => exact getAll_stored ready later
  | i16 data => exact getAll_stored ready later
  | i32 data => exact getAll_stored ready later
  | u64 data => exact getAll_stored ready later
  | f32 data => exact getAll_stored ready later
  | u8Array data => exact getAll_stored ready later

theorem getAll_puts (littleEndian : Bool) (puts : List Put)
    (ready : Ready b (puts.flatMap (Put.stored littleEndian))) :
    b.getAll (puts.flatMap Put.reads) = .ok (puts.flatMap (Put.got littleEndian)) := by
  induction puts generalizing b with
  | nil => rfl
  | cons put puts ih =>
    rw [List.flatMap_cons] at ready
    have next := ready.next
    rw [Put.length_stored] at next
    rw [List.flatMap_cons, getAll_put littleEndian put ready, ih next]
    rfl

end Reading

section WriteRead

theorem flatMap_eq_iff {α β : Type} {f g : α → List β} {items : List α}
    (lengths : ∀ item ∈ items, (f item).length = (g item).length) :
    items.flatMap f = items.flatMap g ↔ ∀ item ∈ items, f item = g item := by
  induction items with
  | nil => simp
  | cons item items ih =>
    rw [List.flatMap_cons, List.flatMap_cons, List.forall_mem_cons,
      ← ih fun item member => lengths item (List.mem_cons_of_mem _ member)]
    constructor
    · intro same
      exact List.append_inj same (lengths item List.mem_cons_self)
    · rintro ⟨first, later⟩
      rw [first, later]

theorem value_lt (field : List UInt8) : BigEndian.value field < 256 ^ field.length := by
  have bound := LittleEndian.value_lt field.reverse
  rwa [List.length_reverse] at bound

theorem u16_kept_iff (littleEndian : Bool) (data : UInt16) :
    UInt16.ofNat (BigEndian.value (fieldOf littleEndian 2 data.toNat)) = data ↔
      (littleEndian = true → Symmetric 2 data.toNat) := by
  have small := value_lt (fieldOf littleEndian 2 data.toNat)
  rw [length_fieldOf] at small
  rw [← value_fieldOf_iff littleEndian (show data.toNat < 256 ^ 2 from data.toNat_lt),
    ← UInt16.toNat_inj, UInt16.toNat_ofNat_of_lt' small]

theorem u32_kept_iff (littleEndian : Bool) (data : UInt32) :
    UInt32.ofNat (BigEndian.value (fieldOf littleEndian 4 data.toNat)) = data ↔
      (littleEndian = true → Symmetric 4 data.toNat) := by
  have small := value_lt (fieldOf littleEndian 4 data.toNat)
  rw [length_fieldOf] at small
  rw [← value_fieldOf_iff littleEndian (show data.toNat < 256 ^ 4 from data.toNat_lt),
    ← UInt32.toNat_inj, UInt32.toNat_ofNat_of_lt' small]

theorem Put.kept_iff (littleEndian : Bool) (put : Put) :
    put.stored littleEndian = put.encoding littleEndian ∧
      put.got littleEndian = put.values littleEndian ↔ put.Kept littleEndian := by
  cases put with
  | u16 data =>
    simpa [Put.stored, Put.got, Put.values, Put.Kept] using u16_kept_iff littleEndian data
  | u32 data =>
    simpa [Put.stored, Put.got, Put.values, Put.Kept] using u32_kept_iff littleEndian data
  | i32 data =>
    have kept := fieldOf_symmetric_iff littleEndian 4 data.toUInt32.toNat
    simp only [Put.got, Put.values, Put.Kept, Put.encoding, Put.stored]
    exact ⟨fun both => kept.mp both.1, fun symmetric =>
      ⟨kept.mpr symmetric, congrArg _ (kept.mpr symmetric)⟩⟩
  | utf8Raw text => simpa [Put.stored, Put.got, Put.values, Put.Kept] using text_kept_iff text
  | u8 data => exact iff_of_true ⟨rfl, rfl⟩ trivial
  | bool data => exact iff_of_true ⟨rfl, rfl⟩ trivial
  | i8 data => exact iff_of_true ⟨rfl, rfl⟩ trivial
  | i16 data => exact iff_of_true ⟨rfl, rfl⟩ trivial
  | u64 data => exact iff_of_true ⟨rfl, rfl⟩ trivial
  | f32 data => exact iff_of_true ⟨rfl, rfl⟩ trivial
  | u8Array data => exact iff_of_true ⟨rfl, rfl⟩ trivial

theorem Put.length_got (littleEndian : Bool) (put : Put) :
    (put.got littleEndian).length = (put.values littleEndian).length := by
  cases put <;> simp [Put.got, Put.values, Put.stored, Put.encoding]

variable {capacity : Nat} {littleEndian : Bool} {puts : List Put}

theorem own_new (capacity : Nat) (littleEndian : Bool) :
    Own (ByteBuffer.new capacity littleEndian) :=
  ⟨rfl, (List.length_replicate ..).symm⟩

theorem size_append (before after : List Put) : size (before ++ after) = size before + size after := by
  rw [size, List.map_append, List.sum_append]
  rfl

theorem length_flatMap_encoding (littleEndian : Bool) (puts : List Put) :
    (puts.flatMap (Put.encoding littleEndian)).length = size puts := by
  rw [List.length_flatMap, size]
  simp only [Put.length_encoding]

theorem length_flatMap_stored (littleEndian : Bool) (puts : List Put) :
    (puts.flatMap (Put.stored littleEndian)).length = size puts := by
  rw [List.length_flatMap, size]
  simp only [Put.length_stored]

theorem remaining_flip {b : ByteBuffer} (own : Own b) :
    b.flip.getRemainingBuffer = b.buffer.memory.take b.position := by
  have flipped : Own b.flip := ⟨own.start, own.whole⟩
  rw [ByteBuffer.getRemainingBuffer, subarray_own flipped]
  rfl

-- A gap is seen in the length, unless the end of the memory cuts it off.
theorem WriteReadLaw.gapless (law : WriteReadLaw capacity littleEndian puts) :
    Gapless capacity puts := by
  rintro before data after rfl
  obtain ⟨b, called, remaining, -⟩ := law
  rw [putAll_append] at called
  cases first : (ByteBuffer.new capacity littleEndian).putAll before with
  | error error =>
    rw [first] at called
    contradiction
  | ok start =>
    rw [first] at called
    obtain ⟨begun, -⟩ := putAll_advanced (own_new capacity littleEndian) first
    change start.putAll (.u64 data :: after) = .ok b at called
    rw [ByteBuffer.putAll, List.foldlM_cons] at called
    cases second : start.put (.u64 data) with
    | error error =>
      rw [second] at called
      contradiction
    | ok middle =>
      rw [second] at called
      obtain ⟨advanced, room⟩ := put_advanced begun.own second
      obtain ⟨middle', done, wrote⟩ := putU64_wrote begun.own data (room (by simp))
      obtain rfl := Except.ok.inj (done.symm.trans second)
      obtain ⟨ended, later⟩ := putAll_advanced wrote.own called
      have eight : (Put.u64 data).size = 8 := rfl
      have total : size (before ++ Put.u64 data :: after) = size before + (8 + size after) :=
        size_append before (.u64 data :: after)
      have length := congrArg List.length remaining
      rw [remaining_flip ended.own, List.length_take, length_flatMap_encoding, total] at length
      have memory : b.buffer.memory.length = capacity := by
        rw [← ended.own.whole, ended.capacity, wrote.capacity, begun.capacity]
        rfl
      have position := wrote.position
      have behind := ended.position
      have before' : size before ≤ start.position := Nat.le_trans (Nat.le_add_left ..) begun.position
      have capacityMiddle : middle'.buffer.length = capacity := by
        rw [wrote.capacity, begun.capacity]
        rfl
      refine ⟨?_, by omega⟩
      by_contra more
      have some : ∃ put ∈ after, put ≠ .utf8Raw [] := by simpa using more
      have within := later some
      omega

-- What a run without a gap leaves.
structure Written (b : ByteBuffer) (capacity : Nat) (littleEndian : Bool) (puts : List Put) :
    Prop where
  own : Own b
  room : b.buffer.length = capacity
  stored : b.buffer.memory.take (size puts) = puts.flatMap (Put.stored littleEndian)
  position : size puts ≤ b.position
  ends : size puts = b.position ∨ size puts = capacity

theorem Gapless.written (gapless : Gapless capacity puts) (fits : size puts ≤ capacity) :
    ∃ b, (ByteBuffer.new capacity littleEndian).putAll puts = .ok b ∧
      Written b capacity littleEndian puts := by
  have own := own_new capacity littleEndian
  by_cases wide : ∃ data, .u64 data ∈ puts
  · obtain ⟨data, member⟩ := wide
    obtain ⟨before, after, rfl⟩ := List.append_of_mem member
    obtain ⟨empty, full⟩ := gapless before data after rfl
    -- An earlier one would be followed by this one.
    have narrow : ∀ data, .u64 data ∉ before := by
      intro other member
      obtain ⟨first, middle, rfl⟩ := List.append_of_mem member
      have empty := (gapless first other (middle ++ Put.u64 data :: after) (by simp)).1
      exact absurd (empty (.u64 data) (by simp)) (by simp)
    have total : size (before ++ Put.u64 data :: after) = size before + (8 + size after) :=
      size_append before (.u64 data :: after)
    rw [size_empty empty, Nat.add_zero] at total
    have room : (ByteBuffer.new capacity littleEndian).buffer.length = capacity := rfl
    have start : (ByteBuffer.new capacity littleEndian).position = 0 := rfl
    obtain ⟨b, called, wrote⟩ := putAll_wrote own narrow (by rw [room, start]; omega)
    have position := wrote.position
    have capacity' : b.buffer.length = capacity := wrote.capacity
    obtain ⟨b', last, wide⟩ := putU64_wrote wrote.own data (by omega)
    have both := wrote
    rw [← length_flatMap_stored littleEndian before] at both
    have both := both.trans wide
    refine ⟨b', ?_, both.own, both.capacity, ?_, ?_, .inr full⟩
    · rw [putAll_append, called]
      change b.putAll (.u64 data :: after) = .ok b'
      rw [ByteBuffer.putAll, List.foldlM_cons]
      change b.putU64 data none >>= _ = _
      rw [last]
      exact putAll_empty empty b'
    · have stored := both.stored
      have nothing : after.flatMap (Put.stored littleEndian) = [] :=
        List.eq_nil_of_length_eq_zero (by rw [length_flatMap_stored, size_empty empty])
      have order : b.littleEndian = littleEndian := wrote.littleEndian
      rw [List.length_append, length_flatMap_stored, length_fieldOf, start, Nat.zero_add, order]
        at stored
      rw [total, stored, List.take_zero, List.nil_append, List.flatMap_append, List.flatMap_cons,
        nothing, List.append_nil]
      rfl
    · rw [both.position, length_flatMap_stored]
      omega
  · have narrow : ∀ data, .u64 data ∉ puts := fun data member => wide ⟨data, member⟩
    have start : (ByteBuffer.new capacity littleEndian).position = 0 := rfl
    obtain ⟨b, called, wrote⟩ := putAll_wrote own narrow (by rwa [start, Nat.zero_add])
    have position := wrote.position
    rw [start, Nat.zero_add] at position
    refine ⟨b, called, wrote.own, wrote.capacity, ?_, position.symm.le, .inl position.symm⟩
    have stored := wrote.stored
    rw [length_flatMap_stored, start, Nat.zero_add] at stored
    rw [stored, List.take_zero, List.nil_append]
    rfl

theorem Written.remaining {b : ByteBuffer} (written : Written b capacity littleEndian puts) :
    b.flip.getRemainingBuffer = puts.flatMap (Put.stored littleEndian) := by
  rw [remaining_flip written.own, ← written.stored]
  rcases written.ends with exact | full
  · rw [exact]
  · have length : b.buffer.memory.length = capacity := by rw [← written.own.whole, written.room]
    have position := written.position
    rw [List.take_of_length_le (by omega), List.take_of_length_le (by omega)]

theorem Written.ready {b : ByteBuffer} (written : Written b capacity littleEndian puts)
    (fits : size puts ≤ capacity) : Ready b.flip (puts.flatMap (Put.stored littleEndian)) where
  own := ⟨written.own.start, written.own.whole⟩
  limit := by
    rw [length_flatMap_stored]
    exact (Nat.zero_add _).symm ▸ written.position
  inside := by
    have length : b.buffer.memory.length = capacity := by rw [← written.own.whole, written.room]
    rw [length_flatMap_stored]
    simp only [ByteBuffer.flip]
    omega
  data := by
    rw [length_flatMap_stored, ← written.stored]
    rfl

theorem writeReadLaw_iff (fits : size puts ≤ capacity) :
    WriteReadLaw capacity littleEndian puts ↔
      (∀ put ∈ puts, put.Kept littleEndian) ∧ Gapless capacity puts := by
  have kept : (puts.flatMap (Put.stored littleEndian) = puts.flatMap (Put.encoding littleEndian) ∧
      puts.flatMap (Put.got littleEndian) = puts.flatMap (Put.values littleEndian)) ↔
        ∀ put ∈ puts, put.Kept littleEndian := by
    rw [flatMap_eq_iff fun put _ => by rw [Put.length_stored, Put.length_encoding],
      flatMap_eq_iff fun put _ => Put.length_got littleEndian put]
    constructor
    · exact fun both put member => (put.kept_iff littleEndian).mp ⟨both.1 put member, both.2 put member⟩
    · exact fun kept => ⟨fun put member => ((put.kept_iff littleEndian).mpr (kept put member)).1,
        fun put member => ((put.kept_iff littleEndian).mpr (kept put member)).2⟩
  rw [← kept]
  constructor
  · intro law
    have gapless := law.gapless
    obtain ⟨b, called, remaining, read⟩ := law
    have filled : ∃ b', (ByteBuffer.new capacity littleEndian).putAll puts = .ok b' ∧
        Written b' capacity littleEndian puts := gapless.written fits
    obtain ⟨b', called', written⟩ := filled
    obtain rfl := Except.ok.inj (called'.symm.trans called)
    rw [written.remaining] at remaining
    rw [getAll_puts littleEndian puts (written.ready fits)] at read
    exact ⟨⟨remaining, Except.ok.inj read⟩, gapless⟩
  · rintro ⟨⟨stored, got⟩, gapless⟩
    obtain ⟨b, called, written⟩ := gapless.written fits
    refine ⟨b, called, written.remaining.trans stored, ?_⟩
    rw [getAll_puts littleEndian puts (written.ready fits), got]

end WriteRead

section Views

variable {array : Uint8Array}

def reading (array : Uint8Array) (littleEndian : Bool) (position : Nat) : ByteBuffer :=
  ⟨position, array.length, littleEndian, array⟩

theorem length_bytes (array : Uint8Array) : array.bytes.length = array.length :=
  LittleEndian.length_slice _ _ _ array.inside

theorem bytes_copy (array : Uint8Array) : array.copy.bytes = array.bytes := by
  have whole : array.bytes.take array.length = array.bytes :=
    List.take_of_length_le (length_bytes array).le
  exact whole

theorem bytesUsed_reading (array : Uint8Array) (littleEndian : Bool) (position amount : Nat) :
    (reading array littleEndian position).bytesUsed amount true =
      if position + amount > array.length then .error "failed to read over the limit"
      else .ok (reading array littleEndian (position + amount)) := by
  simp [reading, ByteBuffer.bytesUsed]

-- Both succeed with the same at the same place, or both fail.
def Alike {α : Type} (array : Uint8Array) (littleEndian : Bool)
    (one two : Except String (α × ByteBuffer)) : Prop :=
  (∃ data position, one = .ok (data, reading array littleEndian position) ∧
    two = .ok (data, reading array.copy littleEndian position)) ∨
    (∃ error, one = .error error) ∧ ∃ error, two = .error error

theorem Alike.bind {α β : Type} {littleEndian : Bool}
    {one two : Except String (α × ByteBuffer)} (alike : Alike array littleEndian one two)
    (f : α → β) :
    Alike array littleEndian (one >>= fun (data, b) => pure (f data, b))
      (two >>= fun (data, b) => pure (f data, b)) := by
  rcases alike with ⟨data, position, rfl, rfl⟩ | ⟨⟨error, rfl⟩, ⟨error', rfl⟩⟩
  · exact .inl ⟨f data, position, rfl, rfl⟩
  · exact .inr ⟨⟨error, rfl⟩, ⟨error', rfl⟩⟩

theorem getUint_alike (front : array.memory.take array.length = array.bytes) (littleEndian : Bool)
    (position width : Nat) :
    Alike array littleEndian ((reading array littleEndian position).getUint width)
      ((reading array.copy littleEndian position).getUint width) := by
  have inside := array.inside
  have length := length_bytes array
  have memory : (reading array littleEndian position).buffer.memory = array.memory := rfl
  have memory' : (reading array.copy littleEndian position).buffer.memory = array.bytes := rfl
  have place : (reading array littleEndian position).position = position := rfl
  have place' : (reading array.copy littleEndian position).position = position := rfl
  have limit : array.copy.length = array.length := rfl
  rw [ByteBuffer.getUint, ByteBuffer.getUint, bytesUsed_reading, bytesUsed_reading, memory,
    memory', place, place', limit, length]
  rcases Nat.lt_or_ge array.length (position + width) with behind | within
  · rw [if_pos behind, if_pos behind]
    split_ifs
    · exact .inr ⟨⟨_, rfl⟩, ⟨_, rfl⟩⟩
    · exact .inr ⟨⟨_, rfl⟩, ⟨_, rfl⟩⟩
  · have same : slice array.memory position width = slice array.bytes position width := by
      rw [← front, slice, slice, List.drop_take, List.take_take, Nat.min_eq_left (by omega)]
    rw [if_neg (by omega), if_neg (by omega), if_neg (by omega), if_neg (by omega), same]
    exact .inl ⟨_, _, rfl, rfl⟩

theorem get_alike (array : Uint8Array) (littleEndian : Bool) (position length : Nat) :
    Alike array littleEndian ((reading array littleEndian position).get length)
      ((reading array.copy littleEndian position).get length) := by
  have data (first last : Nat) : array.copy.subarray first last = array.subarray first last := by
    rw [Uint8Array.subarray, bytes_copy, Uint8Array.subarray]
  have limit : array.copy.length = array.length := rfl
  rw [ByteBuffer.get, ByteBuffer.get, bytesUsed_reading, bytesUsed_reading, limit]
  split_ifs
  · exact .inr ⟨⟨_, rfl⟩, ⟨_, rfl⟩⟩
  · refine .inl ⟨_, _, rfl, ?_⟩
    simp only [reading, data]
    rfl

theorem getOne_alike (front : array.memory.take array.length = array.bytes) (littleEndian : Bool)
    (position : Nat) (get : Get) :
    Alike array littleEndian ((reading array littleEndian position).getOne get)
      ((reading array.copy littleEndian position).getOne get) := by
  have uint := getUint_alike front littleEndian position
  cases get with
  | u8 => exact ((uint 1).bind UInt8.ofNat).bind Got.u8
  | u16 => exact ((uint 2).bind UInt16.ofNat).bind Got.u16
  | u32 => exact ((uint 4).bind UInt32.ofNat).bind Got.u32
  | bool => exact (((uint 1).bind UInt8.ofNat).bind (· != 0)).bind Got.bool
  | utf8Raw length =>
    exact ((get_alike array littleEndian position length).bind
      fun buffer => Utf16.encode (textDecode buffer)).bind Got.utf8Raw

theorem getAll_alike (front : array.memory.take array.length = array.bytes) (littleEndian : Bool)
    (position : Nat) (gets : List Get) :
    ((reading array littleEndian position).getAll gets).toOption =
      ((reading array.copy littleEndian position).getAll gets).toOption := by
  induction gets generalizing position with
  | nil => rfl
  | cons get gets ih =>
    rw [ByteBuffer.getAll, ByteBuffer.getAll]
    rcases getOne_alike front littleEndian position get with
      ⟨data, next, one, two⟩ | ⟨⟨error, one⟩, ⟨error', two⟩⟩
    · have later := ih next
      rw [one, two]
      simp only [bind, Except.bind]
      cases first : (reading array littleEndian next).getAll gets <;>
        cases second : (reading array.copy littleEndian next).getAll gets <;>
          rw [first, second] at later <;> simp_all [Except.toOption, pure, Except.pure]
    · rw [one, two]
      rfl

theorem viewLaw_iff (array : Uint8Array) (littleEndian : Bool) :
    ViewLaw array littleEndian ↔ array.memory.take array.length = array.bytes := by
  constructor
  · intro law
    have inside := array.inside
    have front : (array.memory.take array.length).length = array.length := by
      rw [List.length_take]
      omega
    -- Read byte by byte, the view gives the beginning of the memory.
    have one : Ahead (reading array littleEndian 0) (array.memory.take array.length ++ []) := by
      rw [List.append_nil]
      refine ⟨by rw [front]; exact (Nat.zero_add _).le, ?_, by rw [front]; rfl⟩
      rw [front]
      simp only [reading]
      omega
    have two : Ahead (reading array.copy littleEndian 0) (array.bytes ++ []) := by
      rw [List.append_nil]
      have length := length_bytes array
      refine ⟨by rw [length]; exact (Nat.zero_add _).le, (Nat.zero_add _).le, ?_⟩
      exact List.take_length
    have read := law (List.replicate array.length Get.u8 ++ [])
    have readOne := getAll_bytes one []
    have readTwo := getAll_bytes two []
    rw [front] at readOne
    rw [length_bytes] at readTwo
    change ((reading array littleEndian 0).getAll _).toOption =
      ((reading array.copy littleEndian 0).getAll _).toOption at read
    rw [readOne, readTwo] at read
    have bytes : (array.memory.take array.length).map Got.u8 = array.bytes.map Got.u8 := by
      simpa [ByteBuffer.getAll, Except.map, Except.toOption] using read
    exact List.map_injective_iff.mpr (fun _ _ same => Got.u8.inj same) bytes
  · intro front gets
    exact getAll_alike front littleEndian 0 gets

end Views

/-- Exactly which writes are read back, and which views are read as they are. -/
theorem byteBuffer_exact_iff (capacity : Nat) (littleEndian : Bool) (puts : List Put)
    (array : Uint8Array) (fits : size puts ≤ capacity) :
    (WriteReadLaw capacity littleEndian puts ↔
      (∀ put ∈ puts, put.Kept littleEndian) ∧ Gapless capacity puts) ∧
    (ViewLaw array littleEndian ↔ array.memory.take array.length = array.bytes) :=
  ⟨writeReadLaw_iff fits, viewLaw_iff array littleEndian⟩

theorem byteBuffer_exact_iff_full :
    (WriteReadLaw 9 true [.bool true, .u64 5] ↔
      (∀ put ∈ [Put.bool true, .u64 5], put.Kept true) ∧ Gapless 9 [.bool true, .u64 5]) ∧
    (ViewLaw (Uint8Array.new 2) true ↔
      (Uint8Array.new 2).memory.take (Uint8Array.new 2).length = (Uint8Array.new 2).bytes) :=
  byteBuffer_exact_iff 9 true [.bool true, .u64 5] (Uint8Array.new 2) (by decide)

-- A gap behind a wide number, swapped bytes, and the wrong end of the memory.
theorem byteBuffer_law_fails :
    (size [.u64 1, .u8 2] ≤ 24 ∧ ¬ WriteReadLaw 24 false [.u64 1, .u8 2]) ∧
    (size [.u16 1] ≤ 2 ∧ ¬ WriteReadLaw 2 true [.u16 1]) ∧
    ¬ ViewLaw ⟨[1, 2], 1, 1, by decide⟩ false := by
  refine ⟨⟨by decide, fun law => ?_⟩, ⟨by decide, fun law => ?_⟩, fun law => ?_⟩
  · exact absurd (law.gapless [] 1 [.u8 2] rfl).2 (by decide)
  · have kept : Put.Kept true (.u16 1) := ((writeReadLaw_iff (by decide)).mp law).1 _ (by simp)
    have other : (LittleEndian.bytes 2 1).reverse ≠ LittleEndian.bytes 2 1 := by decide
    exact other (kept rfl)
  · exact absurd ((viewLaw_iff _ _).mp law) (by decide)

end BrowserBuffer

end BetterParsec
