import BetterParsec.Library.LittleEndian
import BetterParsec.Library.Utf8

set_option autoImplicit false
set_option linter.all false

/-!
# Reading a byte buffer

The reading side of `buffer.rs`.  A getter takes its bytes with a slice, and a
slice out of range panics, so a reader is a state transformer that may have no
result.  Two judgements speak about readers: `Covers` says how many bytes are
enough for a reader not to panic, `Yields` what it returns on given bytes.
-/

namespace BetterParsec

inductive Utf8Error where
  | invalidChunks
  | bufferTooSmall
  deriving DecidableEq

structure ByteBuffer where
  position : Nat
  limit : Nat
  littleEndian : Bool
  buffer : List UInt8
  deriving DecidableEq

-- A float is its bit pattern here; nothing computes with it.
structure F32 where
  bits : UInt32
  deriving DecidableEq

-- No result is a panic.
abbrev Read := StateT ByteBuffer Option

namespace ByteBuffer

def new (buffer : List UInt8) : ByteBuffer where
  position := 0
  limit := buffer.length
  littleEndian := false
  buffer := buffer

def getU8Array (length : Nat) : Read (List UInt8) := fun b =>
  if b.position + length ≤ b.buffer.length then
    some (LittleEndian.slice b.buffer b.position length,
      { b with position := b.position + length })
  else none

def getU8 : Read UInt8 := do
  let array ← getU8Array 1
  pure (array.headD 0)

-- `from_le_bytes` or `from_be_bytes` of as many bytes as the integer has.
def getInteger (width : Nat) : Read Nat := do
  let array ← getU8Array width
  let b ← get
  pure (if b.littleEndian then LittleEndian.value array else BigEndian.value array)

def getBool : Read Bool := do
  pure ((← getU8) != 0)

def getI8 : Read Int8 := do
  pure (← getU8).toInt8

def getU16 : Read UInt16 := do
  pure (UInt16.ofNat (← getInteger 2))

def getI16 : Read Int16 := do
  pure (← getU16).toInt16

def getU32 : Read UInt32 := do
  pure (UInt32.ofNat (← getInteger 4))

def getF32 : Read F32 := do
  pure (F32.mk (← getU32))

-- The first characters of the bytes' first valid chunk.
def firstCharacters (characters : Nat) (bytes : List UInt8) : Except Utf8Error String :=
  if bytes = [] then .error .invalidChunks
  else
    let valid := Utf8.validChars bytes
    if valid.length < characters then .error .bufferTooSmall
    else .ok (String.ofList (valid.take characters))

-- The position stays where it was: only the text is returned.
def getUtf8Raw (characters : Nat) : Read (Except Utf8Error String) := fun b =>
  if characters = 0 then some (.ok "", b)
  else if b.position ≤ b.buffer.length then
    some (firstCharacters characters (b.buffer.drop b.position), b)
  else none

-- The subtraction panics when the position is behind the limit.
def remaining : Read Nat := fun b =>
  if b.position ≤ b.limit then some (b.limit - b.position, b) else none

def rest (b : ByteBuffer) : List UInt8 := b.buffer.drop b.position

-- What `new` sets up and every getter keeps.
structure Reading (b : ByteBuffer) : Prop where
  limited : b.limit = b.buffer.length
  inside : b.position ≤ b.buffer.length
  bigEndian : b.littleEndian = false

theorem reading_new (bytes : List UInt8) : Reading (new bytes) :=
  ⟨rfl, Nat.zero_le _, rfl⟩

theorem rest_new (bytes : List UInt8) : (new bytes).rest = bytes := rfl

theorem Reading.length_rest {b : ByteBuffer} (_ : Reading b) :
    b.rest.length = b.buffer.length - b.position := by
  rw [rest, List.length_drop]

theorem remaining_run {b : ByteBuffer} (h : Reading b) :
    remaining b = some (b.rest.length, b) := by
  have inside : b.position ≤ b.limit := h.limited ▸ h.inside
  rw [remaining, if_pos inside, h.length_rest, h.limited]

-- The reader takes `width` bytes from the front of what is left and decodes them.
def Takes {α : Type} (width : Nat) (p : Read α) (decode : List UInt8 → α) : Prop :=
  ∀ b, Reading b → width ≤ b.rest.length →
    ∃ b', p b = some (decode (b.rest.take width), b') ∧ Reading b' ∧
      b'.rest = b.rest.drop width

-- `count` bytes are enough for the reader not to panic.
def Covers {α : Type} (count : Nat) (p : Read α) : Prop :=
  ∀ b, Reading b → count ≤ b.rest.length → (p b).isSome

-- On these bytes the reader returns this value.
def Yields {α : Type} (p : Read α) (input : List UInt8) (value : α) : Prop :=
  ∀ b, Reading b → b.rest = input → ∃ b', p b = some (value, b')

theorem takes_getU8Array (length : Nat) : Takes length (getU8Array length) id := by
  intro b h enough
  have range : b.position + length ≤ b.buffer.length := by
    have inside := h.inside
    rw [h.length_rest] at enough
    omega
  refine ⟨{ b with position := b.position + length }, ?_, ⟨h.limited, range, h.bigEndian⟩, ?_⟩
  · rw [getU8Array, if_pos range]
    rfl
  · exact List.drop_drop.symm

theorem takes_getInteger (width : Nat) : Takes width (getInteger width) BigEndian.value := by
  intro b h enough
  obtain ⟨b', taken, reading, left⟩ := takes_getU8Array width b h enough
  refine ⟨b', ?_, reading, left⟩
  have value : getInteger width b = some
      (if b'.littleEndian then LittleEndian.value (b.rest.take width)
        else BigEndian.value (b.rest.take width), b') := by
    simp only [getInteger, bind, StateT.bind, taken, Option.bind_some]
    rfl
  rw [value, reading.bigEndian]
  rfl

section Rules

variable {α β : Type} {count width : Nat} {input field left : List UInt8} {value : β}
  {p : Read α} {decode : List UInt8 → α} {f : α → Read β}

theorem Takes.map (h : Takes width p decode) (g : α → β) :
    Takes width (do pure (g (← p))) (g ∘ decode) := by
  intro b reading enough
  obtain ⟨b', taken, rest⟩ := h b reading enough
  refine ⟨b', ?_, rest⟩
  simp only [bind, StateT.bind, taken, Option.bind_some]
  rfl

theorem takes_getU8 : Takes 1 getU8 (·.headD 0) := (takes_getU8Array 1).map _

theorem takes_getBool : Takes 1 getBool (fun field => field.headD 0 != 0) := takes_getU8.map _

theorem takes_getI8 : Takes 1 getI8 (fun field => (field.headD 0).toInt8) := takes_getU8.map _

theorem takes_getU16 : Takes 2 getU16 (fun field => UInt16.ofNat (BigEndian.value field)) :=
  (takes_getInteger 2).map _

theorem takes_getI16 :
    Takes 2 getI16 (fun field => (UInt16.ofNat (BigEndian.value field)).toInt16) :=
  takes_getU16.map _

theorem takes_getU32 : Takes 4 getU32 (fun field => UInt32.ofNat (BigEndian.value field)) :=
  (takes_getInteger 4).map _

theorem takes_getF32 :
    Takes 4 getF32 (fun field => F32.mk (UInt32.ofNat (BigEndian.value field))) :=
  takes_getU32.map _

theorem covers_pure (b : β) : Covers count (pure b : Read β) :=
  fun _ _ _ => rfl

theorem Covers.ite {p q : Read β} {condition : Prop} [Decidable condition] (yes : Covers count p)
    (no : Covers count q) : Covers count (if condition then p else q) := by
  split
  · exact yes
  · exact no

theorem yields_pure (b : β) : Yields (pure b : Read β) input b :=
  fun buffer _ _ => ⟨buffer, rfl⟩

theorem Covers.more {less : Nat} (h : Covers less p) (le : less ≤ count) : Covers count p :=
  fun b reading enough => h b reading (Nat.le_trans le enough)

theorem Takes.covers_bind (h : Takes width p decode) (covered : width ≤ count)
    (next : ∀ a, Covers (count - width) (f a)) : Covers count (p >>= f) := by
  intro b reading enough
  obtain ⟨b', taken, reading', rest⟩ := h b reading (by omega)
  have step : (p >>= f) b = f (decode (b.rest.take width)) b' := by
    simp only [bind, StateT.bind, taken, Option.bind_some]
  rw [step]
  apply next _ b' reading'
  rw [rest, List.length_drop]
  omega

theorem Takes.yields_bind (h : Takes width p decode) (length : field.length = width)
    (next : Yields (f (decode field)) left value) : Yields (p >>= f) (field ++ left) value := by
  intro b reading all
  obtain ⟨b', taken, reading', rest⟩ := h b reading (by rw [all, List.length_append]; omega)
  rw [all, List.take_left' length] at taken
  rw [all, List.drop_left' length] at rest
  have step : (p >>= f) b = f (decode field) b' := by
    simp only [bind, StateT.bind, taken, Option.bind_some]
  rw [step]
  exact next b' reading' rest

theorem remaining_bind {f : Nat → Read β} {b : ByteBuffer} (h : Reading b) :
    (remaining >>= f) b = f b.rest.length b := by
  simp only [bind, StateT.bind, remaining_run h, Option.bind_some]

theorem covers_remaining {f : Nat → Read β}
    (next : ∀ left, count ≤ left → Covers left (f left)) : Covers count (remaining >>= f) := by
  intro b reading enough
  rw [remaining_bind reading]
  exact next _ enough b reading (Nat.le_refl _)

theorem yields_remaining {f : Nat → Read β} (next : Yields (f input.length) input value) :
    Yields (remaining >>= f) input value := by
  intro b reading all
  rw [remaining_bind reading, all]
  exact next b reading all

-- What `getUtf8Raw` finds in the bytes that are left.
def utf8Raw (characters : Nat) (bytes : List UInt8) : Except Utf8Error String :=
  if characters = 0 then .ok "" else firstCharacters characters bytes

theorem getUtf8Raw_run {b : ByteBuffer} (h : Reading b) (characters : Nat) :
    getUtf8Raw characters b = some (utf8Raw characters b.rest, b) := by
  by_cases none : characters = 0
  · rw [getUtf8Raw, utf8Raw, if_pos none, if_pos none]
  · rw [getUtf8Raw, utf8Raw, if_neg none, if_neg none, if_pos h.inside]
    rfl

theorem covers_getUtf8Raw {f : Except Utf8Error String → Read β} (characters : Nat)
    (next : ∀ result, Covers count (f result)) : Covers count (getUtf8Raw characters >>= f) := by
  intro b reading enough
  have step : (getUtf8Raw characters >>= f) b = f (utf8Raw characters b.rest) b := by
    simp only [bind, StateT.bind, getUtf8Raw_run reading, Option.bind_some]
  rw [step]
  exact next _ b reading enough

theorem yields_getUtf8Raw {f : Except Utf8Error String → Read β} (characters : Nat)
    (next : Yields (f (utf8Raw characters input)) input value) :
    Yields (getUtf8Raw characters >>= f) input value := by
  intro b reading all
  have step : (getUtf8Raw characters >>= f) b = f (utf8Raw characters b.rest) b := by
    simp only [bind, StateT.bind, getUtf8Raw_run reading, Option.bind_some]
  rw [step, all]
  exact next b reading all

end Rules

/-- A text is read back exactly when the count is its number of characters. -/
theorem utf8Raw_encode_iff (text : List Char) (characters : Nat) :
    utf8Raw characters (Utf8.encode text) = .ok (String.ofList text) ↔
      characters = text.length := by
  rw [utf8Raw, firstCharacters, Utf8.validChars_encode]
  cases text with
  | nil =>
    by_cases none : characters = 0
    · simp [none]
    · simp [none, Utf8.encode]
  | cons c text =>
    have some : Utf8.encode (c :: text) ≠ [] := by
      intro none
      have width := c.utf8Size_pos
      have length := Utf8.length_encode_cons c text
      rw [none, List.length_nil] at length
      omega
    by_cases none : characters = 0
    · simp [none]
    · rw [if_neg none, if_neg some]
      by_cases short : (c :: text).length < characters
      · rw [if_pos short]
        simp only [reduceCtorEq, false_iff]
        omega
      · rw [if_neg short, Except.ok.injEq, String.ofList_inj, List.take_eq_self_iff]
        omega

end ByteBuffer

end BetterParsec
