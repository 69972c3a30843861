import BetterParsec.Library.Runs

set_option autoImplicit false
set_option linter.all false

/-!
# Units in packets

A unit that is too long for a packet is cut into chunks that carry a flag at
the first and one at the last, and several short units share a packet, each
after its length. The receiver keeps the unit whose chunks are arriving.
-/

namespace Packets

variable {A P : Type}

def chunksWithin (size : Nat) : Nat → List A → List (List A)
  | 0, _ => []
  | _ + 1, [] => []
  | fuel + 1, first :: rest =>
      (first :: rest).take size :: chunksWithin size fuel ((first :: rest).drop size)

-- Pieces of this size, the last one possibly shorter.
def chunks (size : Nat) (items : List A) : List (List A) :=
  chunksWithin size items.length items

theorem flatten_chunksWithin {size fuel : Nat} {items : List A} (positive : 0 < size)
    (enough : items.length ≤ fuel) : (chunksWithin size fuel items).flatten = items := by
  induction fuel generalizing items with
  | zero => simp [chunksWithin, List.eq_nil_of_length_eq_zero (Nat.le_zero.mp enough)]
  | succ fuel ih =>
    cases items with
    | nil => rfl
    | cons first rest =>
      have shorter : ((first :: rest).drop size).length ≤ fuel := by
        rw [List.length_drop]
        omega
      rw [chunksWithin, List.flatten_cons, ih shorter, List.take_append_drop]

theorem flatten_chunks {size : Nat} (positive : 0 < size) (items : List A) :
    (chunks size items).flatten = items :=
  flatten_chunksWithin positive le_rfl

theorem length_le_of_mem_chunks {size : Nat} {items chunk : List A}
    (member : chunk ∈ chunks size items) : chunk.length ≤ size := by
  have general : ∀ fuel (items : List A), chunk ∈ chunksWithin size fuel items →
      chunk.length ≤ size := by
    intro fuel
    induction fuel with
    | zero => simp [chunksWithin]
    | succ fuel ih =>
      intro items member
      cases items with
      | nil => simp [chunksWithin] at member
      | cons first rest =>
        rcases List.mem_cons.mp member with rfl | later
        · exact List.length_take_le size _
        · exact ih _ later
  exact general _ items member

theorem two_le_length_chunks {size : Nat} {items : List A} (positive : 0 < size)
    (long : size < items.length) : 2 ≤ (chunks size items).length := by
  by_contra! few
  -- One chunk is too short for all items.
  have whole := congrArg List.length (flatten_chunks positive items)
  cases pieces : chunks size items with
  | nil =>
    rw [pieces] at whole
    simp at whole
    omega
  | cons piece rest =>
    have short : piece.length ≤ size :=
      length_le_of_mem_chunks (by rw [pieces]; exact List.mem_cons_self)
    rw [pieces, List.length_cons] at few
    obtain rfl : rest = [] := List.eq_nil_of_length_eq_zero (by omega)
    rw [pieces] at whole
    simp at whole
    omega

-- The chunks of a unit as packets that are told whether they are the first and the last one.
def flagged (packet : Bool → Bool → List A → P) : Bool → List (List A) → List P
  | _, [] => []
  | first, [last] => [packet first true last]
  | first, chunk :: next :: rest => packet first false chunk :: flagged packet false (next :: rest)

theorem mem_flagged {packet : Bool → Bool → List A → P} {first : Bool} {pieces : List (List A)}
    {made : P} (member : made ∈ flagged packet first pieces) :
    ∃ begins ends, ∃ piece ∈ pieces, made = packet begins ends piece := by
  induction pieces generalizing first with
  | nil => simp [flagged] at member
  | cons piece rest ih =>
    cases rest with
    | nil => exact ⟨first, true, piece, List.mem_cons_self, List.mem_singleton.mp member⟩
    | cons next rest =>
      rcases List.mem_cons.mp member with here | later
      · exact ⟨first, false, piece, List.mem_cons_self, here⟩
      · obtain ⟨begins, ends, found, inside, same⟩ := ih later
        exact ⟨begins, ends, found, List.mem_cons_of_mem _ inside, same⟩

@[simp] theorem length_flagged (packet : Bool → Bool → List A → P) (first : Bool)
    (pieces : List (List A)) : (flagged packet first pieces).length = pieces.length := by
  induction pieces generalizing first with
  | nil => rfl
  | cons piece rest ih =>
    cases rest with
    | nil => rfl
    | cons next rest => simp [flagged, ih]

theorem getElem?_flagged (packet : Bool → Bool → List A → P) (first : Bool)
    (pieces : List (List A)) (index : Nat) :
    (flagged packet first pieces)[index]? = pieces[index]?.map
      (packet (first && index = 0) (index + 1 = pieces.length)) := by
  induction pieces generalizing first index with
  | nil => rfl
  | cons piece rest ih =>
    cases rest with
    | nil => cases index <;> simp [flagged]
    | cons next rest =>
      cases index with
      | zero => simp [flagged]
      | succ index => simp [flagged, ih]

theorem map_flagged {Q : Type} (packet : Bool → Bool → List A → P) (f : P → Q) (first : Bool)
    (pieces : List (List A)) :
    (flagged packet first pieces).map f =
      flagged (fun begins ends piece => f (packet begins ends piece)) first pieces := by
  induction pieces generalizing first with
  | nil => rfl
  | cons piece rest ih =>
    cases rest with
    | nil => rfl
    | cons next rest => simp [flagged, ih]

-- What a packet is for its receiver.
inductive Received (A : Type) where
  | units (units : List (List A))
  | fragment (first last : Bool) (header payload : List A)

namespace Received

def begins : Received A → Bool
  | .units _ => false
  | .fragment first _ _ _ => first

def ends : Received A → Bool
  | .units _ => false
  | .fragment _ last _ _ => last

def header : Received A → List A
  | .units _ => []
  | .fragment _ _ header _ => header

def payload : Received A → List A
  | .units _ => []
  | .fragment _ _ _ payload => payload

end Received

-- The unit whose fragments are arriving, and the units that are complete.
def reassemble (begun : Option (List A)) : Received A → Option (List A) × List (List A)
  | .units units => (none, units)
  | .fragment first last header payload =>
      match if first then some header else begun with
      | none => (none, [])
      | some front => if last then (none, [front ++ payload]) else (some (front ++ payload), [])

theorem run_fragments (header : List A) (begun : Option (List A)) {pieces : List (List A)}
    (some_ : pieces ≠ []) (first : Bool) (front : List A)
    (known : (if first then some header else begun) = some front) :
    Runs.run reassemble begun
        (flagged (fun begins ends piece => .fragment begins ends header piece) first pieces) =
      (none, [front ++ pieces.flatten]) := by
  induction pieces generalizing first begun front with
  | nil => exact absurd rfl some_
  | cons piece rest ih =>
    cases rest with
    | nil => simp [flagged, Runs.run, reassemble, known]
    | cons next rest =>
      have later := ih (some (front ++ piece)) (by simp) false (front ++ piece) rfl
      simp only [flagged, Runs.run, reassemble, known, Bool.false_eq_true, if_false, later]
      simp

/-- Cutting a unit and sending the pieces gives it back, whatever was begun before. -/
theorem run_flagged_chunks {size : Nat} (positive : 0 < size) (header payload : List A)
    (some_ : payload ≠ []) (begun : Option (List A)) :
    Runs.run reassemble begun
        (flagged (fun begins ends piece => .fragment begins ends header piece) true
          (chunks size payload)) = (none, [header ++ payload]) := by
  have pieces : chunks size payload ≠ [] := by
    intro empty
    have whole := flatten_chunks positive payload
    rw [empty] at whole
    exact some_ whole.symm
  rw [run_fragments header begun pieces true header rfl, flatten_chunks positive]

-- Several packets, the first one flagged as the first and the last one as the last, that carry the
-- unit: its header as the first packet has it, and the payloads one after the other.
structure Fragments (received : List (Received A)) (unit : List A) : Prop where
  several : 2 ≤ received.length
  begins : ∀ index packet, received[index]? = some packet → (packet.begins ↔ index = 0)
  ends : ∀ index packet, received[index]? = some packet →
    (packet.ends ↔ index + 1 = received.length)
  whole : ∃ first ∈ received.head?, first.header ++ received.flatMap Received.payload = unit

theorem payload_flagged (header : List A) (first : Bool) (pieces : List (List A)) :
    (flagged (fun begins ends piece => Received.fragment begins ends header piece)
      first pieces).flatMap Received.payload = pieces.flatten := by
  induction pieces generalizing first with
  | nil => rfl
  | cons piece rest ih =>
    cases rest with
    | nil => rfl
    | cons next rest => simp [flagged, ih, Received.payload]

theorem fragments_flagged {size : Nat} (positive : 0 < size) (header : List A) {items : List A}
    (long : size < items.length) :
    Fragments (flagged (fun begins ends piece => Received.fragment begins ends header piece) true
      (chunks size items)) (header ++ items) := by
  have several := two_le_length_chunks positive long
  refine ⟨by rwa [length_flagged], fun index packet found => ?_, fun index packet found => ?_, ?_⟩
  · rw [getElem?_flagged, Option.map_eq_some_iff] at found
    obtain ⟨piece, -, rfl⟩ := found
    simp [Received.begins]
  · rw [getElem?_flagged, Option.map_eq_some_iff] at found
    obtain ⟨piece, -, rfl⟩ := found
    simp [Received.ends]
  · rw [payload_flagged, flatten_chunks positive]
    match chunks size items, several with
    | piece :: next :: rest, _ => exact ⟨_, rfl, rfl⟩

section Sized

-- A unit after its length in two bytes, the higher one first.
def sized (bytes : List UInt8) : List UInt8 :=
  UInt8.ofNat (bytes.length / 256) :: UInt8.ofNat bytes.length :: bytes

def unitsWithin : Nat → List UInt8 → List (List UInt8)
  | fuel + 1, high :: low :: rest =>
      let size := high.toNat * 256 + low.toNat
      if size ≤ rest.length then rest.take size :: unitsWithin fuel (rest.drop size) else []
  | _, _ => []

-- The units of a packet.
def unitsOf (bytes : List UInt8) : List (List UInt8) := unitsWithin bytes.length bytes

theorem unitsWithin_sized {units : List (List UInt8)} {fuel : Nat}
    (short : ∀ bytes ∈ units, bytes.length < 2 ^ 16) (enough : units.length ≤ fuel) :
    unitsWithin fuel (units.flatMap sized) = units := by
  induction units generalizing fuel with
  | nil => cases fuel <;> rfl
  | cons bytes rest ih =>
    cases fuel with
    | zero => simp at enough
    | succ fuel =>
      have small := short bytes List.mem_cons_self
      have size : (UInt8.ofNat (bytes.length / 256)).toNat * 256 +
          (UInt8.ofNat bytes.length).toNat = bytes.length := by
        rw [UInt8.toNat_ofNat', UInt8.toNat_ofNat']
        omega
      have later := ih (fun other member => short other (List.mem_cons_of_mem _ member))
        (Nat.le_of_succ_le_succ enough)
      rw [List.flatMap_cons, sized, List.cons_append, List.cons_append, unitsWithin]
      simp only [size, List.length_append, Nat.le_add_right, if_true, List.take_left',
        List.drop_left', later]

theorem unitsOf_sized {units : List (List UInt8)}
    (short : ∀ bytes ∈ units, bytes.length < 2 ^ 16) :
    unitsOf (units.flatMap sized) = units := by
  apply unitsWithin_sized short
  clear short
  induction units with
  | nil => simp
  | cons bytes rest ih =>
    simp only [List.flatMap_cons, List.length_cons, List.length_append, sized] at ih ⊢
    omega

end Sized

end Packets
