import BetterParsec.Library.Runs

set_option autoImplicit false
set_option linter.all false

/-!
# Controllers of the browser

The gamepad part of `StreamInput` in `web/stream/input.ts` once the stream is
connected. A controller has three numbers: the index the browser gives its
gamepad, the slot it takes in `gamepads`, and the id it is announced under.
-/

namespace BetterParsec

namespace Web

-- The numerators of the motor values, which the code divides by 0xFFFF.
structure Rumble where
  lowFrequencyMotor : UInt16
  highFrequencyMotor : UInt16
  leftTrigger : UInt16
  rightTrigger : UInt16
  deriving DecidableEq

-- A gamepad as `navigator.getGamepads()` gives it, with the state read off it.
structure Pad (State : Type) where
  standard : Bool
  state : State
  deriving DecidableEq

-- `oldState` is left out: it is compared by identity with a new object, so never equal.
structure Controllers where
  gamepads : List (Option Nat)
  gamepadRumbleCurrent : List (Option Rumble)
  sendIntervalOverride : Option Nat
  lastGamepadUpdate : Nat
  deriving DecidableEq

inductive ControllerInput (State : Type) where
  | connect (index : Nat)
  | disconnect (index : Nat)
  -- The two readings of the clock, and the gamepads of the browser by index.
  | update (now later : Nat) (pads : List (Option (Pad State)))
  | rumble (id : UInt8) (lowFrequencyMotor highFrequencyMotor : UInt16)
  | triggerRumble (id : UInt8) (leftTrigger rightTrigger : UInt16)
  deriving DecidableEq

inductive ControllerMessage (State : Type) where
  | add (id : UInt8)
  | remove (id : UInt8)
  -- Sent on the channel of its own.
  | state (channel : Nat) (state : State)
  -- `Object.assign` throws on an entry that is not there.
  | typeError
  deriving DecidableEq

namespace Controllers

variable {State : Type}

def new (sendIntervalOverride : Option Nat) (now : Nat) : Controllers :=
  ⟨[], [], sendIntervalOverride, now⟩

-- The first free slot, or a new one.
def place (gamepads : List (Option Nat)) (index : Nat) : List (Option Nat) :=
  match gamepads.findIdx? (· = none) with
  | some id => gamepads.set id (some index)
  | none => gamepads ++ [some index]

def resetRumble : List (Option Rumble) → List (Option Rumble)
  | [] => [some ⟨0, 0, 0, 0⟩]
  | _ :: rest => some ⟨0, 0, 0, 0⟩ :: rest

def onGamepadConnect (input : Controllers) (index : Nat) :
    Controllers × List (ControllerMessage State) :=
  if some index ∈ input.gamepads then (input, [])
  else
    let gamepads := place input.gamepads index
    ({ input with
        gamepads := gamepads
        gamepadRumbleCurrent := resetRumble input.gamepadRumbleCurrent },
      [.add (UInt8.ofNat (gamepads.length - 1))])

def onGamepadDisconnect (input : Controllers) (index : Nat) :
    Controllers × List (ControllerMessage State) :=
  match input.gamepads.findIdx? (· = some index) with
  | none => (input, [])
  | some slot =>
      ({ input with gamepads := input.gamepads.set slot none }, [.remove (UInt8.ofNat index)])

-- There are sixteen channels; what goes to another one is dropped.
def sendController (id : Nat) (state : State) : List (ControllerMessage State) :=
  if id < 16 then [.state id state] else []

-- The loop over the slots, which returns at the first empty one.
def updateFrom (pads : List (Option (Pad State))) :
    Nat → List (Option Nat) → List (ControllerMessage State)
  | _, [] => []
  | _, none :: _ => []
  | id, some index :: rest =>
      (match pads.getD index none with
      | some pad => if pad.standard then sendController id pad.state else []
      | none => []) ++ updateFrom pads (id + 1) rest

-- `now - last < 1000 / override`.
def limited (input : Controllers) (now : Nat) : Bool :=
  match input.sendIntervalOverride with
  | some rate => (now - input.lastGamepadUpdate) * rate < 1000
  | none => false

def onGamepadUpdate (input : Controllers) (now later : Nat) (pads : List (Option (Pad State))) :
    Controllers × List (ControllerMessage State) :=
  if input.limited now then (input, [])
  else
    (if input.sendIntervalOverride.isSome then { input with lastGamepadUpdate := later } else input,
      updateFrom pads 0 input.gamepads)

def setGamepadEffect (input : Controllers) (id : Nat) (change : Rumble → Rumble) :
    Controllers × List (ControllerMessage State) :=
  match input.gamepadRumbleCurrent.getD id none with
  | none => (input, [.typeError])
  | some rumble =>
      ({ input with
          gamepadRumbleCurrent := input.gamepadRumbleCurrent.set id (some (change rumble)) }, [])

def onControllerData (input : Controllers) (id : UInt8) (change : Rumble → Rumble) :
    Controllers × List (ControllerMessage State) :=
  match input.gamepads.getD id.toNat none with
  | none => (input, [])
  | some gamepadIndex => input.setGamepadEffect gamepadIndex change

def withMotors (low high : UInt16) (rumble : Rumble) : Rumble :=
  { rumble with lowFrequencyMotor := low, highFrequencyMotor := high }

def withTriggers (left right : UInt16) (rumble : Rumble) : Rumble :=
  { rumble with leftTrigger := left, rightTrigger := right }

def call (input : Controllers) :
    ControllerInput State → Controllers × List (ControllerMessage State)
  | .connect index => input.onGamepadConnect index
  | .disconnect index => input.onGamepadDisconnect index
  | .update now later pads => input.onGamepadUpdate now later pads
  | .rumble id low high => input.onControllerData id (withMotors low high)
  | .triggerRumble id left right => input.onControllerData id (withTriggers left right)

-- An event together with what was sent for it.
def step (input : Controllers) (event : ControllerInput State) :
    Controllers × List (ControllerInput State × List (ControllerMessage State)) :=
  ((input.call event).1, [(event, (input.call event).2)])

end Controllers

section Registry

variable {State : Type}

-- The connected gamepads, each with the id that was announced for it.
abbrev Registry := List (Nat × Option UInt8)

def ControllerMessage.added? : ControllerMessage State → Option UInt8
  | .add id => some id
  | .remove _ | .state _ _ | .typeError => none

def Registry.next (registry : Registry) :
    ControllerInput State × List (ControllerMessage State) → Registry
  | (.connect index, sent) =>
      if index ∈ registry.map Prod.fst then registry
      else registry ++ [(index, (sent.filterMap ControllerMessage.added?).head?)]
  | (.disconnect index, _) => registry.filter (·.1 ≠ index)
  | (.update _ _ _, _) | (.rumble _ _ _, _) | (.triggerRumble _ _ _, _) => registry

def registryOf (history : List (ControllerInput State × List (ControllerMessage State))) :
    Registry :=
  history.foldl Registry.next []

-- `ActiveGamepads` of the host, which knows the ids below 16.
def hostNext (active : Finset UInt8) : ControllerMessage State → Finset UInt8
  | .add id => if id.toNat < 16 then insert id active else active
  | .remove id => if id.toNat < 16 then active.erase id else active
  | .state _ _ | .typeError => active

def hostOf (history : List (ControllerInput State × List (ControllerMessage State))) :
    Finset UInt8 :=
  (history.flatMap Prod.snd).foldl hostNext ∅

-- One id for each connected gamepad, and no other.
def Consistent (registry : Registry) (active : Finset UInt8) : Prop :=
  ∃ ids : List UInt8, registry.map Prod.snd = ids.map some ∧ ids.Nodup ∧ active = ids.toFinset

-- The states of the standard gamepads, each on the channel of the id announced for it.
def stateMessages (pads : List (Option (Pad State))) (registry : Registry) :
    List (ControllerMessage State) :=
  registry.filterMap fun entry =>
    match pads.getD entry.1 none, entry.2 with
    | some pad, some id => if pad.standard then some (.state id.toNat pad.state) else none
    | _, _ => none

-- A rumble message for an announced id changes the entry of its gamepad and throws nothing.
def Rumbles (registry : Registry) (input : Controllers) (id : UInt8) (change : Rumble → Rumble)
    (answer : Controllers × List (ControllerMessage State)) : Prop :=
  ∀ index, (index, some id) ∈ registry → answer.2 = [] ∧
    ∃ rumble, input.gamepadRumbleCurrent.getD index none = some rumble ∧
      answer.1.gamepadRumbleCurrent.getD index none = some (change rumble)

-- What an event has to lead to after the history before it.
def Sound (history : List (ControllerInput State × List (ControllerMessage State)))
    (input : Controllers) (event : ControllerInput State) : Prop :=
  match event with
  | .connect _ | .disconnect _ => True
  | .update now _ pads =>
      input.limited now = false →
        (input.call event).2 = stateMessages pads (registryOf history)
  | .rumble id low high =>
      Rumbles (registryOf history) input id (Controllers.withMotors low high) (input.call event)
  | .triggerRumble id left right =>
      Rumbles (registryOf history) input id (Controllers.withTriggers left right)
        (input.call event)

-- At most sixteen gamepads are there at a time.
def Few (history : List (ControllerInput State × List (ControllerMessage State))) :
    ControllerInput State → Prop
  | .connect index =>
      index ∈ (registryOf history).map Prod.fst ∨ (registryOf history).length < 16
  | _ => True

-- A gamepad comes when no slot before the last one is free, and leaves a slot with the number of
-- its index; the states are read when no slot before a taken one is free, and the gamepad that
-- rumbles is the one of index 0.
def Regular (input : Controllers) : ControllerInput State → Prop
  | .connect index =>
      some index ∈ input.gamepads ∨ none ∉ input.gamepads.dropLast
  | .disconnect index => ∀ slot ∈ input.gamepads.findIdx? (· = some index), slot = index
  | .update _ _ _ => ∀ slot ∈ input.gamepads.dropWhile Option.isSome, slot = none
  | .rumble id _ _ | .triggerRumble id _ _ =>
      ∀ index ∈ input.gamepads.getD id.toNat none, index = 0

instance decidableFew (history : List (ControllerInput State × List (ControllerMessage State)))
    (event : ControllerInput State) : Decidable (Few history event) :=
  match event with
  | .connect _ => inferInstanceAs (Decidable (_ ∨ _))
  | .disconnect _ | .update _ _ _ | .rumble _ _ _ | .triggerRumble _ _ _ => .isTrue trivial

instance decidableRegular (input : Controllers) (event : ControllerInput State) :
    Decidable (Regular input event) :=
  match event with
  | .connect _ => inferInstanceAs (Decidable (_ ∨ _))
  | .disconnect _ => inferInstanceAs (Decidable (∀ slot ∈ _, _))
  | .update _ _ _ => inferInstanceAs (Decidable (∀ slot ∈ _, _))
  | .rumble _ _ _ => inferInstanceAs (Decidable (∀ index ∈ _, _))
  | .triggerRumble _ _ _ => inferInstanceAs (Decidable (∀ index ∈ _, _))

end Registry

section Slots

-- The taken slots from number `first` on, each gamepad with its slot as an id.
def taken : Nat → List (Option Nat) → List (Nat × UInt8)
  | _, [] => []
  | first, none :: rest => taken (first + 1) rest
  | first, some index :: rest => (index, UInt8.ofNat first) :: taken (first + 1) rest

theorem taken_append (first : Nat) (slots more : List (Option Nat)) :
    taken first (slots ++ more) = taken first slots ++ taken (first + slots.length) more := by
  induction slots generalizing first with
  | nil => simp [taken]
  | cons slot rest ih =>
    have count : first + 1 + rest.length = first + (rest.length + 1) := by omega
    cases slot <;> simp [taken, ih, count]

theorem map_fst_taken (first : Nat) (slots : List (Option Nat)) :
    (taken first slots).map Prod.fst = slots.filterMap id := by
  induction slots generalizing first with
  | nil => rfl
  | cons slot rest ih => cases slot <;> simp [taken, ih]

theorem mem_taken {first : Nat} {slots : List (Option Nat)} {index : Nat} {ident : UInt8}
    (member : (index, ident) ∈ taken first slots) :
    ∃ slot, slots.getD slot none = some index ∧ ident = UInt8.ofNat (first + slot) ∧
      slot < slots.length := by
  induction slots generalizing first with
  | nil => simp [taken] at member
  | cons slot rest ih =>
    cases slot with
    | none =>
      obtain ⟨found, same, number, inside⟩ := ih member
      exact ⟨found + 1, by simpa using same, by rw [number]; congr 1; omega, by simpa using inside⟩
    | some other =>
      rcases List.mem_cons.mp member with here | later
      · obtain ⟨rfl, rfl⟩ := Prod.mk.inj here
        exact ⟨0, rfl, rfl, by simp⟩
      · obtain ⟨found, same, number, inside⟩ := ih later
        exact ⟨found + 1, by simpa using same, by rw [number]; congr 1; omega,
          by simpa using inside⟩

theorem taken_mem (first : Nat) {slots : List (Option Nat)} {index slot : Nat}
    (found : slots.getD slot none = some index) :
    (index, UInt8.ofNat (first + slot)) ∈ taken first slots := by
  induction slots generalizing first slot with
  | nil => simp at found
  | cons head rest ih =>
    cases slot with
    | zero =>
      obtain rfl : head = some index := found
      exact List.mem_cons_self
    | succ slot =>
      have later := ih (first + 1) (by simpa using found)
      rw [Nat.add_right_comm] at later
      cases head with
      | none => exact later
      | some other => exact List.mem_cons_of_mem _ later

theorem nodup_taken (first : Nat) (slots : List (Option Nat)) (few : first + slots.length ≤ 256) :
    ((taken first slots).map Prod.snd).Nodup := by
  induction slots generalizing first with
  | nil => simp [taken]
  | cons slot rest ih =>
    rw [List.length_cons] at few
    have later := ih (first + 1) (by omega)
    cases slot with
    | none => exact later
    | some index =>
      rw [taken, List.map_cons, List.nodup_cons]
      refine ⟨fun member => ?_, later⟩
      obtain ⟨⟨other, ident⟩, found, same⟩ := List.mem_map.mp member
      obtain ⟨slot, -, number, inside⟩ := mem_taken found
      have equal : (UInt8.ofNat first).toNat = (UInt8.ofNat (first + 1 + slot)).toNat := by
        rw [← number]
        exact congrArg UInt8.toNat same.symm
      simp only [UInt8.toNat_ofNat'] at equal
      omega

-- Freeing the slot of a gamepad takes it off the list.
theorem taken_set_none {slots : List (Option Nat)} {index slot : Nat} (first : Nat)
    (found : slots.findIdx? (· = some index) = some slot) (once : (slots.filterMap id).Nodup) :
    taken first (slots.set slot none) = (taken first slots).filter (·.1 ≠ index) := by
  induction slots generalizing first slot with
  | nil => simp at found
  | cons head rest ih =>
    rw [List.findIdx?_cons] at found
    by_cases here : head = some index
    · subst here
      simp only [decide_true, if_true, Option.some.injEq] at found
      subst found
      have absent : index ∉ (taken (first + 1) rest).map Prod.fst := by
        rw [map_fst_taken]
        simpa using (List.nodup_cons.mp once).1
      have kept : (taken (first + 1) rest).filter (·.1 ≠ index) = taken (first + 1) rest := by
        apply List.filter_eq_self.mpr
        intro entry member
        have other : entry.1 ≠ index := fun same => absent (same ▸ List.mem_map_of_mem member)
        simpa using other
      rw [List.set_cons_zero, taken, taken, List.filter_cons_of_neg (by simp), kept]
    · simp only [here, decide_false, Bool.false_eq_true, if_false, Option.map_eq_some_iff] at found
      obtain ⟨later, found, rfl⟩ := found
      cases head with
      | none => simpa [taken] using ih (first + 1) found once
      | some other =>
        have apart : other ≠ index := fun same => here (congrArg some same)
        have tail := ih (first + 1) found (List.nodup_cons.mp once).2
        simp [taken, tail, apart]

-- A gamepad goes to the last slot when no slot before it is free.
theorem place_last {slots : List (Option Nat)} (index : Nat) (packed : none ∉ slots.dropLast) :
    ∃ front, Controllers.place slots index = front ++ [some index] ∧
      (slots = front ∧ (∀ slot ∈ slots, slot.isSome) ∨ slots = front ++ [none]) := by
  unfold Controllers.place
  cases free : slots.findIdx? (· = none) with
  | none =>
    refine ⟨slots, rfl, Or.inl ⟨rfl, fun slot member => ?_⟩⟩
    have kept := List.findIdx?_eq_none_iff.mp free slot member
    exact Option.isSome_iff_ne_none.mpr (by simpa using kept)
  | some slot =>
    obtain ⟨inside, empty, -⟩ := List.findIdx?_eq_some_iff_getElem.mp free
    have number : slot = slots.length - 1 := by
      by_contra other
      apply packed
      rw [← of_decide_eq_true empty]
      exact List.mem_iff_getElem.mpr ⟨slot, by simp; omega, List.getElem_dropLast _⟩
    refine ⟨slots.take slot, ?_, Or.inr ?_⟩
    · simp only
      rw [List.set_eq_take_append_cons_drop, if_pos inside, List.drop_of_length_le (by omega)]
    · have whole := List.take_append_drop slot slots
      rw [List.drop_eq_getElem_cons inside, of_decide_eq_true empty,
        List.drop_of_length_le (by omega)] at whole
      exact whole.symm

end Slots

section Tracks

variable {State : Type}

-- The history against the slots: every connected gamepad is announced under the number of its slot.
structure Tracks (registry : Registry) (active : Finset UInt8) (input : Controllers) : Prop where
  registered : registry = (taken 0 input.gamepads).map fun entry => (entry.1, some entry.2)
  active : active = ((taken 0 input.gamepads).map Prod.snd).toFinset
  once : (input.gamepads.filterMap id).Nodup
  few : input.gamepads.length ≤ 16
  rumble : input.gamepads ≠ [] → ∃ rumble, input.gamepadRumbleCurrent.getD 0 none = some rumble

variable {registry : Registry} {active : Finset UInt8} {input : Controllers}

theorem Tracks.gamepads (tracks : Tracks registry active input) :
    registry.map Prod.fst = input.gamepads.filterMap id := by
  rw [tracks.registered, ← map_fst_taken 0, List.map_map]
  rfl

theorem Tracks.mem_iff (tracks : Tracks registry active input) (index : Nat) :
    index ∈ registry.map Prod.fst ↔ some index ∈ input.gamepads := by
  simp [tracks.gamepads]

theorem Tracks.consistent (tracks : Tracks registry active input) :
    Consistent registry active := by
  refine ⟨(taken 0 input.gamepads).map Prod.snd, ?_, nodup_taken 0 _ ?_, tracks.active⟩
  · rw [tracks.registered, List.map_map, List.map_map]
    rfl
  · have few := tracks.few
    omega

theorem Tracks.connect (tracks : Tracks registry active input) {index : Nat}
    (few : index ∈ registry.map Prod.fst ∨ registry.length < 16)
    (packed : some index ∈ input.gamepads ∨ none ∉ input.gamepads.dropLast) :
    let answer : Controllers × List (ControllerMessage State) := input.onGamepadConnect index
    Tracks (registry.next (.connect index, answer.2)) (answer.2.foldl hostNext active)
      answer.1 := by
  simp only [Controllers.onGamepadConnect, Registry.next, tracks.mem_iff]
  split_ifs with known
  · exact tracks
  have size : registry.length = (input.gamepads.filterMap id).length := by
    rw [← tracks.gamepads, List.length_map]
  obtain ⟨front, placed, slots⟩ := place_last index (packed.resolve_left known)
  have numbered : taken 0 input.gamepads = taken 0 front := by
    rcases slots with ⟨same, -⟩ | freed
    · rw [same]
    · rw [freed, taken_append]
      simp [taken]
  have room : front.length < 16 := by
    rcases slots with ⟨same, full⟩ | freed
    · have all : (input.gamepads.filterMap id).length = input.gamepads.length :=
        List.filterMap_length_eq_length.mpr full
      have some_left := few.resolve_left (by rwa [tracks.mem_iff])
      rw [← same]
      omega
    · have most := tracks.few
      rw [freed, List.length_append, List.length_singleton] at most
      omega
  have extended : taken 0 (front ++ [some index]) =
      taken 0 input.gamepads ++ [(index, UInt8.ofNat front.length)] := by
    rw [taken_append, numbered, Nat.zero_add]
    rfl
  have small : (UInt8.ofNat front.length).toNat < 16 := by
    rw [UInt8.toNat_ofNat']
    omega
  have ident : (Controllers.place input.gamepads index).length - 1 = front.length := by
    rw [placed, List.length_append, List.length_singleton]
    omega
  rw [ident]
  refine ⟨?_, ?_, ?_, ?_, fun _ => ?_⟩
  · rw [placed, extended, tracks.registered, List.map_append]
    rfl
  · rw [placed, extended, List.map_append, List.toFinset_append, ← tracks.active]
    rw [List.foldl_cons, List.foldl_nil, hostNext, if_pos small]
    ext other
    simp [or_comm]
  · have once := tracks.once
    have kept : input.gamepads.filterMap id = front.filterMap id := by
      rw [← map_fst_taken 0, numbered, map_fst_taken]
    rw [placed, List.filterMap_append]
    rw [kept] at once
    refine List.nodup_append.mpr ⟨once, by simp, ?_⟩
    rintro other member fresh only rfl
    rw [← kept, ← tracks.gamepads, tracks.mem_iff] at member
    simp only [List.filterMap_cons, id, List.filterMap_nil, List.mem_singleton] at only
    exact known (only ▸ member)
  · rw [placed, List.length_append, List.length_singleton]
    omega
  · cases input.gamepadRumbleCurrent with
    | nil => exact ⟨_, rfl⟩
    | cons first rest => exact ⟨_, rfl⟩

theorem Tracks.disconnect (tracks : Tracks registry active input) {index : Nat}
    (own : ∀ slot ∈ input.gamepads.findIdx? (· = some index), slot = index) :
    let answer : Controllers × List (ControllerMessage State) := input.onGamepadDisconnect index
    Tracks (registry.next (.disconnect index, answer.2)) (answer.2.foldl hostNext active)
      answer.1 := by
  simp only [Controllers.onGamepadDisconnect, Registry.next]
  cases found : input.gamepads.findIdx? (· = some index) with
  | none =>
    have absent : index ∉ registry.map Prod.fst := by
      rw [tracks.mem_iff]
      intro member
      simpa using List.findIdx?_eq_none_iff.mp found _ member
    have kept : registry.filter (·.1 ≠ index) = registry := by
      apply List.filter_eq_self.mpr
      intro entry member
      have other : entry.1 ≠ index := fun same => absent (same ▸ List.mem_map_of_mem member)
      simpa using other
    rw [kept]
    exact tracks
  | some slot =>
    obtain ⟨inside, held, -⟩ := List.findIdx?_eq_some_iff_getElem.mp found
    have few := tracks.few
    have number : slot = index := own slot found
    have here : input.gamepads.getD slot none = some index := by
      rw [List.getD_eq_getElem?_getD, List.getElem?_eq_getElem inside]
      exact of_decide_eq_true held
    have entry := taken_mem 0 here
    rw [Nat.zero_add, number] at entry
    have small : (UInt8.ofNat index).toNat < 16 := by
      rw [UInt8.toNat_ofNat']
      omega
    have freed := taken_set_none 0 found tracks.once
    refine ⟨?_, ?_, ?_, by simpa using few, fun _ => tracks.rumble ?_⟩
    · rw [freed, tracks.registered, List.filter_map]
      rfl
    · rw [List.foldl_cons, List.foldl_nil, hostNext, if_pos small, freed, tracks.active]
      ext ident
      rw [Finset.mem_erase, List.mem_toFinset, List.mem_toFinset]
      have byIndex : ((taken 0 input.gamepads).map Prod.fst).Nodup := by
        rw [map_fst_taken]
        exact tracks.once
      have byIdent := nodup_taken 0 input.gamepads (by omega)
      constructor
      · rintro ⟨other, member⟩
        obtain ⟨pair, listed, rfl⟩ := List.mem_map.mp member
        have apart : pair.1 ≠ index := fun same =>
          other (congrArg Prod.snd (List.inj_on_of_nodup_map byIndex listed entry same))
        exact List.mem_map_of_mem (List.mem_filter.mpr ⟨listed, by simpa using apart⟩)
      · intro member
        obtain ⟨pair, listed, rfl⟩ := List.mem_map.mp member
        obtain ⟨listed, apart⟩ := List.mem_filter.mp listed
        refine ⟨fun same => ?_, List.mem_map_of_mem listed⟩
        have whole := List.inj_on_of_nodup_map byIdent listed entry same
        simp [whole] at apart
    · rw [← map_fst_taken 0, freed]
      refine List.Nodup.sublist (List.Sublist.map _ List.filter_sublist) ?_
      rw [map_fst_taken]
      exact tracks.once
    · exact List.ne_nil_of_length_pos (by omega)

/-- The loop over slots without a gap sends what the taken slots say. -/
theorem updateFrom_taken (pads : List (Option (Pad State))) (first : Nat)
    (slots : List (Option Nat)) (few : first + slots.length ≤ 16)
    (packed : ∀ slot ∈ slots.dropWhile Option.isSome, slot = none) :
    Controllers.updateFrom pads first slots =
      stateMessages pads ((taken first slots).map fun entry => (entry.1, some entry.2)) := by
  induction slots generalizing first with
  | nil => rfl
  | cons slot rest ih =>
    cases slot with
    | none =>
      have empty : taken (first + 1) rest = [] := by
        have free : rest.filterMap id = [] := by
          apply List.filterMap_eq_nil_iff.mpr
          intro slot member
          exact packed slot (List.mem_cons_of_mem _ member)
        rw [← map_fst_taken (first + 1)] at free
        exact List.map_eq_nil_iff.mp free
      rw [Controllers.updateFrom, taken, empty]
      rfl
    | some index =>
      rw [List.length_cons] at few
      have later := ih (first + 1) (by omega) packed
      have number : first % 256 = first := by omega
      rw [Controllers.updateFrom, later, taken, List.map_cons]
      simp only [stateMessages, List.filterMap_cons]
      cases pads.getD index none with
      | none => rfl
      | some pad =>
        by_cases standard : pad.standard
        · simp only [standard, Controllers.sendController, show first < 16 by omega, number,
            UInt8.toNat_ofNat', Nat.reducePow, if_true, List.singleton_append]
        · simp only [standard, Bool.false_eq_true, if_false, List.nil_append]

theorem Tracks.rumbles (tracks : Tracks registry active input) {id : UInt8}
    (first : ∀ index ∈ input.gamepads.getD id.toNat none, index = 0) (change : Rumble → Rumble) :
    Rumbles registry input id change
      (input.onControllerData id change : Controllers × List (ControllerMessage State)) := by
  intro index member
  have few := tracks.few
  rw [tracks.registered] at member
  obtain ⟨pair, listed, same⟩ := List.mem_map.mp member
  obtain ⟨rfl, ident⟩ := Prod.mk.inj same
  obtain ⟨slot, held, number, inside⟩ := mem_taken listed
  have place : id.toNat = slot := by
    rw [← Option.some.inj ident, number, UInt8.toNat_ofNat']
    omega
  rw [place, held] at first
  obtain ⟨rumble, current⟩ := tracks.rumble (List.ne_nil_of_length_pos (by omega))
  have zero : pair.1 = 0 := first pair.1 rfl
  simp only [Controllers.onControllerData, place, held, zero, Controllers.setGamepadEffect, current]
  refine ⟨trivial, rumble, rfl, ?_⟩
  cases rumbles : input.gamepadRumbleCurrent with
  | nil => simp [rumbles] at current
  | cons head rest => rfl

-- A message that is neither an announcement nor its end.
def ControllerMessage.Silent (message : ControllerMessage State) : Prop :=
  ∀ active, hostNext active message = active

theorem foldl_silent {sent : List (ControllerMessage State)}
    (silent : ∀ message ∈ sent, message.Silent) (active : Finset UInt8) :
    sent.foldl hostNext active = active := by
  induction sent with
  | nil => rfl
  | cons message rest ih =>
    rw [List.foldl_cons, silent message List.mem_cons_self]
    exact ih fun other member => silent other (List.mem_cons_of_mem _ member)

theorem updateFrom_silent (pads : List (Option (Pad State))) (first : Nat)
    (slots : List (Option Nat)) :
    ∀ message ∈ Controllers.updateFrom pads first slots, message.Silent := by
  induction slots generalizing first with
  | nil => simp [Controllers.updateFrom]
  | cons slot rest ih =>
    cases slot with
    | none => simp [Controllers.updateFrom]
    | some index =>
      intro message member
      rw [Controllers.updateFrom] at member
      rcases List.mem_append.mp member with here | later
      · cases pad : pads.getD index none with
        | none =>
          simp only [pad] at here
          simp at here
        | some pad =>
          simp only [pad, Controllers.sendController] at here
          split_ifs at here
          · rw [List.mem_singleton.mp here]
            exact fun _ => rfl
          · simp at here
          · simp at here
      · exact ih (first + 1) message later

-- The calls that change neither the slots nor the host's controllers.
theorem Tracks.keep (tracks : Tracks registry active input)
    (answer : Controllers × List (ControllerMessage State))
    (silent : ∀ message ∈ answer.2, message.Silent)
    (slots : answer.1.gamepads = input.gamepads)
    (rumble : (∃ rumble, input.gamepadRumbleCurrent.getD 0 none = some rumble) →
      ∃ rumble, answer.1.gamepadRumbleCurrent.getD 0 none = some rumble) :
    Tracks registry (answer.2.foldl hostNext active) answer.1 := by
  rw [foldl_silent silent]
  exact ⟨slots ▸ tracks.registered, slots ▸ tracks.active, slots ▸ tracks.once,
    slots ▸ tracks.few, fun taken => rumble (tracks.rumble (slots ▸ taken))⟩

theorem Tracks.controllerData (tracks : Tracks registry active input) (id : UInt8)
    (change : Rumble → Rumble) :
    let answer : Controllers × List (ControllerMessage State) := input.onControllerData id change
    Tracks registry (answer.2.foldl hostNext active) answer.1 := by
  simp only [Controllers.onControllerData, Controllers.setGamepadEffect]
  split
  next => exact tracks.keep (input, []) (by simp) rfl fun found => found
  next index _ =>
    split
    next =>
      have silent : ∀ message ∈ [(.typeError : ControllerMessage State)], message.Silent := by
        simp [ControllerMessage.Silent, hostNext]
      exact tracks.keep (input, [.typeError]) silent rfl fun found => found
    next rumble _ =>
      refine tracks.keep ({ input with gamepadRumbleCurrent := _ }, []) (by simp) rfl fun found => ?_
      obtain ⟨first, current⟩ := found
      cases rumbles : input.gamepadRumbleCurrent with
      | nil => simp [rumbles] at current
      | cons head rest =>
        rw [rumbles] at current
        cases index with
        | zero => exact ⟨change rumble, rfl⟩
        | succ index => exact ⟨first, current⟩

theorem Tracks.update (tracks : Tracks registry active input) (now later : Nat)
    (pads : List (Option (Pad State))) :
    Tracks registry ((input.onGamepadUpdate now later pads).2.foldl hostNext active)
      (input.onGamepadUpdate now later pads).1 := by
  have silent := updateFrom_silent pads 0 input.gamepads
  unfold Controllers.onGamepadUpdate
  split_ifs
  · exact tracks.keep (input, []) (by simp) rfl fun found => found
  · exact tracks.keep ({ input with lastGamepadUpdate := later }, _) silent rfl fun found => found
  · exact tracks.keep (input, _) silent rfl fun found => found

theorem Tracks.step (tracks : Tracks registry active input) {event : ControllerInput State}
    (few : ∀ index, event = .connect index →
      index ∈ registry.map Prod.fst ∨ registry.length < 16)
    (regular : Regular input event) :
    Tracks (registry.next (event, (input.call event).2))
      ((input.call event).2.foldl hostNext active) (input.call event).1 := by
  cases event with
  | connect index => exact tracks.connect (few index rfl) regular
  | disconnect index => exact tracks.disconnect regular
  | update now later pads => exact tracks.update now later pads
  | rumble id low high => exact tracks.controllerData id _
  | triggerRumble id left right => exact tracks.controllerData id _

theorem Tracks.sound {history : List (ControllerInput State × List (ControllerMessage State))}
    (tracks : Tracks (registryOf history) active input) {event : ControllerInput State}
    (regular : Regular input event) : Sound history input event := by
  cases event with
  | connect index => trivial
  | disconnect index => trivial
  | update now later pads =>
    intro passes
    simp only [Controllers.call, Controllers.onGamepadUpdate, passes, Bool.false_eq_true, if_false]
    rw [tracks.registered]
    exact updateFrom_taken pads 0 _ (by simpa using tracks.few) regular
  | rumble id low high => exact tracks.rumbles regular _
  | triggerRumble id left right => exact tracks.rumbles regular _

-- The guards of a run: the assumption on the number of gamepads, and the condition on the events.
def Guarded (history : List (ControllerInput State × List (ControllerMessage State)))
    (input : Controllers) (event : ControllerInput State) : Prop :=
  Few history event ∧ Regular input event

instance decidableGuarded (history : List (ControllerInput State × List (ControllerMessage State)))
    (input : Controllers) (event : ControllerInput State) :
    Decidable (Guarded history input event) :=
  inferInstanceAs (Decidable (_ ∧ _))

theorem Tracks.logged {history : List (ControllerInput State × List (ControllerMessage State))}
    (tracks : Tracks (registryOf history) (hostOf history) input) {event : ControllerInput State}
    (guarded : Guarded history input event) :
    Tracks (registryOf (history ++ (input.step event).2))
      (hostOf (history ++ (input.step event).2)) (input.step event).1 := by
  have next := tracks.step (fun index same => by subst same; exact guarded.1) guarded.2
  simpa [Controllers.step, registryOf, hostOf, List.foldl_append, List.flatMap_append] using next

theorem tracks_new (sendIntervalOverride : Option Nat) (now : Nat) :
    Tracks [] ∅ (.new sendIntervalOverride now) :=
  ⟨rfl, rfl, List.nodup_nil, Nat.zero_le 16, fun taken => absurd rfl taken⟩

/-- In every run of at most sixteen gamepads in which gamepads come and go at the last slot, under
the index of their slot, and only the gamepad of index 0 rumbles: the host has one controller for
each connected gamepad, the states go to the channels of the ids announced for them, every update
sends all of them, and a rumble message reaches its gamepad. -/
theorem run_controllers_consistent (State : Type) (sendIntervalOverride : Option Nat) (now : Nat)
    (events : List (ControllerInput State))
    (guarded : Runs.Along Controllers.step Guarded [] (.new sendIntervalOverride now) events) :
    let history := (Runs.run Controllers.step (.new sendIntervalOverride now) events).2
    Consistent (registryOf history) (hostOf history) ∧
      Runs.Along Controllers.step Sound [] (.new sendIntervalOverride now) events := by
  have initial := tracks_new sendIntervalOverride now
  constructor
  · have tracks := Runs.run_invariant Controllers.step Guarded
      (fun history input => Tracks (registryOf history) (hostOf history) input)
      (fun _ _ _ tracks guarded => tracks.logged guarded) [] _ events initial guarded
    exact tracks.consistent
  · exact Runs.along_of_invariant Controllers.step Guarded
      (fun history input => Tracks (registryOf history) (hostOf history) input)
      (fun _ _ _ tracks guarded => tracks.logged guarded)
      (fun _ _ _ tracks guarded => tracks.sound guarded.2) [] _ events initial guarded

-- Two gamepads come, and the second one goes and comes back.
def twoGamepads : List (ControllerInput Nat) :=
  [.connect 0, .connect 1, .update 0 0 [some ⟨true, 5⟩, some ⟨true, 6⟩], .disconnect 1,
    .rumble 0 7 8, .connect 1, .update 0 0 [some ⟨true, 5⟩, some ⟨true, 6⟩]]

theorem run_controllers_consistent_two :
    Runs.Along Controllers.step Guarded [] (.new none 0) twoGamepads ∧
      Consistent (registryOf (Runs.run Controllers.step (.new none 0) twoGamepads).2)
        (hostOf (Runs.run Controllers.step (.new none 0) twoGamepads).2) ∧
      Runs.Along Controllers.step Sound [] (.new none 0) twoGamepads := by
  have guarded : Runs.Along Controllers.step Guarded [] (.new none 0) twoGamepads := by decide
  exact ⟨guarded, run_controllers_consistent Nat none 0 twoGamepads guarded⟩

-- The first of two gamepads goes and comes back.
def firstReturns : List (ControllerInput Nat) :=
  [.connect 0, .connect 1, .disconnect 0, .connect 0]

-- It is announced under the id of the second one, and no other id is left at the host.
theorem first_returns_shares_id :
    Runs.Along Controllers.step (fun history _ event => Few history event) [] (.new none 0)
        firstReturns ∧
      registryOf (Runs.run Controllers.step (.new none 0) firstReturns).2 =
        [(1, some 1), (0, some 1)] ∧
      hostOf (Runs.run Controllers.step (.new none 0) firstReturns).2 = {1} ∧
      ¬ Consistent (registryOf (Runs.run Controllers.step (.new none 0) firstReturns).2)
        (hostOf (Runs.run Controllers.step (.new none 0) firstReturns).2) := by
  have registered : registryOf (Runs.run Controllers.step (.new none 0) firstReturns).2 =
      [(1, some 1), (0, some 1)] := by decide
  refine ⟨by decide, registered, by decide, ?_⟩
  rintro ⟨ids, same, distinct, -⟩
  rw [registered] at same
  obtain rfl : ids = [1, 1] := List.map_injective_iff.mpr (Option.some_injective _) same.symm
  exact absurd distinct (by decide)

end Tracks

end Web

end BetterParsec
