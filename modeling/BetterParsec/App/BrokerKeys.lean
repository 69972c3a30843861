import BetterParsec.App.BrokerRouter

set_option autoImplicit false
set_option linter.all false

/-!
# No key stays down on the host

What a call does to the keys that wait and to those that were sent is one of a few
moves. Each of them keeps the keys that are down on the host equal to those that
were sent.
-/

namespace BetterParsec

namespace Broker

open HeldKeys (Edge Matched after)

section Moves

variable {K : Type}

theorem nodup_concat {keys : List K} {key : K} (nodup : keys.Nodup) (fresh : key ∉ keys) :
    (keys ++ [key]).Nodup :=
  List.nodup_middle.mpr (List.nodup_cons.mpr ⟨by simpa using fresh, by simpa using nodup⟩)

variable [DecidableEq K]

def remember (sent : List K) (key : K) : List K := if key ∈ sent then sent else sent ++ [key]

-- What a call for a key does to the keys that wait and those that were sent, and what the host is
-- told.
inductive Move (key : K) : List K → List K → List (Edge K) → List K → List K → Prop where
  | quiet {waiting sent : List K} : Move key waiting sent [] waiting sent
  | holdBack {waiting sent : List K} (fresh : key ∉ waiting) (unsent : key ∉ sent) :
      Move key waiting sent [] (waiting ++ [key]) sent
  | discard {waiting sent : List K} : Move key waiting sent [] [] sent
  | forward {waiting sent : List K} :
      Move key waiting sent ((waiting ++ [key]).map .down) []
        ((waiting ++ [key]).foldl remember sent)
  | tap {waiting sent : List K} (waits : key ∈ waiting) :
      Move key waiting sent [.down key, .up key] (waiting.erase key) sent
  | release {waiting sent : List K} (wasSent : key ∈ sent) :
      Move key waiting sent [.up key] waiting (sent.erase key)

structure Kept (waiting sent : List K) (held : Finset K) : Prop where
  waits : waiting.Nodup
  once : sent.Nodup
  apart : ∀ key ∈ waiting, key ∉ sent
  agrees : held = sent.toFinset

theorem foldl_remember {sent keys : List K} (nodup : sent.Nodup) :
    (keys.foldl remember sent).Nodup ∧
      (keys.foldl remember sent).toFinset = sent.toFinset ∪ keys.toFinset := by
  induction keys generalizing sent with
  | nil => simp [nodup]
  | cons key keys ih =>
    rw [List.foldl_cons]
    by_cases known : key ∈ sent
    · have same : remember sent key = sent := if_pos known
      rw [same]
      refine ⟨(ih nodup).1, (ih nodup).2.trans ?_⟩
      rw [List.toFinset_cons, Finset.union_insert, Finset.insert_eq_of_mem]
      exact Finset.mem_union_left _ (List.mem_toFinset.mpr known)
    · have added : remember sent key = sent ++ [key] := if_neg known
      have once := nodup_concat nodup known
      rw [added]
      refine ⟨(ih once).1, (ih once).2.trans ?_⟩
      rw [List.toFinset_append, List.toFinset_cons, List.toFinset_cons, List.toFinset_nil,
        Finset.union_assoc, Finset.insert_union, Finset.empty_union]

theorem foldl_remember_subset {sent keys : List K} {key : K}
    (member : key ∈ keys.foldl remember sent) : key ∈ sent ++ keys := by
  induction keys generalizing sent with
  | nil => simpa using member
  | cons first keys ih =>
    have origin := ih member
    unfold remember at origin
    split_ifs at origin with known
    · grind
    · simpa using origin

variable {key : K} {waiting sent waiting' sent' : List K} {edges : List (Edge K)}

/-- No key appears but the one the call is for. -/
theorem Move.origin (move : Move key waiting sent edges waiting' sent') {property : K → Prop}
    (here : property key) (waits : ∀ other ∈ waiting, property other)
    (known : ∀ other ∈ sent, property other) :
    (∀ other ∈ waiting', property other) ∧ ∀ other ∈ sent', property other := by
  cases move with
  | quiet => exact ⟨waits, known⟩
  | holdBack =>
    refine ⟨fun other member => ?_, known⟩
    rcases List.mem_append.mp member with old | new
    · exact waits other old
    · rwa [List.mem_singleton.mp new]
  | discard => exact ⟨by simp, known⟩
  | forward =>
    refine ⟨by simp, fun other member => ?_⟩
    have origin := foldl_remember_subset member
    simp only [List.mem_append, List.mem_singleton] at origin
    rcases origin with old | waited | rfl
    · exact known other old
    · exact waits other waited
    · exact here
  | tap => exact ⟨fun other member => waits other (List.mem_of_mem_erase member), known⟩
  | release => exact ⟨waits, fun other member => known other (List.mem_of_mem_erase member)⟩

/-- Every move tells the host only of keys that are down there, and afterwards it holds what was
sent. -/
theorem Move.keeps (move : Move key waiting sent edges waiting' sent') {held : Finset K}
    (kept : Kept waiting sent held) :
    Matched held edges ∧ Kept waiting' sent' (after held edges) := by
  obtain ⟨waits, once, apart, agrees⟩ := kept
  cases move with
  | quiet => exact ⟨trivial, waits, once, apart, agrees⟩
  | holdBack fresh unsent =>
    refine ⟨trivial, nodup_concat waits fresh, once, fun other member => ?_, agrees⟩
    rcases List.mem_append.mp member with old | new
    · exact apart other old
    · rwa [List.mem_singleton.mp new]
  | discard => exact ⟨trivial, List.nodup_nil, once, by simp, agrees⟩
  | forward =>
    obtain ⟨nodup, together⟩ := @foldl_remember _ _ sent (waiting ++ [key]) once
    refine ⟨HeldKeys.matched_downs _ _, List.nodup_nil, nodup, by simp, ?_⟩
    rw [HeldKeys.after_downs, agrees, together]
  | tap waits' =>
    have unsent : key ∉ held := by
      rw [agrees, List.mem_toFinset]
      exact apart key waits'
    refine ⟨by simp [Matched, HeldKeys.hold], waits.erase key, once, ?_, ?_⟩
    · exact fun other member => apart other (List.mem_of_mem_erase member)
    · exact (Finset.erase_insert unsent).trans agrees
  | release wasSent =>
    refine ⟨?_, waits, once.erase key, ?_, ?_⟩
    · rw [HeldKeys.matched_up, agrees]
      exact ⟨List.mem_toFinset.mpr wasSent, trivial⟩
    · exact fun other member sent => apart other member (List.mem_of_mem_erase sent)
    · change held.erase key = _
      rw [agrees]
      ext other
      simp [once.mem_erase_iff]

/-- Releasing what was sent, last key first, leaves no key down. -/
theorem Kept.release_all {held : Finset K} (kept : Kept waiting sent held) :
    Matched held (sent.reverse.map .up) ∧ after held (sent.reverse.map .up) = ∅ := by
  apply HeldKeys.release_all (List.nodup_reverse.mpr kept.once)
  rw [kept.agrees]
  ext key
  simp

end Moves

-- The virtual key of a packet, which has 16 bits.
def edge (packet : KeyPacket) : Edge UInt32 :=
  match packet.action with
  | .down => .down packet.key.toUInt32
  | .up => .up packet.key.toUInt32

def Small (vk : UInt32) : Prop := vk.toNat < 2 ^ 16

theorem small_key {vk : UInt32} (small : Small vk) : vk.toUInt16.toUInt32 = vk := by
  have bound : vk.toNat < 2 ^ 16 := small
  apply UInt32.toNat.inj
  simp only [UInt16.toNat_toUInt32, UInt32.toNat_toUInt16]
  exact Nat.mod_eq_of_lt bound

namespace BrokerRouter

def waiting (router : BrokerRouter) : List UInt32 := router.pending.map Prod.fst

structure IsSmall (router : BrokerRouter) : Prop where
  waiting : ∀ vk ∈ router.waiting, Small vk
  sent : ∀ vk ∈ router.sentDown, Small vk

variable (router : BrokerRouter) (vk : UInt32)

-- What the calls do to the two lists, whatever flags they change.
@[simp] theorem update_pending (keyUp : Bool) : (router.update vk keyUp).pending = router.pending := by
  simp only [update, apply_ite BrokerRouter.pending, ite_self]

@[simp] theorem update_sentDown (keyUp : Bool) :
    (router.update vk keyUp).sentDown = router.sentDown := by
  simp only [update, apply_ite BrokerRouter.sentDown, ite_self]

@[simp] theorem rememberSent_pending : (router.rememberSent vk).pending = router.pending := by
  unfold rememberSent
  split_ifs <;> rfl

@[simp] theorem rememberSent_sentDown :
    (router.rememberSent vk).sentDown = remember router.sentDown vk := by
  unfold rememberSent remember
  split_ifs <;> rfl

theorem foldl_rememberSent (keys : List UInt32) :
    (keys.foldl rememberSent router).pending = router.pending ∧
      (keys.foldl rememberSent router).sentDown = keys.foldl remember router.sentDown := by
  induction keys generalizing router with
  | nil => exact ⟨rfl, rfl⟩
  | cons key keys ih => simpa using ih (router.rememberSent key)

@[simp] theorem edge_packet_down {vk : UInt32} (small : Small vk) :
    edge (router.packet .down vk) = .down vk := congrArg Edge.down (small_key small)

@[simp] theorem edge_packet_up {vk : UInt32} (small : Small vk) :
    edge (router.packet .up vk) = .up vk := congrArg Edge.up (small_key small)

@[simp] theorem edge_packetWithModifiers {vk : UInt32} (small : Small vk)
    (modifiers : KeyModifiers) : edge (packetWithModifiers .down vk modifiers) = .down vk :=
  congrArg Edge.down (small_key small)

variable {router vk}

theorem releaseKey_lists (small : Small vk) :
    (router.releaseKey vk).1.waiting = router.waiting ∧
      (router.releaseKey vk).1.sentDown = router.sentDown.erase vk ∧
      (router.releaseKey vk).2.packets.map edge =
        if vk ∈ router.sentDown then [.up vk] else [] := by
  unfold releaseKey forgetSent
  by_cases sent : vk ∈ router.sentDown
  · simp [sent, waiting, small]
  · simp [sent, List.erase_of_not_mem]

theorem routeDown_modifier (held : modifier vk = true) :
    (router.routeDown vk).2.packets = [] ∧
      (router.routeDown vk).1.sentDown = router.sentDown ∧
      (router.routeDown vk).1.waiting =
        if vk ∈ router.waiting ∨ vk ∈ router.sentDown then router.waiting
        else router.waiting ++ [vk] := by
  have known : (router.pending.any (·.1 = vk) || decide (vk ∈ router.sentDown)) =
      decide (vk ∈ router.waiting ∨ vk ∈ router.sentDown) := by
    rw [Bool.eq_iff_iff, decide_eq_true_eq]
    simp [waiting]
  simp only [routeDown, held, if_true, update_pending, update_sentDown, known, decide_eq_true_eq]
  split_ifs <;> simp [waiting]

theorem routeDown_local (chord : (router.update vk false).localOnly vk = true) :
    (router.routeDown vk).2.packets = [] ∧ (router.routeDown vk).1.waiting = [] ∧
      (router.routeDown vk).1.sentDown = router.sentDown := by
  have plain : modifier vk = false := by
    have safety : vk = Vk.delete ∨ vk = Vk.q ∨ vk = Vk.oem3 ∨ vk = Vk.f4 := by
      simp only [localOnly, Bool.or_eq_true, Bool.and_eq_true, decide_eq_true_eq] at chord
      grind
    rcases safety with rfl | rfl | rfl | rfl <;> decide
  simp [routeDown, plain, chord, waiting]

theorem waiting_eraseP (entries : List (UInt32 × KeyModifiers)) (vk : UInt32) :
    (entries.eraseP (·.1 = vk)).map Prod.fst = (entries.map Prod.fst).erase vk := by
  rw [List.erase_eq_eraseP', List.eraseP_map]
  rfl

theorem routeUp_tap (held : modifier vk = true) (small : Small vk) (waits : vk ∈ router.waiting) :
    (router.routeUp vk).2.packets.map edge = [.down vk, .up vk] ∧
      (router.routeUp vk).1.waiting = router.waiting.erase vk ∧
      (router.routeUp vk).1.sentDown = router.sentDown := by
  obtain ⟨entry, member, same⟩ := List.mem_map.mp waits
  have found : (router.pending.find? (·.1 = vk)).isSome = true :=
    List.find?_isSome.mpr ⟨entry, member, by simpa using same⟩
  obtain ⟨first, isFirst⟩ := Option.isSome_iff_exists.mp found
  have firstKey : first.1 = vk := by simpa using List.find?_some isFirst
  simp [routeUp, held, isFirst, firstKey, small, waiting, waiting_eraseP]

theorem routeUp_release (rests : modifier vk = true → vk ∉ router.waiting) (small : Small vk) :
    (router.routeUp vk).2.packets.map edge = (if vk ∈ router.sentDown then [.up vk] else []) ∧
      (router.routeUp vk).1.waiting = router.waiting ∧
      (router.routeUp vk).1.sentDown = router.sentDown.erase vk := by
  by_cases held : modifier vk = true
  · have none : router.pending.find? (·.1 = vk) = none := by
      rw [List.find?_eq_none]
      intro entry member same
      exact rests held (List.mem_map.mpr ⟨entry, member, by simpa using same⟩)
    obtain ⟨waits, sent, packets⟩ := @releaseKey_lists (router.update vk true) vk small
    simp only [waiting, update_pending, update_sentDown] at waits sent packets
    simp [routeUp, held, none, waiting, waits, sent, packets]
  · obtain ⟨waits, sent, packets⟩ := @releaseKey_lists router vk small
    simp [routeUp, held, waits, sent, packets]

-- A call from one pair of lists to another, with the edges it sends.
def Moves (router : BrokerRouter) (vk : UInt32) (next : BrokerRouter) (packets : List KeyPacket) :
    Prop :=
  Move vk router.waiting router.sentDown (packets.map edge) next.waiting next.sentDown

theorem routeDown_moves (router_small : router.IsSmall) (small : Small vk) :
    Moves router vk (router.routeDown vk).1 (router.routeDown vk).2.packets := by
  by_cases held : modifier vk = true
  · obtain ⟨packets, sent, waits⟩ := @routeDown_modifier router vk held
    rw [Moves, packets, sent, waits]
    split_ifs with known
    · exact .quiet
    · exact .holdBack (not_or.mp known).1 (not_or.mp known).2
  · by_cases chord : (router.update vk false).localOnly vk = true
    · obtain ⟨packets, waits, sent⟩ := routeDown_local chord
      rw [Moves, packets, waits, sent]
      exact .discard
    · have downs : (router.pending.map fun entry =>
          edge (packetWithModifiers .down entry.1 entry.2)) = router.waiting.map .down := by
        rw [waiting, List.map_map]
        apply List.map_congr_left
        intro entry member
        exact edge_packetWithModifiers (router_small.waiting _ (List.mem_map_of_mem member)) _
      have move : Move vk router.waiting router.sentDown ((router.waiting ++ [vk]).map .down) []
          ((router.waiting ++ [vk]).foldl remember router.sentDown) := .forward
      rw [List.map_append, ← downs, List.foldl_append] at move
      simp only [routeDown, held, chord, Bool.false_eq_true, if_false, Moves, update_pending]
      -- The router once the keys that waited are sent.
      generalize same : List.foldl rememberSent _ (router.pending.map Prod.fst) = sent
      obtain ⟨none, remembered⟩ := same ▸ foldl_rememberSent _ (router.pending.map Prod.fst)
      simp only [update_sentDown] at none remembered
      have left : (sent.rememberSent vk).waiting = [] := by
        rw [waiting, rememberSent_pending, none]
        rfl
      have known : sent.sentDown = router.waiting.foldl remember router.sentDown := remembered
      rw [left, rememberSent_sentDown, known]
      simpa [small, List.map_map, Function.comp_def] using move

theorem routeUp_moves (small : Small vk) :
    Moves router vk (router.routeUp vk).1 (router.routeUp vk).2.packets := by
  by_cases tapped : modifier vk = true ∧ vk ∈ router.waiting
  · obtain ⟨packets, waits, sent⟩ := routeUp_tap tapped.1 small tapped.2
    rw [Moves, packets, waits, sent]
    exact .tap tapped.2
  · obtain ⟨packets, waits, sent⟩ := routeUp_release (not_and.mp tapped) small
    rw [Moves, packets, waits, sent]
    split_ifs with wasSent
    · exact .release wasSent
    · rw [List.erase_of_not_mem wasSent]
      exact .quiet

theorem route_moves (router_small : router.IsSmall) (small : Small vk) (keyUp : Bool) :
    Moves router vk (router.route vk keyUp).1 (router.route vk keyUp).2.packets := by
  cases keyUp with
  | false => exact routeDown_moves router_small small
  | true => exact routeUp_moves small

theorem releaseKeys_spec {keys : List UInt32} (small : ∀ vk ∈ keys, Small vk)
    (router : BrokerRouter) :
    (router.releaseKeys keys).1.sentDown = router.sentDown ∧
      (router.releaseKeys keys).2.map edge = keys.map .up := by
  induction keys generalizing router with
  | nil => exact ⟨rfl, rfl⟩
  | cons vk keys ih =>
    obtain ⟨kept, released⟩ := ih (fun key member => small key (List.mem_cons_of_mem _ member))
      (router.update vk true)
    rw [update_sentDown] at kept
    have first := edge_packet_up (router.update vk true) (small vk List.mem_cons_self)
    exact ⟨kept, congrArg₂ List.cons first released⟩

theorem releaseSent_lists (router_small : router.IsSmall) :
    router.releaseSent.1.waiting = [] ∧ router.releaseSent.1.sentDown = [] ∧
      router.releaseSent.2.map edge = router.sentDown.reverse.map .up := by
  have small : ∀ vk ∈ router.sentDown.reverse, Small vk := fun vk member =>
    router_small.sent vk (List.mem_reverse.mp member)
  obtain ⟨kept, released⟩ := releaseKeys_spec small { router with sentDown := [] }
  exact ⟨rfl, kept, released⟩

end BrokerRouter

open BrokerRouter

def Call.Small : Call → Prop
  | .route vk _ => Broker.Small vk
  | .releaseSent => True

-- The router and the host after the packets it was sent.
structure Settled (packets : List KeyPacket) (router : BrokerRouter) : Prop where
  small : router.IsSmall
  matched : Matched ∅ (packets.map edge)
  kept : Kept router.waiting router.sentDown (after ∅ (packets.map edge))

theorem settled_default : Settled [] {} :=
  ⟨⟨by simp [waiting], by simp⟩, trivial, List.nodup_nil, List.nodup_nil, by simp, rfl⟩

theorem Settled.step {packets : List KeyPacket} {router : BrokerRouter}
    (settled : Settled packets router) {call : Call} (small : call.Small) :
    Settled (packets ++ (step router call).2) (step router call).1 := by
  obtain ⟨router_small, matched, kept⟩ := settled
  cases call with
  | route vk keyUp =>
    have move := @route_moves router vk router_small small keyUp
    obtain ⟨waits, sent⟩ := move.origin small router_small.waiting router_small.sent
    obtain ⟨matched', kept'⟩ := move.keeps kept
    refine ⟨⟨waits, sent⟩, ?_, ?_⟩
    · rw [List.map_append, HeldKeys.matched_append]
      exact ⟨matched, matched'⟩
    · rw [List.map_append, HeldKeys.after_append]
      exact kept'
  | releaseSent =>
    obtain ⟨waits, sent, packets'⟩ := @releaseSent_lists router router_small
    obtain ⟨matched', none⟩ := kept.release_all
    refine ⟨⟨?_, ?_⟩, ?_, ?_⟩
    · simp [Broker.step, waits]
    · simp [Broker.step, sent]
    · rw [List.map_append, HeldKeys.matched_append]
      exact ⟨matched, packets' ▸ matched'⟩
    · rw [List.map_append, HeldKeys.after_append, Broker.step, packets', none, waits, sent]
      exact ⟨List.nodup_nil, List.nodup_nil, by simp, rfl⟩

theorem settled_run {calls : List Call} (small : ∀ call ∈ calls, call.Small) :
    Settled (Runs.run step {} calls).2 (Runs.run step {} calls).1 := by
  have each : Runs.Along step (fun _ _ call => call.Small) [] {} calls :=
    Runs.along_of_forall (fun call member _ _ => small call member) _ _
  exact Runs.run_invariant step (fun _ _ call => call.Small) Settled
    (fun _ _ _ settled small => settled.step small) [] {} calls settled_default each

-- What may happen while `vk` is down alone: other keys are released and modifiers are pressed.
def Call.Beside (vk : UInt32) : Call → Prop
  | .route other true => other ≠ vk
  | .route other false => modifier other = true
  | .releaseSent => False

def about (vk : UInt32) (packets : List KeyPacket) : List (Edge UInt32) :=
  (packets.map edge).filter (·.key = vk)

def modifierKeys : List UInt32 :=
  [Vk.control, Vk.lcontrol, Vk.rcontrol, Vk.shift, Vk.lshift, Vk.rshift, Vk.menu, Vk.lmenu,
    Vk.rmenu, Vk.lwin, Vk.rwin]

theorem modifier_small {vk : UInt32} (held : modifier vk = true) : Small vk := by
  have which : vk ∈ modifierKeys := by
    simp only [modifier, isAltKey, Bool.or_eq_true, decide_eq_true_eq] at held
    simp only [modifierKeys, List.mem_cons]
    grind
  have bounds : modifierKeys.all (·.toNat < 2 ^ 16) = true := by decide
  have bound : vk.toNat < 2 ^ 16 := by simpa using List.all_eq_true.mp bounds vk which
  exact bound

theorem Call.Beside.quiet {router : BrokerRouter} {vk : UInt32} {call : Call}
    (beside : call.Beside vk) (small : call.Small) (waits : vk ∈ router.waiting) :
    about vk (step router call).2 = [] ∧ vk ∈ (step router call).1.waiting := by
  cases call with
  | releaseSent => exact beside.elim
  | route other keyUp =>
    cases keyUp with
    | false =>
      obtain ⟨packets, -, left⟩ := @routeDown_modifier router other beside
      change about vk (router.routeDown other).2.packets = [] ∧
        vk ∈ (router.routeDown other).1.waiting
      rw [packets, left]
      refine ⟨rfl, ?_⟩
      split_ifs
      · exact waits
      · exact List.mem_append_left _ waits
    | true =>
      have apart : other ≠ vk := beside
      change ((router.routeUp other).2.packets.map edge).filter (·.key = vk) = [] ∧
        vk ∈ (router.routeUp other).1.waiting
      by_cases tapped : modifier other = true ∧ other ∈ router.waiting
      · obtain ⟨packets, left, -⟩ := routeUp_tap tapped.1 small tapped.2
        rw [packets, left]
        exact ⟨by simp [Edge.key, apart], (List.mem_erase_of_ne apart.symm).mpr waits⟩
      · obtain ⟨packets, left, -⟩ := routeUp_release (not_and.mp tapped) small
        rw [packets, left]
        refine ⟨?_, waits⟩
        split_ifs
        · simp [Edge.key, apart]
        · rfl

theorem quiet_run {router : BrokerRouter} {vk : UInt32} {calls : List Call}
    (beside : ∀ call ∈ calls, call.Beside vk) (small : ∀ call ∈ calls, call.Small)
    (waits : vk ∈ router.waiting) :
    about vk (Runs.run step router calls).2 = [] ∧
      vk ∈ (Runs.run step router calls).1.waiting := by
  induction calls generalizing router with
  | nil => exact ⟨rfl, waits⟩
  | cons call calls ih =>
    obtain ⟨none, left⟩ :=
      (beside call List.mem_cons_self).quiet (small call List.mem_cons_self) waits
    obtain ⟨later, last⟩ := ih (fun other member => beside other (List.mem_cons_of_mem _ member))
      (fun other member => small other (List.mem_cons_of_mem _ member)) left
    refine ⟨?_, last⟩
    simp only [Runs.run, about, List.map_append, List.filter_append] at none later ⊢
    rw [none, later]
    rfl

/-- A modifier that was up, pressed and released while only other keys come up and modifiers go
down: the host sees one press and its release, both when it is released. -/
theorem tap_alone {router : BrokerRouter} {vk : UInt32} {between : List Call}
    (held : modifier vk = true) (fresh : vk ∉ router.waiting) (unsent : vk ∉ router.sentDown)
    (beside : ∀ call ∈ between, call.Beside vk) (small : ∀ call ∈ between, call.Small) :
    about vk (Runs.run step router (.route vk false :: between)).2 = [] ∧
      (step (Runs.run step router (.route vk false :: between)).1 (.route vk true)).2.map edge =
        [.down vk, .up vk] := by
  obtain ⟨packets, -, left⟩ := @routeDown_modifier router vk held
  have waits : vk ∈ (step router (.route vk false)).1.waiting := by
    simp [step, route, left, fresh, unsent]
  obtain ⟨none, last⟩ := quiet_run beside small waits
  refine ⟨?_, ?_⟩
  · have start : (step router (.route vk false)).2 = [] := packets
    simp only [Runs.run, start, List.nil_append]
    exact none
  · exact (routeUp_tap held (modifier_small held) last).1

/-- Over every sequence of calls the host holds exactly what the router remembers as sent, each
key once, and is told of no release of a key it does not hold; a local chord sends nothing, a
modifier alone is tapped, and `release_sent` leaves nothing down. -/
theorem no_key_stuck (calls : List Call) (small : ∀ call ∈ calls, call.Small) :
    let (router, packets) := Runs.run step {} calls
    after ∅ (packets.map edge) = router.sentDown.toFinset ∧ router.sentDown.Nodup ∧
      Matched ∅ (packets.map edge) ∧
      (∀ vk, (router.update vk false).localOnly vk = true →
        (router.route vk false).2.packets = []) ∧
      (∀ vk between, modifier vk = true → vk ∉ router.waiting → vk ∉ router.sentDown →
        (∀ call ∈ between, call.Beside vk ∧ call.Small) →
        about vk (Runs.run step router (.route vk false :: between)).2 = [] ∧
          (step (Runs.run step router (.route vk false :: between)).1
            (.route vk true)).2.map edge = [.down vk, .up vk]) ∧
      Matched ∅ ((packets ++ router.releaseSent.2).map edge) ∧
        after ∅ ((packets ++ router.releaseSent.2).map edge) = ∅ ∧
        router.releaseSent.1.sentDown = [] ∧ router.releaseSent.1.pending = [] := by
  have settled := settled_run small
  have released := @Settled.step _ _ settled .releaseSent trivial
  obtain ⟨waits, sent, -⟩ := releaseSent_lists settled.small
  refine ⟨settled.kept.agrees, settled.kept.once, settled.matched, ?_, ?_, released.matched, ?_,
    sent, List.map_eq_nil_iff.mp waits⟩
  · exact fun vk chord => (routeDown_local chord).1
  · intro vk between held fresh unsent each
    exact tap_alone held fresh unsent (fun call member => (each call member).1)
      (fun call member => (each call member).2)
  · have none : (step (Runs.run step {} calls).1 .releaseSent).1.sentDown = [] := sent
    refine released.kept.agrees.trans ?_
    rw [none]
    rfl

theorem no_key_stuck_copy :
    after ∅ ((Runs.run step {} [.route Vk.lcontrol false, .route 0x43 false]).2.map edge) =
      {Vk.lcontrol, 0x43} := by
  have small : ∀ call ∈ [Call.route Vk.lcontrol false, .route 0x43 false], call.Small := by
    simp [Call.Small, Small, Vk.lcontrol]
  exact (no_key_stuck _ small).1.trans (by decide)

end Broker

end BetterParsec
