import BetterParsec.Driver.KeyDelivery

set_option autoImplicit false
set_option linter.all false

/-!
# Keys that the filter leaves down

As long as no Alt, Win or Tab is down for the class service when the filter
starts to keep it back, and no capture is broken off under a held Alt, every key
that is released is up for the class service, and an Alt is kept back whole.
-/

namespace BetterParsec

namespace KbdFilter

namespace Local

variable {c c' : CaptureState} {log : List Entry} {key : Key} {input : KeyboardInputData}

section Edges

def Down (key : Key) (log : List Entry) : Prop := lastEdge key (deliveries log) = some true

def Held (key : Key) (log : List Entry) : Prop := lastEdge key (consumed log) = some true

@[simp] theorem lastEdge_append (key : Key) (records : List KeyboardInputData)
    (input : KeyboardInputData) :
    lastEdge key (records ++ [input]) =
      if keyOf input = key then some (keyDown input) else lastEdge key records := by
  rw [lastEdge, List.foldl_append]
  rfl

@[simp] theorem deliveries_append (log later : List Entry) :
    deliveries (log ++ later) = deliveries log ++ deliveries later := List.filterMap_append

@[simp] theorem consumed_append (log later : List Entry) :
    consumed (log ++ later) = consumed log ++ consumed later := List.filterMap_append

@[simp] theorem pressed_append (log later : List Entry) :
    pressed (log ++ later) = pressed log ++ pressed later := List.filterMap_append

theorem lastEdge_append_down (key : Key) (records : List KeyboardInputData)
    (input : KeyboardInputData) :
    lastEdge key (records ++ [input]) = some true ↔
      if keyOf input = key then keyDown input = true else lastEdge key records = some true := by
  rw [lastEdge_append]
  split_ifs
  · rw [Option.some.injEq]
  · rfl

theorem down_delivered (key : Key) (log : List Entry) (input : KeyboardInputData) :
    Down key (log ++ [Local.Entry.delivered input]) ↔
      if keyOf input = key then keyDown input = true else Down key log := by
  rw [Down, deliveries_append]
  exact lastEdge_append_down key _ input

theorem down_replayed (key : Key) (log : List Entry) (input : KeyboardInputData) :
    Down key (log ++ [Local.Entry.replayed input]) ↔
      if keyOf input = key then keyDown input = true else Down key log := by
  rw [Down, deliveries_append]
  exact lastEdge_append_down key _ input

theorem down_withheld (key : Key) (log : List Entry) (input : KeyboardInputData) :
    Down key (log ++ [Local.Entry.withheld input]) ↔ Down key log := by
  rw [Down, deliveries_append]
  exact Iff.of_eq (congrArg (lastEdge key · = some true) (List.append_nil _))

theorem held_delivered (key : Key) (log : List Entry) (input : KeyboardInputData) :
    Held key (log ++ [Local.Entry.delivered input]) ↔
      if keyOf input = key then keyDown input = true else Held key log := by
  rw [Held, consumed_append]
  exact lastEdge_append_down key _ input

theorem held_withheld (key : Key) (log : List Entry) (input : KeyboardInputData) :
    Held key (log ++ [Local.Entry.withheld input]) ↔
      if keyOf input = key then keyDown input = true else Held key log := by
  rw [Held, consumed_append]
  exact lastEdge_append_down key _ input

theorem held_replayed (key : Key) (log : List Entry) (input : KeyboardInputData) :
    Held key (log ++ [Local.Entry.replayed input]) ↔ Held key log := by
  rw [Held, consumed_append]
  exact Iff.of_eq (congrArg (lastEdge key · = some true) (List.append_nil _))

theorem lastEdge_mem {records : List KeyboardInputData} {edge : Bool}
    (last : lastEdge key records = some edge) : ∃ input ∈ records, keyOf input = key := by
  induction records using List.reverseRecOn with
  | nil => cases last
  | append_singleton records input ih =>
    rw [lastEdge_append] at last
    split_ifs at last with same
    · exact ⟨input, by simp, same⟩
    · obtain ⟨earlier, member, found⟩ := ih last
      exact ⟨earlier, List.mem_append_left _ member, found⟩

theorem NoneDown.not_down {kind : Key → Bool} (none : NoneDown kind log)
    (of_kind : kind key = true) : ¬Down key log := by
  intro down
  obtain ⟨input, member, rfl⟩ := lastEdge_mem down
  exact none input member of_kind down

end Edges

-- Whether the filter takes an Alt key as held.
def flag (c : CaptureState) (key : Key) : Bool :=
  if key.extended then c.rightAltDown else c.leftAltDown

-- Where an Alt down that was kept back has got to.
inductive Fate (c : CaptureState) (alt : KeyboardInputData) (after : List Entry) : Prop
  | pending (still : c.pendingAlt = true) (same : c.pendingAltInput = alt)
      (first : after.find? dependent = none)
      (unended : after.find? (endsKey (keyOf alt)) = none)
  | replayed (first : after.find? dependent = some (.replayed alt))
  | captured (capturing : c.capturingAltTab = true) (flagged : flag c (keyOf alt) = true)
      (unended : after.find? (endsKey (keyOf alt)) = none)
  | hidden (up : KeyboardInputData)
      (ended : after.find? (endsKey (keyOf alt)) = some (.withheld up))

def Kept (c : CaptureState) (log : List Entry) : Prop :=
  ∀ before after alt, log = before ++ Local.Entry.withheld alt :: after →
    isAlt alt = true → keyDown alt = true → Fate c alt after

-- The keys of the filter against those of the class service.
structure Tidy (c : CaptureState) (log : List Entry) : Prop where
  held : ∀ key, Down key log → Held key log
  healthy : c.armed = true → c.epochFaulted = false
  pending : c.pendingAlt = true → isAlt c.pendingAltInput = true ∧
    keyDown c.pendingAltInput = true ∧ Held (keyOf c.pendingAltInput) log ∧
    c.capturingAltTab = false ∧ ∀ key : Key, key.isAlt = true → ¬Down key log
  flags : c.armed = true → ∀ key : Key, key.isAlt = true → Down key log → flag c key = true
  pendingFlag : c.armed = true → c.pendingAlt = true → flag c (keyOf c.pendingAltInput) = true
  wins : c.armed = true → ∀ key : Key, key.isWin = true → ¬Down key log
  capturing : c.capturingAltTab = true → c.armed = true ∧
    ∀ key : Key, key.isAlt = true ∨ key.isTab = true → ¬Down key log
  kept : Kept c log

section Fates

variable {alt : KeyboardInputData} {after : List Entry} {entry : Entry}

theorem Fate.altWhole (fate : Fate c alt after) :
    (∀ entry, after.find? dependent = some entry → entry = .replayed alt) ∨
      ∀ input, after.find? (endsKey (keyOf alt)) ≠ some (.delivered input) := by
  cases fate with
  | pending _ _ first _ =>
    refine .inl fun entry found => ?_
    rw [first] at found
    cases found
  | replayed first =>
    refine .inl fun entry found => ?_
    rw [first, Option.some.injEq] at found
    exact found.symm
  | captured _ _ unended =>
    refine .inr fun input found => ?_
    rw [unended] at found
    cases found
  | hidden up ended =>
    refine .inr fun input found => ?_
    rw [ended] at found
    cases found

-- Nothing changes about an Alt that has been replayed or whose up was kept back.
theorem Fate.settled (fate : Fate c alt after) (c' : CaptureState) (entry : Entry)
    (noPending : c.pendingAlt = false) (noCapture : c.capturingAltTab = false) :
    Fate c' alt (after ++ [entry]) := by
  cases fate with
  | pending still => exact absurd (still.symm.trans noPending) (by decide)
  | replayed first => exact .replayed (by rw [List.find?_append, first]; rfl)
  | captured capturing => exact absurd (capturing.symm.trans noCapture) (by decide)
  | hidden up ended => exact .hidden up (by rw [List.find?_append, ended]; rfl)

theorem find?_snoc_none {p : Entry → Bool} (before : after.find? p = none) (last : p entry = false) :
    (after ++ [entry]).find? p = none := by
  rw [List.find?_append, before, Option.none_or, List.find?_singleton, last]
  rfl

theorem find?_snoc_some {p : Entry → Bool} (before : after.find? p = none) (last : p entry = true) :
    (after ++ [entry]).find? p = some entry := by
  rw [List.find?_append, before, Option.none_or, List.find?_singleton, last]
  rfl

theorem Kept.append (kept : Kept c log)
    (old : ∀ alt after, isAlt alt = true → Fate c alt after → Fate c' alt (after ++ [entry]))
    (new : ∀ alt, entry = .withheld alt → isAlt alt = true → keyDown alt = true → Fate c' alt []) :
    Kept c' (log ++ [entry]) := by
  intro before after alt split isAlt down
  rcases Runs.concat_split split with ⟨rfl, -, last⟩ | ⟨earlier, rfl, rest⟩
  · exact new alt last isAlt down
  · exact old alt earlier isAlt (kept before earlier alt rest isAlt down)

theorem Kept.mono (kept : Kept c log)
    (old : ∀ alt after, Fate c alt after → Fate c' alt after) : Kept c' log :=
  fun before after alt split isAlt down => old alt after (kept before after alt split isAlt down)

end Fates

-- The keys as the filter sees them.
structure SameKeys (c c' : CaptureState) : Prop where
  armed : c'.armed = c.armed
  epochFaulted : c'.epochFaulted = c.epochFaulted
  leftAltDown : c'.leftAltDown = c.leftAltDown
  rightAltDown : c'.rightAltDown = c.rightAltDown
  pendingAlt : c'.pendingAlt = c.pendingAlt
  pendingAltInput : c'.pendingAltInput = c.pendingAltInput
  capturingAltTab : c'.capturingAltTab = c.capturingAltTab

section States

theorem SameKeys.flag (same : SameKeys c c') (key : Key) : flag c' key = flag c key := by
  rw [Local.flag, Local.flag, same.leftAltDown, same.rightAltDown]

theorem Tidy.same (tidy : Tidy c log) (same : SameKeys c c') : Tidy c' log := by
  refine ⟨tidy.held, ?_, ?_, ?_, ?_, ?_, ?_, tidy.kept.mono ?_⟩
  · rw [same.armed, same.epochFaulted]
    exact tidy.healthy
  · rw [same.pendingAlt, same.pendingAltInput, same.capturingAltTab]
    exact tidy.pending
  · intro armed key isAlt down
    rw [same.flag]
    exact tidy.flags (same.armed.symm.trans armed) key isAlt down
  · intro armed pending
    rw [same.flag, same.pendingAltInput]
    exact tidy.pendingFlag (same.armed.symm.trans armed) (same.pendingAlt.symm.trans pending)
  · rw [same.armed]
    exact tidy.wins
  · rw [same.armed, same.capturingAltTab]
    exact tidy.capturing
  · intro alt after fate
    cases fate with
    | pending still input first unended =>
      exact .pending (same.pendingAlt.trans still) (same.pendingAltInput.trans input) first unended
    | replayed first => exact .replayed first
    | captured capturing flagged unended =>
      exact .captured (same.capturingAltTab.trans capturing) ((same.flag _).trans flagged) unended
    | hidden up ended => exact .hidden up ended

-- A fault, a DISARM or a reset: the flags are forgotten, but no capture is broken off.
theorem Tidy.interrupt (tidy : Tidy c log) (free : ¬Captures c) (unarmed : c'.armed = false)
    (pendingAlt : c'.pendingAlt = c.pendingAlt)
    (pendingAltInput : c'.pendingAltInput = c.pendingAltInput)
    (noCapture : c'.capturingAltTab = false) : Tidy c' log := by
  have notArmed : c'.armed ≠ true := by
    rw [unarmed]
    decide
  refine ⟨tidy.held, fun armed => absurd armed notArmed, ?_, fun armed => absurd armed notArmed,
    fun armed => absurd armed notArmed, fun armed => absurd armed notArmed, ?_, ?_⟩
  · intro pending
    rw [pendingAltInput, noCapture]
    obtain ⟨isAlt, down, held, -, none⟩ := tidy.pending (pendingAlt.symm.trans pending)
    exact ⟨isAlt, down, held, rfl, none⟩
  · intro capturing
    exact absurd (capturing.symm.trans noCapture) (by decide)
  · apply tidy.kept.mono
    intro alt after fate
    cases fate with
    | pending still input first unended =>
      exact .pending (pendingAlt.trans still) (pendingAltInput.trans input) first unended
    | replayed first => exact .replayed first
    | captured capturing flagged unended =>
      refine absurd ⟨capturing, ?_⟩ free
      unfold Local.flag at flagged
      split_ifs at flagged
      · exact .inr flagged
      · exact .inl flagged
    | hidden up ended => exact .hidden up ended

theorem Tidy.fault (tidy : Tidy c log) (free : ¬Captures c) : Tidy (faultEpochLocked c) log :=
  tidy.interrupt free rfl rfl rfl rfl

theorem Tidy.disarm (tidy : Tidy c log) (free : ¬Captures c) : Tidy (disarmLocked c) log :=
  tidy.interrupt free rfl rfl rfl rfl

theorem Tidy.expire (tidy : Tidy c log) {now : UInt64} (free : Expires c now → ¬Captures c) :
    Tidy (expireLeaseLocked c now) log := by
  unfold expireLeaseLocked
  split_ifs with expired
  · rw [Bool.and_eq_true, decide_eq_true_eq] at expired
    exact tidy.fault (free expired)
  · exact tidy

-- A new epoch, with no key down that it keeps back.
theorem Tidy.reset (tidy : Tidy c log) (noPending : c.pendingAlt = false)
    (free : ¬Captures c) (none : NoneDown (fun key => key.isAlt || key.isWin) log)
    (arm : ArmRequest) (now : UInt64) : Tidy (grantArm (resetEpoch c) arm now) log := by
  have fresh := tidy.disarm free
  have up (key : Key) (kind : key.isAlt = true ∨ key.isWin = true) : ¬Down key log :=
    none.not_down (by simpa using kind)
  refine ⟨fresh.held, fun _ => rfl, ?_, ?_, ?_, ?_, ?_, ?_⟩
  · intro pending
    exact absurd (pending.symm.trans noPending) (by decide)
  · intro _ key isAlt down
    exact absurd down (up key (.inl isAlt))
  · intro _ pending
    exact absurd (pending.symm.trans noPending) (by decide)
  · intro _ key isWin
    exact up key (.inr isWin)
  · intro capturing
    cases capturing
  · apply fresh.kept.mono
    intro alt after fate
    cases fate with
    | pending still => exact absurd (still.symm.trans noPending) (by decide)
    | replayed first => exact .replayed first
    | captured capturing => cases capturing
    | hidden up ended => exact .hidden up ended

end States

section Flags

theorem isAlt_keyOf (input : KeyboardInputData) : (keyOf input).isAlt = isAlt input := rfl

theorem isWin_keyOf (input : KeyboardInputData) : (keyOf input).isWin = isWin input := rfl

theorem isTab_keyOf (input : KeyboardInputData) : (keyOf input).isTab = isTab input := rfl

theorem keyOf_ne {kind : KeyboardInputData → Bool} {ofKey : Key → Bool}
    (same : ∀ input, ofKey (keyOf input) = kind input) (not : kind input = false)
    (is : ofKey key = true) : keyOf input ≠ key := by
  rintro rfl
  rw [same, not] at is
  cases is

theorem isAlt_of_isChordModifier (modifier : isChordModifier input = true) :
    isAlt input = false := by
  simp only [isChordModifier, Bool.or_eq_true, beq_iff_eq] at modifier
  rcases modifier with (code | code) | code <;> simp [isAlt, code]

theorem isWin_of_isAlt (alt : isAlt input = true) : isWin input = false := by
  simp only [isAlt, beq_iff_eq] at alt
  simp [isWin, alt]

theorem isAlt_of_isWin (win : isWin input = true) : isAlt input = false := by
  simp only [isWin, Bool.or_eq_true, beq_iff_eq] at win
  rcases win with code | code <;> simp [isAlt, code]

theorem isAlt_of_isTab (tab : isTab input = true) : isAlt input = false := by
  simp only [isTab, beq_iff_eq] at tab
  simp [isAlt, tab]

@[simp] theorem updateAlt_of_not (c : CaptureState) (other : isAlt input = false) :
    updateAltStateLocked c input = c := by
  rw [updateAltStateLocked, other]
  rfl

theorem updateAlt_rest (c : CaptureState) (input : KeyboardInputData) :
    ∃ left right, updateAltStateLocked c input =
      { c with leftAltDown := left, rightAltDown := right } := by
  unfold updateAltStateLocked
  split_ifs
  · exact ⟨c.leftAltDown, c.rightAltDown, rfl⟩
  · exact ⟨c.leftAltDown, keyDown input, rfl⟩
  · exact ⟨keyDown input, c.rightAltDown, rfl⟩

-- A record of an Alt moves the flag of its own key.
theorem flag_update (c : CaptureState) (alt : isAlt input = true) (isAlt : key.isAlt = true) :
    flag (updateAltStateLocked c input) key =
      if keyOf input = key then keyDown input else flag c key := by
  have code : input.makeCode = key.makeCode := by
    simp only [KbdFilter.isAlt, Key.isAlt, beq_iff_eq] at alt isAlt
    rw [alt, isAlt]
  have same : keyOf input = key ↔ extended input = key.extended := by
    rw [keyOf, Key.mk.injEq]
    exact ⟨And.right, fun same => ⟨code, same⟩⟩
  rw [updateAltStateLocked, alt]
  cases side : extended input <;> cases keySide : key.extended <;>
    simp [flag, same, side, keySide]

theorem flag_of_up (left : c.leftAltDown = false) (right : c.rightAltDown = false) (key : Key) :
    flag c key = false := by
  rw [flag, left, right, ite_self]

end Flags

section Records

-- A pending Alt reaches the class service.
theorem Tidy.replay (tidy : Tidy c log) (pending : c.pendingAlt = true) :
    Tidy (clearPending c) (log ++ [Local.Entry.replayed c.pendingAltInput]) := by
  obtain ⟨alt, pressed, held, noCapture, none⟩ := tidy.pending pending
  have capturing : c.capturingAltTab ≠ true := by
    rw [noCapture]
    decide
  refine ⟨?_, tidy.healthy, fun still => (nomatch still), ?_, fun _ still => (nomatch still), ?_,
    fun capture => absurd capture capturing, tidy.kept.append ?_ (fun _ same => (nomatch same))⟩
  · intro key down
    rw [held_replayed]
    rw [down_replayed] at down
    split_ifs at down with same
    · exact same ▸ held
    · exact tidy.held key down
  · intro armed key isAlt down
    rw [down_replayed] at down
    split_ifs at down with same
    · exact same ▸ tidy.pendingFlag armed pending
    · exact absurd down (none key isAlt)
  · intro armed key isWin
    rw [down_replayed, if_neg (keyOf_ne isWin_keyOf (isWin_of_isAlt alt) isWin)]
    exact tidy.wins armed key isWin
  · intro alt after _ fate
    cases fate with
    | pending _ same first _ => exact .replayed (by rw [same, find?_snoc_some first rfl])
    | replayed first => exact .replayed (by rw [List.find?_append, first]; rfl)
    | captured capture => exact absurd capture capturing
    | hidden up ended => exact .hidden up (by rw [List.find?_append, ended]; rfl)

theorem Tidy.held_delivered (tidy : Tidy c log) (input : KeyboardInputData) (key : Key)
    (down : Down key (log ++ [Local.Entry.delivered input])) :
    Held key (log ++ [Local.Entry.delivered input]) := by
  rw [Local.held_delivered]
  rw [down_delivered] at down
  split_ifs at down ⊢
  · exact down
  · exact tidy.held key down

-- Without an epoch nothing is kept back.
theorem Tidy.pass (tidy : Tidy c log) (unarmed : c.armed = false) (noPending : c.pendingAlt = false)
    (input : KeyboardInputData) : Tidy c (log ++ [Local.Entry.delivered input]) := by
  have notArmed : c.armed ≠ true := by
    rw [unarmed]
    decide
  have noCapture : c.capturingAltTab = false := by
    by_contra capturing
    exact notArmed (tidy.capturing (Bool.not_eq_false _ ▸ capturing)).1
  refine ⟨tidy.held_delivered input, tidy.healthy, ?_, fun armed => absurd armed notArmed,
    fun armed => absurd armed notArmed, fun armed => absurd armed notArmed, ?_,
    tidy.kept.append ?_ (fun _ same => (nomatch same))⟩
  · intro pending
    exact absurd (pending.symm.trans noPending) (by decide)
  · intro capturing
    exact absurd (capturing.symm.trans noCapture) (by decide)
  · intro alt after _ fate
    exact fate.settled c _ noPending noCapture

-- A record of an epoch that is not kept back.
theorem Tidy.deliver (tidy : Tidy c log) (win : isWin input = false)
    (modifier : c.pendingAlt = true → isChordModifier input = true)
    (outside : c.capturingAltTab = true → isAlt input = false ∧ isTab input = false) :
    Tidy (updateAltStateLocked c input) (log ++ [Local.Entry.delivered input]) := by
  have pendingSame (pending : c.pendingAlt = true) : updateAltStateLocked c input = c :=
    updateAlt_of_not c (isAlt_of_isChordModifier (modifier pending))
  obtain ⟨left, right, updated⟩ := updateAlt_rest c input
  refine ⟨tidy.held_delivered input, ?_, ?_, ?_, ?_, ?_, ?_, tidy.kept.append ?_
    (fun _ same => (nomatch same))⟩
  · rw [updated]
    exact tidy.healthy
  · intro pending
    have pending : c.pendingAlt = true := by
      rw [updated] at pending
      exact pending
    rw [pendingSame pending]
    obtain ⟨alt, pressed, held, noCapture, none⟩ := tidy.pending pending
    have other (key : Key) (isAlt : key.isAlt = true) : keyOf input ≠ key :=
      keyOf_ne isAlt_keyOf (isAlt_of_isChordModifier (modifier pending)) isAlt
    refine ⟨alt, pressed, ?_, noCapture, ?_⟩
    · rw [Local.held_delivered, if_neg (other (keyOf c.pendingAltInput) alt)]
      exact held
    · intro key isAlt
      rw [down_delivered, if_neg (other key isAlt)]
      exact none key isAlt
  · intro armed key isAlt down
    have armed : c.armed = true := by
      rw [updated] at armed
      exact armed
    rw [down_delivered] at down
    cases alt : KbdFilter.isAlt input with
    | false =>
      rw [updateAlt_of_not c alt]
      rw [if_neg (keyOf_ne isAlt_keyOf alt isAlt)] at down
      exact tidy.flags armed key isAlt down
    | true =>
      rw [flag_update c alt isAlt]
      split_ifs at down ⊢
      · exact down
      · exact tidy.flags armed key isAlt down
  · intro armed pending
    have pending : c.pendingAlt = true := by
      rw [updated] at pending
      exact pending
    rw [pendingSame pending] at armed ⊢
    exact tidy.pendingFlag armed pending
  · intro armed key isWin
    rw [down_delivered, if_neg (keyOf_ne isWin_keyOf win isWin)]
    rw [updated] at armed
    exact tidy.wins armed key isWin
  · intro capturing
    have capturing : c.capturingAltTab = true := by
      rw [updated] at capturing
      exact capturing
    obtain ⟨notAlt, notTab⟩ := outside capturing
    obtain ⟨armed, none⟩ := tidy.capturing capturing
    rw [updateAlt_of_not c notAlt]
    refine ⟨armed, fun key kind => ?_⟩
    have other : keyOf input ≠ key := by
      rcases kind with isAlt | isTab
      · exact keyOf_ne isAlt_keyOf notAlt isAlt
      · exact keyOf_ne isTab_keyOf notTab isTab
    rw [down_delivered, if_neg other]
    exact none key kind
  · intro alt after isAlt fate
    have unended (other : KbdFilter.isAlt input = false) :
        endsKey (keyOf alt) (.delivered input) = false := by
      have apart : keyOf input ≠ keyOf alt := keyOf_ne isAlt_keyOf other isAlt
      rw [endsKey, beq_false_of_ne apart, Bool.false_and]
    cases fate with
    | pending still same first unendedBefore =>
      rw [pendingSame still]
      exact .pending still same (find?_snoc_none first (by rw [dependent, modifier still]; rfl))
        (find?_snoc_none unendedBefore (unended (isAlt_of_isChordModifier (modifier still))))
    | replayed first => exact .replayed (by rw [List.find?_append, first]; rfl)
    | captured capturing flagged unendedBefore =>
      rw [updateAlt_of_not c (outside capturing).1]
      exact .captured capturing flagged
        (find?_snoc_none unendedBefore (unended (outside capturing).1))
    | hidden up ended => exact .hidden up (by rw [List.find?_append, ended]; rfl)

theorem Tidy.held_withheld (tidy : Tidy c log) (up : ¬Down (keyOf input) log) (key : Key)
    (down : Down key (log ++ [Local.Entry.withheld input])) :
    Held key (log ++ [Local.Entry.withheld input]) := by
  rw [down_withheld] at down
  have other : keyOf input ≠ key := by
    rintro rfl
    exact up down
  rw [Local.held_withheld, if_neg other]
  exact tidy.held key down

-- A Win or a Tab that is kept back.
theorem Tidy.hide (tidy : Tidy c log) (up : ¬Down (keyOf input) log)
    (notAlt : isAlt input = false) : Tidy c (log ++ [Local.Entry.withheld input]) := by
  have other (key : Key) (isAlt : key.isAlt = true) : keyOf input ≠ key :=
    keyOf_ne isAlt_keyOf notAlt isAlt
  refine ⟨tidy.held_withheld up, tidy.healthy, ?_, ?_, tidy.pendingFlag, ?_, ?_,
    tidy.kept.append ?_ ?_⟩
  · intro pending
    obtain ⟨alt, pressed, held, noCapture, none⟩ := tidy.pending pending
    refine ⟨alt, pressed, ?_, noCapture, fun key isAlt => ?_⟩
    · rw [Local.held_withheld, if_neg (other (keyOf c.pendingAltInput) alt)]
      exact held
    · rw [down_withheld]
      exact none key isAlt
  · intro armed key isAlt down
    rw [down_withheld] at down
    exact tidy.flags armed key isAlt down
  · intro armed key isWin
    rw [down_withheld]
    exact tidy.wins armed key isWin
  · intro capturing
    obtain ⟨armed, none⟩ := tidy.capturing capturing
    refine ⟨armed, fun key kind => ?_⟩
    rw [down_withheld]
    exact none key kind
  · intro alt after isAlt fate
    have unended : endsKey (keyOf alt) (.withheld input) = false := by
      rw [endsKey, beq_false_of_ne (other (keyOf alt) isAlt), Bool.false_and]
    cases fate with
    | pending still same first unendedBefore =>
      exact .pending still same (find?_snoc_none first rfl) (find?_snoc_none unendedBefore unended)
    | replayed first => exact .replayed (by rw [List.find?_append, first]; rfl)
    | captured capturing flagged unendedBefore =>
      exact .captured capturing flagged (find?_snoc_none unendedBefore unended)
    | hidden up ended => exact .hidden up (by rw [List.find?_append, ended]; rfl)
  · intro alt same isAlt
    rw [← (Entry.withheld.inj same), notAlt] at isAlt
    cases isAlt

-- An Alt that is kept back while its chord is captured.
theorem Tidy.hideAlt (tidy : Tidy c log) (alt : isAlt input = true)
    (capturing : c.capturingAltTab = true) :
    Tidy (updateAltStateLocked c input) (log ++ [Local.Entry.withheld input]) := by
  obtain ⟨armed, none⟩ := tidy.capturing capturing
  obtain ⟨left, right, updated⟩ := updateAlt_rest c input
  have noPending : c.pendingAlt ≠ true := by
    intro pending
    exact absurd (capturing.symm.trans (tidy.pending pending).2.2.2.1) (by decide)
  refine ⟨tidy.held_withheld (none _ (.inl alt)), ?_, ?_, ?_, ?_, ?_, ?_, tidy.kept.append ?_ ?_⟩
  · rw [updated]
    exact tidy.healthy
  · rw [updated]
    intro pending
    exact absurd pending noPending
  · intro _ key isAlt down
    rw [down_withheld] at down
    exact absurd down (none key (.inl isAlt))
  · rw [updated]
    intro _ pending
    exact absurd pending noPending
  · intro _ key isWin
    rw [down_withheld]
    exact tidy.wins armed key isWin
  · rw [updated]
    intro _
    refine ⟨armed, fun key kind => ?_⟩
    rw [down_withheld]
    exact none key kind
  · intro held after isAlt fate
    cases fate with
    | pending still => exact absurd still noPending
    | replayed first => exact .replayed (by rw [List.find?_append, first]; rfl)
    | captured _ flagged unended =>
      have moved := flag_update c alt (isAlt_keyOf held ▸ isAlt)
      by_cases same : keyOf input = keyOf held
      · rw [if_pos same] at moved
        cases down : keyDown input with
        | true =>
          refine .captured (by rw [updated]; exact capturing) (moved.trans down)
            (find?_snoc_none unended ?_)
          rw [endsKey, down, Bool.not_true, Bool.and_false]
        | false =>
          refine .hidden input (find?_snoc_some unended ?_)
          rw [endsKey, same, down, beq_self_eq_true]
          rfl
      · rw [if_neg same] at moved
        refine .captured (by rw [updated]; exact capturing) (moved.trans flagged)
          (find?_snoc_none unended ?_)
        rw [endsKey, beq_false_of_ne same, Bool.false_and]
    | hidden up ended => exact .hidden up (by rw [List.find?_append, ended]; rfl)
  · intro held same isAlt down
    obtain rfl := Entry.withheld.inj same
    have moved := flag_update c alt (isAlt_keyOf input ▸ isAlt)
    rw [if_pos rfl] at moved
    exact .captured (by rw [updated]; exact capturing) (moved.trans down) rfl

-- The first Alt of a chord.
theorem Tidy.pend (tidy : Tidy c log) (armed : c.armed = true) (alt : isAlt input = true)
    (down : keyDown input = true) (left : c.leftAltDown = false) (right : c.rightAltDown = false)
    (noPending : c.pendingAlt = false) (noCapture : c.capturingAltTab = false) :
    Tidy { updateAltStateLocked c input with pendingAltInput := input, pendingAlt := true }
      (log ++ [Local.Entry.withheld input]) := by
  have none (key : Key) (isAlt : key.isAlt = true) : ¬Down key log := by
    intro down
    exact absurd ((tidy.flags armed key isAlt down).symm.trans (flag_of_up left right key))
      (by decide)
  obtain ⟨left', right', updated⟩ := updateAlt_rest c input
  refine ⟨tidy.held_withheld (none _ alt), ?_, ?_, ?_, ?_, ?_, ?_, tidy.kept.append ?_ ?_⟩
  · rw [updated]
    exact tidy.healthy
  · intro _
    refine ⟨alt, down, ?_, by rw [updated]; exact noCapture, fun key isAlt => ?_⟩
    · rw [Local.held_withheld, if_pos rfl]
      exact down
    · rw [down_withheld]
      exact none key isAlt
  · intro _ key isAlt down
    rw [down_withheld] at down
    exact absurd down (none key isAlt)
  · intro _ _
    have isAlt : (keyOf input).isAlt = true := alt
    exact (flag_update c alt isAlt).trans ((if_pos rfl).trans down)
  · intro _ key isWin
    rw [down_withheld]
    exact tidy.wins armed key isWin
  · rw [updated]
    intro capturing
    exact absurd (capturing.symm.trans noCapture) (by decide)
  · intro held after _ fate
    exact fate.settled _ _ noPending noCapture
  · intro held same _ _
    exact .pending rfl (Entry.withheld.inj same) rfl rfl

-- The chord of a pending Alt is captured.
theorem Tidy.capture (tidy : Tidy c log) (armed : c.armed = true) (pending : c.pendingAlt = true)
    (none : NoneDown Key.isTab log) (tabDown : Bool) :
    Tidy { c with pendingAlt := false, capturingAltTab := true, altTabDown := tabDown } log := by
  obtain ⟨alt, pressed, held, noCapture, up⟩ := tidy.pending pending
  refine ⟨tidy.held, tidy.healthy, fun still => (nomatch still), tidy.flags,
    fun _ still => (nomatch still), tidy.wins, fun _ => ⟨armed, fun key kind => ?_⟩,
    tidy.kept.mono ?_⟩
  · rcases kind with isAlt | isTab
    · exact up key isAlt
    · exact none.not_down isTab
  · intro alt after fate
    cases fate with
    | pending _ same _ unended =>
      exact .captured rfl (same ▸ tidy.pendingFlag armed pending) unended
    | replayed first => exact .replayed first
    | captured capturing => exact absurd (capturing.symm.trans noCapture) (by decide)
    | hidden up ended => exact .hidden up ended

-- The capture ends when no Alt of it is held.
theorem Tidy.release (tidy : Tidy c log) (left : c.leftAltDown = false)
    (right : c.rightAltDown = false) : Tidy { c with capturingAltTab := false } log := by
  refine ⟨tidy.held, tidy.healthy, ?_, tidy.flags, tidy.pendingFlag, tidy.wins,
    fun still => (nomatch still), tidy.kept.mono ?_⟩
  · intro pending
    obtain ⟨alt, pressed, held, -, up⟩ := tidy.pending pending
    exact ⟨alt, pressed, held, rfl, up⟩
  · intro alt after fate
    cases fate with
    | pending still same first unended => exact .pending still same first unended
    | replayed first => exact .replayed first
    | captured _ flagged =>
      exact absurd (flagged.symm.trans (flag_of_up left right _)) (by decide)
    | hidden up ended => exact .hidden up ended

end Records

section Iterations

variable {now : UInt64} {takesPending takesRecord : Bool}

theorem enqueueEvent_same (c : CaptureState) (input : KeyboardInputData) (now : UInt64) :
    SameKeys c (enqueueEventLocked c input now) :=
  ⟨rfl, rfl, rfl, rfl, rfl, rfl, rfl⟩

theorem enqueueDelivered_same (c : CaptureState) (l : Locals) (input : KeyboardInputData)
    (now : UInt64) : SameKeys c (enqueueDelivered c l input now) := by
  unfold enqueueDelivered
  split_ifs
  · exact enqueueEvent_same c input now
  · exact ⟨rfl, rfl, rfl, rfl, rfl, rfl, rfl⟩

-- The epoch is not touched by a decision.
theorem decided_epoch (c : CaptureState) (input : KeyboardInputData) :
    (decided c input).1.armed = c.armed ∧ (decided c input).1.epochFaulted = c.epochFaulted ∧
      (decided c input).1.nonce = c.nonce := by
  obtain ⟨left, right, updated⟩ := updateAlt_rest c input
  simp only [decided, decideLocked, updated, apply_ite Prod.fst, apply_ite CaptureState.armed,
    apply_ite CaptureState.epochFaulted, apply_ite CaptureState.nonce, ite_self, and_self]

-- A refused call leaves the keys as the iteration found them.
theorem restorePrior_same (armed : c.armed = true) (healthy : c.epochFaulted = false)
    (epoch : c'.armed = c.armed ∧ c'.epochFaulted = c.epochFaulted ∧ c'.nonce = c.nonce)
    (replay suppress pending : Bool) :
    SameKeys { c with pendingAlt := pending } (restorePrior c' { priorLocals c with
      replayPending := replay, suppressLocal := suppress, priorPending := pending }) := by
  obtain ⟨sameArmed, sameFault, sameNonce⟩ := epoch
  have same : sameEpoch c' { priorLocals c with
      replayPending := replay, suppressLocal := suppress, priorPending := pending } = true := by
    rw [sameEpoch, sameArmed, sameFault, sameNonce, armed, healthy, priorLocals]
    simp
  rw [restorePrior, if_pos same]
  exact ⟨sameArmed, sameFault, rfl, rfl, rfl, rfl, rfl⟩

-- What a decision comes to, once the class service has taken what it is handed.
inductive Outcome (c : CaptureState) (log : List Entry) (input : KeyboardInputData) :
    CaptureState × Bool × Bool → Prop
  | withheld (next : CaptureState) (unsafely : isLocalSafetyKey input = false)
      (tidy : Tidy next (log ++ [Local.Entry.withheld input])) :
      Outcome c log input (next, false, true)
  | delivered (next : CaptureState) (tidy : Tidy next (log ++ [Local.Entry.delivered input])) :
      Outcome c log input (next, false, false)
  | replayed (next : CaptureState) (pending : c.pendingAlt = true)
      (tidy : Tidy (clearPending next)
        (log ++ [Local.Entry.replayed c.pendingAltInput] ++ [Local.Entry.delivered input])) :
      Outcome c log input (next, true, false)

theorem notSafety_of_isWin (win : isWin input = true) : isLocalSafetyKey input = false := by
  simp only [isWin, Bool.or_eq_true, beq_iff_eq] at win
  rcases win with code | code <;> simp [isLocalSafetyKey, code]

theorem notSafety_of_isAlt (alt : isAlt input = true) : isLocalSafetyKey input = false := by
  simp only [isAlt, beq_iff_eq] at alt
  simp [isLocalSafetyKey, alt]

theorem notSafety_of_isTab (tab : isTab input = true) : isLocalSafetyKey input = false := by
  simp only [isTab, beq_iff_eq] at tab
  simp [isLocalSafetyKey, tab]

theorem Tidy.releases (tidy : Tidy c log) {ends : Bool}
    (free : ends = true → c.leftAltDown = false ∧ c.rightAltDown = false) :
    Tidy (if ends = true then { c with capturingAltTab := false } else c) log := by
  split_ifs with ended
  · exact tidy.release (free ended).1 (free ended).2
  · exact tidy

-- The state of the chord behind one of its records.
def chordState (c : CaptureState) (input : KeyboardInputData) : CaptureState :=
  let c := if isTab input then { c with altTabDown := keyDown input } else c
  let c :=
    if !keyDown input && isAlt input && !c.leftAltDown && !c.rightAltDown && !c.altTabDown then
      { c with capturingAltTab := false }
    else c
  if !keyDown input && isTab input && !c.leftAltDown && !c.rightAltDown then
    { c with capturingAltTab := false }
  else c

theorem decideLocked_chord (wasAltDown : Bool) (notWin : isWin input = false)
    (capturing : c.capturingAltTab = true) (chord : (isAlt input || isTab input) = true) :
    decideLocked c input wasAltDown = (chordState c input, false, true) := by
  rw [decideLocked, notWin, if_neg (by decide), if_pos capturing, if_pos chord]
  rfl

theorem Tidy.chordState (tidy : Tidy c log) (input : KeyboardInputData) :
    Tidy (chordState c input) log := by
  unfold Local.chordState
  have moved : Tidy (if isTab input = true then { c with altTabDown := keyDown input } else c)
      log := by
    split_ifs
    · exact tidy.same ⟨rfl, rfl, rfl, rfl, rfl, rfl, rfl⟩
    · exact tidy
  refine Tidy.releases (Tidy.releases moved ?_) ?_
  · simp only [Bool.and_eq_true, Bool.not_eq_true']
    exact fun ends => ⟨ends.1.1.2, ends.1.2⟩
  · simp only [Bool.and_eq_true, Bool.not_eq_true']
    exact fun ends => ⟨ends.1.2, ends.2⟩

-- An Alt or a Tab of a captured chord.
theorem Tidy.chord (tidy : Tidy c log) (capturing : c.capturingAltTab = true)
    (chord : isAlt input = true ∨ isTab input = true) :
    Tidy (Local.chordState (updateAltStateLocked c input) input)
      (log ++ [Local.Entry.withheld input]) := by
  rcases chord with alt | tab
  · exact (tidy.hideAlt alt capturing).chordState input
  · rw [updateAlt_of_not c (isAlt_of_isTab tab)]
    have up := (tidy.capturing capturing).2 (keyOf input) (.inr tab)
    exact (tidy.hide up (isAlt_of_isTab tab)).chordState input

theorem clearPending_update (c : CaptureState) (input : KeyboardInputData) :
    updateAltStateLocked (clearPending c) input = clearPending (updateAltStateLocked c input) := by
  unfold updateAltStateLocked
  split_ifs <;> rfl

theorem Tidy.outcome (tidy : Tidy c log) (armed : c.armed = true)
    (tabs : c.pendingAlt = true → isWin input = true ∨ isTab input = true ∧ keyDown input = true →
      NoneDown Key.isTab log) : Outcome c log input (decided c input) := by
  obtain ⟨left, right, updated⟩ := updateAlt_rest c input
  have samePending : (updateAltStateLocked c input).pendingAlt = c.pendingAlt := by rw [updated]
  have sameCapture : (updateAltStateLocked c input).capturingAltTab = c.capturingAltTab := by
    rw [updated]
  unfold decided
  by_cases win : isWin input = true
  · have up := tidy.wins armed (keyOf input) win
    rw [updateAlt_of_not c (isAlt_of_isWin win), decideLocked, if_pos win]
    by_cases pending : c.pendingAlt = true
    · have captured := tidy.capture armed pending (tabs pending (.inl win)) false
      rw [if_pos pending]
      exact .withheld _ (notSafety_of_isWin win) (captured.hide up (isAlt_of_isWin win))
    · rw [if_neg pending]
      exact .withheld _ (notSafety_of_isWin win) (tidy.hide up (isAlt_of_isWin win))
  have notWin : isWin input = false := Bool.eq_false_iff.mpr win
  by_cases capturing : c.capturingAltTab = true
  · have noPending : c.pendingAlt ≠ true := by
      intro pending
      exact absurd (capturing.symm.trans (tidy.pending pending).2.2.2.1) (by decide)
    by_cases chord : (isAlt input || isTab input) = true
    · rw [decideLocked_chord _ notWin (sameCapture.trans capturing) chord]
      rw [Bool.or_eq_true] at chord
      have safe : isLocalSafetyKey input = false := by
        rcases chord with alt | tab
        · exact notSafety_of_isAlt alt
        · exact notSafety_of_isTab tab
      exact .withheld _ safe (tidy.chord capturing chord)
    · rw [decideLocked, if_neg win, if_pos (sameCapture.trans capturing), if_neg chord]
      rw [Bool.or_eq_true, not_or] at chord
      refine .delivered _ (tidy.deliver notWin (fun pending => absurd pending noPending) fun _ => ?_)
      exact ⟨Bool.eq_false_iff.mpr chord.1, Bool.eq_false_iff.mpr chord.2⟩
  have outside : c.capturingAltTab = true → isAlt input = false ∧ isTab input = false :=
    fun capture => absurd capture capturing
  rw [decideLocked, if_neg win, if_neg (sameCapture ▸ capturing)]
  by_cases pending : c.pendingAlt = true
  · rw [if_pos (samePending.trans pending)]
    by_cases tab : (isTab input && keyDown input) = true
    · rw [if_pos tab]
      rw [Bool.and_eq_true] at tab
      have captured := tidy.capture armed pending (tabs pending (.inr tab)) true
      have up : ¬Down (keyOf input) log := (tabs pending (.inr tab)).not_down tab.1
      rw [updateAlt_of_not c (isAlt_of_isTab tab.1)]
      exact .withheld _ (notSafety_of_isTab tab.1) (captured.hide up (isAlt_of_isTab tab.1))
    · rw [if_neg tab]
      by_cases modifier : isChordModifier input = true
      · rw [modifier, if_neg (by decide)]
        exact .delivered _ (tidy.deliver notWin (fun _ => modifier) outside)
      · rw [Bool.eq_false_iff.mpr modifier, if_pos (by decide)]
        have delivered := (tidy.replay pending).deliver notWin
          (fun still => (nomatch still)) outside
        rw [clearPending_update] at delivered
        exact .replayed _ pending delivered
  rw [if_neg (samePending ▸ pending)]
  split_ifs with fresh
  · simp only [Bool.and_eq_true, Bool.not_eq_true', Bool.or_eq_false_iff] at fresh
    exact .withheld _ (notSafety_of_isAlt fresh.1.1)
      (tidy.pend armed fresh.1.1 fresh.1.2 fresh.2.1 fresh.2.2
        (Bool.eq_false_iff.mpr pending) (Bool.eq_false_iff.mpr capturing))
  · exact .delivered _ (tidy.deliver notWin (fun still => absurd still pending) outside)

section Calls

variable {l : Locals} (c : CaptureState) (input : KeyboardInputData) (now : UInt64)

theorem handOver_unarmed (off : l.armed = false) (takesRecord : Bool) :
    handOver c l input now takesRecord =
      (c, takesRecord, if takesRecord then [.delivered input] else []) := by
  rw [handOver, off]
  cases takesRecord <;> rfl

theorem handOver_armed (on : l.armed = true) (handed : l.suppressLocal = false)
    (takesRecord : Bool) :
    handOver c l input now takesRecord =
      if takesRecord then (enqueueDelivered c l input now, true, [.delivered input])
      else (restorePrior c l, false, []) := by
  rw [handOver, on, handed]
  cases takesRecord <;> rfl

theorem handOver_withheld (on : l.armed = true) (suppressed : l.suppressLocal = true)
    (unsafely : isLocalSafetyKey input = false) (takesRecord : Bool) :
    handOver c l input now takesRecord = (c, true, [.withheld input]) := by
  rw [handOver, on, suppressed, unsafely]
  rfl

theorem callOriginals_plain (plain : l.replayPending = false) (takesPending takesRecord : Bool) :
    callOriginals c l input now takesPending takesRecord =
      handOver c l input now takesRecord := by
  rw [callOriginals, plain]
  rfl

theorem callOriginals_armed (on : l.armed = true) (replay : l.replayPending = true)
    (takesPending takesRecord : Bool) :
    callOriginals c l input now takesPending takesRecord =
      if takesPending then
        let next := handOver (clearPending c) { l with priorPending := false } input now takesRecord
        (next.1, next.2.1, .replayed l.pendingAlt :: next.2.2)
      else (restorePrior c l, false, []) := by
  rw [callOriginals, if_pos replay, on]
  cases takesPending <;> rfl

end Calls

-- Without an epoch a pending Alt goes first, and the record follows it.
theorem Tidy.callUnarmed (tidy : Tidy c log) (unarmed : c.armed = false) {l : Locals}
    (off : l.armed = false) (replay : l.replayPending = c.pendingAlt)
    (pendingAlt : l.pendingAlt = c.pendingAltInput) (input : KeyboardInputData) (now : UInt64)
    (takesPending takesRecord : Bool) :
    Tidy (callOriginals c l input now takesPending takesRecord).1
      (log ++ (callOriginals c l input now takesPending takesRecord).2.2) := by
  have passes {c : CaptureState} {log : List Entry} (tidy : Tidy c log) (unarmed : c.armed = false)
      (noPending : c.pendingAlt = false) :
      Tidy c (log ++ if takesRecord then [.delivered input] else []) := by
    cases takesRecord with
    | false => exact (List.append_nil log).symm ▸ tidy
    | true => exact tidy.pass unarmed noPending input
  unfold callOriginals
  rw [replay, off]
  cases pending : c.pendingAlt with
  | false =>
    rw [if_neg (by decide), handOver_unarmed _ _ _ off]
    exact passes tidy unarmed pending
  | true =>
    rw [if_pos rfl]
    cases takesPending with
    | false => exact (List.append_nil log).symm ▸ tidy
    | true =>
      simp only [if_true, Bool.false_eq_true, if_false, handOver_unarmed _ _ _ off, pendingAlt]
      rw [← List.singleton_append, ← List.append_assoc]
      exact passes (tidy.replay pending) unarmed rfl

-- In an epoch the record follows its decision, and a refused call takes the decision back.
theorem Tidy.callArmed (tidy : Tidy c log) (armed : c.armed = true)
    (outcome : Outcome c log input (decided c input)) {l : Locals}
    (locals : l = { priorLocals c with
      replayPending := (decided c input).2.1
      suppressLocal := (decided c input).2.2 }) (now : UInt64) (takesPending takesRecord : Bool) :
    Tidy (callOriginals
        (if (decided c input).2.2 then enqueueEventLocked (decided c input).1 input now
          else (decided c input).1) l input now takesPending takesRecord).1
      (log ++ (callOriginals
        (if (decided c input).2.2 then enqueueEventLocked (decided c input).1 input now
          else (decided c input).1) l input now takesPending takesRecord).2.2) := by
  have healthy := tidy.healthy armed
  have epoch := decided_epoch c input
  have restored := restorePrior_same armed healthy epoch
  have on : l.armed = true := by
    rw [locals]
    exact armed
  have replay : l.replayPending = (decided c input).2.1 := by rw [locals]
  have suppress : l.suppressLocal = (decided c input).2.2 := by rw [locals]
  have alt : l.pendingAlt = c.pendingAltInput := by
    rw [locals]
    rfl
  generalize decided c input = decision at outcome epoch restored locals replay suppress
  cases outcome with
  | withheld next unsafely kept =>
    rw [callOriginals_plain _ _ _ replay, handOver_withheld _ _ _ on suppress unsafely]
    exact kept.same (enqueueEvent_same next input now)
  | delivered next passed =>
    rw [callOriginals_plain _ _ _ replay, handOver_armed _ _ _ on suppress]
    cases takesRecord with
    | true => exact passed.same (enqueueDelivered_same next _ input now)
    | false =>
      rw [locals]
      exact (List.append_nil log).symm ▸ tidy.same (restored false false c.pendingAlt)
  | replayed next pending followed =>
    rw [callOriginals_armed _ _ _ on replay]
    cases takesPending with
    | false =>
      rw [locals]
      exact (List.append_nil log).symm ▸ tidy.same (restored true false c.pendingAlt)
    | true =>
      rw [if_pos rfl, handOver_armed (l := { l with priorPending := false }) _ _ _ on suppress, alt]
      cases takesRecord with
      | true =>
        rw [List.append_assoc] at followed
        exact followed.same (enqueueDelivered_same _ _ input now)
      | false =>
        have epoch : (clearPending next).armed = c.armed ∧
            (clearPending next).epochFaulted = c.epochFaulted ∧
            (clearPending next).nonce = c.nonce := epoch
        rw [locals]
        exact (tidy.replay pending).same (restorePrior_same armed healthy epoch true false false)

theorem callOriginals_entries (c : CaptureState) (l : Locals) (input : KeyboardInputData)
    (now : UInt64) (takesPending takesRecord : Bool) :
    pressed (callOriginals c l input now takesPending takesRecord).2.2 = [] ∧
      consumed (callOriginals c l input now takesPending takesRecord).2.2 =
        if (callOriginals c l input now takesPending takesRecord).2.1 then [input] else [] := by
  have handed (c : CaptureState) (l : Locals) :
      pressed (handOver c l input now takesRecord).2.2 = [] ∧
        consumed (handOver c l input now takesRecord).2.2 =
          if (handOver c l input now takesRecord).2.1 then [input] else [] := by
    by_cases original : (!l.armed || !l.suppressLocal || isLocalSafetyKey input) = true
    · rw [handOver, if_pos original]
      cases takesRecord <;> exact ⟨rfl, rfl⟩
    · rw [handOver, if_neg original]
      exact ⟨rfl, rfl⟩
  by_cases replay : l.replayPending = true
  · rw [callOriginals, if_pos replay]
    cases takesPending with
    | true => exact handed _ _
    | false => exact ⟨rfl, rfl⟩
  · rw [callOriginals, if_neg replay]
    exact handed c l

theorem Tidy.iteration (tidy : Tidy c log) {now : UInt64}
    (expires : Expires c now → ¬Captures c)
    (full : (expireLeaseLocked c now).armed = true →
      (expireLeaseLocked c now).count = bpRingCapacity → ¬Captures c)
    (starts : StartsCapture (expireLeaseLocked c now) input → NoneDown Key.isTab log)
    (takesPending takesRecord : Bool) :
    Tidy (iteration c input now takesPending takesRecord).1
      (log ++ (Local.iteration c input now takesPending takesRecord).2.2) := by
  have current := tidy.expire expires
  have free : (expireLeaseLocked c now).armed = true →
      (expireLeaseLocked c now).count = bpRingCapacity → ¬Captures (expireLeaseLocked c now) := by
    intro armed count
    have same : expireLeaseLocked c now = c := by
      unfold expireLeaseLocked at armed ⊢
      split_ifs at armed ⊢
      · cases armed
      · rfl
    rw [same]
    exact full armed count
  unfold Local.iteration examine
  generalize expireLeaseLocked c now = c at current free starts ⊢
  cases armed : c.armed with
  | false =>
    rw [examineLocked_unarmed input now armed]
    refine current.callUnarmed armed armed ?_ rfl input now takesPending takesRecord
    rw [priorLocals, armed]
    rfl
  | true =>
    by_cases count : c.count = bpRingCapacity
    · rw [examineLocked_full input now armed count]
      exact (current.fault (free armed count)).callUnarmed rfl rfl rfl rfl input now takesPending
        takesRecord
    · rw [examineLocked_armed input now armed count]
      have outcome := current.outcome armed
        (fun pending starting => starts ⟨armed, count, pending, starting⟩)
      exact current.callArmed armed outcome rfl now takesPending takesRecord

end Iterations

section Requests

variable {now : UInt64}

theorem expireLease_free (free : ¬Captures c) (now : UInt64) :
    ¬Captures (expireLeaseLocked c now) := by
  unfold expireLeaseLocked
  split_ifs
  · rintro ⟨capturing, -⟩
    cases capturing
  · exact free

theorem expireLease_pendingAlt (c : CaptureState) (now : UInt64) :
    (expireLeaseLocked c now).pendingAlt = c.pendingAlt := by
  unfold expireLeaseLocked
  split_ifs <;> rfl

theorem armLocked_cases (c : CaptureState) (request : ArmRequest) (now : UInt64) :
    (armLocked c request now).2 = .success true ∧
        (armLocked c request now).1 =
          grantArm (resetEpoch (expireLeaseLocked c now)) request now ∨
      (armLocked c request now).2 = .success false ∧
        (armLocked c request now).1 = grantArm (expireLeaseLocked c now) request now ∧
        (expireLeaseLocked c now).armed = true ∨
      ((armLocked c request now).2 = .deviceBusy ∨ (armLocked c request now).2 = .deviceNotReady) ∧
        (armLocked c request now).1 = expireLeaseLocked c now := by
  unfold armLocked
  dsimp only
  split_ifs with busy faulted fresh
  · exact .inr (.inr ⟨.inl rfl, rfl⟩)
  · exact .inr (.inr ⟨.inr rfl, rfl⟩)
  · exact .inl ⟨rfl, rfl⟩
  · refine .inr (.inl ⟨rfl, rfl, ?_⟩)
    simp only [Bool.or_eq_true, not_or, Bool.not_eq_true'] at fresh
    exact Bool.not_eq_false _ ▸ fresh.1

theorem armRequest_cases (c : CaptureState) (request : ArmRequest) (now : UInt64) :
    armRequest c request now = (c, .invalidParameter) ∨
      armRequest c request now = armLocked c request now := by
  unfold armRequest
  split_ifs
  · exact .inl rfl
  · exact .inr rfl

theorem Tidy.arm (tidy : Tidy c log) (request : ArmRequest) (now : UInt64)
    (expires : (armRequest c request now).2 ≠ .invalidParameter → Expires c now → ¬Captures c)
    (resets : (armRequest c request now).2 = .success true → c.pendingAlt = false ∧ ¬Captures c ∧
      NoneDown (fun key => key.isAlt || key.isWin) log) :
    Tidy (armRequest c request now).1 log := by
  rcases armRequest_cases c request now with invalid | granted
  · rw [invalid]
    exact tidy
  rw [granted] at expires resets ⊢
  rcases armLocked_cases c request now with ⟨status, next⟩ | ⟨status, next, armed⟩ | ⟨status, next⟩
  · rw [status] at expires resets
    obtain ⟨noPending, free, none⟩ := resets rfl
    rw [next]
    exact (tidy.expire (expires nofun)).reset ((expireLease_pendingAlt c now).trans noPending)
      (expireLease_free free now) none request now
  · rw [status] at expires
    rw [next]
    exact (tidy.expire (expires nofun)).same ⟨armed.symm, rfl, rfl, rfl, rfl, rfl, rfl⟩
  · rw [next]
    refine tidy.expire (expires ?_)
    rcases status with busy | faulted
    · rw [busy]
      nofun
    · rw [faulted]
      nofun

theorem readEvents_same (c : CaptureState) (gateTaken : Bool) (capacity : Nat) :
    SameKeys c (readEventsLocked c gateTaken capacity).1 :=
  ⟨rfl, rfl, rfl, rfl, rfl, rfl, rfl⟩

end Requests

-- A record that is received changes nothing yet.
theorem Tidy.press (tidy : Tidy c log) (input : KeyboardInputData) :
    Tidy c (log ++ [Local.Entry.pressed input]) := by
  have down (key : Key) : Down key (log ++ [Local.Entry.pressed input]) ↔ Down key log := by
    rw [Down, deliveries_append]
    exact Iff.of_eq (congrArg (lastEdge key · = some true) (List.append_nil _))
  have held (key : Key) : Held key (log ++ [Local.Entry.pressed input]) ↔ Held key log := by
    rw [Held, consumed_append]
    exact Iff.of_eq (congrArg (lastEdge key · = some true) (List.append_nil _))
  refine ⟨?_, tidy.healthy, ?_, ?_, tidy.pendingFlag, ?_, ?_,
    tidy.kept.append ?_ (fun _ same => (nomatch same))⟩
  · simp only [down, held]
    exact tidy.held
  · simp only [down, held]
    exact tidy.pending
  · simp only [down]
    exact tidy.flags
  · simp only [down]
    exact tidy.wins
  · simp only [down]
    exact tidy.capturing
  · intro alt after _ fate
    cases fate with
    | pending still same first unended =>
      exact .pending still same (find?_snoc_none first rfl) (find?_snoc_none unended rfl)
    | replayed first => exact .replayed (by rw [List.find?_append, first]; rfl)
    | captured capturing flagged unended =>
      exact .captured capturing flagged (find?_snoc_none unended rfl)
    | hidden up ended => exact .hidden up (by rw [List.find?_append, ended]; rfl)

-- Nothing is lost between what is pressed and what is consumed.
structure Sound (log : List Entry) (k : Keyboard) : Prop where
  tidy : Tidy k.capture log
  records : pressed log = consumed log ++ k.waiting

theorem new_sound : Sound [] .new := by
  refine ⟨⟨fun key down => (nomatch down), fun _ => rfl, fun pending => (nomatch pending),
    fun armed => (nomatch armed), fun armed => (nomatch armed), fun armed => (nomatch armed),
    fun capturing => (nomatch capturing), ?_⟩, rfl⟩
  intro before after alt split
  exact absurd split (by simp)

theorem iterate_sound {log : List Entry} {k : Keyboard} {now : UInt64} (sound : Sound log k)
    (takesPending takesRecord : Bool) (steady : Steady log k (.iterate now takesPending takesRecord)) :
    Sound (log ++ (step k (.iterate now takesPending takesRecord)).2)
      (step k (.iterate now takesPending takesRecord)).1 := by
  cases waiting : k.waiting with
  | nil =>
    rw [step, waiting, List.append_nil]
    exact sound
  | cons input rest =>
    obtain ⟨expires, full, starts⟩ := steady input (by rw [waiting]; rfl)
    have tidy := sound.tidy.iteration expires full starts takesPending takesRecord
    obtain ⟨noPress, taken⟩ := callOriginals_entries (examine k.capture input now).1
      (examine k.capture input now).2 input now takesPending takesRecord
    rw [step, waiting]
    refine ⟨tidy, ?_⟩
    have records := sound.records
    rw [waiting] at records
    rw [pressed_append, consumed_append]
    change pressed log ++ pressed (callOriginals _ _ _ _ _ _).2.2 = _
    rw [noPress, List.append_nil, records]
    change _ = consumed log ++ consumed (callOriginals _ _ _ _ _ _).2.2 ++ _
    rw [taken]
    change _ = _ ++ if (callOriginals _ _ _ _ _ _).2.1 then rest else input :: rest
    split_ifs
    · rw [List.append_assoc]
      rfl
    · rw [List.append_nil]

theorem step_sound (log : List Entry) (k : Keyboard) (action : Action) (sound : Sound log k)
    (steady : Steady log k action) : Sound (log ++ (step k action).2) (step k action).1 := by
  obtain ⟨tidy, records⟩ := sound
  cases action with
  | press input =>
    refine ⟨tidy.press input, ?_⟩
    rw [step, pressed_append, consumed_append, records]
    change _ = consumed log ++ [] ++ (k.waiting ++ [input])
    rw [List.append_nil, List.append_assoc]
    rfl
  | iterate now takesPending takesRecord =>
    exact iterate_sound ⟨tidy, records⟩ takesPending takesRecord steady
  | arm request now =>
    rw [step, List.append_nil]
    exact ⟨tidy.arm request now steady.1 steady.2, records⟩
  | disarm =>
    rw [step, List.append_nil]
    exact ⟨tidy.disarm steady, records⟩
  | status now =>
    rw [step, List.append_nil]
    exact ⟨tidy.expire steady, records⟩
  | readEvents capacity =>
    rw [step, List.append_nil]
    exact ⟨tidy.same (readEvents_same k.capture false capacity), records⟩

theorem Sound.released {log : List Entry} {k : Keyboard} (sound : Sound log k) : Released k log := by
  intro waiting up key down
  refine up key ?_
  rw [sound.records, waiting, List.append_nil]
  exact sound.tidy.held key down

/-- In every run whose steps find the keys as the filter assumes them, no key is left down for the
class service and every Alt is kept back whole. -/
theorem run_keys_released (actions : List Action) (steady : Runs.Along step Steady [] .new actions) :
    Released (Runs.run step .new actions).1 (Runs.run step .new actions).2 ∧
      AltWhole (Runs.run step .new actions).2 := by
  have sound := Runs.run_invariant step Steady Sound step_sound [] .new actions new_sound steady
  rw [List.nil_append] at sound
  refine ⟨sound.released, ?_⟩
  intro before after alt split isAlt down
  exact (sound.tidy.kept before after alt split isAlt down).altWhole

-- A captured Alt+Tab: the class service receives nothing of it.
def altTab : List Action :=
  [.arm ⟨1, 500, 7⟩ 0, .press ⟨0x38, 0, 0⟩, .press ⟨0x0F, 0, 0⟩, .press ⟨0x0F, 1, 0⟩,
    .press ⟨0x38, 1, 0⟩, .iterate 1 true true, .iterate 2 true true, .iterate 3 true true,
    .iterate 4 true true]

theorem run_keys_released_altTab :
    Released (Runs.run step .new altTab).1 (Runs.run step .new altTab).2 ∧
      AltWhole (Runs.run step .new altTab).2 :=
  run_keys_released altTab (by decide +kernel)

-- A Win that is down when the filter is armed, and an Alt whose capture a DISARM breaks off.
theorem keys_left_down :
    (¬∀ actions, Released (Runs.run step .new actions).1 (Runs.run step .new actions).2) ∧
      ¬∀ actions, AltWhole (Runs.run step .new actions).2 := by
  constructor
  · intro all
    have released := all [.press ⟨0x5B, 2, 0⟩, .iterate 1 true true, .arm ⟨1, 500, 7⟩ 2,
      .press ⟨0x5B, 3, 0⟩, .iterate 3 true true] rfl
    refine released ?_ ⟨0x5B, true⟩ (by decide +kernel)
    intro key
    change lastEdge key ([⟨0x5B, 2, 0⟩] ++ [⟨0x5B, 3, 0⟩]) ≠ some true
    have same : keyOf ⟨0x5B, 2, 0⟩ = keyOf ⟨0x5B, 3, 0⟩ := by decide
    rw [lastEdge_append]
    split_ifs with win
    · decide
    · change (if keyOf ⟨0x5B, 2, 0⟩ = key then some true else none) ≠ some true
      rw [same, if_neg win]
      decide
  · intro all
    have whole := all [.arm ⟨1, 500, 7⟩ 0, .press ⟨0x38, 0, 0⟩, .press ⟨0x0F, 0, 0⟩,
      .iterate 1 true true, .iterate 2 true true, .disarm, .press ⟨0x38, 1, 0⟩,
      .iterate 3 true true]
    have split : (Runs.run step .new [.arm ⟨1, 500, 7⟩ 0, .press ⟨0x38, 0, 0⟩,
        .press ⟨0x0F, 0, 0⟩, .iterate 1 true true, .iterate 2 true true, .disarm,
        .press ⟨0x38, 1, 0⟩, .iterate 3 true true]).2 =
        [Local.Entry.pressed ⟨0x38, 0, 0⟩, .pressed ⟨0x0F, 0, 0⟩] ++
          Local.Entry.withheld ⟨0x38, 0, 0⟩ ::
            [.withheld ⟨0x0F, 0, 0⟩, .pressed ⟨0x38, 1, 0⟩, .delivered ⟨0x38, 1, 0⟩] := by
      decide +kernel
    rcases whole _ _ _ split (by decide) (by decide) with first | hidden
    · exact absurd (first (.delivered ⟨0x38, 1, 0⟩) (by decide)) (by decide)
    · exact hidden ⟨0x38, 1, 0⟩ (by decide)

end Local

end KbdFilter

end BetterParsec
