import Mathlib

set_option autoImplicit false
set_option linter.all false

/-!
# The resolution ladder

`resolution.rs`: a configuration, the ladder it is sanitised to, and the
controller that goes down a rung at once and up a rung after a streak.
-/

namespace BetterParsec

structure ResolutionLadderConfig where
  rungs : List (UInt16 × UInt16)
  minKbps : List UInt32
  initialRung : Nat
  lowerHeadroomPct : UInt8
  raiseStreak : UInt16
  deriving DecidableEq

namespace ResolutionLadderConfig

def default : ResolutionLadderConfig :=
  { rungs := [(3840, 2160), (2560, 1440), (1920, 1080), (1600, 900), (1280, 720), (960, 540),
      (854, 480)]
    minKbps := [35000, 20000, 10000, 7000, 5000, 3000, 2000]
    initialRung := 2
    lowerHeadroomPct := 10
    raiseStreak := 8 }

-- Both lists cut to one length, or those of the default.
def cut (config : ResolutionLadderConfig) : ResolutionLadderConfig :=
  let len := min config.rungs.length config.minKbps.length
  if len = 0 then { config with rungs := default.rungs, minKbps := default.minKbps }
  else { config with rungs := config.rungs.take len, minKbps := config.minKbps.take len }

theorem cut_length (config : ResolutionLadderConfig) :
    config.cut.minKbps.length = config.cut.rungs.length ∧ 0 < config.cut.rungs.length := by
  unfold cut
  dsimp only
  split_ifs with none
  · exact ⟨rfl, Nat.zero_lt_succ 6⟩
  · simp only [List.length_take]
    omega

end ResolutionLadderConfig

structure ResolutionLadder extends ResolutionLadderConfig where
  sameLength : minKbps.length = rungs.length
  initialInRange : initialRung < rungs.length
  headroom : lowerHeadroomPct ≤ 100

def ResolutionLadderConfig.sanitised (config : ResolutionLadderConfig) : ResolutionLadder :=
  { config.cut with
    initialRung := min config.initialRung (config.cut.rungs.length - 1)
    lowerHeadroomPct := min config.lowerHeadroomPct 100
    raiseStreak := config.raiseStreak
    sameLength := config.cut_length.1
    initialInRange :=
      lt_of_le_of_lt (Nat.min_le_right _ _) (Nat.sub_lt config.cut_length.2 Nat.one_pos)
    headroom := by
      unfold min instMinUInt8 minOfLe
      dsimp only
      split_ifs with small
      · exact small
      · exact UInt8.le_refl 100 }

structure DynResolutionController where
  config : ResolutionLadder
  currentRung : Fin config.rungs.length
  goodStreak : UInt16

def saturatingSucc (streak : UInt16) : UInt16 := if streak = 65535 then streak else streak + 1

namespace DynResolutionController

def new (config : ResolutionLadderConfig) : DynResolutionController :=
  { config := config.sanitised
    currentRung := ⟨config.sanitised.initialRung, config.sanitised.initialInRange⟩
    goodStreak := 0 }

variable (controller : DynResolutionController)

def current : UInt16 × UInt16 := controller.config.rungs.get controller.currentRung

end DynResolutionController

namespace ResolutionLadder

variable (ladder : ResolutionLadder)

def minKbpsAt (rung : Fin ladder.rungs.length) : UInt32 :=
  ladder.minKbps.get (rung.cast ladder.sameLength.symm)

def lowerBound (rung : Fin ladder.rungs.length) : UInt32 :=
  ladder.minKbpsAt rung -
    ((ladder.minKbpsAt rung).toUInt64 * ladder.lowerHeadroomPct.toUInt64 / 100).toUInt32

def down (rung : Fin ladder.rungs.length) : Fin ladder.rungs.length :=
  ⟨min (rung + 1) (ladder.rungs.length - 1), by omega⟩

def up (rung : Fin ladder.rungs.length) : Fin ladder.rungs.length := ⟨rung - 1, by omega⟩

end ResolutionLadder

namespace DynResolutionController

-- The controller behind an observation; `observe` also returns its `current`.
def observe (controller : DynResolutionController) (availableKbps : UInt32) :
    DynResolutionController :=
  let ladder := controller.config
  let rung := controller.currentRung
  if availableKbps < ladder.lowerBound rung then
    { controller with currentRung := ladder.down rung, goodStreak := 0 }
  else if 0 < rung.val ∧ ladder.minKbpsAt (ladder.up rung) ≤ availableKbps then
    let goodStreak := saturatingSucc controller.goodStreak
    if ladder.raiseStreak ≤ goodStreak then
      { controller with currentRung := ladder.up rung, goodStreak := 0 }
    else { controller with goodStreak := goodStreak }
  else { controller with goodStreak := 0 }

def observeAll (config : ResolutionLadderConfig) (observations : List UInt32) :
    DynResolutionController :=
  observations.foldl observe (new config)

end DynResolutionController

namespace ResolutionLadder

variable (ladder : ResolutionLadder)

theorem lowerBound_le (rung : Fin ladder.rungs.length) :
    (ladder.lowerBound rung).toNat ≤ (ladder.minKbpsAt rung).toNat := by
  have percent : ladder.lowerHeadroomPct.toNat ≤ 100 := UInt8.le_iff_toNat_le.mp ladder.headroom
  have small : (ladder.minKbpsAt rung).toNat < 2 ^ 32 := (ladder.minKbpsAt rung).toNat_lt
  have product : (ladder.minKbpsAt rung).toNat * ladder.lowerHeadroomPct.toNat ≤
      (ladder.minKbpsAt rung).toNat * 100 := Nat.mul_le_mul_left _ percent
  have part : ((ladder.minKbpsAt rung).toUInt64 * ladder.lowerHeadroomPct.toUInt64 / 100
      ).toUInt32.toNat ≤ (ladder.minKbpsAt rung).toNat := by
    have fits : (ladder.minKbpsAt rung).toNat * ladder.lowerHeadroomPct.toNat % 2 ^ 64 =
        (ladder.minKbpsAt rung).toNat * ladder.lowerHeadroomPct.toNat :=
      Nat.mod_eq_of_lt (by omega)
    rw [UInt64.toNat_toUInt32, UInt64.toNat_div, UInt64.toNat_mul, UInt32.toNat_toUInt64,
      UInt8.toNat_toUInt64, fits]
    exact (Nat.mod_le _ _).trans (Nat.div_le_of_le_mul (product.trans_eq (Nat.mul_comm _ _)))
  unfold lowerBound
  rw [UInt32.toNat_sub_of_le _ _ (UInt32.le_iff_toNat_le.mpr part)]
  omega

end ResolutionLadder

theorem saturatingSucc_mono {fewer more : UInt16} (le : fewer.toNat ≤ more.toNat) :
    (saturatingSucc fewer).toNat ≤ (saturatingSucc more).toNat := by
  have toNat (streak : UInt16) : (saturatingSucc streak).toNat = min (streak.toNat + 1) 65535 := by
    have small := streak.toNat_lt
    unfold saturatingSucc
    split_ifs with full
    · rw [full]
      rfl
    · have other : streak.toNat ≠ 65535 := fun same => full (UInt16.toNat.inj same)
      rw [UInt16.toNat_add, UInt16.toNat_one, Nat.mod_eq_of_lt (by omega)]
      omega
  rw [toNat, toNat]
  omega

namespace DynResolutionController

-- What an observation comes to.
inductive Observed (controller : DynResolutionController) (kbps : UInt32) :
    DynResolutionController → Prop
  | drop (short : kbps < controller.config.lowerBound controller.currentRung) :
      Observed controller kbps
        { controller with
          currentRung := controller.config.down controller.currentRung, goodStreak := 0 }
  | raise (enough : ¬kbps < controller.config.lowerBound controller.currentRung)
      (below : 0 < controller.currentRung.val)
      (good : controller.config.minKbpsAt (controller.config.up controller.currentRung) ≤ kbps)
      (full : controller.config.raiseStreak ≤ saturatingSucc controller.goodStreak) :
      Observed controller kbps
        { controller with
          currentRung := controller.config.up controller.currentRung, goodStreak := 0 }
  | count (enough : ¬kbps < controller.config.lowerBound controller.currentRung)
      (below : 0 < controller.currentRung.val)
      (good : controller.config.minKbpsAt (controller.config.up controller.currentRung) ≤ kbps)
      (short : ¬controller.config.raiseStreak ≤ saturatingSucc controller.goodStreak) :
      Observed controller kbps
        { controller with goodStreak := saturatingSucc controller.goodStreak }
  | hold (enough : ¬kbps < controller.config.lowerBound controller.currentRung)
      (bad : ¬(0 < controller.currentRung.val ∧
        controller.config.minKbpsAt (controller.config.up controller.currentRung) ≤ kbps)) :
      Observed controller kbps { controller with goodStreak := 0 }

theorem observed (controller : DynResolutionController) (kbps : UInt32) :
    Observed controller kbps (controller.observe kbps) := by
  unfold observe
  dsimp only
  split_ifs with short good full
  · exact .drop short
  · exact .raise short good.1 good.2 full
  · exact .count short good.1 good.2 full
  · exact .hold short good

variable {controller next : DynResolutionController} {kbps : UInt32}

theorem Observed.within_one (observed : Observed controller kbps next) :
    controller.currentRung.val ≤ next.currentRung.val + 1 ∧
      next.currentRung.val ≤ controller.currentRung.val + 1 := by
  cases observed with
  | drop =>
    have inRange := controller.currentRung.isLt
    simp only [ResolutionLadder.down]
    omega
  | raise =>
    simp only [ResolutionLadder.up]
    omega
  | count => exact ⟨Nat.le_succ _, Nat.le_succ _⟩
  | hold => exact ⟨Nat.le_succ _, Nat.le_succ _⟩

theorem Observed.same_config (observed : Observed controller kbps next) :
    next.config = controller.config := by
  cases observed <;> rfl

theorem Observed.dropped (observed : Observed controller kbps next)
    (lower : controller.currentRung.val < next.currentRung.val) :
    kbps < controller.config.lowerBound controller.currentRung ∧ next.goodStreak = 0 := by
  cases observed with
  | drop short => exact ⟨short, rfl⟩
  | raise =>
    simp only [ResolutionLadder.up] at lower
    omega
  | count => exact absurd lower (Nat.lt_irrefl _)
  | hold => exact absurd lower (Nat.lt_irrefl _)

theorem Observed.raised (observed : Observed controller kbps next)
    (higher : next.currentRung.val < controller.currentRung.val) :
    controller.config.minKbpsAt (controller.config.up controller.currentRung) ≤ kbps ∧
      next.goodStreak = 0 := by
  cases observed with
  | drop =>
    have inRange := controller.currentRung.isLt
    simp only [ResolutionLadder.down] at higher
    omega
  | raise _ _ good => exact ⟨good, rfl⟩
  | count => exact absurd higher (Nat.lt_irrefl _)
  | hold => exact absurd higher (Nat.lt_irrefl _)

-- A streak is kept only while the rung above is covered.
theorem Observed.counted (observed : Observed controller kbps next)
    (streak : next.goodStreak ≠ 0) :
    controller.config.minKbpsAt (controller.config.up controller.currentRung) ≤ kbps := by
  cases observed with
  | drop => exact absurd rfl streak
  | raise => exact absurd rfl streak
  | count _ _ good => exact good
  | hold => exact absurd rfl streak

end DynResolutionController

section Monotone

open DynResolutionController

variable {a b : DynResolutionController}

-- The first controller is at least as far up, and at least as close to the next rung.
structure Ahead (a b : DynResolutionController) : Prop where
  config : a.config = b.config
  rung : a.currentRung.val ≤ b.currentRung.val
  streak : a.currentRung.val = b.currentRung.val → b.goodStreak.toNat ≤ a.goodStreak.toNat

-- The one further up has no rung to give way that the other one could take.
theorem Ahead.observe_apart {ladder : ResolutionLadder} {rungA rungB : Fin ladder.rungs.length}
    {streakA streakB : UInt16} (apart : rungA.val < rungB.val) {more less : UInt32}
    (le : less ≤ more) {nextA nextB : DynResolutionController}
    (first : Observed ⟨ladder, rungA, streakA⟩ more nextA)
    (second : Observed ⟨ladder, rungB, streakB⟩ less nextB) : Ahead nextA nextB := by
  have firstWithin : rungA.val ≤ nextA.currentRung.val + 1 ∧
      nextA.currentRung.val ≤ rungA.val + 1 := first.within_one
  have secondWithin : rungB.val ≤ nextB.currentRung.val + 1 ∧
      nextB.currentRung.val ≤ rungB.val + 1 := second.within_one
  -- Behind a drop to the rung right above the other one, that one cannot count towards it.
  have separate (dropped : rungA.val < nextA.currentRung.val) (near : rungB.val = rungA.val + 1) :
      ¬ladder.minKbpsAt (ladder.up rungB) ≤ less := by
    intro good
    have above : ladder.up rungB = rungA := Fin.ext (by simp only [ResolutionLadder.up]; omega)
    have short : more < ladder.lowerBound rungA := (first.dropped dropped).1
    have bound := ladder.lowerBound_le rungA
    rw [above, UInt32.le_iff_toNat_le] at good
    rw [UInt32.lt_iff_toNat_lt] at short
    rw [UInt32.le_iff_toNat_le] at le
    omega
  refine ⟨first.same_config.trans second.same_config.symm, ?_, ?_⟩
  · by_contra crossed
    exact separate (by omega) (by omega)
      (second.raised (show nextB.currentRung.val < rungB.val by omega)).1
  · intro same
    by_cases raised : nextB.currentRung.val < rungB.val
    · rw [(second.raised raised).2]
      exact Nat.zero_le _
    · have reset : nextB.goodStreak = 0 := by
        by_contra streak
        exact separate (by omega) (by omega) (second.counted streak)
      rw [reset]
      exact Nat.zero_le _

theorem Ahead.observe_together {ladder : ResolutionLadder} {rung : Fin ladder.rungs.length}
    {streakA streakB : UInt16} (streaks : streakB.toNat ≤ streakA.toNat) {more less : UInt32}
    (le : less ≤ more) {nextA nextB : DynResolutionController}
    (first : Observed ⟨ladder, rung, streakA⟩ more nextA)
    (second : Observed ⟨ladder, rung, streakB⟩ less nextB) : Ahead nextA nextB := by
  have config := first.same_config.trans second.same_config.symm
  have within : rung.val ≤ nextB.currentRung.val + 1 := second.within_one.1
  have inRange := rung.isLt
  cases first with
  | drop short =>
    cases second with
    | drop => exact ⟨rfl, le_rfl, fun _ => le_rfl⟩
    | raise enough => exact absurd (UInt32.lt_of_le_of_lt le short) enough
    | count enough => exact absurd (UInt32.lt_of_le_of_lt le short) enough
    | hold enough => exact absurd (UInt32.lt_of_le_of_lt le short) enough
  | raise _ below =>
    have higher : (ladder.up rung).val + 1 = rung.val := Nat.sub_add_cancel below
    refine ⟨config, Nat.le_of_add_le_add_right (higher.trans_le within), fun same => ?_⟩
    have raised : nextB.currentRung.val < rung.val := by
      rw [← same, ← higher]
      exact Nat.lt_succ_self _
    rw [(second.raised raised).2]
  | count enough below good short =>
    cases second with
    | drop =>
      refine ⟨rfl, ?_, fun _ => Nat.zero_le _⟩
      simp only [ResolutionLadder.down]
      omega
    | raise _ _ _ full =>
      have grown := saturatingSucc_mono streaks
      rw [UInt16.le_iff_toNat_le] at short full
      exact absurd (full.trans grown) short
    | count => exact ⟨rfl, le_rfl, fun _ => saturatingSucc_mono streaks⟩
    | hold => exact ⟨rfl, le_rfl, fun _ => Nat.zero_le _⟩
  | hold enough bad =>
    cases second with
    | drop =>
      refine ⟨rfl, ?_, fun _ => Nat.zero_le _⟩
      simp only [ResolutionLadder.down]
      omega
    | raise _ below good => exact absurd ⟨below, UInt32.le_trans good le⟩ bad
    | count _ below good => exact absurd ⟨below, UInt32.le_trans good le⟩ bad
    | hold => exact ⟨rfl, le_rfl, fun _ => le_rfl⟩

theorem Ahead.observe (ahead : Ahead a b) {more less : UInt32} (le : less ≤ more) :
    Ahead (a.observe more) (b.observe less) := by
  obtain ⟨ladder, rungA, streakA⟩ := a
  obtain ⟨ladder', rungB, streakB⟩ := b
  obtain rfl : ladder = ladder' := ahead.config
  rcases Nat.lt_or_ge rungA.val rungB.val with apart | together
  · exact observe_apart apart le (observed _ more) (observed _ less)
  · obtain rfl : rungA = rungB := Fin.ext (Nat.le_antisymm ahead.rung together)
    exact observe_together (ahead.streak rfl) le (observed _ more) (observed _ less)

theorem observeAll_config (config : ResolutionLadderConfig) (observations : List UInt32) :
    (observeAll config observations).config = config.sanitised := by
  induction observations using List.reverseRecOn with
  | nil => rfl
  | append_singleton earlier kbps ih =>
    rw [observeAll, List.foldl_append]
    exact (observed (observeAll config earlier) kbps).same_config.trans ih

/-- More bandwidth throughout never means a lower resolution, and no observation moves the rung out
of the ladder or by more than one. -/
theorem observations_monotone (config : ResolutionLadderConfig) (a b : List UInt32)
    (above : List.Forall₂ (fun more less => less ≤ more) a b) :
    (∀ n, (observeAll config (a.take n)).currentRung.val ≤
      (observeAll config (b.take n)).currentRung.val) ∧
    ∀ (observations : List UInt32) (kbps : UInt32),
      (observeAll config observations).currentRung.val < config.sanitised.rungs.length ∧
      (observeAll config observations).currentRung.val ≤
        (observeAll config (observations ++ [kbps])).currentRung.val + 1 ∧
      (observeAll config (observations ++ [kbps])).currentRung.val ≤
        (observeAll config observations).currentRung.val + 1 := by
  refine ⟨fun n => ?_, fun observations kbps => ⟨?_, ?_⟩⟩
  · have start : Ahead (new config) (new config) := ⟨rfl, le_rfl, fun _ => le_rfl⟩
    have ahead : Ahead (observeAll config (a.take n)) (observeAll config (b.take n)) :=
      List.rel_foldl (fun _ _ ahead _ _ le => ahead.observe le) start (List.forall₂_take n above)
    exact ahead.rung
  · exact (observeAll config observations).currentRung.isLt.trans_eq
      (congrArg (fun ladder => ladder.rungs.length) (observeAll_config config observations))
  · rw [observeAll, observeAll, List.foldl_append]
    exact (observed (observations.foldl observe (new config)) kbps).within_one

theorem observations_monotone_default :
    (∀ n, (observeAll .default ([9000, 25000].take n)).currentRung.val ≤
      (observeAll .default ([8999, 25000].take n)).currentRung.val) ∧
    ∀ (observations : List UInt32) (kbps : UInt32),
      (observeAll .default observations).currentRung.val <
        (ResolutionLadderConfig.sanitised .default).rungs.length ∧
      (observeAll .default observations).currentRung.val ≤
        (observeAll .default (observations ++ [kbps])).currentRung.val + 1 ∧
      (observeAll .default (observations ++ [kbps])).currentRung.val ≤
        (observeAll .default observations).currentRung.val + 1 :=
  observations_monotone .default [9000, 25000] [8999, 25000]
    (.cons (by decide) (.cons (by decide) .nil))

end Monotone

end BetterParsec
