import BetterParsec.Library.Runs

set_option autoImplicit false
set_option linter.all false

/-!
# The congestion controller

`CcController` of `streamer/src/cc.rs`.  Its floating-point numbers are a type
of their own with operations that may round as they like; what is proved holds
whatever they compute.
-/

namespace BetterParsec

namespace Congestion

-- The operations on `f64`, among them the casts from and to integers.
structure Floats (F : Type) where
  isFinite : F → Bool
  lt : F → F → Bool
  le : F → F → Bool
  min : F → F → F
  clamp : F → F → F → F
  mul : F → F → F
  div : F → F → F
  ofNat : Nat → F
  toU32 : F → Nat

structure CcConfig (F : Type) where
  minKbps : UInt32
  maxKbps : UInt32
  windowFrames : Nat
  emaAlphaInv : UInt32
  inflateRatio : F
  deflateRatio : F
  inflateFrames : UInt32
  deflateFrames : UInt32
  mdFactor : F
  probeAdditiveKbps : UInt32
  cooldownFrames : UInt32
  lossThreshold : F
  budgetFactor : F
  deriving DecidableEq

def clamp {α : Type} [LT α] [DecidableLT α] (low high n : α) : α :=
  if n < low then low else if high < n then high else n

def saturate (bits n : Nat) : Nat := min n (2 ^ bits - 1)

inductive CcVerdict where
  | skipped
  | warmingUp
  | hold
  | decrease
  | increase
  | cooldownHold
  deriving DecidableEq

structure CcController (F : Type) where
  config : CcConfig F
  ccTargetKbps : Nat
  window : List Nat
  baselineUs : Option Nat
  smoothedUs : Option Nat
  inflateCount : Nat
  deflateCount : Nat
  cooldownRemaining : Nat
  lastSendDoneUs : Option Nat
  deriving DecidableEq

inductive CcInput (F : Type) where
  | frame (sendStartUs sendDoneUs frameSizeBytes targetFrameIntervalUs : Nat)
  | lossReport (lossFraction : F)
  deriving DecidableEq

-- The answers of `on_frame` and `on_loss_report`; of a loss report also whether it
-- reached the threshold.
inductive CcOutput where
  | frame (targetKbps : Nat) (verdict : CcVerdict)
  | lossReport (atThreshold : Bool) (targetKbps : Nat)
  deriving DecidableEq

section Controller

variable {F : Type} (floats : Floats F)

namespace Floats

-- A decimal literal.
def ratio (numerator denominator : Nat) : F :=
  floats.div (floats.ofNat numerator) (floats.ofNat denominator)

def positive (x : F) : Bool := floats.isFinite x && floats.lt (floats.ofNat 0) x

end Floats

namespace CcConfig

def sanitised (config : CcConfig F) : CcConfig F :=
  let maxKbps := max config.maxKbps 1
  { minKbps := clamp 1 maxKbps config.minKbps
    maxKbps := maxKbps
    windowFrames := clamp 1 10000 config.windowFrames
    emaAlphaInv := max config.emaAlphaInv 1
    inflateRatio :=
      if floats.isFinite config.inflateRatio && floats.lt (floats.ofNat 1) config.inflateRatio then
        config.inflateRatio
      else floats.ratio 125 100
    deflateRatio :=
      if floats.positive config.deflateRatio && floats.lt config.deflateRatio (floats.ofNat 1) then
        config.deflateRatio
      else floats.ratio 90 100
    inflateFrames := max config.inflateFrames 1
    deflateFrames := max config.deflateFrames 1
    mdFactor :=
      if floats.positive config.mdFactor then floats.min config.mdFactor (floats.ofNat 1)
      else floats.ratio 85 100
    probeAdditiveKbps := max config.probeAdditiveKbps 1
    cooldownFrames := clamp 1 10000 config.cooldownFrames
    lossThreshold :=
      if floats.positive config.lossThreshold &&
          floats.le config.lossThreshold (floats.ofNat 1) then
        config.lossThreshold
      else floats.ratio 10 100
    budgetFactor :=
      if floats.positive config.budgetFactor then
        floats.min config.budgetFactor (floats.ofNat 1000000)
      else floats.ofNat 1 }

end CcConfig

namespace CcController

def new (config : CcConfig F) : CcController F :=
  let config := config.sanitised floats
  { config := config
    ccTargetKbps := config.maxKbps.toNat
    window := []
    baselineUs := none
    smoothedUs := none
    inflateCount := 0
    deflateCount := 0
    cooldownRemaining := 0
    lastSendDoneUs := none }

-- The smoothed service time, and the least one of a full window.
def observe (c : CcController F) (sendDoneUs serviceUs : Nat) : CcController F :=
  let n := c.config.emaAlphaInv.toNat
  let smoothedUs := match c.smoothedUs with
    | none => serviceUs
    | some s => saturate 64 (saturate 64 (s * (n - 1)) + serviceUs) / n
  let window := c.window ++ [serviceUs]
  let window := if window.length > c.config.windowFrames then window.tail else window
  { c with
    lastSendDoneUs := some sendDoneUs
    smoothedUs := some smoothedUs
    window := window
    baselineUs :=
      if window.length = c.config.windowFrames then some (window.min?.getD 1) else c.baselineUs }

def count (c : CcController F) (baseline smoothed targetFrameIntervalUs : Nat) :
    CcController F :=
  let score := floats.div (floats.ofNat smoothed) (floats.ofNat baseline)
  let absoluteInflate := 0 < targetFrameIntervalUs &&
    floats.lt (floats.mul c.config.budgetFactor (floats.ofNat targetFrameIntervalUs))
      (floats.ofNat smoothed)
  let relativeInflate := floats.lt c.config.inflateRatio score
  if relativeInflate || absoluteInflate then
    { c with inflateCount := saturate 32 (c.inflateCount + 1), deflateCount := 0 }
  else if floats.lt score c.config.deflateRatio then
    { c with deflateCount := saturate 32 (c.deflateCount + 1), inflateCount := 0 }
  else { c with inflateCount := 0, deflateCount := 0 }

-- The target times `md_factor`, within its bounds.
def decreased (c : CcController F) : Nat :=
  clamp c.config.minKbps.toNat c.config.maxKbps.toNat
    (floats.toU32 (floats.mul (floats.ofNat c.ccTargetKbps) c.config.mdFactor))

def control (c : CcController F) : CcController F × CcVerdict :=
  if c.config.inflateFrames.toNat ≤ c.inflateCount then
    if 0 < c.cooldownRemaining then (c, .cooldownHold)
    else
      -- One more, since the frame itself is taken off in `cool`.
      ({ c with
          ccTargetKbps := c.decreased floats
          cooldownRemaining := saturate 32 (c.config.cooldownFrames.toNat + 1)
          inflateCount := 0 }, .decrease)
  else if c.config.deflateFrames.toNat ≤ c.deflateCount then
    ({ c with
        ccTargetKbps :=
          min (saturate 32 (c.ccTargetKbps + c.config.probeAdditiveKbps.toNat)) c.config.maxKbps.toNat
        deflateCount := 0 }, .increase)
  else (c, .hold)

-- The cooldown that ends forgets the frames that inflated during it.
def cool (c : CcController F) : CcController F :=
  let cooldownRemaining := c.cooldownRemaining - 1
  { c with
    cooldownRemaining := cooldownRemaining
    inflateCount :=
      if 0 < c.cooldownRemaining ∧ cooldownRemaining = 0 then 0 else c.inflateCount }

def onFrame (c : CcController F) (sendStartUs sendDoneUs targetFrameIntervalUs : Nat) :
    CcController F × CcVerdict :=
  let serviceUs := sendDoneUs - sendStartUs
  if c.lastSendDoneUs.any (sendDoneUs ≤ ·) then (c, .skipped)
  else
    let c := c.observe sendDoneUs serviceUs
    match c.baselineUs with
    | none => ({ c with cooldownRemaining := c.cooldownRemaining - 1 }, .warmingUp)
    | some baseline =>
      let counted := c.count floats (max baseline 1) (c.smoothedUs.getD serviceUs)
        targetFrameIntervalUs
      let (controlled, verdict) := counted.control floats
      (controlled.cool, verdict)

def atThreshold (c : CcController F) (lossFraction : F) : Bool :=
  let loss :=
    if floats.isFinite lossFraction then
      floats.clamp lossFraction (floats.ofNat 0) (floats.ofNat 1)
    else floats.ofNat 0
  floats.le c.config.lossThreshold loss

def onLossReport (c : CcController F) (lossFraction : F) : CcController F :=
  if c.atThreshold floats lossFraction then
    { c with
      ccTargetKbps := c.decreased floats
      cooldownRemaining := c.config.cooldownFrames.toNat
      inflateCount := 0
      deflateCount := 0 }
  else c

def step (c : CcController F) : CcInput F → CcController F × List CcOutput
  | .frame sendStartUs sendDoneUs _ targetFrameIntervalUs =>
    let (next, verdict) := c.onFrame floats sendStartUs sendDoneUs targetFrameIntervalUs
    (next, [.frame next.ccTargetKbps verdict])
  | .lossReport lossFraction =>
    let next := c.onLossReport floats lossFraction
    (next, [.lossReport (c.atThreshold floats lossFraction) next.ccTargetKbps])

end CcController

end Controller

namespace CcOutput

def targetKbps : CcOutput → Nat
  | .frame target _ | .lossReport _ target => target

-- A multiplicative decrease.
def decreases : CcOutput → Bool
  | .frame _ verdict => verdict = .decrease
  | .lossReport atThreshold _ => atThreshold

-- A frame that was not skipped.
def counts : CcOutput → Bool
  | .frame _ verdict => verdict ≠ .skipped
  | .lossReport _ _ => false

def isDecrease : CcOutput → Bool
  | .frame _ verdict => verdict = .decrease
  | .lossReport _ _ => false

end CcOutput

section Spacing

-- The frames since the last multiplicative decrease, if there was one.
def sinceNext (frames : Option Nat) (output : CcOutput) : Option Nat :=
  if output.decreases then some 0
  else if output.counts then frames.map (· + 1)
  else frames

def sinceDecrease (outputs : List CcOutput) : Option Nat := outputs.foldl sinceNext none

theorem sinceDecrease_concat (outputs : List CcOutput) (output : CcOutput) :
    sinceDecrease (outputs ++ [output]) = sinceNext (sinceDecrease outputs) output := by
  rw [sinceDecrease, List.foldl_append]
  rfl

-- Whatever came before, the frames since the last decrease are at most those since this one.
theorem sinceDecrease_le (before between : List CcOutput) (first : CcOutput)
    (decreases : first.decreases = true) :
    ∃ frames, sinceDecrease (before ++ first :: between) = some frames ∧
      frames ≤ (between.filter CcOutput.counts).length := by
  induction between using List.reverseRecOn with
  | nil =>
    refine ⟨0, ?_, Nat.le_refl 0⟩
    rw [sinceDecrease_concat, sinceNext, if_pos decreases]
  | append_singleton between last ih =>
    obtain ⟨frames, since, most⟩ := ih
    have split : before ++ first :: (between ++ [last]) = before ++ first :: between ++ [last] := by
      simp
    rw [split, sinceDecrease_concat, since, sinceNext, List.filter_append, List.length_append]
    by_cases again : last.decreases = true
    · exact ⟨0, if_pos again, Nat.zero_le _⟩
    · rw [if_neg again]
      by_cases counts : last.counts = true
      · exact ⟨frames + 1, if_pos counts, by simp [counts, most]⟩
      · exact ⟨frames, if_neg counts, Nat.le_add_right_of_le most⟩

end Spacing

section Pace

variable {F : Type} {floats : Floats F} {config : CcConfig F}

-- What `sanitised` sees to.
structure Sane (config : CcConfig F) : Prop where
  ordered : config.minKbps.toNat ≤ config.maxKbps.toNat
  cooldown : 1 ≤ config.cooldownFrames.toNat
  short : config.cooldownFrames.toNat ≤ 10000

theorem clamp_nat {low high : Nat} (ordered : low ≤ high) (n : Nat) :
    low ≤ clamp low high n ∧ clamp low high n ≤ high := by
  simp only [clamp]
  split_ifs <;> omega

theorem clamp_u32 (low high n : UInt32) (ordered : low ≤ high) :
    low.toNat ≤ (clamp low high n).toNat ∧ (clamp low high n).toNat ≤ high.toNat := by
  rw [UInt32.le_iff_toNat_le] at ordered
  simp only [clamp, UInt32.lt_iff_toNat_lt]
  split_ifs <;> omega

theorem le_max_u32 (a b : UInt32) : b ≤ max a b := by
  change b ≤ if a ≤ b then b else a
  simp only [UInt32.le_iff_toNat_le]
  split_ifs <;> omega

theorem sane_sanitised (config : CcConfig F) : Sane (config.sanitised floats) where
  ordered := (clamp_u32 1 _ config.minKbps (le_max_u32 _ _)).2
  cooldown := (clamp_u32 1 10000 config.cooldownFrames (by decide)).1
  short := (clamp_u32 1 10000 config.cooldownFrames (by decide)).2

def Within (config : CcConfig F) (target : Nat) : Prop :=
  config.minKbps.toNat ≤ target ∧ target ≤ config.maxKbps.toNat

-- The cooldown counts the frames since the last decrease down, and inflating frames count
-- towards the next one only behind it.
structure Paced (config : CcConfig F) (seen : List CcOutput) (c : CcController F) : Prop where
  same : c.config = config
  target : Within config c.ccTargetKbps
  warmUp : c.baselineUs = none → c.inflateCount = 0
  pace : ∀ frames, sinceDecrease seen = some frames →
    c.cooldownRemaining = config.cooldownFrames.toNat - frames ∧
      (config.cooldownFrames.toNat ≤ frames →
        config.cooldownFrames.toNat + c.inflateCount ≤ frames)

-- What an output has to be after the outputs before it.
structure Sound (config : CcConfig F) (before : List CcOutput) (output : CcOutput) : Prop where
  target : Within config output.targetKbps
  spaced : output.isDecrease = true → ∀ frames, sinceDecrease before = some frames →
    config.cooldownFrames.toNat + config.inflateFrames.toNat ≤ frames + 1

namespace CcController

variable (c : CcController F)

theorem within_decreased (sane : Sane config) (same : c.config = config) :
    Within config (c.decreased floats) := by
  rw [decreased, same]
  exact clamp_nat sane.ordered _

theorem observe_keeps (sendDoneUs serviceUs : Nat) :
    let observed := c.observe sendDoneUs serviceUs
    observed.config = c.config ∧ observed.ccTargetKbps = c.ccTargetKbps ∧
      observed.cooldownRemaining = c.cooldownRemaining ∧
      observed.inflateCount = c.inflateCount ∧ (observed.baselineUs = none → c.baselineUs = none) := by
  refine ⟨rfl, rfl, rfl, rfl, fun none => ?_⟩
  simp only [observe] at none
  split_ifs at none
  all_goals exact none

-- The score tests only count: nothing else changes, and one frame counts once.
theorem count_keeps (baseline smoothed interval : Nat) :
    let counted := c.count floats baseline smoothed interval
    counted.config = c.config ∧ counted.ccTargetKbps = c.ccTargetKbps ∧
      counted.cooldownRemaining = c.cooldownRemaining ∧
      counted.baselineUs = c.baselineUs ∧ counted.inflateCount ≤ c.inflateCount + 1 := by
  simp only [count]
  split_ifs
  · exact ⟨rfl, rfl, rfl, rfl, Nat.min_le_left _ _⟩
  · exact ⟨rfl, rfl, rfl, rfl, Nat.zero_le _⟩
  · exact ⟨rfl, rfl, rfl, rfl, Nat.zero_le _⟩

-- A decrease needs enough inflating frames and no cooldown, and starts a cooldown.
theorem control_cases (sane : Sane config) (same : c.config = config)
    (target : Within config c.ccTargetKbps) :
    let controlled := c.control floats
    controlled.1.config = config ∧ Within config controlled.1.ccTargetKbps ∧
      controlled.1.baselineUs = c.baselineUs ∧ controlled.2 ≠ .skipped ∧
      ((controlled.2 = .decrease ∧ c.cooldownRemaining = 0 ∧
          config.inflateFrames.toNat ≤ c.inflateCount ∧
          controlled.1.cooldownRemaining = config.cooldownFrames.toNat + 1 ∧
          controlled.1.inflateCount = 0) ∨
        (controlled.2 ≠ .decrease ∧ controlled.1.cooldownRemaining = c.cooldownRemaining ∧
          controlled.1.inflateCount = c.inflateCount)) := by
  have decreased : Within config (c.decreased floats) := c.within_decreased sane same
  subst same
  rw [control]
  split_ifs with inflated cooling deflated
  · exact ⟨rfl, target, rfl, by simp, .inr ⟨by simp, rfl, rfl⟩⟩
  · have short := sane.short
    refine ⟨rfl, decreased, rfl, by simp, .inl ⟨rfl, by omega, inflated, ?_, rfl⟩⟩
    exact Nat.min_eq_left (by omega)
  · have ordered := sane.ordered
    have small := c.config.maxKbps.toNat_lt
    obtain ⟨low, high⟩ := target
    refine ⟨rfl, ⟨?_, Nat.min_le_right _ _⟩, rfl, by simp, .inr ⟨by simp, rfl, rfl⟩⟩
    simp only [saturate]
    omega
  · exact ⟨rfl, target, rfl, by simp, .inr ⟨by simp, rfl, rfl⟩⟩

end CcController

section Steps

variable {seen : List CcOutput} {c : CcController F}

-- A frame without a decrease is one more frame since the last decrease.
theorem sinceNext_plain {target : Nat} {verdict : CcVerdict} (counts : verdict ≠ .skipped)
    (plain : verdict ≠ .decrease) (frames : Option Nat) :
    sinceNext frames (.frame target verdict) = frames.map (· + 1) := by
  simp [sinceNext, CcOutput.decreases, CcOutput.counts, counts, plain]

-- One frame off the cooldown keeps the pace.
theorem Paced.cool (paced : Paced config seen c) {inflateCount frames : Nat}
    (counted : inflateCount ≤ c.inflateCount + 1)
    (since : (sinceDecrease seen).map (· + 1) = some frames) :
    c.cooldownRemaining - 1 = config.cooldownFrames.toNat - frames ∧
      (config.cooldownFrames.toNat ≤ frames → config.cooldownFrames.toNat +
        (if 0 < c.cooldownRemaining ∧ c.cooldownRemaining - 1 = 0 then 0 else inflateCount) ≤
          frames) := by
  obtain ⟨before, found, rfl⟩ := Option.map_eq_some_iff.mp since
  obtain ⟨cooldown, behind⟩ := paced.pace before found
  refine ⟨by omega, fun late => ?_⟩
  split_ifs with ended
  · omega
  · have earlier := behind (by omega)
    omega

-- What the control action makes of the counters of a frame.
theorem Paced.control (paced : Paced config seen c) (sane : Sane config) {counted : CcController F}
    (same : counted.config = config) (within : Within config counted.ccTargetKbps)
    (cooldown : counted.cooldownRemaining = c.cooldownRemaining)
    (once : counted.inflateCount ≤ c.inflateCount + 1) (full : counted.baselineUs ≠ none) :
    let controlled := counted.control floats
    Paced config (seen ++ [CcOutput.frame controlled.1.cool.ccTargetKbps controlled.2])
        controlled.1.cool ∧
      Sound config seen (.frame controlled.1.cool.ccTargetKbps controlled.2) := by
  obtain ⟨kept, target, baseline, counts, action⟩ :=
    @CcController.control_cases F floats config counted sane same within
  generalize counted.control floats = controlled at *
  obtain ⟨next, verdict⟩ := controlled
  have warm : next.cool.baselineUs = none → next.cool.inflateCount = 0 :=
    fun none => absurd (baseline.symm.trans none) full
  rcases action with ⟨rfl, idle, enough, locked, cleared⟩ | ⟨plain, cooling, inflate⟩
  · -- After a decrease the cooldown is whole again.
    simp only at locked cleared
    refine ⟨⟨kept, target, warm, ?_⟩, ⟨target, fun _ frames since => ?_⟩⟩
    · intro frames since
      obtain rfl : 0 = frames := by
        simpa [sinceDecrease_concat, sinceNext, CcOutput.decreases] using since
      have positive := sane.cooldown
      refine ⟨?_, by omega⟩
      change next.cooldownRemaining - 1 = _
      omega
    · obtain ⟨left, behind⟩ := paced.pace frames since
      have counted := behind (by omega)
      omega
  · refine ⟨⟨kept, target, warm, ?_⟩, ⟨target, fun decrease => ?_⟩⟩
    · intro frames since
      rw [sinceDecrease_concat, sinceNext_plain counts plain] at since
      simp only at cooling inflate
      have pace := paced.cool (inflate ▸ once) since
      rw [← cooldown, ← cooling] at pace
      exact pace
    · exact absurd (by simpa [CcOutput.isDecrease] using decrease) plain

theorem Paced.onFrame (paced : Paced config seen c) (sane : Sane config)
    (sendStartUs sendDoneUs interval : Nat) :
    let next := c.onFrame floats sendStartUs sendDoneUs interval
    Paced config (seen ++ [CcOutput.frame next.1.ccTargetKbps next.2]) next.1 ∧
      Sound config seen (.frame next.1.ccTargetKbps next.2) := by
  simp only [CcController.onFrame]
  split
  next =>
    refine ⟨⟨paced.same, paced.target, paced.warmUp, ?_⟩,
      ⟨paced.target, by simp [CcOutput.isDecrease]⟩⟩
    intro frames since
    rw [sinceDecrease_concat] at since
    exact paced.pace frames since
  next =>
    obtain ⟨same, target, cooldown, inflate, warm⟩ :=
      c.observe_keeps sendDoneUs (sendDoneUs - sendStartUs)
    generalize c.observe sendDoneUs (sendDoneUs - sendStartUs) = observed at *
    have within : Within config observed.ccTargetKbps := target ▸ paced.target
    split
    next none =>
      refine ⟨⟨same.trans paced.same, within, fun _ => inflate.trans (paced.warmUp (warm none)), ?_⟩,
        ⟨within, by simp [CcOutput.isDecrease]⟩⟩
      intro frames since
      rw [sinceDecrease_concat, sinceNext_plain (by simp) (by simp)] at since
      have empty := paced.warmUp (warm none)
      obtain ⟨left, behind⟩ := paced.cool (Nat.zero_le _) since
      refine ⟨(congrArg (· - 1) cooldown).trans left, fun late => ?_⟩
      have bound := behind late
      change config.cooldownFrames.toNat + observed.inflateCount ≤ frames
      rw [inflate, empty]
      split_ifs at bound <;> exact bound
    next baseline found =>
      obtain ⟨countedSame, countedTarget, countedCooldown, countedBaseline, once⟩ :=
        @CcController.count_keeps F floats observed (max baseline 1)
          (observed.smoothedUs.getD (sendDoneUs - sendStartUs)) interval
      apply paced.control sane
      · exact (countedSame.trans same).trans paced.same
      · exact countedTarget ▸ within
      · exact countedCooldown.trans cooldown
      · exact inflate ▸ once
      · rw [countedBaseline, found]
        exact Option.some_ne_none _

theorem Paced.onLossReport (paced : Paced config seen c) (sane : Sane config) (lossFraction : F) :
    let next := c.onLossReport floats lossFraction
    let output := CcOutput.lossReport (c.atThreshold floats lossFraction) next.ccTargetKbps
    Paced config (seen ++ [output]) next ∧ Sound config seen output := by
  simp only [CcController.onLossReport]
  split
  next high =>
    have target : Within config (c.decreased floats) := c.within_decreased sane paced.same
    refine ⟨⟨paced.same, target, fun _ => rfl, ?_⟩, ⟨target, fun decrease => ?_⟩⟩
    · intro frames since
      obtain rfl : 0 = frames := by
        simpa [sinceDecrease_concat, sinceNext, CcOutput.decreases, high] using since
      have positive := sane.cooldown
      exact ⟨congrArg (fun config => config.cooldownFrames.toNat) paced.same, by omega⟩
    · contradiction
  next low =>
    refine ⟨⟨paced.same, paced.target, paced.warmUp, ?_⟩, ⟨paced.target, fun decrease => ?_⟩⟩
    · intro frames since
      apply paced.pace
      simpa [sinceDecrease_concat, sinceNext, CcOutput.decreases, CcOutput.counts, low] using since
    · contradiction

theorem Paced.step (paced : Paced config seen c) (sane : Sane config) (input : CcInput F) :
    Paced config (seen ++ (c.step floats input).2) (c.step floats input).1 ∧
      ∃ output, (c.step floats input).2 = [output] ∧ Sound config seen output := by
  cases input with
  | frame sendStartUs sendDoneUs size interval =>
    obtain ⟨kept, sound⟩ :=
      @Paced.onFrame F floats config seen c paced sane sendStartUs sendDoneUs interval
    exact ⟨kept, _, rfl, sound⟩
  | lossReport lossFraction =>
    obtain ⟨kept, sound⟩ := @Paced.onLossReport F floats config seen c paced sane lossFraction
    exact ⟨kept, _, rfl, sound⟩

end Steps

variable (floats) (config)

theorem paced_new : Paced (config.sanitised floats) [] (CcController.new floats config) where
  same := rfl
  target := ⟨(sane_sanitised config).ordered, Nat.le_refl _⟩
  warmUp := fun _ => rfl
  pace := fun _ none => by contradiction

theorem run_paced (inputs : List (CcInput F)) :
    let run := Runs.run (CcController.step floats) (CcController.new floats config) inputs
    Paced (config.sanitised floats) run.2 run.1 ∧
      Runs.Emissions (Sound (config.sanitised floats)) run.2 := by
  have held := Runs.run_invariant_of_forall (CcController.step floats)
    (fun seen c => Paced (config.sanitised floats) seen c ∧
      Runs.Emissions (Sound (config.sanitised floats)) seen)
    (by
      rintro seen c input ⟨paced, sound⟩
      obtain ⟨kept, output, only, next⟩ :=
        @Paced.step F floats _ seen c paced (sane_sanitised config) input
      refine ⟨kept, ?_⟩
      rw [only]
      exact sound.concat next)
    [] (CcController.new floats config) inputs ⟨paced_new floats config, Runs.emissions_nil _⟩
  simpa using held

/-- The target stays within its bounds, and behind a multiplicative decrease of either kind a
Decrease verdict comes no sooner than the cooldown and the inflating frames take. -/
theorem run_decreases_spaced (inputs : List (CcInput F)) :
    let run := Runs.run (CcController.step floats) (CcController.new floats config) inputs
    Within (config.sanitised floats) run.1.ccTargetKbps ∧
      (∀ output ∈ run.2, Within (config.sanitised floats) output.targetKbps) ∧
      ∀ before first between last after, run.2 = before ++ first :: (between ++ last :: after) →
        first.decreases = true → last.isDecrease = true →
          (config.sanitised floats).cooldownFrames.toNat +
              (config.sanitised floats).inflateFrames.toNat ≤
            ((between ++ [last]).filter CcOutput.counts).length := by
  obtain ⟨paced, sound⟩ := run_paced floats config inputs
  refine ⟨paced.target, fun output member => ?_, ?_⟩
  · obtain ⟨before, after, split⟩ := List.append_of_mem member
    exact (sound before output after split).target
  · intro before first between last after split decreases decrease
    obtain ⟨frames, since, most⟩ := sinceDecrease_le before between first decreases
    have spaced := (sound (before ++ first :: between) last after (by simpa using split)).spaced
      decrease frames since
    have counts : last.counts = true := by
      cases last with
      | lossReport atThreshold target => contradiction
      | frame target verdict =>
        obtain rfl : verdict = .decrease := by simpa [CcOutput.isDecrease] using decrease
        rfl
    rw [List.filter_append, List.length_append, List.filter_singleton, counts]
    exact Nat.le_trans spaced (Nat.add_le_add_right most 1)

end Pace

end Congestion

end BetterParsec
