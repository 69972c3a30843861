import Mathlib

set_option autoImplicit false
set_option linter.all false

/-!
# Conversion to the format of the audio device

`convert_into`, `map_channels` and `debug_delay_samples` of `app-native/src/audio.rs`.
Samples are opaque, positions are exact rationals, and the frame counts are small
enough for 64 bits. An index out of range is no result.
-/

namespace BetterParsec

namespace Audio

-- What is computed with samples.
structure SampleOps (Sample : Type) where
  silence : Sample
  -- `a * (1.0 - t) + b * t`.
  mix : Sample → Sample → ℚ → Sample
  average : Sample → Sample → Sample
  -- `(front + 0.707 * centre + 0.707 * side).clamp(-1.0, 1.0)`.
  downmix : Sample → Sample → Sample → Sample

def sourceRate : Nat := 48000

variable {Sample : Type} (ops : SampleOps Sample)

-- `min(src, dst)` channels are copied, the others are silent.
def copyChannels (src : List Sample) (dch : Nat) : List Sample :=
  let n := min src.length dch
  src.take n ++ List.replicate (dch - n) ops.silence

-- The cases of a frame whose channel count is not that of the device.
def remapChannels (src : List Sample) (dch : Nat) : List Sample :=
  match src with
  | [v] => [v, v] ++ List.replicate (dch - 2) ops.silence
  | [l, r] =>
      if dch = 1 then [ops.average l r] else [l, r] ++ List.replicate (dch - 2) ops.silence
  | [l, r, c, _, ls, rs] =>
      if dch = 2 then [ops.downmix l c ls, ops.downmix r c rs] else copyChannels ops src dch
  | _ => copyChannels ops src dch

-- What is appended for one frame.
def mapChannels (src : List Sample) (dch : Nat) : List Sample :=
  if src.length = dch then src else remapChannels ops src dch

-- A range behind the end panics.
def sliceFrame (src : List Sample) (sch f : Nat) : Option (List Sample) :=
  if f * sch + sch ≤ src.length then some ((src.drop (f * sch)).take sch) else none

def resampleFrame (src : List Sample) (sch srcRate dstRate srcFrames i : Nat) :
    Option (List Sample) :=
  let pos : ℚ := i * (srcRate / dstRate)
  let i0 := ⌊pos⌋.toNat
  let i1 := min (i0 + 1) (srcFrames - 1)
  let t := pos - i0
  (List.range sch).mapM fun c => do
    let a ← src[i0 * sch + c]?
    let b ← src[i1 * sch + c]?
    pure (ops.mix a b t)

def dstFrames (srcFrames srcRate dstRate : Nat) : Nat := srcFrames * dstRate / srcRate

-- The outputs of the calls of `map_channels`, which are appended one after another.
def convertInto (src : List Sample) (sch srcRate dstRate dch : Nat) :
    Option (List (List Sample)) :=
  if sch = 0 ∨ dch = 0 then some []
  else
    let srcFrames := src.length / sch
    if srcFrames = 0 then some []
    else if srcRate = dstRate then
      (List.range srcFrames).mapM fun f =>
        (sliceFrame src sch f).map fun frame => mapChannels ops frame dch
    else
      (List.range (dstFrames srcFrames srcRate dstRate)).mapM fun i =>
        (resampleFrame ops src sch srcRate dstRate srcFrames i).map fun frame =>
          mapChannels ops frame dch

def debugDelaySamples (rate channels delayMs : Nat) : Nat :=
  rate * min delayMs 2000 / 1000 * channels

theorem length_copyChannels (src : List Sample) (dch : Nat) :
    (copyChannels ops src dch).length = dch := by
  simp only [copyChannels, List.length_append, List.length_take, List.length_replicate]
  omega

/-- Every call appends one device frame. -/
theorem length_mapChannels (src : List Sample) {dch : Nat} (some : 0 < dch) :
    (mapChannels ops src dch).length = dch := by
  unfold mapChannels
  split_ifs with same
  · exact same
  unfold remapChannels
  split
  · simp at same ⊢
    omega
  · split_ifs with mono
    · simp [mono]
    · simp at same ⊢
      omega
  · split_ifs with stereo
    · simp [stereo]
    · exact length_copyChannels ops _ dch
  · exact length_copyChannels ops _ dch

theorem mapM_some {A B : Type} {xs : List A} {f : A → Option B}
    (each : ∀ x ∈ xs, (f x).isSome = true) :
    ∃ results, xs.mapM f = some results ∧ results.length = xs.length ∧
      ∀ result ∈ results, ∃ x ∈ xs, f x = some result := by
  induction xs with
  | nil => exact ⟨[], rfl, rfl, by simp⟩
  | cons x xs ih =>
    obtain ⟨results, all, length, origin⟩ := ih fun y member => each y (List.mem_cons_of_mem _ member)
    obtain ⟨first, found⟩ := Option.isSome_iff_exists.mp (each x List.mem_cons_self)
    refine ⟨first :: results, by simp [List.mapM_cons, found, all], by simp [length], ?_⟩
    intro result member
    rcases List.mem_cons.mp member with rfl | later
    · exact ⟨x, List.mem_cons_self, found⟩
    · obtain ⟨y, inside, same⟩ := origin result later
      exact ⟨y, List.mem_cons_of_mem _ inside, same⟩

theorem sample_inside {src : List Sample} {sch frame c : Nat} (inside : frame < src.length / sch)
    (channel : c < sch) : frame * sch + c < src.length := by
  have whole := Nat.div_mul_le_self src.length sch
  have next : (frame + 1) * sch ≤ src.length / sch * sch := Nat.mul_le_mul_right sch inside
  rw [Nat.succ_mul] at next
  omega

theorem sliceFrame_some {src : List Sample} {sch f : Nat} (inside : f < src.length / sch) :
    (sliceFrame src sch f).isSome = true := by
  have whole := Nat.div_mul_le_self src.length sch
  have next : (f + 1) * sch ≤ src.length / sch * sch := Nat.mul_le_mul_right sch inside
  rw [Nat.succ_mul] at next
  rw [sliceFrame, if_pos (by omega)]
  rfl

/-- A position of the device lies before the end of the packet. -/
theorem position_lt {srcFrames srcRate dstRate i : Nat}
    (inside : i < dstFrames srcFrames srcRate dstRate) :
    ⌊(i : ℚ) * (srcRate / dstRate)⌋.toNat < srcFrames := by
  unfold dstFrames at inside
  have srcPositive : 0 < srcRate := by
    by_contra zero
    rw [Nat.eq_zero_of_not_pos zero, Nat.div_zero] at inside
    omega
  have product : i * srcRate < srcFrames * dstRate := by
    have whole := Nat.div_mul_le_self (srcFrames * dstRate) srcRate
    have next : (i + 1) * srcRate ≤ srcFrames * dstRate / srcRate * srcRate :=
      Nat.mul_le_mul_right srcRate inside
    rw [Nat.succ_mul] at next
    omega
  have dstPositive : 0 < dstRate := by
    by_contra zero
    rw [Nat.eq_zero_of_not_pos zero] at product
    omega
  have position : (i : ℚ) * (srcRate / dstRate) < srcFrames := by
    rw [← mul_div_assoc, div_lt_iff₀ (by exact_mod_cast dstPositive)]
    exact_mod_cast product
  have nonneg : (0 : ℚ) ≤ i * (srcRate / dstRate) := by positivity
  rw [Int.floor_toNat]
  exact (Nat.floor_lt nonneg).mpr position

/-- The samples that are read lie inside the packet. -/
theorem resampleFrame_some {src : List Sample} {sch srcRate dstRate i : Nat}
    (inside : i < dstFrames (src.length / sch) srcRate dstRate) :
    (resampleFrame ops src sch srcRate dstRate (src.length / sch) i).isSome = true := by
  have first := position_lt inside
  have second : min (⌊(i : ℚ) * (srcRate / dstRate)⌋.toNat + 1) (src.length / sch - 1) <
      src.length / sch := by omega
  obtain ⟨samples, all, -⟩ := @mapM_some _ _ (List.range sch)
    (fun c => do
      let a ← src[⌊(i : ℚ) * (srcRate / dstRate)⌋.toNat * sch + c]?
      let b ← src[min (⌊(i : ℚ) * (srcRate / dstRate)⌋.toNat + 1) (src.length / sch - 1) * sch + c]?
      pure (ops.mix a b ((i : ℚ) * (srcRate / dstRate) - ⌊(i : ℚ) * (srcRate / dstRate)⌋.toNat)))
    (fun c member => by
      have channel := List.mem_range.mp member
      simp [List.getElem?_eq_getElem (sample_inside first channel),
        List.getElem?_eq_getElem (sample_inside second channel)])
  exact Option.isSome_iff_exists.mpr ⟨samples, all⟩

/-- No index is out of range, and there is one call for each frame of the device. -/
theorem convertInto_spec (src : List Sample) (sch srcRate dstRate : Nat) {dch : Nat}
    (some : 0 < dch) :
    ∃ calls, convertInto ops src sch srcRate dstRate dch = .some calls ∧
      calls.length = (if srcRate = dstRate then src.length / sch
        else dstFrames (src.length / sch) srcRate dstRate) ∧
      ∀ call ∈ calls, ∃ frame, call = mapChannels ops frame dch := by
  have none (empty : src.length / sch = 0) : (if srcRate = dstRate then src.length / sch
      else dstFrames (src.length / sch) srcRate dstRate) = 0 := by
    simp [empty, dstFrames]
  have mapped {f : Nat → Option (List Sample)} {count : Nat}
      (each : ∀ i < count, (f i).isSome = true) :
      ∃ calls, (List.range count).mapM (fun i => (f i).map (mapChannels ops · dch)) = .some calls ∧
        calls.length = count ∧ ∀ call ∈ calls, ∃ frame, call = mapChannels ops frame dch := by
    obtain ⟨calls, all, length, origin⟩ := @mapM_some _ _ (List.range count)
      (fun i => (f i).map (mapChannels ops · dch))
      (fun i member => by simpa using each i (List.mem_range.mp member))
    refine ⟨calls, all, by simpa using length, fun call member => ?_⟩
    obtain ⟨i, -, same⟩ := origin call member
    obtain ⟨frame, -, rfl⟩ := Option.map_eq_some_iff.mp same
    exact ⟨frame, rfl⟩
  unfold convertInto
  by_cases channels : sch = 0 ∨ dch = 0
  · have empty : src.length / sch = 0 := by
      rw [channels.resolve_right (by omega), Nat.div_zero]
    exact ⟨[], if_pos channels, (none empty).symm, by simp⟩
  rw [if_neg channels]
  by_cases empty : src.length / sch = 0
  · exact ⟨[], if_pos empty, (none empty).symm, by simp⟩
  rw [if_neg empty]
  split_ifs with same
  · exact mapped fun f inside => sliceFrame_some inside
  · exact mapped fun i inside => resampleFrame_some ops inside

section Drift

variable (dstRate dch : Nat)

-- A decoded packet with the channel count of its decoder.
structure Packet (Sample : Type) where
  pcm : List Sample
  channels : Nat

def Packet.frames (packet : Packet Sample) : Nat := packet.pcm.length / packet.channels

-- What the packets append, one after another.
def convertAll : List (Packet Sample) → Option (List Sample)
  | [] => some []
  | packet :: rest => do
      let calls ← convertInto ops packet.pcm packet.channels sourceRate dstRate dch
      let later ← convertAll rest
      pure (calls.flatten ++ later)

def frameCount (packets : List (Packet Sample)) : Nat := (packets.map Packet.frames).sum

-- The part of a device frame that a call leaves off, in units of 1 / 48000.
def leftOff (packets : List (Packet Sample)) : Nat :=
  (packets.map fun packet => packet.frames * dstRate % sourceRate).sum

theorem length_flatten_calls {calls : List (List Sample)} (some : 0 < dch)
    (each : ∀ call ∈ calls, ∃ frame, call = mapChannels ops frame dch) :
    calls.flatten.length = calls.length * dch := by
  induction calls with
  | nil => simp
  | cons call calls ih =>
    obtain ⟨frame, rfl⟩ := each call List.mem_cons_self
    rw [List.flatten_cons, List.length_append, length_mapChannels ops frame some,
      ih fun other member => each other (List.mem_cons_of_mem _ member), List.length_cons]
    ring

/-- A call appends the whole frames; what it leaves off is forgotten. -/
theorem convertAll_length (some : 0 < dch) (packets : List (Packet Sample)) :
    ∃ appended count, convertAll ops dstRate dch packets = .some appended ∧
      appended.length = count * dch ∧
      count * sourceRate + leftOff dstRate packets = frameCount packets * dstRate := by
  induction packets with
  | nil => exact ⟨[], 0, rfl, by simp, by simp [leftOff, frameCount]⟩
  | cons packet rest ih =>
    obtain ⟨later, laterCount, laterAppended, laterLength, laterSum⟩ := ih
    obtain ⟨calls, converted, length, each⟩ :=
      convertInto_spec ops packet.pcm packet.channels sourceRate dstRate some
    have whole : calls.length * sourceRate + packet.frames * dstRate % sourceRate =
        packet.frames * dstRate := by
      rw [length]
      split_ifs with same
      · rw [← same, Nat.mul_mod_left, Nat.add_zero, Packet.frames]
      · exact Nat.div_add_mod' _ _
    refine ⟨calls.flatten ++ later, calls.length + laterCount, ?_, ?_, ?_⟩
    · simp [convertAll, converted, laterAppended]
    · rw [List.length_append, length_flatten_calls ops dch some each, laterLength]
      ring
    · have front : leftOff dstRate (packet :: rest) =
          packet.frames * dstRate % sourceRate + leftOff dstRate rest := rfl
      have total : frameCount (packet :: rest) = packet.frames + frameCount rest := rfl
      rw [front, total, Nat.add_mul, Nat.add_mul, Nat.add_add_add_comm, whole, laterSum]

-- The frames appended and the exact duration differ by less than a frame.
def Undrifted (packets : List (Packet Sample)) : Prop :=
  ∃ appended, convertAll ops dstRate dch packets = some appended ∧
    |((appended.length / dch : Nat) : ℚ) - frameCount packets * dstRate / sourceRate| < 1

theorem undrifted_iff (some : 0 < dch) (packets : List (Packet Sample)) :
    Undrifted ops dstRate dch packets ↔ leftOff dstRate packets < sourceRate := by
  obtain ⟨appended, count, converted, length, sum⟩ := convertAll_length ops dstRate dch some packets
  have rate : (0 : ℚ) < sourceRate := by norm_num [sourceRate]
  have frames : appended.length / dch = count := by
    rw [length, Nat.mul_div_cancel _ some]
  have behind : (count : ℚ) - frameCount packets * dstRate / sourceRate =
      -(leftOff dstRate packets / sourceRate) := by
    have exact : (count : ℚ) * sourceRate + leftOff dstRate packets =
        frameCount packets * dstRate := by exact_mod_cast sum
    rw [← exact]
    field_simp
    ring
  have small : |((appended.length / dch : Nat) : ℚ) - frameCount packets * dstRate / sourceRate| < 1 ↔
      leftOff dstRate packets < sourceRate := by
    rw [frames, behind, abs_neg, abs_of_nonneg (by positivity), div_lt_one rate]
    exact Nat.cast_lt
  unfold Undrifted
  rw [converted]
  simpa using small

theorem undrifted_forever_iff (some : 0 < dch) (packet : Packet Sample) :
    (∀ count, Undrifted ops dstRate dch (List.replicate count packet)) ↔
      sourceRate ∣ packet.frames * dstRate := by
  have left (count : Nat) : leftOff dstRate (List.replicate count packet) =
      count * (packet.frames * dstRate % sourceRate) := by
    simp [leftOff]
  simp only [undrifted_iff ops dstRate dch some, left]
  constructor
  · intro never
    rw [Nat.dvd_iff_mod_eq_zero]
    by_contra part
    have many := never sourceRate
    have one : 1 ≤ packet.frames * dstRate % sourceRate := Nat.one_le_iff_ne_zero.mpr part
    exact absurd many (Nat.not_lt.mpr (Nat.le_mul_of_pos_right sourceRate one))
  · intro whole count
    rw [Nat.mod_eq_zero_of_dvd whole, Nat.mul_zero]
    norm_num [sourceRate]

/-- Nothing drifts exactly as long as what the calls leave off is less than one frame together; with
packets of one length that is so for ever exactly if each is a whole number of device frames. -/
theorem resampling_undrifted_iff (some : 0 < dch) :
    (∀ packets : List (Packet Sample),
      Undrifted ops dstRate dch packets ↔ leftOff dstRate packets < sourceRate) ∧
    ∀ packet : Packet Sample, (∀ count, Undrifted ops dstRate dch (List.replicate count packet)) ↔
      sourceRate ∣ packet.frames * dstRate :=
  ⟨undrifted_iff ops dstRate dch some, undrifted_forever_iff ops dstRate dch some⟩

end Drift

-- What a sample is does not matter here.
def unitOps : SampleOps Unit := ⟨(), fun _ _ _ => (), fun _ _ => (), fun _ _ _ => ()⟩

def blankPacket (count channels : Nat) : Packet Unit := ⟨List.replicate count (), channels⟩

theorem blankPacket_frames (count channels : Nat) :
    (blankPacket count channels).frames = count / channels := by
  rw [Packet.frames, blankPacket, List.length_replicate]

-- Five milliseconds of stereo are 220 device frames and a half.
theorem resampling_undrifted_iff_once : Undrifted unitOps 44100 2 [blankPacket 480 2] := by
  refine ((resampling_undrifted_iff unitOps 44100 2 (by decide)).1 _).mpr ?_
  simp [leftOff, blankPacket_frames, sourceRate]

theorem resampling_drifts :
    ¬Undrifted unitOps 44100 2 [blankPacket 480 2, blankPacket 480 2] := by
  rw [undrifted_iff unitOps 44100 2 (by decide)]
  simp [leftOff, blankPacket_frames, sourceRate]

end Audio

end BetterParsec
