import BetterParsec.Library.Runs

set_option autoImplicit false
set_option linter.all false

/-!
# The overlay of exact tiles

`QuOverlayState` and `QuOverlayDom` of `web/stream/video/qu_overlay.ts`. A
decode of a tile is a promise that is settled at any later time; what
`createImageBitmap` gives for it is part of the event that settles it. The
blending of the canvas is a parameter.
-/

namespace BetterParsec

namespace Web

namespace QuOverlay

structure Rgba where
  r : UInt8
  g : UInt8
  b : UInt8
  a : UInt8
  deriving DecidableEq

def transparent : Rgba := ⟨0, 0, 0, 0⟩

structure Bitmap where
  width : Nat
  height : Nat
  pixel : Nat → Nat → Rgba

structure Rect where
  x : Nat
  y : Nat
  w : Nat
  h : Nat
  deriving DecidableEq

def Rect.Contains (rect : Rect) (px py : Nat) : Prop :=
  (rect.x ≤ px ∧ px < rect.x + rect.w) ∧ rect.y ≤ py ∧ py < rect.y + rect.h

instance decidableContains (rect : Rect) (px py : Nat) : Decidable (rect.Contains px py) :=
  inferInstanceAs (Decidable (_ ∧ _))

structure QuTileMsg where
  epoch : Nat
  position : Nat × Nat
  crc32Bgra : UInt32
  payload : List UInt8

inductive QuMessage where
  | config (tileW tileH epoch : Nat)
  | tile (msg : QuTileMsg)
  | invalidate (epoch : Nat) (tiles : List (Nat × Nat))
  | epoch (epoch : Nat)
  -- The two kinds that go to the host.
  | other

structure DrawTile where
  position : Nat × Nat
  rect : Rect
  payload : List UInt8
  crc32Bgra : UInt32

inductive Action where
  | drawTile (tile : DrawTile)
  | clearRect (rect : Rect)
  | clearAll
  | resize (pixelW pixelH : Nat)

-- All numbers of the two loops are unsigned 32-bit ones in the end.
def crcRound (c : UInt32) : UInt32 :=
  if c &&& 1 ≠ 0 then (0xEDB88320 : UInt32) ^^^ (c >>> 1) else c >>> 1

def crcTable (i : UInt32) : UInt32 := crcRound^[8] i

def crc32 (data : List UInt8) : UInt32 :=
  data.foldl (fun crc byte => crcTable ((crc ^^^ byte.toUInt32) &&& 0xFF) ^^^ (crc >>> 8))
    (0xFFFFFFFF : UInt32) ^^^ 0xFFFFFFFF

structure QuOverlayState where
  framePixelW : Nat
  framePixelH : Nat
  epoch : Option Nat
  tileW : Nat
  tileH : Nat
  applied : Finset (Nat × Nat)

namespace QuOverlayState

-- Edge tiles are clipped to the frame.
def clipped (frame tile : Nat × Nat) (position : Nat × Nat) : Rect :=
  { x := position.1 * tile.1
    y := position.2 * tile.2
    w := min tile.1 (frame.1 - position.1 * tile.1)
    h := min tile.2 (frame.2 - position.2 * tile.2) }

def tileRect (state : QuOverlayState) (position : Nat × Nat) : Rect :=
  clipped (state.framePixelW, state.framePixelH) (state.tileW, state.tileH) position

def tileAction (state : QuOverlayState) (msg : QuTileMsg) : DrawTile :=
  ⟨msg.position, state.tileRect msg.position, msg.payload, msg.crc32Bgra⟩

def revoke (state : QuOverlayState) (position : Nat × Nat) : QuOverlayState :=
  { state with applied := state.applied.erase position }

-- The loop of INVALIDATE.
def invalidate (state : QuOverlayState) : List (Nat × Nat) → QuOverlayState × List Action
  | [] => (state, [])
  | position :: rest =>
      if position ∈ state.applied then
        let (last, actions) := invalidate (state.revoke position) rest
        (last, .clearRect (state.tileRect position) :: actions)
      else invalidate state rest

def apply (state : QuOverlayState) : QuMessage → QuOverlayState × List Action
  | .config tileW tileH epoch =>
      ({ state with epoch := some epoch, tileW := tileW, tileH := tileH, applied := ∅ },
        [.resize state.framePixelW state.framePixelH, .clearAll])
  | .epoch epoch => ({ state with epoch := some epoch, applied := ∅ }, [.clearAll])
  | .tile msg =>
      if state.epoch ≠ some msg.epoch then (state, [])
      else if (state.tileRect msg.position).w = 0 ∨ (state.tileRect msg.position).h = 0 then
        (state, [])
      else
        ({ state with applied := insert msg.position state.applied },
          [.drawTile (state.tileAction msg)])
  | .invalidate epoch tiles =>
      if state.epoch ≠ some epoch then (state, []) else state.invalidate tiles
  | .other => (state, [])

end QuOverlayState

structure Decode where
  promise : Nat
  tile : DrawTile

-- The canvas has the size of the frame all the time.
structure QuOverlayDom where
  state : QuOverlayState
  canvas : Nat → Nat → Rgba
  pending : List Decode
  started : Nat
  quCrcMismatch : Nat

inductive Event where
  | apply (msg : QuMessage)
  -- `none` where the promise of `createImageBitmap` is rejected.
  | settle (promise : Nat) (bitmap : Option Bitmap)

namespace QuOverlayDom

variable (blend : Rgba → Rgba → Rgba)

def new (framePixelW framePixelH : Nat) : QuOverlayDom :=
  ⟨⟨framePixelW, framePixelH, none, 0, 0, ∅⟩, fun _ _ => transparent, [], 0, 0⟩

def clearRect (canvas : Nat → Nat → Rgba) (rect : Rect) (px py : Nat) : Rgba :=
  if rect.Contains px py then transparent else canvas px py

def drawImage (dom : QuOverlayDom) (bitmap : Bitmap) (x y px py : Nat) : Rgba :=
  if (Rect.mk x y bitmap.width bitmap.height).Contains px py ∧
      px < dom.state.framePixelW ∧ py < dom.state.framePixelH then
    blend (bitmap.pixel (px - x) (py - y)) (dom.canvas px py)
  else dom.canvas px py

def executeAction (dom : QuOverlayDom) : Action → QuOverlayDom
  | .clearAll => { dom with canvas := fun _ _ => transparent }
  | .clearRect rect => { dom with canvas := clearRect dom.canvas rect }
  -- Setting the size of a canvas clears it.
  | .resize _ _ => { dom with canvas := fun _ _ => transparent }
  | .drawTile tile =>
      { dom with pending := dom.pending ++ [⟨dom.started, tile⟩], started := dom.started + 1 }

def apply (dom : QuOverlayDom) (msg : QuMessage) : QuOverlayDom :=
  let (state, actions) := dom.state.apply msg
  actions.foldl executeAction { dom with state := state }

-- A pixel of the bitmap on a canvas that shows nothing.
def image (bitmap : Bitmap) (i j : Nat) : Rgba :=
  if i < bitmap.width ∧ j < bitmap.height then blend (bitmap.pixel i j) transparent
  else transparent

-- What is read back from the canvas of the size of the tile, with red and blue exchanged.
def bgra (bitmap : Bitmap) (rect : Rect) : List UInt8 :=
  (List.range rect.h).flatMap fun j => (List.range rect.w).flatMap fun i =>
    let rgba := image blend bitmap i j
    [rgba.b, rgba.g, rgba.r, rgba.a]

def reject (dom : QuOverlayDom) (tile : DrawTile) : QuOverlayDom :=
  { dom with
    state := dom.state.revoke tile.position
    canvas := clearRect dom.canvas tile.rect
    quCrcMismatch := dom.quCrcMismatch + 1 }

-- The tile's bitmap, if it was decoded and has the announced checksum.
def checked (tile : DrawTile) (bitmap : Option Bitmap) : Option Bitmap :=
  bitmap.filter fun bitmap => crc32 (bgra blend bitmap tile.rect) = tile.crc32Bgra

-- The rest of `drawTileAsync`, once the bitmap is there or refused.
def drawTile (dom : QuOverlayDom) (tile : DrawTile) (bitmap : Option Bitmap) : QuOverlayDom :=
  match bitmap with
  | none => dom.reject tile
  | some bitmap =>
      if crc32 (bgra blend bitmap tile.rect) ≠ tile.crc32Bgra then dom.reject tile
      else if tile.position ∉ dom.state.applied then dom
      else { dom with canvas := drawImage blend dom bitmap tile.rect.x tile.rect.y }

def settle (dom : QuOverlayDom) (promise : Nat) (bitmap : Option Bitmap) : QuOverlayDom :=
  match dom.pending.find? (·.promise = promise) with
  | none => dom
  | some decode =>
      drawTile blend { dom with pending := dom.pending.filter (·.promise ≠ promise) } decode.tile
        bitmap

-- The log of the events is kept to say what the canvas has to show.
def step (dom : QuOverlayDom) : Event → QuOverlayDom × List Event
  | .apply msg => (dom.apply msg, [.apply msg])
  | .settle promise bitmap => (dom.settle blend promise bitmap, [.settle promise bitmap])

end QuOverlayDom

section Wanted

variable (blend : Rgba → Rgba → Rgba) (frame : Nat × Nat)

-- A tile that was accepted, and its bitmap or refusal once the decode is settled.
structure Accepted where
  tile : DrawTile
  result : Option (Option Bitmap)

-- What the messages ask for, whenever the decodes are settled: all tiles that were accepted, and
-- for each position the one it has to show.
structure Wanted where
  epoch : Option Nat
  tileSize : Nat × Nat
  accepted : List Accepted
  latest : Nat × Nat → Option Nat

namespace Wanted

def new : Wanted := ⟨none, (0, 0), [], fun _ => none⟩

def rect (wanted : Wanted) (position : Nat × Nat) : Rect :=
  QuOverlayState.clipped frame wanted.tileSize position

def accepts (wanted : Wanted) (msg : QuTileMsg) : Bool :=
  wanted.epoch = some msg.epoch && 0 < (wanted.rect frame msg.position).w &&
    0 < (wanted.rect frame msg.position).h

def accept (wanted : Wanted) (msg : QuTileMsg) : Wanted :=
  let tile := ⟨msg.position, wanted.rect frame msg.position, msg.payload, msg.crc32Bgra⟩
  { wanted with
    accepted := wanted.accepted ++ [⟨tile, none⟩]
    latest := Function.update wanted.latest msg.position (some wanted.accepted.length) }

def settled (bitmap : Option Bitmap) (accepted : Accepted) : Accepted :=
  match accepted.result with
  | none => { accepted with result := some (QuOverlayDom.checked blend accepted.tile bitmap) }
  | some _ => accepted

def next (wanted : Wanted) : Event → Wanted
  | .apply (.config tileW tileH epoch) =>
      { wanted with epoch := some epoch, tileSize := (tileW, tileH), latest := fun _ => none }
  | .apply (.epoch epoch) => { wanted with epoch := some epoch, latest := fun _ => none }
  | .apply (.tile msg) => if wanted.accepts frame msg then wanted.accept frame msg else wanted
  | .apply (.invalidate epoch tiles) =>
      if wanted.epoch = some epoch then
        { wanted with
          latest := fun position => if position ∈ tiles then none else wanted.latest position }
      else wanted
  | .apply .other => wanted
  | .settle promise bitmap =>
      { wanted with accepted := wanted.accepted.modify promise (settled blend bitmap) }

def after (history : List Event) : Wanted :=
  history.foldl (next blend frame) new

-- The valid bitmap of the tile that a position has to show.
def shown (wanted : Wanted) (position : Nat × Nat) : Option Bitmap :=
  (wanted.latest position).bind fun promise =>
    (wanted.accepted[promise]?).bind fun accepted => accepted.result.join

-- A pixel of the rectangle of a position, numbered from its corner.
def pixel (wanted : Wanted) (position : Nat × Nat) (i j : Nat) : Rgba :=
  match wanted.shown position with
  | some bitmap => QuOverlayDom.image blend bitmap i j
  | none => transparent

end Wanted

-- Once nothing is being decoded, every rectangle of the grid shows what it has to.
def Shows (wanted : Wanted) (dom : QuOverlayDom) : Prop :=
  dom.pending = [] → ∀ position px py, (wanted.rect frame position).Contains px py →
    dom.canvas px py =
      wanted.pixel blend position (px - (wanted.rect frame position).x)
        (py - (wanted.rect frame position).y)

-- The decode belongs to the tile its position has to show.
def Latest (wanted : Wanted) (decode : Decode) : Prop :=
  wanted.latest decode.tile.position = some decode.promise

-- The tile that the position has to show is still being decoded.
def Awaited (wanted : Wanted) (position : Nat × Nat) (dom : QuOverlayDom) : Prop :=
  ∃ decode ∈ dom.pending, wanted.latest position = some decode.promise

-- No pixel of the rectangle would keep or mix with an older one.
def Covers (bitmap : Bitmap) (rect : Rect) (canvas : Nat → Nat → Rgba) : Prop :=
  ∀ i < rect.w, ∀ j < rect.h,
    (i < bitmap.width ∧ j < bitmap.height ∧ (bitmap.pixel i j).a = 255) ∨
      canvas (rect.x + i) (rect.y + j) = transparent

-- A decode may be refused if it is for the tile its position has to show, or the position shows
-- nothing; its bitmap may be drawn if it stays in the rectangle, and is for that tile and covers
-- what is there, or that tile is still to come. The grid must be the one it was started with.
def InOrder (wanted : Wanted) (dom : QuOverlayDom) (decode : Decode) : Option Bitmap → Prop
  | none =>
      decode.tile.rect = wanted.rect frame decode.tile.position ∧
        (Latest wanted decode ∨ decode.tile.position ∉ dom.state.applied)
  | some bitmap =>
      decode.tile.position ∉ dom.state.applied ∨
        decode.tile.rect = wanted.rect frame decode.tile.position ∧
          (bitmap.width ≤ decode.tile.rect.w ∧ bitmap.height ≤ decode.tile.rect.h) ∧
          (Latest wanted decode ∧ Covers bitmap decode.tile.rect dom.canvas ∨
            ¬ Latest wanted decode ∧ Awaited wanted decode.tile.position dom)

instance decidableLatest (wanted : Wanted) (decode : Decode) : Decidable (Latest wanted decode) :=
  inferInstanceAs (Decidable (_ = _))

instance decidableAwaited (wanted : Wanted) (position : Nat × Nat) (dom : QuOverlayDom) :
    Decidable (Awaited wanted position dom) :=
  inferInstanceAs (Decidable (∃ decode ∈ _, _))

instance decidableCovers (bitmap : Bitmap) (rect : Rect) (canvas : Nat → Nat → Rgba) :
    Decidable (Covers bitmap rect canvas) :=
  inferInstanceAs (Decidable (∀ i < _, ∀ j < _, _))

instance decidableInOrder (wanted : Wanted) (dom : QuOverlayDom) (decode : Decode)
    (checked : Option Bitmap) : Decidable (InOrder frame wanted dom decode checked) :=
  match checked with
  | none => inferInstanceAs (Decidable (_ ∧ _))
  | some _ => inferInstanceAs (Decidable (_ ∨ _))

def Orderly (history : List Event) (dom : QuOverlayDom) : Event → Prop
  | .apply _ => True
  | .settle promise bitmap =>
      ∀ decode ∈ dom.pending.find? (·.promise = promise),
        InOrder frame (.after blend frame history) dom decode
          (QuOverlayDom.checked blend decode.tile bitmap)

instance decidableOrderly (history : List Event) (dom : QuOverlayDom) (event : Event) :
    Decidable (Orderly blend frame history dom event) :=
  match event with
  | .apply _ => .isTrue trivial
  | .settle _ _ => inferInstanceAs (Decidable (∀ decode ∈ _, _))

end Wanted

section Rectangles

theorem clipped_apart {frame tile first second : Nat × Nat} {px py : Nat}
    (inFirst : (QuOverlayState.clipped frame tile first).Contains px py)
    (inSecond : (QuOverlayState.clipped frame tile second).Contains px py) : first = second := by
  obtain ⟨⟨left, right⟩, top, bottom⟩ := inFirst
  obtain ⟨⟨left', right'⟩, top', bottom'⟩ := inSecond
  simp only [QuOverlayState.clipped] at left right top bottom left' right' top' bottom'
  have column : ∀ c : Nat, c * tile.1 ≤ px → px < c * tile.1 + min tile.1 (frame.1 - c * tile.1) →
      px / tile.1 = c := by
    intro c low high
    apply Nat.div_eq_of_lt_le low
    rw [Nat.add_mul, Nat.one_mul]
    omega
  have row : ∀ r : Nat, r * tile.2 ≤ py → py < r * tile.2 + min tile.2 (frame.2 - r * tile.2) →
      py / tile.2 = r := by
    intro r low high
    apply Nat.div_eq_of_lt_le low
    rw [Nat.add_mul, Nat.one_mul]
    omega
  exact Prod.ext ((column _ left right).symm.trans (column _ left' right'))
    ((row _ top bottom).symm.trans (row _ top' bottom'))

theorem clipped_frame {frame tile position : Nat × Nat} {px py : Nat}
    (inside : (QuOverlayState.clipped frame tile position).Contains px py) :
    px < frame.1 ∧ py < frame.2 := by
  obtain ⟨⟨left, right⟩, top, bottom⟩ := inside
  simp only [QuOverlayState.clipped] at left right top bottom
  constructor <;> omega

theorem invalidate_state (state : QuOverlayState) (tiles : List (Nat × Nat)) :
    (state.invalidate tiles).1 = { state with applied := state.applied \ tiles.toFinset } := by
  induction tiles generalizing state with
  | nil => simp [QuOverlayState.invalidate]
  | cons position rest ih =>
    have apart : state.applied.erase position \ rest.toFinset =
        state.applied \ (position :: rest).toFinset := by
      ext other
      simp only [Finset.mem_sdiff, Finset.mem_erase, List.toFinset_cons, Finset.mem_insert]
      grind
    rw [QuOverlayState.invalidate]
    split_ifs with held
    · simp only [ih, QuOverlayState.revoke, apart]
    · rw [ih, ← apart, Finset.erase_eq_of_notMem held]

-- The pixels that INVALIDATE clears.
def Cleared (state : QuOverlayState) (tiles : List (Nat × Nat)) (px py : Nat) : Prop :=
  ∃ position ∈ tiles, position ∈ state.applied ∧ (state.tileRect position).Contains px py

theorem invalidate_actions (state : QuOverlayState) (tiles : List (Nat × Nat))
    (dom : QuOverlayDom) :
    ∃ canvas, (state.invalidate tiles).2.foldl QuOverlayDom.executeAction dom =
        { dom with canvas := canvas } ∧
      (∀ px py, Cleared state tiles px py → canvas px py = transparent) ∧
      ∀ px py, ¬ Cleared state tiles px py → canvas px py = dom.canvas px py := by
  induction tiles generalizing state dom with
  | nil =>
    refine ⟨dom.canvas, rfl, ?_, fun _ _ _ => rfl⟩
    rintro px py ⟨position, member, -⟩
    simp at member
  | cons position rest ih =>
    rw [QuOverlayState.invalidate]
    split_ifs with held
    · obtain ⟨canvas, run, cleared, kept⟩ := ih (state.revoke position)
        (dom.executeAction (.clearRect (state.tileRect position)))
      refine ⟨canvas, run, ?_, ?_⟩
      · rintro px py ⟨other, member, applied, inside⟩
        by_cases later : Cleared (state.revoke position) rest px py
        · exact cleared px py later
        rw [kept px py later]
        have same : other = position := by
          by_contra different
          have left := (List.mem_cons.mp member).resolve_left different
          exact later ⟨other, left, Finset.mem_erase.mpr ⟨different, applied⟩, inside⟩
        rw [same] at inside
        exact if_pos inside
      · intro px py uncleared
        have outside : ¬ (state.tileRect position).Contains px py := fun inside =>
          uncleared ⟨position, List.mem_cons_self, held, inside⟩
        rw [kept px py]
        · exact if_neg outside
        rintro ⟨other, member, applied, inside⟩
        exact uncleared ⟨other, List.mem_cons_of_mem _ member, Finset.mem_of_mem_erase applied,
          inside⟩
    · obtain ⟨canvas, run, cleared, kept⟩ := ih state dom
      have same : ∀ px py, Cleared state (position :: rest) px py ↔ Cleared state rest px py := by
        intro px py
        constructor
        · rintro ⟨other, member, applied, inside⟩
          rcases List.mem_cons.mp member with rfl | later
          · exact absurd applied held
          · exact ⟨other, later, applied, inside⟩
        · rintro ⟨other, member, rest⟩
          exact ⟨other, List.mem_cons_of_mem _ member, rest⟩
      exact ⟨canvas, run, fun px py here => cleared px py ((same px py).mp here),
        fun px py here => kept px py (fun found => here ((same px py).mpr found))⟩

end Rectangles

section Mirrors

variable {blend : Rgba → Rgba → Rgba} {frame : Nat × Nat} {wanted next : Wanted}
  {dom after : QuOverlayDom}

-- The rectangle of the canvas holds this picture.
def Holds (canvas : Nat → Nat → Rgba) (rect : Rect) (picture : Nat → Nat → Rgba) : Prop :=
  ∀ px py, rect.Contains px py → canvas px py = picture (px - rect.x) (py - rect.y)

-- A position against its latest tile. While that tile is being decoded the rectangle may hold
-- anything.
inductive Placed (blend : Rgba → Rgba → Rgba) (frame : Nat × Nat) (wanted : Wanted)
    (dom : QuOverlayDom) (position : Nat × Nat) : Prop where
  | empty (latest : wanted.latest position = none) (unapplied : position ∉ dom.state.applied)
      (clear : Holds dom.canvas (wanted.rect frame position) fun _ _ => transparent)
  | awaited {promise : Nat} {tile : DrawTile} (latest : wanted.latest position = some promise)
      (found : wanted.accepted[promise]? = some ⟨tile, none⟩) (own : tile.position = position)
      (applied : position ∈ dom.state.applied)
  | refused {promise : Nat} {tile : DrawTile} (latest : wanted.latest position = some promise)
      (found : wanted.accepted[promise]? = some ⟨tile, some none⟩)
      (unapplied : position ∉ dom.state.applied)
      (clear : Holds dom.canvas (wanted.rect frame position) fun _ _ => transparent)
  | drawn {promise : Nat} {tile : DrawTile} {bitmap : Bitmap}
      (latest : wanted.latest position = some promise)
      (found : wanted.accepted[promise]? = some ⟨tile, some (some bitmap)⟩)
      (applied : position ∈ dom.state.applied)
      (picture : Holds dom.canvas (wanted.rect frame position) (QuOverlayDom.image blend bitmap))

structure Mirrors (blend : Rgba → Rgba → Rgba) (frame : Nat × Nat) (wanted : Wanted)
    (dom : QuOverlayDom) : Prop where
  epoch : dom.state.epoch = wanted.epoch
  tileSize : (dom.state.tileW, dom.state.tileH) = wanted.tileSize
  frameSize : (dom.state.framePixelW, dom.state.framePixelH) = frame
  count : dom.started = wanted.accepted.length
  pending : ∀ decode : Decode, decode ∈ dom.pending ↔
    wanted.accepted[decode.promise]? = some ⟨decode.tile, none⟩
  placed : ∀ position, Placed blend frame wanted dom position

theorem Mirrors.rect (mirrors : Mirrors blend frame wanted dom) (position : Nat × Nat) :
    dom.state.tileRect position = wanted.rect frame position := by
  rw [QuOverlayState.tileRect, mirrors.frameSize, mirrors.tileSize]
  rfl

theorem rect_apart {first second : Nat × Nat} {px py : Nat}
    (inFirst : (wanted.rect frame first).Contains px py)
    (inSecond : (wanted.rect frame second).Contains px py) : first = second :=
  clipped_apart inFirst inSecond

theorem Mirrors.shows (mirrors : Mirrors blend frame wanted dom) : Shows blend frame wanted dom := by
  intro idle position px py inside
  simp only [Wanted.pixel, Wanted.shown]
  cases mirrors.placed position with
  | empty latest unapplied clear => simp [latest, clear px py inside]
  | awaited latest found own applied =>
    have member := (mirrors.pending ⟨_, _⟩).mpr found
    simp [idle] at member
  | refused latest found unapplied clear => simp [latest, found, clear px py inside]
  | drawn latest found applied picture => simp [latest, found, picture px py inside]

-- A position that the step does not touch.
theorem Placed.keep {position : Nat × Nat} (placed : Placed blend frame wanted dom position)
    (latest : next.latest position = wanted.latest position)
    (found : ∀ promise accepted, wanted.latest position = some promise →
      wanted.accepted[promise]? = some accepted →
      (accepted.result = none → accepted.tile.position = position) →
      next.accepted[promise]? = some accepted)
    (size : next.tileSize = wanted.tileSize)
    (applied : position ∈ after.state.applied ↔ position ∈ dom.state.applied)
    (canvas : ∀ px py, (wanted.rect frame position).Contains px py →
      after.canvas px py = dom.canvas px py) :
    Placed blend frame next after position := by
  have rect : next.rect frame position = wanted.rect frame position := by
    rw [Wanted.rect, size]
    rfl
  have held : ∀ picture, Holds dom.canvas (wanted.rect frame position) picture →
      Holds after.canvas (next.rect frame position) picture := by
    intro picture holds px py inside
    rw [rect] at inside ⊢
    rw [canvas px py inside]
    exact holds px py inside
  cases placed with
  | empty none unapplied clear =>
    exact .empty (latest.trans none) (fun member => unapplied (applied.mp member)) (held _ clear)
  | awaited some was own member =>
    exact .awaited (latest.trans some) (found _ _ some was fun _ => own) own (applied.mpr member)
  | refused some was unapplied clear =>
    exact .refused (latest.trans some) (found _ _ some was (by simp))
      (fun member => unapplied (applied.mp member)) (held _ clear)
  | drawn some was member picture =>
    exact .drawn (latest.trans some) (found _ _ some was (by simp)) (applied.mpr member)
      (held _ picture)

theorem Mirrors.config (mirrors : Mirrors blend frame wanted dom) (tileW tileH epoch : Nat) :
    Mirrors blend frame (wanted.next blend frame (.apply (.config tileW tileH epoch)))
      (dom.apply (.config tileW tileH epoch)) :=
  ⟨rfl, rfl, mirrors.frameSize, mirrors.count, mirrors.pending,
    fun _ => .empty rfl (Finset.notMem_empty _) fun _ _ _ => rfl⟩

theorem Mirrors.newEpoch (mirrors : Mirrors blend frame wanted dom) (epoch : Nat) :
    Mirrors blend frame (wanted.next blend frame (.apply (.epoch epoch)))
      (dom.apply (.epoch epoch)) :=
  ⟨rfl, mirrors.tileSize, mirrors.frameSize, mirrors.count, mirrors.pending,
    fun _ => .empty rfl (Finset.notMem_empty _) fun _ _ _ => rfl⟩

theorem Mirrors.tile (mirrors : Mirrors blend frame wanted dom) (msg : QuTileMsg) :
    Mirrors blend frame (wanted.next blend frame (.apply (.tile msg))) (dom.apply (.tile msg)) := by
  have rect := mirrors.rect msg.position
  simp only [QuOverlayDom.apply, QuOverlayState.apply, Wanted.next, Wanted.accepts, rect,
    mirrors.epoch]
  by_cases stale : wanted.epoch = some msg.epoch
  swap
  · simpa [stale] using mirrors
  by_cases empty : (wanted.rect frame msg.position).w = 0 ∨ (wanted.rect frame msg.position).h = 0
  · have refused : ¬ (0 < (wanted.rect frame msg.position).w ∧
        0 < (wanted.rect frame msg.position).h) := by omega
    simpa [stale, empty, refused] using mirrors
  have taken : 0 < (wanted.rect frame msg.position).w ∧
      0 < (wanted.rect frame msg.position).h := by omega
  simp only [stale, ne_eq, not_true_eq_false, if_false, empty, decide_true, taken.1, taken.2,
    Bool.and_self, if_true, List.foldl_cons, List.foldl_nil, QuOverlayDom.executeAction]
  have numbered : ∀ promise accepted, wanted.accepted[promise]? = some accepted →
      promise < wanted.accepted.length := fun promise accepted found =>
    (List.getElem?_eq_some_iff.mp found).1
  refine ⟨stale.symm, mirrors.tileSize, mirrors.frameSize, ?_, ?_, ?_⟩
  · simp [Wanted.accept, mirrors.count]
  · rintro ⟨promise, tile⟩
    simp only [Wanted.accept, List.mem_append, List.mem_singleton, mirrors.pending,
      QuOverlayState.tileAction, rect, mirrors.count, Decode.mk.injEq]
    rcases lt_trichotomy promise wanted.accepted.length with before | here | beyond
    · rw [List.getElem?_append_left before]
      simp [before.ne]
    · subst here
      simp [eq_comm]
    · have past : wanted.accepted.length ≤ promise := beyond.le
      rw [List.getElem?_eq_none past, List.getElem?_eq_none (by simpa using beyond)]
      simp [beyond.ne']
  · intro position
    by_cases here : position = msg.position
    · subst here
      exact .awaited (Function.update_self ..) (List.getElem?_concat_length ..) rfl
        (Finset.mem_insert_self ..)
    · refine (mirrors.placed position).keep (Function.update_of_ne here ..) ?_ rfl
        (by simp [here]) fun _ _ _ => rfl
      intro promise accepted latest found own
      exact (List.getElem?_append_left (numbered _ _ found)).trans found

theorem Mirrors.invalidate (mirrors : Mirrors blend frame wanted dom) (epoch : Nat)
    (tiles : List (Nat × Nat)) :
    Mirrors blend frame (wanted.next blend frame (.apply (.invalidate epoch tiles)))
      (dom.apply (.invalidate epoch tiles)) := by
  simp only [QuOverlayDom.apply, QuOverlayState.apply, Wanted.next, mirrors.epoch]
  by_cases stale : wanted.epoch = some epoch
  swap
  · simpa [stale] using mirrors
  simp only [stale, ne_eq, not_true_eq_false, if_false, if_true]
  obtain ⟨canvas, run, cleared, kept⟩ := invalidate_actions dom.state tiles
    { dom with state := (dom.state.invalidate tiles).1 }
  rw [run, invalidate_state]
  refine ⟨stale.symm ▸ mirrors.epoch, mirrors.tileSize, mirrors.frameSize, mirrors.count,
    mirrors.pending, fun position => ?_⟩
  by_cases named : position ∈ tiles
  · refine .empty (if_pos named) (by simp [named]) fun px py inside => ?_
    by_cases held : position ∈ dom.state.applied
    · exact cleared px py ⟨position, named, held, (mirrors.rect position).symm ▸ inside⟩
    · have clear : dom.canvas px py = transparent := by
        cases mirrors.placed position with
        | empty latest unapplied clear => exact clear px py inside
        | awaited latest found own applied => exact absurd applied held
        | refused latest found unapplied clear => exact clear px py inside
        | drawn latest found applied picture => exact absurd applied held
      refine (kept px py ?_).trans clear
      rintro ⟨other, -, applied, within⟩
      rw [mirrors.rect] at within
      exact held (rect_apart within inside ▸ applied)
  · refine (mirrors.placed position).keep (if_neg named) (fun _ _ _ found _ => found) rfl
      (by simp [named]) fun px py inside => kept px py ?_
    rintro ⟨other, member, -, within⟩
    rw [mirrors.rect] at within
    exact named (rect_apart within inside ▸ member)

theorem Mirrors.apply (mirrors : Mirrors blend frame wanted dom) (msg : QuMessage) :
    Mirrors blend frame (wanted.next blend frame (.apply msg)) (dom.apply msg) := by
  cases msg with
  | config tileW tileH epoch => exact mirrors.config tileW tileH epoch
  | tile msg => exact mirrors.tile msg
  | invalidate epoch tiles => exact mirrors.invalidate epoch tiles
  | epoch epoch => exact mirrors.newEpoch epoch
  | other => exact mirrors

theorem drawTile_refused {tile : DrawTile} {bitmap : Option Bitmap}
    (refused : QuOverlayDom.checked blend tile bitmap = none) :
    QuOverlayDom.drawTile blend dom tile bitmap = dom.reject tile := by
  cases bitmap with
  | none => rfl
  | some bitmap => exact if_pos (by simpa [QuOverlayDom.checked] using refused)

theorem drawTile_valid {tile : DrawTile} {bitmap : Option Bitmap} {found : Bitmap}
    (valid : QuOverlayDom.checked blend tile bitmap = some found) :
    QuOverlayDom.drawTile blend dom tile bitmap =
      if tile.position ∉ dom.state.applied then dom
      else { dom with canvas := QuOverlayDom.drawImage blend dom found tile.rect.x tile.rect.y } := by
  obtain ⟨rfl, sum⟩ := Option.filter_eq_some_iff.mp valid
  exact if_neg (not_not_intro (of_decide_eq_true sum))

-- A bitmap that is no larger than a rectangle changes nothing outside of it.
theorem drawImage_outside {bitmap : Bitmap} {rect : Rect} {px py : Nat}
    (width : bitmap.width ≤ rect.w) (height : bitmap.height ≤ rect.h)
    (outside : ¬ rect.Contains px py) :
    QuOverlayDom.drawImage blend dom bitmap rect.x rect.y px py = dom.canvas px py := by
  apply if_neg
  rintro ⟨⟨⟨left, right⟩, top, bottom⟩, -⟩
  simp only at right bottom
  exact outside ⟨⟨left, by omega⟩, top, by omega⟩

theorem drawImage_covers {bitmap : Bitmap} {rect : Rect}
    (replaces : ∀ top bottom : Rgba, top.a = 255 → blend top bottom = top)
    (inFrame : ∀ px py, rect.Contains px py →
      px < dom.state.framePixelW ∧ py < dom.state.framePixelH)
    (covers : Covers bitmap rect dom.canvas) :
    Holds (QuOverlayDom.drawImage blend dom bitmap rect.x rect.y) rect
      (QuOverlayDom.image blend bitmap) := by
  intro px py inside
  have visible := inFrame px py inside
  obtain ⟨⟨left, right⟩, top, bottom⟩ := inside
  have here := covers (px - rect.x) (by omega) (py - rect.y) (by omega)
  rw [Nat.add_sub_cancel' left, Nat.add_sub_cancel' top] at here
  by_cases within : px - rect.x < bitmap.width ∧ py - rect.y < bitmap.height
  · have drawn : (Rect.mk rect.x rect.y bitmap.width bitmap.height).Contains px py := by
      refine ⟨⟨left, ?_⟩, top, ?_⟩ <;> simp only <;> omega
    rw [QuOverlayDom.drawImage, if_pos ⟨drawn, visible⟩, QuOverlayDom.image, if_pos within]
    rcases here with ⟨-, -, solid⟩ | clear
    · rw [replaces _ _ solid, replaces _ _ solid]
    · rw [clear]
  · have outside : ¬ (Rect.mk rect.x rect.y bitmap.width bitmap.height).Contains px py := by
      rintro ⟨⟨-, right⟩, -, bottom⟩
      simp only at right bottom
      exact within ⟨by omega, by omega⟩
    rw [QuOverlayDom.drawImage, if_neg (fun drawn => outside drawn.1), QuOverlayDom.image,
      if_neg within]
    exact here.resolve_left fun solid => within ⟨solid.1, solid.2.1⟩

theorem getElem?_settled (promise other : Nat) (bitmap : Option Bitmap) :
    (wanted.accepted.modify promise (Wanted.settled blend bitmap))[other]? =
      if promise = other then (wanted.accepted[other]?).map (Wanted.settled blend bitmap)
      else wanted.accepted[other]? := by
  rw [List.getElem?_modify]
  split_ifs with same
  · simp
  · simp

-- A tile that is settled stays as it is.
theorem settled_keeps {promise other : Nat} (bitmap : Option Bitmap) {accepted : Accepted}
    (found : wanted.accepted[other]? = some accepted)
    (apart : promise ≠ other ∨ accepted.result ≠ none) :
    (wanted.accepted.modify promise (Wanted.settled blend bitmap))[other]? = some accepted := by
  rw [getElem?_settled, found]
  split_ifs with same
  · obtain ⟨tile, result⟩ := accepted
    cases result with
    | none => simp [same] at apart
    | some result => rfl
  · rfl

-- The decode that is settled, and nothing else, is no longer pending.
theorem Mirrors.fewer (mirrors : Mirrors blend frame wanted dom) {decode : Decode}
    (found : dom.pending.find? (·.promise = decode.promise) = some decode)
    (bitmap : Option Bitmap) (other : Decode) :
    other ∈ dom.pending.filter (·.promise ≠ decode.promise) ↔
      (wanted.accepted.modify decode.promise (Wanted.settled blend bitmap))[other.promise]? =
        some ⟨other.tile, none⟩ := by
  rw [List.mem_filter, mirrors.pending, getElem?_settled]
  by_cases same : decode.promise = other.promise
  · have was := (mirrors.pending decode).mp (List.mem_of_find?_eq_some found)
    rw [← same, was]
    simp [Wanted.settled]
  · simp [same, Ne.symm same]

-- The positions the decode is not for.
theorem Mirrors.elsewhere (mirrors : Mirrors blend frame wanted dom) {decode : Decode}
    (member : decode ∈ dom.pending) (bitmap : Option Bitmap) {position : Nat × Nat}
    (apart : position ≠ decode.tile.position)
    (applied : position ∈ after.state.applied ↔ position ∈ dom.state.applied)
    (canvas : ∀ px py, (wanted.rect frame position).Contains px py →
      after.canvas px py = dom.canvas px py) :
    Placed blend frame (wanted.next blend frame (.settle decode.promise bitmap)) after position := by
  refine (mirrors.placed position).keep rfl (fun promise accepted _ found own => ?_) rfl applied
    canvas
  apply settled_keeps bitmap found
  by_contra! both
  have was := (mirrors.pending decode).mp member
  rw [both.1, found] at was
  rw [← own both.2, Option.some.inj was] at apart
  exact apart rfl

-- A position that shows nothing and goes on to do so.
theorem Mirrors.idle (mirrors : Mirrors blend frame wanted dom) {position : Nat × Nat}
    (unapplied : position ∉ dom.state.applied) (still : position ∉ after.state.applied)
    (canvas : ∀ px py, (wanted.rect frame position).Contains px py →
      after.canvas px py = transparent ∨ after.canvas px py = dom.canvas px py)
    (promise : Nat) (bitmap : Option Bitmap) :
    Placed blend frame (wanted.next blend frame (.settle promise bitmap)) after position := by
  have blank : Holds dom.canvas (wanted.rect frame position) (fun _ _ => transparent) →
      Holds after.canvas (wanted.rect frame position) fun _ _ => transparent := by
    intro clear px py inside
    rcases canvas px py inside with now | same
    · exact now
    · exact same.trans (clear px py inside)
  cases mirrors.placed position with
  | empty latest _ clear => exact .empty latest still (blank clear)
  | awaited latest found own applied => exact absurd applied unapplied
  | refused latest found _ clear =>
    exact .refused latest (settled_keeps bitmap found (Or.inr (by simp))) still (blank clear)
  | drawn latest found applied picture => exact absurd applied unapplied

variable {decode : Decode} {bitmap : Option Bitmap}

theorem Mirrors.settled_now (mirrors : Mirrors blend frame wanted dom)
    (member : decode ∈ dom.pending) (bitmap : Option Bitmap) :
    (wanted.next blend frame (.settle decode.promise bitmap)).accepted[decode.promise]? =
      some ⟨decode.tile, some (QuOverlayDom.checked blend decode.tile bitmap)⟩ := by
  have was := (mirrors.pending decode).mp member
  simp only [Wanted.next]
  rw [getElem?_settled, if_pos rfl, was]
  rfl

theorem Mirrors.awaited (mirrors : Mirrors blend frame wanted dom) {position : Nat × Nat}
    (member : decode ∈ dom.pending) (latest : wanted.latest position = some decode.promise) :
    decode.tile.position = position := by
  have was := (mirrors.pending decode).mp member
  cases mirrors.placed position with
  | empty none _ _ => simp [latest] at none
  | awaited some found own _ =>
    obtain rfl := Option.some.inj (latest.symm.trans some)
    rw [was] at found
    rw [← own, (Accepted.mk.inj (Option.some.inj found)).1]
  | refused some found _ _ =>
    obtain rfl := Option.some.inj (latest.symm.trans some)
    simp [was] at found
  | drawn some found _ _ =>
    obtain rfl := Option.some.inj (latest.symm.trans some)
    simp [was] at found

theorem Mirrors.refuse (mirrors : Mirrors blend frame wanted dom)
    (found : dom.pending.find? (·.promise = decode.promise) = some decode)
    (refused : QuOverlayDom.checked blend decode.tile bitmap = none)
    (grid : decode.tile.rect = wanted.rect frame decode.tile.position)
    (order : Latest wanted decode ∨ decode.tile.position ∉ dom.state.applied) :
    Mirrors blend frame (wanted.next blend frame (.settle decode.promise bitmap))
      (QuOverlayDom.reject { dom with pending := dom.pending.filter (·.promise ≠ decode.promise) }
        decode.tile) := by
  have member := List.mem_of_find?_eq_some found
  refine ⟨mirrors.epoch, mirrors.tileSize, mirrors.frameSize,
    mirrors.count.trans (List.length_modify ..).symm, mirrors.fewer found bitmap,
    fun position => ?_⟩
  by_cases own : position = decode.tile.position
  · subst own
    have clear : ∀ px py, (wanted.rect frame decode.tile.position).Contains px py →
        QuOverlayDom.clearRect dom.canvas decode.tile.rect px py = transparent := by
      intro px py inside
      exact if_pos (grid ▸ inside)
    rcases order with latest | unapplied
    · have now := mirrors.settled_now member bitmap
      rw [refused] at now
      exact .refused latest now (Finset.notMem_erase _ _) clear
    · exact mirrors.idle unapplied (Finset.notMem_erase _ _)
        (fun px py inside => Or.inl (clear px py inside)) _ _
  · refine mirrors.elsewhere member bitmap own ?_ fun px py inside => ?_
    · exact Finset.mem_erase.trans (and_iff_right own)
    · exact if_neg fun within => own (rect_apart inside (grid ▸ within))

-- A bitmap that comes when its position shows nothing is dropped.
theorem Mirrors.pass (mirrors : Mirrors blend frame wanted dom)
    (found : dom.pending.find? (·.promise = decode.promise) = some decode)
    (unapplied : decode.tile.position ∉ dom.state.applied) :
    Mirrors blend frame (wanted.next blend frame (.settle decode.promise bitmap))
      { dom with pending := dom.pending.filter (·.promise ≠ decode.promise) } := by
  refine ⟨mirrors.epoch, mirrors.tileSize, mirrors.frameSize,
    mirrors.count.trans (List.length_modify ..).symm, mirrors.fewer found bitmap,
    fun position => ?_⟩
  by_cases own : position = decode.tile.position
  · subst own
    refine mirrors.idle unapplied ?_ ?_ _ _
    · exact unapplied
    · exact fun _ _ _ => Or.inr rfl
  · exact mirrors.elsewhere (List.mem_of_find?_eq_some found) bitmap own Iff.rfl fun _ _ _ => rfl

theorem Mirrors.draw (mirrors : Mirrors blend frame wanted dom)
    (replaces : ∀ top bottom : Rgba, top.a = 255 → blend top bottom = top)
    (found : dom.pending.find? (·.promise = decode.promise) = some decode) {drawn : Bitmap}
    (valid : QuOverlayDom.checked blend decode.tile bitmap = some drawn)
    (applied : decode.tile.position ∈ dom.state.applied)
    (grid : decode.tile.rect = wanted.rect frame decode.tile.position)
    (width : drawn.width ≤ decode.tile.rect.w) (height : drawn.height ≤ decode.tile.rect.h)
    (order : Latest wanted decode ∧ Covers drawn decode.tile.rect dom.canvas ∨
      ¬ Latest wanted decode ∧ Awaited wanted decode.tile.position dom) :
    Mirrors blend frame (wanted.next blend frame (.settle decode.promise bitmap))
      { dom with
        pending := dom.pending.filter (·.promise ≠ decode.promise)
        canvas := QuOverlayDom.drawImage blend dom drawn decode.tile.rect.x decode.tile.rect.y } := by
  have member := List.mem_of_find?_eq_some found
  refine ⟨mirrors.epoch, mirrors.tileSize, mirrors.frameSize,
    mirrors.count.trans (List.length_modify ..).symm, mirrors.fewer found bitmap,
    fun position => ?_⟩
  by_cases own : position = decode.tile.position
  · subst own
    rcases order with ⟨latest, covers⟩ | ⟨stale, other, waiting, latest⟩
    · have now := mirrors.settled_now member bitmap
      rw [valid] at now
      have inFrame : ∀ px py, decode.tile.rect.Contains px py →
          px < dom.state.framePixelW ∧ py < dom.state.framePixelH := by
        intro px py inside
        have within := clipped_frame (grid ▸ inside)
        rwa [← mirrors.frameSize] at within
      have picture := drawImage_covers replaces inFrame covers
      have placed : Holds (QuOverlayDom.drawImage blend dom drawn decode.tile.rect.x
          decode.tile.rect.y) (wanted.rect frame decode.tile.position)
          (QuOverlayDom.image blend drawn) := grid ▸ picture
      exact .drawn latest now applied placed
    · have apart : decode.promise ≠ other.promise := fun same =>
        stale (latest.trans (congrArg some same.symm))
      have was := (mirrors.pending other).mp waiting
      exact .awaited latest (settled_keeps bitmap was (Or.inl apart))
        (mirrors.awaited waiting latest) applied
  · refine mirrors.elsewhere member bitmap own Iff.rfl fun px py inside => ?_
    apply drawImage_outside width height
    exact fun within => own (rect_apart inside (grid ▸ within))

theorem Mirrors.settle (mirrors : Mirrors blend frame wanted dom)
    (replaces : ∀ top bottom : Rgba, top.a = 255 → blend top bottom = top) (promise : Nat)
    (orderly : ∀ decode ∈ dom.pending.find? (·.promise = promise),
      InOrder frame wanted dom decode (QuOverlayDom.checked blend decode.tile bitmap)) :
    Mirrors blend frame (wanted.next blend frame (.settle promise bitmap))
      (dom.settle blend promise bitmap) := by
  unfold QuOverlayDom.settle
  cases found : dom.pending.find? (·.promise = promise) with
  | none =>
    -- The promise is unknown or settled: nothing is to be recorded.
    have same : wanted.accepted.modify promise (Wanted.settled blend bitmap) = wanted.accepted := by
      apply List.ext_getElem?
      intro other
      cases accepted : wanted.accepted[other]? with
      | none => rw [getElem?_settled, accepted, Option.map_none, ite_self]
      | some entry =>
        apply settled_keeps bitmap accepted
        by_contra! both
        obtain ⟨tile, result⟩ := entry
        obtain ⟨rfl, rfl⟩ := both
        have member := (mirrors.pending ⟨promise, tile⟩).mpr accepted
        have missing := List.find?_eq_none.mp found _ member
        simp at missing
    simpa [Wanted.next, same] using mirrors
  | some decode =>
    have number : decode.promise = promise := by simpa using List.find?_some found
    subst number
    have order := orderly decode found
    simp only
    cases checked : QuOverlayDom.checked blend decode.tile bitmap with
    | none =>
      rw [checked] at order
      rw [drawTile_refused checked]
      exact mirrors.refuse found checked order.1 order.2
    | some drawn =>
      rw [checked] at order
      rw [drawTile_valid checked]
      split_ifs with applied
      · obtain ⟨grid, ⟨width, height⟩, kind⟩ := order.resolve_left (not_not_intro applied)
        exact mirrors.draw replaces found checked applied grid width height kind
      · exact mirrors.pass found applied

theorem Mirrors.step {history : List Event}
    (mirrors : Mirrors blend frame (.after blend frame history) dom)
    (replaces : ∀ top bottom : Rgba, top.a = 255 → blend top bottom = top) {event : Event}
    (orderly : Orderly blend frame history dom event) :
    Mirrors blend frame (.after blend frame (history ++ (dom.step blend event).2))
      (dom.step blend event).1 := by
  have logged : ∀ event, Wanted.after blend frame (history ++ [event]) =
      (Wanted.after blend frame history).next blend frame event := by
    intro event
    rw [Wanted.after, List.foldl_append]
    rfl
  cases event with
  | apply msg =>
    simp only [QuOverlayDom.step, logged]
    exact mirrors.apply msg
  | settle promise bitmap =>
    simp only [QuOverlayDom.step, logged]
    exact mirrors.settle replaces promise orderly

theorem mirrors_new (blend : Rgba → Rgba → Rgba) (frame : Nat × Nat) :
    Mirrors blend frame (.after blend frame []) (.new frame.1 frame.2) :=
  ⟨rfl, rfl, rfl, rfl, fun _ => by simp [QuOverlayDom.new, Wanted.after, Wanted.new],
    fun _ => .empty rfl (Finset.notMem_empty _) fun _ _ _ => rfl⟩

/-- In every run whose decodes are settled in order, whenever no decode is pending every rectangle
of the grid shows the tile that was last accepted for it, if that tile is valid and was not
invalidated, and nothing otherwise. -/
theorem run_shows_latest_tiles (blend : Rgba → Rgba → Rgba)
    (replaces : ∀ top bottom : Rgba, top.a = 255 → blend top bottom = top) (frame : Nat × Nat)
    (events : List Event)
    (orderly : Runs.Along (QuOverlayDom.step blend) (Orderly blend frame) []
      (.new frame.1 frame.2) events) :
    let ran := Runs.run (QuOverlayDom.step blend) (.new frame.1 frame.2) events
    Shows blend frame (.after blend frame ran.2) ran.1 := by
  have mirrors := Runs.run_invariant (QuOverlayDom.step blend) (Orderly blend frame)
    (fun history dom => Mirrors blend frame (.after blend frame history) dom)
    (fun _ _ _ mirrors orderly => mirrors.step replaces orderly) [] _ events
    (mirrors_new blend frame) orderly
  exact mirrors.shows

-- A pixel that lets nothing or everything through.
def layered (top bottom : Rgba) : Rgba := if top.a = 0 then bottom else top

def onePixel (color : Rgba) : Bitmap := ⟨1, 1, fun _ _ => color⟩

def red : Rgba := ⟨255, 0, 0, 255⟩

def blue : Rgba := ⟨0, 0, 255, 255⟩

-- A tile of one pixel of this color.
def pixelTile (position : Nat × Nat) (color : Rgba) : QuTileMsg :=
  ⟨1, position, crc32 [color.b, color.g, color.r, color.a], [color.r, color.b]⟩

-- A red tile and a blue one for the same position, which are decoded in this order, then one
-- beside them that cannot be decoded.
def tilesInOrder : List Event :=
  [.apply (.config 1 1 1), .apply (.tile (pixelTile (0, 0) red)),
    .apply (.tile (pixelTile (0, 0) blue)), .settle 0 (some (onePixel red)),
    .settle 1 (some (onePixel blue)), .apply (.tile (pixelTile (1, 0) red)), .settle 2 none]

theorem run_shows_latest_tiles_in_order :
    Runs.Along (QuOverlayDom.step layered) (Orderly layered (2, 1)) [] (.new 2 1) tilesInOrder ∧
      Shows layered (2, 1)
        (.after layered (2, 1) (Runs.run (QuOverlayDom.step layered) (.new 2 1) tilesInOrder).2)
        (Runs.run (QuOverlayDom.step layered) (.new 2 1) tilesInOrder).1 := by
  have replaces : ∀ top bottom : Rgba, top.a = 255 → layered top bottom = top := by
    intro top bottom solid
    exact if_neg (by rw [solid]; decide)
  have orderly : Runs.Along (QuOverlayDom.step layered) (Orderly layered (2, 1)) [] (.new 2 1)
      tilesInOrder := by decide +kernel
  exact ⟨orderly, run_shows_latest_tiles layered replaces (2, 1) tilesInOrder orderly⟩

-- The same two tiles, the blue one decoded first.
def redDecodedLast : List Event :=
  [.apply (.config 1 1 1), .apply (.tile (pixelTile (0, 0) red)),
    .apply (.tile (pixelTile (0, 0) blue)), .settle 1 (some (onePixel blue)),
    .settle 0 (some (onePixel red))]

theorem red_decoded_last_stays :
    (Runs.run (QuOverlayDom.step layered) (.new 1 1) redDecodedLast).1.pending.length = 0 ∧
      (Runs.run (QuOverlayDom.step layered) (.new 1 1) redDecodedLast).1.canvas 0 0 = red ∧
      ¬ Shows layered (1, 1)
        (.after layered (1, 1) (Runs.run (QuOverlayDom.step layered) (.new 1 1) redDecodedLast).2)
        (Runs.run (QuOverlayDom.step layered) (.new 1 1) redDecodedLast).1 := by
  have idle : (Runs.run (QuOverlayDom.step layered) (.new 1 1) redDecodedLast).1.pending.length =
      0 := by decide +kernel
  have painted : (Runs.run (QuOverlayDom.step layered) (.new 1 1) redDecodedLast).1.canvas 0 0 =
      red := by decide +kernel
  refine ⟨idle, painted, fun shows => ?_⟩
  have here := shows (List.eq_nil_of_length_eq_zero idle) (0, 0) 0 0 (by decide +kernel)
  rw [painted] at here
  exact absurd here (by decide +kernel)

end Mirrors

end QuOverlay

end Web

end BetterParsec
