import Overworld.Camera
import Overworld.Entity
import Overworld.Session

/-!
The arithmetic of machine words.

What is played is computed with numbers of any size. Here the same is computed with words of 32 and
64 bits, where every operation can fail: an action on words (`Word.lift`, `Word.compute`) halts
without a reason of its own where a result has no place. For the points of a map this comes to a few
numbers that have to fit (`TileMap.Draws`), and where they fit for two corners they fit for all
between them.
-/

namespace Overworld

namespace Word

/-! ### Results with a place -/

/-- A number that 32 bits with a sign hold. -/
def Signed32 (n : Int) : Prop := -2147483648 ≤ n ∧ n ≤ 2147483647

instance (n : Int) : Decidable (Signed32 n) := inferInstanceAs (Decidable (_ ∧ _))

/-- A result in 32 bits with a sign. There is none when it does not fit. -/
def signed32? (n : Int) : Option Int := if Signed32 n then some n else none

/-- A result in 64 bits with a sign. -/
def signed64? (n : Int) : Option Int :=
  if -9223372036854775808 ≤ n ∧ n ≤ 9223372036854775807 then some n else none

/-- A result in 32 bits. -/
def unsigned32? (n : Nat) : Option Nat := if n < Number.word32 then some n else none

/-- A result in 64 bits. -/
def unsigned64? (n : Nat) : Option Nat := if n < Number.word64 then some n else none

/-- A difference of numbers without a sign. -/
def minus? (n m : Nat) : Option Nat := if m ≤ n then some (n - m) else none

/-- A truncated quotient, for which there must be something to divide by. -/
def quotient? (n d : Int) : Option Int := if d = 0 then none else signed64? (n.tdiv d)

theorem signed32?_eq {n : Int} (fits : Signed32 n) : signed32? n = some n := if_pos fits

/-- Between two numbers of 32 bits all are. -/
theorem Signed32.between {a b n : Int} (first : Signed32 a) (last : Signed32 b)
    (on : min a b ≤ n ∧ n ≤ max a b) : Signed32 n := by
  unfold Signed32 at *
  omega

/-- A point with coordinates of 32 bits. -/
def point? (x y : Int) : Option Pixel := do
  let x ← signed32? x
  let y ← signed32? y
  return ⟨x, y⟩

theorem point?_eq {x y : Int} (fits : Signed32 x ∧ Signed32 y) : point? x y = some ⟨x, y⟩ := by
  simp only [point?, signed32?_eq fits.1, signed32?_eq fits.2, Option.bind_eq_bind,
    Option.bind_some, Option.pure_def]

/-! ### Actions on words -/

section

variable {ε σ α β : Type}

/-- An action as one that computes with words. -/
def lift (act : EStateM ε σ α) : EStateM (Option ε) σ α := EStateM.adaptExcept some act

/-- A result with a place. -/
def compute : Option α → EStateM (Option ε) σ α
  | some a => pure a
  | none => throw none

theorem compute_some (a : α) : (compute (some a) : EStateM (Option ε) σ α) = pure a := rfl

theorem lift_eq_ok_iff {x : EStateM ε σ α} {s t : σ} {a : α} :
    lift x s = .ok a t ↔ x s = .ok a t := by
  unfold lift EStateM.adaptExcept
  cases x s <;> simp

theorem lift_pure (a : α) : lift (pure a : EStateM ε σ α) = pure a := rfl

theorem lift_congr {x y : EStateM ε σ α} {s : σ} (same : x s = y s) : lift x s = lift y s := by
  unfold lift EStateM.adaptExcept
  rw [same]

/-- What goes on words as before may be followed by what goes on words as before. -/
theorem bind_lift {x : EStateM ε σ α} {y : EStateM (Option ε) σ α} {f : α → EStateM ε σ β}
    {g : α → EStateM (Option ε) σ β} {s : σ} (first : y s = lift x s)
    (rest : ∀ a t, x s = .ok a t → g a t = lift (f a) t) : (y >>= g) s = lift (x >>= f) s := by
  change EStateM.bind y g s = EStateM.adaptExcept some (EStateM.bind x f) s
  unfold EStateM.bind lift EStateM.adaptExcept at *
  dsimp only
  cases is : x s with
  | ok a t =>
    simp only [first, is]
    exact rest a t is
  | error e t => simp only [first, is]

theorem lift_bind (x : EStateM ε σ α) (f : α → EStateM ε σ β) :
    lift (x >>= f) = lift x >>= fun a => lift (f a) := by
  funext s
  change EStateM.adaptExcept some (EStateM.bind x f) s =
    EStateM.bind (EStateM.adaptExcept some x) (fun a => EStateM.adaptExcept some (f a)) s
  unfold EStateM.bind EStateM.adaptExcept
  dsimp only
  cases x s <;> rfl

end

end Word

open Word

/-- Play on words. It also ends where a result has no place. -/
abbrev WordPlay := EStateM (Option Halt) Session

/-! ### Points of a map -/

namespace TileMap

/-- The corner of a tile. -/
def pixelOfOnWords? (m : TileMap) (t : Tile) : Option Pixel := point? (t.x * m.grid) (t.y * m.grid)

/-- The middle of the map, counted from its top left corner. -/
def middleOnWords? (m : TileMap) : Option Pixel := do
  let width ← signed32? m.pixelWidth
  let height ← signed32? m.pixelHeight
  return ⟨width.tdiv 2, height.tdiv 2⟩

end TileMap

/-- The tile a step away. -/
def Tile.stepOnWords? (t : Tile) (d : Direction) : Option Tile := do
  let x ← signed32? (t.x + d.offset.1)
  let y ← signed32? (t.y + d.offset.2)
  return ⟨x, y⟩

namespace ScrollBounds

/-- The bounds of the camera on a map. -/
def ofMapOnWords? (map : TileMap) (config : Config) : Option ScrollBounds := do
  let middle ← map.middleOnWords?
  let x ← signed32? (middle.x - config.screenWidth.tdiv 2)
  let y ← signed32? (middle.y - config.screenHeight.tdiv 2)
  let left ← signed32? (-x)
  let top ← signed32? (-y)
  return ⟨left, x, top, y⟩

/-- Where the camera follows an entity. -/
def followingOnWords? (bounds : ScrollBounds) (map : TileMap) (corner : Pixel) : Option Pixel := do
  let middle ← map.middleOnWords?
  let p ← point? (corner.x - middle.x) (corner.y - middle.y)
  return bounds.clamp p

end ScrollBounds

/-- The middle of a sprite in the world. -/
def worldPositionOnWords? (map : TileMap) (corner : Pixel) (sheet : SpriteSheet) : Option Pixel := do
  let middle ← map.middleOnWords?
  let p ← point? (corner.x - middle.x) (corner.y - middle.y)
  point? (p.x + sheet.width.tdiv 2) (p.y + sheet.height.tdiv 2)

/-! ### What has to fit -/

/-- A map whose size in pixels has 32 bits. -/
def TileMap.Measured (m : TileMap) : Prop := Signed32 m.pixelWidth ∧ Signed32 m.pixelHeight

instance (m : TileMap) : Decidable m.Measured := inferInstanceAs (Decidable (_ ∧ _))

/-- A tile whose corner has 32 bits. -/
def TileMap.Reaches (m : TileMap) (t : Tile) : Prop :=
  Signed32 (m.pixelOf t).x ∧ Signed32 (m.pixelOf t).y

instance (m : TileMap) (t : Tile) : Decidable (m.Reaches t) := inferInstanceAs (Decidable (_ ∧ _))

/-- A corner on a map at which an entity with this sheet is drawn on words: the corner has 32 bits,
and so have its distances to the middle of the map and the middle of the sprite in the world. -/
structure TileMap.Draws (m : TileMap) (sheet : SpriteSheet) (p : Pixel) : Prop where
  corner : Signed32 p.x ∧ Signed32 p.y
  middle : Signed32 (p.x - m.pixelWidth.tdiv 2) ∧ Signed32 (p.y - m.pixelHeight.tdiv 2)
  sprite : Signed32 (p.x - m.pixelWidth.tdiv 2 + sheet.width.tdiv 2) ∧
    Signed32 (p.y - m.pixelHeight.tdiv 2 + sheet.height.tdiv 2)

instance (m : TileMap) (sheet : SpriteSheet) (p : Pixel) : Decidable (m.Draws sheet p) :=
  decidable_of_iff (_ ∧ _ ∧ _)
    ⟨fun ⟨corner, middle, sprite⟩ => ⟨corner, middle, sprite⟩,
      fun draws => ⟨draws.corner, draws.middle, draws.sprite⟩⟩

section

variable {map : TileMap} {sheet : SpriteSheet} {config : Config}

theorem TileMap.middleOnWords?_eq (measured : map.Measured) :
    map.middleOnWords? = some ⟨map.pixelWidth.tdiv 2, map.pixelHeight.tdiv 2⟩ := by
  simp only [middleOnWords?, signed32?_eq measured.1, signed32?_eq measured.2, Option.bind_eq_bind,
    Option.bind_some, Option.pure_def]

theorem TileMap.pixelOfOnWords?_eq {tile : Tile} (reaches : map.Reaches tile) :
    map.pixelOfOnWords? tile = some (map.pixelOf tile) :=
  point?_eq reaches

theorem Tile.stepOnWords?_eq {tile : Tile} {d : Direction}
    (fits : Signed32 (tile.step d).x ∧ Signed32 (tile.step d).y) :
    tile.stepOnWords? d = some (tile.step d) := by
  unfold Tile.step at fits
  simp only [stepOnWords?, signed32?_eq fits.1, signed32?_eq fits.2, Option.bind_eq_bind,
    Option.bind_some, Option.pure_def, Tile.step]

/-- Half a number, rounded toward zero. -/
theorem Word.half_bounds (n : Int) :
    (0 ≤ n → 2 * n.tdiv 2 ≤ n ∧ n ≤ 2 * n.tdiv 2 + 1) ∧
      (n ≤ 0 → n ≤ 2 * n.tdiv 2 ∧ 2 * n.tdiv 2 ≤ n + 1) := by
  constructor
  · intro positive
    rw [Int.tdiv_eq_ediv_of_nonneg positive]
    omega
  · intro negative
    have half : n.tdiv 2 = -(-n / 2) := by
      rw [← Int.tdiv_eq_ediv_of_nonneg (by omega), Int.neg_tdiv, Int.neg_neg]
    omega

/-- The bounds fit for every screen and map of 32 bits. -/
theorem ScrollBounds.ofMapOnWords?_eq (measured : map.Measured)
    (size : 0 ≤ map.pixelWidth ∧ 0 ≤ map.pixelHeight)
    (screen : Signed32 config.screenWidth ∧ Signed32 config.screenHeight) :
    ofMapOnWords? map config = some (ofMap map config) := by
  have half (size extent : Int) (fits : Signed32 size) (positive : 0 ≤ size)
      (narrow : Signed32 extent) :
      Signed32 (size.tdiv 2 - extent.tdiv 2) ∧ Signed32 (-(size.tdiv 2 - extent.tdiv 2)) := by
    have := half_bounds size
    have := half_bounds extent
    unfold Signed32 at *
    omega
  have x := half _ _ measured.1 size.1 screen.1
  have y := half _ _ measured.2 size.2 screen.2
  simp only [ofMapOnWords?, map.middleOnWords?_eq measured, signed32?_eq x.1, signed32?_eq x.2,
    signed32?_eq y.1, signed32?_eq y.2, Option.bind_eq_bind, Option.bind_some, Option.pure_def, ofMap]

namespace TileMap.Draws

variable {p q : Pixel}

theorem followingOnWords?_eq (draws : map.Draws sheet p) (measured : map.Measured)
    (bounds : ScrollBounds) :
    bounds.followingOnWords? map p = some (bounds.following map p) := by
  simp only [ScrollBounds.followingOnWords?, map.middleOnWords?_eq measured,
    point?_eq draws.middle, Option.bind_eq_bind, Option.bind_some, Option.pure_def,
    ScrollBounds.following]

theorem worldPositionOnWords?_eq (draws : map.Draws sheet p) (measured : map.Measured) :
    worldPositionOnWords? map p sheet = some (worldPosition (some map) p sheet) := by
  simp only [worldPositionOnWords?, map.middleOnWords?_eq measured, point?_eq draws.middle,
    point?_eq draws.sprite, Option.bind_eq_bind, Option.bind_some, worldPosition, Option.map_some,
    Option.getD_some]

end TileMap.Draws

end

end Overworld
