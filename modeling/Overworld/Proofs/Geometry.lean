import Mathlib.Data.Set.Function
import Overworld.Proofs.RoundTrip
import Overworld.Proofs.Validity

/-!
Tiles, cells and pixels.

The cells of a valid map are its tiles, row by row: the tile of a cell is found by division by the
width, and no two tiles share a cell (`TileMap.Valid.index?_eq_some_iff`). The pixels of the world
are shared out among the tiles in the same way, also to the left of the map and above it, where the
coordinates are negative and division has to round down.
-/

namespace Overworld

namespace TileMap

/-- A tile lies on the map. -/
def Contains (m : TileMap) (t : Tile) : Prop :=
  0 ≤ t.x ∧ t.x < m.width ∧ 0 ≤ t.y ∧ t.y < m.height

/-- The tile of a cell. -/
def tileAt (m : TileMap) (i : Nat) : Tile := ⟨i % m.width, i / m.width⟩

/-- A pixel lies on a tile. -/
def Covers (m : TileMap) (t : Tile) (p : Pixel) : Prop :=
  t.x * m.grid ≤ p.x ∧ p.x < (t.x + 1) * m.grid ∧ t.y * m.grid ≤ p.y ∧ p.y < (t.y + 1) * m.grid

variable {m : TileMap} {t : Tile} {p : Pixel} {i : Nat}

/-! ### Tiles and cells -/

/-- A tile has a place exactly if it lies on the map. -/
theorem index?_eq_some_iff_contains :
    m.index? t = some i ↔ m.Contains t ∧ (i : Int) = t.y * m.width + t.x := by
  unfold index? Contains
  constructor
  · intro is
    split at is
    · exact nomatch is
    · rename_i inside
      cases is
      refine ⟨by omega, ?_⟩
      rw [Int.natCast_add, Int.natCast_mul, Int.toNat_of_nonneg (by omega),
        Int.toNat_of_nonneg (by omega), Int.toNat_of_nonneg (by omega)]
  · rintro ⟨inside, is⟩
    rw [if_neg (by omega)]
    congr 1
    have place : ((t.y.toNat * m.width.toNat + t.x.toNat : Nat) : Int) = i := by
      rw [Int.natCast_add, Int.natCast_mul, Int.toNat_of_nonneg (by omega),
        Int.toNat_of_nonneg (by omega), Int.toNat_of_nonneg (by omega), is]
    exact Int.ofNat_inj.mp place

theorem index?_eq_none (outside : ¬m.Contains t) : m.index? t = none := by
  cases is : m.index? t with
  | none => rfl
  | some i => exact absurd (index?_eq_some_iff_contains.mp is).1 outside

theorem Contains.exists_index? (inside : m.Contains t) : ∃ i, m.index? t = some i := by
  have width : 0 ≤ m.width := by
    have := inside.2.1
    have := inside.1
    omega
  have place : 0 ≤ t.y * m.width + t.x :=
    Int.add_nonneg (Int.mul_nonneg inside.2.2.1 width) inside.1
  exact ⟨_, index?_eq_some_iff_contains.mpr ⟨inside, Int.toNat_of_nonneg place⟩⟩

namespace Valid

variable (valid : m.Valid)
include valid

/-- The tile of a cell lies on the map. -/
theorem contains_tileAt (cell : i < m.cells.length) : m.Contains (m.tileAt i) := by
  have area := valid.area
  have width : 0 < m.width := by
    rcases Int.lt_or_eq_of_le valid.width with some | none
    · exact some
    · rw [← none, Int.zero_mul] at area
      omega
  have row : (i : Int) < m.height * m.width := by
    rw [Int.mul_comm, ← area]
    omega
  exact ⟨Int.emod_nonneg _ (by omega), Int.emod_lt_of_pos _ width,
    Int.ediv_nonneg (by omega) (by omega), Int.ediv_lt_of_lt_mul width row⟩

/-- Every cell is that of one tile. -/
theorem index?_eq_some_iff : m.index? t = some i ↔ i < m.cells.length ∧ m.tileAt i = t := by
  constructor
  · intro is
    refine ⟨valid.index_lt is, ?_⟩
    obtain ⟨⟨left, right, -, -⟩, place⟩ := index?_eq_some_iff_contains.mp is
    have width : 0 < m.width := by omega
    have sum : t.x + m.width * t.y = i := by rw [place, Int.mul_comm, Int.add_comm]
    obtain ⟨row, column⟩ := (Int.ediv_emod_unique width).mpr ⟨sum, left, right⟩
    simp only [tileAt, row, column]
  · rintro ⟨cell, rfl⟩
    apply index?_eq_some_iff_contains.mpr
    refine ⟨valid.contains_tileAt cell, ?_⟩
    simp only [tileAt]
    rw [Int.mul_comm, Int.mul_ediv_add_emod]

/-- The places of the tiles are the numbers of the cells. -/
theorem bijOn_index? : Set.BijOn m.index? {t | m.Contains t} (some '' {i | i < m.cells.length}) := by
  refine ⟨?_, ?_, ?_⟩
  · intro t inside
    obtain ⟨i, is⟩ := Contains.exists_index? inside
    exact ⟨i, valid.index_lt is, is.symm⟩
  · intro t inside t' inside' same
    obtain ⟨i, is⟩ := Contains.exists_index? inside
    have tile := (valid.index?_eq_some_iff.mp is).2
    rw [same] at is
    rw [← tile, (valid.index?_eq_some_iff.mp is).2]
  · rintro _ ⟨i, cell, rfl⟩
    exact ⟨m.tileAt i, valid.contains_tileAt cell, valid.index?_eq_some_iff.mpr ⟨cell, rfl⟩⟩

/-- A tile is free if its cell is not blocked. -/
theorem blocked_eq_false_iff :
    m.blocked t = false ↔ m.Contains t ∧ ∃ i, m.index? t = some i ∧ m.cells[i]? = some 0 := by
  constructor
  · intro free
    unfold blocked at free
    cases is : m.index? t with
    | none =>
      rw [is] at free
      cases free
    | some i =>
      have cell := List.getElem?_eq_getElem (valid.index_lt is)
      simp only [is, cell, beq_eq_false_iff_ne] at free
      refine ⟨(index?_eq_some_iff_contains.mp is).1, i, rfl, ?_⟩
      rcases valid.cells _ (List.getElem_mem (valid.index_lt is)) with zero | one
      · rw [cell, zero]
      · exact absurd one free
  · rintro ⟨-, i, is, cell⟩
    simp [blocked, is, cell]

end Valid

/-! ### Tiles and pixels -/

/-- A coordinate of a pixel lies on the tile that division finds, and on no other. -/
theorem covers_iff (sized : 0 < m.grid) :
    m.Covers t p ↔ t = ⟨p.x / m.grid, p.y / m.grid⟩ := by
  have along (n q : Int) : q * m.grid ≤ n ∧ n < (q + 1) * m.grid ↔ q = n / m.grid := by
    rw [eq_comm, Int.ediv_eq_iff_of_pos sized, Int.add_mul, Int.one_mul]
  cases t
  rw [Covers, Tile.mk.injEq, ← along, ← along, and_assoc]

/-- The tile of a coordinate is no further away from the origin than the coordinate. -/
theorem quotient_bounds {n q grid : Int} (sized : 0 < grid) (low : q * grid ≤ n)
    (high : n < (q + 1) * grid) : min 0 n ≤ q ∧ q ≤ max 0 n := by
  rcases Int.lt_or_le q 0 with negative | positive
  · have near : (q + 1) * grid ≤ (q + 1) * 1 :=
      Int.mul_le_mul_of_nonpos_left (by omega) (by omega)
    omega
  · have near : q * 1 ≤ q * grid := Int.mul_le_mul_of_nonneg_left sized positive
    omega

theorem tileOf?_eq_some_iff (sized : 0 < m.grid) : m.tileOf? p = some t ↔ m.Covers t p := by
  rw [covers_iff sized, tileOf?, if_neg (by omega), Option.some.injEq, eq_comm]

end TileMap

/-! ### The law of tiles -/

/-- How the tiles of a map go with its cells and with the pixels of the world. -/
structure TileMap.Tiled (m : TileMap) : Prop where
  /-- Every tile of the map has a cell of its own, and no cell is left over. -/
  cells : Set.BijOn m.index? {t | m.Contains t} (some '' {i | i < m.cells.length})
  outside {t : Tile} (outside : ¬m.Contains t) : m.index? t = none
  /-- Free are the tiles of the map with a cell of zero. -/
  free (t : Tile) :
    m.blocked t = false ↔ m.Contains t ∧ ∃ i, m.index? t = some i ∧ m.cells[i]? = some 0
  /-- The corner of a tile lies on it, -/
  corner (t : Tile) : m.tileOf? (m.pixelOf t) = some t
  /-- and every pixel lies on the tile that is found for it, and on no other. -/
  pixels (p : Pixel) : ∃ t, m.tileOf? p = some t ∧ ∀ other, m.Covers other p ↔ other = t
  /-- If the size of the map has 32 bits, 64 are enough to number the cells, -/
  numbered {i : Nat} (width : Number.Within32 m.width) (height : Number.Within32 m.height)
    (cell : i < m.cells.length) : i < Number.word64
  /-- and a tile has 32 bits if a pixel of it has. -/
  within {t : Tile} {p : Pixel} (is : m.tileOf? p = some t) (x : Number.Within32 p.x)
    (y : Number.Within32 p.y) : Number.Within32 t.x ∧ Number.Within32 t.y

/-- Maps without anything in the way can be made exactly in the sizes that there are. -/
structure TileMap.ClearsExactly (width height grid : Int) : Prop where
  made : (∃ m, clear width height grid = .ok m) ↔ 0 ≤ width ∧ 0 ≤ height ∧ 0 < grid
  sound {m : TileMap} (is : clear width height grid = .ok m) :
    m.fault? = none ∧ m.width = width ∧ m.height = height ∧ m.grid = grid
  free {m : TileMap} (is : clear width height grid = .ok m) {t : Tile} (inside : m.Contains t) :
    m.blocked t = false

namespace TileMap

theorem Valid.tiled {m : TileMap} (valid : m.Valid) : m.Tiled := by
  have sized := valid.grid
  constructor
  case cells => exact valid.bijOn_index?
  case outside => exact fun outside => index?_eq_none outside
  case free => exact fun t => valid.blocked_eq_false_iff
  case corner => exact tileOf?_pixelOf sized
  case pixels =>
    intro p
    exact ⟨_, if_neg (by omega), fun other => covers_iff sized⟩
  case numbered =>
    intro i width height cell
    have area := valid.area
    have most : m.width * m.height ≤ 2147483647 * 2147483647 :=
      Int.mul_le_mul width.2 height.2 valid.height (by decide)
    unfold Number.word64
    omega
  case within =>
    intro t p is x y
    obtain ⟨left, right, above, below⟩ := (tileOf?_eq_some_iff sized).mp is
    have across := quotient_bounds sized left right
    have down := quotient_bounds sized above below
    unfold Number.Within32 at *
    omega

/-- A map without anything in the way is valid if it has a size. -/
theorem valid_replicate_iff {width height grid : Int} :
    (⟨width, height, grid, List.replicate (width.toNat * height.toNat) 0, []⟩ : TileMap).Valid ↔
      0 ≤ width ∧ 0 ≤ height ∧ 0 < grid := by
  constructor
  · intro valid
    exact ⟨valid.width, valid.height, valid.grid⟩
  · rintro ⟨width', height', grid'⟩
    refine ⟨width', height', grid', ?_, ?_⟩
    · rw [List.length_replicate, Int.natCast_mul, Int.toNat_of_nonneg width',
        Int.toNat_of_nonneg height']
    · intro cell mem
      exact .inl (List.eq_of_mem_replicate mem)

theorem make_eq_ok_iff {width height grid : Int} {cells : List Nat} {m : TileMap} :
    make width height grid cells = .ok m ↔ m = ⟨width, height, grid, cells, []⟩ ∧ m.Valid := by
  rw [← fault?_eq_none_iff]
  unfold make
  constructor
  · intro made
    cases is : (⟨width, height, grid, cells, []⟩ : TileMap).fault? with
    | some e => simp [is] at made
    | none =>
      simp only [is, Except.ok.injEq] at made
      subst made
      exact ⟨rfl, is⟩
  · rintro ⟨rfl, is⟩
    simp [is]

theorem clearsExactly (width height grid : Int) : ClearsExactly width height grid := by
  constructor
  case made =>
    constructor
    · rintro ⟨m, is⟩
      obtain ⟨rfl, valid⟩ := make_eq_ok_iff.mp is
      exact valid_replicate_iff.mp valid
    · intro sized
      exact ⟨_, make_eq_ok_iff.mpr ⟨rfl, valid_replicate_iff.mpr sized⟩⟩
  case sound =>
    intro m is
    obtain ⟨rfl, valid⟩ := make_eq_ok_iff.mp is
    exact ⟨fault?_eq_none_iff.mpr valid, rfl, rfl, rfl⟩
  case free =>
    intro m is t inside
    obtain ⟨rfl, valid⟩ := make_eq_ok_iff.mp is
    obtain ⟨i, place⟩ := Contains.exists_index? inside
    refine valid.blocked_eq_false_iff.mpr ⟨inside, i, place, ?_⟩
    have cell := valid.index_lt place
    rw [List.length_replicate] at cell
    exact List.getElem?_replicate_of_lt cell

end TileMap

/-- **A map is its tiles.** In a map with which nothing is wrong the tiles go with the cells, one to
one, and are free where their cells are zero; the pixels of the world are shared out among the tiles;
and a map without anything in the way can be made in every size that is one, with nothing in the
way. -/
theorem tiled_of_sound (m : TileMap) (width height grid : Int) :
    (m.fault? = none → m.Tiled) ∧ TileMap.ClearsExactly width height grid :=
  ⟨fun sound => (TileMap.fault?_eq_none_iff.mp sound).tiled, TileMap.clearsExactly width height grid⟩

/-- A pond in a meadow, and a pixel to the left of both. -/
theorem tiled_of_sound_pond :
    let pond : TileMap := ⟨3, 2, 16, [0, 0, 1, 0, 0, 0], []⟩
    pond.fault? = none ∧ pond.Tiled ∧ pond.blocked ⟨2, 0⟩ = true ∧ pond.blocked ⟨0, 1⟩ = false ∧
      pond.tileOf? ⟨-1, 47⟩ = some ⟨-1, 2⟩ ∧ TileMap.ClearsExactly 3 2 16 := by
  intro pond
  have sound : pond.fault? = none := by decide
  have law := tiled_of_sound pond 3 2 16
  exact ⟨sound, law.1 sound, by decide, by decide, by decide, law.2⟩

end Overworld
