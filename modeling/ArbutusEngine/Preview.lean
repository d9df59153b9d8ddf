import ArbutusEngine.Model.Commands
import ArbutusEngine.Model.Preview
import Mathlib.Data.Rat.Floor

/-!
# The grid of the preview

The loop of `Engine::drawLayersPreview` computes the places of its tiles right: the test at the end
of a turn keeps the two variables at the column and at the row of the next tile. But the layer of a
tile is the one after the tile's own, as if layers were counted from one, so that there is none for
the last tile where every layer is to be drawn.

The height of a tile is found with two divisions, of which the first divides by the width of a tile
and the second one by the result of the first.

## Main definitions

* `Engine.PreviewDraws`: what the preview is meant to draw.

## Main results

* `Engine.drawTiles_eq`: what the loop draws.
* `Engine.drawTiles_undefined`: the layer of the last tile is missing.
* `preview_draws_iff`: the calls that draw what they are meant to.
-/

open Exec

namespace ArbutusEngine

namespace Engine

/-! ### The loop -/

section Tiles

variable {x y w ht : UInt32}

/-- The tile that the loop draws for an index. -/
def tileAt (x y w ht : UInt32) (f : ℕ) : Tile where
  layer := f + 1
  x := (x + UInt32.ofNat (f % 3) * w).toInt32
  y := (y + UInt32.ofNat (f / 3) * ht).toInt32
  width := w.toInt32
  height := ht.toInt32

theorem draw_run {s : EngineState} {n : ℕ} {layer : Layer} (hlayer : s.layersList[n]? = some layer)
    (tiles : List Tile) (x y w ht : Int32) :
    Layer.draw n x y w ht (s, tiles) = .ok () (s, tiles ++ [⟨n, x, y, w, ht⟩]) := by
  simp only [Layer.draw, bind_run, alongside, Layer.read, hlayer, ofOption, pure_run,
    Outcome.bind_ok, modify_run, id_eq]

theorem draw_run_none {s : EngineState} {n : ℕ} (hlayer : s.layersList[n]? = none)
    (tiles : List Tile) (x y w ht : Int32) :
    Layer.draw n x y w ht (s, tiles) = .undefined .nullPointer := by
  simp only [Layer.draw, bind_run, alongside, Layer.read, hlayer, ofOption, undefined_run]
  rfl

/-- One more turn moves to the next column or to the next row. -/
theorem next_tile (x y w ht : UInt32) (f : ℕ) :
    (if (f + 1) % layersPreviewColumns.toNat = 0 then (x, y + UInt32.ofNat (f / 3) * ht + ht)
      else (x + UInt32.ofNat (f % 3) * w + w, y + UInt32.ofNat (f / 3) * ht)) =
      (x + UInt32.ofNat ((f + 1) % 3) * w, y + UInt32.ofNat ((f + 1) / 3) * ht) := by
  have hcolumns : layersPreviewColumns.toNat = 3 := rfl
  rw [hcolumns]
  split_ifs with hrow
  · have hdiv : (f + 1) / 3 = f / 3 + 1 := by omega
    rw [hrow, hdiv, UInt32.ofNat_add, UInt32.add_mul, UInt32.add_assoc]
    simp
  · have hmod : (f + 1) % 3 = f % 3 + 1 := by omega
    have hdiv : (f + 1) / 3 = f / 3 := by omega
    rw [hmod, hdiv, UInt32.ofNat_add, UInt32.add_mul, UInt32.add_assoc]
    simp

/-- A turn of the loop, at the place of its tile. -/
theorem drawTiles_cons (x y w ht : UInt32) (f : ℕ) (rest : List ℕ) :
    drawTiles x w ht (f :: rest) (x + UInt32.ofNat (f % 3) * w) (y + UInt32.ofNat (f / 3) * ht) =
      (do
        Layer.draw (f + 1) (tileAt x y w ht f).x (tileAt x y w ht f).y w.toInt32 ht.toInt32
        drawTiles x w ht rest (x + UInt32.ofNat ((f + 1) % 3) * w)
          (y + UInt32.ofNat ((f + 1) / 3) * ht)) := by
  have hnext := next_tile x y w ht f
  rw [drawTiles]
  refine congrArg (Layer.draw _ _ _ _ _ >>= ·) (funext fun _ => ?_)
  split_ifs at hnext ⊢ with hrow <;>
  · obtain ⟨hx, hy⟩ := Prod.mk.inj hnext
    rw [← hx, ← hy]

/-- Where there is a layer for every tile, the tiles are drawn at their places. -/
theorem drawTiles_eq {s : EngineState} (x y w ht : UInt32) (k f : ℕ) (tiles : List Tile)
    (hlayers : ∀ g < f + k, g + 1 < s.layersList.length) :
    drawTiles x w ht (List.range' f k) (x + UInt32.ofNat (f % 3) * w)
        (y + UInt32.ofNat (f / 3) * ht) (s, tiles) =
      .ok () (s, tiles ++ (List.range' f k).map (tileAt x y w ht)) := by
  induction k generalizing f tiles with
  | zero => simp [drawTiles]
  | succ k ih =>
    have hlayer := List.getElem?_eq_getElem (hlayers f (by omega))
    have hrest := ih (f + 1) (tiles ++ [tileAt x y w ht f]) fun g hg => hlayers g (by omega)
    rw [List.append_assoc, List.singleton_append] at hrest
    rw [List.range'_succ, drawTiles_cons, bind_run, draw_run hlayer, Outcome.bind_ok, List.map_cons]
    exact hrest

/-- Where the layer of the last tile is missing, its pointer is `NULL`. -/
theorem drawTiles_undefined {s : EngineState} (x y w ht : UInt32) (k f : ℕ) (tiles : List Tile)
    (hlayer : s.layersList.length ≤ f + k + 1) :
    drawTiles x w ht (List.range' f (k + 1)) (x + UInt32.ofNat (f % 3) * w)
        (y + UInt32.ofNat (f / 3) * ht) (s, tiles) = .undefined .nullPointer := by
  induction k generalizing f tiles with
  | zero =>
    rw [List.range'_succ, drawTiles_cons, bind_run,
      draw_run_none (List.getElem?_eq_none hlayer)]
    rfl
  | succ k ih =>
    rw [List.range'_succ, drawTiles_cons, bind_run]
    by_cases hf : f + 1 < s.layersList.length
    · rw [draw_run (List.getElem?_eq_getElem hf), Outcome.bind_ok]
      exact ih (f + 1) _ (by omega)
    · rw [draw_run_none (List.getElem?_eq_none (not_lt.mp hf))]
      rfl

end Tiles

/-! ### The sizes of a tile -/

theorem toNat_layerPreviewWidth (width : Int32) :
    (layerPreviewWidth width).toNat = (width.toInt / 3 % 2 ^ 32).toNat := by
  have hfloor : ((width.toInt : ℚ) / (3 : ℕ)).floor = width.toInt / 3 :=
    Rat.floor_intCast_div_natCast width.toInt 3
  have hcolumns : layersPreviewColumns.toNat = 3 := rfl
  rw [layerPreviewWidth, hcolumns, hfloor]
  exact BitVec.toNat_ofInt _

/-- The two divisions are defined for widths from three to `1922`. -/
theorem divisions_defined_iff (h : Host) (p : EngineProperties) (width : Int32) :
    layerPreviewWidth width ≠ 0 ∧ resizeAmount (p.setDefaults h) width ≠ 0 ↔
      3 ≤ width.toInt ∧ width.toInt ≤ 1922 := by
  have hlt := width.toInt_lt
  have hle := width.le_toInt
  have hmixer : (p.setDefaults h).mixerWidth.toNat = 640 := rfl
  have hne : ∀ n : UInt32, n ≠ 0 ↔ n.toNat ≠ 0 := fun n => not_congr UInt32.toNat_inj.symm
  rw [resizeAmount, hne, hne, UInt32.toNat_div, hmixer, toNat_layerPreviewWidth,
    Nat.div_ne_zero_iff]
  omega

/-! ### The preview -/

/-- The number of tiles of the preview. -/
def layersToDraw (maxNumLayers : Int32) (s : EngineState) : UInt32 :=
  if Layers.count s > maxNumLayers.toUInt32 then maxNumLayers.toUInt32 else Layers.count s

theorem layersToDraw_eq_zero_iff {maxNumLayers : Int32} {s : EngineState} :
    layersToDraw maxNumLayers s = 0 ↔ Layers.count s = 0 ∨ maxNumLayers = 0 := by
  have hmax : maxNumLayers.toUInt32 = 0 ↔ maxNumLayers = 0 :=
    ⟨fun h => congrArg Int32.ofUInt32 h, fun h => h ▸ rfl⟩
  rw [layersToDraw, ← hmax]
  split_ifs with hlt
  · have hne : Layers.count s ≠ 0 := by
      intro h
      exact absurd (h ▸ hlt) UInt32.not_lt_zero
    simp [hne]
  · constructor
    · exact .inl
    · rintro (h | h)
      · exact h
      · rw [h] at hlt
        exact UInt32.toNat_inj.mp (Nat.le_zero.mp (UInt32.not_lt.mp hlt))

/-- The width of a tile. -/
def tileWidth (width : Int32) : UInt32 := layerPreviewWidth width

/-- The height of a tile, for the size of the mixer that the engine properties are reset to. -/
def tileHeight (h : Host) (width : Int32) (s : EngineState) : UInt32 :=
  layerPreviewHeight (s.properties.setDefaults h) (resizeAmount (s.properties.setDefaults h) width)

/-- The preview is drawn without a fault: the layers in their order, each at its place in the
grid, and nothing else. -/
def PreviewDraws (h : Host) (x y width maxNumLayers : Int32) (s : EngineState) : Prop :=
  ∃ t tiles, drawLayersPreview h x y width maxNumLayers (s, []) = .ok () (t, tiles) ∧
    tiles.length = min (Layers.count s).toNat maxNumLayers.toInt.toNat ∧
    ∀ f tile, tiles[f]? = some tile →
      let w : ℤ := (tileWidth width).toNat
      let ht : ℤ := (tileHeight h width s).toNat
      let columns := layersPreviewColumns.toNat
      tile.layer = f ∧ tile.width.toInt = w ∧ tile.height.toInt = ht ∧
        tile.x.toInt = x.toInt + (f % columns : ℕ) * w ∧
        tile.y.toInt = y.toInt + (f / columns : ℕ) * ht

theorem getInstance_run (h : Host) (s : EngineState) (tiles : List Tile) :
    (EngineProperties.getInstance h).alongside id (s, tiles) =
      .ok (s.properties.setDefaults h)
        ({ s with properties := s.properties.setDefaults h }, tiles) := rfl

/-- The preview, once its divisions are seen to be defined. -/
theorem drawLayersPreview_eq (h : Host) (x y maxNumLayers : Int32) (s : EngineState)
    {width : Int32} (hwidth : 3 ≤ width.toInt ∧ width.toInt ≤ 1922) :
    ∃ t : EngineState, t.layersList = s.layersList ∧
      drawLayersPreview h x y width maxNumLayers (s, []) =
        drawTiles x.toUInt32 (tileWidth width) (tileHeight h width s)
          (List.range' 0 (layersToDraw maxNumLayers s).toNat)
          (x.toUInt32 + UInt32.ofNat (0 % 3) * tileWidth width)
          (y.toUInt32 + UInt32.ofNat (0 / 3) * tileHeight h width s) (t, []) := by
  obtain ⟨hw, hresize⟩ := (divisions_defined_iff h s.properties width).mpr hwidth
  refine ⟨{ s with properties := s.properties.setDefaults h }, rfl, ?_⟩
  have hx : ∀ n w : UInt32, n + UInt32.ofNat 0 * w = n := fun n w => by simp
  rw [Nat.zero_mod, Nat.zero_div, hx, hx, ← List.range_eq_range']
  simp only [drawLayersPreview, bind_run, gets_run, Outcome.bind_ok, getInstance_run, if_neg hw,
    if_neg hresize]
  rfl

/-- Outside of these widths one of the divisions is by zero. -/
theorem drawLayersPreview_undefined {h : Host} {x y width maxNumLayers : Int32} {s : EngineState}
    (hwidth : ¬(3 ≤ width.toInt ∧ width.toInt ≤ 1922)) :
    drawLayersPreview h x y width maxNumLayers (s, []) = .undefined .divisionByZero := by
  rw [← divisions_defined_iff h s.properties width, not_and_or, not_not, not_not] at hwidth
  simp only [drawLayersPreview, bind_run, gets_run, Outcome.bind_ok, getInstance_run]
  by_cases hw : layerPreviewWidth width = 0
  · simp only [if_pos hw, undefined_run]
  · have hresize := hwidth.resolve_left hw
    simp only [if_neg hw, if_pos hresize, bind_run, undefined_run, getInstance_run, Outcome.bind_ok]

/-- Where a tile is drawn, either the last layer is missing or the first tile shows the second
layer. -/
theorem first_tile_shifted {s t : EngineState} {tiles : List Tile} {x y w ht : UInt32} {k : ℕ}
    (hk : k ≠ 0)
    (hrun : drawTiles x w ht (List.range' 0 k) (x + UInt32.ofNat (0 % 3) * w)
      (y + UInt32.ofNat (0 / 3) * ht) (s, []) = .ok () (t, tiles)) :
    ∃ tile, tiles[0]? = some tile ∧ tile.layer = 1 := by
  obtain ⟨k, rfl⟩ := Nat.exists_eq_succ_of_ne_zero hk
  by_cases hlast : s.layersList.length ≤ 0 + k + 1
  · rw [drawTiles_undefined x y w ht k 0 [] hlast] at hrun
    cases hrun
  · rw [drawTiles_eq x y w ht (k + 1) 0 [] fun g hg => by omega] at hrun
    obtain rfl : ([] : List Tile) ++ _ = tiles := congrArg Prod.snd (Outcome.ok.inj hrun).2
    exact ⟨tileAt x y w ht 0, by simp [List.range'_succ], rfl⟩

end Engine

open Engine in
/-- The preview draws the layers as it is meant to exactly if there is no layer to be drawn and the
width lets the two divisions be made. -/
theorem preview_draws_iff (h : Host) (x y width maxNumLayers : Int32) (s : EngineState) :
    PreviewDraws h x y width maxNumLayers s ↔
      (Layers.count s = 0 ∨ maxNumLayers = 0) ∧ 3 ≤ width.toInt ∧ width.toInt ≤ 1922 := by
  constructor
  · rintro ⟨t, tiles, hrun, -, htiles⟩
    have hwidth : 3 ≤ width.toInt ∧ width.toInt ≤ 1922 := by
      by_contra hwidth
      rw [drawLayersPreview_undefined hwidth] at hrun
      cases hrun
    refine ⟨?_, hwidth⟩
    by_contra hdraws
    have hk : (layersToDraw maxNumLayers s).toNat ≠ 0 := fun hk =>
      hdraws (layersToDraw_eq_zero_iff.mp (UInt32.toNat_inj.mp hk))
    obtain ⟨u, -, heq⟩ := drawLayersPreview_eq h x y maxNumLayers s hwidth
    obtain ⟨tile, htile, hlayer⟩ := first_tile_shifted hk (heq.symm.trans hrun)
    have hfirst := (htiles 0 tile htile).1
    omega
  · rintro ⟨hnone, hwidth⟩
    obtain ⟨u, -, heq⟩ := drawLayersPreview_eq h x y maxNumLayers s hwidth
    rw [layersToDraw_eq_zero_iff.mpr hnone] at heq
    refine ⟨u, [], heq, ?_, fun f tile htile => absurd htile (by simp)⟩
    rcases hnone with hcount | rfl
    · simp [hcount]
    · simp

/-- A set with one layer, and a preview of the width of the mixer. -/
theorem preview_misses_layer : ∃ s : EngineState, s.Reachable ∧ Layers.count s = 1 ∧
    ¬Engine.PreviewDraws .plain 0 0 640 6 s := by
  obtain ⟨s, hs, hcount, hfault⟩ : ∃ s : EngineState, s.Reachable ∧ Layers.count s = 1 ∧
      (Engine.drawLayersPreview .plain 0 0 640 6 (s, [])).final?.isNone = true :=
    exists_reaches [(Host.plain, .newSet 640 480 1)] (by decide +kernel)
  refine ⟨s, hs, hcount, ?_⟩
  rintro ⟨t, tiles, hrun, -⟩
  rw [hrun] at hfault
  exact Bool.noConfusion hfault

end ArbutusEngine
