import ArbutusEngine.Model.Layers

/-!
# The preview of the layers

`Engine::drawLayersPreview` draws the layers as the tiles of a grid. The position of the next tile
is kept in two variables, and a test at the end of each turn begins a new row. What the tiles show
and the labels are left out: a call of `Layer::draw` is recorded with its arguments.

## Main definitions

* `Tile`, `PreviewProg`: what is drawn, and programs that draw.
* `Engine.drawTiles`, `Engine.drawLayersPreview`.
-/

open Exec

namespace ArbutusEngine

/-- A call of `Layer::draw` on the layer at a position of the list. -/
structure Tile where
  layer : ℕ
  x : Int32
  y : Int32
  width : Int32
  height : Int32
  deriving DecidableEq

/-- Programs of the engine that draw. -/
abbrev PreviewProg : Type → Type := Exec (EngineState × List Tile) Thrown Undefined

namespace Layer

/-- `Layer::draw` on the layer that `Layers::get` returns for a position. -/
def draw (n : ℕ) (x y width height : Int32) : PreviewProg Unit := do
  let _ ← (read n).alongside id
  modify fun s => (s.1, s.2 ++ [⟨n, x, y, width, height⟩])

end Layer

namespace Engine

/-- `layersPreview_Columns`. -/
def layersPreviewColumns : UInt32 := 3

/-- The loop of `Engine::drawLayersPreview`, which draws the tile `f` at `(x1, y1)`. -/
def drawTiles (x layerPreviewWidth layerPreviewHeight : UInt32) :
    List ℕ → UInt32 → UInt32 → PreviewProg Unit
  | [], _, _ => pure ()
  | f :: rest, x1, y1 => do
    Layer.draw (f + 1) x1.toInt32 y1.toInt32 layerPreviewWidth.toInt32 layerPreviewHeight.toInt32
    if (f + 1) % layersPreviewColumns.toNat = 0 then
      drawTiles x layerPreviewWidth layerPreviewHeight rest x (y1 + layerPreviewHeight)
    else
      drawTiles x layerPreviewWidth layerPreviewHeight rest (x1 + layerPreviewWidth) y1

/-- `layerPreviewWidth`: `floor((float) width / (float) layersPreview_Columns)`. -/
def layerPreviewWidth (width : Int32) : UInt32 :=
  (Int32.ofInt ((width.toInt : ℚ) / layersPreviewColumns.toNat).floor).toUInt32

/-- `resizeAmount`, a quotient of two integers. -/
def resizeAmount (p : EngineProperties) (width : Int32) : UInt32 :=
  p.mixerWidth / layerPreviewWidth width

/-- `layerPreviewHeight`, the quotient of an integer by `resizeAmount`, which is a `float`. -/
def layerPreviewHeight (p : EngineProperties) (resizeAmount : UInt32) : UInt32 :=
  floatToUnsigned ((p.mixerHeight.toNat : ℚ) / resizeAmount.toNat)

/-- `Engine::drawLayersPreview`. Dividing by a `float` that is zero gives an infinity, whose
conversion to an integer is not defined. -/
def drawLayersPreview (h : Host) (x y width maxNumLayers : Int32) : PreviewProg Unit := do
  let count := Layers.count (← gets Prod.fst)
  let p ← (EngineProperties.getInstance h).alongside id
  if layerPreviewWidth width = 0 then undefined .divisionByZero
  else do
    let resizeAmount := resizeAmount p width
    let p ← (EngineProperties.getInstance h).alongside id
    if resizeAmount = 0 then undefined .divisionByZero
    else do
      let layersToDraw := if count > maxNumLayers.toUInt32 then maxNumLayers.toUInt32 else count
      drawTiles x.toUInt32 (layerPreviewWidth width) (layerPreviewHeight p resizeAmount)
        (List.range layersToDraw.toNat) x.toUInt32 y.toUInt32

end Engine

end ArbutusEngine
