import BeamOptics.Lattice.Element

/-!
# Transfer maps

The linear map and the constant kick of a slice of an element. Both are given for the length `ds` of the slice.
-/

namespace BeamOptics

/-- The map of one transverse plane. -/
@[ext]
structure Block (α : Type) where
  xx : α
  xp : α
  px : α
  pp : α
  deriving DecidableEq, Repr

section

variable {α : Type} [Scalar α]

/-- The solution of `x'' = -k x` over a length: focusing, defocusing, or a drift. -/
def focusing (k ds : α) : Except MathFault (Block α) :=
  if Scalar.lt 0 k then do
    let w := Scalar.sqrt k
    let c ← Scalar.cos (w * ds)
    let s ← Scalar.sin (w * ds)
    pure ⟨c, s / w, -w * s, c⟩
  else if Scalar.lt k 0 then do
    let w := Scalar.sqrt (-k)
    let c ← Scalar.cosh (w * ds)
    let s ← Scalar.sinh (w * ds)
    pure ⟨c, s / w, w * s, c⟩
  else pure ⟨1, ds, 0, 1⟩

/-- What a bend adds to the two planes: dispersion into `x` and `xp`, and the path length in `ct` by `x`, `xp`
and `dp`. A longer path gives a negative `ct`. -/
@[ext]
structure Dispersion (α : Type) where
  x : α
  xp : α
  ctX : α
  ctXp : α
  ctDp : α

/-- Dispersion of a slice with curvature `h` and horizontal focusing `kx`, whose horizontal block is given. -/
def dispersion (h kx ds : α) (block : Block α) : Except MathFault (Dispersion α) :=
  let c := block.xx
  let s := block.xp
  if Scalar.beq kx 0 then do
    let cubed ← Scalar.cube ds
    pure {
      x := h * ds * ds / Scalar.two
      xp := h * s
      ctX := -h * s
      ctXp := -h * ds * ds / Scalar.two
      ctDp := -h * h * cubed / Scalar.six }
  else pure {
      x := h * (1 - c) / kx
      xp := h * s
      ctX := -h * s
      ctXp := -h * (1 - c) / kx
      ctDp := -h * h * (ds - s) / kx }

namespace TransferMap

def drift (ds : α) : TransferMap α where
  x := ⟨1, ds, 0, 0, 0, 0⟩
  xp := ⟨0, 1, 0, 0, 0, 0⟩
  y := ⟨0, 0, 1, ds, 0, 0⟩
  yp := ⟨0, 0, 0, 1, 0, 0⟩
  ct := ⟨0, 0, 0, 0, 1, 0⟩
  dp := ⟨0, 0, 0, 0, 0, 1⟩

/-- Two planes that do not mix. -/
def ofBlocks (horizontal vertical : Block α) : TransferMap α where
  x := ⟨horizontal.xx, horizontal.xp, 0, 0, 0, 0⟩
  xp := ⟨horizontal.px, horizontal.pp, 0, 0, 0, 0⟩
  y := ⟨0, 0, vertical.xx, vertical.xp, 0, 0⟩
  yp := ⟨0, 0, vertical.px, vertical.pp, 0, 0⟩
  ct := ⟨0, 0, 0, 0, 1, 0⟩
  dp := ⟨0, 0, 0, 0, 0, 1⟩

/-- Two planes with the dispersion of a bend. -/
def ofBend (horizontal vertical : Block α) (d : Dispersion α) : TransferMap α where
  x := ⟨horizontal.xx, horizontal.xp, 0, 0, 0, d.x⟩
  xp := ⟨horizontal.px, horizontal.pp, 0, 0, 0, d.xp⟩
  y := ⟨0, 0, vertical.xx, vertical.xp, 0, 0⟩
  yp := ⟨0, 0, vertical.px, vertical.pp, 0, 0⟩
  ct := ⟨d.ctX, d.ctXp, 0, 0, 1, d.ctDp⟩
  dp := ⟨0, 0, 0, 0, 0, 1⟩

def quadrupole (k1 ds : α) : Except MathFault (TransferMap α) := do
  let horizontal ← focusing k1 ds
  let vertical ← focusing (-k1) ds
  pure (ofBlocks horizontal vertical)

def bend (h k1 ds : α) : Except MathFault (TransferMap α) := do
  let kx := h * h + k1
  let horizontal ← focusing kx ds
  let vertical ← focusing (-k1) ds
  let d ← dispersion h kx ds horizontal
  pure (ofBend horizontal vertical d)

end TransferMap

namespace Element

/-- Linear map of a slice. -/
def transferMap (e : Element α) (ds : α) : Except MathFault (TransferMap α) :=
  match e.optics with
  | .plain | .marker => .ok .identity
  | .drift | .corrector .. | .monitor .. => .ok (.drift ds)
  | .quadrupole k1 => TransferMap.quadrupole k1 ds
  | .bend _ k1 => TransferMap.bend e.curvature k1 ds
  | .map matrix _ => .ok matrix

/-- Share of a corrector's kick that a slice gives; a thin corrector gives all of it. -/
def kickShare (e : Element α) (ds : α) : α := if Scalar.beq e.length 0 then 1 else ds / e.length

/-- Constant kick of a slice, for a corrector at the given strength. -/
def kick (e : Element α) (strength ds : α) : PhaseVector α :=
  match e.optics with
  | .corrector .x _ => { (0 : PhaseVector α) with xp := strength * e.kickShare ds }
  | .corrector .y _ => { (0 : PhaseVector α) with yp := strength * e.kickShare ds }
  | .map _ kick => kick
  | _ => 0

end Element

end

end BeamOptics
