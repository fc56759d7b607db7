import ClipRender.Filter.Expression
import ClipRender.Filter.Ratio

set_option autoImplicit false

/-!
Cropping a frame around its centre to an aspect ratio: as expressions for the engine, which knows
the frame's size only while it runs, and as the box for a known size. Both sides of the box are
even.
-/

namespace ClipRender.Filter.Crop

open Expression

def evenPart (e : Expression) : Expression := .mul (.trunc (.div e (.number 2))) (.number 2)

def ifWider (ratio : Ratio) (wider taller : Expression) : Expression :=
  .ifGreater (.div (.size .inWidth) (.size .inHeight))
    (.div (.number ratio.width) (.number ratio.height)) wider taller

def scaled (which : FrameSize) (num den : Int) : Expression :=
  .div (.mul (.size which) (.number num)) (.number den)

def width (ratio : Ratio) : Expression :=
  ifWider ratio (evenPart (scaled .inHeight ratio.width ratio.height)) (evenPart (.size .inWidth))

def height (ratio : Ratio) : Expression :=
  ifWider ratio (evenPart (.size .inHeight)) (evenPart (scaled .inWidth ratio.height ratio.width))

def margin (whole part : FrameSize) : Expression :=
  .div (.sub (.size whole) (.size part)) (.number 2)

/-- Commas would split the chain of filters. -/
def escapeCommas (s : String) : String :=
  String.ofList (s.toList.flatMap fun c => if c = ',' then ['\\', c] else [c])

def render (ratio : Ratio) : String :=
  "crop=" ++ escapeCommas (width ratio).text ++ ":" ++ escapeCommas (height ratio).text ++ ":"
    ++ (margin .inWidth .outWidth).text ++ ":" ++ (margin .inHeight .outHeight).text

structure Box where
  width : Int
  height : Int
  x : Int
  y : Int
deriving DecidableEq

def number (n : Int) : Except Failure Binary64 :=
  let x := Binary64.ofInt n
  if x.isFinite then .ok x else .error .wholeTooLarge

def quotient (x y : Binary64) : Except Failure Binary64 :=
  if Binary64.eq y Binary64.zero then .error (.divisionByZero false) else .ok (x / y)

def wholeQuotient (a b : Int) : Except Failure Binary64 :=
  if b = 0 then .error (.divisionByZero true)
  else
    let q := Binary64.ofQuotient a b
    if q.isFinite then .ok q else .error .quotientTooLarge

def wholePart (x : Binary64) : Except Failure Int := x.truncate.mapError .noWhole

def two : Binary64 := Binary64.ofNat 2

def evenPartOf (x : Binary64) : Except Failure Int := do
  let half ← wholePart (x / two)
  return half * 2

def scaleBy (x : Binary64) (num den : Int) : Except Failure Binary64 := do
  let n ← number num
  let d ← number den
  quotient (x * n) d

def marginOf (whole : Binary64) (part : Int) : Except Failure Int := do
  let p ← number part
  wholePart ((whole - p) / two)

def size (ratio : Ratio) (iw ih : Binary64) : Except Failure (Int × Int) := do
  let frame ← quotient iw ih
  let wanted ← wholeQuotient ratio.width ratio.height
  if Binary64.lt wanted frame then do
    let w ← scaleBy ih ratio.width ratio.height >>= evenPartOf
    let h ← evenPartOf ih
    return (w, h)
  else do
    let w ← evenPartOf iw
    let h ← scaleBy iw ratio.height ratio.width >>= evenPartOf
    return (w, h)

def resolve (ratio : Ratio) (sourceWidth sourceHeight : Int) : Except Failure Box := do
  let iw ← number sourceWidth
  let ih ← number sourceHeight
  let (w, h) ← size ratio iw ih
  let x ← marginOf iw w
  let y ← marginOf ih h
  return ⟨w, h, x, y⟩

end ClipRender.Filter.Crop
