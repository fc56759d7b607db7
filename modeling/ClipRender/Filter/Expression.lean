set_option autoImplicit false

/-!
Expressions that the engine evaluates for each input frame.
-/

namespace ClipRender.Filter

inductive FrameSize where
  | inWidth
  | inHeight
  | outWidth
  | outHeight
deriving DecidableEq

def FrameSize.name : FrameSize → String
  | .inWidth => "iw"
  | .inHeight => "ih"
  | .outWidth => "out_w"
  | .outHeight => "out_h"

inductive Expression where
  | number (n : Int)
  | size (which : FrameSize)
  | sub (a b : Expression)
  | mul (a b : Expression)
  | div (a b : Expression)
  | trunc (a : Expression)
  /-- The third if the first is greater than the second, else the fourth. -/
  | ifGreater (a b yes no : Expression)
deriving DecidableEq

namespace Expression

def enclosed (needed : Bool) (s : String) : String := if needed then "(" ++ s ++ ")" else s

/-- The text as a whole at level 0, as a factor at level 1, and as the right side of a product or
quotient at level 2. Operators of one rank group to the left. -/
def textAt (level : Nat) : Expression → String
  | .number n => toString n
  | .size which => which.name
  | .sub a b => enclosed (0 < level) (textAt 0 a ++ "-" ++ textAt 1 b)
  | .mul a b => enclosed (1 < level) (textAt 1 a ++ "*" ++ textAt 2 b)
  | .div a b => enclosed (1 < level) (textAt 1 a ++ "/" ++ textAt 2 b)
  | .trunc a => "trunc(" ++ textAt 0 a ++ ")"
  | .ifGreater a b yes no =>
    "if(gt(" ++ textAt 0 a ++ "," ++ textAt 0 b ++ ")," ++ textAt 0 yes ++ "," ++ textAt 0 no ++ ")"

def text (e : Expression) : String := textAt 0 e

end Expression

end ClipRender.Filter
