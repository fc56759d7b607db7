import ClipRender.Binary64.Arithmetic
import ClipRender.Decimal.Literal
import ClipRender.Filter.Expression
import ClipRender.Filter.Reading

set_option autoImplicit false

/-!
How the engine reads and evaluates the formulas in the arguments of a filter, as far as cropping
needs them: whole numbers, sizes of the frame, differences, products and quotients that group to the
left, and calls. One character is read at a time, without looking back.
-/

namespace ClipRender.Filter

inductive Formula where
  | number (n : Nat)
  | size (which : FrameSize)
  | sub (a b : Formula)
  | mul (a b : Formula)
  | div (a b : Formula)
  | trunc (a : Formula)
  /-- One if the first is greater than the second, else zero. -/
  | greater (a b : Formula)
  /-- The second if the first is not zero, else the third. -/
  | choose (condition a b : Formula)
deriving DecidableEq

def wholeNumber : Binary64 → Binary64
  | .finite negative rank _ =>
    .ofUnits negative (Binary64.unitsAt rank / Binary64.unitsPerOne * Binary64.unitsPerOne) 1
  | x => x

namespace Formula

def eval (sizes : FrameSize → Binary64) : Formula → Binary64
  | .number n => .ofNat n
  | .size which => sizes which
  | .sub a b => a.eval sizes - b.eval sizes
  | .mul a b => a.eval sizes * b.eval sizes
  | .div a b => a.eval sizes / b.eval sizes
  | .trunc a => wholeNumber (a.eval sizes)
  | .greater a b => if Binary64.lt (b.eval sizes) (a.eval sizes) then Binary64.one else Binary64.zero
  | .choose condition a b =>
    if Binary64.eq (condition.eval sizes) Binary64.zero then b.eval sizes else a.eval sizes

/-- What letters and digits stand for: a number if all are digits, else a size. -/
def word? (cs : List Char) : Option Formula :=
  if cs.all Char.isDigit then some (.number (Decimal.digitsValue cs))
  else
    ([FrameSize.inWidth, .inHeight, .outWidth, .outHeight].find? fun which =>
      which.name.toList = cs).map Formula.size

def call? (name : List Char) (arguments : List Formula) : Option Formula :=
  if name = "trunc".toList then
    match arguments with
    | [a] => some (.trunc a)
    | _ => none
  else if name = "gt".toList then
    match arguments with
    | [a, b] => some (.greater a b)
    | _ => none
  else if name = "if".toList then
    match arguments with
    | [condition, a, b] => some (.choose condition a b)
    | _ => none
  else none

/-- A bracket that is not closed yet, with what stands before it. -/
structure Bracket where
  /-- What the term that the bracket belongs to goes into. -/
  sum : Formula → Formula
  /-- What the bracket itself goes into, as a factor of that term. -/
  product : Formula → Formula
  /-- Nothing if the bracket only groups. -/
  name : List Char
  arguments : List Formula

def Bracket.close? (bracket : Bracket) (last : Formula) : Option Formula :=
  if bracket.name = [] then some last else call? bracket.name (bracket.arguments ++ [last])

structure Reading where
  /-- What the next term goes into. -/
  sum : Formula → Formula
  /-- What the next factor of the term goes into. -/
  product : Formula → Formula
  /-- The letters and digits read since the last other character. -/
  word : List Char
  /-- What a closed bracket stands for, with the factors before it. -/
  closed : Option Formula
  opened : List Bracket

namespace Reading

def await (sum product : Formula → Formula) (opened : List Bracket) : Reading :=
  ⟨sum, product, [], none, opened⟩

def operand? (r : Reading) : Option Formula :=
  match r.closed with
  | some f => some f
  | none => if r.word = [] then none else (word? r.word).map r.product

def total? (r : Reading) : Option Formula := r.operand?.map r.sum

/-- A comma ends an argument, and a bracket that only groups has none. -/
def nextArgument? (r : Reading) (argument : Formula) : Option Reading :=
  match r.opened with
  | [] => none
  | bracket :: rest =>
    if bracket.name = [] then none
    else some (await id id ({ bracket with arguments := bracket.arguments ++ [argument] } :: rest))

def close? (r : Reading) (last : Formula) : Option Reading :=
  match r.opened with
  | [] => none
  | bracket :: rest =>
    (bracket.close? last).map fun f => ⟨bracket.sum, id, [], some (bracket.product f), rest⟩

def step? (r : Reading) (c : Char) : Option Reading :=
  if Argument.isNameChar c then
    if r.closed.isSome then none else some { r with word := r.word ++ [c] }
  else if c = '(' then
    if r.closed.isSome then none
    else some (await id id (⟨r.sum, r.product, r.word, []⟩ :: r.opened))
  else if c = '-' then r.total?.map fun f => await (.sub f) id r.opened
  else if c = '*' then r.operand?.map fun f => await r.sum (.mul f) r.opened
  else if c = '/' then r.operand?.map fun f => await r.sum (.div f) r.opened
  else if c = ',' then r.total?.bind r.nextArgument?
  else if c = ')' then r.total?.bind r.close?
  else none

def steps? (r : Reading) (cs : List Char) : Option Reading := cs.foldlM step? r

end Reading

def read? (s : String) : Option Formula := do
  let r ← (Reading.await id id []).steps? s.toList
  if r.opened.isEmpty then r.total? else none

end Formula

structure Region where
  width : Binary64
  height : Binary64
  x : Binary64
  y : Binary64

/-- Sizes that are not known yet are no numbers. -/
def frameSizes (iw ih outWidth outHeight : Binary64) : FrameSize → Binary64
  | .inWidth => iw
  | .inHeight => ih
  | .outWidth => outWidth
  | .outHeight => outHeight

/-- The crop that a chain of one filter asks for in a frame of the given size. The place of the crop
may depend on its size. -/
def cropRegion? (chain : String) (iw ih : Binary64) : Option Region :=
  match Call.readChain? chain.toList with
  | some [⟨"crop", [⟨none, width⟩, ⟨none, height⟩, ⟨none, x⟩, ⟨none, y⟩]⟩] => do
    let width ← Formula.read? width
    let height ← Formula.read? height
    let x ← Formula.read? x
    let y ← Formula.read? y
    let w := width.eval (frameSizes iw ih .nan .nan)
    let h := height.eval (frameSizes iw ih w .nan)
    let sizes := frameSizes iw ih w h
    return ⟨w, h, x.eval sizes, y.eval sizes⟩
  | _ => none

end ClipRender.Filter
