import DriverTracker.Driver

namespace DriverTracker.Lsp

open DriverTracker.Syntax DriverTracker.Driver

/-- Modelled from the spec: the number of bits of a packed type. -/
def width : Ty → Nat
  | .logic => 1
  | .packedArray left right elem => ((left - right).natAbs + 1) * width elem

/-- Modelled from the spec: the position of element `i` of a packed dimension `[left:right]`,
counted from its right end, when `i` lies in the dimension. -/
def elementOffset (left right i : Int) : Option Nat :=
  if min left right ≤ i ∧ i ≤ max left right then
    some (if right ≤ left then (i - right).toNat else (right - i).toNat)
  else none

/-- Modelled from the spec: `LSPUtilities::getBounds` of a longest static prefix, with the type of
what it selects: a value covers all its bits, and a select with constant indices of a packed
array the bits of the elements it selects. -/
def getBounds (type : Sym → Ty) : Expr → Option (DriverBitRange × Ty)
  | .namedValue symbol _ | .hierarchicalValue symbol _ _ => some ((0, width (type symbol) - 1), type symbol)
  | .elementSelect _ value (.integerLiteral i _) _ =>
    match getBounds type value with
    | some ((lo, _), .packedArray left right elem) =>
      (elementOffset left right i).map fun k =>
        ((lo + k * width elem, lo + (k + 1) * width elem - 1), elem)
    | _ => none
  | .rangeSelect .simple _ value (.integerLiteral l _) (.integerLiteral r _) _ =>
    match getBounds type value with
    | some ((lo, _), .packedArray left right elem) =>
      match elementOffset left right l, elementOffset left right r with
      | some kl, some kr =>
        some ((lo + min kl kr * width elem, lo + (max kl kr + 1) * width elem - 1),
          .packedArray l r elem)
      | _, _ => none
    | _ => none
  | _ => none

/-- Modelled from the spec: `LSPUtilities::visitLSPs` on an lvalue reaches the value at the root
of each select chain; its longest static prefix is the outermost select, or the one given. -/
def visitLSPs : Expr → Option Expr → List (Sym × Expr × Bool)
  | e@(.namedValue symbol _), initialLSP | e@(.hierarchicalValue symbol _ _), initialLSP =>
    [(symbol, initialLSP.getD e, true)]
  | e@(.elementSelect _ value _ _), initialLSP | e@(.rangeSelect _ _ value _ _ _), initialLSP
  | e@(.memberAccess _ value _ _), initialLSP => visitLSPs value (some (initialLSP.getD e))
  | .assignment left _ _, initialLSP => visitLSPs left initialLSP
  | _, _ => []

/-- Modelled from the spec: the longest static prefix a driver of a modport port has on the
port's connection expression, every select of its own prefix kept around that expression. -/
def reroot (connectionExpr : Expr) : Expr → Expr
  | .elementSelect type value selector range =>
    .elementSelect type (reroot connectionExpr value) selector range
  | .rangeSelect kind type value left right range =>
    .rangeSelect kind type (reroot connectionExpr value) left right range
  | .memberAccess type value member range =>
    .memberAccess type (reroot connectionExpr value) member range
  | _ => connectionExpr

end DriverTracker.Lsp
