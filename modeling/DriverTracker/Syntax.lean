import Mathlib.Data.List.Basic

namespace DriverTracker.Syntax

abbrev Sym := Nat

structure SourceRange where
  start : Nat
  stop : Nat
  deriving DecidableEq, Repr

/-- A step selector of a hierarchical path; `int32_t` selectors are 32-bit words. -/
inductive Selector where
  | index (i : BitVec 32)
  | range (first second : BitVec 32)
  | name (n : String)
  deriving DecidableEq, Repr

structure PathElem where
  symbol : Sym
  selector : Selector
  deriving DecidableEq, Repr

structure HierarchicalReference where
  path : List PathElem
  target : Option Sym
  viaIfacePort : Bool
  deriving DecidableEq, Repr

/-- Modelled from the spec: joining the reference of an interface port's connection with a
reference through that port keeps the connection's path and then the rest of the other path. -/
def HierarchicalReference.join (r other : HierarchicalReference) : HierarchicalReference :=
  { path := r.path ++ other.path.drop 1, target := other.target, viaIfacePort := r.viaIfacePort }

inductive Ty where
  | logic
  | packedArray (left right : Int) (elem : Ty)
  deriving DecidableEq, Repr

inductive RangeSelectionKind where
  | simple
  | indexedUp
  | indexedDown
  deriving DecidableEq, Repr

inductive Expr where
  | invalid (sourceRange : SourceRange)
  | integerLiteral (value : Int) (sourceRange : SourceRange)
  | namedValue (symbol : Sym) (sourceRange : SourceRange)
  | hierarchicalValue (symbol : Sym) (ref : HierarchicalReference) (sourceRange : SourceRange)
  | arbitrarySymbol (symbol : Sym) (hierRef : HierarchicalReference) (sourceRange : SourceRange)
  | elementSelect (type : Ty) (value selector : Expr) (sourceRange : SourceRange)
  | rangeSelect (selectionKind : RangeSelectionKind) (type : Ty) (value left right : Expr)
      (sourceRange : SourceRange)
  | memberAccess (type : Ty) (value : Expr) (member : Sym) (sourceRange : SourceRange)
  | assignment (left right : Expr) (sourceRange : SourceRange)
  deriving DecidableEq, Repr

def Expr.sourceRange : Expr → SourceRange
  | .invalid r | .integerLiteral _ r | .namedValue _ r | .hierarchicalValue _ _ r
  | .arbitrarySymbol _ _ r | .elementSelect _ _ _ r | .rangeSelect _ _ _ _ _ r
  | .memberAccess _ _ _ r | .assignment _ _ r => r

def Expr.bad : Expr → Bool
  | .invalid _ => true
  | _ => false

/-- Modelled from the spec: `LSPUtilities::visitComponents` with the root included visits a
longest static prefix from its outermost select down to the value it selects from. -/
def Expr.components : Expr → List Expr
  | e@(.elementSelect _ v _ _) => e :: v.components
  | e@(.rangeSelect _ _ v _ _ _) => e :: v.components
  | e@(.memberAccess _ v _ _) => e :: v.components
  | e => [e]

end DriverTracker.Syntax
