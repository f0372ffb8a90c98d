import DriverTracker.Syntax

namespace DriverTracker.Driver

open DriverTracker.Syntax

inductive DriverKind where
  | procedural
  | continuous
  deriving DecidableEq, Repr

inductive DriverSource where
  | initial
  | final
  | always
  | alwaysComb
  | alwaysLatch
  | alwaysFF
  | continuous
  | subroutine
  | other
  deriving DecidableEq, Repr

/-- The `bitmask<DriverFlags>` of a driver, one field a flag. -/
structure DriverFlags where
  inputPort : Bool := false
  outputPort : Bool := false
  clockVar : Bool := false
  initializer : Bool := false
  deriving DecidableEq, Repr

/-- Only the source range of a procedural call expression is ever read. -/
structure ValueDriver where
  kind : DriverKind
  prefixExpression : Expr
  containingSymbol : Sym
  flags : DriverFlags
  source : DriverSource
  procCallExpression : Option SourceRange := none
  isFromSideEffect : Bool := false
  deriving DecidableEq, Repr

/-- Modelled from the spec: a driver of an input port. -/
def ValueDriver.isInputPort (d : ValueDriver) : Bool := d.flags.inputPort

/-- Modelled from the spec: a driver of an input or an output port, as opposed to an inout. -/
def ValueDriver.isUnidirectionalPort (d : ValueDriver) : Bool :=
  d.flags.inputPort || d.flags.outputPort

/-- Modelled from the spec: the driver of a clocking block variable. -/
def ValueDriver.isClockVar (d : ValueDriver) : Bool := d.flags.clockVar

/-- Modelled from the spec: `always_comb`, `always_ff` and `always_latch` are the procedures
that must be a bit's only driver. -/
def DriverSource.isSingleDriver : DriverSource → Bool
  | .alwaysComb | .alwaysFF | .alwaysLatch => true
  | _ => false

def ValueDriver.isInSingleDriverProcedure (d : ValueDriver) : Bool := d.source.isSingleDriver

/-- Modelled from the spec: a driver inside a procedural call is reported at the call. -/
def ValueDriver.getSourceRange (d : ValueDriver) : SourceRange :=
  d.procCallExpression.getD d.prefixExpression.sourceRange

abbrev DriverBitRange := Nat × Nat

def overlaps (a b : DriverBitRange) : Bool := a.1 ≤ b.2 && b.1 ≤ a.2

theorem overlaps_comm (a b : DriverBitRange) : overlaps a b = overlaps b a := by
  simp only [overlaps, Bool.and_comm]

abbrev DriverList := List (ValueDriver × DriverBitRange)

end DriverTracker.Driver
