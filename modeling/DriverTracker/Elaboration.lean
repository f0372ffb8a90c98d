import DriverTracker.Driver

namespace DriverTracker.Elaboration

open DriverTracker.Syntax DriverTracker.Driver

inductive SymbolKind where
  | net
  | variable
  | field
  | classProperty
  | port
  | multiPort
  | interfacePort
  | modportPort
  | clockVar
  | localAssertionVar
  | «instance»
  | instanceBody
  | instanceArray
  | modport
  | generateBlock
  | generateBlockArray
  | other
  deriving DecidableEq, Repr

/-- Modelled from the spec: `VariableSymbol::isKind`, the kinds above that are variables. -/
def SymbolKind.isVariable : SymbolKind → Bool
  | .variable | .field | .classProperty | .clockVar | .localAssertionVar => true
  | _ => false

inductive NetKind where
  | uwire
  | userDefined
  | other
  deriving DecidableEq, Repr

inductive ArgumentDirection where
  | «in»
  | out
  | inOut
  | ref
  deriving DecidableEq, Repr

inductive DefinitionKind where
  | module
  | interface
  | program
  deriving DecidableEq, Repr

inductive VariableLifetime where
  | automatic
  | static
  deriving DecidableEq, Repr

/-- The elaborated design as the tracker reads it, together with the LSP utilities, which are
functions of it. The asserted pointers (parent scopes, canonical bodies) are total. `depth` is a
symbol's depth in the instance hierarchy: an interface port's connection, and the port a
connection through an interface port starts at, lie above the port, which is what makes the
tracker's walks along connections finish. -/
structure Design where
  kind : Sym → SymbolKind
  name : Sym → String
  location : Sym → Nat
  parentScope : Sym → Sym
  hierarchicalPath : Sym → String
  isClassTyped : Sym → Bool
  initializer : Sym → Option Expr
  selectableWidth : Sym → UInt32
  lifetime : Sym → VariableLifetime
  netKind : Sym → NetKind
  hasResolutionFunction : Sym → Bool
  netTypeName : Sym → String
  driverSource : Sym → DriverSource
  direction : Sym → ArgumentDirection
  internalExpr : Sym → Option Expr
  internalSymbol : Sym → Option Sym
  modportConnectionExpr : Sym → Option Expr
  canonicalBody : Sym → Sym
  body : Sym → Sym
  definitionKind : Sym → DefinitionKind
  findPort : Sym → String → Option Sym
  find : Sym → String → Option Sym
  isScope : Sym → Bool
  connection : Sym → Option Sym × Option Sym
  connectionExpr : Sym → Option Expr
  elements : Sym → List Sym
  generateValid : Sym → Bool
  generateEntries : Sym → List Sym
  isAllowedInModport : SymbolKind → Bool
  visitLSPs : Expr → Option Expr → List (Sym × Expr × Bool)
  getBounds : Expr → Sym → Option DriverBitRange
  stringifyLSP : Expr → String
  depth : Sym → Nat
  connection_depth : ∀ p q, (connection p).1 = some q → depth q < depth p
  connectionExpr_depth : ∀ p s r range, connectionExpr p = some (.arbitrarySymbol s r range) →
    r.viaIfacePort = true → ∃ q, r.path.head? = some q ∧ depth q.symbol < depth p

def Design.plain : Design where
  kind _ := .other
  name _ := ""
  location _ := 0
  parentScope _ := 0
  hierarchicalPath _ := ""
  isClassTyped _ := false
  initializer _ := none
  selectableWidth _ := 1
  lifetime _ := .automatic
  netKind _ := .other
  hasResolutionFunction _ := true
  netTypeName _ := ""
  driverSource _ := .other
  direction _ := .inOut
  internalExpr _ := none
  internalSymbol _ := none
  modportConnectionExpr _ := none
  canonicalBody _ := 0
  body _ := 0
  definitionKind _ := .module
  findPort _ _ := none
  find _ _ := none
  isScope _ := false
  connection _ := (none, none)
  connectionExpr _ := none
  elements _ := []
  generateValid _ := false
  generateEntries _ := []
  isAllowedInModport _ := false
  visitLSPs _ _ := []
  getBounds _ _ := none
  stringifyLSP _ := ""
  depth _ := 0
  connection_depth _ _ h := nomatch h
  connectionExpr_depth _ _ _ _ h := nomatch h

def Design.makeDriver (D : Design) (kind : DriverKind) (lsp : Expr) (containingSymbol : Sym)
    (flags : DriverFlags) : ValueDriver :=
  { kind, prefixExpression := lsp, containingSymbol, flags,
    source := D.driverSource containingSymbol }

@[simp] theorem makeDriver_kind (D : Design) (k : DriverKind) (e : Expr) (s : Sym)
    (f : DriverFlags) : (D.makeDriver k e s f).kind = k := rfl

@[simp] theorem makeDriver_flags (D : Design) (k : DriverKind) (e : Expr) (s : Sym)
    (f : DriverFlags) : (D.makeDriver k e s f).flags = f := rfl

@[simp] theorem makeDriver_isFromSideEffect (D : Design) (k : DriverKind) (e : Expr) (s : Sym)
    (f : DriverFlags) : (D.makeDriver k e s f).isFromSideEffect = false := rfl

end DriverTracker.Elaboration
