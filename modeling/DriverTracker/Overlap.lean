import DriverTracker.Elaboration

namespace DriverTracker.Overlap

open DriverTracker.Syntax DriverTracker.Driver DriverTracker.Elaboration

inductive DiagCode where
  | inputPortAssign
  | inputPortCoercion
  | outputPortCoercion
  | clockVarTargetAssign
  | multipleAlwaysAssigns
  | multipleUWireDrivers
  | multipleUDNTDrivers
  | multipleContAssigns
  | mixedVarAssigns
  | noteDeclarationHere
  | noteDrivenHere
  | noteAssignedHere
  | noteFromHere2
  | noteReferencedHere
  | noteOriginalAssign
  deriving DecidableEq, Repr

inductive DiagArg where
  | str (s : String)
  | procedureKind (k : DriverSource)
  deriving DecidableEq, Repr

structure Note where
  code : DiagCode
  range : Option SourceRange
  args : List String
  deriving DecidableEq, Repr

structure Diagnostic where
  symbol : Sym
  code : DiagCode
  range : SourceRange
  args : List DiagArg
  notes : List Note
  deriving DecidableEq, Repr

structure NetFacts where
  isNet : Bool
  isUWire : Bool
  isSingleDriverUDNT : Bool
  deriving DecidableEq, Repr

def netFacts (D : Design) (symbol : Sym) : NetFacts :=
  { isNet := D.kind symbol = .net
    isUWire := D.kind symbol = .net && D.netKind symbol = .uwire
    isSingleDriverUDNT := D.kind symbol = .net && D.netKind symbol = .userDefined &&
      !D.hasResolutionFunction symbol }

def checkOverlap (D : Design) (symbol : Sym) : Bool :=
  ((D.kind symbol).isVariable && D.lifetime symbol = .static) || (netFacts D symbol).isUWire ||
    (netFacts D symbol).isSingleDriverUDNT || D.kind symbol = .localAssertionVar

def shouldIgnore (allowDupInitialDrivers : Bool) (vd : ValueDriver) : Bool :=
  vd.source = .subroutine || vd.flags.initializer ||
    (vd.source = .initial && allowDupInitialDrivers)

/-- The condition under which the scan of `addDriver` hands a pair to `handleOverlap`. -/
def isProblem (checkOverlap : Bool) (shouldIgnore : ValueDriver → Bool)
    (curr driver : ValueDriver) : Bool :=
  if curr.isUnidirectionalPort ≠ driver.isUnidirectionalPort then true
  else if checkOverlap then
    if driver.kind = .continuous || curr.kind = .continuous then true
    else curr.containingSymbol ≠ driver.containingSymbol && !shouldIgnore curr &&
      !shouldIgnore driver && (curr.isInSingleDriverProcedure || driver.isInSingleDriverProcedure)
  else false

def assignedHereNote (D : Design) (curr driver : ValueDriver)
    (currRange driverRange : SourceRange) : Note :=
  if currRange.start ≠ driverRange.start then ⟨.noteAssignedHere, some currRange, []⟩
  else ⟨.noteFromHere2, none,
    [D.hierarchicalPath driver.containingSymbol, D.hierarchicalPath curr.containingSymbol]⟩

def originalAssignNote (curr driver : ValueDriver) : List Note :=
  if driver.procCallExpression.isSome || curr.procCallExpression.isSome then
    [⟨.noteOriginalAssign, some (if driver.procCallExpression.isSome then
      driver.prefixExpression.sourceRange else curr.prefixExpression.sourceRange), []⟩]
  else []

/-- The port branch of `handleOverlap`: a net port driven from both sides, or a variable
input port that is also assigned. -/
def portConflict (isNet isUWire isSingleDriverUDNT : Bool) (curr driver : ValueDriver) : Bool :=
  (isNet && (curr.isUnidirectionalPort || driver.isUnidirectionalPort) && !isUWire &&
    !isSingleDriverUDNT) || (!isNet && (curr.isInputPort || driver.isInputPort))

/-- The diagnostic for an overlapping pair, and whether the overlap is tolerated (`true`) or an
error that ends the scan (`false`). -/
def handleOverlap (D : Design) (symbol : Sym) (curr driver : ValueDriver)
    (isNet isUWire isSingleDriverUDNT : Bool) : Option Diagnostic × Bool :=
  let currRange := curr.getSourceRange
  let driverRange := driver.getSourceRange
  if portConflict isNet isUWire isSingleDriverUDNT curr driver then
    let code := if isNet then
      (if curr.flags.inputPort then DiagCode.inputPortCoercion else .outputPortCoercion)
      else .inputPortAssign
    let swapped := driver.isInputPort || curr.flags.outputPort
    let portRange := if swapped then driverRange else currRange
    let assignRange := if swapped then currRange else driverRange
    let note := if code = .outputPortCoercion then DiagCode.noteDrivenHere else .noteDeclarationHere
    (some ⟨symbol, code, assignRange, [.str (D.name symbol)], [⟨note, some portRange, []⟩]⟩, isNet)
  else if curr.isClockVar || driver.isClockVar then
    if curr.isClockVar && driver.isClockVar then (none, true)
    else if curr.kind = .procedural || driver.kind = .procedural then (none, true)
    else
      let reported := if driver.isClockVar then currRange else driverRange
      let referenced := if driver.isClockVar then driverRange else currRange
      (some ⟨symbol, .clockVarTargetAssign, reported, [.str (D.name symbol)],
        [⟨.noteReferencedHere, some referenced, []⟩]⟩, false)
  else if curr.kind = .procedural && driver.kind = .procedural then
    let single := driver.isInSingleDriverProcedure
    let procKind := if single then driver.source else curr.source
    let reported := if single then driverRange else currRange
    let other := if single then currRange else driverRange
    let sourceForName := if single then driver else curr
    (some ⟨symbol, .multipleAlwaysAssigns, reported,
      [.str (D.stringifyLSP sourceForName.prefixExpression), .procedureKind procKind],
      assignedHereNote D curr driver other reported :: originalAssignNote curr driver⟩, false)
  else
    let code := if isUWire then DiagCode.multipleUWireDrivers
      else if isSingleDriverUDNT then .multipleUDNTDrivers
      else if driver.kind = .continuous && curr.kind = .continuous then .multipleContAssigns
      else .mixedVarAssigns
    (some ⟨symbol, code, driverRange,
      .str (D.stringifyLSP driver.prefixExpression) ::
        (if isSingleDriverUDNT then [.str (D.netTypeName symbol)] else []),
      [assignedHereNote D curr driver currRange driverRange]⟩, false)

def tolerated (isNet isUWire isSingleDriverUDNT : Bool) (curr driver : ValueDriver) : Bool :=
  if portConflict isNet isUWire isSingleDriverUDNT curr driver then isNet
  else if curr.isClockVar || driver.isClockVar then
    if curr.isClockVar && driver.isClockVar then true
    else if curr.kind = .procedural || driver.kind = .procedural then true
    else false
  else false

section Verdict

variable (D : Design) (symbol : Sym) (curr driver : ValueDriver)
  (isNet isUWire isSingleDriverUDNT : Bool)

theorem portConflict_comm :
    portConflict isNet isUWire isSingleDriverUDNT curr driver =
      portConflict isNet isUWire isSingleDriverUDNT driver curr := by
  simp only [portConflict, Bool.or_comm curr.isUnidirectionalPort, Bool.or_comm curr.isInputPort]

theorem isProblem_comm (c : Bool) (ignore : ValueDriver → Bool) :
    isProblem c ignore curr driver = isProblem c ignore driver curr := by
  simp only [isProblem, ne_comm, Bool.or_comm, Bool.and_comm, Bool.and_left_comm]

theorem tolerated_comm :
    tolerated isNet isUWire isSingleDriverUDNT curr driver =
      tolerated isNet isUWire isSingleDriverUDNT driver curr := by
  simp only [tolerated, portConflict_comm curr, Bool.or_comm, Bool.and_comm]

theorem handleOverlap_tolerated :
    (handleOverlap D symbol curr driver isNet isUWire isSingleDriverUDNT).2 =
      tolerated isNet isUWire isSingleDriverUDNT curr driver := by
  unfold handleOverlap tolerated
  simp only [apply_ite Prod.snd, ite_self]

theorem handleOverlap_tolerated_report :
    ((handleOverlap D symbol curr driver isNet isUWire isSingleDriverUDNT).1.isSome &&
      (handleOverlap D symbol curr driver isNet isUWire isSingleDriverUDNT).2) =
      (portConflict isNet isUWire isSingleDriverUDNT curr driver && isNet) := by
  rw [handleOverlap_tolerated]
  unfold handleOverlap tolerated
  simp only [apply_ite Prod.fst, apply_ite Option.isSome, Option.isSome_some, Option.isSome_none]
  by_cases hp : portConflict isNet isUWire isSingleDriverUDNT curr driver = true
  · simp only [hp, ↓reduceIte, Bool.true_and]
  · simp only [hp, Bool.false_eq_true, ↓reduceIte, Bool.false_and]
    split_ifs <;> rfl

theorem handleOverlap_symbol {diag : Diagnostic}
    (h : (handleOverlap D symbol curr driver isNet isUWire isSingleDriverUDNT).1 = some diag) :
    diag.symbol = symbol := by
  have key : (handleOverlap D symbol curr driver isNet isUWire isSingleDriverUDNT).1.map
      Diagnostic.symbol = (handleOverlap D symbol curr driver isNet isUWire isSingleDriverUDNT).1.map
      fun _ => symbol := by
    unfold handleOverlap
    simp only [apply_ite Prod.fst, apply_ite (Option.map Diagnostic.symbol),
      apply_ite (Option.map fun _ : Diagnostic => symbol), Option.map_some', Option.map_none']
  simpa [h] using key

/-- Modelled from the spec: the severity column of the `handleOverlap` table, where the port
coercions are the only warnings. -/
def DiagCode.isWarning : DiagCode → Bool
  | .inputPortCoercion | .outputPortCoercion => true
  | _ => false

theorem handleOverlap_tolerated_iff_warning :
    (handleOverlap D symbol curr driver isNet isUWire isSingleDriverUDNT).2 =
      ((handleOverlap D symbol curr driver isNet isUWire isSingleDriverUDNT).1.map
        (·.code.isWarning)).getD true := by
  rw [handleOverlap_tolerated]
  unfold handleOverlap tolerated
  simp only [apply_ite Prod.fst, apply_ite (Option.map fun d : Diagnostic => d.code.isWarning),
    Option.map_some', Option.map_none']
  by_cases hp : portConflict isNet isUWire isSingleDriverUDNT curr driver
  · simp only [hp, if_true, Option.getD_some]
    split_ifs <;> simp_all [DiagCode.isWarning]
  · simp only [hp, if_false, Bool.false_eq_true]
    split_ifs <;> rfl

end Verdict

end DriverTracker.Overlap
