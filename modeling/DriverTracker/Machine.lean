import DriverTracker.State

namespace DriverTracker.Machine

open DriverTracker.Syntax DriverTracker.Driver DriverTracker.Elaboration DriverTracker.AddDriver
  DriverTracker.State

/-- A call pending on a worker's stack: a function of the tracker about to run, or what is left
of one between two of its visitor callbacks. `visitSymbols` is the loop of `add(procedure)`,
`add(symbolDriverList)` and `addDrivers` over symbols, with the interface port references
collected so far; `add(symbolDriverList)` asserts that there are none and keeps none. -/
inductive Call where
  | visitSymbols (noteRefs : Bool) (pending : List (Sym × DriverList))
      (ifacePortRefs : List (HierarchicalReference × ValueDriver))
  | noteInterfacePortDriver (ref : HierarchicalReference) (driver : ValueDriver)
  | applyInstanceSideEffect (ifacePortDriver : IfacePortDriver) (inst : Sym)
  | noteNonCanonicalInstance (inst : Sym)
  | propagateModportDrivers
  | propagateModportDriver (connectionExpr : Expr) (originalDriver : ValueDriver)
  deriving DecidableEq, Repr

/-- The select `propagateModportDriver` rebuilds around the connection expression: the outermost
one of the original driver's prefix. -/
def splice (prefixExpression connectionExpr : Expr) : Option Expr :=
  match prefixExpression with
  | .elementSelect type _ selector range => some (.elementSelect type connectionExpr selector range)
  | .rangeSelect kind type _ left right range =>
    some (.rangeSelect kind type connectionExpr left right range)
  | .memberAccess type _ member range => some (.memberAccess type connectionExpr member range)
  | _ => none

section Calls

variable (D : Design)

/-- The drivers `addDrivers` makes: one for each lvalue prefix `visitLSPs` reaches whose bounds
are known, with the symbol whose map it goes to. -/
def lspDrivers (expr : Expr) (driverKind : DriverKind) (driverFlags : DriverFlags)
    (containingSymbol : Sym) (initialLSP : Option Expr) : List (Sym × DriverList) :=
  (D.visitLSPs expr initialLSP).filterMap fun (symbol, lsp, isLValue) =>
    if isLValue then
      (D.getBounds lsp symbol).map fun bounds =>
        (symbol, [(D.makeDriver driverKind lsp containingSymbol driverFlags, bounds)])
    else none

theorem mem_lspDrivers {expr : Expr} {driverKind : DriverKind} {driverFlags : DriverFlags}
    {containingSymbol : Sym} {initialLSP : Option Expr} {p : Sym × DriverList}
    (hp : p ∈ lspDrivers D expr driverKind driverFlags containingSymbol initialLSP) :
    ∀ e ∈ p.2, e.1.kind = driverKind ∧ e.1.flags = driverFlags := by
  obtain ⟨⟨symbol, lsp, isLValue⟩, -, hp⟩ := List.mem_filterMap.1 hp
  dsimp only at hp
  split_ifs at hp
  obtain ⟨bounds, -, rfl⟩ := Option.map_eq_some'.1 hp
  simp

def addDrivers (expr : Expr) (driverKind : DriverKind) (driverFlags : DriverFlags)
    (containingSymbol : Sym) (initialLSP : Option Expr) : Call :=
  .visitSymbols true (lspDrivers D expr driverKind driverFlags containingSymbol initialLSP) []

/-- The tail of `noteInterfacePortDriver`: the reference through the port's own connection, when
that goes through another interface port. -/
def nextIfacePortRef (port : Sym) (ref : HierarchicalReference) : Option HierarchicalReference :=
  match D.connectionExpr port with
  | some (.arbitrarySymbol _ connRef _) => if connRef.viaIfacePort then some (connRef.join ref) else none
  | _ => none

theorem nextIfacePortRef_depth {port : Sym} {ref next : HierarchicalReference}
    (h : nextIfacePortRef D port ref = some next) :
    ∃ q, next.path.head? = some q ∧ D.depth q.symbol < D.depth port := by
  unfold nextIfacePortRef at h
  split at h
  · rename_i s connRef range hconn
    split_ifs at h with hvia
    cases h
    obtain ⟨q, hq, hd⟩ := D.connectionExpr_depth port s connRef range hconn hvia
    exact ⟨q, by simp [HierarchicalReference.join, List.head?_append, hq], hd⟩
  · cases h

/-- The loop of `propagateModportDrivers` over its local copy: a call of `propagateModportDriver`
for every entry whose modport port has a connection expression. -/
def propagationCalls (localCopy : List (Sym × DriverList)) : List Call :=
  (entries localCopy).filterMap fun e =>
    (D.modportConnectionExpr e.1).map (.propagateModportDriver · e.2.1)

variable (allowDupInitialDrivers : Bool)

/-- Run the call on top of a worker's stack through its next visitor callback: the tracker
afterwards and the calls that take its place on the stack. -/
def Call.run : Call → Tracker → Tracker × List Call
  | .visitSymbols _ [] refs, t => (t, refs.map fun r => .noteInterfacePortDriver r.1 r.2)
  | .visitSymbols noteRefs ((symbol, drivers) :: rest) refs, t =>
    let r := t.visitSymbol D allowDupInitialDrivers symbol drivers
    (r.1, [.visitSymbols noteRefs rest (if noteRefs then refs ++ r.2 else refs)])
  | .noteInterfacePortDriver ref driver, t =>
    match ref.path with
    | [] => (t, [])
    | first :: _ =>
      let body := D.parentScope first.symbol
      let ifacePortDriver : IfacePortDriver := ⟨ref, driver⟩
      (t.registerIfacePortDriver body ifacePortDriver,
        (t.instanceMap body).nonCanonicalInstances.map (.applyInstanceSideEffect ifacePortDriver) ++
          ((nextIfacePortRef D first.symbol ref).map (.noteInterfacePortDriver · driver)).toList)
  | .applyInstanceSideEffect ifacePortDriver inst, t =>
    (t.applyInstanceSideEffect D allowDupInitialDrivers ifacePortDriver inst, [])
  | .noteNonCanonicalInstance inst, t =>
    let body := D.canonicalBody inst
    (t.registerInstance body inst,
      (t.instanceMap body).ifacePortDrivers.map (.applyInstanceSideEffect · inst))
  | .propagateModportDrivers, t =>
    ({ t with modportPortDrivers := [] },
      if t.modportPortDrivers.isEmpty then []
      else propagationCalls D t.modportPortDrivers ++ [.propagateModportDrivers])
  | .propagateModportDriver connectionExpr originalDriver, t =>
    ({ t with propagated := t.propagated ++ [(connectionExpr, originalDriver)] },
      [addDrivers D connectionExpr originalDriver.kind originalDriver.flags
        originalDriver.containingSymbol (splice originalDriver.prefixExpression connectionExpr)])

end Calls

/-- The entry points of the tracker that workers call. -/
inductive Operation where
  | procedure (drivers : List (Sym × DriverList))
  | portConnection (port : Sym) (expr : Option Expr) (containingSymbol : Sym)
  | portSymbol (symbol : Sym)
  | clockVar (symbol : Sym)
  | expression (expr : Expr) (containingSymbol : Sym)
  | symbolDriverList (drivers : List (Sym × DriverList))
  | nonCanonicalInstance (inst : Sym)
  | propagateModportDrivers
  deriving DecidableEq, Repr

section Operations

variable (D : Design)

def addPortConnection (port : Sym) (expr : Option Expr) (containingSymbol : Sym) : List Call :=
  match expr with
  | none => []
  | some expr =>
    let direction := D.direction port
    if expr.bad || D.kind port = .interfacePort || direction = .in then []
    else
      let flags : DriverFlags := if direction = .out then { outputPort := true } else {}
      let expr := match expr with
        | .assignment left _ _ => left
        | expr => expr
      [addDrivers D expr .continuous flags containingSymbol none]

def addPortSymbol (symbol : Sym) : List Call :=
  let direction := D.direction symbol
  if direction ≠ .in ∧ direction ≠ .inOut then []
  else
    let flags : DriverFlags := if direction = .in then { inputPort := true } else {}
    let scope := D.parentScope symbol
    match D.internalExpr symbol, D.internalSymbol symbol with
    | some expr, _ => [addDrivers D expr .continuous flags scope none]
    | none, some is =>
      [addDrivers D (.namedValue is ⟨D.location is, D.location is + (D.name is).length⟩)
        .continuous flags scope none]
    | none, none => []

def addClockVar (symbol : Sym) : List Call :=
  if D.direction symbol = .in then []
  else match D.initializer symbol with
    | some expr => [addDrivers D expr .continuous { clockVar := true } (D.parentScope symbol) none]
    | none => []

def Operation.calls : Operation → List Call
  | .procedure drivers => [.visitSymbols true drivers []]
  | .portConnection port expr containingSymbol => addPortConnection D port expr containingSymbol
  | .portSymbol symbol => addPortSymbol D symbol
  | .clockVar symbol => addClockVar D symbol
  | .expression expr containingSymbol => [addDrivers D expr .continuous {} containingSymbol none]
  | .symbolDriverList drivers => [.visitSymbols false drivers []]
  | .nonCanonicalInstance inst => [.noteNonCanonicalInstance inst]
  | .propagateModportDrivers => [.propagateModportDrivers]

theorem mem_calls {op : Operation} {c : Call} (hc : c ∈ op.calls D) :
    (∃ drivers, op = .procedure drivers ∧ c = .visitSymbols true drivers []) ∨
      (∃ drivers, op = .symbolDriverList drivers ∧ c = .visitSymbols false drivers []) ∨
      (∃ expr driverKind driverFlags containingSymbol,
        c = addDrivers D expr driverKind driverFlags containingSymbol none) ∨
      (∃ inst, op = .nonCanonicalInstance inst ∧ c = .noteNonCanonicalInstance inst) ∨
      (op = .propagateModportDrivers ∧ c = .propagateModportDrivers) := by
  cases op <;> simp only [Operation.calls, addPortConnection, addPortSymbol, addClockVar] at hc <;>
    (repeat' split at hc) <;> simp only [List.mem_singleton, List.not_mem_nil] at hc <;> subst hc
  all_goals first
    | exact .inl ⟨_, rfl, rfl⟩
    | exact .inr (.inl ⟨_, rfl, rfl⟩)
    | exact .inr (.inr (.inl ⟨_, _, _, _, rfl⟩))
    | exact .inr (.inr (.inr (.inl ⟨_, rfl, rfl⟩)))
    | exact .inr (.inr (.inr (.inr ⟨rfl, rfl⟩)))

end Operations

/-- The tracker and the stacks of calls of the workers using it. -/
structure Sys where
  tracker : Tracker
  workers : List (List Call)

def Sys.pending (s : Sys) : List Call := s.workers.flatten

section Steps

variable (D : Design) (allowDupInitialDrivers : Bool)

/-- The workers start on an empty tracker, each with its list of operations. -/
def Sys.init (ops : List (List Operation)) : Sys :=
  ⟨Tracker.empty, ops.map (·.flatMap (Operation.calls D))⟩

/-- Worker `w` runs its next step; an idle worker does nothing. -/
def Sys.step (s : Sys) (w : Nat) : Sys :=
  match s.workers[w]? with
  | some (c :: rest) =>
    let r := c.run D allowDupInitialDrivers s.tracker
    ⟨r.1, s.workers.set w (r.2 ++ rest)⟩
  | _ => s

/-- The states some interleaving of the workers' steps reaches. -/
inductive Reachable (ops : List (List Operation)) : Sys → Prop
  | init : Reachable ops (Sys.init D ops)
  | step {s : Sys} (w : Nat) : Reachable ops s → Reachable ops (s.step D allowDupInitialDrivers w)

/-- The state after the workers take steps in the order of the schedule. -/
def Sys.run (s : Sys) (schedule : List Nat) : Sys :=
  schedule.foldl (Sys.step D allowDupInitialDrivers) s

theorem perm_flatten_set {α : Type} {l : List (List α)} {w : Nat} {c : α} {rest new : List α}
    (h : l[w]? = some (c :: rest)) :
    (c :: (l.set w (new ++ rest)).flatten).Perm (new ++ l.flatten) := by
  induction l generalizing w with
  | nil => simp at h
  | cons a l ih =>
    cases w with
    | zero =>
      obtain rfl : a = c :: rest := by simpa using h
      simpa using (@List.perm_middle _ c new (rest ++ l.flatten)).symm
    | succ w =>
      have ih := ih (by simpa using h)
      simp only [List.set_cons_succ, List.flatten_cons]
      exact List.perm_middle.symm.trans
        ((ih.append_left a).trans (List.perm_append_comm_assoc a new l.flatten))

variable {D allowDupInitialDrivers}

theorem step_cases (s : Sys) (w : Nat) :
    s.step D allowDupInitialDrivers w = s ∨
      ∃ c ∈ s.pending, (s.step D allowDupInitialDrivers w).tracker =
          (c.run D allowDupInitialDrivers s.tracker).1 ∧
        (c :: (s.step D allowDupInitialDrivers w).pending).Perm
          ((c.run D allowDupInitialDrivers s.tracker).2 ++ s.pending) := by
  unfold Sys.step
  split
  · rename_i c rest h
    refine .inr ⟨c, ?_, rfl, perm_flatten_set h⟩
    exact List.mem_flatten.2 ⟨c :: rest, List.mem_iff_getElem?.2 ⟨w, h⟩, List.mem_cons_self c rest⟩
  · exact .inl rfl

theorem reachable_run {ops : List (List Operation)} (schedule : List Nat) :
    ∀ {s : Sys}, Reachable D allowDupInitialDrivers ops s →
      Reachable D allowDupInitialDrivers ops (s.run D allowDupInitialDrivers schedule) := by
  induction schedule with
  | nil => exact id
  | cons w schedule ih => exact fun h => ih (h.step w)

end Steps

end DriverTracker.Machine
