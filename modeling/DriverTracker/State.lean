import DriverTracker.AddDriver
import DriverTracker.Retarget

namespace DriverTracker.State

open DriverTracker.Syntax DriverTracker.Driver DriverTracker.Elaboration DriverTracker.Overlap
  DriverTracker.AddDriver DriverTracker.Retarget

structure IfacePortDriver where
  ref : HierarchicalReference
  driver : ValueDriver
  deriving DecidableEq, Repr

structure InstanceState where
  ifacePortDrivers : List IfacePortDriver := []
  nonCanonicalInstances : List Sym := []
  deriving DecidableEq, Repr

/-- The members of `DriverTracker`, each concurrent map a function of its key (a key not yet in
the map has what `try_emplace_and_visit` would create for it), followed by the history of the
run, which the code does not keep and the proofs read: every `addDriver` call per symbol, every
`applyInstanceSideEffect` call, every entry recorded for a modport port, every
`propagateModportDriver` call, and every `std::span` precondition `retargetIfacePort` broke. -/
structure Tracker where
  symbolDrivers : Sym → DriverList
  modportPortDrivers : List (Sym × DriverList)
  instanceMap : Sym → InstanceState
  diagnostics : List Diagnostic
  calls : Sym → DriverList
  applied : List (IfacePortDriver × Sym)
  recorded : List (Sym × ValueDriver × DriverBitRange)
  propagated : List (Expr × ValueDriver)
  faults : List SpanFault

def Tracker.empty : Tracker :=
  ⟨fun _ => [], [], fun _ => {}, [], fun _ => [], [], [], [], []⟩

def Tracker.getDrivers (t : Tracker) (symbol : Sym) : DriverList := t.symbolDrivers symbol

def entries (m : List (Sym × DriverList)) : List (Sym × ValueDriver × DriverBitRange) :=
  m.flatMap fun p => p.2.map ((p.1, ·))

/-- `modportPortDrivers.try_emplace_and_visit` with the updater that appends one entry. -/
def recordEntry : List (Sym × DriverList) → Sym → ValueDriver × DriverBitRange →
    List (Sym × DriverList)
  | [], symbol, e => [(symbol, [e])]
  | (s, ds) :: rest, symbol, e =>
    if s = symbol then (s, ds ++ [e]) :: rest else (s, ds) :: recordEntry rest symbol e

@[simp] theorem entries_nil : entries [] = [] := rfl

theorem entries_recordEntry (m : List (Sym × DriverList)) (symbol : Sym)
    (e : ValueDriver × DriverBitRange) :
    (entries (recordEntry m symbol e)).Perm (entries m ++ [(symbol, e)]) := by
  induction m with
  | nil => simp [entries, recordEntry]
  | cons p rest ih =>
    obtain ⟨s, ds⟩ := p
    by_cases hs : s = symbol
    · subst hs
      simpa [entries, recordEntry] using
        (List.perm_append_singleton (s, e) _).symm.append_left (ds.map ((s, ·)))
    · simpa [entries, recordEntry, hs] using ih.append_left (ds.map ((s, ·)))

/-- The driver `applyInstanceSideEffect` makes of an interface port driver for an instance. -/
def sideEffectDriver (ifacePortDriver : IfacePortDriver) (inst : Sym) : ValueDriver :=
  { ifacePortDriver.driver with containingSymbol := inst, isFromSideEffect := true }

/-- What `applyInstanceSideEffect` submits: the retargeted symbol, the driver and its bounds. -/
def sideEffect (D : Design) (ifacePortDriver : IfacePortDriver) (inst : Sym) :
    Except SpanFault (Option (Sym × ValueDriver × DriverBitRange)) :=
  (retargetIfacePort D ifacePortDriver.ref inst).map fun target => target.bind fun target =>
    let driver := sideEffectDriver ifacePortDriver inst
    (D.getBounds driver.prefixExpression target).map ((target, driver, ·))

theorem sideEffect_driver {D : Design} {ifacePortDriver : IfacePortDriver} {inst target : Sym}
    {driver : ValueDriver} {bounds : DriverBitRange}
    (h : sideEffect D ifacePortDriver inst = .ok (some (target, driver, bounds))) :
    driver = sideEffectDriver ifacePortDriver inst := by
  unfold sideEffect at h
  cases hr : retargetIfacePort D ifacePortDriver.ref inst with
  | error f => simp [hr, Except.map] at h
  | ok t =>
    cases t <;> simp [hr, Except.map] at h
    obtain ⟨_, _, -, -, h, -⟩ := h
    exact h.symm

section Actions

variable (D : Design) (allowDupInitialDrivers : Bool)

/-- One `addDriver` call, inside the visitor of `symbol`'s map. -/
def Tracker.addDriver (t : Tracker) (symbol : Sym) (driver : ValueDriver)
    (bounds : DriverBitRange) : Tracker × Option HierarchicalReference :=
  let o := AddDriver.addDriver D allowDupInitialDrivers symbol (t.symbolDrivers symbol) driver bounds
  ({ t with
      symbolDrivers := Function.update t.symbolDrivers symbol o.driverMap
      modportPortDrivers := match o.modportEntry with
        | some e => recordEntry t.modportPortDrivers symbol e
        | none => t.modportPortDrivers
      diagnostics := t.diagnostics ++ o.reports.filterMap (·.diag)
      calls := Function.update t.calls symbol (t.calls symbol ++ [(driver, bounds)])
      recorded := t.recorded ++ (o.modportEntry.map ((symbol, ·))).toList },
    o.ref)

/-- The visitor `symbolDrivers.try_emplace_and_visit` runs for one symbol: `addDriver` for each
driver in turn, collecting the interface port references they return. -/
def Tracker.visitSymbol (t : Tracker) (symbol : Sym) :
    DriverList → Tracker × List (HierarchicalReference × ValueDriver)
  | [] => (t, [])
  | (driver, bounds) :: rest =>
    let r := t.addDriver D allowDupInitialDrivers symbol driver bounds
    let r' := r.1.visitSymbol symbol rest
    (r'.1, (r.2.map ((·, driver))).toList ++ r'.2)

/-- The updater of `noteInterfacePortDriver` on the body's instance state. -/
def Tracker.registerIfacePortDriver (t : Tracker) (body : Sym) (ifacePortDriver : IfacePortDriver) :
    Tracker :=
  let state := t.instanceMap body
  { t with
    instanceMap := Function.update t.instanceMap body
      { state with ifacePortDrivers := state.ifacePortDrivers ++ [ifacePortDriver] } }

/-- The updater of `noteNonCanonicalInstance` on the canonical body's instance state. -/
def Tracker.registerInstance (t : Tracker) (body inst : Sym) : Tracker :=
  let state := t.instanceMap body
  { t with
    instanceMap := Function.update t.instanceMap body
      { state with nonCanonicalInstances := state.nonCanonicalInstances ++ [inst] } }

def Tracker.applyInstanceSideEffect (t : Tracker) (ifacePortDriver : IfacePortDriver) (inst : Sym) :
    Tracker :=
  let t := { t with applied := t.applied ++ [(ifacePortDriver, inst)] }
  match sideEffect D ifacePortDriver inst with
  | .error f => { t with faults := t.faults ++ [f] }
  | .ok none => t
  | .ok (some (target, driver, bounds)) =>
    (t.visitSymbol D allowDupInitialDrivers target [(driver, bounds)]).1

variable {D allowDupInitialDrivers} (t : Tracker) (symbol : Sym) (driver : ValueDriver)
  (bounds : DriverBitRange)

@[simp] theorem addDriver_instanceMap :
    (t.addDriver D allowDupInitialDrivers symbol driver bounds).1.instanceMap = t.instanceMap := rfl

@[simp] theorem addDriver_applied :
    (t.addDriver D allowDupInitialDrivers symbol driver bounds).1.applied = t.applied := rfl

@[simp] theorem addDriver_propagated :
    (t.addDriver D allowDupInitialDrivers symbol driver bounds).1.propagated = t.propagated := rfl

@[simp] theorem addDriver_faults :
    (t.addDriver D allowDupInitialDrivers symbol driver bounds).1.faults = t.faults := rfl

theorem addDriver_snd :
    (t.addDriver D allowDupInitialDrivers symbol driver bounds).2 = ifacePortRef D symbol driver :=
  addDriver_ref _ _ _ _

theorem visitSymbol_fields (ds : DriverList) :
    (t.visitSymbol D allowDupInitialDrivers symbol ds).1.instanceMap = t.instanceMap ∧
      (t.visitSymbol D allowDupInitialDrivers symbol ds).1.applied = t.applied ∧
      (t.visitSymbol D allowDupInitialDrivers symbol ds).1.propagated = t.propagated ∧
      (t.visitSymbol D allowDupInitialDrivers symbol ds).1.faults = t.faults := by
  induction ds generalizing t with
  | nil => simp [Tracker.visitSymbol]
  | cons e ds ih => simpa [Tracker.visitSymbol] using ih _

@[simp] theorem visitSymbol_instanceMap (ds : DriverList) :
    (t.visitSymbol D allowDupInitialDrivers symbol ds).1.instanceMap = t.instanceMap :=
  (visitSymbol_fields t symbol ds).1

@[simp] theorem visitSymbol_applied (ds : DriverList) :
    (t.visitSymbol D allowDupInitialDrivers symbol ds).1.applied = t.applied :=
  (visitSymbol_fields t symbol ds).2.1

@[simp] theorem visitSymbol_propagated (ds : DriverList) :
    (t.visitSymbol D allowDupInitialDrivers symbol ds).1.propagated = t.propagated :=
  (visitSymbol_fields t symbol ds).2.2.1

@[simp] theorem visitSymbol_faults (ds : DriverList) :
    (t.visitSymbol D allowDupInitialDrivers symbol ds).1.faults = t.faults :=
  (visitSymbol_fields t symbol ds).2.2.2

theorem visitSymbol_snd (ds : DriverList) :
    (t.visitSymbol D allowDupInitialDrivers symbol ds).2 =
      ds.filterMap fun e => (ifacePortRef D symbol e.1).map ((·, e.1)) := by
  induction ds generalizing t with
  | nil => rfl
  | cons e ds ih =>
    simp only [Tracker.visitSymbol, ih, addDriver_snd, List.filterMap_cons]
    cases ifacePortRef D symbol e.1 <;> rfl

end Actions

end DriverTracker.State
