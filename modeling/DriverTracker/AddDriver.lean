import DriverTracker.Overlap

namespace DriverTracker.AddDriver

open DriverTracker.Syntax DriverTracker.Driver DriverTracker.Elaboration DriverTracker.Overlap

structure OverlapReport where
  curr : ValueDriver × DriverBitRange
  driver : ValueDriver × DriverBitRange
  diag : Option Diagnostic
  tolerated : Bool
  deriving DecidableEq, Repr

/-- The pre-scan of a driver's prefix: the last interface port reference it visits. -/
def viaIfacePortRef (prefixExpression : Expr) : Option HierarchicalReference :=
  prefixExpression.components.foldl (fun result e => match e with
    | .hierarchicalValue _ ref _ => if ref.viaIfacePort then some ref else result
    | _ => result) none

/-- The drivers `addDriver` synthesizes for a symbol's initializer on its first driver. -/
def initializerDrivers (D : Design) (symbol : Sym) : DriverList :=
  let addInitializer (driverKind : DriverKind) : DriverList :=
    [(D.makeDriver driverKind
        (.namedValue symbol ⟨D.location symbol, D.location symbol + (D.name symbol).length⟩)
        (D.parentScope symbol) { initializer := true },
      (0, (D.selectableWidth symbol - 1).toNat))]
  match D.kind symbol with
  | .net => if (D.initializer symbol).isSome then addInitializer .continuous else []
  | .variable | .classProperty | .field =>
    if (D.initializer symbol).isSome then addInitializer .procedural else []
  | _ => []

theorem initializerDrivers_bounds (D : Design) (symbol : Sym) :
    (initializerDrivers D symbol).map (·.2) =
      if (D.initializer symbol).isSome ∧ (D.kind symbol = .net ∨ D.kind symbol = .variable ∨
          D.kind symbol = .classProperty ∨ D.kind symbol = .field) then
        [(0, (D.selectableWidth symbol - 1).toNat)]
      else [] := by
  unfold initializerDrivers
  cases D.kind symbol <;> by_cases hi : (D.initializer symbol).isSome <;> simp [hi]

theorem initializerDrivers_flags (D : Design) (symbol : Sym) :
    ∀ e ∈ initializerDrivers D symbol, e.1.flags = { initializer := true } := by
  unfold initializerDrivers
  cases D.kind symbol <;> split_ifs <;> simp

section Scan

variable (D : Design) (allowDupInitialDrivers : Bool) (symbol : Sym)

/-- The loop of `addDriver` over the stored drivers that overlap the new one; it stops at the
first overlap `handleOverlap` reports as an error. -/
def scanOverlaps (driver : ValueDriver) (bounds : DriverBitRange) :
    DriverList → List OverlapReport
  | [] => []
  | curr :: rest =>
    if isProblem (checkOverlap D symbol) (shouldIgnore allowDupInitialDrivers) curr.1 driver then
      let facts := netFacts D symbol
      let verdict := handleOverlap D symbol curr.1 driver facts.isNet facts.isUWire
        facts.isSingleDriverUDNT
      ⟨curr, (driver, bounds), verdict.1, verdict.2⟩ ::
        if verdict.2 then scanOverlaps driver bounds rest else []
    else scanOverlaps driver bounds rest

theorem scanOverlaps_symbol {driver : ValueDriver} {bounds : DriverBitRange} {L : DriverList}
    {r : OverlapReport} (hr : r ∈ scanOverlaps D allowDupInitialDrivers symbol driver bounds L)
    {diag : Diagnostic} (hd : r.diag = some diag) : diag.symbol = symbol := by
  induction L with
  | nil => cases hr
  | cons curr rest ih =>
    unfold scanOverlaps at hr
    split_ifs at hr
    · rcases List.mem_cons.1 hr with rfl | hr
      · exact handleOverlap_symbol D symbol _ _ _ _ _ hd
      · split_ifs at hr
        exacts [ih hr, absurd hr (List.not_mem_nil _)]
    · exact ih hr

structure AddOutcome where
  driverMap : DriverList
  modportEntry : Option (ValueDriver × DriverBitRange)
  ref : Option HierarchicalReference
  reports : List OverlapReport

def addDriver (driverMap : DriverList) (driver : ValueDriver) (bounds : DriverBitRange) :
    AddOutcome :=
  if D.isClassTyped symbol then ⟨driverMap, none, none, []⟩ else
  let result := if driver.isFromSideEffect then none else viaIfacePortRef driver.prefixExpression
  if D.kind symbol = .modportPort then ⟨driverMap, some (driver, bounds), result, []⟩ else
  let driverMap := if driverMap.isEmpty then initializerDrivers D symbol else driverMap
  if driverMap.isEmpty then ⟨[(driver, bounds)], none, result, []⟩ else
  ⟨driverMap ++ [(driver, bounds)], none, result,
    scanOverlaps D allowDupInitialDrivers symbol driver bounds
      (driverMap.filter fun e => overlaps e.2 bounds)⟩

def baseMap (driverMap : DriverList) : DriverList :=
  if driverMap.isEmpty then initializerDrivers D symbol else driverMap

def Stores : Prop := D.isClassTyped symbol = false ∧ D.kind symbol ≠ .modportPort

instance : Decidable (Stores D symbol) := inferInstanceAs (Decidable (_ ∧ _))

def ifacePortRef (driver : ValueDriver) : Option HierarchicalReference :=
  if D.isClassTyped symbol then none
  else if driver.isFromSideEffect then none else viaIfacePortRef driver.prefixExpression

variable {D symbol}

theorem addDriver_ref (m : DriverList) (d : ValueDriver) (b : DriverBitRange) :
    (addDriver D allowDupInitialDrivers symbol m d b).ref = ifacePortRef D symbol d := by
  unfold addDriver ifacePortRef
  dsimp only
  split_ifs <;> rfl

theorem addDriver_modportEntry (m : DriverList) (d : ValueDriver) (b : DriverBitRange) :
    (addDriver D allowDupInitialDrivers symbol m d b).modportEntry =
      if D.isClassTyped symbol = false ∧ D.kind symbol = .modportPort then some (d, b) else none := by
  unfold addDriver
  dsimp only
  split_ifs <;> simp_all

theorem addDriver_of_not_stores (h : ¬ Stores D symbol) (m : DriverList) (d : ValueDriver)
    (b : DriverBitRange) :
    (addDriver D allowDupInitialDrivers symbol m d b).driverMap = m ∧
      (addDriver D allowDupInitialDrivers symbol m d b).reports = [] := by
  unfold addDriver
  by_cases hc : D.isClassTyped symbol = true
  · simp [hc]
  · have hk : D.kind symbol = .modportPort := by
      by_contra hk
      exact h ⟨by simpa using hc, hk⟩
    simp [hc, hk]

theorem addDriver_of_stores (h : Stores D symbol) (m : DriverList) (d : ValueDriver)
    (b : DriverBitRange) :
    (addDriver D allowDupInitialDrivers symbol m d b).driverMap = baseMap D symbol m ++ [(d, b)] ∧
      (addDriver D allowDupInitialDrivers symbol m d b).modportEntry = none ∧
      (addDriver D allowDupInitialDrivers symbol m d b).reports =
        scanOverlaps D allowDupInitialDrivers symbol d b
          ((baseMap D symbol m).filter fun e => overlaps e.2 b) := by
  obtain ⟨hc, hk⟩ := h
  simp only [addDriver, baseMap, hc, hk, Bool.false_eq_true, ↓reduceIte]
  generalize (if m.isEmpty then initializerDrivers D symbol else m) = base
  cases base <;> simp [scanOverlaps]

variable (D symbol)

def ingest (submissions : DriverList) : DriverList × List OverlapReport :=
  submissions.foldl (fun acc e =>
    let o := addDriver D allowDupInitialDrivers symbol acc.1 e.1 e.2
    (o.driverMap, acc.2 ++ o.reports)) ([], [])

def storedDrivers (submissions : DriverList) : DriverList :=
  if Stores D symbol ∧ submissions ≠ [] then initializerDrivers D symbol ++ submissions else []

variable {D symbol}

theorem ingest_append (subs : DriverList) (e : ValueDriver × DriverBitRange) :
    ingest D allowDupInitialDrivers symbol (subs ++ [e]) =
      ((addDriver D allowDupInitialDrivers symbol (ingest D allowDupInitialDrivers symbol subs).1
          e.1 e.2).driverMap,
        (ingest D allowDupInitialDrivers symbol subs).2 ++
          (addDriver D allowDupInitialDrivers symbol (ingest D allowDupInitialDrivers symbol subs).1
            e.1 e.2).reports) := by
  simp [ingest, List.foldl_append]

theorem baseMap_storedDrivers (h : Stores D symbol) (subs : DriverList) :
    baseMap D symbol (storedDrivers D symbol subs) = initializerDrivers D symbol ++ subs := by
  by_cases hs : subs = []
  · simp [baseMap, storedDrivers, hs]
  · have hne : initializerDrivers D symbol ++ subs ≠ [] := by simp [hs]
    simp [baseMap, storedDrivers, h, hs, hne]

theorem ingest_fst (subs : DriverList) :
    (ingest D allowDupInitialDrivers symbol subs).1 = storedDrivers D symbol subs := by
  induction subs using List.reverseRecOn with
  | nil => simp [ingest, storedDrivers]
  | append_singleton subs e ih =>
    rw [ingest_append, ih]
    by_cases h : Stores D symbol
    · rw [(addDriver_of_stores allowDupInitialDrivers h _ e.1 e.2).1, baseMap_storedDrivers h]
      simp [storedDrivers, h]
    · rw [(addDriver_of_not_stores allowDupInitialDrivers h _ e.1 e.2).1]
      simp [storedDrivers, h]

theorem ingest_snd_append (subs : DriverList) (e : ValueDriver × DriverBitRange) :
    (ingest D allowDupInitialDrivers symbol (subs ++ [e])).2 =
      (ingest D allowDupInitialDrivers symbol subs).2 ++
        if Stores D symbol then
          scanOverlaps D allowDupInitialDrivers symbol e.1 e.2
            ((initializerDrivers D symbol ++ subs).filter fun x => overlaps x.2 e.2)
        else [] := by
  rw [ingest_append, ingest_fst]
  by_cases h : Stores D symbol
  · rw [(addDriver_of_stores allowDupInitialDrivers h _ e.1 e.2).2.2, baseMap_storedDrivers h]
    simp [h]
  · rw [(addDriver_of_not_stores allowDupInitialDrivers h _ e.1 e.2).2]
    simp [h]

end Scan

def inputPortWire : Design := { Design.plain with kind := fun s => if s = 1 then .net else .other }

def wireAssign : ValueDriver := inputPortWire.makeDriver .continuous (.namedValue 1 ⟨20, 21⟩) 2 {}

def wireInputPort : ValueDriver :=
  inputPortWire.makeDriver .continuous (.namedValue 1 ⟨5, 6⟩) 2 { inputPort := true }

/-- The coercion code comes from the stored driver's flags alone: with the assignment stored
first, the input port's coercion is reported as an output port coercion. -/
theorem input_port_coercion_reported_by_order :
    ((ingest inputPortWire false 1 [(wireAssign, (0, 0)), (wireInputPort, (0, 0))]).2.map
        fun r => r.diag.map (·.code)) = [some .outputPortCoercion] ∧
      ((ingest inputPortWire false 1 [(wireInputPort, (0, 0)), (wireAssign, (0, 0))]).2.map
        fun r => r.diag.map (·.code)) = [some .inputPortCoercion] ∧
      wireInputPort.isInputPort = true := by
  decide

end DriverTracker.AddDriver
