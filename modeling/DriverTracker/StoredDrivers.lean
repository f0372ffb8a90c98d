import DriverTracker.Machine

namespace DriverTracker.StoredDrivers

open DriverTracker.Syntax DriverTracker.Driver DriverTracker.Elaboration DriverTracker.Overlap
  DriverTracker.AddDriver DriverTracker.State DriverTracker.Machine

variable {D : Design} {allowDupInitialDrivers : Bool}

theorem addDriver_diag_symbol {symbol : Sym} {m : DriverList} {d : ValueDriver}
    {b : DriverBitRange} {diag : Diagnostic}
    (h : diag ∈ (addDriver D allowDupInitialDrivers symbol m d b).reports.filterMap (·.diag)) :
    diag.symbol = symbol := by
  obtain ⟨r, hr, hd⟩ := List.mem_filterMap.1 h
  by_cases hs : Stores D symbol
  · rw [(addDriver_of_stores allowDupInitialDrivers hs m d b).2.2] at hr
    exact scanOverlaps_symbol D allowDupInitialDrivers symbol hr hd
  · rw [(addDriver_of_not_stores allowDupInitialDrivers hs m d b).2] at hr
    cases hr

variable (D allowDupInitialDrivers)

def Ingested (t : Tracker) : Prop :=
  ∀ symbol, t.symbolDrivers symbol = storedDrivers D symbol (t.calls symbol) ∧
    t.diagnostics.filter (·.symbol = symbol) =
      (ingest D allowDupInitialDrivers symbol (t.calls symbol)).2.filterMap (·.diag)

variable {D allowDupInitialDrivers}

theorem addDriver_ingested {t : Tracker} (h : Ingested D allowDupInitialDrivers t) (symbol : Sym)
    (d : ValueDriver) (b : DriverBitRange) :
    Ingested D allowDupInitialDrivers (t.addDriver D allowDupInitialDrivers symbol d b).1 := by
  intro s
  obtain ⟨hstored, hdiag⟩ := h symbol
  have hnew : ∀ g ∈ (addDriver D allowDupInitialDrivers symbol (t.symbolDrivers symbol) d b).reports.filterMap
      (·.diag), g.symbol = symbol := fun _ hg => addDriver_diag_symbol hg
  simp only [Tracker.addDriver, List.filter_append]
  by_cases hs : s = symbol
  · subst hs
    have hingest := @ingest_append D allowDupInitialDrivers s (t.calls s) (d, b)
    rw [ingest_fst, ← hstored] at hingest
    simp only [Function.update_same, ← ingest_fst allowDupInitialDrivers, hingest, hdiag,
      List.filterMap_append]
    exact ⟨trivial, congrArg _ (List.filter_eq_self.2 fun g hg => by simpa using hnew g hg)⟩
  · simp only [Function.update_noteq hs]
    refine ⟨(h s).1, ?_⟩
    rw [(h s).2, List.filter_eq_nil_iff.2 fun g hg => by simpa [hnew g hg] using Ne.symm hs, List.append_nil]

theorem visitSymbol_ingested {t : Tracker} (h : Ingested D allowDupInitialDrivers t)
    (symbol : Sym) (ds : DriverList) :
    Ingested D allowDupInitialDrivers (t.visitSymbol D allowDupInitialDrivers symbol ds).1 := by
  induction ds generalizing t with
  | nil => exact h
  | cons e ds ih => exact ih (addDriver_ingested h symbol e.1 e.2)

theorem run_ingested {t : Tracker} (h : Ingested D allowDupInitialDrivers t) (c : Call) :
    Ingested D allowDupInitialDrivers (c.run D allowDupInitialDrivers t).1 := by
  cases c with
  | visitSymbols noteRefs pending refs =>
    cases pending with
    | nil => exact h
    | cons p rest => exact visitSymbol_ingested h p.1 p.2
  | noteInterfacePortDriver ref driver =>
    simp only [Call.run]
    split <;> exact h
  | applyInstanceSideEffect ifacePortDriver inst =>
    simp only [Call.run, Tracker.applyInstanceSideEffect]
    split
    · exact h
    · exact h
    · exact visitSymbol_ingested (by exact h) _ _
  | noteNonCanonicalInstance inst => exact h
  | propagateModportDrivers => exact h
  | propagateModportDriver connectionExpr originalDriver => exact h

theorem reachable_ingested {ops : List (List Operation)} {s : Sys}
    (h : Reachable D allowDupInitialDrivers ops s) : Ingested D allowDupInitialDrivers s.tracker := by
  induction h with
  | init => intro symbol; simp [Sys.init, Tracker.empty, storedDrivers, ingest]
  | @step s w _ ih =>
    rcases step_cases s w with heq | ⟨c, -, ht, -⟩
    · rwa [heq]
    · rw [ht]
      exact run_ingested ih c

/-- In every run, a symbol's map holds one entry for each `addDriver` call made for it and,
once there is one, the initializer's driver over all of its bits; nothing for a class-typed
symbol or a modport port. -/
theorem getDrivers_perm_calls {ops : List (List Operation)} {s : Sys}
    (h : Reachable D allowDupInitialDrivers ops s) (symbol : Sym) :
    (s.tracker.getDrivers symbol).Perm
        (if D.isClassTyped symbol = true ∨ D.kind symbol = .modportPort ∨
            s.tracker.calls symbol = [] then []
          else initializerDrivers D symbol ++ s.tracker.calls symbol) ∧
      (initializerDrivers D symbol).map (·.2) =
        (if (D.initializer symbol).isSome ∧ (D.kind symbol = .net ∨ D.kind symbol = .variable ∨
            D.kind symbol = .classProperty ∨ D.kind symbol = .field) then
          [(0, (D.selectableWidth symbol - 1).toNat)]
        else []) ∧
      ∀ e ∈ initializerDrivers D symbol, e.1.flags = { initializer := true } := by
  refine ⟨?_, initializerDrivers_bounds D symbol, initializerDrivers_flags D symbol⟩
  rw [Tracker.getDrivers, (reachable_ingested h symbol).1, storedDrivers]
  by_cases hc : D.isClassTyped symbol <;> by_cases hk : D.kind symbol = .modportPort <;>
    simp [Stores, hc, hk]

def wireRun : Sys :=
  (Sys.init inputPortWire [[.procedure [(1, [(wireAssign, (0, 0))])]]]).run inputPortWire false [0]

theorem getDrivers_perm_calls_wireRun :
    Reachable inputPortWire false [[.procedure [(1, [(wireAssign, (0, 0))])]]] wireRun ∧
      (wireRun.tracker.getDrivers 1).Perm
        (if inputPortWire.isClassTyped 1 = true ∨ inputPortWire.kind 1 = .modportPort ∨
            wireRun.tracker.calls 1 = [] then []
          else initializerDrivers inputPortWire 1 ++ wireRun.tracker.calls 1) ∧
      (initializerDrivers inputPortWire 1).map (·.2) =
        (if (inputPortWire.initializer 1).isSome ∧ (inputPortWire.kind 1 = .net ∨
            inputPortWire.kind 1 = .variable ∨ inputPortWire.kind 1 = .classProperty ∨
            inputPortWire.kind 1 = .field) then
          [(0, (inputPortWire.selectableWidth 1 - 1).toNat)]
        else []) ∧
      ∀ e ∈ initializerDrivers inputPortWire 1, e.1.flags = { initializer := true } :=
  have h := reachable_run [0] .init
  ⟨h, getDrivers_perm_calls h 1⟩

/-- In every run, the diagnostics reported for a symbol are those of its `addDriver` calls
ingested one by one in the order its visitor ran them. -/
theorem diagnostics_of_symbol {ops : List (List Operation)} {s : Sys}
    (h : Reachable D allowDupInitialDrivers ops s) (symbol : Sym) :
    s.tracker.diagnostics.filter (·.symbol = symbol) =
      (ingest D allowDupInitialDrivers symbol (s.tracker.calls symbol)).2.filterMap (·.diag) :=
  (reachable_ingested h symbol).2

theorem diagnostics_of_symbol_wireRun :
    Reachable inputPortWire false [[.procedure [(1, [(wireAssign, (0, 0))])]]] wireRun ∧
      wireRun.tracker.diagnostics.filter (·.symbol = 1) =
        (ingest inputPortWire false 1 (wireRun.tracker.calls 1)).2.filterMap (·.diag) :=
  have h := reachable_run [0] .init
  ⟨h, diagnostics_of_symbol h 1⟩

end DriverTracker.StoredDrivers
