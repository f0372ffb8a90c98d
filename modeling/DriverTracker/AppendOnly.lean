import DriverTracker.SideEffects

namespace DriverTracker.AppendOnly

open DriverTracker.Syntax DriverTracker.Driver DriverTracker.Elaboration DriverTracker.AddDriver
  DriverTracker.State DriverTracker.Machine DriverTracker.SideEffects

/-- What a reader of the tracker sees at `t` it still sees at `t'`: every driver `getDrivers`
returns for a symbol, with its multiplicity, and, as prefixes, the diagnostics and the interface
port drivers and instances of every body. A map lists its drivers in insertion order, the order
the spec fixes for overlapping entries; for the drivers only inclusion is claimed, which does not
depend on that order. -/
structure Grows (t t' : Tracker) : Prop where
  drivers : ∀ symbol, (t.getDrivers symbol).Subperm (t'.getDrivers symbol)
  diagnostics : t.diagnostics <+: t'.diagnostics
  ifacePortDrivers : ∀ body,
    (t.instanceMap body).ifacePortDrivers <+: (t'.instanceMap body).ifacePortDrivers
  nonCanonicalInstances : ∀ body,
    (t.instanceMap body).nonCanonicalInstances <+: (t'.instanceMap body).nonCanonicalInstances

theorem Grows.refl (t : Tracker) : Grows t t :=
  ⟨fun _ => List.Subperm.refl _, List.prefix_refl _, fun _ => List.prefix_refl _,
    fun _ => List.prefix_refl _⟩

theorem Grows.trans {t t' t'' : Tracker} (h : Grows t t') (h' : Grows t' t'') : Grows t t'' :=
  ⟨fun s => (h.drivers s).trans (h'.drivers s), h.diagnostics.trans h'.diagnostics,
    fun b => (h.ifacePortDrivers b).trans (h'.ifacePortDrivers b),
    fun b => (h.nonCanonicalInstances b).trans (h'.nonCanonicalInstances b)⟩

theorem Grows.of_same {t t' : Tracker} (hd : t'.symbolDrivers = t.symbolDrivers)
    (hg : t'.diagnostics = t.diagnostics) (hi : t'.instanceMap = t.instanceMap) : Grows t t' := by
  refine ⟨fun s => ?_, ?_, fun b => ?_, fun b => ?_⟩ <;>
    simp [Tracker.getDrivers, hd, hg, hi, List.Subperm.refl]

section Steps

variable {D : Design} {allowDupInitialDrivers : Bool}

theorem addDriver_extends_driverMap (symbol : Sym) (m : DriverList) (d : ValueDriver)
    (b : DriverBitRange) : m <+: (addDriver D allowDupInitialDrivers symbol m d b).driverMap := by
  unfold addDriver
  dsimp only
  split_ifs with h1 h2 h3 h4 <;> simp_all

theorem tracker_addDriver_grows (t : Tracker) (symbol : Sym) (d : ValueDriver)
    (b : DriverBitRange) : Grows t (t.addDriver D allowDupInitialDrivers symbol d b).1 := by
  refine ⟨fun s => ?_, by simp [Tracker.addDriver], fun _ => by simp, fun _ => by simp⟩
  by_cases hs : s = symbol
  · subst hs
    simpa [Tracker.getDrivers, Tracker.addDriver] using
      (addDriver_extends_driverMap s _ d b).sublist.subperm
  · simp [Tracker.getDrivers, Tracker.addDriver, Function.update_noteq hs, List.Subperm.refl]

theorem visitSymbol_grows (symbol : Sym) (ds : DriverList) (t : Tracker) :
    Grows t (t.visitSymbol D allowDupInitialDrivers symbol ds).1 := by
  induction ds generalizing t with
  | nil => exact Grows.refl t
  | cons e ds ih => exact (tracker_addDriver_grows t symbol e.1 e.2).trans (ih _)

theorem run_grows (c : Call) (t : Tracker) : Grows t (c.run D allowDupInitialDrivers t).1 := by
  cases c with
  | visitSymbols noteRefs pending refs =>
    cases pending with
    | nil => exact Grows.refl t
    | cons p rest => exact visitSymbol_grows p.1 p.2 t
  | noteInterfacePortDriver ref driver =>
    simp only [Call.run]
    split
    · exact Grows.refl t
    · refine ⟨fun _ => List.Subperm.refl _, List.prefix_refl _, fun b => ?_, fun b => ?_⟩
      · rw [(registerIfacePortDriver_instanceMap t _ _ b).1]
        split_ifs <;> simp
      · simp only [(registerIfacePortDriver_instanceMap t _ _ b).2, List.prefix_refl]
  | applyInstanceSideEffect i inst =>
    simp only [Call.run, Tracker.applyInstanceSideEffect]
    split
    · exact Grows.of_same rfl (by simp) rfl
    · exact Grows.of_same rfl rfl rfl
    · refine (Grows.of_same ?_ ?_ ?_).trans (visitSymbol_grows _ _ _) <;> rfl
  | noteNonCanonicalInstance inst =>
    refine ⟨fun _ => List.Subperm.refl _, List.prefix_refl _, fun b => ?_, fun b => ?_⟩
    · simp only [Call.run, (registerInstance_instanceMap t _ _ b).1, List.prefix_refl]
    · rw [Call.run, (registerInstance_instanceMap t _ _ b).2]
      split_ifs <;> simp
  | propagateModportDrivers => exact Grows.of_same rfl rfl rfl
  | propagateModportDriver connectionExpr originalDriver => exact Grows.of_same rfl rfl rfl

theorem step_grows (s : Sys) (w : Nat) :
    Grows s.tracker (s.step D allowDupInitialDrivers w).tracker := by
  rcases step_cases s w with heq | ⟨c, -, ht, -⟩
  · rw [heq]
    exact Grows.refl _
  · rw [ht]
    exact run_grows c s.tracker

/-- From any state, whatever the workers do next, nothing a reader has seen is lost: every driver
`getDrivers` returns for a symbol is returned later too, and the diagnostics reported and the
interface port drivers and non-canonical instances registered for a body only gain entries at
their end. -/
theorem tracker_append_only (s : Sys) (schedule : List Nat) :
    Grows s.tracker (s.run D allowDupInitialDrivers schedule).tracker := by
  induction schedule generalizing s with
  | nil => exact Grows.refl _
  | cons w schedule ih => exact (step_grows s w).trans (ih _)

end Steps

end DriverTracker.AppendOnly
