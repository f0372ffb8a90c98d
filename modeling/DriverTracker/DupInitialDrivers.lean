import DriverTracker.OrderIndependence
import DriverTracker.Machine

namespace DriverTracker.DupInitialDrivers

open DriverTracker.Syntax DriverTracker.Driver DriverTracker.Elaboration DriverTracker.Overlap
  DriverTracker.AddDriver DriverTracker.OrderIndependence DriverTracker.State DriverTracker.Machine

def eraseDiagnostics (t : Tracker) : Tracker := { t with diagnostics := [] }

section Flag

variable {D : Design}

theorem addDriver_eq_of_flag (a a' : Bool) (symbol : Sym) (m : DriverList) (d : ValueDriver)
    (b : DriverBitRange) :
    { addDriver D a symbol m d b with reports := [] } =
      { addDriver D a' symbol m d b with reports := [] } := by
  unfold addDriver
  dsimp only
  split_ifs <;> rfl

theorem tracker_addDriver_erase (a a' : Bool) (t : Tracker) (symbol : Sym) (d : ValueDriver)
    (b : DriverBitRange) :
    eraseDiagnostics (t.addDriver D a symbol d b).1 =
        eraseDiagnostics ((eraseDiagnostics t).addDriver D a' symbol d b).1 ∧
      (t.addDriver D a symbol d b).2 = ((eraseDiagnostics t).addDriver D a' symbol d b).2 := by
  have h := addDriver_eq_of_flag (D := D) a a' symbol (t.symbolDrivers symbol) d b
  simp only [AddOutcome.mk.injEq, and_true] at h
  obtain ⟨hmap, hentry, href⟩ := h
  simp [Tracker.addDriver, eraseDiagnostics, hmap, hentry, href]

theorem visitSymbol_erase (ds : DriverList) :
    ∀ (a a' : Bool) (t : Tracker) (symbol : Sym),
      eraseDiagnostics (t.visitSymbol D a symbol ds).1 =
          eraseDiagnostics ((eraseDiagnostics t).visitSymbol D a' symbol ds).1 ∧
        (t.visitSymbol D a symbol ds).2 = ((eraseDiagnostics t).visitSymbol D a' symbol ds).2 := by
  induction ds with
  | nil => intro a a' t symbol; simp [Tracker.visitSymbol, eraseDiagnostics]
  | cons e ds ih =>
    intro a a' t symbol
    obtain ⟨h1, h2⟩ := tracker_addDriver_erase a a' t symbol e.1 e.2
    obtain ⟨h3, h4⟩ := ih a a' (t.addDriver D a symbol e.1 e.2).1 symbol
    obtain ⟨h5, h6⟩ := ih a' a' ((eraseDiagnostics t).addDriver D a' symbol e.1 e.2).1 symbol
    simp only [Tracker.visitSymbol]
    rw [h1] at h3 h4
    exact ⟨h3.trans h5.symm, by rw [h2, h4, h6]⟩

theorem run_erase (c : Call) (a a' : Bool) (t : Tracker) :
    eraseDiagnostics (c.run D a t).1 = eraseDiagnostics (c.run D a' (eraseDiagnostics t)).1 ∧
      (c.run D a t).2 = (c.run D a' (eraseDiagnostics t)).2 := by
  cases c with
  | visitSymbols noteRefs pending refs =>
    cases pending with
    | nil => exact ⟨rfl, rfl⟩
    | cons p rest =>
      obtain ⟨h1, h2⟩ := visitSymbol_erase (D := D) p.2 a a' t p.1
      simp only [Call.run, h1, h2, and_self]
  | noteInterfacePortDriver ref driver =>
    simp only [Call.run]
    split <;> exact ⟨rfl, rfl⟩
  | applyInstanceSideEffect i inst =>
    refine ⟨?_, rfl⟩
    simp only [Call.run, Tracker.applyInstanceSideEffect]
    split
    · rfl
    · rfl
    · exact (visitSymbol_erase _ a a' _ _).1
  | _ => exact ⟨rfl, rfl⟩

theorem step_erase {s s' : Sys} (hw : s.workers = s'.workers)
    (ht : eraseDiagnostics s.tracker = eraseDiagnostics s'.tracker) (a a' : Bool) (w : Nat) :
    (s.step D a w).workers = (s'.step D a' w).workers ∧
      eraseDiagnostics (s.step D a w).tracker = eraseDiagnostics (s'.step D a' w).tracker := by
  unfold Sys.step
  rw [← hw]
  split
  · rename_i c rest _
    obtain ⟨h1, h2⟩ := run_erase c a a' s.tracker
    obtain ⟨h3, h4⟩ := run_erase c a' a' s'.tracker
    rw [← ht] at h3 h4
    exact ⟨by simp only [h2, h4], h1.trans h3.symm⟩
  · exact ⟨hw, ht⟩

theorem run_erase_sys (a a' : Bool) (schedule : List Nat) :
    ∀ {s s' : Sys}, s.workers = s'.workers →
      eraseDiagnostics s.tracker = eraseDiagnostics s'.tracker →
      (s.run D a schedule).workers = (s'.run D a' schedule).workers ∧
        eraseDiagnostics (s.run D a schedule).tracker =
          eraseDiagnostics (s'.run D a' schedule).tracker := by
  induction schedule with
  | nil => exact fun hw ht => ⟨hw, ht⟩
  | cons w schedule ih =>
    intro s s' hw ht
    obtain ⟨hw', ht'⟩ := step_erase hw ht a a' w
    exact ih hw' ht'

theorem isProblem_of_flag {c : Bool} {x y : ValueDriver}
    (h : isProblem c (shouldIgnore true) x y = true) :
    isProblem c (shouldIgnore false) x y = true := by
  unfold isProblem at *
  split_ifs at * <;> simp_all [shouldIgnore]

theorem ingest_error_of_flag (symbol : Sym) (subs : DriverList)
    (h : ∃ r ∈ (ingest D true symbol subs).2, r.tolerated = false) :
    ∃ r ∈ (ingest D false symbol subs).2, r.tolerated = false := by
  rw [ingest_error_iff] at h ⊢
  obtain ⟨p, hp, h1, h2, h3⟩ := h
  exact ⟨p, hp, h1, isProblem_of_flag h2, h3⟩

/-- Whatever the operations and the schedule, running with `AllowDupInitialDrivers` set or not
leaves the same calls on every worker's stack and the same tracker apart from its diagnostics:
the drivers stored, the modport entries, the instance map and every replay are the same. And the
flag only ever removes errors: a symbol whose scans report an error with the flag set reports
one without it. -/
theorem allowDupInitialDrivers_only_relaxes (ops : List (List Operation)) (schedule : List Nat) :
    ((Sys.init D ops).run D true schedule).workers =
        ((Sys.init D ops).run D false schedule).workers ∧
      eraseDiagnostics ((Sys.init D ops).run D true schedule).tracker =
        eraseDiagnostics ((Sys.init D ops).run D false schedule).tracker ∧
      ∀ symbol,
        (∃ r ∈ (ingest D true symbol
            (((Sys.init D ops).run D true schedule).tracker.calls symbol)).2,
          r.tolerated = false) →
        ∃ r ∈ (ingest D false symbol
            (((Sys.init D ops).run D false schedule).tracker.calls symbol)).2,
          r.tolerated = false := by
  obtain ⟨hw, ht⟩ := run_erase_sys (D := D) true false schedule (s := Sys.init D ops) rfl rfl
  have hcalls := congrArg Tracker.calls ht
  refine ⟨hw, ht, fun symbol h => ?_⟩
  rw [← show ((Sys.init D ops).run D true schedule).tracker.calls =
    ((Sys.init D ops).run D false schedule).tracker.calls from hcalls]
  exact ingest_error_of_flag symbol _ h

end Flag

section Example

def staticVar : Design :=
  { Design.plain with kind := fun _ => .variable, lifetime := fun _ => .static }

def initialAndComb : List (List Operation) :=
  [[.procedure [(1, [(⟨.procedural, .namedValue 1 ⟨0, 1⟩, 10, {}, .initial, none, false⟩,
      (0, 0))])]],
    [.procedure [(1, [(⟨.procedural, .namedValue 1 ⟨5, 6⟩, 11, {}, .alwaysComb, none, false⟩,
      (0, 0))])]]]

example :
    ((Sys.init staticVar initialAndComb).run staticVar true [0, 0, 1, 1]).tracker.diagnostics = [] ∧
      (((Sys.init staticVar initialAndComb).run staticVar false
        [0, 0, 1, 1]).tracker.diagnostics.map (·.code)) = [.multipleAlwaysAssigns] := by
  decide

end Example

end DriverTracker.DupInitialDrivers
