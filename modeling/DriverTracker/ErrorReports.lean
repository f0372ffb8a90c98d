import DriverTracker.DiagnosticSites
import DriverTracker.DupInitialDrivers
import DriverTracker.Confluence

namespace DriverTracker.ErrorReports

open DriverTracker.Syntax DriverTracker.Driver DriverTracker.Elaboration DriverTracker.Overlap
  DriverTracker.AddDriver DriverTracker.State DriverTracker.Machine DriverTracker.StoredDrivers
  DriverTracker.OrderIndependence DriverTracker.DiagnosticSites DriverTracker.DupInitialDrivers
  DriverTracker.Confluence

section Counts

variable {D : Design} {allowDupInitialDrivers : Bool} {symbol : Sym}

theorem scanOverlaps_errors_le (d : ValueDriver) (b : DriverBitRange) (L : DriverList) :
    (scanOverlaps D allowDupInitialDrivers symbol d b L).countP (!·.tolerated) ≤
      min 1 L.length := by
  induction L with
  | nil => simp [scanOverlaps]
  | cons x rest ih =>
    have hrest := ih.trans (min_le_left _ _)
    rw [List.length_cons, Nat.min_eq_left (Nat.le_add_left _ _)]
    unfold scanOverlaps
    dsimp only
    split_ifs <;> simp_all [List.countP_cons]

theorem ingest_errors_le (subs : DriverList) :
    (ingest D allowDupInitialDrivers symbol subs).2.countP (!·.tolerated) ≤
      (storedDrivers D symbol subs).length - 1 := by
  by_cases hs : Stores D symbol
  · induction subs using List.reverseRecOn with
    | nil => simp [ingest]
    | append_singleton subs e ih =>
      rw [ingest_snd_append, if_pos hs, List.countP_append]
      refine (Nat.add_le_add ih ((scanOverlaps_errors_le _ _ _).trans
        (min_le_min_left 1 (List.length_filter_le _ _)))).trans ?_
      by_cases hsubs : subs = [] <;> simp [storedDrivers, hs, hsubs]
      omega
  · simp [ingest_snd_of_not_stores hs]

theorem countP_diag_errors {R : List OverlapReport}
    (h : ∀ r ∈ R, r.tolerated = (r.diag.map (·.code.isWarning)).getD true) :
    (R.filterMap (·.diag)).countP (!·.code.isWarning) = R.countP (!·.tolerated) := by
  induction R with
  | nil => rfl
  | cons r R ih =>
    rw [List.filterMap_cons, List.countP_cons, h r (List.mem_cons_self _ _),
      ← ih fun r' hr' => h r' (List.mem_cons_of_mem _ hr')]
    cases r.diag <;> simp [List.countP_cons]

theorem ingest_tolerated {subs : DriverList} {r : OverlapReport}
    (h : r ∈ (ingest D allowDupInitialDrivers symbol subs).2) :
    r.tolerated = (r.diag.map (·.code.isWarning)).getD true := by
  obtain ⟨-, -, -, hd, ht⟩ := ingest_report h
  rw [hd, ht, handleOverlap_tolerated_iff_warning]

theorem countP_errors_eq {ops : List (List Operation)} {s : Sys}
    (h : Reachable D allowDupInitialDrivers ops s) (symbol : Sym) :
    s.tracker.diagnostics.countP (fun g => g.symbol = symbol && !g.code.isWarning) =
      (ingest D allowDupInitialDrivers symbol (s.tracker.calls symbol)).2.countP (!·.tolerated) := by
  rw [← countP_diag_errors fun _ => ingest_tolerated, ← (reachable_ingested h symbol).2,
    List.countP_filter]
  simp only [Bool.and_comm]

theorem error_diagnostic_iff {ops : List (List Operation)} {s : Sys}
    (h : Reachable D allowDupInitialDrivers ops s) (symbol : Sym) :
    (∃ g ∈ s.tracker.diagnostics, g.symbol = symbol ∧ g.code.isWarning = false) ↔
      ∃ r ∈ (ingest D allowDupInitialDrivers symbol (s.tracker.calls symbol)).2,
        r.tolerated = false := by
  simpa only [List.countP_pos_iff, Bool.and_eq_true, decide_eq_true_eq, Bool.not_eq_true'] using
    Iff.of_eq (congrArg (0 < ·) (countP_errors_eq h symbol))

/-- However the workers interleave, a symbol has an error reported exactly when its map holds two
drivers, the first stored before the second, that overlap, form a problem and get an error from
`handleOverlap`: no such pair goes unreported. And each driver added reports at most one error,
since the scan of `addDriver` breaks at the first: the errors reported for a symbol are fewer
than the drivers its map holds. -/
theorem errors_reported_iff_conflict {ops : List (List Operation)} {s : Sys}
    (h : Reachable D allowDupInitialDrivers ops s) (symbol : Sym) :
    ((∃ g ∈ s.tracker.diagnostics, g.symbol = symbol ∧ g.code.isWarning = false) ↔
      ∃ p ∈ orderedPairs (s.tracker.getDrivers symbol),
        ErrorPair D allowDupInitialDrivers symbol p.1 p.2) ∧
    s.tracker.diagnostics.countP (fun g => g.symbol = symbol && !g.code.isWarning) ≤
      (s.tracker.getDrivers symbol).length - 1 := by
  rw [Tracker.getDrivers, (reachable_ingested h symbol).1, ← ingest_error_iff,
    countP_errors_eq h]
  exact ⟨error_diagnostic_iff h symbol, ingest_errors_le _⟩

theorem tolerated_of_plainNet (hp : plainNet D symbol) {c d : ValueDriver}
    (hu : c.isUnidirectionalPort ≠ d.isUnidirectionalPort) :
    tolerated (netFacts D symbol).isNet (netFacts D symbol).isUWire
      (netFacts D symbol).isSingleDriverUDNT c d = true := by
  simp only [plainNet, Bool.and_eq_true, Bool.not_eq_true'] at hp
  obtain ⟨⟨hn, hw⟩, hs⟩ := hp
  rw [hn, hw, hs]
  cases hc : c.isUnidirectionalPort <;> cases hd : d.isUnidirectionalPort <;>
    simp_all [tolerated, portConflict]

/-- However the workers interleave, a net whose type allows several drivers (neither a `uwire`
nor a user-defined net type without a resolution function) never has an error reported, not
even against its initializer's driver: each diagnostic of it is an `InputPortCoercion` or
`OutputPortCoercion` warning, on two overlapping drivers of its map of which exactly one is a
unidirectional port driver. -/
theorem plain_nets_only_warned {ops : List (List Operation)} {s : Sys}
    (h : Reachable D allowDupInitialDrivers ops s) (hp : plainNet D symbol) :
    ∀ g ∈ s.tracker.diagnostics, g.symbol = symbol →
      (g.code = .inputPortCoercion ∨ g.code = .outputPortCoercion) ∧
      ∃ p ∈ orderedPairs (s.tracker.getDrivers symbol), overlaps p.1.2 p.2.2 ∧
        p.1.1.isUnidirectionalPort ≠ p.2.1.isUnidirectionalPort := by
  rintro g hg rfl
  obtain ⟨hstored, r, hr, hrg⟩ := diagnostic_report h hg
  obtain ⟨hpair, ho, hprob, -, ht⟩ := ingest_report hr
  have hport : r.curr.1.isUnidirectionalPort ≠ r.driver.1.isUnidirectionalPort := by
    simpa [isProblem, checkOverlap_of_plainNet hp] using hprob
  have hwarn := ingest_tolerated hr
  rw [ht, handleOverlap_tolerated, tolerated_of_plainNet hp hport, hrg] at hwarn
  refine ⟨?_, _, hstored ▸ hpair, ho, hport⟩
  simp only [Option.map_some', Option.getD_some] at hwarn
  revert hwarn
  cases g.code <;> simp [DiagCode.isWarning]

theorem mem_orderedPairs_of_sublist {α : Type} {x y : α} {l : List α} (h : [x, y].Sublist l) :
    (x, y) ∈ orderedPairs l := by
  induction l with
  | nil => cases h
  | cons a l ih =>
    rw [orderedPairs]
    cases h with
    | cons _ h => exact List.mem_append_right _ (ih h)
    | cons₂ _ h => exact List.mem_append_left _ (List.mem_map_of_mem _ (h.subset (by simp)))

theorem errorPair_self (hc : checkOverlap D symbol = true) {e : ValueDriver × DriverBitRange}
    (hk : e.1.kind = .continuous) (hclk : e.1.isClockVar = false) (hb : e.2.1 ≤ e.2.2) :
    ErrorPair D allowDupInitialDrivers symbol e e := by
  have hplain : plainNet D symbol = false := by
    cases hp : plainNet D symbol
    · rfl
    · simp [checkOverlap_of_plainNet hp] at hc
  have hpc := portConflict_and_isNet _ _ _ e.1 e.1 hplain
  refine ⟨by simpa [overlaps] using hb, by simp [isProblem, hc, hk], ?_⟩
  rw [handleOverlap_tolerated]
  unfold tolerated
  split_ifs <;> simp_all

/-- However the workers interleave, a driver stored twice for a symbol checked for overlaps (a
static variable, a `uwire`, a net of a user-defined type without a resolution function, or a
local assertion variable) has an error reported for the symbol when it is continuous, not a
clocking variable's, and covers a bit: its second copy is checked against the first. Submitting
the same drivers again is not neutral for the diagnostics. -/
theorem stored_twice_reported {ops : List (List Operation)} {s : Sys}
    (h : Reachable D allowDupInitialDrivers ops s) (hc : checkOverlap D symbol = true)
    {e : ValueDriver × DriverBitRange} (htwice : 2 ≤ (s.tracker.getDrivers symbol).count e)
    (hk : e.1.kind = .continuous) (hclk : e.1.isClockVar = false) (hb : e.2.1 ≤ e.2.2) :
    ∃ g ∈ s.tracker.diagnostics, g.symbol = symbol ∧ g.code.isWarning = false := by
  rw [error_diagnostic_iff h, ingest_error_iff, ← (reachable_ingested h symbol).1]
  exact ⟨(e, e), mem_orderedPairs_of_sublist (List.le_count_iff_replicate_sublist.1 htwice),
    errorPair_self hc hk hclk hb⟩

/-- How many workers the analysis runs on, and which operations each is handed in which order,
changes nothing the tracker holds once every call has returned: two runs of the same operations,
however they are distributed over the workers and however the workers interleave, store the
same drivers for each symbol, up to order, and report errors for the same symbols. -/
theorem worker_distribution_independent {ops ops' : List (List Operation)}
    (hops : ∀ w ∈ ops, .propagateModportDrivers ∉ w) (hperm : ops.flatten.Perm ops'.flatten)
    {s s' : Sys} (h : Reachable D allowDupInitialDrivers ops s) (hq : s.pending = [])
    (h' : Reachable D allowDupInitialDrivers ops' s') (hq' : s'.pending = []) (symbol : Sym) :
    (s.tracker.getDrivers symbol).Perm (s'.tracker.getDrivers symbol) ∧
      ((∃ g ∈ s.tracker.diagnostics, g.symbol = symbol ∧ g.code.isWarning = false) ↔
        ∃ g ∈ s'.tracker.diagnostics, g.symbol = symbol ∧ g.code.isWarning = false) := by
  have hops' : ∀ w ∈ ops', .propagateModportDrivers ∉ w := fun w hw hc => by
    obtain ⟨v, hv, hcv⟩ := List.mem_flatten.1 (hperm.symm.subset (List.mem_flatten.2 ⟨w, hw, hc⟩))
    exact hops v hv hcv
  have hcalls : (s.tracker.calls symbol).Perm (s'.tracker.calls symbol) :=
    (calls_perm_specSubmissions hops h hq symbol).trans
      ((((Perm.specSubmissions hperm).filter _).map _).trans
        (calls_perm_specSubmissions hops' h' hq' symbol).symm)
  rw [Tracker.getDrivers, Tracker.getDrivers, (reachable_ingested h symbol).1,
    (reachable_ingested h' symbol).1, error_diagnostic_iff h, error_diagnostic_iff h']
  exact ⟨Perm.storedDrivers hcalls, (Perm.ingest_verdicts hcalls).2⟩

theorem mem_orderedPairs_of_mem {α : Type} {x y : α} {l : List α} (hx : x ∈ l) (hy : y ∈ l)
    (hne : x ≠ y) : (x, y) ∈ orderedPairs l ∨ (y, x) ∈ orderedPairs l := by
  induction l with
  | nil => cases hx
  | cons a l ih =>
    rw [orderedPairs, List.mem_append, List.mem_append, List.mem_map, List.mem_map]
    rcases List.mem_cons.1 hx with rfl | hxl <;> rcases List.mem_cons.1 hy with rfl | hyl
    · exact absurd rfl hne
    · exact .inl (.inl ⟨y, hyl, rfl⟩)
    · exact .inr (.inl ⟨x, hxl, rfl⟩)
    · exact (ih hxl hyl).imp .inr .inr

variable (allowDupInitialDrivers) in
theorem errorPair_other (hv : (D.kind symbol).isVariable = true)
    (hs : D.lifetime symbol = .static) {x y : ValueDriver × DriverBitRange}
    (hkx : x.1.kind = .procedural) (hky : y.1.kind = .procedural)
    (hsingle : x.1.isInSingleDriverProcedure = true) (hother : y.1.source = .other)
    (hcs : x.1.containingSymbol ≠ y.1.containingSymbol) (hfx : x.1.flags = {})
    (hfy : y.1.flags = {}) (ho : overlaps x.2 y.2 = true) :
    ErrorPair D allowDupInitialDrivers symbol x y ∧
      (handleOverlap D symbol x.1 y.1 (netFacts D symbol).isNet (netFacts D symbol).isUWire
        (netFacts D symbol).isSingleDriverUDNT).1.map (·.code) = some .multipleAlwaysAssigns := by
  have hnet : (netFacts D symbol).isNet = false := by
    cases hk : D.kind symbol <;> simp_all [netFacts, SymbolKind.isVariable]
  have hc : checkOverlap D symbol = true := by simp [checkOverlap, hv, hs]
  have hsrc : x.1.source.isSingleDriver = true := hsingle
  have hix : shouldIgnore allowDupInitialDrivers x.1 = false := by
    cases h : x.1.source <;> simp_all [shouldIgnore, DriverSource.isSingleDriver]
  have hiy : shouldIgnore allowDupInitialDrivers y.1 = false := by simp [shouldIgnore, hother, hfy]
  refine ⟨⟨ho, ?_, ?_⟩, ?_⟩
  · simp [isProblem, hc, hkx, hky, hcs, hix, hiy, hsingle, ValueDriver.isUnidirectionalPort, hfx, hfy]
  all_goals simp [handleOverlap, portConflict, hnet, hkx, hky, ValueDriver.isInputPort,
    ValueDriver.isClockVar, hfx, hfy]

/-- The comment on the overlap scan of `addDriver` says drivers of source `Other` (procedural
force and release) are not reported, but the scan has no test on the source. On a static
variable, a procedural driver of source `Other` and one in an `always_comb`, `always_ff` or
`always_latch` of another procedure, over overlapping bits and with no flag set, get a
`MultipleAlwaysAssigns` report from `handleOverlap`; and however the workers interleave, once the
map holds both, the variable has an error reported. -/
theorem other_source_drivers_reported {ops : List (List Operation)} {s : Sys}
    (h : Reachable D allowDupInitialDrivers ops s) (hv : (D.kind symbol).isVariable = true)
    (hs : D.lifetime symbol = .static) {x y : ValueDriver × DriverBitRange}
    (hx : x ∈ s.tracker.getDrivers symbol) (hy : y ∈ s.tracker.getDrivers symbol)
    (hkx : x.1.kind = .procedural) (hky : y.1.kind = .procedural)
    (hsingle : x.1.isInSingleDriverProcedure = true) (hother : y.1.source = .other)
    (hcs : x.1.containingSymbol ≠ y.1.containingSymbol) (hfx : x.1.flags = {})
    (hfy : y.1.flags = {}) (ho : overlaps x.2 y.2 = true) :
    (handleOverlap D symbol x.1 y.1 (netFacts D symbol).isNet (netFacts D symbol).isUWire
        (netFacts D symbol).isSingleDriverUDNT).1.map (·.code) = some .multipleAlwaysAssigns ∧
      ∃ g ∈ s.tracker.diagnostics, g.symbol = symbol ∧ g.code.isWarning = false := by
  obtain ⟨hpair, hcode⟩ := errorPair_other allowDupInitialDrivers hv hs hkx hky hsingle hother hcs
    hfx hfy ho
  refine ⟨hcode, ?_⟩
  rw [error_diagnostic_iff h, ingest_error_iff, ← (reachable_ingested h symbol).1]
  rcases mem_orderedPairs_of_mem hx hy fun e => hcs (e ▸ rfl) with hxy | hyx
  · exact ⟨_, hxy, hpair⟩
  · exact ⟨_, hyx, errorPair_comm.1 hpair⟩

end Counts

section Example

def threeCombs : List (List Operation) :=
  [10, 11, 12].map fun p =>
    [.procedure [(1, [(⟨.procedural, .namedValue 1 ⟨p, p + 1⟩, p, {}, .alwaysComb, none, false⟩,
      (0, 0))])]]

def threeCombsRun : Sys :=
  (Sys.init staticVar threeCombs).run staticVar false [0, 0, 1, 1, 2, 2]

theorem errors_reported_iff_conflict_threeCombs :
    Reachable staticVar false threeCombs threeCombsRun ∧
      ((∃ g ∈ threeCombsRun.tracker.diagnostics, g.symbol = 1 ∧ g.code.isWarning = false) ↔
        ∃ p ∈ orderedPairs (threeCombsRun.tracker.getDrivers 1),
          ErrorPair staticVar false 1 p.1 p.2) ∧
      threeCombsRun.tracker.diagnostics.countP (fun g => g.symbol = 1 && !g.code.isWarning) ≤
        (threeCombsRun.tracker.getDrivers 1).length - 1 :=
  have h := reachable_run [0, 0, 1, 1, 2, 2] .init
  ⟨h, errors_reported_iff_conflict h 1⟩

example : threeCombsRun.tracker.diagnostics.map (·.code) =
    [.multipleAlwaysAssigns, .multipleAlwaysAssigns] ∧
      (threeCombsRun.tracker.getDrivers 1).length = 3 := by
  decide

def oneWorker : List (List Operation) := [threeCombs.flatten]

def oneWorkerRun : Sys :=
  (Sys.init staticVar oneWorker).run staticVar false [0, 0, 0, 0, 0, 0]

theorem worker_distribution_independent_oneWorker :
    (∀ w ∈ threeCombs, .propagateModportDrivers ∉ w) ∧ threeCombs.flatten.Perm oneWorker.flatten ∧
      Reachable staticVar false threeCombs threeCombsRun ∧ threeCombsRun.pending = [] ∧
      Reachable staticVar false oneWorker oneWorkerRun ∧ oneWorkerRun.pending = [] ∧
      (threeCombsRun.tracker.getDrivers 1).Perm (oneWorkerRun.tracker.getDrivers 1) ∧
      ((∃ g ∈ threeCombsRun.tracker.diagnostics, g.symbol = 1 ∧ g.code.isWarning = false) ↔
        ∃ g ∈ oneWorkerRun.tracker.diagnostics, g.symbol = 1 ∧ g.code.isWarning = false) :=
  have hops : ∀ w ∈ threeCombs, .propagateModportDrivers ∉ w := by decide
  have hperm : threeCombs.flatten.Perm oneWorker.flatten := by simp [oneWorker]
  have h := reachable_run [0, 0, 1, 1, 2, 2] .init
  have hq : threeCombsRun.pending = [] := by decide
  have h' := reachable_run [0, 0, 0, 0, 0, 0] .init
  have hq' : oneWorkerRun.pending = [] := by decide
  ⟨hops, hperm, h, hq, h', hq', worker_distribution_independent hops hperm h hq h' hq' 1⟩

def initWire : Design :=
  { inputPortWire with
    initializer := fun s => if s = 1 then some (.namedValue 1 ⟨0, 1⟩) else none
    selectableWidth := fun _ => 4 }

def initWireOps : List (List Operation) := [[.procedure [(1, [(wireAssign, (0, 3))])]]]

def initWireRun : Sys := (Sys.init initWire initWireOps).run initWire false [0, 0]

theorem plain_nets_only_warned_initWireRun :
    Reachable initWire false initWireOps initWireRun ∧ plainNet initWire 1 = true ∧
      ∀ g ∈ initWireRun.tracker.diagnostics, g.symbol = 1 →
        (g.code = .inputPortCoercion ∨ g.code = .outputPortCoercion) ∧
        ∃ p ∈ orderedPairs (initWireRun.tracker.getDrivers 1), overlaps p.1.2 p.2.2 ∧
          p.1.1.isUnidirectionalPort ≠ p.2.1.isUnidirectionalPort :=
  have h := reachable_run [0, 0] .init
  have hp : plainNet initWire 1 = true := by decide
  ⟨h, hp, plain_nets_only_warned h hp⟩

example : (initWireRun.tracker.getDrivers 1).map (fun e => (e.1.kind, e.2)) =
      [(.continuous, (0, 3)), (.continuous, (0, 3))] ∧ initWireRun.tracker.diagnostics = [] := by
  decide

def uwireNet : Design := { inputPortWire with netKind := fun _ => .uwire }

def resubmitted : List (List Operation) :=
  [List.replicate 2 (.procedure [(1, [(wireAssign, (0, 0))])])]

def resubmittedRun : Sys := (Sys.init uwireNet resubmitted).run uwireNet false [0, 0, 0, 0]

theorem stored_twice_reported_resubmitted :
    Reachable uwireNet false resubmitted resubmittedRun ∧ checkOverlap uwireNet 1 = true ∧
      2 ≤ (resubmittedRun.tracker.getDrivers 1).count (wireAssign, (0, 0)) ∧
      wireAssign.kind = .continuous ∧ wireAssign.isClockVar = false ∧
      ∃ g ∈ resubmittedRun.tracker.diagnostics, g.symbol = 1 ∧ g.code.isWarning = false :=
  have h := reachable_run [0, 0, 0, 0] .init
  have hc : checkOverlap uwireNet 1 = true := by decide
  have htwice : 2 ≤ (resubmittedRun.tracker.getDrivers 1).count (wireAssign, (0, 0)) := by decide
  ⟨h, hc, htwice, rfl, rfl, stored_twice_reported h hc htwice rfl rfl (Nat.le_refl 0)⟩

example : ((Sys.init uwireNet resubmitted).run uwireNet false [0, 0]).tracker.diagnostics = [] ∧
    resubmittedRun.tracker.diagnostics.map (·.code) = [.multipleUWireDrivers] := by
  decide

def combDriver : ValueDriver := ⟨.procedural, .namedValue 1 ⟨0, 1⟩, 10, {}, .alwaysComb, none, false⟩

def forceDriver : ValueDriver := ⟨.procedural, .namedValue 1 ⟨5, 6⟩, 11, {}, .other, none, false⟩

def forceOps : List (List Operation) :=
  [[.procedure [(1, [(combDriver, (0, 0))])]], [.procedure [(1, [(forceDriver, (0, 0))])]]]

def forceRun : Sys := (Sys.init staticVar forceOps).run staticVar false [0, 0, 1, 1]

theorem other_source_drivers_reported_forceRun :
    Reachable staticVar false forceOps forceRun ∧
      (combDriver, (0, 0)) ∈ forceRun.tracker.getDrivers 1 ∧
      (forceDriver, (0, 0)) ∈ forceRun.tracker.getDrivers 1 ∧
      (handleOverlap staticVar 1 combDriver forceDriver (netFacts staticVar 1).isNet
          (netFacts staticVar 1).isUWire (netFacts staticVar 1).isSingleDriverUDNT).1.map (·.code) =
        some .multipleAlwaysAssigns ∧
      ∃ g ∈ forceRun.tracker.diagnostics, g.symbol = 1 ∧ g.code.isWarning = false :=
  have h := reachable_run [0, 0, 1, 1] .init
  have hx : (combDriver, (0, 0)) ∈ forceRun.tracker.getDrivers 1 := by decide
  have hy : (forceDriver, (0, 0)) ∈ forceRun.tracker.getDrivers 1 := by decide
  ⟨h, hx, hy, other_source_drivers_reported h rfl rfl hx hy rfl rfl rfl rfl (by decide) rfl rfl rfl⟩

example : forceRun.tracker.diagnostics.map (·.code) = [.multipleAlwaysAssigns] := by
  decide

end Example

end DriverTracker.ErrorReports
