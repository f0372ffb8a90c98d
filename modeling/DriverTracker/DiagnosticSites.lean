import DriverTracker.StoredDrivers
import DriverTracker.OrderIndependence

namespace DriverTracker.DiagnosticSites

open DriverTracker.Syntax DriverTracker.Driver DriverTracker.Elaboration DriverTracker.Overlap
  DriverTracker.AddDriver DriverTracker.State DriverTracker.Machine DriverTracker.StoredDrivers
  DriverTracker.OrderIndependence

def AtDrivers (L : List ValueDriver) (g : Diagnostic) : Prop :=
  g.range ∈ L.map (·.getSourceRange) ∧
    ∀ n ∈ g.notes, ∀ r ∈ n.range,
      r ∈ L.map (·.getSourceRange) ∨ r ∈ L.map (·.prefixExpression.sourceRange)

theorem AtDrivers.mono {L L' : List ValueDriver} {g : Diagnostic} (h : AtDrivers L g)
    (hL : L ⊆ L') : AtDrivers L' g := by
  have hm : ∀ f : ValueDriver → SourceRange, L.map f ⊆ L'.map f := fun _ => List.map_subset _ hL
  exact ⟨hm _ h.1, fun n hn r hr => (h.2 n hn r hr).imp (hm _ ·) (hm _ ·)⟩

section Sites

variable (D : Design) (symbol : Sym) (curr driver : ValueDriver)
  (isNet isUWire isSingleDriverUDNT : Bool)

theorem assignedHereNote_range {r r1 r2 : SourceRange}
    (h : r ∈ (assignedHereNote D curr driver r1 r2).range) : r = r1 := by
  unfold assignedHereNote at h
  split_ifs at h
  · exact (Option.mem_some_iff.1 h).symm
  · cases h

theorem originalAssignNote_range {n : Note} {r : SourceRange}
    (hn : n ∈ originalAssignNote curr driver) (h : r ∈ n.range) :
    r = driver.prefixExpression.sourceRange ∨ r = curr.prefixExpression.sourceRange := by
  unfold originalAssignNote at hn
  split_ifs at hn <;> simp only [List.mem_singleton, List.not_mem_nil] at hn <;> subst hn <;>
    obtain rfl := Option.mem_some_iff.1 h <;> simp

theorem handleOverlap_atDrivers {g : Diagnostic}
    (h : (handleOverlap D symbol curr driver isNet isUWire isSingleDriverUDNT).1 = some g) :
    AtDrivers [curr, driver] g := by
  unfold handleOverlap at h
  simp only [apply_ite Prod.fst] at h
  rcases ite_eq_iff.1 h with ⟨-, h⟩ | ⟨-, h⟩
  · -- a port driven from both sides
    cases h
    refine ⟨by dsimp only; split_ifs <;> simp, ?_⟩
    simp only [List.mem_singleton, forall_eq, Option.mem_def, Option.some.injEq, forall_eq']
    split_ifs <;> simp
  rcases ite_eq_iff.1 h with ⟨-, h⟩ | ⟨-, h⟩
  · -- a clocking block variable
    rcases ite_eq_iff.1 h with ⟨-, h⟩ | ⟨-, h⟩
    · cases h
    rcases ite_eq_iff.1 h with ⟨-, h⟩ | ⟨-, h⟩
    · cases h
    cases h
    refine ⟨by dsimp only; split_ifs <;> simp, ?_⟩
    simp only [List.mem_singleton, forall_eq, Option.mem_def, Option.some.injEq, forall_eq']
    split_ifs <;> simp
  rcases ite_eq_iff.1 h with ⟨-, h⟩ | ⟨-, h⟩
  · -- two procedural drivers
    cases h
    refine ⟨by dsimp only; split_ifs <;> simp, ?_⟩
    rintro n (_ | ⟨_, hn⟩) r hr
    · obtain rfl := assignedHereNote_range D curr driver hr
      split_ifs <;> simp
    · rcases originalAssignNote_range curr driver hn hr with rfl | rfl <;> simp
  · -- multiple continuous or mixed drivers
    cases h
    refine ⟨by simp, ?_⟩
    rintro n (_ | ⟨_, ⟨⟩⟩) r hr
    obtain rfl := assignedHereNote_range D curr driver hr
    simp

end Sites

section Reports

variable {D : Design} {allowDupInitialDrivers : Bool} {symbol : Sym}

theorem scanOverlaps_report {d : ValueDriver} {b : DriverBitRange} {L : DriverList}
    {r : OverlapReport} (h : r ∈ scanOverlaps D allowDupInitialDrivers symbol d b L) :
    r.curr ∈ L ∧ r.driver = (d, b) ∧
      isProblem (checkOverlap D symbol) (shouldIgnore allowDupInitialDrivers) r.curr.1 d ∧
      r.diag = (handleOverlap D symbol r.curr.1 d (netFacts D symbol).isNet
        (netFacts D symbol).isUWire (netFacts D symbol).isSingleDriverUDNT).1 ∧
      r.tolerated = (handleOverlap D symbol r.curr.1 d (netFacts D symbol).isNet
        (netFacts D symbol).isUWire (netFacts D symbol).isSingleDriverUDNT).2 := by
  induction L with
  | nil => cases h
  | cons curr rest ih =>
    unfold scanOverlaps at h
    split_ifs at h with hp
    · rcases List.mem_cons.1 h with rfl | h
      · exact ⟨List.mem_cons_self _ _, rfl, hp, rfl, rfl⟩
      · split_ifs at h
        · obtain ⟨h1, h2⟩ := ih h
          exact ⟨List.mem_cons_of_mem _ h1, h2⟩
        · cases h
    · obtain ⟨h1, h2⟩ := ih h
      exact ⟨List.mem_cons_of_mem _ h1, h2⟩

theorem mem_of_orderedPairs {α : Type} {l : List α} {p : α × α} (h : p ∈ orderedPairs l) :
    p.1 ∈ l ∧ p.2 ∈ l := by
  induction l with
  | nil => cases h
  | cons x xs ih =>
    rcases List.mem_append.1 h with h | h
    · obtain ⟨y, hy, rfl⟩ := List.mem_map.1 h
      exact ⟨List.mem_cons_self _ _, List.mem_cons_of_mem _ hy⟩
    · exact (ih h).imp (List.mem_cons_of_mem _) (List.mem_cons_of_mem _)

theorem ingest_report {subs : DriverList} {r : OverlapReport}
    (h : r ∈ (ingest D allowDupInitialDrivers symbol subs).2) :
    (r.curr, r.driver) ∈ orderedPairs (storedDrivers D symbol subs) ∧
      overlaps r.curr.2 r.driver.2 ∧
      isProblem (checkOverlap D symbol) (shouldIgnore allowDupInitialDrivers) r.curr.1 r.driver.1 ∧
      r.diag = (handleOverlap D symbol r.curr.1 r.driver.1 (netFacts D symbol).isNet
        (netFacts D symbol).isUWire (netFacts D symbol).isSingleDriverUDNT).1 ∧
      r.tolerated = (handleOverlap D symbol r.curr.1 r.driver.1 (netFacts D symbol).isNet
        (netFacts D symbol).isUWire (netFacts D symbol).isSingleDriverUDNT).2 := by
  induction subs using List.reverseRecOn with
  | nil => simp [ingest] at h
  | append_singleton subs e ih =>
    by_cases hs : Stores D symbol
    · have hst : storedDrivers D symbol (subs ++ [e]) =
          initializerDrivers D symbol ++ subs ++ [e] := by
        simp [storedDrivers, hs]
      rw [hst, mem_orderedPairs_append_singleton]
      rw [ingest_snd_append, if_pos hs] at h
      rcases List.mem_append.1 h with h | h
      · obtain ⟨h1, h2⟩ := ih h
        rw [orderedPairs_storedDrivers hs] at h1
        exact ⟨.inl h1, h2⟩
      · obtain ⟨hc, hd, hverdict⟩ := scanOverlaps_report h
        obtain ⟨hc, ho⟩ := List.mem_filter.1 hc
        rw [hd]
        exact ⟨.inr ⟨hc, rfl⟩, ho, hverdict⟩
    · rw [ingest_snd_of_not_stores hs] at h
      cases h

theorem diagnostic_report {ops : List (List Operation)} {s : Sys}
    (h : Reachable D allowDupInitialDrivers ops s) {g : Diagnostic}
    (hg : g ∈ s.tracker.diagnostics) :
    s.tracker.getDrivers g.symbol = storedDrivers D g.symbol (s.tracker.calls g.symbol) ∧
      ∃ r ∈ (ingest D allowDupInitialDrivers g.symbol (s.tracker.calls g.symbol)).2,
        r.diag = some g := by
  obtain ⟨hstored, hdiag⟩ := reachable_ingested h g.symbol
  have hmem : g ∈ s.tracker.diagnostics.filter (·.symbol = g.symbol) :=
    List.mem_filter.2 ⟨hg, by simp⟩
  rw [hdiag] at hmem
  exact ⟨hstored, List.mem_filterMap.1 hmem⟩

/-- However the workers interleave, every diagnostic reported is `handleOverlap`'s report on a
pair of drivers the map of its symbol holds, the first stored before the second, whose bits
overlap and which the scan of `addDriver` found a problem: no diagnostic is reported without
such a pair. -/
theorem diagnostics_sound {ops : List (List Operation)} {s : Sys}
    (h : Reachable D allowDupInitialDrivers ops s) :
    ∀ g ∈ s.tracker.diagnostics, ∃ p ∈ orderedPairs (s.tracker.getDrivers g.symbol),
      overlaps p.1.2 p.2.2 ∧
      isProblem (checkOverlap D g.symbol) (shouldIgnore allowDupInitialDrivers) p.1.1 p.2.1 ∧
      (handleOverlap D g.symbol p.1.1 p.2.1 (netFacts D g.symbol).isNet
        (netFacts D g.symbol).isUWire (netFacts D g.symbol).isSingleDriverUDNT).1 = some g := by
  intro g hg
  obtain ⟨hstored, r, hr, hrg⟩ := diagnostic_report h hg
  obtain ⟨hpair, ho, hp, hrd, -⟩ := ingest_report hr
  exact ⟨(r.curr, r.driver), hstored ▸ hpair, ho, hp, hrd ▸ hrg⟩

/-- However the workers interleave, every diagnostic reported is located at drivers the map of
its symbol holds: at the source range of one of the two overlapping drivers, with each note at
one of them or at its prefix expression. -/
theorem diagnostics_at_stored_drivers {ops : List (List Operation)} {s : Sys}
    (h : Reachable D allowDupInitialDrivers ops s) :
    ∀ g ∈ s.tracker.diagnostics, AtDrivers ((s.tracker.getDrivers g.symbol).map (·.1)) g := by
  intro g hg
  obtain ⟨hstored, r, hr, hrg⟩ := diagnostic_report h hg
  obtain ⟨hpair, -, -, hrd, -⟩ := ingest_report hr
  obtain ⟨hc, hd⟩ := mem_of_orderedPairs hpair
  rw [hrd] at hrg
  refine (handleOverlap_atDrivers D _ _ _ _ _ _ hrg).mono ?_
  rw [hstored]
  intro x hx
  simp only [List.mem_cons, List.not_mem_nil, or_false] at hx
  rcases hx with rfl | rfl
  · exact List.mem_map_of_mem _ hc
  · exact List.mem_map_of_mem _ hd

def coercionRun : Sys :=
  (Sys.init inputPortWire [[.procedure [(1, [(wireAssign, (0, 0)), (wireInputPort, (0, 0))])]]]).run
    inputPortWire false [0, 0, 0]

theorem diagnostics_at_stored_drivers_coercionRun :
    Reachable inputPortWire false
        [[.procedure [(1, [(wireAssign, (0, 0)), (wireInputPort, (0, 0))])]]] coercionRun ∧
      ∀ g ∈ coercionRun.tracker.diagnostics,
        AtDrivers ((coercionRun.tracker.getDrivers g.symbol).map (·.1)) g :=
  have h := reachable_run [0, 0, 0] .init
  ⟨h, diagnostics_at_stored_drivers h⟩

theorem diagnostics_sound_coercionRun :
    Reachable inputPortWire false
        [[.procedure [(1, [(wireAssign, (0, 0)), (wireInputPort, (0, 0))])]]] coercionRun ∧
      ∀ g ∈ coercionRun.tracker.diagnostics,
        ∃ p ∈ orderedPairs (coercionRun.tracker.getDrivers g.symbol),
          overlaps p.1.2 p.2.2 ∧
          isProblem (checkOverlap inputPortWire g.symbol) (shouldIgnore false) p.1.1 p.2.1 ∧
          (handleOverlap inputPortWire g.symbol p.1.1 p.2.1 (netFacts inputPortWire g.symbol).isNet
            (netFacts inputPortWire g.symbol).isUWire
            (netFacts inputPortWire g.symbol).isSingleDriverUDNT).1 = some g :=
  have h := reachable_run [0, 0, 0] .init
  ⟨h, diagnostics_sound h⟩

example : coercionRun.tracker.diagnostics.map (fun g => (g.range, g.notes.map (·.range))) =
    [(⟨20, 21⟩, [some ⟨5, 6⟩])] := by
  decide

end Reports

end DriverTracker.DiagnosticSites
