import DriverTracker.SideEffects
import DriverTracker.OrderIndependence

namespace DriverTracker.Confluence

open DriverTracker.Syntax DriverTracker.Driver DriverTracker.Elaboration DriverTracker.AddDriver
  DriverTracker.State DriverTracker.Machine DriverTracker.StoredDrivers DriverTracker.SideEffects
  DriverTracker.OrderIndependence

section Submissions

variable (D : Design)

def replaySubmission (p : IfacePortDriver × Sym) : List (Sym × ValueDriver × DriverBitRange) :=
  match sideEffect D p.1 p.2 with
  | .ok (some e) => [e]
  | _ => []

def loopSubmissions (pending : List (Sym × DriverList)) : List (Sym × ValueDriver × DriverBitRange) :=
  pending.flatMap fun p => p.2.map ((p.1, ·))

def futureSubmissions : Call → List (Sym × ValueDriver × DriverBitRange)
  | .visitSymbols _ pending _ => loopSubmissions pending
  | .propagateModportDriver connectionExpr originalDriver =>
    loopSubmissions (lspDrivers D connectionExpr originalDriver.kind originalDriver.flags
      originalDriver.containingSymbol (splice originalDriver.prefixExpression connectionExpr))
  | _ => []

def madeSubmissions : Call → List (Sym × ValueDriver × DriverBitRange)
  | .visitSymbols _ (p :: _) _ => loopSubmissions [p]
  | _ => []

def submittedTo (symbol : Sym) (subs : List (Sym × ValueDriver × DriverBitRange)) : DriverList :=
  (subs.filter (·.1 = symbol)).map (·.2)

def SubmissionInv (S : List (Sym × ValueDriver × DriverBitRange)) (s : Sys) : Prop :=
  ∀ symbol, (s.tracker.calls symbol ++ submittedTo symbol (s.pending.flatMap (futureSubmissions D))).Perm
    (submittedTo symbol (S ++ s.tracker.applied.flatMap (replaySubmission D)))

def replayPairs (regs : List (Sym × IfacePortDriver)) (insts : List Sym) :
    List (IfacePortDriver × Sym) :=
  regs.flatMap fun r => (insts.filter (D.canonicalBody · = r.1)).map ((r.2, ·))

/-- The drivers submitted once the operations `ops` have run, however the workers interleave:
those of their loops, and those of one replay for each interface port driver they register and
each non-canonical instance they note for the same body. -/
def specSubmissions (ops : List (List Operation)) : List (Sym × ValueDriver × DriverBitRange) :=
  let pending := (Sys.init D ops).pending
  pending.flatMap (futureSubmissions D) ++
    (replayPairs D (pending.flatMap (futureRegistrations D)) (pending.flatMap futureInstances)).flatMap
      (replaySubmission D)

end Submissions

section Steps

variable {D : Design} {allowDupInitialDrivers : Bool}

@[simp] theorem submittedTo_append (symbol : Sym) (a b : List (Sym × ValueDriver × DriverBitRange)) :
    submittedTo symbol (a ++ b) = submittedTo symbol a ++ submittedTo symbol b := by
  simp [submittedTo]

theorem visitSymbol_calls (t : Tracker) (symbol : Sym) (ds : DriverList) (s : Sym) :
    (t.visitSymbol D allowDupInitialDrivers symbol ds).1.calls s =
      t.calls s ++ submittedTo s (loopSubmissions [(symbol, ds)]) := by
  induction ds generalizing t with
  | nil => simp [Tracker.visitSymbol, loopSubmissions, submittedTo]
  | cons e ds ih =>
    rw [Tracker.visitSymbol, ih]
    by_cases hs : s = symbol
    · subst hs
      simp [Tracker.addDriver, loopSubmissions, submittedTo]
    · simp [Tracker.addDriver, loopSubmissions, submittedTo, Function.update_noteq hs, Ne.symm hs]

theorem run_calls (c : Call) (t : Tracker) (s : Sym) :
    (c.run D allowDupInitialDrivers t).1.calls s = t.calls s ++
      submittedTo s (madeSubmissions c ++ (pendingApplication c).flatMap (replaySubmission D)) := by
  cases c with
  | visitSymbols noteRefs pending refs =>
    cases pending with
    | nil => simp [Call.run, madeSubmissions, pendingApplication, submittedTo]
    | cons p rest => simp [Call.run, madeSubmissions, pendingApplication, visitSymbol_calls]
  | noteInterfacePortDriver ref driver =>
    simp only [Call.run]
    split <;> simp [Tracker.registerIfacePortDriver, madeSubmissions, submittedTo]
  | applyInstanceSideEffect i inst =>
    simp only [Call.run, Tracker.applyInstanceSideEffect, madeSubmissions, pendingApplication,
      List.flatMap_cons, List.flatMap_nil, List.append_nil, List.nil_append, replaySubmission]
    split <;> rename_i h <;> simp [h, submittedTo, visitSymbol_calls, loopSubmissions]
  | noteNonCanonicalInstance inst =>
    simp [Call.run, Tracker.registerInstance, madeSubmissions, pendingApplication, submittedTo]
  | propagateModportDrivers => simp [Call.run, madeSubmissions, pendingApplication, submittedTo]
  | propagateModportDriver connectionExpr originalDriver =>
    simp [Call.run, madeSubmissions, pendingApplication, submittedTo]

theorem run_futureSubmissions (c : Call) (t : Tracker) (hc : c ≠ .propagateModportDrivers) :
    madeSubmissions c ++ (c.run D allowDupInitialDrivers t).2.flatMap (futureSubmissions D) =
      futureSubmissions D c := by
  cases c with
  | visitSymbols noteRefs pending refs =>
    cases pending <;>
      simp [Call.run, madeSubmissions, futureSubmissions, loopSubmissions, List.flatMap_map]
  | noteInterfacePortDriver ref driver =>
    simp only [Call.run]
    split
    · rfl
    · cases nextIfacePortRef D _ ref <;>
        simp [madeSubmissions, futureSubmissions, List.flatMap_map]
  | applyInstanceSideEffect i inst => rfl
  | noteNonCanonicalInstance inst =>
    simp [Call.run, madeSubmissions, futureSubmissions, List.flatMap_map]
  | propagateModportDrivers => exact absurd rfl hc
  | propagateModportDriver connectionExpr originalDriver =>
    simp [Call.run, madeSubmissions, futureSubmissions, addDrivers]

theorem step_submissionInv {S : List (Sym × ValueDriver × DriverBitRange)} {s : Sys}
    (hs : SubmissionInv D S s) (hp : .propagateModportDrivers ∉ s.pending) (w : Nat) :
    SubmissionInv D S (s.step D allowDupInitialDrivers w) := by
  rcases step_cases s w with heq | ⟨c, hc, ht, hperm⟩
  · rwa [heq]
  have hne : c ≠ .propagateModportDrivers := fun h => hp (h ▸ hc)
  have hsubs : (madeSubmissions c ++
      (s.step D allowDupInitialDrivers w).pending.flatMap (futureSubmissions D)).Perm
      (s.pending.flatMap (futureSubmissions D)) := by
    have h := hperm.flatMap_right (futureSubmissions D)
    rw [List.flatMap_cons, List.flatMap_append,
      ← @run_futureSubmissions D allowDupInitialDrivers c s.tracker hne, List.append_assoc] at h
    exact (List.perm_append_left_iff _).1 ((List.perm_append_comm_assoc _ _ _).trans h)
  intro symbol
  have hto : (submittedTo symbol (madeSubmissions c) ++ submittedTo symbol
      ((s.step D allowDupInitialDrivers w).pending.flatMap (futureSubmissions D))).Perm
      (submittedTo symbol (s.pending.flatMap (futureSubmissions D))) := by
    simpa using (hsubs.filter _).map (·.2)
  rw [ht, run_calls, applied_run, List.flatMap_append]
  calc List.Perm _ (s.tracker.calls symbol ++
        submittedTo symbol (s.pending.flatMap (futureSubmissions D)) ++
        submittedTo symbol ((pendingApplication c).flatMap (replaySubmission D))) := by
        simp only [submittedTo_append, List.append_assoc]
        refine List.Perm.append_left _ ((List.Perm.append_left _ List.perm_append_comm).trans ?_)
        rw [← List.append_assoc]
        exact hto.append_right _
    List.Perm _ _ := (hs symbol).append_right _
    _ = _ := by simp only [submittedTo_append, List.append_assoc]

theorem reachable_submissionInv {ops : List (List Operation)}
    (hops : ∀ w ∈ ops, .propagateModportDrivers ∉ w) {s : Sys}
    (h : Reachable D allowDupInitialDrivers ops s) :
    SubmissionInv D ((Sys.init D ops).pending.flatMap (futureSubmissions D)) s := by
  induction h with
  | init => intro symbol; simp [Sys.init, Tracker.empty]
  | @step s w hr ih => exact step_submissionInv ih (reachable_futureInv hops hr).noPropagation w

theorem filter_replayPairs (regs : List (Sym × IfacePortDriver)) (insts : List Sym) (body : Sym) :
    ((replayPairs D regs insts).filter (D.canonicalBody ·.2 = body)).Perm
      (((regs.filter (·.1 = body)).map (·.2)) ×ˢ (insts.filter (D.canonicalBody · = body))) := by
  induction regs with
  | nil => simp [replayPairs]
  | cons r regs ih =>
    rw [replayPairs, List.flatMap_cons, ← replayPairs, List.filter_append]
    by_cases hb : r.1 = body
    · have hkeep : (((insts.filter (D.canonicalBody · = r.1)).map ((r.2, ·))).filter
          (D.canonicalBody ·.2 = body)) = (insts.filter (D.canonicalBody · = body)).map ((r.2, ·)) := by
        refine hb ▸ List.filter_eq_self.2 fun p hp => ?_
        obtain ⟨x, hx, rfl⟩ := List.mem_map.1 hp
        exact (List.mem_filter.1 hx).2
      rw [hkeep, List.filter_cons_of_pos (by simpa using hb), List.map_cons, List.product_cons]
      exact ih.append_left _
    · have hdrop : (((insts.filter (D.canonicalBody · = r.1)).map ((r.2, ·))).filter
          (D.canonicalBody ·.2 = body)) = [] :=
        List.filter_eq_nil_iff.2 fun p hp => by
          obtain ⟨x, hx, rfl⟩ := List.mem_map.1 hp
          simpa [of_decide_eq_true (List.mem_filter.1 hx).2] using hb
      rw [hdrop, List.nil_append, List.filter_cons_of_neg (by simpa using hb)]
      exact ih

theorem Perm.replayPairs {regs regs' : List (Sym × IfacePortDriver)} {insts insts' : List Sym}
    (hr : regs.Perm regs') (hi : insts.Perm insts') :
    (replayPairs D regs insts).Perm (replayPairs D regs' insts') :=
  (hr.flatMap_right _).trans (List.Perm.flatMap_left _ fun _ _ => (hi.filter _).map _)

theorem init_pending (ops : List (List Operation)) :
    (Sys.init D ops).pending = ops.flatten.flatMap (Operation.calls D) := by
  induction ops with
  | nil => rfl
  | cons w ops ih => simp_all [Sys.pending, Sys.init]

theorem Perm.specSubmissions {ops ops' : List (List Operation)} (h : ops.flatten.Perm ops'.flatten) :
    (specSubmissions D ops).Perm (specSubmissions D ops') := by
  have hp : (Sys.init D ops).pending.Perm (Sys.init D ops').pending := by
    rw [init_pending, init_pending]
    exact h.flatMap_right _
  exact (hp.flatMap_right _).append
    ((Perm.replayPairs (hp.flatMap_right _) (hp.flatMap_right _)).flatMap_right _)

theorem applied_perm_replayPairs {ops : List (List Operation)}
    (hops : ∀ w ∈ ops, .propagateModportDrivers ∉ w) {s : Sys}
    (h : Reachable D allowDupInitialDrivers ops s) (hq : s.pending = []) :
    s.tracker.applied.Perm (replayPairs D ((Sys.init D ops).pending.flatMap (futureRegistrations D))
      ((Sys.init D ops).pending.flatMap futureInstances)) := by
  refine perm_of_filter_perm (fun p => D.canonicalBody p.2) fun body => ?_
  have hregs := (reachable_futureInv hops h).registrations body
  have hinsts := (reachable_futureInv hops h).instances body
  rw [hq] at hregs hinsts
  simp only [List.flatMap_nil, List.filter_nil, List.map_nil, List.append_nil] at hregs hinsts
  exact ((applied_perm_product h hq body).trans (hregs.product hinsts)).trans
    (filter_replayPairs _ _ body).symm

theorem calls_perm_specSubmissions {ops : List (List Operation)}
    (hops : ∀ w ∈ ops, .propagateModportDrivers ∉ w) {s : Sys}
    (h : Reachable D allowDupInitialDrivers ops s) (hq : s.pending = []) (symbol : Sym) :
    (s.tracker.calls symbol).Perm (submittedTo symbol (specSubmissions D ops)) := by
  have hi := reachable_submissionInv hops h symbol
  rw [hq] at hi
  simp only [List.flatMap_nil, submittedTo, List.filter_nil, List.map_nil, List.append_nil] at hi
  exact hi.trans (((((applied_perm_replayPairs hops h hq).flatMap_right _).append_left _).filter
    _).map _)

/-- However the workers interleave, once every call has returned each symbol has been submitted
the same drivers, up to order: its map holds the same drivers, and its overlap scans agree on
whether it is multiply driven and on the pairs they tolerate. -/
theorem quiescent_drivers_agree {ops : List (List Operation)}
    (hops : ∀ w ∈ ops, .propagateModportDrivers ∉ w) {s s' : Sys}
    (h : Reachable D allowDupInitialDrivers ops s) (hq : s.pending = [])
    (h' : Reachable D allowDupInitialDrivers ops s') (hq' : s'.pending = []) (symbol : Sym) :
    (s.tracker.calls symbol).Perm (s'.tracker.calls symbol) ∧
      (s.tracker.getDrivers symbol).Perm (s'.tracker.getDrivers symbol) ∧
      ((toleratedReports (ingest D allowDupInitialDrivers symbol (s.tracker.calls symbol)).2).map
          fun r => Sym2.mk (r.curr, r.driver)).Perm
        ((toleratedReports (ingest D allowDupInitialDrivers symbol (s'.tracker.calls symbol)).2).map
          fun r => Sym2.mk (r.curr, r.driver)) ∧
      ((∃ r ∈ (ingest D allowDupInitialDrivers symbol (s.tracker.calls symbol)).2,
          r.tolerated = false) ↔
        ∃ r ∈ (ingest D allowDupInitialDrivers symbol (s'.tracker.calls symbol)).2,
          r.tolerated = false) := by
  have hcalls : (s.tracker.calls symbol).Perm (s'.tracker.calls symbol) :=
    (calls_perm_specSubmissions hops h hq symbol).trans
      (calls_perm_specSubmissions hops h' hq' symbol).symm
  refine ⟨hcalls, ?_, Perm.ingest_verdicts hcalls⟩
  rw [Tracker.getDrivers, Tracker.getDrivers, (reachable_ingested h symbol).1,
    (reachable_ingested h' symbol).1]
  exact Perm.storedDrivers hcalls

/-- Once every call has returned, however the workers interleaved, each symbol has been submitted
the drivers `specSubmissions` computes from the operations alone, up to order, and its map holds
them after the initializer's driver. -/
theorem quiescent_calls_spec {ops : List (List Operation)}
    (hops : ∀ w ∈ ops, .propagateModportDrivers ∉ w) {s : Sys}
    (h : Reachable D allowDupInitialDrivers ops s) (hq : s.pending = []) (symbol : Sym) :
    (s.tracker.calls symbol).Perm (submittedTo symbol (specSubmissions D ops)) ∧
      (s.tracker.getDrivers symbol).Perm
        (storedDrivers D symbol (submittedTo symbol (specSubmissions D ops))) := by
  have hcalls := calls_perm_specSubmissions hops h hq symbol
  refine ⟨hcalls, ?_⟩
  rw [Tracker.getDrivers, (reachable_ingested h symbol).1]
  exact Perm.storedDrivers hcalls

theorem quiescent_calls_spec_instanceFirst :
    (∀ w ∈ sharedBodyOps, .propagateModportDrivers ∉ w) ∧
      Reachable sharedBody false sharedBodyOps instanceFirst ∧ instanceFirst.pending = [] ∧
      (instanceFirst.tracker.calls 7).Perm (submittedTo 7 (specSubmissions sharedBody sharedBodyOps)) ∧
      (instanceFirst.tracker.getDrivers 7).Perm
        (storedDrivers sharedBody 7 (submittedTo 7 (specSubmissions sharedBody sharedBodyOps))) :=
  have hops : ∀ w ∈ sharedBodyOps, .propagateModportDrivers ∉ w := by decide
  have h := reachable_run [0, 1, 1, 1, 1] .init
  have hq : instanceFirst.pending = [] := by decide
  ⟨hops, h, hq, quiescent_calls_spec hops h hq 7⟩

theorem quiescent_drivers_agree_sharedBody :
    (∀ w ∈ sharedBodyOps, .propagateModportDrivers ∉ w) ∧
      Reachable sharedBody false sharedBodyOps instanceFirst ∧ instanceFirst.pending = [] ∧
      Reachable sharedBody false sharedBodyOps driverFirst ∧ driverFirst.pending = [] ∧
      (instanceFirst.tracker.calls 7).Perm (driverFirst.tracker.calls 7) ∧
      (instanceFirst.tracker.getDrivers 7).Perm (driverFirst.tracker.getDrivers 7) ∧
      ((toleratedReports (ingest sharedBody false 7 (instanceFirst.tracker.calls 7)).2).map
          fun r => Sym2.mk (r.curr, r.driver)).Perm
        ((toleratedReports (ingest sharedBody false 7 (driverFirst.tracker.calls 7)).2).map
          fun r => Sym2.mk (r.curr, r.driver)) ∧
      ((∃ r ∈ (ingest sharedBody false 7 (instanceFirst.tracker.calls 7)).2, r.tolerated = false) ↔
        ∃ r ∈ (ingest sharedBody false 7 (driverFirst.tracker.calls 7)).2, r.tolerated = false) :=
  have hops : ∀ w ∈ sharedBodyOps, .propagateModportDrivers ∉ w := by decide
  have h := reachable_run [0, 1, 1, 1, 1] .init
  have h' := reachable_run [1, 1, 1, 0, 0] .init
  have hq : instanceFirst.pending = [] := by decide
  have hq' : driverFirst.pending = [] := by decide
  ⟨hops, h, hq, h', hq', quiescent_drivers_agree hops h hq h' hq' 7⟩

end Steps

end DriverTracker.Confluence
