import DriverTracker.Propagation

namespace DriverTracker.Termination

open DriverTracker.Syntax DriverTracker.Driver DriverTracker.Elaboration DriverTracker.AddDriver
  DriverTracker.State DriverTracker.Machine DriverTracker.SideEffects DriverTracker.Propagation

section Potential

variable (D : Design)

def chainSteps (ref : HierarchicalReference) (driver : ValueDriver) : Nat :=
  (chainRegistrations D ref driver).length + 1

def visitSteps (noteRefs : Bool) (pending : List (Sym × DriverList))
    (refs : List (HierarchicalReference × ValueDriver)) : Nat :=
  pending.length + 1 + ((notedRefs D noteRefs pending refs).map fun r => chainSteps D r.1 r.2).sum

def callSteps : Call → Nat
  | .visitSymbols noteRefs pending refs => visitSteps D noteRefs pending refs
  | .noteInterfacePortDriver ref driver => chainSteps D ref driver
  | .applyInstanceSideEffect _ _ | .noteNonCanonicalInstance _ => 1
  | .propagateModportDriver connectionExpr originalDriver =>
    1 + visitSteps D true (lspDrivers D connectionExpr originalDriver.kind originalDriver.flags
      originalDriver.containingSymbol (splice originalDriver.prefixExpression connectionExpr)) []
  | .propagateModportDrivers => 0

def replaySteps (instanceMap : Sym → InstanceState) (regs : List (Sym × IfacePortDriver))
    (insts : List Sym) : Nat :=
  (regs.map fun r => (instanceMap r.1).nonCanonicalInstances.length +
    (insts.filter (D.canonicalBody · = r.1)).length).sum +
  (insts.map fun inst => (instanceMap (D.canonicalBody inst)).ifacePortDrivers.length).sum

def stepsLeft (instanceMap : Sym → InstanceState) (pending : List Call) : Nat :=
  (pending.map (callSteps D)).sum +
    replaySteps D instanceMap (pending.flatMap (futureRegistrations D))
      (pending.flatMap futureInstances)

def potential (s : Sys) : Nat := stepsLeft D s.tracker.instanceMap s.pending

variable (allowDupInitialDrivers : Bool)

def busySteps : Sys → List Nat → Nat
  | _, [] => 0
  | s, w :: schedule =>
    (match s.workers[w]? with
      | some (_ :: _) => 1
      | _ => 0) + busySteps (s.step D allowDupInitialDrivers w) schedule

end Potential

section Replays

variable {D : Design}

theorem replaySteps_perm (instanceMap : Sym → InstanceState) {regs regs' : List (Sym × IfacePortDriver)}
    {insts insts' : List Sym} (hr : regs.Perm regs') (hi : insts.Perm insts') :
    replaySteps D instanceMap regs insts = replaySteps D instanceMap regs' insts' := by
  have hf : ∀ b, (insts.filter (D.canonicalBody · = b)).length =
      (insts'.filter (D.canonicalBody · = b)).length := fun b => (hi.filter _).length_eq
  simp only [replaySteps, hf, (hr.map _).sum_eq, (hi.map _).sum_eq]

theorem replaySteps_cons (instanceMap : Sym → InstanceState) (r : Sym × IfacePortDriver)
    (regs : List (Sym × IfacePortDriver)) (insts : List Sym) :
    replaySteps D instanceMap (r :: regs) insts = (instanceMap r.1).nonCanonicalInstances.length +
      (insts.filter (D.canonicalBody · = r.1)).length + replaySteps D instanceMap regs insts := by
  simp only [replaySteps, List.map_cons, List.sum_cons]
  omega

theorem sum_ifacePortDrivers_register (t : Tracker) (body : Sym) (i : IfacePortDriver)
    (insts : List Sym) :
    (insts.map fun inst =>
        ((t.registerIfacePortDriver body i).instanceMap (D.canonicalBody inst)).ifacePortDrivers.length).sum =
      (insts.map fun inst => (t.instanceMap (D.canonicalBody inst)).ifacePortDrivers.length).sum +
        (insts.filter (D.canonicalBody · = body)).length := by
  simp only [(registerIfacePortDriver_instanceMap t body i _).1]
  induction insts with
  | nil => rfl
  | cons inst insts ih =>
    by_cases h : D.canonicalBody inst = body <;> simp [h, ih, List.filter_cons] <;> omega

theorem replaySteps_registerIfacePortDriver (t : Tracker) (body : Sym) (i : IfacePortDriver)
    (regs : List (Sym × IfacePortDriver)) (insts : List Sym) :
    replaySteps D (t.registerIfacePortDriver body i).instanceMap regs insts =
      replaySteps D t.instanceMap regs insts + (insts.filter (D.canonicalBody · = body)).length := by
  simp only [replaySteps, (registerIfacePortDriver_instanceMap t body i _).2,
    sum_ifacePortDrivers_register]
  omega

theorem replaySteps_registerInstance (t : Tracker) (inst : Sym) (regs : List (Sym × IfacePortDriver))
    (insts : List Sym) :
    replaySteps D (t.registerInstance (D.canonicalBody inst) inst).instanceMap regs insts +
        (t.instanceMap (D.canonicalBody inst)).ifacePortDrivers.length =
      replaySteps D t.instanceMap regs (inst :: insts) := by
  have hreg : ∀ r : Sym × IfacePortDriver,
      ((t.registerInstance (D.canonicalBody inst) inst).instanceMap r.1).nonCanonicalInstances.length +
          (insts.filter (D.canonicalBody · = r.1)).length =
        (t.instanceMap r.1).nonCanonicalInstances.length +
          ((inst :: insts).filter (D.canonicalBody · = r.1)).length := by
    intro r
    rw [(registerInstance_instanceMap t _ inst r.1).2]
    by_cases h : r.1 = D.canonicalBody inst
    · simp [h, List.filter_cons]
      omega
    · simp [h, List.filter_cons, Ne.symm h]
  simp only [replaySteps, hreg, (registerInstance_instanceMap t _ inst _).1, List.map_cons,
    List.sum_cons]
  omega

end Replays

section Steps

variable {D : Design} {allowDupInitialDrivers : Bool}

theorem applyInstanceSideEffect_instanceMap (t : Tracker) (i : IfacePortDriver) (inst : Sym) :
    (t.applyInstanceSideEffect D allowDupInitialDrivers i inst).instanceMap = t.instanceMap := by
  unfold Tracker.applyInstanceSideEffect
  split <;> simp

theorem run_stepsLeft {c : Call} (hc : c ≠ .propagateModportDrivers) (t : Tracker)
    (rest : List Call) :
    stepsLeft D (c.run D allowDupInitialDrivers t).1.instanceMap
        ((c.run D allowDupInitialDrivers t).2 ++ rest) + 1 ≤
      stepsLeft D t.instanceMap (c :: rest) := by
  have hregs := @run_futureRegistrations D allowDupInitialDrivers c t hc
  simp only [stepsLeft, List.map_append, List.sum_append, List.flatMap_append, List.flatMap_cons,
    List.map_cons, List.sum_cons, run_futureInstances, List.nil_append]
  generalize rest.flatMap (futureRegistrations D) = R
  generalize rest.flatMap futureInstances = I
  generalize (rest.map (callSteps D)).sum = n
  cases c with
  | visitSymbols noteRefs pending refs =>
    simp only [madeRegistrations, List.nil_append] at hregs
    rw [hregs]
    cases pending with
    | nil =>
      simp [Call.run, callSteps, visitSteps, notedRefs, collectedRefs, futureInstances, List.map_map,
        Function.comp_def]
      omega
    | cons p pending =>
      simp only [Call.run, callSteps, visitSteps, notedRefs_cons, visitSymbol_snd,
        visitSymbol_instanceMap, futureInstances, collectedRefs, List.flatMap_cons, List.flatMap_nil,
        List.append_nil, List.map_cons, List.map_nil, List.sum_cons, List.sum_nil, List.length_cons,
        List.nil_append]
      omega
  | noteInterfacePortDriver ref driver =>
    simp only [Call.run, callSteps, chainSteps, futureRegistrations, futureInstances, chainRegistrations_eq ref driver]
    have happlies : ∀ l : List Sym, (l.flatMap fun _ => ([] : List (Sym × IfacePortDriver))) = [] :=
      fun _ => List.flatMap_eq_nil_iff.2 fun _ _ => rfl
    split
    · rename_i h
      simp [madeRegistrations, h]
      omega
    · rename_i first _ h
      cases hn : nextIfacePortRef D first.symbol ref <;>
        simp [madeRegistrations, h, hn, replaySteps_registerIfacePortDriver, replaySteps_cons, callSteps,
          chainSteps, Function.comp_def, List.sum_const_nat, List.flatMap_append, List.flatMap_map,
          futureRegistrations, happlies] <;>
        omega
  | applyInstanceSideEffect i inst =>
    simp [Call.run, callSteps, futureRegistrations, futureInstances, applyInstanceSideEffect_instanceMap]
    omega
  | noteNonCanonicalInstance inst =>
    simp only [madeRegistrations, futureRegistrations, List.nil_append] at hregs
    rw [hregs]
    simp [Call.run, callSteps, futureRegistrations, futureInstances, Function.comp_def,
      List.sum_const_nat, ← replaySteps_registerInstance]
    omega
  | propagateModportDrivers => exact absurd rfl hc
  | propagateModportDriver connectionExpr originalDriver =>
    simp only [madeRegistrations, List.nil_append] at hregs
    rw [hregs]
    simp [Call.run, callSteps, addDrivers, futureInstances]
    omega

theorem stepsLeft_perm (instanceMap : Sym → InstanceState) {pending pending' : List Call}
    (h : pending.Perm pending') : stepsLeft D instanceMap pending = stepsLeft D instanceMap pending' := by
  rw [stepsLeft, stepsLeft, (h.map _).sum_eq,
    replaySteps_perm _ (h.flatMap_right _) (h.flatMap_right _)]

variable (D allowDupInitialDrivers) in
theorem step_pending_perm {s : Sys} {w : Nat} {c : Call} {stack : List Call}
    (h : s.workers[w]? = some (c :: stack)) :
    s.pending.Perm (c :: (s.workers.set w stack).flatten) ∧
      (s.step D allowDupInitialDrivers w).pending.Perm
        ((c.run D allowDupInitialDrivers s.tracker).2 ++ (s.workers.set w stack).flatten) := by
  have hrest := @perm_flatten_set _ _ _ _ _ [] h
  have hnew := @perm_flatten_set _ _ _ _ _ (c.run D allowDupInitialDrivers s.tracker).2 h
  simp only [List.nil_append] at hrest
  refine ⟨hrest.symm, ?_⟩
  simp only [Sys.step, h, Sys.pending]
  exact (hnew.trans ((hrest.symm.append_left _).trans List.perm_middle)).cons_inv

theorem step_potential {s : Sys} {w : Nat} {c : Call} {stack : List Call}
    (hs : .propagateModportDrivers ∉ s.pending) (h : s.workers[w]? = some (c :: stack)) :
    potential D (s.step D allowDupInitialDrivers w) + 1 ≤ potential D s := by
  obtain ⟨hp, hp'⟩ := step_pending_perm D allowDupInitialDrivers h
  have hc : c ≠ .propagateModportDrivers :=
    fun hc => hs (hp.symm.subset (hc ▸ List.mem_cons_self _ _))
  rw [potential, potential, stepsLeft_perm _ hp, stepsLeft_perm _ hp',
    (step_top D allowDupInitialDrivers h).1]
  exact run_stepsLeft hc s.tracker _

/-- However the workers interleave, from a reachable state of operations that do not propagate
modport drivers, each step at which a worker has a call to run uses up one of the steps left:
the busy steps of any schedule are at most the potential, which on the empty tracker is the
calls' own bounds and one replay for each interface port driver and instance registered for
the same body. -/
theorem busySteps_add_potential_le {ops : List (List Operation)}
    (hops : ∀ w ∈ ops, .propagateModportDrivers ∉ w) {s : Sys}
    (h : Reachable D allowDupInitialDrivers ops s) (schedule : List Nat) :
    busySteps D allowDupInitialDrivers s schedule +
        potential D (s.run D allowDupInitialDrivers schedule) ≤ potential D s := by
  induction schedule generalizing s with
  | nil => simp [busySteps, Sys.run]
  | cons w schedule ih =>
    have ih := ih (h.step w)
    have hrun : s.run D allowDupInitialDrivers (w :: schedule) =
        (s.step D allowDupInitialDrivers w).run D allowDupInitialDrivers schedule := rfl
    rw [hrun, busySteps]
    rcases hw : s.workers[w]? with _ | _ | ⟨c, stack⟩
    · simp only [Sys.step, hw] at ih ⊢
      omega
    · simp only [Sys.step, hw] at ih ⊢
      omega
    · have : potential D (s.step D allowDupInitialDrivers w) + 1 ≤ potential D s :=
        step_potential (reachable_futureInv hops h).noPropagation hw
      dsimp only
      omega

theorem busySteps_add_potential_le_instanceFirst :
    (∀ w ∈ sharedBodyOps, .propagateModportDrivers ∉ w) ∧
      Reachable sharedBody false sharedBodyOps (Sys.init sharedBody sharedBodyOps) ∧
      busySteps sharedBody false (Sys.init sharedBody sharedBodyOps) [0, 1, 1, 1, 1] +
          potential sharedBody instanceFirst ≤ potential sharedBody (Sys.init sharedBody sharedBodyOps) :=
  have hops : ∀ w ∈ sharedBodyOps, .propagateModportDrivers ∉ w := by decide
  ⟨hops, .init, busySteps_add_potential_le hops .init [0, 1, 1, 1, 1]⟩

end Steps

end DriverTracker.Termination
