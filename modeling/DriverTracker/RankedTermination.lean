import DriverTracker.Termination

namespace DriverTracker.RankedTermination

open DriverTracker.Syntax DriverTracker.Driver DriverTracker.Elaboration DriverTracker.AddDriver
  DriverTracker.State DriverTracker.Machine DriverTracker.SideEffects DriverTracker.Propagation
  DriverTracker.Termination

section Load

variable (D : Design)

def allInstances (ops : List (List Operation)) (body : Sym) : List Sym :=
  ((Sys.init D ops).pending.flatMap futureInstances).filter (D.canonicalBody · = body)

variable (insts : Sym → List Sym) (rank : Sym → Nat)

def futureReplays (instanceMap : Sym → InstanceState) (pending : List Sym) : Nat :=
  (pending.map fun inst => ((instanceMap (D.canonicalBody inst)).ifacePortDrivers.map fun i =>
    callCost D insts rank (.applyInstanceSideEffect i inst)).sum).sum

def uncounted (c : Call) : Nat := if inPass c then 0 else 1

def workLeft (t : Tracker) (pending : List Call) : Nat :=
  2 * ((pending.map (callCost D insts rank)).sum +
      ((entries t.modportPortDrivers).map (weight D insts rank)).sum +
      futureReplays D insts rank t.instanceMap (pending.flatMap futureInstances)) +
    (if t.modportPortDrivers.isEmpty then 0 else 1) + (pending.map uncounted).sum

def load (s : Sys) : Nat := workLeft D insts rank s.tracker s.pending

end Load

section Costs

variable {D : Design} {insts : Sym → List Sym} {rank : Sym → Nat}

theorem futureReplays_cons (instanceMap : Sym → InstanceState) (inst : Sym) (pending : List Sym) :
    futureReplays D insts rank instanceMap (inst :: pending) =
      ((instanceMap (D.canonicalBody inst)).ifacePortDrivers.map fun i =>
        callCost D insts rank (.applyInstanceSideEffect i inst)).sum +
        futureReplays D insts rank instanceMap pending := by
  simp [futureReplays]

theorem futureReplays_perm (instanceMap : Sym → InstanceState) {pending pending' : List Sym}
    (h : pending.Perm pending') :
    futureReplays D insts rank instanceMap pending = futureReplays D insts rank instanceMap pending' :=
  (h.map _).sum_eq

theorem futureReplays_congr {instanceMap instanceMap' : Sym → InstanceState}
    (h : ∀ body, (instanceMap' body).ifacePortDrivers = (instanceMap body).ifacePortDrivers)
    (pending : List Sym) :
    futureReplays D insts rank instanceMap' pending = futureReplays D insts rank instanceMap pending := by
  simp only [futureReplays, h]

theorem futureReplays_register (t : Tracker) (body : Sym) (i : IfacePortDriver) (pending : List Sym) :
    futureReplays D insts rank (t.registerIfacePortDriver body i).instanceMap pending =
      futureReplays D insts rank t.instanceMap pending +
        ((pending.filter (D.canonicalBody · = body)).map fun inst =>
          callCost D insts rank (.applyInstanceSideEffect i inst)).sum := by
  induction pending with
  | nil => rfl
  | cons inst pending ih =>
    rw [futureReplays_cons, futureReplays_cons, ih, (registerIfacePortDriver_instanceMap t body i _).1]
    by_cases h : D.canonicalBody inst = body <;> simp [h, List.filter_cons] <;> omega

theorem callCost_note {ref : HierarchicalReference} {driver : ValueDriver} {first : PathElem}
    {tail : List PathElem} (h : ref.path = first :: tail) :
    callCost D insts rank (.noteInterfacePortDriver ref driver) =
      1 + ((insts (D.parentScope first.symbol)).map fun inst =>
          callCost D insts rank (.applyInstanceSideEffect ⟨ref, driver⟩ inst)).sum +
        ((nextIfacePortRef D first.symbol ref).map fun next =>
          callCost D insts rank (.noteInterfacePortDriver next driver)).getD 1 := by
  have happly : ∀ (i : IfacePortDriver) inst, callCost D insts rank (.applyInstanceSideEffect i inst) =
      1 + ((madeRecords D (.applyInstanceSideEffect i inst)).map (weight D insts rank)).sum :=
    fun _ _ => rfl
  simp only [callCost, callWork, callRecords, chainWork, chainRecords, chainRegistrations_eq ref driver, h,
    madeRegistrations, happly]
  cases nextIfacePortRef D first.symbol ref <;>
    simp [List.sum_map_add, List.flatMap_append, List.map_flatMap, List.flatMap_def, List.sum_flatten,
      Function.comp_def] <;> omega

theorem workLeft_perm (t : Tracker) {pending pending' : List Call} (h : pending.Perm pending') :
    workLeft D insts rank t pending = workLeft D insts rank t pending' := by
  rw [workLeft, workLeft, (h.map _).sum_eq, (h.map _).sum_eq, futureReplays_perm _ (h.flatMap_right _)]

end Costs

section Steps

variable {D : Design} {allowDupInitialDrivers : Bool} {insts : Sym → List Sym} {rank : Sym → Nat}

theorem run_callCost {c : Call} (hc : inPass c) (t : Tracker) (pending : List Sym)
    (hinsts : ∀ body, ((t.instanceMap body).nonCanonicalInstances ++
      pending.filter (D.canonicalBody · = body)).Perm (insts body)) :
    ((c.run D allowDupInitialDrivers t).2.map (callCost D insts rank)).sum +
        ((madeRecords D c).map (weight D insts rank)).sum +
        futureReplays D insts rank (c.run D allowDupInitialDrivers t).1.instanceMap pending + 1 ≤
      callCost D insts rank c + futureReplays D insts rank t.instanceMap pending := by
  cases c with
  | visitSymbols noteRefs pending refs =>
    cases pending with
    | nil =>
      simp [Call.run, callCost, callWork, callRecords, madeRecords, notedRefs, collectedRefs,
        Function.comp_def, List.sum_map_add, List.map_flatMap, List.flatMap_def, List.sum_flatten]
      omega
    | cons p rest =>
      simp only [Call.run, callCost, callWork, callRecords, madeRecords, notedRefs_cons, visitSymbol_snd,
        visitSymbol_instanceMap, collectedRefs, List.flatMap_cons, List.flatMap_nil, List.append_nil,
        List.map_append, List.sum_append, List.map_cons, List.map_nil, List.sum_cons, List.sum_nil,
        List.length_cons]
      omega
  | noteInterfacePortDriver ref driver =>
    simp only [Call.run]
    split
    · rename_i h
      simp [callCost, callWork, callRecords, chainWork, chainRecords, chainRegistrations_eq ref driver,
        h, madeRegistrations, madeRecords]
      omega
    · rename_i first tail h
      have hsum := ((hinsts (D.parentScope first.symbol)).map fun inst =>
        callCost D insts rank (.applyInstanceSideEffect ⟨ref, driver⟩ inst)).sum_eq
      rw [List.map_append, List.sum_append] at hsum
      rw [callCost_note h, futureReplays_register]
      cases nextIfacePortRef D first.symbol ref <;>
        simp [madeRecords, List.map_map, Function.comp_def] <;> omega
  | applyInstanceSideEffect i inst =>
    simp [Call.run, callCost, callWork, callRecords, applyInstanceSideEffect_instanceMap]
    omega
  | noteNonCanonicalInstance inst => cases hc
  | propagateModportDrivers => cases hc
  | propagateModportDriver connectionExpr originalDriver =>
    simp [Call.run, callCost, callWork, callRecords, madeRecords, addDrivers]
    omega

theorem futureInstances_of_inPass {c : Call} (hc : inPass c) : futureInstances c = [] := by
  cases c <;> simp_all [inPass, futureInstances]

theorem sum_uncounted_eq_zero {l : List Call} (h : ∀ c ∈ l, inPass c) : (l.map uncounted).sum = 0 :=
  List.sum_eq_zero fun n hn => by
    obtain ⟨c, hc, rfl⟩ := List.mem_map.1 hn
    simp [uncounted, h c hc]

theorem propagationCalls_inPass (m : List (Sym × DriverList)) :
    ∀ c ∈ propagationCalls D m, inPass c := by
  intro c hc
  obtain ⟨e, -, he⟩ := List.mem_filterMap.1 hc
  obtain ⟨connectionExpr, -, rfl⟩ := Option.map_eq_some'.1 he
  rfl

theorem run_workLeft_of_inPass {c : Call} (hc : inPass c) (t : Tracker) (rest : List Call)
    (hinsts : ∀ body, ((t.instanceMap body).nonCanonicalInstances ++
      (rest.flatMap futureInstances).filter (D.canonicalBody · = body)).Perm (insts body)) :
    workLeft D insts rank (c.run D allowDupInitialDrivers t).1
        ((c.run D allowDupInitialDrivers t).2 ++ rest) + 1 ≤
      workLeft D insts rank t (c :: rest) := by
  have hcost := @run_callCost D allowDupInitialDrivers insts rank c hc t _ hinsts
  have hmap := (((@run_records D allowDupInitialDrivers c t fun h => by cases h; cases hc).2).map
    (weight D insts rank)).sum_eq
  have hfut := futureInstances_of_inPass hc
  have hc' : uncounted c = 0 := by simp [uncounted, hc]
  simp only [List.map_append, List.sum_append] at hmap
  simp only [workLeft, List.map_append, List.sum_append, List.map_cons, List.sum_cons, List.flatMap_append,
    List.flatMap_cons, @run_futureInstances D allowDupInitialDrivers, hfut, List.nil_append, hmap, hc',
    sum_uncounted_eq_zero (run_inPass hc t)]
  split <;> split <;> omega

theorem run_workLeft_noteNonCanonicalInstance (inst : Sym) (t : Tracker) (rest : List Call) :
    workLeft D insts rank ((Call.noteNonCanonicalInstance inst).run D allowDupInitialDrivers t).1
        (((Call.noteNonCanonicalInstance inst).run D allowDupInitialDrivers t).2 ++ rest) + 1 ≤
      workLeft D insts rank t (.noteNonCanonicalInstance inst :: rest) := by
  have hfut := @run_futureInstances D allowDupInitialDrivers (.noteNonCanonicalInstance inst) t
  have hkeep : futureReplays D insts rank (t.registerInstance (D.canonicalBody inst) inst).instanceMap
      (rest.flatMap futureInstances) =
        futureReplays D insts rank t.instanceMap (rest.flatMap futureInstances) :=
    futureReplays_congr (fun b => (registerInstance_instanceMap t _ inst b).1) _
  have hm : (t.registerInstance (D.canonicalBody inst) inst).modportPortDrivers =
      t.modportPortDrivers := rfl
  simp only [Call.run] at hfut ⊢
  simp only [workLeft, List.map_append, List.sum_append, List.map_cons, List.sum_cons, List.flatMap_append,
    List.flatMap_cons, hfut, List.nil_append, hm, hkeep, futureInstances, List.singleton_append,
    futureReplays_cons, List.map_map, Function.comp_def, sum_uncounted_eq_zero]
  simp [uncounted, inPass, callCost, callWork, callRecords]
  omega

theorem run_workLeft_propagateModportDrivers
    (hrank : ∀ port port', Retargets D insts port port' → rank port' < rank port) (t : Tracker)
    (rest : List Call) :
    workLeft D insts rank (Call.propagateModportDrivers.run D allowDupInitialDrivers t).1
        ((Call.propagateModportDrivers.run D allowDupInitialDrivers t).2 ++ rest) + 1 ≤
      workLeft D insts rank t (.propagateModportDrivers :: rest) := by
  have hfut := @run_futureInstances D allowDupInitialDrivers .propagateModportDrivers t
  simp only [Call.run] at hfut ⊢
  cases hm : t.modportPortDrivers.isEmpty
  · have hle := sum_filterMap_le _ (callCost D insts rank) (weight D insts rank)
      (fun e => (callCost_submission_lt hrank e).le) (entries t.modportPortDrivers)
    simp only [hm, Bool.false_eq_true, if_false] at hfut ⊢
    simp only [workLeft, List.map_append, List.sum_append, List.flatMap_append, hfut, List.nil_append, hm,
      sum_uncounted_eq_zero (@propagationCalls_inPass D t.modportPortDrivers)]
    simp [uncounted, inPass, callCost, callWork, callRecords, futureInstances, propagationCalls] at hle ⊢
    omega
  · simp [workLeft, List.isEmpty_iff.1 hm, uncounted, inPass, callCost, callWork, callRecords,
      futureInstances]
    omega

variable (D allowDupInitialDrivers) in
theorem step_load (hrank : ∀ port port', Retargets D insts port port' → rank port' < rank port)
    {s : Sys} {w : Nat} {c : Call} {stack : List Call}
    (hinsts : ∀ body, ((s.tracker.instanceMap body).nonCanonicalInstances ++
      (s.pending.flatMap futureInstances).filter (D.canonicalBody · = body)).Perm (insts body))
    (h : s.workers[w]? = some (c :: stack)) :
    load D insts rank (s.step D allowDupInitialDrivers w) + 1 ≤ load D insts rank s := by
  obtain ⟨hp, hp'⟩ := step_pending_perm D allowDupInitialDrivers h
  rw [load, load, workLeft_perm _ hp, workLeft_perm _ hp', (step_top D allowDupInitialDrivers h).1]
  by_cases hc : inPass c
  · refine run_workLeft_of_inPass hc _ _ fun body => ?_
    have hperm := (hp.flatMap_right futureInstances).filter (D.canonicalBody · = body)
    rw [List.flatMap_cons, futureInstances_of_inPass hc, List.nil_append] at hperm
    exact (hperm.append_left _).symm.trans (hinsts body)
  · cases c with
    | noteNonCanonicalInstance inst => exact run_workLeft_noteNonCanonicalInstance inst _ _
    | propagateModportDrivers => exact run_workLeft_propagateModportDrivers hrank _ _
    | _ => exact absurd rfl hc

theorem allInstances_eq_nil {ops : List (List Operation)}
    (h : (Sys.init D ops).pending.flatMap futureInstances = []) : allInstances D ops = fun _ => [] := by
  funext body
  simp [allInstances, h]

theorem reachable_instances {ops : List (List Operation)} {s : Sys}
    (h : Reachable D allowDupInitialDrivers ops s) :
    ∀ body, ((s.tracker.instanceMap body).nonCanonicalInstances ++
      (s.pending.flatMap futureInstances).filter (D.canonicalBody · = body)).Perm
        (allInstances D ops body) := by
  induction h with
  | init => simp [Sys.init, Tracker.empty, allInstances]
  | step w _ ih => exact step_instances ih w

/-- However the workers interleave, and whatever operations they run, propagation of modport
drivers included, each step at which a worker has a call to run lowers the load: the busy steps
of any schedule are at most the load of the state it starts from, when each modport port's
entries lead only to entries of ports of lower rank. -/
theorem busySteps_add_load_le {ops : List (List Operation)}
    (hrank : ∀ port port', Retargets D (allInstances D ops) port port' → rank port' < rank port)
    {s : Sys}
    (h : Reachable D allowDupInitialDrivers ops s) (schedule : List Nat) :
    busySteps D allowDupInitialDrivers s schedule +
        load D (allInstances D ops) rank (s.run D allowDupInitialDrivers schedule) ≤
      load D (allInstances D ops) rank s := by
  induction schedule generalizing s with
  | nil => simp [busySteps, Sys.run]
  | cons w schedule ih =>
    have ih := ih (h.step w)
    have hrun : s.run D allowDupInitialDrivers (w :: schedule) =
        (s.step D allowDupInitialDrivers w).run D allowDupInitialDrivers schedule := rfl
    rw [hrun, busySteps]
    rcases hw : s.workers[w]? with _ | _ | ⟨c, stack⟩
    case some.cons =>
      have := step_load D allowDupInitialDrivers hrank (reachable_instances h) hw
      dsimp only
      omega
    all_goals simp only [Sys.step, hw] at ih ⊢; omega

theorem exists_busy {s : Sys} (h : s.pending ≠ []) :
    ∃ (w : Nat) (c : Call) (stack : List Call), s.workers[w]? = some (c :: stack) := by
  obtain ⟨c, hc⟩ := List.exists_mem_of_ne_nil _ h
  obtain ⟨l, hl, hcl⟩ := List.mem_flatten.1 hc
  obtain ⟨w, hw⟩ := List.mem_iff_getElem?.1 hl
  obtain ⟨c', stack, rfl⟩ := List.exists_cons_of_ne_nil (List.ne_nil_of_mem hcl)
  exact ⟨w, c', stack, hw⟩

/-- From every reachable state, some schedule no longer than the load runs every worker's calls
to their end. -/
theorem exists_quiescent_schedule {ops : List (List Operation)}
    (hrank : ∀ port port', Retargets D (allInstances D ops) port port' → rank port' < rank port)
    {s : Sys}
    (h : Reachable D allowDupInitialDrivers ops s) :
    ∃ schedule : List Nat, schedule.length ≤ load D (allInstances D ops) rank s ∧
      (s.run D allowDupInitialDrivers schedule).pending = [] := by
  have drain : ∀ n s, load D (allInstances D ops) rank s = n →
      Reachable D allowDupInitialDrivers ops s → ∃ schedule : List Nat, schedule.length ≤ n ∧
        (s.run D allowDupInitialDrivers schedule).pending = [] := by
    intro n
    induction n using Nat.strongRecOn with
    | ind n ih =>
      intro s hn h
      by_cases hq : s.pending = []
      · exact ⟨[], Nat.zero_le _, hq⟩
      obtain ⟨w, c, stack, hw⟩ := exists_busy hq
      have hlt := step_load D allowDupInitialDrivers hrank (reachable_instances h) hw
      obtain ⟨schedule, hlen, hq'⟩ := ih _ (by omega) _ rfl (h.step w)
      exact ⟨w :: schedule, by simp only [List.length_cons]; omega, hq'⟩
  exact drain _ s rfl h

end Steps

section Chain

def assignAndPropagate : List (List Operation) :=
  [[.expression (.namedValue 1 ⟨10, 11⟩) 5, .propagateModportDrivers]]

theorem allInstances_assignAndPropagate : allInstances modportChain assignAndPropagate = fun _ => [] :=
  allInstances_eq_nil (by decide)

theorem chainRank_retargets {port port' : Sym} (h : Retargets modportChain (fun _ => []) port port') :
    chainRank port' < chainRank port := by
  obtain ⟨connectionExpr, initialLSP, lsp, hE, hx, hk⟩ := retargets_without_instances h
  simp only [modportChain] at hE hk hx
  split_ifs at hE with h1 h3 <;> cases hE
  · simp only [Lsp.visitLSPs, List.mem_singleton, Prod.mk.injEq] at hx
    simp [chainRank, hx.1, h1]
  · simp only [Lsp.visitLSPs, List.mem_singleton, Prod.mk.injEq] at hx
    simp [hx.1] at hk

theorem chainRank_retargets_assignAndPropagate {port port' : Sym}
    (h : Retargets modportChain (allInstances modportChain assignAndPropagate) port port') :
    chainRank port' < chainRank port :=
  chainRank_retargets (allInstances_assignAndPropagate ▸ h)

theorem busySteps_add_load_le_assignAndPropagate :
    (∀ port port', Retargets modportChain (allInstances modportChain assignAndPropagate) port port' →
        chainRank port' < chainRank port) ∧
      busySteps modportChain false (Sys.init modportChain assignAndPropagate) [0, 0, 0, 0, 0, 0] +
          load modportChain (allInstances modportChain assignAndPropagate) chainRank
            ((Sys.init modportChain assignAndPropagate).run modportChain false [0, 0, 0, 0, 0, 0]) ≤
        load modportChain (allInstances modportChain assignAndPropagate) chainRank
          (Sys.init modportChain assignAndPropagate) :=
  have hrank := fun _ _ => chainRank_retargets_assignAndPropagate
  ⟨hrank, busySteps_add_load_le hrank .init _⟩

theorem exists_quiescent_schedule_assignAndPropagate :
    (∀ port port', Retargets modportChain (allInstances modportChain assignAndPropagate) port port' →
        chainRank port' < chainRank port) ∧
      ∃ schedule : List Nat, schedule.length ≤
          load modportChain (allInstances modportChain assignAndPropagate) chainRank
            (Sys.init modportChain assignAndPropagate) ∧
        ((Sys.init modportChain assignAndPropagate).run modportChain false schedule).pending = [] :=
  have hrank := fun _ _ => chainRank_retargets_assignAndPropagate
  ⟨hrank, exists_quiescent_schedule hrank .init⟩

end Chain

end DriverTracker.RankedTermination
