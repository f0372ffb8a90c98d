import DriverTracker.Confluence
import DriverTracker.ModportHandoff

namespace DriverTracker.FinalPass

open DriverTracker.Syntax DriverTracker.Driver DriverTracker.Elaboration DriverTracker.AddDriver
  DriverTracker.State DriverTracker.Machine DriverTracker.StoredDrivers DriverTracker.SideEffects
  DriverTracker.OrderIndependence DriverTracker.Confluence DriverTracker.Propagation
  DriverTracker.RankedTermination DriverTracker.ModportHandoff

section Calls

variable (D : Design) (insts : Sym → List Sym)

def chainCalls (ref : HierarchicalReference) (driver : ValueDriver) :
    List (Sym × ValueDriver × DriverBitRange) :=
  (chainRegistrations D ref driver).flatMap fun r =>
    (insts r.1).flatMap fun inst => replaySubmission D (r.2, inst)

def callCalls : Call → List (Sym × ValueDriver × DriverBitRange)
  | .visitSymbols noteRefs pending refs =>
    loopSubmissions pending ++
      (notedRefs D noteRefs pending refs).flatMap fun r => chainCalls D insts r.1 r.2
  | .noteInterfacePortDriver ref driver => chainCalls D insts ref driver
  | .applyInstanceSideEffect ifacePortDriver inst => replaySubmission D (ifacePortDriver, inst)
  | .propagateModportDriver connectionExpr originalDriver =>
    let pending := lspDrivers D connectionExpr originalDriver.kind originalDriver.flags
      originalDriver.containingSymbol (splice originalDriver.prefixExpression connectionExpr)
    loopSubmissions pending ++ (notedRefs D true pending []).flatMap fun r => chainCalls D insts r.1 r.2
  | _ => []

def entryCalls :
    Nat → Sym × ValueDriver × DriverBitRange → List (Sym × ValueDriver × DriverBitRange)
  | 0, _ => []
  | fuel + 1, e => match D.modportConnectionExpr e.1 with
    | some connectionExpr =>
      callCalls D insts (.propagateModportDriver connectionExpr e.2.1) ++
        (callRecords D insts (.propagateModportDriver connectionExpr e.2.1)).flatMap (entryCalls fuel)
    | none => []

variable (rank : Sym → Nat)

def entrySubmissions (e : Sym × ValueDriver × DriverBitRange) :
    List (Sym × ValueDriver × DriverBitRange) :=
  entryCalls D insts (rank e.1 + 1) e

def passCalls (c : Call) : List (Sym × ValueDriver × DriverBitRange) :=
  callCalls D insts c ++ (callRecords D insts c).flatMap (entrySubmissions D insts rank)

end Calls

section Spec

variable (D : Design)

def modportEntries (subs : List (Sym × ValueDriver × DriverBitRange)) :
    List (Sym × ValueDriver × DriverBitRange) :=
  subs.filter fun e => D.isClassTyped e.1 = false ∧ D.kind e.1 = .modportPort

/-- The drivers submitted once the operations `ops` have run and the final pass has returned,
however the workers interleave: those `specSubmissions` computes, and those the entries they
record lead to, for the instances the operations note and the rank `rank`. -/
def finalSpec (ops : List (List Operation)) (rank : Sym → Nat) :
    List (Sym × ValueDriver × DriverBitRange) :=
  specSubmissions D ops ++
    (modportEntries D (specSubmissions D ops)).flatMap (entrySubmissions D (allInstances D ops) rank)

end Spec

variable (D : Design) (allowDupInitialDrivers : Bool) in
def finalRun (t : Tracker) (n : Nat) : Sys :=
  (⟨t, [[.propagateModportDrivers]]⟩ : Sys).run D allowDupInitialDrivers (List.replicate n 0)

section Costs

variable {D : Design} {allowDupInitialDrivers : Bool} {insts : Sym → List Sym} {rank : Sym → Nat}

theorem run_callCalls {c : Call} (hc : inPass c) (t : Tracker)
    (hinsts : ∀ body, (t.instanceMap body).nonCanonicalInstances = insts body) :
    madeSubmissions c ++ (pendingApplication c).flatMap (replaySubmission D) ++
        (c.run D allowDupInitialDrivers t).2.flatMap (callCalls D insts) = callCalls D insts c := by
  cases c with
  | visitSymbols noteRefs pending refs =>
    cases pending with
    | nil =>
      simp [Call.run, callCalls, madeSubmissions, pendingApplication, loopSubmissions, notedRefs,
        collectedRefs, List.flatMap_map]
    | cons p rest =>
      simp only [Call.run, callCalls, madeSubmissions, pendingApplication, notedRefs_cons, visitSymbol_snd,
        collectedRefs, loopSubmissions, List.flatMap_cons, List.flatMap_nil, List.append_nil,
        List.nil_append, List.append_assoc]
  | noteInterfacePortDriver ref driver =>
    simp only [Call.run, callCalls, chainCalls, chainRegistrations_eq ref driver]
    split
    · simp [madeRegistrations, madeSubmissions, *]
    · rename_i first _ h
      cases hn : nextIfacePortRef D first.symbol ref <;>
        simp [madeRegistrations, madeSubmissions, h, hn, hinsts, callCalls, chainCalls, List.flatMap_map]
  | applyInstanceSideEffect i inst => simp [Call.run, callCalls, madeSubmissions]
  | noteNonCanonicalInstance inst => cases hc
  | propagateModportDrivers => cases hc
  | propagateModportDriver connectionExpr originalDriver =>
    simp [Call.run, callCalls, madeSubmissions, pendingApplication, addDrivers]

theorem chainCalls_congr {insts' : Sym → List Sym} (h : ∀ body, (insts body).Perm (insts' body))
    (ref : HierarchicalReference) (driver : ValueDriver) :
    (chainCalls D insts ref driver).Perm (chainCalls D insts' ref driver) :=
  List.Perm.flatMap_left _ fun r _ => (h r.1).flatMap_right _

theorem chainRecords_congr {insts' : Sym → List Sym} (h : ∀ body, (insts body).Perm (insts' body))
    (ref : HierarchicalReference) (driver : ValueDriver) :
    (chainRecords D insts ref driver).Perm (chainRecords D insts' ref driver) :=
  List.Perm.flatMap_left _ fun r _ => (h r.1).flatMap_right _

theorem callCalls_congr {insts' : Sym → List Sym} (h : ∀ body, (insts body).Perm (insts' body))
    (c : Call) :
    (callCalls D insts c).Perm (callCalls D insts' c) ∧
      (callRecords D insts c).Perm (callRecords D insts' c) := by
  cases c with
  | noteInterfacePortDriver ref driver => exact ⟨chainCalls_congr h _ _, chainRecords_congr h _ _⟩
  | visitSymbols | propagateModportDriver =>
    exact ⟨(List.Perm.flatMap_left _ fun r _ => chainCalls_congr h r.1 r.2).append_left _,
      (List.Perm.flatMap_left _ fun r _ => chainRecords_congr h r.1 r.2).append_left _⟩
  | _ => exact ⟨.refl _, .refl _⟩

variable (hrank : ∀ port port', Retargets D insts port port' → rank port' < rank port)
include hrank

theorem entryCalls_eq (n : Nat) :
    ∀ e : Sym × ValueDriver × DriverBitRange, rank e.1 < n →
      entryCalls D insts n e = ((D.modportConnectionExpr e.1).map fun connectionExpr =>
        passCalls D insts rank (.propagateModportDriver connectionExpr e.2.1)).getD [] := by
  induction n using Nat.strong_induction_on with
  | _ n ih =>
    intro e he
    obtain ⟨k, rfl⟩ : ∃ k, n = k + 1 := ⟨n - 1, by omega⟩
    rw [entryCalls]
    rcases hE : D.modportConnectionExpr e.1 with _ | connectionExpr
    · rfl
    · simp only [Option.map_some', Option.getD_some, passCalls]
      refine congrArg _ (List.flatMap_congr fun e' he' => ?_)
      have hlt := hrank _ _ ⟨connectionExpr, e.2.1, e', hE, he', rfl⟩
      rw [entrySubmissions, ih k (by omega) e' (by omega), ih (rank e'.1 + 1) (by omega) e' (by omega)]

theorem entrySubmissions_eq (e : Sym × ValueDriver × DriverBitRange) :
    entrySubmissions D insts rank e = ((D.modportConnectionExpr e.1).map fun connectionExpr =>
      passCalls D insts rank (.propagateModportDriver connectionExpr e.2.1)).getD [] :=
  entryCalls_eq hrank _ e (Nat.lt_succ_self _)

theorem propagationCalls_passCalls (m : List (Sym × DriverList)) :
    (propagationCalls D m).flatMap (passCalls D insts rank) =
      (entries m).flatMap (entrySubmissions D insts rank) := by
  rw [propagationCalls]
  induction entries m with
  | nil => rfl
  | cons e l ih =>
    rw [List.filterMap_cons, List.flatMap_cons, ← ih, entrySubmissions_eq hrank]
    cases D.modportConnectionExpr e.1 <;> simp

theorem propagateModportDrivers_passCalls (t : Tracker) :
    (Call.propagateModportDrivers.run D allowDupInitialDrivers t).2.flatMap (passCalls D insts rank) =
      (entries t.modportPortDrivers).flatMap (entrySubmissions D insts rank) := by
  simp only [Call.run]
  cases hm : t.modportPortDrivers.isEmpty
  · simp [propagationCalls_passCalls hrank, passCalls, callCalls, callRecords]
  · simp [List.isEmpty_iff.1 hm]

end Costs

section PassSteps

variable {D : Design} {allowDupInitialDrivers : Bool} {insts : Sym → List Sym} {rank : Sym → Nat}

theorem Perm.submittedTo {l l' : List (Sym × ValueDriver × DriverBitRange)} (h : l.Perm l')
    (symbol : Sym) :
    (submittedTo symbol l).Perm (submittedTo symbol l') :=
  (h.filter _).map _

theorem flatMap_passCalls (l : List Call) :
    (l.flatMap (passCalls D insts rank)).Perm (l.flatMap (callCalls D insts) ++
      (l.flatMap (callRecords D insts)).flatMap (entrySubmissions D insts rank)) := by
  induction l with
  | nil => exact .refl _
  | cons c l ih =>
    have ih := Multiset.coe_eq_coe.2 ih
    rw [← Multiset.coe_eq_coe]
    simp only [List.flatMap_cons, List.flatMap_append, passCalls, ← Multiset.coe_add] at ih ⊢
    rw [ih]
    abel

theorem run_passCalls {c : Call} (hc : inPass c) (t : Tracker)
    (hinsts : ∀ body, (t.instanceMap body).nonCanonicalInstances.Perm (insts body)) :
    (madeSubmissions c ++ (pendingApplication c).flatMap (replaySubmission D) ++
        (c.run D allowDupInitialDrivers t).2.flatMap (passCalls D insts rank) ++
        (madeRecords D c).flatMap (entrySubmissions D insts rank)).Perm (passCalls D insts rank c) := by
  have hC := (callCalls_congr (D := D) hinsts c).1.symm
  have hR := (callCalls_congr (D := D) hinsts c).2.symm
  rw [← @run_callCalls D allowDupInitialDrivers _ c hc t fun _ => rfl] at hC
  rw [← @run_callRecords D allowDupInitialDrivers _ c hc t fun _ => rfl] at hR
  have hC' := Multiset.coe_eq_coe.2 (hC.trans
    ((List.Perm.flatMap_left _ fun x _ => (callCalls_congr hinsts x).1).append_left _))
  have hR' := Multiset.coe_eq_coe.2 ((hR.trans
    ((List.Perm.flatMap_left _ fun x _ => (callCalls_congr hinsts x).2).append_left _)).flatMap_right
      (entrySubmissions D insts rank))
  have hP := Multiset.coe_eq_coe.2 (@flatMap_passCalls D insts rank (c.run D allowDupInitialDrivers t).2)
  rw [← Multiset.coe_eq_coe]
  simp only [passCalls, List.flatMap_append, ← Multiset.coe_add] at hC' hR' hP ⊢
  rw [hC', hR', hP]
  abel

variable (D insts rank) in
structure FinalInv (T : Sym → DriverList) (t : Tracker) (stack : List Call) : Prop where
  instances : ∀ body, (t.instanceMap body).nonCanonicalInstances.Perm (insts body)
  shape : (∃ pass, stack = pass ++ [.propagateModportDrivers] ∧ ∀ c ∈ pass, inPass c) ∨
    (stack = [] ∧ t.modportPortDrivers = [])
  calls : ∀ symbol, (t.calls symbol ++ submittedTo symbol (stack.flatMap (passCalls D insts rank) ++
    (entries t.modportPortDrivers).flatMap (entrySubmissions D insts rank))).Perm (T symbol)

variable (hrank : ∀ port port', Retargets D insts port port' → rank port' < rank port)
include hrank

theorem run_finalInv {T : Sym → DriverList} {t : Tracker} {c : Call} {rest : List Call}
    (h : FinalInv D insts rank T t (c :: rest)) :
    FinalInv D insts rank T (c.run D allowDupInitialDrivers t).1
      ((c.run D allowDupInitialDrivers t).2 ++ rest) := by
  obtain ⟨pass, hstack, hpass⟩ := h.shape.resolve_right fun h => List.cons_ne_nil _ _ h.1
  cases pass with
  | nil =>
    obtain ⟨rfl, rfl⟩ : c = .propagateModportDrivers ∧ rest = [] := by simpa using hstack
    have hcalls := @propagateModportDrivers_passCalls D allowDupInitialDrivers insts rank hrank t
    refine ⟨h.instances, ?_, fun symbol => ?_⟩
    · simp only [Call.run]
      cases hm : t.modportPortDrivers.isEmpty
      · exact .inl ⟨propagationCalls D t.modportPortDrivers, by simp, propagationCalls_inPass _⟩
      · exact .inr ⟨by simp, by simp⟩
    · have hc := h.calls symbol
      rw [List.append_nil, hcalls]
      simpa [Call.run, passCalls, callCalls, callRecords] using hc
  | cons c' pass =>
    obtain ⟨rfl, rfl⟩ : c = c' ∧ rest = pass ++ [.propagateModportDrivers] := by simpa using hstack
    have hc := hpass c (List.mem_cons_self _ _)
    have hne : c ≠ .propagateModportDrivers := fun e => by simp [e, inPass] at hc
    refine ⟨fun body => (run_instances hc t body).symm ▸ h.instances body,
      .inl ⟨_ ++ pass, (List.append_assoc _ _ _).symm, fun c'' hc'' => ?_⟩, fun symbol => ?_⟩
    · rcases List.mem_append.1 hc'' with hc'' | hc''
      exacts [run_inPass hc t c'' hc'', hpass c'' (List.mem_cons_of_mem _ hc'')]
    · have hmade := Multiset.coe_eq_coe.2
        (@run_passCalls D allowDupInitialDrivers insts rank c hc t h.instances)
      have hM := Multiset.coe_eq_coe.2 (((@run_records D allowDupInitialDrivers c t hne).2).flatMap_right
        (entrySubmissions D insts rank))
      have hperm : (madeSubmissions c ++ (pendingApplication c).flatMap (replaySubmission D) ++
          (((c.run D allowDupInitialDrivers t).2 ++ (pass ++ [Call.propagateModportDrivers])).flatMap
            (passCalls D insts rank) ++
          (entries (c.run D allowDupInitialDrivers t).1.modportPortDrivers).flatMap
            (entrySubmissions D insts rank))).Perm
          ((c :: pass ++ [Call.propagateModportDrivers]).flatMap (passCalls D insts rank) ++
            (entries t.modportPortDrivers).flatMap (entrySubmissions D insts rank)) := by
        rw [← Multiset.coe_eq_coe]
        simp only [List.flatMap_append, List.flatMap_cons, List.cons_append, ← Multiset.coe_add]
          at hmade hM ⊢
        rw [hM, ← hmade]
        abel
      rw [run_calls, List.append_assoc, ← submittedTo_append]
      exact ((Perm.submittedTo hperm symbol).append_left _).trans (h.calls symbol)

theorem step_finalInv {T : Sym → DriverList} {s : Sys}
    (h : ∃ stack, s.workers = [stack] ∧ FinalInv D insts rank T s.tracker stack) :
    ∃ stack, (s.step D allowDupInitialDrivers 0).workers = [stack] ∧
      FinalInv D insts rank T (s.step D allowDupInitialDrivers 0).tracker stack := by
  obtain ⟨stack, hw, hinv⟩ := h
  cases stack with
  | nil => exact ⟨[], by simp [Sys.step, hw], by simpa [Sys.step, hw] using hinv⟩
  | cons c rest =>
    exact ⟨(c.run D allowDupInitialDrivers s.tracker).2 ++ rest, by simp [Sys.step, hw],
      by simpa [Sys.step, hw] using run_finalInv hrank hinv⟩

theorem run_replicate_finalInv {T : Sym → DriverList} (n : Nat) :
    ∀ {s : Sys}, (∃ stack, s.workers = [stack] ∧ FinalInv D insts rank T s.tracker stack) →
      ∃ stack, (s.run D allowDupInitialDrivers (List.replicate n 0)).workers = [stack] ∧
        FinalInv D insts rank T (s.run D allowDupInitialDrivers (List.replicate n 0)).tracker stack := by
  induction n with
  | zero => exact id
  | succ n ih => exact fun h => ih (step_finalInv hrank h)

omit hrank in
theorem finalInv_init (t : Tracker)
    (hinsts : ∀ body, (t.instanceMap body).nonCanonicalInstances.Perm (insts body)) :
    FinalInv D insts rank (fun symbol => t.calls symbol ++
      submittedTo symbol ((entries t.modportPortDrivers).flatMap (entrySubmissions D insts rank)))
      t [.propagateModportDrivers] :=
  ⟨hinsts, .inl ⟨[], rfl, by simp⟩, fun symbol => by simp [passCalls, callCalls, callRecords]⟩

omit hrank in
theorem finalInv_futureInstances {T : Sym → DriverList} {t : Tracker} {stack : List Call}
    (h : FinalInv D insts rank T t stack) : stack.flatMap futureInstances = [] := by
  rcases h.shape with ⟨pass, rfl, hpass⟩ | ⟨rfl, -⟩
  · simp only [List.flatMap_append,
      List.flatMap_eq_nil_iff.2 fun c hc => futureInstances_of_inPass (hpass c hc)]
    rfl
  · rfl

theorem finalRun_ends (t : Tracker)
    (hinsts : ∀ body, (t.instanceMap body).nonCanonicalInstances.Perm (insts body)) :
    ∃ n, (finalRun D allowDupInitialDrivers t n).pending = [] := by
  have drain : ∀ N (s : Sys), load D insts rank s = N →
      (∃ stack, s.workers = [stack] ∧ FinalInv D insts rank (fun symbol => t.calls symbol ++
        submittedTo symbol ((entries t.modportPortDrivers).flatMap (entrySubmissions D insts rank)))
        s.tracker stack) →
      ∃ n, (s.run D allowDupInitialDrivers (List.replicate n 0)).pending = [] := by
    intro N
    induction N using Nat.strongRecOn with
    | ind N ih =>
      rintro s hN ⟨stack, hw, hinv⟩
      cases stack with
      | nil => exact ⟨0, by simp [Sys.run, Sys.pending, hw]⟩
      | cons c rest =>
        have hfut := finalInv_futureInstances hinv
        have hlt := step_load D allowDupInitialDrivers hrank
          (fun body => by simpa [Sys.pending, hw, hfut] using hinv.instances body)
          (by simp [hw] : s.workers[0]? = some (c :: rest))
        obtain ⟨n, hn⟩ := ih _ (by omega) _ rfl
          (@step_finalInv D allowDupInitialDrivers insts rank hrank _ _ ⟨_, hw, hinv⟩)
        exact ⟨n + 1, hn⟩
  exact drain _ _ rfl ⟨_, rfl, @finalInv_init D insts rank t hinsts⟩

theorem finalRun_calls (t : Tracker)
    (hinsts : ∀ body, (t.instanceMap body).nonCanonicalInstances.Perm (insts body)) {n : Nat}
    (hend : (finalRun D allowDupInitialDrivers t n).pending = []) (symbol : Sym) :
    ((finalRun D allowDupInitialDrivers t n).tracker.calls symbol).Perm (t.calls symbol ++
      submittedTo symbol ((entries t.modportPortDrivers).flatMap (entrySubmissions D insts rank))) := by
  obtain ⟨stack, hw, hinv⟩ := @run_replicate_finalInv D allowDupInitialDrivers insts rank hrank _ n
    ⟨t, [[.propagateModportDrivers]]⟩ ⟨_, rfl, @finalInv_init D insts rank t hinsts⟩
  obtain rfl : stack = [] := by simpa [finalRun, Sys.pending, hw] using hend
  have hm := (hinv.shape.resolve_left fun ⟨pass, h, _⟩ => by simp at h).2
  simpa [hm, finalRun, submittedTo] using hinv.calls symbol

end PassSteps

section Agreement

variable {D : Design} {allowDupInitialDrivers : Bool}

theorem ingested_run {s : Sys} (h : Ingested D allowDupInitialDrivers s.tracker) (schedule : List Nat) :
    Ingested D allowDupInitialDrivers (s.run D allowDupInitialDrivers schedule).tracker := by
  induction schedule generalizing s with
  | nil => exact h
  | cons w schedule ih =>
    refine ih ?_
    rcases step_cases s w with heq | ⟨c, -, ht, -⟩
    · rwa [heq]
    · rw [ht]
      exact run_ingested h c

theorem finalRun_ingested {t : Tracker} (h : Ingested D allowDupInitialDrivers t) (n : Nat) :
    Ingested D allowDupInitialDrivers (finalRun D allowDupInitialDrivers t n).tracker :=
  ingested_run (s := ⟨t, [[.propagateModportDrivers]]⟩) h _

theorem modportRecords_perm {symbol : Sym} {ds ds' : DriverList} (h : ds.Perm ds') :
    (modportRecords D symbol ds).Perm (modportRecords D symbol ds') := by
  unfold modportRecords
  split_ifs
  exacts [h.map _, .refl _]

theorem filter_modportEntries (subs : List (Sym × ValueDriver × DriverBitRange)) (symbol : Sym) :
    (modportEntries D subs).filter (·.1 = symbol) = modportRecords D symbol (submittedTo symbol subs) := by
  induction subs with
  | nil => simp [modportEntries, modportRecords, submittedTo]
  | cons e subs ih =>
    obtain ⟨x, d⟩ := e
    by_cases hx : x = symbol
    · subst hx
      rw [submittedTo, List.filter_cons_of_pos (by simp), List.map_cons, ← submittedTo,
        modportRecords_cons, ← ih]
      unfold modportEntries modportRecords
      by_cases hc : D.isClassTyped x = false ∧ D.kind x = .modportPort <;> simp [List.filter_cons, hc]
    · rw [submittedTo, List.filter_cons_of_neg (by simpa using hx), ← submittedTo, ← ih]
      unfold modportEntries
      by_cases hc : D.isClassTyped x = false ∧ D.kind x = .modportPort <;> simp [List.filter_cons, hc, hx]

theorem quiescent_instances {ops : List (List Operation)} {s : Sys}
    (h : Reachable D allowDupInitialDrivers ops s) (hq : s.pending = []) (body : Sym) :
    (s.tracker.instanceMap body).nonCanonicalInstances.Perm (allInstances D ops body) := by
  simpa [hq] using reachable_instances h body

section Quiescent

variable {ops : List (List Operation)} (hops : ∀ w ∈ ops, .propagateModportDrivers ∉ w) {s : Sys}
  (h : Reachable D allowDupInitialDrivers ops s) (hq : s.pending = [])
include hops h hq

theorem quiescent_entries_spec :
    (entries s.tracker.modportPortDrivers).Perm (modportEntries D (specSubmissions D ops)) := by
  obtain ⟨hE, hrec⟩ := reachable_entries_perm_recorded hops h
  refine hE.trans (perm_of_filter_perm (·.1) fun symbol => ?_)
  rw [hrec symbol, filter_modportEntries]
  exact modportRecords_perm (calls_perm_specSubmissions hops h hq symbol)

variable {rank : Sym → Nat}
  (hrank : ∀ port port', Retargets D (allInstances D ops) port port' → rank port' < rank port)
include hrank

theorem finalRun_calls_spec {n : Nat} (hn : (finalRun D allowDupInitialDrivers s.tracker n).pending = [])
    (symbol : Sym) :
    ((finalRun D allowDupInitialDrivers s.tracker n).tracker.calls symbol).Perm
      (submittedTo symbol (finalSpec D ops rank)) := by
  refine (finalRun_calls hrank _ (quiescent_instances h hq) hn symbol).trans ?_
  rw [finalSpec, submittedTo_append]
  exact (calls_perm_specSubmissions hops h hq symbol).append
    (Perm.submittedTo ((quiescent_entries_spec hops h hq).flatMap_right _) symbol)

end Quiescent

/-- However the workers interleave, once every call of operations that do not propagate has
returned, the pass of `propagateModportDrivers` made alone at the end returns, and after it each
symbol has been submitted the same drivers, up to order: its map holds the same drivers, and its
overlap scans agree on whether it is multiply driven and on the pairs they tolerate. This holds
when each modport port's entries lead only to entries of ports of lower rank. -/
theorem final_drivers_agree {ops : List (List Operation)}
    (hops : ∀ w ∈ ops, .propagateModportDrivers ∉ w)
    {rank : Sym → Nat}
    (hrank : ∀ port port', Retargets D (allInstances D ops) port port' → rank port' < rank port)
    {s s' : Sys}
    (h : Reachable D allowDupInitialDrivers ops s) (hq : s.pending = [])
    (h' : Reachable D allowDupInitialDrivers ops s') (hq' : s'.pending = []) :
    (∃ n, (finalRun D allowDupInitialDrivers s.tracker n).pending = []) ∧
      ∀ n n', (finalRun D allowDupInitialDrivers s.tracker n).pending = [] →
        (finalRun D allowDupInitialDrivers s'.tracker n').pending = [] → ∀ symbol,
        ((finalRun D allowDupInitialDrivers s.tracker n).tracker.calls symbol).Perm
            ((finalRun D allowDupInitialDrivers s'.tracker n').tracker.calls symbol) ∧
          ((finalRun D allowDupInitialDrivers s.tracker n).tracker.getDrivers symbol).Perm
            ((finalRun D allowDupInitialDrivers s'.tracker n').tracker.getDrivers symbol) ∧
          ((toleratedReports (ingest D allowDupInitialDrivers symbol
              ((finalRun D allowDupInitialDrivers s.tracker n).tracker.calls symbol)).2).map
              fun r => Sym2.mk (r.curr, r.driver)).Perm
            ((toleratedReports (ingest D allowDupInitialDrivers symbol
              ((finalRun D allowDupInitialDrivers s'.tracker n').tracker.calls symbol)).2).map
              fun r => Sym2.mk (r.curr, r.driver)) ∧
          ((∃ r ∈ (ingest D allowDupInitialDrivers symbol
              ((finalRun D allowDupInitialDrivers s.tracker n).tracker.calls symbol)).2,
              r.tolerated = false) ↔
            ∃ r ∈ (ingest D allowDupInitialDrivers symbol
              ((finalRun D allowDupInitialDrivers s'.tracker n').tracker.calls symbol)).2,
              r.tolerated = false) := by
  refine ⟨finalRun_ends hrank _ (quiescent_instances h hq), fun n n' hn hn' symbol => ?_⟩
  have hcalls := (finalRun_calls_spec hops h hq hrank hn symbol).trans
    (finalRun_calls_spec hops h' hq' hrank hn' symbol).symm
  refine ⟨hcalls, ?_, Perm.ingest_verdicts hcalls⟩
  rw [Tracker.getDrivers, Tracker.getDrivers, (finalRun_ingested (reachable_ingested h) n symbol).1,
    (finalRun_ingested (reachable_ingested h') n' symbol).1]
  exact Perm.storedDrivers hcalls

/-- However the workers interleave, once every call of operations that do not propagate has
returned and the final pass has returned too, each symbol has been submitted, up to order, the
drivers `finalSpec` computes from the operations alone, and its map holds them after the
initializer's driver. -/
theorem final_calls_spec {ops : List (List Operation)}
    (hops : ∀ w ∈ ops, .propagateModportDrivers ∉ w) {rank : Sym → Nat}
    (hrank : ∀ port port', Retargets D (allInstances D ops) port port' → rank port' < rank port)
    {s : Sys}
    (h : Reachable D allowDupInitialDrivers ops s) (hq : s.pending = []) :
    (∃ n, (finalRun D allowDupInitialDrivers s.tracker n).pending = []) ∧
      ∀ n, (finalRun D allowDupInitialDrivers s.tracker n).pending = [] → ∀ symbol,
        ((finalRun D allowDupInitialDrivers s.tracker n).tracker.calls symbol).Perm
            (submittedTo symbol (finalSpec D ops rank)) ∧
          ((finalRun D allowDupInitialDrivers s.tracker n).tracker.getDrivers symbol).Perm
            (storedDrivers D symbol (submittedTo symbol (finalSpec D ops rank))) := by
  refine ⟨finalRun_ends hrank _ (quiescent_instances h hq), fun n hn symbol => ?_⟩
  have hcalls := finalRun_calls_spec hops h hq hrank hn symbol
  refine ⟨hcalls, ?_⟩
  rw [Tracker.getDrivers, (finalRun_ingested (reachable_ingested h) n symbol).1]
  exact Perm.storedDrivers hcalls

def twoAssigns : List (List Operation) :=
  [[.expression (.namedValue 1 ⟨10, 11⟩) 5], [.expression (.namedValue 3 ⟨20, 21⟩) 6]]

def aFirst : Sys := (Sys.init modportChain twoAssigns).run modportChain false [0, 0, 1, 1]

def bFirst : Sys := (Sys.init modportChain twoAssigns).run modportChain false [1, 1, 0, 0]

theorem allInstances_twoAssigns : allInstances modportChain twoAssigns = fun _ => [] :=
  allInstances_eq_nil (by decide)

theorem final_drivers_agree_twoAssigns :
    (∀ w ∈ twoAssigns, .propagateModportDrivers ∉ w) ∧
      (∀ port port', Retargets modportChain (allInstances modportChain twoAssigns) port port' →
        chainRank port' < chainRank port) ∧
      Reachable modportChain false twoAssigns aFirst ∧ aFirst.pending = [] ∧
      Reachable modportChain false twoAssigns bFirst ∧ bFirst.pending = [] ∧
      (∃ n, (finalRun modportChain false aFirst.tracker n).pending = []) ∧
      ∀ n n', (finalRun modportChain false aFirst.tracker n).pending = [] →
        (finalRun modportChain false bFirst.tracker n').pending = [] → ∀ symbol,
        ((finalRun modportChain false aFirst.tracker n).tracker.calls symbol).Perm
            ((finalRun modportChain false bFirst.tracker n').tracker.calls symbol) ∧
          ((finalRun modportChain false aFirst.tracker n).tracker.getDrivers symbol).Perm
            ((finalRun modportChain false bFirst.tracker n').tracker.getDrivers symbol) ∧
          ((toleratedReports (ingest modportChain false symbol
              ((finalRun modportChain false aFirst.tracker n).tracker.calls symbol)).2).map
              fun r => Sym2.mk (r.curr, r.driver)).Perm
            ((toleratedReports (ingest modportChain false symbol
              ((finalRun modportChain false bFirst.tracker n').tracker.calls symbol)).2).map
              fun r => Sym2.mk (r.curr, r.driver)) ∧
          ((∃ r ∈ (ingest modportChain false symbol
              ((finalRun modportChain false aFirst.tracker n).tracker.calls symbol)).2,
              r.tolerated = false) ↔
            ∃ r ∈ (ingest modportChain false symbol
              ((finalRun modportChain false bFirst.tracker n').tracker.calls symbol)).2,
              r.tolerated = false) :=
  have hops : ∀ w ∈ twoAssigns, .propagateModportDrivers ∉ w := by decide
  have hrank : ∀ port port', Retargets modportChain (allInstances modportChain twoAssigns) port port' →
      chainRank port' < chainRank port := fun _ _ h => chainRank_retargets (allInstances_twoAssigns ▸ h)
  have h := reachable_run [0, 0, 1, 1] .init
  have h' := reachable_run [1, 1, 0, 0] .init
  have hq : aFirst.pending = [] := by decide
  have hq' : bFirst.pending = [] := by decide
  ⟨hops, hrank, h, hq, h', hq', final_drivers_agree hops hrank h hq h' hq'⟩

theorem final_calls_spec_aFirst :
    (∀ w ∈ twoAssigns, .propagateModportDrivers ∉ w) ∧
      (∀ port port', Retargets modportChain (allInstances modportChain twoAssigns) port port' →
        chainRank port' < chainRank port) ∧
      Reachable modportChain false twoAssigns aFirst ∧ aFirst.pending = [] ∧
      (∃ n, (finalRun modportChain false aFirst.tracker n).pending = []) ∧
      ∀ n, (finalRun modportChain false aFirst.tracker n).pending = [] → ∀ symbol,
        ((finalRun modportChain false aFirst.tracker n).tracker.calls symbol).Perm
            (submittedTo symbol (finalSpec modportChain twoAssigns chainRank)) ∧
          ((finalRun modportChain false aFirst.tracker n).tracker.getDrivers symbol).Perm
            (storedDrivers modportChain symbol
              (submittedTo symbol (finalSpec modportChain twoAssigns chainRank))) :=
  have hops : ∀ w ∈ twoAssigns, .propagateModportDrivers ∉ w := by decide
  have hrank : ∀ port port', Retargets modportChain (allInstances modportChain twoAssigns) port port' →
      chainRank port' < chainRank port := fun _ _ h => chainRank_retargets (allInstances_twoAssigns ▸ h)
  have h := reachable_run [0, 0, 1, 1] .init
  have hq : aFirst.pending = [] := by decide
  ⟨hops, hrank, h, hq, final_calls_spec hops hrank h hq⟩

example : (finalRun modportChain false aFirst.tracker 12).pending = [] ∧
    ((finalRun modportChain false aFirst.tracker 12).tracker.calls 2).length = 2 ∧
    (submittedTo 2 (finalSpec modportChain twoAssigns chainRank)).length = 2 := by
  decide

end Agreement

end DriverTracker.FinalPass
