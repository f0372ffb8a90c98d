import DriverTracker.SideEffects
import DriverTracker.Lsp
import Mathlib.Algebra.Order.BigOperators.Group.List
import Mathlib.Algebra.Order.Ring.Nat

namespace DriverTracker.Propagation

open DriverTracker.Syntax DriverTracker.Driver DriverTracker.Elaboration DriverTracker.AddDriver
  DriverTracker.State DriverTracker.Machine DriverTracker.SideEffects

section Records

variable (D : Design)

def modportRecords (symbol : Sym) (ds : DriverList) : List (Sym × ValueDriver × DriverBitRange) :=
  if D.isClassTyped symbol = false ∧ D.kind symbol = .modportPort then ds.map ((symbol, ·)) else []

def madeRecords : Call → List (Sym × ValueDriver × DriverBitRange)
  | .visitSymbols _ ((symbol, ds) :: _) _ => modportRecords D symbol ds
  | .applyInstanceSideEffect ifacePortDriver inst =>
    match sideEffect D ifacePortDriver inst with
    | .ok (some (target, driver, bounds)) => modportRecords D target [(driver, bounds)]
    | _ => []
  | _ => []

def propagation (e : Sym × ValueDriver × DriverBitRange) : Option (Expr × ValueDriver) :=
  (D.modportConnectionExpr e.1).map (·, e.2.1)

end Records

def submission : Call → Option (Expr × ValueDriver)
  | .propagateModportDriver connectionExpr originalDriver => some (connectionExpr, originalDriver)
  | _ => none

def inPass : Call → Bool
  | .noteNonCanonicalInstance _ | .propagateModportDrivers => false
  | _ => true

variable {D : Design} {allowDupInitialDrivers : Bool}

theorem modportRecords_cons (symbol : Sym) (e : ValueDriver × DriverBitRange) (ds : DriverList) :
    modportRecords D symbol (e :: ds) = modportRecords D symbol [e] ++ modportRecords D symbol ds := by
  unfold modportRecords
  split_ifs <;> simp

theorem propagationCalls_submissions (m : List (Sym × DriverList)) :
    (propagationCalls D m).filterMap submission = (entries m).filterMap (propagation D) := by
  rw [propagationCalls, List.filterMap_filterMap]
  congr 1
  funext e
  cases h : D.modportConnectionExpr e.1 <;> simp [propagation, submission, h]

theorem addDriver_records (t : Tracker) (symbol : Sym) (driver : ValueDriver)
    (bounds : DriverBitRange) :
    (t.addDriver D allowDupInitialDrivers symbol driver bounds).1.recorded =
        t.recorded ++ modportRecords D symbol [(driver, bounds)] ∧
      (entries (t.addDriver D allowDupInitialDrivers symbol driver bounds).1.modportPortDrivers).Perm
        (entries t.modportPortDrivers ++ modportRecords D symbol [(driver, bounds)]) := by
  simp only [Tracker.addDriver, addDriver_modportEntry, modportRecords]
  split_ifs <;> simp [entries_recordEntry]

theorem visitSymbol_records (t : Tracker) (symbol : Sym) (ds : DriverList) :
    (t.visitSymbol D allowDupInitialDrivers symbol ds).1.recorded =
        t.recorded ++ modportRecords D symbol ds ∧
      (entries (t.visitSymbol D allowDupInitialDrivers symbol ds).1.modportPortDrivers).Perm
        (entries t.modportPortDrivers ++ modportRecords D symbol ds) := by
  induction ds generalizing t with
  | nil => simp [Tracker.visitSymbol, modportRecords]
  | cons e ds ih =>
    obtain ⟨hr, hm⟩ := @addDriver_records D allowDupInitialDrivers t symbol e.1 e.2
    obtain ⟨hr', hm'⟩ := ih (t.addDriver D allowDupInitialDrivers symbol e.1 e.2).1
    refine ⟨by simp [Tracker.visitSymbol, hr', hr, modportRecords_cons symbol e ds], ?_⟩
    rw [modportRecords_cons symbol e ds, ← List.append_assoc]
    exact hm'.trans (hm.append_right _)

theorem run_records (c : Call) (t : Tracker) (hc : c ≠ .propagateModportDrivers) :
    (c.run D allowDupInitialDrivers t).1.recorded = t.recorded ++ madeRecords D c ∧
      (entries (c.run D allowDupInitialDrivers t).1.modportPortDrivers).Perm
        (entries t.modportPortDrivers ++ madeRecords D c) := by
  cases c with
  | visitSymbols noteRefs pending refs =>
    cases pending with
    | nil => simp [Call.run, madeRecords]
    | cons p rest => exact visitSymbol_records t p.1 p.2
  | noteInterfacePortDriver ref driver =>
    simp only [Call.run]
    split <;> simp [Tracker.registerIfacePortDriver, madeRecords]
  | applyInstanceSideEffect i inst =>
    simp only [Call.run, Tracker.applyInstanceSideEffect, madeRecords]
    split
    · simp [*]
    · simp [*]
    · rename_i h
      simp only [h]
      exact visitSymbol_records _ _ _
  | noteNonCanonicalInstance inst => simp [Call.run, Tracker.registerInstance, madeRecords]
  | propagateModportDrivers => exact absurd rfl hc
  | propagateModportDriver connectionExpr originalDriver => simp [Call.run, madeRecords]

theorem run_propagated (c : Call) (t : Tracker) (hc : c ≠ .propagateModportDrivers) :
    (c.run D allowDupInitialDrivers t).1.propagated = t.propagated ++ (submission c).toList ∧
      (c.run D allowDupInitialDrivers t).2.filterMap submission = [] := by
  cases c with
  | visitSymbols noteRefs pending refs =>
    cases pending <;> simp [Call.run, submission, List.filterMap_map, Function.comp_def]
  | noteInterfacePortDriver ref driver =>
    simp only [Call.run]
    split
    · simp [submission]
    · cases nextIfacePortRef D _ ref <;>
        simp [Tracker.registerIfacePortDriver, submission, List.filterMap_map, Function.comp_def]
  | applyInstanceSideEffect i inst =>
    simp only [Call.run, Tracker.applyInstanceSideEffect]
    split <;> simp [submission]
  | noteNonCanonicalInstance inst =>
    simp [Call.run, Tracker.registerInstance, submission, List.filterMap_map, Function.comp_def]
  | propagateModportDrivers => exact absurd rfl hc
  | propagateModportDriver connectionExpr originalDriver => simp [Call.run, submission, addDrivers]

theorem run_inPass {c : Call} (hc : inPass c) (t : Tracker) :
    ∀ c' ∈ (c.run D allowDupInitialDrivers t).2, inPass c' := by
  intro c' h
  cases c with
  | visitSymbols noteRefs pending refs =>
    cases pending <;> simp only [Call.run, List.mem_map, List.mem_singleton] at h
    · obtain ⟨_, -, rfl⟩ := h
      rfl
    · rw [h]
      rfl
  | noteInterfacePortDriver ref driver =>
    simp only [Call.run] at h
    split at h
    · cases h
    · simp at h
      rcases h with ⟨_, -, rfl⟩ | ⟨_, -, rfl⟩ <;> rfl
  | applyInstanceSideEffect i inst => cases h
  | noteNonCanonicalInstance inst => cases hc
  | propagateModportDrivers => cases hc
  | propagateModportDriver connectionExpr originalDriver =>
    rw [List.mem_singleton.1 h]
    rfl

theorem run_instances {c : Call} (hc : inPass c) (t : Tracker) (body : Sym) :
    ((c.run D allowDupInitialDrivers t).1.instanceMap body).nonCanonicalInstances =
      (t.instanceMap body).nonCanonicalInstances := by
  rw [run_nonCanonicalInstances]
  cases c <;> simp_all [futureInstances, inPass]

section Work

variable (D : Design) (insts : Sym → List Sym)

def chainWork (ref : HierarchicalReference) (driver : ValueDriver) : Nat :=
  1 + ((chainRegistrations D ref driver).map fun r => 1 + (insts r.1).length).sum

def chainRecords (ref : HierarchicalReference) (driver : ValueDriver) :
    List (Sym × ValueDriver × DriverBitRange) :=
  (chainRegistrations D ref driver).flatMap fun r =>
    (insts r.1).flatMap fun inst => madeRecords D (.applyInstanceSideEffect r.2 inst)

def notedRefs (noteRefs : Bool) (pending : List (Sym × DriverList))
    (refs : List (HierarchicalReference × ValueDriver)) :
    List (HierarchicalReference × ValueDriver) :=
  refs ++ if noteRefs then collectedRefs D pending else []

def callWork : Call → Nat
  | .visitSymbols noteRefs pending refs =>
    pending.length + 1 + ((notedRefs D noteRefs pending refs).map fun r => chainWork D insts r.1 r.2).sum
  | .noteInterfacePortDriver ref driver => chainWork D insts ref driver
  | .applyInstanceSideEffect _ _ => 1
  | .propagateModportDriver connectionExpr originalDriver =>
    let pending := lspDrivers D connectionExpr originalDriver.kind originalDriver.flags
      originalDriver.containingSymbol (splice originalDriver.prefixExpression connectionExpr)
    pending.length + 2 + ((notedRefs D true pending []).map fun r => chainWork D insts r.1 r.2).sum
  | _ => 0

def callRecords : Call → List (Sym × ValueDriver × DriverBitRange)
  | .visitSymbols noteRefs pending refs =>
    pending.flatMap (fun p => modportRecords D p.1 p.2) ++
      (notedRefs D noteRefs pending refs).flatMap fun r => chainRecords D insts r.1 r.2
  | .noteInterfacePortDriver ref driver => chainRecords D insts ref driver
  | c@(.applyInstanceSideEffect _ _) => madeRecords D c
  | .propagateModportDriver connectionExpr originalDriver =>
    let pending := lspDrivers D connectionExpr originalDriver.kind originalDriver.flags
      originalDriver.containingSymbol (splice originalDriver.prefixExpression connectionExpr)
    pending.flatMap (fun p => modportRecords D p.1 p.2) ++
      (notedRefs D true pending []).flatMap fun r => chainRecords D insts r.1 r.2
  | _ => []

end Work

section WorkSteps

variable {D : Design} {allowDupInitialDrivers : Bool} {insts : Sym → List Sym}

theorem notedRefs_cons (noteRefs : Bool) (p : Sym × DriverList) (rest : List (Sym × DriverList))
    (refs : List (HierarchicalReference × ValueDriver)) :
    notedRefs D noteRefs (p :: rest) refs =
      notedRefs D noteRefs rest (if noteRefs then refs ++ collectedRefs D [p] else refs) := by
  cases noteRefs <;> simp [notedRefs, collectedRefs]

theorem run_callWork {c : Call} (hc : inPass c) (t : Tracker)
    (hinsts : ∀ body, (t.instanceMap body).nonCanonicalInstances = insts body) :
    1 + ((c.run D allowDupInitialDrivers t).2.map (callWork D insts)).sum ≤ callWork D insts c := by
  cases c with
  | visitSymbols noteRefs pending refs =>
    cases pending with
    | nil => simp [Call.run, callWork, notedRefs, collectedRefs, List.map_map, Function.comp_def]
    | cons p rest =>
      simp only [Call.run, callWork, notedRefs_cons, visitSymbol_snd, collectedRefs, List.flatMap_cons,
        List.flatMap_nil, List.append_nil, List.map_cons, List.map_nil, List.sum_cons, List.sum_nil,
        List.length_cons]
      split_ifs <;> omega
  | noteInterfacePortDriver ref driver =>
    simp only [Call.run, callWork, chainWork, chainRegistrations_eq ref driver]
    split
    · simp [madeRegistrations, *]
    · rename_i first _ h
      cases hn : nextIfacePortRef D first.symbol ref <;>
        simp [madeRegistrations, h, hn, hinsts, callWork, chainWork, Function.comp_def,
          List.sum_const_nat]
      omega
  | applyInstanceSideEffect i inst => simp [Call.run, callWork]
  | noteNonCanonicalInstance inst => cases hc
  | propagateModportDrivers => cases hc
  | propagateModportDriver connectionExpr originalDriver => simp [Call.run, callWork, addDrivers]; omega

theorem run_callRecords {c : Call} (hc : inPass c) (t : Tracker)
    (hinsts : ∀ body, (t.instanceMap body).nonCanonicalInstances = insts body) :
    madeRecords D c ++ (c.run D allowDupInitialDrivers t).2.flatMap (callRecords D insts) =
      callRecords D insts c := by
  cases c with
  | visitSymbols noteRefs pending refs =>
    cases pending with
    | nil => simp [Call.run, callRecords, madeRecords, notedRefs, collectedRefs, List.flatMap_map]
    | cons p rest =>
      simp only [Call.run, callRecords, madeRecords, notedRefs_cons, visitSymbol_snd, collectedRefs,
        List.flatMap_cons, List.flatMap_nil, List.append_nil, List.append_assoc]
  | noteInterfacePortDriver ref driver =>
    simp only [Call.run, callRecords, chainRecords, chainRegistrations_eq ref driver]
    split
    · simp [madeRegistrations, madeRecords, *]
    · rename_i first _ h
      cases hn : nextIfacePortRef D first.symbol ref <;>
        simp [madeRegistrations, madeRecords, h, hn, hinsts, callRecords, chainRecords, List.flatMap_map]
  | applyInstanceSideEffect i inst => simp [Call.run, callRecords]
  | noteNonCanonicalInstance inst => cases hc
  | propagateModportDrivers => cases hc
  | propagateModportDriver connectionExpr originalDriver =>
    simp [Call.run, callRecords, madeRecords, addDrivers]

end WorkSteps

section Measure

variable (D : Design) (insts : Sym → List Sym)

/-- An entry of the modport port `port`, submitted through the port's connection expression,
leads to an entry of the modport port `port'`: recorded by a driver it submits, or by the
replay of an interface port reference such a driver notes, for the instances `insts`. -/
def Retargets (port port' : Sym) : Prop :=
  ∃ connectionExpr originalDriver e, D.modportConnectionExpr port = some connectionExpr ∧
    e ∈ callRecords D insts (.propagateModportDriver connectionExpr originalDriver) ∧ e.1 = port'

def entryWeight : Nat → Sym × ValueDriver × DriverBitRange → Nat
  | 0, _ => 1
  | fuel + 1, e => 1 + match D.modportConnectionExpr e.1 with
    | some connectionExpr =>
      callWork D insts (.propagateModportDriver connectionExpr e.2.1) +
        ((callRecords D insts (.propagateModportDriver connectionExpr e.2.1)).map
          (entryWeight fuel)).sum
    | none => 0

variable (rank : Sym → Nat)

def weight (e : Sym × ValueDriver × DriverBitRange) : Nat := entryWeight D insts (rank e.1 + 1) e

def callCost (c : Call) : Nat :=
  callWork D insts c + ((callRecords D insts c).map (weight D insts rank)).sum

def passMeasure (pending : List Call) (m : List (Sym × DriverList)) : Nat :=
  2 * ((pending.map (callCost D insts rank)).sum + ((entries m).map (weight D insts rank)).sum) +
    if m.isEmpty then 0 else 1

end Measure

section MeasureSteps

variable {D : Design} {allowDupInitialDrivers : Bool} {insts : Sym → List Sym} {rank : Sym → Nat}

theorem entryWeight_le_succ (fuel : Nat) (e : Sym × ValueDriver × DriverBitRange) :
    entryWeight D insts fuel e ≤ entryWeight D insts (fuel + 1) e := by
  induction fuel generalizing e with
  | zero => simp [entryWeight]
  | succ fuel ih =>
    rw [entryWeight, entryWeight]
    split
    · exact Nat.add_le_add_left (Nat.add_le_add_left (List.sum_le_sum fun e' _ => ih e') _) _
    · rfl

theorem entryWeight_mono {fuel fuel' : Nat} (h : fuel ≤ fuel') (e : Sym × ValueDriver × DriverBitRange) :
    entryWeight D insts fuel e ≤ entryWeight D insts fuel' e :=
  monotone_nat_of_le_succ (fun n => entryWeight_le_succ n e) h

theorem sum_map_callCost (l : List Call) :
    (l.map (callCost D insts rank)).sum =
      (l.map (callWork D insts)).sum + ((l.flatMap (callRecords D insts)).map (weight D insts rank)).sum := by
  induction l with
  | nil => rfl
  | cons c l ih =>
    simp only [List.map_cons, List.sum_cons, List.flatMap_cons, List.map_append, List.sum_append, ih,
      callCost]
    omega

theorem passMeasure_run_lt {c : Call} (hc : inPass c) (t : Tracker) (rest : List Call)
    (hinsts : ∀ body, (t.instanceMap body).nonCanonicalInstances = insts body) :
    passMeasure D insts rank ((c.run D allowDupInitialDrivers t).2 ++ rest)
        (c.run D allowDupInitialDrivers t).1.modportPortDrivers <
      passMeasure D insts rank (c :: rest) t.modportPortDrivers := by
  have hwork := @run_callWork D allowDupInitialDrivers insts c hc t hinsts
  have hrec := congrArg (fun l => (l.map (weight D insts rank)).sum)
    (@run_callRecords D allowDupInitialDrivers insts c hc t hinsts)
  have hmap := (((@run_records D allowDupInitialDrivers c t fun h => by cases h; cases hc).2).map
    (weight D insts rank)).sum_eq
  simp only [List.map_append, List.sum_append] at hrec hmap
  simp only [passMeasure, callCost, List.map_append, List.map_cons, List.sum_append, List.sum_cons,
    sum_map_callCost, hmap, ← hrec]
  split <;> split <;> omega

theorem callCost_submission_lt (hrank : ∀ port port', Retargets D insts port port' → rank port' < rank port)
    (e : Sym × ValueDriver × DriverBitRange) :
    (((D.modportConnectionExpr e.1).map (.propagateModportDriver · e.2.1)).map
      (callCost D insts rank)).getD 0 < weight D insts rank e := by
  cases hE : D.modportConnectionExpr e.1 with
  | none => simp [weight, entryWeight, hE]
  | some connectionExpr =>
    have hle : ∀ e' ∈ callRecords D insts (.propagateModportDriver connectionExpr e.2.1),
        weight D insts rank e' ≤ entryWeight D insts (rank e.1) e' := fun e' he' =>
      entryWeight_mono (hrank _ _ ⟨connectionExpr, e.2.1, e', hE, he', rfl⟩) e'
    have hsum := List.sum_le_sum hle
    show callCost D insts rank _ < entryWeight D insts (rank e.1 + 1) e
    rw [entryWeight, hE]
    exact Nat.lt_one_add_iff.2 (Nat.add_le_add_left hsum _)

theorem sum_filterMap_le {α β : Type} (f : α → Option β) (g : β → Nat) (h : α → Nat)
    (hle : ∀ a, ((f a).map g).getD 0 ≤ h a) (l : List α) :
    ((l.filterMap f).map g).sum ≤ (l.map h).sum := by
  induction l with
  | nil => rfl
  | cons a l ih =>
    have := hle a
    cases hf : f a <;> simp_all [List.filterMap_cons] <;> omega

theorem passMeasure_pass_lt (hrank : ∀ port port', Retargets D insts port port' → rank port' < rank port)
    {m : List (Sym × DriverList)} (hm : m.isEmpty = false) :
    passMeasure D insts rank (propagationCalls D m) [] < passMeasure D insts rank [] m := by
  have := sum_filterMap_le _ (callCost D insts rank) (weight D insts rank)
    (fun e => (callCost_submission_lt hrank e).le) (entries m)
  simp only [passMeasure, propagationCalls, List.map_nil, List.sum_nil, entries_nil, List.isEmpty_nil,
    hm, if_true, Bool.false_eq_true, if_false]
  omega

end MeasureSteps

section Pass

variable {D : Design} {allowDupInitialDrivers : Bool}

variable (D allowDupInitialDrivers) in
theorem step_top {s : Sys} {w : Nat} {c : Call} {stack : List Call}
    (h : s.workers[w]? = some (c :: stack)) :
    (s.step D allowDupInitialDrivers w).tracker = (c.run D allowDupInitialDrivers s.tracker).1 ∧
      (s.step D allowDupInitialDrivers w).workers[w]? =
        some ((c.run D allowDupInitialDrivers s.tracker).2 ++ stack) := by
  have hw : w < s.workers.length := by
    by_contra hw
    rw [List.getElem?_eq_none (by omega)] at h
    cases h
  simp [Sys.step, h, List.getElem?_set_self hw]

variable (D) in
structure PassInv (s₀ : Sys) (w : Nat) (rest pending : List Call) (s : Sys) : Prop where
  stack : s.workers[w]? = some (pending ++ .propagateModportDrivers :: rest)
  inPass : ∀ c ∈ pending, inPass c
  instances : ∀ body, (s.tracker.instanceMap body).nonCanonicalInstances =
    (s₀.tracker.instanceMap body).nonCanonicalInstances
  logs : ∃ P R, s.tracker.propagated = s₀.tracker.propagated ++ P ∧
    s.tracker.recorded = s₀.tracker.recorded ++ R ∧
    (P ++ pending.filterMap submission ++ (entries s.tracker.modportPortDrivers).filterMap (propagation D)).Perm
      ((entries s₀.tracker.modportPortDrivers ++ R).filterMap (propagation D))

variable (D) in
def Returned (s₀ : Sys) (w : Nat) (rest : List Call) (s : Sys) : Prop :=
  s.workers[w]? = some rest ∧ s.tracker.modportPortDrivers = [] ∧
    ∃ P R, s.tracker.propagated = s₀.tracker.propagated ++ P ∧
      s.tracker.recorded = s₀.tracker.recorded ++ R ∧
      P.Perm ((entries s₀.tracker.modportPortDrivers ++ R).filterMap (propagation D))

theorem step_passInv {s₀ s : Sys} {w : Nat} {rest pending : List Call} {c : Call}
    (h : PassInv D s₀ w rest (c :: pending) s) :
    PassInv D s₀ w rest ((c.run D allowDupInitialDrivers s.tracker).2 ++ pending)
      (s.step D allowDupInitialDrivers w) := by
  have hpass := h.inPass c (List.mem_cons_self c pending)
  have hc : c ≠ .propagateModportDrivers := fun e => by simp [e, inPass] at hpass
  obtain ⟨ht, hstack⟩ := step_top D allowDupInitialDrivers h.stack
  obtain ⟨P, R, hP, hR, hperm⟩ := h.logs
  obtain ⟨hP', hsub⟩ := @run_propagated D allowDupInitialDrivers c s.tracker hc
  obtain ⟨hR', hM⟩ := @run_records D allowDupInitialDrivers c s.tracker hc
  refine ⟨by rw [hstack]; simp, fun c' hc' => ?_, fun body => ?_,
    P ++ (submission c).toList, R ++ madeRecords D c, ?_, ?_, ?_⟩
  · rcases List.mem_append.1 hc' with hc' | hc'
    exacts [run_inPass hpass _ c' hc', h.inPass c' (List.mem_cons_of_mem c hc')]
  · rw [ht, run_instances hpass, h.instances]
  · rw [ht, hP', hP, List.append_assoc]
  · rw [ht, hR', hR, List.append_assoc]
  · have hcons : (c :: pending).filterMap submission =
        (submission c).toList ++ pending.filterMap submission := by
      cases hs : submission c <;> simp [List.filterMap_cons, hs]
    rw [hcons] at hperm
    rw [ht, List.filterMap_append, hsub, List.nil_append]
    refine ((hM.filterMap _).append_left _).trans ?_
    simpa only [List.filterMap_append, List.append_assoc] using
      hperm.append_right ((madeRecords D c).filterMap (propagation D))

theorem step_passInv_pass {s₀ s : Sys} {w : Nat} {rest : List Call}
    (h : PassInv D s₀ w rest [] s) (hm : s.tracker.modportPortDrivers.isEmpty = false) :
    PassInv D s₀ w rest (propagationCalls D s.tracker.modportPortDrivers)
      (s.step D allowDupInitialDrivers w) := by
  obtain ⟨ht, hstack⟩ := step_top D allowDupInitialDrivers h.stack
  obtain ⟨P, R, hP, hR, hperm⟩ := h.logs
  simp only [Call.run, hm] at ht hstack
  refine ⟨by simpa using hstack, fun c hc => ?_, fun body => by rw [ht]; exact h.instances body,
    P, R, by rw [ht]; exact hP, by rw [ht]; exact hR, ?_⟩
  · obtain ⟨e, -, hc⟩ := List.mem_filterMap.1 hc
    obtain ⟨_, -, rfl⟩ := Option.map_eq_some'.1 hc
    rfl
  · simpa [ht, propagationCalls_submissions] using hperm

theorem step_passInv_return {s₀ s : Sys} {w : Nat} {rest : List Call}
    (h : PassInv D s₀ w rest [] s) (hm : s.tracker.modportPortDrivers.isEmpty = true) :
    Returned D s₀ w rest (s.step D allowDupInitialDrivers w) := by
  obtain ⟨ht, hstack⟩ := step_top D allowDupInitialDrivers h.stack
  obtain ⟨P, R, hP, hR, hperm⟩ := h.logs
  simp only [Call.run, hm] at ht hstack
  rw [List.isEmpty_iff.1 hm] at hperm
  exact ⟨by simpa using hstack, by rw [ht], P, R, by rw [ht]; exact hP, by rw [ht]; exact hR,
    by simpa using hperm⟩

variable {insts : Sym → List Sym} {rank : Sym → Nat}

theorem passInv_returns
    (hrank : ∀ port port', Retargets D insts port port' → rank port' < rank port)
    {s₀ : Sys} {w : Nat} {rest : List Call}
    (hinsts : ∀ body, (s₀.tracker.instanceMap body).nonCanonicalInstances = insts body) :
    ∀ bound pending s, passMeasure D insts rank pending s.tracker.modportPortDrivers < bound →
      PassInv D s₀ w rest pending s →
      ∃ n, Returned D s₀ w rest (s.run D allowDupInitialDrivers (List.replicate n w))
  | 0, _, _, hbound, _ => absurd hbound (Nat.not_lt_zero _)
  | bound + 1, [], s, hbound, h => by
    cases hm : s.tracker.modportPortDrivers.isEmpty
    · have hlt := passMeasure_pass_lt hrank hm
      obtain ⟨ht, -⟩ := step_top D allowDupInitialDrivers h.stack
      simp only [Call.run] at ht
      obtain ⟨n, hn⟩ := passInv_returns hrank hinsts bound _ _
        (by rw [ht]; dsimp only; omega) (step_passInv_pass h hm)
      exact ⟨n + 1, hn⟩
    · exact ⟨1, step_passInv_return h hm⟩
  | bound + 1, c :: pending, s, hbound, h => by
    have hlt := @passMeasure_run_lt D allowDupInitialDrivers insts rank c
      (h.inPass c (List.mem_cons_self c pending)) s.tracker pending
      fun body => (h.instances body).trans (hinsts body)
    obtain ⟨ht, -⟩ := step_top D allowDupInitialDrivers h.stack
    obtain ⟨n, hn⟩ := passInv_returns hrank hinsts bound _ _ (by rw [ht]; omega) (step_passInv h)
    exact ⟨n + 1, hn⟩

/-- From any state in which worker `w` is to call `propagateModportDrivers` over the stack
`rest`, when every entry the submission of an entry leads to lies on a modport port of lower
rank, for the instances of that state, the call returns after finitely many steps of `w`. It
leaves `modportPortDrivers` empty, and it has submitted each entry with a connection expression,
whether in the map at the call or recorded during it, exactly once. -/
theorem propagateModportDrivers_terminates {s : Sys} {w : Nat} {rest : List Call}
    (hw : s.workers[w]? = some (.propagateModportDrivers :: rest)) (rank : Sym → Nat)
    (hrank : ∀ port port', Retargets D (fun body => (s.tracker.instanceMap body).nonCanonicalInstances)
      port port' → rank port' < rank port) :
    ∃ n, (s.run D allowDupInitialDrivers (List.replicate n w)).workers[w]? = some rest ∧
      (s.run D allowDupInitialDrivers (List.replicate n w)).tracker.modportPortDrivers = [] ∧
      ∃ P R, (s.run D allowDupInitialDrivers (List.replicate n w)).tracker.propagated =
          s.tracker.propagated ++ P ∧
        (s.run D allowDupInitialDrivers (List.replicate n w)).tracker.recorded = s.tracker.recorded ++ R ∧
        P.Perm ((entries s.tracker.modportPortDrivers ++ R).filterMap (propagation D)) :=
  passInv_returns hrank (fun _ => rfl) _ [] s (Nat.lt_succ_self _)
    ⟨hw, fun _ h => (List.not_mem_nil _ h).elim, fun _ => rfl, [], [], by simp, by simp, by simp⟩

end Pass

section Chain

variable {D : Design}

theorem chainRecords_without_instances (ref : HierarchicalReference) (driver : ValueDriver) :
    chainRecords D (fun _ => []) ref driver = [] := by
  simp [chainRecords]

theorem retargets_without_instances {port port' : Sym} (h : Retargets D (fun _ => []) port port') :
    ∃ connectionExpr initialLSP lsp, D.modportConnectionExpr port = some connectionExpr ∧
      (port', lsp, true) ∈ D.visitLSPs connectionExpr initialLSP ∧ D.kind port' = .modportPort := by
  obtain ⟨connectionExpr, originalDriver, e, hE, he, rfl⟩ := h
  simp only [callRecords, chainRecords_without_instances] at he
  rw [List.flatMap_eq_nil_iff.2 fun _ _ => rfl, List.append_nil, List.mem_flatMap] at he
  obtain ⟨p, hp, he⟩ := he
  obtain ⟨⟨symbol, lsp, isLValue⟩, hx, hp⟩ := List.mem_filterMap.1 hp
  dsimp only at hp
  split_ifs at hp with hl
  obtain ⟨bounds, -, rfl⟩ := Option.map_eq_some'.1 hp
  unfold modportRecords at he
  split_ifs at he with hk
  · obtain ⟨_, -, rfl⟩ := List.mem_map.1 he
    exact ⟨connectionExpr, _, lsp, hE, hl ▸ hx, hk.2⟩
  · cases he

def modportChain : Design :=
  { Design.plain with
    kind := fun s => if s = 1 ∨ s = 3 then .modportPort else if s = 2 then .variable else .other
    modportConnectionExpr := fun s =>
      if s = 1 then some (.namedValue 3 ⟨30, 31⟩) else if s = 3 then some (.namedValue 2 ⟨40, 41⟩)
      else none
    visitLSPs := Lsp.visitLSPs
    getBounds := fun lsp _ => (Lsp.getBounds (fun _ => .logic) lsp).map (·.1) }

def beforePropagation : Sys :=
  (Sys.init modportChain [[.expression (.namedValue 1 ⟨10, 11⟩) 5, .propagateModportDrivers]]).run
    modportChain false [0, 0]

def chainRank (s : Sym) : Nat := if s = 1 then 2 else if s = 3 then 1 else 0

theorem propagateModportDrivers_terminates_modportChain :
    beforePropagation.workers[0]? = some [.propagateModportDrivers] ∧
      (∀ port port', Retargets modportChain
        (fun body => (beforePropagation.tracker.instanceMap body).nonCanonicalInstances) port port' →
          chainRank port' < chainRank port) ∧
      ∃ n, (beforePropagation.run modportChain false (List.replicate n 0)).workers[0]? = some [] ∧
        (beforePropagation.run modportChain false (List.replicate n 0)).tracker.modportPortDrivers = [] ∧
        ∃ P R, (beforePropagation.run modportChain false (List.replicate n 0)).tracker.propagated =
            beforePropagation.tracker.propagated ++ P ∧
          (beforePropagation.run modportChain false (List.replicate n 0)).tracker.recorded =
            beforePropagation.tracker.recorded ++ R ∧
          P.Perm ((entries beforePropagation.tracker.modportPortDrivers ++ R).filterMap
            (propagation modportChain)) :=
  have hw : beforePropagation.workers[0]? = some [.propagateModportDrivers] := by decide
  have hrank : ∀ port port', Retargets modportChain
      (fun body => (beforePropagation.tracker.instanceMap body).nonCanonicalInstances) port port' →
        chainRank port' < chainRank port := fun port port' h => by
    obtain ⟨connectionExpr, initialLSP, lsp, hE, hx, hk⟩ := retargets_without_instances h
    simp only [modportChain] at hE hk hx
    split_ifs at hE with h1 h3 <;> cases hE
    · simp only [Lsp.visitLSPs, List.mem_singleton, Prod.mk.injEq] at hx
      simp [chainRank, hx.1, h1]
    · simp only [Lsp.visitLSPs, List.mem_singleton, Prod.mk.injEq] at hx
      simp [hx.1] at hk
  ⟨hw, hrank, propagateModportDrivers_terminates hw chainRank hrank⟩

end Chain

section Map

variable {D : Design} {allowDupInitialDrivers : Bool}

theorem modportRecords_append (symbol : Sym) (ds ds' : DriverList) :
    modportRecords D symbol (ds ++ ds') = modportRecords D symbol ds ++ modportRecords D symbol ds' := by
  unfold modportRecords
  split_ifs <;> simp

theorem filter_modportRecords (symbol symbol' : Sym) (ds : DriverList) :
    (modportRecords D symbol ds).filter (·.1 = symbol') =
      if symbol = symbol' then modportRecords D symbol ds else [] := by
  unfold modportRecords
  split_ifs <;> simp_all [List.filter_map, Function.comp_def]

variable (D) in
def RecordsCalls (t : Tracker) : Prop :=
  ∀ symbol, t.recorded.filter (·.1 = symbol) = modportRecords D symbol (t.calls symbol)

theorem visitSymbol_recordsCalls {t : Tracker} (h : RecordsCalls D t) (symbol : Sym) (ds : DriverList) :
    RecordsCalls D (t.visitSymbol D allowDupInitialDrivers symbol ds).1 := by
  induction ds generalizing t with
  | nil => exact h
  | cons e ds ih =>
    refine ih fun s => ?_
    rw [(@addDriver_records D allowDupInitialDrivers t symbol e.1 e.2).1, List.filter_append, h s,
      filter_modportRecords]
    simp only [Tracker.addDriver]
    by_cases hs : symbol = s
    · subst hs
      simp [modportRecords_append]
    · simp [hs, Function.update_noteq (Ne.symm hs)]

theorem run_recordsCalls {t : Tracker} (h : RecordsCalls D t) (c : Call) :
    RecordsCalls D (c.run D allowDupInitialDrivers t).1 := by
  cases c with
  | visitSymbols noteRefs pending refs =>
    cases pending with
    | nil => exact h
    | cons p rest => exact visitSymbol_recordsCalls h p.1 p.2
  | noteInterfacePortDriver ref driver =>
    simp only [Call.run]
    split
    · exact h
    · exact h
  | applyInstanceSideEffect i inst =>
    simp only [Call.run, Tracker.applyInstanceSideEffect]
    split
    · exact h
    · exact h
    · exact visitSymbol_recordsCalls (by exact h) _ _
  | noteNonCanonicalInstance inst => exact h
  | propagateModportDrivers => exact h
  | propagateModportDriver connectionExpr originalDriver => exact h

theorem reachable_entries_perm_recorded {ops : List (List Operation)}
    (hops : ∀ w ∈ ops, .propagateModportDrivers ∉ w) {s : Sys}
    (h : Reachable D allowDupInitialDrivers ops s) :
    (entries s.tracker.modportPortDrivers).Perm s.tracker.recorded ∧ RecordsCalls D s.tracker := by
  have hno := (reachable_futureInv hops h).noPropagation
  induction h with
  | init => exact ⟨by simp [Sys.init, Tracker.empty], fun _ => by simp [Sys.init, Tracker.empty, modportRecords]⟩
  | @step s w hs ih =>
    have hno' := (reachable_futureInv hops hs).noPropagation
    obtain ⟨hperm, hrec⟩ := ih hno'
    rcases step_cases s w with heq | ⟨c, hc, ht, -⟩
    · rw [heq]
      exact ⟨hperm, hrec⟩
    · have hne : c ≠ .propagateModportDrivers := fun e => hno' (e ▸ hc)
      obtain ⟨hR, hM⟩ := @run_records D allowDupInitialDrivers c s.tracker hne
      rw [ht, hR]
      exact ⟨hM.trans (hperm.append_right _), run_recordsCalls hrec c⟩

/-- Until a propagation, `modportPortDrivers` holds, for each modport port that is not
class-typed, one entry for each driver submitted to it, and nothing for any other symbol. -/
theorem modportPortDrivers_hold_submissions {ops : List (List Operation)}
    (hops : ∀ w ∈ ops, .propagateModportDrivers ∉ w) {s : Sys}
    (h : Reachable D allowDupInitialDrivers ops s) (symbol : Sym) :
    ((entries s.tracker.modportPortDrivers).filter (·.1 = symbol)).Perm
      (if D.isClassTyped symbol = false ∧ D.kind symbol = .modportPort then
        (s.tracker.calls symbol).map ((symbol, ·)) else []) := by
  obtain ⟨hperm, hrec⟩ := reachable_entries_perm_recorded hops h
  rw [← modportRecords, ← hrec symbol]
  exact hperm.filter _

def assignA : List (List Operation) := [[.expression (.namedValue 1 ⟨10, 11⟩) 5]]

theorem modportPortDrivers_hold_submissions_assignA :
    (∀ w ∈ assignA, .propagateModportDrivers ∉ w) ∧
      Reachable modportChain false assignA ((Sys.init modportChain assignA).run modportChain false [0, 0]) ∧
      ((entries ((Sys.init modportChain assignA).run modportChain false [0, 0]).tracker.modportPortDrivers).filter
          (·.1 = 1)).Perm
        (if modportChain.isClassTyped 1 = false ∧ modportChain.kind 1 = .modportPort then
          (((Sys.init modportChain assignA).run modportChain false [0, 0]).tracker.calls 1).map ((1, ·))
        else []) :=
  have hops : ∀ w ∈ assignA, .propagateModportDrivers ∉ w := by decide
  have h := reachable_run [0, 0] .init
  ⟨hops, h, modportPortDrivers_hold_submissions hops h 1⟩

end Map

end DriverTracker.Propagation
