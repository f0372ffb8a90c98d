import DriverTracker.StoredDrivers
import Mathlib.Data.List.ProdSigma
import Mathlib.Data.List.Perm.Basic

namespace DriverTracker.SideEffects

open DriverTracker.Syntax DriverTracker.Driver DriverTracker.Elaboration DriverTracker.AddDriver
  DriverTracker.State DriverTracker.Machine

variable {α β : Type}

theorem append_singleton_product (l : List α) (a : α) (m : List β) :
    (l ++ [a]) ×ˢ m = l ×ˢ m ++ m.map (a, ·) := by
  simp [SProd.sprod, List.product, List.flatMap_append]

theorem product_append_singleton (l : List α) (m : List β) (b : β) :
    (l ×ˢ (m ++ [b])).Perm (l ×ˢ m ++ l.map (·, b)) := by
  induction l with
  | nil => simp
  | cons a l ih =>
    simp only [List.product_cons, List.map_append, List.map_cons, List.map_nil, List.append_assoc,
      List.singleton_append]
    exact ((ih.cons _).trans List.perm_middle.symm).append_left _

def pendingApplication : Call → List (IfacePortDriver × Sym)
  | .applyInstanceSideEffect ifacePortDriver inst => [(ifacePortDriver, inst)]
  | _ => []

@[simp] theorem pendingApplication_applyInstanceSideEffect (i : IfacePortDriver) (inst : Sym) :
    pendingApplication (.applyInstanceSideEffect i inst) = [(i, inst)] := rfl

@[simp] theorem pendingApplication_noteInterfacePortDriver (ref : HierarchicalReference)
    (driver : ValueDriver) : pendingApplication (.noteInterfacePortDriver ref driver) = [] := rfl

section Replay

variable {D : Design} {allowDupInitialDrivers : Bool}

theorem registerIfacePortDriver_instanceMap (t : Tracker) (body : Sym) (i : IfacePortDriver)
    (b : Sym) :
    ((t.registerIfacePortDriver body i).instanceMap b).ifacePortDrivers =
        (if b = body then (t.instanceMap b).ifacePortDrivers ++ [i]
          else (t.instanceMap b).ifacePortDrivers) ∧
      ((t.registerIfacePortDriver body i).instanceMap b).nonCanonicalInstances =
        (t.instanceMap b).nonCanonicalInstances := by
  by_cases hb : b = body
  · subst hb
    simp [Tracker.registerIfacePortDriver]
  · simp [Tracker.registerIfacePortDriver, Function.update_noteq hb, hb]

theorem registerInstance_instanceMap (t : Tracker) (body inst : Sym) (b : Sym) :
    ((t.registerInstance body inst).instanceMap b).ifacePortDrivers =
        (t.instanceMap b).ifacePortDrivers ∧
      ((t.registerInstance body inst).instanceMap b).nonCanonicalInstances =
        (if b = body then (t.instanceMap b).nonCanonicalInstances ++ [inst]
          else (t.instanceMap b).nonCanonicalInstances) := by
  by_cases hb : b = body
  · subst hb
    simp [Tracker.registerInstance]
  · simp [Tracker.registerInstance, Function.update_noteq hb, hb]

theorem applied_run (c : Call) (t : Tracker) :
    (c.run D allowDupInitialDrivers t).1.applied = t.applied ++ pendingApplication c := by
  cases c with
  | visitSymbols noteRefs pending refs => cases pending <;> simp [Call.run, pendingApplication]
  | noteInterfacePortDriver ref driver =>
    simp only [Call.run]
    split <;> simp [Tracker.registerIfacePortDriver, pendingApplication]
  | applyInstanceSideEffect i inst =>
    simp only [Call.run, Tracker.applyInstanceSideEffect]
    split <;> simp [pendingApplication]
  | _ => simp [Call.run, Tracker.registerInstance, pendingApplication]

theorem run_instanceMap (c : Call) (t : Tracker) :
    ((c.run D allowDupInitialDrivers t).1.instanceMap = t.instanceMap ∧
        (c.run D allowDupInitialDrivers t).2.flatMap pendingApplication = []) ∨
      (∃ body i, (c.run D allowDupInitialDrivers t).1.instanceMap =
          (t.registerIfacePortDriver body i).instanceMap ∧
        (c.run D allowDupInitialDrivers t).2.flatMap pendingApplication =
          (t.instanceMap body).nonCanonicalInstances.map (i, ·)) ∨
      ∃ inst, (c.run D allowDupInitialDrivers t).1.instanceMap =
          (t.registerInstance (D.canonicalBody inst) inst).instanceMap ∧
        (c.run D allowDupInitialDrivers t).2.flatMap pendingApplication =
          (t.instanceMap (D.canonicalBody inst)).ifacePortDrivers.map (·, inst) := by
  cases c with
  | visitSymbols noteRefs pending refs =>
    refine .inl ?_
    cases pending <;> simp [Call.run, List.flatMap_map, pendingApplication]
  | noteInterfacePortDriver ref driver =>
    simp only [Call.run]
    split
    · exact .inl ⟨rfl, rfl⟩
    · refine .inr (.inl ⟨_, _, rfl, ?_⟩)
      cases nextIfacePortRef D _ ref <;> simp [List.map_eq_flatMap, List.flatMap_assoc]
  | applyInstanceSideEffect i inst =>
    refine .inl ⟨?_, rfl⟩
    simp only [Call.run, Tracker.applyInstanceSideEffect]
    split <;> simp
  | noteNonCanonicalInstance inst =>
    refine .inr (.inr ⟨inst, rfl, ?_⟩)
    simp [Call.run, List.map_eq_flatMap, List.flatMap_assoc]
  | propagateModportDrivers =>
    refine .inl ⟨rfl, ?_⟩
    simp only [Call.run]
    split_ifs
    · rfl
    · simp only [List.flatMap_eq_nil_iff, List.mem_append, List.mem_singleton]
      rintro _ (hc | rfl)
      · obtain ⟨_, -, hc⟩ := List.mem_filterMap.1 hc
        obtain ⟨_, -, rfl⟩ := Option.map_eq_some'.1 hc
        rfl
      · rfl
  | propagateModportDriver connectionExpr originalDriver => exact .inl ⟨rfl, rfl⟩

variable (D) in
structure ReplayInv (t : Tracker) (pending : List (IfacePortDriver × Sym)) : Prop where
  instances : ∀ body, ∀ inst ∈ (t.instanceMap body).nonCanonicalInstances,
    D.canonicalBody inst = body
  replays : ∀ body, ((t.applied ++ pending).filter (D.canonicalBody ·.2 = body)).Perm
    ((t.instanceMap body).ifacePortDrivers ×ˢ (t.instanceMap body).nonCanonicalInstances)

theorem run_replayInv {t : Tracker} {P P' : List (IfacePortDriver × Sym)} (ht : ReplayInv D t P)
    (c : Call)
    (hperm : (pendingApplication c ++ P').Perm
      ((c.run D allowDupInitialDrivers t).2.flatMap pendingApplication ++ P)) :
    ReplayInv D (c.run D allowDupInitialDrivers t).1 P' := by
  have hall : ∀ K, (c.run D allowDupInitialDrivers t).2.flatMap pendingApplication = K →
      ((c.run D allowDupInitialDrivers t).1.applied ++ P').Perm (t.applied ++ P ++ K) := by
    rintro K rfl
    rw [applied_run, List.append_assoc]
    exact (hperm.trans List.perm_append_comm).append_left _ |>.trans (by simp)
  rcases run_instanceMap c t with ⟨hm, hK⟩ | ⟨body0, i, hm, hK⟩ | ⟨inst, hm, hK⟩
  · refine ⟨by rw [hm]; exact ht.instances, fun body => ?_⟩
    rw [hm]
    exact (((hall [] hK).trans (by simp)).filter _).trans (ht.replays body)
  · have hins := fun b => (registerIfacePortDriver_instanceMap t body0 i b).2
    refine ⟨fun body => by rw [hm, hins]; exact ht.instances body, fun body => ?_⟩
    refine ((hall _ hK).filter _).trans ?_
    rw [hm, hins, (registerIfacePortDriver_instanceMap t body0 i body).1,
      List.filter_append (t.applied ++ P)]
    by_cases hb : body = body0
    · subst hb
      have hkeep : ((t.instanceMap body).nonCanonicalInstances.map (i, ·)).filter
          (D.canonicalBody ·.2 = body) = (t.instanceMap body).nonCanonicalInstances.map (i, ·) :=
        List.filter_eq_self.2 (by simpa using ht.instances body)
      rw [if_pos rfl, append_singleton_product, hkeep]
      exact (ht.replays body).append_right _
    · have hdrop : ((t.instanceMap body0).nonCanonicalInstances.map (i, ·)).filter
          (D.canonicalBody ·.2 = body) = [] := by
        refine List.filter_eq_nil_iff.2 fun p hp => ?_
        obtain ⟨inst, hinst, rfl⟩ := List.mem_map.1 hp
        simpa [ht.instances body0 inst hinst] using Ne.symm hb
      rw [if_neg hb, hdrop, List.append_nil]
      exact ht.replays body
  · have hins := fun b => registerInstance_instanceMap t (D.canonicalBody inst) inst b
    refine ⟨fun body b hbody => ?_, fun body => ?_⟩
    · rw [hm, (hins body).2] at hbody
      split_ifs at hbody with hb
      · rcases List.mem_append.1 hbody with hbody | hbody
        · exact ht.instances body b hbody
        · rw [List.mem_singleton.1 hbody, hb]
      · exact ht.instances body b hbody
    refine ((hall _ hK).filter _).trans ?_
    rw [hm, (hins body).1, (hins body).2, List.filter_append (t.applied ++ P)]
    by_cases hb : body = D.canonicalBody inst
    · have hkeep : ((t.instanceMap (D.canonicalBody inst)).ifacePortDrivers.map (·, inst)).filter
          (D.canonicalBody ·.2 = body) = (t.instanceMap (D.canonicalBody inst)).ifacePortDrivers.map
            (·, inst) :=
        List.filter_eq_self.2 (by simp [hb])
      rw [if_pos hb, hkeep, ← hb]
      exact ((ht.replays body).append_right _).trans (product_append_singleton _ _ _).symm
    · have hdrop : ((t.instanceMap (D.canonicalBody inst)).ifacePortDrivers.map (·, inst)).filter
          (D.canonicalBody ·.2 = body) = [] :=
        List.filter_eq_nil_iff.2 (by simpa using fun _ _ => Ne.symm hb)
      rw [if_neg hb, hdrop, List.append_nil]
      exact ht.replays body

theorem calls_pendingApplication (op : Operation) :
    ∀ c ∈ op.calls D, pendingApplication c = [] := by
  cases op <;> simp only [Operation.calls, addPortConnection, addPortSymbol, addClockVar] <;>
    (repeat' split) <;> simp [addDrivers, pendingApplication]

theorem reachable_replayInv {ops : List (List Operation)} {s : Sys}
    (h : Reachable D allowDupInitialDrivers ops s) :
    ReplayInv D s.tracker (s.pending.flatMap pendingApplication) := by
  induction h with
  | init =>
    have hnil : (Sys.init D ops).pending.flatMap pendingApplication = [] := by
      refine List.flatMap_eq_nil_iff.2 fun c hc => ?_
      obtain ⟨l, hl, hcl⟩ := List.mem_flatten.1 hc
      obtain ⟨w, -, rfl⟩ := List.mem_map.1 hl
      obtain ⟨op, -, hc⟩ := List.mem_flatMap.1 hcl
      exact calls_pendingApplication op c hc
    rw [hnil]
    constructor <;> simp [Sys.init, Tracker.empty]
  | @step s w _ ih =>
    rcases step_cases s w with heq | ⟨c, -, ht, hperm⟩
    · rwa [heq]
    · rw [ht]
      exact run_replayInv ih c (by simpa using hperm.flatMap_right pendingApplication)

theorem applied_perm_product {ops : List (List Operation)} {s : Sys}
    (h : Reachable D allowDupInitialDrivers ops s) (hq : s.pending = []) (body : Sym) :
    (s.tracker.applied.filter (D.canonicalBody ·.2 = body)).Perm
      ((s.tracker.instanceMap body).ifacePortDrivers ×ˢ
        (s.tracker.instanceMap body).nonCanonicalInstances) := by
  simpa [hq] using (reachable_replayInv h).replays body

end Replay

section Registrations

variable (D : Design)

def chainRegistrations (ref : HierarchicalReference) (driver : ValueDriver) :
    List (Sym × IfacePortDriver) :=
  match _hpath : ref.path with
  | [] => []
  | first :: _ =>
    (D.parentScope first.symbol, ⟨ref, driver⟩) ::
      match _hnext : nextIfacePortRef D first.symbol ref with
      | some next => chainRegistrations next driver
      | none => []
termination_by (ref.path.head?.map fun q => D.depth q.symbol).getD 0
decreasing_by
  obtain ⟨q, hq, hd⟩ := nextIfacePortRef_depth D _hnext
  simpa [hq, _hpath] using hd

def collectedRefs (pending : List (Sym × DriverList)) : List (HierarchicalReference × ValueDriver) :=
  pending.flatMap fun p => p.2.filterMap fun e => (ifacePortRef D p.1 e.1).map ((·, e.1))

def futureRegistrations : Call → List (Sym × IfacePortDriver)
  | .visitSymbols noteRefs pending refs =>
    (refs ++ if noteRefs then collectedRefs D pending else []).flatMap fun r =>
      chainRegistrations D r.1 r.2
  | .noteInterfacePortDriver ref driver => chainRegistrations D ref driver
  | .propagateModportDriver connectionExpr originalDriver =>
    (collectedRefs D (lspDrivers D connectionExpr originalDriver.kind originalDriver.flags
      originalDriver.containingSymbol (splice originalDriver.prefixExpression connectionExpr))).flatMap
      fun r => chainRegistrations D r.1 r.2
  | _ => []

def futureInstances : Call → List Sym
  | .noteNonCanonicalInstance inst => [inst]
  | _ => []

def madeRegistrations : Call → List (Sym × IfacePortDriver)
  | .noteInterfacePortDriver ref driver =>
    match ref.path with
    | [] => []
    | first :: _ => [(D.parentScope first.symbol, ⟨ref, driver⟩)]
  | _ => []

variable {D}

theorem chainRegistrations_eq (ref : HierarchicalReference) (driver : ValueDriver) :
    chainRegistrations D ref driver = madeRegistrations D (.noteInterfacePortDriver ref driver) ++
      match ref.path with
      | [] => []
      | first :: _ => ((nextIfacePortRef D first.symbol ref).map (chainRegistrations D · driver)).getD [] := by
  rw [chainRegistrations]
  split <;> rename_i h <;> simp only [madeRegistrations, h]
  · rfl
  · split <;> rename_i hn <;> simp [hn]

end Registrations

section Futures

variable {D : Design} {allowDupInitialDrivers : Bool}

theorem run_ifacePortDrivers (c : Call) (t : Tracker) (body : Sym) :
    ((c.run D allowDupInitialDrivers t).1.instanceMap body).ifacePortDrivers =
      (t.instanceMap body).ifacePortDrivers ++
        ((madeRegistrations D c).filter (·.1 = body)).map (·.2) := by
  cases c with
  | visitSymbols noteRefs pending refs => cases pending <;> simp [Call.run, madeRegistrations]
  | noteInterfacePortDriver ref driver =>
    simp only [Call.run, madeRegistrations]
    split <;> rename_i h
    · simp [h]
    · simp only [h, (registerIfacePortDriver_instanceMap t _ _ body).1]
      split_ifs with hb
      · simp [hb]
      · simp [Ne.symm hb]
  | applyInstanceSideEffect i inst =>
    simp only [Call.run, Tracker.applyInstanceSideEffect]
    split <;> simp [madeRegistrations]
  | noteNonCanonicalInstance inst =>
    simp [Call.run, (registerInstance_instanceMap t _ inst body).1, madeRegistrations]
  | propagateModportDrivers => simp [Call.run, madeRegistrations]
  | propagateModportDriver connectionExpr originalDriver => simp [Call.run, madeRegistrations]

theorem run_nonCanonicalInstances (c : Call) (t : Tracker) (body : Sym) :
    ((c.run D allowDupInitialDrivers t).1.instanceMap body).nonCanonicalInstances =
      (t.instanceMap body).nonCanonicalInstances ++
        (futureInstances c).filter (D.canonicalBody · = body) := by
  cases c with
  | visitSymbols noteRefs pending refs => cases pending <;> simp [Call.run, futureInstances]
  | noteInterfacePortDriver ref driver =>
    simp only [Call.run]
    split <;> simp [(registerIfacePortDriver_instanceMap t _ _ body).2, futureInstances]
  | applyInstanceSideEffect i inst =>
    simp only [Call.run, Tracker.applyInstanceSideEffect]
    split <;> simp [futureInstances]
  | noteNonCanonicalInstance inst =>
    simp only [Call.run, (registerInstance_instanceMap t _ inst body).2, futureInstances]
    split_ifs with hb
    · simp [hb]
    · simp [Ne.symm hb]
  | propagateModportDrivers => simp [Call.run, futureInstances]
  | propagateModportDriver connectionExpr originalDriver => simp [Call.run, futureInstances]

theorem run_futureRegistrations (c : Call) (t : Tracker) (hc : c ≠ .propagateModportDrivers) :
    madeRegistrations D c ++ (c.run D allowDupInitialDrivers t).2.flatMap (futureRegistrations D) =
      futureRegistrations D c := by
  cases c with
  | visitSymbols noteRefs pending refs =>
    cases pending with
    | nil => simp [Call.run, madeRegistrations, futureRegistrations, collectedRefs, List.flatMap_map]
    | cons p rest =>
      cases noteRefs <;>
        simp [Call.run, madeRegistrations, futureRegistrations, collectedRefs, visitSymbol_snd]
  | noteInterfacePortDriver ref driver =>
    simp only [Call.run, futureRegistrations, chainRegistrations_eq ref driver]
    split
    · rename_i h
      simp [madeRegistrations, h]
    · rename_i first _ h
      simp only [h]
      cases nextIfacePortRef D first.symbol ref <;> simp [List.flatMap_map, futureRegistrations]
  | applyInstanceSideEffect i inst => rfl
  | noteNonCanonicalInstance inst =>
    simp [Call.run, madeRegistrations, futureRegistrations, List.flatMap_map]
  | propagateModportDrivers => exact absurd rfl hc
  | propagateModportDriver connectionExpr originalDriver =>
    simp [Call.run, madeRegistrations, futureRegistrations, addDrivers]

theorem run_futureInstances (c : Call) (t : Tracker) :
    (c.run D allowDupInitialDrivers t).2.flatMap futureInstances = [] := by
  cases c with
  | visitSymbols noteRefs pending refs =>
    cases pending <;> simp [Call.run, futureInstances, List.flatMap_map]
  | noteInterfacePortDriver ref driver =>
    simp only [Call.run]
    split
    · rfl
    · cases nextIfacePortRef D _ ref <;> simp [List.flatMap_map, futureInstances]
  | applyInstanceSideEffect i inst => rfl
  | noteNonCanonicalInstance inst => simp [Call.run, futureInstances, List.flatMap_map]
  | propagateModportDrivers =>
    simp only [Call.run]
    split_ifs
    · rfl
    · refine List.flatMap_eq_nil_iff.2 fun c hc => ?_
      rcases List.mem_append.1 hc with hc | hc
      · obtain ⟨_, -, hc⟩ := List.mem_filterMap.1 hc
        obtain ⟨_, -, rfl⟩ := Option.map_eq_some'.1 hc
        rfl
      · rw [List.mem_singleton.1 hc]
        rfl
  | propagateModportDriver connectionExpr originalDriver => rfl

theorem run_ne_propagateModportDrivers {c : Call} (hc : c ≠ .propagateModportDrivers) (t : Tracker) :
    .propagateModportDrivers ∉ (c.run D allowDupInitialDrivers t).2 := by
  cases c with
  | visitSymbols noteRefs pending refs => cases pending <;> simp [Call.run]
  | noteInterfacePortDriver ref driver =>
    simp only [Call.run]
    split
    · simp
    · cases nextIfacePortRef D _ ref <;> simp
  | applyInstanceSideEffect i inst => simp [Call.run]
  | noteNonCanonicalInstance inst => simp [Call.run]
  | propagateModportDrivers => exact absurd rfl hc
  | propagateModportDriver connectionExpr originalDriver => simp [Call.run, addDrivers]

theorem step_instances {I : List Sym} {s : Sys}
    (hs : ∀ body, ((s.tracker.instanceMap body).nonCanonicalInstances ++
      (s.pending.flatMap futureInstances).filter (D.canonicalBody · = body)).Perm
        (I.filter (D.canonicalBody · = body))) (w : Nat) (body : Sym) :
    (((s.step D allowDupInitialDrivers w).tracker.instanceMap body).nonCanonicalInstances ++
      ((s.step D allowDupInitialDrivers w).pending.flatMap futureInstances).filter
        (D.canonicalBody · = body)).Perm (I.filter (D.canonicalBody · = body)) := by
  rcases step_cases s w with heq | ⟨c, -, ht, hperm⟩
  · rw [heq]
    exact hs body
  have hinsts := hperm.flatMap_right futureInstances
  rw [List.flatMap_cons, List.flatMap_append, @run_futureInstances D allowDupInitialDrivers,
    List.nil_append] at hinsts
  rw [ht, run_nonCanonicalInstances, List.append_assoc, ← List.filter_append]
  exact ((hinsts.filter _).append_left _).trans (hs body)

variable (D) in
structure FutureInv (R : List (Sym × IfacePortDriver)) (I : List Sym) (s : Sys) : Prop where
  registrations : ∀ body, ((s.tracker.instanceMap body).ifacePortDrivers ++
      ((s.pending.flatMap (futureRegistrations D)).filter (·.1 = body)).map (·.2)).Perm
    ((R.filter (·.1 = body)).map (·.2))
  instances : ∀ body, ((s.tracker.instanceMap body).nonCanonicalInstances ++
      (s.pending.flatMap futureInstances).filter (D.canonicalBody · = body)).Perm
    (I.filter (D.canonicalBody · = body))
  noPropagation : .propagateModportDrivers ∉ s.pending

theorem step_futureInv {R : List (Sym × IfacePortDriver)} {I : List Sym} {s : Sys}
    (hs : FutureInv D R I s) (w : Nat) : FutureInv D R I (s.step D allowDupInitialDrivers w) := by
  rcases step_cases s w with heq | ⟨c, hc, ht, hperm⟩
  · rwa [heq]
  have hne : c ≠ .propagateModportDrivers := fun h => hs.noPropagation (h ▸ hc)
  have hregs : (madeRegistrations D c ++
      (s.step D allowDupInitialDrivers w).pending.flatMap (futureRegistrations D)).Perm
      (s.pending.flatMap (futureRegistrations D)) := by
    have h := hperm.flatMap_right (futureRegistrations D)
    rw [List.flatMap_cons, List.flatMap_append,
      ← @run_futureRegistrations D allowDupInitialDrivers c s.tracker hne, List.append_assoc] at h
    exact (List.perm_append_left_iff _).1 ((List.perm_append_comm_assoc _ _ _).trans h)
  refine ⟨fun body => ?_, step_instances hs.instances w, fun h => ?_⟩
  · rw [ht, run_ifacePortDrivers, List.append_assoc, ← List.map_append, ← List.filter_append]
    exact ((hregs.filter _).map _ |>.append_left _).trans (hs.registrations body)
  · rcases List.mem_append.1 (hperm.subset (List.mem_cons_of_mem c h)) with h | h
    exacts [run_ne_propagateModportDrivers hne s.tracker h, hs.noPropagation h]

theorem calls_not_propagateModportDrivers {op : Operation} (hop : op ≠ .propagateModportDrivers) :
    .propagateModportDrivers ∉ op.calls D := fun hc => by
  rcases mem_calls D hc with ⟨_, -, ⟨⟩⟩ | ⟨_, -, ⟨⟩⟩ | ⟨_, _, _, _, ⟨⟩⟩ | ⟨_, -, ⟨⟩⟩ | ⟨h, -⟩
  exact hop h

theorem reachable_futureInv {ops : List (List Operation)}
    (hops : ∀ w ∈ ops, .propagateModportDrivers ∉ w) {s : Sys}
    (h : Reachable D allowDupInitialDrivers ops s) :
    FutureInv D ((Sys.init D ops).pending.flatMap (futureRegistrations D))
      ((Sys.init D ops).pending.flatMap futureInstances) s := by
  induction h with
  | init =>
    refine ⟨fun body => by simp [Sys.init, Tracker.empty], fun body => by simp [Sys.init, Tracker.empty],
      fun hc => ?_⟩
    obtain ⟨l, hl, hcl⟩ := List.mem_flatten.1 hc
    obtain ⟨w, hw, rfl⟩ := List.mem_map.1 hl
    obtain ⟨op, hop, hc⟩ := List.mem_flatMap.1 hcl
    exact calls_not_propagateModportDrivers (fun h => hops w hw (h ▸ hop)) hc
  | step w _ ih => exact step_futureInv ih w

end Futures

theorem perm_of_filter_perm {α β : Type} [DecidableEq α] [DecidableEq β] {l l' : List α}
    (f : α → β) (h : ∀ b, (l.filter (f · = b)).Perm (l'.filter (f · = b))) : l.Perm l' := by
  refine List.perm_iff_count.2 fun a => ?_
  have := (h (f a)).count_eq a
  rwa [List.count_filter (by simp), List.count_filter (by simp)] at this

variable {D : Design} {allowDupInitialDrivers : Bool}

theorem applied_perm_of_quiescent {ops : List (List Operation)}
    (hops : ∀ w ∈ ops, .propagateModportDrivers ∉ w) {s s' : Sys}
    (h : Reachable D allowDupInitialDrivers ops s) (hq : s.pending = [])
    (h' : Reachable D allowDupInitialDrivers ops s') (hq' : s'.pending = []) :
    s.tracker.applied.Perm s'.tracker.applied := by
  refine perm_of_filter_perm (fun p => D.canonicalBody p.2) fun body => ?_
  have hregs := (reachable_futureInv hops h).registrations body
  have hregs' := (reachable_futureInv hops h').registrations body
  have hinsts := (reachable_futureInv hops h).instances body
  have hinsts' := (reachable_futureInv hops h').instances body
  rw [hq] at hregs hinsts
  rw [hq'] at hregs' hinsts'
  simp only [List.flatMap_nil, List.filter_nil, List.map_nil, List.append_nil] at *
  exact ((applied_perm_product h hq body).trans
    ((hregs.trans hregs'.symm).product (hinsts.trans hinsts'.symm))).trans
    (applied_perm_product h' hq' body).symm

/-- However the workers interleave, once every call has returned: for each body,
`applyInstanceSideEffect` has run once for each pair of an interface port driver and a
non-canonical instance registered for it, and for no other pair; and the replays, and the drivers
they submit, are the same for every interleaving. -/
theorem replay_pairs_exactly_once {ops : List (List Operation)}
    (hops : ∀ w ∈ ops, .propagateModportDrivers ∉ w) {s s' : Sys}
    (h : Reachable D allowDupInitialDrivers ops s) (hq : s.pending = [])
    (h' : Reachable D allowDupInitialDrivers ops s') (hq' : s'.pending = []) :
    (∀ body, (s.tracker.applied.filter (D.canonicalBody ·.2 = body)).Perm
      ((s.tracker.instanceMap body).ifacePortDrivers ×ˢ
        (s.tracker.instanceMap body).nonCanonicalInstances)) ∧
      s.tracker.applied.Perm s'.tracker.applied ∧
      (s.tracker.applied.map fun p => sideEffect D p.1 p.2).Perm
        (s'.tracker.applied.map fun p => sideEffect D p.1 p.2) :=
  have happlied := applied_perm_of_quiescent hops h hq h' hq'
  ⟨applied_perm_product h hq, happlied, happlied.map _⟩

def sharedBody : Design :=
  { Design.plain with
    parentScope := fun s => if s = 3 then 2 else 0
    canonicalBody := fun s => if s = 5 then 2 else 0 }

def throughPort : HierarchicalReference :=
  { path := [⟨3, .name "p"⟩, ⟨7, .name "x"⟩], target := some 7, viaIfacePort := true }

def sharedBodyOps : List (List Operation) :=
  [[.nonCanonicalInstance 5],
    [.procedure [(7, [(sharedBody.makeDriver .procedural (.hierarchicalValue 7 throughPort ⟨0, 3⟩)
      9 {}, (0, 0))])]]]

def instanceFirst : Sys := (Sys.init sharedBody sharedBodyOps).run sharedBody false [0, 1, 1, 1, 1]

def driverFirst : Sys := (Sys.init sharedBody sharedBodyOps).run sharedBody false [1, 1, 1, 0, 0]

theorem replay_pairs_exactly_once_sharedBody :
    (∀ w ∈ sharedBodyOps, .propagateModportDrivers ∉ w) ∧
      Reachable sharedBody false sharedBodyOps instanceFirst ∧ instanceFirst.pending = [] ∧
      Reachable sharedBody false sharedBodyOps driverFirst ∧ driverFirst.pending = [] ∧
      (∀ body, (instanceFirst.tracker.applied.filter (sharedBody.canonicalBody ·.2 = body)).Perm
        ((instanceFirst.tracker.instanceMap body).ifacePortDrivers ×ˢ
          (instanceFirst.tracker.instanceMap body).nonCanonicalInstances)) ∧
      instanceFirst.tracker.applied.Perm driverFirst.tracker.applied ∧
      (instanceFirst.tracker.applied.map fun p => sideEffect sharedBody p.1 p.2).Perm
        (driverFirst.tracker.applied.map fun p => sideEffect sharedBody p.1 p.2) :=
  have hops : ∀ w ∈ sharedBodyOps, .propagateModportDrivers ∉ w := by decide
  have h := reachable_run [0, 1, 1, 1, 1] .init
  have h' := reachable_run [1, 1, 1, 0, 0] .init
  have hq : instanceFirst.pending = [] := by decide
  have hq' : driverFirst.pending = [] := by decide
  ⟨hops, h, hq, h', hq', replay_pairs_exactly_once hops h hq h' hq'⟩

example : instanceFirst.tracker.applied.length = 1 ∧ driverFirst.tracker.applied.length = 1 := by
  decide

/-- Once every call has returned, each body holds, up to order, the interface port drivers the
operations' notes register along their chains of ports, and the non-canonical instances noted
for it, whatever the interleaving. -/
theorem instanceMap_of_quiescent {ops : List (List Operation)}
    (hops : ∀ w ∈ ops, .propagateModportDrivers ∉ w) {s : Sys}
    (h : Reachable D allowDupInitialDrivers ops s) (hq : s.pending = []) (body : Sym) :
    (s.tracker.instanceMap body).ifacePortDrivers.Perm
        ((((Sys.init D ops).pending.flatMap (futureRegistrations D)).filter (·.1 = body)).map (·.2)) ∧
      (s.tracker.instanceMap body).nonCanonicalInstances.Perm
        (((Sys.init D ops).pending.flatMap futureInstances).filter (D.canonicalBody · = body)) := by
  have hinv := reachable_futureInv hops h
  have hregs := hinv.registrations body
  have hinsts := hinv.instances body
  rw [hq] at hregs hinsts
  simpa using And.intro hregs hinsts

theorem instanceMap_of_quiescent_instanceFirst :
    (∀ w ∈ sharedBodyOps, .propagateModportDrivers ∉ w) ∧
      Reachable sharedBody false sharedBodyOps instanceFirst ∧ instanceFirst.pending = [] ∧
      (instanceFirst.tracker.instanceMap 2).ifacePortDrivers.Perm
        ((((Sys.init sharedBody sharedBodyOps).pending.flatMap (futureRegistrations sharedBody)).filter
          (·.1 = 2)).map (·.2)) ∧
      (instanceFirst.tracker.instanceMap 2).nonCanonicalInstances.Perm
        (((Sys.init sharedBody sharedBodyOps).pending.flatMap futureInstances).filter
          (sharedBody.canonicalBody · = 2)) :=
  have hops : ∀ w ∈ sharedBodyOps, .propagateModportDrivers ∉ w := by decide
  have h := reachable_run [0, 1, 1, 1, 1] .init
  have hq : instanceFirst.pending = [] := by decide
  ⟨hops, h, hq, instanceMap_of_quiescent hops h hq 2⟩

section Flags

def heldRefs : Call → List (HierarchicalReference × ValueDriver)
  | .visitSymbols _ _ refs => refs
  | .noteInterfacePortDriver ref driver => [(ref, driver)]
  | _ => []

structure NotedInv (s : Sys) : Prop where
  registered : ∀ body, ∀ i ∈ (s.tracker.instanceMap body).ifacePortDrivers,
    i.driver.isFromSideEffect = false
  pending : ∀ c ∈ s.pending, ∀ r ∈ heldRefs c, r.2.isFromSideEffect = false

theorem ifacePortRef_isFromSideEffect {symbol : Sym} {d : ValueDriver} {r : HierarchicalReference}
    (h : ifacePortRef D symbol d = some r) : d.isFromSideEffect = false := by
  unfold ifacePortRef at h
  split_ifs at h with h1 h2
  simp [h2]

theorem madeRegistrations_of {P : HierarchicalReference × ValueDriver → Prop} {c : Call}
    (hc : ∀ r ∈ heldRefs c, P r) : ∀ r ∈ madeRegistrations D c, P (r.2.ref, r.2.driver) := by
  cases c with
  | noteInterfacePortDriver ref driver =>
    simp only [madeRegistrations]
    split
    · simp
    · simpa [heldRefs] using hc
  | _ => simp [madeRegistrations]

theorem madeRegistrations_isFromSideEffect {c : Call}
    (hc : ∀ r ∈ heldRefs c, r.2.isFromSideEffect = false) :
    ∀ r ∈ madeRegistrations D c, r.2.driver.isFromSideEffect = false :=
  madeRegistrations_of (P := fun r => r.2.isFromSideEffect = false) hc

theorem run_heldRefs_of {P : HierarchicalReference × ValueDriver → Prop}
    (hnew : ∀ symbol d r, ifacePortRef D symbol d = some r → P (r, d))
    (hnext : ∀ port ref next d, nextIfacePortRef D port ref = some next → P (ref, d) → P (next, d))
    {c : Call} (hc : ∀ r ∈ heldRefs c, P r) (t : Tracker) :
    ∀ c' ∈ (c.run D allowDupInitialDrivers t).2, ∀ r ∈ heldRefs c', P r := by
  cases c with
  | visitSymbols noteRefs pending refs =>
    cases pending with
    | nil =>
      simp only [Call.run, List.mem_map]
      rintro _ ⟨r, hr, rfl⟩
      simpa [heldRefs] using hc r hr
    | cons p rest =>
      simp only [Call.run, List.mem_singleton]
      rintro _ rfl r hr
      simp only [heldRefs, visitSymbol_snd] at hr hc
      split_ifs at hr
      · rcases List.mem_append.1 hr with hr | hr
        · exact hc r hr
        · obtain ⟨e, -, he⟩ := List.mem_filterMap.1 hr
          obtain ⟨ref, href, rfl⟩ := Option.map_eq_some'.1 he
          exact hnew _ _ _ href
      · exact hc r hr
  | noteInterfacePortDriver ref driver =>
    simp only [Call.run]
    split
    · simp
    · simp only [List.mem_append, List.mem_map, Option.mem_toList, Option.mem_def,
        Option.map_eq_some']
      rintro _ (⟨_, -, rfl⟩ | ⟨next, hn, rfl⟩) r hr
      · cases hr
      · simp only [heldRefs, List.mem_singleton] at hr hc
        rw [hr]
        exact hnext _ _ _ _ hn (hc (ref, driver) rfl)
  | applyInstanceSideEffect i inst => simp [Call.run]
  | noteNonCanonicalInstance inst =>
    simp only [Call.run, List.mem_map]
    rintro _ ⟨_, -, rfl⟩ r hr
    cases hr
  | propagateModportDrivers =>
    simp only [Call.run]
    split_ifs
    · simp
    · simp only [List.mem_append, List.mem_singleton, propagationCalls, List.mem_filterMap,
        Option.map_eq_some']
      rintro _ (⟨_, -, _, -, rfl⟩ | rfl) r hr <;> cases hr
  | propagateModportDriver connectionExpr originalDriver =>
    simp [Call.run, addDrivers, heldRefs]

theorem run_heldRefs {c : Call} (hc : ∀ r ∈ heldRefs c, r.2.isFromSideEffect = false)
    (t : Tracker) :
    ∀ c' ∈ (c.run D allowDupInitialDrivers t).2, ∀ r ∈ heldRefs c', r.2.isFromSideEffect = false :=
  run_heldRefs_of (P := fun r => r.2.isFromSideEffect = false)
    (fun _ _ _ h => ifacePortRef_isFromSideEffect h) (fun _ _ _ _ _ h => h) hc t

theorem step_notedInv {s : Sys} (hs : NotedInv s) (w : Nat) :
    NotedInv (s.step D allowDupInitialDrivers w) := by
  rcases step_cases s w with heq | ⟨c, hc, ht, hperm⟩
  · rwa [heq]
  refine ⟨fun body i hi => ?_, fun c' hc' => ?_⟩
  · rw [ht, run_ifacePortDrivers] at hi
    rcases List.mem_append.1 hi with hi | hi
    · exact hs.registered body i hi
    · obtain ⟨r, hr, rfl⟩ := List.mem_map.1 hi
      exact madeRegistrations_isFromSideEffect (hs.pending c hc) r (List.mem_filter.1 hr).1
  · rcases List.mem_append.1 (hperm.subset (List.mem_cons_of_mem c hc')) with h | h
    · exact run_heldRefs (hs.pending c hc) s.tracker c' h
    · exact hs.pending c' h

theorem calls_heldRefs (op : Operation) : ∀ c ∈ op.calls D, heldRefs c = [] := fun _ hc => by
  rcases mem_calls D hc with ⟨_, -, rfl⟩ | ⟨_, -, rfl⟩ | ⟨_, _, _, _, rfl⟩ | ⟨_, -, rfl⟩ | ⟨-, rfl⟩ <;>
    rfl

/-- In every run, every interface port driver registered in the instance map, and every one still
to be noted, carries a driver not made by a replay: a replayed driver never adds an entry to the
instance map. -/
theorem registered_not_fromSideEffect {ops : List (List Operation)} {s : Sys}
    (h : Reachable D allowDupInitialDrivers ops s) :
    (∀ body, ∀ i ∈ (s.tracker.instanceMap body).ifacePortDrivers,
      i.driver.isFromSideEffect = false) ∧
      ∀ c ∈ s.pending, ∀ r ∈ heldRefs c, r.2.isFromSideEffect = false := by
  suffices hinv : NotedInv s from ⟨hinv.registered, hinv.pending⟩
  induction h with
  | init =>
    refine ⟨fun body => by simp [Sys.init, Tracker.empty], fun c hc => ?_⟩
    obtain ⟨l, hl, hcl⟩ := List.mem_flatten.1 hc
    obtain ⟨w, -, rfl⟩ := List.mem_map.1 hl
    obtain ⟨op, -, hc⟩ := List.mem_flatMap.1 hcl
    simp [calls_heldRefs op c hc]
  | step w _ ih => exact step_notedInv ih w

theorem registered_not_fromSideEffect_instanceFirst :
    Reachable sharedBody false sharedBodyOps instanceFirst ∧
      (∀ body, ∀ i ∈ (instanceFirst.tracker.instanceMap body).ifacePortDrivers,
        i.driver.isFromSideEffect = false) ∧
      ∀ c ∈ instanceFirst.pending, ∀ r ∈ heldRefs c, r.2.isFromSideEffect = false :=
  have h := reachable_run [0, 1, 1, 1, 1] .init
  ⟨h, registered_not_fromSideEffect h⟩

end Flags

end DriverTracker.SideEffects
