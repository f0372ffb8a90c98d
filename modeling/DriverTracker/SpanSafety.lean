import DriverTracker.Confluence

namespace DriverTracker.SpanSafety

open DriverTracker.Syntax DriverTracker.Driver DriverTracker.Elaboration DriverTracker.Retarget
  DriverTracker.State DriverTracker.Machine DriverTracker.SideEffects DriverTracker.Confluence

def reversedByThree : Selector → Bool
  | .range first second => decide (0 ≤ second.toInt) && decide (second.toInt + 3 ≤ first.toInt)
  | _ => false

def SelectionBounded (st : WalkState) : Prop :=
  ∀ elems ∈ st.instanceArrayElems, elems.length < 2147483648

section Walk

variable {D : Design}

theorem map_eq_ok {α β : Type} {x : Except SpanFault α} {g : α → β} {b : β}
    (h : x.map g = .ok b) : ∃ a, x = .ok a ∧ g a = b := by
  cases x <;> simp_all [Except.map]

theorem subspan_length {elems sub : List Sym} {offset count : Nat}
    (h : subspan elems offset count = .ok sub) : sub.length ≤ elems.length := by
  unfold subspan at h
  split_ifs at h with h1 h2
  · cases h
    simp
  · cases h
    simp only [List.length_take, List.length_drop]
    omega

theorem enterSymbol_elems {symbol s : Sym} {modport m : Option Sym} {elems : List Sym}
    (h : enterSymbol D symbol modport = some (s, m, some elems)) : elems = D.elements symbol := by
  unfold enterSymbol at h
  split_ifs at h
  · split at h <;> simp_all
  · cases h
    rfl
  · cases h

theorem range_fault_reversed {elems : List Sym} {first second : BitVec 32} {f : SpanFault}
    (hlen : elems.length < 2147483648) (g1 : ¬(first.toInt < 0 ∨ elems.length ≤ sizeT second))
    (g2 : ¬(elems.length ≤ sizeT first ∨ elems.length ≤ sizeT second))
    (h : subspan elems (sizeT first) ((second - first).signExtend 64 + 1).toNat = .error f) :
    reversedByThree (.range first second) := by
  have hs : 0 ≤ second.toInt := by
    by_contra hs
    have := sizeT_of_neg (x := second) (by omega)
    omega
  have hf : 0 ≤ first.toInt := by omega
  have := sizeT_of_nonneg hf
  have := sizeT_of_nonneg hs
  have := rangeCount_of_nonneg hf hs
  have hdyn : dynamicExtent = 18446744073709551615 := rfl
  simp only [subspan, hdyn] at h
  split_ifs at h with hc
  simp only [reversedByThree, Bool.and_eq_true, decide_eq_true_eq]
  omega

theorem walkStep_inv {st : WalkState} {elem : PathElem} {r : Except SpanFault (Option WalkState)}
    (h : walkStep D st elem = r) :
    (∀ f, r ≠ .error f) ∧ (∀ st', r = .ok (some st') → st'.instanceArrayElems = none) ∨
      ∃ symbol modport elems first second,
        (st.instanceArrayElems = some elems ∨ ∃ s, elems = D.elements s) ∧
        elem.selector = .range first second ∧
        ¬(first.toInt < 0 ∨ elems.length ≤ sizeT second) ∧
        ¬(elems.length ≤ sizeT first ∨ elems.length ≤ sizeT second) ∧
        r = (subspan elems (sizeT first) ((second - first).signExtend 64 + 1).toNat).map
          fun sub => some ⟨some symbol, modport, some sub⟩ := by
  unfold walkStep at h
  repeat' (first | split at h | dsimp only at h)
  all_goals subst h; first
    | (refine .inl ⟨fun _ he => ?_, fun _ he => ?_⟩ <;> cases he <;> rfl)
    | (refine .inl ⟨fun _ he => absurd (spanAt_error (map_eq_error he)) (by omega), fun _ he => ?_⟩
       obtain ⟨_, -, ⟨⟩⟩ := map_eq_ok he
       rfl)
    | exact .inr ⟨_, _, _, _, _, .inl ‹_›, ‹_›, ‹_›, ‹_›, rfl⟩
    | exact .inr ⟨_, _, _, _, _, .inr ⟨_, enterSymbol_elems ‹_›⟩, ‹_›, ‹_›, ‹_›, rfl⟩

variable (hD : ∀ s, (D.elements s).length < 2147483648)
include hD

theorem elems_bounded {st : WalkState} {elems : List Sym} (hst : SelectionBounded st)
    (h : st.instanceArrayElems = some elems ∨ ∃ s, elems = D.elements s) :
    elems.length < 2147483648 := by
  rcases h with h | ⟨s, rfl⟩
  · exact hst _ h
  · exact hD s

theorem walkStep_bounded {st st' : WalkState} {elem : PathElem} (hst : SelectionBounded st)
    (h : walkStep D st elem = .ok (some st')) : SelectionBounded st' := by
  rcases walkStep_inv h with ⟨-, hnone⟩ | ⟨_, _, elems, _, _, helems, -, -, -, hr⟩
  · simp [SelectionBounded, hnone _ rfl]
  · obtain ⟨sub, hsub, ⟨⟩⟩ := map_eq_ok hr.symm
    have := subspan_length hsub
    have := elems_bounded hD hst helems
    simp only [SelectionBounded, Option.mem_def, Option.some.injEq, forall_eq']
    omega

theorem walkStep_reversed {st : WalkState} {elem : PathElem} {f : SpanFault}
    (hst : SelectionBounded st) (h : walkStep D st elem = .error f) :
    reversedByThree elem.selector := by
  rcases walkStep_inv h with ⟨hne, -⟩ | ⟨_, _, _, _, _, helems, hsel, g1, g2, hr⟩
  · exact absurd rfl (hne f)
  · rw [hsel]
    exact range_fault_reversed (elems_bounded hD hst helems) g1 g2 (map_eq_error hr.symm)

theorem walk_reversed {path : List PathElem} {st : WalkState} {f : SpanFault}
    (hst : SelectionBounded st) (h : walk D path st = .error f) :
    ∃ elem ∈ path, reversedByThree elem.selector := by
  induction path generalizing st with
  | nil => cases h
  | cons elem rest ih =>
    unfold walk at h
    split at h
    · rename_i hstep
      cases h
      exact ⟨elem, List.mem_cons_self _ _, walkStep_reversed hD hst hstep⟩
    · cases h
    · rename_i st' hstep
      obtain ⟨e, he, hr⟩ := ih (walkStep_bounded hD hst hstep) h
      exact ⟨e, List.mem_cons_of_mem _ he, hr⟩

theorem retargetIfacePort_reversed {ref : HierarchicalReference} {base : Sym} {f : SpanFault}
    (h : retargetIfacePort D ref base = .error f) :
    ∃ elem ∈ ref.path, reversedByThree elem.selector := by
  unfold retargetIfacePort at h
  split at h
  · cases h
  split at h
  · cases h
  rename_i first rest hpath
  split at h
  · cases h
  obtain ⟨e, he, hr⟩ := walk_reversed hD (by simp [SelectionBounded]) h
  exact ⟨e, hpath ▸ List.mem_cons_of_mem _ he, hr⟩

end Walk

section Faults

variable {D : Design} {allowDupInitialDrivers : Bool}

variable (D) in
def replayFault (p : IfacePortDriver × Sym) : Option SpanFault :=
  match sideEffect D p.1 p.2 with
  | .error f => some f
  | .ok _ => none

theorem replayFault_retarget {p : IfacePortDriver × Sym} {f : SpanFault}
    (h : replayFault D p = some f) : retargetIfacePort D p.1.ref p.2 = .error f := by
  unfold replayFault sideEffect at h
  cases hr : retargetIfacePort D p.1.ref p.2 <;> simp_all [Except.map]

theorem run_faults (c : Call) (t : Tracker) :
    (c.run D allowDupInitialDrivers t).1.faults =
      t.faults ++ (pendingApplication c).filterMap (replayFault D) := by
  cases c with
  | visitSymbols noteRefs pending refs => cases pending <;> simp [Call.run, pendingApplication]
  | noteInterfacePortDriver ref driver =>
    simp only [Call.run]
    split <;> simp [Tracker.registerIfacePortDriver, pendingApplication]
  | applyInstanceSideEffect i inst =>
    simp only [Call.run, Tracker.applyInstanceSideEffect,
      pendingApplication_applyInstanceSideEffect, List.filterMap_cons, List.filterMap_nil,
      replayFault]
    split <;> simp [*]
  | _ => simp [Call.run, Tracker.registerInstance, pendingApplication]

theorem reachable_faults {ops : List (List Operation)} {s : Sys}
    (h : Reachable D allowDupInitialDrivers ops s) :
    s.tracker.faults = s.tracker.applied.filterMap (replayFault D) := by
  induction h with
  | init => simp [Sys.init, Tracker.empty]
  | @step s w _ ih =>
    rcases step_cases s w with heq | ⟨c, -, ht, -⟩
    · rwa [heq]
    · rw [ht, run_faults, applied_run, ih, List.filterMap_append]

theorem applied_registered {ops : List (List Operation)} {s : Sys}
    (h : Reachable D allowDupInitialDrivers ops s) {p : IfacePortDriver × Sym}
    (hp : p ∈ s.tracker.applied) :
    p.1 ∈ (s.tracker.instanceMap (D.canonicalBody p.2)).ifacePortDrivers ∧
      p.2 ∈ (s.tracker.instanceMap (D.canonicalBody p.2)).nonCanonicalInstances :=
  List.mem_product.1 (((reachable_replayInv h).replays _).subset
    (List.mem_filter.2 ⟨List.mem_append_left _ hp, by simp⟩))

/-- Once every call has returned, the span faults logged are, up to order, those of one replay
for each interface port driver the operations register and each non-canonical instance they note
for the same body: computed from the operations alone, so whether and how often the analysis
breaks a precondition of `std::span` does not depend on how the workers interleave. -/
theorem quiescent_faults_spec {ops : List (List Operation)}
    (hops : ∀ w ∈ ops, .propagateModportDrivers ∉ w) {s : Sys}
    (h : Reachable D allowDupInitialDrivers ops s) (hq : s.pending = []) :
    s.tracker.faults.Perm ((replayPairs D ((Sys.init D ops).pending.flatMap (futureRegistrations D))
      ((Sys.init D ops).pending.flatMap futureInstances)).filterMap (replayFault D)) := by
  rw [reachable_faults h]
  exact (applied_perm_replayPairs hops h hq).filterMap _

variable (hD : ∀ s, (D.elements s).length < 2147483648)
include hD

/-- However the workers interleave, the span faults logged are exactly those of the replays
made, one for each, and each comes from a registered pair of an interface port driver and a
non-canonical instance whose reference has a range select reversed by three or more: a design
with no such select never reaches the undefined behaviour of `subspan`. -/
theorem faults_from_reversed_ranges {ops : List (List Operation)} {s : Sys}
    (h : Reachable D allowDupInitialDrivers ops s) :
    s.tracker.faults = s.tracker.applied.filterMap (replayFault D) ∧
      ∀ f ∈ s.tracker.faults, ∃ i inst,
        i ∈ (s.tracker.instanceMap (D.canonicalBody inst)).ifacePortDrivers ∧
        inst ∈ (s.tracker.instanceMap (D.canonicalBody inst)).nonCanonicalInstances ∧
        retargetIfacePort D i.ref inst = .error f ∧
        ∃ elem ∈ i.ref.path, reversedByThree elem.selector := by
  have hf := reachable_faults h
  refine ⟨hf, fun f hfm => ?_⟩
  rw [hf] at hfm
  obtain ⟨⟨i, inst⟩, hp, hfp⟩ := List.mem_filterMap.1 hfm
  have hr := replayFault_retarget hfp
  obtain ⟨hi, hinst⟩ := applied_registered h hp
  exact ⟨i, inst, hi, hinst, hr, retargetIfacePort_reversed hD hr⟩

end Faults

section Example

theorem portOnArray_elements (s : Sym) : (portOnArray.elements s).length < 2147483648 := by
  simp only [portOnArray]
  split <;> simp

def reversedRangeDriver : ValueDriver :=
  portOnArray.makeDriver .continuous (.hierarchicalValue 99 reversedRangeRef ⟨0, 7⟩) 0 {}

def reversedRangeOps : List (List Operation) :=
  [[.procedure [(99, [(reversedRangeDriver, (0, 0))])]], [.nonCanonicalInstance 1]]

def reversedRangeRun : Sys :=
  (Sys.init portOnArray reversedRangeOps).run portOnArray false [0, 0, 0, 1, 1]

theorem faults_from_reversed_ranges_reversedRangeRun :
    (∀ s, (portOnArray.elements s).length < 2147483648) ∧
      Reachable portOnArray false reversedRangeOps reversedRangeRun ∧
      reversedRangeRun.tracker.faults =
        reversedRangeRun.tracker.applied.filterMap (replayFault portOnArray) ∧
      ∀ f ∈ reversedRangeRun.tracker.faults, ∃ i inst,
        i ∈ (reversedRangeRun.tracker.instanceMap
          (portOnArray.canonicalBody inst)).ifacePortDrivers ∧
        inst ∈ (reversedRangeRun.tracker.instanceMap
          (portOnArray.canonicalBody inst)).nonCanonicalInstances ∧
        retargetIfacePort portOnArray i.ref inst = .error f ∧
        ∃ elem ∈ i.ref.path, reversedByThree elem.selector :=
  have h := reachable_run [0, 0, 0, 1, 1] .init
  ⟨portOnArray_elements, h, faults_from_reversed_ranges portOnArray_elements h⟩

theorem quiescent_faults_spec_reversedRangeRun :
    (∀ w ∈ reversedRangeOps, .propagateModportDrivers ∉ w) ∧
      Reachable portOnArray false reversedRangeOps reversedRangeRun ∧
      reversedRangeRun.pending = [] ∧
      reversedRangeRun.tracker.faults.Perm ((replayPairs portOnArray
        ((Sys.init portOnArray reversedRangeOps).pending.flatMap (futureRegistrations portOnArray))
        ((Sys.init portOnArray reversedRangeOps).pending.flatMap futureInstances)).filterMap
          (replayFault portOnArray)) :=
  have hops : ∀ w ∈ reversedRangeOps, .propagateModportDrivers ∉ w := by decide
  have h := reachable_run [0, 0, 0, 1, 1] .init
  have hq : reversedRangeRun.pending = [] := by decide
  ⟨hops, h, hq, quiescent_faults_spec hops h hq⟩

example : reversedRangeRun.tracker.faults = [.subspan 3 (-2 : BitVec 64).toNat 4] := by decide

end Example

end DriverTracker.SpanSafety
