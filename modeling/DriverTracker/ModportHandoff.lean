import DriverTracker.RankedTermination
import Mathlib.Algebra.Group.Basic
import Mathlib.Data.Multiset.Basic
import Mathlib.Tactic.Abel

namespace DriverTracker.ModportHandoff

open DriverTracker.Syntax DriverTracker.Driver DriverTracker.Elaboration DriverTracker.AddDriver
  DriverTracker.State DriverTracker.Machine DriverTracker.SideEffects DriverTracker.Propagation
  DriverTracker.RankedTermination

section Handoff

variable {D : Design} {allowDupInitialDrivers : Bool}

variable (D) in
def HandoffInv (s : Sys) : Prop :=
  (s.tracker.propagated ++ s.pending.filterMap submission ++
      (entries s.tracker.modportPortDrivers).filterMap (propagation D)).Perm
    (s.tracker.recorded.filterMap (propagation D))

theorem filterMap_submission_cons (c : Call) (l : List Call) :
    (c :: l).filterMap submission = (submission c).toList ++ l.filterMap submission := by
  cases h : submission c <;> simp [List.filterMap_cons, h]

theorem calls_submissions (op : Operation) : (op.calls D).filterMap submission = [] :=
  List.filterMap_eq_nil_iff.2 fun _ hc => by
    rcases mem_calls D hc with ⟨_, -, rfl⟩ | ⟨_, -, rfl⟩ | ⟨_, _, _, _, rfl⟩ | ⟨_, -, rfl⟩ |
      ⟨-, rfl⟩ <;> rfl

theorem propagateModportDrivers_submissions (t : Tracker) :
    (Call.propagateModportDrivers.run D allowDupInitialDrivers t).2.filterMap submission =
      (entries t.modportPortDrivers).filterMap (propagation D) := by
  simp only [Call.run]
  cases hm : t.modportPortDrivers.isEmpty
  · simp [propagationCalls_submissions, submission]
  · simp [List.isEmpty_iff.1 hm]

theorem step_handoffInv {s : Sys} (h : HandoffInv D s) (w : Nat) :
    HandoffInv D (s.step D allowDupInitialDrivers w) := by
  rcases step_cases s w with heq | ⟨c, -, ht, hperm⟩
  · rwa [heq]
  have hsub := Multiset.coe_eq_coe.2 (hperm.filterMap submission)
  unfold HandoffInv at h ⊢
  rw [ht, ← Multiset.coe_eq_coe]
  rw [← Multiset.coe_eq_coe] at h
  simp only [filterMap_submission_cons, List.filterMap_append, ← Multiset.coe_add] at h hsub ⊢
  by_cases hc : c = .propagateModportDrivers
  · subst hc
    rw [propagateModportDrivers_submissions] at hsub
    simp only [Call.run, submission, Option.toList_none, Multiset.coe_nil, zero_add, entries_nil,
      List.filterMap_nil, add_zero] at hsub ⊢
    rw [hsub, ← h]
    abel
  · obtain ⟨hP, hnone⟩ := @run_propagated D allowDupInitialDrivers c s.tracker hc
    obtain ⟨hR, hM⟩ := @run_records D allowDupInitialDrivers c s.tracker hc
    rw [hnone, Multiset.coe_nil, zero_add] at hsub
    rw [hP, hR, Multiset.coe_eq_coe.2 (hM.filterMap _)]
    simp only [List.filterMap_append, ← Multiset.coe_add]
    rw [← h, ← hsub]
    abel

theorem reachable_handoffInv {ops : List (List Operation)} {s : Sys}
    (h : Reachable D allowDupInitialDrivers ops s) : HandoffInv D s := by
  induction h with
  | init =>
    have hsub : (Sys.init D ops).pending.filterMap submission = [] := by
      simp [Sys.init, Sys.pending, List.filterMap_flatten, List.filterMap_flatMap, calls_submissions]
    rw [HandoffInv, hsub]
    simp [Sys.init, Tracker.empty]
  | step w _ ih => exact step_handoffInv ih w

theorem reachable_recordsCalls {ops : List (List Operation)} {s : Sys}
    (h : Reachable D allowDupInitialDrivers ops s) : RecordsCalls D s.tracker := by
  induction h with
  | init => exact fun _ => by simp [Sys.init, Tracker.empty, modportRecords]
  | @step s w _ ih =>
    rcases step_cases s w with heq | ⟨c, -, ht, -⟩
    · rwa [heq]
    · rw [ht]
      exact run_recordsCalls ih c

def propagatedChain : Sys :=
  (Sys.init modportChain assignAndPropagate).run modportChain false (List.replicate 16 0)

example : propagatedChain.tracker.propagated.length = 2 := by decide

end Handoff

end DriverTracker.ModportHandoff
