import DriverTracker.SideEffects

namespace DriverTracker.NotedRefs

open DriverTracker.Syntax DriverTracker.Driver DriverTracker.Elaboration DriverTracker.AddDriver
  DriverTracker.State DriverTracker.Machine DriverTracker.SideEffects

section Refs

variable {D : Design} {allowDupInitialDrivers : Bool}

theorem viaIfacePortRef_viaIfacePort {e : Expr} {r : HierarchicalReference}
    (h : viaIfacePortRef e = some r) : r.viaIfacePort = true := by
  unfold viaIfacePortRef at h
  suffices ∀ (l : List Expr) (init : Option HierarchicalReference),
      (∀ r ∈ init, r.viaIfacePort = true) → ∀ r ∈ l.foldl (fun result e => match e with
        | .hierarchicalValue _ ref _ => if ref.viaIfacePort then some ref else result
        | _ => result) init, r.viaIfacePort = true from this _ none (fun _ h => nomatch h) r h
  intro l
  induction l with
  | nil => exact fun _ hinit => hinit
  | cons e l ih =>
    intro init hinit
    refine ih _ ?_
    dsimp only
    split
    · split_ifs with hv
      · exact fun _ h => Option.mem_some_iff.1 h ▸ hv
      · exact hinit
    · exact hinit

theorem ifacePortRef_viaIfacePort {symbol : Sym} {d : ValueDriver} {r : HierarchicalReference}
    (h : ifacePortRef D symbol d = some r) : r.viaIfacePort = true := by
  unfold ifacePortRef at h
  split_ifs at h
  exact viaIfacePortRef_viaIfacePort h

theorem nextIfacePortRef_viaIfacePort {port : Sym} {ref next : HierarchicalReference}
    (h : nextIfacePortRef D port ref = some next) : next.viaIfacePort = true := by
  unfold nextIfacePortRef at h
  split at h
  · split_ifs at h with hv
    cases h
    exact hv
  · cases h

theorem madeRegistrations_key {c : Call} {r : Sym × IfacePortDriver}
    (hr : r ∈ madeRegistrations D c) :
    ∃ first rest, r.2.ref.path = first :: rest ∧ D.parentScope first.symbol = r.1 := by
  cases c with
  | noteInterfacePortDriver ref driver =>
    simp only [madeRegistrations] at hr
    split at hr
    · cases hr
    · rename_i first rest hpath
      obtain rfl := List.mem_singleton.1 hr
      exact ⟨first, rest, hpath, rfl⟩
  | _ => simp [madeRegistrations] at hr

variable (D) in
structure NotedRefsInv (s : Sys) : Prop where
  pending : ∀ c ∈ s.pending, ∀ r ∈ heldRefs c, r.1.viaIfacePort = true
  registered : ∀ body, ∀ i ∈ (s.tracker.instanceMap body).ifacePortDrivers,
    i.ref.viaIfacePort = true ∧ ∃ first rest, i.ref.path = first :: rest ∧
      D.parentScope first.symbol = body

theorem step_notedRefsInv {s : Sys} (hs : NotedRefsInv D s) (w : Nat) :
    NotedRefsInv D (s.step D allowDupInitialDrivers w) := by
  rcases step_cases s w with heq | ⟨c, hc, ht, hperm⟩
  · rwa [heq]
  refine ⟨fun c' hc' => ?_, fun body i hi => ?_⟩
  · rcases List.mem_append.1 (hperm.subset (List.mem_cons_of_mem c hc')) with h | h
    · exact run_heldRefs_of (P := fun r => r.1.viaIfacePort = true)
        (fun _ _ _ h => ifacePortRef_viaIfacePort h)
        (fun _ _ _ _ h _ => nextIfacePortRef_viaIfacePort h) (hs.pending c hc) s.tracker c' h
    · exact hs.pending c' h
  · rw [ht, run_ifacePortDrivers] at hi
    rcases List.mem_append.1 hi with hi | hi
    · exact hs.registered body i hi
    · obtain ⟨r, hr, rfl⟩ := List.mem_map.1 hi
      obtain ⟨hr, hb⟩ := List.mem_filter.1 hr
      refine ⟨madeRegistrations_of (P := fun r => r.1.viaIfacePort = true) (hs.pending c hc) r hr,
        ?_⟩
      obtain ⟨first, rest, hpath, hkey⟩ := madeRegistrations_key hr
      exact ⟨first, rest, hpath, hkey.trans (of_decide_eq_true hb)⟩

theorem reachable_notedRefsInv {ops : List (List Operation)} {s : Sys}
    (h : Reachable D allowDupInitialDrivers ops s) : NotedRefsInv D s := by
  induction h with
  | init =>
    refine ⟨fun c hc => ?_, fun body => by simp [Sys.init, Tracker.empty]⟩
    obtain ⟨l, hl, hcl⟩ := List.mem_flatten.1 hc
    obtain ⟨w, -, rfl⟩ := List.mem_map.1 hl
    obtain ⟨op, -, hc⟩ := List.mem_flatMap.1 hcl
    simp [calls_heldRefs op c hc]
  | step w _ ih => exact step_notedRefsInv ih w

/-- In every run, the assertion `ref.isViaIfacePort()` of `noteInterfacePortDriver` holds at each
of its calls: every reference pending to be noted, on any worker's stack, is through an
interface port. Every interface port driver in the instance map is through one too, and is
registered under the body of the port its path starts at. -/
theorem noted_refs_via_iface_port {ops : List (List Operation)} {s : Sys}
    (h : Reachable D allowDupInitialDrivers ops s) :
    (∀ c ∈ s.pending, ∀ r ∈ heldRefs c, r.1.viaIfacePort = true) ∧
      ∀ body, ∀ i ∈ (s.tracker.instanceMap body).ifacePortDrivers,
        i.ref.viaIfacePort = true ∧ ∃ first rest, i.ref.path = first :: rest ∧
          D.parentScope first.symbol = body :=
  ⟨(reachable_notedRefsInv h).pending, (reachable_notedRefsInv h).registered⟩

theorem noted_refs_via_iface_port_instanceFirst :
    Reachable sharedBody false sharedBodyOps instanceFirst ∧
      (∀ c ∈ instanceFirst.pending, ∀ r ∈ heldRefs c, r.1.viaIfacePort = true) ∧
      ∀ body, ∀ i ∈ (instanceFirst.tracker.instanceMap body).ifacePortDrivers,
        i.ref.viaIfacePort = true ∧ ∃ first rest, i.ref.path = first :: rest ∧
          sharedBody.parentScope first.symbol = body :=
  have h := reachable_run [0, 1, 1, 1, 1] .init
  ⟨h, noted_refs_via_iface_port h⟩

example : (instanceFirst.tracker.instanceMap 2).ifacePortDrivers.map (·.ref) = [throughPort] := by
  decide

/-- `retargetIfacePort` performs "the same lookup for a different but identical instance": every
`applyInstanceSideEffect` call made or pending replays a reference through an interface port
into an instance whose canonical body declares the port the reference starts at, so its early
return on a reference not through an interface port never fires. -/
theorem replays_through_canonical_port {ops : List (List Operation)} {s : Sys}
    (h : Reachable D allowDupInitialDrivers ops s) :
    ∀ p ∈ s.tracker.applied ++ s.pending.flatMap pendingApplication,
      p.1.ref.viaIfacePort = true ∧ ∃ first rest, p.1.ref.path = first :: rest ∧
        D.parentScope first.symbol = D.canonicalBody p.2 := by
  intro p hp
  have hmem := ((reachable_replayInv h).replays (D.canonicalBody p.2)).subset
    (List.mem_filter.2 ⟨hp, by simp⟩)
  exact (reachable_notedRefsInv h).registered _ p.1 (List.mem_product.1 hmem).1

theorem replays_through_canonical_port_instanceFirst :
    Reachable sharedBody false sharedBodyOps instanceFirst ∧
      ∀ p ∈ instanceFirst.tracker.applied ++ instanceFirst.pending.flatMap pendingApplication,
        p.1.ref.viaIfacePort = true ∧ ∃ first rest, p.1.ref.path = first :: rest ∧
          sharedBody.parentScope first.symbol = sharedBody.canonicalBody p.2 :=
  have h := reachable_run [0, 1, 1, 1, 1] .init
  ⟨h, replays_through_canonical_port h⟩

example : instanceFirst.tracker.applied.map (fun p => (p.1.ref, p.2)) = [(throughPort, 5)] := by
  decide

end Refs

end DriverTracker.NotedRefs
