import DriverTracker.Machine
import DriverTracker.Lsp

namespace DriverTracker.Resubmission

open DriverTracker.Syntax DriverTracker.Driver DriverTracker.Elaboration DriverTracker.AddDriver
  DriverTracker.State DriverTracker.Machine

variable {D : Design}

theorem mem_lspDrivers_eq {expr : Expr} {driverKind : DriverKind} {driverFlags : DriverFlags}
    {containingSymbol : Sym} {initialLSP : Option Expr} {p : Sym × DriverList}
    (hp : p ∈ lspDrivers D expr driverKind driverFlags containingSymbol initialLSP) :
    ∀ e ∈ p.2, ∃ lsp, e.1 = D.makeDriver driverKind lsp containingSymbol driverFlags := by
  obtain ⟨⟨symbol, lsp, isLValue⟩, -, hp⟩ := List.mem_filterMap.1 hp
  dsimp only at hp
  split_ifs at hp
  obtain ⟨bounds, -, rfl⟩ := Option.map_eq_some'.1 hp
  simp only [List.mem_singleton]
  rintro _ rfl
  exact ⟨lsp, rfl⟩

theorem components_ne_nil (e : Expr) : e.components ≠ [] := by
  unfold Expr.components
  split <;> exact List.cons_ne_nil _ _

theorem sizeOf_le_reroot (connectionExpr e : Expr) :
    sizeOf connectionExpr ≤ sizeOf (Lsp.reroot connectionExpr e) := by
  induction e with
  | elementSelect _ _ _ _ ih | rangeSelect _ _ _ _ _ _ ih | memberAccess _ _ _ _ ih =>
    simp only [Lsp.reroot, Expr.elementSelect.sizeOf_spec, Expr.rangeSelect.sizeOf_spec,
      Expr.memberAccess.sizeOf_spec]
    omega
  | _ => exact le_refl _

theorem reroot_eq_self_iff (connectionExpr value : Expr) :
    Lsp.reroot connectionExpr value = connectionExpr ↔ value.components.length = 1 := by
  cases value with
  | elementSelect _ v _ _ | rangeSelect _ _ v _ _ _ | memberAccess _ v _ _ =>
    have hle := sizeOf_le_reroot connectionExpr v
    have hne := components_ne_nil v
    refine ⟨fun h => ?_, fun h => ?_⟩
    · have hsize := congrArg sizeOf h
      simp only [Lsp.reroot, Expr.elementSelect.sizeOf_spec, Expr.rangeSelect.sizeOf_spec,
        Expr.memberAccess.sizeOf_spec] at hsize
      omega
    · simp [Expr.components, hne] at h
  | _ => simp [Lsp.reroot, Expr.components]

/-- The longest static prefix `propagateModportDriver` hands to `addDrivers` is the driver's own
prefix re-rooted on the connection expression, every select kept, exactly when that prefix has
at most one select: a deeper prefix loses every select below its outermost one. -/
theorem splice_keeps_selects_iff (prefixExpression connectionExpr : Expr) :
    (splice prefixExpression connectionExpr).getD connectionExpr =
        Lsp.reroot connectionExpr prefixExpression ↔
      prefixExpression.components.length ≤ 2 := by
  cases prefixExpression with
  | elementSelect _ v _ _ | rangeSelect _ _ v _ _ _ | memberAccess _ v _ _ =>
    have hne := List.length_pos.2 (components_ne_nil v)
    simp only [splice, Option.getD_some, Lsp.reroot, Expr.elementSelect.injEq,
      Expr.rangeSelect.injEq, Expr.memberAccess.injEq, true_and, and_true, Expr.components,
      List.length_cons, eq_comm (a := connectionExpr), reroot_eq_self_iff]
    omega
  | _ => simp [splice, Lsp.reroot, Expr.components]

section Marks

/-- The drivers an operation brings with it are not marked as made by a replay: those of
`add(procedure)` and `add(symbolDriverList)`, which come from procedure analysis. -/
def NoSideEffectMarks : Operation → Prop
  | .procedure drivers | .symbolDriverList drivers =>
    ∀ p ∈ drivers, ∀ e ∈ p.2, e.1.isFromSideEffect = false
  | _ => True

def heldDrivers : Call → DriverList
  | .visitSymbols _ pending _ => pending.flatMap (·.2)
  | _ => []

variable (D) in
def MarksFromReplays (t : Tracker) : Prop :=
  ∀ symbol, ∀ e ∈ t.symbolDrivers symbol, e.1.isFromSideEffect = true →
    ∃ p ∈ t.applied, sideEffect D p.1 p.2 = .ok (some (symbol, e.1, e.2))

variable {allowDupInitialDrivers : Bool}

theorem initializerDrivers_unmarked (symbol : Sym) :
    ∀ e ∈ initializerDrivers D symbol, e.1.isFromSideEffect = false := by
  unfold initializerDrivers
  split <;> (try split) <;> simp

theorem mem_addDriver_driverMap {symbol : Sym} {m : DriverList} {d : ValueDriver}
    {b : DriverBitRange} {e : ValueDriver × DriverBitRange}
    (he : e ∈ (addDriver D allowDupInitialDrivers symbol m d b).driverMap) :
    e ∈ m ∨ e ∈ initializerDrivers D symbol ∨ e = (d, b) := by
  by_cases hs : Stores D symbol
  · rw [(addDriver_of_stores allowDupInitialDrivers hs m d b).1, baseMap, List.mem_append,
      List.mem_singleton] at he
    rcases he with he | rfl
    · split_ifs at he
      exacts [.inr (.inl he), .inl he]
    · exact .inr (.inr rfl)
  · exact .inl ((addDriver_of_not_stores allowDupInitialDrivers hs m d b).1 ▸ he)

theorem MarksFromReplays.of_le {t t' : Tracker} (h : MarksFromReplays D t)
    (hs : t'.symbolDrivers = t.symbolDrivers) (ha : t.applied ⊆ t'.applied) :
    MarksFromReplays D t' := fun symbol e he hm =>
  let ⟨p, hp, hfx⟩ := h symbol e (hs ▸ he) hm
  ⟨p, ha hp, hfx⟩

theorem visitSymbol_marks {t : Tracker} (h : MarksFromReplays D t) (symbol : Sym) (ds : DriverList)
    (hds : ∀ e ∈ ds, e.1.isFromSideEffect = true →
      ∃ p ∈ t.applied, sideEffect D p.1 p.2 = .ok (some (symbol, e.1, e.2))) :
    MarksFromReplays D (t.visitSymbol D allowDupInitialDrivers symbol ds).1 := by
  induction ds generalizing t with
  | nil => exact h
  | cons d ds ih =>
    refine ih (fun s e he hm => ?_) fun e he => hds e (List.mem_cons_of_mem _ he)
    simp only [Tracker.addDriver] at he
    by_cases hs : s = symbol
    · subst hs
      rw [Function.update_same] at he
      rcases mem_addDriver_driverMap he with he | he | rfl
      · exact h s e he hm
      · exact absurd hm (by simp [initializerDrivers_unmarked s e he])
      · exact hds d (List.mem_cons_self _ _) hm
    · rw [Function.update_noteq hs] at he
      exact h s e he hm

theorem addDrivers_unmarked {expr : Expr} {driverKind : DriverKind} {driverFlags : DriverFlags}
    {containingSymbol : Sym} {initialLSP : Option Expr} :
    ∀ e ∈ heldDrivers (addDrivers D expr driverKind driverFlags containingSymbol initialLSP),
      e.1.isFromSideEffect = false := fun e he => by
  obtain ⟨p, hp, he⟩ := List.mem_flatMap.1 he
  obtain ⟨lsp, hlsp⟩ := mem_lspDrivers_eq hp e he
  simp [hlsp]

theorem run_marks {t : Tracker} (h : MarksFromReplays D t) {c : Call}
    (hc : ∀ e ∈ heldDrivers c, e.1.isFromSideEffect = false) :
    MarksFromReplays D (c.run D allowDupInitialDrivers t).1 ∧
      ∀ c' ∈ (c.run D allowDupInitialDrivers t).2, ∀ e ∈ heldDrivers c',
        e.1.isFromSideEffect = false := by
  cases c with
  | visitSymbols noteRefs pending refs =>
    cases pending with
    | nil =>
      refine ⟨h, ?_⟩
      simp only [Call.run, List.mem_map]
      rintro _ ⟨_, -, rfl⟩ e he
      cases he
    | cons p rest =>
      simp only [heldDrivers, List.flatMap_cons, List.mem_append] at hc
      refine ⟨visitSymbol_marks h p.1 p.2 fun e he hm => ?_, ?_⟩
      · exact absurd hm (by simp [hc e (.inl he)])
      · simp only [Call.run, List.mem_singleton]
        rintro _ rfl e he
        exact hc e (.inr he)
  | noteInterfacePortDriver ref driver =>
    simp only [Call.run]
    split
    · exact ⟨h, by simp⟩
    · refine ⟨h.of_le rfl (List.Subset.refl _), fun c' hc' e he => ?_⟩
      simp only [List.mem_append, List.mem_map, Option.mem_toList, Option.mem_def,
        Option.map_eq_some'] at hc'
      rcases hc' with ⟨_, -, rfl⟩ | ⟨_, -, rfl⟩ <;> cases he
  | applyInstanceSideEffect i inst =>
    refine ⟨?_, by simp [Call.run]⟩
    have ha : t.applied ⊆ t.applied ++ [(i, inst)] := List.subset_append_left _ _
    simp only [Call.run, Tracker.applyInstanceSideEffect]
    split
    · exact h.of_le (by rfl) ha
    · exact h.of_le (by rfl) ha
    · rename_i target driver bounds hfx
      refine visitSymbol_marks (h.of_le (by rfl) ha) _ _ fun e he _ => ?_
      obtain rfl := List.mem_singleton.1 he
      exact ⟨(i, inst), List.mem_append_right _ (List.mem_singleton_self _), hfx⟩
  | noteNonCanonicalInstance inst =>
    refine ⟨h.of_le rfl (List.Subset.refl _), ?_⟩
    simp only [Call.run, List.mem_map]
    rintro _ ⟨_, -, rfl⟩ e he
    cases he
  | propagateModportDrivers =>
    refine ⟨h.of_le rfl (List.Subset.refl _), fun c' hc' e he => ?_⟩
    simp only [Call.run] at hc'
    split_ifs at hc'
    · cases hc'
    · simp only [propagationCalls, List.mem_append, List.mem_filterMap, Option.map_eq_some',
        List.mem_singleton] at hc'
      rcases hc' with ⟨_, -, _, -, rfl⟩ | rfl <;> cases he
  | propagateModportDriver connectionExpr originalDriver =>
    refine ⟨h.of_le rfl (List.Subset.refl _), ?_⟩
    simp only [Call.run, List.mem_singleton]
    rintro _ rfl
    exact addDrivers_unmarked

theorem calls_heldDrivers {op : Operation} (hop : NoSideEffectMarks op) :
    ∀ c ∈ op.calls D, ∀ e ∈ heldDrivers c, e.1.isFromSideEffect = false := fun c hc => by
  rcases mem_calls D hc with ⟨_, rfl, rfl⟩ | ⟨_, rfl, rfl⟩ | ⟨_, _, _, _, rfl⟩ | ⟨_, -, rfl⟩ |
    ⟨-, rfl⟩
  iterate 2
    intro e he
    obtain ⟨p, hp, he⟩ := List.mem_flatMap.1 he
    exact hop p hp e he
  · exact addDrivers_unmarked
  · exact fun _ he => nomatch he
  · exact fun _ he => nomatch he

theorem reachable_marks {ops : List (List Operation)}
    (hops : ∀ w ∈ ops, ∀ op ∈ w, NoSideEffectMarks op) {s : Sys}
    (h : Reachable D allowDupInitialDrivers ops s) :
    MarksFromReplays D s.tracker ∧
      ∀ c ∈ s.pending, ∀ e ∈ heldDrivers c, e.1.isFromSideEffect = false := by
  induction h with
  | init =>
    refine ⟨fun _ e he => by simp [Sys.init, Tracker.empty] at he, fun c hc => ?_⟩
    obtain ⟨l, hl, hcl⟩ := List.mem_flatten.1 hc
    obtain ⟨w, hw, rfl⟩ := List.mem_map.1 hl
    obtain ⟨op, hop, hc⟩ := List.mem_flatMap.1 hcl
    exact calls_heldDrivers (hops w hw op hop) c hc
  | @step s w _ ih =>
    rcases step_cases s w with heq | ⟨c, hc, ht, hperm⟩
    · rwa [heq]
    obtain ⟨hrun, hnew⟩ := run_marks ih.1 (ih.2 c hc)
    refine ⟨ht ▸ hrun, fun c' hc' => ?_⟩
    rcases List.mem_append.1 (hperm.subset (List.mem_cons_of_mem c hc')) with h' | h'
    · exact hnew c' h'
    · exact ih.2 c' h'

/-- Only `applyInstanceSideEffect` marks a driver as a side effect, and whatever re-submits a
driver drops the mark. Provided the drivers the operations bring are unmarked, however the
workers interleave, `propagateModportDrivers` included: every marked driver a symbol's map holds
is the driver of a replay made, which targets that symbol; and every driver still to be added,
on any worker's stack, is unmarked, those `propagateModportDriver` re-submits included. -/
theorem sideEffect_marks_from_replays {ops : List (List Operation)}
    (hops : ∀ w ∈ ops, ∀ op ∈ w, NoSideEffectMarks op) {s : Sys}
    (h : Reachable D allowDupInitialDrivers ops s) :
    (∀ symbol, ∀ e ∈ s.tracker.getDrivers symbol, e.1.isFromSideEffect = true →
      ∃ p ∈ s.tracker.applied, sideEffect D p.1 p.2 = .ok (some (symbol, e.1, e.2))) ∧
      ∀ c ∈ s.pending, ∀ e ∈ heldDrivers c, e.1.isFromSideEffect = false :=
  reachable_marks hops h

end Marks

section Nested

def byteArray : Ty := .packedArray 3 0 (.packedArray 7 0 .logic)

def nestedSelect : Design :=
  { Design.plain with
    kind := fun s => if s = 1 then .modportPort else if s = 2 then .variable else .other
    modportConnectionExpr := fun s => if s = 1 then some (.namedValue 2 ⟨30, 31⟩) else none
    visitLSPs := Lsp.visitLSPs
    getBounds := fun lsp _ => (Lsp.getBounds (fun _ => byteArray) lsp).map (·.1) }

def nestedLvalue : Expr :=
  .rangeSelect .simple (.packedArray 3 0 .logic)
    (.elementSelect (.packedArray 7 0 .logic) (.namedValue 1 ⟨10, 11⟩) (.integerLiteral 1 ⟨12, 13⟩)
      ⟨10, 14⟩)
    (.integerLiteral 3 ⟨15, 16⟩) (.integerLiteral 0 ⟨17, 18⟩) ⟨10, 19⟩

def nestedOps : List (List Operation) := [[.expression nestedLvalue 5, .propagateModportDrivers]]

def nestedRun : Sys := (Sys.init nestedSelect nestedOps).run nestedSelect false (List.replicate 7 0)

/-- `p[1][3:0]` is bits 8 to 11 of `p`, and so of `x`; the propagation re-roots it as `x[3:0]`
and records bits 0 to 31 of `x`. -/
theorem nested_prefix_loses_inner_select :
    Reachable nestedSelect false nestedOps nestedRun ∧ nestedRun.pending = [] ∧
      nestedRun.tracker.calls 1 =
        [(nestedSelect.makeDriver .continuous nestedLvalue 5 {}, (8, 11))] ∧
      (Lsp.getBounds (fun _ => byteArray) (Lsp.reroot (.namedValue 2 ⟨30, 31⟩) nestedLvalue)).map
          (·.1) = some (8, 11) ∧
      nestedRun.tracker.calls 2 =
        [(nestedSelect.makeDriver .continuous
          ((splice nestedLvalue (.namedValue 2 ⟨30, 31⟩)).getD (.namedValue 2 ⟨30, 31⟩)) 5 {},
          (0, 31))] :=
  ⟨reachable_run _ .init, by decide⟩

end Nested

section Chain

def throughP : HierarchicalReference :=
  { path := [⟨3, .name "p"⟩, ⟨1, .name "y"⟩], target := some 1, viaIfacePort := true }

def throughQ : HierarchicalReference :=
  { path := [⟨13, .name "q"⟩, ⟨14, .name "x"⟩], target := some 14, viaIfacePort := true }

def portChain : Design :=
  { Design.plain with
    kind := fun s => if s = 1 ∨ s = 12 then .modportPort else if s = 3 ∨ s = 7 then .interfacePort
      else if s = 8 then .«instance» else if s = 14 then .net else .other
    name := fun s => if s = 3 ∨ s = 7 then "p" else if s = 9 ∨ s = 11 then "mp"
      else if s = 1 ∨ s = 12 then "y" else ""
    parentScope := fun s => if s = 3 then 2 else if s = 13 then 10 else 0
    canonicalBody := fun s => if s = 5 then 2 else 0
    body := fun s => if s = 5 then 6 else if s = 8 then 10 else 0
    definitionKind := fun s => if s = 10 then .interface else .module
    findPort := fun b n => if b = 6 ∧ n = "p" then some 7 else none
    find := fun s n => if s = 10 ∧ n = "mp" then some 11 else if s = 11 ∧ n = "y" then some 12
      else none
    connection := fun s => if s = 7 then (some 8, some 9) else (none, none)
    modportConnectionExpr := fun s =>
      if s = 12 then some (.hierarchicalValue 14 throughQ ⟨40, 41⟩) else none
    visitLSPs := Lsp.visitLSPs
    getBounds := fun lsp _ => (Lsp.getBounds (fun _ => .logic) lsp).map (·.1)
    depth := fun s => if s = 7 then 1 else 0
    connection_depth := fun p q h => by
      by_cases hp : p = 7 <;> simp_all
      subst h
      decide
    connectionExpr_depth := fun _ _ _ _ h => nomatch h }

def chainOps : List (List Operation) :=
  [[.nonCanonicalInstance 5, .expression (.hierarchicalValue 1 throughP ⟨20, 21⟩) 2,
    .propagateModportDrivers]]

def chainRun : Sys := (Sys.init portChain chainOps).run portChain false (List.replicate 11 0)

/-- The driver of `p.y`, replayed for the instance, lands on its modport port `y` marked as a
side effect; the propagation re-submits it through `q.x` as a fresh driver of the instance, and
that driver is noted as an interface port driver of the interface's body. -/
theorem sideEffect_descendant_noted :
    Reachable portChain false chainOps chainRun ∧ chainRun.pending = [] ∧
      chainRun.tracker.propagated =
        [(.hierarchicalValue 14 throughQ ⟨40, 41⟩,
          sideEffectDriver ⟨throughP, portChain.makeDriver .continuous
            (.hierarchicalValue 1 throughP ⟨20, 21⟩) 2 {}⟩ 5)] ∧
      (sideEffectDriver ⟨throughP, portChain.makeDriver .continuous
        (.hierarchicalValue 1 throughP ⟨20, 21⟩) 2 {}⟩ 5).isFromSideEffect = true ∧
      (chainRun.tracker.instanceMap 10).ifacePortDrivers =
        [⟨throughQ, portChain.makeDriver .continuous (.hierarchicalValue 14 throughQ ⟨40, 41⟩) 5 {}⟩] :=
  ⟨reachable_run _ .init, by decide⟩

theorem sideEffect_marks_from_replays_chainRun :
    (∀ w ∈ chainOps, ∀ op ∈ w, NoSideEffectMarks op) ∧
      Reachable portChain false chainOps chainRun ∧
      (∀ symbol, ∀ e ∈ chainRun.tracker.getDrivers symbol, e.1.isFromSideEffect = true →
        ∃ p ∈ chainRun.tracker.applied, sideEffect portChain p.1 p.2 = .ok (some (symbol, e.1, e.2))) ∧
      ∀ c ∈ chainRun.pending, ∀ e ∈ heldDrivers c, e.1.isFromSideEffect = false :=
  have hops : ∀ w ∈ chainOps, ∀ op ∈ w, NoSideEffectMarks op := by
    simp [chainOps, NoSideEffectMarks]
  have h := reachable_run (List.replicate 11 0) .init
  ⟨hops, h, sideEffect_marks_from_replays hops h⟩

example : (chainRun.tracker.getDrivers 14).map (·.1.isFromSideEffect) = [false] := by
  decide

end Chain

end DriverTracker.Resubmission
