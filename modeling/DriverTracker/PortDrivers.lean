import DriverTracker.StoredDrivers

namespace DriverTracker.PortDrivers

open DriverTracker.Syntax DriverTracker.Driver DriverTracker.Elaboration DriverTracker.Overlap
  DriverTracker.AddDriver DriverTracker.State DriverTracker.Machine DriverTracker.StoredDrivers

def PortContinuous (d : ValueDriver) : Prop := d.isUnidirectionalPort = true → d.kind = .continuous

def NamesSingleDriverProcedure (g : Diagnostic) : Prop :=
  g.code = .multipleAlwaysAssigns →
    ∃ name k, g.args = [.str name, .procedureKind k] ∧ k.isSingleDriver = true

section Overlaps

variable {D : Design} {symbol : Sym} {curr driver : ValueDriver}
  {isNet isUWire isSingleDriverUDNT : Bool} {g : Diagnostic}

theorem handleOverlap_multipleAlwaysAssigns
    (h : (handleOverlap D symbol curr driver isNet isUWire isSingleDriverUDNT).1 = some g)
    (hcode : g.code = .multipleAlwaysAssigns) :
    curr.kind = .procedural ∧ driver.kind = .procedural ∧
      g.args = [.str (D.stringifyLSP
          (if driver.isInSingleDriverProcedure then driver else curr).prefixExpression),
        .procedureKind (if driver.isInSingleDriverProcedure then driver.source else curr.source)] := by
  unfold handleOverlap at h
  dsimp only at h
  by_cases h1 : portConflict isNet isUWire isSingleDriverUDNT curr driver = true
  · rw [if_pos h1] at h
    cases h
    dsimp only at hcode
    split_ifs at hcode
  rw [if_neg h1] at h
  by_cases h2 : (curr.isClockVar || driver.isClockVar) = true
  · rw [if_pos h2] at h
    split_ifs at h <;> cases h <;> cases hcode
  rw [if_neg h2] at h
  by_cases h3 : (curr.kind = .procedural && driver.kind = .procedural) = true
  · rw [if_pos h3] at h
    cases h
    simp only [Bool.and_eq_true, decide_eq_true_eq] at h3
    exact ⟨h3.1, h3.2, by split_ifs <;> rfl⟩
  · rw [if_neg h3] at h
    cases h
    dsimp only at hcode
    split_ifs at hcode

theorem not_isUnidirectionalPort (hc : PortContinuous curr) (hk : curr.kind = .procedural) :
    curr.isUnidirectionalPort = false := by
  by_contra hu
  simp only [Bool.not_eq_false] at hu
  simp [hc hu] at hk

theorem handleOverlap_namesSingleDriverProcedure {checkOverlap : Bool}
    {shouldIgnore : ValueDriver → Bool} (hc : PortContinuous curr) (hd : PortContinuous driver)
    (hp : isProblem checkOverlap shouldIgnore curr driver = true)
    (h : (handleOverlap D symbol curr driver isNet isUWire isSingleDriverUDNT).1 = some g) :
    NamesSingleDriverProcedure g := by
  intro hcode
  obtain ⟨hck, hdk, hargs⟩ := handleOverlap_multipleAlwaysAssigns h hcode
  refine ⟨_, _, hargs, ?_⟩
  have hsingle : curr.isInSingleDriverProcedure = true ∨ driver.isInSingleDriverProcedure = true := by
    unfold isProblem at hp
    rw [not_isUnidirectionalPort hc hck, not_isUnidirectionalPort hd hdk] at hp
    split_ifs at hp <;> simp_all
  split_ifs with hs
  · exact hs
  · simpa [hs] using hsingle

theorem scanOverlaps_namesSingleDriverProcedure {allowDupInitialDrivers : Bool} {bounds : DriverBitRange}
    {L : DriverList} (hL : ∀ e ∈ L, PortContinuous e.1) (hd : PortContinuous driver)
    {r : OverlapReport} (hr : r ∈ scanOverlaps D allowDupInitialDrivers symbol driver bounds L)
    (hg : r.diag = some g) : NamesSingleDriverProcedure g := by
  induction L with
  | nil => cases hr
  | cons curr rest ih =>
    have hrest := ih fun e he => hL e (List.mem_cons_of_mem curr he)
    unfold scanOverlaps at hr
    split_ifs at hr with hp
    · rcases List.mem_cons.1 hr with rfl | hr
      · exact handleOverlap_namesSingleDriverProcedure (hL curr (List.mem_cons_self _ _)) hd hp hg
      · split_ifs at hr
        exacts [hrest hr, absurd hr (List.not_mem_nil _)]
    · exact hrest hr

end Overlaps

theorem portContinuous_of {d d' : ValueDriver} (hk : d'.kind = d.kind) (hf : d'.flags = d.flags)
    (h : PortContinuous d) : PortContinuous d' := by
  simpa [PortContinuous, ValueDriver.isUnidirectionalPort, hk, hf] using h

theorem initializerDrivers_portContinuous (D : Design) (symbol : Sym) :
    ∀ e ∈ initializerDrivers D symbol, PortContinuous e.1 := fun e he => by
  simp [PortContinuous, ValueDriver.isUnidirectionalPort, initializerDrivers_flags D symbol e he]

def CallPortContinuous : Call → Prop
  | .visitSymbols _ pending refs =>
    (∀ p ∈ pending, ∀ e ∈ p.2, PortContinuous e.1) ∧ ∀ r ∈ refs, PortContinuous r.2
  | .noteInterfacePortDriver _ driver => PortContinuous driver
  | .applyInstanceSideEffect ifacePortDriver _ => PortContinuous ifacePortDriver.driver
  | .propagateModportDriver _ originalDriver => PortContinuous originalDriver
  | .noteNonCanonicalInstance _ | .propagateModportDrivers => True

structure PortInv (t : Tracker) : Prop where
  calls : ∀ symbol, ∀ e ∈ t.calls symbol, PortContinuous e.1
  stored : ∀ symbol, ∀ e ∈ t.symbolDrivers symbol, PortContinuous e.1
  modportEntries : ∀ e ∈ entries t.modportPortDrivers, PortContinuous e.2.1
  ifacePortDrivers : ∀ body, ∀ i ∈ (t.instanceMap body).ifacePortDrivers, PortContinuous i.driver
  diagnostics : ∀ g ∈ t.diagnostics, NamesSingleDriverProcedure g

section Steps

variable {D : Design} {allowDupInitialDrivers : Bool} {t : Tracker}

theorem addDriver_portInv (ht : PortInv t) (symbol : Sym) {d : ValueDriver} (b : DriverBitRange)
    (hd : PortContinuous d) : PortInv (t.addDriver D allowDupInitialDrivers symbol d b).1 := by
  have hbase : ∀ e ∈ baseMap D symbol (t.symbolDrivers symbol), PortContinuous e.1 := by
    unfold baseMap
    split_ifs
    exacts [initializerDrivers_portContinuous D symbol, ht.stored symbol]
  constructor
  · intro s e he
    simp only [Tracker.addDriver] at he
    by_cases hs : s = symbol
    · subst hs
      simp only [Function.update_same, List.mem_append, List.mem_singleton] at he
      rcases he with he | rfl
      exacts [ht.calls s e he, hd]
    · exact ht.calls s e (by simpa [Function.update_noteq hs] using he)
  · intro s e he
    simp only [Tracker.addDriver] at he
    by_cases hs : s = symbol
    · subst hs
      simp only [Function.update_same] at he
      by_cases hst : Stores D s
      · rw [(addDriver_of_stores allowDupInitialDrivers hst _ d b).1, List.mem_append,
          List.mem_singleton] at he
        rcases he with he | rfl
        exacts [hbase e he, hd]
      · rw [(addDriver_of_not_stores allowDupInitialDrivers hst _ d b).1] at he
        exact ht.stored s e he
    · exact ht.stored s e (by simpa [Function.update_noteq hs] using he)
  · intro e he
    simp only [Tracker.addDriver, addDriver_modportEntry] at he
    split_ifs at he
    · rcases List.mem_append.1 ((entries_recordEntry _ _ _).subset he) with he | he
      · exact ht.modportEntries e he
      · rw [List.mem_singleton.1 he]
        exact hd
    · exact ht.modportEntries e he
  · exact ht.ifacePortDrivers
  · intro g hg
    simp only [Tracker.addDriver, List.mem_append] at hg
    rcases hg with hg | hg
    · exact ht.diagnostics g hg
    · obtain ⟨r, hr, hrg⟩ := List.mem_filterMap.1 hg
      by_cases hst : Stores D symbol
      · rw [(addDriver_of_stores allowDupInitialDrivers hst _ d b).2.2] at hr
        exact scanOverlaps_namesSingleDriverProcedure
          (fun e he => hbase e (List.mem_filter.1 he).1) hd hr hrg
      · rw [(addDriver_of_not_stores allowDupInitialDrivers hst _ d b).2] at hr
        cases hr

theorem visitSymbol_portInv (ht : PortInv t) (symbol : Sym) {ds : DriverList}
    (hds : ∀ e ∈ ds, PortContinuous e.1) :
    PortInv (t.visitSymbol D allowDupInitialDrivers symbol ds).1 := by
  induction ds generalizing t with
  | nil => exact ht
  | cons e ds ih =>
    exact ih (addDriver_portInv ht symbol e.2 (hds e (List.mem_cons_self _ _)))
      fun x hx => hds x (List.mem_cons_of_mem _ hx)

theorem addDrivers_portContinuous {expr : Expr} {driverKind : DriverKind} {driverFlags : DriverFlags}
    {containingSymbol : Sym} {initialLSP : Option Expr} {d : ValueDriver}
    (hd : PortContinuous d) (hk : driverKind = d.kind) (hf : driverFlags = d.flags) :
    CallPortContinuous (addDrivers D expr driverKind driverFlags containingSymbol initialLSP) := by
  refine ⟨fun p hp e he => ?_, fun _ h => absurd h (List.not_mem_nil _)⟩
  obtain ⟨hek, hef⟩ := mem_lspDrivers D hp e he
  exact portContinuous_of (hek.trans hk) (hef.trans hf) hd

theorem run_portInv (ht : PortInv t) {c : Call} (hc : CallPortContinuous c) :
    PortInv (c.run D allowDupInitialDrivers t).1 ∧
      ∀ c' ∈ (c.run D allowDupInitialDrivers t).2, CallPortContinuous c' := by
  cases c with
  | visitSymbols noteRefs pending refs =>
    obtain ⟨hpending, hrefs⟩ := hc
    cases pending with
    | nil =>
      refine ⟨ht, ?_⟩
      simp only [Call.run, List.mem_map]
      rintro _ ⟨r, hr, rfl⟩
      exact hrefs r hr
    | cons p rest =>
      have hp := hpending p (List.mem_cons_self _ _)
      refine ⟨visitSymbol_portInv ht p.1 hp, ?_⟩
      simp only [Call.run, List.mem_singleton]
      rintro _ rfl
      refine ⟨fun q hq => hpending q (List.mem_cons_of_mem _ hq), fun r hr => ?_⟩
      split_ifs at hr
      · rcases List.mem_append.1 hr with hr | hr
        · exact hrefs r hr
        · rw [visitSymbol_snd] at hr
          obtain ⟨e, he, hre⟩ := List.mem_filterMap.1 hr
          obtain ⟨_, -, rfl⟩ := Option.map_eq_some'.1 hre
          exact hp e he
      · exact hrefs r hr
  | noteInterfacePortDriver ref driver =>
    simp only [Call.run]
    split
    · exact ⟨ht, fun _ h => absurd h (List.not_mem_nil _)⟩
    · rename_i first _ _
      refine ⟨⟨ht.calls, ht.stored, ht.modportEntries, fun body i hi => ?_, ht.diagnostics⟩, ?_⟩
      · simp only [Tracker.registerIfacePortDriver] at hi
        by_cases hb : body = D.parentScope first.symbol
        · subst hb
          simp only [Function.update_same, List.mem_append, List.mem_singleton] at hi
          rcases hi with hi | rfl
          exacts [ht.ifacePortDrivers _ i hi, hc]
        · exact ht.ifacePortDrivers body i (by simpa [Function.update_noteq hb] using hi)
      · intro c' hc'
        rcases List.mem_append.1 hc' with hc' | hc'
        · obtain ⟨_, -, rfl⟩ := List.mem_map.1 hc'
          exact hc
        · cases hn : nextIfacePortRef D first.symbol ref <;> simp only [hn, Option.map_none',
            Option.map_some', Option.toList_none, Option.toList_some, List.mem_singleton,
            List.not_mem_nil] at hc'
          rw [hc']
          exact hc
  | applyInstanceSideEffect ifacePortDriver inst =>
    refine ⟨?_, fun _ h => absurd h (List.not_mem_nil _)⟩
    simp only [Call.run, Tracker.applyInstanceSideEffect]
    split
    · exact ⟨ht.1, ht.2, ht.3, ht.4, ht.5⟩
    · exact ⟨ht.1, ht.2, ht.3, ht.4, ht.5⟩
    · rename_i target driver bounds hse
      refine visitSymbol_portInv (t := { t with applied := t.applied ++ [(ifacePortDriver, inst)] })
        ⟨ht.1, ht.2, ht.3, ht.4, ht.5⟩ target fun e he => ?_
      rw [List.mem_singleton.1 he, sideEffect_driver hse]
      exact portContinuous_of rfl rfl hc
  | noteNonCanonicalInstance inst =>
    refine ⟨⟨ht.calls, ht.stored, ht.modportEntries, fun body i hi => ?_, ht.diagnostics⟩, ?_⟩
    · simp only [Call.run, Tracker.registerInstance] at hi
      by_cases hb : body = D.canonicalBody inst
      · subst hb
        exact ht.ifacePortDrivers _ i (by simpa using hi)
      · exact ht.ifacePortDrivers body i (by simpa [Function.update_noteq hb] using hi)
    · simp only [Call.run, List.mem_map]
      rintro _ ⟨i, hi, rfl⟩
      exact ht.ifacePortDrivers _ i hi
  | propagateModportDrivers =>
    refine ⟨⟨ht.calls, ht.stored, by simp [Call.run], ht.ifacePortDrivers, ht.diagnostics⟩, ?_⟩
    simp only [Call.run]
    split_ifs
    · exact fun _ h => absurd h (List.not_mem_nil _)
    · intro c' hc'
      rcases List.mem_append.1 hc' with hc' | hc'
      · obtain ⟨e, he, hce⟩ := List.mem_filterMap.1 hc'
        obtain ⟨_, -, rfl⟩ := Option.map_eq_some'.1 hce
        exact ht.modportEntries e he
      · rw [List.mem_singleton.1 hc']
        trivial
  | propagateModportDriver connectionExpr originalDriver =>
    refine ⟨⟨ht.calls, ht.stored, ht.modportEntries, ht.ifacePortDrivers, ht.diagnostics⟩, ?_⟩
    simp only [Call.run, List.mem_singleton]
    rintro _ rfl
    exact addDrivers_portContinuous hc rfl rfl

end Steps

/-- The drivers an operation brings with it carry no port flag: those of `add(procedure)` and
`add(symbolDriverList)`, which come from procedure analysis. -/
def NoPortFlags : Operation → Prop
  | .procedure drivers | .symbolDriverList drivers =>
    ∀ p ∈ drivers, ∀ e ∈ p.2, e.1.isUnidirectionalPort = false
  | _ => True

section Runs

variable {D : Design} {allowDupInitialDrivers : Bool}

theorem addDrivers_continuous {expr : Expr} {driverFlags : DriverFlags} {containingSymbol : Sym}
    {initialLSP : Option Expr} :
    CallPortContinuous (addDrivers D expr .continuous driverFlags containingSymbol initialLSP) :=
  ⟨fun _ hp e he _ => (mem_lspDrivers D hp e he).1, fun _ h => absurd h (List.not_mem_nil _)⟩

theorem calls_portContinuous {op : Operation} (hop : NoPortFlags op) :
    ∀ c ∈ op.calls D, CallPortContinuous c := by
  have supplied : ∀ drivers : List (Sym × DriverList),
      (∀ p ∈ drivers, ∀ e ∈ p.2, e.1.isUnidirectionalPort = false) →
        ∀ p ∈ drivers, ∀ e ∈ p.2, PortContinuous e.1 :=
    fun _ h p hp e he hu => by simp [h p hp e he] at hu
  cases op with
  | procedure drivers | symbolDriverList drivers =>
    simp only [Operation.calls, List.mem_singleton]
    rintro _ rfl
    exact ⟨supplied drivers hop, fun _ h => absurd h (List.not_mem_nil _)⟩
  | portConnection port expr containingSymbol =>
    simp only [Operation.calls, addPortConnection]
    split
    · exact fun _ h => absurd h (List.not_mem_nil _)
    · split_ifs <;> simp [addDrivers_continuous]
  | portSymbol symbol =>
    simp only [Operation.calls, addPortSymbol]
    split_ifs <;> (try split) <;> simp [addDrivers_continuous]
  | clockVar symbol =>
    simp only [Operation.calls, addClockVar]
    split_ifs <;> (try split) <;> simp [addDrivers_continuous]
  | expression expr containingSymbol => simpa [Operation.calls] using addDrivers_continuous
  | nonCanonicalInstance inst => simp [Operation.calls, CallPortContinuous]
  | propagateModportDrivers => simp [Operation.calls, CallPortContinuous]

theorem reachable_portInv {ops : List (List Operation)} (hops : ∀ w ∈ ops, ∀ op ∈ w, NoPortFlags op)
    {s : Sys} (h : Reachable D allowDupInitialDrivers ops s) :
    PortInv s.tracker ∧ ∀ c ∈ s.pending, CallPortContinuous c := by
  induction h with
  | init =>
    refine ⟨by constructor <;> simp [Sys.init, Tracker.empty], fun c hc => ?_⟩
    obtain ⟨l, hl, hcl⟩ := List.mem_flatten.1 hc
    obtain ⟨w, hw, rfl⟩ := List.mem_map.1 hl
    obtain ⟨op, hop, hc⟩ := List.mem_flatMap.1 hcl
    exact calls_portContinuous (hops w hw op hop) c hc
  | @step s w _ ih =>
    rcases step_cases s w with heq | ⟨c, hc, ht, hperm⟩
    · rwa [heq]
    · obtain ⟨hinv, hpending⟩ := run_portInv ih.1 (ih.2 c hc)
      rw [ht]
      refine ⟨hinv, fun c' hc' => ?_⟩
      rcases List.mem_append.1 (hperm.subset (List.mem_cons_of_mem c hc')) with h | h
      exacts [hpending c' h, ih.2 c' h]

/-- In every run whose procedure drivers carry no port flag, every driver submitted to
`addDriver` with `InputPort` or `OutputPort` is continuous, and every `MultipleAlwaysAssigns`
report names an `always_comb`, `always_ff` or `always_latch` procedure. -/
theorem port_drivers_continuous {ops : List (List Operation)}
    (hops : ∀ w ∈ ops, ∀ op ∈ w, NoPortFlags op) {s : Sys}
    (h : Reachable D allowDupInitialDrivers ops s) :
    (∀ symbol, ∀ e ∈ s.tracker.calls symbol,
        e.1.isUnidirectionalPort = true → e.1.kind = .continuous) ∧
      ∀ g ∈ s.tracker.diagnostics, g.code = .multipleAlwaysAssigns →
        ∃ name k, g.args = [.str name, .procedureKind k] ∧ k.isSingleDriver = true :=
  ⟨(reachable_portInv hops h).1.calls, (reachable_portInv hops h).1.diagnostics⟩

theorem port_drivers_continuous_wireRun :
    (∀ w ∈ [[Operation.procedure [(1, [(wireAssign, (0, 0))])]]], ∀ op ∈ w, NoPortFlags op) ∧
      Reachable inputPortWire false [[.procedure [(1, [(wireAssign, (0, 0))])]]] wireRun ∧
      (∀ symbol, ∀ e ∈ wireRun.tracker.calls symbol,
        e.1.isUnidirectionalPort = true → e.1.kind = .continuous) ∧
      ∀ g ∈ wireRun.tracker.diagnostics, g.code = .multipleAlwaysAssigns →
        ∃ name k, g.args = [.str name, .procedureKind k] ∧ k.isSingleDriver = true :=
  have hops : ∀ w ∈ [[Operation.procedure [(1, [(wireAssign, (0, 0))])]]], ∀ op ∈ w,
      NoPortFlags op := by
    rintro _ (_ | ⟨_, ⟨⟩⟩) _ (_ | ⟨_, ⟨⟩⟩) _ (_ | ⟨_, ⟨⟩⟩) _ (_ | ⟨_, ⟨⟩⟩)
    rfl
  have h := reachable_run [0] .init
  ⟨hops, h, port_drivers_continuous hops h⟩

end Runs

end DriverTracker.PortDrivers
