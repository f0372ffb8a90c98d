import DriverTracker.AddDriver
import Mathlib.Data.Sym.Sym2

namespace DriverTracker.OrderIndependence

open DriverTracker.Syntax DriverTracker.Driver DriverTracker.Elaboration DriverTracker.Overlap
  DriverTracker.AddDriver

variable {α : Type}

def orderedPairs : List α → List (α × α)
  | [] => []
  | x :: xs => xs.map (x, ·) ++ orderedPairs xs

theorem orderedPairs_append_singleton (l : List α) (e : α) :
    (orderedPairs (l ++ [e])).Perm (orderedPairs l ++ l.map (·, e)) := by
  induction l with
  | nil => simp [orderedPairs]
  | cons x xs ih =>
    calc orderedPairs (x :: xs ++ [e])
        = xs.map (x, ·) ++ ((x, e) :: orderedPairs (xs ++ [e])) := by simp [orderedPairs]
      List.Perm _ (xs.map (x, ·) ++ ((x, e) :: (orderedPairs xs ++ xs.map (·, e)))) :=
          (ih.cons _).append_left _
      List.Perm _ (xs.map (x, ·) ++ (orderedPairs xs ++ ((x, e) :: xs.map (·, e)))) :=
          List.perm_middle.symm.append_left _
      _ = orderedPairs (x :: xs) ++ (x :: xs).map (·, e) := by simp [orderedPairs]

theorem mem_orderedPairs_append_singleton {l : List α} {e : α} {p : α × α} :
    p ∈ orderedPairs (l ++ [e]) ↔ p ∈ orderedPairs l ∨ p.1 ∈ l ∧ p.2 = e := by
  rw [(orderedPairs_append_singleton l e).mem_iff, List.mem_append, List.mem_map]
  constructor
  · rintro (h | ⟨x, hx, rfl⟩)
    · exact .inl h
    · exact .inr ⟨hx, rfl⟩
  · rintro (h | ⟨hx, he⟩)
    · exact .inl h
    · exact .inr ⟨p.1, hx, by rw [← he]⟩

theorem Perm.orderedPairs_sym2 {l l' : List α} (h : l.Perm l') (P : α × α → Bool)
    (hP : ∀ x y, P (x, y) = P (y, x)) :
    (((orderedPairs l).filter P).map Sym2.mk).Perm (((orderedPairs l').filter P).map Sym2.mk) := by
  induction h with
  | nil => exact .nil
  | cons x _ ih =>
    simp only [orderedPairs, List.filter_append, List.map_append]
    exact List.Perm.append (((List.Perm.map _ ‹_›).filter P).map _) ih
  | swap x y l =>
    simp only [orderedPairs, List.map_cons, List.filter_append, List.filter_cons, hP y x,
      List.map_append]
    split
    · rw [List.map_cons, List.map_cons, List.cons_append, List.cons_append, Sym2.eq_swap]
      exact .cons _ (List.perm_append_comm_assoc _ _ _)
    · exact List.perm_append_comm_assoc _ _ _
  | trans _ _ ih₁ ih₂ => exact ih₁.trans ih₂

theorem Perm.exists_orderedPairs {l l' : List α} (h : l.Perm l') {p : α × α}
    (hp : p ∈ orderedPairs l) : ∃ q ∈ orderedPairs l', q = p ∨ q = p.swap := by
  have hm : Sym2.mk p ∈ ((orderedPairs l').filter fun _ => true).map Sym2.mk :=
    (Perm.orderedPairs_sym2 h (fun _ => true) fun _ _ => rfl).mem_iff.mp
      (List.mem_map_of_mem _ (by simpa using hp))
  obtain ⟨q, hq, he⟩ := List.mem_map.mp hm
  exact ⟨q, by simpa using hq, by
    rcases Sym2.mk_eq_mk_iff.mp he with h | h
    · exact .inl h
    · exact .inr (by rw [h])⟩

section Verdicts

variable (D : Design) (allowDupInitialDrivers : Bool) (symbol : Sym)

/-- A pair of drivers, the first stored before the second, that the scan hands to
`handleOverlap` and that `handleOverlap` reports as an error. -/
def ErrorPair (x y : ValueDriver × DriverBitRange) : Prop :=
  overlaps x.2 y.2 = true ∧
    isProblem (checkOverlap D symbol) (shouldIgnore allowDupInitialDrivers) x.1 y.1 = true ∧
    (handleOverlap D symbol x.1 y.1 (netFacts D symbol).isNet (netFacts D symbol).isUWire
      (netFacts D symbol).isSingleDriverUDNT).2 = false

def toleratedReports (reports : List OverlapReport) : List OverlapReport :=
  reports.filter fun r => r.diag.isSome && r.tolerated

def plainNet : Bool :=
  (netFacts D symbol).isNet && !(netFacts D symbol).isUWire &&
    !(netFacts D symbol).isSingleDriverUDNT

variable {D allowDupInitialDrivers symbol}

theorem errorPair_comm {x y : ValueDriver × DriverBitRange} :
    ErrorPair D allowDupInitialDrivers symbol x y ↔ ErrorPair D allowDupInitialDrivers symbol y x := by
  simp only [ErrorPair, overlaps_comm x.2, isProblem_comm x.1, handleOverlap_tolerated,
    tolerated_comm x.1]

theorem scanOverlaps_error_iff (d : ValueDriver) (b : DriverBitRange) (L : DriverList) :
    (∃ r ∈ scanOverlaps D allowDupInitialDrivers symbol d b L, r.tolerated = false) ↔
      ∃ x ∈ L, isProblem (checkOverlap D symbol) (shouldIgnore allowDupInitialDrivers) x.1 d ∧
        (handleOverlap D symbol x.1 d (netFacts D symbol).isNet (netFacts D symbol).isUWire
          (netFacts D symbol).isSingleDriverUDNT).2 = false := by
  induction L with
  | nil => simp [scanOverlaps]
  | cons x rest ih =>
    by_cases hp : isProblem (checkOverlap D symbol) (shouldIgnore allowDupInitialDrivers) x.1 d
    · by_cases hv : (handleOverlap D symbol x.1 d (netFacts D symbol).isNet
          (netFacts D symbol).isUWire (netFacts D symbol).isSingleDriverUDNT).2
      · simp [scanOverlaps, hp, hv, ih]
      · simp [scanOverlaps, hp, hv]
    · simp [scanOverlaps, hp, ih]

theorem orderedPairs_initializerDrivers : orderedPairs (initializerDrivers D symbol) = [] := by
  unfold initializerDrivers
  split <;> (try split) <;> rfl

theorem orderedPairs_storedDrivers (h : Stores D symbol) (subs : DriverList) :
    orderedPairs (storedDrivers D symbol subs) = orderedPairs (initializerDrivers D symbol ++ subs) := by
  by_cases hs : subs = []
  · simp [storedDrivers, hs, orderedPairs, orderedPairs_initializerDrivers]
  · simp [storedDrivers, h, hs]

theorem ingest_snd_of_not_stores (h : ¬ Stores D symbol) (subs : DriverList) :
    (ingest D allowDupInitialDrivers symbol subs).2 = [] := by
  induction subs using List.reverseRecOn with
  | nil => rfl
  | append_singleton subs e ih => simp [ingest_snd_append, ih, h]

theorem exists_errorPair_append_singleton (B : DriverList) (e : ValueDriver × DriverBitRange) :
    (∃ p ∈ orderedPairs (B ++ [e]), ErrorPair D allowDupInitialDrivers symbol p.1 p.2) ↔
      (∃ p ∈ orderedPairs B, ErrorPair D allowDupInitialDrivers symbol p.1 p.2) ∨
        ∃ r ∈ scanOverlaps D allowDupInitialDrivers symbol e.1 e.2
          (B.filter fun x => overlaps x.2 e.2), r.tolerated = false := by
  rw [scanOverlaps_error_iff]
  simp only [mem_orderedPairs_append_singleton, or_and_right, exists_or, List.mem_filter]
  refine or_congr Iff.rfl ⟨?_, ?_⟩
  · rintro ⟨⟨x, y⟩, ⟨hx, rfl⟩, ho, hp, hv⟩
    exact ⟨x, ⟨hx, ho⟩, hp, hv⟩
  · rintro ⟨x, ⟨hx, ho⟩, hp, hv⟩
    exact ⟨(x, e), ⟨hx, rfl⟩, ho, hp, hv⟩

theorem ingest_error_iff (subs : DriverList) :
    (∃ r ∈ (ingest D allowDupInitialDrivers symbol subs).2, r.tolerated = false) ↔
      ∃ p ∈ orderedPairs (storedDrivers D symbol subs),
        ErrorPair D allowDupInitialDrivers symbol p.1 p.2 := by
  by_cases h : Stores D symbol
  · simp only [orderedPairs_storedDrivers h]
    induction subs using List.reverseRecOn with
    | nil => simp [ingest, orderedPairs_initializerDrivers]
    | append_singleton subs e ih =>
      rw [ingest_snd_append, ← List.append_assoc, exists_errorPair_append_singleton, ← ih]
      simp only [h, ↓reduceIte, List.mem_append, or_and_right, exists_or]
  · simp [ingest_snd_of_not_stores h, storedDrivers, h, orderedPairs]

theorem toleratedReports_append (a b : List OverlapReport) :
    toleratedReports (a ++ b) = toleratedReports a ++ toleratedReports b :=
  List.filter_append _ _

theorem checkOverlap_of_plainNet (h : plainNet D symbol) : checkOverlap D symbol = false := by
  simp only [plainNet, Bool.and_eq_true, Bool.not_eq_true'] at h
  obtain ⟨⟨hn, hu⟩, hs⟩ := h
  have hk : D.kind symbol = .net := by simpa [netFacts] using hn
  simp [checkOverlap, hu, hs, hk, SymbolKind.isVariable]

theorem scanOverlaps_of_plainNet (h : plainNet D symbol) (d : ValueDriver) (b : DriverBitRange)
    (L : DriverList) :
    (toleratedReports (scanOverlaps D allowDupInitialDrivers symbol d b L)).map
        (fun r => (r.curr, r.driver)) =
      (L.filter fun x => x.1.isUnidirectionalPort ≠ d.isUnidirectionalPort).map (·, (d, b)) := by
  have hc := checkOverlap_of_plainNet h
  simp only [plainNet, Bool.and_eq_true, Bool.not_eq_true'] at h
  obtain ⟨⟨hn, hu⟩, hs⟩ := h
  induction L with
  | nil => rfl
  | cons x rest ih =>
    by_cases hp : x.1.isUnidirectionalPort = d.isUnidirectionalPort
    · simp [scanOverlaps, isProblem, hp, hc, ih]
    · have hport : portConflict true false false x.1 d = true := by
        cases hx : x.1.isUnidirectionalPort <;> cases hd : d.isUnidirectionalPort <;>
          simp_all [portConflict]
      have hv := handleOverlap_tolerated_report D symbol x.1 d true false false
      rw [hport, Bool.true_and, Bool.and_eq_true] at hv
      have hprob : isProblem (checkOverlap D symbol) (shouldIgnore allowDupInitialDrivers) x.1 d :=
        by simp [isProblem, hp]
      simp only [scanOverlaps, hprob, ↓reduceIte, hn, hu, hs, hv.2, toleratedReports,
        List.filter_cons, hv.1, Bool.and_self, List.map_cons]
      rw [← toleratedReports, ih]
      simp [hp]

theorem portConflict_and_isNet (isNet isUWire isSingleDriverUDNT : Bool) (c d : ValueDriver)
    (h : (isNet && !isUWire && !isSingleDriverUDNT) = false) :
    (portConflict isNet isUWire isSingleDriverUDNT c d && isNet) = false := by
  cases isNet <;> cases isUWire <;> cases isSingleDriverUDNT <;> simp_all [portConflict]

theorem toleratedReports_scanOverlaps (h : plainNet D symbol = false) (d : ValueDriver)
    (b : DriverBitRange) (L : DriverList) :
    toleratedReports (scanOverlaps D allowDupInitialDrivers symbol d b L) = [] := by
  rw [toleratedReports, List.filter_eq_nil_iff]
  intro r hr
  induction L with
  | nil => simp [scanOverlaps] at hr
  | cons x rest ih =>
    simp only [scanOverlaps] at hr
    split at hr
    · rcases List.mem_cons.mp hr with rfl | hr
      · rw [handleOverlap_tolerated_report, portConflict_and_isNet _ _ _ _ _ h]
        exact Bool.false_ne_true
      · split at hr
        · exact ih hr
        · simp at hr
    · exact ih hr

theorem ingest_toleratedReports (subs : DriverList) :
    ((toleratedReports (ingest D allowDupInitialDrivers symbol subs).2).map
        fun r => (r.curr, r.driver)).Perm
      (if Stores D symbol ∧ plainNet D symbol then
        (orderedPairs (initializerDrivers D symbol ++ subs)).filter
          fun p => overlaps p.1.2 p.2.2 && decide (p.1.1.isUnidirectionalPort ≠ p.2.1.isUnidirectionalPort)
      else []) := by
  induction subs using List.reverseRecOn with
  | nil => simp [ingest, toleratedReports, orderedPairs_initializerDrivers]
  | append_singleton subs e ih =>
    rw [ingest_snd_append, toleratedReports_append, List.map_append]
    by_cases hs : Stores D symbol
    · by_cases hp : plainNet D symbol
      · simp only [hs, hp, and_self, ↓reduceIte] at ih ⊢
        rw [scanOverlaps_of_plainNet hp, ← List.append_assoc, Prod.mk.eta]
        refine (ih.append_right _).trans ?_
        refine List.Perm.trans ?_ ((orderedPairs_append_singleton _ e).filter _).symm
        conv_rhs => rw [List.filter_append, List.filter_map]
        refine List.Perm.append_left _ (List.Perm.of_eq ?_)
        rw [List.filter_filter]
        congr 1
        exact List.filter_congr fun x _ => by simp [Bool.and_comm]
      · simp only [hs, hp, Bool.false_eq_true, and_false, ↓reduceIte] at ih ⊢
        rw [toleratedReports_scanOverlaps (by simpa using hp)]
        simpa [toleratedReports] using ih
    · simp only [hs, false_and, ↓reduceIte] at ih ⊢
      simpa [toleratedReports] using ih

theorem Perm.storedDrivers {subs subs' : DriverList} (h : subs.Perm subs') :
    (storedDrivers D symbol subs).Perm (storedDrivers D symbol subs') := by
  have hne : subs ≠ [] ↔ subs' ≠ [] := by
    rw [Ne, Ne, ← List.length_eq_zero, ← List.length_eq_zero, h.length_eq]
  unfold AddDriver.storedDrivers
  by_cases hs : Stores D symbol ∧ subs ≠ []
  · rw [if_pos hs, if_pos ⟨hs.1, hne.mp hs.2⟩]
    exact h.append_left _
  · rw [if_neg hs, if_neg fun h' => hs ⟨h'.1, hne.mpr h'.2⟩]

theorem Perm.ingest_verdicts {subs subs' : DriverList} (h : subs.Perm subs') :
    ((toleratedReports (ingest D allowDupInitialDrivers symbol subs).2).map
        fun r => Sym2.mk (r.curr, r.driver)).Perm
      ((toleratedReports (ingest D allowDupInitialDrivers symbol subs').2).map
        fun r => Sym2.mk (r.curr, r.driver)) ∧
      ((∃ r ∈ (ingest D allowDupInitialDrivers symbol subs).2, r.tolerated = false) ↔
        ∃ r ∈ (ingest D allowDupInitialDrivers symbol subs').2, r.tolerated = false) := by
  refine ⟨?_, ?_⟩
  · have hm : ∀ l : List OverlapReport, l.map (fun r => Sym2.mk (r.curr, r.driver)) =
        (l.map fun r => (r.curr, r.driver)).map Sym2.mk := fun l => by simp [Function.comp_def]
    rw [hm, hm]
    refine ((ingest_toleratedReports subs).map _).trans
      (List.Perm.trans ?_ ((ingest_toleratedReports subs').map _).symm)
    split
    · exact Perm.orderedPairs_sym2 (h.append_left _) _ fun x y => by
        dsimp only
        rw [overlaps_comm]
        simp only [ne_comm]
    · exact .nil
  · rw [ingest_error_iff, ingest_error_iff]
    have hs := @Perm.storedDrivers D symbol subs subs' h
    constructor
    · rintro ⟨p, hp, he⟩
      obtain ⟨q, hq, rfl | rfl⟩ := Perm.exists_orderedPairs hs hp
      · exact ⟨_, hq, he⟩
      · exact ⟨_, hq, errorPair_comm.mp he⟩
    · rintro ⟨p, hp, he⟩
      obtain ⟨q, hq, rfl | rfl⟩ := Perm.exists_orderedPairs hs.symm hp
      · exact ⟨_, hq, he⟩
      · exact ⟨_, hq, errorPair_comm.mp he⟩

end Verdicts

/-- Whether a symbol is reported as multiply driven does not depend on the order its drivers
are serialized in. Some insertion ends its scan with an error exactly when two stored drivers,
the initializer's included, overlap, form a problem and get an error from `handleOverlap`; and
the pairs reported as tolerated are the same for every order. -/
theorem multiple_driver_verdicts_order_independent (D : Design) (allowDupInitialDrivers : Bool)
    (symbol : Sym) :
    (∀ subs : DriverList,
      (∃ r ∈ (ingest D allowDupInitialDrivers symbol subs).2, r.tolerated = false) ↔
        ∃ p ∈ orderedPairs (storedDrivers D symbol subs),
          ErrorPair D allowDupInitialDrivers symbol p.1 p.2) ∧
    ∀ subs subs' : DriverList, subs.Perm subs' →
      ((toleratedReports (ingest D allowDupInitialDrivers symbol subs).2).map
          fun r => Sym2.mk (r.curr, r.driver)).Perm
        ((toleratedReports (ingest D allowDupInitialDrivers symbol subs').2).map
          fun r => Sym2.mk (r.curr, r.driver)) ∧
      ((∃ r ∈ (ingest D allowDupInitialDrivers symbol subs).2, r.tolerated = false) ↔
        ∃ r ∈ (ingest D allowDupInitialDrivers symbol subs').2, r.tolerated = false) :=
  ⟨ingest_error_iff, fun _ _ h => Perm.ingest_verdicts h⟩

end DriverTracker.OrderIndependence
