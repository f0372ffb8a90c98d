import DriverTracker.Elaboration

namespace DriverTracker.Retarget

open DriverTracker.Syntax DriverTracker.Driver DriverTracker.Elaboration

/-- A violated precondition of `std::span`: an element access or a `subspan` out of range. -/
inductive SpanFault where
  | index (i size : Nat)
  | subspan (offset count size : Nat)
  deriving DecidableEq, Repr

def dynamicExtent : Nat := (-1 : BitVec 64).toNat

/-- `size_t(x)` for an `int32_t` `x`. -/
def sizeT (x : BitVec 32) : Nat := (x.signExtend 64).toNat

/-- `span[i]`, with its precondition checked. -/
def spanAt (elems : List Sym) (i : Nat) : Except SpanFault Sym :=
  match elems.get? i with
  | some s => .ok s
  | none => .error (.index i elems.length)

/-- `span.subspan(offset, count)`, with its precondition checked. -/
def subspan (elems : List Sym) (offset count : Nat) : Except SpanFault (List Sym) :=
  if offset ≤ elems.length ∧ (count = dynamicExtent ∨ count ≤ elems.length - offset) then
    .ok (if count = dynamicExtent then elems.drop offset else (elems.drop offset).take count)
  else .error (.subspan offset count elems.length)

section Walk

variable (D : Design)

/-- The `while` loop that follows interface ports to what they connect to; the fuel is the
depth of the port, which its connections strictly decrease. -/
def followConnections : Nat → Option Sym → Option Sym → Option Sym × Option Sym
  | fuel + 1, some s, modport =>
    if D.kind s = .interfacePort then followConnections fuel (D.connection s).1 (D.connection s).2
    else (some s, modport)
  | _, symbol, modport => (symbol, modport)

structure WalkState where
  symbol : Option Sym
  modport : Option Sym
  instanceArrayElems : Option (List Sym)
  deriving DecidableEq, Repr

/-- The part of an iteration before the selector is read: descend into an instance (and its
pending modport), or start selecting from an instance array. `none` returns not-found; a
modport its instance's body lacks fails an assertion of the code and is taken as not-found. -/
def enterSymbol (symbol : Sym) (modport : Option Sym) :
    Option (Sym × Option Sym × Option (List Sym)) :=
  if D.kind symbol = .«instance» then
    let body := D.body symbol
    if D.definitionKind body = .module then none
    else match modport with
      | some mp => (D.find body (D.name mp)).map fun s => (s, none, none)
      | none => some (body, none, none)
  else if D.kind symbol = .instanceArray then some (symbol, modport, some (D.elements symbol))
  else if !D.isScope symbol then none
  else some (symbol, modport, none)

/-- A name looked up in a scope, falling through a modport to its parent scope when the name
there is not one a modport may list. `none` returns not-found. -/
def lookupName (symbol : Sym) (name : String) : Option (Option Sym) :=
  match D.find symbol name with
  | some next => some (some next)
  | none =>
    if D.kind symbol = .modport then
      match D.find (D.parentScope symbol) name with
      | some next =>
        if D.isAllowedInModport (D.kind next) || D.kind next = .modport then none
        else some (some next)
      | none => none
    else some none

/-- One iteration of the walk over the reference's path: `.ok none` returns not-found. -/
def walkStep (st : WalkState) (elem : PathElem) : Except SpanFault (Option WalkState) :=
  let (symbol, modport) :=
    followConnections D ((st.symbol.map D.depth).getD 0 + 1) st.symbol st.modport
  match symbol with
  | none => .ok none
  | some symbol =>
    let entered := match st.instanceArrayElems with
      | some elems => some (symbol, modport, some elems)
      | none => enterSymbol D symbol modport
    match entered with
    | none => .ok none
    | some (symbol, modport, elems) =>
      match elem.selector with
      | .index i =>
        match elems with
        | some elems =>
          if i.toInt < 0 ∨ elems.length ≤ sizeT i then .ok none
          else (spanAt elems (sizeT i)).map fun s => some ⟨some s, modport, none⟩
        | none =>
          if D.kind symbol = .generateBlockArray then
            let entries := D.generateEntries symbol
            if !D.generateValid symbol ∨ i.toInt < 0 ∨ entries.length ≤ sizeT i then .ok none
            else (spanAt entries (sizeT i)).map fun s => some ⟨some s, modport, none⟩
          else .ok none
      | .range first second =>
        match elems with
        | none => .ok none
        | some elems =>
          if first.toInt < 0 ∨ elems.length ≤ sizeT second then .ok none
          else if elems.length ≤ sizeT first ∨ elems.length ≤ sizeT second then .ok none
          else (subspan elems (sizeT first) ((second - first).signExtend 64 + 1).toNat).map
            fun sub => some ⟨some symbol, modport, some sub⟩
      | .name n =>
        match lookupName D symbol n with
        | none => .ok none
        | some next => .ok (some ⟨next, modport, none⟩)

def walk : List PathElem → WalkState → Except SpanFault (Option Sym)
  | [], st => .ok st.symbol
  | elem :: rest, st =>
    match walkStep D st elem with
    | .error f => .error f
    | .ok none => .ok none
    | .ok (some st') => walk rest st'

/-- Look up, in a non-canonical instance, the symbol that a reference through one of its
canonical body's interface ports names there. -/
def retargetIfacePort (ref : HierarchicalReference) (base : Sym) : Except SpanFault (Option Sym) :=
  if !ref.viaIfacePort || ref.target.isNone then .ok none
  else match ref.path with
    | [] => .ok none
    | first :: rest =>
      match D.findPort (D.body base) (D.name first.symbol) with
      | none => .ok none
      | some port => walk D rest ⟨some port, none, none⟩

end Walk



def portOnArray : Design :=
  { Design.plain with
    kind := fun s => if s = 3 then .interfacePort else if s = 4 then .instanceArray else .other
    name := fun s => if s = 3 ∨ s = 6 then "p" else ""
    body := fun _ => 2
    findPort := fun b n => if b = 2 ∧ n = "p" then some 3 else none
    connection := fun s => if s = 3 then (some 4, none) else (none, none)
    elements := fun s => if s = 4 then [10, 11, 12, 13] else []
    depth := fun s => if s = 3 then 1 else 0
    connection_depth := fun p q h => by
      by_cases hp : p = 3 <;> simp_all
      subst h
      decide
    connectionExpr_depth := fun _ _ _ _ h => nomatch h }

def reversedRangeRef : HierarchicalReference :=
  { path := [⟨6, .name "p"⟩, ⟨4, .range 3 0⟩, ⟨10, .name "x"⟩], target := some 99,
    viaIfacePort := true }

/-- Both endpoints of the range `[3:0]` pass the checks, and its count `size_t(0 - 3) + 1` wraps
to 2^64 - 2, so the walk takes `subspan(3, 2^64 - 2)` of a span of 4. -/
theorem retargetIfacePort_reversed_range_subspan :
    retargetIfacePort portOnArray reversedRangeRef 1 =
      .error (.subspan 3 (-2 : BitVec 64).toNat 4) := by
  rfl

section Faults

variable {D : Design}

theorem map_eq_error {α β : Type} {x : Except SpanFault α} {g : α → β} {f : SpanFault}
    (h : x.map g = .error f) : x = .error f := by
  cases x <;> simp_all [Except.map]

theorem spanAt_error {elems : List Sym} {i : Nat} {f : SpanFault} (h : spanAt elems i = .error f) :
    elems.length ≤ i := by
  unfold spanAt at h
  split at h
  · cases h
  · rename_i hi
    exact List.get?_eq_none.1 hi

theorem subspan_error {elems : List Sym} {offset count : Nat} {f : SpanFault}
    (h : subspan elems offset count = .error f) : f = .subspan offset count elems.length := by
  unfold subspan at h
  split_ifs at h
  cases h
  rfl

theorem walkStep_error {st : WalkState} {elem : PathElem} {f : SpanFault}
    (h : walkStep D st elem = .error f) : ∃ offset count size, f = .subspan offset count size := by
  unfold walkStep at h
  repeat' (first | split at h | dsimp only at h)
  all_goals first
    | cases h
    | exact ⟨_, _, _, subspan_error (map_eq_error h)⟩
    | exact absurd (spanAt_error (map_eq_error h)) (by omega)

theorem walk_error {path : List PathElem} {st : WalkState} {f : SpanFault}
    (h : walk D path st = .error f) : ∃ offset count size, f = .subspan offset count size := by
  induction path generalizing st with
  | nil => cases h
  | cons elem rest ih =>
    unfold walk at h
    split at h
    · rename_i f' hstep
      cases h
      exact walkStep_error hstep
    · cases h
    · exact ih h

/-- `retargetIfacePort` breaks no precondition of an element access: every fault it meets is a
`subspan` of a range select. -/
theorem retargetIfacePort_faults_at_subspan {ref : HierarchicalReference} {base : Sym} {f : SpanFault}
    (h : retargetIfacePort D ref base = .error f) :
    ∃ offset count size, f = .subspan offset count size := by
  unfold retargetIfacePort at h
  split at h
  · cases h
  · split at h
    · cases h
    · split at h
      · cases h
      · exact walk_error h

theorem retargetIfacePort_faults_at_subspan_reversed :
    retargetIfacePort portOnArray reversedRangeRef 1 = .error (.subspan 3 (-2 : BitVec 64).toNat 4) ∧
      ∃ offset count size, SpanFault.subspan 3 (-2 : BitVec 64).toNat 4 = .subspan offset count size :=
  have h : retargetIfacePort portOnArray reversedRangeRef 1 =
      .error (.subspan 3 (-2 : BitVec 64).toNat 4) := by rfl
  ⟨h, retargetIfacePort_faults_at_subspan h⟩

/-- The loop over interface ports, given the port's depth as fuel, ends at a symbol that is
not an interface port, or at none. -/
theorem followConnections_exits {fuel : Nat} {symbol s : Sym} {modport m : Option Sym}
    (hfuel : D.depth symbol < fuel)
    (h : followConnections D fuel (some symbol) modport = (some s, m)) :
    D.kind s ≠ .interfacePort := by
  induction fuel generalizing symbol modport with
  | zero => omega
  | succ fuel ih =>
    rw [followConnections] at h
    split_ifs at h with hk
    · cases hc : (D.connection symbol).1 with
      | none =>
        rw [hc] at h
        cases fuel <;> simp [followConnections] at h
      | some q =>
        rw [hc] at h
        exact ih (by have := D.connection_depth symbol q hc; omega) h
    · cases h
      exact hk

theorem followConnections_exits_portOnArray :
    portOnArray.depth 3 < 2 ∧ followConnections portOnArray 2 (some 3) none = (some 4, none) ∧
      portOnArray.kind 4 ≠ .interfacePort :=
  have hd : portOnArray.depth 3 < 2 := by decide
  have h : followConnections portOnArray 2 (some 3) none = (some 4, none) := by decide
  ⟨hd, h, followConnections_exits hd h⟩

theorem sizeT_eq (x : BitVec 32) :
    sizeT x = if 2 * x.toNat < 4294967296 then x.toNat else x.toNat + 18446744069414584320 := by
  unfold sizeT BitVec.signExtend
  rw [BitVec.toNat_ofInt, BitVec.toInt_eq_toNat_cond]
  have := x.isLt
  split_ifs <;> omega

theorem sizeT_of_nonneg {x : BitVec 32} (h : 0 ≤ x.toInt) : (sizeT x : Int) = x.toInt := by
  rw [sizeT_eq, BitVec.toInt_eq_toNat_cond] at *
  split_ifs at * <;> omega

theorem sizeT_of_neg {x : BitVec 32} (h : x.toInt < 0) : 9223372036854775808 ≤ sizeT x := by
  have := x.isLt
  rw [sizeT_eq, BitVec.toInt_eq_toNat_cond] at *
  split_ifs at * <;> omega

theorem rangeCount_of_nonneg {first second : BitVec 32} (hf : 0 ≤ first.toInt) (hs : 0 ≤ second.toInt) :
    (((second - first).signExtend 64 + 1).toNat : Int) =
      (second.toInt - first.toInt + 1) % 18446744073709551616 := by
  rw [BitVec.toNat_add, BitVec.signExtend, BitVec.toNat_ofInt, BitVec.toInt_sub]
  have := BitVec.toInt_eq_toNat_cond first
  have := BitVec.toInt_eq_toNat_cond second
  have := first.isLt
  have := second.isLt
  have h1 : (1 : BitVec 64).toNat = 1 := rfl
  rw [h1, Int.bmod_def]
  split_ifs at * <;> omega

end Faults

end DriverTracker.Retarget
