import SizeSurvey.Proofs.Listing.SymbolTable

/-! # Rows that are paired by position

A demangled listing of as many rows as the mangled one gives its names row by row, without a batch call. What
else stands in its rows is not looked at, so a listing in another order takes names to other symbols.
-/
namespace SizeSurvey.ResolvedSymbols
open Listing

/-- Each row under the name from the same position of a listing. -/
def paired (rows listed : List SymbolRow) : ResolvedSymbols where
  symbols := rows.zipWith (fun row other => .ofKind row.name other.name row.kind row.size) listed
  demangling := .demangled

/-- A listing that is paired with the rows. -/
def IsPaired (rows listed : List SymbolRow) : Prop :=
  rows ≠ [] ∧ listed.length = rows.length

/-- At some position the rows of two listings cannot be those of one symbol. -/
def IsMisordered (rows listed : List SymbolRow) : Prop :=
  ∃ pair ∈ rows.zip listed, pair.1.kind ≠ pair.2.kind ∨ pair.1.size ≠ pair.2.size

instance (rows listed : List SymbolRow) : Decidable (IsPaired rows listed) :=
  inferInstanceAs (Decidable (_ ∧ _))

instance (rows listed : List SymbolRow) : Decidable (IsMisordered rows listed) :=
  inferInstanceAs (Decidable (∃ pair ∈ rows.zip listed, _))

variable {rows listed : List SymbolRow}

/-! ## Names of a batch -/

section Batches
variable {batch batch' : DemangledBatch}

theorem demangled_ofNames (h : batch.names.length = rows.length) :
    (ofNames rows batch).symbols.map (·.demangled) = batch.names := by
  rw [ofNames,List.map_zipWith,← List.map_uncurry_zip_eq_zipWith]
  exact List.map_snd_zip (Nat.le_of_eq h)

theorem ofNames_inj (h : batch.names.length = rows.length) (h' : batch'.names.length = rows.length) :
    ofNames rows batch = ofNames rows batch' ↔ batch = batch' := by
  refine ⟨fun heq => ?_,congrArg _⟩
  have hnames : batch.names = batch'.names := by
    rw [← demangled_ofNames h,heq,demangled_ofNames h']
  have hstatus : batch.status = batch'.status := congrArg ResolvedSymbols.demangling heq
  rw [DemangledBatch.mk.injEq]
  exact ⟨hnames,hstatus⟩

end Batches

/-! ## Names of a listing -/

theorem ofNames_complete (rows listed : List SymbolRow) :
    ofNames rows (.complete (listed.map (·.name))) = paired rows listed := by
  rw [ofNames,DemangledBatch.complete,List.zipWith_map_right]
  rfl

theorem isPaired_iff :
    (!listed.isEmpty && listed.length == rows.length) = true ↔ IsPaired rows listed := by
  have hempty : listed.length = rows.length → (listed = [] ↔ rows = []) := fun h => by
    rw [← List.length_eq_zero_iff,← List.length_eq_zero_iff,h]
  rw [Bool.and_eq_true,Bool.not_eq_true',beq_iff_eq,List.isEmpty_eq_false_iff]
  exact and_congr_left fun h => not_congr (hempty h)

theorem listedNames?_eq (rows listed : List SymbolRow) :
    listedNames? rows (some listed) =
      if IsPaired rows listed then some (listed.map (·.name)) else none :=
  ite_congr (propext isPaired_iff) (fun _ => rfl) fun _ => rfl

theorem resolve_eq {m : Type → Type} [Monad m] (demangle : Demangler m) (rows listed : List SymbolRow) :
    resolve demangle rows (some listed) =
      if IsPaired rows listed then pure (paired rows listed)
      else do return ofNames rows (← demangle (rows.map (·.name))) := by
  rw [resolve,listedNames?_eq]
  by_cases h : IsPaired rows listed
  · rw [if_pos h,if_pos h]
    exact congrArg pure (ofNames_complete rows listed)
  · rw [if_neg h,if_neg h]

theorem IsMisordered.exists_symbol (h : IsMisordered rows listed) :
    ∃ symbol ∈ (paired rows listed).symbols, ∃ other ∈ listed, symbol.demangled = other.name ∧
      (symbol.kind ≠ other.kind ∨ symbol.size ≠ other.size) := by
  obtain ⟨⟨row,other⟩,hmem,hdiffer⟩ := h
  refine ⟨.ofKind row.name other.name row.kind row.size,?_,other,(List.of_mem_zip hmem).2,rfl,hdiffer⟩
  rw [paired,← List.map_uncurry_zip_eq_zipWith]
  exact List.mem_map.mpr ⟨_,hmem,rfl⟩

section Resolve
variable {σ : Type}

/-- **Listings are paired by their length:** a listing of as many rows, at least one, is paired row by row
without a call, and any other one leads to a batch call on the mangled names. If a paired listing is misordered,
a symbol has a name from a row of another kind or size. A call that gives a name for each row leads to the same
if and only if it gives the very names of the listing. -/
theorem resolve_by_position (demangle : Demangler (StateM σ)) (rows listed : List SymbolRow) (world : σ) :
    let call := (demangle (rows.map (·.name))).run world
    let resolved := (resolve demangle rows (some listed)).run world
    (¬IsPaired rows listed → resolved = (ofNames rows call.1,call.2)) ∧
      (IsPaired rows listed → resolved = (paired rows listed,world) ∧
        (IsMisordered rows listed → ∃ symbol ∈ resolved.1.symbols, ∃ other ∈ listed,
          symbol.demangled = other.name ∧ (symbol.kind ≠ other.kind ∨ symbol.size ≠ other.size)) ∧
        (call.1.names.length = rows.length →
          (resolved.1 = ofNames rows call.1 ↔ call.1 = .complete (listed.map (·.name))))) := by
  intro call resolved
  have hresolved := resolve_eq demangle rows listed
  refine ⟨fun h => ?called,fun h => ?paired⟩
  case called =>
    rw [if_neg h] at hresolved
    exact congrArg (·.run world) hresolved
  case paired =>
    rw [if_pos h] at hresolved
    have hpaired : resolved = (paired rows listed,world) := congrArg (·.run world) hresolved
    have hlisted : (DemangledBatch.complete (listed.map (·.name))).names.length = rows.length :=
      (List.length_map _).trans h.2
    rw [hpaired]
    refine ⟨rfl,IsMisordered.exists_symbol,fun hcall => ?_⟩
    -- The listing is a batch too, and batches of equal symbols are equal.
    rw [← ofNames_complete]
    exact (ofNames_inj hlisted hcall).trans eq_comm

end Resolve

/-- Two functions are listed the other way round. Nothing is called, and each has the name of the other one. -/
theorem resolve_by_position_swapped :
    let rows : List SymbolRow := [⟨"_Z1fv",'T',4⟩,⟨"_Z1gv",'T',8⟩]
    let listed : List SymbolRow := [⟨"g()",'T',8⟩,⟨"f()",'T',4⟩]
    let demangle : Demangler (StateM Nat) := fun _ calls => (.complete ["f()","g()"],calls + 1)
    let resolved := (resolve demangle rows (some listed)).run 0
    (IsPaired rows listed ∧ IsMisordered rows listed) ∧ resolved = (paired rows listed,0) ∧
      resolved.1 ≠ ofNames rows (.complete ["f()","g()"]) := by
  intro rows listed demangle resolved
  have hpaired : IsPaired rows listed := by decide
  have hmisordered : IsMisordered rows listed := by decide
  obtain ⟨hresolved,-,hcall⟩ := (resolve_by_position demangle rows listed 0).2 hpaired
  exact ⟨⟨hpaired,hmisordered⟩,hresolved,mt (hcall rfl).mp (by decide)⟩

/-- A function has the name of a variable. -/
theorem resolve_misordered :
    let rows : List SymbolRow := [⟨"_Z1fv",'T',4⟩,⟨"data",'D',8⟩]
    let listed : List SymbolRow := [⟨"data",'D',8⟩,⟨"f()",'T',4⟩]
    let demangle : Demangler Id := fun _ => .complete ["f()","data"]
    IsPaired rows listed ∧ IsMisordered rows listed ∧
      (resolve demangle rows (some listed)).run ≠ ofNames rows (demangle (rows.map (·.name))).run := by
  intro rows listed demangle
  exact ⟨by decide,by decide,by decide⟩

end SizeSurvey.ResolvedSymbols
