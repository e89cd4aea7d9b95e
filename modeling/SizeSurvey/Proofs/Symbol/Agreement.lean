import Mathlib.Algebra.BigOperators.Group.List.Basic
import Mathlib.Algebra.Order.BigOperators.Group.List
import Mathlib.Algebra.Order.Ring.Nat
import SizeSurvey.Proofs.Symbol.StaticPasses

/-! # Breakdowns that agree

The sort of a symbol and its region are told from its kind by two separate rules, and both feed
breakdowns of their own. Each breakdown divides the same symbols, and a sort of entity has just the
symbols of its regions, so that the numbers of one breakdown can be checked against the others.
-/
namespace SizeSurvey

/-! ## Entities and regions -/

/-- The sort of entity that takes bytes of a region. -/
def Region.entity : Region → Entity
  | .text => .function
  | .rodata => .object
  | .rwdata => .object
  | .bss => .object
  | .common => .object
  | .absolute => .unknown
  | .other => .unknown

def Entity.regions : Entity → List Region
  | .function => [.text]
  | .object => [.rodata,.rwdata,.bss,.common]
  | .unknown => [.absolute,.other]

theorem Entity.ofKind_eq (kind : Char) : Entity.ofKind kind = (Region.ofKind kind).entity := by
  unfold Entity.ofKind Region.ofKind
  generalize Text.toAsciiUpper kind = code
  split
  case h_9 => split <;> first | rfl | contradiction
  all_goals rfl

theorem Region.name_inj {a b : Region} : a.name = b.name ↔ a = b := by
  cases a <;> cases b <;> decide

theorem Entity.name_inj {a b : Entity} : a.name = b.name ↔ a = b := by
  cases a <;> cases b <;> decide

def Symbol.IsClassified (symbol : Symbol) : Prop :=
  symbol.entity = symbol.region.entity

theorem Symbol.isClassified_ofKind (name demangled : String) (kind : Char) (size : Size) :
    (Symbol.ofKind name demangled kind size).IsClassified :=
  Entity.ofKind_eq kind

/-! ## Totals that are not cut off -/

section Totals
variable {symbols : List Symbol} {amount : Symbol → Size}

theorem toNat_total_filter (h : (symbols.map fun symbol => (amount symbol).toNat).sum < UInt64.size)
    (concerned : Symbol → Bool) :
    (Size.total ((symbols.filter concerned).map amount)).toNat =
      ((symbols.filter concerned).map fun symbol => (amount symbol).toNat).sum := by
  rw [Size.total_eq_saturated,Size.toNat_saturated_filter h]

theorem sum_totalsBy (h : (symbols.map fun symbol => (amount symbol).toNat).sum < UInt64.size)
    (key : Symbol → String) :
    (totalsBy key amount symbols).sum = (symbols.map fun symbol => (amount symbol).toNat).sum := by
  rw [totalsBy]
  exact NameMap.sum_tabulate fun name _ => toNat_total_filter h _

theorem amountAt_totalsBy (h : (symbols.map fun symbol => (amount symbol).toNat).sum < UInt64.size)
    (key : Symbol → String) (name : String) :
    (totalsBy key amount symbols).amountAt name =
      ((symbols.filter fun symbol => key symbol = name).map fun symbol => (amount symbol).toNat).sum := by
  rw [← toNat_total_filter h,NameMap.amountAt,get?_totalsBy]
  split
  next => rfl
  next habsent =>
    have hnone : symbols.filter (fun symbol => key symbol = name) = [] := by
      simpa [List.filter_eq_nil_iff] using habsent
    rw [hnone]
    rfl

end Totals

/-! ## The symbols of an entity -/

/-- Of the regions of an entity just one takes a symbol of that entity. -/
theorem Entity.sum_regions (entity : Entity) (region : Region) (amount : Nat) :
    (entity.regions.map fun held => if region = held then amount else 0).sum =
      if region.entity = entity then amount else 0 := by
  cases entity <;> cases region <;> simp [Entity.regions,Region.entity]

theorem sum_filter_entity {symbols : List Symbol} (h : ∀ symbol ∈ symbols, symbol.IsClassified)
    (amount : Symbol → Nat) (entity : Entity) :
    ((symbols.filter fun symbol => symbol.entity.name = entity.name).map amount).sum =
      (entity.regions.map fun region =>
        ((symbols.filter fun symbol => symbol.region.name = region.name).map amount).sum).sum := by
  induction symbols with
  | nil => simp
  | cons symbol rest ih =>
    obtain ⟨hsymbol,hrest⟩ := List.forall_mem_cons.mp h
    have hentity : symbol.entity = symbol.region.entity := hsymbol
    have hstep := entity.sum_regions symbol.region (amount symbol)
    simp only [sum_filter_cons,List.sum_map_add,decide_eq_true_eq,Region.name_inj,
      Entity.name_inj] at ih ⊢
    rw [hstep,hentity,ih hrest]

theorem amountAt_entity {symbols : List Symbol} {amount : Symbol → Size}
    (h : (symbols.map fun symbol => (amount symbol).toNat).sum < UInt64.size)
    (hclassified : ∀ symbol ∈ symbols, symbol.IsClassified) (entity : Entity) :
    (totalsBy (·.entity.name) amount symbols).amountAt entity.name =
      (entity.regions.map fun region =>
        (totalsBy (·.region.name) amount symbols).amountAt region.name).sum := by
  simp only [amountAt_totalsBy h]
  exact sum_filter_entity hclassified _ entity

namespace StaticSummary

def breakdowns (summary : StaticSummary) : List Breakdown :=
  [summary.byBinding,summary.byKind,summary.byRegion,summary.byEntity]

/-- Every breakdown is of all defined symbols and of the same bytes, and an entity has what its
regions have together. -/
structure Agrees (summary : StaticSummary) (bytes : Nat) : Prop where
  counts : ∀ breakdown ∈ summary.breakdowns, breakdown.counts.sum = summary.defined.toNat
  sizes : ∀ breakdown ∈ summary.breakdowns, breakdown.sizes.sum = bytes
  entityCounts : ∀ entity : Entity, summary.byEntity.counts.amountAt entity.name =
    (entity.regions.map fun region => summary.byRegion.counts.amountAt region.name).sum
  entitySizes : ∀ entity : Entity, summary.byEntity.sizes.amountAt entity.name =
    (entity.regions.map fun region => summary.byRegion.sizes.amountAt region.name).sum

theorem agrees_ofSymbols (limit : Nat) {symbols : List Symbol} (hlen : symbols.length < UInt64.size)
    (hclassified : ∀ symbol ∈ symbols, symbol.IsClassified)
    (hbytes : ((symbols.filter Symbol.isDefined).map fun symbol => symbol.size.toNat).sum <
      UInt64.size) :
    (ofSymbols limit symbols).Agrees
      ((symbols.filter Symbol.isDefined).map fun symbol => symbol.size.toNat).sum := by
  rw [ofSymbols_eq limit hlen]
  generalize hdefined : symbols.filter Symbol.isDefined = defined at hbytes
  have hcount : defined.length < UInt64.size :=
    Nat.lt_of_le_of_lt (hdefined ▸ List.length_filter_le ..) hlen
  have hregions : ∀ symbol ∈ defined, symbol.IsClassified := fun symbol hsymbol =>
    hclassified symbol (List.mem_of_mem_filter (hdefined ▸ hsymbol))
  have hones : (defined.map fun _ => (1 : Size).toNat).sum = defined.length := by simp
  -- Counts are totals in which every symbol weighs one.
  have hcounts : ∀ key, (Breakdown.ofPass key defined).counts = totalsBy key (fun _ => 1) defined :=
    fun key => (totalsBy_one hcount key).symm
  have hpasses : ∀ breakdown ∈ (ofPasses limit symbols).breakdowns,
      ∃ key, breakdown = .ofPass key defined := by
    simp only [breakdowns,ofPasses,hdefined]
    grind
  constructor
  case counts =>
    intro breakdown hmem
    obtain ⟨key,rfl⟩ := hpasses breakdown hmem
    rw [hcounts,sum_totalsBy (hones.trans_lt hcount),hones]
    simp only [ofPasses,hdefined]
    exact (UInt64.toNat_ofNat_of_lt' hcount).symm
  case sizes =>
    intro breakdown hmem
    obtain ⟨key,rfl⟩ := hpasses breakdown hmem
    exact sum_totalsBy hbytes key
  case entityCounts =>
    intro entity
    simp only [ofPasses,hdefined,hcounts]
    exact amountAt_entity (hones.trans_lt hcount) hregions entity
  case entitySizes =>
    intro entity
    simp only [ofPasses,hdefined]
    exact amountAt_entity hbytes hregions entity

end StaticSummary

end SizeSurvey
