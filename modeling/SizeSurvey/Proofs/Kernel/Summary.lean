import SizeSurvey.Kernel.Summary
import SizeSurvey.Proofs.Distribution.Histogram
import SizeSurvey.Proofs.Distribution.Percentile
import SizeSurvey.Proofs.Kernel.Table
import SizeSurvey.Proofs.Ranking.Stability
import SizeSurvey.Proofs.Ranking.Totals
import SizeSurvey.Proofs.Size

/-! # Accounts of a kernel summary

Each kernel of a table is counted once in the numbers, in the histogram and in its family, whatever
is left out of the rankings and whichever sums stop at the largest size.
-/
namespace SizeSurvey

/-! ## Spread -/

theorem SizeSpread.exists_ofSorted? {sorted : List Size} (hne : sorted ≠ []) :
    ∃ spread, ofSorted? sorted = some spread ∧ spread.least = sorted.head hne ∧
      spread.greatest = sorted.getLast hne := by
  obtain ⟨median,hmedian⟩ := Percentile.exists_interpolated hne Percentile.isShare_half
  obtain ⟨p90,hp90⟩ := Percentile.exists_interpolated hne Percentile.isShare_nine_tenths
  obtain ⟨p99,hp99⟩ := Percentile.exists_interpolated hne Percentile.isShare_ninety_nine_hundredths
  refine ⟨⟨sorted.head hne,median.toUInt64,p90.toUInt64,p99.toUInt64,sorted.getLast hne⟩,?_,rfl,rfl⟩
  simp only [ofSorted?,List.head?_eq_some_head hne,List.getLast?_eq_some_getLast hne,hmedian,hp90,
    hp99]
  rfl

/-- A size that occurs, and that stands in a relation to all sizes. -/
def IsExtreme (before : Size → Size → Prop) (sizes : List Size) (size : Size) : Prop :=
  size ∈ sizes ∧ ∀ other ∈ sizes, before size other

theorem isExtreme_head {before : Size → Size → Prop} (hrefl : ∀ size, before size size)
    {sizes : List Size} (h : sizes.Pairwise before) (hne : sizes ≠ []) :
    IsExtreme before sizes (sizes.head hne) := by
  obtain ⟨first,rest,rfl⟩ := List.exists_cons_of_ne_nil hne
  exact ⟨List.mem_cons_self,
    List.forall_mem_cons.mpr ⟨hrefl first,(List.pairwise_cons.mp h).1⟩⟩

theorem IsExtreme.of_perm {before : Size → Size → Prop} {sizes others : List Size} {size : Size}
    (h : IsExtreme before sizes size) (hperm : sizes.Perm others) : IsExtreme before others size :=
  ⟨hperm.mem_iff.mp h.1,fun other hother => h.2 other (hperm.mem_iff.mpr hother)⟩

theorem pairwise_mergeSort_sizes (sizes : List Size) :
    (sizes.mergeSort fun a b => a ≤ b).Pairwise (· ≤ ·) := by
  refine (List.pairwise_mergeSort (fun a b c hab hbc => ?_) (fun a b => ?_) sizes).imp
    of_decide_eq_true
  · exact decide_eq_true (UInt64.le_trans (of_decide_eq_true hab) (of_decide_eq_true hbc))
  · rw [Bool.or_eq_true,decide_eq_true_eq,decide_eq_true_eq]
    exact UInt64.le_total a b

theorem SizeSpread.exists_extremes {sizes : List Size} (hne : sizes ≠ []) :
    ∃ spread, ofSorted? (sizes.mergeSort fun a b => a ≤ b) = some spread ∧
      IsExtreme (· ≤ ·) sizes spread.least ∧ IsExtreme (· ≥ ·) sizes spread.greatest := by
  have hperm := List.mergeSort_perm sizes fun a b => a ≤ b
  have hsorted := pairwise_mergeSort_sizes sizes
  have hsome : (sizes.mergeSort fun a b => a ≤ b) ≠ [] := fun h => hne (h ▸ hperm).nil_eq.symm
  obtain ⟨spread,hspread,hleast,hgreatest⟩ := exists_ofSorted? hsome
  refine ⟨spread,hspread,?_,?_⟩
  · rw [hleast]
    exact (isExtreme_head UInt64.le_refl hsorted hsome).of_perm hperm
  · have hreverse : (sizes.mergeSort fun a b => a ≤ b).reverse.Pairwise (· ≥ ·) :=
      List.pairwise_reverse.mpr hsorted
    have hlast := @isExtreme_head (· ≥ ·) (fun size => UInt64.le_refl size) _ hreverse
      (mt List.reverse_eq_nil_iff.mp hsome)
    rw [List.head_reverse] at hlast
    rw [hgreatest]
    exact hlast.of_perm ((List.reverse_perm _).trans hperm)

/-! ## Names that are cut -/

namespace Kernel
variable {budget : Nat} {name shown : String}

/-- What is shown of a name: all of it, or so many of its first characters and an ellipsis. -/
inductive Shows (budget : Nat) (name : String) : String → Prop
  | whole (hfits : name.length ≤ budget) : Shows budget name name
  | cut {kept : List Char} (hlonger : budget < name.length) (hkept : kept <+: name.toList)
      (hlength : kept.length = budget) : Shows budget name (String.ofList kept ++ "…")

theorem cutName_of_le (h : name.length ≤ budget) : cutName budget name = name :=
  if_neg (Nat.not_lt.mpr h)

theorem length_take_of_lt (h : budget < name.length) :
    (name.toList.take budget).length = budget := by
  rw [List.length_take,String.length_toList]
  exact Nat.min_eq_left h.le

theorem toList_cutName_of_lt (h : budget < name.length) :
    (cutName budget name).toList = name.toList.take budget ++ ['…'] := by
  rw [cutName,if_pos h,String.toList_append,String.toList_ofList]
  rfl

/-- **A name is cut only if it is too long,** and nothing else is shown of it. -/
theorem shows_iff : Shows budget name shown ↔ shown = cutName budget name := by
  constructor
  · intro h
    cases h with
    | whole hfits => exact (cutName_of_le hfits).symm
    | cut hlonger hkept hlength =>
      obtain ⟨rest,hrest⟩ := hkept
      rw [cutName,if_pos hlonger,← hrest,List.take_left' hlength]
  · rintro rfl
    by_cases hlonger : budget < name.length
    · rw [cutName,if_pos hlonger]
      exact Shows.cut hlonger (List.take_prefix budget name.toList) (length_take_of_lt hlonger)
    · have hfits := Nat.not_lt.mp hlonger
      rw [cutName_of_le hfits]
      exact Shows.whole hfits

theorem length_cutName_le (budget : Nat) (name : String) :
    (cutName budget name).length ≤ budget + 1 := by
  by_cases h : budget < name.length
  · rw [← String.length_toList,toList_cutName_of_lt h,List.length_append,List.length_take]
    exact Nat.add_le_add_right (Nat.min_le_left ..) 1
  · rw [cutName_of_le (Nat.not_lt.mp h)]
    exact Nat.le_succ_of_le (Nat.not_lt.mp h)

/-- A name that was cut stays as it is when it is cut once more. -/
theorem cutName_cutName (budget : Nat) (name : String) :
    cutName budget (cutName budget name) = cutName budget name := by
  by_cases h : budget < name.length
  · have hcut := toList_cutName_of_lt h
    have hlonger : budget < (cutName budget name).length := by
      rw [← String.length_toList,hcut,List.length_append,length_take_of_lt h]
      exact Nat.lt_succ_self budget
    apply String.toList_inj.mp
    rw [toList_cutName_of_lt hlonger,hcut,List.take_left' (length_take_of_lt h)]
  · rw [cutName_of_le (Nat.not_lt.mp h),cutName_of_le (Nat.not_lt.mp h)]

end Kernel

/-! ## Families -/

/-- What a family has among kernels. Its members are told by their full names. -/
def FamilyShare.of (kernels : List Kernel) (family : String) : FamilyShare :=
  let members := kernels.filter fun kernel => KernelFamily.ofName kernel.demangled = family
  ⟨family,Size.saturated (members.map (·.size)),members.length⟩

/-- The shares of all families in the order in which they first appear. -/
def FamilyShare.all (kernels : List Kernel) : List FamilyShare :=
  (kernels.map fun kernel => KernelFamily.ofName kernel.demangled).eraseDups.map (.of kernels)

namespace KernelSummary

theorem foldl_familySum (kernels : List Kernel) (start : FamilySum) :
    kernels.foldl (fun sum kernel => ⟨sum.bytes.plus kernel.size,sum.count + 1⟩) start =
      ⟨(kernels.map (·.size)).foldl Size.plus start.bytes,start.count + kernels.length⟩ := by
  induction kernels generalizing start with
  | nil => rfl
  | cons kernel rest ih =>
    rw [List.foldl_cons,ih,List.map_cons,List.foldl_cons,List.length_cons,Nat.add_right_comm,
      Nat.add_assoc]

/-- A kernel with the family of its full name. -/
def IsClassified (kernel : Kernel) : Prop :=
  kernel.family = KernelFamily.ofName kernel.demangled

theorem familyTally_eq {kernels : List Kernel} (h : ∀ kernel ∈ kernels, IsClassified kernel) :
    (familyTally kernels).entries.map (fun entry => ⟨entry.1,entry.2.bytes,entry.2.count⟩) =
      FamilyShare.all kernels := by
  have hnames : kernels.map (·.family) =
      kernels.map fun kernel => KernelFamily.ofName kernel.demangled :=
    List.map_congr_left h
  rw [familyTally,Tally.foldl_update_eq_gather,Tally.entries_gather,List.map_map,FamilyShare.all,hnames]
  refine List.map_congr_left fun name _ => ?_
  have hmembers : (kernels.filter fun kernel => kernel.family = name) =
      kernels.filter fun kernel => KernelFamily.ofName kernel.demangled = name :=
    List.filter_congr fun kernel hkernel => by rw [h kernel hkernel]
  simp only [Function.comp_apply,Tally.gathered,hmembers,foldl_familySum,FamilyShare.of,
    Nat.zero_add]
  rw [← Size.total_eq_saturated]
  rfl

/-- Whether a family appears before another one in the table. -/
def appearsBefore (kernels : List Kernel) (a b : FamilyShare) : Prop :=
  let names := kernels.map fun kernel => KernelFamily.ofName kernel.demangled
  names.idxOf a.family < names.idxOf b.family

theorem exists_families (settings : KernelSettings) {kernels : List Kernel}
    (h : ∀ kernel ∈ kernels, IsClassified kernel) :
    ∃ ranking, Ranks (fun share : FamilyShare => share.bytes.toNat) (appearsBefore kernels)
        (FamilyShare.all kernels) ranking ∧
      families settings kernels =
        ranking.take (min settings.topLimit settings.familyLimit).toNat := by
  refine ⟨_,⟨List.mergeSort_perm _ fun a b => b.bytes.toNat ≤ a.bytes.toNat,?_⟩,?_⟩
  · refine pairwise_precedes_mergeSort _ (fun a b => decide_eq_true_iff) ?_
    exact List.pairwise_map.mpr (pairwise_idxOf_eraseDups _)
  · have hmap : ((familyTally kernels).entries.mergeSort fun a b =>
        b.2.bytes.toNat ≤ a.2.bytes.toNat).map (fun entry => ⟨entry.1,entry.2.bytes,entry.2.count⟩) =
        ((familyTally kernels).entries.map fun entry =>
          (⟨entry.1,entry.2.bytes,entry.2.count⟩ : FamilyShare)).mergeSort
            fun a b => b.bytes.toNat ≤ a.bytes.toNat :=
      List.map_mergeSort fun a _ b _ => rfl
    rw [families,Tally.ranked,List.map_take,← familyTally_eq h,← hmap]

theorem exists_largest (settings : KernelSettings) (kernels : List Kernel) :
    ∃ ranking, Ranks (fun ranked : Kernel × Nat => ranked.1.size.toNat) (fun a b => a.2 < b.2)
        kernels.zipIdx ranking ∧
      largest settings kernels = (ranking.take settings.topLimit.toNat).map fun ranked =>
        { ranked.1 with
          demangled := Kernel.cutName settings.nameBudget.toNat ranked.1.demangled } := by
  obtain ⟨ranking,hranks,hsorted⟩ := ranksStably_sizes Kernel.size kernels
  refine ⟨ranking,hranks,?_⟩
  rw [largest,hsorted,← List.map_take,List.map_map]
  rfl

theorem count_families (kernels : List Kernel) :
    ((FamilyShare.all kernels).map (·.count)).sum = kernels.length := by
  have hcount : ∀ name, (FamilyShare.of kernels name).count =
      (kernels.map fun kernel => KernelFamily.ofName kernel.demangled).count name := by
    intro name
    rw [List.count,List.countP_map,List.countP_eq_length_filter]
    rfl
  have hsum := sum_count_eraseDups (kernels.map fun kernel => KernelFamily.ofName kernel.demangled)
  rw [← List.map_congr_left fun name _ => hcount name,List.length_map] at hsum
  rw [FamilyShare.all,List.map_map]
  exact hsum

theorem exists_shows_of_mem_largest (settings : KernelSettings) {kernels : List Kernel} :
    ∀ shown ∈ largest settings kernels, ∃ kernel ∈ kernels,
      Kernel.Shows settings.nameBudget.toNat kernel.demangled shown.demangled := by
  intro shown hshown
  obtain ⟨kernel,hkernel,rfl⟩ := List.mem_map.mp hshown
  exact ⟨kernel,List.mem_mergeSort.mp (List.mem_of_mem_take hkernel),Kernel.shows_iff.mpr rfl⟩
/-! ## The whole summary -/

/-- What a summary says about the kernels of a table, for which a demangler gave names. -/
structure Accounts (settings : KernelSettings) (image symbols : List UInt8) (demangled : List String)
    (kernels : List Kernel) (summary : KernelSummary) : Prop where
  /-- Each kernel has its own record, stored name and demangled name. -/
  parts : kernels.map
      (fun kernel => ((⟨kernel.offset,kernel.size⟩,kernel.mangled),kernel.demangled)) =
    ((KernelRecord.decode image).zip (kernelNames symbols)).zip demangled
  classified : ∀ kernel ∈ kernels, IsClassified kernel
  recordCount : summary.recordCount = (KernelRecord.decode image).length
  nameCount : summary.nameCount = (kernelNames symbols).length
  count : summary.count = kernels.length
  count_eq_min : summary.count = min summary.recordCount summary.nameCount
  unpairedRecords : summary.count + summary.pairing.unpairedRecords = summary.recordCount
  unpairedNames : summary.count + summary.pairing.unpairedNames = summary.nameCount
  totalBytes : summary.totalBytes = Size.saturated (kernels.map (·.size))
  least : IsExtreme (· ≤ ·) (kernels.map (·.size)) summary.spread.least
  greatest : IsExtreme (· ≥ ·) (kernels.map (·.size)) summary.spread.greatest
  histogram : (summary.histogram.map (·.count)).sum = summary.count
  topFamilies : ∃ ranking, Ranks (fun share : FamilyShare => share.bytes.toNat)
      (appearsBefore kernels) (FamilyShare.all kernels) ranking ∧
    summary.topFamilies = ranking.take (min settings.topLimit settings.familyLimit).toNat
  length_topFamilies : summary.topFamilies.length =
    min (min settings.topLimit settings.familyLimit).toNat (FamilyShare.all kernels).length
  count_topFamilies :
    (FamilyShare.all kernels).length ≤ (min settings.topLimit settings.familyLimit).toNat →
    (summary.topFamilies.map (·.count)).sum = summary.count
  topKernels : ∃ ranking, Ranks (fun ranked : Kernel × Nat => ranked.1.size.toNat)
      (fun a b => a.2 < b.2) kernels.zipIdx ranking ∧
    summary.topKernels = (ranking.take settings.topLimit.toNat).map fun ranked =>
      { ranked.1 with
        demangled := Kernel.cutName settings.nameBudget.toNat ranked.1.demangled }
  shownNames : ∀ shown ∈ summary.topKernels, ∃ kernel ∈ kernels,
    Kernel.Shows settings.nameBudget.toNat kernel.demangled shown.demangled

/-- The kernels of a table in its order. -/
def kernelsOf (image symbols : List UInt8) (demangled : List String) : List Kernel :=
  (((KernelRecord.decode image).zip (kernelNames symbols)).zip demangled).map fun entry =>
    Kernel.ofPair entry.1 entry.2

theorem isClassified_of_mem_kernelsOf {image symbols : List UInt8} {demangled : List String} :
    ∀ kernel ∈ kernelsOf image symbols demangled, IsClassified kernel := by
  intro kernel hkernel
  obtain ⟨entry,-,rfl⟩ := List.mem_map.mp hkernel
  rfl

/-- The names that a demangler is given for a table. -/
def identifiersOf (image symbols : List UInt8) : List String :=
  ((KernelRecord.decode image).zip (kernelNames symbols)).map fun pair =>
    KernelFamily.identifier pair.2

theorem length_kernelsOf {image symbols : List UInt8} {demangled : List String}
    (h : demangled.length = (identifiersOf image symbols).length) :
    (kernelsOf image symbols demangled).length =
      (KernelPairing.of (KernelRecord.decode image) (kernelNames symbols)).pairs.length := by
  rw [kernelsOf,List.length_map,List.length_zip,h,identifiersOf,List.length_map,Nat.min_self]
  rfl

variable {σ : Type} {demangle : Demangler (StateM σ)} {settings : KernelSettings}
  {image symbols : List UInt8} {world : σ} {summary : KernelSummary}

theorem run_decode :
    let pairing := KernelPairing.of (KernelRecord.decode image) (kernelNames symbols)
    let batch := ((demangle (identifiersOf image symbols)).run world).1
    ((decode demangle settings image symbols).run world).1 =
      if settings.strictPairing && pairing.isMismatched then
        .error (.pairingMismatch (KernelRecord.decode image).length (kernelNames symbols).length)
      else if pairing.pairs.isEmpty then .ok none
      else .ok (some (ofKernels settings (kernelsOf image symbols batch.names) batch.status
        (KernelRecord.decode image).length (kernelNames symbols).length pairing.report)) := by
  have hkernels : ∀ names, (KernelPairing.of (KernelRecord.decode image)
      (kernelNames symbols)).pairs.zipWith Kernel.ofPair names = kernelsOf image symbols names := by
    intro names
    rw [kernelsOf,List.map_zip_eq_zipWith]
    rfl
  simp only [decode,← hkernels]
  split
  next => rfl
  split
  next => rfl
  next => rfl

theorem eq_ofKernels_of_decode
    (h : ((decode demangle settings image symbols).run world).1 = .ok (some summary)) :
    let pairing := KernelPairing.of (KernelRecord.decode image) (kernelNames symbols)
    let batch := ((demangle (identifiersOf image symbols)).run world).1
    pairing.pairs ≠ [] ∧ summary = ofKernels settings (kernelsOf image symbols batch.names) batch.status
      (KernelRecord.decode image).length (kernelNames symbols).length pairing.report := by
  simp only [run_decode] at h
  split at h
  next => cases h
  split at h
  next => cases h
  next hpairs =>
    exact ⟨mt List.isEmpty_iff.mpr hpairs,(Option.some.inj (Except.ok.inj h)).symm⟩

/-- **A kernel summary accounts for every kernel once.** -/
theorem accounts_of_decode
    (hone : ∀ names world, ((demangle names).run world).1.names.length = names.length)
    (h : ((decode demangle settings image symbols).run world).1 = .ok (some summary)) :
    ∃ kernels, Accounts settings image symbols
      ((demangle (identifiersOf image symbols)).run world).1.names kernels summary := by
  obtain ⟨hpairs,rfl⟩ := eq_ofKernels_of_decode h
  have hnames := hone (identifiersOf image symbols) world
  -- From here on only the number of the demangled names counts.
  generalize ((demangle (identifiersOf image symbols)).run world).1 = batch at hnames
  have hpairing := KernelPairing.of_pairs (KernelRecord.decode image) (kernelNames symbols)
  have hlength := length_kernelsOf hnames
  have hsizes : (kernelsOf image symbols batch.names).map (·.size) ≠ [] := by
    rw [← List.length_pos_iff,List.length_map,hlength]
    exact List.length_pos_iff.mpr hpairs
  obtain ⟨spread,hspread,hleast,hgreatest⟩ := SizeSpread.exists_extremes hsizes
  obtain ⟨families,hranks,hfamilies⟩ :=
    exists_families settings (@isClassified_of_mem_kernelsOf image symbols batch.names)
  refine ⟨kernelsOf image symbols batch.names,?_⟩
  constructor
  case parts =>
    rw [kernelsOf,List.map_map]
    exact List.map_id _
  case classified => exact isClassified_of_mem_kernelsOf
  case recordCount => rfl
  case nameCount => rfl
  case count => rfl
  case count_eq_min => exact hlength.trans hpairing.length
  case unpairedRecords => exact (congrArg (· + _) hlength).trans hpairing.unpairedRecords
  case unpairedNames => exact (congrArg (· + _) hlength).trans hpairing.unpairedNames
  case totalBytes =>
    exact (Size.total_eq_saturated _).trans (Size.saturated_perm (List.mergeSort_perm ..))
  case least =>
    simp only [ofKernels,hspread]
    exact hleast
  case greatest =>
    simp only [ofKernels,hspread]
    exact hgreatest
  case histogram =>
    exact (Histogram.sum_counts_ofSizes ..).trans (List.length_map _)
  case topFamilies => exact ⟨families,hranks,hfamilies⟩
  case length_topFamilies =>
    refine (congrArg List.length hfamilies).trans ?_
    rw [List.length_take,hranks.perm.length_eq]
  case count_topFamilies =>
    intro hfew
    rw [← hranks.perm.length_eq] at hfew
    refine (congrArg (fun shares => (shares.map FamilyShare.count).sum) hfamilies).trans ?_
    rw [List.take_of_length_le hfew,(hranks.perm.map _).sum_nat]
    exact count_families _
  case topKernels => exact exists_largest settings _
  case shownNames => exact exists_shows_of_mem_largest settings

/-- A table of two kernels and one name too many, read with a demangler that changes nothing. -/
theorem accounts_of_decode_two :
    ∃ (image symbols : List UInt8) (summary : KernelSummary) (kernels : List Kernel),
      ((decode (fun names => pure (.complete names) : Demangler (StateM Unit)) {} image
        symbols).run ()).1 = .ok (some summary) ∧
      summary.recordCount = 2 ∧ summary.nameCount = 3 ∧ summary.count = 2 ∧
      Accounts {} image symbols ["daal::k","l"] kernels summary := by
  obtain ⟨image,himage⟩ : ∃ image, KernelRecord.decode image = [⟨0,100⟩,⟨100,700⟩] :=
    ⟨_,(@KernelRecord.IsTable.octets [⟨0,100⟩,⟨100,700⟩] [1,2,3] (by decide)).decode_eq⟩
  obtain ⟨symbols,hsymbols⟩ : ∃ symbols, kernelNames symbols = ["daal::k","l","m"] :=
    ⟨_,((IsNameTable.zeros 0).name "m" 0 |>.name "l" 0 |>.name "daal::k" 0).kernelNames_eq
      (by simp [IsKernelName])⟩
  have hidentifiers : identifiersOf image symbols = ["daal::k","l"] := by
    rw [identifiersOf,himage,hsymbols]
    rfl
  have hdecode := @run_decode _ (fun names => pure (.complete names)) {} image symbols ()
  simp only [himage,hsymbols] at hdecode
  obtain ⟨kernels,haccounts⟩ := accounts_of_decode (fun _ _ => rfl) hdecode
  refine ⟨image,symbols,_,kernels,hdecode,rfl,rfl,haccounts.count_eq_min,?_⟩
  exact hidentifiers ▸ haccounts

end KernelSummary

end SizeSurvey
