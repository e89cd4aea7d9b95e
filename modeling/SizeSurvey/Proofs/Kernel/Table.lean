import Mathlib.Algebra.Ring.Nat
import SizeSurvey.Kernel.Table
import SizeSurvey.Proofs.Text.Cutting
import SizeSurvey.Proofs.Text.Utf8

/-! # Kernel tables that were written

Records and names that were put into the two sections come back in order, so that the record of a
kernel meets the name of the same kernel. Octets that nobody has written are read piece by piece,
and no name that is read is empty or holds a NUL.
-/
namespace SizeSurvey
open Text (splitAt_append splitAt_of_not_mem not_mem_of_mem_splitAt)

/-! ## Records -/
namespace KernelRecord

/-- So many octets of a number, the low one first. -/
def octetsOf : Nat → Nat → List UInt8
  | 0, _ => []
  | count + 1, n => UInt8.ofNat (n % 256) :: octetsOf count (n / 256)

theorem length_octetsOf (count n : Nat) : (octetsOf count n).length = count := by
  induction count generalizing n with
  | zero => rfl
  | succ count ih => rw [octetsOf,List.length_cons,ih]

theorem littleEndian_octetsOf (count n : Nat) :
    littleEndian (octetsOf count n) = n % 256 ^ count := by
  induction count generalizing n with
  | zero => exact (Nat.mod_one n).symm
  | succ count ih =>
    have hfirst : (UInt8.ofNat (n % 256)).toNat = n % 256 :=
      Text.Utf8.toNat_octet (Nat.mod_lt n (by decide))
    change (UInt8.ofNat (n % 256)).toNat + 256 * littleEndian (octetsOf count (n / 256)) = _
    rw [ih,hfirst,pow_succ',Nat.mod_mul]

theorem ofNat_littleEndian_octetsOf (size : Size) :
    UInt64.ofNat (littleEndian (octetsOf 8 size.toNat)) = size := by
  have hlt : size.toNat < 256 ^ 8 := size.toNat_lt
  rw [littleEndian_octetsOf,Nat.mod_eq_of_lt hlt,UInt64.ofNat_toNat]

/-- A record as it is written. -/
def octets (record : KernelRecord) : List UInt8 :=
  octetsOf 8 record.offset.toNat ++ octetsOf 8 record.size.toNat

theorem length_octets (record : KernelRecord) : record.octets.length = stride := by
  rw [octets,List.length_append,length_octetsOf,length_octetsOf]
  rfl

theorem ofOctets_octets (record : KernelRecord) : ofOctets record.octets = record := by
  have hsize : ((record.octets.drop 8).take 8) = octetsOf 8 record.size.toNat := by
    rw [octets,List.drop_left' (length_octetsOf 8 _),
      List.take_of_length_le (Nat.le_of_eq (length_octetsOf 8 _))]
  rw [ofOctets,hsize,octets,List.take_left' (length_octetsOf 8 _),ofNat_littleEndian_octetsOf,
    ofNat_littleEndian_octetsOf]

theorem ofOctets_append {front : List UInt8} (h : stride ≤ front.length) (back : List UInt8) :
    ofOctets (front ++ back) = ofOctets front := by
  have hlength : 8 ≤ (front.drop 8).length := by
    rw [List.length_drop]
    exact Nat.le_sub_of_add_le h
  rw [ofOctets,ofOctets,List.take_append_of_le_length (Nat.le_trans (by decide) h),
    List.drop_append_of_le_length (Nat.le_trans (by decide) h),
    List.take_append_of_le_length hlength]

theorem all_of_short {octets : List UInt8} (h : octets.length < stride) : all octets = [] := by
  rw [all,if_pos h]

theorem all_of_stride {octets : List UInt8} (h : stride ≤ octets.length) :
    all octets = ofOctets octets :: all (octets.drop stride) := by
  rw [all,if_neg (Nat.not_lt.mpr h)]

theorem all_append {front : List UInt8} (h : stride ∣ front.length) (back : List UInt8) :
    all (front ++ back) = all front ++ all back := by
  induction front using all.induct with
  | case1 front hshort =>
    obtain rfl := List.length_eq_zero_iff.mp (Nat.eq_zero_of_dvd_of_lt h hshort)
    rw [all_of_short hshort]
    rfl
  | case2 front hlong ih =>
    have hstride : stride ≤ front.length := Nat.not_lt.mp hlong
    have hrest : stride ∣ (front.drop stride).length := by
      rw [List.length_drop]
      exact Nat.dvd_sub h (Nat.dvd_refl stride)
    have hboth : stride ≤ (front ++ back).length :=
      Nat.le_trans hstride (List.length_append ▸ Nat.le_add_right ..)
    rw [all_of_stride hboth,all_of_stride hstride,ofOctets_append hstride,
      List.drop_append_of_le_length hstride,ih hrest,List.cons_append]

theorem all_octets (record : KernelRecord) : all record.octets = [record] := by
  rw [all_of_stride (Nat.le_of_eq record.length_octets.symm),ofOctets_octets,
    List.drop_of_length_le (Nat.le_of_eq record.length_octets),all_of_short (by decide)]

theorem all_flatMap_octets (records : List KernelRecord) (rest : List UInt8) :
    all (records.flatMap octets ++ rest) = records ++ all rest := by
  induction records with
  | nil => rfl
  | cons record records ih =>
    rw [List.flatMap_cons,List.append_assoc,all_append (record.length_octets ▸ Nat.dvd_refl stride),all_octets,ih]
    rfl

theorem decode_append {front : List UInt8} (h : stride ∣ front.length) (back : List UInt8) :
    decode (front ++ back) = decode front ++ decode back := by
  rw [decode,all_append h,List.filter_append]
  rfl

/-- A section with all records, and at its end octets that make up no record. -/
inductive IsTable (records : List KernelRecord) : List UInt8 → Prop
  | octets {rest : List UInt8} (hrest : rest.length < stride) :
    IsTable records (records.flatMap octets ++ rest)

theorem IsTable.decode_eq {records : List KernelRecord} {image : List UInt8}
    (h : IsTable records image) : decode image = records.filter fun record => record.size ≠ 0 := by
  obtain ⟨hrest⟩ := h
  rw [decode,all_flatMap_octets,all_of_short hrest,List.append_nil]

end KernelRecord

/-! ## Names -/

/-- A name that can be told apart from the zero octets around it. -/
def IsKernelName (name : String) : Prop :=
  name ≠ "" ∧ '\x00' ∉ name.toList

theorem kernelNames_append (before after : List UInt8) :
    kernelNames (before ++ 0 :: after) = kernelNames before ++ kernelNames after := by
  simp only [kernelNames,splitAt_append,List.map_append,List.filter_append]

theorem kernelNames_replicate (count : Nat) : kernelNames (List.replicate count 0) = [] := by
  induction count with
  | zero => rfl
  | succ count ih => exact (kernelNames_append [] _).trans ih

theorem kernelNames_zeros (count : Nat) (rest : List UInt8) :
    kernelNames (List.replicate count 0 ++ rest) = kernelNames rest := by
  induction count with
  | zero => rfl
  | succ count ih => exact (kernelNames_append [] _).trans ih

theorem kernelNames_encodeString {name : String} (h : IsKernelName name) :
    kernelNames (Text.Utf8.encodeString name) = [name] := by
  have hnil : name.toList.isEmpty = false :=
    List.isEmpty_eq_false_iff.mpr (mt String.toList_eq_nil_iff.mp h.1)
  rw [kernelNames,Text.Utf8.encodeString,splitAt_of_not_mem (mt Text.Utf8.zero_mem_encode_iff.mp h.2),
    List.map_singleton,Text.Utf8.decodeSkipping_encode]
  simp [hnil]

theorem isKernelName_of_mem {octets : List UInt8} {name : String} (h : name ∈ kernelNames octets) :
    IsKernelName name := by
  obtain ⟨text,htext,rfl⟩ := List.mem_map.mp h
  obtain ⟨hmem,hempty⟩ := List.mem_filter.mp htext
  obtain ⟨piece,hpiece,rfl⟩ := List.mem_map.mp hmem
  refine ⟨fun hnil => ?_,?_⟩
  · rw [String.ofList_eq_empty_iff.mp hnil] at hempty
    exact Bool.false_ne_true hempty
  · rw [String.toList_ofList]
    exact mt Text.Utf8.nul_mem_decodeSkipping_iff.mp (not_mem_of_mem_splitAt piece hpiece)

/-- A section with all names, each ended by a zero octet, and any more zero octets between them. -/
inductive IsNameTable : List String → List UInt8 → Prop
  | zeros (count : Nat) : IsNameTable [] (List.replicate count 0)
  | name {names : List String} {rest : List UInt8} (name : String) (count : Nat)
      (hrest : IsNameTable names rest) :
    IsNameTable (name :: names)
      (List.replicate count 0 ++ (Text.Utf8.encodeString name ++ 0 :: rest))

theorem IsNameTable.kernelNames_eq {names : List String} {symbols : List UInt8}
    (h : IsNameTable names symbols) (hnames : ∀ name ∈ names, IsKernelName name) :
    kernelNames symbols = names := by
  induction h with
  | zeros count => exact kernelNames_replicate count
  | name name count _ ih =>
    obtain ⟨hname,hrest⟩ := List.forall_mem_cons.mp hnames
    rw [kernelNames_zeros,kernelNames_append,kernelNames_encodeString hname,ih hrest]
    rfl

/-! ## Pairs -/
namespace KernelPairing

/-- Record and name of one position belong together, and what has no partner is counted. -/
structure Pairs (records : List KernelRecord) (names : List String) (pairing : KernelPairing) :
    Prop where
  position : ∀ (i : Nat) record name, pairing.pairs[i]? = some (record,name) ↔
    records[i]? = some record ∧ names[i]? = some name
  length : pairing.pairs.length = min records.length names.length
  unpairedRecords : pairing.pairs.length + pairing.unpairedRecords = records.length
  unpairedNames : pairing.pairs.length + pairing.unpairedNames = names.length
  mismatch : pairing.report.mismatch = true ↔ records.length ≠ names.length

theorem of_pairs (records : List KernelRecord) (names : List String) :
    Pairs records names (of records names) := by
  have hlength : (of records names).pairs.length = min records.length names.length :=
    List.length_zip
  constructor
  case position =>
    intro i record name
    exact List.getElem?_zip_eq_some
  case length => exact hlength
  case unpairedRecords =>
    rw [hlength]
    simp only [of]
    omega
  case unpairedNames =>
    rw [hlength]
    simp only [of]
    omega
  case mismatch =>
    rw [report,isMismatched,Bool.or_eq_true,decide_eq_true_eq,decide_eq_true_eq]
    simp only [of]
    omega

/-- What the two sections of a table are decoded to. -/
structure ReadsBack (records : List KernelRecord) (names : List String)
    (image symbols : List UInt8) : Prop where
  decode_eq : KernelRecord.decode image = records.filter fun record => record.size ≠ 0
  kernelNames_eq : kernelNames symbols = names
  pairs : Pairs (records.filter fun record => record.size ≠ 0) names
    (of (KernelRecord.decode image) (kernelNames symbols))

/-- **A table that was written is read back**, and sections of any octets are read piece by piece
without ever giving an empty name or one with a NUL. -/
theorem readsBack_tables :
    (∀ {records : List KernelRecord} {names : List String} {image symbols : List UInt8},
      KernelRecord.IsTable records image → IsNameTable names symbols →
      (∀ name ∈ names, IsKernelName name) → ReadsBack records names image symbols) ∧
    (∀ front back : List UInt8, KernelRecord.stride ∣ front.length →
      KernelRecord.decode (front ++ back) =
        KernelRecord.decode front ++ KernelRecord.decode back) ∧
    (∀ before after : List UInt8,
      kernelNames (before ++ 0 :: after) = kernelNames before ++ kernelNames after) ∧
    ∀ octets : List UInt8, ∀ name ∈ kernelNames octets, IsKernelName name := by
  refine ⟨fun himage hsymbols hnames => ?_,fun front back h => KernelRecord.decode_append h back,
    kernelNames_append,fun octets name => isKernelName_of_mem⟩
  have hrecords := himage.decode_eq
  have hread := hsymbols.kernelNames_eq hnames
  refine ⟨hrecords,hread,?_⟩
  rw [hrecords,hread]
  exact of_pairs _ _

/-- Three records, one of them of size zero, and two names in a table with octets to spare. -/
theorem readsBack_two_kernels :
    ReadsBack [⟨0,100⟩,⟨7,0⟩,⟨0xffffffffffffffff,0x8000000000000000⟩] ["αβ","k"]
      [0,0,0,0,0,0,0,0, 100,0,0,0,0,0,0,0, 7,0,0,0,0,0,0,0, 0,0,0,0,0,0,0,0,
        255,255,255,255,255,255,255,255, 0,0,0,0,0,0,0,128, 1,2,3]
      [0,0xce,0xb1,0xce,0xb2,0,0,0x6b,0] := by
  have himage := @KernelRecord.IsTable.octets
    [⟨0,100⟩,⟨7,0⟩,⟨0xffffffffffffffff,0x8000000000000000⟩] [1,2,3] (by decide)
  have hsymbols := (IsNameTable.zeros 0).name "k" 1 |>.name "αβ" 1
  have hnames : ∀ name ∈ ["αβ","k"], IsKernelName name := by
    simp [IsKernelName]
  exact readsBack_tables.1 himage hsymbols hnames

end KernelPairing

end SizeSurvey
