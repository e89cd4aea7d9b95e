import SizeSurvey.Proofs.Kernel.Summary

/-! # Outcomes of kernel tables

What becomes of a kernel table shows in how its sections were read and in their octets: in the
strides of the image section that are filled, and in the parts of the name section that hold a
character.
-/
namespace SizeSurvey
open Text.Utf8 (HoldsCharacter)

/-! ## Strides -/
namespace KernelRecord

/-- The octets of all complete records. -/
def strides (image : List UInt8) : List (List UInt8) :=
  (List.range (image.length / stride)).map fun place => (image.drop (place * stride)).take stride

section
variable {image : List UInt8}

theorem strides_of_short (h : image.length < stride) : strides image = [] := by
  rw [strides,Nat.div_eq_of_lt h]
  rfl

theorem strides_of_stride (h : stride ≤ image.length) :
    strides image = image.take stride :: strides (image.drop stride) := by
  have hcount : image.length / stride = (image.drop stride).length / stride + 1 := by
    rw [List.length_drop]
    exact Nat.div_eq_sub_div (by decide) h
  rw [strides,hcount,List.range_succ_eq_map,List.map_cons,List.map_map,Nat.zero_mul,List.drop_zero,
    strides]
  refine congrArg _ (List.map_congr_left fun place _ => ?_)
  rw [Function.comp_apply,List.drop_drop,Nat.succ_mul,Nat.add_comm]

theorem length_of_mem_strides : ∀ octets ∈ strides image, octets.length = stride := by
  intro octets hmem
  obtain ⟨place,hplace,rfl⟩ := List.mem_map.mp hmem
  have hlt := List.mem_range.mp hplace
  rw [List.length_take,List.length_drop]
  simp only [stride] at *
  omega

theorem ofOctets_take (h : stride ≤ image.length) : ofOctets (image.take stride) = ofOctets image := by
  have hstride : stride ≤ (image.take stride).length := by
    rw [List.length_take]
    exact Nat.le_min.mpr ⟨Nat.le_refl _,h⟩
  have happend := ofOctets_append hstride (image.drop stride)
  rw [List.take_append_drop] at happend
  exact happend.symm

end

theorem all_eq_map_strides (image : List UInt8) : all image = (strides image).map ofOctets := by
  induction image using all.induct with
  | case1 image hshort =>
    rw [all_of_short hshort,strides_of_short hshort]
    rfl
  | case2 image hlong ih =>
    have hstride : stride ≤ image.length := Nat.not_lt.mp hlong
    rw [all_of_stride hstride,strides_of_stride hstride,ih,List.map_cons,ofOctets_take hstride]

theorem littleEndian_lt (octets : List UInt8) : littleEndian octets < 256 ^ octets.length := by
  induction octets with
  | nil => exact Nat.one_pos
  | cons octet rest ih =>
    have hoctet : octet.toNat < 256 := octet.toNat_lt
    change octet.toNat + 256 * littleEndian rest < _
    rw [List.length_cons,pow_succ']
    omega

theorem littleEndian_eq_zero_iff {octets : List UInt8} :
    littleEndian octets = 0 ↔ ∀ octet ∈ octets, octet = 0 := by
  induction octets with
  | nil => exact iff_of_true rfl nofun
  | cons octet rest ih =>
    have hoctet : octet.toNat = 0 ↔ octet = 0 := UInt8.toNat_inj (b := 0)
    change octet.toNat + 256 * littleEndian rest = 0 ↔ _
    rw [List.forall_mem_cons,← ih,← hoctet]
    omega

/-- Whether the octets of a record give it a size other than zero. -/
def IsFilled (octets : List UInt8) : Prop :=
  ∃ octet ∈ octets.drop 8, octet ≠ 0

instance (octets : List UInt8) : Decidable (IsFilled octets) :=
  inferInstanceAs (Decidable (∃ octet ∈ octets.drop 8, _))

theorem size_ne_zero_iff {octets : List UInt8} (h : octets.length = stride) :
    (ofOctets octets).size ≠ 0 ↔ IsFilled octets := by
  have hlength : (octets.drop 8).length = 8 := by
    rw [List.length_drop,h]
    rfl
  have hlt : littleEndian (octets.drop 8) < 2 ^ 64 := by
    have hoctets := littleEndian_lt (octets.drop 8)
    rwa [hlength] at hoctets
  have hzero : (ofOctets octets).size = 0 ↔ littleEndian (octets.drop 8) = 0 := by
    rw [ofOctets,List.take_of_length_le (Nat.le_of_eq hlength),← UInt64.toNat_inj,
      UInt64.toNat_ofNat_of_lt' hlt]
    rfl
  rw [ne_eq,hzero,littleEndian_eq_zero_iff,IsFilled]
  simp only [not_forall,exists_prop,ne_eq]

/-- How many strides of an image section are filled. -/
def filled (image : List UInt8) : Nat :=
  (strides image).countP fun octets => IsFilled octets

theorem length_decode (image : List UInt8) : (decode image).length = filled image := by
  rw [decode,all_eq_map_strides,← List.countP_eq_length_filter,List.countP_map]
  refine List.countP_congr fun octets hmem => ?_
  simpa using size_ne_zero_iff (length_of_mem_strides octets hmem)

end KernelRecord

/-- How many parts of a name section hold a character. -/
def namedParts (symbols : List UInt8) : Nat :=
  (Text.splitAt 0 symbols).countP fun part => HoldsCharacter part

theorem length_kernelNames (symbols : List UInt8) :
    (kernelNames symbols).length = namedParts symbols := by
  rw [kernelNames,List.length_map,← List.countP_eq_length_filter,List.countP_map]
  refine List.countP_congr fun part _ => ?_
  simpa using @Text.Utf8.decodeSkipping_ne_nil_iff part

/-! ## Decoding -/

theorem KernelPairing.isMismatched_iff {image symbols : List UInt8} :
    (of (KernelRecord.decode image) (kernelNames symbols)).isMismatched = true ↔
      KernelRecord.filled image ≠ namedParts symbols := by
  rw [← KernelRecord.length_decode,← length_kernelNames]
  exact (of_pairs _ _).mismatch

theorem KernelPairing.pairs_isEmpty_iff {image symbols : List UInt8} :
    (of (KernelRecord.decode image) (kernelNames symbols)).pairs.isEmpty = true ↔
      KernelRecord.filled image = 0 ∨ namedParts symbols = 0 := by
  rw [List.isEmpty_iff_length_eq_zero,(of_pairs _ _).length,KernelRecord.length_decode,
    length_kernelNames,Nat.min_eq_zero_iff]

namespace KernelSummary
variable {σ : Type} {demangle : Demangler (StateM σ)} {settings : KernelSettings}
  {image symbols : List UInt8} {world : σ} {summary : KernelSummary}

theorem decode_mispaired (hstrict : settings.strictPairing = true)
    (hcounts : KernelRecord.filled image ≠ namedParts symbols) :
    ((decode demangle settings image symbols).run world).1 =
      .error (.pairingMismatch (KernelRecord.filled image) (namedParts symbols)) := by
  rw [run_decode,hstrict,Bool.true_and,if_pos (KernelPairing.isMismatched_iff.mpr hcounts),
    KernelRecord.length_decode,length_kernelNames]

/-- Whether the counts of a table allow it to be paired. -/
def MayPair (settings : KernelSettings) (image symbols : List UInt8) : Prop :=
  settings.strictPairing = false ∨ KernelRecord.filled image = namedParts symbols

theorem not_mayPair_iff : ¬MayPair settings image symbols ↔
    settings.strictPairing = true ∧ KernelRecord.filled image ≠ namedParts symbols := by
  rw [MayPair,not_or,Bool.not_eq_false]

theorem strict_and_isMismatched (h : MayPair settings image symbols) :
    ¬(settings.strictPairing &&
      (KernelPairing.of (KernelRecord.decode image) (kernelNames symbols)).isMismatched) = true := by
  rw [Bool.and_eq_true,KernelPairing.isMismatched_iff]
  exact mt not_mayPair_iff.mpr (not_not.mpr h)

theorem decode_nothing (hpair : MayPair settings image symbols)
    (hempty : KernelRecord.filled image = 0 ∨ namedParts symbols = 0) :
    ((decode demangle settings image symbols).run world).1 = .ok none := by
  rw [run_decode,if_neg (strict_and_isMismatched hpair),
    if_pos (KernelPairing.pairs_isEmpty_iff.mpr hempty)]

theorem exists_decode (hpair : MayPair settings image symbols)
    (hsome : ¬(KernelRecord.filled image = 0 ∨ namedParts symbols = 0)) :
    ∃ summary, ((decode demangle settings image symbols).run world).1 = .ok (some summary) := by
  rw [run_decode,if_neg (strict_and_isMismatched hpair),
    if_neg (mt KernelPairing.pairs_isEmpty_iff.mp hsome)]
  exact ⟨_,rfl⟩

theorem one_le_count_of_decode
    (hone : ∀ names world, ((demangle names).run world).1.names.length = names.length)
    (h : ((decode demangle settings image symbols).run world).1 = .ok (some summary)) :
    1 ≤ summary.count := by
  obtain ⟨hpairs,rfl⟩ := eq_ofKernels_of_decode h
  have hlength := length_kernelsOf (hone (identifiersOf image symbols) world)
  exact Nat.lt_of_lt_of_eq (List.length_pos_iff.mpr hpairs) hlength.symm

theorem mismatch_of_decode (hpair : KernelRecord.filled image = namedParts symbols)
    (h : ((decode demangle settings image symbols).run world).1 = .ok (some summary)) :
    summary.pairing.mismatch = false := by
  obtain ⟨-,rfl⟩ := eq_ofKernels_of_decode h
  exact Bool.eq_false_iff.mpr fun hmismatch => KernelPairing.isMismatched_iff.mp hmismatch hpair

end KernelSummary

/-! ## Outcomes -/

/-- A section as it was read, or nothing if the library has no such section. -/
abbrev SectionRead : Type := Except Fault (Option (List UInt8))

/-- A fault by which a capability is missing, and nothing is broken. -/
inductive Fault.IsMissingCapability : Fault → Prop
  | tool (tool : String) : IsMissingCapability (.toolUnavailable tool)
  | time (tool : String) (seconds : Nat) : IsMissingCapability (.timedOut tool seconds)

theorem Fault.isUnavailable_iff {fault : Fault} :
    fault.isUnavailable = true ↔ fault.IsMissingCapability := by
  constructor
  · intro h
    cases fault with
    | toolUnavailable tool => exact .tool tool
    | timedOut tool seconds => exact .time tool seconds
    | _ => cases h
  · rintro ⟨⟩ <;> rfl

namespace KernelOutcome

/-- The fault of reading the two sections. That of the image section comes first. -/
inductive IsReadFault : SectionRead → SectionRead → Fault → Prop
  | image (fault : Fault) (symbols : SectionRead) : IsReadFault (.error fault) symbols fault
  | symbols (image : Option (List UInt8)) (fault : Fault) :
    IsReadFault (.ok image) (.error fault) fault

/-- Sections whose counts differ although they must not, with the counts. -/
inductive IsMispaired (settings : KernelSettings) : SectionRead → SectionRead → Nat → Nat → Prop
  | counts {image symbols : List UInt8} (hstrict : settings.strictPairing = true)
      (hcounts : KernelRecord.filled image ≠ namedParts symbols) :
    IsMispaired settings (.ok (some image)) (.ok (some symbols)) (KernelRecord.filled image)
      (namedParts symbols)

/-- Sections with a record, with a name, and with counts that agree if they have to. -/
inductive IsDecodable (settings : KernelSettings) : SectionRead → SectionRead → Prop
  | parts {image symbols : List UInt8}
      (hrecord : ∃ octets ∈ KernelRecord.strides image, KernelRecord.IsFilled octets)
      (hname : ∃ part ∈ Text.splitAt 0 symbols, HoldsCharacter part)
      (hcounts : settings.strictPairing = false ∨ KernelRecord.filled image = namedParts symbols) :
    IsDecodable settings (.ok (some image)) (.ok (some symbols))

/-- What the outcome for two sections is. -/
structure Answers (settings : KernelSettings) (image symbols : SectionRead)
    (outcome : KernelOutcome) : Prop where
  decoded : (∃ summary, outcome = .decoded summary) ↔ IsDecodable settings image symbols
  count : ∀ summary, outcome = .decoded summary → 1 ≤ summary.count
  matched : settings.strictPairing = true →
    ∀ summary, outcome = .decoded summary → summary.pairing.mismatch = false
  unavailable : ∀ fault, IsReadFault image symbols fault → fault.IsMissingCapability →
    outcome = .unavailable fault.message
  failed : ∀ fault, IsReadFault image symbols fault → ¬fault.IsMissingCapability →
    outcome = .failed fault.message
  mispaired : ∀ records names, IsMispaired settings image symbols records names →
    outcome = .failed (Fault.pairingMismatch records names).message
  noData : ¬IsDecodable settings image symbols → (∀ fault, ¬IsReadFault image symbols fault) →
    (∀ records names, ¬IsMispaired settings image symbols records names) → outcome = .noData

section
variable {σ : Type} {demangle : Demangler (StateM σ)} {settings : KernelSettings} {world : σ}

theorem isDecodable_iff {image symbols : List UInt8} :
    IsDecodable settings (.ok (some image)) (.ok (some symbols)) ↔
      KernelSummary.MayPair settings image symbols ∧
        ¬(KernelRecord.filled image = 0 ∨ namedParts symbols = 0) := by
  have hrecord : KernelRecord.filled image ≠ 0 ↔
      ∃ octets ∈ KernelRecord.strides image, KernelRecord.IsFilled octets := by
    rw [← Nat.pos_iff_ne_zero,KernelRecord.filled,List.countP_pos_iff]
    simp only [decide_eq_true_eq]
  have hname : namedParts symbols ≠ 0 ↔ ∃ part ∈ Text.splitAt 0 symbols, HoldsCharacter part := by
    rw [← Nat.pos_iff_ne_zero,namedParts,List.countP_pos_iff]
    simp only [decide_eq_true_eq]
  rw [not_or,← ne_eq,← ne_eq,hrecord,hname]
  constructor
  · rintro ⟨hrecord,hname,hcounts⟩
    exact ⟨hcounts,hrecord,hname⟩
  · rintro ⟨hcounts,hrecord,hname⟩
    exact ⟨hrecord,hname,hcounts⟩

theorem ofFault_ne_decoded (fault : Fault) (summary : KernelSummary) :
    ofFault fault ≠ decoded summary := by
  rw [ofFault]
  split <;> exact nofun

theorem ofFault_of_isMissingCapability {fault : Fault} (h : fault.IsMissingCapability) :
    ofFault fault = unavailable fault.message := by
  rw [ofFault,if_pos (Fault.isUnavailable_iff.mpr h)]

theorem ofFault_of_not_isMissingCapability {fault : Fault} (h : ¬fault.IsMissingCapability) :
    ofFault fault = failed fault.message := by
  rw [ofFault,if_neg (mt Fault.isUnavailable_iff.mp h)]

theorem IsReadFault.unique {image symbols : SectionRead} {fault other : Fault}
    (h : IsReadFault image symbols fault) (hother : IsReadFault image symbols other) :
    other = fault := by
  cases h <;> cases hother <;> rfl

theorem answers_ofFault {image symbols : SectionRead} {fault : Fault}
    (h : IsReadFault image symbols fault) : Answers settings image symbols (ofFault fault) := by
  constructor
  case decoded =>
    refine iff_of_false (fun ⟨summary,hsummary⟩ => ofFault_ne_decoded fault summary hsummary) ?_
    intro hdecodable
    cases hdecodable
    cases h
  case count => exact fun summary hsummary => absurd hsummary (ofFault_ne_decoded fault summary)
  case matched => exact fun _ summary hsummary => absurd hsummary (ofFault_ne_decoded fault summary)
  case unavailable =>
    intro other hother hmissing
    rw [h.unique hother] at hmissing ⊢
    exact ofFault_of_isMissingCapability hmissing
  case failed =>
    intro other hother hbroken
    rw [h.unique hother] at hbroken ⊢
    exact ofFault_of_not_isMissingCapability hbroken
  case mispaired =>
    intro _ _ hmispaired
    cases hmispaired
    cases h
  case noData => exact fun _ hnone => absurd h (hnone fault)

theorem answers_absent {image symbols : Option (List UInt8)} (h : image = none ∨ symbols = none) :
    Answers settings (.ok image) (.ok symbols) noData := by
  constructor
  case decoded =>
    refine iff_of_false nofun fun hdecodable => ?_
    cases hdecodable
    rcases h with h | h <;> cases h
  case mispaired =>
    intro _ _ hmispaired
    cases hmispaired
    rcases h with h | h <;> cases h
  case noData => exact fun _ _ _ => rfl
  all_goals exact nofun

section
variable {image symbols : List UInt8}

theorem answers_mispaired (hstrict : settings.strictPairing = true)
    (hcounts : KernelRecord.filled image ≠ namedParts symbols) :
    Answers settings (.ok (some image)) (.ok (some symbols))
      (ofFault (.pairingMismatch (KernelRecord.filled image) (namedParts symbols))) := by
  have hmispaired := IsMispaired.counts hstrict hcounts
  constructor
  case decoded =>
    refine iff_of_false nofun fun hdecodable => ?_
    exact KernelSummary.not_mayPair_iff.mpr ⟨hstrict,hcounts⟩ (isDecodable_iff.mp hdecodable).1
  case mispaired =>
    rintro _ _ ⟨⟩
    rfl
  case noData => exact fun _ _ hnone => absurd hmispaired (hnone _ _)
  all_goals exact nofun

theorem answers_noData (hpair : KernelSummary.MayPair settings image symbols)
    (hempty : KernelRecord.filled image = 0 ∨ namedParts symbols = 0) :
    Answers settings (.ok (some image)) (.ok (some symbols)) noData := by
  constructor
  case decoded =>
    exact iff_of_false nofun fun hdecodable => (isDecodable_iff.mp hdecodable).2 hempty
  case mispaired =>
    rintro _ _ ⟨hstrict,hcounts⟩
    exact absurd hpair (KernelSummary.not_mayPair_iff.mpr ⟨hstrict,hcounts⟩)
  case noData => exact fun _ _ _ => rfl
  all_goals exact nofun

theorem answers_decoded {summary : KernelSummary}
    (hone : ∀ names world, ((demangle names).run world).1.names.length = names.length)
    (hpair : KernelSummary.MayPair settings image symbols)
    (hsome : ¬(KernelRecord.filled image = 0 ∨ namedParts symbols = 0))
    (h : ((KernelSummary.decode demangle settings image symbols).run world).1 =
      .ok (some summary)) :
    Answers settings (.ok (some image)) (.ok (some symbols)) (decoded summary) := by
  have hdecodable := isDecodable_iff.mpr ⟨hpair,hsome⟩
  constructor
  case decoded => exact iff_of_true ⟨summary,rfl⟩ hdecodable
  case count =>
    rintro _ ⟨⟩
    exact KernelSummary.one_le_count_of_decode hone h
  case matched =>
    rintro hstrict _ ⟨⟩
    have hstrict' : settings.strictPairing ≠ false := by
      rw [hstrict]
      exact nofun
    exact KernelSummary.mismatch_of_decode (hpair.resolve_left hstrict') h
  case mispaired =>
    rintro _ _ ⟨hstrict,hcounts⟩
    exact absurd hpair (KernelSummary.not_mayPair_iff.mpr ⟨hstrict,hcounts⟩)
  case noData => exact fun hnone => absurd hdecodable hnone
  all_goals exact nofun

theorem run_ofSections : ((ofSections demangle settings (.ok (some image))
      (.ok (some symbols))).run world).1 =
    match ((KernelSummary.decode demangle settings image symbols).run world).1 with
    | .ok (some summary) => decoded summary
    | .ok none => noData
    | .error fault => ofFault fault := by
  rw [ofSections,StateT.run_bind]
  obtain ⟨_ | _ | _,_⟩ := (KernelSummary.decode demangle settings image symbols).run world <;> rfl

end

/-- **When a kernel table counts as data.** -/
theorem ofSections_answers
    (hone : ∀ names world, ((demangle names).run world).1.names.length = names.length)
    (image symbols : SectionRead) (world : σ) :
    Answers settings image symbols ((ofSections demangle settings image symbols).run world).1 := by
  obtain fault | image := image
  · exact answers_ofFault (.image fault symbols)
  obtain fault | symbols := symbols
  · exact answers_ofFault (.symbols image fault)
  obtain _ | image := image <;> obtain _ | symbols := symbols
  · exact answers_absent (.inl rfl)
  · exact answers_absent (.inl rfl)
  · exact answers_absent (.inr rfl)
  rw [run_ofSections]
  by_cases hpair : KernelSummary.MayPair settings image symbols
  · by_cases hempty : KernelRecord.filled image = 0 ∨ namedParts symbols = 0
    · rw [KernelSummary.decode_nothing hpair hempty]
      exact answers_noData hpair hempty
    · obtain ⟨summary,hdecode⟩ := @KernelSummary.exists_decode σ demangle settings image symbols world
        hpair hempty
      rw [hdecode]
      exact answers_decoded hone hpair hempty hdecode
  · obtain ⟨hstrict,hcounts⟩ := KernelSummary.not_mayPair_iff.mp hpair
    rw [KernelSummary.decode_mispaired hstrict hcounts]
    exact answers_mispaired hstrict hcounts

/-- One record and one name, which begins with an octet that is no UTF-8. -/
theorem ofSections_answers_one :
    let demangle : Demangler (StateM Unit) := fun names => pure (.complete names)
    let settings : KernelSettings := { strictPairing := true }
    let image : List UInt8 := [0,0,0,0,0,0,0,0, 0,1,0,0,0,0,0,0, 7]
    let symbols : List UInt8 := [0,0xff,0x6b,0,0xff]
    let outcome := ((KernelOutcome.ofSections demangle settings (.ok (some image))
      (.ok (some symbols))).run ()).1
    Answers settings (.ok (some image)) (.ok (some symbols)) outcome ∧
      ∃ summary, outcome = .decoded summary := by
  intro demangle settings image symbols outcome
  have hanswers : Answers settings (.ok (some image)) (.ok (some symbols)) outcome :=
    ofSections_answers (fun _ _ => rfl) _ _ ()
  exact ⟨hanswers,hanswers.decoded.mpr (.parts (by decide) (by decide) (.inr (by decide)))⟩

end

end KernelOutcome

end SizeSurvey
