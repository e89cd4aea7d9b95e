import SizeSurvey.Json.Reader
import SizeSurvey.Proofs.NameMap
import SizeSurvey.Proofs.Size

/-! # Records with members left out and added

A record is read from an object by the names of its members. So only the members that it knows count:
they may stand in any order, each of them may be left out, and members with other names may stand
anywhere among them.
-/
namespace SizeSurvey.Json
open NameMap (lookup_cons_eq_ite lookup_filter lookup_of_mem)

/-- The members of an object. -/
def members : Json → List (String × Json)
  | object members => members
  | _ => []

/-- Among the members of `part`, those with a name of `whole` are the members of `whole` that are not
left out. -/
def LeavesOut (omitted : String → Bool) (whole part : List (String × Json)) : Prop :=
  (part.filter fun member => (whole.map Prod.fst).contains member.1).Perm
    (whole.filter fun member => !omitted member.1)

/-- What a record finds in an object: the members of `whole` but those left out. -/
def Fields.Offers (fields : Fields) (omitted : String → Bool) (whole : List (String × Json)) : Prop :=
  ∀ member ∈ whole, fields.slot member.1 =
    if omitted member.1 then .missingMember else .given member.2

theorem Reader.size_size (place : Place) (n : Size) : Reader.size place (.size n) = some n :=
  Size.ofNat?_toNat n

section Offers
variable {α : Type} {fields : Fields} {omitted : String → Bool} {whole part : List (String × Json)}
  {name : String} {value : Json} {read : Reader α} {found : α}

theorem Fields.Offers.orElse (h : fields.Offers omitted whole) (i : Nat)
    (hmember : whole[i]? = some (name,value)) (hread : read fields.place value = some found)
    (initial : α) :
    fields.orElse read name initial = some (if omitted name then initial else found) := by
  have hslot := h _ (List.mem_of_getElem? hmember)
  cases homitted : omitted name with
  | true => simp [Fields.orElse,hslot,homitted]
  | false => simp [Fields.orElse,hslot,homitted,hread]

theorem Fields.Offers.required (h : fields.Offers omitted whole) (i : Nat)
    (hmember : whole[i]? = some (name,value)) (hkept : omitted name = false)
    (hread : read fields.place value = some found) : fields.required read name = some found := by
  have hslot := h _ (List.mem_of_getElem? hmember)
  simp [Fields.required,hslot,hkept,hread]

theorem LeavesOut.refl (whole : List (String × Json)) : LeavesOut (fun _ => false) whole whole := by
  have hknown : ∀ member ∈ whole, (whole.map Prod.fst).contains member.1 = true := by
    intro member hmem
    exact List.contains_iff_mem.mpr (List.mem_map_of_mem hmem)
  have hkept : ∀ member ∈ whole, (!false) = true := fun _ _ => rfl
  rw [LeavesOut,List.filter_eq_self.mpr hknown,List.filter_eq_self.mpr hkept]

theorem LeavesOut.length_le_one (h : LeavesOut omitted whole part)
    (hnodup : (whole.map Prod.fst).Nodup) (hname : name ∈ whole.map Prod.fst) :
    (part.filter fun member => member.1 == name).length ≤ 1 := by
  have hknown : (part.filter fun member => member.1 == name) =
      (part.filter fun member => (whole.map Prod.fst).contains member.1).filter
        fun member => member.1 == name := by
    rw [List.filter_filter]
    refine List.filter_congr fun member _ => ?_
    by_cases heq : member.1 = name <;> simp [heq,hname]
  have hcount : ((whole.filter fun member => !omitted member.1).filter
      fun member => member.1 == name).length ≤ (whole.map Prod.fst).count name := by
    rw [List.count,List.countP_map,List.countP_eq_length_filter]
    exact (List.filter_sublist.filter _).length_le
  rw [hknown,(h.filter _).length_eq]
  exact Nat.le_trans hcount (List.nodup_iff_count.mp hnodup name)

theorem LeavesOut.lookup (h : LeavesOut omitted whole part) (hnodup : (whole.map Prod.fst).Nodup)
    (hmem : (name,value) ∈ whole) :
    part.lookup name = if omitted name then none else some value := by
  have hknown : (whole.map Prod.fst).contains name = true :=
    List.contains_iff_mem.mpr (List.mem_map_of_mem hmem)
  have hdistinct : ((part.filter fun member => (whole.map Prod.fst).contains member.1).map
      Prod.fst).Nodup :=
    (h.map Prod.fst).nodup_iff.mpr (hnodup.sublist (List.filter_sublist.map Prod.fst))
  rw [← lookup_filter hknown part]
  cases homitted : omitted name with
  | false =>
    have hkept : (name,value) ∈ part.filter fun member => (whole.map Prod.fst).contains member.1 :=
      h.mem_iff.mpr (List.mem_filter.mpr ⟨hmem,by simp [homitted]⟩)
    exact lookup_of_mem hdistinct hkept
  | true =>
    refine List.lookup_eq_none_iff.mpr fun member hmember => ?_
    have hkept := (List.mem_filter.mp (h.mem_iff.mp hmember)).2
    simp only [bne_iff_ne,ne_eq]
    rintro rfl
    simp [homitted] at hkept

/-- A record finds what an object does not leave out, whatever else the object has. -/
theorem LeavesOut.exists_fields (h : LeavesOut omitted whole part)
    (hnodup : (whole.map Prod.fst).Nodup) (place : Place) :
    ∃ fields, Fields.ofJson? (whole.map Prod.fst) place (.object part) = some fields ∧
      fields.place = place.inner ∧ fields.Offers omitted whole := by
  have hsingle : ((whole.map Prod.fst).all fun name =>
      decide ((part.filter fun member => member.1 == name).length ≤ 1)) = true := by
    refine List.all_eq_true.mpr fun name hname => decide_eq_true ?_
    exact h.length_le_one hnodup hname
  refine ⟨_,if_pos hsingle,rfl,fun member hmem => ?_⟩
  have hlookup := h.lookup hnodup hmem
  cases homitted : omitted member.1 with
  | true => simp [hlookup,homitted]
  | false => simp [hlookup,homitted]

/-- **A record is built from what an object does not leave out.** -/
theorem LeavesOut.record {names : List String} {build : Fields → Option α}
    (h : LeavesOut omitted whole part) (hnames : whole.map Prod.fst = names) (hnodup : names.Nodup)
    (place : Place) (hbuild : ∀ fields : Fields, fields.place = place.inner →
      fields.Offers omitted whole → build fields = some found) :
    Reader.record names build place (.object part) = some found := by
  subst hnames
  obtain ⟨fields,hfields,hplace,hoffers⟩ := h.exists_fields hnodup place
  rw [Reader.record,hfields]
  exact hbuild fields hplace hoffers

end Offers

end SizeSurvey.Json
