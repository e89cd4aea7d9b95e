import SizeSurvey.Proofs.Json.Scalars

/-! # Documents read back

A document without floating point numbers is written as a text that denotes it. The proof follows the
writer: a value is read back in front of anything that cannot continue a number, and the elements of an
array or the members of an object up to their closing sign.
-/
namespace SizeSurvey.Json

mutual

/-- Whether a document has no floating point numbers, only natural numbers that fit into 64 bits, and
no part without a value. -/
def isExact : Json → Bool
  | natural n => n < UInt64.size
  | real _ => false
  | unreadable => false
  | array elements => areElementsExact elements
  | object members => areMembersExact members
  | _ => true

def areElementsExact : List Json → Bool
  | [] => true
  | value :: rest => isExact value && areElementsExact rest

def areMembersExact : List (String × Json) → Bool
  | [] => true
  | (_, value) :: rest => isExact value && areMembersExact rest

end

/-! ## White space -/

theorem isSpace_of_mem_newLine {level : Nat} {c : Char} (h : c ∈ newLine level) :
    isSpace c = true := by
  rcases List.mem_cons.mp h with rfl | h
  · rfl
  · rw [List.eq_of_mem_replicate h]
    rfl

theorem isSpace_eq_or {c : Char} (h : isSpace c = true) :
    c = ' ' ∨ c = '\n' ∨ c = '\t' ∨ c = '\r' := by
  simpa [isSpace,or_assoc] using h

theorem isSpace_of_isDigit {c : Char} (h : Text.isDigit c = true) : isSpace c = false := by
  refine Bool.eq_false_iff.mpr fun hspace => ?_
  rcases isSpace_eq_or hspace with rfl | rfl | rfl | rfl <;> cases h

theorem skipSpace_append {space : List Char} (h : ∀ c ∈ space, isSpace c = true)
    (text : List Char) : skipSpace (space ++ text) = skipSpace text :=
  List.dropWhile_append_of_pos h

theorem skipSpace_cons {c : Char} (h : isSpace c = false) (text : List Char) :
    skipSpace (c :: text) = c :: text :=
  List.dropWhile_cons_of_neg (by simp [h])

theorem skipSpace_skipSpace (text : List Char) : skipSpace (skipSpace text) = skipSpace text := by
  induction text with
  | nil => rfl
  | cons c text ih =>
    by_cases h : isSpace c = true
    · rw [show skipSpace (c :: text) = skipSpace text from List.dropWhile_cons_of_pos h,ih]
    · rw [skipSpace_cons (Bool.not_eq_true _ ▸ h),skipSpace_cons (Bool.not_eq_true _ ▸ h)]

theorem endsNumber_append {space : List Char} (h : ∀ c ∈ space, isSpace c = true)
    {rest : List Char} (hrest : EndsNumber rest) : EndsNumber (space ++ rest) := by
  cases space with
  | nil => exact hrest
  | cons c space =>
    intro d hd
    cases hd
    rcases isSpace_eq_or (h c List.mem_cons_self) with rfl | rfl | rfl | rfl <;> decide

theorem readValue_skipSpace (fuel : Nat) (text : List Char) :
    readValue fuel (skipSpace text) = readValue fuel text := by
  cases fuel with
  | zero => rfl
  | succ fuel => rw [readValue,readValue,skipSpace_skipSpace]

theorem readValue_blank (fuel : Nat) (text : List Char) :
    readValue fuel (' ' :: text) = readValue fuel text := by
  rw [← readValue_skipSpace fuel (' ' :: text),← readValue_skipSpace fuel text]
  rfl

theorem readElements_skipSpace (fuel : Nat) (done : List Json) (text : List Char) :
    readElements fuel done (skipSpace text) = readElements fuel done text := by
  cases fuel with
  | zero => rfl
  | succ fuel => rw [readElements,readElements,readValue_skipSpace]

theorem readMembers_skipSpace (fuel : Nat) (done : List (Option String × Json))
    (text : List Char) : readMembers fuel done (skipSpace text) = readMembers fuel done text := by
  cases fuel with
  | zero => rfl
  | succ fuel => rw [readMembers,readMembers,skipSpace_skipSpace]

/-! ## How a written value begins -/

theorem write_array (level : Nat) {elements : List Json} (h : elements ≠ []) :
    write level (array elements) =
      '[' :: ((writeElements (level + 1) elements).tail ++ newLine level ++ [']']) := by
  obtain ⟨first,rest,rfl⟩ := List.exists_cons_of_ne_nil h
  rw [write,writeElements]
  rfl

theorem write_object (level : Nat) {members : List (String × Json)} (h : members ≠ []) :
    write level (object members) =
      '\x7b' :: ((writeMembers (level + 1) members).tail ++ newLine level ++ ['\x7d']) := by
  obtain ⟨⟨name,value⟩,rest,rfl⟩ := List.exists_cons_of_ne_nil h
  rw [write,writeMembers]
  rfl

theorem writeElements_comma (level : Nat) (first : Json) (rest : List Json) :
    writeElements level (first :: rest) = ',' :: (writeElements level (first :: rest)).tail := by
  rw [writeElements]
  rfl

theorem writeMembers_comma (level : Nat) (first : String × Json) (rest : List (String × Json)) :
    writeMembers level (first :: rest) = ',' :: (writeMembers level (first :: rest)).tail := by
  rw [writeMembers]
  rfl

theorem writeElements_cons_append (level : Nat) (first : Json) (rest : List Json)
    (text : List Char) :
    (writeElements level (first :: rest)).tail ++ text =
      newLine level ++ (write level first ++ (writeElements level rest ++ text)) := by
  rw [writeElements]
  simp

theorem writeMembers_cons_append (level : Nat) (name : String) (value : Json)
    (rest : List (String × Json)) (text : List Char) :
    (writeMembers level ((name,value) :: rest)).tail ++ text =
      newLine level ++ (writeString name ++ (':' :: ' ' ::
        (write level value ++ (writeMembers level rest ++ text)))) := by
  rw [writeMembers]
  simp

theorem exists_write_eq_cons (level : Nat) {value : Json} (h : value.isExact = true) :
    ∃ c more, write level value = c :: more ∧ isSpace c = false ∧ c ≠ ']' := by
  cases value with
  | null => exact ⟨_,_,rfl,rfl,by decide⟩
  | bool value => cases value <;> exact ⟨_,_,rfl,rfl,by decide⟩
  | natural n =>
    obtain ⟨c,more,hdigits,hc,_⟩ := toDigits_eq_cons n
    refine ⟨c,more,by rw [write,hdigits],isSpace_of_isDigit hc,?_⟩
    rintro rfl
    cases hc
  | real _ => cases h
  | unreadable => cases h
  | string s => exact ⟨_,_,by rw [write,writeString]; rfl,rfl,by decide⟩
  | array elements =>
    by_cases hempty : elements = []
    · subst hempty
      exact ⟨_,_,by rw [write],rfl,by decide⟩
    · exact ⟨_,_,write_array level hempty,rfl,by decide⟩
  | object members =>
    by_cases hempty : members = []
    · subst hempty
      exact ⟨_,_,by rw [write],rfl,by decide⟩
    · exact ⟨_,_,write_object level hempty,rfl,by decide⟩

theorem exists_skipSpace_elements (level : Nat) {first : Json} (h : first.isExact = true)
    (more : List Json) (text : List Char) :
    ∃ c tail, skipSpace ((writeElements level (first :: more)).tail ++ text) = c :: tail ∧
      c ≠ ']' := by
  obtain ⟨c,tail,hfirst,hspace,hc⟩ := exists_write_eq_cons level h
  refine ⟨c,tail ++ (writeElements level more ++ text),?_,hc⟩
  rw [writeElements_cons_append,skipSpace_append fun _ => isSpace_of_mem_newLine,hfirst,
    List.cons_append,skipSpace_cons hspace]

theorem exists_skipSpace_members (level : Nat) (first : String × Json)
    (more : List (String × Json)) (text : List Char) :
    ∃ tail, skipSpace ((writeMembers level (first :: more)).tail ++ text) = '"' :: tail := by
  obtain ⟨name,value⟩ := first
  rw [writeMembers_cons_append,skipSpace_append fun _ => isSpace_of_mem_newLine,writeString_append,
    skipSpace_cons rfl]
  exact ⟨_,rfl⟩

/-! ## One value -/

theorem readValue_natural {n : Nat} (hn : n < UInt64.size) {rest : List Char}
    (hrest : EndsNumber rest) (fuel : Nat) :
    readValue (fuel + 1) (Nat.toDigits 10 n ++ rest) = some (natural n,rest) := by
  have hnumber := readNumber_toDigits hn hrest
  obtain ⟨c,more,hdigits,hc,_⟩ := toDigits_eq_cons n
  rw [hdigits,List.cons_append] at hnumber ⊢
  have hne : ∀ d, Text.isDigit d = false → c ≠ d := by
    rintro d hd rfl
    rw [hc] at hd
    cases hd
  rw [readValue,skipSpace_cons (isSpace_of_isDigit hc)]
  split
  next => contradiction
  next h => exact absurd (List.cons.inj h).1 (hne '[' rfl)
  next h => exact absurd (List.cons.inj h).1 (hne '\x7b' rfl)
  next h => exact absurd (List.cons.inj h).1 (hne '"' rfl)
  next h => exact absurd (List.cons.inj h).1 (hne 'n' rfl)
  next h => exact absurd (List.cons.inj h).1 (hne 't' rfl)
  next h => exact absurd (List.cons.inj h).1 (hne 'f' rfl)
  next => exact hnumber

theorem readValue_string (s : String) (rest : List Char) (fuel : Nat) :
    readValue (fuel + 1) (writeString s ++ rest) = some (string s,rest) := by
  rw [writeString_append,readValue,skipSpace_cons rfl]
  simp only [readString_flatMap,Option.map_some]

theorem readValue_array {text : List Char} {c : Char} {more : List Char}
    (h : skipSpace text = c :: more) (hc : c ≠ ']') (fuel : Nat) :
    readValue (fuel + 1) ('[' :: text) =
      (readElements fuel [] text).map fun (elements,rest) => (array elements,rest) := by
  rw [readValue,skipSpace_cons rfl]
  simp only [h]
  rw [← readElements_skipSpace,h]
  split
  next heq => exact absurd (List.cons.inj heq).1 hc
  next => rfl

theorem readValue_object {text : List Char} {c : Char} {more : List Char}
    (h : skipSpace text = c :: more) (hc : c ≠ '\x7d') (fuel : Nat) :
    readValue (fuel + 1) ('\x7b' :: text) =
      (readMembers fuel [] text).map fun (members,rest) => (objectOf members,rest) := by
  rw [readValue,skipSpace_cons rfl]
  simp only [h]
  rw [← readMembers_skipSpace,h]
  split
  next heq => exact absurd (List.cons.inj heq).1 hc
  next => rfl

/-! ## Whole documents -/

theorem objectOf_map (members : List (String × Json)) :
    objectOf (members.map fun member => (some member.1,member.2)) = object members := by
  have h : (members.map fun member => (some member.1,member.2)).mapM
      (fun member => member.1.map (·,member.2)) = some members := by
    induction members with
    | nil => rfl
    | cons member rest ih =>
      rw [List.map_cons,List.mapM_cons,ih]
      rfl
  rw [objectOf,h]

theorem skipSpace_closing {space : List Char} (h : ∀ c ∈ space, isSpace c = true) {c : Char}
    (hc : isSpace c = false) (rest : List Char) : skipSpace (space ++ c :: rest) = c :: rest := by
  rw [skipSpace_append h,skipSpace_cons hc]

section Steps
variable {fuel : Nat} {value : Json} {text space : List Char}
  (hspace : ∀ c ∈ space, isSpace c = true) (rest : List Char)
include hspace

theorem readElements_last (hvalue : readValue fuel text = some (value,space ++ ']' :: rest))
    (done : List Json) :
    readElements (fuel + 1) done text = some ((value :: done).reverse,rest) := by
  simp only [readElements,hvalue,skipSpace_closing hspace (show isSpace ']' = false from rfl)]

theorem readMembers_last (name : String)
    (hvalue : readValue fuel text = some (value,space ++ '\x7d' :: rest))
    (done : List (Option String × Json)) :
    readMembers (fuel + 1) done (writeString name ++ ':' :: text) =
      some (((some name,value) :: done).reverse,rest) := by
  rw [writeString_append,readMembers]
  simp only [skipSpace_cons (show isSpace '"' = false from rfl),readString_flatMap,
    skipSpace_cons (show isSpace ':' = false from rfl),hvalue,
    skipSpace_closing hspace (show isSpace '\x7d' = false from rfl)]

omit hspace

theorem readElements_more (hvalue : readValue fuel text = some (value,',' :: rest))
    (done : List Json) :
    readElements (fuel + 1) done text = readElements fuel (value :: done) rest := by
  simp only [readElements,hvalue,skipSpace_cons (show isSpace ',' = false from rfl)]

theorem readMembers_more (name : String) (hvalue : readValue fuel text = some (value,',' :: rest))
    (done : List (Option String × Json)) :
    readMembers (fuel + 1) done (writeString name ++ ':' :: text) =
      readMembers fuel ((some name,value) :: done) rest := by
  rw [writeString_append,readMembers]
  simp only [skipSpace_cons (show isSpace '"' = false from rfl),readString_flatMap,
    skipSpace_cons (show isSpace ':' = false from rfl),hvalue,
    skipSpace_cons (show isSpace ',' = false from rfl)]

end Steps

/-! The text of a part is shorter than that of the whole, so that the steps suffice. -/

theorem length_writeElements_lt (level : Nat) {elements : List Json} (h : elements ≠ []) :
    (writeElements (level + 1) elements).length < (write level (array elements)).length := by
  have hline : 0 < (newLine level).length := Nat.zero_lt_succ _
  rw [write_array level h]
  simp only [List.length_cons,List.length_append,List.length_tail]
  omega

theorem length_writeMembers_lt (level : Nat) {members : List (String × Json)} (h : members ≠ []) :
    (writeMembers (level + 1) members).length < (write level (object members)).length := by
  have hline : 0 < (newLine level).length := Nat.zero_lt_succ _
  rw [write_object level h]
  simp only [List.length_cons,List.length_append,List.length_tail]
  omega

theorem length_writeElements_cons (level : Nat) (first : Json) (rest : List Json) :
    (write level first).length + (writeElements level rest).length <
      (writeElements level (first :: rest)).length := by
  rw [writeElements]
  simp only [List.length_cons,List.length_append]
  omega

theorem length_writeMembers_cons (level : Nat) (name : String) (value : Json)
    (rest : List (String × Json)) :
    (write level value).length + (writeMembers level rest).length <
      (writeMembers level ((name,value) :: rest)).length := by
  rw [writeMembers]
  simp only [List.length_cons,List.length_append]
  omega

theorem endsNumber_cons {c : Char} (h : c = ',' ∨ c = ']' ∨ c = '\x7d') (rest : List Char) :
    EndsNumber (c :: rest) := by
  intro d hd
  cases hd
  rcases h with rfl | rfl | rfl <;> decide

theorem endsNumber_writeElements (level : Nat) (elements : List Json) {rest : List Char}
    (h : EndsNumber rest) : EndsNumber (writeElements level elements ++ rest) := by
  cases elements with
  | nil => exact h
  | cons first more =>
    rw [writeElements]
    exact endsNumber_cons (Or.inl rfl) _

theorem endsNumber_writeMembers (level : Nat) (members : List (String × Json)) {rest : List Char}
    (h : EndsNumber rest) : EndsNumber (writeMembers level members ++ rest) := by
  cases members with
  | nil => exact h
  | cons first more =>
    rw [writeMembers]
    exact endsNumber_cons (Or.inl rfl) _

mutual

theorem readValue_write : (value : Json) → (level fuel : Nat) → (rest : List Char) →
    value.isExact = true → EndsNumber rest → (write level value).length < fuel →
    readValue fuel (write level value ++ rest) = some (value,rest)
  | _, _, 0, _, _, _, hfuel => absurd hfuel (Nat.not_lt_zero _)
  | null, _, _ + 1, _, _, _, _ => rfl
  | bool true, _, _ + 1, _, _, _, _ => rfl
  | bool false, _, _ + 1, _, _, _, _ => rfl
  | natural n, _, fuel + 1, _, hexact, hrest, _ => by
    rw [write]
    exact readValue_natural (of_decide_eq_true hexact) hrest fuel
  | string s, _, fuel + 1, rest, _, _, _ => by
    rw [write]
    exact readValue_string s rest fuel
  | array [], _, _ + 1, _, _, _, _ => rfl
  | object [], _, _ + 1, _, _, _, _ => rfl
  | array (first :: more), level, fuel + 1, rest, hexact, _, hfuel => by
    have hlength := length_writeElements_lt level (List.cons_ne_nil first more)
    have hread := readElements_write (first :: more) (level + 1) fuel [] (newLine level) rest
      hexact (by simp) (fun _ => isSpace_of_mem_newLine) (by omega)
    obtain ⟨c,tail,hfront,hc⟩ := exists_skipSpace_elements (level + 1)
      (Bool.and_eq_true_iff.mp hexact).1 more (newLine level ++ ']' :: rest)
    rw [write_array level (by simp),List.cons_append,List.append_assoc,List.append_assoc,
      List.singleton_append,readValue_array hfront hc,hread]
    rfl
  | object (first :: more), level, fuel + 1, rest, hexact, _, hfuel => by
    have hlength := length_writeMembers_lt level (List.cons_ne_nil first more)
    have hread := readMembers_write (first :: more) (level + 1) fuel [] (newLine level) rest
      hexact (by simp) (fun _ => isSpace_of_mem_newLine) (by omega)
    obtain ⟨tail,hfront⟩ := exists_skipSpace_members (level + 1) first more
      (newLine level ++ '\x7d' :: rest)
    rw [write_object level (by simp),List.cons_append,List.append_assoc,List.append_assoc,
      List.singleton_append,readValue_object hfront (by decide),hread,← objectOf_map]
    rfl

theorem readElements_write : (elements : List Json) → (level fuel : Nat) → (done : List Json) →
    (space rest : List Char) → areElementsExact elements = true → elements ≠ [] →
    (∀ c ∈ space, isSpace c = true) → (writeElements level elements).length < fuel →
    readElements fuel done ((writeElements level elements).tail ++ (space ++ ']' :: rest)) =
      some (done.reverse ++ elements,rest)
  | [], _, _, _, _, _, _, hne, _, _ => absurd rfl hne
  | _ :: _, _, 0, _, _, _, _, _, _, hfuel => absurd hfuel (Nat.not_lt_zero _)
  | first :: more, level, fuel + 1, done, space, rest, hexact, _, hspace, hfuel => by
    obtain ⟨hfirst,hmore⟩ := Bool.and_eq_true_iff.mp hexact
    have hlength := length_writeElements_cons level first more
    have hend : EndsNumber (space ++ ']' :: rest) :=
      endsNumber_append hspace (endsNumber_cons (by decide) rest)
    have hvalue := readValue_write first level fuel _ hfirst
      (endsNumber_writeElements level more hend) (by omega)
    rw [writeElements_cons_append,← readElements_skipSpace,
      skipSpace_append fun _ => isSpace_of_mem_newLine,readElements_skipSpace]
    -- The reader takes the last element by another branch, that of the closing sign.
    cases more with
    | nil =>
      rw [readElements_last hspace rest hvalue,List.reverse_cons]
    | cons second more =>
      have hread := readElements_write (second :: more) level fuel (first :: done) space rest
        hmore (by simp) hspace (by omega)
      rw [writeElements_comma,List.cons_append] at hvalue ⊢
      rw [readElements_more _ hvalue,hread]
      simp

theorem readMembers_write : (members : List (String × Json)) → (level fuel : Nat) →
    (done : List (Option String × Json)) → (space rest : List Char) →
    areMembersExact members = true → members ≠ [] → (∀ c ∈ space, isSpace c = true) →
    (writeMembers level members).length < fuel →
    readMembers fuel done ((writeMembers level members).tail ++ (space ++ '\x7d' :: rest)) =
      some (done.reverse ++ members.map fun member => (some member.1,member.2),rest)
  | [], _, _, _, _, _, _, hne, _, _ => absurd rfl hne
  | _ :: _, _, 0, _, _, _, _, _, _, hfuel => absurd hfuel (Nat.not_lt_zero _)
  | (name,value) :: more, level, fuel + 1, done, space, rest, hexact, _, hspace, hfuel => by
    obtain ⟨hfirst,hmore⟩ := Bool.and_eq_true_iff.mp hexact
    have hlength := length_writeMembers_cons level name value more
    have hend : EndsNumber (space ++ '\x7d' :: rest) :=
      endsNumber_append hspace (endsNumber_cons (by decide) rest)
    have hvalue := readValue_write value level fuel _ hfirst
      (endsNumber_writeMembers level more hend) (by omega)
    -- The writer puts a blank behind the colon.
    rw [← readValue_blank] at hvalue
    rw [writeMembers_cons_append,← readMembers_skipSpace,
      skipSpace_append fun _ => isSpace_of_mem_newLine,readMembers_skipSpace]
    cases more with
    | nil =>
      rw [readMembers_last hspace rest name hvalue,List.reverse_cons]
      rfl
    | cons second more =>
      have hread := readMembers_write (second :: more) level fuel ((some name,value) :: done) space
        rest hmore (by simp) hspace (by omega)
      rw [writeMembers_comma,List.cons_append] at hvalue ⊢
      rw [readMembers_more _ name hvalue,hread]
      simp

end

/-- **A document without floating point numbers is read back** from the text that it is written as. -/
theorem ofText?_toText {value : Json} (h : value.isExact = true) :
    ofText? (toText value) = some value := by
  have hread := readValue_write value 0 (2 * (write 0 value).length + 2) [] h
    (fun _ hc => by cases hc) (by omega)
  rw [List.append_nil] at hread
  rw [ofText?,toText,String.toList_ofList,parse?,hread]
  rfl

mutual

theorem isReadable_of_isExact : (value : Json) → value.isExact = true → value.isReadable = true
  | null, _ => rfl
  | bool _, _ => rfl
  | natural _, _ => rfl
  | string _, _ => rfl
  | array elements, h => areElementsReadable_of_exact elements h
  | object members, h => areMembersReadable_of_exact members h

theorem areElementsReadable_of_exact : (elements : List Json) →
    areElementsExact elements = true → areElementsReadable elements = true
  | [], _ => rfl
  | value :: rest, h => by
    obtain ⟨hvalue,hrest⟩ := Bool.and_eq_true_iff.mp h
    rw [areElementsReadable,isReadable_of_isExact value hvalue,
      areElementsReadable_of_exact rest hrest,Bool.and_self]

theorem areMembersReadable_of_exact : (members : List (String × Json)) →
    areMembersExact members = true → areMembersReadable members = true
  | [], _ => rfl
  | (_,value) :: rest, h => by
    obtain ⟨hvalue,hrest⟩ := Bool.and_eq_true_iff.mp h
    rw [areMembersReadable,isReadable_of_isExact value hvalue,
      areMembersReadable_of_exact rest hrest,Bool.and_self]

end

end SizeSurvey.Json
