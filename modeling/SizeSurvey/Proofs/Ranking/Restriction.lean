import SizeSurvey.Proofs.Ranking.Placement

/-! # What a push does to leaders

A stream and its part above a bar leave the same entries above that bar, so an entry below the bar
never decides about one above it. This holds for any comparison of items.
-/
namespace SizeSurvey.Leaders
variable {α : Type} [Ord α]

/-- A stream of entries pushed one after the other. -/
def pushAll (leaders : Leaders α) (entries : List (Size × α)) : Leaders α :=
  entries.foldl (fun leaders e => leaders.push e.1 e.2) leaders

theorem ofList_eq_pushAll (capacity : Nat) (entries : List (Size × α)) :
    ofList capacity entries = pushAll { capacity } entries := rfl

@[simp] theorem pushAll_nil (leaders : Leaders α) : leaders.pushAll [] = leaders := rfl

@[simp] theorem pushAll_cons (leaders : Leaders α) (e : Size × α) (rest : List (Size × α)) :
    leaders.pushAll (e :: rest) = (leaders.push e.1 e.2).pushAll rest := rfl

theorem ofList_append (capacity : Nat) (before after : List (Size × α)) :
    ofList capacity (before ++ after) = (ofList capacity before).pushAll after :=
  List.foldl_append

theorem push_of_room {leaders : Leaders α} (h : leaders.length < leaders.capacity) (metric : Size)
    (item : α) : leaders.push metric item =
      { leaders with ascending := place (metric,item) leaders.ascending } := by
  simp [push,isFull,Nat.not_le.mpr h]

theorem push_of_less {leaders : Leaders α} {least : Size × α} {rest : List (Size × α)}
    (htable : leaders.ascending = least :: rest) (hfull : leaders.capacity ≤ leaders.length)
    {metric : Size} (hlt : least.1 < metric) (item : α) :
    leaders.push metric item = { leaders with ascending := place (metric,item) rest } := by
  simp [push,admits,isFull,leastMetric?,htable,hfull,hlt]

/-- All that a push can do: add to a table with room, replace the least entry of a full one, or
change nothing. The answer of the push tells the last case from the others. -/
theorem push_cases (leaders : Leaders α) (metric : Size) (item : α) :
    (leaders.length < leaders.capacity ∧ leaders.admits metric = true ∧
      leaders.push metric item =
        { leaders with ascending := place (metric,item) leaders.ascending }) ∨
    (∃ least rest, leaders.ascending = least :: rest ∧ leaders.capacity ≤ leaders.length ∧
      least.1 < metric ∧ leaders.admits metric = true ∧
      leaders.push metric item = { leaders with ascending := place (metric,item) rest }) ∨
    (leaders.capacity ≤ leaders.length ∧ (∀ least ∈ leaders.ascending.head?, metric ≤ least.1) ∧
      leaders.admits metric = false ∧ leaders.push metric item = leaders) := by
  by_cases hfull : leaders.capacity ≤ leaders.length
  · right
    cases htable : leaders.ascending with
    | nil => exact Or.inr ⟨hfull,by simp,by simp [admits,isFull,leastMetric?,htable,hfull],
        by simp [push,admits,isFull,leastMetric?,htable,hfull]⟩
    | cons least rest =>
      by_cases hlt : least.1 < metric
      · exact Or.inl ⟨least,rest,rfl,hfull,hlt,
          by simp [admits,isFull,leastMetric?,htable,hfull,hlt],
          push_of_less htable hfull hlt item⟩
      · exact Or.inr ⟨hfull,by simpa using UInt64.not_lt.mp hlt,
          by simp [admits,isFull,leastMetric?,htable,hfull,hlt],
          by simp [push,admits,isFull,leastMetric?,htable,hfull,hlt]⟩
  · have hroom := Nat.lt_of_not_le hfull
    exact Or.inl ⟨hroom,by simp [admits,isFull,hfull],push_of_room hroom metric item⟩

omit [Ord α] in
theorem admits_iff (leaders : Leaders α) (metric : Size) :
    leaders.admits metric = true ↔
      leaders.length < leaders.capacity ∨ ∃ least ∈ leaders.ascending.head?, least.1 < metric := by
  cases h : leaders.ascending.head? <;> simp [admits,isFull,leastMetric?,h]

theorem push_of_not_admits {leaders : Leaders α} {metric : Size} (h : leaders.admits metric = false)
    (item : α) : leaders.push metric item = leaders := by
  rcases leaders.push_cases metric item with ⟨_,ha,_⟩ | ⟨_,_,_,_,_,ha,_⟩ | ⟨_,_,_,he⟩
  · simp [h] at ha
  · simp [h] at ha
  · exact he

@[simp] theorem capacity_push (leaders : Leaders α) (metric : Size) (item : α) :
    (leaders.push metric item).capacity = leaders.capacity := by
  rcases leaders.push_cases metric item with ⟨_,_,he⟩ | ⟨_,_,_,_,_,_,he⟩ | ⟨_,_,_,he⟩ <;> rw [he]

/-- What every push keeps of a table, for any comparison of items. -/
structure Orderly (leaders : Leaders α) : Prop where
  ascend : MetricsAscend leaders.ascending
  length_le : leaders.length ≤ leaders.capacity

omit [Ord α] in
theorem orderly_empty (capacity : Nat) : Orderly ({ capacity } : Leaders α) :=
  ⟨List.Pairwise.nil,Nat.zero_le _⟩

theorem Orderly.push {leaders : Leaders α} (h : Orderly leaders) (metric : Size) (item : α) :
    Orderly (leaders.push metric item) := by
  have hlen := h.length_le
  rcases leaders.push_cases metric item with
    ⟨hroom,_,he⟩ | ⟨least,rest,htable,_,_,_,he⟩ | ⟨_,_,_,he⟩
  · rw [he]
    exact ⟨h.ascend.place _,by rw [length,length_place]; exact hroom⟩
  · have hrest : MetricsAscend rest := (List.pairwise_cons.mp (htable ▸ h.ascend)).2
    rw [he]
    refine ⟨hrest.place _,?_⟩
    simpa [length,htable] using hlen
  · rw [he]
    exact h

theorem Orderly.pushAll {leaders : Leaders α} (h : Orderly leaders) (entries : List (Size × α)) :
    Orderly (leaders.pushAll entries) := by
  induction entries generalizing leaders with
  | nil => exact h
  | cons e rest ih => exact ih (h.push e.1 e.2)

theorem orderly_ofList (capacity : Nat) (entries : List (Size × α)) :
    Orderly (ofList capacity entries) := (orderly_empty capacity).pushAll entries

@[simp] theorem capacity_pushAll (leaders : Leaders α) (entries : List (Size × α)) :
    (leaders.pushAll entries).capacity = leaders.capacity := by
  induction entries generalizing leaders with
  | nil => rfl
  | cons e rest ih => rw [pushAll_cons,ih,capacity_push]

theorem length_push {leaders : Leaders α} (h : leaders.length ≤ leaders.capacity) (metric : Size)
    (item : α) : (leaders.push metric item).length = min leaders.capacity (leaders.length + 1) := by
  rcases leaders.push_cases metric item with
    ⟨hroom,_,he⟩ | ⟨least,rest,htable,hfull,_,_,he⟩ | ⟨hfull,_,_,he⟩
  · rw [he]
    simp only [length,length_place] at *
    omega
  · rw [he]
    simp only [length,length_place,htable,List.length_cons] at *
    omega
  · rw [he]
    omega

theorem length_pushAll {leaders : Leaders α} (h : leaders.length ≤ leaders.capacity)
    (entries : List (Size × α)) :
    (leaders.pushAll entries).length = min leaders.capacity (leaders.length + entries.length) := by
  induction entries generalizing leaders with
  | nil => simp only [pushAll_nil,List.length_nil]; omega
  | cons e rest ih =>
    have hlen := length_push h e.1 e.2
    rw [pushAll_cons,ih (by rw [hlen,capacity_push]; omega),capacity_push,hlen,List.length_cons]
    omega

theorem pushAll_perm {leaders : Leaders α} {entries : List (Size × α)}
    (h : leaders.length + entries.length ≤ leaders.capacity) :
    (leaders.pushAll entries).ascending.Perm (leaders.ascending ++ entries) := by
  induction entries generalizing leaders with
  | nil => simp
  | cons e rest ih =>
    rw [List.length_cons] at h
    have hroom : leaders.length < leaders.capacity := by omega
    have hpush := push_of_room hroom e.1 e.2
    have hroom' : (leaders.push e.1 e.2).length + rest.length ≤ (leaders.push e.1 e.2).capacity := by
      rw [capacity_push,length_push (Nat.le_of_lt hroom)]
      omega
    have hih := ih hroom'
    rw [hpush] at hih
    rw [pushAll_cons,hpush]
    exact (hih.trans ((place_perm _ _).append_right rest)).trans List.perm_middle.symm

theorem ofList_perm {capacity : Nat} {entries : List (Size × α)} (h : entries.length ≤ capacity) :
    (ofList capacity entries).ascending.Perm entries :=
  pushAll_perm (by simpa [length] using h)

theorem length_ofList (capacity : Nat) (entries : List (Size × α)) :
    (ofList capacity entries).length = min capacity entries.length := by
  rw [ofList_eq_pushAll,length_pushAll (orderly_empty capacity).length_le]
  simp [length]

/-! ## The part above a bar -/

/-- A condition on metrics that every greater metric meets too. -/
def UpwardClosed (p : Size → Bool) : Prop := ∀ a b, a ≤ b → p a = true → p b = true

/-- The leaders whose metrics meet a condition. -/
def restrict (p : Size → Bool) (leaders : Leaders α) : Leaders α :=
  { leaders with ascending := leaders.ascending.filter fun e => p e.1 }

theorem filter_place_of_not {p : Size → Bool} {e : Size × α} (he : p e.1 = false)
    (table : List (Size × α)) :
    (place e table).filter (fun x => p x.1) = table.filter (fun x => p x.1) := by
  induction table with
  | nil => simp [he]
  | cons first rest ih =>
    rw [place_cons]
    split
    · simp only [List.filter_cons,ih]
    · rw [List.filter_cons_of_neg (by simp [he])]

theorem filter_place {p : Size → Bool} (hp : UpwardClosed p) {e : Size × α} (he : p e.1 = true)
    (table : List (Size × α)) :
    (place e table).filter (fun x => p x.1) = place e (table.filter (fun x => p x.1)) := by
  induction table with
  | nil => simp [he]
  | cons first rest ih =>
    rw [place_cons]
    split
    next habove =>
      rw [List.filter_cons,List.filter_cons,ih]
      split
      · rw [place_cons,if_pos habove]
      · rfl
    next habove =>
      have hfirst : p first.1 = true := hp _ _ (le_of_not_above (Bool.not_eq_true _ ▸ habove)) he
      simp only [List.filter_cons,he,hfirst,if_true]
      rw [place_cons,if_neg habove]

omit [Ord α] in
theorem restrict_eq_self {p : Size → Bool} {leaders : Leaders α}
    (h : ∀ x ∈ leaders.ascending, p x.1 = true) : restrict p leaders = leaders := by
  rw [restrict,List.filter_eq_self.mpr h]

omit [Ord α] in
theorem Orderly.all_of_least {leaders : Leaders α} (h : Orderly leaders) {p : Size → Bool}
    (hp : UpwardClosed p) (hleast : ∀ least ∈ leaders.ascending.head?, p least.1 = true) :
    ∀ x ∈ leaders.ascending, p x.1 = true := by
  have hall := h.ascend
  cases htable : leaders.ascending with
  | nil => simp
  | cons least rest =>
    rw [htable] at hall hleast
    have hfirst := hleast least rfl
    intro x hx
    rcases List.mem_cons.mp hx with rfl | hx
    · exact hfirst
    · exact hp _ _ ((List.pairwise_cons.mp hall).1 x hx) hfirst

/-- Below the bar a push does not change what is above it. -/
theorem restrict_push_of_not {p : Size → Bool} (hp : UpwardClosed p) {metric : Size}
    (hmetric : p metric = false) (leaders : Leaders α) (item : α) :
    restrict p (leaders.push metric item) = restrict p leaders := by
  rcases leaders.push_cases metric item with
    ⟨_,_,he⟩ | ⟨least,rest,htable,_,hlt,_,he⟩ | ⟨_,_,_,he⟩
  · rw [he,restrict,restrict,filter_place_of_not (e := (metric,item)) hmetric]
  · have hleast : p least.1 = false := Bool.eq_false_iff.mpr fun hcon =>
      Bool.eq_false_iff.mp hmetric (hp _ _ (UInt64.le_of_lt hlt) hcon)
    rw [he,restrict,restrict,filter_place_of_not (e := (metric,item)) hmetric,htable]
    simp [hleast]
  · rw [he]

/-- Above the bar a push does to what is above it what it does to the whole table: the entry that a
full table gives up is either above the bar too, or leaves the restricted table with room. -/
theorem restrict_push {leaders : Leaders α} (h : Orderly leaders) {p : Size → Bool}
    (hp : UpwardClosed p) {metric : Size} (hmetric : p metric = true) (item : α) :
    restrict p (leaders.push metric item) = (restrict p leaders).push metric item := by
  have hlen := h.length_le
  have hsub : (restrict p leaders).length ≤ leaders.length := List.length_filter_le ..
  rcases leaders.push_cases metric item with
    ⟨hroom,_,he⟩ | ⟨least,rest,htable,hfull,hlt,_,he⟩ | ⟨_,hleast,_,he⟩
  · rw [he,push_of_room (Nat.lt_of_le_of_lt hsub hroom),restrict,
      filter_place hp (e := (metric,item)) hmetric]
    rfl
  · cases hp' : p least.1 with
    | true =>
      have hall := h.all_of_least hp (by simpa [htable] using hp')
      have hpushed : ∀ x ∈ (leaders.push metric item).ascending, p x.1 = true := by
        intro x hx
        rw [he] at hx
        rcases mem_place.mp hx with rfl | hx
        · exact hmetric
        · exact hall x (htable ▸ List.mem_cons_of_mem _ hx)
      rw [restrict_eq_self hall,restrict_eq_self hpushed]
    | false =>
      have hroom : (restrict p leaders).length < leaders.capacity := by
        have hrest := List.length_filter_le (fun x : Size × α => p x.1) rest
        simp only [restrict,length,htable,List.filter_cons,hp',List.length_cons] at hlen ⊢
        simp only [Bool.false_eq_true,if_false]
        omega
      rw [he,push_of_room hroom,restrict,restrict,filter_place hp (e := (metric,item)) hmetric,htable]
      simp [hp']
  · have hall := h.all_of_least hp fun least hl => hp _ _ (hleast least hl) hmetric
    rw [he,restrict_eq_self hall,he]

/-- **The restriction law.** The part of the leaders above a bar are the leaders of that part of the
stream. -/
theorem restrict_pushAll {leaders : Leaders α} (h : Orderly leaders) {p : Size → Bool}
    (hp : UpwardClosed p) (entries : List (Size × α)) :
    restrict p (leaders.pushAll entries) =
      (restrict p leaders).pushAll (entries.filter fun e => p e.1) := by
  induction entries generalizing leaders with
  | nil => rfl
  | cons e rest ih =>
    rw [pushAll_cons,ih (h.push e.1 e.2)]
    cases he : p e.1 with
    | true => simp [he,restrict_push h hp he]
    | false => simp [he,restrict_push_of_not hp he]

theorem restrict_ofList (capacity : Nat) (entries : List (Size × α)) {p : Size → Bool}
    (hp : UpwardClosed p) :
    restrict p (ofList capacity entries) = ofList capacity (entries.filter fun e => p e.1) :=
  restrict_pushAll (orderly_empty capacity) hp entries

/-- Above any bar, as many entries are kept as there are, up to the capacity. -/
theorem countP_ofList (capacity : Nat) (entries : List (Size × α)) {p : Size → Bool}
    (hp : UpwardClosed p) :
    (ofList capacity entries).ascending.countP (fun e => p e.1) =
      min capacity (entries.countP fun e => p e.1) := by
  have h := congrArg length (restrict_ofList capacity entries hp)
  rw [length_ofList] at h
  rw [List.countP_eq_length_filter,List.countP_eq_length_filter]
  exact h

theorem upwardClosed_le (bar : Size) : UpwardClosed fun metric => bar ≤ metric := by
  intro a b hab ha
  exact decide_eq_true (UInt64.le_trans (of_decide_eq_true ha) hab)

theorem upwardClosed_lt (bar : Size) : UpwardClosed fun metric => bar < metric := by
  intro a b hab ha
  exact decide_eq_true (UInt64.lt_of_lt_of_le (of_decide_eq_true ha) hab)

/-- A push keeps its entry exactly when fewer than `capacity` earlier entries were as large. -/
theorem admits_ofList_iff (capacity : Nat) (before : List (Size × α)) (metric : Size) :
    (ofList capacity before).admits metric = true ↔
      before.countP (fun e => metric ≤ e.1) < capacity := by
  have horderly := orderly_ofList capacity before
  have hcap : (ofList capacity before).capacity = capacity := capacity_pushAll ..
  have hlen := length_ofList capacity before
  have hcount := countP_ofList capacity before (upwardClosed_le metric)
  rw [admits_iff,hcap,hlen]
  constructor
  · rintro (hroom | ⟨least,hhead,hlt⟩)
    · have hle : before.countP (fun e => decide (metric ≤ e.1)) ≤ before.length :=
        List.countP_le_length
      omega
    · obtain ⟨rest,htable⟩ : ∃ rest, (ofList capacity before).ascending = least :: rest :=
        List.head?_eq_some_iff.mp hhead
      have hrest : rest.countP (fun e => decide (metric ≤ e.1)) ≤ rest.length :=
        List.countP_le_length
      have hleast : ¬ metric ≤ least.1 := UInt64.not_le.mpr hlt
      rw [htable,List.countP_cons_of_neg (by simpa using hleast)] at hcount
      rw [length,htable,List.length_cons] at hlen
      omega
  · intro hcnt
    refine Classical.or_iff_not_imp_left.mpr fun hroom => Classical.byContradiction fun hnone => ?_
    have hall := horderly.all_of_least (upwardClosed_le metric) fun least hl =>
      decide_eq_true (UInt64.not_lt.mp fun hlt => hnone ⟨least,hl,hlt⟩)
    rw [List.countP_eq_length.mpr hall] at hcount
    rw [length] at hlen
    omega

end SizeSurvey.Leaders
