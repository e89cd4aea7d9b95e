import SizeSurvey.Proofs.Ranking.Restriction

/-! # Which entries of a stream survive

The metrics kept are the largest ones of the stream. Of the entries at the bar, the least metric
kept, only those count that were among the first `capacity` entries at or above it: a full table
turns later ones away, and for each entry above the bar it gives up the least item at the bar.
-/
namespace SizeSurvey.Leaders
variable {α : Type} [Ord α]

/-! ## Metrics of the leaders -/

omit [Ord α] in
/-- The metrics of a stream, the largest first. -/
def metricsDescending (entries : List (Size × α)) : List Size :=
  (entries.map Prod.fst).mergeSort fun a b => b ≤ a

omit [Ord α] in
theorem metricsDescending_pairwise (entries : List (Size × α)) :
    (metricsDescending entries).Pairwise fun a b => b ≤ a := by
  have h : (metricsDescending entries).Pairwise fun a b => decide (b ≤ a) = true := by
    refine List.pairwise_mergeSort ?_ (fun a b => by simpa using UInt64.le_total b a) _
    intro a b c hab hbc
    exact decide_eq_true (UInt64.le_trans (of_decide_eq_true hbc) (of_decide_eq_true hab))
  exact h.imp of_decide_eq_true

omit [Ord α] in
theorem metricsDescending_eq {entries : List (Size × α)} {metrics : List Size}
    (hperm : metrics.Perm (entries.map Prod.fst)) (hsorted : metrics.Pairwise fun a b => b ≤ a) :
    metricsDescending entries = metrics :=
  ((List.mergeSort_perm ..).trans hperm.symm).eq_of_pairwise
    (fun _ _ _ _ hab hba => UInt64.le_antisymm hba hab) (metricsDescending_pairwise entries) hsorted

omit [Ord α] in
theorem countP_metricsDescending (p : Size → Bool) (entries : List (Size × α)) :
    (metricsDescending entries).countP p = entries.countP fun e => p e.1 := by
  rw [metricsDescending,(List.mergeSort_perm ..).countP_eq,List.countP_map]
  rfl

/-- The first values of a descending list hold as many of an upward closed condition as there are,
up to their number. -/
theorem countP_take_of_descending {values : List Size} (h : values.Pairwise fun a b => b ≤ a)
    {p : Size → Bool} (hp : UpwardClosed p) (n : Nat) :
    (values.take n).countP p = min n (values.countP p) := by
  induction values generalizing n with
  | nil => simp
  | cons v rest ih =>
    obtain ⟨hv,hrest⟩ := List.pairwise_cons.mp h
    cases n with
    | zero => simp
    | succ n =>
      cases hpv : p v with
      | true =>
        rw [List.take_succ_cons,List.countP_cons_of_pos hpv,List.countP_cons_of_pos hpv,ih hrest]
        omega
      | false =>
        have hnone : ∀ x ∈ rest, ¬ p x = true := fun x hx hpx =>
          Bool.eq_false_iff.mp hpv (hp _ _ (hv x hx) hpx)
        rw [List.take_succ_cons,List.countP_cons_of_neg (by simp [hpv]),
          List.countP_cons_of_neg (by simp [hpv]),List.countP_eq_zero.mpr hnone,
          List.countP_eq_zero.mpr fun x hx => hnone x (List.mem_of_mem_take hx)]
        simp

theorem eq_of_countP_le {xs ys : List Size} (hx : xs.Pairwise fun a b => b ≤ a)
    (hy : ys.Pairwise fun a b => b ≤ a)
    (h : ∀ p, UpwardClosed p → xs.countP p = ys.countP p) : xs = ys := by
  have hcount : ∀ v, xs.count v = ys.count v := by
    intro v
    have hsplit : ∀ zs : List Size, zs.countP (v ≤ ·) = zs.countP (v < ·) + zs.count v := by
      intro zs
      induction zs with
      | nil => rfl
      | cons z zs ih =>
        simp only [List.countP_cons,List.count_cons,ih,decide_eq_true_eq,beq_iff_eq]
        grind
    have h1 := h _ (upwardClosed_le v)
    have h2 := h _ (upwardClosed_lt v)
    have h3 := hsplit xs
    have h4 := hsplit ys
    omega
  exact (List.perm_iff_count.mpr hcount).eq_of_pairwise
    (fun a b _ _ hab hba => UInt64.le_antisymm hba hab) hx hy

theorem metrics_toList (capacity : Nat) (entries : List (Size × α)) :
    (ofList capacity entries).toList.map Prod.fst = (metricsDescending entries).take capacity := by
  have hascend := (orderly_ofList capacity entries).ascend
  refine eq_of_countP_le ?_ ((metricsDescending_pairwise entries).sublist (List.take_sublist ..)) ?_
  · rw [toList,List.map_reverse,List.pairwise_reverse,List.pairwise_map]
    exact hascend
  · intro p hp
    rw [countP_take_of_descending (metricsDescending_pairwise entries) hp,
      countP_metricsDescending,← countP_ofList capacity entries hp,toList,List.countP_map,
      List.countP_reverse]
    rfl

/-- The value at a place of a descending list has fewer values above it than the place is far, and
more that are at least as great. -/
theorem countP_of_getElem? {values : List Size} (h : values.Pairwise fun a b => b ≤ a) {i : Nat}
    {bar : Size} (hbar : values[i]? = some bar) :
    values.countP (bar < ·) ≤ i ∧ i < values.countP (bar ≤ ·) := by
  obtain ⟨hi,hget⟩ := List.getElem?_eq_some_iff.mp hbar
  have hlen : (values.take (i + 1)).length = i + 1 := by simp; omega
  have hlast : values.take (i + 1) = values.take i ++ [bar] := by
    rw [List.take_add_one,hbar]
    rfl
  have hge : ∀ x ∈ values.take (i + 1), decide (bar ≤ x) = true := by
    have hpre := h.sublist (List.take_sublist (i + 1) values)
    rw [hlast] at hpre ⊢
    intro x hx
    rcases List.mem_append.mp hx with hx | hx
    · exact decide_eq_true ((List.pairwise_append.mp hpre).2.2 x hx bar (by simp))
    · rw [List.mem_singleton.mp hx]
      exact decide_eq_true (UInt64.le_refl bar)
  have hle := countP_take_of_descending h (upwardClosed_le bar) (i + 1)
  have hlt := countP_take_of_descending h (upwardClosed_lt bar) (i + 1)
  rw [List.countP_eq_length.mpr hge,hlen] at hle
  have hbound : (values.take i).countP (bar < ·) ≤ i :=
    Nat.le_trans List.countP_le_length (List.length_take_le ..)
  rw [hlast,List.countP_append] at hlt
  simp only [List.countP_singleton,UInt64.lt_irrefl,decide_false,Bool.false_eq_true,if_false] at hlt
  omega

/-! ## Entries at the bar -/

omit [Ord α] in
theorem countP_eq_add_lt {entries : List (Size × α)} {bar : Size} (hbar : ∀ e ∈ entries, bar ≤ e.1) :
    entries.countP (fun e => e.1 = bar) + entries.countP (fun e => bar < e.1) = entries.length := by
  induction entries with
  | nil => rfl
  | cons e rest ih =>
    have hih := ih fun x hx => hbar x (List.mem_cons_of_mem _ hx)
    have hle := hbar e List.mem_cons_self
    simp only [List.countP_cons,decide_eq_true_eq,List.length_cons]
    grind

omit [Ord α] in
/-- An ascending table that keeps to a bar has its entries at the bar in front. -/
theorem MetricsAscend.eq_append {table : List (Size × α)} (h : MetricsAscend table) {bar : Size}
    (hbar : ∀ x ∈ table, bar ≤ x.1) :
    table = table.filter (fun x => x.1 = bar) ++ table.filter (fun x => bar < x.1) := by
  induction table with
  | nil => rfl
  | cons first rest ih =>
    obtain ⟨hfirst,hrest⟩ := List.pairwise_cons.mp h
    have hih := ih hrest fun x hx => hbar x (List.mem_cons_of_mem _ hx)
    have hle := hbar first List.mem_cons_self
    by_cases heq : first.1 = bar
    · have hlt : ¬ bar < first.1 := heq ▸ UInt64.lt_irrefl _
      simpa [heq,hlt] using hih
    · have hlt : bar < first.1 := by grind
      have hnone : rest.filter (fun x => x.1 = bar) = [] := by
        refine List.filter_eq_nil_iff.mpr fun x hx hxb => heq ?_
        have := hfirst x hx
        rw [of_decide_eq_true hxb] at this
        exact UInt64.le_antisymm this hle
      rw [hnone,List.nil_append] at hih
      simpa [heq,hlt,hnone] using hih

/-- A full table at a bar turns entries at the bar away, and for each entry above it gives up the
least of its own entries at the bar. -/
theorem pushAll_at_bar {leaders : Leaders α} {bar : Size} {ties higher : List (Size × α)}
    (htable : leaders.ascending = ties ++ higher) (hties : ∀ x ∈ ties, x.1 = bar)
    (hhigher : ∀ x ∈ higher, bar < x.1) (hfull : leaders.capacity ≤ leaders.length)
    {entries : List (Size × α)} (hbar : ∀ e ∈ entries, bar ≤ e.1)
    (hcount : entries.countP (fun e => bar < e.1) ≤ ties.length) :
    ∃ higher', (leaders.pushAll entries).ascending =
        ties.drop (entries.countP fun e => bar < e.1) ++ higher' ∧ ∀ x ∈ higher', bar < x.1 := by
  induction entries generalizing leaders ties higher with
  | nil => exact ⟨higher,htable,hhigher⟩
  | cons e rest ih =>
    have hrest : ∀ x ∈ rest, bar ≤ x.1 := fun x hx => hbar x (List.mem_cons_of_mem _ hx)
    rw [pushAll_cons]
    by_cases hlt : bar < e.1
    · rw [List.countP_cons_of_pos (by simpa using hlt)] at hcount ⊢
      obtain ⟨least,ties,rfl⟩ : ∃ least ties', ties = least :: ties' :=
        List.exists_cons_of_length_pos (by omega)
      have hless : least.1 < e.1 := hties least List.mem_cons_self ▸ hlt
      have hties' : ∀ x ∈ ties, x.1 = bar := fun x hx => hties x (List.mem_cons_of_mem _ hx)
      have hpush := push_of_less htable hfull hless e.2
      have hpass : place e (ties ++ higher) = ties ++ place e higher :=
        place_append higher fun x hx => above_of_lt (hties' x hx ▸ hlt)
      have hhigher' : ∀ x ∈ place e higher, bar < x.1 := by
        intro x hx
        rcases mem_place.mp hx with rfl | hx
        · exact hlt
        · exact hhigher x hx
      have hfull' : (leaders.push e.1 e.2).capacity ≤ (leaders.push e.1 e.2).length := by
        rw [hpush]
        simpa [length,htable] using hfull
      rw [List.drop_succ_cons]
      exact ih (by rw [hpush]; exact hpass) hties' hhigher' hfull' hrest
        (Nat.le_of_succ_le_succ hcount)
    · have hnot : leaders.admits e.1 = false := by
        refine Bool.eq_false_iff.mpr fun h => ?_
        rcases (admits_iff leaders e.1).mp h with hroom | ⟨least,hhead,hless⟩
        · omega
        · have hle : bar ≤ least.1 := by
            have hmem := List.mem_of_head? hhead
            rw [htable] at hmem
            rcases List.mem_append.mp hmem with hm | hm
            · exact hties least hm ▸ UInt64.le_refl _
            · exact UInt64.le_of_lt (hhigher least hm)
          exact hlt (UInt64.lt_of_le_of_lt hle hless)
      rw [List.countP_cons_of_neg (by simpa using hlt)] at hcount ⊢
      rw [push_of_not_admits hnot]
      exact ih htable hties hhigher hfull hrest hcount

/-- Only the first `capacity` entries at or above the bar decide which entries at the bar are
kept: the least of them are given up, one for each later entry above the bar. -/
theorem ties_ofList {capacity : Nat} {entries : List (Size × α)} {bar : Size}
    (hbar : ∀ e ∈ entries, bar ≤ e.1) (hfull : capacity ≤ entries.length)
    (hcount : entries.countP (fun e => bar < e.1) ≤ capacity) :
    (ofList capacity entries).ascending.filter (fun e => e.1 = bar) =
      ((ofList capacity (entries.take capacity)).ascending.filter fun e => e.1 = bar).drop
        ((entries.drop capacity).countP fun e => bar < e.1) := by
  have hlen : (entries.take capacity).length = capacity := List.length_take_of_le hfull
  have hperm := ofList_perm (α := α) (Nat.le_of_eq hlen)
  have hascend := (orderly_ofList capacity (entries.take capacity)).ascend
  have hcap : (ofList capacity (entries.take capacity)).capacity = capacity := capacity_pushAll ..
  have hrun : ofList capacity entries =
      (ofList capacity (entries.take capacity)).pushAll (entries.drop capacity) := by
    rw [← ofList_append,List.take_append_drop]
  rw [hrun]
  generalize ofList capacity (entries.take capacity) = first at hperm hascend hcap
  have hsplit := hascend.eq_append fun x hx => hbar x (List.mem_of_mem_take (hperm.mem_iff.mp hx))
  have hties : ∀ x ∈ first.ascending.filter (fun e => e.1 = bar), x.1 = bar := fun x hx =>
    of_decide_eq_true (List.mem_filter.mp hx).2
  have hhigher : ∀ x ∈ first.ascending.filter (fun e => bar < e.1), bar < x.1 := fun x hx =>
    of_decide_eq_true (List.mem_filter.mp hx).2
  have hroom : first.capacity ≤ first.length :=
    Nat.le_of_eq (by rw [hcap,length,hperm.length_eq,hlen])
  have hlater : (entries.drop capacity).countP (fun e => bar < e.1) ≤
      (first.ascending.filter fun e => e.1 = bar).length := by
    have htotal : entries.countP (fun e => bar < e.1) =
        (entries.take capacity).countP (fun e => bar < e.1) +
          (entries.drop capacity).countP fun e => bar < e.1 := by
      rw [← List.countP_append,List.take_append_drop]
    have hparts := countP_eq_add_lt fun e he => hbar e (List.mem_of_mem_take (i := capacity) he)
    rw [hlen] at hparts
    rw [(hperm.filter _).length_eq,← List.countP_eq_length_filter]
    omega
  obtain ⟨higher,htable,hhigher'⟩ := pushAll_at_bar hsplit hties hhigher hroom
    (fun e he => hbar e (List.mem_of_mem_drop he)) hlater
  have hnone : higher.filter (fun e => e.1 = bar) = [] := List.filter_eq_nil_iff.mpr fun x hx hxb =>
    UInt64.lt_irrefl bar (of_decide_eq_true hxb ▸ hhigher' x hx)
  rw [htable,List.filter_append,hnone,List.append_nil]
  exact List.filter_eq_self.mpr fun x hx => decide_eq_true (hties x (List.mem_of_mem_drop hx))

/-- The entries of a stream, the largest first. -/
def entriesDescending (entries : List (Size × α)) : List (Size × α) :=
  entries.mergeSort fun a b => !above b a

section Lawful
variable [Std.TransOrd α]

theorem Ascends.push {leaders : Leaders α} (h : Ascends leaders.ascending) (metric : Size)
    (item : α) : Ascends (leaders.push metric item).ascending := by
  rcases leaders.push_cases metric item with
    ⟨_,_,he⟩ | ⟨least,rest,htable,_,_,_,he⟩ | ⟨_,_,_,he⟩
  · rw [he]
    exact h.place _
  · have hrest : Ascends rest := (List.pairwise_cons.mp (htable ▸ h)).2
    rw [he]
    exact hrest.place _
  · rw [he]
    exact h

theorem Ascends.pushAll {leaders : Leaders α} (h : Ascends leaders.ascending)
    (entries : List (Size × α)) : Ascends (leaders.pushAll entries).ascending := by
  induction entries generalizing leaders with
  | nil => exact h
  | cons e rest ih => exact ih (h.push e.1 e.2)

theorem ascends_ofList (capacity : Nat) (entries : List (Size × α)) :
    Ascends (ofList capacity entries).ascending :=
  (show Ascends ({ capacity } : Leaders α).ascending from List.Pairwise.nil).pushAll entries

theorem entriesDescending_pairwise (entries : List (Size × α)) :
    (entriesDescending entries).Pairwise fun a b => above b a = false := by
  have h : (entriesDescending entries).Pairwise fun a b => (!above b a) = true := by
    refine List.pairwise_mergeSort ?_ (fun a b => by simpa using not_above_total b a) _
    intro a b c hab hbc
    rw [Bool.not_eq_true'] at *
    exact not_above_trans hbc hab
  exact h.imp fun hab => by simpa using hab

theorem Ascends.reverse_eq [Std.LawfulEqOrd α] {table entries : List (Size × α)} (h : Ascends table)
    (hperm : table.Perm entries) : table.reverse = entriesDescending entries := by
  have hsame : table.reverse.Perm (entriesDescending entries) :=
    (table.reverse_perm.trans hperm).trans (List.mergeSort_perm ..).symm
  exact hsame.eq_of_pairwise (fun a b _ _ hab hba => eq_of_not_above hba hab)
    (List.pairwise_reverse.mpr h) (entriesDescending_pairwise entries)

variable [Std.LawfulEqOrd α]

/-- The kept entries at the bar are the largest ones of the first `capacity` entries at or above
it, as many as the entries above the bar leave room for. -/
theorem ties_toList {capacity : Nat} {entries : List (Size × α)} {bar : Size}
    (hfull : capacity ≤ entries.countP fun e => bar ≤ e.1)
    (hcount : entries.countP (fun e => bar < e.1) ≤ capacity) :
    (ofList capacity entries).toList.filter (fun e => e.1 = bar) =
      (entriesDescending
        (((entries.filter fun e => bar ≤ e.1).take capacity).filter fun e => e.1 = bar)).take
        (capacity - entries.countP fun e => bar < e.1) := by
  have hbar : ∀ e ∈ entries.filter (fun e => bar ≤ e.1), bar ≤ e.1 := fun e he =>
    of_decide_eq_true (List.mem_filter.mp he).2
  have habove : (entries.filter fun e => bar ≤ e.1).countP (fun e => bar < e.1) =
      entries.countP fun e => bar < e.1 := by
    rw [List.countP_filter]
    exact List.countP_congr fun e _ => by simpa using UInt64.le_of_lt
  have hsame : (ofList capacity entries).ascending.filter (fun e => e.1 = bar) =
      (ofList capacity (entries.filter fun e => bar ≤ e.1)).ascending.filter fun e => e.1 = bar := by
    rw [← restrict_ofList capacity entries (upwardClosed_le bar),restrict,List.filter_filter]
    refine List.filter_congr fun e _ => ?_
    rw [Bool.eq_iff_iff]
    simpa using fun h : e.1 = bar => h ▸ UInt64.le_refl _
  rw [List.countP_eq_length_filter] at hfull
  rw [toList,List.filter_reverse,hsame,ties_ofList hbar hfull (habove ▸ hcount),← habove]
  generalize entries.filter (fun e => bar ≤ e.1) = upper at hbar hfull
  have hlen : (upper.take capacity).length = capacity := List.length_take_of_le hfull
  have hperm := (ofList_perm (Nat.le_of_eq hlen)).filter fun e => e.1 = bar
  have hascend : Ascends ((ofList capacity (upper.take capacity)).ascending.filter
      fun e => e.1 = bar) := (ascends_ofList ..).filter _
  have hparts := countP_eq_add_lt fun e he => hbar e (List.mem_of_mem_take (i := capacity) he)
  have htotal : upper.countP (fun e => bar < e.1) =
      (upper.take capacity).countP (fun e => bar < e.1) +
        (upper.drop capacity).countP fun e => bar < e.1 := by
    rw [← List.countP_append,List.take_append_drop]
  rw [hlen] at hparts
  rw [List.reverse_drop,hascend.reverse_eq hperm,hperm.length_eq,← List.countP_eq_length_filter]
  congr 1
  omega

/-- **What leaders keep.** Their metrics are the largest ones of the stream. When the stream is
longer than they are, with `bar` the least of these metrics, all entries above the bar are kept and
no entry below it, and of the entries at the bar the largest ones among the first `capacity` entries
at or above it. A push keeps its entry exactly when fewer than `capacity` earlier ones were as
large, and the entries are read off in descending order of metric and item. -/
theorem toList_ofList (capacity : Nat) (entries : List (Size × α)) :
    let kept := (ofList capacity entries).toList
    ((ofList capacity entries).length = min capacity entries.length ∧
      kept.map Prod.fst = (metricsDescending entries).take (min capacity entries.length) ∧
      (entries.length ≤ capacity → kept.Perm entries)) ∧
    (0 < capacity → capacity < entries.length →
      ∃ bar, (metricsDescending entries)[capacity - 1]? = some bar ∧
        (kept.filter fun e => bar < e.1).Perm (entries.filter fun e => bar < e.1) ∧
        (∀ e ∈ kept, bar ≤ e.1) ∧
        kept.filter (fun e => e.1 = bar) =
          (entriesDescending
            (((entries.filter fun e => bar ≤ e.1).take capacity).filter fun e => e.1 = bar)).take
            (capacity - entries.countP fun e => bar < e.1)) ∧
    (∀ before e after, entries = before ++ e :: after →
      ((ofList capacity before).admits e.1 = true ↔
        0 < capacity ∧ before.countP (fun x => e.1 ≤ x.1) < capacity)) ∧
    kept.Perm (ofList capacity entries).ascending ∧
    kept.Pairwise fun a b => b.1 < a.1 ∨ a.1 = b.1 ∧ (compare b.2 a.2).isLE = true := by
  intro kept
  have hkept : kept.Perm (ofList capacity entries).ascending := List.reverse_perm _
  have hlen := length_ofList capacity entries
  have hmetrics : (metricsDescending entries).length = entries.length := by simp [metricsDescending]
  refine ⟨⟨hlen,?_,fun h => hkept.trans (ofList_perm h)⟩,?_,?_,hkept,?_⟩
  · rw [metrics_toList]
    exact List.take_eq_take_iff.mpr (by rw [hmetrics]; omega)
  · intro hpos hlt
    obtain ⟨bar,hbar⟩ : ∃ bar, (metricsDescending entries)[capacity - 1]? = some bar :=
      ⟨_,List.getElem?_eq_getElem (by omega)⟩
    obtain ⟨hhigher,hupper⟩ := countP_of_getElem? (metricsDescending_pairwise entries) hbar
    rw [countP_metricsDescending] at hhigher hupper
    refine ⟨bar,hbar,?_,?_,ties_toList (by omega) (by omega)⟩
    · have hrestrict := congrArg ascending (restrict_ofList capacity entries (upwardClosed_lt bar))
      refine (hkept.filter _).trans ((List.Perm.of_eq hrestrict).trans (ofList_perm ?_))
      rw [← List.countP_eq_length_filter]
      omega
    · have hcount := countP_ofList capacity entries (upwardClosed_le bar)
      have hall := List.countP_eq_length.mp (hcount.trans (by rw [length] at hlen; omega))
      exact fun e he => of_decide_eq_true (hall e (hkept.mem_iff.mp he))
  · intro before e after _
    rw [admits_ofList_iff]
    omega
  · refine (List.pairwise_reverse.mpr (ascends_ofList capacity entries)).imp fun {a b} hab => ?_
    rcases Decidable.em (b.1 < a.1) with hlt | hge
    · exact Or.inl hlt
    · have heq : a.1 = b.1 := UInt64.le_antisymm (UInt64.not_lt.mp hge) (le_of_not_above hab)
      refine Or.inr ⟨heq,Ordering.isLE_iff_ne_gt.mpr fun hgt => ?_⟩
      rw [above_iff.mpr (Or.inr ⟨heq.symm,hgt⟩)] at hab
      cases hab

end Lawful

/-- Two of the four entries at the bar come too late to be kept, and one makes room. -/
theorem toList_ofList_late_ties :
    let entries : List (Size × Nat) := [(5, 1), (3, 9), (5, 4), (5, 8), (7, 2), (5, 9)]
    (0 < 2 ∧ 2 < entries.length ∧ (metricsDescending entries)[1]? = some 5) ∧
      (ofList 2 entries).toList.filter (fun e => e.1 = 5) = [(5, 4)] := by
  intro entries
  have hmetrics : metricsDescending entries = [7,5,5,5,5,3] :=
    metricsDescending_eq (by decide) (by decide)
  have hbar : (metricsDescending entries)[1]? = some 5 := by rw [hmetrics]; rfl
  have hfirst : Ascends [((5, 1) : Size × Nat),(5, 4)] := by
    unfold Ascends
    decide
  have htwo : entriesDescending [((5, 1) : Size × Nat),(5, 4)] = [(5, 4),(5, 1)] :=
    (hfirst.reverse_eq (.refl _)).symm
  obtain ⟨bar,hbar',_,_,hties⟩ := (toList_ofList 2 entries).2.1 (by decide) (by decide)
  cases hbar.symm.trans hbar'
  exact ⟨⟨by decide,by decide,hbar⟩,hties.trans (congrArg (List.take 1) htwo)⟩

end SizeSurvey.Leaders
