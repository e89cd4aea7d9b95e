import Mathlib.Algebra.Ring.Nat
import Mathlib.Data.List.Infix
import SizeSurvey.Text.Utf8

/-! # Reading UTF-8

Encoded text is read back without a fault, whatever has been read before it. Out of any octets the
machine reads a character if and only if its octets stand somewhere among them: what it has begun
can only become the character whose octets it has read, and the first octet of a character ends
whatever has been begun before.
-/
namespace SizeSurvey.Text.Utf8

/-! ## The first octet of a character -/
namespace Machine
variable {done : List (Option Char)} {octet : UInt8}

theorem start_ascii (h : octet.toNat < 0x80) :
    start done octet = ⟨some (Char.ofNat octet.toNat) :: done,none⟩ :=
  if_pos h

theorem start_two (hlow : 0xc2 ≤ octet.toNat) (hhigh : octet.toNat < 0xe0) :
    start done octet = ⟨done,some ⟨octet.toNat - 0xc0,1,0x80,0xbf⟩⟩ := by
  rw [start,if_neg (by omega),if_neg (by omega),if_pos hhigh]

/-- After the first octet of three, overlong forms and surrogates are shut out by the range of the
second one. -/
theorem start_three (hlow : 0xe0 ≤ octet.toNat) (hhigh : octet.toNat < 0xf0) :
    start done octet = ⟨done,some ⟨octet.toNat - 0xe0,2,
      if octet.toNat = 0xe0 then 0xa0 else 0x80,if octet.toNat = 0xed then 0x9f else 0xbf⟩⟩ := by
  rw [start,if_neg (by omega),if_neg (by omega),if_neg (by omega)]
  by_cases hfirst : octet.toNat = 0xe0
  · simp [hfirst]
  · by_cases hsurrogate : octet.toNat = 0xed <;> simp [hfirst,hsurrogate,hhigh]

/-- After the first octet of four, overlong forms and values beyond the last character are shut out
by the range of the second one. -/
theorem start_four (hlow : 0xf0 ≤ octet.toNat) (hhigh : octet.toNat < 0xf5) :
    start done octet = ⟨done,some ⟨octet.toNat - 0xf0,3,
      if octet.toNat = 0xf0 then 0x90 else 0x80,if octet.toNat = 0xf4 then 0x8f else 0xbf⟩⟩ := by
  rw [start,if_neg (by omega),if_neg (by omega),if_neg (by omega),if_neg (by omega),
    if_neg (by omega),if_neg (by omega)]
  by_cases hfirst : octet.toNat = 0xf0
  · simp [hfirst]
  · by_cases hlast : octet.toNat = 0xf4
    · simp [hlast]
    · rw [if_neg hfirst,if_pos (by omega),if_neg hfirst,if_neg hlast]

theorem start_fault (h : 0x80 ≤ octet.toNat ∧ octet.toNat < 0xc2 ∨ 0xf5 ≤ octet.toNat) :
    start done octet = ⟨none :: done,none⟩ := by
  unfold start
  rcases h with ⟨hlow,hhigh⟩ | hlow
  · rw [if_neg (by omega),if_pos hhigh]
  · rw [if_neg (by omega),if_neg (by omega),if_neg (by omega),if_neg (by omega),if_neg (by omega),
      if_neg (by omega),if_neg (by omega),if_neg (by omega),if_neg (by omega)]

/-! ## The other octets -/

/-- An octet that is not the first one of a character. -/
def IsTail (octet : UInt8) : Prop :=
  0x80 ≤ octet.toNat ∧ octet.toNat ≤ 0xbf

theorem step_last {value : Nat} {low high : UInt8} (hlow : low.toNat ≤ octet.toNat)
    (hhigh : octet.toNat ≤ high.toNat) :
    step ⟨done,some ⟨value,1,low,high⟩⟩ octet =
      ⟨some (Char.ofNat (value * 64 + (octet.toNat - 0x80))) :: done,none⟩ := by
  simp only [step,if_pos (And.intro (UInt8.le_iff_toNat_le.mpr hlow) (UInt8.le_iff_toNat_le.mpr hhigh)),
    if_pos (Nat.le_refl 1)]

theorem step_more {value missing : Nat} {low high : UInt8} (hlow : low.toNat ≤ octet.toNat)
    (hhigh : octet.toNat ≤ high.toNat) :
    step ⟨done,some ⟨value,missing + 2,low,high⟩⟩ octet =
      ⟨done,some ⟨value * 64 + (octet.toNat - 0x80),missing + 1,0x80,0xbf⟩⟩ := by
  simp only [step,if_pos (And.intro (UInt8.le_iff_toNat_le.mpr hlow) (UInt8.le_iff_toNat_le.mpr hhigh)),
    if_neg (show ¬missing + 2 ≤ 1 by omega)]
  rfl

theorem step_fault {char : Begun}
    (h : ¬(char.low.toNat ≤ octet.toNat ∧ octet.toNat ≤ char.high.toNat)) :
    step ⟨done,some char⟩ octet = start (none :: done) octet :=
  if_neg (mt (And.imp UInt8.le_iff_toNat_le.mp UInt8.le_iff_toNat_le.mp) h)

variable {a b c d : UInt8}

theorem foldl_step_two (ha : 0xc2 ≤ a.toNat ∧ a.toNat < 0xe0) (hb : IsTail b) :
    [a,b].foldl step ⟨done,none⟩ =
      ⟨some (Char.ofNat ((a.toNat - 0xc0) * 64 + (b.toNat - 0x80))) :: done,none⟩ := by
  change step (start done a) b = _
  rw [start_two ha.1 ha.2]
  exact step_last hb.1 hb.2

theorem foldl_step_three (ha : 0xe0 ≤ a.toNat ∧ a.toNat < 0xf0) (hb : IsTail b) (hc : IsTail c)
    (hlong : a.toNat = 0xe0 → 0xa0 ≤ b.toNat) (hscalar : a.toNat = 0xed → b.toNat ≤ 0x9f) :
    [a,b,c].foldl step ⟨done,none⟩ =
      ⟨some (Char.ofNat
        (((a.toNat - 0xe0) * 64 + (b.toNat - 0x80)) * 64 + (c.toNat - 0x80))) :: done,none⟩ := by
  change step (step (start done a) b) c = _
  rw [start_three ha.1 ha.2,step_more]
  case hlow =>
    split
    next h => exact hlong h
    next => exact hb.1
  case hhigh =>
    split
    next h => exact hscalar h
    next => exact hb.2
  exact step_last hc.1 hc.2

theorem foldl_step_four (ha : 0xf0 ≤ a.toNat ∧ a.toNat < 0xf5) (hb : IsTail b) (hc : IsTail c)
    (hd : IsTail d) (hlong : a.toNat = 0xf0 → 0x90 ≤ b.toNat)
    (hscalar : a.toNat = 0xf4 → b.toNat ≤ 0x8f) :
    [a,b,c,d].foldl step ⟨done,none⟩ =
      ⟨some (Char.ofNat ((((a.toNat - 0xf0) * 64 + (b.toNat - 0x80)) * 64 + (c.toNat - 0x80)) * 64 +
        (d.toNat - 0x80))) :: done,none⟩ := by
  change step (step (step (start done a) b) c) d = _
  rw [start_four ha.1 ha.2,step_more]
  case hlow =>
    split
    next h => exact hlong h
    next => exact hb.1
  case hhigh =>
    split
    next h => exact hscalar h
    next => exact hb.2
  have hthird : step ⟨done,some ⟨(a.toNat - 0xf0) * 64 + (b.toNat - 0x80),2,0x80,0xbf⟩⟩ c =
    ⟨done,some ⟨_,1,0x80,0xbf⟩⟩ := step_more hc.1 hc.2
  rw [hthird]
  exact step_last hd.1 hd.2

end Machine

/-! ## Encoded text -/

theorem toNat_octet {n : Nat} (h : n < 256) : (UInt8.ofNat n).toNat = n :=
  UInt8.toNat_ofNat_of_lt' h

/-- Surrogates are no characters. -/
theorem toNat_char_cases (c : Char) : c.toNat < 0xd800 ∨ 0xdfff < c.toNat ∧ c.toNat < 0x110000 :=
  c.valid

theorem ofNat_char {c : Char} {n : Nat} (h : n = c.toNat) : Char.ofNat n = c := by
  rw [h,Char.ofNat_toNat]

theorem encodeChar_cases (c : Char) :
    c.toNat < 0x80 ∧ String.utf8EncodeChar c = [UInt8.ofNat c.toNat] ∨
    (0x80 ≤ c.toNat ∧ c.toNat < 0x800) ∧ String.utf8EncodeChar c =
      [UInt8.ofNat (c.toNat / 64 % 32 + 192),UInt8.ofNat (c.toNat % 64 + 128)] ∨
    (0x800 ≤ c.toNat ∧ c.toNat < 0x10000) ∧ String.utf8EncodeChar c =
      [UInt8.ofNat (c.toNat / 4096 % 16 + 224),UInt8.ofNat (c.toNat / 64 % 64 + 128),
        UInt8.ofNat (c.toNat % 64 + 128)] ∨
    0x10000 ≤ c.toNat ∧ String.utf8EncodeChar c =
      [UInt8.ofNat (c.toNat / 262144 % 8 + 240),UInt8.ofNat (c.toNat / 4096 % 64 + 128),
        UInt8.ofNat (c.toNat / 64 % 64 + 128),UInt8.ofNat (c.toNat % 64 + 128)] := by
  have hnat : c.val.toNat = c.toNat := rfl
  simp only [String.utf8EncodeChar,hnat]
  split
  next h => exact .inl ⟨by omega,rfl⟩
  split
  next h => exact .inr (.inl ⟨by omega,rfl⟩)
  split
  next h => exact .inr (.inr (.inl ⟨by omega,rfl⟩))
  next h => exact .inr (.inr (.inr ⟨by omega,rfl⟩))

theorem foldl_step_encodeChar (c : Char) (done : List (Option Char)) :
    (String.utf8EncodeChar c).foldl Machine.step ⟨done,none⟩ = ⟨some c :: done,none⟩ := by
  have hvalid := toNat_char_cases c
  have hlast := toNat_octet (n := c.toNat % 64 + 128) (by omega)
  have hthird := toNat_octet (n := c.toNat / 64 % 64 + 128) (by omega)
  obtain ⟨hc,henc⟩ | ⟨hc,henc⟩ | ⟨hc,henc⟩ | ⟨hc,henc⟩ := encodeChar_cases c <;> rw [henc]
  · have hfirst := toNat_octet (n := c.toNat) (by omega)
    change Machine.start done _ = _
    rw [Machine.start_ascii (by omega),ofNat_char hfirst]
  · have hfirst := toNat_octet (n := c.toNat / 64 % 32 + 192) (by omega)
    rw [Machine.foldl_step_two (by omega) ⟨by omega,by omega⟩,ofNat_char (c := c) (by omega)]
  · have hfirst := toNat_octet (n := c.toNat / 4096 % 16 + 224) (by omega)
    rw [Machine.foldl_step_three (by omega) ⟨by omega,by omega⟩ ⟨by omega,by omega⟩ (by omega)
      (by omega),ofNat_char (c := c) (by omega)]
  · have hfirst := toNat_octet (n := c.toNat / 262144 % 8 + 240) (by omega)
    have hsecond := toNat_octet (n := c.toNat / 4096 % 64 + 128) (by omega)
    rw [Machine.foldl_step_four (by omega) ⟨by omega,by omega⟩ ⟨by omega,by omega⟩
      ⟨by omega,by omega⟩ (by omega) (by omega),ofNat_char (c := c) (by omega)]

theorem foldl_step_encode (text : List Char) (done : List (Option Char)) :
    (encode text).foldl Machine.step ⟨done,none⟩ = ⟨text.reverse.map some ++ done,none⟩ := by
  induction text generalizing done with
  | nil => rfl
  | cons c rest ih =>
    rw [encode,List.flatMap_cons,List.foldl_append,foldl_step_encodeChar,← encode,ih,
      List.reverse_cons,List.map_append,List.append_assoc]
    rfl

/-- **Encoded text is read back without a fault.** -/
theorem chars_encode (text : List Char) : chars (encode text) = text.map some := by
  rw [chars,foldl_step_encode,Machine.finish,List.append_nil,List.map_reverse,List.reverse_reverse]

theorem decode?_encode (text : List Char) : decode? (encode text) = some text := by
  have hall : (text.map some).all Option.isSome = true := by simp
  simp only [decode?,chars_encode,if_pos hall,List.filterMap_map]
  exact congrArg some (List.filterMap_some)

theorem decodeString?_encode (text : List Char) :
    decodeString? (encode text) = some (String.ofList text) := by
  rw [decodeString?,decode?_encode,Option.map_some]

theorem decodeSkipping_encode (text : List Char) : decodeSkipping (encode text) = text := by
  rw [decodeSkipping,chars_encode,List.filterMap_map]
  exact List.filterMap_some

/-! ## Any octets -/

open Machine (IsTail)

theorem toNat_ofNat {n : Nat} (h : n < 0xd800 ∨ 0xe000 ≤ n ∧ n < 0x110000) :
    (Char.ofNat n).toNat = n := by
  have hvalid : n.isValidChar := h.imp_right fun h => ⟨by omega,h.2⟩
  rw [show Char.ofNat n = Char.ofNatAux n hvalid from dif_pos hvalid]
  rfl

theorem ofNat_octet {octet : UInt8} {n : Nat} (h : n = octet.toNat) : UInt8.ofNat n = octet := by
  rw [h,UInt8.ofNat_toNat]

section
variable {a b c d : UInt8}

theorem encodeChar_one (ha : a.toNat < 0x80) : String.utf8EncodeChar (Char.ofNat a.toNat) = [a] := by
  have hvalue := toNat_ofNat (n := a.toNat) (by omega)
  obtain ⟨-,henc⟩ | ⟨hrange,-⟩ | ⟨hrange,-⟩ | ⟨hrange,-⟩ := encodeChar_cases (Char.ofNat a.toNat)
  · rw [henc,hvalue,ofNat_octet rfl]
  all_goals omega

theorem encodeChar_two (ha : 0xc2 ≤ a.toNat ∧ a.toNat < 0xe0) (hb : IsTail b) :
    String.utf8EncodeChar (Char.ofNat ((a.toNat - 0xc0) * 64 + (b.toNat - 0x80))) = [a,b] := by
  rw [IsTail] at hb
  generalize hn : (a.toNat - 0xc0) * 64 + (b.toNat - 0x80) = n
  have hvalue := toNat_ofNat (n := n) (by omega)
  obtain ⟨hrange,-⟩ | ⟨-,henc⟩ | ⟨hrange,-⟩ | ⟨hrange,-⟩ := encodeChar_cases (Char.ofNat n)
  case inr.inl => rw [henc,hvalue,@ofNat_octet a _ (by omega),@ofNat_octet b _ (by omega)]
  all_goals omega

theorem encodeChar_three (ha : 0xe0 ≤ a.toNat ∧ a.toNat < 0xf0) (hb : IsTail b) (hc : IsTail c)
    (hlong : a.toNat = 0xe0 → 0xa0 ≤ b.toNat) (hscalar : a.toNat = 0xed → b.toNat ≤ 0x9f) :
    String.utf8EncodeChar (Char.ofNat
      (((a.toNat - 0xe0) * 64 + (b.toNat - 0x80)) * 64 + (c.toNat - 0x80))) = [a,b,c] := by
  rw [IsTail] at hb hc
  generalize hn : ((a.toNat - 0xe0) * 64 + (b.toNat - 0x80)) * 64 + (c.toNat - 0x80) = n
  have hvalue := toNat_ofNat (n := n) (by omega)
  obtain ⟨hrange,-⟩ | ⟨hrange,-⟩ | ⟨-,henc⟩ | ⟨hrange,-⟩ := encodeChar_cases (Char.ofNat n)
  case inr.inr.inl =>
    rw [henc,hvalue,@ofNat_octet a _ (by omega),@ofNat_octet b _ (by omega),
      @ofNat_octet c _ (by omega)]
  all_goals omega

theorem encodeChar_four (ha : 0xf0 ≤ a.toNat ∧ a.toNat < 0xf5) (hb : IsTail b) (hc : IsTail c)
    (hd : IsTail d) (hlong : a.toNat = 0xf0 → 0x90 ≤ b.toNat)
    (hlast : a.toNat = 0xf4 → b.toNat ≤ 0x8f) :
    String.utf8EncodeChar (Char.ofNat ((((a.toNat - 0xf0) * 64 + (b.toNat - 0x80)) * 64 +
      (c.toNat - 0x80)) * 64 + (d.toNat - 0x80))) = [a,b,c,d] := by
  rw [IsTail] at hb hc hd
  generalize hn : (((a.toNat - 0xf0) * 64 + (b.toNat - 0x80)) * 64 + (c.toNat - 0x80)) * 64 +
    (d.toNat - 0x80) = n
  have hvalue := toNat_ofNat (n := n) (by omega)
  obtain ⟨hrange,-⟩ | ⟨hrange,-⟩ | ⟨hrange,-⟩ | ⟨-,henc⟩ := encodeChar_cases (Char.ofNat n)
  case inr.inr.inr =>
    rw [henc,hvalue,@ofNat_octet a _ (by omega),@ofNat_octet b _ (by omega),
      @ofNat_octet c _ (by omega),@ofNat_octet d _ (by omega)]
  all_goals omega

end

namespace Begun

/-- Octets that end what has been begun. -/
structure Completes (char : Begun) (rest : List UInt8) : Prop where
  length : rest.length = char.missing
  first : ∀ octet ∈ rest.head?, char.low.toNat ≤ octet.toNat ∧ octet.toNat ≤ char.high.toNat
  others : ∀ octet ∈ rest.tail, IsTail octet

/-- The character that they give. -/
def completed (char : Begun) (rest : List UInt8) : Char :=
  Char.ofNat (rest.foldl (fun value octet => value * 64 + (octet.toNat - 0x80)) char.value)

/-- The octets that have been read of a character, whichever it will be. -/
structure Follows (char : Begun) (read : List UInt8) : Prop where
  missing : 0 < char.missing
  low : 0x80 ≤ char.low.toNat
  high : char.high.toNat ≤ 0xbf
  encode : ∀ rest, char.Completes rest → String.utf8EncodeChar (char.completed rest) = read ++ rest

section
variable {octet : UInt8}

theorem follows_two (hoctet : 0xc2 ≤ octet.toNat ∧ octet.toNat < 0xe0) :
    Follows ⟨octet.toNat - 0xc0,1,0x80,0xbf⟩ [octet] := by
  refine ⟨Nat.one_pos,Nat.le_refl 0x80,Nat.le_refl 0xbf,fun _ ⟨hlength,hfirst,_⟩ => ?_⟩
  obtain ⟨b,rfl⟩ := List.length_eq_one_iff.mp hlength
  exact encodeChar_two hoctet (hfirst b rfl)

theorem follows_three (hoctet : 0xe0 ≤ octet.toNat ∧ octet.toNat < 0xf0) :
    Follows ⟨octet.toNat - 0xe0,2,if octet.toNat = 0xe0 then 0xa0 else 0x80,
      if octet.toNat = 0xed then 0x9f else 0xbf⟩ [octet] := by
  have hlow : 0x80 ≤ (if octet.toNat = 0xe0 then 0xa0 else 0x80 : UInt8).toNat := by
    split <;> decide
  have hhigh : (if octet.toNat = 0xed then 0x9f else 0xbf : UInt8).toNat ≤ 0xbf := by
    split <;> decide
  refine ⟨Nat.two_pos,hlow,hhigh,fun _ ⟨hlength,hfirst,hothers⟩ => ?_⟩
  obtain ⟨b,c,rfl⟩ := List.length_eq_two.mp hlength
  obtain ⟨hlow',hhigh'⟩ := hfirst b rfl
  refine encodeChar_three hoctet ⟨Nat.le_trans hlow hlow',Nat.le_trans hhigh' hhigh⟩
    (hothers c List.mem_cons_self) (fun hlong => ?_) fun hscalar => ?_
  · rwa [if_pos hlong] at hlow'
  · rwa [if_pos hscalar] at hhigh'

theorem follows_four (hoctet : 0xf0 ≤ octet.toNat ∧ octet.toNat < 0xf5) :
    Follows ⟨octet.toNat - 0xf0,3,if octet.toNat = 0xf0 then 0x90 else 0x80,
      if octet.toNat = 0xf4 then 0x8f else 0xbf⟩ [octet] := by
  have hlow : 0x80 ≤ (if octet.toNat = 0xf0 then 0x90 else 0x80 : UInt8).toNat := by
    split <;> decide
  have hhigh : (if octet.toNat = 0xf4 then 0x8f else 0xbf : UInt8).toNat ≤ 0xbf := by
    split <;> decide
  refine ⟨Nat.succ_pos 2,hlow,hhigh,fun _ ⟨hlength,hfirst,hothers⟩ => ?_⟩
  obtain ⟨b,c,d,rfl⟩ := List.length_eq_three.mp hlength
  obtain ⟨hlow',hhigh'⟩ := hfirst b rfl
  refine encodeChar_four hoctet ⟨Nat.le_trans hlow hlow',Nat.le_trans hhigh' hhigh⟩
    (hothers c (by simp)) (hothers d (by simp)) (fun hlong => ?_) fun hlast => ?_
  · rwa [if_pos hlong] at hlow'
  · rwa [if_pos hlast] at hhigh'

variable {value missing : Nat} {low high : UInt8} {read : List UInt8}

theorem Follows.last (h : Follows ⟨value,1,low,high⟩ read) (hlow : low.toNat ≤ octet.toNat)
    (hhigh : octet.toNat ≤ high.toNat) :
    String.utf8EncodeChar (Char.ofNat (value * 64 + (octet.toNat - 0x80))) = read ++ [octet] := by
  have hlast : Completes ⟨value,1,low,high⟩ [octet] :=
    ⟨rfl,fun _ hfirst => Option.some.inj hfirst ▸ ⟨hlow,hhigh⟩,nofun⟩
  exact h.encode [octet] hlast

theorem Follows.more (h : Follows ⟨value,missing + 2,low,high⟩ read)
    (hlow : low.toNat ≤ octet.toNat) (hhigh : octet.toNat ≤ high.toNat) :
    Follows ⟨value * 64 + (octet.toNat - 0x80),missing + 1,0x80,0xbf⟩ (read ++ [octet]) := by
  refine ⟨Nat.succ_pos missing,Nat.le_refl 0x80,Nat.le_refl 0xbf,fun rest hrest => ?_⟩
  have hothers : ∀ other ∈ rest, IsTail other := by
    cases rest with
    | nil => exact nofun
    | cons first others => exact List.forall_mem_cons.mpr ⟨hrest.first first rfl,hrest.others⟩
  have hall : Completes ⟨value,missing + 2,low,high⟩ (octet :: rest) :=
    ⟨congrArg Nat.succ hrest.length,fun _ hfirst => Option.some.inj hfirst ▸ ⟨hlow,hhigh⟩,hothers⟩
  have hencode := h.encode (octet :: rest) hall
  rw [completed,List.foldl_cons] at hencode
  rw [completed,hencode,List.append_cons]

end

end Begun

namespace Machine

/-- Every character has been read where its octets stand, and so has what has been begun. -/
structure Reads (machine : Machine) (octets : List UInt8) : Prop where
  done : ∀ c, some c ∈ machine.done → String.utf8EncodeChar c <:+: octets
  begun : ∀ char ∈ machine.begun, ∃ read, read <:+ octets ∧ char.Follows read

variable {machine : Machine} {done : List (Option Char)} {octets : List UInt8} {octet : UInt8}

theorem reads_none (hdone : ∀ c, some c ∈ done → String.utf8EncodeChar c <:+: octets) :
    Reads ⟨none :: done,none⟩ octets :=
  ⟨by simpa using hdone,nofun⟩

theorem reads_some {c : Char} (hc : String.utf8EncodeChar c <:+: octets)
    (hdone : ∀ c, some c ∈ done → String.utf8EncodeChar c <:+: octets) :
    Reads ⟨some c :: done,none⟩ octets :=
  ⟨by simpa [hc] using hdone,nofun⟩

theorem reads_begun {char : Begun} {read : List UInt8} (hread : read <:+ octets)
    (hchar : char.Follows read)
    (hdone : ∀ c, some c ∈ done → String.utf8EncodeChar c <:+: octets) :
    Reads ⟨done,some char⟩ octets :=
  ⟨hdone,by rintro _ ⟨⟩; exact ⟨read,hread,hchar⟩⟩

theorem reads_start (hdone : ∀ c, some c ∈ done → String.utf8EncodeChar c <:+: octets)
    (hoctet : [octet] <:+ octets) : (start done octet).Reads octets := by
  by_cases hascii : octet.toNat < 0x80
  · rw [start_ascii hascii]
    exact reads_some (encodeChar_one hascii ▸ hoctet.isInfix) hdone
  by_cases hfault : octet.toNat < 0xc2 ∨ 0xf5 ≤ octet.toNat
  · rw [start_fault (by omega)]
    exact reads_none hdone
  by_cases htwo : octet.toNat < 0xe0
  · rw [start_two (by omega) htwo]
    exact reads_begun hoctet (Begun.follows_two (by omega)) hdone
  by_cases hthree : octet.toNat < 0xf0
  · rw [start_three (by omega) hthree]
    exact reads_begun hoctet (Begun.follows_three (by omega)) hdone
  · rw [start_four (by omega) (by omega)]
    exact reads_begun hoctet (Begun.follows_four (by omega)) hdone

theorem Reads.step (h : machine.Reads octets) (octet : UInt8) :
    (machine.step octet).Reads (octets ++ [octet]) := by
  have hdone : ∀ c, some c ∈ machine.done → String.utf8EncodeChar c <:+: octets ++ [octet] :=
    fun c hc => (h.done c hc).trans (List.prefix_append ..).isInfix
  have hoctet : [octet] <:+ octets ++ [octet] := List.suffix_append ..
  obtain ⟨done,_ | ⟨value,missing,low,high⟩⟩ := machine
  · exact reads_start hdone hoctet
  -- An octet that does not continue what was begun is a fault, and begins anew.
  obtain ⟨read,hread,hchar⟩ := h.begun _ rfl
  have hmore : read ++ [octet] <:+ octets ++ [octet] := by
    obtain ⟨before,rfl⟩ := hread
    exact ⟨before,(List.append_assoc ..).symm⟩
  by_cases hrange : low.toNat ≤ octet.toNat ∧ octet.toNat ≤ high.toNat
  · obtain _ | _ | missing := missing
    · exact absurd hchar.missing (Nat.lt_irrefl 0)
    · rw [step_last hrange.1 hrange.2]
      exact reads_some (hchar.last hrange.1 hrange.2 ▸ hmore.isInfix) hdone
    · rw [step_more hrange.1 hrange.2]
      exact reads_begun hmore (hchar.more hrange.1 hrange.2) hdone
  · rw [step_fault hrange]
    exact reads_start (by simpa using hdone) hoctet

theorem Reads.foldl_step (h : machine.Reads octets) (more : List UInt8) :
    (more.foldl Machine.step machine).Reads (octets ++ more) := by
  induction more generalizing machine octets with
  | nil => rwa [List.append_nil]
  | cons octet rest ih =>
    rw [List.append_cons]
    exact ih (h.step octet)

theorem done_suffix_start : done <:+ (start done octet).done := by
  simp only [start]
  repeat' split
  all_goals simp

theorem done_suffix_step : machine.done <:+ (machine.step octet).done := by
  rw [Machine.step]
  split
  next => exact done_suffix_start
  split
  next =>
    dsimp only
    split
    next => exact List.suffix_cons ..
    next => exact List.suffix_refl _
  next => exact (List.suffix_cons ..).trans done_suffix_start

theorem done_suffix_foldl_step (more : List UInt8) :
    machine.done <:+ (more.foldl Machine.step machine).done := by
  induction more generalizing machine with
  | nil => exact List.suffix_refl _
  | cons octet rest ih => exact done_suffix_step.trans ih

/-- The first octet of a character continues nothing, so that it is read anew. -/
theorem Reads.step_first (h : machine.Reads octets) (hoctet : ¬IsTail octet) :
    ∃ done, machine.step octet = Machine.step ⟨done,none⟩ octet := by
  obtain ⟨done,_ | char⟩ := machine
  · exact ⟨done,rfl⟩
  obtain ⟨read,-,hchar⟩ := h.begun char rfl
  have hrange : ¬(char.low.toNat ≤ octet.toNat ∧ octet.toNat ≤ char.high.toNat) :=
    fun hrange => hoctet ⟨Nat.le_trans hchar.low hrange.1,Nat.le_trans hrange.2 hchar.high⟩
  exact ⟨none :: done,step_fault hrange⟩

end Machine

theorem exists_first (c : Char) :
    ∃ first rest, String.utf8EncodeChar c = first :: rest ∧ ¬IsTail first := by
  have hvalid := toNat_char_cases c
  obtain ⟨hc,henc⟩ | ⟨hc,henc⟩ | ⟨hc,henc⟩ | ⟨hc,henc⟩ := encodeChar_cases c <;>
    refine ⟨_,_,henc,fun htail => ?_⟩ <;> rw [IsTail,toNat_octet (by omega)] at htail <;> omega

theorem Machine.Reads.mem_done {machine : Machine} {octets : List UInt8} (h : machine.Reads octets)
    (c : Char) (more : List UInt8) :
    some c ∈ ((String.utf8EncodeChar c ++ more).foldl Machine.step machine).done := by
  obtain ⟨first,rest,henc,hfirst⟩ := exists_first c
  obtain ⟨done,hstep⟩ := h.step_first hfirst
  have hread : (String.utf8EncodeChar c).foldl Machine.step machine = ⟨some c :: done,none⟩ := by
    rw [← foldl_step_encodeChar c done,henc,List.foldl_cons,List.foldl_cons,hstep]
  rw [List.foldl_append,hread]
  exact (done_suffix_foldl_step more).subset List.mem_cons_self

theorem some_mem_finish {machine : Machine} {c : Char} :
    some c ∈ machine.finish ↔ some c ∈ machine.done := by
  rw [Machine.finish,List.mem_reverse]
  split
  next => exact Iff.rfl
  next => simp

/-- **A character is read if and only if its octets occur**, whatever stands around them. -/
theorem mem_decodeSkipping_iff {octets : List UInt8} {c : Char} :
    c ∈ decodeSkipping octets ↔ String.utf8EncodeChar c <:+: octets := by
  have hempty : Machine.Reads {} [] := ⟨nofun,nofun⟩
  have hmem : c ∈ decodeSkipping octets ↔ some c ∈ (octets.foldl Machine.step {}).done := by
    rw [decodeSkipping,List.mem_filterMap,chars,← some_mem_finish]
    simp
  rw [hmem]
  constructor
  · exact (hempty.foldl_step octets).done c
  · rintro ⟨before,after,rfl⟩
    rw [List.append_assoc,List.foldl_append]
    exact (hempty.foldl_step before).mem_done c after

theorem nul_mem_decodeSkipping_iff {octets : List UInt8} :
    '\x00' ∈ decodeSkipping octets ↔ 0 ∈ octets :=
  mem_decodeSkipping_iff.trans (List.singleton_infix_iff 0 octets)

theorem zero_mem_encode_iff {text : List Char} : 0 ∈ encode text ↔ '\x00' ∈ text := by
  rw [← nul_mem_decodeSkipping_iff,decodeSkipping_encode]

/-- Octets with a character somewhere among them. -/
def HoldsCharacter (octets : List UInt8) : Prop :=
  ∃ c, String.utf8EncodeChar c <:+: octets

theorem decodeSkipping_ne_nil_iff {octets : List UInt8} :
    decodeSkipping octets ≠ [] ↔ HoldsCharacter octets := by
  rw [ne_eq,List.eq_nil_iff_forall_not_mem,not_forall_not]
  exact exists_congr fun c => mem_decodeSkipping_iff

instance (octets : List UInt8) : Decidable (HoldsCharacter octets) :=
  decidable_of_iff _ decodeSkipping_ne_nil_iff

/-! ## The order of texts -/

theorem cons_octet_lt_iff {m n : Nat} (hm : m < 256) (hn : n < 256) {front back : List UInt8} :
    UInt8.ofNat m :: front < UInt8.ofNat n :: back ↔ m < n ∨ m = n ∧ front < back := by
  rw [List.cons_lt_cons_iff,UInt8.lt_iff_toNat_lt,← UInt8.toNat_inj,toNat_octet hm,toNat_octet hn]

/-- Numbers are in the order of what they are before their last six bits, and then of these. -/
theorem lt_iff_six_bits (m n : Nat) :
    m < n ↔ m / 64 < n / 64 ∨ m / 64 = n / 64 ∧ m % 64 < n % 64 := by
  omega

theorem encodeChar_append_lt {c d : Char} (h : c < d) (front back : List UInt8) :
    String.utf8EncodeChar c ++ front < String.utf8EncodeChar d ++ back := by
  have hlt : c.toNat < d.toNat := h
  have hd := toNat_char_cases d
  obtain ⟨hc,hcode⟩ | ⟨hc,hcode⟩ | ⟨hc,hcode⟩ | ⟨hc,hcode⟩ := encodeChar_cases c <;>
    obtain ⟨hd',hcode'⟩ | ⟨hd',hcode'⟩ | ⟨hd',hcode'⟩ | ⟨hd',hcode'⟩ := encodeChar_cases d
  -- Among characters of four octets the bits have to be taken off one octet after the other.
  case inr.inr.inr.inr.inr.inr =>
    have hbits : ∀ n : Nat, n / 64 / 64 = n / 4096 ∧ n / 4096 / 64 = n / 262144 := by omega
    rw [lt_iff_six_bits,lt_iff_six_bits (c.toNat / 64),lt_iff_six_bits (c.toNat / 64 / 64)] at hlt
    simp only [hbits] at hlt
    rw [hcode,hcode']
    simp only [List.cons_append,List.nil_append]
    repeat rw [cons_octet_lt_iff (by omega) (by omega)]
    omega
  all_goals
    rw [hcode,hcode']
    simp only [List.cons_append,List.nil_append]
    repeat rw [cons_octet_lt_iff (by omega) (by omega)]
    omega

theorem encode_lt {text other : List Char} (h : text < other) : encode text < encode other := by
  induction text generalizing other with
  | nil =>
    cases other with
    | nil => exact absurd h (List.lt_irrefl _)
    | cons d back =>
      obtain ⟨first,rest,hcode,_⟩ := exists_first d
      rw [encode,encode,List.flatMap_nil,List.flatMap_cons,hcode]
      exact List.nil_lt_cons ..
  | cons c front ih =>
    cases other with
    | nil => exact absurd h (List.not_lt_nil _)
    | cons d back =>
      rw [encode,encode,List.flatMap_cons,List.flatMap_cons]
      rcases List.cons_lt_cons_iff.mp h with hlt | ⟨rfl,hlt⟩
      · exact encodeChar_append_lt hlt _ _
      · exact List.append_left_lt (ih hlt)

/-- **Texts are in the order of their octets.** -/
theorem encodeString_lt_iff {text other : String} :
    encodeString text < encodeString other ↔ text < other := by
  refine ⟨fun h => Decidable.byContradiction fun hlt => ?_,fun h => encode_lt (String.lt_iff.mp h)⟩
  by_cases heq : text = other
  · exact List.lt_irrefl _ (heq ▸ h)
  · have hback : other < text := Decidable.byContradiction fun hback =>
      heq (String.le_antisymm (String.not_lt.mp hback) (String.not_lt.mp hlt))
    exact List.lt_asymm h (encode_lt (String.lt_iff.mp hback))

end SizeSurvey.Text.Utf8
