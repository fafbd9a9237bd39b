import Mathlib.Tactic

namespace PrismChain

open BitVec Nat

abbrev U8 := BitVec 8
abbrev U32 := BitVec 32
abbrev U64 := BitVec 64
abbrev U128 := BitVec 128

/-- Signed words share the bits of the unsigned ones and are read through `toInt`. -/
abbrev I64 := BitVec 64
abbrev I128 := BitVec 128

namespace FixedWidth

variable {w : Nat} {a b c : BitVec w}

def checkedAdd (a b : BitVec w) : Option (BitVec w) :=
  if a.toNat+b.toNat<2^w then some (a+b) else none

def checkedSub (a b : BitVec w) : Option (BitVec w) :=
  if b.toNat≤a.toNat then some (a-b) else none

def checkedMul (a b : BitVec w) : Option (BitVec w) :=
  if a.toNat*b.toNat<2^w then some (a*b) else none

def checkedDiv (a b : BitVec w) : Option (BitVec w) :=
  if b.toNat=0 then none else some (a/b)

def checkedAddSigned (a b : BitVec w) : Option (BitVec w) :=
  if (a+b).toInt=a.toInt+b.toInt then some (a+b) else none

def checkedSubSigned (a b : BitVec w) : Option (BitVec w) :=
  if (a-b).toInt=a.toInt-b.toInt then some (a-b) else none

def checkedMulSigned (a b : BitVec w) : Option (BitVec w) :=
  if (a*b).toInt=a.toInt*b.toInt then some (a*b) else none

def smin (a b : BitVec w) : BitVec w := if a.toInt≤b.toInt then a else b

def saturatingAddSigned (a b : BitVec w) : BitVec w :=
  (checkedAddSigned a b).getD (if 0≤b.toInt then BitVec.intMax w else BitVec.intMin w)

def saturatingSubSigned (a b : BitVec w) : BitVec w :=
  (checkedSubSigned a b).getD (if b.toInt≤0 then BitVec.intMax w else BitVec.intMin w)

def saturatingAdd (a b : BitVec w) : BitVec w :=
  if a.toNat+b.toNat<2^w then a+b else BitVec.allOnes w

def saturatingSub (a b : BitVec w) : BitVec w :=
  if b.toNat≤a.toNat then a-b else 0#w

def umin (a b : BitVec w) : BitVec w := if a.toNat≤b.toNat then a else b

/-- A checked sum that returns is the exact sum; the bound is carried by the result. -/
theorem checkedAdd_eq_some : checkedAdd a b=some c ↔ c.toNat=a.toNat+b.toNat := by
  unfold checkedAdd
  constructor
  · intro h
    split_ifs at h with hlt
    rw [← Option.some.inj h,toNat_add,mod_eq_of_lt hlt]
  · intro h
    have hlt : a.toNat+b.toNat<2^w := by rw [← h]; exact c.isLt
    rw [if_pos hlt]
    congr 1
    apply eq_of_toNat_eq
    rw [toNat_add,mod_eq_of_lt hlt,h]

theorem checkedAddSigned_eq_some : checkedAddSigned a b=some c ↔ c.toInt=a.toInt+b.toInt := by
  unfold checkedAddSigned
  constructor
  · intro h
    split_ifs at h with hfits
    rw [← Option.some.inj h,hfits]
  · intro h
    -- the wrapped sum and `c` agree modulo `2^w`, and `c` is in range
    have hsum : a+b=c := by
      apply eq_of_toInt_eq
      rw [toInt_add,← h,toInt_bmod_cancel]
    rw [if_pos (by rw [hsum,h]),hsum]

theorem checkedSubSigned_eq_some : checkedSubSigned a b=some c ↔ c.toInt=a.toInt-b.toInt := by
  unfold checkedSubSigned
  constructor
  · intro h
    split_ifs at h with hfits
    rw [← Option.some.inj h,hfits]
  · intro h
    have hdiff : a-b=c := by
      apply eq_of_toInt_eq
      rw [toInt_sub,← h,toInt_bmod_cancel]
    rw [if_pos (by rw [hdiff,h]),hdiff]

theorem checkedMulSigned_eq_some : checkedMulSigned a b=some c ↔ c.toInt=a.toInt*b.toInt := by
  unfold checkedMulSigned
  constructor
  · intro h
    split_ifs at h with hfits
    rw [← Option.some.inj h,hfits]
  · intro h
    have hprod : a*b=c := by
      apply eq_of_toInt_eq
      rw [toInt_mul,← h,toInt_bmod_cancel]
    rw [if_pos (by rw [hprod,h]),hprod]

theorem toInt_smin (a b : BitVec w) : (smin a b).toInt=min a.toInt b.toInt := by
  unfold smin
  split_ifs <;> omega

theorem toNat_of_nonneg (h : 0≤a.toInt) : (a.toNat : Int)=a.toInt :=
  (toInt_eq_toNat_of_msb (msb_eq_false_iff_two_mul_lt.mpr (by
    rw [toInt_eq_toNat_cond] at h
    have hlt := a.isLt
    split_ifs at h <;> omega))).symm

theorem toNat_signExtend_of_nonneg (hv : w≤v) (h : 0≤a.toInt) :
    ((a.signExtend v).toNat : Int)=a.toInt := by
  have hwide : (a.signExtend v).toInt=a.toInt := toInt_signExtend_of_le hv
  rw [← hwide]
  exact toNat_of_nonneg (by rw [hwide]; exact h)

theorem toInt_sdiv_of_nonneg (ha : 0≤a.toInt) (hb : 0<b.toInt) :
    (a.sdiv b).toInt=a.toInt/b.toInt := by
  have hle : a.toInt/b.toInt≤a.toInt := Int.ediv_le_self _ ha
  have hpos : 0≤a.toInt/b.toInt := Int.ediv_nonneg ha hb.le
  have hlt : 2*a.toInt<2^w := two_mul_toInt_lt
  rw [toInt_sdiv,Int.tdiv_eq_ediv_of_nonneg ha]
  refine Int.bmod_eq_of_le_mul_two ?_ ?_ <;> push_cast <;> omega

theorem checkedSub_of_le (h : b.toNat≤a.toNat) : checkedSub a b=some (a-b) := if_pos h

theorem checkedSub_of_lt (h : a.toNat<b.toNat) : checkedSub a b=none := if_neg (Nat.not_le.mpr h)

theorem checkedSub_eq_some : checkedSub a b=some c ↔ a.toNat=c.toNat+b.toNat := by
  unfold checkedSub
  constructor
  · intro h
    split_ifs at h with hle
    rw [← Option.some.inj h,toNat_sub_of_le (le_def.mpr hle)]
    omega
  · intro h
    have hle : b.toNat≤a.toNat := by omega
    rw [if_pos hle]
    congr 1
    apply eq_of_toNat_eq
    rw [toNat_sub_of_le (le_def.mpr hle)]
    omega

theorem checkedMul_eq_some : checkedMul a b=some c ↔ c.toNat=a.toNat*b.toNat := by
  unfold checkedMul
  constructor
  · intro h
    split_ifs at h with hlt
    rw [← Option.some.inj h,toNat_mul,mod_eq_of_lt hlt]
  · intro h
    have hlt : a.toNat*b.toNat<2^w := by rw [← h]; exact c.isLt
    rw [if_pos hlt]
    congr 1
    apply eq_of_toNat_eq
    rw [toNat_mul,mod_eq_of_lt hlt,h]

theorem checkedDiv_eq_some : checkedDiv a b=some c ↔ b.toNat≠0 ∧ c.toNat=a.toNat/b.toNat := by
  unfold checkedDiv
  constructor
  · intro h
    split_ifs at h with hz
    rw [← Option.some.inj h,toNat_udiv]
    exact ⟨hz,rfl⟩
  · rintro ⟨hz,h⟩
    rw [if_neg hz]
    congr 1
    apply eq_of_toNat_eq
    rw [toNat_udiv,h]

theorem checkedDiv_of_pos (h : 0<b.toNat) : checkedDiv a b=some (a/b) := if_neg h.ne'

theorem toNat_saturatingAdd (a b : BitVec w) :
    (saturatingAdd a b).toNat=min (a.toNat+b.toNat) (2^w-1) := by
  unfold saturatingAdd
  split_ifs with h
  · rw [toNat_add,mod_eq_of_lt h]
    omega
  · rw [toNat_allOnes]
    omega

theorem toNat_saturatingSub (a b : BitVec w) : (saturatingSub a b).toNat=a.toNat-b.toNat := by
  unfold saturatingSub
  split_ifs with h
  · exact toNat_sub_of_le (le_def.mpr h)
  · simp only [toNat_ofNat,zero_mod]
    omega

theorem zero_saturatingSub (a : BitVec w) : saturatingSub 0#w a=0#w := by
  refine eq_of_toNat_eq ?_
  rw [toNat_saturatingSub,toNat_zero,Nat.zero_sub]

theorem toNat_umin (a b : BitVec w) : (umin a b).toNat=min a.toNat b.toNat := by
  unfold umin
  split_ifs <;> omega

theorem toNat_widen (h : w≤v) (a : BitVec w) : (a.setWidth v).toNat=a.toNat := by
  rw [toNat_setWidth]
  exact mod_eq_of_lt (a.isLt.trans_le (Nat.pow_le_pow_right (by decide) h))

/-- Twice the width holds every product. -/
theorem checkedMul_wide (a b : U64) :
    ∃ x : U128,checkedMul (a.setWidth 128) (b.setWidth 128)=some x ∧ x.toNat=a.toNat*b.toNat := by
  have hfits : a.toNat*b.toNat<2^128 := by
    calc a.toNat*b.toNat<2^64*2^64 := Nat.mul_lt_mul'' a.isLt b.isLt
      _ = 2^128 := by norm_num
  have hmul :
      checkedMul (a.setWidth 128) (b.setWidth 128)=some (a.setWidth 128*b.setWidth 128) := by
    unfold checkedMul
    rw [if_pos (by rw [toNat_widen (by decide),toNat_widen (by decide)]; exact hfits)]
  refine ⟨_,hmul,?_⟩
  have hvalue := checkedMul_eq_some.mp hmul
  rwa [toNat_widen (by decide),toNat_widen (by decide)] at hvalue

theorem setWidth_eq_ofNat (h : a.toNat=n) : a.setWidth v=BitVec.ofNat v n := by
  rw [← h,ofNat_toNat]

theorem exists_toNat (h : n<2^w) : ∃ x : BitVec w,x.toNat=n :=
  ⟨BitVec.ofNat w n,by rw [toNat_ofNat,mod_eq_of_lt h]⟩

theorem exists_toInt (hlow : -2^63≤n) (hhigh : n<2^63) : ∃ x : I64,x.toInt=n := by
  refine ⟨BitVec.ofInt 64 n,?_⟩
  rw [toInt_ofInt]
  exact Int.bmod_eq_of_le_mul_two (by omega) (by omega)

theorem toInt_saturatingAddSigned {a b : I64} (hb : 0≤b.toInt) :
    (saturatingAddSigned a b).toInt=min (a.toInt+b.toInt) (2^63-1) := by
  unfold saturatingAddSigned
  cases hsum : checkedAddSigned a b with
  | some c =>
    have hc := checkedAddSigned_eq_some.mp hsum
    have hlt : 2*c.toInt<2^64 := two_mul_toInt_lt
    rw [Option.getD_some,hc]
    omega
  | none =>
    have hlow : -2^63≤a.toInt := a.le_toInt
    have hover : 2^63≤a.toInt+b.toInt := by
      by_contra hfits
      obtain ⟨c,hc⟩ := exists_toInt (n := a.toInt+b.toInt) (by omega) (by omega)
      rw [checkedAddSigned_eq_some.mpr hc] at hsum
      cases hsum
    have hmax : (intMax 64).toInt=2^63-1 := by decide
    rw [Option.getD_none,if_pos hb,hmax]
    omega

theorem toNat_ne_zero : a.toNat≠0 ↔ a≠0#w := by
  rw [ne_eq,ne_eq,← toNat_inj]
  simp

theorem toNat_pos : 0<a.toNat ↔ a≠0#w := by
  rw [← toNat_ne_zero]
  omega

/-- The wrapped difference of two signed words, read unsigned, is the exact distance. -/
theorem toNat_sub_of_slt (h : a.toInt<b.toInt) : ((b-a).toNat : Int)=b.toInt-a.toInt := by
  have ha := a.isLt
  have hb := b.isLt
  have hpow : 2*2^(w-1)=2^w ∨ w=0 := by
    rcases w with _|w
    · exact Or.inr rfl
    · left
      rw [Nat.add_sub_cancel,pow_succ]
      ring
  rcases hpow with hpow|rfl
  · rw [toInt_eq_toNat_cond] at h ⊢
    rw [toInt_eq_toNat_cond] at h ⊢
    rw [toNat_sub]
    generalize a.toNat=x at *
    generalize b.toNat=y at *
    generalize 2^w=m at *
    split_ifs at h ⊢ with h1 h2 h2
    all_goals
      rcases Nat.lt_or_ge y x with hxy|hxy
      · have hm : m-x+y=m-(x-y) := by omega
        rw [hm,mod_eq_of_lt (by omega)]
        omega
      · have hm : m-x+y=(y-x)+m := by omega
        rw [hm,add_mod_right,mod_eq_of_lt (by omega)]
        omega
  · have hab : a=b := Subsingleton.elim a b
    rw [hab] at h
    exact absurd h (lt_irrefl _)

end FixedWidth
end PrismChain
