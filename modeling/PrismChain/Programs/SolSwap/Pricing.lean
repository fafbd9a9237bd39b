import PrismChain.Math.ConstantProduct
import PrismChain.Programs.SolSwap.State

namespace PrismChain.SolSwap

open FixedWidth BitVec Nat

section Sqrt

theorem newton_lower (hx : 0<x) : v<((x+v/x)/2+1)*((x+v/x)/2+1) := by
  have hv : v<x*(v/x+1) := lt_mul_div_succ v hx
  have hhalf : x+v/x+1≤2*((x+v/x)/2+1) := by omega
  generalize v/x=q at *
  generalize (x+q)/2+1=m at *
  nlinarith [Nat.mul_le_mul hhalf hhalf,sq_nonneg ((x : Int)-(q+1))]

theorem newton_pos (hv : 0<v) (hx : 0<x) : 0<(x+v/x)/2 := by
  obtain hone | _ : x=1 ∨ 2≤x := by omega
  · subst hone
    rw [Nat.div_one]
    omega
  · generalize v/x=q
    omega

/-- The loop of `sqrt` with its sums checked. When the rounds run out there is no result. -/
def sqrtChecked (value : U128) : Nat → U128 → U128 → Option U128
  | 0,_,_ => none
  | fuel+1,x,y =>
    if y.toNat<x.toNat then
      (checkedDiv value y).bind fun q => (checkedAdd y q).bind fun s =>
        sqrtChecked value fuel y (s/2#128)
    else some x

/-- `sqrt` ends, none of its sums overflows, and the cast to 64 bits keeps the root. -/
def Rooted (value : U128) : Prop :=
  ∃ first x r,checkedAdd value 1#128=some first ∧
    sqrtChecked value (value.toNat+1) value (first/2#128)=some x ∧ sqrt value=.ok r ∧
    r.toNat=x.toNat ∧ r.toNat^2≤value.toNat ∧ value.toNat<(r.toNat+1)^2

theorem newton_fits (hv : v<2^128) (hx : 0<x) (hle : x≤2^127) (hlow : v<(x+1)*(x+1)) :
    x+v/x<2^128 := by
  obtain rfl | htwo : x=1 ∨ 2≤x := by omega
  · rw [Nat.div_one]
    omega
  · have hhalf : v/x≤v/2 := Nat.div_le_div_left htwo two_pos
    omega

/-- Both loops return the root: the iterate falls, and never below the root. -/
theorem sqrtLoop_spec {value : U128} (hpos : 0<value.toNat) {x y : U128} (hfuel : x.toNat≤fuel)
    (hx : 0<x.toNat) (hlow : value.toNat<(x.toNat+1)*(x.toNat+1))
    (hroom : y.toNat<x.toNat → y.toNat≤2^127) (hy : y.toNat=(x.toNat+value.toNat/x.toNat)/2) :
    ∃ r,sqrtLoop value fuel x y=some r ∧ sqrtChecked value (fuel+1) x y=some r ∧
      r.toNat=Nat.sqrt value.toNat := by
  induction fuel generalizing x y with
  | zero => omega
  | succ fuel ih =>
    rw [sqrtLoop,sqrtChecked]
    by_cases hlt : y.toNat<x.toNat
    · rw [if_pos hlt,if_pos hlt]
      have hypos : 0<y.toNat := by
        rw [hy]
        exact newton_pos hpos hx
      have hylow : value.toNat<(y.toNat+1)*(y.toNat+1) := by
        rw [hy]
        exact newton_lower hx
      have hdiv : checkedDiv value y=some (value/y) := if_neg hypos.ne'
      have hfits : y.toNat+(value/y).toNat<2^128 := by
        rw [toNat_udiv]
        exact newton_fits value.isLt hypos (hroom hlt) hylow
      have hadd : checkedAdd y (value/y)=some (y+value/y) := if_pos hfits
      have hnext : ((y+value/y)/2#128).toNat=(y.toNat+value.toNat/y.toNat)/2 := by
        rw [toNat_udiv,toNat_add,mod_eq_of_lt hfits,toNat_udiv]
        rfl
      rw [hdiv,Option.bind_some,Option.bind_some,hadd,Option.bind_some]
      exact ih (by omega) hypos hylow (fun _ => by omega) hnext
    · rw [if_neg hlt,if_neg hlt]
      refine ⟨x,rfl,rfl,eq_sqrt.mpr ⟨?_,hlow⟩⟩
      have hle : x.toNat≤value.toNat/x.toNat := by omega
      calc x.toNat*x.toNat≤x.toNat*(value.toNat/x.toNat) := Nat.mul_le_mul_left _ hle
        _ ≤ value.toNat := mul_div_le _ _

theorem sqrt_spec {value : U128} (hle : value.toNat<2^128-1) : Nat.sqrt value.toNat<2^64 ∧
    ∃ r x,sqrt value=.ok r ∧ r.toNat=Nat.sqrt value.toNat ∧ x.toNat=Nat.sqrt value.toNat ∧
      sqrtChecked value (value.toNat+1) value ((value+1#128)/2#128)=some x := by
  have hroot : Nat.sqrt value.toNat<2^64 := sqrt_lt.mpr (by omega)
  refine ⟨hroot,?_⟩
  unfold sqrt
  by_cases hzero : value=0#128
  · rw [if_pos hzero,hzero]
    exact ⟨0#64,0#128,rfl,rfl,rfl,rfl⟩
  rw [if_neg hzero]
  have hpos : 0<value.toNat := toNat_pos.mpr hzero
  have hhalf : ((value+1#128)/2#128).toNat=(value.toNat+1)/2 := by
    rw [toNat_udiv,toNat_add,mod_eq_of_lt]
    · rfl
    · change value.toNat+1<2^128
      omega
  have hstart : ((value+1#128)/2#128).toNat=(value.toNat+value.toNat/value.toNat)/2 := by
    rw [hhalf,Nat.div_self hpos]
  obtain ⟨x,hx,hchecked,hvalue⟩ := sqrtLoop_spec hpos (le_refl value.toNat) hpos (by nlinarith)
    (fun _ => by omega) hstart
  refine ⟨x.setWidth 64,x,?_,?_,hvalue,hchecked⟩
  · rw [hx]
    rfl
  · rw [toNat_setWidth,hvalue,mod_eq_of_lt hroot]

theorem sqrt_exact {value : U128} (h : value.toNat<2^128-1) : Rooted value := by
  obtain ⟨-,r,x,hr,hroot,hx,hchecked⟩ := sqrt_spec h
  have hfirst : value.toNat+(1#128).toNat<2^128 := by
    change value.toNat+1<2^128
    omega
  refine ⟨value+1#128,x,r,if_pos hfirst,hchecked,hr,hroot.trans hx.symm,?_,?_⟩
  · rw [hroot]
    exact sqrt_le' _
  · rw [hroot]
    exact lt_succ_sqrt' _

theorem largest_rooted : Rooted 340282366920938463463374607431768211454#128 :=
  sqrt_exact (by decide)

end Sqrt

section Amounts

variable {x y a b n num den : U64}

def lpValue (x y a b n : Nat) : Nat := if n=0 then Nat.sqrt (x*y) else min (x*n/a) (y*n/b)

def outValue (x reserveIn reserveOut num den : Nat) : Nat :=
  x*(den-num)*reserveOut/(reserveIn*den+x*(den-num))

theorem lpValue_share (hn : n≠0#64) :
    lpValue x.toNat y.toNat a.toNat b.toNat n.toNat*a.toNat≤x.toNat*n.toNat ∧
      lpValue x.toNat y.toNat a.toNat b.toNat n.toNat*b.toNat≤y.toNat*n.toNat := by
  rw [lpValue,if_neg (toNat_ne_zero.mpr hn)]
  exact ⟨(Nat.mul_le_mul_right _ (min_le_left _ _)).trans (div_mul_le_self _ _),
    (Nat.mul_le_mul_right _ (min_le_right _ _)).trans (div_mul_le_self _ _)⟩

theorem lpValue_mean (hp : Reserves.Balanced ⟨a.toNat,b.toNat,n.toNat⟩) :
    lpValue x.toNat y.toNat a.toNat b.toNat n.toNat*
      lpValue x.toNat y.toNat a.toNat b.toNat n.toNat≤x.toNat*y.toNat := by
  by_cases hn : n=0#64
  · subst hn
    exact sqrt_le _
  · exact hp.deposit_mean (toNat_pos.mpr hn) (lpValue_share hn).1 (lpValue_share hn).2

theorem lt_of_square (h : m*m≤x.toNat*y.toNat) : m<2^64 := by
  have hx := x.isLt
  have hy := y.isLt
  by_contra hge
  have hsquare : 2^64*2^64≤ m*m := Nat.mul_le_mul (by omega) (by omega)
  have hproduct : x.toNat*y.toNat<2^64*2^64 := Nat.mul_lt_mul'' hx hy
  omega

theorem firstLpTokens_spec : firstLpTokens x y=
    if Nat.sqrt (x.toNat*y.toNat)=0 then .error (err .mathOverflow)
    else .ok (BitVec.ofNat 64 (Nat.sqrt (x.toNat*y.toNat))) := by
  obtain ⟨product,hmul,hproduct⟩ := checkedMul_wide x y
  have hle : product.toNat≤(2^64-1)*(2^64-1) := by
    rw [hproduct]
    exact Nat.mul_le_mul (le_sub_one_of_lt x.isLt) (le_sub_one_of_lt y.isLt)
  obtain ⟨-,r,_,hr,hroot,-⟩ := sqrt_spec (hle.trans_lt (by decide))
  rw [hproduct] at hroot
  have hword : BitVec.ofNat 64 (Nat.sqrt (x.toNat*y.toNat))=r := by
    rw [← hroot,ofNat_toNat,setWidth_eq]
  rw [hword,← hroot]
  simp only [firstLpTokens,hmul,okOr_some,ok_bind,hr]
  by_cases hzero : r=0#64
  · rw [require_neg (not_not.mpr hzero),error_bind,hzero]
    rfl
  · rw [require_pos hzero,ok_bind,if_neg (toNat_ne_zero.mpr hzero)]
    rfl

theorem proportionalLpTokens_spec (ha : a≠0#64) (hb : b≠0#64) (hn : n≠0#64)
    (hfits : lpValue x.toNat y.toNat a.toNat b.toNat n.toNat<2^64) : proportionalLpTokens x y a b n=
      if lpValue x.toNat y.toNat a.toNat b.toNat n.toNat=0 then .error (err .mathOverflow)
      else .ok (BitVec.ofNat 64 (lpValue x.toNat y.toNat a.toNat b.toNat n.toNat)) := by
  obtain ⟨productA,hmulA,hproductA⟩ := checkedMul_wide x n
  obtain ⟨productB,hmulB,hproductB⟩ := checkedMul_wide y n
  have hdivA : checkedDiv productA (a.setWidth 128)=some (productA/a.setWidth 128) :=
    checkedDiv_of_pos (by rw [toNat_widen (by decide)]; exact toNat_pos.mpr ha)
  have hdivB : checkedDiv productB (b.setWidth 128)=some (productB/b.setWidth 128) :=
    checkedDiv_of_pos (by rw [toNat_widen (by decide)]; exact toNat_pos.mpr hb)
  have hmin : (umin (productA/a.setWidth 128) (productB/b.setWidth 128)).toNat=
      lpValue x.toNat y.toNat a.toNat b.toNat n.toNat := by
    rw [toNat_umin,toNat_udiv,toNat_udiv,toNat_widen (by decide),
      toNat_widen (by decide),hproductA,hproductB,lpValue,if_neg (toNat_ne_zero.mpr hn)]
  simp only [proportionalLpTokens,hmulA,hmulB,okOr_some,ok_bind,hdivA,hdivB,setWidth_eq_ofNat hmin]
  generalize lpValue x.toNat y.toNat a.toNat b.toNat n.toNat=v at hfits ⊢
  have hword : (BitVec.ofNat 64 v).toNat=v := by
    rw [toNat_ofNat,mod_eq_of_lt hfits]
  by_cases hzero : v=0
  · rw [require_neg (by rw [hzero]; decide),error_bind,if_pos hzero]
  · rw [require_pos (toNat_ne_zero.mp (by rw [hword]; exact hzero)),ok_bind,if_neg hzero]
    rfl

/-- In a balanced pool the shares of a deposit are the exact number: neither a division nor the
cast goes wrong. -/
theorem calculateLpTokens_spec (hp : Reserves.Balanced ⟨a.toNat,b.toNat,n.toNat⟩) :
    lpValue x.toNat y.toNat a.toNat b.toNat n.toNat<2^64 ∧ calculateLpTokens x y a b n=
        if x=0#64 ∨ y=0#64 then .error (err .zeroDeposit)
        else if lpValue x.toNat y.toNat a.toNat b.toNat n.toNat=0 then .error (err .mathOverflow)
        else .ok (BitVec.ofNat 64 (lpValue x.toNat y.toNat a.toNat b.toNat n.toNat)) := by
  have hfits := lt_of_square (lpValue_mean (x := x) (y := y) hp)
  refine ⟨hfits,?_⟩
  unfold calculateLpTokens
  by_cases hxy : x=0#64 ∨ y=0#64
  · rw [if_pos hxy,require_neg (not_not.mpr hxy),error_bind]
  rw [if_neg hxy,require_pos hxy,ok_bind]
  by_cases hn : n=0#64
  · subst hn
    exact firstLpTokens_spec
  rw [if_neg hn]
  have hn' : n.toNat≠0 := toNat_ne_zero.mpr hn
  refine proportionalLpTokens_spec (toNat_ne_zero.mp ?_) (toNat_ne_zero.mp ?_) hn hfits
  · exact fun h => hn' (hp.emptyA.mpr h)
  · exact fun h => hn' (hp.emptyB.mpr h)

theorem calculateWithdrawal_spec {m : U64} (hm : m.toNat≤n.toNat) :
    m.toNat*a.toNat/n.toNat<2^64 ∧ m.toNat*b.toNat/n.toNat<2^64 ∧ calculateWithdrawal m n a b=
        if m=0#64 then .error (err .zeroLpBurn)
        else .ok (BitVec.ofNat 64 (m.toNat*a.toNat/n.toNat),
          BitVec.ofNat 64 (m.toNat*b.toNat/n.toNat)) := by
  have hpart (r : U64) : m.toNat*r.toNat/n.toNat<2^64 := by
    refine (Nat.div_le_of_le_mul ?_).trans_lt r.isLt
    exact Nat.mul_le_mul_right _ hm
  refine ⟨hpart a,hpart b,?_⟩
  unfold calculateWithdrawal
  by_cases hzero : m=0#64
  · rw [if_pos hzero,require_neg (not_not.mpr hzero),error_bind]
  rw [if_neg hzero,require_pos hzero,ok_bind]
  have hn : 0<(n.setWidth 128).toNat := by
    rw [toNat_widen (by decide)]
    exact (toNat_pos.mpr hzero).trans_le hm
  obtain ⟨_,hmulA,hproductA⟩ := checkedMul_wide m a
  obtain ⟨_,hmulB,hproductB⟩ := checkedMul_wide m b
  have hquotient {product : U128} {r : U64} (h : product.toNat=m.toNat*r.toNat) :
      (product/n.setWidth 128).toNat=m.toNat*r.toNat/n.toNat := by
    rw [toNat_udiv,toNat_widen (by decide),h]
  simp only [hmulA,hmulB,okOr_some,ok_bind,checkedDiv_of_pos hn,
    setWidth_eq_ofNat (hquotient hproductA),setWidth_eq_ofNat (hquotient hproductB)]
  rfl

theorem outValue_le (v rin rout num den : Nat) : outValue v rin rout num den≤ rout := by
  refine Nat.div_le_of_le_mul ?_
  exact Nat.mul_le_mul_right _ (Nat.le_add_left _ _)

/-- A swap against two reserves returns the exact number and charges the exact fee, unless one of
the two 128-bit products does not fit. -/
theorem calculateSwapOutput_spec (hfee : num.toNat≤den.toNat) (hden : den≠0#64) :
    outValue x.toNat a.toNat b.toNat num.toNat den.toNat<2^64 ∧ x.toNat*num.toNat/den.toNat<2^64 ∧
      calculateSwapOutput x a b num den=if x=0#64 then .error (err .zeroSwapInput)
        else if a=0#64 ∨ b=0#64 then .error (err .emptyReserves)
        else if x.toNat*(den.toNat-num.toNat)*b.toNat<2^128 ∧
            a.toNat*den.toNat+x.toNat*(den.toNat-num.toNat)<2^128 then
          .ok (BitVec.ofNat 64 (outValue x.toNat a.toNat b.toNat num.toNat den.toNat),
            BitVec.ofNat 64 (x.toNat*num.toNat/den.toNat))
        else .error (err .mathOverflow) := by
  have hdpos : 0<den.toNat := toNat_pos.mpr hden
  have hcharged : x.toNat*num.toNat/den.toNat≤x.toNat := by
    refine Nat.div_le_of_le_mul ?_
    rw [Nat.mul_comm den.toNat]
    exact Nat.mul_le_mul_left _ hfee
  refine ⟨(outValue_le _ _ _ _ _).trans_lt b.isLt,hcharged.trans_lt x.isLt,?_⟩
  unfold calculateSwapOutput
  by_cases hx : x=0#64
  · rw [if_pos hx,require_neg (not_not.mpr hx),error_bind]
  rw [if_neg hx,require_pos hx,ok_bind]
  by_cases hempty : a=0#64 ∨ b=0#64
  · rw [if_pos hempty,require_neg (not_not.mpr hempty),error_bind]
  rw [if_neg hempty,require_pos hempty,ok_bind]
  have hapos : 0<a.toNat := toNat_pos.mpr fun h => hempty (.inl h)
  -- what is kept after the fee is again a 64-bit word
  have hkept : checkedSub (den.setWidth 128) (num.setWidth 128)=some ((den-num).setWidth 128) := by
    rw [checkedSub_eq_some,toNat_widen (by decide),toNat_widen (by decide),
      toNat_widen (by decide),toNat_sub_of_le (le_def.mpr hfee)]
    omega
  obtain ⟨effective,heff,heffective⟩ := checkedMul_wide x (den-num)
  rw [toNat_sub_of_le (le_def.mpr hfee)] at heffective
  obtain ⟨scaled,hscale,hscaled⟩ := checkedMul_wide a den
  obtain ⟨fee,hmul,hfee'⟩ := checkedMul_wide x num
  have hquotient : (fee/den.setWidth 128).toNat=x.toNat*num.toNat/den.toNat := by
    rw [toNat_udiv,toNat_widen (by decide),hfee']
  have hdpos' : 0<(den.setWidth 128 : U128).toNat := by
    rw [toNat_widen (by decide)]
    exact hdpos
  simp only [hkept,heff,hscale,hmul,okOr_some,ok_bind,checkedDiv_of_pos hdpos']
  by_cases hnum : x.toNat*(den.toNat-num.toNat)*b.toNat<2^128
  · by_cases hsum : a.toNat*den.toNat+x.toNat*(den.toNat-num.toNat)<2^128
    · obtain ⟨numerator,hn⟩ := exists_toNat hnum
      obtain ⟨denominator,hd⟩ := exists_toNat hsum
      have hmulNum : checkedMul effective (b.setWidth 128)=some numerator := by
        rw [checkedMul_eq_some,toNat_widen (by decide),heffective,hn]
      have hadd : checkedAdd scaled effective=some denominator := by
        rw [checkedAdd_eq_some,hscaled,heffective,hd]
      have hpos : 0<denominator.toNat := by
        rw [hd]
        exact Nat.add_pos_left (Nat.mul_pos hapos hdpos) _
      have hout :
          (numerator/denominator).toNat=outValue x.toNat a.toNat b.toNat num.toNat den.toNat := by
        rw [toNat_udiv,hn,hd]
        rfl
      simp only [hmulNum,hadd,okOr_some,ok_bind,checkedDiv_of_pos hpos,setWidth_eq_ofNat hout,
        setWidth_eq_ofNat hquotient]
      rw [if_pos ⟨hnum,hsum⟩]
      rfl
    · have hadd :
      checkedAdd scaled effective=none := if_neg (by rw [hscaled,heffective]; exact hsum)
      rw [if_neg fun h => hsum h.2,hadd]
      cases checkedMul effective (b.setWidth 128) <;> rfl
  · have hmulNum : checkedMul effective (b.setWidth 128)=none :=
      if_neg (by rw [heffective,toNat_widen (by decide)]; exact hnum)
    rw [if_neg fun h => hnum h.1,hmulNum,okOr_none,error_bind]

theorem calculateLpTokens_ok {lp : U64} (hp : Reserves.Balanced ⟨a.toNat,b.toNat,n.toNat⟩)
    (h : calculateLpTokens x y a b n=.ok lp) :
    x≠0#64 ∧ y≠0#64 ∧ lp.toNat=lpValue x.toNat y.toNat a.toNat b.toNat n.toNat ∧ 0<lp.toNat := by
  obtain ⟨hfits,hspec⟩ := calculateLpTokens_spec (x := x) (y := y) hp
  rw [hspec] at h
  split_ifs at h with hxy hzero
  cases h
  have hword : (BitVec.ofNat 64 (lpValue x.toNat y.toNat a.toNat b.toNat n.toNat)).toNat=
      lpValue x.toNat y.toNat a.toNat b.toNat n.toNat := by
    rw [toNat_ofNat,mod_eq_of_lt hfits]
  rw [hword]
  exact ⟨fun h => hxy (.inl h),fun h => hxy (.inr h),rfl,Nat.pos_of_ne_zero hzero⟩

theorem calculateWithdrawal_ok {m : U64} (hm : m.toNat≤n.toNat)
    (h : calculateWithdrawal m n a b=.ok (u,v)) :
    m≠0#64 ∧ u.toNat=m.toNat*a.toNat/n.toNat ∧ v.toNat=m.toNat*b.toNat/n.toNat := by
  obtain ⟨hA,hB,hspec⟩ := calculateWithdrawal_spec (a := a) (b := b) hm
  rw [hspec] at h
  split_ifs at h with hzero
  cases h
  rw [toNat_ofNat,toNat_ofNat,mod_eq_of_lt hA,mod_eq_of_lt hB]
  exact ⟨hzero,rfl,rfl⟩

theorem calculateSwapOutput_ok (hfee : num.toNat≤den.toNat) (hden : den≠0#64)
    (h : calculateSwapOutput x a b num den=.ok (out,fee)) :
    a≠0#64 ∧ b≠0#64 ∧ out.toNat=outValue x.toNat a.toNat b.toNat num.toNat den.toNat := by
  obtain ⟨hfits,-,hspec⟩ := calculateSwapOutput_spec (x := x) (a := a) (b := b) hfee hden
  rw [hspec] at h
  split_ifs at h with hx hempty _
  obtain ⟨rfl,-⟩ := Prod.mk.inj (Except.ok.inj h)
  rw [toNat_ofNat,mod_eq_of_lt hfits]
  exact ⟨fun h => hempty (.inl h),fun h => hempty (.inr h),rfl⟩

theorem outValue_trade {v rin rout num den : Nat} (hden : 0<den) (hin : 0< rin)
    (hout : 0< rout) :
    outValue v rin rout num den< rout ∧ outValue v rin rout num den*(rin+v)≤v*rout := by
  have hpos : 0< rin*den := Nat.mul_pos hin hden
  have heff : v*(den-num)≤v*den := Nat.mul_le_mul_left _ (sub_le _ _)
  have hle : outValue v rin rout num den*(rin*den+v*(den-num))≤v*(den-num)*rout :=
    div_mul_le_self _ _
  have hlt : outValue v rin rout num den< rout := by
    refine (Nat.div_lt_iff_lt_mul (Nat.add_pos_left hpos _)).mpr ?_
    have hroom : 0< rin*den*rout := Nat.mul_pos hpos hout
    rw [Nat.mul_add,Nat.mul_comm rout (v*(den-num)),Nat.mul_comm rout]
    omega
  refine ⟨hlt,?_⟩
  obtain ⟨rest,hrest⟩ := Nat.exists_eq_add_of_lt hlt
  generalize outValue v rin rout num den=out at *
  generalize v*(den-num)=eff at *
  subst hrest
  -- without the fee the output would be no smaller
  have hscaled : den*(out*rin)≤den*(v*(rest+1)) := by
    calc den*(out*rin)≤eff*(rest+1) := by nlinarith
      _ ≤ v*den*(rest+1) := Nat.mul_le_mul_right _ heff
      _ = den*(v*(rest+1)) := by ring
  have hshare := Nat.le_of_mul_le_mul_left hscaled hden
  nlinarith

end Amounts

end PrismChain.SolSwap
