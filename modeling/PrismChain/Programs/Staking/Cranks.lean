import PrismChain.Math.Compounding
import PrismChain.Programs.Staking.Emission

namespace PrismChain.Staking

open FixedWidth List BitVec Nat

/-- The reward since the last update, in parts of `rateUnit`. -/
def due (p : StakingPool) (slot : U64) : Nat :=
  p.totalStaked.toNat*p.baseRewardRateBps.toNat*(slot.toNat-p.lastUpdateSlot.toNat)

/-- `n` cranks have taken the pool `p` to `q`. The reward they emitted falls short of the exact one
by less than a unit each, and the accumulator of the reward by less than a share each. -/
structure Emitted (p : StakingPool) (n : Nat) (q : StakingPool) : Prop where
  staked : q.totalStaked=p.totalStaked
  rate : q.baseRewardRateBps=p.baseRewardRateBps
  later : p.lastUpdateSlot.toNat≤q.lastUpdateSlot.toNat
  emitted : ∃ reward,q.accumulatedRewardPerToken.toNat*p.totalStaked.toNat≤
      p.accumulatedRewardPerToken.toNat*p.totalStaked.toNat+reward*10^12 ∧
    p.accumulatedRewardPerToken.toNat*p.totalStaked.toNat+reward*10^12≤
      q.accumulatedRewardPerToken.toNat*p.totalStaked.toNat+n*p.totalStaked.toNat ∧
    reward*rateUnit≤due p q.lastUpdateSlot ∧
    due p q.lastUpdateSlot≤ reward*rateUnit+n*(rateUnit-1)

section Cranks

variable {p q' : StakingPool} {slot : U64}

theorem le_add_share {staked a x y : Nat} (hpos : 0< staked) (h : x*staked≤a*staked+y) :
    x≤a+y/staked := by
  rw [Nat.add_comm,← add_mul_div_right _ _ hpos,Nat.le_div_iff_mul_le hpos]
  omega

/-- A crank of a pool with stake in it; one that is too early emits nothing. -/
theorem crank_eq_ok (hstaked : p.totalStaked≠0#64) : crank p slot=.ok q ↔ due p slot<2^128 ∧
    due p slot/rateUnit*10^12<2^128 ∧ q.accumulatedRewardPerToken.toNat=
      p.accumulatedRewardPerToken.toNat+due p slot/rateUnit*10^12/p.totalStaked.toNat ∧
    q={p with
      accumulatedRewardPerToken := q.accumulatedRewardPerToken
      lastUpdateSlot := if slot.toNat≤p.lastUpdateSlot.toNat then p.lastUpdateSlot else slot} := by
  have hage := toNat_saturatingSub slot p.lastUpdateSlot
  have hdue : due p slot=p.totalStaked.toNat*p.baseRewardRateBps.toNat*
      (saturatingSub slot p.lastUpdateSlot).toNat := by rw [hage,due]
  rw [crank,if_neg hstaked,hdue]
  by_cases hearly : saturatingSub slot p.lastUpdateSlot=0#64
  · rw [hearly,toNat_zero] at hage
    rw [if_pos hearly,hearly,if_pos (Nat.sub_eq_zero_iff_le.mp hage.symm)]
    constructor
    · intro h
      cases h
      simp
    · rintro ⟨-,-,hsum,hq⟩
      have hsame : q.accumulatedRewardPerToken=p.accumulatedRewardPerToken :=
        eq_of_toNat_eq (by simpa using hsum)
      rw [hsame] at hq
      exact congrArg Except.ok hq.symm
  · have hlate : ¬slot.toNat≤p.lastUpdateSlot.toNat := fun hle => hearly (eq_of_toNat_eq
      (by rw [hage,Nat.sub_eq_zero_of_le hle]; rfl))
    rw [if_neg hearly,if_neg hlate]
    simp only [steps_ok,totalReward_eq_ok,accumulate_eq_ok]
    constructor
    · rintro ⟨reward,⟨hfits,hreward⟩,_,⟨hscaled,hsum⟩,rfl⟩
      rw [hreward] at hscaled hsum
      exact ⟨hfits,hscaled,hsum,rfl⟩
    · rintro ⟨hfits,hscaled,hsum,hq⟩
      obtain ⟨reward,hreward⟩ := exists_toNat ((Nat.div_le_self _ _).trans_lt hfits)
      rw [← hreward] at hscaled hsum
      exact ⟨reward,⟨hfits,hreward⟩,_,⟨hscaled,hsum⟩,hq.symm⟩

theorem Emitted.crank (h : Emitted p n q) (hstaked : p.totalStaked≠0#64)
    (hc : crank q slot=.ok q') :
    Emitted p (n+1) q' ∧ q'.lastUpdateSlot.toNat=max q.lastUpdateSlot.toNat slot.toNat := by
  obtain ⟨hstake,hrate,_,reward,_,hlower,_,_⟩ := h
  obtain ⟨-,-,hsum,hq⟩ := (crank_eq_ok (hstake ▸ hstaked)).mp hc
  have hslot : q'.lastUpdateSlot.toNat=max q.lastUpdateSlot.toNat slot.toNat := by
    rw [hq]
    dsimp only
    split_ifs <;> omega
  have hage : due p q'.lastUpdateSlot=due p q.lastUpdateSlot+due q slot := by
    rw [due,due,due,hstake,hrate,← Nat.mul_add]
    exact congrArg _ (by omega)
  have hshare := div_mul_le_self (due q slot/rateUnit*10^12) q.totalStaked.toNat
  have hshare' := lt_mul_div_succ (due q slot/rateUnit*10^12)
    (hstake ▸ toNat_pos.mpr hstaked : 0<q.totalStaked.toNat)
  have hunit := div_mul_le_self (due q slot) rateUnit
  have hunit' := lt_div_mul_add (a := due q slot) (show 0< rateUnit by decide)
  rw [hstake] at hshare hshare' hsum
  generalize due q slot/rateUnit=x at hshare hshare' hsum hunit hunit'
  refine ⟨⟨hq ▸ hstake,hq ▸ hrate,by omega,reward+x,?_,?_,?_,?_⟩,hslot⟩
  · rw [hsum,Nat.add_mul,Nat.add_mul]
    omega
  · rw [Nat.mul_add,Nat.mul_one,Nat.mul_comm p.totalStaked.toNat] at hshare'
    rw [hsum,Nat.add_mul,Nat.add_mul,Nat.add_mul,Nat.one_mul]
    linarith only [hlower,hshare']
  · rw [hage,Nat.add_mul]
    omega
  · rw [hage,Nat.add_mul,Nat.add_mul,Nat.one_mul]
    omega

/-- Where a single crank in the slot `last` is possible, so is one before it, after others. -/
theorem Emitted.possible (h : Emitted p n q) (hstaked : p.totalStaked≠0#64)
    (hsingle : Staking.crank p last=.ok p1) (hslot : slot.toNat≤last.toNat)
    (hlast : q.lastUpdateSlot.toNat-p.lastUpdateSlot.toNat≤last.toNat-p.lastUpdateSlot.toNat) :
    ∃ q',Staking.crank q slot=.ok q' := by
  obtain ⟨hstake,hrate,_,reward,_,-,hmost,-⟩ := h
  obtain ⟨hproduct,hscaled,hsum,-⟩ := (crank_eq_ok hstaked).mp hsingle
  have hage : due p q.lastUpdateSlot+due q slot≤due p last := by
    rw [due,due,due,hstake,hrate,← Nat.mul_add]
    exact Nat.mul_le_mul_left _ (by omega)
  have hrewards : reward+due q slot/rateUnit≤due p last/rateUnit := by
    refine (Nat.le_div_iff_mul_le (by decide)).mpr ?_
    rw [Nat.add_mul]
    exact (Nat.add_le_add hmost (div_mul_le_self _ _)).trans hage
  have hshares := Nat.mul_le_mul_right (10^12) hrewards
  have hfits : q.accumulatedRewardPerToken.toNat+due q slot/rateUnit*10^12/p.totalStaked.toNat≤
      p1.accumulatedRewardPerToken.toNat := by
    have hshare := div_mul_le_self (due q slot/rateUnit*10^12) p.totalStaked.toNat
    rw [hsum]
    refine le_add_share (toNat_pos.mpr hstaked) ?_
    rw [Nat.add_mul] at hshares ⊢
    omega
  obtain ⟨accumulated,haccumulated⟩ := exists_toNat (hfits.trans_lt (isLt _))
  refine ⟨{q with accumulatedRewardPerToken := accumulated, lastUpdateSlot := _},
    (crank_eq_ok (hstake ▸ hstaked)).mpr ⟨?_,?_,hstake.symm ▸ haccumulated,rfl⟩⟩
  · exact ((Nat.le_add_left _ _).trans hage).trans_lt hproduct
  · exact (Nat.mul_le_mul_right _ ((Nat.le_add_left _ _).trans hrewards)).trans_lt hscaled

theorem Emitted.cranks (hstaked : p.totalStaked≠0#64) (hsingle : Staking.crank p last=.ok p1)
    (slots : List U64) (hslots : ∀ x∈slots,x.toNat≤last.toNat) (h : Emitted p n q)
    (hlast : q.lastUpdateSlot.toNat-p.lastUpdateSlot.toNat≤last.toNat-p.lastUpdateSlot.toNat) :
    ∃ q',(slots++[last]).foldlM Staking.crank q=.ok q' ∧ Emitted p (n+slots.length+1) q' ∧
      q'.lastUpdateSlot.toNat-p.lastUpdateSlot.toNat=last.toNat-p.lastUpdateSlot.toNat := by
  induction slots generalizing q n with
  | nil =>
    obtain ⟨q',hcrank⟩ := h.possible hstaked hsingle le_rfl hlast
    obtain ⟨hemitted,hupdated⟩ := h.crank hstaked hcrank
    refine ⟨q',?_,hemitted,by omega⟩
    rw [nil_append,foldlM_cons,hcrank]
    rfl
  | cons x slots ih =>
    have hx := hslots x mem_cons_self
    obtain ⟨_,hcrank⟩ := h.possible hstaked hsingle hx hlast
    obtain ⟨hemitted,hupdated⟩ := h.crank hstaked hcrank
    obtain ⟨q',hrest,_,hend⟩ := ih (fun y hy => hslots y (mem_cons_of_mem _ hy)) hemitted (by omega)
    refine ⟨q',?_,?_,hend⟩
    · rw [List.cons_append,foldlM_cons,hcrank]
      exact hrest
    · rwa [length_cons,Nat.add_comm slots.length,← Nat.add_assoc]

/-- After the last crank, in the slot of the single one. -/
theorem Emitted.bounds (h : Emitted p (n+1) q) (hstaked : p.totalStaked≠0#64)
    (hsingle : Staking.crank p last=.ok p1)
    (hslot : q.lastUpdateSlot.toNat-p.lastUpdateSlot.toNat=last.toNat-p.lastUpdateSlot.toNat) :
    q.accumulatedRewardPerToken.toNat≤p1.accumulatedRewardPerToken.toNat ∧ p.totalStaked.toNat*
        (p1.accumulatedRewardPerToken.toNat-q.accumulatedRewardPerToken.toNat)≤
          n*10^12+(n+1)*p.totalStaked.toNat := by
  obtain ⟨-,-,-,reward,hupper,_,hmost,hleast⟩ := h
  obtain ⟨-,-,hsum,-⟩ := (crank_eq_ok hstaked).mp hsingle
  rw [show due p q.lastUpdateSlot=due p last by rw [due,due,hslot]] at hmost hleast
  have hle : reward≤due p last/rateUnit := (Nat.le_div_iff_mul_le (by decide)).mpr hmost
  have hge : due p last/rateUnit≤ reward+n :=
    Compounding.units_lost (n := n+1) (by decide) ((div_mul_le_self _ _).trans hleast)
  have hshare := div_mul_le_self (due p last/rateUnit*10^12) p.totalStaked.toNat
  rw [hsum]
  generalize due p last/rateUnit=x at hle hge hshare
  have hscaled := Nat.mul_le_mul_right (10^12) hge
  rw [Nat.add_mul] at hscaled
  refine ⟨le_add_share (toNat_pos.mpr hstaked)
    (hupper.trans (Nat.add_le_add_left (Nat.mul_le_mul_right _ hle) _)),?_⟩
  rw [Nat.mul_comm,Nat.sub_mul,Nat.add_mul]
  omega

end Cranks

/-- Where a single crank is possible, cranks before it are as well, and make no difference to it but
for rounding. Their slots need not even be in order. -/
theorem cranks_path_independent {p p₁ : StakingPool} {slots : List U64} {last : U64}
    (hstaked : p.totalStaked≠0#64) (hslots : ∀ x∈slots,x.toNat≤last.toNat)
    (hsingle : crank p last=.ok p₁) :
    ∃ q,(slots++[last]).foldlM crank p=.ok q ∧
      q.accumulatedRewardPerToken.toNat≤p₁.accumulatedRewardPerToken.toNat ∧
      p.totalStaked.toNat*(p₁.accumulatedRewardPerToken.toNat-q.accumulatedRewardPerToken.toNat)≤
          slots.length*10^12+(slots.length+1)*p.totalStaked.toNat := by
  have hstart : Emitted p 0 p := ⟨rfl,rfl,le_rfl,0,by simp [due]⟩
  obtain ⟨q,hall,hemitted,hend⟩ := hstart.cranks hstaked hsingle slots hslots (by omega)
  rw [Nat.zero_add] at hemitted
  exact ⟨q,hall,hemitted.bounds hstaked hsingle hend⟩

/-- A pool of three PRISM at eight per cent, last updated in slot 2. -/
def smallPool : StakingPool :=
  ⟨true,2#256,6#256,3000000000#64,0#128,0#64,0#64,800#64,2#64,254#8⟩

/-- Two cranks on the way. -/
theorem three_cranks :
    ∃ p₁ q,crank smallPool 9#64=.ok p₁ ∧ [4#64,7#64,9#64].foldlM crank smallPool=.ok q ∧
    q.accumulatedRewardPerToken.toNat≤p₁.accumulatedRewardPerToken.toNat := by
  have hsingle := eq_ok_of_isOk (x := crank smallPool 9#64) smallPool (by decide +kernel)
  have hslots : ∀ x∈[4#64,7#64],BitVec.toNat x≤(9#64).toNat := by simp
  obtain ⟨q,hall,hle,-⟩ := cranks_path_independent (by decide) hslots hsingle
  exact ⟨_,q,hsingle,hall,hle⟩

end PrismChain.Staking
