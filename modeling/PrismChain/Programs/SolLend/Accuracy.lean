import PrismChain.Math.Compounding
import PrismChain.Programs.SolLend.Totals

namespace PrismChain.SolLend

open FixedWidth Option List BitVec

section Settlement

/-- One side of the position is settled exactly, and its snapshot is advanced. -/
def SettledExactly (q : Side) (m : LendingMarket) (p p' : UserPosition) : Prop :=
  (q.amount p').toNat=(q.amount p).toNat*(q.index m).toNat/(q.snapshot p).toNat ∧
    q.snapshot p'=q.index m

theorem settledAmount_exact_iff {snapshot : U64} (hsnapshot : 0< snapshot.toNat) :
    (settledAmount amount index snapshot).toNat=amount.toNat*index.toNat/snapshot.toNat ↔
      amount.toNat*index.toNat<2^64 ∨ amount.toNat*index.toNat/snapshot.toNat=amount.toNat := by
  unfold settledAmount
  by_cases hamount : 0<amount.toNat
  · rw [if_pos ⟨hsnapshot,hamount⟩]
    cases hm : checkedMul amount index with
    | none =>
      have hlarge : ¬amount.toNat*index.toNat<2^64 := fun hlt => by
        rw [checkedMul,if_pos hlt] at hm
        cases hm
      rw [map_none,getD_none,or_iff_right hlarge]
      exact eq_comm
    | some v =>
      have hv := checkedMul_eq_some.mp hm
      rw [map_some,getD_some,toNat_udiv,hv]
      exact iff_of_true rfl (.inl (hv ▸ v.isLt))
  · have hzero : amount.toNat=0 := Nat.eq_zero_of_not_pos hamount
    rw [if_neg fun h => hamount h.2,hzero,Nat.zero_mul,Nat.zero_div]
    exact iff_of_true rfl (.inr rfl)

/-- A position is settled exactly on both sides if and only if each product fits into 64 bits or
the interest comes to less than a unit. -/
theorem settlement_exact_iff (m : LendingMarket) (p : UserPosition)
    (hsnapshot : ∀ q : Side,0<(q.snapshot p).toNat) :
    (∀ q,SettledExactly q m p (settleUserInterest p m)) ↔
      ∀ q : Side,(q.amount p).toNat*(q.index m).toNat<2^64 ∨
        (q.amount p).toNat*(q.index m).toNat/(q.snapshot p).toNat=(q.amount p).toNat := by
  refine forall_congr' fun q => ?_
  have hadvanced : q.snapshot (settleUserInterest p m)=q.index m := by cases q <;> rfl
  rw [SettledExactly,and_iff_left hadvanced,q.amount_settle]
  exact settledAmount_exact_iff (hsnapshot q)

def savings (amount : U64) : UserPosition :=
  ⟨true,2#256,3#256,amount,100#64,1000000000#64,1000000000#64,0#64⟩

def grownMarket (index : U64) : LendingMarket := {sampleMarket with cumulativeDepositIndex := index}

theorem token_settled : (settleUserInterest (savings 1000000000#64)
      (grownMarket 1500000000#64)).depositedAmount=1500000000#64 ∧
    ∀ q,SettledExactly q (grownMarket 1500000000#64) (savings 1000000000#64)
      (settleUserInterest (savings 1000000000#64) (grownMarket 1500000000#64)) :=
  ⟨by decide,(settlement_exact_iff _ _ fun q => by cases q <;> decide).mpr
    fun q => by cases q <;> decide⟩

/-- A hundred tokens of nine decimals do not grow with the index, and their snapshot moves on. -/
theorem savings_lost : (∀ q : Side,0<(q.snapshot (savings 100000000000#64)).toNat) ∧
    (∀ q : Side,
    (q.amount (savings 100000000000#64)).toNat*(q.index (grownMarket 1500000000#64)).toNat/
      (q.snapshot (savings 100000000000#64)).toNat<2^64) ∧
    settleUserInterest (savings 100000000000#64) (grownMarket 1500000000#64)=
      {savings 100000000000#64 with depositIndexSnapshot := 1500000000#64} ∧
    ¬SettledExactly .deposits (grownMarket 1500000000#64) (savings 100000000000#64)
      (settleUserInterest (savings 100000000000#64) (grownMarket 1500000000#64)) := by
  refine ⟨fun q => by cases q <;> decide,fun q => by cases q <;> decide,by decide,?_⟩
  unfold SettledExactly
  decide

end Settlement

section Accrual

variable {m : LendingMarket} {slots now : U64}

/-- Both indices and both totals grow by their exact interest, rounded down. -/
structure AccruedExactly (m m' : LendingMarket) (slots : U64) : Prop where
  indices : ∀ q : Side,(q.index m').toNat=
    (q.index m).toNat+(q.index m).toNat*(q.rate m).toNat*slots.toNat/accrualBase
  totals : ∀ q : Side,(q.total m').toNat=(q.total m).toNat+exactInterest m slots/accrualBase

theorem small_of_no_interest (h : n/accrualBase=0) : n<2^64 :=
  ((Nat.div_eq_zero_iff_lt (by decide)).mp h).trans (by decide)

theorem product_of_compoundIndex (h : (compoundIndex index rate slots).toNat=
      index.toNat+index.toNat*rate.toNat*slots.toNat/accrualBase) :
    index.toNat*rate.toNat*slots.toNat<2^64 := by
  obtain hsame | ⟨n,hn,-⟩ := compoundIndex_eq index rate slots
  · rw [hsame] at h
    exact small_of_no_interest (by omega)
  · exact hn ▸ n.isLt

theorem interestAccrued_cases (m : LendingMarket) (slots : U64) :
    interestAccrued m slots=0#64 ∨ exactInterest m slots<2^64 := by
  unfold interestAccrued exactInterest
  cases hn : (checkedMul m.totalBorrows m.borrowRate).bind fun v => checkedMul v slots with
  | none => exact .inl rfl
  | some n =>
    obtain ⟨v,hv,hn⟩ := bind_eq_some_iff.mp hn
    rw [← checkedMul_eq_some.mp hv,← checkedMul_eq_some.mp hn]
    exact .inr n.isLt

theorem accrued_exactly_iff (hindices : ∀ q : Side,(q.index m).toNat+
      (q.index m).toNat*(q.rate m).toNat*slots.toNat/accrualBase<2^64)
    (htotals : ∀ q : Side,(q.total m).toNat+exactInterest m slots/accrualBase<2^64) :
    AccruedExactly m (accrued m slots now) slots ↔ Fits m slots := by
  constructor
  · intro h
    refine ⟨fun q => ?_,?_,htotals⟩
    · have hindex := h.indices q
      rw [accrued_index] at hindex
      exact product_of_compoundIndex hindex
    · obtain hnone | hfits := interestAccrued_cases m slots
      · have htotal := h.totals .deposits
        change (saturatingAdd m.totalDeposits (interestAccrued m slots)).toNat=
          m.totalDeposits.toNat+_ at htotal
        rw [hnone,toNat_saturatingAdd,toNat_zero] at htotal
        have hlt := m.totalDeposits.isLt
        exact small_of_no_interest (by omega)
      · exact hfits
  · intro h
    refine ⟨fun q => ?_,accrued_total h⟩
    rw [accrued_index]
    exact compoundIndex_exact (h.indices q) (hindices q)

end Accrual

/-- Where the results fit into 64 bits, an accepted `AccrueInterest` adds the exact interest if and
only if the products do as well; it advances the slot in any case. -/
theorem accrual_exact_iff {id mk : Pubkey} {c : Call Instruction} {b b' : Bank} {m : LendingMarket}
    (hc : c.instruction=.accrueInterest) (hkey : c.key? 0=some mk)
    (hm : marketCodec.tryFromSlice (b mk).data=some m)
    (hslot : m.lastUpdateSlot.toNat<c.clock.slot.toNat) {slots : U64}
    (hslots : slots=c.clock.slot-m.lastUpdateSlot)
    (hindices : ∀ q : Side,(q.index m).toNat+
      (q.index m).toNat*(q.rate m).toNat*slots.toNat/accrualBase<2^64)
    (htotals : ∀ q : Side,(q.total m).toNat+exactInterest m slots/accrualBase<2^64)
    (hx : (program id).execute c b=.ok b') :
    ∃ m',marketCodec.tryFromSlice (b' mk).data=some m' ∧ m'.lastUpdateSlot=c.clock.slot ∧
      (AccruedExactly m m' slots ↔
        (∀ q : Side,(q.index m).toNat*(q.rate m).toNat*slots.toNat<2^64) ∧
        m.totalBorrows.toNat*m.borrowRate.toNat*slots.toNat<2^64) := by
  have r := execute_accrual hx hc hkey ((marketCodec.tryFromSlice_eq_some).mp hm)
  have helapsed : saturatingSub c.clock.slot m.lastUpdateSlot=slots := by
    refine eq_of_toNat_eq ?_
    rw [hslots,toNat_saturatingSub,toNat_sub_of_le (le_def.mpr hslot.le)]
  refine ⟨_,(marketCodec.tryFromSlice_eq_some).mpr r.market',?_⟩
  rw [cranked,if_neg (Nat.not_le.mpr hslot),helapsed]
  refine ⟨rfl,(accrued_exactly_iff hindices htotals).trans ⟨fun h => ⟨h.indices,h.interest⟩,?_⟩⟩
  exact fun h => ⟨h.1,h.2,htotals⟩

def crankAt (slot : U64) : Call Instruction :=
  ⟨⟨slot,0#64⟩,[⟨3#256,false,true⟩],.accrueInterest⟩

theorem short_accrual_exact : ∃ b' m',(program 1#256).execute (crankAt 78845#64) sampleBank=.ok b' ∧
    marketCodec.tryFromSlice (b' 3#256).data=some m' ∧
    AccruedExactly sampleMarket m' 78840#64 := by
  have hx := eq_ok_of_isOk (x := (program 1#256).execute (crankAt 78845#64) sampleBank) sampleBank
    (by decide +kernel)
  obtain ⟨m',hm',-,hiff⟩ := @accrual_exact_iff _ _ _ _ _ sampleMarket rfl rfl
    (by decide +kernel) (by decide) 78840#64 (by decide) (fun q => by cases q <;> decide)
    (fun q => by cases q <;> decide) hx
  exact ⟨_,m',hx,hm',hiff.mpr ⟨fun q => by cases q <;> decide,by decide⟩⟩

/-- A year and a quarter is too long for the product with the index, and no interest is charged. -/
theorem long_accrual_lost :
    ∃ b' m',(program 1#256).execute (crankAt 100000005#64) sampleBank=.ok b' ∧
    marketCodec.tryFromSlice (b' 3#256).data=some m' ∧ m'.lastUpdateSlot=100000005#64 ∧
    (∀ q : Side,(q.index sampleMarket).toNat+(q.index sampleMarket).toNat*
      (q.rate sampleMarket).toNat*100000000/accrualBase<2^64) ∧
    (∀ q : Side,
    (q.total sampleMarket).toNat+exactInterest sampleMarket 100000000#64/accrualBase<2^64) ∧
    m'.cumulativeBorrowIndex=sampleMarket.cumulativeBorrowIndex ∧
    ¬AccruedExactly sampleMarket m' 100000000#64 := by
  obtain ⟨b',hb',m',hm',hslot,hindex⟩ :
      ∃ b',((program 1#256).execute (crankAt 100000005#64) sampleBank).toOption=some b' ∧
      ∃ m',marketCodec.tryFromSlice (b' 3#256).data=some m' ∧ m'.lastUpdateSlot=100000005#64 ∧
      m'.cumulativeBorrowIndex=1000000000#64 := by decide +kernel
  refine ⟨b',m',toOption_eq_some.mp hb',hm',hslot,fun q => by cases q <;> decide,
    fun q => by cases q <;> decide,hindex,fun h => ?_⟩
  have hgrown := h.indices .borrows
  dsimp only [Side.index] at hgrown
  rw [hindex] at hgrown
  cases hgrown

section Splitting

variable {index rate slots : U64} {parts : List U64}

def compoundParts (rate index : U64) (parts : List U64) : U64 :=
  parts.foldl (fun i slots => compoundIndex i rate slots) index

def PartsFit (rate index : U64) : List U64 → Prop
  | [] => True
  | slots::parts => index.toNat*rate.toNat*slots.toNat<2^64 ∧
      PartsFit rate (compoundIndex index rate slots) parts

theorem le_compoundParts : index.toNat≤(compoundParts rate index parts).toNat := by
  induction parts generalizing index with
  | nil => exact le_rfl
  | cons _ parts ih => exact le_compoundIndex.trans ih

theorem compoundParts_lower (hfits : PartsFit rate index parts) :
    index.toNat*accrualBase+index.toNat*(rate.toNat*(parts.map BitVec.toNat).sum)≤
        (compoundParts rate index parts).toNat*accrualBase+parts.length*(accrualBase-1) ∨
      (compoundParts rate index parts).toNat=2^64-1 := by
  induction parts generalizing index with
  | nil => simp [compoundParts]
  | cons slots parts ih =>
    obtain ⟨hfirst,hrest⟩ := hfits
    have hvalue := compoundIndex_fits hfirst
    by_cases hroom : index.toNat+index.toNat*rate.toNat*slots.toNat/accrualBase≤2^64-1
    · rw [min_eq_left hroom] at hvalue
      refine (ih hrest).imp_left fun hlower => ?_
      have hstep := Compounding.step_lower (by decide) le_rfl hvalue.ge
      have hless := Nat.mul_le_mul_right (rate.toNat*(parts.map BitVec.toNat).sum)
        (@le_compoundIndex index rate slots)
      change _≤(compoundParts rate (compoundIndex index rate slots) parts).toNat*accrualBase+_
      rw [map_cons,sum_cons,length_cons,Nat.add_mul,Nat.mul_add rate.toNat,Nat.mul_add index.toNat]
      omega
    · right
      rw [min_eq_right (Nat.le_of_not_le hroom)] at hvalue
      have hmore := @le_compoundParts (compoundIndex index rate slots) rate parts
      have hlt := (compoundParts rate (compoundIndex index rate slots) parts).isLt
      change (compoundParts rate (compoundIndex index rate slots) parts).toNat=_
      omega

end Splitting

/-- Accruing part by part costs less than one unit of the index for each part. -/
theorem split_accrual_short {index rate slots : U64} {parts : List U64}
    (hsplit : slots.toNat=(parts.map BitVec.toNat).sum) (hfits : PartsFit rate index parts) :
    (compoundIndex index rate slots).toNat≤(compoundParts rate index
    parts).toNat+(parts.length-1) := by
  obtain hlower | _ := compoundParts_lower hfits
  · refine @Compounding.units_lost accrualBase _ _ _ (by decide) ?_
    refine (@compoundIndex_le index rate slots).trans ?_
    rw [Nat.mul_add,hsplit]
    exact hlower
  · have hlt := (compoundIndex index rate slots).isLt
    omega

theorem split_of_three : (compoundIndex 1000000000#64 200#64 9#64).toNat≤
    (compoundParts 200#64 1000000000#64 [4#64,2#64,3#64]).toNat+2 :=
  split_accrual_short (by decide) ⟨by decide,by decide,by decide,trivial⟩

/-- At the first index and the base rate three slots bear no interest, and six slots do. -/
theorem split_accrual_less : PartsFit 200#64 1000000000#64 [3#64,3#64] ∧
    (1000000000#64).toNat*(200#64).toNat*(6#64).toNat<2^64 ∧
    (compoundParts 200#64 1000000000#64 [3#64,3#64]).toNat<
      (compoundIndex 1000000000#64 200#64 6#64).toNat :=
  ⟨⟨by decide,by decide,trivial⟩,by decide,by decide⟩

end PrismChain.SolLend
