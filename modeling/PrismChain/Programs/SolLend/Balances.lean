import PrismChain.Programs.SolLend.Interest
import PrismChain.Programs.SolLend.Transition

namespace PrismChain.SolLend

open FixedWidth InterestIndex

/-- Deposits and borrows are kept alike: an amount at a snapshot in every position, and an index, a
rate and a total in the market. -/
inductive Side where
  | deposits
  | borrows
  deriving DecidableEq

namespace Side

def amount : Side → UserPosition → U64
  | deposits => UserPosition.depositedAmount
  | borrows => UserPosition.borrowedAmount

def snapshot : Side → UserPosition → U64
  | deposits => UserPosition.depositIndexSnapshot
  | borrows => UserPosition.borrowIndexSnapshot

def total : Side → LendingMarket → U64
  | deposits => LendingMarket.totalDeposits
  | borrows => LendingMarket.totalBorrows

def index : Side → LendingMarket → U64
  | deposits => LendingMarket.cumulativeDepositIndex
  | borrows => LendingMarket.cumulativeBorrowIndex

def rate : Side → LendingMarket → U64
  | deposits => LendingMarket.depositRate
  | borrows => LendingMarket.borrowRate

def balance (q : Side) (p : UserPosition) : Balance := ⟨(q.amount p).toNat,(q.snapshot p).toNat⟩

theorem amount_settle (q : Side) (p : UserPosition) (m : LendingMarket) :
    q.amount (settleUserInterest p m)=settledAmount (q.amount p) (q.index m) (q.snapshot p) := by
  cases q <;> rfl

end Side

/-- What an instruction makes of a position and its market: it takes no more from a total than from
the settled position and leaves the position settled. -/
structure Moves (m : LendingMarket) (p : UserPosition) (x : LendingMarket×UserPosition) : Prop where
  live : x.2.isInitialized=p.isInitialized
  home : x.2.market=p.market
  market : x.1.isInitialized=m.isInitialized
  index : ∀ q : Side,q.index x.1=q.index m
  snapshot : ∀ q : Side,q.snapshot x.2=q.index m
  totals : ∀ q : Side,(q.total m).toNat+(q.amount x.2).toNat≤
    (q.total x.1).toNat+(q.amount (settleUserInterest p m)).toNat
  fair : Fair x.1

section Changes

variable {m m1 : LendingMarket} {p p1 : UserPosition}

theorem finish_moves (hlive : p1.isInitialized=p.isInitialized) (hhome : p1.market=p.market)
    (hmarket : m1.isInitialized=m.isInitialized) (hindex : ∀ q : Side,q.index m1=q.index m)
    (htotals : ∀ q : Side,(q.total m).toNat+(q.amount p1).toNat≤
      (q.total m1).toNat+(q.amount (settleUserInterest p m)).toNat) : Moves m p (finish m1 p1) where
  live := hlive
  home := hhome
  market := hmarket
  index q := by
    rw [← hindex q]
    cases q <;> rfl
  snapshot q := by
    rw [← hindex q]
    cases q <;> rfl
  totals q := by
    have h := htotals q
    cases q <;> exact h
  fair := recalculateRates_fair m1

theorem deposited_moves {amount : U64} (h : deposited m p amount=.ok x) : Moves m p x := by
  simp only [deposited,steps_ok,checkedAdd_eq_some] at h
  obtain ⟨_,_,total,_,rfl⟩ := h
  refine finish_moves rfl rfl rfl (fun q => by cases q <;> rfl) fun q => ?_
  cases q with
  | deposits =>
    dsimp only [Side.total,Side.amount]
    omega
  | borrows => exact le_refl _

theorem withdrawn_moves {amount : U64} (h : withdrawn amount m p=.ok x) : Moves m p x := by
  simp only [withdrawn,steps_ok] at h
  obtain ⟨-,_,-,-,rfl⟩ := h
  refine finish_moves rfl rfl rfl (fun q => by cases q <;> rfl) fun q => ?_
  cases q with
  | deposits =>
    dsimp only [Side.total,Side.amount]
    rw [toNat_saturatingSub,toNat_saturatingSub]
    omega
  | borrows => exact le_refl _

theorem borrowed_moves {amount : U64} (h : borrowed amount m p=.ok x) : Moves m p x := by
  simp only [borrowed,steps_ok,checkedAdd_eq_some] at h
  obtain ⟨_,_,-,-,total,_,rfl⟩ := h
  refine finish_moves rfl rfl rfl (fun q => by cases q <;> rfl) fun q => ?_
  cases q with
  | deposits => exact le_refl _
  | borrows =>
    dsimp only [Side.total,Side.amount]
    omega

theorem repaid_moves {amount : U64} (h : repaid amount m p=.ok x) : Moves m p x := by
  simp only [repaid,steps_ok] at h
  obtain ⟨-,_,rfl⟩ := h
  refine finish_moves rfl rfl rfl (fun q => by cases q <;> rfl) fun q => ?_
  cases q with
  | deposits => exact le_refl _
  | borrows =>
    dsimp only [Side.total,Side.amount]
    rw [toNat_saturatingSub,toNat_saturatingSub]
    omega

theorem liquidated_moves {amount : U64} (h : liquidated amount m p=.ok x) : Moves m p x := by
  simp only [liquidated,steps_ok] at h
  obtain ⟨-,-,rfl⟩ := h
  refine finish_moves rfl rfl rfl (fun q => by cases q <;> rfl) fun q => ?_
  -- neither the repaid debt nor the seized collateral exceeds what the position has
  cases q with
  | deposits =>
    dsimp only [Side.total,Side.amount]
    rw [toNat_saturatingSub,toNat_saturatingSub,collateralSeized,toNat_umin]
    omega
  | borrows =>
    dsimp only [Side.total,Side.amount]
    rw [toNat_saturatingSub,toNat_saturatingSub,toNat_umin]
    omega

variable {mk : Pubkey} {data : List Byte}

theorem Effect.moves (h : Effect mk data m i p x) : Moves m p x := by
  cases h with
  | deposited hx => exact deposited_moves hx
  | withdrawn _ hx => exact withdrawn_moves hx
  | borrowed _ hx => exact borrowed_moves hx
  | repaid _ hx => exact repaid_moves hx
  | liquidated _ hx => exact liquidated_moves hx

/-- How an account with the bytes `data` can be taken for the position `p`: it holds it, or a first
deposit at the market `mk` opens it in an account that is not in use. -/
inductive Taken (mk : Pubkey) (data : List Byte) (p : UserPosition) : Prop
  | held (hdata : data=positionCodec.encode p)
  | opened (hlive : p.isInitialized=true) (hhome : p.market=mk)
      (hunused : ∀ p₀,data=positionCodec.encode p₀ →
        p₀.isInitialized=false ∧ ∀ q : Side,q.amount p=q.amount p₀)
      (hempty : (∃ p₀,data=positionCodec.encode p₀) ∨ ∀ q : Side,q.amount p=0#64)

theorem depositorPosition_taken (m : LendingMarket) (mk depositor : Pubkey) (data : List Byte) :
    Taken mk data (depositorPosition m mk depositor data) ∧
      (depositorPosition m mk depositor data).isInitialized=true := by
  unfold depositorPosition
  cases hread : positionCodec.tryFromSlice data with
  | none =>
    have hno (p0 : UserPosition) : data≠positionCodec.encode p0 := by
      rw [ne_eq,← Codec.tryFromSlice_eq_some,hread]
      nofun
    exact ⟨.opened rfl rfl (fun p0 h => absurd h (hno p0)) (Or.inr fun q => by cases q <;> rfl),rfl⟩
  | some p0 =>
    have hdata := (positionCodec.tryFromSlice_eq_some).mp hread
    dsimp only [Option.getD_some]
    by_cases hlive : p0.isInitialized=false
    · rw [if_pos hlive]
      refine ⟨.opened rfl rfl (fun p1 h => ?_) (Or.inl ⟨p0,hdata⟩),rfl⟩
      obtain rfl := positionCodec.encode_inj (hdata.symm.trans h)
      exact ⟨hlive,fun q => by cases q <;> rfl⟩
    · rw [if_neg hlive]
      exact ⟨.held hdata,Bool.not_eq_false _ ▸ hlive⟩

theorem Effect.taken (h : Effect mk data m i p x) : Taken mk data p := by
  cases h with
  | deposited => exact (depositorPosition_taken m mk _ data).1
  | withdrawn hp => exact .held hp
  | borrowed hp => exact .held hp
  | repaid hp => exact .held hp
  | liquidated hp => exact .held hp

/-- An account that is not in use and is not put to use does not get a balance: without a deposit
there is nothing to borrow against. -/
theorem Effect.idle (h : Effect mk data m i p x) (hempty : ∀ q : Side,q.amount p=0#64)
    (hlive : p.isInitialized=false) (q : Side) : q.amount x.2=0#64 := by
  have hsettled (q : Side) : q.amount (settleUserInterest p m)=0#64 := by
    rw [q.amount_settle,hempty q,settledAmount_zero]
  have hd : (settleUserInterest p m).depositedAmount=0#64 := hsettled .deposits
  have hb : (settleUserInterest p m).borrowedAmount=0#64 := hsettled .borrows
  cases h with
  | deposited => rw [(depositorPosition_taken m mk _ data).2] at hlive; cases hlive
  | withdrawn _ hx =>
    simp only [SolLend.withdrawn,steps_ok] at hx
    obtain ⟨-,-,-,-,rfl⟩ := hx
    cases q with
    | deposits =>
      change saturatingSub (settleUserInterest p m).depositedAmount _=0#64
      rw [hd,zero_saturatingSub]
    | borrows => exact hb
  | borrowed _ hx =>
    simp only [SolLend.borrowed,steps_ok] at hx
    obtain ⟨_,-,-,hmax,_,-,rfl⟩ := hx
    cases q with
    | deposits => exact hd
    | borrows =>
      have hnone : (maxBorrow m (settleUserInterest p m)).toNat=0 := by
        unfold maxBorrow checkedMul
        rw [hd]
        simp
      rw [hnone] at hmax
      exact BitVec.eq_of_toNat_eq (Nat.le_zero.mp hmax)
  | repaid _ hx =>
    simp only [SolLend.repaid,steps_ok] at hx
    obtain ⟨-,-,rfl⟩ := hx
    cases q with
    | deposits => exact hd
    | borrows =>
      change saturatingSub (settleUserInterest p m).borrowedAmount _=0#64
      rw [hb,zero_saturatingSub]
  | liquidated _ hx =>
    simp only [SolLend.liquidated,steps_ok] at hx
    obtain ⟨-,hhealth,-⟩ := hx
    rw [hb,calculateHealthFactor,if_pos rfl] at hhealth
    exact absurd hhealth (by decide)

end Changes

end PrismChain.SolLend
