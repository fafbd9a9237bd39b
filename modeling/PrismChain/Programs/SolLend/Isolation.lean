import PrismChain.Programs.SolLend.Positions

namespace PrismChain.SolLend

open Option

/-- The account holds no position of another market, or one that is not in use and that a deposit
takes over. -/
def Fitting (mk : Pubkey) (c : Call Instruction) (data : List Byte) : Prop :=
  ∀ p,data=positionCodec.encode p →
    p.market=mk ∨ p.isInitialized=false ∧ ∃ amount,c.instruction=.deposit amount

section Effects

variable {id mk : Pubkey}

theorem Changed.market_iff (u : Changed id c b b' mk k m p x) :
    x.2.market=mk ↔ Fitting mk c (b k).data := by
  rw [u.effect.moves.home]
  have heffect := u.effect
  have hheld (hp : (b k).data=positionCodec.encode p)
    (hno : ∀ amount,c.instruction≠.deposit amount) :
      p.market=mk ↔ Fitting mk c (b k).data := by
    constructor
    · intro hmarket p1 hp1
      rw [← positionCodec.encode_inj (hp.symm.trans hp1)]
      exact .inl hmarket
    · intro hfit
      obtain hmarket | ⟨-,amount,hdeposit⟩ := hfit p hp
      · exact hmarket
      · exact absurd hdeposit (hno amount)
  generalize hi : c.instruction=i at heffect
  cases heffect with
  | @deposited depositor amount x =>
    obtain ⟨htaken,hlive⟩ := depositorPosition_taken m mk depositor (b k).data
    cases htaken with
    | held hp =>
      constructor
      · intro hmarket p1 hp1
        rw [← positionCodec.encode_inj (hp.symm.trans hp1)]
        exact .inl hmarket
      · intro hfit
        obtain hmarket | ⟨hdead,-⟩ := hfit _ hp
        · exact hmarket
        · rw [hlive] at hdead
          cases hdead
    | opened _ hmarket hunused =>
      refine ⟨fun _ p1 hp1 => ?_,fun _ => hmarket⟩
      exact .inr ⟨(hunused p1 hp1).1,amount,hi⟩
  | withdrawn hp => exact hheld hp (by rw [hi]; nofun)
  | borrowed hp => exact hheld hp (by rw [hi]; nofun)
  | repaid hp => exact hheld hp (by rw [hi]; nofun)
  | liquidated hp => exact hheld hp (by rw [hi]; nofun)

theorem Changed.others_kept (u : Changed id c b b' mk k m p x) (hfit : Fitting mk c (b k).data)
    (hp1 : (b j).data=positionCodec.encode p1) (hlive : p1.isInitialized=true)
    (hmarket : p1.market≠mk) : (b' j).data=(b j).data := by
  have hk : j≠k := by
    rintro rfl
    obtain hsame | ⟨hdead,-⟩ := hfit p1 hp1
    · exact hmarket hsame
    · rw [hlive] at hdead
      cases hdead
  have hmk : j≠mk := by
    rintro rfl
    exact market_ne_position m p1 (u.market.symm.trans hp1)
  apply u.touched.others
  simp [hk,hmk]

end Effects

/-- The position belongs to the market of the instruction afterwards exactly when it did before or
is opened by it, and then no balance of another market is touched. -/
theorem position_at_market_iff {id mk k : Pubkey} {c : Call Instruction} {b b' : Bank}
    (hon : c.instruction.onPosition=true) (hmk : c.key? 0=some mk) (hk : c.key? 1=some k)
    (hx : (program id).execute c b=.ok b') :
    ((∃ p,positionCodec.front (b' k).data=some p ∧ p.market=mk) ↔ Fitting mk c (b k).data) ∧
    (Fitting mk c (b k).data → ∀ j p,(b j).data=positionCodec.encode p → p.isInitialized=true →
      p.market≠mk → (b' j).data=(b j).data) := by
  obtain ⟨m,p,x,u⟩ := execute_onPosition hx hon hmk hk
  have hfront : positionCodec.front (b' k).data=some x.2 :=
    (positionCodec.front_eq_some).mpr ⟨_,u.position'⟩
  rw [hfront,← u.market_iff]
  refine ⟨⟨fun ⟨p₁,hp₁,hmarket⟩ => ?_,fun hmarket => ⟨x.2,rfl,hmarket⟩⟩,fun hmarket j p₁ => ?_⟩
  · rw [some.inj hp₁]
    exact hmarket
  · exact u.others_kept (u.market_iff.mp hmarket)

def pairBank : Bank := fun k =>
  if k=3#256 ∨ k=7#256 then ⟨1000000#64,List.replicate marketLen 0#8,1#256⟩
  else if k=6#256 ∨ k=9#256 then ⟨1000000#64,List.replicate positionLen 0#8,1#256⟩
  else ⟨0#64,[],systemProgram⟩

def pairStart : Ledger := ⟨pairBank,⟨5#64,0#64⟩⟩

def onPair (market position user : Pubkey) (i : Instruction) : Call Instruction :=
  ⟨⟨5#64,0#64⟩,[⟨market,false,true⟩,⟨position,false,true⟩,⟨user,true,false⟩],i⟩

def pairCalls : List (Call Instruction) :=
  [⟨⟨5#64,0#64⟩,[⟨3#256,false,true⟩,⟨2#256,true,false⟩,⟨4#256,false,false⟩],.initializeMarket⟩,
    ⟨⟨5#64,0#64⟩,[⟨7#256,false,true⟩,⟨8#256,true,false⟩,⟨5#256,false,false⟩],.initializeMarket⟩,
    onPair 3#256 6#256 2#256 (.deposit 100#64),onPair 7#256 9#256 8#256 (.deposit 100#64)]

theorem withdrawal_at_home : ∃ tr t b',Run ((program 1#256).Step Program.anyCall) pairStart tr t ∧
    (program 1#256).execute (onPair 3#256 6#256 2#256 (.withdraw 100#64)) t.bank=.ok b' ∧
    ∃ p,positionCodec.front (b' 6#256).data=some p ∧ p.market=3#256 := by
  obtain ⟨⟨tr,t⟩,hhistory,hmarket,hok⟩ : ∃ x,(program 1#256).history pairCalls pairStart=some x ∧
      (positionCodec.tryFromSlice (x.2.bank 6#256).data).map UserPosition.market=some 3#256 ∧
      ((program 1#256).execute (onPair 3#256 6#256 2#256 (.withdraw 100#64)) x.2.bank).isOk=true :=
        by decide +kernel
  obtain ⟨p,hp,hmarket⟩ := map_eq_some_iff.mp hmarket
  have hx := eq_ok_of_isOk t.bank hok
  refine ⟨tr,t,_,Program.history_anyCall hhistory,hx,?_⟩
  apply (position_at_market_iff rfl rfl rfl hx).1.mpr
  intro p₁ hp₁
  obtain rfl :=
    positionCodec.encode_inj (((positionCodec.tryFromSlice_eq_some).mp hp).symm.trans hp₁)
  exact .inl hmarket

/-- User `2` withdraws the deposit in market `3` from market `7`, whose total goes to zero while the
position of user `8` still says 100. -/
theorem withdrawal_from_another_market : ∃ tr t b' p p₈ m,
    Run ((program 1#256).Step Program.anyCall) pairStart tr t ∧
    (program 1#256).execute (onPair 7#256 6#256 2#256 (.withdraw 100#64)) t.bank=.ok b' ∧
    positionCodec.tryFromSlice (b' 6#256).data=some p ∧ p.market=3#256 ∧ p.depositedAmount=0#64 ∧
    marketCodec.tryFromSlice (b' 7#256).data=some m ∧ m.totalDeposits=0#64 ∧
    positionCodec.tryFromSlice (b' 9#256).data=some p₈ ∧ p₈.depositedAmount=100#64 := by
  obtain ⟨tr,t,hrun,b',hb',p,hp,hmarket,hempty,m,hm,htotal,p₈,hp₈,hamount⟩ :=
    Program.exists_run_any pairCalls (P := program 1#256) (s := pairStart) (p := fun _ t => ∃ b',
      (program 1#256).execute (onPair 7#256 6#256 2#256 (.withdraw 100#64)) t.bank=.ok b' ∧
      ∃ p,positionCodec.tryFromSlice (b' 6#256).data=some p ∧ p.market=3#256 ∧
      p.depositedAmount=0#64 ∧
      ∃ m,marketCodec.tryFromSlice (b' 7#256).data=some m ∧ m.totalDeposits=0#64 ∧
      ∃ p₈,positionCodec.tryFromSlice (b' 9#256).data=some p₈ ∧ p₈.depositedAmount=100#64)
      (by decide +kernel)
  exact ⟨tr,t,b',p,p₈,m,hrun,hb',hp,hmarket,hempty,hm,htotal,hp₈,hamount⟩

end PrismChain.SolLend
