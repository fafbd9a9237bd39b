import PrismChain.Framework.Callee
import PrismChain.Framework.Token

namespace PrismChain

open List Option

def splToken : Pubkey := 0xa900ff7e85f58c3a91375b5fed85b41cac79ebce46e1cbd993a165d7e1f6dd06#256

def tokenIn (b : Bank) (k : Pubkey) : Option TokenAccount :=
  if (b k).owner=splToken then (TokenAccount.unpack (b k).data).toOption else none

/-- The mint and the holder of a token account, which no transfer changes. -/
def TokenAccount.holding (a : TokenAccount) : Pubkey×Pubkey := (a.mint,a.owner)

def tokenAmount (b : Bank) (k : Pubkey) : Nat := (tokenIn b k).elim 0 fun a => a.amount.toNat

section Accounts

variable {mint : Pubkey} {a : TokenAccount}

theorem tokenIn_eq_some : tokenIn b k=some a ↔
    (b k).owner=splToken ∧ TokenAccount.unpack (b k).data=.ok a := by
  unfold tokenIn
  cases hread : TokenAccount.unpack (b k).data with
  | error => simp [Except.toOption]
  | ok => simp [Except.toOption]

theorem tokenIn_congr (h : b' k=b k) : tokenIn b' k=tokenIn b k := by
  unfold tokenIn
  rw [h]

theorem tokenIn_blank (h : (b k).data=[]) : tokenIn b k=none := by
  cases ha : tokenIn b k with
  | none => rfl
  | some =>
    have hread := (tokenIn_eq_some.mp ha).2
    rw [h] at hread
    cases hread

theorem tokenAmount_of (h : tokenIn b k=some a) : tokenAmount b k=a.amount.toNat := by
  rw [tokenAmount,h]
  rfl

theorem tokenAt_splToken : tokenAt splToken mint b k=(tokenIn b k).filter fun a => a.mint=mint := by
  apply ext
  intro a
  simp only [filter_eq_some_iff,tokenIn_eq_some,tokenAt_eq_some,decide_eq_true_eq,and_assoc]

end Accounts

def mintLen : Nat := 82

/-- `n` tokens went from `src` to `dst`, which are of one mint. -/
structure TokensMoved (b b' : Bank) (src dst : Pubkey) (n : Nat) : Prop where
  accounts : ∃ a c,tokenIn b src=some a ∧ tokenIn b dst=some c ∧ a.mint=c.mint ∧ n≤a.amount.toNat
  amounts : ∀ k,tokenAmount b' k+(if k=src then n else 0)=tokenAmount b k+(if k=dst then n else 0)
  kept : ∀ k,(tokenIn b' k).map TokenAccount.holding=(tokenIn b k).map TokenAccount.holding
  others : ∀ k,k≠src → k≠dst → b' k=b k

structure TokensMinted (b b' : Bank) (mint dst : Pubkey) (n : Nat) : Prop where
  account : ∃ c,tokenIn b dst=some c ∧ c.mint=mint
  mintAccount : (b mint).owner=splToken ∧ (b mint).data.length=mintLen
  amounts : ∀ k,tokenAmount b' k=tokenAmount b k+(if k=dst then n else 0)
  kept : ∀ k,(tokenIn b' k).map TokenAccount.holding=(tokenIn b k).map TokenAccount.holding
  others : ∀ k,k≠mint → k≠dst → b' k=b k

structure TokensBurned (b b' : Bank) (src mint : Pubkey) (n : Nat) : Prop where
  account : ∃ a,tokenIn b src=some a ∧ a.mint=mint ∧ n≤a.amount.toNat
  mintAccount : (b mint).owner=splToken ∧ (b mint).data.length=mintLen
  amounts : ∀ k,tokenAmount b' k+(if k=src then n else 0)=tokenAmount b k
  kept : ∀ k,(tokenIn b' k).map TokenAccount.holding=(tokenIn b k).map TokenAccount.holding
  others : ∀ k,k≠src → k≠mint → b' k=b k

def unused : Account := ⟨0#64,[],systemProgram⟩

/-- A new account leaves the other unused addresses alone; one of them may even be the payer, who
then pays nothing. -/
theorem Invocation.create_unused {iv : Invocation} {amount : U64}
    (hc : iv.createAccount payer new amount space b=.ok b') (hj : j≠new) (hu : b j=unused) :
    b' j=unused := by
  obtain ⟨-,-,-,-,-,_,-,-,hothers,hmoved,-⟩ := createAccount_spec hc
  obtain ⟨hdata,howner⟩ := hothers j hj
  have hlamports := hmoved j
  rw [if_neg hj,Nat.add_zero] at hlamports
  have hzero : (b' j).lamports.toNat=0 := by
    have hnone : (b j).lamports.toNat=0 := by rw [hu]; rfl
    omega
  rw [hu] at hdata howner
  have hvalue : (b' j).lamports=0#64 := BitVec.eq_of_toNat_eq hzero
  calc b' j=⟨(b' j).lamports,(b' j).data,(b' j).owner⟩ := rfl
    _ = unused := by rw [hvalue,hdata,howner]; rfl

section Touched

variable {b : Bank} {mint k : Pubkey}

theorem tokenIn_length (h : tokenIn b k=some a) : (b k).data.length=TokenAccount.len := by
  have hread := (tokenIn_eq_some.mp h).2
  simp only [TokenAccount.unpack,steps_ok] at hread
  exact hread.choose_spec.1

theorem Storage.whole_size {c : Codec α} (hload : (whole kind c).load d=some a)
    (h : (c.encode a).length+1≠TokenAccount.len ∧ (c.encode a).length+1≠mintLen) :
    d.length≠TokenAccount.len ∧ d.length≠mintLen := by rwa [whole_length hload]

/-- An account that no token instruction can have written to. -/
def Untokened (b : Bank) (k : Pubkey) : Prop :=
  (b k).owner≠splToken ∨ (b k).data.length≠TokenAccount.len ∧ (b k).data.length≠mintLen

theorem untokened_unused (h : b k=unused) : Untokened b k := by
  apply Or.inl
  rw [h]
  decide

theorem Untokened.not_token (h : Untokened b k) : tokenIn b k=none := by
  cases ha : tokenIn b k with
  | none => rfl
  | some =>
    cases h with
    | inl howner => exact absurd (tokenIn_eq_some.mp ha).1 howner
    | inr hlength => exact absurd (tokenIn_length ha) hlength.1

theorem TokensMoved.same (h : TokensMoved b b' src dst n) (hk : Untokened b k) : b' k=b k := by
  obtain ⟨a,c,ha,hc,-,-⟩ := h.accounts
  apply h.others
  · rintro rfl
    cases hk.not_token.symm.trans ha
  · rintro rfl
    cases hk.not_token.symm.trans hc

theorem Untokened.not_mint (h : Untokened b k)
    (hmint : (b k).owner=splToken ∧ (b k).data.length=mintLen) : False := by
  cases h with
  | inl howner => exact howner hmint.1
  | inr hlength => exact hlength.2 hmint.2

theorem TokensMinted.same (h : TokensMinted b b' mint dst n) (hk : Untokened b k) : b' k=b k := by
  obtain ⟨c,hc,-⟩ := h.account
  apply h.others
  · rintro rfl
    exact hk.not_mint h.mintAccount
  · rintro rfl
    cases hk.not_token.symm.trans hc

theorem TokensBurned.same (h : TokensBurned b b' src mint n) (hk : Untokened b k) : b' k=b k := by
  obtain ⟨a,ha,-⟩ := h.account
  apply h.others
  · rintro rfl
    cases hk.not_token.symm.trans ha
  · rintro rfl
    exact hk.not_mint h.mintAccount

theorem unpack_zeros (m : Nat) : (TokenAccount.unpack (replicate m 0#8)).toOption=none := by
  have hzero : ∀ i,leValue (replicate i 0#8)=0 := by
    intro i
    induction i with
    | zero => rfl
    | succ i ih => rw [replicate_succ,leValue,ih]; rfl
  have hstate : TokenAccount.field (replicate m 0#8) 108 1=0 := by
    rw [TokenAccount.field,drop_replicate,take_replicate,hzero]
  cases hread : TokenAccount.unpack (replicate m 0#8) with
  | error => rfl
  | ok =>
    simp only [TokenAccount.unpack,steps_ok] at hread
    exact absurd hstate hread.choose_spec.2.choose_spec.2.choose_spec.1

theorem created_tokens {iv : Invocation}
    (hcreate : iv.createAccount payer new lamports space b=.ok b')
    (j : Pubkey) : tokenIn b' j=tokenIn b j ∧ tokenIn b' new=none := by
  obtain ⟨-,hfresh,-,-,-,-,hzeros,-,hothers,-,-⟩ := Invocation.createAccount_spec hcreate
  have hnew : tokenIn b' new=none := by
    unfold tokenIn
    rw [hzeros,unpack_zeros,ite_self]
  refine ⟨?_,hnew⟩
  by_cases hj : j=new
  · rw [hj,hnew,tokenIn_blank hfresh]
  · unfold tokenIn
    rw [(hothers j hj).1,(hothers j hj).2]

/-- A value that is written where no token account is, and is none, changes no token account. -/
theorem Stored.tokens {id : Pubkey} (u : Stored s id b b' k x)
    (hbefore : tokenIn b k=none) (hafter : Untokened b' k) (j : Pubkey) :
    tokenIn b' j=tokenIn b j := by
  by_cases hj : j=k
  · rw [hj,hbefore,hafter.not_token]
  · exact tokenIn_congr (u.others j hj)

theorem tokenAmount_congr (h : tokenIn b' k=tokenIn b k) : tokenAmount b' k=tokenAmount b k := by
  unfold tokenAmount
  rw [h]

end Touched

def transferIndex : Byte := 3#8
def mintToIndex : Byte := 7#8
def burnIndex : Byte := 8#8

namespace Deployment

/-- What is documented of the three token instructions that programs use. Delegates, frozen accounts
and the lamports of the native mint are the token program's own matter. -/
structure SplToken (e : Deployment) : Prop where
  transfer : ∀ {src dst authority n b b'},
    e.callee splToken (tokenData transferIndex n) [src,dst,authority] b=.ok b' →
    TokensMoved b b' src dst n.toNat
  mintTo : ∀ {mint dst authority n b b'},
    e.callee splToken (tokenData mintToIndex n) [mint,dst,authority] b=.ok b' →
    TokensMinted b b' mint dst n.toNat
  burn : ∀ {src mint authority n b b'},
    e.callee splToken (tokenData burnIndex n) [src,mint,authority] b=.ok b' →
    TokensBurned b b' src mint n.toNat

theorem SplToken.same {e : Deployment} (h : e.SplToken)
    (hindex : index=transferIndex ∨ index=mintToIndex ∨ index=burnIndex)
    (hcall : e.callee splToken (tokenData index n) [first,second,authority] b=.ok b')
    (hk : Untokened b k) : b' k=b k := by
  obtain rfl | rfl | rfl := hindex
  · exact (h.transfer hcall).same hk
  · exact (h.mintTo hcall).same hk
  · exact (h.burn hcall).same hk

/-- `invoke` of an instruction built by the token library, which refuses every other program. -/
def invokeSpl (e : Deployment) (iv : Invocation) (tokenProgram : Pubkey) (index : Byte)
    (first second authority : Pubkey) (amount : U64) (f : Frame) : ProgramResult := do
  require (tokenProgram=splToken) .incorrectProgramId
  iv.invoke [first,second,authority]
    (e.tokenCall iv tokenProgram index first second authority amount) f

variable {e : Deployment} {iv : Invocation} {amount : U64} {b1 : Bank}

theorem invokeSpl_clean
    (h : e.invokeSpl iv tokenProgram index first second authority amount ⟨b,b⟩=.ok f) :
    ∃ b1,e.callee splToken (tokenData index amount) [first,second,authority] b=.ok b1 ∧
      Outside e.programId b b1 ∧ f=⟨b1,b1⟩ := by
  simp only [invokeSpl,steps_ok] at h
  obtain ⟨-,rfl,h⟩ := h
  exact invoke_token h

theorem invokeSpl_returns
    (hcall : e.callee splToken (tokenData index amount) [first,second,authority] b=.ok b1)
    (hfirst : iv.writable first=true) (hsecond : iv.writable second=true) :
    e.invokeSpl iv splToken index first second authority amount ⟨b,b⟩=.ok ⟨b1,b1⟩ := by
  have hclean : iv.sync [first,second,authority] ⟨b,b⟩=.ok () :=
    Invocation.sync_of_data (fun _ => rfl) (fun _ => Or.inl rfl) _
  have hcallee : e.tokenCall iv splToken index first second authority amount b=.ok b1 := by
    simp only [tokenCall,steps_ok]
    exact ⟨(),⟨hfirst,hsecond⟩,hcall⟩
  have hinvoke := Invocation.invoke_eq_ok.mpr ⟨hclean,b1,hcallee,rfl⟩
  have hall : e.invokeSpl iv splToken index first second authority amount ⟨b,b⟩=.ok
      ⟨fun k => if k∈[first,second,authority] then b1 k else b k,b1⟩ := by
    simp only [invokeSpl,steps_ok]
    exact ⟨(),trivial,hinvoke⟩
  obtain ⟨_,hcall',-,hf⟩ := invokeSpl_clean hall
  rw [hcall] at hcall'
  rw [hall,hf,← Except.ok.inj hcall']

end Deployment

section Supply

variable {mint m : Pubkey}

theorem tokenAt_kept
    (hkept : (tokenIn b' k).map TokenAccount.holding=(tokenIn b k).map TokenAccount.holding)
    (hamount : tokenAmount b' k=tokenAmount b k) : tokenIn b' k=tokenIn b k := by
  cases ha : tokenIn b k with
  | none =>
    rw [ha] at hkept
    exact map_eq_none_iff.mp hkept
  | some a =>
    rw [ha] at hkept
    obtain ⟨a',ha',hsame⟩ := map_eq_some_iff.mp hkept
    rw [tokenAmount_of ha,tokenAmount_of ha'] at hamount
    obtain ⟨_,_⟩ := Prod.mk.inj hsame
    rw [ha']
    cases a
    cases a'
    simp_all [BitVec.toNat_eq]

/-- A change of one account changes the supply of its mint by as much and no other supply. -/
theorem tokenSupply_one (ha : tokenIn b k=some a)
    (hkept : ∀ j,(tokenIn b' j).map TokenAccount.holding=(tokenIn b j).map TokenAccount.holding)
    (hamounts : ∀ j,j≠k → tokenAmount b' j=tokenAmount b j)
    (hone : tokenAmount b' k+p=tokenAmount b k+q)
    (mint : Pubkey) : tokenSupply splToken mint b'+(if a.mint=mint then p else 0)=
      tokenSupply splToken mint b+(if a.mint=mint then q else 0) := by
  have hothers (j : Pubkey) (hj : j≠k) : tokenAt splToken mint b' j=tokenAt splToken mint b j := by
    rw [tokenAt_splToken,tokenAt_splToken,tokenAt_kept (hkept j) (hamounts j hj)]
  have hk := hkept k
  rw [ha] at hk
  obtain ⟨a',ha',hsame⟩ := map_eq_some_iff.mp hk
  have hmint : a'.mint=a.mint := (Prod.mk.inj hsame).1
  rw [tokenAmount_of ha,tokenAmount_of ha'] at hone
  by_cases hm : a.mint=mint
  · have hbefore : tokenAt splToken mint b k=some a := by
      rw [tokenAt_splToken,ha]
      simp [hm]
    have hafter : tokenAt splToken mint b' k=some a' := by
      rw [tokenAt_splToken,ha']
      simp [hmint,hm]
    have hchange := tokenSupply_change hbefore hafter hothers
    rw [if_pos hm,if_pos hm]
    omega
  · rw [if_neg hm,if_neg hm]
    refine congrArg (·+0) (Aggregate.sumOver_congr fun j => ?_)
    by_cases hj : j=k
    · subst hj
      rw [tokenAt_splToken,tokenAt_splToken,ha,ha',filter_some_neg (by simpa [hmint] using hm),
        filter_some_neg (by simpa using hm)]
    · exact hothers j hj

theorem TokensMinted.supply (h : TokensMinted b b' mint dst n) (m : Pubkey) :
    tokenSupply splToken m b'=tokenSupply splToken m b+(if mint=m then n else 0) := by
  obtain ⟨c,hc,hmint⟩ := h.account
  have hone : tokenAmount b' dst+0=tokenAmount b dst+n := by
    rw [h.amounts dst,if_pos rfl,Nat.add_zero]
  have hsupply :=
    tokenSupply_one hc h.kept (fun j hj => by rw [h.amounts j,if_neg hj,Nat.add_zero]) hone m
  rw [hmint,ite_self,Nat.add_zero] at hsupply
  exact hsupply

theorem TokensBurned.supply (h : TokensBurned b b' src mint n) (m : Pubkey) :
    tokenSupply splToken m b'+(if mint=m then n else 0)=tokenSupply splToken m b := by
  obtain ⟨a,ha,hmint,-⟩ := h.account
  have hone : tokenAmount b' src+n=tokenAmount b src+0 := by
    have hamount := h.amounts src
    rw [if_pos rfl] at hamount
    exact hamount
  have hothers (j : Pubkey) (hj : j≠src) : tokenAmount b' j=tokenAmount b j := by
    have hamount := h.amounts j
    rw [if_neg hj] at hamount
    exact hamount
  have hsupply := tokenSupply_one ha h.kept hothers hone m
  rw [hmint,ite_self,Nat.add_zero] at hsupply
  exact hsupply

theorem TokensBurned.le_supply (h : TokensBurned b b' src mint n) :
    n≤tokenSupply splToken mint b := by
  have hsupply := h.supply mint
  rw [if_pos rfl] at hsupply
  omega

end Supply
end PrismChain
