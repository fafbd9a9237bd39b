import PrismChain.Framework.Transactions
import PrismChain.Programs.AtomicSwap.Transition

namespace PrismChain.AtomicSwap

open Option List Program

def SwapAddress (h : Host) (k : Pubkey) :
    Prop := ∃ hashLock initiator,(swapPda h hashLock initiator).1=k

/-- Derived addresses do not collide: swaps have their own vaults, and no vault is a swap. -/
structure Separate (h : Host) : Prop where
  vaults : ∀ j k,SwapAddress h j → SwapAddress h k → vaultPda h j=vaultPda h k → j=k
  apart : ∀ j k,SwapAddress h j → SwapAddress h k → vaultPda h j≠k

def Instruction.settles : Instruction → Bool
  | .createSwap .. => false
  | .claimSwap _ | .refundSwap => true

def OwnVault (h : Host) (c : Call Instruction) : Prop :=
  c.instruction.settles=true → ∀ k,c.key? 1=some k → c.key? 2=some (vaultPda h k)

theorem vault_derived (h : Host) (k : Pubkey) : h.Derived (vaultPda h k) := ⟨_,rfl⟩

section Places

variable {e : Env} {b : Bank} {k : Pubkey} {x : SwapAccount}

def Placed (e : Env) (b : Bank) : Prop :=
  ∀ k x,swapAt e b k=some x → k=(swapPda e x.hashLock x.initiator).1

theorem Placed.address (h : Placed e b) (hx : swapAt e b k=some x) : SwapAddress e k :=
  ⟨_,_,(h k x hx).symm⟩

theorem Next.placed (h : Next e c k o o') (hy : o'=some y)
    (hbefore : ∀ x,o=some x → k=(swapPda e x.hashLock x.initiator).1) :
    k=(swapPda e y.hashLock y.initiator).1 := by
  cases h with
  | kept => exact hbefore y hy
  | created _ _ _ hplace =>
    cases hy
    exact hplace
  | @claimed x =>
    cases hy
    exact hbefore x rfl
  | @refunded x =>
    cases hy
    exact hbefore x rfl

theorem Placed.step {s : Ledger} (h : Placed e s.bank)
    (hstep : (program e).TxStep e.Derived s a t) :
    Placed e t.bank := by
  intro k y hy
  cases hstep with
  | call _ _ hexec => exact ((execute_spec hexec).next k).placed hy (h k)
  | outside _ hout => exact h k y ((hout.records swap_marked k).symm.trans hy)
  | settle => exact h k y (recordAt_settle swap_size (by decide) hy).2

theorem placed_run {s : Ledger} (h0 : Untouched e.programId s.bank)
    (hrun : Run ((program e).TxStep e.Derived) s tr t) : Placed e t.bank := by
  refine hrun.invariant (I := fun t => Placed e t.bank) ?_ fun h hstep => h.step hstep
  intro k x hx
  have hnone : swapAt e s.bank k=none := h0.records swap_marked k
  rw [hnone] at hx
  cases hx

end Places

section Debits

variable {e : Env}

theorem Settled.debited (o : Settled e c b b' k v receive x x')
    (hless : (b' j).lamports.toNat<(b j).lamports.toNat) : j=v := by
  obtain ⟨_,hpaid,rfl⟩ := o.written
  by_contra hj
  rw [Bank.setData_lamports] at hless
  exact absurd hless (Nat.not_lt.mpr (hpaid.kept hj))

theorem Settled.ownVault (o : Settled e c b b' k v receive x x') (hown : OwnVault e c)
    (hi : c.instruction.settles=true) : v=vaultPda e k :=
  some.inj (o.vaultKey.symm.trans (hown hi k o.swapKey))

theorem Created.keyless_kept (o : Created e c b b' k x)
    (hsigners : e.KeysSign c) (hj : e.Derived j) :
    (b j).lamports.toNat≤(b' j).lamports.toNat := by
  refine o.kept j fun heq => ?_
  obtain ⟨a,ha,hkey,hsigns⟩ := Call.signer_mem o.signer
  exact hsigners a ha hsigns (by rw [hkey,← heq]; exact hj)

end Debits

/-- A vault is opened only by settling its own swap, by the right party at the right time. -/
theorem vault_opened_by_own_swap {e : Env} {s t u : Ledger} {tr : TxTrace Instruction}
    {a : Event Instruction} {k : Pubkey} (hsep : Separate e)
    (h0 : Untouched e.programId s.bank) (hrun : Run ((program e).TxStep e.Derived) s tr t)
    (hstep : (program e).TxStep e.Derived t a u) (hown : ∀ c,a=.call c → OwnVault e c)
    (hk : SwapAddress e k)
    (hless :
    (u.bank (vaultPda e k)).lamports.toNat<(t.bank (vaultPda e k)).lamports.toNat) :
    ∃ c x,a=.call c ∧ c.key? 1=some k ∧ swapAt e t.bank k=some x ∧ x.state=.opened ∧
      ((∃ secret,c.instruction=.claimSwap secret ∧ c.signer? 0=some x.counterparty ∧
          e.hash secret=x.hashLock ∧ x.isExpired c.clock.unixTimestamp=false) ∨
        c.instruction=.refundSwap ∧ c.signer? 0=some x.initiator ∧
          x.isExpired c.clock.unixTimestamp=true) := by
  have hplaced := placed_run h0 hrun
  obtain ⟨c,rfl,hsigners,hexec⟩ := hstep.debit (vault_derived e k) hless
  have hvault := hown c rfl
  cases execute_spec hexec with
  | created o =>
    exact absurd hless (Nat.not_lt.mpr (o.keyless_kept hsigners (vault_derived e k)))
  | claimed hi hsigner hopen hsecret o =>
    have hv := (o.debited hless).trans (o.ownVault hvault (by rw [hi]; rfl))
    obtain rfl := hsep.vaults _ _ hk (hplaced.address o.before) hv
    exact ⟨c,_,rfl,o.swapKey,o.before,o.unsettled,Or.inl ⟨_,hi,hsigner,hsecret,hopen⟩⟩
  | refunded hi hsigner hexpired o =>
    have hv := (o.debited hless).trans (o.ownVault hvault (by rw [hi]; rfl))
    obtain rfl := hsep.vaults _ _ hk (hplaced.address o.before) hv
    exact ⟨c,_,rfl,o.swapKey,o.before,o.unsettled,Or.inr ⟨hi,hsigner,hexpired⟩⟩

def sampleSwap : Pubkey := 0x640269ee5d5db66cf7f3bba5ffe9457bab4f9fa46ea91fa98db09d154f596e5e#256
def sampleVault : Pubkey := 0xe28cb1cbfca74512af69e8319c2b8bc5870afa1ad5e083bf4f030d9da852e5bc#256
def attackSwap : Pubkey := 0x90a5e29d47d161a2f3065592fe17baf799c55800b94ab22377dc83c58e441c23#256
def attackVault : Pubkey := 0x95d5c1756b3126f394c3060c4c9f088bb4a7b2702afa4220052dcecb9ed0ae47#256
def otherSwap : Pubkey := 0x0ea9d45cfb92ee3f747e9e805a379d27f929a819b94f691db103c0472343d613#256
def otherVault : Pubkey := 0xb0cf0e931add6c04b549bd992a8efd586e4e192239cdef981f677904aceb342e#256

def sampleEnv : Env where
  programId := 1#256
  findProgramAddress seeds _ :=
    if seeds.head?=some vaultSeed then
      if seeds=[vaultSeed,sampleSwap.bytes] then (sampleVault,248#8)
      else if seeds=[vaultSeed,attackSwap.bytes] then (attackVault,254#8)
      else (otherVault,255#8)
    else if seeds=[swapSeed,leBytes 32 78,Pubkey.bytes 2#256] then (sampleSwap,255#8)
    else if seeds=[swapSeed,leBytes 32 6,Pubkey.bytes 3#256] then (attackSwap,254#8)
    else (otherSwap,255#8)
  minimumBalance n := BitVec.ofNat 64 ((n+128)*6960)
  clockSysvar := 5#256
  hash secret := secret+1#256

theorem sample_derived (hk : sampleEnv.Derived k) :
    k∈[sampleSwap,sampleVault,attackSwap,attackVault,otherSwap,otherVault] := by
  obtain ⟨_,rfl⟩ := hk
  simp only [sampleEnv]
  split_ifs <;> simp

theorem sample_users : ∀ k∈[2#256,3#256,4#256],¬sampleEnv.Derived k := by
  intro k hk hd
  have hderived := sample_derived hd
  simp only [mem_cons,not_mem_nil,or_false] at hk
  obtain rfl | rfl | rfl := hk <;>
  · revert hderived
    decide

theorem sample_address (hk : SwapAddress sampleEnv k) :
    k=sampleSwap ∨ k=attackSwap ∨ k=otherSwap := by
  obtain ⟨_,_,rfl⟩ := hk
  have hseed : swapSeed≠vaultSeed := by decide
  simp only [swapPda,sampleEnv,head?_cons,some.injEq,hseed,if_false]
  split_ifs <;> simp

theorem sample_separate : Separate sampleEnv := by
  have hone : vaultPda sampleEnv sampleSwap=sampleVault := by decide +kernel
  have htwo : vaultPda sampleEnv attackSwap=attackVault := by decide +kernel
  have hthree : vaultPda sampleEnv otherSwap=otherVault := by decide +kernel
  constructor
  · intro j k hj hk hv
    obtain rfl | rfl | rfl := sample_address hj <;> obtain rfl | rfl | rfl := sample_address hk <;>
      simp only [hone,htwo,hthree] at hv <;> first | rfl | exact absurd hv (by decide)
  · intro j k hj hk
    obtain rfl | rfl | rfl := sample_address hj <;> obtain rfl | rfl | rfl := sample_address hk <;>
      simp only [hone,htwo,hthree] <;> decide

def genesis : Ledger where
  bank k := if k=2#256 ∨ k=3#256 ∨ k=4#256 then ⟨10000000000#64,[],systemProgram⟩
    else ⟨0#64,[],systemProgram⟩
  clock := ⟨1#64,1000#64⟩

theorem genesis_untouched : Untouched sampleEnv.programId genesis.bank := by
  refine untouched_of_foreign fun k => ?_
  unfold genesis
  dsimp only
  split_ifs <;> decide

def createCall (now : I64) : Call Instruction where
  clock := ⟨2#64,now⟩
  accounts := [⟨2#256,true,true⟩,⟨sampleSwap,false,true⟩,⟨sampleVault,false,true⟩,
    systemInfo]
  instruction := .createSwap 78#256 5000000000#64 4#256 3600#64 .nativePrism 0#256

def claimCall (now : I64) : Call Instruction where
  clock := ⟨3#64,now⟩
  accounts := [⟨4#256,true,true⟩,⟨sampleSwap,false,true⟩,⟨sampleVault,false,true⟩,
    ⟨4#256,true,true⟩,systemInfo]
  instruction := .claimSwap 77#256

def refundCall (now : I64) : Call Instruction where
  clock := ⟨3#64,now⟩
  accounts := [⟨2#256,true,true⟩,⟨sampleSwap,false,true⟩,⟨sampleVault,false,true⟩,
    ⟨2#256,true,true⟩,systemInfo]
  instruction := .refundSwap

def attackCreate : Call Instruction where
  clock := ⟨2#64,1000#64⟩
  accounts := [⟨3#256,true,true⟩,⟨attackSwap,false,true⟩,⟨attackVault,false,true⟩,
    systemInfo]
  instruction := .createSwap 6#256 1000000#64 3#256 3600#64 .nativePrism 0#256

def attackClaim : Call Instruction where
  clock := ⟨3#64,2000#64⟩
  accounts := [⟨3#256,true,true⟩,⟨attackSwap,false,true⟩,⟨sampleVault,false,true⟩,⟨3#256,true,true⟩,
    systemInfo]
  instruction := .claimSwap 5#256

theorem vault_opened_by_counterparty : ∃ tr t u x,
    Run ((program sampleEnv).TxStep sampleEnv.Derived) genesis tr t ∧
      (program sampleEnv).TxStep sampleEnv.Derived t (.call (claimCall 2000#64)) u ∧
      (u.bank sampleVault).lamports=0#64 ∧ swapAt sampleEnv t.bank sampleSwap=some x ∧
      x.counterparty=4#256 := by
  obtain ⟨tr,t,u,hrun,hstep,hbefore,hafter⟩ := exists_script_step (P := program sampleEnv)
    (s := genesis) (q := fun t u => (t.bank sampleVault).lamports=5000000000#64 ∧
      (u.bank sampleVault).lamports=0#64) [.call (createCall 1000#64),.settle] (claimCall 2000#64)
    (by decide) sample_users (by decide) (by decide +kernel)
  have hown : OwnVault sampleEnv (claimCall 2000#64) := by
    intro _ k hk
    cases hk
    decide +kernel
  have hvault : vaultPda sampleEnv sampleSwap=sampleVault := by decide +kernel
  have hless : (u.bank (vaultPda sampleEnv sampleSwap)).lamports.toNat<
      (t.bank (vaultPda sampleEnv sampleSwap)).lamports.toNat := by
    rw [hvault,hbefore,hafter]
    decide
  have haddress : SwapAddress sampleEnv sampleSwap := ⟨78#256,2#256,by decide +kernel⟩
  obtain ⟨c,y,hc,-,hy,-,hparty | hrefund⟩ := vault_opened_by_own_swap sample_separate
    genesis_untouched hrun hstep (fun c hc => by cases hc; exact hown) haddress hless
  · cases hc
    obtain ⟨_,-,hsigner,-⟩ := hparty
    exact ⟨tr,t,u,y,hrun,hstep,hafter,hy,(some.inj hsigner).symm⟩
  · cases hc
    cases hrefund.1

/-- The attacker's swap is claimed and the vault of the other swap, still open, is empty. -/
theorem vault_opened_by_other_swap : ∃ tr t u x,Untouched sampleEnv.programId genesis.bank ∧
      Run ((program sampleEnv).TxStep sampleEnv.Derived) genesis tr t ∧
      (program sampleEnv).TxStep sampleEnv.Derived t (.call attackClaim) u ∧
      swapAt sampleEnv t.bank sampleSwap=some x ∧ x.state=.opened ∧
      attackClaim.key? 1≠some sampleSwap ∧ vaultPda sampleEnv sampleSwap=sampleVault ∧
      (t.bank sampleVault).lamports=5000000000#64 ∧ (u.bank sampleVault).lamports=0#64 := by
  obtain ⟨tr,t,u,hrun,hstep,x,hx,hopen,hbefore,hafter⟩ := exists_script_step
    (P := program sampleEnv) (s := genesis) (q := fun t u =>
      ∃ x,swapAt sampleEnv t.bank sampleSwap=some x ∧ x.state=.opened ∧
      (t.bank sampleVault).lamports=5000000000#64 ∧ (u.bank sampleVault).lamports=0#64)
    [.call (createCall 1000#64),.call attackCreate,.settle] attackClaim
    (by decide) sample_users (by decide) (by decide +kernel)
  exact ⟨tr,t,u,x,genesis_untouched,hrun,hstep,hx,hopen,by decide,by decide +kernel,hbefore,hafter⟩

end PrismChain.AtomicSwap
