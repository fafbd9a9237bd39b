import PrismChain.Programs.AtomicSwap.Custody

namespace PrismChain.AtomicSwap

open FixedWidth Option List Program Bank

def VaultStep (e : Env) (s : Ledger) (a : Event Instruction) (t : Ledger) : Prop :=
  (program e).TxStep e.Derived s a t ∧ ∀ c,a=.call c → OwnVault e c

def opensAt (k : Pubkey) (y : Transition Ledger (Event Instruction)) : Bool :=
  match y.label with
  | .call c => !c.instruction.settles && c.key? 1==some k
  | _ => false

def Instruction.hashLock? : Instruction → Option Bytes32
  | .createSwap hashLock .. => some hashLock
  | _ => none

def opensFor (hashLock : Bytes32) (initiator : Pubkey) (y : Transition Ledger (Event Instruction)) :
    Bool :=
  match y.label with
  | .call c => c.instruction.hashLock?==some hashLock && c.signer? 0==some initiator
  | _ => false

def settlesAt (k : Pubkey) (y : Transition Ledger (Event Instruction)) : Bool :=
  match y.label with
  | .call c => c.instruction.settles && c.key? 1==some k
  | _ => false

theorem deadline_eq {x : SwapAccount} (h : minLockDuration.toInt≤x.lockDuration.toInt) :
    x.deadline.toInt=min (x.createdAt.toInt+x.lockDuration.toInt) (2^63-1) := by
  have hmin : minLockDuration.toInt=600 := by decide
  exact toInt_saturatingAddSigned (by omega)

theorem not_expired_iff {x : SwapAccount} : x.isExpired now=false ↔ now.toInt<x.deadline.toInt := by
  rw [SwapAccount.isExpired,decide_eq_false_iff_not,Int.not_le]

theorem expired_iff {x : SwapAccount} :
    x.isExpired now=true ↔ x.deadline.toInt≤now.toInt := decide_eq_true_iff

/-- A swap keeps its rent and, while it is open, its vault. -/
structure Sound (e : Env) (b : Bank) (k : Pubkey) (x : SwapAccount) : Prop where
  rent : (b k).lamports≠0#64
  duration : minLockDuration.toInt≤x.lockDuration.toInt
  revealed : x.state=.claimed → e.hash x.secret=x.hashLock
  vault : x.state=.opened → x.assetType=.nativePrism →
    (b (vaultPda e k)).owner=e.programId ∧ (b (vaultPda e k)).lamports≠0#64

theorem lamports_ne_zero {n m : U64} (h : n.toNat≤ m.toNat) (hn : n≠0#64) : m≠0#64 := by
  rw [← toNat_pos] at hn ⊢
  omega

section Step

variable {e : Env} {k : Pubkey} {x : SwapAccount}

theorem Accepted.owner_kept (h : Accepted e c b b') (hj : (b j).owner=e.programId) :
    (b' j).owner=e.programId := by
  cases h with
  | @created k x o =>
    by_cases hk : j=k
    · exact hk ▸ o.owned'
    · obtain ⟨-,hsame | ⟨hnew,-⟩⟩ := o.frame j hk
      · exact hsame.trans hj
      · exact hnew
  | claimed _ _ _ _ o =>
    obtain ⟨b1,hpaid,rfl⟩ := o.written
    exact (b1.setData_owner _ _ _).trans ((hpaid.same j).2.trans hj)
  | refunded _ _ _ o =>
    obtain ⟨b1,hpaid,rfl⟩ := o.written
    exact (b1.setData_owner _ _ _).trans ((hpaid.same j).2.trans hj)

theorem Accepted.debited (h : Accepted e c b b') (hown : OwnVault e c)
    (hsigners : e.KeysSign c) (hj : e.Derived j)
    (hless : (b' j).lamports.toNat<(b j).lamports.toNat) :
    ∃ k x,c.key? 1=some k ∧ swapAt e b k=some x ∧ j=vaultPda e k ∧
      c.instruction.settles=true := by
  cases h with
  | created o => exact absurd hless (Nat.not_lt.mpr (o.keyless_kept hsigners hj))
  | claimed hi _ _ _ o =>
    have hsettles : c.instruction.settles=true := by rw [hi]; rfl
    exact ⟨_,_,o.swapKey,o.before,(o.debited hless).trans (o.ownVault hown hsettles),hsettles⟩
  | refunded hi _ _ o =>
    have hsettles : c.instruction.settles=true := by rw [hi]; rfl
    exact ⟨_,_,o.swapKey,o.before,(o.debited hless).trans (o.ownVault hown hsettles),hsettles⟩

theorem Accepted.spared (h : Accepted e c b b') (hsep : Separate e) (hplaced : Placed e b)
    (hown : OwnVault e c) (hsigners : e.KeysSign c)
    (hk : SwapAddress e k) (hj : j=k ∨ j=vaultPda e k ∧ c.key? 1≠some k) :
    (b j).lamports.toNat≤(b' j).lamports.toNat := by
  have hderived : e.Derived j := by
    obtain rfl | ⟨rfl,-⟩ := hj
    · obtain ⟨_,_,hseeds⟩ := hk
      exact ⟨_,hseeds⟩
    · exact vault_derived e k
  by_contra hless
  obtain ⟨k',x,hkey,hx,hvault,-⟩ := h.debited hown hsigners hderived (Nat.not_le.mp hless)
  have hk' := hplaced.address hx
  obtain rfl | ⟨rfl,hother⟩ := hj
  · exact hsep.apart k' j hk' hk hvault.symm
  · rw [hsep.vaults k k' hk hk' hvault] at hother
    exact hother hkey

theorem Created.sound (o : Created e c b b' k x) (hrent : e.minimumBalance swapSize≠0#64) :
    Sound e b' k x := by
  refine ⟨lamports_ne_zero o.rent hrent,o.shortest,fun hclaimed => ?_,fun _ hnative => ?_⟩
  · rw [o.record] at hclaimed
    cases hclaimed
  · exact ⟨(o.vault' hnative).1,lamports_ne_zero (o.vault' hnative).2 o.positive⟩

theorem Sound.spared (h : Sound e b k x) (ha : Accepted e c b b') (hsep : Separate e)
    (hplaced : Placed e b) (hown : OwnVault e c)
    (hsigners : e.KeysSign c) (hk : SwapAddress e k)
    (hno : c.key? 1≠some k) : Sound e b' k x := by
  refine ⟨?_,h.duration,h.revealed,fun hopen hnative => ⟨?_,?_⟩⟩
  · exact lamports_ne_zero (ha.spared hsep hplaced hown hsigners hk (.inl rfl)) h.rent
  · exact ha.owner_kept (h.vault hopen hnative).1
  · exact lamports_ne_zero (ha.spared hsep hplaced hown hsigners hk (.inr ⟨rfl,hno⟩))
      (h.vault hopen hnative).2

end Step

structure Orderly (e : Env) (b : Bank) : Prop where
  placed : Placed e b
  sound : ∀ k x,swapAt e b k=some x → Sound e b k x

section Orderly

variable {e : Env} {c : Call Instruction} {k : Pubkey} {s t : Ledger} {a : Event Instruction}

/-- What one step does to the swap at `k`. -/
inductive Evolves (e : Env) (k : Pubkey) (s : Ledger) : Event Instruction → Ledger → Prop
  | call {c : Call Instruction} {t : Ledger}
      (hnext : Next e c k (swapAt e s.bank k) (swapAt e t.bank k)) : Evolves e k s (.call c) t
  | kept {a : Event Instruction} {t : Ledger} (hno : ∀ c,a≠.call c)
      (hsame : swapAt e t.bank k=swapAt e s.bank k) : Evolves e k s a t

theorem Orderly.call (h : Orderly e s.bank) (hsep : Separate e)
    (hrent : e.minimumBalance swapSize≠0#64) (hown : OwnVault e c)
    (hsigners : e.KeysSign c)
    (ha : Accepted e c s.bank t.bank) (hx : swapAt e t.bank k=some x) : Sound e t.bank k x := by
  have hspared {y : SwapAccount} (hy : swapAt e s.bank k=some y) (hno : c.key? 1≠some k) :
      Sound e t.bank k y :=
    (h.sound k y hy).spared ha hsep h.placed hown hsigners (h.placed.address hy) hno
  have hfunded {y : SwapAccount} (hy : swapAt e s.bank k=some y) : (t.bank k).lamports≠0#64 :=
    lamports_ne_zero (ha.spared hsep h.placed hown hsigners (h.placed.address hy) (.inl rfl))
      (h.sound k y hy).rent
  cases ha with
  | @created k' y o =>
    by_cases hk : k=k'
    · subst hk
      cases o.swapAt'.symm.trans hx
      exact o.sound hrent
    · refine hspared ((o.others hk).symm.trans hx) fun hkey => ?_
      exact hk (some.inj (hkey.symm.trans o.swapKey))
  | @claimed k' v receive y _ hi _ _ hsecret o =>
    by_cases hk : k=k'
    · subst hk
      cases (o.after o.live).symm.trans hx
      have hy := h.sound k y o.before
      exact ⟨hfunded o.before,hy.duration,fun _ => hsecret,fun hno => by cases hno⟩
    · refine hspared ((o.others hk).symm.trans hx) fun hkey => ?_
      exact hk (some.inj (hkey.symm.trans o.swapKey))
  | @refunded k' v receive y hi _ _ o =>
    by_cases hk : k=k'
    · subst hk
      cases (o.after o.live).symm.trans hx
      have hy := h.sound k y o.before
      exact ⟨hfunded o.before,hy.duration,fun hno => (by cases hno),fun hno => by cases hno⟩
    · refine hspared ((o.others hk).symm.trans hx) fun hkey => ?_
      exact hk (some.inj (hkey.symm.trans o.swapKey))

theorem Orderly.outside (h : Orderly e s.bank) (hout : Outside e.programId s.bank b)
    (hx : swapAt e s.bank k=some x) : Sound e b k x := by
  have hsound := h.sound k x hx
  obtain ⟨howner,-,-⟩ := recordAt_eq_some.mp hx
  refine ⟨lamports_ne_zero (hout.owned howner).2.2 hsound.rent,hsound.duration,hsound.revealed,
    fun hopen hnative => ?_⟩
  obtain ⟨hvault,hlamports⟩ := hsound.vault hopen hnative
  obtain ⟨hvault',-,hmore⟩ := hout.owned hvault
  exact ⟨hvault',lamports_ne_zero hmore hlamports⟩

theorem Orderly.settle_same (h : Orderly e b) (k : Pubkey) : swapAt e b.settle k=swapAt e b k := by
  cases hx : swapAt e b k with
  | none =>
    cases hy : swapAt e b.settle k with
    | none => rfl
    | some => exact (recordAt_settle swap_size (by decide) hy).2.symm.trans hx
  | some x =>
    have hsame := settle_of_ne (h.sound k x hx).rent
    exact (recordAt_congr (by rw [hsame]) (by rw [hsame])).trans hx

theorem Orderly.settle (h : Orderly e b) (hx : swapAt e b k=some x) : Sound e b.settle k x := by
  have hsound := h.sound k x hx
  refine ⟨?_,hsound.duration,hsound.revealed,fun hopen hnative => ?_⟩
  · rw [settle_lamports]
    exact hsound.rent
  · rw [settle_of_ne (hsound.vault hopen hnative).2]
    exact hsound.vault hopen hnative

theorem Orderly.step (h : Orderly e s.bank) (hsep : Separate e)
    (hrent : e.minimumBalance swapSize≠0#64) (hstep : VaultStep e s a t) :
    Orderly e t.bank ∧ ∀ k,Evolves e k s a t := by
  obtain ⟨hstep,hown⟩ := hstep
  have hplaced := h.placed.step hstep
  cases hstep with
  | call _ hsigners hexec =>
    have ha := execute_spec hexec
    exact ⟨⟨hplaced,fun k x hx => h.call hsep hrent (hown _ rfl) hsigners ha hx⟩,
      fun k => .call (ha.next k)⟩
  | outside _ hout =>
    refine ⟨⟨hplaced,fun k x hx => ?_⟩,fun k => .kept (fun _ hc => by cases hc) ?_⟩
    · exact h.outside hout ((hout.records swap_marked k).symm.trans hx)
    · exact hout.records swap_marked k
  | settle =>
    refine ⟨⟨hplaced,fun k x hx => ?_⟩,fun k => .kept (fun _ hc => by cases hc) (h.settle_same k)⟩
    exact h.settle ((h.settle_same k).symm.trans hx)

end Orderly

/-- Each settlement of the swap at `k` finds it open: a claim with the secret before the deadline,
or a refund from then on. The deadline is the last second that a clock can show, if the sum lies
after it. -/
def Timely (e : Env) (k : Pubkey) (y : Transition Ledger (Event Instruction)) : Prop :=
  ∀ c,y.label=.call c → c.instruction.settles=true → c.key? 1=some k →
    ∃ x,swapAt e y.pre.bank k=some x ∧ x.state=.opened ∧
      ((∃ secret,c.instruction=.claimSwap secret ∧ e.hash secret=x.hashLock ∧
          c.clock.unixTimestamp.toInt<
            min (x.createdAt.toInt+x.lockDuration.toInt) (2^63-1) ∧
          swapAt e y.post.bank k=some {x with state := .claimed,secret := secret}) ∨
        c.instruction=.refundSwap ∧
          min (x.createdAt.toInt+x.lockDuration.toInt) (2^63-1)≤c.clock.unixTimestamp.toInt ∧
          swapAt e y.post.bank k=some {x with state := .refunded})

def openings : Option SwapAccount → Nat
  | none => 0
  | some _ => 1

def settlements : Option SwapAccount → Nat
  | none => 0
  | some x => if x.state=.opened then 0 else 1

section History

variable {e : Env} {s t : Ledger} {tr : TxTrace Instruction}

theorem Next.openings (h : Next e c k o o') (s t : Ledger) :
    AtomicSwap.openings o'=AtomicSwap.openings o+(opensAt k ⟨s,.call c,t⟩).toNat := by
  cases h with
  | kept hno => simp [opensAt,hno]
  | created hk hi => simp [opensAt,hk,hi,Instruction.settles,AtomicSwap.openings]
  | claimed hk hi => simp [opensAt,hi,Instruction.settles,AtomicSwap.openings]
  | refunded hk hi => simp [opensAt,hi,Instruction.settles,AtomicSwap.openings]

theorem Next.settlements (h : Next e c k o o') (s t : Ledger) :
    AtomicSwap.settlements o'=AtomicSwap.settlements o+(settlesAt k ⟨s,.call c,t⟩).toNat := by
  cases h with
  | kept hno => simp [settlesAt,hno]
  | created hk hi hrecord =>
    have hopen := congrArg SwapAccount.state hrecord
    simp [settlesAt,hi,Instruction.settles,AtomicSwap.settlements,hopen,newSwap]
  | claimed hk hi hstate => simp [settlesAt,hk,hi,Instruction.settles,AtomicSwap.settlements,hstate]
  | refunded hk hi hstate =>
      simp [settlesAt,hk,hi,Instruction.settles,AtomicSwap.settlements,hstate]

theorem Evolves.counts (h : Evolves e k s a t) : AtomicSwap.openings (swapAt e t.bank k)=
        AtomicSwap.openings (swapAt e s.bank k)+(opensAt k ⟨s,a,t⟩).toNat ∧
      AtomicSwap.settlements (swapAt e t.bank k)=
        AtomicSwap.settlements (swapAt e s.bank k)+(settlesAt k ⟨s,a,t⟩).toNat := by
  cases h with
  | call hnext => exact ⟨hnext.openings s t,hnext.settlements s t⟩
  | kept hno hsame =>
    have hopens : opensAt k ⟨s,a,t⟩=false := by
      cases a with
      | call c => exact absurd rfl (hno c)
      | outside => rfl
      | settle => rfl
    have hsettles : settlesAt k ⟨s,a,t⟩=false := by
      cases a with
      | call c => exact absurd rfl (hno c)
      | outside => rfl
      | settle => rfl
    rw [hsame,hopens,hsettles]
    exact ⟨rfl,rfl⟩

theorem Evolves.timely (h : Evolves e k s a t) (hs : Orderly e s.bank) : Timely e k ⟨s,a,t⟩ := by
  intro c hc hsettles hk
  dsimp only at hc
  subst hc
  dsimp only
  cases h with
  | kept hno => exact absurd rfl (hno c)
  | call hnext =>
    generalize hbefore : swapAt e s.bank k=o at hnext
    generalize hafter : swapAt e t.bank k=o' at hnext
    cases hnext with
    | kept hno => exact absurd hk hno
    | created _ hi =>
      rw [hi] at hsettles
      cases hsettles
    | @claimed x secret _ hi hstate hopen hsecret =>
      have hdeadline := deadline_eq (hs.sound k x hbefore).duration
      have hnow := not_expired_iff.mp hopen
      exact ⟨x,rfl,hstate,.inl ⟨secret,hi,hsecret,by omega,rfl⟩⟩
    | @refunded x _ hi hstate hexpired =>
      have hdeadline := deadline_eq (hs.sound k x hbefore).duration
      have hnow := expired_iff.mp hexpired
      exact ⟨x,rfl,hstate,.inr ⟨hi,by omega,rfl⟩⟩

theorem Evolves.final (h : Evolves e k s a t) (hx : swapAt e s.bank k=some x)
    (hstate : x.state≠.opened) : swapAt e t.bank k=some x := by
  cases h with
  | kept _ hsame => exact hsame.trans hx
  | call hnext =>
    generalize hafter : swapAt e t.bank k=o' at hnext
    rw [hx] at hnext
    cases hnext with
    | kept => rfl
    | claimed _ _ hopen => exact absurd hopen hstate
    | refunded _ _ hopen => exact absurd hopen hstate

theorem opensFor_at (hstep : VaultStep e s a t) (h : opensFor hashLock initiator ⟨s,a,t⟩=true) :
    opensAt (swapPda e hashLock initiator).1 ⟨s,a,t⟩=true := by
  obtain ⟨hstep,-⟩ := hstep
  cases hstep with
  | outside => cases h
  | settle => cases h
  | call _ _ hexec =>
    simp only [opensFor,Bool.and_eq_true,beq_iff_eq] at h
    obtain ⟨hlock,hsigner⟩ := h
    cases execute_spec hexec with
    | created o =>
      rw [o.instruction] at hlock
      have hkey := o.swapKey
      rw [o.place,some.inj hlock,some.inj (o.signer.symm.trans hsigner)] at hkey
      simp [opensAt,o.instruction,Instruction.settles,hkey]
    | claimed hi =>
      rw [hi] at hlock
      cases hlock
    | refunded hi =>
      rw [hi] at hlock
      cases hlock

structure History (e : Env) (hashLock : Bytes32) (initiator : Pubkey) (tr : TxTrace Instruction)
    (t : Ledger) : Prop where
  orderly : Orderly e t.bank
  opened : tr.countP (opensAt (swapPda e hashLock initiator).1)=
    openings (swapAt e t.bank (swapPda e hashLock initiator).1)
  settled : tr.countP (settlesAt (swapPda e hashLock initiator).1)=
    settlements (swapAt e t.bank (swapPda e hashLock initiator).1)
  named : ∀ y∈tr,opensFor hashLock initiator y=true →
    opensAt (swapPda e hashLock initiator).1 y=true
  timely : ∀ y∈tr,Timely e (swapPda e hashLock initiator).1 y

theorem history_run (hsep : Separate e) (hrent : e.minimumBalance swapSize≠0#64)
    (h0 : Untouched e.programId s.bank) (hrun : Run (VaultStep e) s tr t) :
    History e hashLock initiator tr t := by
  refine hrun.traced (I := History e hashLock initiator) ?_ ?_
  · have hnone (k : Pubkey) : swapAt e s.bank k=none := h0.records swap_marked k
    refine ⟨⟨fun k x hx => ?_,fun k x hx => ?_⟩,by rw [hnone]; rfl,by rw [hnone]; rfl,
      (fun y hy => by cases hy),(fun y hy => by cases hy)⟩
    · rw [hnone k] at hx
      cases hx
    · rw [hnone k] at hx
      cases hx
  · intro tr t a u _ h hstep
    obtain ⟨horderly,hevolves⟩ := h.orderly.step hsep hrent hstep
    obtain ⟨hopened,hsettled⟩ := (hevolves (swapPda e hashLock initiator).1).counts
    refine ⟨horderly,?_,?_,fun y hy => ?_,fun y hy => ?_⟩
    · rw [countP_append_one,h.opened,hopened]
    · rw [countP_append_one,h.settled,hsettled]
    · obtain hold | hnew := mem_append.mp hy
      · exact h.named y hold
      · rw [mem_singleton.mp hnew]
        exact opensFor_at hstep
    · obtain hold | hnew := mem_append.mp hy
      · exact h.timely y hold
      · rw [mem_singleton.mp hnew]
        exact (hevolves _).timely h.orderly

end History

def Documented (c : Call Instruction) (party swap vault receive : Pubkey) : Prop :=
  ∃ signer account vaultAccount receiver system rest,
    c.accounts=signer::account::vaultAccount::receiver::system::rest ∧
      (signer.key=party ∧ signer.isSigner=true) ∧ (account.key=swap ∧ account.isWritable=true) ∧
      (vaultAccount.key=vault ∧ vaultAccount.isWritable=true) ∧
      receiver.key=receive ∧ receiver.isWritable=true

section Enabled

variable {e : Env} {b : Bank} {v receive : Pubkey} {x : SwapAccount}

structure Payable (e : Env) (b : Bank) (v receive : Pubkey) (x : SwapAccount) : Prop where
  owned : x.assetType=.nativePrism → (b v).owner=e.programId
  room : x.assetType=.nativePrism → receive≠v → (b receive).lamports.toNat+(b v).lamports.toNat<2^64

theorem payOut_returns (h : Payable e b v receive x) :
    ∃ b1,payOut x.assetType v receive ⟨b,b⟩=.ok ⟨b,b1⟩ ∧
      Paid b b1 v receive (if x.assetType=.nativePrism then (b v).lamports.toNat else 0) := by
  have hreturns : ∃ g,payOut x.assetType v receive ⟨b,b⟩=.ok g := by
    unfold payOut
    split
    case isTrue hnative => exact Frame.pay_returns ⟨b,b⟩ _ le_rfl (h.room hnative)
    case isFalse => exact ⟨_,rfl⟩
  obtain ⟨g,hg⟩ := hreturns
  obtain ⟨b1,rfl,hpaid⟩ := payOut_spec hg
  exact ⟨b1,hg,hpaid⟩

theorem settlement_commits (h : Payable e b v receive x) (hx : swapAt e b k=some x)
    (hdoc : Documented c party k v receive) (x' : SwapAccount) :
    ∃ b1 f,payOut x.assetType v receive ⟨b,b⟩=.ok ⟨b,b1⟩ ∧ Frame.store ⟨b,b1⟩ swapCodec x' k=.ok f ∧
      Synced e.programId c.accounts f := by
  obtain ⟨howner,hdata,-⟩ := recordAt_eq_some.mp hx
  obtain ⟨b1,hpay,hpaid⟩ := payOut_returns h
  have hsize : (b1 k).data.length=swapSize := by
    rw [(hpaid.same k).1,hdata]
    exact swap_size x
  refine ⟨b1,_,hpay,(Frame.store_eq_ok swap_size hsize).mpr rfl,?_⟩
  obtain ⟨_,_,vault,_,_,_,hacc,-,⟨rfl,hwk⟩,⟨rfl,hwv⟩,rfl,hwr⟩ := hdoc
  have hwritable {a : AccountInfo} (ha : a∈c.accounts) (hw : a.isWritable=true) :
      (Invocation.mk e.programId c.accounts).writable a.key=true :=
    any_eq_true.mpr ⟨a,ha,by simp [hw]⟩
  have hsrc : (b vault.key).owner=e.programId ∨
      (if x.assetType=.nativePrism then (b vault.key).lamports.toNat else 0)=0 := by
    by_cases hnative : x.assetType=.nativePrism
    · exact .inl (h.owned hnative)
    · exact .inr (if_neg hnative)
  exact hpaid.sync hsrc howner (hwritable (by simp [hacc]) hwv) (hwritable (by simp [hacc]) hwr)
    (hwritable (by simp [hacc]) hwk) (by simp [hacc]) (by simp [hacc])

theorem Next.claims (h : Next e c k (some x) o') (hk : c.key? 1=some k)
    (hi : c.instruction=.claimSwap secret) : x.isExpired c.clock.unixTimestamp=false := by
  cases h with
  | kept hno => exact absurd hk hno
  | claimed _ _ _ hopen => exact hopen
  | refunded _ hi' => cases hi.symm.trans hi'

theorem Next.refunds (h : Next e c k (some x) o') (hk : c.key? 1=some k)
    (hi : c.instruction=.refundSwap) : x.isExpired c.clock.unixTimestamp=true := by
  cases h with
  | kept hno => exact absurd hk hno
  | claimed _ hi' => cases hi.symm.trans hi'
  | refunded _ _ _ hexpired => exact hexpired

theorem claim_enabled (h : Payable e b v receive x) (hx : swapAt e b k=some x)
    (hopen : x.state=.opened) (hdoc : Documented c x.counterparty k v receive)
    (hi : c.instruction=.claimSwap secret) (hsecret : e.hash secret=x.hashLock) :
    (∃ b',(program e).execute c b=.ok b') ↔ c.clock.unixTimestamp.toInt<x.deadline.toInt := by
  obtain ⟨howner,hdata,hlive⟩ := recordAt_eq_some.mp hx
  obtain ⟨_,f,hpay,hstore,hsync⟩ :=
    settlement_commits h hx hdoc {x with state := .claimed,secret := secret}
  obtain ⟨_,account,_,_,_,_,hacc,⟨hparty,hsigns⟩,⟨rfl,-⟩,⟨rfl,-⟩,rfl,-⟩ := hdoc
  have hkey : c.key? 1=some account.key := by simp [Call.key?,hacc]
  rw [← not_expired_iff]
  constructor
  · rintro ⟨b',hexec⟩
    have hnext := (execute_spec hexec).next account.key
    rw [hx] at hnext
    exact hnext.claims hkey hi
  · intro hnow
    have hload : loadOpenSwap e ⟨b,b⟩ account.key=.ok x :=
      loadOpenSwap_eq_ok.mpr ⟨howner,hdata,hlive,hopen⟩
    have hverified : x.verifySecret e secret=true := decide_eq_true hsecret
    refine ⟨f.view,execute_eq_ok.mpr ⟨f,?_,hsync,rfl⟩⟩
    change processInstruction e c.clock c.accounts c.instruction ⟨b,b⟩=.ok f
    rw [hi,hacc]
    simp only [processInstruction,processClaimSwap,requireSigner,hload,ok_bind]
    rw [require_pos hsigns,ok_bind,require_pos hparty,ok_bind,require_pos hnow,ok_bind,
      require_pos hverified,ok_bind,hpay,ok_bind]
    exact hstore

theorem refund_enabled (h : Payable e b v receive x) (hx : swapAt e b k=some x)
    (hopen : x.state=.opened)
    (hdoc : Documented c x.initiator k v receive) (hi : c.instruction=.refundSwap) :
    (∃ b',(program e).execute c b=.ok b') ↔ x.deadline.toInt≤c.clock.unixTimestamp.toInt := by
  obtain ⟨howner,hdata,hlive⟩ := recordAt_eq_some.mp hx
  obtain ⟨_,f,hpay,hstore,hsync⟩ := settlement_commits h hx hdoc {x with state := .refunded}
  obtain ⟨_,account,_,_,_,_,hacc,⟨hparty,hsigns⟩,⟨rfl,-⟩,⟨rfl,-⟩,rfl,-⟩ := hdoc
  have hkey : c.key? 1=some account.key := by simp [Call.key?,hacc]
  rw [← expired_iff]
  constructor
  · rintro ⟨b',hexec⟩
    have hnext := (execute_spec hexec).next account.key
    rw [hx] at hnext
    exact hnext.refunds hkey hi
  · intro hnow
    have hload : loadOpenSwap e ⟨b,b⟩ account.key=.ok x :=
      loadOpenSwap_eq_ok.mpr ⟨howner,hdata,hlive,hopen⟩
    refine ⟨f.view,execute_eq_ok.mpr ⟨f,?_,hsync,rfl⟩⟩
    change processInstruction e c.clock c.accounts c.instruction ⟨b,b⟩=.ok f
    rw [hi,hacc]
    simp only [processInstruction,processRefundSwap,requireSigner,hload,ok_bind]
    rw [require_pos hsigns,ok_bind,require_pos hparty,ok_bind,require_pos hnow,ok_bind,hpay,ok_bind]
    exact hstore

end Enabled

theorem settled_stays {e : Env} {t : Ledger} (hsep : Separate e)
    (hrent : e.minimumBalance swapSize≠0#64) (h : Orderly e t.bank) (hx : swapAt e t.bank k=some x)
    (hstate : x.state≠.opened) (hrun : Run (VaultStep e) t tr u) : swapAt e u.bank k=some x := by
  have hboth : Orderly e u.bank ∧ swapAt e u.bank k=some x := by
    refine hrun.invariant (I := fun u => Orderly e u.bank ∧ swapAt e u.bank k=some x) ⟨h,hx⟩ ?_
    intro t a u ⟨horderly,hsame⟩ hstep
    obtain ⟨horderly',hevolves⟩ := horderly.step hsep hrent hstep
    exact ⟨horderly',(hevolves k).final hsame hstate⟩
  exact hboth.2

theorem openings_le (o : Option SwapAccount) : openings o≤1 := by
  cases o with
  | none => exact Nat.zero_le _
  | some => exact le_rfl

theorem settlements_le (o : Option SwapAccount) : settlements o≤1 := by
  cases o with
  | none => exact Nat.zero_le _
  | some x =>
    by_cases hopen : x.state=.opened <;> simp [settlements,hopen]

/-- The race between claim and refund. The deadline is the sum of creation time and duration, or the
last time that the clock can show. -/
theorem settlement_exclusive {e : Env} {hashLock : Bytes32} {initiator k : Pubkey} {s t : Ledger}
    {tr : TxTrace Instruction} (hsep : Separate e)
    (hrent : e.minimumBalance swapSize≠0#64) (h0 : Untouched e.programId s.bank)
    (hrun : Run (VaultStep e) s tr t) (hk : k=(swapPda e hashLock initiator).1) :
    tr.countP (opensFor hashLock initiator)≤1 ∧ tr.countP (settlesAt k)≤1 ∧ (∀ y∈tr,Timely e k y) ∧
      ∀ x,swapAt e t.bank k=some x → (x.state=.opened ↔ tr.countP (settlesAt k)=0) ∧
        (x.state=.claimed → e.hash x.secret=x.hashLock) ∧
        (x.state≠.opened → ∀ tr' u,Run (VaultStep e) t tr' u → swapAt e u.bank k=some x) ∧
        (x.state=.opened → ∀ claim refund secret receive receive',
          claim.instruction=.claimSwap secret → e.hash secret=x.hashLock →
          refund.instruction=.refundSwap →
          Documented claim x.counterparty k (vaultPda e k) receive →
          Documented refund x.initiator k (vaultPda e k) receive' →
          (t.bank receive).lamports.toNat+(t.bank (vaultPda e k)).lamports.toNat<2^64 →
          (t.bank receive').lamports.toNat+(t.bank (vaultPda e k)).lamports.toNat<2^64 →
          ((∃ b,(program e).execute claim t.bank=.ok b) ↔ claim.clock.unixTimestamp.toInt<
            min (x.createdAt.toInt+x.lockDuration.toInt) (2^63-1)) ∧
          ((∃ b,(program e).execute refund t.bank=.ok b) ↔
            min (x.createdAt.toInt+x.lockDuration.toInt)
              (2^63-1)≤ refund.clock.unixTimestamp.toInt)) := by
  subst hk
  have h : History e hashLock initiator tr t := history_run hsep hrent h0 hrun
  refine ⟨?_,h.settled ▸ settlements_le _,h.timely,fun x hx => ⟨?_,?_,?_,?_⟩⟩
  · exact (countP_mono_left h.named).trans (h.opened ▸ openings_le _)
  · rw [h.settled,hx,settlements]
    by_cases hopen : x.state=.opened <;> simp [hopen]
  · exact (h.orderly.sound _ x hx).revealed
  · intro hstate tr' u hrun'
    exact settled_stays hsep hrent h.orderly hx hstate hrun'
  · intro hopen claim refund secret receive receive' hclaim hsecret hrefund hdoc hdoc' hroom hroom'
    have hsound := h.orderly.sound _ x hx
    have howned (hnative : x.assetType=.nativePrism) := (hsound.vault hopen hnative).1
    rw [← deadline_eq hsound.duration]
    exact ⟨claim_enabled ⟨howned,fun _ _ => hroom⟩ hx hopen hdoc hclaim hsecret,
      refund_enabled ⟨howned,fun _ _ => hroom'⟩ hx hopen hdoc' hrefund⟩

def onSample : Program.Move Instruction → Bool
  | .call c => !c.instruction.settles || c.key? 1==some sampleSwap && c.key? 2==some sampleVault
  | _ => true

theorem sample_run {ms : List (Move Instruction)}
    (hms : ms.all (fun m => m.byUsers [2#256,3#256,4#256] && onSample m)=true)
    (h : (program sampleEnv).script ms genesis=some (tr,t)) :
    Run (VaultStep sampleEnv) genesis tr t := by
  have hboth : ∀ m∈ms,m.byUsers [2#256,3#256,4#256]=true ∧ onSample m=true := fun m hm =>
    Bool.and_eq_true_iff.mp (all_eq_true.mp hms m hm)
  have hrun := script_by (P := program sampleEnv) (by decide) sample_users
    (all_eq_true.mpr fun m hm => (hboth m hm).1) h
  refine hrun.restrict fun y hy c hc hsettles k hk => ?_
  have hmem : y.label∈ms.map Move.event := by
    rw [← script_labels h]
    exact mem_map_of_mem hy
  obtain ⟨m,hm,hevent⟩ := mem_map.mp hmem
  rw [hc] at hevent
  cases m with
  | pay => cases hevent
  | settle => cases hevent
  | call =>
    cases hevent
    have hon := (hboth _ hm).2
    simp only [onSample,hsettles,Bool.not_true,Bool.false_or,Bool.and_eq_true,beq_iff_eq] at hon
    cases hon.1.symm.trans hk
    rw [hon.2]
    decide +kernel

theorem settled_once_by_claim : ∃ tr t x,Run (VaultStep sampleEnv) genesis tr t ∧
    swapAt sampleEnv t.bank sampleSwap=some x ∧ x.state=.claimed ∧
    sampleEnv.hash x.secret=x.hashLock ∧ tr.countP (settlesAt sampleSwap)≤1 := by
  obtain ⟨⟨tr,t⟩,hscript,x,hx,hstate⟩ : ∃ y,(program sampleEnv).script [.call (createCall
        1000#64),.settle, .call (claimCall 4599#64),.settle] genesis=some y ∧
      ∃ x,swapAt sampleEnv y.2.bank sampleSwap=some x ∧ x.state=.claimed := by decide +kernel
  have hrun := sample_run (by decide +kernel) hscript
  have hplace : sampleSwap=(swapPda sampleEnv 78#256 2#256).1 := by decide +kernel
  obtain ⟨-,hsettled,-,hswaps⟩ := settlement_exclusive sample_separate (by decide) genesis_untouched
    hrun hplace
  exact ⟨tr,t,x,hrun,hx,hstate,(hswaps x hx).2.1 hstate,hsettled⟩

/-- In the last hundred seconds that the clock can show a swap cannot be locked for an hour: the
deadline is cut off and the refund comes too early. -/
theorem refunded_before_sum : ∃ tr t u x,
    Untouched sampleEnv.programId genesis.bank ∧ Run (VaultStep sampleEnv) genesis tr t ∧
      VaultStep sampleEnv t (.call (refundCall 9223372036854775807#64)) u ∧
      swapAt sampleEnv t.bank sampleSwap=some x ∧
      swapAt sampleEnv u.bank sampleSwap=some {x with state := .refunded} ∧
      (9223372036854775807#64 : I64).toInt<x.createdAt.toInt+x.lockDuration.toInt := by
  obtain ⟨⟨tr,t⟩,hscript,⟨a,u⟩,hmove,x,hx,hrefunded,hearly⟩ :
      ∃ y,(program sampleEnv).script [.call (createCall 9223372036854775707#64),.settle] genesis=
        some y ∧ ∃ z,(program sampleEnv).move y.2 (.call (refundCall 9223372036854775807#64))=
        some z ∧ ∃ x,swapAt sampleEnv y.2.bank sampleSwap=some x ∧
      swapAt sampleEnv z.2.bank sampleSwap=some {x with state := .refunded} ∧
      (9223372036854775807#64 : I64).toInt<x.createdAt.toInt+x.lockDuration.toInt := by
    decide +kernel
  obtain rfl : a=.call (refundCall 9223372036854775807#64) := move_event hmove
  have hkeyed : Keyed sampleEnv.Derived (.call (refundCall 9223372036854775807#64)) :=
    keyed_of_users sample_users (by decide)
  have hown : OwnVault sampleEnv (refundCall 9223372036854775807#64) := by
    intro _ k hk
    cases hk
    decide +kernel
  exact ⟨tr,t,u,x,genesis_untouched,sample_run (by decide +kernel) hscript,
    ⟨move_step (by decide) hkeyed hmove,fun c hc => by cases hc; exact hown⟩,hx,hrefunded,hearly⟩

end PrismChain.AtomicSwap
