import PrismChain.Programs.AtomicSwap.Processor

namespace PrismChain.AtomicSwap

open Invocation Bank PrismChain.Frame

/-- The initialized swap in an account of the program. -/
def swapAt (e : Env) : Bank → Pubkey → Option SwapAccount :=
  recordAt swapCodec SwapAccount.isInitialized e.programId

/-- A new swap stands at its address, with the amount in its vault. -/
structure Created (e : Env) (c : Call Instruction) (b b' : Bank) (k : Pubkey) (x : SwapAccount) :
    Prop where
  instruction : c.instruction=.createSwap x.hashLock x.amount x.counterparty x.lockDuration
    x.assetType x.tokenMint
  record : x=newSwap e x.initiator x.hashLock x.amount x.counterparty x.lockDuration
    x.assetType x.tokenMint c.clock.unixTimestamp
  signer : c.signer? 0=some x.initiator
  swapKey : c.key? 1=some k
  place : k=(swapPda e x.hashLock x.initiator).1
  positive : x.amount≠0#64
  shortest : minLockDuration.toInt≤x.lockDuration.toInt
  longest : x.lockDuration.toInt≤ maxLockDuration.toInt
  fresh : (b k).data=[]
  swap' : (b' k).data=swapCodec.encode x
  owned' : (b' k).owner=e.programId
  rent : (e.minimumBalance swapSize).toNat≤(b' k).lamports.toNat
  vault' : x.assetType=.nativePrism → (b' (vaultPda e k)).owner=e.programId ∧
    x.amount.toNat≤(b' (vaultPda e k)).lamports.toNat
  frame : ∀ j,j≠k → (b' j).data=(b j).data ∧
    ((b' j).owner=(b j).owner ∨ (b' j).owner=e.programId ∧ (b j).data=[])
  kept : ∀ j,j≠x.initiator → (b j).lamports.toNat≤(b' j).lamports.toNat

/-- The vault is emptied into `receive` and the swap is written again. -/
structure Settled (e : Env) (c : Call Instruction) (b b' : Bank) (k v receive : Pubkey)
    (x x' : SwapAccount) : Prop where
  swapKey : c.key? 1=some k
  vaultKey : c.key? 2=some v
  receiveKey : c.key? 3=some receive
  owned : (b k).owner=e.programId
  swap : (b k).data=swapCodec.encode x
  live : x.isInitialized=true
  unsettled : x.state=.opened
  written :
    ∃ b₁,Paid b b₁ v receive (if x.assetType=.nativePrism then (b v).lamports.toNat else 0) ∧
    b'=b₁.setData k (swapCodec.encode x')

/-- What an accepted instruction found and what it changed. -/
inductive Accepted (e : Env) (c : Call Instruction) (b b' : Bank) : Prop
  | created {k : Pubkey} {x : SwapAccount} (o : Created e c b b' k x)
  | claimed {k v receive : Pubkey} {x : SwapAccount} {secret : Bytes32}
      (hi : c.instruction=.claimSwap secret) (hsigner : c.signer? 0=some x.counterparty)
      (hopen : x.isExpired c.clock.unixTimestamp=false) (hsecret : e.hash secret=x.hashLock)
      (o : Settled e c b b' k v receive x {x with state := .claimed,secret := secret})
  | refunded {k v receive : Pubkey} {x : SwapAccount} (hi : c.instruction=.refundSwap)
      (hsigner : c.signer? 0=some x.initiator)
      (hexpired : x.isExpired c.clock.unixTimestamp=true)
      (o : Settled e c b b' k v receive x {x with state := .refunded})

section Parts

theorem loadOpenSwap_eq_ok : loadOpenSwap h f k=.ok x ↔ (f.view k).owner=h.programId ∧
    (f.view k).data=swapCodec.encode x ∧ x.isInitialized=true ∧ x.state=.opened := by
  simp only [loadOpenSwap,steps_ok,Codec.tryFromSlice_eq_some]
  constructor
  · rintro ⟨-,howner,w,hdata,-,hlive,-,hopen,rfl⟩
    exact ⟨howner,hdata,hlive,hopen⟩
  · rintro ⟨howner,hdata,hlive,hopen⟩
    exact ⟨(),howner,x,hdata,(),hlive,(),hopen,rfl⟩

theorem payOut_spec (hp : payOut asset v receive ⟨b,b⟩=.ok g) :
    ∃ b1,g=⟨b,b1⟩ ∧
      Paid b b1 v receive (if asset=.nativePrism then (b v).lamports.toNat else 0) := by
  unfold payOut at hp
  split at hp
  case isTrue hnative =>
    obtain ⟨b1,hg,hpaid⟩ := drain_spec hp
    exact ⟨b1,hg,by rw [if_pos hnative]; exact hpaid⟩
  case isFalse htoken =>
    rw [pure_eq_ok] at hp
    exact ⟨b,hp.symm,by rw [if_neg htoken]; exact Paid.nothing b v receive⟩

end Parts

section Handlers

variable {e : Env} {c : Call Instruction} {b : Bank}

theorem settled_of (hacc : c.accounts=claimer::account::vault::receiver::rest)
    (hload : loadOpenSwap e ⟨b,b⟩ account.key=.ok x)
    (hpay : payOut x.assetType vault.key receiver.key ⟨b,b⟩=.ok f1)
    (hstore : f1.store swapCodec x' account.key=.ok f) :
    Settled e c b f.view account.key vault.key receiver.key x x' := by
  obtain ⟨howner,hdata,hlive,hopen⟩ := loadOpenSwap_eq_ok.mp hload
  obtain ⟨b1,rfl,hpaid⟩ := payOut_spec hpay
  dsimp only at howner hdata
  have hsize : (b1 account.key).data.length=swapSize := by
    rw [(hpaid.same _).1,hdata]
    exact swap_size x
  rw [store_eq_ok swap_size hsize] at hstore
  subst hstore
  exact ⟨by simp [Call.key?,hacc],by simp [Call.key?,hacc],by simp [Call.key?,hacc],howner,hdata,
    hlive,hopen,b1,hpaid,rfl⟩

theorem claimed_of (hi : c.instruction=.claimSwap secret)
    (h : processClaimSwap e c.clock c.accounts secret ⟨b,b⟩=.ok f) : Accepted e c b f.view := by
  unfold processClaimSwap at h
  split at h <;> simp only [steps_ok] at h
  rename_i hacc
  obtain ⟨-,hsigns,x,hload,-,hparty,-,hopen,-,hsecret,_,hpay,hstore⟩ := h
  have hsigner : c.signer? 0=some x.counterparty := by
    simp [Call.signer?,hacc,hsigns,hparty]
  exact .claimed hi hsigner hopen (of_decide_eq_true hsecret) (settled_of hacc hload hpay hstore)

theorem refunded_of (hi : c.instruction=.refundSwap)
    (h : processRefundSwap e c.clock c.accounts ⟨b,b⟩=.ok f) : Accepted e c b f.view := by
  unfold processRefundSwap at h
  split at h <;> simp only [steps_ok] at h
  rename_i hacc
  obtain ⟨-,hsigns,x,hload,-,hparty,-,hexpired,_,hpay,hstore⟩ := h
  have hsigner : c.signer? 0=some x.initiator := by
    simp [Call.signer?,hacc,hsigns,hparty]
  exact .refunded hi hsigner hexpired (settled_of hacc hload hpay hstore)

structure Locked (id : Pubkey) (b b' : Bank) (initiator vault : Pubkey) (amount : U64)
    (asset : AssetType) : Prop where
  vault' : asset=.nativePrism → (b vault).data=[] ∧ (b' vault).owner=id ∧
    amount.toNat≤(b' vault).lamports.toNat
  frame : ∀ j,(b' j).data=(b j).data ∧ ((b' j).owner=(b j).owner ∨ (b' j).owner=id ∧ (b j).data=[])
  kept : ∀ j,j≠initiator → (b j).lamports.toNat≤(b' j).lamports.toNat

theorem lockFunds_spec {id : Pubkey} {accounts : List AccountInfo}
    (h : lockFunds ⟨id,accounts⟩ initiator vault amount asset ⟨b,b⟩=.ok f) :
    ∃ b',f=⟨b',b'⟩ ∧ Locked id b b' initiator vault amount asset := by
  unfold lockFunds at h
  split at h
  case isTrue hnative =>
    obtain ⟨b',hcreate,rfl⟩ := invoke_create h
    obtain ⟨-,hdata,-,-,-,-,hempty,howner,hothers,hmoved,-⟩ := createAccount_spec hcreate
    refine ⟨b',rfl,fun _ => ⟨hdata,howner,create_funded hcreate⟩,fun j => ?_,fun j hj => ?_⟩
    · by_cases hj : j=vault
      · subst hj
        exact ⟨hempty.trans hdata.symm,.inr ⟨howner,hdata⟩⟩
      · exact ⟨(hothers j hj).1,.inl (hothers j hj).2⟩
    · have hm := hmoved j
      rw [if_neg hj] at hm
      omega
  case isFalse htoken =>
    rw [pure_eq_ok] at h
    exact ⟨b,h.symm,fun hnative => absurd hnative htoken,fun j => ⟨rfl,.inl rfl⟩,fun j _ => le_rfl⟩

theorem created_of
    (hi : c.instruction=.createSwap hashLock amount counterparty lockDuration asset tokenMint)
    (h : processCreateSwap e c.clock c.accounts hashLock amount counterparty lockDuration
      asset tokenMint ⟨b,b⟩=.ok f) : Accepted e c b f.view := by
  unfold processCreateSwap at h
  split at h <;> simp only [steps_ok] at h
  rename_i initiator account _ _ _ hacc
  obtain ⟨-,hsigns,-,hpositive,-,_,-,hplace,-,hvault,_,hinvoke,_,hlock,hstore⟩ := h
  obtain ⟨b1,hcreate,rfl⟩ := invoke_create hinvoke
  obtain ⟨hzero,hfresh,-,-,-,henough,hzeros,howner,hothers,hmoved,-⟩ :=
    createAccount_spec hcreate
  obtain ⟨b2,rfl,hlocked⟩ := lockFunds_spec hlock
  have hsize : (b1 account.key).data.length=swapSize := by
    rw [hzeros]
    exact List.length_replicate
  have hdata2 : (b2 account.key).data.length=swapSize := by
    rw [(hlocked.frame _).1,hsize]
  rw [store_eq_ok swap_size hdata2] at hstore
  subst hstore
  have hused : (b1 account.key).data≠[] := by
    intro hnil
    rw [hnil] at hsize
    cases hsize
  have howner2 : (b2 account.key).owner=e.programId := by
    obtain ⟨-,hsame | ⟨-,hnil⟩⟩ := hlocked.frame account.key
    · exact hsame.trans howner
    · exact absurd hnil hused
  have hrent : (e.minimumBalance swapSize).toNat≤(b2 account.key).lamports.toNat := by
    by_cases hself : account.key=initiator.key
    · rw [← hself,hzero] at henough
      exact henough.trans (Nat.zero_le _)
    · exact (create_funded hcreate).trans (hlocked.kept _ hself)
  refine .created (k := account.key) (x := newSwap e initiator.key hashLock amount
    counterparty lockDuration asset tokenMint c.clock.unixTimestamp) ⟨hi,rfl,?_,?_,hplace.symm,
    hpositive,by dsimp only [newSwap]; omega,by dsimp only [newSwap]; omega,hfresh,
    setData_same _ _ _,?_,?_,fun hnative => ?_,fun j hj => ?_,fun j hj => ?_⟩
  · simp [Call.signer?,hacc,hsigns,newSwap]
  · simp [Call.key?,hacc]
  · exact (setData_owner _ _ _ _).trans howner2
  · dsimp only
    rw [setData_lamports]
    exact hrent
  · obtain ⟨-,hvowner,hvlamports⟩ := hlocked.vault' hnative
    dsimp only
    rw [hvault,setData_owner,setData_lamports]
    exact ⟨hvowner,hvlamports⟩
  · dsimp only
    rw [setData_other _ _ hj,setData_owner,(hlocked.frame j).1,(hothers j hj).1,← (hothers j hj).2]
    exact ⟨rfl,(hlocked.frame j).2.imp_right fun hnil =>
      ⟨hnil.1,(hothers j hj).1.symm.trans hnil.2⟩⟩
  · change j≠initiator.key at hj
    have hm := hmoved j
    rw [if_neg hj] at hm
    dsimp only
    rw [setData_lamports]
    exact le_trans (by omega) (hlocked.kept j hj)

theorem execute_spec (h : (program e).execute c b=.ok b') : Accepted e c b b' := by
  obtain ⟨f,hf,-,rfl⟩ := Program.execute_eq_ok.mp h
  change processInstruction e c.clock c.accounts c.instruction ⟨b,b⟩=.ok f at hf
  cases hi : c.instruction with
  | createSwap =>
    rw [hi] at hf
    exact created_of hi hf
  | claimSwap =>
    rw [hi] at hf
    exact claimed_of hi hf
  | refundSwap =>
    rw [hi] at hf
    exact refunded_of hi hf

end Handlers

/-- How the swap at `k` goes on. -/
inductive Next (e : Env) (c : Call Instruction) (k : Pubkey) :
    Option SwapAccount → Option SwapAccount → Prop
  | kept {x : Option SwapAccount} (hno : c.key? 1≠some k) : Next e c k x x
  | created {x : SwapAccount} (hk : c.key? 1=some k)
      (hi : c.instruction=.createSwap x.hashLock x.amount x.counterparty x.lockDuration x.assetType
        x.tokenMint)
      (hrecord : x=newSwap e x.initiator x.hashLock x.amount x.counterparty x.lockDuration
        x.assetType x.tokenMint c.clock.unixTimestamp)
      (hplace : k=(swapPda e x.hashLock x.initiator).1)
      (hduration : minLockDuration.toInt≤x.lockDuration.toInt) : Next e c k none (some x)
  | claimed {x : SwapAccount} {secret : Bytes32} (hk : c.key? 1=some k)
      (hi : c.instruction=.claimSwap secret) (hstate : x.state=.opened)
      (hopen : x.isExpired c.clock.unixTimestamp=false) (hsecret : e.hash secret=x.hashLock) :
      Next e c k (some x) (some {x with state := .claimed,secret := secret})
  | refunded {x : SwapAccount} (hk : c.key? 1=some k) (hi : c.instruction=.refundSwap)
      (hstate : x.state=.opened) (hexpired : x.isExpired c.clock.unixTimestamp=true) :
      Next e c k (some x) (some {x with state := .refunded})

section Records

variable {e : Env} {j : Pubkey}

theorem Created.others (o : Created e c b b' k x) (hj : j≠k) : swapAt e b' j=swapAt e b j := by
  obtain ⟨hdata,hsame | ⟨-,hnil⟩⟩ := o.frame j hj
  · exact recordAt_congr hsame hdata
  · have hempty {b0 : Bank} (hd : (b0 j).data=[]) : swapAt e b0 j=none :=
      recordAt_of_empty swap_size (by decide) hd
    rw [hempty hnil,hempty (hdata.trans hnil)]

theorem Created.swapAt' (o : Created e c b b' k x) : swapAt e b' k=some x :=
  recordAt_eq_some.mpr ⟨o.owned',o.swap',by rw [o.record]; rfl⟩

theorem Settled.before (o : Settled e c b b' k v receive x x') : swapAt e b k=some x :=
  recordAt_eq_some.mpr ⟨o.owned,o.swap,o.live⟩

theorem Settled.after (o : Settled e c b b' k v receive x x') (hlive : x'.isInitialized=true) :
    swapAt e b' k=some x' := by
  obtain ⟨_,hpaid,rfl⟩ := o.written
  exact recordAt_setData_same ((hpaid.same k).2.trans o.owned) hlive

theorem Settled.others (o : Settled e c b b' k v receive x x') (hj : j≠k) :
    swapAt e b' j=swapAt e b j := by
  obtain ⟨_,hpaid,rfl⟩ := o.written
  exact (recordAt_setData_other _ hj).trans (recordAt_congr (hpaid.same j).2 (hpaid.same j).1)

theorem Accepted.next (h : Accepted e c b b') (j : Pubkey) :
    Next e c j (swapAt e b j) (swapAt e b' j) := by
  have hother {k : Pubkey} (hk : c.key? 1=some k) (hj : j≠k)
      (hsame : swapAt e b' j=swapAt e b j) : Next e c j (swapAt e b j) (swapAt e b' j) := by
    rw [hsame]
    exact .kept fun hkey => hj (Option.some.inj (hkey.symm.trans hk))
  cases h with
  | @created k x o =>
    by_cases hj : j=k
    · subst hj
      have hnone : swapAt e b j=none := recordAt_of_empty swap_size (by decide) o.fresh
      rw [hnone,o.swapAt']
      exact .created o.swapKey o.instruction o.record o.place o.shortest
    · exact hother o.swapKey hj (o.others hj)
  | @claimed k v receive x _ hi _ hopen hsecret o =>
    by_cases hj : j=k
    · subst hj
      rw [o.before,o.after o.live]
      exact .claimed o.swapKey hi o.unsettled hopen hsecret
    · exact hother o.swapKey hj (o.others hj)
  | @refunded k v receive x hi _ hexpired o =>
    by_cases hj : j=k
    · subst hj
      rw [o.before,o.after o.live]
      exact .refunded o.swapKey hi o.unsettled hexpired
    · exact hother o.swapKey hj (o.others hj)

end Records
end PrismChain.AtomicSwap
