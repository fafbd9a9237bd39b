import PrismChain.Programs.FlashLoan.Processor

namespace PrismChain.FlashLoan

open FixedWidth Function List Program Invocation Bank PrismChain.Frame

def Holds (b : Bank) (k : Pubkey) (p : FlashLoanPool) : Prop :=
  ∃ rest,(b k).data=poolCodec.encode p++rest

def Signs (c : Call Instruction) (i : Nat) (k : Pubkey) : Prop :=
  ∃ a,c.accounts[i]?=some a ∧ a.key=k ∧ a.isSigner=true

structure Initialized (h : Host) (c : Call Instruction) (b b' : Bank) (admin k tokenMint : Pubkey) :
    Prop where
  instruction : c.instruction=.initializePool tokenMint
  payer : Signs c 0 admin
  poolKey : c.key? 1=some k
  vaultKey : c.key? 2=some (vaultPda h k)
  empty : (b admin).data=[]
  fresh : (b k).data=[]
  freshVault : (b (vaultPda h k)).data=[]
  pool' : Holds b' k (newPool h admin tokenMint)
  owned' : (b' k).owner=h.programId
  rent : (h.minimumBalance poolSpace).toNat≤(b' k).lamports.toNat
  vault' :
    (b' (vaultPda h k)).data=[] ∧ (h.minimumBalance 0).toNat≤(b' (vaultPda h k)).lamports.toNat
  frame : ∀ j,j≠k → j≠vaultPda h k → (b' j).data=(b j).data ∧ (b' j).owner=(b j).owner
  kept : ∀ j,j≠admin → (b j).lamports.toNat≤(b' j).lamports.toNat
  others : ∀ j,j≠admin → j≠k → j≠vaultPda h k → b' j=b j

structure Deposited (h : Host) (c : Call Instruction) (b b' : Bank) (depositor k v : Pubkey)
    (p p' : FlashLoanPool) (amount : U64) : Prop where
  instruction : c.instruction=.deposit amount
  payer : Signs c 0 depositor
  poolKey : c.key? 1=some k
  vaultKey : c.key? 2=some v
  positive : amount≠0#64
  owned : (b k).owner=h.programId
  pool : Holds b k p
  live : p.isInitialized=true
  empty : (b depositor).data=[]
  result : deposited p depositor amount c.clock.unixTimestamp=.ok p'
  written : ∃ b₁ rest,SameState b b₁ ∧ Moved b b₁ depositor v amount.toNat ∧
    (∀ j,j≠depositor → j≠v → b₁ j=b j) ∧ b'=b₁.setData k (poolCodec.encode p'++rest)

structure Withdrawn (h : Host) (c : Call Instruction) (b b' : Bank) (provider k v receiver : Pubkey)
    (p p₁ p' : FlashLoanPool) (amount : U64) : Prop where
  instruction : c.instruction=.withdraw amount
  poolKey : c.key? 1=some k
  vaultKey : c.key? 2=some v
  receiverKey : c.key? 3=some receiver
  owned : (b k).owner=h.programId
  pool : Holds b k p
  live : p.isInitialized=true
  share : withdrawShare p provider amount c.clock.unixTimestamp=.ok p₁
  result : reduceLiquidity p₁ amount=.ok p'
  written : ∃ b₁ rest,SameState b b₁ ∧ Moved b b₁ v receiver amount.toNat ∧
    (∀ j,j≠v → j≠receiver → b₁ j=b j) ∧ b'=b₁.setData k (poolCodec.encode p'++rest)

structure Borrowed (h : Host) (c : Call Instruction) (b b' : Bank)
    (borrower k v r receiver : Pubkey)
    (p p' : FlashLoanPool) (amount fee : U64) : Prop where
  instruction : c.instruction=.borrow amount
  payer : Signs c 0 borrower
  poolKey : c.key? 1=some k
  vaultKey : c.key? 2=some v
  receiptKey : c.key? 3=some r
  receiverKey : c.key? 4=some receiver
  derived : r=receiptPda h k borrower
  owned : (b k).owner=h.programId
  pool : Holds b k p
  live : p.isInitialized=true
  vault : 0<(b v).lamports.toNat
  empty : (b borrower).data=[]
  fresh : (b r).data=[] ∧ (b r).lamports=0#64
  result : lent p=.ok p'
  receipt' : (b' r).data=receiptCodec.encode (newReceipt h k borrower amount fee (b v).lamports)
  owned' : (b' r).owner=h.programId
  rent : (h.minimumBalance receiptLen).toNat≤(b' r).lamports.toNat
  pool' : Holds b' k p'
  frame : ∀ j,j≠r → (b' j).owner=(b j).owner ∧ (j≠k → (b' j).data=(b j).data)
  kept : ∀ j,j≠borrower → j≠v → (b j).lamports.toNat≤(b' j).lamports.toNat
  others : ∀ j,j≠borrower → j≠k → j≠v → j≠r → j≠receiver → b' j=b j

/-- An accepted `Repay`. Nothing but the balance of the vault shows that the loan came back. -/
structure Repaid (h : Host) (c : Call Instruction) (b b' : Bank) (borrower k v r : Pubkey)
    (x : FlashLoanReceipt) (p p' : FlashLoanPool) : Prop where
  instruction : c.instruction=.repay
  payer : Signs c 0 borrower
  poolKey : c.key? 1=some k
  vaultKey : c.key? 2=some v
  receiptKey : c.key? 3=some r
  owned : (b r).owner=h.programId
  receipt : (b r).data=receiptCodec.encode x
  active : x.isActive=true
  lender : x.pool=k
  required : x.vaultBalanceBefore.toNat+x.fee.toNat≤(b v).lamports.toNat
  pool : Holds b k p
  result : repaid p x.fee=.ok p'
  poolOwned : (b k).owner=h.programId ∨ (b' k).data=(b k).data
  pool' : Holds b' k p'
  frame : ∀ j,(b' j).owner=(b j).owner ∧ (j≠k → (b' j).data=(b j).data)
  closed : borrower≠r → (b' r).lamports=0#64
  kept : ∀ j,j≠r → (b j).lamports.toNat≤(b' j).lamports.toNat
  others : ∀ j,j≠borrower → j≠k → j≠r → b' j=b j

inductive Accepted (h : Host) (c : Call Instruction) (b b' : Bank) : Prop
  | initialized {admin k tokenMint : Pubkey} (i : Initialized h c b b' admin k tokenMint)
  | deposited {depositor k v : Pubkey} {p p' : FlashLoanPool} {amount : U64}
      (d : Deposited h c b b' depositor k v p p' amount)
  | withdrawn {provider k v receiver : Pubkey} {p p₁ p' : FlashLoanPool} {amount : U64}
      (w : Withdrawn h c b b' provider k v receiver p p₁ p' amount)
  | borrowed {borrower k v r receiver : Pubkey} {p p' : FlashLoanPool} {amount fee : U64}
      (o : Borrowed h c b b' borrower k v r receiver p p' amount fee)
  | repaid {borrower k v r : Pubkey} {x : FlashLoanReceipt} {p p' : FlashLoanPool}
      (o : Repaid h c b b' borrower k v r x p p')

section Parts

variable {f : Frame} {b : Bank} {p : FlashLoanPool} {k : Pubkey}

theorem loadPool_eq_ok :
    loadPool poolCodec.front f k=.ok p ↔ Holds f.view k p ∧ p.isInitialized=true := by
  simp only [loadPool,steps_ok,Codec.front_eq_some]
  constructor
  · rintro ⟨q,hdata,_,hlive,rfl⟩
    exact ⟨hdata,hlive⟩
  · rintro ⟨hdata,hlive⟩
    exact ⟨p,hdata,(),hlive,rfl⟩

theorem Holds.ne_nil (hp : Holds b k p) : (b k).data≠[] := by
  obtain ⟨_,hdata⟩ := hp
  intro hnil
  have hlen := pool_length p
  rw [hnil] at hdata
  rw [(append_eq_nil_iff.mp hdata.symm).1,length_nil] at hlen
  omega

theorem Holds.ne_receipt (hp : Holds b k p) : (b k).data≠receiptCodec.encode x := by
  obtain ⟨_,hdata⟩ := hp
  intro hx
  have hlen := congrArg length (hdata.symm.trans hx)
  rw [length_append,pool_length,receipt_size x] at hlen
  have hreceipt : receiptLen=90 := by decide
  omega

theorem Holds.congr (hp : Holds b k p) (hdata : (b' k).data=(b k).data) : Holds b' k p := by
  obtain ⟨rest,hrest⟩ := hp
  exact ⟨rest,hdata.trans hrest⟩

theorem holds_setData (b : Bank) (k : Pubkey) (p : FlashLoanPool) (rest : List Byte) :
    Holds (b.setData k (poolCodec.encode p++rest)) k p :=
  ⟨rest,b.setData_same k _⟩

/-- A payment and a new pool record leave owners and all other data alone. -/
theorem written_frame (hsame : SameState b b1) (data : List Byte) (j : Pubkey) :
    ((b1.setData k data) j).owner=(b j).owner ∧
    (j≠k → ((b1.setData k data) j).data=(b j).data) := by
  refine ⟨?_,fun hj => ?_⟩
  · rw [b1.setData_owner,(hsame j).2]
  · rw [b1.setData_other _ hj,(hsame j).1]

theorem Deposited.frame (d : Deposited h c b b' depositor k v p p' amount) (j : Pubkey) :
    (b' j).owner=(b j).owner ∧ (j≠k → (b' j).data=(b j).data) := by
  obtain ⟨_,_,hsame,-,-,rfl⟩ := d.written
  exact written_frame hsame _ j

theorem Deposited.pool' (d : Deposited h c b b' depositor k v p p' amount) : Holds b' k p' := by
  obtain ⟨b1,rest,-,-,-,rfl⟩ := d.written
  exact holds_setData b1 k p' rest

theorem Withdrawn.frame (w : Withdrawn h c b b' provider k v receiver p p1 p' amount) (j : Pubkey) :
    (b' j).owner=(b j).owner ∧ (j≠k → (b' j).data=(b j).data) := by
  obtain ⟨_,_,hsame,-,-,rfl⟩ := w.written
  exact written_frame hsame _ j

theorem Withdrawn.pool' (w : Withdrawn h c b b' provider k v receiver p p1 p' amount) :
    Holds b' k p' := by
  obtain ⟨b1,rest,-,-,-,rfl⟩ := w.written
  exact holds_setData b1 k p' rest

theorem credited_le {b : Bank}
    (hcredit : checkedAdd ((b.setLamports src n) dst).lamports amount=some m)
    (hj : j≠src) :
    (b j).lamports.toNat≤(((b.setLamports src n).setLamports dst m) j).lamports.toNat := by
  rw [setLamports_lamports]
  split
  case isTrue heq =>
    have hadd := checkedAdd_eq_some.mp hcredit
    rw [setLamports_lamports,← heq,if_neg hj] at hadd
    omega
  case isFalse => rw [setLamports_lamports,if_neg hj]

theorem payOut_kept (hp : payOut balance vault receiver amount f=.ok g) :
    SameState f.view g.view ∧ g.synced=f.synced ∧
      (∀ j,j≠vault → (f.view j).lamports.toNat≤(g.view j).lamports.toNat) ∧
      ∀ j,j≠vault → j≠receiver → g.view j=f.view j := by
  simp only [payOut,steps_ok] at hp
  obtain ⟨_,-,_,hcredit,rfl⟩ := hp
  refine ⟨fun j => by simp,rfl,fun j hj => credited_le hcredit hj,
    fun j hj hr => by simp [setLamports,hj,hr]⟩

theorem payOut_moved (hp : payOut (f.view vault).lamports vault receiver amount f=.ok g) :
    Moved f.view g.view vault receiver amount.toNat := by
  simp only [payOut,steps_ok] at hp
  obtain ⟨rest,hrest,_,hcredit,rfl⟩ := hp
  have hle : amount.toNat≤(f.view vault).lamports.toNat := by
    have := checkedSub_eq_some.mp hrest
    omega
  have hvalue : rest=(f.view vault).lamports-amount := by
    unfold checkedSub at hrest
    rw [if_pos hle] at hrest
    exact (Option.some.inj hrest).symm
  subst hvalue
  exact moved_of_debit_credit hle hcredit

theorem closeReceipt_spec (hp : closeReceipt r borrower f=.ok g) :
    SameState f.view g.view ∧ g.synced=f.synced ∧ (borrower≠r → (g.view r).lamports=0#64) ∧
      (∀ j,j≠r → (f.view j).lamports.toNat≤(g.view j).lamports.toNat) ∧
      ∀ j,j≠borrower → j≠r → g.view j=f.view j := by
  simp only [closeReceipt,steps_ok] at hp
  obtain ⟨_,hcredit,rfl⟩ := hp
  refine ⟨fun j => by simp,rfl,fun hne => ?_,fun j hj => credited_le hcredit hj,
    fun j hb hr => by simp [setLamports,hb,hr]⟩
  rw [setLamports_lamports,if_neg (Ne.symm hne),setLamports_lamports,if_pos rfl]

end Parts

section Handlers

variable {clock : Clock} {accounts : List AccountInfo}

theorem create_two {iv : Invocation} (hspace : 0< space)
    (h1 : iv.invoke [admin,k] (iv.createAccount admin k m space) ⟨b,b⟩=.ok f1)
    (h2 : iv.invoke [admin,v] (iv.createAccount admin v n 0) f1=.ok f2) :
    ∃ b2,f2=⟨b2,b2⟩ ∧ (b admin).data=[] ∧ (b k).data=[] ∧ (b v).data=[] ∧ k≠v ∧
      (b2 k).owner=iv.programId ∧ m.toNat≤(b2 k).lamports.toNat ∧ (b2 v).data=[] ∧
      n.toNat≤(b2 v).lamports.toNat ∧
      (∀ j,j≠k → j≠v → (b2 j).data=(b j).data ∧ (b2 j).owner=(b j).owner) ∧
      (∀ j,j≠admin → (b j).lamports.toNat≤(b2 j).lamports.toNat) ∧
      ∀ j,j≠admin → j≠k → j≠v → b2 j=b j := by
  obtain ⟨b1,hc1,rfl⟩ := invoke_create h1
  obtain ⟨b2,hc2,rfl⟩ := invoke_create h2
  obtain ⟨_,hkdata,-,hadata,-,_,hkdata',hkowner,hframe1,hmoved1,hothers1⟩ :=
    createAccount_spec hc1
  obtain ⟨hv0,hvdata,-,hadata1,-,hn,hvdata',-,hframe2,hmoved2,hothers2⟩ :=
    createAccount_spec hc2
  have hfull : (b1 k).data≠[] := by
    rw [hkdata']
    intro he
    have hlen := congrArg length he
    rw [length_replicate,length_nil] at hlen
    omega
  have hkv : k≠v := fun he => hfull (by rw [he]; exact hvdata)
  have hak : k≠admin := fun he => hfull (by rw [he]; exact hadata1)
  have hmk := hmoved1 k
  have hmk2 := hmoved2 k
  have hmv := hmoved2 v
  rw [if_neg hak,if_pos rfl] at hmk
  rw [if_neg hak,if_neg hkv] at hmk2
  refine ⟨b2,rfl,hadata,hkdata,?_,hkv,?_,by omega,?_,?_,?_,?_,?_⟩
  · rw [← (hframe1 v (Ne.symm hkv)).1]
    exact hvdata
  · rw [(hframe2 k hkv).2]
    exact hkowner
  · rw [hvdata']
    rfl
  · rw [if_pos rfl] at hmv
    split at hmv
    case isTrue heq =>
      subst heq
      rw [hv0] at hn
      simp at hn
      omega
    case isFalse => omega
  · intro j hjk hjv
    rw [(hframe2 j hjv).1,(hframe2 j hjv).2]
    exact hframe1 j hjk
  · intro j hj
    have hj1 := hmoved1 j
    have hj2 := hmoved2 j
    rw [if_neg hj] at hj1 hj2
    omega
  · intro j hja hjk hjv
    rw [hothers2 j hja hjv,hothers1 j hja hjk]

theorem initialize_spec (clock : Clock)
    (hp : processInitializePool h accounts tokenMint ⟨b,b⟩=.ok f) :
    ∃ admin k,
      Initialized h ⟨clock,accounts,.initializePool tokenMint⟩ b f.view admin k tokenMint := by
  unfold processInitializePool at hp
  split at hp <;> simp only [steps_ok] at hp
  rename_i admin pool _ _ _ _
  obtain ⟨_,hsigner,_,-,_,hvault,_,h1,_,h2,hstore⟩ := hp
  obtain ⟨b2,rfl,hadmin,hk,hv,hkv,howner,hrent,hv',hvrent,hframe,hkept,hothers⟩ :=
    create_two (by decide) h1 h2
  obtain ⟨_,rfl⟩ := store_front hstore
  rw [← hvault] at hv hkv hv' hvrent hframe hothers
  refine ⟨admin.key,pool.key,rfl,⟨admin,rfl,rfl,hsigner⟩,rfl,?_,hadmin,hk,hv,
    holds_setData _ _ _ _,?_,?_,?_,?_,?_,?_⟩
  · rw [hvault]
    rfl
  · rw [b2.setData_owner]
    exact howner
  · rw [b2.setData_lamports]
    exact hrent
  · rw [b2.setData_other _ (Ne.symm hkv),b2.setData_lamports]
    exact ⟨hv',hvrent⟩
  · intro j hjk hjv
    rw [b2.setData_other _ hjk,b2.setData_owner]
    exact hframe j hjk hjv
  · intro j hj
    rw [b2.setData_lamports]
    exact hkept j hj
  · intro j hja hjk hjv
    rw [← hothers j hja hjk hjv]
    exact update_of_ne hjk _ _

theorem deposit_spec (hp : processDeposit h poolCodec.front clock accounts amount ⟨b,b⟩=.ok f) :
    ∃ depositor k v p p',
      Deposited h ⟨clock,accounts,.deposit amount⟩ b f.view depositor k v p p' amount := by
  unfold processDeposit at hp
  split at hp <;> simp only [steps_ok,loadPool_eq_ok] at hp
  rename_i depositor pool vault _ _
  obtain ⟨_,hsigner,_,hpos,_,howned,p,⟨hpool,hlive⟩,_,hinvoke,p',hresult,hstore⟩ := hp
  obtain ⟨-,b1,htransfer,rfl⟩ := invoke_eq_ok.mp hinvoke
  obtain ⟨hempty,-,-,hsame,hmoved,hothers⟩ := transfer_spec htransfer
  obtain ⟨rest,rfl⟩ := store_front hstore
  exact ⟨depositor.key,pool.key,vault.key,p,p',rfl,⟨depositor,rfl,rfl,hsigner⟩,rfl,rfl,hpos,
    howned,hpool,hlive,hempty,hresult,b1,rest,hsame,hmoved,hothers,rfl⟩

theorem withdraw_spec (hp : processWithdraw h poolCodec.front clock accounts amount ⟨b,b⟩=.ok f) :
    ∃ provider k v receiver p p1 p',
      Withdrawn h ⟨clock,accounts,.withdraw amount⟩ b f.view provider k v receiver p p1
        p' amount := by
  unfold processWithdraw at hp
  split at hp <;> simp only [steps_ok,loadPool_eq_ok] at hp
  rename_i provider pool vault receiver _ _
  obtain ⟨_,-,_,-,_,howned,p,⟨hpool,hlive⟩,p1,hshare,_,-,f1,hpay,p',hresult,hstore⟩ := hp
  obtain ⟨hsame,-,-,hothers⟩ := payOut_kept hpay
  have hmoved := payOut_moved (f := ⟨b,b⟩) hpay
  obtain ⟨rest,rfl⟩ := store_front hstore
  exact ⟨provider.key,pool.key,vault.key,receiver.key,p,p1,p',rfl,rfl,rfl,rfl,howned,hpool,hlive,
    hshare,hresult,f1.view,rest,hsame,hmoved,hothers,rfl⟩

theorem borrow_spec (clock : Clock)
    (hp : processBorrow h poolCodec.front accounts amount ⟨b,b⟩=.ok f) :
    ∃ borrower k v r receiver p p' fee,
      Borrowed h ⟨clock,accounts,.borrow amount⟩ b f.view borrower k v r receiver p p'
        amount fee := by
  unfold processBorrow at hp
  split at hp <;> simp only [steps_ok,loadPool_eq_ok] at hp
  rename_i borrower pool vault receipt receiver _ _
  obtain ⟨_,hsigner,_,hpos,_,howned,p,⟨hpool,hlive⟩,_,-,_,hle,fee,-,_,hpda,_,hinvoke,_,hreceipt,
    f3,hpay,p',hresult,hstore⟩ := hp
  obtain ⟨b1,hcreate,rfl⟩ := invoke_create hinvoke
  obtain ⟨hr0,hrdata,-,hempty,-,hm,hzeros,hrowner,hframe,hmoved,hothers⟩ :=
    createAccount_spec hcreate
  rw [store_eq_ok receipt_size (by rw [hzeros]; exact length_replicate)] at hreceipt
  subst hreceipt
  obtain ⟨hsame,-,hkept3,hothers3⟩ := payOut_kept hpay
  obtain ⟨rest,rfl⟩ := store_front hstore
  have hvault : 0<(b vault.key).lamports.toNat := (toNat_pos.mpr hpos).trans_le hle
  have hrv : receipt.key≠vault.key := by
    intro he
    rw [← he,hr0] at hvault
    cases hvault
  have hkr : pool.key≠receipt.key := fun he => hpool.ne_nil (by rw [he]; exact hrdata)
  have hcreated : (h.minimumBalance receiptLen).toNat≤(b1 receipt.key).lamports.toNat := by
    have hmr := hmoved receipt.key
    rw [if_pos rfl] at hmr
    split at hmr
    case isTrue heq =>
      rw [← heq,hr0] at hm
      simp at hm
      omega
    case isFalse => omega
  refine ⟨borrower.key,pool.key,vault.key,receipt.key,receiver.key,p,p',fee,rfl,
    ⟨borrower,rfl,rfl,hsigner⟩,rfl,rfl,rfl,rfl,hpda.symm,howned,hpool,hlive,hvault,hempty,
    ⟨hrdata,hr0⟩,hresult,?_,?_,?_,holds_setData _ _ _ _,?_,?_,?_⟩
  · rw [setData_other _ _ (Ne.symm hkr),(hsame _).1,setData_same]
  · rw [setData_owner,(hsame _).2,setData_owner]
    exact hrowner
  · have hkept := hkept3 receipt.key hrv
    rw [setData_lamports] at hkept ⊢
    exact hcreated.trans hkept
  · intro j hjr
    refine ⟨?_,fun hjk => ?_⟩
    · rw [setData_owner,(hsame _).2,setData_owner,(hframe j hjr).2]
    · rw [setData_other _ _ hjk,(hsame _).1,setData_other _ _ hjr,(hframe j hjr).1]
  · intro j hja hjv
    have hkept := hkept3 j hjv
    have hmj := hmoved j
    rw [if_neg hja] at hmj
    have hfirst : (b j).lamports.toNat≤(b1 j).lamports.toNat := by omega
    rw [setData_lamports] at hkept ⊢
    exact hfirst.trans hkept
  · intro j hja hjk hjv hjr hjw
    have hpool' : (f3.view.setData pool.key (poolCodec.encode p'++rest)) j=f3.view j :=
      update_of_ne hjk _ _
    rw [← hothers j hja hjr]
    exact hpool'.trans ((hothers3 j hjv hjw).trans (update_of_ne hjr _ _))

theorem repay_spec (clock : Clock) (hp : processRepay h poolCodec.front accounts ⟨b,b⟩=.ok f)
    (hsync : Synced h.programId accounts f) :
    ∃ borrower k v r x p p',Repaid h ⟨clock,accounts,.repay⟩ b f.view borrower k v r x p p' := by
  unfold processRepay at hp
  split at hp <;> simp only [steps_ok,Codec.tryFromSlice_eq_some,Codec.front_eq_some] at hp
  rename_i borrower pool vault receipt _ _
  obtain ⟨_,hsigner,_,howned,x,hx,_,hactive,_,-,_,hlender,_,hrequired,_,hle,p,hpool,p',
    hresult,f1,hstore,hclose⟩ := hp
  obtain ⟨rest,rfl⟩ := store_front hstore
  obtain ⟨hsame,hsynced,hclosed,hkept,hothers⟩ := closeReceipt_spec hclose
  have hcheck := (sync_account (P := program h) hsync (k := pool.key) (by simp)).2
  rw [hsynced] at hcheck
  have hsum := checkedAdd_eq_some.mp hrequired
  refine ⟨borrower.key,pool.key,vault.key,receipt.key,x,p,p',rfl,⟨borrower,rfl,rfl,hsigner⟩,rfl,
    rfl,rfl,howned,hx,hactive,hlender,?_,hpool,hresult,hcheck.symm.imp_right Eq.symm,?_,?_,
    hclosed,?_,?_⟩
  · rw [← hsum]
    exact hle
  · exact (holds_setData b pool.key p' rest).congr (hsame _).1
  · intro j
    refine ⟨by rw [(hsame j).2,setData_owner],fun hjk => ?_⟩
    rw [(hsame j).1,setData_other _ _ hjk]
  · intro j hj
    have hk := hkept j hj
    rw [setData_lamports] at hk
    exact hk
  · intro j hjb hjk hjr
    rw [hothers j hjb hjr]
    exact update_of_ne hjk _ _

theorem execute_spec (he : (program h).execute c b=.ok b') : Accepted h c b b' := by
  obtain ⟨f,hp,hsync,rfl⟩ := execute_eq_ok.mp he
  obtain ⟨clock,_,i⟩ := c
  cases i with
  | initializePool =>
    obtain ⟨_,_,hi⟩ := initialize_spec clock hp
    exact .initialized hi
  | deposit amount =>
    obtain ⟨_,_,_,_,_,hd⟩ := deposit_spec hp
    exact .deposited hd
  | withdraw amount =>
    obtain ⟨_,_,_,_,_,_,_,hw⟩ := withdraw_spec hp
    exact .withdrawn hw
  | borrow amount =>
    obtain ⟨_,_,_,_,_,_,_,_,ho⟩ := borrow_spec clock hp
    exact .borrowed ho
  | repay =>
    obtain ⟨_,_,_,_,_,_,_,ho⟩ := repay_spec clock hp hsync
    exact .repaid ho

end Handlers

end PrismChain.FlashLoan
