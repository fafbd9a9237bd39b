import PrismChain.Programs.SolSwap.Processor

namespace PrismChain.SolSwap

open Program

/-- The pool after an instruction on it. -/
def outcome (pool : PoolState) : Instruction → Except ProgramError PoolState
  | .initializePool _ _ _ => .error (err .alreadyInitialized)
  | .addLiquidity amountA amountB minLpTokens => deposited pool amountA amountB minLpTokens
  | .removeLiquidity lpAmount minAmountA minAmountB => withdrawn pool lpAmount minAmountA minAmountB
  | .swap amountIn minimumAmountOut direction => swapped pool amountIn minimumAmountOut direction

def newPool (tokenAMint tokenBMint lpMint authority : Pubkey) (num den protocol : U64) :
    PoolState :=
  ⟨true,0#8,tokenAMint,tokenBMint,0#64,0#64,lpMint,0#64,num,den,protocol,authority,0#128,0#128⟩

/-- A pool is written into an account whose first byte is 0. -/
structure Initialized (id : Pubkey) (c : Call Instruction) (b b' : Bank) (k : Pubkey)
    (p : PoolState) : Prop where
  key : c.key? 0=some k
  unused : (b k).data[0]?=some 0#8
  owned : (b k).owner=id ∨ (b' k).data=(b k).data
  written : b'=b.setData k (poolCodec.encode p++(b k).data.drop poolLen)
  pool : ∃ mintA mintB lpMint authority num den protocol,
    c.instruction=.initializePool num den protocol ∧ den≠0#64 ∧ num.toNat≤den.toNat ∧
      protocol.toNat≤num.toNat ∧ p=newPool mintA mintB lpMint authority num den protocol

/-- An initialized pool makes room for its outcome. -/
structure Updated (id : Pubkey) (c : Call Instruction) (b b' : Bank) (k : Pubkey)
    (p p' : PoolState) : Prop where
  key : c.key? 0=some k
  pool : (b k).data=poolCodec.encode p++(b k).data.drop poolLen
  live : p.isInitialized=true
  owned : (b k).owner=id ∨ (b' k).data=(b k).data
  written : b'=b.setData k (poolCodec.encode p'++(b k).data.drop poolLen)
  result : outcome p c.instruction=.ok p'

inductive Accepted (id : Pubkey) (c : Call Instruction) (b b' : Bank) : Prop
  | initialized {k : Pubkey} {p : PoolState} (h : Initialized id c b b' k p)
  | updated {k : Pubkey} {p p' : PoolState} (h : Updated id c b b' k p p')

section Handlers

variable {id : Pubkey} {f : Frame} {c : Call Instruction}

theorem loadPool_eq_ok : loadPool f k=.ok p ↔
    (f.view k).data=poolCodec.encode p++(f.view k).data.drop poolLen ∧ p.isInitialized=true := by
  simp only [loadPool,steps_ok,Codec.tryFromSlice_take pool_size]
  constructor
  · rintro ⟨_,-,q,hdata,_,hlive,rfl⟩
    exact ⟨hdata,hlive⟩
  · rintro ⟨hdata,hlive⟩
    refine ⟨(),?_,p,hdata,(),hlive,rfl⟩
    rw [hdata,List.length_append,pool_size p]
    exact Nat.le_add_right _ _

theorem store_eq_ok (h : f.store poolCodec p k=.ok g) :
    g={f with view := f.view.setData k (poolCodec.encode p++(f.view k).data.drop poolLen)} := by
  simp only [Frame.store,steps_ok,Codec.writeTo,pool_size p] at h
  obtain ⟨d,hd,rfl⟩ := h
  split at hd
  · rw [← Option.some.inj hd]
  · cases hd

theorem updated_of_store (hload : loadPool ⟨b,b⟩ k=.ok p) (hresult : outcome p c.instruction=.ok p')
    (hkey : c.key? 0=some k) (hstore : Frame.store ⟨b,b⟩ poolCodec p' k=.ok f)
    (hsync : Synced (program id).id c.accounts f) :
    Updated id c b f.view k p p' := by
  obtain ⟨hdata,hlive⟩ := loadPool_eq_ok.mp hload
  obtain rfl := store_eq_ok hstore
  have hcheck := (sync_account hsync (Call.key_mem hkey)).2
  exact ⟨hkey,hdata,hlive,hcheck.symm.imp_right Eq.symm,rfl,hresult⟩

theorem execute_spec (h : (program id).execute c b=.ok b') : Accepted id c b b' := by
  obtain ⟨f,hp,hsync,rfl⟩ := execute_eq_ok.mp h
  obtain ⟨_,_,i⟩ := c
  cases i with
  | initializePool =>
    dsimp only [program,processInstruction,processInitializePool] at hp
    split at hp <;> simp only [steps_ok] at hp
    rename_i pool _ _ _ _ _ _ _ _ _ _
    obtain ⟨_,-,_,hfee,_,hprotocol,_,-,_,-,_,hunused,hstore⟩ := hp
    obtain rfl := store_eq_ok hstore
    have hcheck := (sync_account hsync (k := pool.key) (by simp)).2
    refine .initialized ⟨rfl,hunused,hcheck.symm.imp_right Eq.symm,rfl,_,_,_,_,_,_,_,rfl,
      fun h => hfee (Or.inl h),?_,hprotocol,rfl⟩
    exact Nat.le_of_not_lt fun h => hfee (Or.inr h)
  | _ =>
    dsimp only
      [program,processInstruction,processAddLiquidity,processRemoveLiquidity,processSwap] at hp
    split at hp <;> simp only [steps_ok] at hp
    obtain ⟨_,-,p,hload,_,hresult,hstore⟩ := hp
    exact .updated (updated_of_store hload hresult rfl hstore hsync)

end Handlers

end PrismChain.SolSwap
