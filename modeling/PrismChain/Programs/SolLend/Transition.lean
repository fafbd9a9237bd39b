import PrismChain.Framework.Records
import PrismChain.Programs.SolLend.Processor

namespace PrismChain.SolLend

open FixedWidth

/-- Nothing but the data of `keys` changes, and that only where the program `id` is the owner. -/
structure Touched (id : Pubkey) (keys : List Pubkey) (b b' : Bank) : Prop where
  owners : ∀ j,(b' j).owner=(b j).owner
  owned : ∀ j,(b j).owner=id ∨ (b' j).data=(b j).data
  others : ∀ j,j∉keys → (b' j).data=(b j).data

inductive Effect (mk : Pubkey) (data : List Byte) (m : LendingMarket) :
    Instruction → UserPosition → LendingMarket×UserPosition → Prop
  | deposited {depositor : Pubkey} {amount : U64} {x : LendingMarket×UserPosition}
      (hx : deposited m (depositorPosition m mk depositor data) amount=.ok x) :
      Effect mk data m (.deposit amount) (depositorPosition m mk depositor data) x
  | withdrawn {amount : U64} {p : UserPosition} {x : LendingMarket×UserPosition}
      (hp : data=positionCodec.encode p) (hx : withdrawn amount m p=.ok x) :
      Effect mk data m (.withdraw amount) p x
  | borrowed {amount : U64} {p : UserPosition} {x : LendingMarket×UserPosition}
      (hp : data=positionCodec.encode p) (hx : borrowed amount m p=.ok x) :
      Effect mk data m (.borrow amount) p x
  | repaid {amount : U64} {p : UserPosition} {x : LendingMarket×UserPosition}
      (hp : data=positionCodec.encode p) (hx : repaid amount m p=.ok x) :
      Effect mk data m (.repay amount) p x
  | liquidated {amount : U64} {p : UserPosition} {x : LendingMarket×UserPosition}
      (hp : data=positionCodec.encode p) (hx : liquidated amount m p=.ok x) :
      Effect mk data m (.liquidate amount) p x

structure Opened (id : Pubkey) (c : Call Instruction) (b b' : Bank)
    (mk authority tokenMint : Pubkey)
    (m : LendingMarket) : Prop where
  marketKey : c.key? 0=some mk
  read : m=(marketCodec.tryFromSlice (b mk).data).getD defaultMarket
  fresh : m.isInitialized=false
  room : marketLen≤(b mk).data.length
  market' : (b' mk).data=marketCodec.encode (openedMarket m authority tokenMint c.clock.slot)++
    (b mk).data.drop marketLen
  touched : Touched id [mk] b b'

structure Changed (id : Pubkey) (c : Call Instruction) (b b' : Bank) (mk k : Pubkey)
    (m : LendingMarket) (p : UserPosition) (x : LendingMarket×UserPosition) : Prop where
  marketKey : c.key? 0=some mk
  positionKey : c.key? 1=some k
  distinct : k≠mk
  live : m.isInitialized=true
  effect : Effect mk (b k).data m c.instruction p x
  market : (b mk).data=marketCodec.encode m
  market' : (b' mk).data=marketCodec.encode x.1
  room : positionLen≤(b k).data.length
  position' : (b' k).data=positionCodec.encode x.2++(b k).data.drop positionLen
  touched : Touched id [mk,k] b b'

def cranked (m : LendingMarket) (now : U64) : LendingMarket :=
  if now.toNat≤ m.lastUpdateSlot.toNat then m
  else accrued m (saturatingSub now m.lastUpdateSlot) now

structure Cranked (id : Pubkey) (c : Call Instruction) (b b' : Bank) (mk : Pubkey)
    (m : LendingMarket) : Prop where
  marketKey : c.key? 0=some mk
  live : m.isInitialized=true
  market : (b mk).data=marketCodec.encode m
  market' : (b' mk).data=marketCodec.encode (cranked m c.clock.slot)
  touched : Touched id [mk] b b'

inductive Accepted (id : Pubkey) (c : Call Instruction) (b b' : Bank) : Prop
  | opened {mk authority tokenMint : Pubkey} {m : LendingMarket}
      (hc : c.instruction=.initializeMarket) (o : Opened id c b b' mk authority tokenMint m)
  | changed {mk k : Pubkey} {m : LendingMarket} {p : UserPosition} {x : LendingMarket×UserPosition}
      (u : Changed id c b b' mk k m p x)
  | cranked {mk : Pubkey} {m : LendingMarket} (hc : c.instruction=.accrueInterest)
      (a : Cranked id c b b' mk m)

section Parts

variable {id : Pubkey} {m : LendingMarket}

theorem loadMarket_eq_ok : loadMarket f k=.ok m ↔
    (f.view k).data=marketCodec.encode m ∧ m.isInitialized=true := by
  simp only [loadMarket,steps_ok,Codec.tryFromSlice_eq_some]
  constructor
  · rintro ⟨_,hm,_,hlive,rfl⟩
    exact ⟨hm,hlive⟩
  · rintro ⟨hm,hlive⟩
    exact ⟨m,hm,(),hlive,rfl⟩

theorem loadPosition_eq_ok : loadPosition f k=.ok p ↔ (f.view k).data=positionCodec.encode p := by
  simp only [loadPosition,okOr_eq_ok,Codec.tryFromSlice_eq_some]

theorem storeBoth_spec (hm : (b mk).data=marketCodec.encode m)
    (h : storeBoth x mk k ⟨b,b⟩=.ok f) : k≠mk ∧ positionLen≤(b k).data.length ∧
      f=⟨b,(b.setData mk (marketCodec.encode x.1)).setData k
        (positionCodec.encode x.2++(b k).data.drop positionLen)⟩ := by
  have hlen : (b mk).data.length=marketLen := by rw [hm]; exact market_size m
  simp only [storeBoth,steps_ok] at h
  obtain ⟨_,hf1,-,hne,hf⟩ := h
  obtain rfl := (Frame.store_eq_ok market_size hlen).mp hf1
  obtain ⟨hroom,rfl⟩ := Frame.store_spec hf
  dsimp only at hroom ⊢
  rw [Bank.setData_other _ _ hne,position_size] at hroom ⊢
  exact ⟨hne,hroom,rfl⟩

theorem touched_of_sync (hsync : Synced id accounts ⟨b,b'⟩)
    (hkeys : ∀ j∈keys,j∈accounts.map AccountInfo.key) (howners : ∀ j,(b' j).owner=(b j).owner)
    (hothers : ∀ j,j∉keys → (b' j).data=(b j).data) : Touched id keys b b' := by
  refine ⟨howners,fun j => ?_,hothers⟩
  by_cases hj : j∈keys
  · obtain ⟨-,-,-,hsame | howner⟩ := Invocation.checkAccount_eq_ok.mp
      ((Invocation.sync_eq_ok.mp hsync).1 j (hkeys j hj))
    · exact .inr hsame.symm
    · exact .inl howner
  · exact .inr (hothers j hj)

theorem changed_spec {c : Call Instruction} (hma : c.accounts[0]?=some ma)
    (hpa : c.accounts[1]?=some pa)
    (hlive : m.isInitialized=true) (heffect : Effect ma.key (b pa.key).data m c.instruction p x)
    (hm : (b ma.key).data=marketCodec.encode m) (hstore : storeBoth x ma.key pa.key ⟨b,b⟩=.ok f)
    (hsync : Synced id c.accounts f) :
    Changed id c b f.view ma.key pa.key m p x := by
  obtain ⟨hne,hroom,rfl⟩ := storeBoth_spec hm hstore
  have hmk : c.key? 0=some ma.key := by rw [Call.key?,hma]; rfl
  have hpk : c.key? 1=some pa.key := by rw [Call.key?,hpa]; rfl
  refine ⟨hmk,hpk,hne,hlive,heffect,hm,?_,hroom,Bank.setData_same _ _ _,
    touched_of_sync hsync ?_ (fun j => by simp) ?_⟩
  · rw [Bank.setData_other _ _ (Ne.symm hne),Bank.setData_same]
  · intro j hj
    simp only [List.mem_cons,List.not_mem_nil,or_false] at hj
    obtain rfl | rfl := hj
    · exact Call.key_mem hmk
    · exact Call.key_mem hpk
  · intro j hj
    simp only [List.mem_cons,List.not_mem_nil,or_false,not_or] at hj
    rw [Bank.setData_other _ _ hj.2,Bank.setData_other _ _ hj.1]

end Parts

section Handlers

variable {id : Pubkey} {accounts : List AccountInfo} {f : Frame} (hsync : Synced id accounts f)
include hsync

theorem initialize_spec (hp : initializeMarket clock accounts ⟨b,b⟩=.ok f) :
    ∃ mk authority tokenMint m,
      Opened id ⟨clock,accounts,.initializeMarket⟩ b f.view mk authority tokenMint m := by
  unfold initializeMarket at hp
  split at hp <;> simp only [steps_ok] at hp
  rename_i marketAccount authority tokenMint _
  obtain ⟨-,-,-,hfresh,hstore⟩ := hp
  obtain ⟨hroom,rfl⟩ := Frame.store_spec hstore
  dsimp only at hroom hsync ⊢
  rw [market_size] at hroom hsync ⊢
  refine ⟨marketAccount.key,authority.key,tokenMint.key,
    (marketCodec.tryFromSlice (b marketAccount.key).data).getD defaultMarket,rfl,rfl,hfresh,hroom,
    Bank.setData_same _ _ _,touched_of_sync hsync (by simp) (fun j => by simp) fun j hj => ?_⟩
  exact Bank.setData_other _ _ (by simpa using hj)

theorem deposit_spec (hp : deposit accounts amount ⟨b,b⟩=.ok f) :
    Accepted id ⟨clock,accounts,.deposit amount⟩ b f.view := by
  unfold deposit at hp
  split at hp <;> simp only [steps_ok,loadMarket_eq_ok] at hp
  rename_i marketAccount positionAccount depositor _
  obtain ⟨-,-,m,⟨hm,hlive⟩,x,hx,hstore⟩ := hp
  exact .changed (changed_spec rfl rfl hlive (.deposited hx) hm hstore hsync)

theorem own_spec (heffect : ∀ {mk data m p x},data=positionCodec.encode p → change m p=.ok x →
      Effect mk data m i p x) (hp : onOwnPosition change accounts ⟨b,b⟩=.ok f) :
    Accepted id ⟨clock,accounts,i⟩ b f.view := by
  unfold onOwnPosition at hp
  split at hp <;> simp only [steps_ok,loadMarket_eq_ok,loadPosition_eq_ok] at hp
  rename_i marketAccount positionAccount owner _
  obtain ⟨-,-,m,⟨hm,hlive⟩,p,hpos,-,-,x,hx,hstore⟩ := hp
  exact .changed (changed_spec rfl rfl hlive (heffect hpos hx) hm hstore hsync)

theorem liquidate_spec (hp : liquidate accounts amount ⟨b,b⟩=.ok f) :
    Accepted id ⟨clock,accounts,.liquidate amount⟩ b f.view := by
  unfold liquidate at hp
  split at hp <;> simp only [steps_ok,loadMarket_eq_ok,loadPosition_eq_ok] at hp
  rename_i marketAccount positionAccount liquidator _
  obtain ⟨-,-,m,⟨hm,hlive⟩,p,hpos,x,hx,hstore⟩ := hp
  exact .changed (changed_spec rfl rfl hlive (.liquidated hpos hx) hm hstore hsync)

theorem accrue_spec (hp : accrueInterest clock accounts ⟨b,b⟩=.ok f) :
    ∃ mk m,Cranked id ⟨clock,accounts,.accrueInterest⟩ b f.view mk m := by
  unfold accrueInterest at hp
  split at hp <;> simp only [steps_ok,loadMarket_eq_ok] at hp
  rename_i marketAccount _
  obtain ⟨m,⟨hm,hlive⟩,hrest⟩ := hp
  split at hrest
  case isTrue hslot =>
    obtain rfl := pure_eq_ok.mp hrest
    have hsame : cranked m clock.slot=m := if_pos hslot
    exact ⟨marketAccount.key,m,rfl,hlive,hm,by rw [hsame]; exact hm,
      fun _ => rfl,fun _ => .inr rfl,fun _ _ => rfl⟩
  case isFalse hslot =>
    have hlen : (b marketAccount.key).data.length=marketLen := by rw [hm]; exact market_size m
    have hmoved : cranked m clock.slot=
        accrued m (saturatingSub clock.slot m.lastUpdateSlot) clock.slot := if_neg hslot
    rw [← hmoved] at hrest
    obtain rfl := (Frame.store_eq_ok market_size hlen).mp hrest
    refine ⟨marketAccount.key,m,rfl,hlive,hm,Bank.setData_same _ _ _,
      touched_of_sync hsync (by simp) (fun j => by simp) fun j hj => ?_⟩
    exact Bank.setData_other _ _ (by simpa using hj)

end Handlers

theorem execute_spec {id : Pubkey} (h : (program id).execute c b=.ok b') : Accepted id c b b' := by
  obtain ⟨f,hp,hsync,rfl⟩ := Program.execute_eq_ok.mp h
  obtain ⟨_,_,i⟩ := c
  cases i with
  | initializeMarket =>
    obtain ⟨_,_,_,_,o⟩ := initialize_spec hsync hp
    exact .opened rfl o
  | deposit amount => exact deposit_spec hsync hp
  | withdraw amount => exact own_spec hsync .withdrawn hp
  | borrow amount => exact own_spec hsync .borrowed hp
  | repay amount => exact own_spec hsync .repaid hp
  | liquidate amount => exact liquidate_spec hsync hp
  | accrueInterest =>
    obtain ⟨_,_,a⟩ := accrue_spec hsync hp
    exact .cranked rfl a

end PrismChain.SolLend
