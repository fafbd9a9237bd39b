import PrismChain.Framework.Spl

namespace PrismChain

open Function

variable {α β : Type} {s : Storage α} {t : Storage β} {id k payer : Pubkey}
    {b b1 b' : Bank} {a a0 : α}

theorem Outside.cells_eq (hs : s.Exact) (h : Outside id b b') : cellAt s id b'=cellAt s id b :=
  funext (h.cells hs)

theorem Storage.Apart.clear (h : s.Apart t) (hload : s.load (b k).data=some a) :
    cellAt t id b k=none := by
  cases hx : cellAt t id b k with
  | none => rfl
  | some => exact (h hload (cellAt_eq_some.mp hx).2).elim

theorem Storage.Exact.used (hs : s.Exact) (hload : s.load (b k).data=some a) : b k≠unused := by
  intro hu
  rw [hu,unused,hs.blank (by simp)] at hload
  cases hload

namespace Stored

theorem loaded (u : Stored s id b b' k a) (hs : s.Exact) : s.load (b' k).data=some a :=
  hs.stored u.store

theorem updated (u : Stored s id b b' k a) (hs : s.Exact) (howner : (b k).owner=id) :
    cellAt s id b'=update (cellAt s id b) k (some a) := by
  funext j
  rw [u.cells hs howner,update_apply]

theorem changed (u : Stored s id b b' k a) (hs : s.Exact) (hload : s.load (b k).data=some a0)
    (hne : a≠a0) :
    cellAt s id b k=some a0 ∧ cellAt s id b'=update (cellAt s id b) k (some a) := by
  have howner := u.owned_of_ne hs hload hne
  exact ⟨cellAt_eq_some.mpr ⟨howner,hload⟩,u.updated hs howner⟩

/-- A value that is written over one that is read: in an account of the program it is the new value,
and in another one it was the old. -/
theorem rewritten (u : Stored s id b b' k a) (hs : s.Exact) (hload : s.load (b k).data=some a0) :
    cellAt s id b k=some a0 ∧ cellAt s id b'=update (cellAt s id b) k (some a) ∨
      a=a0 ∧ cellAt s id b'=cellAt s id b := by
  by_cases hne : a=a0
  · by_cases howner : (b k).owner=id
    · exact .inl ⟨cellAt_eq_some.mpr ⟨howner,hload⟩,u.updated hs howner⟩
    · exact .inr ⟨hne,funext (u.foreign_cells howner)⟩
  · exact .inl (u.changed hs hload hne)

theorem apart (u : Stored s id b b' k a) (hs : s.Exact) (hst : s.Apart t)
    (hnone : cellAt t id b k=none) : cellAt t id b'=cellAt t id b :=
  funext (u.other_cells hs hst hnone)

theorem unusedKept (u : Stored s id b b' k a) (hused : b k≠unused) (hj : b j=unused) :
    b' j=unused := by
  have hne : j≠k := by
    rintro rfl
    exact hused hj
  rw [u.others j hne]
  exact hj

end Stored

section Founded

variable {iv : Invocation} {lamports : U64} {space : Nat}
  (hcreate : iv.createAccount payer k lamports space b=.ok b1)

include hcreate

theorem created_eq (ht : t.Exact) : cellAt t iv.programId b1=cellAt t iv.programId b :=
  funext (created_cells hcreate ht)

theorem created_fresh (ht : t.Exact) : cellAt t iv.programId b k=none := by
  rw [cellAt,(Invocation.createAccount_spec hcreate).2.1,ht.blank (by simp),ite_self]

theorem created_owner : (b1 k).owner=iv.programId :=
  (Invocation.createAccount_spec hcreate).2.2.2.2.2.2.2.1

theorem created_others (hj : j≠k) : (b1 j).data=(b j).data ∧ (b1 j).owner=(b j).owner :=
  (Invocation.createAccount_spec hcreate).2.2.2.2.2.2.2.2.1 j hj

theorem created_ne (ht : t.Exact) (hload : t.load (b j).data=some x) : j≠k := by
  rintro rfl
  rw [(Invocation.createAccount_spec hcreate).2.1,ht.blank (by simp)] at hload
  cases hload

theorem founded (hs : s.Exact) (u : Stored s iv.programId b1 b' k a) :
    cellAt s iv.programId b'=update (cellAt s iv.programId b) k (some a) := by
  rw [u.updated hs (created_owner hcreate),created_eq hcreate hs]

theorem founded_apart (hs : s.Exact) (ht : t.Exact) (hst : s.Apart t)
    (u : Stored s iv.programId b1 b' k a) : cellAt t iv.programId b'=cellAt t iv.programId b := by
  have hnone : cellAt t iv.programId b1 k=none := by
    rw [created_eq hcreate ht]
    exact created_fresh hcreate ht
  rw [u.apart hs hst hnone,created_eq hcreate ht]

theorem founded_tokens (hafter : Untokened b' k) (u : Stored s iv.programId b1 b' k a)
    (j : Pubkey) :
    tokenIn b' j=tokenIn b j := by
  rw [u.tokens (created_tokens hcreate k).2 hafter j,(created_tokens hcreate j).1]

end Founded

def Invocation.openOr (iv : Invocation) (h : Host) (s : Storage α) (started : List Byte → Bool)
    (payer k : Pubkey) (space : Nat) (a : α) (f : Frame) : Except ProgramError (α×Frame) :=
  if started (f.view k).data then do
    let x ← okOr (s.load (f.view k).data) .borshIoError
    pure (x,f)
  else do
    let f ← iv.invoke [payer,k] (iv.createAccount payer k (h.minimumBalance space) space) f
    pure (a,f)

theorem Invocation.openOr_spec {iv : Invocation} {started : List Byte → Bool}
    (hopen : iv.openOr h s started payer k space a ⟨b,b⟩=.ok (x,f)) :
    s.load (b k).data=some x ∧ f=⟨b,b⟩ ∨
      ∃ b1,iv.createAccount payer k (h.minimumBalance space) space b=.ok b1 ∧ f=⟨b1,b1⟩ ∧ x=a := by
  unfold openOr at hopen
  split at hopen
  case isTrue =>
    simp only [steps_ok] at hopen
    obtain ⟨y,hload,heq⟩ := hopen
    cases heq
    exact .inl ⟨hload,rfl⟩
  case isFalse =>
    simp only [steps_ok] at hopen
    obtain ⟨_,hinvoke,heq⟩ := hopen
    cases heq
    obtain ⟨b1,hcreate,rfl⟩ := invoke_create hinvoke
    exact .inr ⟨b1,hcreate,rfl,rfl⟩

theorem tokenSupply_congr (h : ∀ j,tokenIn b' j=tokenIn b j) :
    tokenSupply splToken mint b'=tokenSupply splToken mint b :=
  Aggregate.sumOver_congr fun j => by rw [tokenAt_splToken,tokenAt_splToken,h j]

end PrismChain
