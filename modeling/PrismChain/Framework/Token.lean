import PrismChain.Framework.Storage
import PrismChain.Math.Aggregate

namespace PrismChain

/-- What a program reads of an account of the token program. -/
structure TokenAccount where
  mint : Pubkey
  owner : Pubkey
  amount : U64
  deriving DecidableEq

namespace TokenAccount

def len : Nat := 165

def field (d : List Byte) (i n : Nat) : Nat := leValue ((d.drop i).take n)

/-- `unpack`: the length, the tags of the three optional fields and the state are checked, and an
account that was not initialized is refused. -/
def unpack (d : List Byte) : Except ProgramError TokenAccount := do
  require (d.length=len) .invalidAccountData
  require (field d 72 4≤1 ∧ field d 109 4≤1 ∧ field d 129 4≤1 ∧ field d 108 1≤2) .invalidAccountData
  require (field d 108 1≠0) .uninitializedAccount
  pure ⟨BitVec.ofNat 256 (field d 0 32),BitVec.ofNat 256 (field d 32 32),
    BitVec.ofNat 64 (field d 64 8)⟩

def pack (a : TokenAccount) : List Byte :=
  a.mint.bytes++a.owner.bytes++leBytes 8 a.amount.toNat++List.replicate 36
    0#8++[1#8]++List.replicate 56 0#8

end TokenAccount

def tokenAt (tokenProgram mint : Pubkey) (b : Bank) (k : Pubkey) : Option TokenAccount :=
  if (b k).owner=tokenProgram then
    match TokenAccount.unpack (b k).data with
    | .ok a => if a.mint=mint then some a else none
    | .error _ => none
  else none

theorem tokenAt_eq_some {mint : Pubkey} : tokenAt tokenProgram mint b k=some a ↔
      (b k).owner=tokenProgram ∧ TokenAccount.unpack (b k).data=.ok a ∧ a.mint=mint := by
  unfold tokenAt
  cases hread : TokenAccount.unpack (b k).data with
  | error => simp
  | ok =>
    simp only [Except.ok.injEq]
    split_ifs with howner hmint
    · constructor
      · intro h
        cases h
        exact ⟨howner,rfl,hmint⟩
      · rintro ⟨-,rfl,-⟩
        rfl
    · constructor
      · nofun
      · rintro ⟨-,rfl,hsame⟩
        exact absurd hsame hmint
    · constructor
      · nofun
      · rintro ⟨hsame,-,-⟩
        exact absurd hsame howner

def tokenSupply (tokenProgram mint : Pubkey) (b : Bank) : Nat :=
  Aggregate.sumOver (fun a : TokenAccount => a.amount.toNat) (tokenAt tokenProgram mint b)

theorem tokenAt_blank {mint : Pubkey} (h : (b k).data=[]) : tokenAt tokenProgram mint b k=none := by
  cases ha : tokenAt tokenProgram mint b k with
  | none => rfl
  | some =>
    have hread := (tokenAt_eq_some.mp ha).2.1
    rw [h] at hread
    cases hread

theorem tokenAt_foreign {mint : Pubkey} (h : (b k).owner≠tokenProgram) :
    tokenAt tokenProgram mint b k=none := if_neg h

theorem tokenAt_congr {mint : Pubkey} (hdata : (b' k).data=(b k).data)
    (howner : (b' k).owner=(b k).owner) :
    tokenAt tokenProgram mint b' k=tokenAt tokenProgram mint b k := by
  unfold tokenAt
  rw [hdata,howner]

theorem tokenSupply_change {mint : Pubkey} (hbefore : tokenAt tokenProgram mint b k=some a)
    (hafter : tokenAt tokenProgram mint b' k=some a')
    (hothers : ∀ j,j≠k → tokenAt tokenProgram mint b' j=tokenAt tokenProgram mint b j) :
    tokenSupply tokenProgram mint b'+a.amount.toNat=
      tokenSupply tokenProgram mint b+a'.amount.toNat :=
  Aggregate.sumOver_change hbefore hafter hothers

/-- A supply that is all in one account. Sums over all addresses are never to be computed, so that a
sample's is put together from variables. -/
theorem tokenSupply_of_one {mint : Pubkey} (hbefore : tokenAt tokenProgram mint b k=some a)
    (hafter : tokenAt tokenProgram mint b' k=some a')
    (hothers : ∀ j,j≠k → tokenAt tokenProgram mint b' j=tokenAt tokenProgram mint b j)
    (hempty : tokenSupply tokenProgram mint b=0) (hnone : a.amount.toNat=0)
    (hall : a'.amount.toNat=n) : tokenSupply tokenProgram mint b'=n := by
  have hchange := tokenSupply_change hbefore hafter hothers
  omega

end PrismChain
