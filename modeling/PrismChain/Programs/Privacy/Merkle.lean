import PrismChain.Framework.Borsh
import PrismChain.Math.Merkle

/-! The Merkle proofs of `programs/privacy`. The hash is a parameter. What is assumed of it is only
that it has no collision among the inputs that occur. -/

namespace PrismChain.Privacy

open List Merkle Codec

def merkleTreeDepth : Nat := 20

structure MerklePath where
  siblings : List (BitVec 256)
  /-- 0 when the sibling is the right one. -/
  pathIndices : List U8

def bytes (a : BitVec 256) : List Byte := (uint 32).encode a

def verifyMerkleProof (hash : List Byte → BitVec 256) (leaf : BitVec 256) (proof : MerklePath)
    (root : BitVec 256) : Bool :=
  if proof.siblings.length≠proof.pathIndices.length then false
  else (proof.siblings.zip proof.pathIndices).foldl (fun current s =>
    hash (if s.2=0#8 then bytes current++bytes s.1 else bytes s.1++bytes current)) leaf==root

/-- The label of an inner node. The 64 bytes hashed determine the pair. -/
def compress (hash : List Byte → BitVec 256) (x : BitVec 256×BitVec 256) : BitVec 256 :=
  hash (bytes x.1++bytes x.2)

def MerklePath.steps (p : MerklePath) : List (BitVec 256×Bool) :=
  p.siblings.zip (p.pathIndices.map (·==0#8))

/-- The pairs that `verifyMerkleProof` hashes. -/
def MerklePath.hashed (hash : List Byte → BitVec 256) (leaf : BitVec 256) (p : MerklePath) :
    List (BitVec 256×BitVec 256) :=
  climbed (compress hash) leaf p.steps

variable {hash : List Byte → BitVec 256}

/-- The loop climbs the path. -/
theorem verifyMerkleProof_iff : verifyMerkleProof hash leaf p root=true ↔
    p.siblings.length=p.pathIndices.length ∧ climb (compress hash) leaf p.steps=root := by
  have hloop :
    climb (compress hash) leaf p.steps=(p.siblings.zip p.pathIndices).foldl (fun current s =>
        hash (if s.2=0#8 then bytes current++bytes s.1 else bytes s.1++bytes current)) leaf := by
    rw [climb,MerklePath.steps,zip_map_right,foldl_map]
    congr 1
    funext current s
    by_cases hs : s.2=0#8 <;> simp [hs,beside,compress]
  rw [hloop,verifyMerkleProof]
  split_ifs with hlength
  · simp [hlength]
  · simpa using fun _ => not_not.mp hlength

/-- Every leaf's sibling path is accepted, and what is accepted at a position is unique. -/
theorem merkle_proofs_complete_and_binding (hash : List Byte → BitVec 256) :
    (∀ d (t : Tree (BitVec 256) d),(t.paths (compress hash)).map Prod.fst=t.leaves ∧
      ∀ x∈t.paths (compress hash),∀ p : MerklePath,p.siblings=x.2.map Prod.fst →
        p.pathIndices.map (·==0#8)=x.2.map Prod.snd →
        verifyMerkleProof hash x.1 p (t.root (compress hash))=true) ∧
    ∀ root a b (p q : MerklePath),verifyMerkleProof hash a p root=true →
      verifyMerkleProof hash b q root=true →
      p.pathIndices.map (·==0#8)=q.pathIndices.map (·==0#8) →
      NoCollision (compress hash) (p.hashed hash a++q.hashed hash b) →
        a=b ∧ p.siblings=q.siblings := by
  refine ⟨fun d t => ⟨t.paths_leaves,fun x hx p hsiblings hindices => ?_⟩,
    fun root a b p q hp hq hsides hnc => ?_⟩
  · have hlength : p.siblings.length=p.pathIndices.length := by
      have hl := congrArg length hindices
      rw [length_map,length_map] at hl
      rw [hsiblings,length_map,hl]
    have hsteps : x.2=p.steps := zip_of_prod hsiblings.symm hindices.symm
    exact verifyMerkleProof_iff.mpr ⟨hlength,hsteps ▸ t.climb_paths x hx⟩
  · obtain ⟨hlp,hroot⟩ := verifyMerkleProof_iff.mp hp
    obtain ⟨hlq,hroot'⟩ := verifyMerkleProof_iff.mp hq
    have hsnd (r : MerklePath) (hl : r.siblings.length=r.pathIndices.length) :
        r.steps.map Prod.snd=r.pathIndices.map (·==0#8) :=
      map_snd_zip (by rw [length_map,hl])
    have hfst (r : MerklePath) (hl : r.siblings.length=r.pathIndices.length) :
        r.steps.map Prod.fst=r.siblings := map_fst_zip (by rw [length_map,hl])
    obtain ⟨hleaf,hsteps⟩ :=
      climb_inj (by rw [hsnd p hlp,hsnd q hlq,hsides]) hnc (hroot.trans hroot'.symm)
    exact ⟨hleaf,by rw [← hfst p hlp,← hfst q hlq,hsteps]⟩

section Counting

/-! A hash that counts the levels. It shows that a path of another length is accepted for a value
that is not a leaf. -/

def countUp (x : BitVec 256×BitVec 256) : BitVec 256 := if x.1=x.2 then x.1+1 else x.1

def countHash (data : List Byte) : BitVec 256 :=
  ((pair (uint 32) (uint 32)).tryFromSlice data).elim 0#256 countUp

def zeros : (n : Nat) → Tree (BitVec 256) n
  | 0 => .leaf 0#256
  | n+1 => .node (zeros n) (zeros n)

/-- Where a path of length `n` to the root of `zeros 20` starts. -/
def start (n : Nat) : BitVec 256 := if n≤20 then .ofNat 256 (20-n) else -1#256

/-- The pairs that occur below. -/
def Counted (x : BitVec 256×BitVec 256) : Prop := x.1=x.2 ∧ x.1≠-2#256 ∨ x=(-1#256,0#256)

theorem compress_countHash : compress countHash=countUp := by
  funext x
  have hread : (pair (uint 32) (uint 32)).tryFromSlice (bytes x.1++bytes x.2)=some x :=
    (tryFromSlice_eq_some _).mpr rfl
  rw [compress,countHash,hread]
  rfl

theorem countUp_inj (hx : Counted x) (hy : Counted y) (h : countUp x=countUp y) : x=y := by
  unfold Counted countUp at *
  grind

theorem zeros_root (n : Nat) : (zeros n).root countUp=.ofNat 256 n := by
  induction n with
  | zero => rfl
  | succ n ih => simp [zeros,Tree.root,ih,countUp,BitVec.ofNat_add]

theorem zeros_hashed (h : x∈(zeros n).hashed countUp) : ∃ k<n,x=(.ofNat 256 k,.ofNat 256 k) := by
  induction n with
  | zero => cases h
  | succ n ih =>
    simp only [zeros,Tree.hashed,mem_cons,mem_append,or_self,zeros_root] at h
    obtain rfl | h := h
    · exact ⟨n,n.lt_succ_self,rfl⟩
    · obtain ⟨k,hk,hx⟩ := ih h
      exact ⟨k,hk.trans n.lt_succ_self,hx⟩

theorem zeros_leaves (h : a∈(zeros n).leaves) : a=0#256 := by
  induction n with
  | zero => exact mem_singleton.mp h
  | succ n ih => exact (mem_append.mp h).elim ih ih

theorem start_step (n : Nat) : ∃ s,countUp (beside (start (n+1)) s)=start n ∧
    Counted (beside (start (n+1)) s) := by
  by_cases hn : n≤20
  · have hlow : ∀ k<21,start (k+1)+1=start k ∧ start (k+1)≠-2#256 := by decide +kernel
    obtain ⟨hnext,hne⟩ := hlow n (by omega)
    exact ⟨(start (n+1),true),by simpa [beside,countUp] using hnext,.inl ⟨rfl,hne⟩⟩
  · have hstart : start (n+1)=-1#256 ∧ start n=-1#256 := ⟨if_neg (by omega),if_neg hn⟩
    rw [hstart.1,hstart.2]
    exact ⟨(0#256,true),by decide,.inr rfl⟩

theorem start_path (n : Nat) : ∃ p : List (BitVec 256×Bool),p.length=n ∧
    climb countUp (start n) p=20#256 ∧ ∀ x∈climbed countUp (start n) p,Counted x := by
  induction n with
  | zero => exact ⟨[],rfl,rfl,nofun⟩
  | succ n ih =>
    obtain ⟨p,hlength,hroot,hall⟩ := ih
    obtain ⟨s,hnext,hs⟩ := start_step n
    refine ⟨s::p,by rw [length_cons,hlength],by rw [climb,foldl_cons,hnext]; exact hroot,?_⟩
    rw [climbed,hnext]
    exact forall_mem_cons.mpr ⟨hs,hall⟩

theorem accepted_beside_leaves {n : Nat} (hn : n≠merkleTreeDepth) : ∃ p :
    MerklePath,p.siblings.length=n ∧
    NoCollision (compress countHash) ((zeros merkleTreeDepth).hashed (compress countHash)++
      p.hashed countHash (start n)) ∧
    verifyMerkleProof countHash (start n) p ((zeros merkleTreeDepth).root (compress countHash))=
      true ∧ start n∉(zeros merkleTreeDepth).leaves := by
  obtain ⟨path,hlength,hroot,hall⟩ := start_path n
  let p : MerklePath := ⟨path.map Prod.fst,path.map fun s => if s.2 then 0#8 else 1#8⟩
  have hsteps : path=p.steps := by
    refine zip_of_prod rfl ?_
    rw [map_map]
    exact map_congr_left fun s _ => by cases hs : s.2 <;> simp [hs]
  refine ⟨p,by rw [length_map,hlength],?_,verifyMerkleProof_iff.mpr ⟨by simp [p],?_⟩,fun hmem => ?_⟩
  · rw [MerklePath.hashed,compress_countHash,← hsteps]
    have hlow : ∀ k<20,BitVec.ofNat 256 k≠-2#256 := by decide
    have hcounted : ∀ x∈(zeros merkleTreeDepth).hashed countUp++climbed countUp (start n) path,
        Counted x := by
      refine forall_mem_append.mpr ⟨fun x hx => ?_,hall⟩
      obtain ⟨k,hk,rfl⟩ := zeros_hashed hx
      exact .inl ⟨rfl,hlow k hk⟩
    exact fun x hx y hy => countUp_inj (hcounted x hx) (hcounted y hy)
  · rw [← hsteps,compress_countHash,hroot,zeros_root]
    rfl
  · have hstart : start n≠0#256 := by
      by_cases hle : n≤20
      · have hlow : ∀ k<20,start k≠0#256 := by decide
        exact hlow n (by unfold merkleTreeDepth at hn; omega)
      · rw [start,if_neg hle]
        decide
    exact hstart (zeros_leaves hmem)

/-- A right leaf, with its index written in two ways. -/
theorem right_leaf_bound : ∃ a b p q,verifyMerkleProof countHash a p 1#256=true ∧
    verifyMerkleProof countHash b q 1#256=true ∧ p.pathIndices≠q.pathIndices ∧ a=b ∧
    p.siblings=q.siblings := by
  have hp : verifyMerkleProof countHash 0#256 ⟨[0#256],[1#8]⟩ 1#256=true := by decide +kernel
  have hq : verifyMerkleProof countHash 0#256 ⟨[0#256],[2#8]⟩ 1#256=true := by decide +kernel
  refine ⟨_,_,_,_,hp,hq,by decide,(merkle_proofs_complete_and_binding countHash).2 _ _ _ _ _ hp hq
    (by decide) fun x hx y hy _ => ?_⟩
  simp_all [MerklePath.hashed,MerklePath.steps,climbed,beside]

/-- With no collision, only leaves are accepted exactly by the paths as long as the tree is deep.
The program does not check the length. -/
theorem accepts_only_leaves_iff (n : Nat) :
    (∀ (hash : List Byte → BitVec 256) (t : Tree (BitVec 256) merkleTreeDepth) (value : BitVec 256)
      (p : MerklePath),NoCollision (compress hash) (t.hashed (compress hash)++p.hashed hash value) →
      p.siblings.length=n →
      verifyMerkleProof hash value p (t.root (compress hash))=true → value∈t.leaves) ↔
    n=merkleTreeDepth := by
  constructor
  · intro hall
    by_contra hn
    obtain ⟨p,hlength,hnc,haccepted,hnot⟩ := accepted_beside_leaves hn
    exact hnot (hall _ _ _ p hnc hlength haccepted)
  · rintro rfl hash t value p hnc hlength haccepted
    obtain ⟨hequal,hroot⟩ := verifyMerkleProof_iff.mp haccepted
    refine t.mem_leaves_of_climb ?_ hnc hroot
    rw [MerklePath.steps,length_zip,length_map,← hequal,Nat.min_self,hlength]

/-- The root itself is accepted with the empty path. -/
theorem root_accepted_as_leaf : NoCollision (compress countHash)
      ((zeros merkleTreeDepth).hashed (compress countHash)) ∧
    verifyMerkleProof countHash 20#256 ⟨[],[]⟩ ((zeros merkleTreeDepth).root (compress countHash))=
      true ∧ 20#256∉(zeros merkleTreeDepth).leaves := by
  obtain ⟨p,_,hnc,-,hnot⟩ := accepted_beside_leaves (n := 0) (by decide)
  refine ⟨hnc.mono (subset_append_left _ _),verifyMerkleProof_iff.mpr ⟨rfl,?_⟩,hnot⟩
  rw [compress_countHash,zeros_root]
  rfl

end Counting

end PrismChain.Privacy
