import Mathlib.Tactic

namespace PrismChain

open List

/-- `f` sends no two of these inputs to one value. -/
def NoCollision (f : α → β) (inputs : List α) : Prop :=
  ∀ x∈inputs,∀ y∈inputs,f x=f y → x=y

theorem NoCollision.mono (h : NoCollision f xs) (hsub : ys ⊆ xs) : NoCollision f ys :=
  fun x hx y hy => h x (hsub hx) y (hsub hy)

namespace Merkle

/-- The perfect binary trees of a depth, with a label on every leaf. -/
inductive Tree (α : Type) : Nat → Type
  | leaf (a : α) : Tree α 0
  | node (l r : Tree α n) : Tree α (n+1)

variable {α : Type} (f : α×α → α)

namespace Tree

def root : Tree α n → α
  | leaf a => a
  | node l r => f (l.root,r.root)

def leaves : Tree α n → List α
  | leaf a => [a]
  | node l r => l.leaves++r.leaves

/-- The pairs that the labels of the inner nodes are computed from. -/
def hashed : Tree α n → List (α×α)
  | leaf _ => []
  | node l r => (l.root f,r.root f)::(l.hashed++r.hashed)

/-- Each leaf with the siblings on its way to the root, lowest first. A sibling is marked when it is
the right one. -/
def paths : Tree α n → List (α×List (α×Bool))
  | leaf a => [(a,[])]
  | node l r => l.paths.map (fun x => (x.1,x.2++[(r.root f,true)]))++
      r.paths.map fun x => (x.1,x.2++[(l.root f,false)])

end Tree

def beside (a : α) (s : α×Bool) : α×α := if s.2 then (a,s.1) else (s.1,a)

/-- The label at the end of a path that starts from `a`. -/
def climb (a : α) (p : List (α×Bool)) : α := p.foldl (fun a s => f (beside a s)) a

/-- The pairs combined along the path. -/
def climbed : α → List (α×Bool) → List (α×α)
  | _,[] => []
  | a,s::p => beside a s::climbed (f (beside a s)) p

variable {f}

theorem climb_concat : climb f a (p++[s])=f (beside (climb f a p) s) := by
  rw [climb,foldl_concat]
  rfl

theorem climbed_append : climbed f a (p++q)=climbed f a p++climbed f (climb f a p) q := by
  induction p generalizing a with
  | nil => rfl
  | cons _ p ih => exact congrArg _ ih

theorem beside_inj {s s' : α×Bool} (h : beside a s=beside a' s') (hside : s.2=s'.2) :
    a=a' ∧ s=s' := by
  obtain ⟨x,side⟩ := s
  obtain ⟨y,side'⟩ := s'
  obtain rfl : side=side' := hside
  cases side <;> simp_all [beside]

theorem Tree.paths_leaves (t : Tree α n) : (t.paths f).map Prod.fst=t.leaves := by
  induction t with
  | leaf => rfl
  | node _ _ ihl ihr =>
    rw [Tree.leaves,← ihl,← ihr,Tree.paths,map_append,map_map,map_map]
    rfl

/-- The path of a leaf leads to the root. -/
theorem Tree.climb_paths (t : Tree α n) : ∀ x∈t.paths f,climb f x.1 x.2=t.root f := by
  induction t with
  | leaf => simp [Tree.paths,climb,Tree.root]
  | node _ _ ihl ihr =>
    intro x hx
    rw [Tree.paths,mem_append,mem_map,mem_map] at hx
    obtain ⟨y,hy,rfl⟩ | ⟨y,hy,rfl⟩ := hx
    · rw [climb_concat,ihl y hy]
      rfl
    · rw [climb_concat,ihr y hy]
      rfl

/-- A path as long as the tree is deep that leads to the root starts from a leaf. -/
theorem Tree.mem_leaves_of_climb (t : Tree α n) (hlength : p.length=n)
    (hnc : NoCollision f (t.hashed f++climbed f a p)) (hroot : climb f a p=t.root f) :
    a∈t.leaves := by
  induction t generalizing p with
  | leaf b =>
    obtain rfl := length_eq_zero_iff.mp hlength
    exact mem_singleton.mpr hroot
  | node l r ihl ihr =>
    -- the path is taken apart at the root, where the tree is
    obtain rfl | ⟨q,s,rfl⟩ := eq_nil_or_concat p
    · cases hlength
    rw [concat_eq_append] at hlength hroot hnc
    rw [length_append,length_singleton,Nat.add_right_cancel_iff] at hlength
    rw [climb_concat] at hroot
    rw [climbed_append] at hnc
    have htop : beside (climb f a q) s=(l.root f,r.root f) :=
      hnc _ (by simp [climbed]) _ (by simp [Tree.hashed]) hroot
    obtain ⟨b,side⟩ := s
    cases side with
    | true =>
      refine mem_append_left _ (ihl hlength (hnc.mono ?_) (Prod.mk.inj htop).1)
      grind [Tree.hashed]
    | false =>
      refine mem_append_right _ (ihr hlength (hnc.mono ?_) (Prod.mk.inj htop).2)
      grind [Tree.hashed]

/-- Two paths that turn the same way at every level and lead to one label are the same path. -/
theorem climb_inj (hsides : p.map Prod.snd=q.map Prod.snd)
    (hnc : NoCollision f (climbed f a p++climbed f b q)) (h : climb f a p=climb f b q) :
    a=b ∧ p=q := by
  induction p generalizing a b q with
  | nil =>
    obtain rfl := map_eq_nil_iff.mp hsides.symm
    exact ⟨h,rfl⟩
  | cons _ p ih =>
    obtain ⟨_,q,rfl,hside,hsides⟩ := map_eq_cons_iff.mp hsides.symm
    obtain ⟨hnext,rfl⟩ := ih hsides.symm (hnc.mono (by grind [climbed])) h
    have hpair := hnc _ (by simp [climbed]) _ (by simp [climbed]) hnext
    obtain ⟨rfl,rfl⟩ := beside_inj hpair hside.symm
    exact ⟨rfl,rfl⟩

end Merkle

end PrismChain
