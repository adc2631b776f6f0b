import Mathlib.Data.List.Basic
import Mathlib.Logic.Function.Iterate
import Mathlib.Order.Nat

/-!
# Blocks that name their predecessors

When a hash determines the block and the block names its predecessor, a block at
a known height determines everything below it. A branch is then known by its
tip, and two blocks are on one branch or on none.
-/

namespace EmvaultCore.Library

@[ext] structure Located (Hash : Type*) where
  height : Nat
  hash : Hash
deriving DecidableEq, Repr

namespace Located

variable {Hash : Type*} (prev : Hash → Hash)

def ancestor (block : Located Hash) (height : Nat) : Hash :=
  prev^[block.height - height] block.hash

def OnBranch (block tip : Located Hash) : Prop :=
  block.height ≤ tip.height ∧ tip.ancestor prev block.height = block.hash

def Compatible (left right : Located Hash) : Prop :=
  OnBranch prev left right ∨ OnBranch prev right left

instance [DecidableEq Hash] {block tip : Located Hash} : Decidable (OnBranch prev block tip) :=
  inferInstanceAs (Decidable (_ ∧ _))

instance [DecidableEq Hash] {left right : Located Hash} : Decidable (Compatible prev left right) :=
  inferInstanceAs (Decidable (_ ∨ _))

def branch : Nat → Hash → List (Located Hash)
  | 0, hash => [⟨0, hash⟩]
  | height + 1, hash => ⟨height + 1, hash⟩ :: branch height (prev hash)

/-- Blocks of one branch from its tip down, of which some may be left out. -/
def Sparse (blocks : List (Located Hash)) : Prop :=
  blocks.Pairwise fun upper lower => lower.height < upper.height ∧ OnBranch prev lower upper

variable {prev} {block tip left right other : Located Hash}

@[simp] theorem ancestor_self (block : Located Hash) :
    block.ancestor prev block.height = block.hash := by
  rw [ancestor, Nat.sub_self, Function.iterate_zero, id]

@[simp] theorem ancestor_mk (height : Nat) (hash : Hash) :
    (⟨height, hash⟩ : Located Hash).ancestor prev height = hash :=
  ancestor_self (⟨height, hash⟩ : Located Hash)

theorem ancestor_succ {height : Nat} {hash : Hash} {lower : Nat} (below : lower ≤ height) :
    (⟨height + 1, hash⟩ : Located Hash).ancestor prev lower =
      (⟨height, prev hash⟩ : Located Hash).ancestor prev lower := by
  have steps : height + 1 - lower = (height - lower) + 1 := by omega
  simp only [ancestor, steps, Function.iterate_succ_apply]

theorem ancestor_of_on_branch (on : OnBranch prev block tip) {height : Nat}
    (below : height ≤ block.height) :
    tip.ancestor prev height = block.ancestor prev height := by
  have steps : tip.height - height = (block.height - height) + (tip.height - block.height) := by
    have bound := on.1
    omega
  rw [ancestor, steps, Function.iterate_add_apply]
  exact congrArg _ on.2

theorem prev_ancestor {height : Nat} (below : height + 1 ≤ tip.height) :
    prev (tip.ancestor prev (height + 1)) = tip.ancestor prev height := by
  have steps : tip.height - height = (tip.height - (height + 1)) + 1 := by omega
  rw [ancestor, ancestor, steps, Function.iterate_succ_apply']

theorem on_branch_refl (block : Located Hash) : OnBranch prev block block :=
  ⟨le_refl _, ancestor_self block⟩

theorem on_branch_prev (height : Nat) (hash : Hash) :
    OnBranch prev ⟨height, prev hash⟩ ⟨height + 1, hash⟩ :=
  ⟨Nat.le_succ height, (ancestor_succ (le_refl height)).trans (ancestor_mk _ _)⟩

theorem on_branch_trans (low : OnBranch prev left right) (high : OnBranch prev right tip) :
    OnBranch prev left tip :=
  ⟨low.1.trans high.1, (ancestor_of_on_branch high low.1).trans low.2⟩

theorem on_branch_ancestor {height : Nat} (below : height ≤ tip.height) :
    OnBranch prev ⟨height, tip.ancestor prev height⟩ tip :=
  ⟨below, rfl⟩

theorem on_branch_of_le (low : OnBranch prev left tip) (high : OnBranch prev right tip)
    (below : left.height ≤ right.height) : OnBranch prev left right :=
  ⟨below, (ancestor_of_on_branch high below).symm.trans low.2⟩

theorem compatible_of_on_branch (on : OnBranch prev block tip)
    (compatible : Compatible prev other tip) : Compatible prev other block := by
  rcases compatible with lower | higher
  · rcases le_total other.height block.height with below | above
    · exact .inl (on_branch_of_le lower on below)
    · exact .inr (on_branch_of_le on lower above)
  · exact .inr (on_branch_trans on higher)

theorem mem_branch {height : Nat} {hash : Hash} :
    block ∈ branch prev height hash ↔ OnBranch prev block ⟨height, hash⟩ := by
  induction height generalizing hash with
  | zero =>
      rw [branch, List.mem_singleton, OnBranch]
      constructor
      · rintro rfl
        exact ⟨le_refl _, ancestor_self _⟩
      · rintro ⟨bound, same⟩
        have level : block.height = 0 := Nat.le_zero.mp bound
        rw [level] at same
        exact Located.ext level (same.symm.trans (ancestor_self _))
  | succ height ih =>
      rw [branch, List.mem_cons, ih]
      constructor
      · rintro (rfl | lower)
        · exact on_branch_refl _
        · exact ⟨Nat.le_succ_of_le lower.1, (ancestor_succ lower.1).trans lower.2⟩
      · rintro ⟨bound, same⟩
        rcases Nat.lt_or_eq_of_le bound with lower | level
        · have below : block.height ≤ height := Nat.le_of_lt_succ lower
          exact .inr ⟨below, (ancestor_succ below).symm.trans same⟩
        · dsimp only at level
          rw [level] at same
          exact .inl (Located.ext level (same.symm.trans (ancestor_self _)))

theorem head_branch (height : Nat) (hash : Hash) :
    (branch prev height hash).head? = some ⟨height, hash⟩ := by
  cases height with
  | zero => rfl
  | succ height => rfl

theorem drop_branch {height lower : Nat} {hash : Hash} (below : lower ≤ height) :
    (branch prev height hash).dropWhile (fun block => lower < block.height) =
      branch prev lower ((⟨height, hash⟩ : Located Hash).ancestor prev lower) := by
  induction height generalizing hash with
  | zero =>
      obtain rfl : lower = 0 := Nat.le_zero.mp below
      rfl
  | succ height ih =>
      rcases Nat.lt_or_eq_of_le below with strict | rfl
      · have within : lower ≤ height := Nat.le_of_lt_succ strict
        rw [branch, List.dropWhile_cons, if_pos (decide_eq_true strict), ih within,
          ancestor_succ within]
      · rw [ancestor_mk, branch, List.dropWhile_cons, if_neg (by simp)]

/-- The lowest block of a branch above a height. -/
theorem last_above {height lower : Nat} {hash : Hash} (below : lower < height) :
    ((branch prev height hash).takeWhile (fun block => lower < block.height)).getLast? =
      some ⟨lower + 1, (⟨height, hash⟩ : Located Hash).ancestor prev (lower + 1)⟩ := by
  induction height generalizing hash with
  | zero => omega
  | succ height ih =>
      rw [branch, List.takeWhile_cons, if_pos (decide_eq_true below)]
      rcases Nat.lt_or_eq_of_le (Nat.le_of_lt_succ below) with strict | rfl
      · have later := @ih (prev hash) strict
        rw [List.getLast?_cons, later, Option.getD_some, ancestor_succ strict]
      · have none : (branch prev lower (prev hash)).takeWhile
            (fun block => lower < block.height) = [] := by
          cases lower <;> simp [branch]
        rw [none, ancestor_mk]
        rfl

/-- A search from the tip down finds the highest match. -/
theorem find_branch {holds : Located Hash → Bool} {height : Nat} {hash : Hash}
    (found : (branch prev height hash).find? holds = some block) :
    OnBranch prev block ⟨height, hash⟩ ∧ holds block = true ∧
      ∀ higher, OnBranch prev higher ⟨height, hash⟩ → block.height < higher.height →
        holds higher = false := by
  induction height generalizing hash with
  | zero =>
      have listed := List.mem_of_find?_eq_some found
      have on := mem_branch.mp listed
      refine ⟨on, List.find?_some found, ?_⟩
      intro higher within above
      have bound := within.1
      dsimp only at bound
      omega
  | succ height ih =>
      refine ⟨mem_branch.mp (List.mem_of_find?_eq_some found), List.find?_some found, ?_⟩
      intro higher within above
      rw [branch, List.find?_cons] at found
      split at found
      · obtain rfl := Option.some.inj found
        have bound := within.1
        dsimp only at bound above
        omega
      · have listed : higher ∈ branch prev (height + 1) hash := mem_branch.mpr within
        rw [branch, List.mem_cons] at listed
        rcases listed with rfl | lower
        · simpa using by assumption
        · exact (ih found).2.2 higher (mem_branch.mp lower) above

/-! ### Sparse branches -/

section Sparse

variable {blocks update : List (Located Hash)}

theorem sparse_singleton (block : Located Hash) : Sparse prev [block] :=
  List.pairwise_singleton _ _

theorem sparse_cons {rest : List (Located Hash)} (below : left.height < right.height)
    (on : OnBranch prev left right) (sparse : Sparse prev (left :: rest)) :
    Sparse prev (right :: left :: rest) := by
  apply List.pairwise_cons.mpr
  refine ⟨?_, sparse⟩
  intro lower member
  rcases List.mem_cons.mp member with rfl | deeper
  · exact ⟨below, on⟩
  · have under := List.rel_of_pairwise_cons sparse deeper
    exact ⟨Nat.lt_trans under.1 below, on_branch_trans under.2 on⟩

theorem sparse_branch (height : Nat) (hash : Hash) : Sparse prev (branch prev height hash) := by
  induction height generalizing hash with
  | zero => exact sparse_singleton _
  | succ height ih =>
      apply List.pairwise_cons.mpr
      refine ⟨?_, ih (prev hash)⟩
      intro lower member
      have on := mem_branch.mp member
      exact ⟨Nat.lt_succ_of_le on.1, Nat.le_succ_of_le on.1, (ancestor_succ on.1).trans on.2⟩

theorem on_branch_of_sparse (sparse : Sparse prev blocks) (low : left ∈ blocks)
    (high : right ∈ blocks) (below : left.height ≤ right.height) : OnBranch prev left right := by
  induction blocks with
  | nil => simp at low
  | cons head rest ih =>
      rcases List.mem_cons.mp high with rfl | under
      · rcases List.mem_cons.mp low with rfl | lower
        · exact on_branch_refl _
        · exact (List.rel_of_pairwise_cons sparse lower).2
      · rcases List.mem_cons.mp low with rfl | lower
        · have strict := (List.rel_of_pairwise_cons sparse under).1
          omega
        · exact ih sparse.of_cons lower under

theorem eq_of_sparse (sparse : Sparse prev blocks) (first : left ∈ blocks)
    (second : right ∈ blocks) (level : left.height = right.height) : left = right := by
  have on := on_branch_of_sparse sparse first second (Nat.le_of_eq level)
  apply Located.ext level
  rw [← on.2, level, ancestor_self]

theorem below_of_sparse (sparse : Sparse prev blocks) (top : blocks.head? = some tip)
    (member : block ∈ blocks) : OnBranch prev block tip := by
  apply on_branch_of_sparse sparse member (List.mem_of_head? top)
  cases blocks with
  | nil => simp at top
  | cons head rest =>
      obtain rfl : head = tip := by simpa using top
      rcases List.mem_cons.mp member with rfl | lower
      · exact le_refl _
      · exact Nat.le_of_lt (List.rel_of_pairwise_cons sparse lower).1

theorem height_of_drop (sparse : Sparse prev blocks) {height : Nat}
    (member : block ∈ blocks.dropWhile (fun block => height < block.height)) :
    block.height ≤ height := by
  induction blocks with
  | nil => simp at member
  | cons head rest ih =>
      rw [List.dropWhile_cons] at member
      split at member
      · exact ih sparse.of_cons member
      · rename_i low
        have bound : head.height ≤ height := by simpa using low
        rcases List.mem_cons.mp member with rfl | lower
        · exact bound
        · have strict := (List.rel_of_pairwise_cons sparse lower).1
          omega

/-- Two sparse branches that share a block join there. -/
theorem sparse_join (upper : Sparse prev update) (lower : Sparse prev blocks)
    (above : block ∈ update) (below : block ∈ blocks) :
    Sparse prev (update.filter (fun other => block.height < other.height) ++
      blocks.dropWhile (fun other => block.height < other.height)) := by
  apply List.pairwise_append.mpr
  refine ⟨upper.sublist List.filter_sublist, lower.sublist (List.dropWhile_sublist _), ?_⟩
  intro high kept low dropped
  have higher : block.height < high.height := by simpa using (List.mem_filter.mp kept).2
  have lowest : low.height ≤ block.height := height_of_drop lower dropped
  have onHigh := on_branch_of_sparse upper above (List.mem_filter.mp kept).1 (Nat.le_of_lt higher)
  have onBlock := on_branch_of_sparse lower ((List.dropWhile_sublist _).subset dropped) below lowest
  exact ⟨Nat.lt_of_le_of_lt lowest higher, on_branch_trans onBlock onHigh⟩

end Sparse

end Located

end EmvaultCore.Library
