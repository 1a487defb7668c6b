import Lowering.Proofs.Reading

/-!
# The first error of a syntax tree

The search for the first error goes through a tree in pre-order and passes over every subtree whose
root is neither flagged nor faulty itself. Flags may be set without cause: a flagged subtree can
turn out to hold nothing, and then the search goes on behind it. All that it needs is that no node
above a faulty one lacks its flag.

* `Syntax.Flagged`: the trees in which every node above a faulty one is flagged;
* `Syntax.firstError_eq_find?`: in such a tree the search finds what is found by looking at all
  nodes in pre-order;
* `Syntax.firstError_first_in_preorder`: so it finds the first faulty node below any node of the
  tree, or nothing if there is none, and a script is broken where that node starts.
-/

namespace Lowering

namespace Syntax

/-! ## Flags -/

/-- A tree in which every node with a faulty node below it is flagged. -/
def Flagged (tree : Syntax) : Prop :=
  ∀ n ∈ tree.walkNode, (∃ m ∈ walk n.children, m.isFaulty = true) → n.hasError = true

instance (tree : Syntax) : Decidable tree.Flagged :=
  inferInstanceAs (Decidable (∀ n ∈ _, _))

theorem walkNode_eq (n : Syntax) : n.walkNode = n :: walk n.children := by
  obtain ⟨⟩ := n
  rfl

mutual

theorem mem_walkNode_trans {m n : Syntax} (hm : m ∈ n.walkNode) :
    (tree : Syntax) → n ∈ tree.walkNode → m ∈ tree.walkNode
  | ⟨kind, named, isError, isMissing, hasError, start, stop, row, children⟩, hn => by
    rw [walkNode, List.mem_cons] at hn
    rcases hn with rfl | hn
    · exact hm
    · rw [walkNode]
      exact List.mem_cons_of_mem _ (mem_walk_trans hm children hn)

theorem mem_walk_trans {m n : Syntax} (hm : m ∈ n.walkNode) :
    (nodes : List Syntax) → n ∈ walk nodes → m ∈ walk nodes
  | [], hn => by cases hn
  | tree :: rest, hn => by
    rw [walk, List.mem_append] at hn ⊢
    exact hn.imp (mem_walkNode_trans hm tree) (mem_walk_trans hm rest)

end

theorem Flagged.of_mem {tree n : Syntax} (h : tree.Flagged) (hn : n ∈ tree.walkNode) :
    n.Flagged := by
  intro m hm
  exact h m (mem_walkNode_trans hm tree hn)

theorem Flagged.of_mem_children {tree n : Syntax} (h : tree.Flagged) (hn : n ∈ tree.children) :
    n.Flagged :=
  h.of_mem (mem_walkNode_of_mem_children hn)

/-- Nothing is lost where a subtree is passed over. -/
theorem find?_walkNode_of_unflagged {n : Syntax} (h : n.Flagged) (hflag : n.hasError = false)
    (hfault : n.isFaulty = false) : n.walkNode.find? isFaulty = none := by
  rw [List.find?_eq_none, walkNode_eq]
  intro m hm hfaulty
  rcases List.mem_cons.mp hm with rfl | hbelow
  · rw [hfault] at hfaulty
    cases hfaulty
  · have hset : n.hasError = true := h n (mem_walkNode_self n) ⟨m, hbelow, hfaulty⟩
    rw [hflag] at hset
    cases hset

/-! ## The search -/

theorem firstErrorIn_cons (n : Syntax) (rest : List Syntax) :
    firstErrorIn (n :: rest) =
      if n.hasError || n.isFaulty then n.firstError.or (firstErrorIn rest)
      else firstErrorIn rest := by
  rw [firstErrorIn]
  cases n.firstError <;> rfl

mutual

theorem firstError_eq_find? :
    (tree : Syntax) → tree.Flagged → tree.firstError = tree.walkNode.find? isFaulty
  | ⟨kind, named, isError, isMissing, hasError, start, stop, row, children⟩, h => by
    have hbelow : firstErrorIn children = (walk children).find? isFaulty :=
      firstErrorIn_eq_find? children fun n hn => h.of_mem_children hn
    rw [firstError, walkNode, List.find?_cons, isFaulty, hbelow]
    cases isError || isMissing <;> rfl

theorem firstErrorIn_eq_find? :
    (nodes : List Syntax) → (∀ n ∈ nodes, n.Flagged) →
      firstErrorIn nodes = (walk nodes).find? isFaulty
  | [], _ => rfl
  | n :: rest, h => by
    obtain ⟨hn, hrest⟩ := List.forall_mem_cons.mp h
    have hhead : n.firstError = n.walkNode.find? isFaulty := firstError_eq_find? n hn
    have htail : firstErrorIn rest = (walk rest).find? isFaulty := firstErrorIn_eq_find? rest hrest
    rw [firstErrorIn_cons, walk, List.find?_append, hhead, htail]
    split
    · rfl
    · rename_i hskip
      obtain ⟨hflag, hfault⟩ : n.hasError = false ∧ n.isFaulty = false := by
        simpa using hskip
      rw [find?_walkNode_of_unflagged hn hflag hfault, Option.none_or]

end

/-- Below any node of a flagged tree the search finds the first faulty node in pre-order, the node
itself included, and nothing exactly if there is none. A script with such a tree is broken at the
point of that node. -/
theorem firstError_first_in_preorder (tree : Syntax) (h : tree.Flagged) :
    (∀ n ∈ tree.walkNode,
      (∀ found, n.firstError = some found ↔
        found.isFaulty = true ∧ ∃ before after, n.walkNode = before ++ found :: after ∧
          ∀ m ∈ before, m.isFaulty = false) ∧
      (n.firstError = none ↔ ∀ m ∈ n.walkNode, m.isFaulty = false)) ∧
      ∀ source : String, tree.hasError = true →
        Script.ofSyntax source tree =
          .ok (match tree.walkNode.find? isFaulty with
            | some n => .broken n.row (n.column source)
            | none => .broken 0 0) := by
  constructor
  · intro n hn
    have hsearch : n.firstError = n.walkNode.find? isFaulty := firstError_eq_find? n (h.of_mem hn)
    constructor
    · intro found
      rw [hsearch, List.find?_eq_some_iff_append]
      simp only [Bool.not_eq_true']
    · rw [hsearch, List.find?_eq_none]
      simp only [Bool.not_eq_true]
  · intro source herror
    have henc : Utf8.encode (Text.ofString source) = .ok _ :=
      Utf8.encode_eq_ok_iff.mpr ⟨source.toList, rfl, rfl⟩
    rw [ofSyntax_of_hasError henc herror, errorPoint, firstError_eq_find? tree h]
    cases tree.walkNode.find? isFaulty <;> rfl

/-- A closing bracket that is missing from its source. -/
def missingBracket : Syntax :=
  { kind := ")", isMissing := true, start := 9, stop := 9, row := 1 }

/-- A tree with flags without cause in front of the missing bracket, on its own level and above, and
an error behind it. -/
def strayFlags : Syntax :=
  { kind := "program"
    hasError := true
    children :=
      [{ kind := "comment", hasError := true, children := [{ kind := "text", hasError := true }] },
        { kind := "identifier", children := [{ kind := "name" }] },
        { kind := "arguments"
          hasError := true
          children := [{ kind := "(", hasError := true }, missingBracket, { isError := true }] }] }

/-- The search leaves the flagged comment and the flagged bracket again, and stops at the missing one;
inside the comment it finds nothing. -/
theorem firstError_strayFlags :
    strayFlags.Flagged ∧ strayFlags.firstError = some missingBracket ∧
      (∀ n ∈ strayFlags.children.take 2, n.firstError = none) ∧
      Script.ofSyntax "x /**/;\n(" strayFlags = .ok (.broken 1 1) := by
  have hflagged : strayFlags.Flagged := by decide
  obtain ⟨hbelow, hbroken⟩ := firstError_first_in_preorder strayFlags hflagged
  have hnothing : ∀ n ∈ strayFlags.children.take 2, ∀ m ∈ n.walkNode, m.isFaulty = false := by
    decide
  have hcolumn : missingBracket.column "x /**/;\n(" = 1 := by decide +kernel
  refine ⟨hflagged, ?_, ?_, ?_⟩
  · refine ((hbelow strayFlags (mem_walkNode_self _)).1 missingBracket).mpr ⟨rfl, ?_⟩
    exact ⟨strayFlags.walkNode.take 7, strayFlags.walkNode.drop 8, rfl, by decide⟩
  · intro n hn
    have hchild : n ∈ strayFlags.walkNode := mem_walkNode_of_mem_children (List.mem_of_mem_take hn)
    exact (hbelow n hchild).2.mpr (hnothing n hn)
  · rw [hbroken _ rfl, ← hcolumn]
    rfl

end Syntax

end Lowering
