/-! # Search trees

A search tree keeps entries under keys, at most eleven of them in a node, and grows at its root when
nodes are split. A search meets the entries of a node from the left. It stops at a key that is equal
to its own, goes on behind a smaller one and goes down before a greater one. The order of keys need
not be transitive: which keys are told apart then depends on those that a search meets.

An entry that comes behind all others in the order of keys is the last one of the tree. -/

namespace Modem

mutual

/-- A tree is empty or has a node, whose row alternates between trees and entries. -/
inductive SearchTree (κ ν : Type) where
  | empty
  | node (row : SearchTree.Row κ ν)

inductive SearchTree.Row (κ ν : Type) where
  | last (below : SearchTree κ ν)
  | entry (below : SearchTree κ ν) (key : κ) (value : ν) (rest : SearchTree.Row κ ν)

end

namespace SearchTree

variable {κ ν : Type}

/-! ## Entries -/

mutual

/-- All entries from left to right. -/
def toList : SearchTree κ ν → List (κ × ν)
  | empty => []
  | node row => row.toList

def Row.toList : Row κ ν → List (κ × ν)
  | .last below => below.toList
  | .entry below key value rest => below.toList ++ (key, value) :: rest.toList

end

namespace Row

/-- How many entries stand in the row itself. -/
def size : Row κ ν → Nat
  | last _ => 0
  | entry _ _ _ rest => rest.size + 1

/-- The entry at an index, and the rows on both sides of it. -/
def splitAt? : Nat → Row κ ν → Option (Row κ ν × (κ × ν) × Row κ ν)
  | _, last _ => none
  | 0, entry below key value rest => some (last below, (key, value), rest)
  | i + 1, entry below key value rest =>
    (rest.splitAt? i).map fun (left, middle, right) =>
      (entry below key value left, middle, right)

theorem toList_of_splitAt? {i : Nat} {row left right : Row κ ν} {middle : κ × ν}
    (split : row.splitAt? i = some (left, middle, right)) :
    row.toList = left.toList ++ middle :: right.toList := by
  fun_induction splitAt? i row generalizing left middle right with
  | case1 => simp at split
  | case2 below key value rest =>
    simp only [Option.some.injEq, Prod.mk.injEq] at split
    obtain ⟨rfl, rfl, rfl⟩ := split
    simp [toList]
  | case3 i below key value rest ih =>
    obtain ⟨⟨inner, found, behind⟩, split', parts⟩ := Option.map_eq_some_iff.1 split
    simp only [Prod.mk.injEq] at parts
    obtain ⟨rfl, rfl, rfl⟩ := parts
    simp [toList, ih split']

end Row

/-! ## Growth -/

/-- What a tree becomes when an entry is put in: a tree of the same height, or an entry between two
of them. -/
inductive Grown (κ ν : Type) where
  | whole (tree : SearchTree κ ν)
  | parted (left : SearchTree κ ν) (key : κ) (value : ν) (right : SearchTree κ ν)

/-- A row that has been searched, and the index of the entry that came in, if one did. -/
structure Searched (κ ν : Type) where
  row : Row κ ν
  added : Option Nat

/-- How many entries a node holds. -/
def capacity : Nat := 11

/-- The index at which a node is split that has one entry too many. It is one of the two in the
middle, the nearer to the entry that came in, but never that entry's own. -/
def splitIndex (added : Nat) : Nat := if added < 5 ∨ added = 6 then 5 else 6

theorem splitIndex_ne (added : Nat) : splitIndex added ≠ added := by
  unfold splitIndex
  split <;> omega

namespace Grown

def toList : Grown κ ν → List (κ × ν)
  | whole tree => tree.toList
  | parted left key value right => left.toList ++ (key, value) :: right.toList

/-- The tree by itself. -/
def root : Grown κ ν → SearchTree κ ν
  | whole tree => tree
  | parted left key value right => node (.entry left key value (.last right))

/-- The tree at the front of a row. -/
def before (grown : Grown κ ν) (behind : SearchTree κ ν → Row κ ν) : Searched κ ν :=
  match grown with
  | whole tree => ⟨behind tree, none⟩
  | parted left key value right => ⟨.entry left key value (behind right), some 0⟩

theorem toList_root (grown : Grown κ ν) : grown.root.toList = grown.toList := by
  cases grown <;> simp [root, toList, SearchTree.toList, Row.toList]

theorem toList_before {grown : Grown κ ν} {behind : SearchTree κ ν → Row κ ν}
    {more : List (κ × ν)} (front : ∀ tree, (behind tree).toList = tree.toList ++ more) :
    (grown.before behind).row.toList = grown.toList ++ more := by
  cases grown <;> simp [before, toList, Row.toList, front]

end Grown

/-- The node of a row, split if an entry came in that it cannot hold. -/
def Searched.close (searched : Searched κ ν) : Grown κ ν :=
  match searched.added with
  | none => .whole (node searched.row)
  | some added =>
    if searched.row.size ≤ capacity then .whole (node searched.row)
    else
      match searched.row.splitAt? (splitIndex added) with
      | some (left, (key, value), right) => .parted (node left) key value (node right)
      | none => .whole (node searched.row)

theorem Searched.toList_close (searched : Searched κ ν) :
    searched.close.toList = searched.row.toList := by
  unfold close
  split
  · rfl
  · split
    · rfl
    · split
      · next found => simp [Grown.toList, SearchTree.toList, Row.toList_of_splitAt? found]
      · rfl

/-! ## Insertion -/

section

variable (order : κ → κ → Ordering) (key : κ) (value : ν)

mutual

def grow : SearchTree κ ν → Grown κ ν
  | empty => .parted empty key value empty
  | node row => row.search.close

/-- A key that is there already stays and gets the new value. -/
def Row.search : Row κ ν → Searched κ ν
  | .last below => below.grow.before .last
  | .entry below k v rest =>
    match order key k with
    | .lt => below.grow.before (.entry · k v rest)
    | .eq => ⟨.entry below k value rest, none⟩
    | .gt =>
      let ⟨rest, added⟩ := rest.search
      ⟨.entry below k v rest, added.map (· + 1)⟩

end

/-- Puts an entry into a tree. -/
def insert (tree : SearchTree κ ν) : SearchTree κ ν := (tree.grow order key value).root

mutual

theorem toList_grow_of_gt {tree : SearchTree κ ν}
    (behind : ∀ e ∈ tree.toList, order key e.1 = .gt) :
    (tree.grow order key value).toList = tree.toList ++ [(key, value)] :=
  match tree with
  | empty => by simp [grow, Grown.toList, toList]
  | node row => by
    simp only [toList] at behind
    simp [grow, Searched.toList_close, toList, Row.toList_search_of_gt behind]

theorem Row.toList_search_of_gt {row : Row κ ν}
    (behind : ∀ e ∈ row.toList, order key e.1 = .gt) :
    (row.search order key value).row.toList = row.toList ++ [(key, value)] :=
  match row with
  | .last below => by
    simp only [Row.toList] at behind
    have alone (tree : SearchTree κ ν) : (Row.last tree).toList = tree.toList ++ [] := by
      simp [Row.toList]
    rw [Row.search, Row.toList, Grown.toList_before alone, toList_grow_of_gt behind,
      List.append_nil]
  | .entry below k v rest => by
    simp only [Row.toList, List.mem_append, List.mem_cons] at behind
    have here : order key k = .gt := behind (k, v) (.inr (.inl rfl))
    have there := Row.toList_search_of_gt fun e inRest => behind e (.inr (.inr inRest))
    simp [Row.search, Row.toList, here, there]

end

/-- An entry behind all others comes last. -/
theorem toList_insert_of_gt {tree : SearchTree κ ν}
    (behind : ∀ e ∈ tree.toList, order key e.1 = .gt) :
    (tree.insert order key value).toList = tree.toList ++ [(key, value)] := by
  rw [insert, Grown.toList_root, toList_grow_of_gt order key value behind]

end

end SearchTree

end Modem
