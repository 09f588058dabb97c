import Modem.Bus.Order
import Modem.SearchTree

/-! # Dictionaries

Entries are put into a dictionary one after the other, each at its place in the order of keys. A key
that is there already stays and gets the new value. Entries whose keys ascend stay as they are. -/

namespace Modem.Bus.Value

/-- Whether a second entry stands behind a first one in the order of keys. -/
abbrev Ascends (a b : Value × Value) : Prop := order b.1 a.1 = .gt

/-- A tree with further entries, put in one after the other. -/
def withEntries (tree : SearchTree Value Value) (entries : List (Value × Value)) :
    SearchTree Value Value :=
  entries.foldl (fun tree (key, value) => tree.insert order key value) tree

/-- The dictionary that comes of putting in entries one after the other. -/
def ofEntries (key value : Signature) (entries : List (Value × Value)) : Value :=
  dict key value (withEntries .empty entries).toList

theorem toList_withEntries {tree : SearchTree Value Value} {entries : List (Value × Value)}
    (ascending : (tree.toList ++ entries).Pairwise Ascends) :
    (withEntries tree entries).toList = tree.toList ++ entries := by
  induction entries generalizing tree with
  | nil => simp [withEntries]
  | cons entry rest ih =>
    have behind : ∀ e ∈ tree.toList, order entry.1 e.1 = .gt := fun e inTree =>
      (List.pairwise_append.1 ascending).2.2 e inTree entry List.mem_cons_self
    have grown := SearchTree.toList_insert_of_gt order entry.1 entry.2 behind
    have ascending' : ((tree.insert order entry.1 entry.2).toList ++ rest).Pairwise Ascends := by
      simpa [grown] using ascending
    simpa [grown, withEntries] using ih ascending'

theorem ofEntries_of_pairwise {key value : Signature} {entries : List (Value × Value)}
    (ascending : entries.Pairwise Ascends) :
    ofEntries key value entries = dict key value entries := by
  have same : (withEntries .empty entries).toList = entries := toList_withEntries ascending
  rw [ofEntries, same]

end Modem.Bus.Value
