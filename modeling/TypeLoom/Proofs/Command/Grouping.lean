/-
**Sources grouped by package.**

Filing sources one after the other builds the groups as it goes. What comes out in the end depends on
the names of the packages alone: they stand in the order in which they are first seen, and the sources
of one package in the order in which they were filed.

* `grouped` is that order for any items with a name, said without a table;
* `grouped_perm`: it lists every item as often as it is given;
* `Filed.add` is the step for one more source, and `trees_filed` the result for all of them.
-/

import Mathlib.Data.List.Basic
import Mathlib.Data.List.Perm.Basic
import Mathlib.Data.List.Nodup
import TypeLoom.Packages

namespace TypeLoom

section Grouping

variable {α β : Type}

/-- Items by name: the names in the order in which they are first seen, and the items of one name in
the order in which they are given. -/
def grouped (name : α → String) (items : List α) : List α :=
  (items.map name).eraseDups.flatMap fun key => items.filter fun item => name item == key

theorem grouped_map (name : β → String) (f : α → β) (items : List α) :
    grouped name (items.map f) = (grouped (name ∘ f) items).map f := by
  simp [grouped, List.map_flatMap, List.filter_map, Function.comp_def]

theorem mem_grouped {name : α → String} {items : List α} {item : α} :
    item ∈ grouped name items ↔ item ∈ items := by
  simp only [grouped, List.mem_flatMap, List.mem_eraseDups, List.mem_map, List.mem_filter,
    beq_iff_eq]
  constructor
  · rintro ⟨-, -, member, -⟩
    exact member
  · intro member
    exact ⟨name item, ⟨item, member, rfl⟩, member, rfl⟩

/-- The first item comes first, then the others of its name, then all of other names. -/
theorem grouped_cons (name : α → String) (item : α) (rest : List α) :
    grouped name (item :: rest) =
      item :: rest.filter (fun other => name other == name item) ++
        grouped name (rest.filter fun other => !name other == name item) := by
  have names : (rest.map name).filter (fun key => !key == name item) =
      (rest.filter fun other => !name other == name item).map name := by
    rw [List.filter_map]
    rfl
  unfold grouped
  rw [List.map_cons, List.eraseDups_cons, List.flatMap_cons, names]
  congr 1
  · simp
  · refine List.flatMap_congr fun key member => ?_
    simp only [List.mem_eraseDups, List.mem_map, List.mem_filter] at member
    obtain ⟨other, ⟨-, different⟩, rfl⟩ := member
    have first : (name item == name other) = false := by
      rw [Bool.beq_comm]
      simpa using different
    simp only [List.filter_cons, first, List.filter_filter]
    refine List.filter_congr fun third _ => ?_
    by_cases same : name third = name other
    · simpa [same] using different
    · simp [same]

/-- Grouping lists every item as often as it is given. -/
theorem grouped_perm (name : α → String) (items : List α) : (grouped name items).Perm items := by
  induction counted : items.length using Nat.strongRecOn generalizing items with
  | ind count ih =>
    cases items with
    | nil => exact .nil
    | cons item rest =>
      have shorter : (rest.filter fun other => !name other == name item).length < count := by
        have filtered := List.length_filter_le (fun other => !name other == name item) rest
        rw [← counted, List.length_cons]
        omega
      rw [grouped_cons]
      refine ((ih _ shorter _ rfl).append_left _).trans ?_
      exact (List.filter_append_perm (fun other => name other == name item) rest).cons item

end Grouping

namespace Table

variable {α : Type}

/-- A known name keeps its place and a new one comes last. -/
theorem map_fst_put (table : Table α) (name : String) (value : α) :
    (table.put name value).map Prod.fst =
      if name ∈ table.map Prod.fst then table.map Prod.fst else table.map Prod.fst ++ [name] := by
  induction table with
  | nil => simp [put]
  | cons entry rest ih =>
    obtain ⟨key, old⟩ := entry
    by_cases known : key = name
    · simp [put, known]
    · by_cases later : name ∈ rest.map Prod.fst
      · simp [put, known, ih, later]
      · have new : ¬name = key := fun same => known same.symm
        simp [put, known, ih, later, new]

theorem get?_of_mem {table : Table α} {name : String} {value : α}
    (nodup : (table.map Prod.fst).Nodup) (member : (name, value) ∈ table) :
    table.get? name = some value := by
  induction table with
  | nil => cases member
  | cons entry rest ih =>
    obtain ⟨key, first⟩ := entry
    rw [List.map_cons, List.nodup_cons] at nodup
    rw [get?_cons]
    rcases List.mem_cons.mp member with same | later
    · cases same
      rw [if_pos rfl]
    · have different : name ≠ key := by
        rintro rfl
        exact nodup.1 (List.mem_map.mpr ⟨_, later, rfl⟩)
      rw [if_neg different, ih nodup.2 later]

end Table

namespace Packages

/-- The packages are those of the trees, which were filed in order. -/
structure Filed (p : Packages) (trees : List Tree) : Prop where
  names : p.groups.map Prod.fst = (trees.map Tree.packageName).eraseDups
  nodup : (p.groups.map Prod.fst).Nodup
  get : ∀ name, p.get name = trees.filter fun tree => tree.packageName == name

/-- One more tree is filed last in its package, and a new package comes last. -/
theorem Filed.add {p : Packages} {trees : List Tree} (filed : Filed p trees) (tree : Tree) :
    Filed (p.add tree) (trees ++ [tree]) where
  names := by
    have known := filed.names
    rw [Packages.add, Table.map_fst_put, List.map_append, List.eraseDups_append]
    generalize trees.map Tree.packageName = names at known ⊢
    rw [known, List.map_singleton]
    by_cases seen : tree.packageName ∈ names
    · simp [List.removeAll, seen]
    · simp [List.removeAll, seen, List.eraseDups_cons]
  nodup := by
    rw [Packages.add, Table.map_fst_put]
    split
    · exact filed.nodup
    · rename_i new
      exact List.nodup_append.mpr ⟨filed.nodup, List.nodup_singleton _, by
        rintro name member _ last rfl
        rw [List.mem_singleton.mp last] at member
        exact new member⟩
  get name := by
    rw [Packages.add, Packages.get, Table.get?_put]
    by_cases same : name = tree.packageName
    · subst same
      simp [filed.get]
    · have other : (tree.packageName == name) = false := by
        rw [Bool.beq_comm]
        simpa using same
      rw [if_neg same, List.filter_append, List.filter_cons, other]
      simpa [Packages.get] using filed.get name

theorem filed_foldl {p : Packages} {before : List Tree} (filed : Filed p before)
    (trees : List Tree) : Filed (trees.foldl add p) (before ++ trees) := by
  induction trees generalizing p before with
  | nil => simpa using filed
  | cons tree rest ih => simpa using ih (filed.add tree)

/-- **The trees of all packages are the trees that were filed, grouped by package.** -/
theorem trees_filed (trees : List Tree) :
    (trees.foldl add {}).trees = grouped Tree.packageName trees := by
  have empty : Filed {} [] := ⟨rfl, List.nodup_nil, fun _ => rfl⟩
  obtain ⟨names, nodup, get⟩ := filed_foldl empty trees
  rw [List.nil_append] at names get
  generalize trees.foldl add {} = p at *
  have each : ∀ group ∈ p.groups, group.2 = p.get group.1 := by
    rintro ⟨name, inside⟩ member
    simp [Packages.get, Table.get?_of_mem nodup member]
  rw [Packages.trees, grouped, ← names, List.flatMap_map]
  refine List.flatMap_congr fun group member => ?_
  exact (each group member).trans (get group.1)

end Packages

end TypeLoom
