/-
**Methods that are recorded.**

* `Tree.methodsOf_attachMethod` — recording a func adds it to the methods of its owner, at their end.
* `Unrecording step` — the step leaves the methods of all nodes as they are. Edits do
  (`unrecording_removeLine`, `unrecording_substitute`), so what registers mutators and helpers and what
  substitutes placeholders does too.
-/

import TypeLoom.Proofs.Expansion.Intact

namespace TypeLoom

/-! ### Methods that are recorded -/

namespace Tree

variable {t t' t'' : Tree} {owner method x : NodeId}

theorem methodsOf_attachMethod (t : Tree) (owner method x : NodeId) :
    (t.attachMethod owner method).2.methodsOf x =
      if x = owner ∧ (t.kind owner).takesMethods = true then t.methodsOf x ++ [method]
      else t.methodsOf x := by
  have recorded : ∀ kind, t.Inner owner →
      (∀ u : Tree, u.kind owner = kind → u.methodsOf owner = t.methodsOf owner ++ [method]) →
      (t.setKind owner kind).methodsOf x =
        if x = owner then t.methodsOf x ++ [method] else t.methodsOf x := by
    intro kind inner methods
    have known := kind_modifyKind inner.inside (fun _ => kind) x
    split
    · rename_i here
      subst here
      exact methods _ (by simpa [setKind] using known)
    · rename_i other
      exact methodsOf_congr (by simpa [setKind, other] using known)
  unfold attachMethod
  cases kind : t.kind owner with
  | struct d | template d | implements d =>
    simp only [NodeKind.takesMethods, and_true]
    refine recorded _ (Expansion.inner_of_kind kind (by simp) (by simp)) fun u new => ?_
    rw [methodsOf, methodsOf, new, kind]
  | _ => simp [NodeKind.takesMethods]

/-- No node is gone, and nodes have the methods that they had. -/
structure SameMethods (t t' : Tree) : Prop where
  size_le : t.size ≤ t'.size
  methods : ∀ x, x.index < t.size → t'.methodsOf x = t.methodsOf x

theorem SameMethods.refl (t : Tree) : t.SameMethods t :=
  ⟨Nat.le_refl _, fun _ _ => rfl⟩

theorem SameMethods.trans (first : t.SameMethods t') (second : t'.SameMethods t'') :
    t.SameMethods t'' :=
  ⟨Nat.le_trans first.size_le second.size_le, fun x inside =>
    (second.methods x (Nat.lt_of_lt_of_le inside first.size_le)).trans (first.methods x inside)⟩

theorem SameMethods.of_kind (size : t.size ≤ t'.size)
    (kinds : ∀ x, x.index < t.size → t'.kind x = t.kind x) : t.SameMethods t' :=
  ⟨size, fun x inside => methodsOf_congr (kinds x inside)⟩

theorem sameMethods_mapTokens (t : Tree) (id : NodeId) (change : Token → Token) :
    t.SameMethods (t.mapTokens id change) := by
  have shape := SameShape.mapTokens t id change
  refine ⟨Nat.le_of_eq shape.size.symm, fun x _ => ?_⟩
  cases leaf : t.token? x with
  | none => exact methodsOf_congr (kind_mapTokens_of_inner id change leaf)
  | some token =>
    have still : (t.mapTokens id change).token? x ≠ none := fun none => by
      rw [(shape.noToken x).mp none] at leaf
      cases leaf
    obtain ⟨new, found⟩ := Option.ne_none_iff_exists'.mp still
    rw [methodsOf_of_token found, methodsOf_of_token leaf]

theorem sameMethods_detach (t : Tree) (id : NodeId) : t.SameMethods (t.detach id) := by
  refine .of_kind (Nat.le_of_eq (size_detach t id).symm) fun x _ => ?_
  unfold detach
  split <;> simp

end Tree

namespace Expansion

variable {α β ε : Type} {source t t' : Tree} {x : NodeId}

/-- The step records no methods. -/
def Unrecording (step : EStateM ε Tree α) : Prop :=
  ∀ t a t', step t = .ok a t' → t.SameMethods t'

namespace Unrecording

variable {step : EStateM ε Tree α} {next : α → EStateM ε Tree β}

theorem bind (first : Unrecording step) (second : ∀ a, Unrecording (next a)) :
    Unrecording (step >>= next) := by
  intro t b t' ran
  obtain ⟨a, t₁, stepped, ran⟩ := bind_eq_ok.mp ran
  exact (first t a t₁ stepped).trans (second a t₁ b t' ran)

theorem pure (a : α) : Unrecording (pure a : EStateM ε Tree α) := by
  intro t b t' ran
  cases ran
  exact .refl t

theorem get : Unrecording (get : EStateM ε Tree Tree) := by
  intro t b t' ran
  cases ran
  exact .refl t

theorem modify {change : Tree → Tree} (same : ∀ t : Tree, t.SameMethods (change t)) :
    Unrecording (modify change : EStateM ε Tree PUnit) := by
  intro t b t' ran
  cases ran
  exact same t

theorem forM {step : NodeId → EStateM ε Tree PUnit} (each : ∀ id, Unrecording (step id))
    (ids : List NodeId) : Unrecording (ids.forM step) := by
  induction ids with
  | nil => exact .pure _
  | cons id rest ih => exact (each id).bind fun _ => ih

theorem edit {change : Edit α} (unrecording : Unrecording change) : Unrecording (edit change) :=
  fun t a t' ran => unrecording t a t' (edit_eq_ok ran)

end Unrecording

/-! ### Edits record nothing -/

theorem unrecording_locate (id : NodeId) : Unrecording (Edit.locate id) := by
  intro t a t' located
  unfold Edit.locate at located
  split at located <;> cases located
  exact .refl t

theorem unrecording_remove (id : NodeId) : Unrecording (Edit.remove id) :=
  (unrecording_locate id).bind fun _ => .modify fun t => .of_kind (by simp) (by simp)

theorem unrecording_removeLine (id : NodeId) : Unrecording (Edit.removeLine id) :=
  (unrecording_locate id).bind fun _ => Unrecording.get.bind fun _ =>
    (unrecording_remove id).bind fun _ => .forM unrecording_remove _

theorem unrecording_replace (old new : NodeId) : Unrecording (Edit.replace old new) := by
  refine (unrecording_locate old).bind fun place => Unrecording.bind (.modify ?_) fun _ => ?_
  · exact fun t => Tree.sameMethods_detach t new
  · refine Unrecording.bind (Unrecording.get.bind fun t => ?_) fun _ =>
      .modify fun t => .of_kind (by simp) (by simp)
    split
    · exact .pure _
    · exact (unrecording_locate old).bind fun _ => .pure _

theorem unrecording_substitute (node : NodeId) (name : String) :
    Unrecording (Placeholder.substitute node name) := by
  intro t a t' ran
  rw [substitute_eq] at ran
  have added : t.SameMethods (withPlaceholder t node name) :=
    .of_kind (by rw [withPlaceholder, Tree.size_add]; exact Nat.le_succ _)
      fun x inside => Tree.kind_add_of_lt _ inside
  exact added.trans (unrecording_replace _ _ _ _ _ ran)

theorem unrecording_substituteAll (name : Nat → String)
    (placeholder : Tree → NodeId → Placeholder) (index : Nat) (nodes : List NodeId)
    (table : Table Placeholder) : Unrecording (substituteAll name placeholder index nodes table) := by
  induction nodes generalizing index table with
  | nil => exact .pure table
  | cons node rest ih =>
    exact Unrecording.get.bind fun _ => (unrecording_substitute node _).edit.bind fun _ => ih _ _

theorem unrecording_placePoireaux (index : Nat) (structs : List NodeId)
    (table : Table Placeholder) : Unrecording (placePoireaux index structs table) := by
  induction structs generalizing index table with
  | nil => exact .pure table
  | cons struct rest ih =>
    refine Unrecording.get.bind fun t => ?_
    split
    · exact ih _ _
    · exact (unrecording_substituteAll _ _ _ _ _).bind fun _ => ih _ _

theorem unrecording_placeComments (table : Table Placeholder) : Unrecording (placeComments table) :=
  Unrecording.get.bind fun _ => (unrecording_substituteAll _ _ _ _ _).bind fun _ =>
    Unrecording.get.bind fun _ => unrecording_substituteAll _ _ _ _ _

theorem sameMethods_setDelimiters (t : Tree) (id : NodeId) : t.SameMethods (setDelimiters t id) :=
  (Tree.sameMethods_mapTokens t id _).trans (Tree.sameMethods_mapTokens _ id _)

theorem unrecording_mutatorOf (decl : NodeId) : Unrecording (mutatorOf decl) := by
  have delimited : ∀ (methods : List NodeId) (t : Tree),
      t.SameMethods (methods.foldl setDelimiters t) := by
    intro methods
    induction methods with
    | nil => exact .refl
    | cons method rest ih => exact fun t => (sameMethods_setDelimiters t method).trans (ih _)
  refine Unrecording.bind (.modify fun t => ?_) fun _ => Unrecording.get.bind fun t => ?_
  · exact (Tree.sameMethods_mapTokens t decl _).trans (sameMethods_setDelimiters _ decl)
  · exact Unrecording.get.bind fun _ => Unrecording.bind (.modify (delimited _)) fun _ =>
      Unrecording.get.bind fun _ => .pure _

theorem unrecording_registerMutators (decls : List NodeId) (table : Table String) :
    Unrecording (registerMutators decls table) := by
  induction decls generalizing table with
  | nil => exact .pure table
  | cons decl rest ih => exact (unrecording_mutatorOf decl).bind fun _ => ih _

theorem unrecording_registerHelpers (decls : List NodeId) (table : Table String) :
    Unrecording (registerHelpers decls table) := by
  induction decls generalizing table with
  | nil => exact .pure table
  | cons decl rest ih =>
    refine (unrecording_removeLine decl).edit.bind fun _ => Unrecording.bind ?_ fun _ => ih _
    exact Unrecording.bind (.modify fun t => sameMethods_setDelimiters t decl) fun _ =>
      Unrecording.get.bind fun _ => .pure _

end Expansion

end TypeLoom
