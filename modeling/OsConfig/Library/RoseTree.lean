import Mathlib

/-!
# Rose trees with an open spine

A finitely branching labelled tree, addressed by paths of child indices, and
the zipper that describes a tree under construction: the nodes on the way from
the root to the node being filled, each holding only the children that are
already finished. `plug` puts the spine back together. Looking up or modifying
the plugged tree at the path of the innermost open node acts on that node alone,
which is what code holding pointers into a growing tree relies on.
-/

universe u

/-- A finitely branching tree with a label at every node. -/
structure RoseTree (α : Type u) where
  label : α
  children : List (RoseTree α)

namespace RoseTree

variable {α : Type u}

def fresh (label : α) : RoseTree α :=
  ⟨label, []⟩

/-- The tree with one more child, after the existing ones. -/
def append (tree child : RoseTree α) : RoseTree α :=
  { tree with children := tree.children ++ [child] }

def mapLabel (f : α → α) (tree : RoseTree α) : RoseTree α :=
  { tree with label := f tree.label }

@[simp]
theorem fresh_label (label : α) : (fresh label).label = label := rfl

@[simp]
theorem fresh_children (label : α) : (fresh label).children = [] := rfl

@[simp]
theorem append_label (tree child : RoseTree α) : (tree.append child).label = tree.label := rfl

@[simp]
theorem append_children (tree child : RoseTree α) :
    (tree.append child).children = tree.children ++ [child] := rfl

@[simp]
theorem mapLabel_label (f : α → α) (tree : RoseTree α) :
    (tree.mapLabel f).label = f tree.label := rfl

@[simp]
theorem mapLabel_children (f : α → α) (tree : RoseTree α) :
    (tree.mapLabel f).children = tree.children := rfl

/-- The node at a path of child indices. -/
def get? (tree : RoseTree α) (path : List ℕ) : Option (RoseTree α) :=
  match path with
  | [] => some tree
  | index :: rest => tree.children[index]?.bind fun child => child.get? rest

/-- The tree with the node at a path replaced by its image. -/
def modify (tree : RoseTree α) (path : List ℕ) (f : RoseTree α → RoseTree α) : RoseTree α :=
  match path with
  | [] => f tree
  | index :: rest =>
      { tree with children := tree.children.modify index fun child => child.modify rest f }

theorem get?_append (tree : RoseTree α) (path suffix : List ℕ) :
    tree.get? (path ++ suffix) = (tree.get? path).bind fun node => node.get? suffix := by
  induction path generalizing tree with
  | nil => simp [get?]
  | cons index rest ih =>
      simp only [List.cons_append, get?]
      cases tree.children[index]? with
      | none => rfl
      | some child => simp [ih]

theorem modify_append (tree : RoseTree α) (path suffix : List ℕ)
    (f : RoseTree α → RoseTree α) :
    tree.modify (path ++ suffix) f = tree.modify path fun node => node.modify suffix f := by
  induction path generalizing tree with
  | nil => simp [modify]
  | cons index rest ih => simp [modify, ih]

/-- Close the innermost node into the next one, all the way up. -/
def plug (node : RoseTree α) (parents : List (RoseTree α)) : RoseTree α :=
  match parents with
  | [] => node
  | parent :: rest => plug (parent.append node) rest

/-- The path from the root to the node below the given open parents, innermost first. -/
def pathOf (parents : List (RoseTree α)) : List ℕ :=
  match parents with
  | [] => []
  | parent :: rest => pathOf rest ++ [parent.children.length]

theorem get?_plug (node : RoseTree α) (parents : List (RoseTree α)) :
    (plug node parents).get? (pathOf parents) = some node := by
  induction parents generalizing node with
  | nil => rfl
  | cons parent rest ih =>
      simp only [plug, pathOf, get?_append, ih, Option.bind_some]
      simp [get?]

theorem modify_plug (node : RoseTree α) (parents : List (RoseTree α))
    (f : RoseTree α → RoseTree α) :
    (plug node parents).modify (pathOf parents) f = plug (f node) parents := by
  induction parents generalizing node f with
  | nil => rfl
  | cons parent rest ih =>
      simp only [plug, pathOf, modify_append, ih]
      congr 1
      simp [modify, append, List.modify_eq_take_cons_drop]

/-- The tree of a spine of open nodes, innermost first. -/
def plugAll (openNodes : List (RoseTree α)) : Option (RoseTree α) :=
  match openNodes with
  | [] => none
  | node :: parents => some (plug node parents)

/-- The paths to the open nodes of a spine, innermost first. -/
def pathsOf (openNodes : List (RoseTree α)) : List (List ℕ) :=
  match openNodes with
  | [] => []
  | _ :: parents => pathOf parents :: pathsOf parents

@[simp]
theorem length_pathsOf (openNodes : List (RoseTree α)) :
    (pathsOf openNodes).length = openNodes.length := by
  induction openNodes with
  | nil => rfl
  | cons node parents ih => simp [pathsOf, ih]

/-- A property holds at a node and everywhere below it. -/
inductive Everywhere (property : RoseTree α → Prop) : RoseTree α → Prop where
  | intro {tree : RoseTree α} (here : property tree)
      (below : ∀ child ∈ tree.children, Everywhere property child) : Everywhere property tree

theorem everywhere_iff {property : RoseTree α → Prop} {tree : RoseTree α} :
    Everywhere property tree ↔
      property tree ∧ ∀ child ∈ tree.children, Everywhere property child := by
  constructor
  · rintro ⟨here, below⟩
    exact ⟨here, below⟩
  · rintro ⟨here, below⟩
    exact ⟨here, below⟩

theorem Everywhere.mono {property weaker : RoseTree α → Prop}
    (implies : ∀ tree, property tree → weaker tree) {tree : RoseTree α}
    (holds : Everywhere property tree) : Everywhere weaker tree := by
  induction holds with
  | intro here below ih => exact ⟨implies _ here, ih⟩

theorem childInduction {motive : RoseTree α → Prop}
    (step : ∀ label children, (∀ child ∈ children, motive child) → motive ⟨label, children⟩)
    (tree : RoseTree α) : motive tree := by
  refine @RoseTree.rec α motive (fun children => ∀ child ∈ children, motive child) ?_ ?_ ?_ tree
  · intro label children below
    exact step label children below
  · intro child mem
    simp at mem
  · intro head tail here below child mem
    rcases List.mem_cons.mp mem with rfl | mem
    · exact here
    · exact below child mem

section Map

universe v

variable {β : Type v} {γ : Type v}

mutual

/-- The tree with all its labels changed. -/
def map (f : α → β) (tree : RoseTree α) : RoseTree β :=
  match tree with
  | ⟨label, children⟩ => ⟨f label, mapAll f children⟩
termination_by structural tree

def mapAll (f : α → β) (trees : List (RoseTree α)) : List (RoseTree β) :=
  match trees with
  | [] => []
  | tree :: rest => map f tree :: mapAll f rest
termination_by structural trees

end

@[simp]
theorem mapAll_eq_map (f : α → β) (trees : List (RoseTree α)) :
    mapAll f trees = trees.map (map f) := by
  induction trees with
  | nil => rfl
  | cons tree rest ih => simp [mapAll, ih]

theorem map_mk (f : α → β) (label : α) (children : List (RoseTree α)) :
    map f ⟨label, children⟩ = ⟨f label, children.map (map f)⟩ := by
  simp [map]

@[simp]
theorem map_label (f : α → β) (tree : RoseTree α) : (map f tree).label = f tree.label := by
  rcases tree with ⟨label, children⟩
  rw [map_mk]

@[simp]
theorem map_children (f : α → β) (tree : RoseTree α) :
    (map f tree).children = tree.children.map (map f) := by
  rcases tree with ⟨label, children⟩
  rw [map_mk]

theorem map_map (f : α → β) (g : β → γ) (tree : RoseTree α) :
    map g (map f tree) = map (g ∘ f) tree := by
  induction tree using childInduction with
  | step label children ih =>
      simp only [map_mk, List.map_map, mk.injEq, Function.comp_apply, true_and]
      exact List.map_congr_left ih

theorem everywhere_map_iff {property : RoseTree β → Prop} {f : α → β} {tree : RoseTree α} :
    Everywhere property (map f tree) ↔ Everywhere (fun node => property (map f node)) tree := by
  induction tree using childInduction with
  | step label children ih =>
      rw [everywhere_iff, everywhere_iff]
      simp only [map_children, List.forall_mem_map]
      exact and_congr_right fun _ => forall₂_congr ih

end Map

end RoseTree
