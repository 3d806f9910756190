import OsConfig.ComplianceEngine.Result
import OsConfig.Library.RoseTree

/-!
# The indicators tree

`IndicatorsTree` owns a tree of named nodes and a stack of raw pointers into
it. A pointer is modelled by the path of child indices that leads to its node:
children are only ever appended, so paths stay valid as the tree grows. The
operations answer nothing where the C++ code asserts that the stack is not empty.

The pointers on the stack always form a chain of last children. The abstract
view of a tree with a non-empty stack is therefore the list of its open nodes,
innermost first, each with its finished children only; `IndicatorsTree.Opens`
relates the two and every operation has a one-line description on the open nodes.
-/

namespace OsConfig.ComplianceEngine

structure Indicator where
  message : ByteString
  status : Status
  deriving DecidableEq

/-- What a node holds besides its children. -/
structure NodeData where
  procedureName : ByteString
  status : Status := .nonCompliant
  indicators : List Indicator := []
  deriving DecidableEq

abbrev Node := RoseTree NodeData

namespace Node

/-- `Node(procedureName)`. -/
def new (procedureName : ByteString) : Node :=
  RoseTree.fresh { procedureName }

def procedureName (node : Node) : ByteString :=
  node.label.procedureName

def status (node : Node) : Status :=
  node.label.status

def indicators (node : Node) : List Indicator :=
  node.label.indicators

def setStatus (status : Status) (node : Node) : Node :=
  node.mapLabel fun data => { data with status }

def addIndicator (indicator : Indicator) (node : Node) : Node :=
  node.mapLabel fun data => { data with indicators := data.indicators ++ [indicator] }

@[simp]
theorem procedureName_new (name : ByteString) : (new name).procedureName = name := rfl

@[simp]
theorem status_new (name : ByteString) : (new name).status = .nonCompliant := rfl

@[simp]
theorem children_new (name : ByteString) : (new name).children = [] := rfl

@[simp]
theorem indicators_new (name : ByteString) : (new name).indicators = [] := rfl

@[simp]
theorem procedureName_setStatus (status : Status) (node : Node) :
    (node.setStatus status).procedureName = node.procedureName := rfl

@[simp]
theorem status_setStatus (status : Status) (node : Node) :
    (node.setStatus status).status = status := rfl

@[simp]
theorem children_setStatus (status : Status) (node : Node) :
    (node.setStatus status).children = node.children := rfl

@[simp]
theorem indicators_setStatus (status : Status) (node : Node) :
    (node.setStatus status).indicators = node.indicators := rfl

@[simp]
theorem procedureName_addIndicator (indicator : Indicator) (node : Node) :
    (node.addIndicator indicator).procedureName = node.procedureName := rfl

@[simp]
theorem status_addIndicator (indicator : Indicator) (node : Node) :
    (node.addIndicator indicator).status = node.status := rfl

@[simp]
theorem children_addIndicator (indicator : Indicator) (node : Node) :
    (node.addIndicator indicator).children = node.children := rfl

@[simp]
theorem procedureName_append (node child : Node) :
    procedureName (node.append child) = node.procedureName := rfl

@[simp]
theorem status_append (node child : Node) : status (node.append child) = node.status := rfl

@[simp]
theorem indicators_append (node child : Node) :
    indicators (node.append child) = node.indicators := rfl

end Node

/-- `IndicatorsTree`, with the innermost pointer of the stack first. -/
structure IndicatorsTree where
  root : Option Node := none
  evaluationStack : List (List ℕ) := []

namespace IndicatorsTree

def push (tree : IndicatorsTree) (procedureName : ByteString) : Option IndicatorsTree :=
  match tree.root with
  | none =>
      some { root := some (Node.new procedureName)
             evaluationStack := [] :: tree.evaluationStack }
  | some root =>
      match tree.evaluationStack with
      | [] => none
      | current :: _ =>
          (root.get? current).map fun node =>
            { root := some (root.modify current fun node => node.append (Node.new procedureName))
              evaluationStack := (current ++ [node.children.length]) :: tree.evaluationStack }

def pop (tree : IndicatorsTree) : Option IndicatorsTree :=
  match tree.evaluationStack with
  | [] => none
  | _ :: rest => some { tree with evaluationStack := rest }

def back (tree : IndicatorsTree) : Option Node :=
  match tree.root, tree.evaluationStack with
  | some root, current :: _ => root.get? current
  | _, _ => none

/-- Write to the node `Back()` refers to. -/
def modifyBack (tree : IndicatorsTree) (f : Node → Node) : Option IndicatorsTree :=
  match tree.root, tree.evaluationStack with
  | some root, current :: _ => some { tree with root := some (root.modify current f) }
  | _, _ => none

def addIndicator (tree : IndicatorsTree) (message : ByteString) (status : Status) :
    Option IndicatorsTree :=
  tree.modifyBack (Node.addIndicator { message, status })

/-- `Back().status = status` followed by `Pop()`. -/
def close (tree : IndicatorsTree) (status : Status) : Option IndicatorsTree :=
  (tree.modifyBack (Node.setStatus status)).bind pop

/-- The open nodes of a tree under construction, innermost first. A tree without
a root has none; after the root is closed no list of open nodes describes the tree. -/
structure Opens (tree : IndicatorsTree) (openNodes : List Node) : Prop where
  root_eq : tree.root = RoseTree.plugAll openNodes
  stack_eq : tree.evaluationStack = RoseTree.pathsOf openNodes

section Operations

variable {tree : IndicatorsTree} {openNodes : List Node}

theorem Opens.push (opens : tree.Opens openNodes) (name : ByteString) :
    ∃ tree', tree.push name = some tree' ∧ tree'.Opens (Node.new name :: openNodes) := by
  rcases opens with ⟨root_eq, stack_eq⟩
  cases openNodes with
  | nil =>
      simp only [IndicatorsTree.push, root_eq, stack_eq, RoseTree.plugAll, RoseTree.pathsOf]
      exact ⟨_, rfl, rfl, rfl⟩
  | cons node parents =>
      simp only [IndicatorsTree.push, root_eq, stack_eq, RoseTree.plugAll, RoseTree.pathsOf,
        RoseTree.get?_plug, RoseTree.modify_plug, Option.map_some]
      exact ⟨_, rfl, rfl, rfl⟩

theorem Opens.back {node : Node} {parents : List Node} (opens : tree.Opens (node :: parents)) :
    tree.back = some node := by
  rcases opens with ⟨root_eq, stack_eq⟩
  simp only [IndicatorsTree.back, root_eq, stack_eq, RoseTree.plugAll, RoseTree.pathsOf,
    RoseTree.get?_plug]

theorem Opens.modifyBack {node : Node} {parents : List Node}
    (opens : tree.Opens (node :: parents)) (f : Node → Node) :
    ∃ tree', tree.modifyBack f = some tree' ∧ tree'.Opens (f node :: parents) := by
  rcases opens with ⟨root_eq, stack_eq⟩
  simp only [IndicatorsTree.modifyBack, root_eq, stack_eq, RoseTree.plugAll, RoseTree.pathsOf,
    RoseTree.modify_plug]
  exact ⟨_, rfl, rfl, rfl⟩

theorem Opens.close {node parent : Node} {parents : List Node}
    (opens : tree.Opens (node :: parent :: parents)) (status : Status) :
    ∃ tree', tree.close status = some tree' ∧
      tree'.Opens (parent.append (node.setStatus status) :: parents) := by
  rcases opens.modifyBack (Node.setStatus status) with ⟨written, written_eq, root_eq, stack_eq⟩
  simp only [IndicatorsTree.close, written_eq, Option.bind_some, IndicatorsTree.pop, stack_eq,
    RoseTree.pathsOf]
  exact ⟨_, rfl, root_eq, rfl⟩

theorem Opens.closeRoot {node : Node} (opens : tree.Opens [node]) (status : Status) :
    tree.close status = some { root := some (node.setStatus status), evaluationStack := [] } := by
  rcases opens.modifyBack (Node.setStatus status) with ⟨written, written_eq, root_eq, stack_eq⟩
  simp only [IndicatorsTree.close, written_eq, Option.bind_some, IndicatorsTree.pop, stack_eq,
    RoseTree.pathsOf]
  rw [root_eq]
  rfl

/-- The stack is the one of before exactly if no more and no fewer nodes are open. -/
theorem Opens.stack_eq_iff {tree' : IndicatorsTree} {base : Node} {inner parents : List Node}
    (opens : tree.Opens (base :: parents)) (opens' : tree'.Opens (inner ++ parents)) :
    tree'.evaluationStack = tree.evaluationStack ↔ inner.length = 1 := by
  rw [opens.stack_eq, opens'.stack_eq]
  constructor
  · intro same
    have lengths := congrArg List.length same
    simp only [RoseTree.length_pathsOf, List.length_append, List.length_cons] at lengths
    omega
  · intro one
    rcases List.length_eq_one_iff.mp one with ⟨node, rfl⟩
    rfl

end Operations

end IndicatorsTree

/-- The ways code outside the evaluator writes to the tree: `Push`, a status
for the top node followed by `Pop`, and `AddIndicator`. -/
inductive TreeOp where
  | push (procedureName : ByteString)
  | close (status : Status)
  | addIndicator (message : ByteString) (status : Status)
  deriving DecidableEq

namespace TreeOp

def apply (op : TreeOp) (tree : IndicatorsTree) : Option IndicatorsTree :=
  match op with
  | .push name => tree.push name
  | .close status => tree.close status
  | .addIndicator message status => tree.addIndicator message status

def applyAll (ops : List TreeOp) (tree : IndicatorsTree) : Option IndicatorsTree :=
  match ops with
  | [] => some tree
  | op :: rest => (op.apply tree).bind (applyAll rest)

/-- The effect of an operation on the open nodes. Closing the root is not described. -/
def onOpen (op : TreeOp) (openNodes : List Node) : Option (List Node) :=
  match op, openNodes with
  | .push name, nodes => some (Node.new name :: nodes)
  | .close status, node :: parent :: rest =>
      some (parent.append (node.setStatus status) :: rest)
  | .close _, _ => none
  | .addIndicator message status, node :: rest =>
      some (node.addIndicator { message, status } :: rest)
  | .addIndicator _ _, [] => none

def onOpenAll (ops : List TreeOp) (openNodes : List Node) : Option (List Node) :=
  match ops with
  | [] => some openNodes
  | op :: rest => (op.onOpen openNodes).bind (onOpenAll rest)

theorem apply_of_onOpen {op : TreeOp} {tree : IndicatorsTree} {openNodes openNodes' : List Node}
    (opens : tree.Opens openNodes) (effect : op.onOpen openNodes = some openNodes') :
    ∃ tree', op.apply tree = some tree' ∧ tree'.Opens openNodes' := by
  cases op with
  | push name =>
      simp only [onOpen, Option.some.injEq] at effect
      subst effect
      exact opens.push name
  | close status =>
      rcases openNodes with _ | ⟨node, _ | ⟨parent, rest⟩⟩
      · simp [onOpen] at effect
      · simp [onOpen] at effect
      · simp only [onOpen, Option.some.injEq] at effect
        subst effect
        exact opens.close status
  | addIndicator message status =>
      rcases openNodes with _ | ⟨node, rest⟩
      · simp [onOpen] at effect
      · simp only [onOpen, Option.some.injEq] at effect
        subst effect
        exact opens.modifyBack _

theorem applyAll_of_onOpenAll {ops : List TreeOp} {tree : IndicatorsTree}
    {openNodes openNodes' : List Node} (opens : tree.Opens openNodes)
    (effect : onOpenAll ops openNodes = some openNodes') :
    ∃ tree', applyAll ops tree = some tree' ∧ tree'.Opens openNodes' := by
  induction ops generalizing tree openNodes with
  | nil =>
      simp only [onOpenAll, Option.some.injEq] at effect
      subst effect
      exact ⟨tree, rfl, opens⟩
  | cons op rest ih =>
      simp only [onOpenAll, Option.bind_eq_some_iff] at effect
      rcases effect with ⟨middle, first, remaining⟩
      rcases apply_of_onOpen opens first with ⟨tree', applied, opens'⟩
      simp only [applyAll, applied, Option.bind_some]
      exact ih opens' remaining

/-- The number of nodes that are open beyond those of before, of which `depth` were
opened already; nothing when an operation closes a node that was open before. -/
def depthAfter (depth : ℕ) (ops : List TreeOp) : Option ℕ :=
  match ops with
  | [] => some depth
  | .push _ :: rest => depthAfter (depth + 1) rest
  | .close _ :: rest =>
      match depth with
      | 0 => none
      | depth + 1 => depthAfter depth rest
  | .addIndicator _ _ :: rest => depthAfter depth rest

/-- The operations never close a node that was open before them. -/
def Scoped (ops : List TreeOp) : Prop :=
  (depthAfter 0 ops).isSome

/-- The operations close exactly the nodes they open. -/
def Balanced (ops : List TreeOp) : Prop :=
  depthAfter 0 ops = some 0

instance (ops : List TreeOp) : Decidable (Scoped ops) :=
  inferInstanceAs (Decidable ((depthAfter 0 ops).isSome))

instance (ops : List TreeOp) : Decidable (Balanced ops) :=
  inferInstanceAs (Decidable (depthAfter 0 ops = some 0))

theorem depthAfter_append (depth : ℕ) (first second : List TreeOp) :
    depthAfter depth (first ++ second) =
      (depthAfter depth first).bind fun middle => depthAfter middle second := by
  induction first generalizing depth with
  | nil => rfl
  | cons op rest ih =>
      cases op with
      | push name => exact ih (depth + 1)
      | close status =>
          cases depth with
          | zero => rfl
          | succ depth => exact ih depth
      | addIndicator message status => exact ih depth

theorem depthAfter_add {after : ℕ} {ops : List TreeOp} (depth extra : ℕ)
    (runs : depthAfter depth ops = some after) :
    depthAfter (depth + extra) ops = some (after + extra) := by
  induction ops generalizing depth with
  | nil =>
      simp only [depthAfter, Option.some.injEq] at runs ⊢
      omega
  | cons op rest ih =>
      cases op with
      | push name =>
          have shifted := ih (depth + 1) runs
          rw [show depth + 1 + extra = depth + extra + 1 by omega] at shifted
          exact shifted
      | close status =>
          cases depth with
          | zero => simp [depthAfter] at runs
          | succ depth =>
              rw [show depth + 1 + extra = depth + extra + 1 by omega]
              exact ih depth runs
      | addIndicator message status => exact ih depth runs

end TreeOp

namespace Node

/-- `node` has become `node'` by adding indicators and children, every new child built
from nodes whose names satisfy `names`. -/
structure GrowsTo (names : ByteString → Prop) (node node' : Node) : Prop where
  procedureName_eq : node'.procedureName = node.procedureName
  status_eq : node'.status = node.status
  children_eq : ∃ added, node'.children = node.children ++ added ∧
    ∀ child ∈ added, child.Everywhere fun descendant => names (procedureName descendant)

theorem GrowsTo.refl (names : ByteString → Prop) (node : Node) : node.GrowsTo names node :=
  ⟨rfl, rfl, [], by simp, by simp⟩

theorem GrowsTo.trans {names : ByteString → Prop} {first second third : Node}
    (left : first.GrowsTo names second) (right : second.GrowsTo names third) :
    first.GrowsTo names third := by
  rcases left with ⟨name_eq, status_eq, added, children_eq, added_named⟩
  rcases right with ⟨name_eq', status_eq', added', children_eq', added_named'⟩
  refine ⟨name_eq'.trans name_eq, status_eq'.trans status_eq, added ++ added', ?_, ?_⟩
  · rw [children_eq', children_eq, List.append_assoc]
  · intro child child_mem
    rcases List.mem_append.mp child_mem with old | new
    · exact added_named child old
    · exact added_named' child new

end Node

namespace TreeOp

/-- Operations that stay above `base` leave its parents alone and only add to it. -/
theorem onOpenAll_scoped {names : ByteString → Prop} {ops : List TreeOp} {after : ℕ}
    {parents : List Node} (depth : ℕ) (inner : List Node) (base : Node)
    (runs : depthAfter depth ops = some after) (length_inner : inner.length = depth)
    (pushes : ∀ name, TreeOp.push name ∈ ops → names name)
    (inner_named : ∀ node ∈ inner,
      node.Everywhere fun descendant => names (Node.procedureName descendant)) :
    ∃ inner' base', onOpenAll ops (inner ++ base :: parents) = some (inner' ++ base' :: parents) ∧
      inner'.length = after ∧ base.GrowsTo names base' ∧
      ∀ node ∈ inner', node.Everywhere fun descendant => names (Node.procedureName descendant) := by
  induction ops generalizing depth inner base with
  | nil =>
      simp only [depthAfter, Option.some.injEq] at runs
      exact ⟨inner, base, rfl, length_inner.trans runs, .refl names base, inner_named⟩
  | cons op rest ih =>
      have rest_pushes : ∀ name, TreeOp.push name ∈ rest → names name :=
        fun name mem => pushes name (List.mem_cons_of_mem _ mem)
      cases op with
      | push name =>
          have new_named : ∀ node ∈ Node.new name :: inner,
              node.Everywhere fun descendant => names (Node.procedureName descendant) := by
            intro node node_mem
            rcases List.mem_cons.mp node_mem with rfl | old
            · exact ⟨pushes name (by simp), by simp⟩
            · exact inner_named node old
          exact ih (depth + 1) (Node.new name :: inner) base runs (by simp [length_inner])
            rest_pushes new_named
      | close status =>
          rcases inner with _ | ⟨node, inner⟩
          · simp only [List.length_nil] at length_inner
            subst length_inner
            simp [depthAfter] at runs
          · simp only [List.length_cons] at length_inner
            subst length_inner
            have closed_named : (node.setStatus status).Everywhere
                fun descendant => names (Node.procedureName descendant) := by
              rcases inner_named node (by simp) with ⟨here, below⟩
              exact ⟨here, below⟩
            rcases inner with _ | ⟨parent, inner⟩
            · rcases ih 0 [] (base.append (node.setStatus status)) runs rfl rest_pushes (by simp)
                with ⟨inner', base', effect, length_eq, grows, named⟩
              have appended : base.GrowsTo names (base.append (node.setStatus status)) :=
                ⟨rfl, rfl, [node.setStatus status], rfl, by simpa using closed_named⟩
              exact ⟨inner', base', effect, length_eq, appended.trans grows, named⟩
            · have parent_named : ∀ other ∈ parent.append (node.setStatus status) :: inner,
                  other.Everywhere fun descendant => names (Node.procedureName descendant) := by
                intro other other_mem
                rcases List.mem_cons.mp other_mem with rfl | old
                · rcases inner_named parent (by simp) with ⟨here, below⟩
                  refine ⟨here, ?_⟩
                  intro child child_mem
                  rcases List.mem_append.mp child_mem with oldChild | newChild
                  · exact below child oldChild
                  · rw [List.mem_singleton.mp newChild]
                    exact closed_named
                · exact inner_named other (by simp [old])
              exact ih _ (parent.append (node.setStatus status) :: inner) base runs rfl
                rest_pushes parent_named
      | addIndicator message status =>
          rcases inner with _ | ⟨node, inner⟩
          · rcases ih depth [] (base.addIndicator { message, status }) runs length_inner
              rest_pushes (by simp) with ⟨inner', base', effect, length_eq, grows, named⟩
            have added : base.GrowsTo names (base.addIndicator { message, status }) :=
              ⟨rfl, rfl, [], by simp, by simp⟩
            exact ⟨inner', base', effect, length_eq, added.trans grows, named⟩
          · have node_named : ∀ other ∈ node.addIndicator { message, status } :: inner,
                other.Everywhere fun descendant => names (Node.procedureName descendant) := by
              intro other other_mem
              rcases List.mem_cons.mp other_mem with rfl | old
              · rcases inner_named node (by simp) with ⟨here, below⟩
                exact ⟨here, below⟩
              · exact inner_named other (by simp [old])
            exact ih depth (node.addIndicator { message, status } :: inner) base runs
              (by simpa using length_inner) rest_pushes node_named

end TreeOp

end OsConfig.ComplianceEngine
