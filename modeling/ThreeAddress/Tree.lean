import ThreeAddress.Expr
import ThreeAddress.Text.Decimal

/-!
# Trees

Binary trees with a label and a span at every node. They are looser than expressions: a label may
be unknown, an operator may lack an operand, and a literal may be negative or have children. Every
expression is such a tree, and evaluation is defined on all of them.
-/

namespace ThreeAddress

inductive Label where
  | literal (value : Int)
  | operator (op : Operator) (name : String)
  | unknown (kind : String) (name : String)
deriving DecidableEq, Repr

namespace Label

/-- How an instruction refers to a node with this label. A literal with too many digits has no
such text. -/
def operand? : Label → Option String
  | literal value => Text.decimal? value
  | operator _ name => some name
  | unknown _ name => some name

def isLiteral : Label → Bool
  | literal _ => true
  | _ => false

end Label

/-- A binary tree; `nil` stands where there is no node. -/
inductive Tree where
  | nil
  | node (label : Label) (span : Span) (left right : Tree)
deriving DecidableEq, Repr, Inhabited

namespace Tree

def label? : Tree → Option Label
  | nil => none
  | node label .. => some label

/-- Whether the root is a literal, with or without children. -/
def isLeaf (t : Tree) : Bool :=
  t.label?.any Label.isLiteral

def height : Tree → Nat
  | nil => 0
  | node _ _ left right => 1 + max left.height right.height

/-- The subtrees with a node, children before their parent and left before right. -/
def postorder : Tree → List Tree
  | nil => []
  | node label span left right =>
    left.postorder ++ right.postorder ++ [node label span left right]

/-- The number of nodes. -/
def size : Tree → Nat
  | nil => 0
  | node _ _ left right => left.size + right.size + 1

theorem length_postorder (t : Tree) : t.postorder.length = t.size := by
  induction t with
  | nil => rfl
  | node label span left right ihl ihr => simp [postorder, size, ihl, ihr, Nat.add_assoc]

end Tree

namespace Expr

def toTree : Expr → Tree
  | literal value span => .node (.literal value) span .nil .nil
  | binary op target span left right =>
    .node (.operator op target.name) span left.toTree right.toTree

@[simp]
theorem height_toTree (e : Expr) : e.toTree.height = e.height := by
  induction e with
  | literal value span => rfl
  | binary op target span left right ihl ihr => simp [toTree, Tree.height, height, ihl, ihr]

/-- Every operation joins two operands, so literals outnumber operations by one. -/
theorem size_toTree (e : Expr) : e.toTree.size = 2 * e.operationCount + 1 := by
  induction e with
  | literal value span => rfl
  | binary op target span left right ihl ihr =>
    simp only [toTree, Tree.size, operationCount, ihl, ihr]
    omega

end Expr

end ThreeAddress
