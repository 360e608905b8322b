import Telemetry.Yaml.Scalar

/-!
# Nodes

A document is a tree of scalars, sequences and mappings.  An alias stands for
the node whose anchor has the same number.
-/

namespace Telemetry.Yaml

/-- What may be written in front of a node. -/
structure Properties where
  /-- The full tag, which need not be text. -/
  tag : Option Bytes := none
  anchor : Option Nat := none
  deriving DecidableEq, Repr

inductive Node where
  | alias (target : Nat)
  | scalar (properties : Properties) (style : Style) (text : String)
  | sequence (properties : Properties) (items : List Node)
  | mapping (properties : Properties) (entries : List (Node × Node))

namespace Node

/-- The empty plain scalar, which stands where nothing is written. -/
def nothing : Node := .scalar {} .plain ""

def anchor? : Node → Option Nat
  | .alias _ => none
  | .scalar properties _ _ => properties.anchor
  | .sequence properties _ => properties.anchor
  | .mapping properties _ => properties.anchor

mutual

/-- The node and all nodes below it in the order of the text. -/
def all : Node → List Node
  | .alias target => [.alias target]
  | .scalar properties style text => [.scalar properties style text]
  | .sequence properties items => .sequence properties items :: allOf items
  | .mapping properties entries => .mapping properties entries :: allOfEntries entries

def allOf : List Node → List Node
  | [] => []
  | node :: nodes => node.all ++ allOf nodes

def allOfEntries : List (Node × Node) → List Node
  | [] => []
  | (key, value) :: entries => key.all ++ value.all ++ allOfEntries entries

end

end Node

/-- A whole document: its root, or `none` when nothing is written. -/
structure Document where
  root : Option Node

namespace Document

/-- The node that an alias stands for.  Where a number was given out twice the
later node has it. -/
def target? (document : Document) (number : Nat) : Option Node :=
  document.root.bind fun root =>
    root.all.reverse.find? fun node => node.anchor? = some number

/-- A node with a leading alias replaced by what it stands for.  Anchors are never
on aliases, so one step is enough. -/
def resolve (document : Document) : Node → Node
  | .alias number => (document.target? number).getD (.alias number)
  | node => node

end Document

end Telemetry.Yaml
