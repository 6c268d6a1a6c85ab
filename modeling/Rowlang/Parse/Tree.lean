import Rowlang.Token

/-!
# Syntax trees

The plain result of a parse: tokens, and named rules over what their bodies matched.

* `ParseTree.text` : the texts of the tokens, separated by spaces;
* `ParseTree.render` : one line for each node, indented by its depth;
* `TreeBuilder` : what a parse calls to build its result, of which `collector` builds the tree.
-/

namespace Rowlang
open Rowlang.Text

/-- A syntax tree. -/
inductive ParseTree where
  | token (t : Token)
  | rule (name : String) (children : List ParseTree)

namespace ParseTree

def name : ParseTree → String
  | .token t => t.name
  | .rule name _ => name

mutual

def text : ParseTree → String
  | .token t => t.text
  | .rule _ children => String.intercalate " " (texts children)

def texts : List ParseTree → List String
  | [] => []
  | c :: cs => c.text :: texts cs

end

mutual

def tokens : ParseTree → List Token
  | .token t => [t]
  | .rule _ children => tokensOf children

def tokensOf : List ParseTree → List Token
  | [] => []
  | c :: cs => c.tokens ++ tokensOf cs

end

mutual

/-- One line for each node at and below `depth`, indented by two spaces for each level. -/
def renderAt (depth : Nat) : ParseTree → String
  | .token t => String.ofList (List.replicate (2 * depth) ' ') ++ quote t.text ++ "\n"
  | .rule name children =>
    String.ofList (List.replicate (2 * depth) ' ') ++ name ++ "\n" ++ renderAll (depth + 1) children

def renderAll (depth : Nat) : List ParseTree → String
  | [] => ""
  | c :: cs => c.renderAt depth ++ renderAll depth cs

end

def render (t : ParseTree) : String := t.renderAt 0

end ParseTree

/-- What a parse calls to build its result: nodes are made of tokens, and of what a named rule
matched. Making the node of a rule may change the builder's own state, and may be refused with a
reason. -/
structure TreeBuilder (σ ν : Type) where
  token : Token → ν
  rule : String → List ν → σ → Except String ν × σ

def TreeBuilder.collector : TreeBuilder Unit ParseTree where
  token := .token
  rule name children s := (.ok (.rule name children), s)

end Rowlang
