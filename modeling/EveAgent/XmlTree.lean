import EveAgent.CText

/-! The trees that libxml builds from a document. -/

namespace EveAgent.XmlTree

/-- A property. Its value is the first of the nodes that it consists of, where there is one, with
the content that this one has. -/
structure Attribute where
  name : Text
  val : Option (Option Text)
  deriving DecidableEq, Repr

/-- `val->content` -/
def Attribute.content (property : Attribute) : Option Text := property.val.join

/-- `other` stands for texts, comments, references and the like. -/
inductive Node where
  | element (name : Text) (properties : List Attribute) (childs : List Node)
  | other (name content : Option Text)

def Node.name : Node → Option Text
  | .element name _ _ => some name
  | .other name _ => name

def Node.content : Node → Option Text
  | .element _ _ _ => none
  | .other _ content => content

def Node.properties : Node → List Attribute
  | .element _ properties _ => properties
  | .other _ _ => []

def Node.childs : Node → List Node
  | .element _ _ childs => childs
  | .other _ _ => []

def Node.isElement : Node → Bool
  | .element _ _ _ => true
  | .other _ _ => false

/-- `childs->content` -/
def Node.text (node : Node) : Option Text := node.childs.head?.bind Node.content

def textNode (content : Text) : Node := .other (some "text".toList) (some content)

def leaf (name content : Text) : Node := .element name [] [textNode content]

theorem element_of_text {node : Node} {content : Text} (reads : node.text = some content) :
    node.isElement = true := by
  cases node with
  | element name properties childs => rfl
  | other name content => cases reads

end EveAgent.XmlTree
