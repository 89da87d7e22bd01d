import SvgPress.QName

/-!
# Elements

An element is a name with a list of attributes. The attributes behave as a map keyed by the full
name that remembers its order: setting keeps the place of a name that is there and puts a new one
last, and all look-ups see the first attribute of a name.
-/

namespace SvgPress

/-- An attribute of an element. -/
structure Attribute where
  /-- The name, with its qualifier. -/
  name : QName
  /-- The value, with all references resolved. -/
  value : String
deriving DecidableEq

/-- The attribute whose name is spelled by a text. -/
def Attribute.ofStrings (name value : String) : Attribute :=
  ⟨QName.ofString name, value⟩

/-- The payload of an element node. -/
structure Element where
  /-- The name, with its qualifier. -/
  name : QName
  /-- The attributes, in document order. -/
  attributes : List Attribute
deriving DecidableEq

namespace Element

/-- The element of a given name, without attributes. -/
def named (name : String) : Element :=
  ⟨QName.ofString name, []⟩

/-- The value of the first attribute of a name. -/
def attr? (e : Element) (name : String) : Option String :=
  (e.attributes.find? fun a => a.name.isSpelled name).map (·.value)

/-- Whether there is an attribute of a name. -/
def hasAttr (e : Element) (name : String) : Bool :=
  e.attributes.any fun a => a.name.isSpelled name

/-- Give the first attribute of a name a value; a new name goes last. -/
def setFirst (name value : String) : List Attribute → List Attribute
  | [] => [Attribute.ofStrings name value]
  | a :: rest =>
    if a.name.isSpelled name then { a with value } :: rest
    else a :: setFirst name value rest

/-- Set an attribute, at its old place if it has one. -/
def setAttr (e : Element) (name value : String) : Element :=
  { e with attributes := setFirst name value e.attributes }

/-- Remove the first attribute of a name. -/
def removeAttr (e : Element) (name : String) : Element :=
  { e with attributes := e.attributes.eraseP fun a => a.name.isSpelled name }

/-- Take the first attribute of a name out of a list: its value, and the attributes left. -/
def takeFirst (name : String) : List Attribute → Option String × List Attribute
  | [] => (none, [])
  | a :: rest =>
    if a.name.isSpelled name then (some a.value, rest)
    else
      let (value, rest) := takeFirst name rest
      (value, a :: rest)

/-- Remove the first attribute of a name, with the value that it had. -/
def takeAttr (e : Element) (name : String) : Option String × Element :=
  let (value, attributes) := takeFirst name e.attributes
  (value, { e with attributes })

/-- Keep the attributes that satisfy a test. -/
def keepAttrs (e : Element) (keep : Attribute → Bool) : Element :=
  { e with attributes := e.attributes.filter keep }

/-- Whether the local part of the element's name is the given one. -/
def isNamed (e : Element) (localPart : String) : Bool :=
  e.name.localPart == localPart

/-- Put a namespace declaration into a list ordered by qualifier, where it replaces an earlier one
of the same qualifier; the default namespace comes first. -/
def declare (qualifier : Option String) (uri : String) :
    List (Option String × String) → List (Option String × String)
  | [] => [(qualifier, uri)]
  | (other, uri') :: rest =>
    if qualifier = other then (qualifier, uri) :: rest
    else if before qualifier other then (qualifier, uri) :: (other, uri') :: rest
    else (other, uri') :: declare qualifier uri rest
where
  /-- The order of qualifiers: none at all, then by code points. -/
  before : Option String → Option String → Bool
    | none, some _ => true
    | some a, some b => decide (a < b)
    | _, none => false

/-- The namespaces declared on an element, ordered by qualifier; of two declarations for one
qualifier the later counts. -/
def namespaces (e : Element) : List (Option String × String) :=
  e.attributes.foldl (fun found a =>
    if a.name.qualifier.isNone && a.name.localPart == "xmlns" then declare none a.value found
    else if a.name.qualifier == some "xmlns" then declare (some a.name.localPart) a.value found
    else found) []

end Element

end SvgPress
