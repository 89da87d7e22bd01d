import SvgPress.Unicode.Age
import SvgPress.Unicode.Property
import SvgPress.Unicode.Script

/-!
# Names of classes

A class of characters may be named by a property, a general category or a script alone, or by a
property and its value. Names are compared without case, spaces, underscores and hyphens, and
without an `is` before them.
-/

namespace SvgPress.Unicode

/-- A name as the tables write it. Characters outside ASCII do not count. -/
def looseName (name : String) : String :=
  let cs := name.toList
  let marked := match cs with
    | c :: d :: _ => (c == 'i' || c == 'I') && (d == 's' || d == 'S')
    | _ => false
  let kept := (if marked then cs.drop 2 else cs).filter fun c =>
    c.toNat < 0x80 && c != ' ' && c != '_' && c != '-'
  let loose := String.ofList (kept.map Char.toLower)
  if marked && loose == "c" then "isc" else loose

/-- The class that a name alone stands for. -/
def class? (name : String) : Option CharSet :=
  let name := looseName name
  (property? name) <|> (category? name) <|> (script? name)

/-- The class that a property and its value stand for. -/
def classOf? (property value : String) : Option CharSet :=
  let value := looseName value
  match looseName property with
  | "gc" | "generalcategory" => category? value
  | "sc" | "script" => script? value
  | "scx" | "scriptextensions" => scriptExtension? value
  | "age" => age? value
  | _ => none

end SvgPress.Unicode
