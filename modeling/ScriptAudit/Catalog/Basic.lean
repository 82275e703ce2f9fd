import ScriptAudit.Rule.Basic

namespace ScriptAudit

structure Category where
  name : String
  rules : List Rule
  deriving DecidableEq

/-- Rules in named categories. -/
structure Catalog where
  categories : List Category
  deriving DecidableEq

namespace Catalog

def empty : Catalog := ⟨[]⟩

def names (c : Catalog) : List String := c.categories.map (·.name)

/-- The rules with the names of their categories, in order. -/
def entries (c : Catalog) : List (String × Rule) :=
  c.categories.flatMap fun category => category.rules.map (category.name, ·)

def ruleCount (c : Catalog) : Nat := c.entries.length

/-- Adds rules to the category of a name, or a category at the end if there is none. -/
def extend : List Category → Category → List Category
  | [], added => [added]
  | category :: rest, added =>
    if category.name = added.name then ⟨category.name, category.rules ++ added.rules⟩ :: rest
    else category :: extend rest added

/-- The rules of both; categories of one name become one. -/
def merged (c d : Catalog) : Catalog := ⟨d.categories.foldl extend c.categories⟩

/-- The categories with one of the names. Letter case does not count, and blank names are not looked for. -/
def select (c : Catalog) (wanted : List String) : Catalog :=
  let keys := (wanted.filter fun n => !Text.isAllBlank n).map fun n => Text.lower (Text.trim n)
  ⟨c.categories.filter fun category => keys.contains (Text.lower category.name)⟩

/-- The catalog as data: a list of rules for each name. -/
def toValue (c : Catalog) : Value :=
  .record (c.categories.map fun category => (category.name, .list (category.rules.map Rule.toValue)))

end Catalog

end ScriptAudit
