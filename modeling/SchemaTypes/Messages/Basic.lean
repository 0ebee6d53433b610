/-
# Messages

Messages of a user are laid over the tables of the generator (`withUserTemplates` for the rules,
`withUserMessages` for the catalogue).  `fill` puts values into the holes of a template, one
variable after the other; `localized` fills the template of a rule in every locale.
-/
import SchemaTypes.Messages.Tables
import SchemaTypes.Data.Dictionary
import SchemaTypes.Text.Replace

namespace SchemaTypes.Messages

/-- Lays the templates of a user over those of known rules; others are ignored. -/
def withUserTemplates (user : MessageTable) : MessageTable :=
  ruleTemplates.map fun e => (e.1, Dictionary.merge e.2 ((user.lookup e.1).getD []))

/-- The catalogue for some locales with the messages of a user added as given. -/
def withUserMessages (locales : List String) (user : MessageTable) : MessageTable :=
  let known := catalogue.map fun e => (e.1, Dictionary.tabulate locales (e.2.lookup ·))
  user.foldl
    (fun table e =>
      if e.2.isEmpty then table
      else Dictionary.put e.1 (Dictionary.merge ((table.lookup e.1).getD []) e.2) table)
    known

/-- The hole of a variable. -/
def hole (name : String) : String := "$\x7b" ++ name ++ "\x7d"

/-- Puts values into the holes of a template, one variable after the other. -/
def fill (template : String) (values : List (String × String)) : String :=
  values.foldl (fun t v => Text.replace t (hole v.1) v.2) template

/-- The template of a rule for a locale: its own, else of the fallback locale, else the English
one, else the empty template. -/
def templateFor (templates : List (String × String)) (fallback : Option String)
    (locale : String) : String :=
  let second := (fallback.filter (!·.isEmpty)).bind (templates.lookup ·)
  (templates.lookup locale <|> second <|> templates.lookup "en").getD ""

/-- The message of a rule in every locale. -/
def localized (table : MessageTable) (rule : String) (locales : List String)
    (values : List (String × String)) (fallback : Option String) : List (String × String) :=
  let templates := (table.lookup rule).getD []
  Dictionary.tabulate locales fun l => some (fill (templateFor templates fallback l) values)

@[simp] theorem fill_nil (template : String) : fill template [] = template := rfl

end SchemaTypes.Messages
