/-
# Rule sets as methods

`applyRules` lays a rule set on a validator.  A format replaces the validator; then come the
methods for texts or for numbers, according to the tag of the property, in a fixed order.  Bounds
that contradict each other are written as given.
-/
import SchemaTypes.Zod.Expr
import SchemaTypes.Schema.Property

namespace SchemaTypes.Zod

/-- The affixes that are not empty. -/
def nonEmptyAffixes : Option Affixes → List String
  | none => []
  | some (.one s) => [s].filter (!·.isEmpty)
  | some (.many xs) => xs.filter (!·.isEmpty)

/-- Alternatives of a regular expression, each matched literally. -/
def alternation (values : List String) : String :=
  "(" ++ String.intercalate "|" (values.map TypeScript.escapeRegex) ++ ")"

/-- The affixes as they appear in a message. -/
def listing (values : List String) : String :=
  TypeScript.escapeString (String.intercalate ", " values)

/-- The method for texts that begin with one of the values. -/
def startCalls : List String → List Call
  | [] => []
  | [v] => [.startsWith v]
  | vs => [.regex ("^" ++ alternation vs) (some ("Must start with: " ++ listing vs))]

/-- The method for texts that end with one of the values. -/
def endCalls : List String → List Call
  | [] => []
  | [v] => [.endsWith v]
  | vs => [.regex (alternation vs ++ "$") (some ("Must end with: " ++ listing vs))]

/-- The validator of the first format that a rule set asks for. -/
def formatOf? (r : RuleSet) : Option Expr :=
  if r.url then some ⟨.string, [.url]⟩
  else if r.uuid then some ⟨.string, [.uuid]⟩
  else if r.ip then some ⟨.string, [.ip none]⟩
  else if r.ipv4 then some ⟨.string, [.ip (some "v4")]⟩
  else if r.ipv6 then some ⟨.string, [.ip (some "v6")]⟩
  else none

/-- The methods of character classes. -/
def classCalls (r : RuleSet) : List Call :=
  (if r.alpha then [.regex "^[a-zA-Z]*$" (some "Must contain only letters")] else [])
    ++ (if r.alphaNum then
          [.regex "^[a-zA-Z0-9]*$" (some "Must contain only letters and numbers")] else [])
    ++ (if r.alphaDash then
          [.regex "^[a-zA-Z0-9_-]*$"
            (some "Must contain only letters, numbers, dashes, and underscores")] else [])
    ++ (if r.numeric then [.regex "^\\d*$" (some "Must contain only numbers")] else [])

/-- The methods of an exact number of digits. -/
def digitsCalls (n : Nat) : List Call :=
  [.length n, .regex "^\\d+$" (some ("Must be exactly " ++ toString n ++ " digits"))]

/-- The methods of a number of digits in a range. -/
def digitsBetweenCalls (p : Int × Int) : List Call :=
  [.min p.1, .max p.2,
   .regex "^\\d+$" (some ("Must be " ++ toString p.1 ++ "-" ++ toString p.2 ++ " digits"))]

/-- The methods of a setting that may be missing. -/
def callsOf (f : α → List Call) : Option α → List Call
  | some a => f a
  | none => []

/-- The methods of a rule set on a text. -/
def textCalls (r : RuleSet) : List Call :=
  callsOf (fun n => [.min (Int.ofNat n)]) r.minLength
    ++ callsOf (fun n => [.max (Int.ofNat n)]) r.maxLength
    ++ classCalls r
    ++ callsOf digitsCalls r.digits
    ++ callsOf digitsBetweenCalls r.digitsBetween
    ++ startCalls (nonEmptyAffixes r.startsWith)
    ++ endCalls (nonEmptyAffixes r.endsWith)
    ++ (if r.lowercase then [.lowercase] else [])
    ++ (if r.uppercase then [.uppercase] else [])

/-- The methods of a rule set on a number. -/
def numberCalls (r : RuleSet) : List Call :=
  callsOf (fun b => [.gte b]) r.min
    ++ callsOf (fun b => [.lte b]) r.max
    ++ callsOf (fun p => [.gte p.1, .lte p.2]) r.between
    ++ callsOf (fun b => [.gt b]) r.gt
    ++ callsOf (fun b => [.lt b]) r.lt
    ++ callsOf (fun b => [.multipleOf b]) r.multipleOf

/-- The validator under a rule set. -/
def applyRules (e : Expr) (rules : Option RuleSet) (tag : String) : Expr :=
  match rules with
  | none => e
  | some r =>
    ((formatOf? r).getD e).andAlso
      ((if stringTags.contains tag then textCalls r else [])
        ++ (if numericTags.contains tag then numberCalls r else []))

@[simp] theorem applyRules_none (e : Expr) (tag : String) : applyRules e none tag = e := rfl

end SchemaTypes.Zod
