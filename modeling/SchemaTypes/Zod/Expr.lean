/-
# Validator expressions

A validator is a base schema with methods chained on it.  `Expr.text` prints the chain as the
TypeScript expression; the tree keeps apart which methods need a text (`Call.onText`) and which
need a number (`Call.onNumber`), so that a chain can be checked against its base
(`Expr.WellTyped`).  The text shows some numbers (`Expr.numbers`); a chain with a number that is too
long to be written has no text in a program.
-/
import SchemaTypes.Number.Bound
import SchemaTypes.TypeScript.Literal

namespace SchemaTypes.Zod

/-- What a chain starts from. -/
inductive Base where
  | string
  | number
  | boolean
  | unknown
  | nativeEnum (name : String)
  | enum (values : List String)
  | given (text : String)
deriving DecidableEq, Repr

/-- A method of a chain. -/
inductive Call where
  | email
  | url
  | uuid
  | ip (version : Option String)
  | date
  | time
  | datetime
  | int
  | positive
  | min (n : Int)
  | max (n : Int)
  | length (n : Nat)
  | gte (b : Bound)
  | lte (b : Bound)
  | gt (b : Bound)
  | lt (b : Bound)
  | multipleOf (b : Bound)
  | regex (body : String) (message : Option String)
  | startsWith (s : String)
  | endsWith (s : String)
  | lowercase
  | uppercase
  | optional
  | nullable
deriving DecidableEq, Repr

/-- A chain of methods on a base. -/
structure Expr where
  base : Base
  calls : List Call := []
deriving DecidableEq, Repr

/-! ## 1. Text -/

/-- Quoted literals with commas between them. -/
def literals (values : List String) : String :=
  String.intercalate ", " (values.map TypeScript.quote)

/-- The text of a base. -/
def Base.text : Base → String
  | .string => "z.string()"
  | .number => "z.number()"
  | .boolean => "z.boolean()"
  | .unknown => "z.unknown()"
  | .nativeEnum name => "z.nativeEnum(" ++ name ++ ")"
  | .enum values => "z.enum([" ++ literals values ++ "])"
  | .given text => text

/-- An options record with a message, which is text inside single quotes already. -/
def messageOption (message : String) : String := "\x7b message: '" ++ message ++ "' \x7d"

/-- The text of a method. -/
def Call.text : Call → String
  | .email => ".email()"
  | .url => ".url()"
  | .uuid => ".uuid()"
  | .ip none => ".ip()"
  | .ip (some v) => ".ip(\x7b version: \"" ++ v ++ "\" \x7d)"
  | .date => ".date()"
  | .time => ".time()"
  | .datetime => ".datetime(\x7b offset: true \x7d)"
  | .int => ".int()"
  | .positive => ".positive()"
  | .min n => ".min(" ++ toString n ++ ")"
  | .max n => ".max(" ++ toString n ++ ")"
  | .length n => ".length(" ++ toString n ++ ")"
  | .gte b => ".gte(" ++ b.literal ++ ")"
  | .lte b => ".lte(" ++ b.literal ++ ")"
  | .gt b => ".gt(" ++ b.literal ++ ")"
  | .lt b => ".lt(" ++ b.literal ++ ")"
  | .multipleOf b => ".multipleOf(" ++ b.literal ++ ")"
  | .regex body none => ".regex(/" ++ body ++ "/)"
  | .regex body (some m) => ".regex(/" ++ body ++ "/, " ++ messageOption m ++ ")"
  | .startsWith s => ".startsWith(" ++ TypeScript.quote s ++ ")"
  | .endsWith s => ".endsWith(" ++ TypeScript.quote s ++ ")"
  | .lowercase => ".refine(v => v === v.toLowerCase(), " ++ messageOption "Must be lowercase" ++ ")"
  | .uppercase => ".refine(v => v === v.toUpperCase(), " ++ messageOption "Must be uppercase" ++ ")"
  | .optional => ".optional()"
  | .nullable => ".nullable()"

/-- The text of a chain. -/
def Expr.text (e : Expr) : String := e.base.text ++ String.join (e.calls.map Call.text)

/-- The numbers that the text of a method shows. -/
def Call.numbers : Call → List Bound
  | .min n => [.whole n]
  | .max n => [.whole n]
  | .length n => [.whole (Int.ofNat n)]
  | .gte b => [b]
  | .lte b => [b]
  | .gt b => [b]
  | .lt b => [b]
  | .multipleOf b => [b]
  | _ => []

/-- The numbers that the text of a chain shows. -/
def Expr.numbers (e : Expr) : List Bound := e.calls.flatMap Call.numbers

/-! ## 2. Building -/

/-- The chain with more methods. -/
def Expr.andAlso (e : Expr) (cs : List Call) : Expr := ⟨e.base, e.calls ++ cs⟩

/-- The methods that let a value be absent. -/
def absentCalls (nullable : Bool) : List Call := if nullable then [.optional, .nullable] else []

/-! ## 3. Types of methods -/

/-- The method exists on text schemas alone. -/
def Call.onText : Call → Bool
  | .email | .url | .uuid | .ip _ | .date | .time | .datetime | .regex .. | .startsWith _
  | .endsWith _ | .length _ => true
  | _ => false

/-- The method exists on number schemas alone. -/
def Call.onNumber : Call → Bool
  | .int | .positive | .gte _ | .lte _ | .gt _ | .lt _ | .multipleOf _ => true
  | _ => false

/-- Every method of the chain exists on its base. -/
def Expr.WellTyped (e : Expr) : Prop :=
  ∀ c ∈ e.calls, (c.onText = true → e.base = .string) ∧ (c.onNumber = true → e.base = .number)

instance (e : Expr) : Decidable e.WellTyped := by unfold Expr.WellTyped; infer_instance

@[simp] theorem Expr.base_andAlso (e : Expr) (cs : List Call) : (e.andAlso cs).base = e.base := rfl

@[simp] theorem Expr.calls_andAlso (e : Expr) (cs : List Call) :
    (e.andAlso cs).calls = e.calls ++ cs := rfl

end SchemaTypes.Zod
