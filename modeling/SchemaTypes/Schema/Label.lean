/-
# Labels

A text that a snapshot gives for people to read: one text for all locales, or one for each of
some locales, in the order in which they were written.
-/
namespace SchemaTypes

/-- A text for people, plain or by locale. -/
inductive Label where
  | plain (text : String)
  | byLocale (texts : List (String × String))
deriving DecidableEq, Repr, Inhabited

end SchemaTypes
