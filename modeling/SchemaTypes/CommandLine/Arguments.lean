/-
# Arguments

The options of the command line and how arguments are read (`Options.ofArguments`).  An option has
a long spelling, which may be shortened as long as one option is left, and perhaps a short one;
short options may stand in one argument.  A value follows in the next argument, behind an equals
sign, or directly behind a short option.

Options take effect from left to right: one that asks for the version or for help ends the
reading before a later misuse is found.  Only a shortened spelling with several meanings counts
at once.
-/
import SchemaTypes.Schema.Config
import SchemaTypes.Text.Case
import SchemaTypes.Text.Quoted
import SchemaTypes.Text.Search

namespace SchemaTypes.CommandLine

/-! ## 1. Options -/

/-- An option. -/
inductive Flag where
  | help
  | version
  | schema
  | output
  | validateOnly
  | dryRun
  | layout
  | packageName
  | modelsPath
  | jsExtension
  | noZod
  | rules
  | locale
  | enumPrefix
  | pluginEnumPrefix
  | basePrefix
  | failOnWarnings
  | manifest
  | verbose
  | quiet
deriving DecidableEq, Repr

/-- The spellings of all options. -/
def spellings : List (String × Flag) := [
  ("-h", .help), ("--help", .help), ("--version", .version),
  ("-s", .schema), ("--schema", .schema), ("-o", .output), ("--output", .output),
  ("--validate-only", .validateOnly), ("--dry-run", .dryRun), ("--layout", .layout),
  ("--package-name", .packageName), ("--models-path", .modelsPath),
  ("--js-extension", .jsExtension), ("--no-zod", .noZod), ("--rules", .rules),
  ("--locale", .locale), ("--enum-prefix", .enumPrefix),
  ("--plugin-enum-prefix", .pluginEnumPrefix), ("--base-prefix", .basePrefix),
  ("--fail-on-warnings", .failOnWarnings), ("--manifest", .manifest),
  ("-v", .verbose), ("--verbose", .verbose), ("-q", .quiet), ("--quiet", .quiet)]

/-- The options that have a value. -/
def valued : List Flag :=
  [.schema, .output, .layout, .packageName, .modelsPath, .locale, .enumPrefix, .pluginEnumPrefix,
   .basePrefix]

/-- The option has a value. -/
def Flag.takesValue (f : Flag) : Bool := valued.contains f

/-- The spellings of an option with slashes between them. -/
def Flag.title (f : Flag) : String :=
  String.intercalate "/" ((spellings.filter (·.2 == f)).map (·.1))

/-- What the arguments ask for. -/
structure Options where
  schema : String
  output : Option String := none
  validateOnly : Bool := false
  dryRun : Bool := false
  layout : Option OutputLayout := none
  packageName : Option String := none
  modelsPath : Option String := none
  jsExtension : Bool := false
  noZod : Bool := false
  rules : Bool := false
  locale : Option String := none
  enumPrefix : Option String := none
  pluginEnumPrefix : Option String := none
  basePrefix : Option String := none
  failOnWarnings : Bool := false
  manifest : Bool := false
  verbosity : Nat := 0
  quiet : Bool := false
deriving DecidableEq, Repr

/-- Why arguments ask for nothing. -/
inductive Misuse where
  | ambiguous (word : String) (spellings : List String)
  | missingValue (f : Flag)
  | needlessValue (f : Flag) (value : String)
  | unknownLayout (value : String)
  | missingSchema
  | leftover (words : List String)
deriving DecidableEq, Repr

/-- The message of a misuse. -/
def Misuse.message : Misuse → String
  | .ambiguous word found =>
    "ambiguous option: " ++ word ++ " could match " ++ String.intercalate ", " found
  | .missingValue f => "argument " ++ f.title ++ ": expected one argument"
  | .needlessValue f value =>
    "argument " ++ f.title ++ ": ignored explicit argument " ++ Text.quotedText value
  | .unknownLayout value =>
    "argument " ++ Flag.layout.title ++ ": invalid choice: " ++ Text.quotedText value
      ++ " (choose from 'flat', 'package')"
  | .missingSchema => "the following arguments are required: " ++ Flag.schema.title
  | .leftover words => "unrecognized arguments: " ++ String.intercalate " " words

/-- Why the reading of arguments ends early. -/
inductive Stop where
  | help
  | version
  | misuse (m : Misuse)
deriving DecidableEq, Repr

/-! ## 2. Words -/

/-- A value that stands in the argument of its option. -/
structure Attached where
  text : List Char
  equals : Bool
deriving DecidableEq, Repr

/-- An option as it was written. -/
structure Written where
  flag : Flag
  isLong : Bool
  attached : Option Attached := none
deriving DecidableEq, Repr

/-- An argument. -/
inductive Word where
  | option (w : Written)
  | unknown (text : String)
  | plain (text : String)
  | dashes
deriving DecidableEq, Repr

/-- The text begins with two dashes. -/
def isLong (s : String) : Bool := Text.startsWith s "--"

/-- What stands in front of the first equals sign, and what follows it. -/
def splitEquals (s : String) : String × Option Attached :=
  let cs := s.toList
  let head := cs.takeWhile (· != '=')
  match cs.drop head.length with
  | [] => (s, none)
  | _ :: value => (String.ofList head, some ⟨value, true⟩)

/-- The options that a text may stand for, with their spellings. -/
def candidates (s : String) : List (String × Written) :=
  if isLong s then
    let (start, attached) := splitEquals s
    (spellings.filter fun x => Text.startsWith x.1 start).map fun x => (x.1, ⟨x.2, true, attached⟩)
  else
    let cs := s.toList
    (spellings.filter fun x => x.1 == String.ofList (cs.take 2)).map fun x =>
      (x.1, ⟨x.2, false, some ⟨cs.drop 2, false⟩⟩)

/-- The text is a number below zero. -/
def isNegativeNumber (cs : List Char) : Bool :=
  match cs with
  | '-' :: r =>
    match r.dropWhile Text.isDigit with
    | [] => !r.isEmpty
    | '.' :: fraction => !fraction.isEmpty && fraction.all Text.isDigit
    | _ => false
  | _ => false

/-- The word that a text with a dash in front is. -/
def dashedWord (s : String) : Except Misuse Word :=
  let (head, attached) := splitEquals s
  match spellings.lookup head with
  | some f => .ok (.option ⟨f, isLong head, attached⟩)
  | none =>
    match candidates s with
    | [x] => .ok (.option x.2)
    | x :: y :: rest => .error (.ambiguous s ((x :: y :: rest).map (·.1)))
    | [] =>
      if s == "-" || isNegativeNumber s.toList || s.toList.contains ' ' then .ok (.plain s)
      else .ok (.unknown s)

/-- The words of arguments; behind two dashes no argument is an option. -/
def wordsOf : List String → Except Misuse (List Word)
  | [] => .ok []
  | s :: rest =>
    if s == "--" then .ok (.dashes :: rest.map .plain)
    else do
      let w ← if Text.startsWith s "-" then dashedWord s else .ok (.plain s)
      return w :: (← wordsOf rest)

/-! ## 3. Options in one argument -/

/-- The options that one argument holds: those without a value, perhaps one with a value, and
what is left over. -/
structure Cluster where
  flags : List Flag := []
  valued : Option (Flag × Option String) := none
  leftover : List String := []
deriving DecidableEq, Repr

/-- One option in front. -/
def Cluster.behind (c : Cluster) (f : Flag) : Cluster := { c with flags := f :: c.flags }

/-- The cluster of an option without an attached value. -/
def Cluster.single (f : Flag) : Cluster :=
  if f.takesValue then { valued := some (f, none) } else { flags := [f] }

/-- The options that stand behind a short one in its argument. -/
def clusterOf (f : Flag) (equals : Bool) (cs : List Char) : Except Misuse Cluster :=
  if f.takesValue then .ok { valued := some (f, some (String.ofList cs)) }
  else
    match cs with
    | [] => .error (.needlessValue f "")
    | c :: r =>
      if equals || c == '-' then .error (.needlessValue f (String.ofList (c :: r)))
      else
        match spellings.lookup (String.ofList ['-', c]) with
        | none => .ok { flags := [f], leftover := [String.ofList ('-' :: c :: r)] }
        | some g =>
          match r with
          | [] => .ok ((Cluster.single g).behind f)
          | '=' :: r => (·.behind f) <$> clusterOf g true r
          | d :: r => (·.behind f) <$> clusterOf g false (d :: r)

/-- The options of an argument. -/
def Written.cluster (w : Written) : Except Misuse Cluster :=
  match w.attached with
  | none => .ok (.single w.flag)
  | some a =>
    if w.isLong && !w.flag.takesValue then
      .error (.needlessValue w.flag (String.ofList a.text))
    else clusterOf w.flag a.equals a.text

/-! ## 4. All arguments -/

/-- What was read so far. -/
structure Draft where
  hasSchema : Bool := false
  options : Options := { schema := "" }
  leftover : List String := []
deriving DecidableEq, Repr

/-- The layout of a word. -/
def layoutOf (value : String) : Except Stop OutputLayout :=
  if value == "flat" then .ok .flat
  else if value == "package" then .ok .package
  else .error (.misuse (.unknownLayout value))

/-- Sets an option that has no value. -/
def Draft.set (d : Draft) (f : Flag) : Except Stop Draft :=
  let o := d.options
  match f with
  | .help => .error .help
  | .version => .error .version
  | .validateOnly => .ok { d with options := { o with validateOnly := true } }
  | .dryRun => .ok { d with options := { o with dryRun := true } }
  | .jsExtension => .ok { d with options := { o with jsExtension := true } }
  | .noZod => .ok { d with options := { o with noZod := true } }
  | .rules => .ok { d with options := { o with rules := true } }
  | .failOnWarnings => .ok { d with options := { o with failOnWarnings := true } }
  | .manifest => .ok { d with options := { o with manifest := true } }
  | .verbose => .ok { d with options := { o with verbosity := o.verbosity + 1 } }
  | .quiet => .ok { d with options := { o with quiet := true } }
  | _ => .ok d

/-- Sets an option to a value. -/
def Draft.setTo (d : Draft) (f : Flag) (value : String) : Except Stop Draft :=
  let o := d.options
  match f with
  | .schema => .ok { d with hasSchema := true, options := { o with schema := value } }
  | .output => .ok { d with options := { o with output := some value } }
  | .layout => do
    let l ← layoutOf value
    return { d with options := { o with layout := some l } }
  | .packageName => .ok { d with options := { o with packageName := some value } }
  | .modelsPath => .ok { d with options := { o with modelsPath := some value } }
  | .locale => .ok { d with options := { o with locale := some value } }
  | .enumPrefix => .ok { d with options := { o with enumPrefix := some value } }
  | .pluginEnumPrefix => .ok { d with options := { o with pluginEnumPrefix := some value } }
  | .basePrefix => .ok { d with options := { o with basePrefix := some value } }
  | _ => .ok d

/-- An argument that no option takes. -/
def Draft.leave (d : Draft) (word : String) : Draft := { d with leftover := d.leftover ++ [word] }

/-- Sets the options of a cluster; `value` is the value of the one that has one. -/
def Draft.setCluster (d : Draft) (c : Cluster) (value : String) : Except Stop Draft := do
  let d ← c.flags.foldlM Draft.set d
  let d ←
    match c.valued with
    | some (f, _) => d.setTo f value
    | none => pure d
  return c.leftover.foldl Draft.leave d

/-- Reads words from left to right. -/
def Draft.read (d : Draft) : List Word → Except Stop Draft
  | [] => .ok d
  | .plain s :: rest => (d.leave s).read rest
  | .unknown s :: rest => (d.leave s).read rest
  | .dashes :: rest => (d.leave "--").read rest
  | .option w :: rest =>
    match w.cluster with
    | .error m => .error (.misuse m)
    | .ok c =>
      match c.valued, rest with
      | some (_, none), .plain value :: rest => do
        let d ← d.setCluster c value
        d.read rest
      | some (f, none), _ => .error (.misuse (.missingValue f))
      | some (_, some value), rest => do
        let d ← d.setCluster c value
        d.read rest
      | none, rest => do
        let d ← d.setCluster c ""
        d.read rest

/-- What arguments ask for. -/
def Options.ofArguments (args : List String) : Except Stop Options :=
  match wordsOf args with
  | .error m => .error (.misuse m)
  | .ok words => do
    let d ← Draft.read {} words
    if !d.hasSchema then .error (.misuse .missingSchema)
    else if !d.leftover.isEmpty then .error (.misuse (.leftover d.leftover))
    else return d.options

/-! ## 5. Small laws -/

/-- Without arguments the path of the snapshot is missing. -/
theorem Options.ofArguments_nil :
    Options.ofArguments [] = .error (.misuse .missingSchema) := rfl

end SchemaTypes.CommandLine
