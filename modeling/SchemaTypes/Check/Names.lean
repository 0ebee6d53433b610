/-
# Names of generated types

Every schema, every plugin enumeration and every property that lists values declares a type at
the top level (`declarations`).  A name with two or more declarations is a collision
(`collisions`), and with a collision nothing is generated.
-/
import SchemaTypes.Check.Problem
import SchemaTypes.Enumeration

namespace SchemaTypes.Check

/-- A name, what declares it, and where. -/
structure Declared where
  name : String
  declarer : Declarer
  source : String
deriving DecidableEq, Repr

/-- The declarations of types, in order: schemas, plugin enumerations, properties with values. -/
def declarations (collection : Collection) (config : Config) : List Declared :=
  collection.schemas.map (fun s => ⟨s.name, .schema, s.sourceLabel⟩)
    ++ config.pluginEnums.map (fun e => ⟨e.1, .plugin, "plugin enum"⟩)
    ++ (InlineEnum.all collection config).map fun x =>
        ⟨x.name, .inline, x.source ++ " (inline enum)"⟩

/-- The declarations of one name. -/
def declarersOf (ds : List Declared) (name : String) : List (Declarer × String) :=
  (ds.filter (·.name == name)).map fun d => (d.declarer, d.source)

/-- The names with their declarations, each name at its first place. -/
def declaredNames (collection : Collection) (config : Config) : List Collision :=
  let ds := declarations collection config
  (ds.map (·.name)).eraseDups.map fun n => ⟨n, declarersOf ds n⟩

/-- The names with two or more declarations. -/
def collisions (collection : Collection) (config : Config) : List Collision :=
  (declaredNames collection config).filter fun c => 2 ≤ c.declarers.length

/-- Collisions as problems. -/
def nameProblems (collection : Collection) (config : Config) : List Problem :=
  (collisions collection config).map .collision

/-- Every collision has at least two declarations. -/
theorem two_le_of_mem_collisions {collection : Collection} {config : Config} {c : Collision}
    (h : c ∈ collisions collection config) : 2 ≤ c.declarers.length := by
  simpa using (List.mem_filter.1 h).2

end SchemaTypes.Check
