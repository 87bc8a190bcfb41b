import PickBroker.Exception

namespace PickBroker

/-- A property tree by the paths of its nodes. A section has no text. -/
structure PropertyTree where
  data : String → Option String

/-- What the parser asks of the system, of boost and of the build: the files, the reading of an ini
file, the translation of a text to a value, which may fail, and whether the gRPC exporters are
there. -/
structure Environment where
  fileExists : String → Bool
  /-- Nothing when the file cannot be opened. -/
  fileContents : String → Option String
  read_ini : String → Except Exception PropertyTree
  toInt : String → Option Int32
  toUInt16 : String → Option UInt16
  toInt64 : String → Option Int64
  toBool : String → Option Bool
  withOTLPGRPC : Bool

namespace PropertyTree

variable {α : Type*}

/-- Nothing when there is no node, or when its text is not translated. -/
def get_optional (tree : PropertyTree) (translate : String → Option α) (path : String) : Option α :=
  (tree.data path).bind translate

/-- `get` with a default. -/
def get (tree : PropertyTree) (translate : String → Option α) (path : String) (default : α) : α :=
  (tree.get_optional translate path).getD default

/-- A translation that never fails. -/
def getString (tree : PropertyTree) (path default : String) : String := tree.get some path default

theorem getString_eq (tree : PropertyTree) (path default : String) :
    tree.getString path default = (tree.data path).getD default := by
  unfold getString get get_optional
  cases tree.data path <;> rfl

end PropertyTree

def loadStringFromFile (env : Environment) (path : String) : Except Exception String :=
  if !env.fileExists path then .ok ""
  else match env.fileContents path with
    | none => .error (.runtime_error ("Failed to open " ++ path))
    | some contents => .ok contents

/-- The test the parser makes of each file it is told of. -/
def requireFile (env : Environment) (what path : String) : Except Exception Unit :=
  if !env.fileExists path then .error (.invalid_argument (what ++ path ++ " does not exist"))
  else .ok ()

end PickBroker
